import Mathlib.Data.Stream.Defs
import Libtrp.Lib.Prog
import Libtrp.Connmap
import Libtrp.Pack
import Libtrp.Resolveq
import Libtrp.Sendq
import Libtrp.Timeout

/-!
# The router

The record of a router, and programs that read and write it.  What a program
gets from outside is an `Oracle`: which allocations succeed, what the clock
reads, what random numbers are drawn, what the user's screening decides, and the
signatures of the cryptographic library.

The timeout callback is `_trip_timeout_cb`, which `trip_run_init` installs.

## Main definitions

* `Router` — the record, which `tripNew` and `tripSetopt` make.
* `TripM` — the programs.
* `tripSetTimeoutM`, `tripCancelTimeoutM` — setting and cancelling timers.
* `tripQconnection`, `tripUnqconnection` — the send queue.

## References

`src/trip.h`, `src/trip.c`, `include/libtrp.h`.
-/

namespace Libtrp

open Lib

/-- `enum _tripr_state` -/
inductive TriprState
  | START | BIND | LISTEN | CLOSE | UNBIND | END | ERROR
  deriving DecidableEq, Repr, Inhabited

/-! ### Flags -/

def triprFlagAllowIn : UInt32 := (1 : UInt32) <<< 0
def triprFlagAllowOut : UInt32 := (1 : UInt32) <<< 1
def triprFlagAllowPlainOpen : UInt32 := (1 : UInt32) <<< 2
def triprFlagAllowPlainIsig : UInt32 := (1 : UInt32) <<< 3
def triprFlagAllowPlainOsig : UInt32 := (1 : UInt32) <<< 4
def triprFlagAllowPlainComm : UInt32 := (1 : UInt32) <<< 5
def triprFlagFreePacket : UInt32 := (1 : UInt32) <<< 6
def triprFlagAlwaysReady : UInt32 := (1 : UInt32) <<< 7

/-! ### The record -/

/-- The callbacks of timers, each with the data it is called with; `user` is one
that was set with `trip_set_timeout`. -/
inductive Callback
  | tripSendImmediately
  | tripTimeoutRouter
  | tripStopAsync
  | tripResolveDelaySuccess (c : Ptr)
  | tripResolveDelayFailure (c : Ptr)
  | tripOpenConnectionAsync (c : Ptr)
  | tripcTimeoutStateResolve (c : Ptr)
  | tripcTimeoutStateResend (c : Ptr)
  | tripcTimeoutStateReadyPing (c : Ptr)
  | user
  deriving DecidableEq, Repr

/-- The connection a callback is called with. -/
def Callback.conn? : Callback → Option Ptr
  | .tripResolveDelaySuccess c | .tripResolveDelayFailure c | .tripOpenConnectionAsync c
  | .tripcTimeoutStateResolve c | .tripcTimeoutStateResend c
  | .tripcTimeoutStateReadyPing c => some c
  | .tripSendImmediately | .tripTimeoutRouter | .tripStopAsync | .user => none

/-- `trip_packet_t`: whether its `router` is set. -/
structure Packet where
  router : Bool
  deriving DecidableEq, Repr, Inhabited

/-- `struct _trip_router_s` -/
structure Router where
  /-- `watch`, `timeout`, `connection`, `stream` and `message` are all set, which is what
  `_trip_verify` looks at; `screen` is taken to be set. -/
  hooks : Bool
  state : TriprState
  statedeadline : ℕ
  statetimer : Option Ptr
  error : Errno
  errmsg : Option String
  resolveq : Resolveq
  conn : Connmap
  connsrc : Option Ptr × Option Ptr
  sendq : Sendq
  buf : Buf
  buflen : ℕ
  /-- Not zero when the buffer has a packet to send. -/
  sendlen : ℕ
  sendsrc : ℤ
  packet : Option Packet
  timers : Timers Callback
  opensk : Option Bytes
  maxPacketSendCount : UInt32
  maxConnectionSendCount : UInt32
  maxStreams : UInt32
  timeoutBind : ℤ
  timeoutClose : ℤ
  timeoutUnbind : ℤ
  flag : UInt32
  /-- The connections behind their pointers. -/
  heap : ConnHeap

namespace Router

/-- `r->flag & f` -/
def has (r : Router) (f : UInt32) : Bool := r.flag &&& f != 0

/-- Write through a pointer to a connection. -/
def setConn (r : Router) (c : Ptr) (f : Connection → Connection) : Router :=
  { r with heap := r.heap.set c f }

/-- What an operation on the send queue leaves. -/
def setSendq (r : Router) (qh : Sendq × ConnHeap) : Router := { r with sendq := qh.1, heap := qh.2 }

/-- What an operation on the connection map leaves. -/
def setMap (r : Router) (mh : Connmap × ConnHeap) : Router := { r with conn := mh.1, heap := mh.2 }

def setTimers (r : Router) (timers : Timers Callback) : Router := { r with timers := timers }

def setResolveq (r : Router) (q : Resolveq) : Router := { r with resolveq := q }

/-- Memory for the connection at `r.heap.brk`.  No record is handed out twice: that the allocator
may return one that was given back is not modelled. -/
def allocConn (r : Router) : Router :=
  { r with heap := ⟨r.heap.conn, Function.update r.heap.live r.heap.brk true, r.heap.brk + 1⟩ }

/-- The connection `c` is given back.  Its record keeps what it holds, and is not used again. -/
def freeConn (r : Router) (c : Ptr) : Router :=
  { r with heap := { r.heap with live := Function.update r.heap.live c false } }

/-- Two writes through the same pointer are one. -/
theorem setConn_setConn (r : Router) (c : Ptr) (f g : Connection → Connection) :
    (r.setConn c f).setConn c g = r.setConn c fun x => g (f x) := by
  unfold setConn
  rw [ConnHeap.set_set]

@[simp] theorem conn_setMap (r : Router) (mh : Connmap × ConnHeap) : (r.setMap mh).conn = mh.1 :=
  rfl
@[simp] theorem heap_setMap (r : Router) (mh : Connmap × ConnHeap) : (r.setMap mh).heap = mh.2 :=
  rfl
@[simp] theorem conn_freeConn (r : Router) (c : Ptr) : (r.freeConn c).conn = r.conn := rfl
@[simp] theorem heap_freeConn_conn (r : Router) (c : Ptr) :
    (r.freeConn c).heap.conn = r.heap.conn := rfl
@[simp] theorem heap_freeConn_brk (r : Router) (c : Ptr) :
    (r.freeConn c).heap.brk = r.heap.brk := rfl
@[simp] theorem connsrc_setConn (r : Router) (c : Ptr) (f : Connection → Connection) :
    (r.setConn c f).connsrc = r.connsrc := rfl
@[simp] theorem connsrc_setMap (r : Router) (mh : Connmap × ConnHeap) :
    (r.setMap mh).connsrc = r.connsrc := rfl
@[simp] theorem connsrc_allocConn (r : Router) : r.allocConn.connsrc = r.connsrc := rfl
@[simp] theorem connsrc_freeConn (r : Router) (c : Ptr) :
    (r.freeConn c).connsrc = r.connsrc := rfl

end Router

/-! ### A new router -/

/-- `enum trip_preset` -/
inductive TripPreset
  | ROUTER | SERVER | CLIENT | MULTICLIENT
  deriving DecidableEq, Repr

/-- The flags `trip_new` leaves for a preset. -/
def tripPresetFlag (preset : TripPreset) : UInt32 :=
  let flag := triprFlagAllowIn ||| triprFlagAllowOut
  match preset with
  | .ROUTER => flag
  | .SERVER => flag &&& ~~~triprFlagAllowOut
  | .CLIENT | .MULTICLIENT => flag &&& ~~~triprFlagAllowIn

/-- `trip_new`, when its allocations succeed: `buf` is the buffer, and the clock
reads `now`. -/
def tripNew (preset : TripPreset) (now : ℕ) (buf : Buf) : Router where
  hooks := false
  state := .START
  statedeadline := 0
  statetimer := none
  error := 0
  errmsg := none
  resolveq := resolveqInit
  conn := connmapInit ((1 : UInt64) <<< 19)
  connsrc := (none, none)
  sendq := sendqInit
  buf := buf
  buflen := 1200
  sendlen := 0
  sendsrc := 0
  packet := none
  timers := timersInit now
  opensk := none
  maxPacketSendCount := 1024
  maxConnectionSendCount := 128
  maxStreams := 8
  timeoutBind := 1000
  timeoutClose := 0
  timeoutUnbind := 0
  flag := tripPresetFlag preset
  heap := ⟨fun _ => default, fun _ => false, 0⟩

/-- The options of `trip_setopt` with what they set: `HOOKS` stands for the
callbacks, which are all set afterwards or not, and `udp` is the interface
`trip_packet_new_udp` returns. -/
inductive TripRouterOpt
  | OPEN_KP (opensk : Option Bytes)
  | PACKET (packet udp : Option Packet)
  | HOOKS (all : Bool)
  | ALLOW_PLAIN_OPEN (val : Bool)
  | ALLOW_PLAIN_ISIG (val : Bool)
  | ALLOW_PLAIN_OSIG (val : Bool)
  | ALLOW_PLAIN_COMM (val : Bool)
  deriving DecidableEq, Repr

/-- `r->flag |= f` or `r->flag &= ~f` -/
def Router.setFlag (r : Router) (f : UInt32) (val : Bool) : Router :=
  { r with flag := if val then r.flag ||| f else r.flag &&& ~~~f }

/-- `trip_setopt` -/
def tripSetopt (opt : TripRouterOpt) (r : Router) : Router :=
  match opt with
  | .OPEN_KP opensk => { r with opensk := opensk }
  | .PACKET (some p) _ => { r with packet := some p }
  | .PACKET none udp => { r.setFlag triprFlagFreePacket true with packet := udp }
  | .HOOKS all => { r with hooks := all }
  | .ALLOW_PLAIN_OPEN val => r.setFlag triprFlagAllowPlainOpen val
  | .ALLOW_PLAIN_ISIG val => r.setFlag triprFlagAllowPlainIsig val
  | .ALLOW_PLAIN_OSIG val => r.setFlag triprFlagAllowPlainOsig val
  | .ALLOW_PLAIN_COMM val => r.setFlag triprFlagAllowPlainComm val

/-! ### Programs -/

/-- `trip_screen_t`.  `route` is the offset of the routing bytes in the segment. -/
structure TripScreen where
  allow : Bool
  version : UInt16
  routelen : UInt32
  route : ℕ
  opensk : Option Bytes
  signpk : Option Bytes
  signsk : Option Bytes
  deriving DecidableEq, Inhabited

/-- What a program gets from outside. -/
structure Oracle where
  alloc : Stream' Bool
  clock : Stream' UInt64
  random : Stream' UInt32
  /-- Nonces, keys, and what variables hold before they are written. -/
  bytes : Stream' Bytes
  /-- The user's `screen`. -/
  screen : TripScreen → TripScreen
  /-- `crypto_sign_detached`, of a message and a key. -/
  sign : Bytes → Bytes → Bytes
  /-- `crypto_sign_verify_detached`, of a signature, a message and a key. -/
  verify : Bytes → Bytes → Bytes → Bool

/-- What is written down about the lengths a program handles: a part of the
segment that is handed on, and a subtraction. -/
inductive Mark
  | hand (off len : ℕ)
  | sub (a b : ℕ)
  deriving DecidableEq, Repr

/-- The state of a program. -/
structure Env where
  router : Router
  oracle : Oracle
  marks : List Mark

namespace Env

def setRouter (s : Env) (r : Router) : Env := { s with router := r }

def popAlloc (s : Env) : Env := { s with oracle := { s.oracle with alloc := s.oracle.alloc.tail } }

def popClock (s : Env) : Env := { s with oracle := { s.oracle with clock := s.oracle.clock.tail } }

def popRandom (s : Env) : Env :=
  { s with oracle := { s.oracle with random := s.oracle.random.tail } }

def popBytes (s : Env) : Env := { s with oracle := { s.oracle with bytes := s.oracle.bytes.tail } }

def addMark (s : Env) (m : Mark) : Env := { s with marks := s.marks ++ [m] }

@[simp] theorem router_setRouter (s : Env) (r : Router) : (s.setRouter r).router = r := rfl
@[simp] theorem setRouter_setRouter (s : Env) (r r' : Router) :
    (s.setRouter r).setRouter r' = s.setRouter r' := rfl
@[simp] theorem router_popAlloc (s : Env) : s.popAlloc.router = s.router := rfl
@[simp] theorem router_popClock (s : Env) : s.popClock.router = s.router := rfl
@[simp] theorem router_popRandom (s : Env) : s.popRandom.router = s.router := rfl
@[simp] theorem router_popBytes (s : Env) : s.popBytes.router = s.router := rfl
@[simp] theorem router_addMark (s : Env) (m : Mark) : (s.addMark m).router = s.router := rfl
@[simp] theorem oracle_setRouter (s : Env) (r : Router) : (s.setRouter r).oracle = s.oracle := rfl
@[simp] theorem oracle_addMark (s : Env) (m : Mark) : (s.addMark m).oracle = s.oracle := rfl
@[simp] theorem marks_setRouter (s : Env) (r : Router) : (s.setRouter r).marks = s.marks := rfl
@[simp] theorem marks_popAlloc (s : Env) : s.popAlloc.marks = s.marks := rfl
@[simp] theorem marks_popClock (s : Env) : s.popClock.marks = s.marks := rfl
@[simp] theorem marks_popRandom (s : Env) : s.popRandom.marks = s.marks := rfl
@[simp] theorem marks_popBytes (s : Env) : s.popBytes.marks = s.marks := rfl
@[simp] theorem marks_addMark (s : Env) (m : Mark) : (s.addMark m).marks = s.marks ++ [m] := rfl

end Env

/-- A program over the router. -/
abbrev TripM (α : Type) := Prog Env α

/-- Read the router. -/
def fetch {α : Type} (f : Router → α) : TripM α := Prog.read fun s => f s.router

/-- Change the router. -/
def store (f : Router → Router) : TripM Unit := Prog.write fun s => s.setRouter (f s.router)

/-- Ask the oracle for something constant. -/
def consult {α : Type} (f : Oracle → α) : TripM α := Prog.read fun s => f s.oracle

/-- Whether the next `tripm_alloc` succeeds. -/
def tripmAlloc : TripM Bool := Prog.take fun s => (s.oracle.alloc.head, s.popAlloc)

/-- `triptime_now` -/
def triptimeNow : TripM ℕ := Prog.take fun s => (s.oracle.clock.head.toNat, s.popClock)

/-- `randombytes_random` -/
def randombytesRandom : TripM UInt32 := Prog.take fun s => (s.oracle.random.head, s.popRandom)

/-- `randombytes_buf` -/
def randombytesBuf : TripM Bytes := Prog.take fun s => (s.oracle.bytes.head, s.popBytes)

/-- Write a mark down. -/
def mark (m : Mark) : TripM Unit := Prog.write fun s => s.addMark m

/-- `a - b` of `size_t`. -/
def sizeSubM (a b : ℕ) : TripM ℕ := do
  mark (.sub a b)
  return sizeSub a b

/-- `*c` -/
def getConn (c : Ptr) : TripM Connection := fetch fun r => r.heap.conn c

/-- A write to `*c`. -/
def setConn (c : Ptr) (f : Connection → Connection) : TripM Unit := store fun r => r.setConn c f

/-! ### Timers and the send queue -/

/-- `_trip_set_timeout` on the router. -/
def tripSetTimeoutM (ms : ℤ) (cb : Callback) : TripM (Option Ptr) := do
  let alloc ← tripmAlloc
  let now ← triptimeNow
  let now' ← triptimeNow
  Prog.take fun s =>
    let (e, timers) := tripSetTimeout alloc now now' ms (some cb) s.router.timers
    (e.map TimerEntry.id, s.setRouter (s.router.setTimers timers))

/-- `_trip_cancel_timeout` on the router. -/
def tripCancelTimeoutM (id : Ptr) : TripM Unit :=
  store fun r => r.setTimers (tripCancelTimeout id r.timers)

/-- `_trip_qconnection` -/
def tripQconnection (c : Ptr) : TripM Unit := do
  store fun r => r.setSendq (sendqNq r.sendq r.heap c)
  let flag ← fetch Router.flag
  -- `|` where `&` is meant: the timer is set whatever the flag
  if flag ||| triprFlagAlwaysReady ≠ 0 then
    let _ ← tripSetTimeoutM 0 .tripSendImmediately
  else return ()

/-- `_trip_unqconnection` -/
def tripUnqconnection (c : Ptr) : TripM Unit :=
  store fun r => r.setSendq (sendqDel r.sendq r.heap c)

/-! ### Connections of the heap -/

/-- `_trip_new_connection` -/
def tripNewConnection : TripM (Option Ptr) := do
  let alloc ← tripmAlloc
  if alloc then
    let c ← fetch fun r => r.heap.brk
    store Router.allocConn
    return some c
  else return none

/-- `_trip_free_connection` -/
def tripFreeConnection (c : Ptr) : TripM Unit := store fun r => r.freeConn c

/-- `connmap_add` on the router. -/
def connmapAddM (c : Ptr) : TripM Errno := do
  let alloc ← tripmAlloc
  let r₁ ← randombytesRandom
  let r₂ ← randombytesRandom
  Prog.take fun s =>
    let (code, mh) := connmapAdd s.router.conn s.router.heap c alloc r₁ r₂
    (code, s.setRouter (s.router.setMap mh))

/-! ### How the primitives run -/

section Exec

variable {α : Type}

@[simp] theorem exec_fetch (f : Router → α) (s : Env) :
    (fetch f).exec s = (some (f s.router), s) := rfl

@[simp] theorem exec_consult (f : Oracle → α) (s : Env) :
    (consult f).exec s = (some (f s.oracle), s) := rfl

@[simp] theorem exec_store (f : Router → Router) (s : Env) :
    (store f).exec s = (some (), s.setRouter (f s.router)) := rfl

@[simp] theorem exec_mark (m : Mark) (s : Env) : (mark m).exec s = (some (), s.addMark m) := rfl

@[simp] theorem exec_sizeSubM (a b : ℕ) (s : Env) :
    (sizeSubM a b).exec s = (some (sizeSub a b), s.addMark (.sub a b)) := rfl

@[simp] theorem exec_getConn (c : Ptr) (s : Env) :
    (getConn c).exec s = (some (s.router.heap.conn c), s) := rfl

@[simp] theorem exec_setConn (c : Ptr) (f : Connection → Connection) (s : Env) :
    (setConn c f).exec s = (some (), s.setRouter (s.router.setConn c f)) := rfl

@[simp] theorem exec_tripmAlloc (s : Env) :
    tripmAlloc.exec s = (some s.oracle.alloc.head, s.popAlloc) := rfl

@[simp] theorem exec_triptimeNow (s : Env) :
    triptimeNow.exec s = (some s.oracle.clock.head.toNat, s.popClock) := rfl

@[simp] theorem exec_randombytesBuf (s : Env) :
    randombytesBuf.exec s = (some s.oracle.bytes.head, s.popBytes) := rfl

theorem exec_tripNewConnection (s : Env) :
    tripNewConnection.exec s =
      if s.oracle.alloc.head then
        (some (some s.router.heap.brk), s.popAlloc.setRouter s.router.allocConn)
      else (some none, s.popAlloc) := by
  unfold tripNewConnection
  rw [Prog.exec_bind_of (exec_tripmAlloc s)]
  cases s.oracle.alloc.head <;> rfl

/-- What comes after asking for a connection. -/
theorem exec_tripNewConnection_bind {α : Type} (f : Option Ptr → TripM α) (s : Env) :
    (tripNewConnection >>= f).exec s =
      if s.oracle.alloc.head then
        (f (some s.router.heap.brk)).exec (s.popAlloc.setRouter s.router.allocConn)
      else (f none).exec s.popAlloc := by
  rw [Prog.exec_bind, exec_tripNewConnection]
  cases s.oracle.alloc.head <;> rfl

theorem exec_connmapAddM (c : Ptr) (s : Env) :
    (connmapAddM c).exec s =
      let r := connmapAdd s.router.conn s.router.heap c s.oracle.alloc.head s.oracle.random.head
        s.oracle.random.tail.head
      (some r.1, s.popAlloc.popRandom.popRandom.setRouter (s.router.setMap r.2)) := rfl

end Exec

/-! ### A router to run programs on -/

/-- A router that asks for no encryption and no signatures. -/
def plainRouter : Router :=
  [.ALLOW_PLAIN_OPEN true, .ALLOW_PLAIN_ISIG true, .ALLOW_PLAIN_OSIG true,
    .ALLOW_PLAIN_COMM true].foldr tripSetopt (tripNew .ROUTER 0 fun _ => 0)

/-- Where allocations succeed, and everything is let in. -/
def plainOracle : Oracle where
  alloc := Stream'.const true
  clock := Stream'.const 0
  random := Stream'.const 0
  bytes := Stream'.const []
  screen := fun screen => { screen with allow := true }
  sign := fun _ _ => []
  verify := fun _ _ _ => false

end Libtrp
