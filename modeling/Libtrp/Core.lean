import Mathlib

/-!
# The records of the library

The C structures of the router's data model, field for field, without the
fields no modelled function reads.  A pointer is a number that names the object
it was allocated for; an object keeps its name, so a pointer that outlives its
object names nothing else later.  `NULL` is `none`.

Machine integers that only count are naturals or integers; identifiers and
sequence numbers, whose bits the protocol uses, keep their width.

## References

`src/core.h`, `src/conn.h`, `src/connself.h`, `src/connpeer.h`,
`src/connlim.h`, `src/connstat.h`, `src/ping.h`, `src/message.h`,
`src/messageq.h`, `src/stream.h`, `src/streammap.h`.
-/

namespace Libtrp

/-- A pointer to an object of the heap. -/
abbrev Ptr := ℕ

/-- The bytes behind a pointer to unsigned characters. -/
abbrev Bytes := List UInt8

/-! ### Error numbers -/

/-- An error number; zero is success. -/
abbrev Errno := ℤ

def EAGAIN : Errno := 11
def EWOULDBLOCK : Errno := EAGAIN
def ENOMEM : Errno := 12
def EBUSY : Errno := 16
def EINVAL : Errno := 22
def ENOSPC : Errno := 28
def ETIME : Errno := 62
def ECOMM : Errno := 70
def ENOTCONN : Errno := 107
def ESHUTDOWN : Errno := 108

/-! ### Sizes -/

/-- The largest `int`. -/
def INT_MAX : ℤ := 2 ^ 31 - 1

/-- The largest `size_t`, used as "no position". -/
def NPOS : ℕ := 2 ^ 64 - 1

/-- `crypto_sign_BYTES` -/
def tripSign : ℕ := 64
/-- `crypto_box_NONCEBYTES` -/
def tripNonce : ℕ := 24
/-- `crypto_box_PUBLICKEYBYTES` -/
def tripKeyPub : ℕ := 32
/-- `crypto_box_SEALBYTES` -/
def cryptoBoxSealBytes : ℕ := 48
/-- `crypto_box_MACBYTES` -/
def cryptoBoxMacBytes : ℕ := 16

/-- `_TRIPR_MAX_TIMEOUT` -/
def triprMaxTimeout : ℕ := 1024

/-! ### Streams and messages -/

/-- What a slot of a stream map's array holds: nothing, a stream, or the
address of another slot, by the allocation the array is and the index in it. -/
inductive StreamCell
  | null
  | stream (s : Ptr)
  | slot (block : Ptr) (index : ℕ)
  deriving DecidableEq, Repr, Inhabited

/-- `streammap_t`.  `map` names the allocation that holds the array. -/
structure Streammap where
  size : ℤ
  cap : ℤ
  map : Option Ptr
  free : StreamCell
  deriving DecidableEq, Repr, Inhabited

/-- `_trip_stream_t` -/
structure Stream where
  connected : Bool
  id : ℤ
  flags : ℕ
  listbeg : Option Ptr
  listend : Option Ptr
  deriving DecidableEq, Repr, Inhabited

/-- There are two queues of messages. -/
instance neZeroTwo : NeZero 2 := ⟨Nat.succ_ne_zero 1⟩

/-- `_trip_msg_t` -/
structure Msg where
  stream : Ptr
  len : ℕ
  buf : Bytes
  priority : Fin 2
  next : Option Ptr
  deriving DecidableEq, Repr, Inhabited

/-- `messageq_t` -/
structure Messageq where
  sendmask : UInt32
  sendwhich : UInt32
  sendbeg : Fin 2 → Option Ptr
  sendend : Fin 2 → Option Ptr
  deriving Inhabited

/-! ### The heap of streams, messages and slot arrays -/

/-- The streams and messages behind their pointers, and the arrays of the
stream maps that are allocated and not freed.  `brk` is the first pointer no
allocation has returned yet. -/
structure StreamHeap where
  stream : Ptr → Stream
  msg : Ptr → Msg
  block : Ptr → Option (List StreamCell)
  brk : Ptr
  deriving Inhabited

namespace StreamHeap

/-- Write through a pointer to a stream. -/
def setStream (h : StreamHeap) (s : Ptr) (f : Stream → Stream) : StreamHeap :=
  { h with stream := Function.update h.stream s (f (h.stream s)) }

/-- Write through a pointer to a message. -/
def setMsg (h : StreamHeap) (m : Ptr) (f : Msg → Msg) : StreamHeap :=
  { h with msg := Function.update h.msg m (f (h.msg m)) }

/-- Give an array its contents, or free it. -/
def setBlock (h : StreamHeap) (b : Ptr) (cells : Option (List StreamCell)) : StreamHeap :=
  { h with block := Function.update h.block b cells }

/-- The link of a message. -/
def next (h : StreamHeap) (m : Ptr) : Option Ptr := (h.msg m).next

@[simp] theorem stream_setStream_self (h : StreamHeap) (s : Ptr) (f : Stream → Stream) :
    (h.setStream s f).stream s = f (h.stream s) := Function.update_self s _ _

theorem stream_setStream_of_ne (h : StreamHeap) {s t : Ptr} (hts : t ≠ s) (f : Stream → Stream) :
    (h.setStream s f).stream t = h.stream t := Function.update_of_ne hts _ _

@[simp] theorem stream_setMsg (h : StreamHeap) (m : Ptr) (f : Msg → Msg) :
    (h.setMsg m f).stream = h.stream := rfl

@[simp] theorem brk_setMsg (h : StreamHeap) (m : Ptr) (f : Msg → Msg) :
    (h.setMsg m f).brk = h.brk := rfl

@[simp] theorem brk_setStream (h : StreamHeap) (s : Ptr) (f : Stream → Stream) :
    (h.setStream s f).brk = h.brk := rfl

@[simp] theorem next_setStream (h : StreamHeap) (s : Ptr) (f : Stream → Stream) :
    (h.setStream s f).next = h.next := rfl

@[simp] theorem msg_setStream (h : StreamHeap) (s : Ptr) (f : Stream → Stream) :
    (h.setStream s f).msg = h.msg := rfl

@[simp] theorem msg_setMsg_self (h : StreamHeap) (m : Ptr) (f : Msg → Msg) :
    (h.setMsg m f).msg m = f (h.msg m) := Function.update_self m _ _

theorem msg_setMsg_of_ne (h : StreamHeap) {m n : Ptr} (hnm : n ≠ m) (f : Msg → Msg) :
    (h.setMsg m f).msg n = h.msg n := Function.update_of_ne hnm _ _

theorem next_setMsg (h : StreamHeap) (m : Ptr) (f : Msg → Msg) :
    (h.setMsg m f).next = Function.update h.next m (f (h.msg m)).next := by
  funext n
  rcases eq_or_ne n m with rfl | hnm
  · rw [Function.update_self, next, msg_setMsg_self]
  · rw [Function.update_of_ne hnm, next, msg_setMsg_of_ne h hnm, next]

@[simp] theorem block_setStream (h : StreamHeap) (s : Ptr) (f : Stream → Stream) :
    (h.setStream s f).block = h.block := rfl

@[simp] theorem stream_setBlock (h : StreamHeap) (b : Ptr) (cells : Option (List StreamCell)) :
    (h.setBlock b cells).stream = h.stream := rfl

@[simp] theorem block_setBlock_self (h : StreamHeap) (b : Ptr)
    (cells : Option (List StreamCell)) : (h.setBlock b cells).block b = cells :=
  Function.update_self b _ _

end StreamHeap

/-! ### Connections -/

/-- `enum _tripc_state` -/
inductive TripcState
  | START | RESOLVE | OPEN | CHAL | PING | READY | READY_PING | CLOSE | END | ERROR
  deriving DecidableEq, Repr, Inhabited

/-- `connlim_t` -/
structure Connlim where
  credit : UInt32
  stream : UInt32
  messageSize : UInt32
  message : UInt32
  deriving DecidableEq, Repr, Inhabited

/-- `connstat_t` -/
structure Connstat where
  rtt : UInt32
  sent : UInt32
  recv : UInt32
  deriving DecidableEq, Repr, Inhabited

/-- `connself_t` -/
structure Connself where
  id : UInt64
  sequence : UInt64
  opensk : Option Bytes
  signsk : Option Bytes
  pk : Option Bytes
  sk : Option Bytes
  nonce : Option Bytes
  stat : Connstat
  deriving DecidableEq, Repr, Inhabited

/-- `connpeer_t` -/
structure Connpeer where
  id : UInt64
  openpk : Option Bytes
  signpk : Option Bytes
  pk : Option Bytes
  nonce : Option Bytes
  seqfloor : UInt64
  window : UInt32
  lim : Connlim
  deriving DecidableEq, Repr, Inhabited

/-- `ping_t` -/
structure Ping where
  nonce : Bytes
  timestamp : UInt64
  maxms : ℤ
  ms : ℤ
  isactive : Bool
  deriving DecidableEq, Repr, Inhabited

/-- `struct _trip_connection_s` -/
structure Connection where
  /-- Packet source key. -/
  src : ℤ
  resolvekey : ℤ
  incoming : Bool
  encrypted : Bool
  state : TripcState
  statedeadline : ℕ
  /-- The pending entry of the timer wheel. -/
  statetimer : Option Ptr
  retry : ℤ
  maxretry : ℤ
  maxstatems : ℤ
  growms : ℤ
  statems : ℤ
  maxresolve : ℤ
  error : Errno
  errmsg : Option String
  self : Connself
  peer : Connpeer
  ping : Ping
  /-- Whether the connection is in the send queue, and the next one there. -/
  insend : Bool
  hassend : Bool
  next : Option Ptr
  streams : Streammap
  msg : Messageq
  deriving Inhabited

namespace Connection

/-- `c->next = n` -/
def setNext (x : Connection) (n : Option Ptr) : Connection := { x with next := n }

/-- `c->insend = b` -/
def setInsend (x : Connection) (b : Bool) : Connection := { x with insend := b }

/-- `c->hassend = b` -/
def setHassend (x : Connection) (b : Bool) : Connection := { x with hassend := b }

/-- `c->src = src` -/
def setSrc (x : Connection) (src : ℤ) : Connection := { x with src := src }

@[simp] theorem next_setNext (x : Connection) (n : Option Ptr) : (x.setNext n).next = n := rfl
@[simp] theorem insend_setNext (x : Connection) (n : Option Ptr) :
    (x.setNext n).insend = x.insend := rfl
@[simp] theorem next_setInsend (x : Connection) (b : Bool) : (x.setInsend b).next = x.next := rfl
@[simp] theorem insend_setInsend (x : Connection) (b : Bool) : (x.setInsend b).insend = b := rfl
@[simp] theorem next_setHassend (x : Connection) (b : Bool) : (x.setHassend b).next = x.next := rfl
@[simp] theorem insend_setHassend (x : Connection) (b : Bool) :
    (x.setHassend b).insend = x.insend := rfl

end Connection

/-! ### The heap of connections -/

/-- The connections behind their pointers.  `brk` is the first pointer no
allocation has returned yet; the next one returns it, whatever was freed. -/
structure ConnHeap where
  conn : Ptr → Connection
  /-- Allocated and not freed. -/
  live : Ptr → Bool
  brk : Ptr
  deriving Inhabited

namespace ConnHeap

/-- Write through a pointer to a connection. -/
def set (h : ConnHeap) (c : Ptr) (f : Connection → Connection) : ConnHeap :=
  { h with conn := Function.update h.conn c (f (h.conn c)) }

/-- The `next` links of the connections. -/
def next (h : ConnHeap) (c : Ptr) : Option Ptr := (h.conn c).next

@[simp] theorem conn_set_self (h : ConnHeap) (c : Ptr) (f : Connection → Connection) :
    (h.set c f).conn c = f (h.conn c) := Function.update_self c _ _

theorem conn_set_of_ne (h : ConnHeap) {c d : Ptr} (hdc : d ≠ c) (f : Connection → Connection) :
    (h.set c f).conn d = h.conn d := Function.update_of_ne hdc _ _

@[simp] theorem live_set (h : ConnHeap) (c : Ptr) (f : Connection → Connection) :
    (h.set c f).live = h.live := rfl

@[simp] theorem brk_set (h : ConnHeap) (c : Ptr) (f : Connection → Connection) :
    (h.set c f).brk = h.brk := rfl

theorem set_set (h : ConnHeap) (c : Ptr) (f g : Connection → Connection) :
    (h.set c f).set c g = h.set c fun x => g (f x) := by
  simp [set]

theorem next_set (h : ConnHeap) (c : Ptr) (f : Connection → Connection) :
    (h.set c f).next = Function.update h.next c (f (h.conn c)).next := by
  funext d
  rcases eq_or_ne d c with rfl | hdc
  · rw [Function.update_self, next, conn_set_self]
  · rw [Function.update_of_ne hdc, next, conn_set_of_ne h hdc, next]

/-- A field that a write keeps is kept for every connection. -/
theorem conn_set_field {α : Type*} (g : Connection → α) (h : ConnHeap) (c d : Ptr)
    {f : Connection → Connection} (hf : g (f (h.conn c)) = g (h.conn c)) :
    g ((h.set c f).conn d) = g (h.conn d) := by
  rcases eq_or_ne d c with rfl | hdc
  · rw [conn_set_self, hf]
  · rw [conn_set_of_ne h hdc]

end ConnHeap

end Libtrp
