import Libtrp.Router
import Libtrp.Streammap

/-!
# Connections

A connection moves from `START` through `RESOLVE`, `OPEN` and `PING` to `READY`
when this side opened it, and from `CHAL` on when the peer did.  Entering a
state arms the connection's timer and queues what has to be sent.

What these programs can do to the router is little, and said once: they write to
the connection's own record, enqueue it, set timers that are its own or ask to
send, and cancel timers.  `Acts c` is the relation of what such steps lead to.

## Main definitions

* `tripcSetState`, `tripcRead`, `tripcSend` — the state machine, and what it does
  with a segment that came in and with one that goes out.
* `Acts c r r'` — `r'` comes from `r` by steps of the connection `c`.

## Main results

* `RunsOn.tripcSetState`, `ActsOn.tripcRead`, `ActsOn.tripcSend` — the programs
  do no more than that.

## References

`src/conn.c`, `src/conn.h`, `src/protocol.h`.
-/

namespace Libtrp

open Lib

/-! ### The protocol -/

def tripControlData : UInt8 := 0
def tripControlOpen : UInt8 := 1
def tripControlChal : UInt8 := 2
def tripControlPing : UInt8 := 3
def tripControlDisc : UInt8 := 4
def tripControlMax : UInt8 := 5

/-- `_TRIP_PREFIX_EMASK` -/
def tripPrefixEmask : UInt8 := 0x80

/-- `TRIP_VERSION_MAJOR` -/
def tripVersionMajor : UInt16 := 0

/-- `_trip_prefix_t` -/
structure TripPrefix where
  encrypted : Bool
  control : UInt8
  id : UInt64
  seq : UInt64
  deriving DecidableEq, Repr

/-! ### Setup -/

/-- `_tripc_init`: what `memset` and the assignments leave. -/
def tripcInit (incoming : Bool) (maxStreams : UInt32) : Connection :=
  { (default : Connection) with
    incoming := incoming
    ping := ⟨List.replicate tripNonce 0, 0, 0, 0, false⟩
    streams := streammapInit maxStreams.toInt32.toInt
    maxresolve := 500
    maxstatems := 3000
    statems := 100 }

/-- `_tripc_set_screen`.  The user's data and the route are not modelled. -/
def tripcSetScreen (c : Ptr) (screen : TripScreen) : TripM Unit :=
  setConn c fun x =>
    { x with
      self := { x.self with opensk := screen.opensk, signsk := screen.signsk }
      peer := { x.peer with signpk := screen.signpk } }

/-- `_tripc_mk_keys` -/
def tripcMkKeys (c : Ptr) : TripM Unit := do
  let x ← getConn c
  if x.encrypted then
    let pk ← (if x.self.pk.isSome then pure true else tripmAlloc)
    let sk ← (if x.self.sk.isSome then pure true else tripmAlloc)
    if pk && sk then
      let pk ← randombytesBuf
      let sk ← randombytesBuf
      setConn c fun x => { x with self := { x.self with pk := some pk, sk := some sk } }
    else setConn c fun x => { x with self := { x.self with pk := none, sk := none } }
  else return ()

/-- `_tripc_generate_ping` -/
def tripcGeneratePing (c : Ptr) : TripM Unit := do
  let nonce ← randombytesBuf
  let now ← triptimeNow
  setConn c fun x =>
    { x with ping := { x.ping with nonce := nonce, timestamp := UInt64.ofNat now } }

/-! ### Timers and sending -/

/-- `_tripc_set_deadline` -/
def tripcSetDeadline (c : Ptr) (ms : ℤ) : TripM Unit := do
  let now ← triptimeNow
  setConn c fun x => { x with statedeadline := triptimeDeadline now ms }

/-- `_tripc_set_growth` -/
def tripcSetGrowth (c : Ptr) (ms : ℤ) : TripM Unit :=
  setConn c fun x => { x with growms := ms, retry := 0 }

/-- `_tripc_get_growth` -/
def tripcGetGrowth (c : Ptr) : TripM ℤ := do
  let x ← getConn c
  let growms := x.growms + x.growms.tdiv 2
  setConn c fun x =>
    { x with
      growms := if growms > x.maxstatems then x.maxstatems else growms
      retry := x.retry + 1 }
  return x.growms

/-- `_tripc_set_timeout` -/
def tripcSetTimeout (c : Ptr) (ms : ℤ) (cb : Ptr → Callback) : TripM Unit := do
  let e ← tripSetTimeoutM ms (cb c)
  setConn c fun x => { x with statetimer := e }

/-- `_tripc_cancel_timeout` -/
def tripcCancelTimeout (c : Ptr) : TripM Unit := do
  let x ← getConn c
  match x.statetimer with
  | some e => do
    tripCancelTimeoutM e
    setConn c fun x => { x with statetimer := none }
  | none => return ()

/-- `_tripc_set_send` -/
def tripcSetSend (c : Ptr) : TripM Unit := do
  tripQconnection c
  setConn c fun x => x.setHassend true

/-- `_tripc_seq` -/
def tripcSeq (c : Ptr) : TripM UInt64 := do
  let x ← getConn c
  setConn c fun x => { x with self := { x.self with sequence := x.self.sequence + 1 } }
  return x.self.sequence

/-! ### The state machine -/

/-- The first switch of `_tripc_set_state`.  It is over the state that is
entered. -/
def tripcLeave (c : Ptr) : TripcState → TripM Unit
  | .RESOLVE | .OPEN | .CHAL | .PING | .READY | .CLOSE => tripcCancelTimeout c
  | .START | .READY_PING | .END | .ERROR => return ()

/-- The second switch of `_tripc_set_state`. -/
def tripcEnter (c : Ptr) : TripcState → TripM Unit
  | .RESOLVE => do
    let x ← getConn c
    tripcSetTimeout c x.maxresolve .tripcTimeoutStateResolve
  | .OPEN => do
    tripcMkKeys c
    let x ← getConn c
    tripcSetDeadline c x.maxstatems
    tripcSetGrowth c x.statems
    tripcSetSend c
    let ms ← tripcGetGrowth c
    tripcSetTimeout c ms .tripcTimeoutStateResend
  | .CHAL => tripcMkKeys c
  | .PING => do
    tripcGeneratePing c
    let x ← getConn c
    tripcSetDeadline c x.ping.maxms
    tripcSetGrowth c x.ping.ms
    let ms ← tripcGetGrowth c
    tripcSetTimeout c ms .tripcTimeoutStateResend
    tripcSetSend c
  | .READY => do
    let x ← getConn c
    tripcSetDeadline c (x.ping.maxms * 2)
    tripcSetTimeout c (x.ping.maxms + x.ping.maxms.tdiv 2) .tripcTimeoutStateReadyPing
  | .CLOSE => do
    let x ← getConn c
    tripcSetDeadline c x.maxstatems
    tripcSetTimeout c x.statems .tripcTimeoutStateReadyPing
  | .START | .READY_PING | .END | .ERROR => return ()

/-- `_tripc_set_state` -/
def tripcSetState (c : Ptr) (state : TripcState) : TripM Unit := do
  tripcLeave c state
  setConn c fun x => { x with state := state }
  tripcEnter c state

/-- `_tripc_set_error` -/
def tripcSetError (c : Ptr) (eval : Errno) (msg : Option String) : TripM Unit := do
  let x ← getConn c
  if x.state ≠ .ERROR then
    let alloc ← tripmAlloc
    setConn c fun x =>
      { x with error := eval, errmsg := if alloc then some (msg.getD "") else none }
    tripcSetState c .ERROR
  else return ()

/-- `_tripc_start` -/
def tripcStart (c : Ptr) : TripM Unit := do
  let x ← getConn c
  if x.state ≠ .START then tripcSetError c EINVAL none
  else tripcSetState c (if x.incoming then .CHAL else .RESOLVE)

/-- `_tripc_resolved` -/
def tripcResolved (c : Ptr) : TripM Unit := tripcSetState c .OPEN

/-! ### Timer callbacks -/

/-- `_tripc_timeout_state_resolve_cb`, up to where it closes the connection. -/
def tripcTimeoutStateResolve (c : Ptr) : TripM Unit := do
  let x ← getConn c
  let q ← fetch Router.resolveq
  match resolveqDel q x.resolvekey with
  | none => Prog.stuck
  | some q => do
    store fun r => r.setResolveq q
    setConn c fun x => { x with statetimer := none }
    tripcSetError c ETIME none

/-- `_tripc_timeout_state_resend_cb`: whether it closes the connection now. -/
def tripcTimeoutStateResend (c : Ptr) : TripM Bool := do
  let now ← triptimeNow
  let x ← getConn c
  if now > x.statedeadline then
    tripcSetError c ETIME none
    return true
  else
    tripcSetSend c
    let ms ← tripcGetGrowth c
    tripcSetTimeout c ms .tripcTimeoutStateResend
    return false

/-- `_tripc_timeout_state_ready_ping` -/
def tripcTimeoutStateReadyPing (c : Ptr) : TripM Unit := tripcSetState c .PING

/-- What `trip_resolve` does with the connection it has popped. -/
def tripResolvePopped (c : Ptr) (src : ℤ) (err : Errno) (emsg : Option String) : TripM Unit := do
  tripcCancelTimeout c
  setConn c fun x => x.setSrc src
  if err = 0 ∧ emsg = none then
    let _ ← tripSetTimeoutM 0 (.tripResolveDelaySuccess c)
  else
    tripcSetError c err emsg
    let _ ← tripSetTimeoutM 0 (.tripResolveDelayFailure c)

/-! ### Segments that come in -/

/-- What `_tripc_parse_open` and `_tripc_parse_chal` have in common.  The copies
go to memory that was allocated without a check. -/
def tripcParseInfo (fmt : List PackDir) (c : Ptr) (len : ℕ) (buf : Buf) : TripM Errno := do
  let (olen, out) := tripUnpack len buf fmt
  if olen ≠ len then return EINVAL
  else
    match out with
    | [.uint64 id, .bytes nonce, .bytes key, .uint32 maxcredits, .uint32 maxstreams,
        .uint32 maxmessagesize, .uint32 maxmessages] => do
      setConn c fun x =>
        { x with
          peer := { x.peer with
            id := id
            lim := ⟨maxcredits, maxstreams, maxmessagesize, maxmessages⟩ } }
      if areZeros nonce || areZeros key then return 0
      else
        let alloc ← tripmAlloc
        let alloc' ← tripmAlloc
        if alloc && alloc' then
          setConn c fun x => { x with peer := { x.peer with nonce := some nonce, pk := some key } }
          return 0
        else Prog.stuck
    | _ => Prog.stuck

/-- `_tripc_parse_open` -/
def tripcParseOpen : Ptr → ℕ → Buf → TripM Errno := tripcParseInfo [.Q, .n, .k, .I, .I, .I, .I]

/-- `_tripc_parse_chal` -/
def tripcParseChal : Ptr → ℕ → Buf → TripM Errno :=
  tripcParseInfo [.o, .Q, .n, .k, .I, .I, .I, .I, .O]

/-- `_tripc_parse_data` -/
def tripcParseData (_ : Ptr) : TripM Errno := return EINVAL

/-- `_tripc_parse_disconnect` -/
def tripcParseDisconnect (_ : Ptr) : TripM Errno := return EINVAL

/-- `_tripc_prep_nonce`: the bytes it writes to `out`. -/
def tripcPrepNonce (nonce : Bytes) (control : UInt8) (seq : UInt64) : Bytes :=
  nonce.mapIdx fun i b =>
    if i = 0 then b + control
    else if i ≤ 8 then b + (seq >>> UInt64.ofNat (8 * (i - 1))).toUInt8
    else b

/-- `_tripc_parse_ping`.  The stored nonce stands where `_tripc_prep_nonce` has
its output, so what is written to it comes from a variable that was not set. -/
def tripcParsePing (c : Ptr) (len : ℕ) (buf : Buf) (pre : TripPrefix) : TripM Errno := do
  let x ← getConn c
  if x.hassend && (x.ping.isactive || x.incoming) then
    setConn c fun x => x.setHassend false
    match x.peer.nonce with
    | none => Prog.stuck
    | some _ => do
      let nonce ← randombytesBuf
      let nonce := tripcPrepNonce nonce pre.seq.toUInt8 pre.control.toUInt64
      setConn c fun x => { x with peer := { x.peer with nonce := some nonce } }
      let (plen, _) := tripUnpack len buf [.e, .n, .Q, .I, .I, .I, .E]
      return if plen ≠ len then EINVAL else 0
  else return EINVAL

/-- Run a parser and go on when it returned zero. -/
def tripcParsed (parse : TripM Errno) (next : TripM Unit) : TripM (Option Errno) := do
  let code ← parse
  if code ≠ 0 then return some EINVAL
  else
    next
    return none

/-- The switch of `_tripc_read`: a code it returns at once, or `none` when it goes
on behind the switch. -/
def tripcReadSwitch (c : Ptr) (pre : TripPrefix) (len : ℕ) (buf : Buf) :
    TripcState → TripM (Option Errno)
  | .START | .ERROR => return none
  | .OPEN => tripcParsed (tripcParseChal c len buf) (tripcSetState c .PING)
  | .CHAL =>
    if pre.control = tripControlData then
      tripcParsed (tripcParseData c) (tripcSetState c .READY)
    else if pre.control = tripControlOpen then
      tripcParsed (tripcParseOpen c len buf) (tripcSetSend c)
    else if pre.control = tripControlPing then
      tripcParsed (tripcParsePing c len buf pre) (tripcSetSend c)
    else return some EINVAL
  | .PING | .READY | .READY_PING =>
    if pre.control = tripControlData then tripcParsed (tripcParseData c) (return ())
    else if pre.control = tripControlPing then
      tripcParsed (tripcParsePing c len buf pre) (tripcSetState c .READY)
    else if pre.control = tripControlDisc then
      tripcParsed (tripcParseDisconnect c) (tripcSetState c .CLOSE)
    else return some EINVAL
  | .CLOSE =>
    if pre.control = tripControlData then tripcParsed (tripcParseData c) (return ())
    else if pre.control = tripControlPing then
      tripcParsed (tripcParsePing c len buf pre) (tripcSetState c .READY)
    else if pre.control = tripControlDisc then
      tripcParsed (tripcParseDisconnect c) (return ())
    else return some EINVAL
  | .END => return some EINVAL
  | .RESOLVE => do
    tripcSetError c EINVAL (some "Invalid state.")
    return none

/-- `_tripc_read`.  `_tripc_check_seq` accepts every sequence number and
`_tripc_flag_seq` does nothing. -/
def tripcRead (c : Ptr) (pre : TripPrefix) (len : ℕ) (buf : Buf) : TripM Errno := do
  let x ← getConn c
  let code ← tripcReadSwitch c pre len buf x.state
  match code with
  | some code => return code
  | none => do
    let x ← getConn c
    return x.error

/-! ### Segments that go out -/

/-- Pack into the router's buffer. -/
def tripPackM (blen : ℕ) (fmt : List PackDir) (as : List PackArg) : TripM ℕ := do
  let sign ← consult Oracle.sign
  let buf ← fetch Router.buf
  match tripPack sign blen buf fmt as with
  | some (len, buf) => do
    store fun r => { r with buf := buf }
    return len
  | none => Prog.stuck

/-- What packing into the buffer leaves when it returns. -/
theorem exec_tripPackM {blen len : ℕ} {fmt : List PackDir} {as : List PackArg} {s s' : Env}
    (h : (tripPackM blen fmt as).exec s = (some len, s')) :
    ∃ buf, tripPack s.oracle.sign blen s.router.buf fmt as = some (len, buf) ∧
      s' = s.setRouter { s.router with buf := buf } := by
  unfold tripPackM at h
  rw [Prog.exec_bind_of (exec_consult _ _), Prog.exec_bind_of (exec_fetch _ _)] at h
  cases hpack : tripPack s.oracle.sign blen s.router.buf fmt as with
  | none =>
    rw [hpack] at h
    cases h
  | some p =>
    rw [hpack] at h
    cases h
    exact ⟨p.2, rfl, rfl⟩

/-- The control byte, with the flag for a key that is there. -/
def tripcControl (control : UInt8) (key : Option Bytes) : PackArg :=
  .uint (control ||| if key.isSome then tripPrefixEmask else 0).toUInt32

/-- `_tripc_send_open` -/
def tripcSendOpen (c : Ptr) (blen : ℕ) : TripM ℕ := do
  let seq ← tripcSeq c
  let x ← getConn c
  tripPackM blen [.s, .C, .Q, .W, .H, .b, .o, .Q, .n, .k, .I, .I, .I, .I, .O, .S]
    [tripcControl tripControlOpen x.peer.openpk, .uint64 x.self.id, .uint64 seq,
      .uint tripVersionMajor.toUInt32, .uint 0, .ptr none, .ptr x.peer.openpk,
      .uint64 x.self.id, .ptr x.self.nonce, .ptr x.self.pk, .uint 128000, .uint 8, .uint 65536,
      .uint 128, .ptr x.self.signsk]

/-- `_tripc_send_chal` -/
def tripcSendChal (c : Ptr) (blen : ℕ) : TripM ℕ := do
  let seq ← tripcSeq c
  let x ← getConn c
  tripPackM blen [.s, .C, .Q, .W, .o, .Q, .n, .k, .I, .I, .I, .I, .O, .S]
    [tripcControl tripControlChal x.peer.pk, .uint64 x.peer.id, .uint64 seq,
      .ptr x.peer.openpk, .uint64 x.self.id, .ptr x.self.nonce, .ptr x.self.pk, .uint 128000,
      .uint 8, .uint 65536, .uint 128, .ptr x.self.signsk]

/-- `_tripc_send_ping` -/
def tripcSendPing (c : Ptr) (blen : ℕ) : TripM ℕ := do
  let x ← getConn c
  if x.hassend && x.ping.isactive then
    let seq ← tripcSeq c
    setConn c fun x => x.setHassend false
    match x.self.nonce with
    | none => Prog.stuck
    | some _ => do
      let nonce ← randombytesBuf
      let nonce := tripcPrepNonce nonce seq.toUInt8 tripControlPing.toUInt64
      setConn c fun x => { x with self := { x.self with nonce := some nonce } }
      tripPackM blen [.C, .Q, .W, .e, .n, .Q, .I, .I, .I, .E]
        [tripcControl tripControlPing x.peer.pk, .uint64 x.peer.id, .uint64 seq, .ptr none,
          .ptr x.peer.pk, .ptr (some x.ping.nonce), .uint64 x.ping.timestamp,
          .uint x.self.stat.rtt, .uint x.self.stat.sent, .uint x.self.stat.recv, .ptr x.peer.pk]
  else return 0

/-- `_tripc_send_data` -/
def tripcSendData (_ : Ptr) (_ : ℕ) : TripM ℕ := return NPOS

/-- Send once for each time sending was asked for. -/
def tripcSendOnce (c : Ptr) (send : TripM ℕ) : TripM ℕ := do
  let x ← getConn c
  if x.hassend then
    let wlen ← send
    setConn c fun x => x.setHassend false
    return wlen
  else return 0

/-- `_tripc_send`: zero when there is nothing to send, `NPOS` on an error, else the
number of bytes written. -/
def tripcSend (c : Ptr) (len : ℕ) : TripM ℕ := do
  let x ← getConn c
  match x.state with
  | .START => do
    tripcSetError c EINVAL (some "Should not be sending in START.")
    return NPOS
  | .RESOLVE => return 0
  | .OPEN => tripcSendOnce c (tripcSendOpen c len)
  | .CHAL => tripcSendOnce c (tripcSendChal c len)
  | .PING | .READY_PING => tripcSendPing c len
  | .READY => tripcSendData c len
  | .END | .ERROR => return NPOS
  | .CLOSE => do
    tripcSetError c EINVAL (some "Unknown state in send.")
    return NPOS

/-! ### The end of a connection -/

/-- `_tripc_destroy` -/
def tripcDestroy (c : Ptr) : TripM Unit := do
  setConn c fun x =>
    { x with streams := if x.streams.map.isSome then default else x.streams }
  tripcCancelTimeout c
  tripUnqconnection c
  setConn c fun x => { x with errmsg := none }

/-! ### What a connection's programs can do -/

/-- A write that leaves the identifier and what the send queue uses alone. -/
def Connection.Plain (f : Connection → Connection) : Prop :=
  ∀ x, (f x).next = x.next ∧ (f x).insend = x.insend ∧ (f x).self.id = x.self.id

/-- What steps of the connection `c` lead to: writes to its record, enqueueing it,
timers that are its own or ask to send, cancellations, and what is packed. -/
inductive Acts (c : Ptr) (r : Router) : Router → Prop
  | refl : Acts c r r
  | conn {r' : Router} {f : Connection → Connection} : Connection.Plain f → Acts c r r' →
      Acts c r (r'.setConn c f)
  | nq {r' : Router} : Acts c r r' → Acts c r (r'.setSendq (sendqNq r'.sendq r'.heap c))
  | timer {r' : Router} {cb : Callback} (alloc : Bool) (now now' : ℕ) (ms : ℤ) :
      cb = .tripSendImmediately ∨ cb.conn? = some c → Acts c r r' →
      Acts c r (r'.setTimers (tripSetTimeout alloc now now' ms (some cb) r'.timers).2)
  | cancel {r' : Router} (id : Ptr) : Acts c r r' →
      Acts c r (r'.setTimers (tripCancelTimeout id r'.timers))
  | buf {r' : Router} (buf : Buf) : Acts c r r' → Acts c r { r' with buf := buf }

theorem Acts.trans {c : Ptr} {r r' r'' : Router} (h : Acts c r r') (h' : Acts c r' r'') :
    Acts c r r'' := by
  induction h' with
  | refl => exact h
  | conn hf _ ih => exact ih.conn hf
  | nq _ ih => exact ih.nq
  | timer alloc now now' ms hcb _ ih => exact ih.timer alloc now now' ms hcb
  | cancel id _ ih => exact ih.cancel id
  | buf buf _ ih => exact ih.buf buf

namespace Acts

variable {c : Ptr} {r r' : Router}

theorem conn_eq (h : Acts c r r') : r'.conn = r.conn := by
  induction h with
  | refl => rfl
  | conn _ _ ih | nq _ ih | timer _ _ _ _ _ _ ih | cancel _ _ ih | buf _ _ ih => exact ih

theorem connsrc_eq (h : Acts c r r') : r'.connsrc = r.connsrc := by
  induction h with
  | refl => rfl
  | conn _ _ ih | nq _ ih | timer _ _ _ _ _ _ ih | cancel _ _ ih | buf _ _ ih => exact ih

end Acts

/-- The same of the states of programs; nothing is marked. -/
def ActsEnv (c : Ptr) (s t : Env) : Prop := Acts c s.router t.router ∧ t.marks = s.marks

theorem actsEnv_refl (c : Ptr) (s : Env) : ActsEnv c s s := ⟨.refl, rfl⟩

theorem actsEnv_trans (c : Ptr) ⦃s t u : Env⦄ (h : ActsEnv c s t) (h' : ActsEnv c t u) :
    ActsEnv c s u := ⟨h.1.trans h'.1, h'.2.trans h.2⟩

/-- A program whose steps are those of the connection `c`. -/
def ActsOn {α : Type} (c : Ptr) (m : TripM α) : Prop := Prog.Does (ActsEnv c) m

/-- Such a program that does not get stuck. -/
structure RunsOn {α : Type} (c : Ptr) (m : TripM α) : Prop where
  acts : ActsOn c m
  total : Prog.Total m

namespace RunsOn

variable {α β : Type} {c : Ptr}

theorem pure (a : α) : RunsOn c (Pure.pure a) :=
  ⟨Prog.Does.pure (actsEnv_refl c) a, Prog.Total.pure a⟩

theorem bind {m : TripM α} {f : α → TripM β} (hm : RunsOn c m) (hf : ∀ a, RunsOn c (f a)) :
    RunsOn c (m >>= f) :=
  ⟨Prog.Does.bind (actsEnv_trans c) hm.acts fun a => (hf a).acts,
    hm.total.bind fun a => (hf a).total⟩

theorem ite {p : Prop} [Decidable p] {m n : TripM α} (hm : RunsOn c m) (hn : RunsOn c n) :
    RunsOn c (if p then m else n) := ⟨hm.acts.ite hn.acts, hm.total.ite hn.total⟩

/-- How a sequence that begins with steps of the connection runs. -/
theorem exec_bind {m : TripM α} (hm : RunsOn c m) (f : α → TripM β) (s : Env) :
    ∃ a t, (m >>= f).exec s = (f a).exec t ∧ ActsEnv c s t := by
  obtain ⟨a, ha⟩ := hm.total.exec_eq s
  exact ⟨a, (m.exec s).2, Prog.exec_bind_of ha, hm.acts s⟩

theorem take {f : Env → α × Env} (h : ∀ s, ActsEnv c s (f s).2) : RunsOn c (Prog.take f) :=
  ⟨Prog.Does.take h, Prog.Total.take f⟩

theorem write {f : Env → Env} (h : ∀ s, ActsEnv c s (f s)) : RunsOn c (Prog.write f) :=
  ⟨Prog.Does.write h, Prog.Total.write f⟩

theorem fetch (f : Router → α) : RunsOn c (Libtrp.fetch f) :=
  ⟨Prog.Does.read (actsEnv_refl c) _, Prog.Total.read _⟩

theorem consult (f : Oracle → α) : RunsOn c (Libtrp.consult f) :=
  ⟨Prog.Does.read (actsEnv_refl c) _, Prog.Total.read _⟩

theorem getConn (d : Ptr) : RunsOn c (Libtrp.getConn d) := fetch _

theorem tripmAlloc : RunsOn c Libtrp.tripmAlloc := take fun _ => ⟨.refl, rfl⟩

theorem triptimeNow : RunsOn c Libtrp.triptimeNow := take fun _ => ⟨.refl, rfl⟩

theorem randombytesBuf : RunsOn c Libtrp.randombytesBuf := take fun _ => ⟨.refl, rfl⟩

theorem setConn {f : Connection → Connection} (hf : Connection.Plain f) :
    RunsOn c (Libtrp.setConn c f) := write fun _ => ⟨Acts.refl.conn hf, rfl⟩

theorem cancel (id : Ptr) : RunsOn c (tripCancelTimeoutM id) :=
  write fun _ => ⟨Acts.refl.cancel id, rfl⟩

theorem timer {cb : Callback} (hcb : cb = .tripSendImmediately ∨ cb.conn? = some c) (ms : ℤ) :
    RunsOn c (tripSetTimeoutM ms cb) := by
  unfold tripSetTimeoutM
  refine bind tripmAlloc fun alloc => bind triptimeNow fun now => bind triptimeNow fun now' => ?_
  exact take fun _ => ⟨Acts.refl.timer alloc now now' ms hcb, rfl⟩

theorem tripQconnection : RunsOn c (Libtrp.tripQconnection c) := by
  unfold Libtrp.tripQconnection
  refine bind (write fun _ => ⟨Acts.refl.nq, rfl⟩) fun _ => ?_
  refine bind (fetch _) fun flag => ite ?_ (pure ())
  exact bind (timer (Or.inl rfl) 0) fun _ => pure ()

theorem tripcMkKeys : RunsOn c (Libtrp.tripcMkKeys c) := by
  unfold Libtrp.tripcMkKeys
  refine bind (getConn c) fun x => ite ?_ (pure ())
  refine bind ?_ fun pk => bind ?_ fun sk => ?_
  · exact ite (pure true) tripmAlloc
  · exact ite (pure true) tripmAlloc
  · refine ite ?_ (setConn fun _ => ⟨rfl, rfl, rfl⟩)
    refine bind randombytesBuf fun _ => bind randombytesBuf fun _ => ?_
    exact setConn fun _ => ⟨rfl, rfl, rfl⟩

theorem tripcGeneratePing : RunsOn c (Libtrp.tripcGeneratePing c) := by
  refine bind randombytesBuf fun _ => bind triptimeNow fun _ => ?_
  exact setConn fun _ => ⟨rfl, rfl, rfl⟩

theorem tripcSetDeadline (ms : ℤ) : RunsOn c (Libtrp.tripcSetDeadline c ms) :=
  bind triptimeNow fun _ => setConn fun _ => ⟨rfl, rfl, rfl⟩

theorem tripcSetGrowth (ms : ℤ) : RunsOn c (Libtrp.tripcSetGrowth c ms) :=
  setConn fun _ => ⟨rfl, rfl, rfl⟩

theorem tripcGetGrowth : RunsOn c (Libtrp.tripcGetGrowth c) := by
  refine bind (getConn c) fun x => bind ?_ fun _ => pure _
  exact setConn fun _ => ⟨rfl, rfl, rfl⟩

theorem tripcSetTimeout {cb : Ptr → Callback} (hcb : (cb c).conn? = some c) (ms : ℤ) :
    RunsOn c (Libtrp.tripcSetTimeout c ms cb) :=
  bind (timer (Or.inr hcb) ms) fun _ => setConn fun _ => ⟨rfl, rfl, rfl⟩

theorem tripcCancelTimeout : RunsOn c (Libtrp.tripcCancelTimeout c) := by
  unfold Libtrp.tripcCancelTimeout
  refine bind (getConn c) fun x => ?_
  cases x.statetimer with
  | none => exact pure ()
  | some e => exact bind (cancel e) fun _ => setConn fun _ => ⟨rfl, rfl, rfl⟩

theorem tripcSetSend : RunsOn c (Libtrp.tripcSetSend c) :=
  bind tripQconnection fun _ => setConn fun _ => ⟨rfl, rfl, rfl⟩

theorem tripcSeq : RunsOn c (Libtrp.tripcSeq c) := by
  refine bind (getConn c) fun x => bind ?_ fun _ => pure _
  exact setConn fun _ => ⟨rfl, rfl, rfl⟩

theorem tripcLeave (state : TripcState) : RunsOn c (Libtrp.tripcLeave c state) := by
  cases state
  case RESOLVE | OPEN | CHAL | PING | READY | CLOSE => exact tripcCancelTimeout
  case START | READY_PING | END | ERROR => exact pure ()

theorem tripcEnter (state : TripcState) : RunsOn c (Libtrp.tripcEnter c state) := by
  cases state
  case START | READY_PING | END | ERROR => exact pure ()
  case CHAL => exact tripcMkKeys
  case RESOLVE => exact bind (getConn c) fun x => tripcSetTimeout rfl _
  case OPEN =>
    refine bind tripcMkKeys fun _ => bind (getConn c) fun x => bind (tripcSetDeadline _) fun _ => ?_
    refine bind (tripcSetGrowth _) fun _ => bind tripcSetSend fun _ => ?_
    exact bind tripcGetGrowth fun ms => tripcSetTimeout rfl ms
  case PING =>
    refine bind tripcGeneratePing fun _ => bind (getConn c) fun x => ?_
    refine bind (tripcSetDeadline _) fun _ => bind (tripcSetGrowth _) fun _ => ?_
    refine bind tripcGetGrowth fun ms => bind (tripcSetTimeout rfl ms) fun _ => ?_
    exact tripcSetSend
  case READY =>
    refine bind (getConn c) fun x => bind (tripcSetDeadline _) fun _ => ?_
    exact tripcSetTimeout rfl _
  case CLOSE =>
    refine bind (getConn c) fun x => bind (tripcSetDeadline _) fun _ => ?_
    exact tripcSetTimeout rfl _

/-- Changing the state is a step of the connection. -/
theorem tripcSetState (state : TripcState) : RunsOn c (Libtrp.tripcSetState c state) := by
  refine bind (tripcLeave state) fun _ => bind ?_ fun _ => tripcEnter state
  exact setConn fun _ => ⟨rfl, rfl, rfl⟩

theorem tripcSetError (eval : Errno) (msg : Option String) :
    RunsOn c (Libtrp.tripcSetError c eval msg) := by
  unfold Libtrp.tripcSetError
  refine bind (getConn c) fun x => ite ?_ (pure ())
  refine bind tripmAlloc fun _ => bind ?_ fun _ => tripcSetState .ERROR
  exact setConn fun _ => ⟨rfl, rfl, rfl⟩

theorem tripcStart : RunsOn c (Libtrp.tripcStart c) := by
  unfold Libtrp.tripcStart
  exact bind (getConn c) fun x => ite (tripcSetError _ _) (tripcSetState _)

theorem tripcTimeoutStateResend : RunsOn c (Libtrp.tripcTimeoutStateResend c) := by
  refine bind triptimeNow fun now => bind (getConn c) fun x => ite ?_ ?_
  · exact bind (tripcSetError _ _) fun _ => pure _
  · refine bind tripcSetSend fun _ => bind tripcGetGrowth fun ms => ?_
    exact bind (tripcSetTimeout rfl ms) fun _ => pure _

theorem tripResolvePopped (src : ℤ) (err : Errno) (emsg : Option String) :
    RunsOn c (Libtrp.tripResolvePopped c src err emsg) := by
  refine bind tripcCancelTimeout fun _ => bind ?_ fun _ => ite ?_ ?_
  · exact setConn fun _ => ⟨rfl, rfl, rfl⟩
  · exact bind (timer (Or.inr rfl) 0) fun _ => pure _
  · refine bind (tripcSetError _ _) fun _ => ?_
    exact bind (timer (Or.inr rfl) 0) fun _ => pure _

theorem tripcSetScreen (screen : TripScreen) : RunsOn c (Libtrp.tripcSetScreen c screen) :=
  setConn fun _ => ⟨rfl, rfl, rfl⟩

end RunsOn

namespace ActsOn

variable {α β : Type} {c : Ptr}

theorem pure (a : α) : ActsOn c (Pure.pure a) := (RunsOn.pure a).acts

theorem bind {m : TripM α} {f : α → TripM β} (hm : ActsOn c m) (hf : ∀ a, ActsOn c (f a)) :
    ActsOn c (m >>= f) := Prog.Does.bind (actsEnv_trans c) hm hf

/-- A part that does not get stuck. -/
theorem run {m : TripM α} {f : α → TripM β} (hm : RunsOn c m) (hf : ∀ a, ActsOn c (f a)) :
    ActsOn c (m >>= f) := bind hm.acts hf

theorem ite {p : Prop} [Decidable p] {m n : TripM α} (hm : ActsOn c m) (hn : ActsOn c n) :
    ActsOn c (if p then m else n) := Prog.Does.ite hm hn

theorem stuck : ActsOn c (Prog.stuck : TripM α) := Prog.Does.stuck (actsEnv_refl c)

theorem tripcParseInfo (fmt : List PackDir) (len : ℕ) (buf : Buf) :
    ActsOn c (Libtrp.tripcParseInfo fmt c len buf) := by
  unfold Libtrp.tripcParseInfo
  dsimp only
  refine ite (pure _) ?_
  split
  · refine run (.setConn fun _ => ⟨rfl, rfl, rfl⟩) fun _ => ite (pure _) ?_
    refine run .tripmAlloc fun _ => run .tripmAlloc fun _ => ite ?_ stuck
    exact run (.setConn fun _ => ⟨rfl, rfl, rfl⟩) fun _ => pure _
  · exact stuck

theorem tripcParsePing (len : ℕ) (buf : Buf) (pre : TripPrefix) :
    ActsOn c (Libtrp.tripcParsePing c len buf pre) := by
  unfold Libtrp.tripcParsePing
  refine run (.getConn c) fun x => ite ?_ (pure _)
  refine run (.setConn fun _ => ⟨rfl, rfl, rfl⟩) fun _ => ?_
  cases x.peer.nonce with
  | none => exact stuck
  | some nonce =>
    refine run .randombytesBuf fun _ => run (.setConn fun _ => ⟨rfl, rfl, rfl⟩) fun _ => ?_
    exact pure _

theorem tripcParsed {parse : TripM Errno} {next : TripM Unit} (hp : ActsOn c parse)
    (hn : RunsOn c next) : ActsOn c (Libtrp.tripcParsed parse next) := by
  unfold Libtrp.tripcParsed
  exact bind hp fun code => ite (pure _) (run hn fun _ => pure _)

theorem tripcReadSwitch (pre : TripPrefix) (len : ℕ) (buf : Buf) (state : TripcState) :
    ActsOn c (Libtrp.tripcReadSwitch c pre len buf state) := by
  have hping : ∀ {next : TripM Unit}, RunsOn c next →
      ActsOn c (Libtrp.tripcParsed (Libtrp.tripcParsePing c len buf pre) next) :=
    fun hn => tripcParsed (tripcParsePing len buf pre) hn
  cases state
  case START | ERROR | END => exact pure _
  case RESOLVE => exact run (.tripcSetError _ _) fun _ => pure _
  case OPEN => exact tripcParsed (tripcParseInfo _ len buf) (.tripcSetState .PING)
  case CHAL =>
    refine ite (tripcParsed (pure _) (.tripcSetState _))
      (ite ?_ (ite (hping .tripcSetSend) (pure _)))
    exact tripcParsed (tripcParseInfo _ len buf) .tripcSetSend
  case PING | READY | READY_PING =>
    refine ite (tripcParsed (pure _) (.pure ())) (ite (hping (.tripcSetState _)) (ite ?_ (pure _)))
    exact tripcParsed (pure _) (.tripcSetState _)
  case CLOSE =>
    refine ite (tripcParsed (pure _) (.pure ())) (ite (hping (.tripcSetState _)) (ite ?_ (pure _)))
    exact tripcParsed (pure _) (.pure ())

/-- Reading a segment is a step of the connection it is for. -/
theorem tripcRead (pre : TripPrefix) (len : ℕ) (buf : Buf) :
    ActsOn c (Libtrp.tripcRead c pre len buf) := by
  unfold Libtrp.tripcRead
  refine run (.getConn c) fun x => bind (tripcReadSwitch pre len buf x.state) fun code => ?_
  cases code with
  | some code => exact pure code
  | none => exact run (.getConn c) fun x => pure _

theorem tripPackM (blen : ℕ) (fmt : List PackDir) (as : List PackArg) :
    ActsOn c (Libtrp.tripPackM blen fmt as) := by
  unfold Libtrp.tripPackM
  refine run (.consult _) fun sign => run (.fetch _) fun buf => ?_
  split
  · exact run (.write fun _ => ⟨Acts.refl.buf _, rfl⟩) fun _ => pure _
  · exact stuck

theorem tripcSendOnce {send : TripM ℕ} (hs : ActsOn c send) :
    ActsOn c (Libtrp.tripcSendOnce c send) := by
  unfold Libtrp.tripcSendOnce
  refine run (.getConn c) fun x => ite ?_ (pure _)
  exact bind hs fun wlen => run (.setConn fun _ => ⟨rfl, rfl, rfl⟩) fun _ => pure _

theorem tripcSendPing (blen : ℕ) : ActsOn c (Libtrp.tripcSendPing c blen) := by
  unfold Libtrp.tripcSendPing
  refine run (.getConn c) fun x => ite ?_ (pure _)
  refine run .tripcSeq fun seq => run (.setConn fun _ => ⟨rfl, rfl, rfl⟩) fun _ => ?_
  cases x.self.nonce with
  | none => exact stuck
  | some nonce =>
    refine run .randombytesBuf fun _ => run (.setConn fun _ => ⟨rfl, rfl, rfl⟩) fun _ => ?_
    exact tripPackM _ _ _

/-- Packing a segment is a step of the connection that sends it. -/
theorem tripcSend (len : ℕ) : ActsOn c (Libtrp.tripcSend c len) := by
  unfold Libtrp.tripcSend
  refine run (.getConn c) fun x => ?_
  cases x.state
  case START | CLOSE => exact run (.tripcSetError _ _) fun _ => pure _
  case RESOLVE | READY | END | ERROR => exact pure _
  case OPEN =>
    refine tripcSendOnce (run .tripcSeq fun seq => run (.getConn c) fun x => ?_)
    exact tripPackM _ _ _
  case CHAL =>
    refine tripcSendOnce (run .tripcSeq fun seq => run (.getConn c) fun x => ?_)
    exact tripPackM _ _ _
  case PING | READY_PING => exact tripcSendPing len

end ActsOn

end Libtrp
