import Libtrp.Ping

/-!
# What a refused segment leaves of a connection

`_tripc_read` refuses a segment with a code that is not zero.  Its parsers write to the
record of the connection before they have read the segment to its end, the state `RESOLVE`
has no case of its own, and the code behind the switch is the error that the connection has
had before.

## Main definitions

* `ConnRecord` — what a segment may not disturb.
* `ReadKept` — a segment that is refused leaves it as it was.
* `ReadSafe` — a segment that does so, by what it holds and by the record.

## Main results

* `exec_tripcRead_parsed` — **what reading comes to behind a parser.**
* `tripcRead_keeps_iff` — **when a refused segment leaves the record as it was.**

## References

`src/conn.c` (`_tripc_read`, `_tripc_parse_open`, `_tripc_parse_chal`, `_tripc_parse_ping`).
-/

namespace Libtrp

open Lib

/-! ### The record -/

/-- The fields of a connection that a segment from outside could disturb. -/
structure ConnRecord where
  state : TripcState
  error : Errno
  hassend : Bool
  peerId : UInt64
  peerLim : Connlim
  peerNonce : Option Bytes
  peerPk : Option Bytes
  statetimer : Option Ptr
  deriving DecidableEq

/-- These fields of a connection. -/
def Connection.record (x : Connection) : ConnRecord :=
  ⟨x.state, x.error, x.hassend, x.peer.id, x.peer.lim, x.peer.nonce, x.peer.pk, x.statetimer⟩

/-- These fields of `c`. -/
def Env.record (s : Env) (c : Ptr) : ConnRecord := (s.router.heap.conn c).record

theorem Env.record_setConn (s : Env) (c : Ptr) (f : Connection → Connection) :
    (s.setRouter (s.router.setConn c f)).record c = (f (s.router.heap.conn c)).record :=
  congrArg Connection.record (ConnHeap.conn_set_self s.router.heap c f)

/-- The record that was written to. -/
theorem conn_of_setConn {s t : Env} {c : Ptr} {f : Connection → Connection}
    (h : t.router = s.router.setConn c f) : t.router.heap.conn c = f (s.router.heap.conn c) := by
  rw [h]
  exact ConnHeap.conn_set_self _ c f

/-- A program that leaves the field `g` of `c` alone. -/
def SameField {γ α : Type} (g : Connection → γ) (c : Ptr) (m : TripM α) : Prop :=
  Prog.Does (fun s t => g (t.router.heap.conn c) = g (s.router.heap.conn c)) m

namespace SameField

variable {α β γ : Type} {g : Connection → γ} {c : Ptr}

theorem pure (a : α) : SameField g c (Pure.pure a) := fun _ => rfl

theorem bind {m : TripM α} {f : α → TripM β} (hm : SameField g c m)
    (hf : ∀ a, SameField g c (f a)) :
    SameField g c (m >>= f) := Prog.Does.bind (fun _ _ _ h h' => h'.trans h) hm hf

theorem getConn (d : Ptr) : SameField g c (Libtrp.getConn d) := fun _ => rfl

theorem tripmAlloc : SameField g c Libtrp.tripmAlloc := fun _ => rfl

theorem triptimeNow : SameField g c Libtrp.triptimeNow := fun _ => rfl

theorem cancel (id : Ptr) : SameField g c (tripCancelTimeoutM id) := fun _ => rfl

theorem setConn {f : Connection → Connection} (hf : ∀ x, g (f x) = g x) :
    SameField g c (Libtrp.setConn c f) :=
  fun s => ConnHeap.conn_set_field g s.router.heap c c (hf _)

theorem timer (ms : ℤ) (cb : Callback) : SameField g c (tripSetTimeoutM ms cb) :=
  bind tripmAlloc fun _ => bind triptimeNow fun _ => bind triptimeNow fun _ _ => rfl

theorem tripQconnection (hnext : ∀ x n, g (x.setNext n) = g x)
    (hin : ∀ x b, g (x.setInsend b) = g x) : SameField g c (Libtrp.tripQconnection c) := by
  unfold Libtrp.tripQconnection
  apply bind fun s => sendqNq_field g hnext hin _ _ c c
  intro _
  apply bind fun _ => rfl
  intro flag
  exact Prog.Does.ite (bind (timer 0 _) fun _ => pure ()) (pure ())

end SameField

/-- Asking to send marks the connection, and leaves the rest of the record alone. -/
theorem record_tripcSetSend (c : Ptr) (s : Env) :
    ((tripcSetSend c).exec s).2.record c = { s.record c with hassend := true } := by
  have hkept : SameField Connection.record c (tripQconnection c) :=
    .tripQconnection (fun _ _ => rfl) fun _ _ => rfl
  obtain ⟨_, hq⟩ := (RunsOn.tripQconnection (c := c)).total.exec_eq s
  unfold tripcSetSend Env.record
  rw [Prog.exec_bind_of hq, ← hkept s, exec_setConn]
  exact Env.record_setConn _ c _

/-! ### Behind a parser -/

/-- What `_tripc_read` does behind its switch. -/
def tripcReadEnd (c : Ptr) : Option Errno → TripM Errno
  | some code => return code
  | none => do
    let x ← getConn c
    return x.error

theorem exec_tripcRead (c : Ptr) (pre : TripPrefix) (len : ℕ) (buf : Buf) (s : Env) :
    (tripcRead c pre len buf).exec s =
      (tripcReadSwitch c pre len buf (s.router.heap.conn c).state >>= tripcReadEnd c).exec s := rfl

/-- A step that goes on behind a parser, and leaves the error of the connection. -/
structure Follows (c : Ptr) (next : TripM Unit) : Prop where
  total : Prog.Total next
  error : ∀ s, ((next.exec s).2.status c).error = (s.status c).error

theorem follows_tripcSetState (c : Ptr) (state : TripcState) :
    Follows c (tripcSetState c state) where
  total := (RunsOn.tripcSetState (c := c) state).total
  error := fun s => by rw [tripcSetState_status]

theorem follows_tripcSetSend (c : Ptr) : Follows c (tripcSetSend c) where
  total := (RunsOn.tripcSetSend (c := c)).total
  error := fun s => congrArg ConnStatus.error (SameStatus.tripcSetSend s)

/-- **What reading comes to behind a parser**: a code of its own, or the error that the
connection has had before. -/
theorem exec_tripcRead_parsed {c : Ptr} {next : TripM Unit} (hnext : Follows c next)
    (parse : TripM Errno) (s : Env) :
    (tripcParsed parse next >>= tripcReadEnd c).exec s =
      match parse.exec s with
      | (some code, t) =>
        if code ≠ 0 then (some EINVAL, t)
        else (some (t.status c).error, (next.exec t).2)
      | (none, t) => (none, t) := by
  unfold tripcParsed
  rw [Prog.exec_bind, Prog.exec_bind]
  rcases parse.exec s with ⟨_ | code, t⟩
  · rfl
  dsimp only
  by_cases hcode : code = 0
  · rw [if_neg (not_not.mpr hcode), if_neg (not_not.mpr hcode)]
    obtain ⟨a, hrun⟩ := hnext.total.exec_eq t
    rw [Prog.exec_bind_of hrun, ← hnext.error t]
    rfl
  · rw [if_pos hcode, if_pos hcode]
    rfl

/-! ### The parsers -/

/-- The information is taken: its length is exact, and there is memory for the nonce and the
key when the peer tells them. -/
def InfoTaken (o : Oracle) (size off len : ℕ) (buf : Buf) : Prop :=
  len = size ∧ (infoBare buf off = true ∨ (o.alloc.head = true ∧ o.alloc.tail.head = true))

/-- There is memory for whatever is asked. -/
def Env.Plenty (s : Env) : Prop := s.oracle.alloc = Stream'.const true

theorem Env.Plenty.tail {s : Env} (h : s.Plenty) : s.oracle.alloc.tail = Stream'.const true := by
  rw [h]
  rfl

/-- What a parser writes when it takes the information. -/
def Connection.takeInfo (buf : Buf) (off : ℕ) (x : Connection) : Connection :=
  if infoBare buf off = true then x.setInfo buf off else (x.setInfo buf off).setKeys buf off

theorem Connection.error_takeInfo (buf : Buf) (off : ℕ) (x : Connection) :
    (x.takeInfo buf off).error = x.error := by
  unfold takeInfo
  split <;> rfl

/-- The connection has the information already. -/
def Connection.HasInfo (buf : Buf) (off : ℕ) (x : Connection) : Prop :=
  x.peer.id = infoId buf off ∧ x.peer.lim = infoLim buf off ∧
    (infoBare buf off = true ∨
      (x.peer.nonce = some (infoNonce buf off) ∧ x.peer.pk = some (infoKey buf off)))

/-- Taking it changes nothing then, and only then. -/
theorem Connection.record_takeInfo_iff (buf : Buf) (off : ℕ) (x : Connection) :
    (x.takeInfo buf off).record = x.record ↔ x.HasInfo buf off := by
  unfold takeInfo HasInfo
  split
  · next hbare => simp [record, setInfo, hbare, eq_comm]
  · next hbare => simp [record, setInfo, setKeys, hbare, eq_comm]

/-- A parser refuses a length that is not exact, and takes the information otherwise. -/
theorem exec_tripcParseInfo_cases {fmt : List PackDir} {size off : ℕ}
    (hfmt : InfoFormat fmt size off) (c : Ptr) (len : ℕ) (buf : Buf) (s : Env) :
    (len ≠ size ∧ (tripcParseInfo fmt c len buf).exec s = (some EINVAL, s)) ∨
      (len = size ∧ ¬ InfoTaken s.oracle size off len buf ∧
        ∃ t, (tripcParseInfo fmt c len buf).exec s = (none, t)) ∨
      (InfoTaken s.oracle size off len buf ∧ ∃ t,
        (tripcParseInfo fmt c len buf).exec s = (some 0, t) ∧
          t.router = s.router.setConn c (Connection.takeInfo buf off) ∧ (s.Plenty → t.Plenty)) := by
  rw [exec_tripcParseInfo hfmt]
  unfold InfoTaken Connection.takeInfo
  by_cases hlen : len = size
  swap
  · exact Or.inl ⟨hlen, if_pos hlen⟩
  rw [if_neg (not_not.mpr hlen)]
  dsimp only
  by_cases hbare : infoBare buf off = true
  · simp only [if_pos hbare]
    exact Or.inr (Or.inr ⟨⟨hlen, Or.inl hbare⟩, _, rfl, rfl, id⟩)
  simp only [if_neg hbare]
  by_cases halloc : (s.oracle.alloc.head && s.oracle.alloc.tail.head) = true
  · rw [if_pos halloc]
    refine Or.inr (Or.inr ⟨⟨hlen, Or.inr (by simpa using halloc)⟩, _, rfl, ?_, fun h => ?_⟩)
    · -- the two writes are one
      exact Router.setConn_setConn _ c _ _
    · have htail : s.popAlloc.Plenty := h.tail
      exact htail.tail
  · rw [if_neg halloc]
    refine Or.inr (Or.inl ⟨hlen, fun h => halloc ?_, _, rfl⟩)
    simpa using h.2.resolve_left hbare

/-- The connection listens to a ping. -/
def Connection.Hears (x : Connection) : Prop :=
  x.hassend = true ∧ (x.ping.isactive = true ∨ x.incoming = true) ∧ x.peer.nonce ≠ none

/-- What the nonce of the peer is overwritten with: it stands where the output is meant. -/
def pingNonce (o : Oracle) (pre : TripPrefix) : Bytes :=
  tripcPrepNonce o.bytes.head pre.seq.toUInt8 pre.control.toUInt64

/-- What is written before the ping is unpacked. -/
def Connection.hear (o : Oracle) (pre : TripPrefix) (x : Connection) : Connection :=
  { x.setHassend false with peer := { x.peer with nonce := some (pingNonce o pre) } }

/-- A ping is refused unread, or the record is written to and it is refused then, unless its
length has wrapped. -/
theorem exec_tripcParsePing_cases (c : Ptr) (len : ℕ) (buf : Buf) (pre : TripPrefix) (s : Env) :
    (¬ (s.router.heap.conn c).Hears ∧
        ((tripcParsePing c len buf pre).exec s = (some EINVAL, s) ∨
          ∃ t, (tripcParsePing c len buf pre).exec s = (none, t))) ∨
      ((s.router.heap.conn c).Hears ∧ ∃ t,
        (tripcParsePing c len buf pre).exec s = (some (if NPOS ≠ len then EINVAL else 0), t) ∧
          t.router = s.router.setConn c (Connection.hear s.oracle pre) ∧
            (s.Plenty → t.Plenty)) := by
  unfold tripcParsePing Connection.Hears
  rw [Prog.exec_bind_of (exec_getConn _ _)]
  generalize hx : s.router.heap.conn c = x
  by_cases hready : (x.hassend && (x.ping.isactive || x.incoming)) = true
  swap
  · rw [if_neg hready]
    refine Or.inl ⟨fun h => hready ?_, Or.inl rfl⟩
    simpa using ⟨h.1, h.2.1⟩
  rw [if_pos hready, Prog.exec_bind_of (exec_setConn _ _ _)]
  cases hnonce : x.peer.nonce with
  | none => exact Or.inl ⟨fun h => h.2.2 rfl, Or.inr ⟨_, rfl⟩⟩
  | some nonce =>
    dsimp only
    rw [Prog.exec_bind_of (exec_randombytesBuf _), Prog.exec_bind_of (exec_setConn _ _ _)]
    have hboth : x.hassend = true ∧ (x.ping.isactive = true ∨ x.incoming = true) := by
      simpa using hready
    refine Or.inr ⟨⟨hboth.1, hboth.2, nofun⟩, _, rfl, ?_, id⟩
    exact Router.setConn_setConn _ c _ _

section Read

variable {c : Ptr} {s : Env} {pre : TripPrefix} {len : ℕ} {buf : Buf} {next : TripM Unit}

/-- Reading the information of `OPEN` or `CHAL`. -/
theorem exec_tripcRead_info {fmt : List PackDir} {size off : ℕ} (hfmt : InfoFormat fmt size off)
    (hnext : Follows c next)
    (hread : tripcReadSwitch c pre len buf (s.router.heap.conn c).state =
      tripcParsed (tripcParseInfo fmt c len buf) next) :
    (len ≠ size ∧ (tripcRead c pre len buf).exec s = (some EINVAL, s)) ∨
      (len = size ∧ ¬ InfoTaken s.oracle size off len buf ∧
        ((tripcRead c pre len buf).exec s).1 = none) ∨
      (InfoTaken s.oracle size off len buf ∧ ∃ t,
        t.router = s.router.setConn c (Connection.takeInfo buf off) ∧ (s.Plenty → t.Plenty) ∧
          (tripcRead c pre len buf).exec s =
            (some (s.router.heap.conn c).error, (next.exec t).2)) := by
  rw [exec_tripcRead, hread, exec_tripcRead_parsed hnext]
  rcases exec_tripcParseInfo_cases hfmt c len buf s with
    ⟨hlen, hparse⟩ | ⟨hlen, hnot, t, hparse⟩ | ⟨htaken, t, hparse, hrouter, hplenty⟩
  · rw [hparse]
    exact Or.inl ⟨hlen, rfl⟩
  · rw [hparse]
    exact Or.inr (Or.inl ⟨hlen, hnot, rfl⟩)
  · rw [hparse]
    refine Or.inr (Or.inr ⟨htaken, t, hrouter, hplenty, ?_⟩)
    dsimp only
    rw [if_neg (not_not.mpr rfl)]
    have herror : (t.status c).error = (s.router.heap.conn c).error := by
      show (t.router.heap.conn c).error = _
      rw [conn_of_setConn hrouter, Connection.error_takeInfo]
    rw [herror]

/-- Reading a ping. -/
theorem exec_tripcRead_ping (hnext : Follows c next)
    (hread : tripcReadSwitch c pre len buf (s.router.heap.conn c).state =
      tripcParsed (tripcParsePing c len buf pre) next) :
    (¬ (s.router.heap.conn c).Hears ∧
        ((tripcRead c pre len buf).exec s = (some EINVAL, s) ∨
          ((tripcRead c pre len buf).exec s).1 = none)) ∨
      ((s.router.heap.conn c).Hears ∧ ∃ t,
        t.router = s.router.setConn c (Connection.hear s.oracle pre) ∧ (s.Plenty → t.Plenty) ∧
          (tripcRead c pre len buf).exec s =
            if NPOS ≠ len then (some EINVAL, t)
            else (some (s.router.heap.conn c).error, (next.exec t).2)) := by
  rw [exec_tripcRead, hread, exec_tripcRead_parsed hnext]
  rcases exec_tripcParsePing_cases c len buf pre s with
    ⟨hnot, hparse | ⟨t, hparse⟩⟩ | ⟨hhears, t, hparse, hrouter, hplenty⟩
  · rw [hparse]
    exact Or.inl ⟨hnot, Or.inl rfl⟩
  · rw [hparse]
    exact Or.inl ⟨hnot, Or.inr rfl⟩
  · rw [hparse]
    refine Or.inr ⟨hhears, t, hrouter, hplenty, ?_⟩
    dsimp only
    have herror : (t.status c).error = (s.router.heap.conn c).error := by
      show (t.router.heap.conn c).error = _
      rw [conn_of_setConn hrouter]
      rfl
    by_cases hlen : NPOS = len
    · rw [if_neg (not_not.mpr hlen), if_neg (not_not.mpr hlen), if_neg (not_not.mpr rfl), herror]
    · rw [if_pos hlen, if_pos hlen]
      rfl

end Read

/-! ### A refused segment -/

/-- A segment that is refused leaves the record of its connection as it was. -/
def ReadKept (s : Env) (c : Ptr) (pre : TripPrefix) (len : ℕ) (buf : Buf) : Prop :=
  ∀ code t, (tripcRead c pre len buf).exec s = (some code, t) → code ≠ 0 → t.record c = s.record c

/-- A segment that does so, for a connection `x`.  In `RESOLVE` there is none; elsewhere one
that is taken comes to a connection without an error, or tells it what it has, and a ping is
not heard, but for one whose length has wrapped. -/
def ReadSafe (o : Oracle) (x : Connection) (pre : TripPrefix) (len : ℕ) (buf : Buf) : Prop :=
  match x.state with
  | .START | .END | .ERROR => True
  | .RESOLVE => False
  | .OPEN => InfoTaken o 128 48 len buf → x.error = 0
  | .CHAL =>
    (pre.control = tripControlOpen → InfoTaken o 80 0 len buf →
      x.error = 0 ∨ (x.HasInfo buf 0 ∧ x.hassend = true)) ∧
    (pre.control = tripControlPing → x.Hears →
      len = NPOS ∧ (x.error = 0 ∨ x.peer.nonce = some (pingNonce o pre)))
  | .PING | .READY | .READY_PING | .CLOSE =>
    pre.control = tripControlPing → x.Hears → len = NPOS ∧ x.error = 0

section Kept

variable {c : Ptr} {s : Env} {pre : TripPrefix} {len : ℕ} {buf : Buf}

/-- A segment that is not read changes nothing. -/
theorem readKept_of_quiet {code : Errno}
    (h : (tripcRead c pre len buf).exec s = (some code, s)) : ReadKept s c pre len buf := by
  intro code' t ht _
  cases h.symm.trans ht
  rfl

theorem readKept_of_stuck (h : ((tripcRead c pre len buf).exec s).1 = none) :
    ReadKept s c pre len buf := by
  intro code t ht _
  rw [ht] at h
  cases h

/-- A segment that is read is refused with the code that comes back. -/
theorem readKept_iff_of_exec {code : Errno} {t : Env}
    (h : (tripcRead c pre len buf).exec s = (some code, t)) :
    ReadKept s c pre len buf ↔ (code = 0 ∨ t.record c = s.record c) := by
  constructor
  · intro hkept
    by_cases hcode : code = 0
    · exact Or.inl hcode
    · exact Or.inr (hkept code t h hcode)
  · rintro hor code' t' ht hcode
    cases h.symm.trans ht
    exact hor.resolve_left hcode

/-- The mark is taken back before a ping is unpacked. -/
theorem hassend_hear {t : Env} (ht : t.router = s.router.setConn c (Connection.hear s.oracle pre)) :
    (t.record c).hassend = false := by
  unfold Env.record
  rw [conn_of_setConn ht]
  rfl

/-- What `OPEN` or `CHAL` leaves: `P` says that what follows puts the record back. -/
theorem readKept_info_iff {fmt : List PackDir} {size off : ℕ} (hfmt : InfoFormat fmt size off)
    {next : TripM Unit} (hnext : Follows c next)
    (hread : tripcReadSwitch c pre len buf (s.router.heap.conn c).state =
      tripcParsed (tripcParseInfo fmt c len buf) next) {P : Prop}
    (hP : ∀ t : Env, t.router = s.router.setConn c (Connection.takeInfo buf off) →
      ((next.exec t).2.record c = s.record c ↔ P)) :
    ReadKept s c pre len buf ↔
      (InfoTaken s.oracle size off len buf → (s.router.heap.conn c).error = 0 ∨ P) := by
  rcases exec_tripcRead_info hfmt hnext hread with
    ⟨hlen, hquiet⟩ | ⟨-, hnot, hstuck⟩ | ⟨htaken, t, ht, -, hexec⟩
  · exact iff_of_true (readKept_of_quiet hquiet) fun h => absurd h.1 hlen
  · exact iff_of_true (readKept_of_stuck hstuck) fun h => absurd h hnot
  · rw [readKept_iff_of_exec hexec, hP t ht]
    exact ⟨fun h _ => h, fun h => h htaken⟩

/-- What a ping leaves, in the same way. -/
theorem readKept_ping_iff {next : TripM Unit} (hnext : Follows c next)
    (hread : tripcReadSwitch c pre len buf (s.router.heap.conn c).state =
      tripcParsed (tripcParsePing c len buf pre) next) {P : Prop}
    (hP : (s.router.heap.conn c).Hears → ∀ t : Env,
      t.router = s.router.setConn c (Connection.hear s.oracle pre) →
        ((next.exec t).2.record c = s.record c ↔ P)) :
    ReadKept s c pre len buf ↔
      ((s.router.heap.conn c).Hears → len = NPOS ∧ ((s.router.heap.conn c).error = 0 ∨ P)) := by
  rcases exec_tripcRead_ping hnext hread with ⟨hnot, hquiet | hstuck⟩ | ⟨hhears, t, ht, -, hexec⟩
  · exact iff_of_true (readKept_of_quiet hquiet) fun h => absurd h hnot
  · exact iff_of_true (readKept_of_stuck hstuck) fun h => absurd h hnot
  by_cases hlen : NPOS = len
  · rw [if_neg (not_not.mpr hlen)] at hexec
    rw [readKept_iff_of_exec hexec, hP hhears t ht]
    exact ⟨fun h _ => ⟨hlen.symm, h⟩, fun h => (h hhears).2⟩
  · -- the mark is taken back before the segment is unpacked
    rw [if_pos hlen] at hexec
    rw [readKept_iff_of_exec hexec]
    refine iff_of_false ?_ fun h => hlen (h hhears).1.symm
    rintro (hcode | hsame)
    · exact absurd hcode (by decide)
    · have hsend := congrArg ConnRecord.hassend hsame
      rw [hassend_hear ht] at hsend
      exact Bool.false_ne_true (hsend.trans hhears.1)

/-- The state that is gone to is another one. -/
theorem record_tripcSetState_ne {state : TripcState} {t : Env}
    (hne : state ≠ (s.router.heap.conn c).state) :
    ((tripcSetState c state).exec t).2.record c ≠ s.record c := by
  intro hsame
  have hstate : (((tripcSetState c state).exec t).2.status c).state = state := by
    rw [tripcSetState_status]
  exact hne (hstate.symm.trans (congrArg ConnRecord.state hsame))

/-- Going to `READY` does not mark the connection. -/
theorem sameField_tripcSetState_READY (c : Ptr) :
    SameField Connection.hassend c (tripcSetState c .READY) := by
  have hcancel : SameField Connection.hassend c (tripcCancelTimeout c) := by
    unfold tripcCancelTimeout
    apply SameField.bind (.getConn c)
    intro x
    cases x.statetimer with
    | none => exact .pure ()
    | some e => exact .bind (.cancel e) fun _ => .setConn fun _ => rfl
  have hdeadline : ∀ ms, SameField Connection.hassend c (tripcSetDeadline c ms) :=
    fun ms => .bind .triptimeNow fun _ => .setConn fun _ => rfl
  have htimeout : ∀ ms cb, SameField Connection.hassend c (tripcSetTimeout c ms cb) :=
    fun ms cb => .bind (.timer _ _) fun _ => .setConn fun _ => rfl
  have henter : SameField Connection.hassend c (tripcEnter c .READY) :=
    .bind (.getConn c) fun x => .bind (hdeadline _) fun _ => htimeout _ _
  have hstate : SameField Connection.hassend c
      (setConn c fun x => { x with state := .READY }) := .setConn fun _ => rfl
  exact .bind hcancel fun _ => .bind hstate fun _ => henter

/-- A ping that is heard in `READY`, or in a state that leads there, is not undone. -/
theorem record_hear_READY (hhears : (s.router.heap.conn c).Hears) {t : Env}
    (ht : t.router = s.router.setConn c (Connection.hear s.oracle pre)) :
    ((tripcSetState c .READY).exec t).2.record c ≠ s.record c := by
  intro hsame
  have hsend : (t.record c).hassend = (s.record c).hassend :=
    (sameField_tripcSetState_READY c t).symm.trans (congrArg ConnRecord.hassend hsame)
  rw [hassend_hear ht] at hsend
  exact Bool.false_ne_true (hsend.trans hhears.1)

/-- Behind `OPEN` for a connection that waits for it, the record is the same when it is told
what it has. -/
theorem record_takeInfo_send {off : ℕ} {t : Env}
    (ht : t.router = s.router.setConn c (Connection.takeInfo buf off)) :
    ((tripcSetSend c).exec t).2.record c = s.record c ↔
      (s.router.heap.conn c).HasInfo buf off ∧ (s.router.heap.conn c).hassend = true := by
  rw [record_tripcSetSend]
  unfold Env.record
  rw [conn_of_setConn ht, ← Connection.record_takeInfo_iff]
  generalize s.router.heap.conn c = x
  have hkept : (x.takeInfo buf off).record.hassend = x.hassend := by
    unfold Connection.takeInfo
    split <;> rfl
  constructor
  · intro hsame
    have hsend : x.hassend = true := (congrArg ConnRecord.hassend hsame).symm
    refine ⟨?_, hsend⟩
    rw [← hsame]
    conv_lhs => rw [show (x.takeInfo buf off).record =
      { (x.takeInfo buf off).record with hassend := (x.takeInfo buf off).record.hassend } from rfl,
      hkept, hsend]
  · rintro ⟨hsame, hsend⟩
    rw [hsame, ← hsend]
    rfl

/-- Behind a ping for a connection that waits, the nonce is what may differ. -/
theorem record_hear_send (hhears : (s.router.heap.conn c).Hears) {t : Env}
    (ht : t.router = s.router.setConn c (Connection.hear s.oracle pre)) :
    ((tripcSetSend c).exec t).2.record c = s.record c ↔
      (s.router.heap.conn c).peer.nonce = some (pingNonce s.oracle pre) := by
  rw [record_tripcSetSend]
  unfold Env.record
  rw [conn_of_setConn ht]
  have hsend := hhears.1
  generalize s.router.heap.conn c = x at hsend
  constructor
  · intro hsame
    exact (congrArg ConnRecord.peerNonce hsame).symm
  · intro hnonce
    rw [Connection.record, Connection.record, hnonce, hsend]
    rfl

end Kept

/-- **When a refused segment leaves the record as it was.** -/
theorem tripcRead_keeps_iff (s : Env) (c : Ptr) (pre : TripPrefix) (len : ℕ) (buf : Buf) :
    ReadKept s c pre len buf ↔ ReadSafe s.oracle (s.router.heap.conn c) pre len buf := by
  have hrefused : ∀ state, (s.router.heap.conn c).state = state →
      (tripcReadSwitch c pre len buf state).exec s = (some (some EINVAL), s) →
        ReadKept s c pre len buf := by
    intro state hx hrun
    refine readKept_of_quiet (show _ = (some EINVAL, s) from ?_)
    rw [exec_tripcRead, hx, Prog.exec_bind_of hrun]
    rfl
  have hnever : ∀ a b : UInt8, a ≠ b → pre.control = a → pre.control ≠ b :=
    fun a b hab ha hb => hab (ha.symm.trans hb)
  unfold ReadSafe
  cases hx : (s.router.heap.conn c).state with
  | START | ERROR =>
    refine iff_of_true (readKept_of_quiet
      (show _ = (some (s.router.heap.conn c).error, s) from ?_)) trivial
    rw [exec_tripcRead, hx]
    rfl
  | END => exact iff_of_true (hrefused _ hx rfl) trivial
  | RESOLVE =>
    -- there is no case for it, and the default is an error
    have hne : (s.status c).state ≠ .ERROR := fun h => by
      rw [show (s.status c).state = .RESOLVE from hx] at h
      cases h
    have hstatus := tripcSetError_status hne EINVAL (some "Invalid state.")
    obtain ⟨_, hset⟩ :=
      (RunsOn.tripcSetError (c := c) EINVAL (some "Invalid state.")).total.exec_eq s
    refine iff_of_false (fun hkept => ?_) not_false
    have hexec : (tripcRead c pre len buf).exec s =
        (some EINVAL, ((tripcSetError c EINVAL (some "Invalid state.")).exec s).2) := by
      rw [exec_tripcRead, hx]
      show ((tripcSetError c EINVAL (some "Invalid state.") >>= fun _ => pure none) >>=
        tripcReadEnd c).exec s = _
      rw [Prog.exec_bind_of (show _ = (some none, _) from (Prog.exec_bind_of hset).trans rfl)]
      exact congrArg (fun e => (some e, _)) (congrArg ConnStatus.error hstatus)
    rcases (readKept_iff_of_exec hexec).mp hkept with hcode | hsame
    · exact absurd hcode (by decide)
    · have herror := (congrArg ConnStatus.state hstatus).symm.trans
        (congrArg ConnRecord.state hsame)
      exact hne herror.symm
  | OPEN =>
    refine (readKept_info_iff infoFormat_chal (follows_tripcSetState c .PING) (by rw [hx]; rfl)
      fun t _ => iff_of_false (record_tripcSetState_ne ?_) not_false).trans ?_
    · rw [hx]
      decide
    · rw [or_false]
  | CHAL =>
    by_cases hdata : pre.control = tripControlData
    · refine iff_of_true (hrefused _ hx ?_) ⟨fun h => ?_, fun h => ?_⟩
      · unfold tripcReadSwitch
        dsimp only
        rw [if_pos hdata]
        rfl
      · exact absurd h (hnever _ _ (by decide) hdata)
      · exact absurd h (hnever _ _ (by decide) hdata)
    by_cases hopen : pre.control = tripControlOpen
    · refine (readKept_info_iff infoFormat_open (follows_tripcSetSend c) ?_
        fun t ht => record_takeInfo_send ht).trans ?_
      · rw [hx]
        unfold tripcReadSwitch
        dsimp only
        rw [if_neg hdata, if_pos hopen]
        rfl
      · exact ⟨fun h => ⟨fun _ => h, fun hping => absurd hping (hnever _ _ (by decide) hopen)⟩,
          fun h => h.1 hopen⟩
    by_cases hping : pre.control = tripControlPing
    · refine (readKept_ping_iff (follows_tripcSetSend c) ?_
        fun hhears t ht => record_hear_send hhears ht).trans ?_
      · rw [hx]
        unfold tripcReadSwitch
        dsimp only
        rw [if_neg hdata, if_neg hopen, if_pos hping]
      · exact ⟨fun h => ⟨fun h' => absurd h' hopen, fun _ => h⟩, fun h => h.2 hping⟩
    · refine iff_of_true (hrefused _ hx ?_) ⟨fun h => absurd h hopen, fun h => absurd h hping⟩
      unfold tripcReadSwitch
      dsimp only
      rw [if_neg hdata, if_neg hopen, if_neg hping]
      rfl
  | PING | READY | READY_PING | CLOSE =>
    by_cases hdata : pre.control = tripControlData
    · refine iff_of_true (hrefused _ hx ?_) fun h => absurd h (hnever _ _ (by decide) hdata)
      unfold tripcReadSwitch
      dsimp only
      rw [if_pos hdata]
      rfl
    by_cases hping : pre.control = tripControlPing
    · refine (readKept_ping_iff (follows_tripcSetState c .READY) ?_
        fun hhears t ht => iff_of_false (record_hear_READY hhears ht) not_false).trans ?_
      · rw [hx]
        unfold tripcReadSwitch
        dsimp only
        rw [if_neg hdata, if_pos hping]
      · rw [or_false]
        exact ⟨fun h _ => h, fun h => h hping⟩
    · refine iff_of_true (hrefused _ hx ?_) fun h => absurd h hping
      unfold tripcReadSwitch
      dsimp only
      rw [if_neg hdata, if_neg hping]
      split <;> rfl

/-- A segment that comes while the destination is being resolved is refused, and the
connection is in `ERROR` then. -/
theorem tripcRead_keeps_early :
    ¬ ∀ (s : Env) (c : Ptr) (pre : TripPrefix) (len : ℕ) (buf : Buf), ReadKept s c pre len buf := by
  intro hall
  have h := hall ((tripcSetState 0 .RESOLVE).exec ⟨plainRouter, plainOracle, []⟩).2 0
    ⟨false, tripControlPing, 0, 0⟩ 16 (fun _ => 0) EINVAL _ rfl (by decide)
  exact absurd (congrArg ConnRecord.state h) (by decide)

end Libtrp
