import Libtrp.ConnRead
import Libtrp.Handshake

/-!
# Segments that are rejected

`_trip_router_reject` does nothing, so that whatever has been done for a segment before it is
rejected stays done.  An OPEN segment is given its connection, in the map and started, before
its information is read, and a segment of another control may have moved its connection on
when the connection's old error comes back as a code.

## Main definitions

* `tripSegmentReason` — `_trip_segment` with the reason it rejects for.
* `Untouched` — the tables of the router are as they were.
* `RejectSafe` — a segment whose rejection leaves them so.

## Main results

* `tripSegmentReason_forgets` — the reason aside, it is `_trip_segment`.
* `tripSegment_rejects_iff` — **when a rejected segment leaves the tables as they were.**

## References

`src/trip.c` (`_trip_segment`, `_trip_router_reject`), `src/conn.c` (`_tripc_read`).
-/

namespace Libtrp

open Lib

/-! ### The reason -/

/-- The end of the OPEN branch. -/
def tripSegmentInfoReason (len : ℕ) (buf : Buf) (en : ℕ) (pre : TripPrefix) (c : Ptr) :
    TripM (Option ℕ) := do
  let len ← sizeSubM len tripSign
  let rest ← sizeSubM len en
  let rest ← sizeSubM rest tripSign
  mark (.hand en rest)
  let (maclen, _) := tripUnpack rest (buf.drop en) [.o, .O]
  if maclen = 0 ∨ maclen = NPOS then return some 201
  else
    let en := (en + maclen) % 2 ^ 64
    let rest ← sizeSubM len en
    mark (.hand en rest)
    let code ← tripcRead c pre rest (buf.drop en)
    if code ≠ 0 then return some 22
    else
      tripcSetSend c
      return none

/-- A connection for an OPEN segment. -/
def tripSegmentCreateReason (src : ℤ) (len : ℕ) (buf : Buf) (en : ℕ) (pre : TripPrefix)
    (screen : TripScreen) : TripM (Option ℕ) :=
  tripSegmentCreateWith src screen (fun reason => return some reason)
    (tripSegmentInfoReason len buf en pre)

/-- The OPEN branch when there is no connection from the source yet. -/
def tripSegmentNewReason (src : ℤ) (len : ℕ) (buf : Buf) (en : ℕ) (pre : TripPrefix)
    (screen : TripScreen) : TripM (Option ℕ) := do
  let ask ← consult Oracle.screen
  let verify ← consult Oracle.verify
  let plain ← fetch fun r => r.has triprFlagAllowPlainIsig
  let screen := ask screen
  if !screen.allow then return none
  else if !tripVerified verify len buf screen.signpk plain then return some 203
  else tripSegmentCreateReason src len buf en pre screen

/-- The branch for OPEN, behind the prefix. -/
def tripSegmentOpenReason (src : ℤ) (len : ℕ) (buf : Buf) (en : ℕ) (pre : TripPrefix) :
    TripM (Option ℕ) := do
  let allowIn ← fetch fun r => r.has triprFlagAllowIn
  let plainOpen ← fetch fun r => r.has triprFlagAllowPlainOpen
  if !allowIn then return some 2
  else if !pre.encrypted && !plainOpen then return some 3
  else
    let rest ← sizeSubM len en
    mark (.hand en rest)
    match tripUnpackRoute rest (buf.drop en) with
    | none => return some 4
    | some (endroute, screen) =>
      if screen.version ≠ tripVersionMajor then return some 5
      else do
        let c ← fetch fun r => tripRouterGetConnBySrc r src pre.id
        match c with
        | none => Prog.stuck
        | some none =>
          tripSegmentNewReason src len buf (en + endroute) pre
            { screen with route := en + screen.route }
        | some (some c) => do
          let x ← getConn c
          let verify ← consult Oracle.verify
          let plain ← fetch fun r => r.has triprFlagAllowPlainIsig
          if !tripVerified verify len buf x.peer.signpk plain then return some 203
          else
            setConn c fun x => x.setSrc src
            return none

/-- The end of the branch for the other controls. -/
def tripSegmentReadReason (len : ℕ) (buf : Buf) (en : ℕ) (pre : TripPrefix) (c : Ptr) :
    TripM (Option ℕ) := do
  let len ← sizeSubM len tripSign
  let rest ← sizeSubM len en
  mark (.hand en rest)
  let code ← tripcRead c pre rest (buf.drop en)
  if code ≠ 0 then return some 79
  else return none

/-- The branch for the other controls, behind the prefix. -/
def tripSegmentCommReason (len : ℕ) (buf : Buf) (en : ℕ) (pre : TripPrefix) :
    TripM (Option ℕ) := do
  let plainComm ← fetch fun r => r.has triprFlagAllowPlainComm
  if !pre.encrypted && !plainComm then return some 7
  else
    let c ← fetch fun r => connmapGet r.conn r.heap pre.id
    match c with
    | none => return some 88
    | some c => do
      let x ← getConn c
      let verify ← consult Oracle.verify
      let plain ← fetch fun r => r.has triprFlagAllowPlainOsig
      if !tripChallengeVerified verify len buf pre x plain then return some 203
      else tripSegmentReadReason len buf en pre c

/-- `_trip_segment` with the reason it gives to `_trip_router_reject`, if it does. -/
def tripSegmentReason (src : ℤ) (len : ℕ) (buf : Buf) : TripM (Option ℕ) := do
  if len < 16 then return some 0
  else if tripRouterIsReported src then return none
  else
    mark (.hand 0 len)
    match tripUnpackPrefix len buf with
    | none => return some 1
    | some (en, pre) =>
      if pre.control ≥ tripControlMax then return some 12
      else if pre.control = tripControlOpen then tripSegmentOpenReason src len buf en pre
      else tripSegmentCommReason len buf en pre

theorem tripSegmentCreateReason_forgets (src : ℤ) (len : ℕ) (buf : Buf) (en : ℕ)
    (pre : TripPrefix) (screen : TripScreen) :
    Prog.Forgets (tripSegmentCreateReason src len buf en pre screen)
      (tripSegmentCreate src len buf en pre screen) := by
  have hrej : ∀ (src : ℤ) (reason : ℕ) (a : Option ℕ),
      Prog.Forgets (pure a : TripM (Option ℕ)) (tripRouterReject src reason) :=
    fun _ _ a => Prog.Forgets.pure a
  apply Prog.Forgets.bind
  intro c
  cases c with
  | none => exact hrej _ _ _
  | some c =>
    refine .bind fun _ => .bind fun _ => .bind fun _ => .bind fun _ => .ite (.last _ _) ?_
    refine .bind fun _ => .bind fun _ => ?_
    -- the information
    refine .bind fun _ => .bind fun _ => .bind fun _ => .bind fun _ => ?_
    refine .ite (hrej _ _ _) (.bind fun _ => .bind fun _ => .bind fun _ => ?_)
    exact .ite (hrej _ _ _) (.last _ _)

/-- **The reason aside, it is `_trip_segment`.** -/
theorem tripSegmentReason_forgets (src : ℤ) (len : ℕ) (buf : Buf) :
    Prog.Forgets (tripSegmentReason src len buf) (tripSegment src len buf) := by
  have hrej : ∀ (src : ℤ) (reason : ℕ) (a : Option ℕ),
      Prog.Forgets (pure a : TripM (Option ℕ)) (tripRouterReject src reason) :=
    fun _ _ a => Prog.Forgets.pure a
  have hnew : ∀ en pre screen, Prog.Forgets (tripSegmentNewReason src len buf en pre screen)
      (tripSegmentNew src len buf en pre screen) := by
    intro en pre screen
    refine .bind fun _ => .bind fun _ => .bind fun _ => .ite (.pure _) (.ite (hrej _ _ _) ?_)
    exact tripSegmentCreateReason_forgets _ _ _ _ _ _
  have hopen : ∀ en pre, Prog.Forgets (tripSegmentOpenReason src len buf en pre)
      (tripSegmentOpen src len buf en pre) := by
    intro en pre
    refine .bind fun _ => .bind fun _ => .ite (hrej _ _ _) (.ite (hrej _ _ _) ?_)
    refine .bind fun rest => .bind fun _ => ?_
    cases tripUnpackRoute rest (buf.drop en) with
    | none => exact hrej _ _ _
    | some route =>
      refine .ite (hrej _ _ _) (.bind fun c => ?_)
      rcases c with _ | _ | c
      · exact .stuck
      · exact hnew _ _ _
      · exact .bind fun _ => .bind fun _ => .bind fun _ => .ite (hrej _ _ _) (.last _ _)
  have hcomm : ∀ en pre, Prog.Forgets (tripSegmentCommReason len buf en pre)
      (tripSegmentComm src len buf en pre) := by
    intro en pre
    refine .bind fun _ => .ite (hrej _ _ _) (.bind fun c => ?_)
    cases c with
    | none => exact hrej _ _ _
    | some c =>
      refine .bind fun _ => .bind fun _ => .bind fun _ => .ite (hrej _ _ _) ?_
      exact .bind fun _ => .bind fun _ => .bind fun _ => .bind fun _ => .ite (hrej _ _ _) (.pure _)
  refine .ite (hrej _ _ _) (.ite (.pure _) (.bind fun _ => ?_))
  cases tripUnpackPrefix len buf with
  | none => exact hrej _ _ _
  | some p => exact .ite (hrej _ _ _) (.ite (hopen _ _) (hcomm _ _))

/-! ### The tables -/

/-- The connection map, the resolve queue, the send queue and the timer wheel are as they
were. -/
structure Untouched (r r' : Router) : Prop where
  conn : r'.conn = r.conn
  resolveq : r'.resolveq = r.resolveq
  sendq : r'.sendq = r.sendq
  wheel : r'.timers.wheel = r.timers.wheel

theorem Untouched.refl (r : Router) : Untouched r r := ⟨rfl, rfl, rfl, rfl⟩

/-- A write to the record of a connection leaves them. -/
theorem Untouched.setConn (r : Router) (c : Ptr) (f : Connection → Connection) :
    Untouched r (r.setConn c f) := ⟨rfl, rfl, rfl, rfl⟩

/-- So does a connection that finds no room in the map and is given back. -/
theorem Untouched.notAdded (r : Router) (src : ℤ) (c : Ptr) {mh : Connmap × ConnHeap}
    (h : mh.1 = r.conn) : Untouched r (((tripSegmentFresh r src).setMap mh).freeConn c) := by
  unfold Router.freeConn Router.setMap tripSegmentFresh Router.setConn Router.allocConn
  exact ⟨h, rfl, rfl, rfl⟩

/-- An error that is set moves no timer: only the states that are worked in do. -/
theorem untouched_tripcSetError (c : Ptr) (eval : Errno) (msg : Option String) (s : Env) :
    Untouched s.router ((tripcSetError c eval msg).exec s).2.router := by
  unfold tripcSetError
  rw [Prog.exec_bind_of (exec_getConn _ _), Prog.exec_ite]
  split
  · rw [Prog.exec_bind_of (exec_tripmAlloc _), Prog.exec_bind_of (exec_setConn _ _ _)]
    exact ⟨rfl, rfl, rfl, rfl⟩
  · exact .refl _

/-! ### Steps that arm a timer -/

/-- The wheel has had a new entry. -/
def Rearms {α : Type} (m : TripM α) : Prop :=
  ∀ s : Env, s.Plenty → s.router.timers.wheel.brk < (m.exec s).2.router.timers.wheel.brk

/-- No allocation fails because of what a program has done. -/
def KeepsPlenty {α : Type} (m : TripM α) : Prop := Prog.Does (fun s t => s.Plenty → t.Plenty) m

/-- Entries get new addresses. -/
theorem Acts.brk_le {c : Ptr} {r r' : Router} (h : Acts c r r') :
    r.timers.wheel.brk ≤ r'.timers.wheel.brk := by
  induction h with
  | refl => exact le_rfl
  | conn _ _ ih | nq _ ih | cancel _ _ ih | buf _ _ ih => exact ih
  | timer alloc now now' ms _ _ ih =>
    apply ih.trans
    cases alloc with
    | false => exact le_rfl
    | true =>
      show _ ≤ (tripSetTimeout true now now' ms _ _).2.wheel.brk
      rw [tripSetTimeout_true]
      exact Nat.le_succ _

theorem rearms_tripSetTimeoutM (ms : ℤ) (cb : Callback) : Rearms (tripSetTimeoutM ms cb) := by
  intro s hs
  have halloc : s.oracle.alloc.head = true := by
    rw [hs]
    rfl
  unfold tripSetTimeoutM
  rw [Prog.exec_bind_of (exec_tripmAlloc _), halloc, Prog.exec_bind_of (exec_triptimeNow _),
    Prog.exec_bind_of (exec_triptimeNow _)]
  show _ < (tripSetTimeout true _ _ ms (some cb) s.router.timers).2.wheel.brk
  rw [tripSetTimeout_true]
  exact Nat.lt_succ_self _

namespace Rearms

variable {α β : Type} {c : Ptr}

/-- A timer that is armed first. -/
theorem first {m : TripM α} {f : α → TripM β} (hm : Rearms m) (htotal : Prog.Total m)
    (hf : ∀ a, ActsOn c (f a)) : Rearms (m >>= f) := by
  intro s hs
  obtain ⟨a, ha⟩ := htotal.exec_eq s
  rw [Prog.exec_bind_of ha]
  exact (hm s hs).trans_le (hf a (m.exec s).2).1.brk_le

/-- A timer that is armed behind steps of the connection. -/
theorem behind {m : TripM α} {f : α → TripM β} (hm : RunsOn c m) (hplenty : KeepsPlenty m)
    (hf : ∀ a, Rearms (f a)) : Rearms (m >>= f) := by
  intro s hs
  obtain ⟨a, ha⟩ := hm.total.exec_eq s
  rw [Prog.exec_bind_of ha]
  exact (hm.acts s).1.brk_le.trans_lt (hf a _ (hplenty s hs))

theorem setConn {f : Connection → Connection} (hf : Connection.Plain f) :
    ActsOn c (Libtrp.setConn c f) := (RunsOn.setConn hf).acts

theorem tripcSetTimeout (ms : ℤ) {cb : Ptr → Callback} (hcb : (cb c).conn? = some c) :
    Rearms (Libtrp.tripcSetTimeout c ms cb) :=
  first (c := c) (rearms_tripSetTimeoutM ms _) (RunsOn.timer (c := c) (Or.inr hcb) ms).total
    fun _ => setConn fun _ => ⟨rfl, rfl, rfl⟩

/-- Asking to send sets a timer whatever the flags are. -/
theorem tripcSetSend : Rearms (Libtrp.tripcSetSend c) := by
  have hq : Rearms (tripQconnection c) := by
    intro s hs
    unfold tripQconnection
    rw [Prog.exec_bind_of (exec_store _ _), Prog.exec_bind_of (exec_fetch _ _), if_pos]
    · exact first (c := c) (rearms_tripSetTimeoutM 0 .tripSendImmediately)
        (RunsOn.timer (c := c) (Or.inl rfl) 0).total (fun _ => ActsOn.pure ()) _ hs
    · intro hzero
      have h := (UInt32.or_eq_zero_iff.mp hzero).2
      exact absurd h (by decide)
  exact first hq RunsOn.tripQconnection.total fun _ => setConn fun _ => ⟨rfl, rfl, rfl⟩

end Rearms

namespace KeepsPlenty

variable {α β : Type} {c : Ptr}

theorem pure (a : α) : KeepsPlenty (Pure.pure a) := fun _ => id

theorem bind {m : TripM α} {f : α → TripM β} (hm : KeepsPlenty m) (hf : ∀ a, KeepsPlenty (f a)) :
    KeepsPlenty (m >>= f) :=
  Prog.Does.bind (R := fun s t : Env => s.Plenty → t.Plenty) (fun _ _ _ h h' => h' ∘ h) hm hf

theorem getConn (d : Ptr) : KeepsPlenty (Libtrp.getConn d) := fun _ => id

theorem setConn (d : Ptr) (f : Connection → Connection) : KeepsPlenty (Libtrp.setConn d f) :=
  fun _ => id

theorem triptimeNow : KeepsPlenty Libtrp.triptimeNow := fun _ => id

theorem randombytesBuf : KeepsPlenty Libtrp.randombytesBuf := fun _ => id

theorem tripcCancelTimeout : KeepsPlenty (Libtrp.tripcCancelTimeout c) := by
  unfold Libtrp.tripcCancelTimeout
  apply bind (getConn c)
  intro x
  cases x.statetimer with
  | none => exact pure ()
  | some e => exact bind (fun _ => id) fun _ => setConn c _

theorem tripcSetDeadline (ms : ℤ) : KeepsPlenty (Libtrp.tripcSetDeadline c ms) :=
  bind triptimeNow fun _ => setConn c _

theorem tripcGeneratePing : KeepsPlenty (Libtrp.tripcGeneratePing c) :=
  bind randombytesBuf fun _ => bind triptimeNow fun _ => setConn c _

theorem tripcGetGrowth : KeepsPlenty (Libtrp.tripcGetGrowth c) :=
  bind (getConn c) fun _ => bind (setConn c _) fun _ => pure _

end KeepsPlenty

/-- What a connection goes on with when a segment has passed its parser. -/
def Goes (c : Ptr) (next : TripM Unit) : Prop :=
  next = tripcSetState c .PING ∨ next = tripcSetState c .READY ∨ next = tripcSetSend c

theorem Goes.follows {c : Ptr} {next : TripM Unit} (h : Goes c next) : Follows c next := by
  rcases h with rfl | rfl | rfl
  · exact follows_tripcSetState c .PING
  · exact follows_tripcSetState c .READY
  · exact follows_tripcSetSend c

/-- It arms a timer in any case. -/
theorem Goes.rearms {c : Ptr} {next : TripM Unit} (h : Goes c next) : Rearms next := by
  have hplain : ∀ state, Connection.Plain fun x => { x with state := state } :=
    fun _ _ => ⟨rfl, rfl, rfl⟩
  have hset : ∀ state, state = .PING ∨ state = .READY → Rearms (tripcEnter c state) →
      Rearms (tripcSetState c state) := by
    intro state hstate henter
    have hleave : KeepsPlenty (tripcLeave c state) := by
      rcases hstate with rfl | rfl <;> exact .tripcCancelTimeout
    exact .behind (RunsOn.tripcLeave (c := c) state) hleave fun _ =>
      .behind (RunsOn.setConn (c := c) (hplain state)) (.setConn c _) fun _ => henter
  rcases h with rfl | rfl | rfl
  · apply hset _ (Or.inl rfl)
    refine .behind (RunsOn.tripcGeneratePing (c := c)) .tripcGeneratePing fun _ => ?_
    refine .behind (RunsOn.getConn (c := c) c) (.getConn c) fun x => ?_
    refine .behind (RunsOn.tripcSetDeadline (c := c) _) (.tripcSetDeadline _) fun _ => ?_
    refine .behind (RunsOn.tripcSetGrowth (c := c) _) (.setConn c _) fun _ => ?_
    refine .behind (RunsOn.tripcGetGrowth (c := c)) .tripcGetGrowth fun ms => ?_
    exact .first (c := c) (.tripcSetTimeout ms rfl) (RunsOn.tripcSetTimeout (c := c) rfl ms).total
      fun _ => RunsOn.tripcSetSend.acts
  · apply hset _ (Or.inr rfl)
    refine .behind (RunsOn.getConn (c := c) c) (.getConn c) fun x => ?_
    refine .behind (RunsOn.tripcSetDeadline (c := c) _) (.tripcSetDeadline _) fun _ => ?_
    exact .tripcSetTimeout _ rfl
  · exact .tripcSetSend

/-! ### What a connection takes -/

/-- The segment passes the parser that the state of the connection asks for. -/
def Connection.Takes (x : Connection) (control : UInt8) (len : ℕ) : Prop :=
  match x.state with
  | .START | .RESOLVE | .END | .ERROR => False
  | .OPEN => len = 128
  | .CHAL => (control = tripControlOpen ∧ len = 80) ∨
    (control = tripControlPing ∧ x.Hears ∧ len = NPOS)
  | .PING | .READY | .READY_PING | .CLOSE => control = tripControlPing ∧ x.Hears ∧ len = NPOS

/-- **The switch of `_tripc_read`** comes to one of the two kinds of parsers, to the default,
or to nothing. -/
theorem tripcReadSwitch_cases (c : Ptr) (pre : TripPrefix) (len : ℕ) (buf : Buf) (x : Connection) :
    (∃ fmt size off next, InfoFormat fmt size off ∧ Goes c next ∧
        (x.Takes pre.control len ↔ len = size) ∧
        tripcReadSwitch c pre len buf x.state = tripcParsed (tripcParseInfo fmt c len buf) next) ∨
      (∃ next, Goes c next ∧ (x.Takes pre.control len ↔ x.Hears ∧ len = NPOS) ∧
        tripcReadSwitch c pre len buf x.state = tripcParsed (tripcParsePing c len buf pre) next) ∨
      (¬ x.Takes pre.control len ∧ (x.state = .RESOLVE ∨ ∀ s, ∃ code,
        (tripcReadSwitch c pre len buf x.state).exec s = (some code, s))) := by
  unfold Connection.Takes
  cases hx : x.state with
  | START | ERROR | END => exact Or.inr (Or.inr ⟨not_false, Or.inr fun s => ⟨_, rfl⟩⟩)
  | RESOLVE => exact Or.inr (Or.inr ⟨not_false, Or.inl rfl⟩)
  | OPEN =>
    exact Or.inl ⟨_, 128, 48, _, infoFormat_chal, Or.inl rfl, Iff.rfl, rfl⟩
  | CHAL =>
    have hne : ∀ a b : UInt8, a ≠ b → pre.control = a → pre.control ≠ b :=
      fun a b hab ha hb => hab (ha.symm.trans hb)
    unfold tripcReadSwitch
    dsimp only
    by_cases hdata : pre.control = tripControlData
    · rw [if_pos hdata]
      refine Or.inr (Or.inr ⟨?_, Or.inr fun s => ⟨_, rfl⟩⟩)
      rintro (⟨h, -⟩ | ⟨h, -⟩)
      · exact hne _ _ (by decide) hdata h
      · exact hne _ _ (by decide) hdata h
    rw [if_neg hdata]
    by_cases hopen : pre.control = tripControlOpen
    · rw [if_pos hopen]
      refine Or.inl ⟨_, 80, 0, _, infoFormat_open, Or.inr (Or.inr rfl), ?_, rfl⟩
      constructor
      · rintro (⟨-, h⟩ | ⟨h, -⟩)
        · exact h
        · exact absurd h (hne _ _ (by decide) hopen)
      · exact fun h => Or.inl ⟨hopen, h⟩
    rw [if_neg hopen]
    by_cases hping : pre.control = tripControlPing
    · rw [if_pos hping]
      refine Or.inr (Or.inl ⟨_, Or.inr (Or.inr rfl), ?_, rfl⟩)
      constructor
      · rintro (⟨h, -⟩ | ⟨-, h⟩)
        · exact absurd h hopen
        · exact h
      · exact fun h => Or.inr ⟨hping, h⟩
    · rw [if_neg hping]
      refine Or.inr (Or.inr ⟨?_, Or.inr fun s => ⟨_, rfl⟩⟩)
      rintro (⟨h, -⟩ | ⟨h, -⟩)
      · exact hopen h
      · exact hping h
  | PING | READY | READY_PING | CLOSE =>
    unfold tripcReadSwitch
    dsimp only
    by_cases hdata : pre.control = tripControlData
    · rw [if_pos hdata]
      refine Or.inr (Or.inr ⟨?_, Or.inr fun s => ⟨_, rfl⟩⟩)
      rintro ⟨h, -⟩
      exact absurd (hdata.symm.trans h) (by decide)
    rw [if_neg hdata]
    by_cases hping : pre.control = tripControlPing
    · rw [if_pos hping]
      exact Or.inr (Or.inl ⟨_, Or.inr (Or.inl rfl), and_iff_right hping, rfl⟩)
    · rw [if_neg hping]
      refine Or.inr (Or.inr ⟨fun h => hping h.1, Or.inr fun s => ?_⟩)
      split <;> exact ⟨_, rfl⟩

section Read

variable {c : Ptr} {pre : TripPrefix} {len : ℕ} {buf : Buf} {s : Env}

/-- A segment that is refused leaves the tables, unless it is taken by a connection that has an
error. -/
theorem untouched_tripcRead {code : Errno} {t : Env}
    (h : (tripcRead c pre len buf).exec s = (some code, t)) (hcode : code ≠ 0)
    (hsafe : (s.router.heap.conn c).Takes pre.control len → (s.router.heap.conn c).error = 0) :
    Untouched s.router t.router := by
  rcases tripcReadSwitch_cases c pre len buf (s.router.heap.conn c) with
    ⟨fmt, size, off, next, hfmt, hgoes, htakes, hswitch⟩ | ⟨next, hgoes, htakes, hswitch⟩ |
      ⟨-, hresolve | hquiet⟩
  · rcases exec_tripcRead_info hfmt hgoes.follows hswitch with
      ⟨-, hread⟩ | ⟨-, -, hread⟩ | ⟨htaken, u, -, -, hread⟩
    · cases hread.symm.trans h
      exact .refl _
    · rw [h] at hread
      cases hread
    · cases hread.symm.trans h
      exact absurd (hsafe (htakes.mpr htaken.1)) hcode
  · rcases exec_tripcRead_ping hgoes.follows hswitch with
      ⟨-, hread | hread⟩ | ⟨hhears, u, hu, -, hread⟩
    · cases hread.symm.trans h
      exact .refl _
    · rw [h] at hread
      cases hread
    · by_cases hlen : NPOS = len
      · rw [if_neg (not_not.mpr hlen)] at hread
        cases hread.symm.trans h
        exact absurd (hsafe (htakes.mpr ⟨hhears, hlen.symm⟩)) hcode
      · rw [if_pos hlen] at hread
        cases hread.symm.trans h
        rw [hu]
        exact .setConn _ c _
  · rw [exec_tripcRead, hresolve] at h
    obtain ⟨_, hset⟩ :=
      (RunsOn.tripcSetError (c := c) EINVAL (some "Invalid state.")).total.exec_eq s
    have hswitch : (tripcReadSwitch c pre len buf .RESOLVE).exec s =
        (some none, ((tripcSetError c EINVAL (some "Invalid state.")).exec s).2) :=
      (Prog.exec_bind_of hset).trans rfl
    rw [Prog.exec_bind_of hswitch] at h
    cases h
    exact untouched_tripcSetError c _ _ s
  · obtain ⟨code', hrun⟩ := hquiet s
    rw [exec_tripcRead, Prog.exec_bind_of hrun] at h
    cases code' <;> cases h <;> exact .refl _

/-- A segment that is taken comes back with the error the connection has, and a timer is armed
for it. -/
theorem tripcRead_takes (htakes : (s.router.heap.conn c).Takes pre.control len) (hs : s.Plenty) :
    ∃ t, (tripcRead c pre len buf).exec s = (some (s.router.heap.conn c).error, t) ∧
      s.router.timers.wheel.brk < t.router.timers.wheel.brk := by
  have harms : ∀ {next : TripM Unit}, Goes c next → ∀ {f : Connection → Connection} {u : Env},
      u.router = s.router.setConn c f → u.Plenty →
        s.router.timers.wheel.brk < (next.exec u).2.router.timers.wheel.brk := by
    intro next hgoes f u hu hplenty
    have h := hgoes.rearms u hplenty
    rwa [hu] at h
  rcases tripcReadSwitch_cases c pre len buf (s.router.heap.conn c) with
    ⟨fmt, size, off, next, hfmt, hgoes, hiff, hswitch⟩ | ⟨next, hgoes, hiff, hswitch⟩ | ⟨hnot, -⟩
  · have hlen := hiff.mp htakes
    have htaken : InfoTaken s.oracle size off len buf := by
      refine ⟨hlen, Or.inr ⟨?_, ?_⟩⟩
      · rw [hs]
        rfl
      · rw [hs.tail]
        rfl
    rcases exec_tripcRead_info hfmt hgoes.follows hswitch with
      ⟨hne, -⟩ | ⟨-, hnot, -⟩ | ⟨-, u, hu, hplenty, hread⟩
    · exact absurd hlen hne
    · exact absurd htaken hnot
    · exact ⟨_, hread, harms hgoes hu (hplenty hs)⟩
  · obtain ⟨hhears, hlen⟩ := hiff.mp htakes
    rcases exec_tripcRead_ping hgoes.follows hswitch with ⟨hnot, -⟩ | ⟨-, u, hu, hplenty, hread⟩
    · exact absurd hhears hnot
    · rw [if_neg (not_not.mpr hlen.symm)] at hread
      exact ⟨_, hread, harms hgoes hu (hplenty hs)⟩
  · exact absurd htakes hnot

end Read

/-! ### The map of connections -/

/-- Pushing free slots leaves the size, and a free slot if there is one to push. -/
theorem foldl_connmapPush_size (is : List ℕ) : ∀ m : Connmap,
    (is.foldl connmapPush m).size = m.size ∧
      (is ≠ [] → (is.foldl connmapPush m).free ≠ none) := by
  induction is using List.reverseRecOn with
  | nil => exact fun m => ⟨rfl, fun h => absurd rfl h⟩
  | append_singleton is i ih =>
    intro m
    rw [List.foldl_append]
    exact ⟨(ih m).1, fun _ => nofun⟩

/-- A map that grows has a free slot. -/
theorem connmapGrow_free {m : Connmap} (hmap : m.map ≠ none → 0 < m.cap) {alloc : Bool}
    (hcode : (connmapGrow m alloc).1 = 0) :
    (connmapGrow m alloc).2.free ≠ none ∧ (connmapGrow m alloc).2.size = m.size := by
  unfold connmapGrow at hcode ⊢
  split at hcode
  · exact absurd (show ENOSPC = 0 from hcode) (by decide)
  next hsize =>
  rw [if_neg hsize]
  split at hcode
  · exact absurd (show ENOMEM = 0 from hcode) (by decide)
  next halloc =>
  rw [if_neg halloc]
  cases hm : m.map with
  | none => exact ⟨nofun, rfl⟩
  | some es =>
    have hcap := hmap (by rw [hm]; exact nofun)
    obtain ⟨hkept, hfree⟩ := foldl_connmapPush_size (List.range' m.cap m.cap)
      { m with map := some (es ++ List.replicate m.cap default), cap := m.cap * 2 }
    refine ⟨hfree ?_, hkept⟩
    intro hnil
    rw [List.range'_eq_nil_iff] at hnil
    omega

/-- Memory is all that an allocator can refuse. -/
theorem connmapAddCode_true {m : Connmap} {alloc : Bool} (h : connmapAddCode m alloc = 0) :
    connmapAddCode m true = 0 := by
  cases alloc with
  | true => exact h
  | false =>
    unfold connmapAddCode connmapGrow at h ⊢
    by_cases hfree : connmapHasFree m = true
    · rw [if_pos hfree]
    rw [if_neg hfree] at h
    by_cases hsize : m.size ≥ connmapMax m
    · rw [if_pos hsize] at h
      exact absurd (show ENOSPC = 0 from h) (by decide)
    · rw [if_neg hsize] at h
      exact absurd (show ENOMEM = 0 from h) (by decide)

/-- A connection that is added counts, and a map it is not added to is as it was. -/
theorem connmapAdd_size {m : Connmap} (hmap : m.map ≠ none → 0 < m.cap) (h : ConnHeap) (c : Ptr)
    (alloc : Bool) (r₁ r₂ : UInt32) :
    ((connmapAdd m h c alloc r₁ r₂).1 = 0 → (connmapAdd m h c alloc r₁ r₂).2.1.size = m.size + 1) ∧
      ((connmapAdd m h c alloc r₁ r₂).1 ≠ 0 → (connmapAdd m h c alloc r₁ r₂).2.1 = m) := by
  unfold connmapAdd
  by_cases hfree : connmapHasFree m = true
  · obtain ⟨i, hi⟩ := Option.isSome_iff_exists.mp hfree
    simp only [hfree, if_true, hi]
    exact ⟨fun _ => rfl, fun hne => absurd rfl hne⟩
  · simp only [if_neg hfree]
    by_cases hcode : (connmapGrow m alloc).1 = 0
    · obtain ⟨hgrown, hsize⟩ := connmapGrow_free hmap hcode
      obtain ⟨i, hi⟩ := Option.ne_none_iff_exists'.mp hgrown
      rw [if_neg (not_not.mpr hcode), hi]
      exact ⟨fun _ => congrArg (· + 1) hsize, fun hne => absurd rfl hne⟩
    · rw [if_pos hcode]
      exact ⟨fun h => absurd h hcode, fun _ => (ConnmapInv.grow_error hcode).1⟩

/-! ### What the branches come to -/

section Branches

variable {s : Env} {src : ℤ} {len : ℕ} {buf : Buf} {en : ℕ} {pre : TripPrefix}

/-- A segment that has passed the first checks comes to its branch. -/
theorem SegmentPasses.exec_reason (h : SegmentPasses len buf en pre) (s : Env) (src : ℤ) :
    ∃ t, SameBut s t ∧ (tripSegmentReason src len buf).exec s =
      if pre.control = tripControlOpen then (tripSegmentOpenReason src len buf en pre).exec t
      else (tripSegmentCommReason len buf en pre).exec t := by
  have hreported : ¬ tripRouterIsReported src = true := by simp [tripRouterIsReported]
  unfold tripSegmentReason
  rw [if_neg (not_lt.mpr h.min), if_neg hreported, Prog.exec_bind_of (exec_mark _ _), h.unpacked]
  dsimp only
  rw [if_neg (UInt8.not_le.mpr h.control), Prog.exec_ite]
  exact ⟨_, .addMark _ _, rfl⟩

/-- An OPEN segment that has passed it all goes on to make a connection. -/
theorem OpenPasses.exec_reason {endroute : ℕ} {screen : TripScreen}
    (h : OpenPasses s src len buf en pre endroute screen) :
    ∃ t, SameBut s t ∧ (tripSegmentOpenReason src len buf en pre).exec s =
      (tripSegmentCreateReason src len buf (en + endroute) pre
        (s.oracle.screen { screen with route := en + screen.route })).exec t := by
  unfold tripSegmentOpenReason
  rw [Prog.exec_bind_of (exec_fetch _ _), Prog.exec_bind_of (exec_fetch _ _),
    if_neg (by simp [h.allowIn]), if_neg (not_encrypted_and.not.mpr (not_not.mpr h.encrypted)),
    Prog.exec_bind_of (exec_sizeSubM _ _ _), Prog.exec_bind_of (exec_mark _ _), h.route]
  generalize ht : Env.addMark _ _ = t
  have hst : SameBut s t := by rw [← ht]; exact ⟨rfl, rfl⟩
  dsimp only
  rw [if_neg (not_not.mpr h.version), Prog.exec_bind_of (exec_fetch _ _), hst.router, h.fresh]
  dsimp only
  unfold tripSegmentNewReason
  rw [Prog.exec_bind_of (exec_consult _ _), Prog.exec_bind_of (exec_consult _ _),
    Prog.exec_bind_of (exec_fetch _ _), hst.router, hst.oracle]
  dsimp only
  rw [if_neg (by simp [h.allow]), if_neg (by simp [h.verified])]
  exact ⟨t, hst, rfl⟩

/-- A segment of another control that has passed it all is read, and rejected for the code that
comes back. -/
theorem CommPasses.exec_reason {c : Ptr} (h : CommPasses s len buf pre c) :
    ∃ t, SameBut s t ∧ (tripSegmentCommReason len buf en pre).exec s =
      match (tripcRead c pre (sizeSub (sizeSub len tripSign) en) (buf.drop en)).exec t with
      | (some code, u) => (some (if code ≠ 0 then some 79 else none), u)
      | (none, u) => (none, u) := by
  unfold tripSegmentCommReason
  rw [Prog.exec_bind_of (exec_fetch _ _),
    if_neg (not_encrypted_and.not.mpr (not_not.mpr h.encrypted)),
    Prog.exec_bind_of (exec_fetch _ _), h.found]
  dsimp only
  rw [Prog.exec_bind_of (exec_getConn _ _), Prog.exec_bind_of (exec_consult _ _),
    Prog.exec_bind_of (exec_fetch _ _), if_neg (by simp [h.verified])]
  unfold tripSegmentReadReason
  rw [Prog.exec_bind_of (exec_sizeSubM _ _ _), Prog.exec_bind_of (exec_sizeSubM _ _ _),
    Prog.exec_bind_of (exec_mark _ _), Prog.exec_bind]
  generalize ht : Env.addMark _ _ = t
  refine ⟨t, by rw [← ht]; exact ⟨rfl, rfl⟩, ?_⟩
  rcases (tripcRead c pre (sizeSub (sizeSub len tripSign) en) (buf.drop en)).exec t with
    ⟨_ | code, u⟩
  · rfl
  · dsimp only
    rw [Prog.exec_ite]
    split <;> rfl

/-- The lengths of the parts of an OPEN segment behind its route. -/
theorem openLengths (hen : en ≤ len) (hlen : len ≤ NPOS) :
    (len = en + 192 → 48 ≤ sizeSub (sizeSub (sizeSub len tripSign) en) tripSign ∧
      sizeSub (sizeSub len tripSign) ((en + 48) % 2 ^ 64) = 80) ∧
    (len ≠ en + 192 → sizeSub (sizeSub len tripSign) ((en + 48) % 2 ^ 64) ≠ 80) := by
  have hsign : tripSign = 64 := rfl
  unfold NPOS at hlen
  unfold sizeSub
  rw [hsign]
  constructor
  · intro h
    constructor <;> omega
  · intro h
    omega

/-- **The information is read** when it has its length to the byte; any other is rejected. -/
theorem exec_tripSegmentInfoReason {c : Ptr} (hs : (s.status c).state = .CHAL)
    (herror : (s.status c).error = 0) (hen : en ≤ len) (hlen : len ≤ NPOS)
    (hpre : pre.control = tripControlOpen) :
    (len = en + 192 → ∀ reason t,
      (tripSegmentInfoReason len buf en pre c).exec s ≠ (some (some reason), t)) ∧
    (len ≠ en + 192 → ∃ reason t,
      (tripSegmentInfoReason len buf en pre c).exec s = (some (some reason), t)) := by
  obtain ⟨hexact, hother⟩ := openLengths hen hlen
  have hbox := @tripUnpack_fixed [.o, .O] (by decide) (by decide)
    (sizeSub (sizeSub (sizeSub len tripSign) en) tripSign) (buf.drop en)
  rw [show fixedSize [.o, .O] = 48 from rfl] at hbox
  unfold tripSegmentInfoReason
  rw [Prog.exec_bind_of (exec_sizeSubM _ _ _), Prog.exec_bind_of (exec_sizeSubM _ _ _),
    Prog.exec_bind_of (exec_sizeSubM _ _ _), Prog.exec_bind_of (exec_mark _ _)]
  rcases Nat.lt_or_ge (sizeSub (sizeSub (sizeSub len tripSign) en) tripSign) 48 with hshort | hlong
  · -- there is no room for a sealed box
    have hnpos := hbox.2 hshort
    generalize tripUnpack _ _ _ = p at hnpos ⊢
    obtain ⟨maclen, out⟩ := p
    dsimp only at hnpos ⊢
    rw [if_pos (Or.inr hnpos)]
    refine ⟨fun h => absurd (hexact h).1 (Nat.not_le.mpr hshort), fun _ => ⟨_, _, rfl⟩⟩
  rw [hbox.1 hlong]
  dsimp only
  rw [if_neg (by decide), Prog.exec_bind_of (exec_sizeSubM _ _ _),
    Prog.exec_bind_of (exec_mark _ _)]
  generalize ht : Env.addMark (Env.addMark _ _) _ = t
  have htr : t.router = s.router := by rw [← ht]; rfl
  have hstate : (t.router.heap.conn c).state = .CHAL := by rw [htr]; exact hs
  have herr : (t.router.heap.conn c).error = 0 := by rw [htr]; exact herror
  have hswitch : ∀ n b, tripcReadSwitch c pre n b (t.router.heap.conn c).state =
      tripcParsed (tripcParseInfo [.Q, .n, .k, .I, .I, .I, .I] c n b) (tripcSetSend c) := by
    intro n b
    rw [hstate]
    unfold tripcReadSwitch
    dsimp only
    rw [if_neg (by rw [hpre]; decide), if_pos hpre]
    rfl
  rcases exec_tripcRead_info infoFormat_open (follows_tripcSetSend c) (hswitch _ _) with
    ⟨hne, hread⟩ | ⟨heq, -, hread⟩ | ⟨htaken, u, -, -, hread⟩
  · rw [Prog.exec_bind_of hread]
    exact ⟨fun h => absurd (hexact h).2 hne, fun _ => ⟨_, _, rfl⟩⟩
  · refine ⟨fun _ reason v hv => ?_, fun h => absurd heq (hother h)⟩
    have hnone : ∀ p : Option Errno × Env, p.1 = none → p = (none, p.2) :=
      fun p hp => Prod.ext hp rfl
    rw [Prog.exec_bind, hnone _ hread] at hv
    cases hv
  · rw [Prog.exec_bind_of hread, herr, if_neg (not_not.mpr rfl)]
    refine ⟨fun _ reason v hv => ?_, fun h => absurd htaken.1 (hother h)⟩
    obtain ⟨_, hset⟩ := (RunsOn.tripcSetSend (c := c)).total.exec_eq ((tripcSetSend c).exec u).2
    rw [Prog.exec_bind_of hset] at hv
    cases hv

end Branches

/-! ### A rejected segment -/

/-- The same with other answers of the allocator. -/
def Env.withAlloc (s : Env) (alloc : Stream' Bool) : Env :=
  { s with oracle := { s.oracle with alloc := alloc } }

/-- A segment that is rejected leaves the tables as they were, whatever the allocator answers. -/
def RejectsUntouched (s : Env) (src : ℤ) (len : ℕ) (buf : Buf) : Prop :=
  ∀ alloc reason t, (tripSegmentReason src len buf).exec (s.withAlloc alloc) =
    (some (some reason), t) → Untouched s.router t.router

/-- A segment that does so: an OPEN segment for which a connection can be made has its length to
the byte, and one that a connection takes comes to a connection without an error. -/
structure RejectSafe (s : Env) (src : ℤ) (len : ℕ) (buf : Buf) : Prop where
  opened : ∀ en pre endroute screen, SegmentPasses len buf en pre →
    pre.control = tripControlOpen → OpenPasses s src len buf en pre endroute screen →
      connmapAddCode s.router.conn true = 0 → len = en + endroute + 192
  read : ∀ en pre c, SegmentPasses len buf en pre → pre.control ≠ tripControlOpen →
    CommPasses s len buf pre c →
      (s.router.heap.conn c).Takes pre.control (sizeSub (sizeSub len tripSign) en) →
        (s.router.heap.conn c).error = 0

/-- The router and what the user and the library decide are the same. -/
structure SameAsked (s t : Env) : Prop where
  router : t.router = s.router
  screen : t.oracle.screen = s.oracle.screen
  verify : t.oracle.verify = s.oracle.verify

theorem SameAsked.of_sameBut {s t : Env} {alloc : Stream' Bool}
    (h : SameBut (s.withAlloc alloc) t) : SameAsked s t := by
  refine ⟨h.router, ?_, ?_⟩ <;> rw [h.oracle] <;> rfl

theorem OpenPasses.congr {s t : Env} (h : SameAsked s t) {src : ℤ} {len : ℕ} {buf : Buf} {en : ℕ}
    {pre : TripPrefix} {endroute : ℕ} {screen : TripScreen} :
    OpenPasses t src len buf en pre endroute screen ↔
      OpenPasses s src len buf en pre endroute screen := by
  constructor <;> rintro ⟨h₁, h₂, h₃, h₄, h₅, h₆, h₇⟩
  · rw [h.router] at h₁ h₂ h₅ h₇
    rw [h.screen] at h₆ h₇
    rw [h.verify] at h₇
    exact ⟨h₁, h₂, h₃, h₄, h₅, h₆, h₇⟩
  · rw [← h.router] at h₁ h₂ h₅ h₇
    rw [← h.screen] at h₆ h₇
    rw [← h.verify] at h₇
    exact ⟨h₁, h₂, h₃, h₄, h₅, h₆, h₇⟩

theorem CommPasses.congr {s t : Env} (h : SameAsked s t) {len : ℕ} {buf : Buf} {pre : TripPrefix}
    {c : Ptr} : CommPasses t len buf pre c ↔ CommPasses s len buf pre c := by
  constructor <;> rintro ⟨h₁, h₂, h₃⟩
  · rw [h.router] at h₁ h₂ h₃
    rw [h.verify] at h₃
    exact ⟨h₁, h₂, h₃⟩
  · rw [← h.router] at h₁ h₂ h₃
    rw [← h.verify] at h₃
    exact ⟨h₁, h₂, h₃⟩

/-- Where the end of the OPEN branch lies. -/
theorem OpenPasses.route_le {s : Env} {src : ℤ} {len : ℕ} {buf : Buf} {en : ℕ} {pre : TripPrefix}
    {endroute : ℕ} {screen : TripScreen} (h : OpenPasses s src len buf en pre endroute screen)
    (hpass : SegmentPasses len buf en pre) (hlen : len ≤ NPOS) : en + endroute ≤ len := by
  have hen := tripUnpackPrefix_le hpass.unpacked
  have hroute := h.route
  rw [sizeSub_of_le hen hlen] at hroute
  have hwithin := tripUnpackRoute_le hroute
  omega

section Create

variable {s : Env} (hmap : s.router.conn.map ≠ none → 0 < s.router.conn.cap) {src : ℤ} {len en : ℕ}
  (hlen : len ≤ NPOS) (hen : en ≤ len) {buf : Buf} {pre : TripPrefix}
  (hpre : pre.control = tripControlOpen) {screen : TripScreen}
include hmap hlen hen hpre

/-- An OPEN segment of the right length is rejected for want of memory only, before there is
anything in the map. -/
theorem untouched_create {reason : ℕ} {t : Env}
    (h : (tripSegmentCreateReason src len buf en pre screen).exec s = (some (some reason), t))
    (hexact : connmapAddCode s.router.conn true = 0 → len = en + 192) :
    Untouched s.router t.router := by
  have horig : (tripSegmentCreate src len buf en pre screen).exec s = (some (), t) := by
    rw [tripSegmentCreateReason_forgets src len buf en pre screen s, h]
    rfl
  rcases tripSegmentCreate_cases src len buf en pre screen s with
    ⟨-, hsame⟩ | ⟨halloc, r₁, r₂, code, mh, hadd, ⟨hcode, hfree⟩ | ⟨hcode, -⟩⟩
  · rw [horig] at hsame
    dsimp only at hsame
    rw [hsame]
    exact .refl _
  · rw [horig] at hfree
    have hsize := (connmapAdd_size hmap (tripSegmentFresh s.router src).heap s.router.heap.brk
      s.oracle.alloc.tail.head r₁ r₂).2
    rw [hadd] at hsize
    dsimp only at hfree
    rw [hfree]
    exact .notAdded s.router src _ (hsize hcode)
  · -- the connection is made, and its information is read
    have hzero : connmapAddCode s.router.conn s.oracle.alloc.tail.head = 0 := by
      rw [← connmapAdd_code s.router.conn (tripSegmentFresh s.router src).heap s.router.heap.brk _
        r₁ r₂, hadd]
      exact hcode
    have hroom := connmapAddCode_true hzero
    obtain ⟨u, hnext, hchal, herror, -⟩ := exec_tripSegmentCreateWith src screen
      (fun reason => return some reason) (tripSegmentInfoReason len buf en pre) halloc hzero
    exact absurd (hnext.symm.trans h)
      ((exec_tripSegmentInfoReason hchal herror hen hlen hpre).1 (hexact hroom) reason t)

/-- Any other is rejected when there is a connection for it in the map. -/
theorem touched_create (hs : s.Plenty) (hroom : connmapAddCode s.router.conn true = 0)
    (hne : len ≠ en + 192) :
    ∃ reason t, (tripSegmentCreateReason src len buf en pre screen).exec s =
      (some (some reason), t) ∧ ¬ Untouched s.router t.router := by
  have halloc : s.oracle.alloc.head = true := by rw [hs]; rfl
  have halloc' : s.oracle.alloc.tail.head = true := by rw [hs.tail]; rfl
  have hzero : connmapAddCode s.router.conn s.oracle.alloc.tail.head = 0 := by rw [halloc', hroom]
  obtain ⟨u, hnext, hchal, herror, -⟩ := exec_tripSegmentCreateWith src screen
    (fun reason => return some reason) (tripSegmentInfoReason len buf en pre) halloc hzero
  obtain ⟨reason, t, hinfo⟩ := (exec_tripSegmentInfoReason hchal herror hen hlen hpre).2 hne
  have hexec := hnext.trans hinfo
  refine ⟨reason, t, hexec, fun huntouched => ?_⟩
  have horig : (tripSegmentCreate src len buf en pre screen).exec s = (some (), t) := by
    rw [tripSegmentCreateReason_forgets src len buf en pre screen s]
    exact congrArg (fun p => (p.1.map fun _ => (), p.2)) hexec
  rcases tripSegmentCreate_cases src len buf en pre screen s with
    ⟨hfalse, -⟩ | ⟨-, r₁, r₂, code, mh, hadd, ⟨hcode, -⟩ | ⟨hcode, hacts⟩⟩
  · rw [halloc] at hfalse
    cases hfalse
  · have hadded := connmapAdd_code s.router.conn (tripSegmentFresh s.router src).heap
      s.router.heap.brk s.oracle.alloc.tail.head r₁ r₂
    rw [hadd] at hadded
    exact hcode (hadded.trans hzero)
  · have hsize := (connmapAdd_size hmap (tripSegmentFresh s.router src).heap s.router.heap.brk
      s.oracle.alloc.tail.head r₁ r₂).1
    rw [hadd] at hsize
    rw [horig] at hacts
    have hconn := hacts.conn_eq
    rw [show t.router.conn = s.router.conn from huntouched.conn] at hconn
    have := congrArg Connmap.size hconn
    rw [show (((tripSegmentFresh s.router src).setMap mh).conn.size) = mh.1.size from rfl,
      hsize hcode] at this
    omega

end Create

/-- **When a rejected segment leaves the tables as they were.** -/
theorem tripSegment_rejects_iff {s : Env} (hmap : s.router.conn.map ≠ none → 0 < s.router.conn.cap)
    {len : ℕ} (hlen : len ≤ NPOS) (src : ℤ) (buf : Buf) :
    RejectsUntouched s src len buf ↔ RejectSafe s src len buf := by
  constructor
  · intro h
    have hplenty : (s.withAlloc (Stream'.const true)).Plenty := rfl
    constructor
    · intro en pre endroute screen hpass hopen hopens hroom
      by_contra hne
      obtain ⟨t, ht, hexec⟩ := hpass.exec_reason (s.withAlloc (Stream'.const true)) src
      rw [if_pos hopen] at hexec
      obtain ⟨u, hu, hexec'⟩ := ((OpenPasses.congr (.of_sameBut ht)).mpr hopens).exec_reason
      have hsu : u.router = s.router := hu.router.trans ht.router
      have huplenty : u.Plenty := by
        unfold Env.Plenty
        rw [hu.oracle, ht.oracle]
        rfl
      obtain ⟨reason, v, hreason, htouched⟩ := @touched_create u (hsu ▸ hmap) src len _ hlen
        (hopens.route_le hpass hlen) buf pre hopen _ huplenty (hsu ▸ hroom) hne
      apply htouched
      rw [hsu]
      exact h _ reason v ((hexec.trans hexec').trans hreason)
    · intro en pre c hpass hcontrol hcomm htakes
      by_contra herror
      obtain ⟨t, ht, hexec⟩ := hpass.exec_reason (s.withAlloc (Stream'.const true)) src
      rw [if_neg hcontrol] at hexec
      obtain ⟨u, hu, hexec'⟩ := ((CommPasses.congr (.of_sameBut ht)).mpr hcomm).exec_reason
      have hsu : u.router = s.router := hu.router.trans ht.router
      have huplenty : u.Plenty := by
        unfold Env.Plenty
        rw [hu.oracle, ht.oracle]
        rfl
      rw [← hsu] at htakes herror
      obtain ⟨v, hread, hbrk⟩ := @tripcRead_takes c pre _ (buf.drop en) u htakes huplenty
      rw [hread] at hexec'
      dsimp only at hexec'
      rw [if_pos herror] at hexec'
      have huntouched := h _ 79 v (hexec.trans hexec')
      rw [← hsu] at huntouched
      rw [huntouched.wheel] at hbrk
      exact lt_irrefl _ hbrk
  · intro hsafe alloc reason v hreason
    have horig : (tripSegment src len buf).exec (s.withAlloc alloc) = (some (), v) := by
      rw [tripSegmentReason_forgets src len buf (s.withAlloc alloc), hreason]
      rfl
    rcases tripSegment_cases src len buf (s.withAlloc alloc) with
      ⟨hsame, -⟩ | ⟨en, pre, t, hpass, ht, horig'⟩
    · rw [horig] at hsame
      rw [show v.router = s.router from hsame.router]
      exact .refl _
    obtain ⟨t', ht', hexec⟩ := hpass.exec_reason (s.withAlloc alloc) src
    rw [hreason] at hexec
    rw [horig] at horig'
    by_cases hopen : pre.control = tripControlOpen
    · rw [if_pos hopen] at hexec horig'
      rcases tripSegmentOpen_cases src len buf en pre t with
        hsame | ⟨c, -, hsrc⟩ | ⟨endroute, screen, u, hopens, -, -⟩
      · rw [← horig'] at hsame
        rw [show v.router = s.router from hsame.router.trans ht.router]
        exact .refl _
      · rw [← horig'] at hsrc
        rw [show v.router = _ from hsrc, ht.router]
        exact .setConn _ c _
      · -- the same has been passed where the reason is given
        have hopens' := (OpenPasses.congr (.of_sameBut ht)).mp hopens
        obtain ⟨u', hu', hexec'⟩ := ((OpenPasses.congr (.of_sameBut ht')).mpr hopens').exec_reason
        have hsu : u'.router = s.router := hu'.router.trans ht'.router
        have huntouched := @untouched_create u' (hsu ▸ hmap) src len _ hlen
          (hopens'.route_le hpass hlen) buf pre hopen _ reason v (hexec.trans hexec').symm
          fun hroom => hsafe.opened en pre endroute screen hpass hopen hopens' (hsu ▸ hroom)
        rwa [hsu] at huntouched
    · rw [if_neg hopen] at hexec horig'
      rcases tripSegmentComm_cases src len buf en pre t with ⟨hsame, -⟩ | ⟨c, hcomm, -⟩
      · rw [← horig'] at hsame
        rw [show v.router = s.router from hsame.router.trans ht.router]
        exact .refl _
      · have hcomm' := (CommPasses.congr (.of_sameBut ht)).mp hcomm
        obtain ⟨u', hu', hexec'⟩ := ((CommPasses.congr (.of_sameBut ht')).mpr hcomm').exec_reason
        have hsu : u'.router = s.router := hu'.router.trans ht'.router
        have hread := hexec.trans hexec'
        rcases hrun : (tripcRead c pre (sizeSub (sizeSub len tripSign) en) (buf.drop en)).exec u'
          with ⟨_ | code, w⟩
        · rw [hrun] at hread
          cases hread
        · rw [hrun] at hread
          dsimp only at hread
          split at hread
          · next hcode =>
            cases hread
            have huntouched := untouched_tripcRead hrun hcode
              (by rw [hsu]; exact hsafe.read en pre c hpass hopen hcomm')
            rwa [hsu] at huntouched
          · cases hread

/-- A PING for no connection is rejected, and leaves the tables of a listening router. -/
theorem tripSegment_rejects_stray : RejectsUntouched listenEnv 0 16 pingSegment := by
  refine (tripSegment_rejects_iff (by decide) (by decide) 0 pingSegment).mpr ⟨?_, ?_⟩
  · intro en pre endroute screen hpass hopen
    have hping : (tripUnpackPrefix 16 pingSegment).map (fun p => p.2.control) =
        some tripControlPing := by decide
    rw [hpass.unpacked] at hping
    exact absurd (hopen.symm.trans (Option.some.inj hping)) (by decide)
  · intro en pre c hpass hcontrol hcomm
    have hnone : ∀ id, connmapGet listenEnv.router.conn listenEnv.router.heap id = none := by
      intro id
      unfold connmapGet
      exact if_neg (Nat.not_lt_zero _)
    exact nomatch (hnone pre.id).symm.trans hcomm.found

/-- An OPEN segment that is a byte too short is rejected when its connection is in the map. -/
theorem tripSegment_rejects_short :
    ¬ ∀ (s : Env) (src : ℤ) (len : ℕ) (buf : Buf),
      (s.router.conn.map ≠ none → 0 < s.router.conn.cap) → len ≤ NPOS →
        RejectsUntouched s src len buf := by
  intro hall
  have hpair : ∀ p : Option (Option ℕ) × Env, p.1 = some (some 22) → p = (some (some 22), p.2) :=
    fun p hp => Prod.ext hp rfl
  have h := hall listenEnv 0 204 openSegment (by decide) (by decide) (Stream'.const true) 22 _
    (hpair _ (by decide))
  exact absurd (congrArg Connmap.size h.conn) (by decide)

end Libtrp
