import Libtrp.Conn
import Libtrp.Lib.Run

/-!
# The ERROR state of a connection

A connection records the first error and goes to `ERROR`, where it stays until
it is released: that is what the guards in `_tripc_set_error` and
`_tripc_set_state` are for.  The one in `_tripc_set_state` looks at the state
that is entered and not at the one that is left, so an event that changes the
state without looking at it takes the connection out of `ERROR` again.

## Main definitions

* `SameStatus c` — a program leaves state, error, identifier and peer of `c` alone.
* `ConnOp` — what happens to a connection between its set up and its release.

## Main results

* `tripcSetState_status` — the state that is entered is the one asked for.
* `tripc_error_iff` — **when `ERROR` is kept.**

## References

`src/conn.c` (`_tripc_set_state`, `_tripc_set_error`, `_tripc_read`),
`src/trip.c` (`trip_resolve`).
-/

namespace Libtrp

open Lib

/-! ### What a connection's steps leave alone -/

/-- A field that is not one of the send queue's is kept by enqueueing. -/
theorem sendqNq_field {α : Type*} (g : Connection → α)
    (hnext : ∀ x n, g (x.setNext n) = g x) (hin : ∀ x b, g (x.setInsend b) = g x)
    (q : Sendq) (h : ConnHeap) (c d : Ptr) : g ((sendqNq q h c).2.conn d) = g (h.conn d) := by
  have hlink : ∀ x : Connection, g ((x.setNext none).setInsend true) = g x := by
    intro x
    rw [hin, hnext]
  unfold sendqNq
  split
  · rfl
  · cases q.tail with
    | none =>
      dsimp only
      exact ConnHeap.conn_set_field g h c d (hlink _)
    | some t =>
      dsimp only
      refine (ConnHeap.conn_set_field g _ c d ?_).trans (ConnHeap.conn_set_field g h t d ?_)
      · exact hlink _
      · exact hnext _ _

/-- Enqueueing allocates and frees nothing. -/
theorem sendqNq_alloc (q : Sendq) (h : ConnHeap) (c : Ptr) :
    (sendqNq q h c).2.live = h.live ∧ (sendqNq q h c).2.brk = h.brk := by
  unfold sendqNq
  split
  · exact ⟨rfl, rfl⟩
  · cases q.tail <;> exact ⟨rfl, rfl⟩

/-- Steps of a connection allocate and free nothing. -/
theorem Acts.alloc_eq {c : Ptr} {r r' : Router} (h : Acts c r r') :
    r'.heap.live = r.heap.live ∧ r'.heap.brk = r.heap.brk := by
  induction h with
  | refl => exact ⟨rfl, rfl⟩
  | nq _ ih =>
    exact ⟨(sendqNq_alloc _ _ _).1.trans ih.1, (sendqNq_alloc _ _ _).2.trans ih.2⟩
  | conn _ _ ih | timer _ _ _ _ _ _ ih | cancel _ _ ih | buf _ _ ih => exact ih

/-- Steps of a connection change no identifier. -/
theorem Acts.id_eq {c : Ptr} {r r' : Router} (h : Acts c r r') (d : Ptr) :
    (r'.heap.conn d).self.id = (r.heap.conn d).self.id := by
  induction h with
  | refl => rfl
  | conn hf _ ih =>
    exact (ConnHeap.conn_set_field (fun x => x.self.id) _ _ _ (hf _).2.2).trans ih
  | nq _ ih =>
    exact (sendqNq_field (fun x => x.self.id) (fun _ _ => rfl) (fun _ _ => rfl) _ _ _ _).trans ih
  | timer _ _ _ _ _ _ ih | cancel _ _ ih | buf _ _ ih => exact ih

/-- Steps of a connection leave the others as they are, but for the links of the
send queue. -/
theorem Acts.conn_field {α : Type*} (g : Connection → α)
    (hnext : ∀ x n, g (x.setNext n) = g x) (hin : ∀ x b, g (x.setInsend b) = g x)
    {c d : Ptr} (hdc : d ≠ c) {r r' : Router} (h : Acts c r r') :
    g (r'.heap.conn d) = g (r.heap.conn d) := by
  induction h with
  | refl => rfl
  | conn hf _ ih => exact (congrArg g (ConnHeap.conn_set_of_ne _ hdc _)).trans ih
  | nq _ ih => exact (sendqNq_field g hnext hin _ _ _ _).trans ih
  | timer _ _ _ _ _ _ ih => exact ih
  | cancel _ _ ih => exact ih
  | buf _ _ ih => exact ih

/-! ### Programs that leave the status alone -/

/-- The fields of a connection that its timers, keys and sending leave alone. -/
structure ConnStatus where
  state : TripcState
  error : Errno
  incoming : Bool
  id : UInt64
  peer : Connpeer
  deriving DecidableEq

/-- The status of a connection. -/
def Connection.status (x : Connection) : ConnStatus :=
  ⟨x.state, x.error, x.incoming, x.self.id, x.peer⟩

/-- The status of `c` in the router. -/
def Env.status (s : Env) (c : Ptr) : ConnStatus := (s.router.heap.conn c).status

/-- What a write to `c` makes of them. -/
theorem Env.status_setConn (s : Env) (c : Ptr) (f : Connection → Connection) :
    (s.setRouter (s.router.setConn c f)).status c = (f (s.router.heap.conn c)).status :=
  congrArg Connection.status (ConnHeap.conn_set_self s.router.heap c f)

/-- A program that leaves the status of `c` alone. -/
def SameStatus {α : Type} (c : Ptr) (m : TripM α) : Prop :=
  Prog.Does (fun s t => t.status c = s.status c) m

namespace SameStatus

variable {α β : Type} {c : Ptr}

theorem pure (a : α) : SameStatus c (Pure.pure a) := fun _ => rfl

theorem bind {m : TripM α} {f : α → TripM β} (hm : SameStatus c m)
    (hf : ∀ a, SameStatus c (f a)) : SameStatus c (m >>= f) :=
  Prog.Does.bind (fun _ _ _ h h' => h'.trans h) hm hf

theorem ite {p : Prop} [Decidable p] {m n : TripM α} (hm : SameStatus c m)
    (hn : SameStatus c n) : SameStatus c (if p then m else n) := Prog.Does.ite hm hn

theorem fetch (f : Router → α) : SameStatus c (Libtrp.fetch f) := fun _ => rfl

theorem getConn (d : Ptr) : SameStatus c (Libtrp.getConn d) := fun _ => rfl

theorem tripmAlloc : SameStatus c Libtrp.tripmAlloc := fun _ => rfl

theorem triptimeNow : SameStatus c Libtrp.triptimeNow := fun _ => rfl

theorem randombytesBuf : SameStatus c Libtrp.randombytesBuf := fun _ => rfl

/-- A write that leaves these fields alone. -/
theorem setConn {f : Connection → Connection} (hf : ∀ x, (f x).status = x.status) :
    SameStatus c (Libtrp.setConn c f) :=
  fun s => ConnHeap.conn_set_field Connection.status s.router.heap c c (hf _)

theorem cancel (id : Ptr) : SameStatus c (tripCancelTimeoutM id) := fun _ => rfl

theorem timer (cb : Callback) (ms : ℤ) : SameStatus c (tripSetTimeoutM ms cb) := by
  unfold tripSetTimeoutM
  refine bind tripmAlloc fun alloc => bind triptimeNow fun now => bind triptimeNow fun now' => ?_
  exact fun _ => rfl

theorem tripQconnection : SameStatus c (Libtrp.tripQconnection c) := by
  unfold Libtrp.tripQconnection
  refine bind ?_ fun _ => bind (fetch _) fun flag => ite ?_ (pure ())
  · intro s
    exact sendqNq_field Connection.status (fun _ _ => rfl) (fun _ _ => rfl) _ _ c c
  · exact bind (timer _ 0) fun _ => pure ()

theorem tripcMkKeys : SameStatus c (Libtrp.tripcMkKeys c) := by
  unfold Libtrp.tripcMkKeys
  refine bind (getConn c) fun x => ite ?_ (pure ())
  refine bind (ite (pure true) tripmAlloc) fun pk => bind (ite (pure true) tripmAlloc) fun sk => ?_
  refine ite ?_ (setConn fun _ => rfl)
  exact bind randombytesBuf fun _ => bind randombytesBuf fun _ => setConn fun _ => rfl

theorem tripcGeneratePing : SameStatus c (Libtrp.tripcGeneratePing c) :=
  bind randombytesBuf fun _ => bind triptimeNow fun _ => setConn fun _ => rfl

theorem tripcSetDeadline (ms : ℤ) : SameStatus c (Libtrp.tripcSetDeadline c ms) :=
  bind triptimeNow fun _ => setConn fun _ => rfl

theorem tripcSetGrowth (ms : ℤ) : SameStatus c (Libtrp.tripcSetGrowth c ms) := setConn fun _ => rfl

theorem tripcGetGrowth : SameStatus c (Libtrp.tripcGetGrowth c) :=
  bind (getConn c) fun _ => bind (setConn fun _ => rfl) fun _ => pure _

theorem tripcSetTimeout (ms : ℤ) (cb : Ptr → Callback) :
    SameStatus c (Libtrp.tripcSetTimeout c ms cb) :=
  bind (timer _ ms) fun _ => setConn fun _ => rfl

theorem tripcCancelTimeout : SameStatus c (Libtrp.tripcCancelTimeout c) := by
  unfold Libtrp.tripcCancelTimeout
  refine bind (getConn c) fun x => ?_
  cases x.statetimer with
  | none => exact pure ()
  | some e => exact bind (cancel e) fun _ => setConn fun _ => rfl

theorem tripcSetSend : SameStatus c (Libtrp.tripcSetSend c) :=
  bind tripQconnection fun _ => setConn fun _ => rfl

theorem tripcLeave (state : TripcState) : SameStatus c (Libtrp.tripcLeave c state) := by
  cases state
  case RESOLVE | OPEN | CHAL | PING | READY | CLOSE => exact tripcCancelTimeout
  case START | READY_PING | END | ERROR => exact pure ()

theorem tripcEnter (state : TripcState) : SameStatus c (Libtrp.tripcEnter c state) := by
  cases state
  case START | READY_PING | END | ERROR => exact pure ()
  case CHAL => exact tripcMkKeys
  case RESOLVE => exact bind (getConn c) fun x => tripcSetTimeout _ _
  case OPEN =>
    refine bind tripcMkKeys fun _ => bind (getConn c) fun x => bind (tripcSetDeadline _) fun _ => ?_
    refine bind (tripcSetGrowth _) fun _ => bind tripcSetSend fun _ => ?_
    exact bind tripcGetGrowth fun ms => tripcSetTimeout ms _
  case PING =>
    refine bind tripcGeneratePing fun _ => bind (getConn c) fun x => ?_
    refine bind (tripcSetDeadline _) fun _ => bind (tripcSetGrowth _) fun _ => ?_
    exact bind tripcGetGrowth fun ms => bind (tripcSetTimeout ms _) fun _ => tripcSetSend
  case READY =>
    exact bind (getConn c) fun x => bind (tripcSetDeadline _) fun _ => tripcSetTimeout _ _
  case CLOSE =>
    exact bind (getConn c) fun x => bind (tripcSetDeadline _) fun _ => tripcSetTimeout _ _

end SameStatus

/-- A program that is total and leaves the status of `c` alone can be skipped. -/
theorem SameStatus.exec_bind {α β : Type} {c : Ptr} {m : TripM α} (hm : SameStatus c m)
    (htotal : Prog.Total m) (f : α → TripM β) (s : Env) :
    ∃ a t, (m >>= f).exec s = (f a).exec t ∧ t.status c = s.status c := by
  obtain ⟨a, ha⟩ := htotal.exec_eq s
  exact ⟨a, (m.exec s).2, Prog.exec_bind_of ha, hm s⟩

/-- **The state that is entered is the one asked for**, from every state. -/
theorem tripcSetState_status (c : Ptr) (state : TripcState) (s : Env) :
    ((tripcSetState c state).exec s).2.status c = { s.status c with state := state } := by
  unfold tripcSetState
  obtain ⟨_, t, hleave, ht⟩ := (SameStatus.tripcLeave (c := c) state).exec_bind
    (RunsOn.tripcLeave state).total (fun _ => do
      setConn c fun x => { x with state := state }
      tripcEnter c state) s
  rw [hleave, Prog.exec_bind_of (exec_setConn _ _ _), SameStatus.tripcEnter state,
    Env.status_setConn, ← ht]
  rfl

/-- A second error is not recorded. -/
theorem tripcSetError_of_error {c : Ptr} {s : Env} (hs : (s.status c).state = .ERROR) (eval : Errno)
    (msg : Option String) : (tripcSetError c eval msg).exec s = (some (), s) := by
  have hstate : (s.router.heap.conn c).state = .ERROR := hs
  unfold tripcSetError
  rw [Prog.exec_bind_of (exec_getConn _ _), if_neg (not_not.mpr hstate)]
  rfl

/-- The first one is. -/
theorem tripcSetError_status {c : Ptr} {s : Env} (hs : (s.status c).state ≠ .ERROR) (eval : Errno)
    (msg : Option String) :
    ((tripcSetError c eval msg).exec s).2.status c =
      { s.status c with state := .ERROR, error := eval } := by
  have hstate : (s.router.heap.conn c).state ≠ .ERROR := hs
  unfold tripcSetError
  rw [Prog.exec_bind_of (exec_getConn _ _), if_pos hstate, Prog.exec_bind_of (exec_tripmAlloc _),
    Prog.exec_bind_of (exec_setConn _ _ _), tripcSetState_status, Env.status_setConn]
  rfl

/-! ### What happens to a connection -/

/-- What happens to a connection until it is released: segments come in and go
out, its destination is resolved, its timers run out, and its state is changed
or an error is set. -/
inductive ConnOp
  | read (pre : TripPrefix) (len : ℕ) (buf : Buf)
  | send (len : ℕ)
  | resolve (src : ℤ) (err : Errno) (emsg : Option String)
  | resolved
  | resolveTimeout
  | resend
  | readyPing
  | setState (state : TripcState)
  | setError (eval : Errno) (msg : Option String)

namespace ConnOp

/-- The function that is called. -/
def run (c : Ptr) : ConnOp → TripM Unit
  | .read pre len buf => do let _ ← tripcRead c pre len buf
  | .send len => do let _ ← tripcSend c len
  | .resolve src err emsg => tripResolvePopped c src err emsg
  | .resolved => tripcResolved c
  | .resolveTimeout => tripcTimeoutStateResolve c
  | .resend => do let _ ← tripcTimeoutStateResend c
  | .readyPing => tripcTimeoutStateReadyPing c
  | .setState state => tripcSetState c state
  | .setError eval msg => tripcSetError c eval msg

/-- The state the connection goes to, whatever its state is. -/
def target : ConnOp → Option TripcState
  | .resolved => some .OPEN
  | .readyPing => some .PING
  | .setState state => some state
  | .read _ _ _ | .send _ | .resolve _ _ _ | .resolveTimeout | .resend | .setError _ _ => none

/-- One call on the connection `c`. -/
def Step (c : Ptr) (s : Env) (op : ConnOp) (t : Env) : Prop := (op.run c).exec s = (some (), t)

/-- An operation that sets the state does so. -/
theorem status_of_target {c : Ptr} {op : ConnOp} {state : TripcState} (h : op.target = some state)
    (s : Env) : ((op.run c).exec s).2.status c = { s.status c with state := state } := by
  cases op <;> simp only [target, Option.some.injEq, reduceCtorEq] at h <;> subst h
  all_goals exact tripcSetState_status c _ s

/-- The others leave a connection in `ERROR` with the error it has. -/
theorem status_of_error {c : Ptr} {op : ConnOp} (h : op.target = none) {s : Env}
    (hs : (s.status c).state = .ERROR) : ((op.run c).exec s).2.status c = s.status c := by
  have hstate : (s.router.heap.conn c).state = .ERROR := hs
  cases op with
  | resolved | readyPing | setState => simp [target] at h
  | read pre len buf =>
    have hread : (tripcRead c pre len buf).exec s = (some (s.router.heap.conn c).error, s) := by
      unfold tripcRead
      rw [Prog.exec_bind_of (exec_getConn _ _), hstate]
      rfl
    rw [run, Prog.exec_discard, hread]
  | send len =>
    have hsend : (tripcSend c len).exec s = (some NPOS, s) := by
      unfold tripcSend
      rw [Prog.exec_bind_of (exec_getConn _ _), hstate]
      rfl
    rw [run, Prog.exec_discard, hsend]
  | setError eval msg => rw [run, tripcSetError_of_error hs]
  | resolve src err emsg =>
    unfold run tripResolvePopped
    obtain ⟨_, t, hcancel, ht⟩ := (SameStatus.tripcCancelTimeout (c := c)).exec_bind
      RunsOn.tripcCancelTimeout.total _ s
    rw [hcancel, Prog.exec_bind_of (exec_setConn _ _ _)]
    generalize hu : Env.setRouter _ _ = u
    have hust : u.status c = s.status c := by
      rw [← hu, Env.status_setConn, ← ht]
      rfl
    rw [← hust]
    split
    · exact SameStatus.bind (.timer _ 0) (fun _ => .pure ()) u
    · rw [Prog.exec_bind_of (tripcSetError_of_error (by rw [hust, hs]) err emsg)]
      exact SameStatus.bind (.timer _ 0) (fun _ => .pure ()) u
  | resolveTimeout =>
    unfold run tripcTimeoutStateResolve
    rw [Prog.exec_bind_of (exec_getConn _ _), Prog.exec_bind_of (exec_fetch _ _)]
    split
    · rfl
    · rw [Prog.exec_bind_of (exec_store _ _), Prog.exec_bind_of (exec_setConn _ _ _)]
      generalize hu : Env.setRouter _ _ = u
      have hust : u.status c = s.status c := by
        rw [← hu, Env.status_setConn]
        rfl
      rw [tripcSetError_of_error (by rw [hust, hs]), hust]
  | resend =>
    rw [run, Prog.exec_discard, tripcTimeoutStateResend,
      Prog.exec_bind_of (exec_triptimeNow _), Prog.exec_bind_of (exec_getConn _ _)]
    split
    · rw [Prog.exec_bind_of (tripcSetError_of_error (s := s.popClock) hs ETIME none)]
      rfl
    · exact SameStatus.bind .tripcSetSend (fun _ => .bind .tripcGetGrowth fun ms =>
        .bind (.tripcSetTimeout ms _) fun _ => .pure _) s.popClock

end ConnOp

/-! ### Runs -/

/-- A connection in `ERROR` stays there, with the error it has. -/
def ErrorKept (c : Ptr) (s : Env) (_ : ConnOp) (t : Env) : Prop :=
  (s.status c).state = .ERROR →
    (t.status c).state = .ERROR ∧ (t.status c).error = (s.status c).error

/-- The state of a connection in `ERROR` is not set to another one. -/
def StaysInError (c : Ptr) (s : Env) (op : ConnOp) : Prop :=
  (s.status c).state = .ERROR → ∀ state, op.target = some state → state = .ERROR

/-- **When `ERROR` is kept**: exactly in the runs that do not set the state of a
connection in `ERROR`. -/
theorem tripc_error_iff (c : Ptr) {s : Env} {r : List (ConnOp × Env)}
    (hr : IsRun (ConnOp.Step c) s r) :
    Holds (fun _ => True) (ErrorKept c) s r ↔ Meets (StaysInError c) s r := by
  refine @holds_iff_meets _ _ (ConnOp.Step c) (StaysInError c) (fun _ => True) (fun _ => True)
    (ErrorKept c) (fun _ _ => trivial) ?_ ?_ r s trivial hr
  · intro s op t _ hguard hstep
    obtain rfl : t = ((op.run c).exec s).2 := (congrArg Prod.snd hstep).symm
    refine ⟨fun herror => ?_, trivial⟩
    cases htarget : op.target with
    | none =>
      rw [ConnOp.status_of_error htarget herror]
      exact ⟨herror, rfl⟩
    | some state =>
      obtain rfl := hguard herror state htarget
      rw [ConnOp.status_of_target htarget]
      exact ⟨rfl, rfl⟩
  · intro s op t _ hguard hstep
    obtain rfl : t = ((op.run c).exec s).2 := (congrArg Prod.snd hstep).symm
    unfold StaysInError at hguard
    push Not at hguard
    obtain ⟨herror, state, htarget, hne⟩ := hguard
    rintro ⟨hkept, -⟩
    have hstate := (hkept herror).1
    rw [ConnOp.status_of_target htarget] at hstate
    exact hne hstate

/-- What happens to the connection of a new router. -/
def connTrace (ops : List ConnOp) : List (ConnOp × Env) :=
  trace (fun op s => ((op.run 0).exec s).2) ⟨plainRouter, plainOracle, []⟩ ops

/-- A segment that comes while the destination is being resolved puts the
connection into `ERROR`; it does not send then. -/
theorem tripc_error_iff_early :
    Holds (fun _ => True) (ErrorKept 0) ⟨plainRouter, plainOracle, []⟩
      (connTrace [.setState .RESOLVE, .read ⟨false, tripControlData, 0, 0⟩ 16 fun _ => 0,
        .send 1200]) := by
  refine (tripc_error_iff 0 ?_).mpr ?_
  · exact ⟨Prod.ext rfl rfl, Prod.ext rfl rfl, Prod.ext rfl rfl, trivial⟩
  · refine ⟨fun h => absurd h (by decide), ?_, ?_, trivial⟩
    · exact fun _ _ h => by simp [ConnOp.target] at h
    · exact fun _ _ h => by simp [ConnOp.target] at h

/-- When the destination is resolved after that, the connection goes to `OPEN`. -/
theorem tripc_error_left :
    ¬ ∀ (c : Ptr) (s : Env) (r : List (ConnOp × Env)), IsRun (ConnOp.Step c) s r →
      Holds (fun _ => True) (ErrorKept c) s r := by
  intro hall
  have h := hall 0 ⟨plainRouter, plainOracle, []⟩ (connTrace [.setState .RESOLVE,
    .read ⟨false, tripControlData, 0, 0⟩ 16 fun _ => 0, .resolved])
    ⟨Prod.ext rfl rfl, Prod.ext rfl rfl, Prod.ext rfl rfl, trivial⟩
  have hkept := h.2.2.2.2.2.1 (by decide)
  exact absurd hkept.1 (by decide)

end Libtrp
