import Libtrp.Timerwheel
import Libtrp.Lib.Run

/-!
# The router's timeouts

The router keeps its timers in the wheel, caches the nearest deadline in
`mindeadline`, and tells the poll loop how long it may sleep through the
callback `timeout`.  What this is for is that the poll loop wakes up in time:
the deadline installed last is not later than that of any pending timer.

`_trip_set_timeout` calls the callback for every deadline before the cached one
and does not move the cache, so that a long timer set after a short one moves
the poll loop's deadline behind the short one.  `tripTimeout_in_time` says what
has to be avoided.

## Main definitions

* `Timers` — the part of the router the timeouts are kept in.
* `tripSetTimeout`, `tripCancelTimeout`, `tripTimeoutEnd`, `tripTimeoutCb`.
* `TimeoutOp`, `TimeoutState.step` — the calls, those callbacks make included.

## Main results

* `tripTimeout_in_time` — **when the poll loop wakes up in time.**

## References

`src/trip.c` (`_trip_set_timeout`, `_trip_cancel_timeout`, `trip_timeout`),
`src/trip_poll.c` (`_trip_timeout_cb`).
-/

namespace Libtrp

open Lib

variable {κ : Type*}

/-- The fields `wheel` and `mindeadline` of the router, and `deadline` of its
`poll`. -/
structure Timers (κ : Type*) where
  wheel : Timerwheel κ
  mindeadline : ℕ
  deadline : ℕ
  deriving DecidableEq, Repr

/-- The timeouts of a new router, whose poll was made when the clock read
`now`. -/
def timersInit (now : ℕ) : Timers κ := ⟨timerwheelInit, TRIPTIME_END, now⟩

/-- `_trip_timeout_cb`, when the clock reads `now`. -/
def tripTimeoutCb (now : ℕ) (timeout : ℤ) (s : Timers κ) : Timers κ :=
  { s with deadline := triptimeDeadline now timeout }

/-- `_trip_set_timeout`: `now` is the reading the deadline is made of and `now'`
the one of the callback. -/
def tripSetTimeout (alloc : Bool) (now now' : ℕ) (ms : ℤ) (cb : Option κ) (s : Timers κ) :
    Option (TimerEntry κ) × Timers κ :=
  let (e, wheel) := timerwheelAdd alloc now ms cb s.wheel
  let s := { s with wheel := wheel }
  match e with
  | some te => (e, if te.deadline < s.mindeadline then tripTimeoutCb now' ms s else s)
  | none => (e, s)

/-- A timer that is set is the newest entry, and the callback is called when it
is before the cached deadline. -/
theorem tripSetTimeout_true (now now' : ℕ) (ms : ℤ) (cb : Option κ) (s : Timers κ) :
    tripSetTimeout true now now' ms cb s =
      (some ⟨s.wheel.brk, triptimeDeadline now ms, cb, false⟩,
        { wheel := ⟨⟨s.wheel.brk, triptimeDeadline now ms, cb, false⟩ :: s.wheel.entries,
            s.wheel.brk + 1⟩
          mindeadline := s.mindeadline
          deadline := if triptimeDeadline now ms < s.mindeadline then triptimeDeadline now' ms
            else s.deadline }) := by
  unfold tripSetTimeout timerwheelAdd tripTimeoutCb
  by_cases hlt : triptimeDeadline now ms < s.mindeadline
  · simp only [if_true, if_pos hlt]
  · simp only [if_true, if_neg hlt]

/-- `_trip_cancel_timeout` -/
def tripCancelTimeout (id : Ptr) (s : Timers κ) : Timers κ :=
  { s with wheel := timerwheelCancel id s.wheel }

/-- The nearest deadline `trip_timeout` takes from the entry the walk returned. -/
def tripMindeadline (e : Option (TimerEntry κ)) : ℕ :=
  match e with
  | some e => e.deadline
  | none => TRIPTIME_END

/-- The milliseconds `trip_timeout` hands to the callback. -/
def tripTimeoutMs (now mindeadline : ℕ) : ℤ :=
  if mindeadline > (now + triprMaxTimeout) % 2 ^ 64 then triprMaxTimeout
  else toInt (sizeSub mindeadline now)

/-- The end of `trip_timeout`, after the walk has returned `e`. -/
def tripTimeoutEnd (now now' : ℕ) (e : Option (TimerEntry κ)) (s : Timers κ) : Timers κ :=
  let s := { s with mindeadline := tripMindeadline e }
  tripTimeoutCb now' (tripTimeoutMs now s.mindeadline) s

/-! ### The calls -/

/-- The router's timeouts and, while `trip_timeout` runs, its walk and the first
address that was free when it began. -/
structure TimeoutState (κ : Type*) where
  timers : Timers κ
  walk : Option (Walk κ × Ptr)
  deriving DecidableEq, Repr

/-- A call of `_trip_set_timeout`, of `_trip_cancel_timeout`, and the parts of
`trip_timeout`: its beginning, a turn of the walk, and its end.  What a callback
does comes between two turns. -/
inductive TimeoutOp (κ : Type*)
  | set (alloc : Bool) (now now' : ℕ) (ms : ℤ) (cb : Option κ)
  | cancel (id : Ptr)
  | timeout (now : ℕ)
  | turn
  | finish (now' : ℕ)
  deriving DecidableEq, Repr

/-- The readings of the clock a call makes, in order. -/
def TimeoutOp.readings : TimeoutOp κ → List ℕ
  | .set _ now now' _ _ => [now, now']
  | .cancel _ => []
  | .timeout now => [now]
  | .turn => []
  | .finish now' => [now']

namespace TimeoutState

/-- One call, or part of one.  A second `trip_timeout` does not begin inside the
first. -/
def step (s : TimeoutState κ) : TimeoutOp κ → Option (TimeoutState κ)
  | .set alloc now now' ms cb =>
    some { s with timers := (tripSetTimeout alloc now now' ms cb s.timers).2 }
  | .cancel id => some { s with timers := tripCancelTimeout id s.timers }
  | .timeout now =>
    match s.walk with
    | none => some { s with walk := some (Walk.start now s.timers.wheel, s.timers.wheel.brk) }
    | some _ => none
  | .turn =>
    match s.walk with
    | some (w, brk) =>
      (w.step s.timers.wheel).map fun (w, wheel, _) =>
        ⟨{ s.timers with wheel := wheel }, some (w, brk)⟩
    | none => none
  | .finish now' =>
    match s.walk with
    | some (w, _) =>
      match w.step s.timers.wheel with
      | some _ => none
      | none => some ⟨tripTimeoutEnd w.now now' w.min s.timers, none⟩
    | none => none

/-- Outside of `trip_timeout`, the poll loop sleeps past no pending timer. -/
def InTime (s : TimeoutState κ) : Prop :=
  s.walk = none → ∀ e ∈ s.timers.wheel.entries, e.canceled = false →
    s.timers.deadline ≤ e.deadline

/-- The condition on a call.

A timer that is set outside of `trip_timeout` before the cached deadline is to
move the poll loop's deadline behind no pending timer's and not behind its own.
The end of `trip_timeout` is to set it neither behind the earliest timer the walk
kept nor behind one that a callback added meanwhile. -/
def Guard (s : TimeoutState κ) : TimeoutOp κ → Prop
  | .set alloc now now' ms _ =>
    s.walk = none → alloc = true → triptimeDeadline now ms < s.timers.mindeadline →
      triptimeDeadline now' ms ≤ triptimeDeadline now ms ∧
        ∀ e ∈ s.timers.wheel.entries, e.canceled = false → triptimeDeadline now' ms ≤ e.deadline
  | .finish now' =>
    ∀ w ∈ s.walk,
      let deadline := triptimeDeadline now' (tripTimeoutMs w.1.now (tripMindeadline w.1.min))
      (∀ m ∈ w.1.min, deadline ≤ m.deadline) ∧
        ∀ e ∈ s.timers.wheel.entries, w.2 ≤ e.id → e.canceled = false → deadline ≤ e.deadline
  | _ => True

instance (s : TimeoutState κ) (op : TimeoutOp κ) : Decidable (s.Guard op) := by
  cases op <;> unfold Guard <;> infer_instance

instance (s : TimeoutState κ) : Decidable s.InTime := by
  unfold InTime
  infer_instance

/-! ### The invariant -/

/-- Outside of `trip_timeout` the installed deadline is behind neither the cache
nor a pending timer.  During a walk, what was there when it began and has been
kept is not before the minimum. -/
structure Inv (s : TimeoutState κ) : Prop where
  id_lt : ∀ e ∈ s.timers.wheel.entries, e.id < s.timers.wheel.brk
  cache : s.walk = none → s.timers.deadline ≤ s.timers.mindeadline
  inTime : s.InTime
  brk_le : ∀ w ∈ s.walk, w.2 ≤ s.timers.wheel.brk
  kept : ∀ w ∈ s.walk, ∀ e ∈ w.1.front s.timers.wheel, e.id < w.2 →
    ∃ m ∈ w.1.min, m.deadline ≤ e.deadline

theorem inv_init {now : ℕ} (hnow : now ≤ TRIPTIME_END) : Inv (κ := κ) ⟨timersInit now, none⟩ where
  id_lt := fun e he => by simp [timersInit, timerwheelInit] at he
  cache := fun _ => hnow
  inTime := fun _ e he => by simp [timersInit, timerwheelInit] at he
  brk_le := fun w hw => by simp at hw
  kept := fun w hw => by simp at hw

/-- A timer set outside of `trip_timeout`. -/
theorem Inv.set {s : TimeoutState κ} (hs : s.Inv) {alloc : Bool} {now now' : ℕ} {ms : ℤ}
    {cb : Option κ} (hg : s.Guard (.set alloc now now' ms cb)) :
    Inv { s with timers := (tripSetTimeout alloc now now' ms cb s.timers).2 } := by
  cases alloc with
  | false => exact hs
  | true =>
    rw [tripSetTimeout_true]
    refine ⟨?_, ?_, ?_, ?_, ?_⟩
    · intro e he
      rcases List.mem_cons.mp he with rfl | he
      · exact Nat.lt_succ_self _
      · exact Nat.lt_succ_of_lt (hs.id_lt e he)
    · intro hw
      dsimp only
      split_ifs with hlt
      · exact ((hg hw rfl hlt).1.trans_lt hlt).le
      · exact hs.cache hw
    · intro hw e he hc
      dsimp only
      split_ifs with hlt
      · obtain ⟨hself, hall⟩ := hg hw rfl hlt
        rcases List.mem_cons.mp he with rfl | he
        · exact hself
        · exact hall e he hc
      · rcases List.mem_cons.mp he with rfl | he
        · exact (hs.cache hw).trans (not_lt.mp hlt)
        · exact hs.inTime hw e he hc
    · intro w hw
      exact (hs.brk_le w hw).trans (Nat.le_succ _)
    · intro w hw e he hlt
      rcases Walk.mem_front_cons he with rfl | he
      · exact absurd hlt (not_lt.mpr (hs.brk_le w hw))
      · exact hs.kept w hw e he hlt

theorem Inv.cancel {s : TimeoutState κ} (hs : s.Inv) (id : Ptr) :
    Inv { s with timers := tripCancelTimeout id s.timers } := by
  refine ⟨?_, hs.cache, ?_, hs.brk_le, ?_⟩
  · intro e he
    obtain ⟨te, hte, rfl⟩ := List.mem_map.mp he
    rw [TimerEntry.id_cancel]
    exact hs.id_lt te hte
  · intro hw e he hc
    obtain ⟨te, hte, rfl⟩ := List.mem_map.mp he
    rw [TimerEntry.deadline_cancel]
    exact hs.inTime hw te hte (TimerEntry.canceled_of_cancel hc).2
  · intro w hw e he hlt
    rw [tripCancelTimeout, Walk.front_cancel] at he
    obtain ⟨te, hte, rfl⟩ := List.mem_map.mp he
    rw [TimerEntry.id_cancel] at hlt
    rw [TimerEntry.deadline_cancel]
    exact hs.kept w hw te hte hlt

theorem Inv.timeout {s : TimeoutState κ} (hs : s.Inv) (now : ℕ) :
    Inv { s with walk := some (Walk.start now s.timers.wheel, s.timers.wheel.brk) } := by
  refine ⟨hs.id_lt, fun hw => by simp at hw, fun hw => by simp at hw, ?_, ?_⟩
  · rintro w ⟨⟩
    exact le_rfl
  · rintro w ⟨⟩ e he
    rw [Walk.front_of_min_none rfl] at he
    exact absurd he List.not_mem_nil

/-- A turn of the walk takes an entry out or keeps it. -/
theorem Inv.turn {s : TimeoutState κ} (hs : s.Inv) {w w' : Walk κ} {brk : Ptr}
    {wheel : Timerwheel κ} {cb : Option κ} (hw : s.walk = some (w, brk))
    (h : w.step s.timers.wheel = some (w', wheel, cb)) :
    Inv ⟨{ s.timers with wheel := wheel }, some (w', brk)⟩ := by
  obtain ⟨curr, next, hback, hcases⟩ := Walk.step_cases h
  have hkept := hs.kept (w, brk) (by rw [hw]; rfl)
  have hbrk := hs.brk_le (w, brk) (by rw [hw]; rfl)
  have hentries := w.front_append_back s.timers.wheel
  rw [hback] at hentries
  rcases hcases with ⟨rfl, rfl, hfront, -⟩ | ⟨rfl, hmin, hfront, -⟩
  · -- the entry is due or cancelled
    refine ⟨?_, fun hw => by simp at hw, fun hw => by simp at hw, ?_, ?_⟩
    · intro e he
      refine hs.id_lt e ?_
      rw [← hentries]
      exact (List.sublist_cons_self curr next).append_left _ |>.subset he
    · rintro _ ⟨⟩
      exact hbrk
    · rintro _ ⟨⟩ e he hlt
      rw [hfront] at he
      exact hkept e he hlt
  · -- the entry is kept
    refine ⟨hs.id_lt, fun hw => by simp at hw, fun hw => by simp at hw, ?_, ?_⟩
    · rintro _ ⟨⟩
      exact hbrk
    · rintro _ ⟨⟩ e he hlt
      refine ⟨_, hmin, ?_⟩
      rw [hfront, List.mem_append, List.mem_singleton] at he
      rcases he with he | rfl
      · obtain ⟨m, hm, hle⟩ := hkept e he hlt
        exact (Walk.earlier_le_min hm curr).trans hle
      · exact Walk.earlier_le w.min e

/-- The end of `trip_timeout`. -/
theorem Inv.finish {s : TimeoutState κ} (hs : s.Inv) {w : Walk κ} {brk : Ptr} {now' : ℕ}
    (hw : s.walk = some (w, brk)) (hend : w.step s.timers.wheel = none)
    (hg : s.Guard (.finish now')) : Inv ⟨tripTimeoutEnd w.now now' w.min s.timers, none⟩ := by
  obtain ⟨hmin, hadded⟩ := hg (w, brk) (by rw [hw]; rfl)
  have hfront := Walk.front_of_step_none hend
  refine ⟨hs.id_lt, ?_, ?_, fun w hw => by simp at hw, fun w hw => by simp at hw⟩
  · intro _
    show triptimeDeadline now' (tripTimeoutMs w.now (tripMindeadline w.min)) ≤
      tripMindeadline w.min
    cases hm : w.min with
    | none => exact triptimeDeadline_le _ _
    | some m =>
      have hle := hmin m hm
      rw [hm] at hle
      exact hle
  · intro _ e he hc
    rcases lt_or_ge e.id brk with hlt | hge
    · -- the entry was there when the walk began, so the walk has kept it
      obtain ⟨m, hm, hle⟩ := hs.kept (w, brk) (by rw [hw]; rfl) e (hfront ▸ he) hlt
      exact (hmin m hm).trans hle
    · exact hadded e he hge hc

/-- Each call keeps the invariant. -/
theorem Inv.step {s t : TimeoutState κ} (hs : s.Inv) {op : TimeoutOp κ} (hg : s.Guard op)
    (h : s.step op = some t) : t.Inv := by
  cases op with
  | set alloc now now' ms cb =>
    obtain rfl := Option.some.inj h
    exact hs.set hg
  | cancel id =>
    obtain rfl := Option.some.inj h
    exact hs.cancel id
  | timeout now =>
    cases hw : s.walk with
    | none =>
      simp only [TimeoutState.step, hw, Option.some.injEq] at h
      exact h ▸ hs.timeout now
    | some w => simp [TimeoutState.step, hw] at h
  | turn =>
    cases hw : s.walk with
    | none => simp [TimeoutState.step, hw] at h
    | some w =>
      simp only [TimeoutState.step, hw, Option.map_eq_some_iff] at h
      obtain ⟨⟨w', wheel, cb⟩, hstep, rfl⟩ := h
      exact hs.turn hw hstep
  | finish now' =>
    cases hw : s.walk with
    | none => simp [TimeoutState.step, hw] at h
    | some w =>
      cases hend : w.1.step s.timers.wheel with
      | some r => simp [TimeoutState.step, hw, hend] at h
      | none =>
        simp only [TimeoutState.step, hw, hend, Option.some.injEq] at h
        exact h ▸ hs.finish hw hend hg

end TimeoutState

/-- **The poll loop wakes up in time** over every run whose calls meet the
condition `TimeoutState.Guard`; the clock may even go back. -/
theorem tripTimeout_in_time {now : ℕ} (hnow : now ≤ TRIPTIME_END)
    {r : List (TimeoutOp κ × TimeoutState κ)}
    (hr : IsRun (fun s op t => TimeoutState.step s op = some t) ⟨timersInit now, none⟩ r)
    (hm : Meets TimeoutState.Guard ⟨timersInit now, none⟩ r) :
    Holds TimeoutState.InTime (fun _ _ _ => True) ⟨timersInit now, none⟩ r := by
  have hinit : TimeoutState.Inv (κ := κ) ⟨timersInit now, none⟩ := TimeoutState.inv_init hnow
  refine Holds.mono (fun s hs => TimeoutState.Inv.inTime hs) (fun _ _ _ _ hok => hok)
    (holds_of_meets ?_ hinit hr hm)
  intro s op t hs hg h
  exact ⟨trivial, TimeoutState.Inv.step hs hg h⟩

/-- Three timers, the last one set by a callback of `trip_timeout`. -/
theorem tripTimeout_in_time_three :
    Holds TimeoutState.InTime (fun _ _ _ => True) ⟨timersInit (κ := Unit) 0, none⟩
      (trace (fun op s => (s.step op).getD s) ⟨timersInit 0, none⟩
        [.set true 0 0 5000 none, .set true 0 0 1000 (some ()), .timeout 1200, .turn,
          .set true 1200 1201 800 none, .turn, .turn, .finish 1200]) := by
  refine tripTimeout_in_time (by decide) ?_ ?_
  · simp only [trace, isRun_cons, isRun_nil, and_true]
    decide
  · simp only [trace, meets_cons, meets_nil, and_true]
    decide

/-- **A long timer set after a short one** moves the poll loop's deadline behind
the short one, though the clock never goes back. -/
theorem tripSetTimeout_sleeps_past :
    ¬ ∀ r : List (TimeoutOp Unit × TimeoutState Unit),
      IsRun (fun s op t => TimeoutState.step s op = some t) ⟨timersInit 0, none⟩ r →
        (r.flatMap fun p => p.1.readings).Pairwise (· ≤ ·) →
          Holds TimeoutState.InTime (fun _ _ _ => True) ⟨timersInit 0, none⟩ r := by
  intro h
  have hrun := h (trace (fun op s => (s.step op).getD s) ⟨timersInit 0, none⟩
    [.set true 0 0 1000 none, .set true 0 0 5000 none])
  simp only [trace, isRun_cons, isRun_nil, holds_cons, holds_nil, and_true] at hrun
  revert hrun
  decide

end Libtrp
