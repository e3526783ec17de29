import Libtrp.Timerwheel
import Mathlib.Data.Stream.Defs

/-!
# What a walk of the timer wheel does

A callback of `timerwheel_walk_with` may add entries and cancel some.  An entry that
is added while `prev` is the head of the list is found by the walk; one that is added
behind an entry that was kept is not.  So at the end the list is what was added
behind the walk and, behind that, what the walk has kept, and every entry is one of
these or was taken out.

The entry that is returned is the earliest of those the walk has kept.  An earlier
one that was added behind the walk is not seen.

## Main definitions

* `WheelOp` — what a callback does.
* `WalkState`, `WalkState.turn`, `WalkState.turns` — the walk with its callbacks.
* `WalkInv` — where every entry is.
* `Walked` — what a walk is to do.

## Main results

* `timerwheelWalk_walked` — **a walk ends and does what it is to do.**
* `timerwheelWalk_min_iff` — **when the entry that is returned is the earliest.**

## References

`src/timerwheel.c`, `src/trip.c` (`trip_timeout`).
-/

namespace Libtrp

variable {κ : Type*}

/-! ### Entries -/

namespace TimerEntry

/-- What of an entry never changes. -/
def key (te : TimerEntry κ) : Ptr × ℕ × Option κ := (te.id, te.deadline, te.cb)

@[simp] theorem key_cancel (id : Ptr) (te : TimerEntry κ) : (te.cancel id).key = te.key := by
  unfold key
  rw [id_cancel, deadline_cancel, cb_cancel]

theorem key_map_cancel (id : Ptr) (l : List (TimerEntry κ)) :
    (l.map (cancel id)).map key = l.map key := by
  rw [List.map_map]
  exact List.map_congr_left fun te _ => key_cancel id te

/-- A walk at `now` takes the entry out. -/
def Leaves (now : ℕ) (te : TimerEntry κ) : Prop := now ≥ te.deadline ∨ te.canceled = true

instance (now : ℕ) (te : TimerEntry κ) : Decidable (te.Leaves now) :=
  inferInstanceAs (Decidable (_ ∨ _))

/-- The call a walk at `now` makes when it reaches the entry. -/
def called (now : ℕ) (te : TimerEntry κ) : Option (Ptr × κ) :=
  if now ≥ te.deadline ∧ te.canceled = false then te.cb.map (te.id, ·) else none

theorem isSome_called {now : ℕ} {te : TimerEntry κ} :
    (te.called now).isSome = true ↔
      now ≥ te.deadline ∧ te.canceled = false ∧ te.cb.isSome = true := by
  unfold called
  split
  · next h => rw [Option.isSome_map]; exact ⟨fun hcb => ⟨h.1, h.2, hcb⟩, fun h => h.2.2⟩
  · next h => simpa using fun hd hc => absurd ⟨hd, hc⟩ h

/-- A cancellation makes no call that was not to be made. -/
theorem isSome_called_cancel {now : ℕ} {id : Ptr} {te : TimerEntry κ}
    (h : ((te.cancel id).called now).isSome = true) : (te.called now).isSome = true := by
  rw [isSome_called] at h ⊢
  rw [deadline_cancel, cb_cancel] at h
  exact ⟨h.1, (canceled_of_cancel h.2.1).2, h.2.2⟩

end TimerEntry

/-! ### One turn of the walk -/

namespace Walk

variable {w : Walk κ} {tw : Timerwheel κ}

/-- A turn that takes an entry out leaves the rest where it is. -/
theorem split_of_leaves {curr : TimerEntry κ} {next : List (TimerEntry κ)}
    (hback : w.back tw = curr :: next) (hleaves : curr.Leaves w.now) :
    ∃ w' tw', w.step tw = some (w', tw', if curr.canceled then none else curr.cb) ∧
      w' = { w with left := next.length } ∧ tw' = { tw with entries := w.front tw ++ next } ∧
      w'.front tw' = w.front tw ∧ w'.back tw' = next := by
  refine ⟨_, _, ?_, rfl, rfl, ?_⟩
  · unfold step
    rw [hback]
    exact if_pos hleaves
  · obtain ⟨now, left, min⟩ := w
    cases min with
    | none =>
      rw [front_of_min_none rfl, front_of_min_none rfl]
      exact ⟨rfl, by simp [back, rest]⟩
    | some m => exact split rfl rfl rfl

/-- A turn that keeps an entry moves it to the front. -/
theorem split_of_stays {curr : TimerEntry κ} {next : List (TimerEntry κ)}
    (hback : w.back tw = curr :: next) (hstays : ¬ curr.Leaves w.now) :
    ∃ w', w.step tw = some (w', tw, none) ∧
      w' = ⟨w.now, next.length, some (earlier w.min curr)⟩ ∧
      w'.front tw = w.front tw ++ [curr] ∧ w'.back tw = next := by
  refine ⟨_, ?_, rfl, ?_⟩
  · unfold step
    rw [hback]
    exact if_neg hstays
  · refine split rfl ?_ rfl
    rw [List.append_assoc, List.singleton_append, ← hback, front_append_back]

/-- The walk does not stand outside of the list. -/
def Within (w : Walk κ) (tw : Timerwheel κ) : Prop := w.rest tw ≤ tw.entries.length

theorem within_of_length {m : TimerEntry κ} (hmin : w.min = some m)
    (h : w.left ≤ tw.entries.length) : w.Within tw := by
  unfold Within rest
  rw [hmin]
  exact h

theorem within_of_min_none (hmin : w.min = none) : w.Within tw := by
  unfold Within rest
  rw [hmin]
  exact Nat.le_refl _

/-- What is added while nothing is kept is reached next. -/
theorem split_cons_of_none (hmin : w.min = none) (tw : Timerwheel κ) (te : TimerEntry κ)
    (brk : Ptr) :
    w.front ⟨te :: tw.entries, brk⟩ = [] ∧
      w.back ⟨te :: tw.entries, brk⟩ = te :: w.back tw := by
  refine ⟨front_of_min_none hmin _, ?_⟩
  simp [back, rest, hmin]

/-- What is added while an entry is kept is behind the walk. -/
theorem split_cons_of_some {m : TimerEntry κ} (hmin : w.min = some m) (hw : w.Within tw)
    (te : TimerEntry κ) (brk : Ptr) :
    w.front ⟨te :: tw.entries, brk⟩ = te :: w.front tw ∧
      w.back ⟨te :: tw.entries, brk⟩ = w.back tw := by
  have hleft : w.left ≤ tw.entries.length := by
    unfold Within rest at hw
    rw [hmin] at hw
    exact hw
  refine split hmin ?_ ?_
  · rw [List.cons_append, front_append_back]
  · simp [back, rest, hmin, Nat.sub_sub_self hleft]

theorem back_cancel (w : Walk κ) (id : Ptr) (tw : Timerwheel κ) :
    w.back (timerwheelCancel id tw) = (w.back tw).map (TimerEntry.cancel id) := by
  simp only [back, rest, timerwheelCancel, List.length_map, List.map_drop]

end Walk

/-! ### A walk with its callbacks -/

/-- What a callback does to the wheel. -/
inductive WheelOp (κ : Type*)
  | add (alloc : Bool) (now : ℕ) (timeout : ℤ) (cb : Option κ)
  | cancel (id : Ptr)
  deriving DecidableEq, Repr

/-- A walk while it goes on.  `reached` are the entries it has reached, as they were
then, and `called` the calls it has made; `added` is what was added meanwhile, the
newest first, and `late` what of it was added behind the walk. -/
structure WalkState (κ : Type*) where
  walk : Walk κ
  wheel : Timerwheel κ
  reached : List (TimerEntry κ)
  called : List (Ptr × κ)
  added : List (TimerEntry κ)
  late : List (TimerEntry κ)
  deriving DecidableEq, Repr

namespace WalkState

/-- Before the first turn. -/
def start (now : ℕ) (tw : Timerwheel κ) : WalkState κ := ⟨Walk.start now tw, tw, [], [], [], []⟩

/-- A callback adds an entry or cancels one. -/
def op (s : WalkState κ) : WheelOp κ → WalkState κ
  | .add alloc now timeout cb =>
    let (te, wheel) := timerwheelAdd alloc now timeout cb s.wheel
    { s with
      wheel := wheel
      added := te.toList ++ s.added
      late := if s.walk.min.isSome then te.toList ++ s.late else s.late }
  | .cancel id => { s with wheel := timerwheelCancel id s.wheel }

/-- One turn of the loop, with what the callback does when there is one. -/
def turn (s : WalkState κ) (ops : List (WheelOp κ)) : Option (WalkState κ) :=
  (s.walk.step s.wheel).map fun (walk, wheel, cb) =>
    let curr := (s.walk.back s.wheel).head?
    let t := { s with
      walk := walk
      wheel := wheel
      reached := s.reached ++ curr.toList
      called := s.called ++ (curr.bind fun te => cb.map (te.id, ·)).toList }
    if cb.isSome then ops.foldl op t else t

/-- The loop has ended. -/
def ended (s : WalkState κ) : Bool := (s.walk.step s.wheel).isNone

/-- The first turns of the loop, with what the callback does in each. -/
def turns : ℕ → Stream' (List (WheelOp κ)) → WalkState κ → WalkState κ
  | 0, _, s => s
  | n + 1, ops, s =>
    match s.turn ops.head with
    | some t => turns n ops.tail t
    | none => s

/-- What a walk at `now` has reached and not taken out. -/
def kept (now : ℕ) (s : WalkState κ) : List (TimerEntry κ) :=
  s.reached.filter fun te => ¬ te.Leaves now

/-- The end of the list, which the walk has not reached. -/
def back (s : WalkState κ) : List (TimerEntry κ) := s.walk.back s.wheel

/-- The beginning of the list, behind the walk. -/
def front (s : WalkState κ) : List (TimerEntry κ) := s.walk.front s.wheel

theorem front_append_back (s : WalkState κ) : s.front ++ s.back = s.wheel.entries :=
  s.walk.front_append_back s.wheel

/-- At the end nothing is left to reach. -/
theorem back_of_ended {s : WalkState κ} (h : s.ended = true) : s.back = [] := by
  cases hback : s.walk.back s.wheel with
  | nil => exact hback
  | cons curr next =>
    have hsome : (s.walk.step s.wheel).isSome = true := by
      by_cases hleaves : curr.Leaves s.walk.now
      · obtain ⟨w', tw', hstep, -⟩ := Walk.split_of_leaves hback hleaves
        rw [hstep]
        rfl
      · obtain ⟨w', hstep, -⟩ := Walk.split_of_stays hback hleaves
        rw [hstep]
        rfl
    unfold ended at h
    rw [Option.isNone_iff_eq_none] at h
    rw [h] at hsome
    exact absurd hsome Bool.false_ne_true

/-- What a turn leaves before the callback does anything. -/
structure Turned (s t : WalkState κ) (curr : TimerEntry κ) : Prop where
  now : t.walk.now = s.walk.now
  brk : t.wheel.brk = s.wheel.brk
  within : t.walk.Within t.wheel
  back : s.back = curr :: t.back
  front : t.front = s.front ++ if curr.Leaves s.walk.now then [] else [curr]
  min : t.walk.min =
    if curr.Leaves s.walk.now then s.walk.min else some (Walk.earlier s.walk.min curr)
  reached : t.reached = s.reached ++ [curr]
  called : t.called = s.called ++ (curr.called s.walk.now).toList
  added : t.added = s.added
  late : t.late = s.late

/-- **What one turn can do**: it reaches an entry, and takes it out or keeps it, and
calls its callback when it is due and not cancelled. -/
theorem turn_cases {s t : WalkState κ} {ops : List (WheelOp κ)} (h : s.turn ops = some t) :
    ∃ curr u, Turned s u curr ∧
      t = if (curr.called s.walk.now).isSome then ops.foldl op u else u := by
  cases hback : s.walk.back s.wheel with
  | nil =>
    have hnone : s.walk.step s.wheel = none := by
      unfold Walk.step
      rw [hback]
    simp [turn, hnone] at h
  | cons curr next =>
    by_cases hleaves : curr.Leaves s.walk.now
    · obtain ⟨w', tw', hstep, hw', htw', hfront, hnext⟩ := Walk.split_of_leaves hback hleaves
      have hcalled : (if curr.canceled then none else curr.cb).map (curr.id, ·) =
          curr.called s.walk.now := by
        unfold TimerEntry.called
        cases hc : curr.canceled with
        | true => simp
        | false =>
          have hdue : s.walk.now ≥ curr.deadline := hleaves.resolve_right (by simp [hc])
          simp [hdue]
      refine ⟨curr, { s with
        walk := w'
        wheel := tw'
        reached := s.reached ++ [curr]
        called := s.called ++ (curr.called s.walk.now).toList }, ?_, ?_⟩
      · refine ⟨by rw [hw'], by rw [htw'], ?_, hback.trans (by rw [← hnext]; rfl), ?_, ?_, rfl, rfl,
          rfl, rfl⟩
        · cases hmin : w'.min with
          | none => exact Walk.within_of_min_none hmin
          | some m =>
            refine Walk.within_of_length hmin ?_
            rw [hw', htw']
            simp
        · rw [if_pos hleaves, List.append_nil]
          exact hfront
        · rw [if_pos hleaves, hw']
      · simp only [turn, hstep, hback, Option.map_some, List.head?_cons, Option.toList_some,
          Option.bind_some, Option.some.injEq] at h
        rw [← h, hcalled, ← hcalled, Option.isSome_map]
    · obtain ⟨w', hstep, hw', hfront, hnext⟩ := Walk.split_of_stays hback hleaves
      have hcalled : curr.called s.walk.now = none := if_neg fun h => hleaves (Or.inl h.1)
      refine ⟨curr, { s with walk := w', reached := s.reached ++ [curr] }, ?_, ?_⟩
      · refine ⟨by rw [hw'], rfl, ?_, hback.trans (by rw [← hnext]; rfl), ?_, ?_, rfl, ?_, rfl, rfl⟩
        · refine Walk.within_of_length (m := Walk.earlier s.walk.min curr) (by rw [hw']) ?_
          rw [hw', ← s.walk.front_append_back s.wheel, hback]
          simp
          omega
        · rw [if_neg hleaves]
          exact hfront
        · rw [if_neg hleaves, hw']
        · rw [hcalled]
          exact (List.append_nil _).symm
      · simp only [turn, hstep, hback, Option.map_some, List.head?_cons, Option.toList_some,
          Option.bind_some, Option.map_none, Option.toList_none, List.append_nil,
          Option.isSome_none, Bool.false_eq_true, if_false, Option.some.injEq] at h
        rw [← h, hcalled]
        rfl

end WalkState

/-! ### Where every entry is -/

/-- **The invariant of a walk** of `tw` at `now`.  Every entry that was there or was added
was reached, or was added behind the walk, or is still to be reached; what is behind
the walk is what was added there and what was kept; and the minimum is the earliest
of what was kept. -/
structure WalkInv (tw : Timerwheel κ) (now : ℕ) (s : WalkState κ) : Prop where
  now_eq : s.walk.now = now
  within : s.walk.Within s.wheel
  keys : ((s.reached ++ s.late ++ s.back).map TimerEntry.key).Perm
    ((tw.entries ++ s.added).map TimerEntry.key)
  front : s.front.map TimerEntry.key = (s.late ++ s.kept now).map TimerEntry.key
  ids : ((tw.entries ++ s.added).map TimerEntry.id).Nodup
  fresh : ∀ te ∈ tw.entries ++ s.added, te.id < s.wheel.brk
  min_none : s.walk.min = none → s.kept now = [] ∧ s.late = []
  min_some : ∀ m, s.walk.min = some m →
    m ∈ s.kept now ∧ ∀ te ∈ s.kept now, m.deadline ≤ te.deadline
  called : s.called = s.reached.filterMap (TimerEntry.called now)
  late_added : ∀ te ∈ s.late, te ∈ s.added

/-- The entries of a wheel are where they were allocated. -/
structure Timerwheel.Distinct (tw : Timerwheel κ) : Prop where
  ids : (tw.entries.map TimerEntry.id).Nodup
  fresh : ∀ te ∈ tw.entries, te.id < tw.brk

namespace WalkInv

variable {tw : Timerwheel κ} {now : ℕ} {s t : WalkState κ}

theorem start (htw : tw.Distinct) : WalkInv tw now (WalkState.start now tw) where
  now_eq := rfl
  within := Walk.within_of_min_none rfl
  keys := by
    have hsplit := (WalkState.start now tw).front_append_back
    rw [show (WalkState.start now tw).front = [] from Walk.front_of_min_none rfl tw,
      List.nil_append] at hsplit
    rw [hsplit]
    simp [WalkState.start]
  front := by
    rw [WalkState.front, Walk.front_of_min_none rfl]
    rfl
  ids := by simpa [WalkState.start] using htw.ids
  fresh := by simpa [WalkState.start] using htw.fresh
  min_none := fun _ => ⟨rfl, rfl⟩
  min_some := by
    rintro m ⟨⟩
  called := rfl
  late_added := fun te hte => absurd hte List.not_mem_nil

/-- A callback that adds an entry. -/
theorem add (hs : WalkInv tw now s) (te : TimerEntry κ) (hid : te.id = s.wheel.brk) :
    WalkInv tw now { s with
      wheel := ⟨te :: s.wheel.entries, s.wheel.brk + 1⟩
      added := te :: s.added
      late := if s.walk.min.isSome then te :: s.late else s.late } := by
  have hids : ((tw.entries ++ te :: s.added).map TimerEntry.id).Nodup := by
    rw [(List.perm_middle.map _).nodup_iff, List.map_cons, List.nodup_cons]
    refine ⟨fun hmem => ?_, hs.ids⟩
    obtain ⟨e, he, heq⟩ := List.mem_map.mp hmem
    exact absurd (hs.fresh e he) (by rw [heq, hid]; exact Nat.lt_irrefl _)
  have hfresh : ∀ e ∈ tw.entries ++ te :: s.added, e.id < s.wheel.brk + 1 := by
    intro e he
    rcases List.mem_cons.mp (List.perm_middle.subset he) with rfl | he
    · rw [hid]
      exact Nat.lt_succ_self _
    · exact Nat.lt_succ_of_lt (hs.fresh e he)
  have hadded : (te.key :: (tw.entries ++ s.added).map TimerEntry.key).Perm
      ((tw.entries ++ te :: s.added).map TimerEntry.key) :=
    (List.perm_middle.map TimerEntry.key).symm
  cases hmin : s.walk.min with
  | none =>
    -- it is reached next
    obtain ⟨hfront, hback⟩ := Walk.split_cons_of_none hmin s.wheel te (s.wheel.brk + 1)
    refine ⟨hs.now_eq, Walk.within_of_min_none hmin, ?_, ?_, hids, hfresh, fun _ =>
      hs.min_none hmin, fun m hm => absurd (hmin.symm.trans hm) (by simp), hs.called,
      fun e he => List.mem_cons_of_mem te (hs.late_added e he)⟩
    · refine List.Perm.trans ?_ ((hs.keys.cons te.key).trans hadded)
      simp only [Option.isSome_none, Bool.false_eq_true, if_false, WalkState.back, hback]
      exact List.perm_middle.map TimerEntry.key
    · obtain ⟨hkept, hlate⟩ := hs.min_none hmin
      simp only [Option.isSome_none, Bool.false_eq_true, if_false, WalkState.front, hfront, hlate]
      exact (congrArg (List.map TimerEntry.key) hkept).symm
  | some m =>
    -- it is behind the walk
    obtain ⟨hfront, hback⟩ :=
      Walk.split_cons_of_some hmin hs.within te (s.wheel.brk + 1)
    refine ⟨hs.now_eq, ?_, ?_, ?_, hids, hfresh, fun h => absurd (hmin.symm.trans h) (by simp),
      fun m hm => hs.min_some m hm, hs.called, fun e he => ?_⟩
    · have hwithin := hs.within
      unfold Walk.Within Walk.rest at hwithin ⊢
      rw [hmin] at hwithin ⊢
      exact Nat.le_succ_of_le hwithin
    · refine List.Perm.trans ?_ ((hs.keys.cons te.key).trans hadded)
      simp only [Option.isSome_some, if_true, WalkState.back, hback, List.append_assoc,
        List.cons_append]
      exact List.perm_middle.map TimerEntry.key
    · simp only [Option.isSome_some, if_true, WalkState.front, hfront, List.map_cons,
        List.cons_append]
      exact congrArg (te.key :: ·) hs.front
    · rcases List.mem_cons.mp he with rfl | he
      · exact List.mem_cons_self
      · exact List.mem_cons_of_mem te (hs.late_added e he)

/-- A callback that cancels an entry. -/
theorem cancel (hs : WalkInv tw now s) (id : Ptr) :
    WalkInv tw now { s with wheel := timerwheelCancel id s.wheel } := by
  refine ⟨hs.now_eq, ?_, ?_, ?_, hs.ids, hs.fresh, hs.min_none, hs.min_some, hs.called,
    hs.late_added⟩
  · have hwithin := hs.within
    unfold Walk.Within Walk.rest at hwithin ⊢
    simpa [timerwheelCancel] using hwithin
  · have hback : (s.walk.back (timerwheelCancel id s.wheel)).map TimerEntry.key =
        s.back.map TimerEntry.key := by
      rw [Walk.back_cancel, TimerEntry.key_map_cancel]
      rfl
    rw [List.map_append]
    show (_ ++ (s.walk.back _).map _).Perm _
    rw [hback, ← List.map_append]
    exact hs.keys
  · show (s.walk.front _).map _ = _
    rw [Walk.front_cancel, TimerEntry.key_map_cancel]
    exact hs.front

theorem op (hs : WalkInv tw now s) (o : WheelOp κ) : WalkInv tw now (s.op o) := by
  cases o with
  | add alloc now timeout cb =>
    cases alloc with
    | false => simpa [WalkState.op, timerwheelAdd] using hs
    | true => exact hs.add ⟨s.wheel.brk, triptimeDeadline now timeout, cb, false⟩ rfl
  | cancel id => exact hs.cancel id

theorem ops (hs : WalkInv tw now s) (l : List (WheelOp κ)) :
    WalkInv tw now (l.foldl WalkState.op s) := by
  induction l generalizing s with
  | nil => exact hs
  | cons o l ih => exact ih (hs.op o)

theorem kept_append (now : ℕ) (curr : TimerEntry κ) (h : t.reached = s.reached ++ [curr]) :
    t.kept now = s.kept now ++ if curr.Leaves now then [] else [curr] := by
  unfold WalkState.kept
  rw [h, List.filter_append]
  congr 1
  by_cases hleaves : curr.Leaves now
  · simp [hleaves]
  · simp [hleaves]

/-- What the loop does before it calls. -/
theorem turned (hs : WalkInv tw now s) {curr : TimerEntry κ} (h : WalkState.Turned s t curr) :
    WalkInv tw now t := by
  have hkept := kept_append now curr h.reached
  have hnow := hs.now_eq
  refine ⟨h.now.trans hnow, h.within, ?_, ?_, ?_, ?_, ?_, ?_, ?_, h.late ▸ h.added ▸ hs.late_added⟩
  · refine List.Perm.trans ?_ (h.added ▸ hs.keys)
    rw [h.reached, h.late, h.back]
    refine List.Perm.map _ ?_
    rw [List.append_assoc, List.append_assoc, List.append_assoc, List.singleton_append]
    exact (List.perm_middle.append_left _).symm
  · rw [h.front, h.late, hkept, List.map_append, hs.front, ← List.append_assoc, hnow]
    exact (List.map_append ..).symm
  · rw [h.added]
    exact hs.ids
  · rw [h.added, h.brk]
    exact hs.fresh
  · intro hmin
    rw [h.min, hnow] at hmin
    by_cases hleaves : curr.Leaves now
    · rw [if_pos hleaves] at hmin
      obtain ⟨hnil, hlate⟩ := hs.min_none hmin
      exact ⟨by rw [hkept, if_pos hleaves, hnil]; rfl, h.late.trans hlate⟩
    · rw [if_neg hleaves] at hmin
      exact absurd hmin (by simp)
  · intro m hmin
    rw [h.min, hnow] at hmin
    rw [hkept]
    by_cases hleaves : curr.Leaves now
    · rw [if_pos hleaves] at hmin ⊢
      rw [List.append_nil]
      exact hs.min_some m hmin
    · rw [if_neg hleaves] at hmin ⊢
      obtain rfl := Option.some.inj hmin
      cases hold : s.walk.min with
      | none =>
        -- the first entry that is kept
        rw [(hs.min_none hold).1, List.nil_append]
        exact ⟨List.mem_singleton_self curr, by simp [Walk.earlier]⟩
      | some m =>
        obtain ⟨hmem, hle⟩ := hs.min_some m hold
        constructor
        · unfold Walk.earlier
          dsimp only
          split
          · exact List.mem_append_right _ (List.mem_singleton_self curr)
          · exact List.mem_append_left _ hmem
        · intro te hte
          rcases List.mem_append.mp hte with hte | hte
          · exact (Walk.earlier_le_min rfl curr).trans (hle te hte)
          · rw [List.mem_singleton.mp hte]
            exact Walk.earlier_le _ curr
  · rw [h.called, h.reached, List.filterMap_append, hs.called, hnow]
    congr 1

/-- Each turn keeps the invariant. -/
theorem turn (hs : WalkInv tw now s) {l : List (WheelOp κ)} (h : s.turn l = some t) :
    WalkInv tw now t := by
  obtain ⟨curr, u, hu, rfl⟩ := WalkState.turn_cases h
  split
  · exact (hs.turned hu).ops l
  · exact hs.turned hu

/-- So every walk keeps it. -/
theorem turns (hs : WalkInv tw now s) (n : ℕ) (ops : Stream' (List (WheelOp κ))) :
    WalkInv tw now (s.turns n ops) := by
  induction n generalizing s ops with
  | zero => exact hs
  | succ n ih =>
    unfold WalkState.turns
    cases hturn : s.turn ops.head with
    | none => exact hs
    | some t => exact ih (hs.turn hturn) ops.tail

end WalkInv

/-! ### A walk ends -/

/-- A callback adds only what is not due yet. -/
def WheelOp.After (now : ℕ) : WheelOp κ → Prop
  | .add _ now' timeout _ => now < triptimeDeadline now' timeout
  | .cancel _ => True

namespace WalkState

/-- The calls that are to come. -/
def calls (now : ℕ) (s : WalkState κ) : ℕ := s.back.countP fun te => (te.called now).isSome

theorem calls_op {now : ℕ} {s : WalkState κ} (hs : s.walk.Within s.wheel) {o : WheelOp κ}
    (ho : o.After now) :
    (s.op o).calls now ≤ s.calls now ∧ (s.op o).walk.Within (s.op o).wheel := by
  cases o with
  | add alloc now' timeout cb =>
    cases alloc with
    | false => exact ⟨Nat.le_refl _, hs⟩
    | true =>
      let te : TimerEntry κ := ⟨s.wheel.brk, triptimeDeadline now' timeout, cb, false⟩
      have hcalled : te.called now = none := if_neg fun h => Nat.not_le.mpr ho h.1
      unfold calls back
      cases hmin : s.walk.min with
      | none =>
        obtain ⟨-, hback⟩ := Walk.split_cons_of_none hmin s.wheel te (s.wheel.brk + 1)
        refine ⟨?_, Walk.within_of_min_none hmin⟩
        show (s.walk.back ⟨te :: s.wheel.entries, s.wheel.brk + 1⟩).countP _ ≤ _
        rw [hback, List.countP_cons_of_neg (by rw [hcalled]; exact Bool.false_ne_true)]
      | some m =>
        obtain ⟨-, hback⟩ := Walk.split_cons_of_some hmin hs te (s.wheel.brk + 1)
        refine ⟨?_, ?_⟩
        · show (s.walk.back ⟨te :: s.wheel.entries, s.wheel.brk + 1⟩).countP _ ≤ _
          rw [hback]
        · unfold Walk.Within Walk.rest at hs
          rw [hmin] at hs
          exact Walk.within_of_length hmin (Nat.le_succ_of_le hs)
  | cancel id =>
    refine ⟨?_, ?_⟩
    · show (s.walk.back (timerwheelCancel id s.wheel)).countP _ ≤ _
      rw [Walk.back_cancel, List.countP_map]
      exact List.countP_mono_left fun te _ h => TimerEntry.isSome_called_cancel h
    · unfold Walk.Within Walk.rest at hs ⊢
      simpa [op, timerwheelCancel] using hs

theorem calls_ops {now : ℕ} {l : List (WheelOp κ)} (hl : ∀ o ∈ l, o.After now) {s : WalkState κ}
    (hs : s.walk.Within s.wheel) : (l.foldl op s).calls now ≤ s.calls now := by
  induction l generalizing s with
  | nil => exact Nat.le_refl _
  | cons o l ih =>
    rw [List.forall_mem_cons] at hl
    obtain ⟨hle, hwithin⟩ := calls_op hs hl.1
    exact (ih hl.2 hwithin).trans hle

/-- A turn makes one of the calls that are to come, or there is one entry less to
reach. -/
theorem turn_less {s t : WalkState κ} {l : List (WheelOp κ)}
    (hl : ∀ o ∈ l, o.After s.walk.now) (h : s.turn l = some t) :
    t.walk.now = s.walk.now ∧ (t.calls s.walk.now < s.calls s.walk.now ∨
      t.calls s.walk.now ≤ s.calls s.walk.now ∧ t.back.length < s.back.length) := by
  obtain ⟨curr, u, hu, rfl⟩ := turn_cases h
  have hback : s.calls s.walk.now =
      u.calls s.walk.now + if (curr.called s.walk.now).isSome then 1 else 0 := by
    unfold calls
    rw [hu.back, List.countP_cons]
  split
  · next hcalled =>
    have hops := calls_ops hl hu.within
    rw [if_pos hcalled] at hback
    refine ⟨?_, Or.inl (by omega)⟩
    have hnow : ∀ (l : List (WheelOp κ)) (v : WalkState κ),
        (l.foldl op v).walk.now = v.walk.now := by
      intro l
      induction l with
      | nil => exact fun _ => rfl
      | cons o l ih =>
        intro v
        rw [List.foldl_cons, ih]
        cases o <;> rfl
    rw [hnow, hu.now]
  · refine ⟨hu.now, Or.inr ⟨by omega, ?_⟩⟩
    rw [hu.back]
    exact Nat.lt_succ_self _

/-- **A walk ends**, whatever its callbacks cancel and when they add only what is not due
yet. -/
theorem turns_ended {now : ℕ} {s : WalkState κ} (hnow : s.walk.now = now)
    {ops : Stream' (List (WheelOp κ))} (hops : ∀ k, ∀ o ∈ ops.get k, o.After now) :
    ∃ k, (s.turns k ops).ended = true := by
  -- by induction on the calls that are to come, and for as many on what is left to reach
  generalize hc : s.calls now = c
  induction c using Nat.strong_induction_on generalizing s ops with
  | _ c ihc =>
    generalize hn : s.back.length = n
    induction n using Nat.strong_induction_on generalizing s ops with
    | _ n ihn =>
      cases hturn : s.turn ops.head with
      | none =>
        refine ⟨0, ?_⟩
        unfold turn at hturn
        rw [Option.map_eq_none_iff] at hturn
        unfold turns ended
        rw [hturn]
        rfl
      | some t =>
        have hhead : ∀ o ∈ ops.head, o.After s.walk.now := fun o ho => hnow ▸ hops 0 o ho
        obtain ⟨hsame, hless⟩ := turn_less hhead hturn
        rw [hnow] at hsame hless
        have hend : ∃ k, (t.turns k ops.tail).ended = true := by
          rcases hless with hlt | ⟨hle, hlt⟩
          · exact ihc _ (hc ▸ hlt) hsame (fun k => hops (k + 1)) rfl
          · rcases Nat.lt_or_eq_of_le (hc ▸ hle) with hlt' | heq
            · exact ihc _ hlt' hsame (fun k => hops (k + 1)) rfl
            · exact ihn _ (hn ▸ hlt) hsame (fun k => hops (k + 1)) heq rfl
        obtain ⟨k, hk⟩ := hend
        refine ⟨k + 1, ?_⟩
        unfold turns
        rw [hturn]
        exact hk

end WalkState

/-! ### What a walk does -/

/-- **What a walk of `tw` at `now` is to do**, of which `s` is the end.

Each entry that was there is reached, once; the calls are those of the entries that were
due and not cancelled when they were reached; and an entry is in the list afterwards,
once, unless it was taken out or, for one that was added, it was cancelled. -/
structure Walked (now : ℕ) (tw : Timerwheel κ) (s : WalkState κ) : Prop where
  reached : ∀ te ∈ tw.entries, ∃ e ∈ s.reached, e.key = te.key
  once : (s.reached.map TimerEntry.id).Nodup
  called : s.called = s.reached.filterMap (TimerEntry.called now)
  calledOnce : (s.called.map Prod.fst).Nodup
  count : ∀ te ∈ s.reached, (s.wheel.entries.map TimerEntry.id).count te.id =
    if te.Leaves now then 0 else 1
  added : ∀ te ∈ s.added, (s.wheel.entries.map TimerEntry.id).count te.id = 1 ∨
    ∃ e ∈ s.reached, e.key = te.key ∧ e.canceled = true

theorem TimerEntry.map_id (l : List (TimerEntry κ)) :
    l.map TimerEntry.id = (l.map TimerEntry.key).map Prod.fst := by
  rw [List.map_map]
  rfl

theorem TimerEntry.map_id_eq {l l' : List (TimerEntry κ)}
    (h : l.map TimerEntry.key = l'.map TimerEntry.key) :
    l.map TimerEntry.id = l'.map TimerEntry.id := by
  rw [map_id, map_id, h]

theorem TimerEntry.called_sublist (now : ℕ) (l : List (TimerEntry κ)) :
    ((l.filterMap (called now)).map Prod.fst).Sublist (l.map TimerEntry.id) := by
  induction l with
  | nil => exact .refl _
  | cons te l ih =>
    rw [List.filterMap_cons, List.map_cons]
    unfold called
    split
    · next hcalled => exact ih.cons te.id
    · next p hcalled =>
      split at hcalled
      · obtain ⟨k, -, rfl⟩ := Option.map_eq_some_iff.mp hcalled
        exact ih.cons_cons te.id
      · cases hcalled

namespace WalkInv

variable {tw : Timerwheel κ} {now : ℕ} {s : WalkState κ}

/-- At the end every entry was reached or was added behind the walk. -/
theorem keys_of_ended (hs : WalkInv tw now s) (hend : s.ended = true) :
    ((s.reached ++ s.late).map TimerEntry.key).Perm
      ((tw.entries ++ s.added).map TimerEntry.key) := by
  have hkeys := hs.keys
  rwa [WalkState.back_of_ended hend, List.append_nil] at hkeys

/-- At the end the list is what was added behind the walk and what was kept. -/
theorem entries_of_ended (hs : WalkInv tw now s) (hend : s.ended = true) :
    s.wheel.entries.map TimerEntry.key = (s.late ++ s.kept now).map TimerEntry.key := by
  rw [← hs.front, ← s.front_append_back, WalkState.back_of_ended hend, List.append_nil]

theorem nodup_of_ended (hs : WalkInv tw now s) (hend : s.ended = true) :
    ((s.reached ++ s.late).map TimerEntry.id).Nodup := by
  have hperm := (hs.keys_of_ended hend).map Prod.fst
  rw [← TimerEntry.map_id, ← TimerEntry.map_id] at hperm
  exact hperm.nodup_iff.mpr hs.ids

/-- An entry that was reached is in the list afterwards, once, unless it was taken out. -/
theorem count_of_ended (hs : WalkInv tw now s) (hend : s.ended = true) {te : TimerEntry κ}
    (hte : te ∈ s.reached) : (s.wheel.entries.map TimerEntry.id).count te.id =
      if te.Leaves now then 0 else 1 := by
  have hnodup := hs.nodup_of_ended hend
  rw [List.map_append, List.nodup_append'] at hnodup
  obtain ⟨honce, -, hdisjoint⟩ := hnodup
  have hlate : (s.late.map TimerEntry.id).count te.id = 0 :=
    List.count_eq_zero_of_not_mem (hdisjoint (List.mem_map_of_mem hte))
  have hkept : (s.kept now).map TimerEntry.id |>.Nodup :=
    (List.filter_sublist.map TimerEntry.id).nodup honce
  rw [TimerEntry.map_id_eq (hs.entries_of_ended hend), List.map_append, List.count_append, hlate,
    Nat.zero_add]
  split
  · next hleaves =>
    refine List.count_eq_zero_of_not_mem fun hmem => ?_
    obtain ⟨e, he, heq⟩ := List.mem_map.mp hmem
    obtain ⟨hreached, hstays⟩ := List.mem_filter.mp he
    obtain rfl := List.inj_on_of_nodup_map honce hreached hte heq
    exact of_decide_eq_true hstays hleaves
  · next hstays =>
    refine List.count_eq_one_of_mem hkept (List.mem_map_of_mem ?_)
    exact List.mem_filter.mpr ⟨hte, decide_eq_true hstays⟩

/-- What a walk has done when it has ended, and its callbacks have added only what is not
due. -/
theorem walked (hs : WalkInv tw now s) (hend : s.ended = true)
    (hadded : ∀ te ∈ s.added, now < te.deadline) : Walked now tw s := by
  have hkeys := hs.keys_of_ended hend
  have hnodup := hs.nodup_of_ended hend
  rw [List.map_append, List.nodup_append'] at hnodup
  have honce : (s.called.map Prod.fst).Nodup := by
    rw [hs.called]
    exact (TimerEntry.called_sublist now s.reached).nodup hnodup.1
  refine ⟨fun te hte => ?_, hnodup.1, hs.called, honce,
    fun te hte => hs.count_of_ended hend hte, fun te hte => ?_⟩
  · have hmem : te.key ∈ (s.reached ++ s.late).map TimerEntry.key :=
      hkeys.symm.subset (List.mem_map_of_mem (List.mem_append_left _ hte))
    obtain ⟨e, he, heq⟩ := List.mem_map.mp hmem
    rcases List.mem_append.mp he with he | he
    · exact ⟨e, he, heq⟩
    · -- what was added has an address of its own
      have hids := hs.ids
      rw [List.map_append, List.nodup_append'] at hids
      have hid : e.id = te.id := congrArg Prod.fst heq
      exact absurd (List.mem_map_of_mem (hs.late_added e he))
        (hid ▸ hids.2.2 (List.mem_map_of_mem hte))
  · have hmem : te.key ∈ (s.reached ++ s.late).map TimerEntry.key :=
      hkeys.symm.subset (List.mem_map_of_mem (List.mem_append_right _ hte))
    obtain ⟨e, he, heq⟩ := List.mem_map.mp hmem
    have hid : e.id = te.id := congrArg Prod.fst heq
    have hdeadline : e.deadline = te.deadline := congrArg (fun k => k.2.1) heq
    rcases List.mem_append.mp he with he | he
    · have hcount := hs.count_of_ended hend he
      by_cases hleaves : e.Leaves now
      · have hdue := hadded te hte
        exact Or.inr ⟨e, he, heq, hleaves.resolve_left (by omega)⟩
      · rw [if_neg hleaves, hid] at hcount
        exact Or.inl hcount
    · left
      rw [TimerEntry.map_id_eq (hs.entries_of_ended hend), ← hid]
      refine List.count_eq_one_of_mem ?_ (List.mem_map_of_mem (List.mem_append_left _ he))
      rw [List.map_append, List.nodup_append']
      refine ⟨hnodup.2.1, (List.filter_sublist.map TimerEntry.id).nodup hnodup.1, ?_⟩
      intro id hlate hkept
      exact hnodup.2.2 ((List.filter_sublist.map TimerEntry.id).subset hkept) hlate

end WalkInv

namespace WalkState

variable {now : ℕ} {s t : WalkState κ}

theorem added_op {o : WheelOp κ} (ho : o.After now) (hs : ∀ te ∈ s.added, now < te.deadline) :
    ∀ te ∈ (s.op o).added, now < te.deadline := by
  cases o with
  | add alloc now' timeout cb =>
    cases alloc with
    | false => exact hs
    | true =>
      intro te hte
      rcases List.mem_cons.mp hte with rfl | hte
      · exact ho
      · exact hs te hte
  | cancel id => exact hs

/-- What is added is what the callbacks add. -/
theorem added_turns (n : ℕ) {ops : Stream' (List (WheelOp κ))}
    (hops : ∀ k, ∀ o ∈ ops.get k, o.After now) (hs : ∀ te ∈ s.added, now < te.deadline) :
    ∀ te ∈ (s.turns n ops).added, now < te.deadline := by
  have hfold : ∀ (l : List (WheelOp κ)), (∀ o ∈ l, o.After now) → ∀ u : WalkState κ,
      (∀ te ∈ u.added, now < te.deadline) → ∀ te ∈ (l.foldl op u).added, now < te.deadline := by
    intro l
    induction l with
    | nil => exact fun _ _ hu => hu
    | cons o l ih =>
      intro hl u hu
      rw [List.forall_mem_cons] at hl
      exact ih hl.2 _ (added_op hl.1 hu)
  induction n generalizing s ops with
  | zero => exact hs
  | succ n ih =>
    unfold turns
    cases hturn : s.turn ops.head with
    | none => exact hs
    | some t =>
      refine ih (fun k => hops (k + 1)) ?_
      obtain ⟨curr, u, hu, rfl⟩ := turn_cases hturn
      split
      · exact hfold _ (hops 0) u (hu.added ▸ hs)
      · exact hu.added ▸ hs

end WalkState

/-- **A walk ends and does what it is to do**, when its callbacks add only what is not due
yet, whatever they cancel. -/
theorem timerwheelWalk_walked {tw : Timerwheel κ} (htw : tw.Distinct) (now : ℕ)
    {ops : Stream' (List (WheelOp κ))} (hops : ∀ k, ∀ o ∈ ops.get k, o.After now) :
    ∃ n, ((WalkState.start now tw).turns n ops).ended = true ∧
      Walked now tw ((WalkState.start now tw).turns n ops) := by
  obtain ⟨n, hend⟩ := WalkState.turns_ended (s := WalkState.start now tw) rfl hops
  refine ⟨n, hend, ((WalkInv.start htw).turns n ops).walked hend ?_⟩
  exact WalkState.added_turns n hops fun te hte => absurd hte List.not_mem_nil

/-- Two timers of which the second is due; its callback adds one and cancels the
first. -/
theorem timerwheelWalk_walked_two :
    ∃ n, ((WalkState.start 10 ⟨[⟨1, 100, some 'b', false⟩, ⟨0, 5, some 'a', false⟩], 2⟩).turns n
        (Stream'.const [.add true 10 20 (some 'c'), .cancel 1])).ended = true ∧
      Walked 10 ⟨[⟨1, 100, some 'b', false⟩, ⟨0, 5, some 'a', false⟩], 2⟩
        ((WalkState.start 10 ⟨[⟨1, 100, some 'b', false⟩, ⟨0, 5, some 'a', false⟩], 2⟩).turns n
          (Stream'.const [.add true 10 20 (some 'c'), .cancel 1])) := by
  refine timerwheelWalk_walked ⟨by decide, by decide⟩ 10 fun k o ho => ?_
  rcases List.mem_pair.mp (show o ∈ [.add true 10 20 (some 'c'), .cancel 1] from ho) with rfl | rfl
  · show 10 < triptimeDeadline 10 20
    decide
  · trivial

/-! ### The entry that is returned -/

/-- The entry a walk returns is no later than what is left and not cancelled, and it
returns none only when nothing is left. -/
def WalkState.MinOk (s : WalkState κ) : Prop :=
  ∀ e ∈ s.wheel.entries, e.canceled = false → ∃ m ∈ s.walk.min, m.deadline ≤ e.deadline

/-- What was added behind a walk at `now`, and is not cancelled, is no earlier than
something the walk has kept. -/
def WalkState.LateOk (now : ℕ) (s : WalkState κ) : Prop :=
  ∀ e ∈ s.wheel.entries, e.canceled = false → (∃ te ∈ s.late, te.id = e.id) →
    ∃ te ∈ s.kept now, te.deadline ≤ e.deadline

theorem WalkInv.minOk_iff {tw : Timerwheel κ} {now : ℕ} {s : WalkState κ}
    (hs : WalkInv tw now s) (hend : s.ended = true) : s.MinOk ↔ s.LateOk now := by
  constructor
  · intro hmin e he hc _
    obtain ⟨m, hm, hle⟩ := hmin e he hc
    exact ⟨m, (hs.min_some m hm).1, hle⟩
  · intro hlate e he hc
    have hkept : ∃ te ∈ s.kept now, te.deadline ≤ e.deadline := by
      have hmem := List.mem_map_of_mem (f := TimerEntry.key) he
      rw [hs.entries_of_ended hend] at hmem
      obtain ⟨te, hte, heq⟩ := List.mem_map.mp hmem
      rcases List.mem_append.mp hte with hte | hte
      · exact hlate e he hc ⟨te, hte, congrArg Prod.fst heq⟩
      · exact ⟨te, hte, (congrArg (fun k => k.2.1) heq).le⟩
    obtain ⟨te, hte, hle⟩ := hkept
    cases hm : s.walk.min with
    | none =>
      rw [(hs.min_none hm).1] at hte
      exact absurd hte List.not_mem_nil
    | some m => exact ⟨m, rfl, ((hs.min_some m hm).2 te hte).trans hle⟩

/-- **When the entry that is returned is the earliest** of those that are left: if and only
if no callback has added one, behind the walk, that is before all that the walk has
kept. -/
theorem timerwheelWalk_min_iff {tw : Timerwheel κ} (htw : tw.Distinct) (now n : ℕ)
    (ops : Stream' (List (WheelOp κ)))
    (hend : ((WalkState.start now tw).turns n ops).ended = true) :
    ((WalkState.start now tw).turns n ops).MinOk ↔
      ((WalkState.start now tw).turns n ops).LateOk now :=
  ((WalkInv.start htw).turns n ops).minOk_iff hend

/-- The callback adds an entry that is later than the one that was kept. -/
theorem timerwheelWalk_min_iff_two :
    ((WalkState.start 10 ⟨[⟨1, 100, none, false⟩, ⟨0, 5, some 'a', false⟩], 2⟩).turns 2
        (Stream'.const [.add true 10 200 none])).MinOk ↔
      ((WalkState.start 10 ⟨[⟨1, 100, none, false⟩, ⟨0, 5, some 'a', false⟩], 2⟩).turns 2
        (Stream'.const [.add true 10 200 none])).LateOk 10 :=
  timerwheelWalk_min_iff ⟨by decide, by decide⟩ 10 2 _ (by decide)

/-- **The callback adds an entry before the one that was kept**, and the later one is
returned. -/
theorem timerwheelWalk_min_late :
    ¬ ∀ (tw : Timerwheel Char) (now n : ℕ) (ops : Stream' (List (WheelOp Char))), tw.Distinct →
      ((WalkState.start now tw).turns n ops).ended = true →
        ((WalkState.start now tw).turns n ops).MinOk := by
  intro h
  have hmin := h ⟨[⟨1, 100, none, false⟩, ⟨0, 5, some 'a', false⟩], 2⟩ 10 2
    (Stream'.const [.add true 10 20 none]) ⟨by decide, by decide⟩ (by decide)
    ⟨2, 30, none, false⟩ (by decide) rfl
  obtain ⟨m, hm, hle⟩ := hmin
  have hkept : ((WalkState.start 10 ⟨[⟨1, 100, none, false⟩, ⟨0, 5, some 'a', false⟩], 2⟩).turns 2
      (Stream'.const [.add true 10 20 none])).walk.min = some ⟨1, 100, none, false⟩ := by decide
  obtain rfl : m = ⟨1, 100, none, false⟩ := Option.some.inj (hm.symm.trans hkept)
  exact absurd hle (by decide)

end Libtrp
