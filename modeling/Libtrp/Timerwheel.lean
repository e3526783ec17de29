import Mathlib.Order.Basic
import Libtrp.Core

/-!
# The clock and the timer wheel

Readings of the clock and deadlines are 64-bit counts of milliseconds.  The
wheel is a list of entries, the newest first; an entry that is cancelled stays
until a walk meets it.

A walk takes out what is due or cancelled and calls the callbacks of what is
due.  They may add entries and cancel some while the walk goes on, so a walk is
a sequence of steps between which the wheel may change.  The walk's pointer
`prev` is the head of the list until an entry is kept: until then the walk finds
what a callback added, and from then on it does not.

## Main definitions

* `triptimeDeadline`, `triptimeTimeout` — deadlines from readings and back.
* `timerwheelAdd`, `timerwheelCancel` — the operations.
* `Walk`, `Walk.step` — a walk and one turn of its loop.
* `Timerwheel.pending` — the entries with a callback of some kind.

## Main results

* `triptimeTimeout_iff` — **when a timeout is what it should be.**

## References

`src/time.c`, `src/time.h`, `src/timerwheel.c`, `src/timerwheel.h`.
-/

namespace Libtrp

/-! ### The clock -/

/-- `TRIPTIME_END` -/
def TRIPTIME_END : ℕ := 2 ^ 64 - 1

/-- `_TRIP_MIN_TIMEOUT` -/
def tripMinTimeout : ℤ := 1

/-- `_TRIP_MAX_TIMEOUT` -/
def tripMaxTimeout : ℤ := 10000

/-- `a - b` of 64-bit numbers. -/
def sizeSub (a b : ℕ) : ℕ := (a + (2 ^ 64 - b)) % 2 ^ 64

/-- The conversion of a 64-bit number to `int`. -/
def toInt (n : ℕ) : ℤ := Int.bmod n (2 ^ 32)

/-- `triptime_deadline`, when the clock reads `now`. -/
def triptimeDeadline (now : ℕ) (timeoutMs : ℤ) : ℕ := ((now + timeoutMs) % 2 ^ 64).toNat

/-- `triptime_timeout` -/
def triptimeTimeout (deadline now : ℕ) : ℤ :=
  let timeout := toInt (sizeSub deadline now)
  if timeout > tripMaxTimeout then tripMaxTimeout
  else if timeout < 0 then tripMinTimeout
  else timeout

theorem triptimeDeadline_le (now : ℕ) (ms : ℤ) : triptimeDeadline now ms ≤ TRIPTIME_END := by
  unfold triptimeDeadline TRIPTIME_END
  have hnonneg := Int.emod_nonneg (now + ms) (show (2 ^ 64 : ℤ) ≠ 0 by decide)
  have hlt := Int.emod_lt_of_pos (now + ms) (show (0 : ℤ) < 2 ^ 64 by decide)
  omega

/-- A number as an `int`. -/
theorem toInt_eq (n : ℕ) :
    toInt n = if n % 2 ^ 32 < 2 ^ 31 then (n % 2 ^ 32 : ℤ) else n % 2 ^ 32 - 2 ^ 32 := by
  unfold toInt Int.bmod
  norm_num
  split_ifs <;> omega

/-- Whether the low 32 bits of the distance, as an `int`, are on the side of the bounds that
the distance is on. -/
def TimeoutFits (deadline now : ℕ) : Prop :=
  if now ≤ deadline then
    deadline - now ≤ 10000 ∨
      10000 ≤ (deadline - now) % 2 ^ 32 ∧ (deadline - now) % 2 ^ 32 < 2 ^ 31
  else
    0 < (now - deadline) % 2 ^ 32 ∧ (now - deadline) % 2 ^ 32 ≤ 2 ^ 31 ∨
      (now - deadline) % 2 ^ 32 = 2 ^ 32 - 1

/-- **When a timeout is what it should be**: the distance to the deadline, at most the
maximum, and the minimum when the deadline has passed. -/
theorem triptimeTimeout_iff (deadline now : UInt64) :
    ((now ≤ deadline → triptimeTimeout deadline.toNat now.toNat =
        min (deadline.toNat - now.toNat : ℤ) tripMaxTimeout) ∧
      (deadline < now → triptimeTimeout deadline.toNat now.toNat = tripMinTimeout)) ↔
      TimeoutFits deadline.toNat now.toNat := by
  have hdeadline := deadline.toNat_lt
  have hnow := now.toNat_lt
  rw [UInt64.le_iff_toNat_le, UInt64.lt_iff_toNat_lt]
  generalize deadline.toNat = d at hdeadline ⊢
  generalize now.toNat = n at hnow ⊢
  unfold TimeoutFits triptimeTimeout tripMinTimeout tripMaxTimeout
  dsimp only
  rw [toInt_eq]
  unfold sizeSub
  by_cases hle : n ≤ d
  · -- the deadline is to come
    have hsub : (d + (2 ^ 64 - n)) % 2 ^ 64 = d - n := by omega
    rw [if_pos hle, hsub]
    split_ifs <;> omega
  · -- it has passed, and the distance wraps
    have hsub : (d + (2 ^ 64 - n)) % 2 ^ 64 = 2 ^ 64 - (n - d) := by omega
    rw [if_neg hle, hsub]
    split_ifs <;> omega

/-- **A clock that cannot be read** reads zero, and a deadline of the year 2020 is far: the
timeout is the minimum. -/
theorem triptimeTimeout_short :
    ¬ ∀ deadline now : UInt64,
      (now ≤ deadline → triptimeTimeout deadline.toNat now.toNat =
        min (deadline.toNat - now.toNat : ℤ) tripMaxTimeout) ∧
      (deadline < now → triptimeTimeout deadline.toNat now.toNat = tripMinTimeout) := by
  intro h
  exact absurd ((h 1580000000000 0).1 (by decide)) (by decide)

/-! ### Entries -/

/-- `timer_entry_t`.  `id` is the entry's address, `cb` the callback with the
data it is called with. -/
structure TimerEntry (κ : Type*) where
  id : Ptr
  deadline : ℕ
  cb : Option κ
  canceled : Bool
  deriving DecidableEq, Repr

/-- `timerwheel_t`.  `brk` is the first address no allocation has returned. -/
structure Timerwheel (κ : Type*) where
  entries : List (TimerEntry κ)
  brk : Ptr
  deriving DecidableEq, Repr

variable {κ : Type*}

/-- `timerwheel_init` -/
def timerwheelInit : Timerwheel κ := ⟨[], 0⟩

/-- `timerwheel_add`, when the allocation succeeds or not and the clock reads
`now`. -/
def timerwheelAdd (alloc : Bool) (now : ℕ) (timeout : ℤ) (cb : Option κ) (tw : Timerwheel κ) :
    Option (TimerEntry κ) × Timerwheel κ :=
  if alloc then
    let te := ⟨tw.brk, triptimeDeadline now timeout, cb, false⟩
    (some te, ⟨te :: tw.entries, tw.brk + 1⟩)
  else (none, tw)

/-- What a cancellation writes to the entry at `id`. -/
def TimerEntry.cancel (id : Ptr) (te : TimerEntry κ) : TimerEntry κ :=
  if te.id = id then { te with canceled := true } else te

/-- `timerwheel_cancel`.  Nothing is left to cancel at the address of an entry
that was freed. -/
def timerwheelCancel (id : Ptr) (tw : Timerwheel κ) : Timerwheel κ :=
  { tw with entries := tw.entries.map (TimerEntry.cancel id) }

namespace TimerEntry

@[simp] theorem id_cancel (id : Ptr) (te : TimerEntry κ) : (te.cancel id).id = te.id := by
  unfold cancel; split <;> rfl

@[simp] theorem deadline_cancel (id : Ptr) (te : TimerEntry κ) :
    (te.cancel id).deadline = te.deadline := by
  unfold cancel; split <;> rfl

@[simp] theorem cb_cancel (id : Ptr) (te : TimerEntry κ) : (te.cancel id).cb = te.cb := by
  unfold cancel; split <;> rfl

/-- A cancellation leaves no entry uncancelled that was not. -/
theorem canceled_of_cancel {id : Ptr} {te : TimerEntry κ} (h : (te.cancel id).canceled = false) :
    te.id ≠ id ∧ te.canceled = false := by
  unfold cancel at h
  split at h
  · simp at h
  · next hne => exact ⟨hne, h⟩

end TimerEntry

/-! ### Walking the wheel -/

/-- The variables of `timerwheel_walk_with` between two turns of its loop:
`left` entries at the end of the list are not visited yet, and `min` is the
earliest kept so far. -/
structure Walk (κ : Type*) where
  now : ℕ
  left : ℕ
  min : Option (TimerEntry κ)
  deriving DecidableEq, Repr

namespace Walk

/-- The walk before its first turn. -/
def start (now : ℕ) (tw : Timerwheel κ) : Walk κ := ⟨now, tw.entries.length, none⟩

/-- How many entries are left to visit: all of them while `prev` is the head. -/
def rest (w : Walk κ) (tw : Timerwheel κ) : ℕ :=
  if w.min.isNone then tw.entries.length else w.left

/-- The entries the walk has kept, and what was added before them. -/
def front (w : Walk κ) (tw : Timerwheel κ) : List (TimerEntry κ) :=
  tw.entries.take (tw.entries.length - w.rest tw)

/-- The entries left to visit. -/
def back (w : Walk κ) (tw : Timerwheel κ) : List (TimerEntry κ) :=
  tw.entries.drop (tw.entries.length - w.rest tw)

/-- The earlier of the minimum and a kept entry. -/
def earlier (min : Option (TimerEntry κ)) (curr : TimerEntry κ) : TimerEntry κ :=
  match min with
  | some m => if curr.deadline < m.deadline then curr else m
  | none => curr

/-- One turn of the loop of `timerwheel_walk_with`: `none` at the end of the
list, else the walk and the wheel after it, and the callback to call. -/
def step (w : Walk κ) (tw : Timerwheel κ) : Option (Walk κ × Timerwheel κ × Option κ) :=
  match w.back tw with
  | [] => none
  | curr :: next =>
    if w.now ≥ curr.deadline ∨ curr.canceled then
      some ({ w with left := next.length }, { tw with entries := w.front tw ++ next },
        if curr.canceled then none else curr.cb)
    else some (⟨w.now, next.length, some (earlier w.min curr)⟩, tw, none)

theorem front_append_back (w : Walk κ) (tw : Timerwheel κ) :
    w.front tw ++ w.back tw = tw.entries := List.take_append_drop _ _

/-- Until an entry is kept everything is left to visit. -/
theorem front_of_min_none {w : Walk κ} (hw : w.min = none) (tw : Timerwheel κ) :
    w.front tw = [] := by
  simp [front, rest, hw]

/-- The split of the wheel at the walk, once an entry is kept. -/
theorem split {w : Walk κ} {tw : Timerwheel κ} {m : TimerEntry κ} (hw : w.min = some m)
    {front back : List (TimerEntry κ)} (he : tw.entries = front ++ back)
    (hl : w.left = back.length) : w.front tw = front ∧ w.back tw = back := by
  have hlen : tw.entries.length - w.rest tw = front.length := by
    simp [rest, hw, hl, he]
  rw [Walk.front, Walk.back, hlen, he]
  exact ⟨List.take_left, List.drop_left⟩

/-- **What one turn can do**: it takes out the next entry, which is due or
cancelled, or keeps it.  What was kept before stays. -/
theorem step_cases {w w' : Walk κ} {tw tw' : Timerwheel κ} {cb : Option κ}
    (h : w.step tw = some (w', tw', cb)) :
    ∃ curr next, w.back tw = curr :: next ∧
      ((w' = { w with left := next.length } ∧ tw' = { tw with entries := w.front tw ++ next } ∧
          w'.front tw' = w.front tw ∧ (w.now ≥ curr.deadline ∨ curr.canceled) ∧
          cb = if curr.canceled then none else curr.cb) ∨
        (tw' = tw ∧ w'.min = some (earlier w.min curr) ∧ w'.front tw' = w.front tw ++ [curr] ∧
          cb = none)) := by
  unfold step at h
  cases hback : w.back tw with
  | nil => simp [hback] at h
  | cons curr next =>
    refine ⟨curr, next, rfl, ?_⟩
    by_cases hdue : w.now ≥ curr.deadline ∨ curr.canceled
    · simp only [hback, if_pos hdue, Option.some.injEq, Prod.mk.injEq] at h
      obtain ⟨rfl, rfl, rfl⟩ := h
      refine Or.inl ⟨rfl, rfl, ?_, hdue, rfl⟩
      cases hm : w.min with
      | none => rw [front_of_min_none hm, front_of_min_none rfl]
      | some m => exact (split (w := ⟨w.now, next.length, some m⟩) rfl rfl rfl).1
    · simp only [hback, if_neg hdue, Option.some.injEq, Prod.mk.injEq] at h
      obtain ⟨rfl, rfl, rfl⟩ := h
      refine Or.inr ⟨rfl, rfl, ?_, rfl⟩
      refine (split rfl ?_ rfl).1
      rw [List.append_assoc, List.singleton_append, ← hback, front_append_back]

/-- At the end everything in the wheel was kept, or added meanwhile. -/
theorem front_of_step_none {w : Walk κ} {tw : Timerwheel κ} (h : w.step tw = none) :
    w.front tw = tw.entries := by
  unfold step at h
  cases hback : w.back tw with
  | nil => rw [← w.front_append_back tw, hback, List.append_nil]
  | cons curr next =>
    simp only [hback] at h
    split at h <;> simp at h

theorem front_cancel (w : Walk κ) (id : Ptr) (tw : Timerwheel κ) :
    w.front (timerwheelCancel id tw) = (w.front tw).map (TimerEntry.cancel id) := by
  simp only [front, rest, timerwheelCancel, List.length_map, List.map_take]

/-- What is added during a walk is not kept by it. -/
theorem mem_front_cons {w : Walk κ} {te e : TimerEntry κ} {entries : List (TimerEntry κ)}
    {brk brk' : Ptr} (he : e ∈ w.front ⟨te :: entries, brk'⟩) :
    e = te ∨ e ∈ w.front ⟨entries, brk⟩ := by
  unfold front rest at he ⊢
  cases hm : w.min with
  | none => simp [hm] at he
  | some m =>
    simp only [hm, Option.isNone_some, Bool.false_eq_true, if_false, List.length_cons] at he ⊢
    rcases le_or_gt w.left entries.length with hle | hlt
    · rw [Nat.succ_sub hle, List.take_succ_cons, List.mem_cons] at he
      exact he
    · have hzero : entries.length + 1 - w.left = 0 := by omega
      rw [hzero, List.take_zero] at he
      exact absurd he List.not_mem_nil

theorem earlier_le_min {min : Option (TimerEntry κ)} {m : TimerEntry κ} (hm : min = some m)
    (curr : TimerEntry κ) : (earlier min curr).deadline ≤ m.deadline := by
  subst hm
  unfold earlier
  dsimp only
  split
  · next hlt => exact hlt.le
  · exact le_rfl

theorem earlier_le (min : Option (TimerEntry κ)) (curr : TimerEntry κ) :
    (earlier min curr).deadline ≤ curr.deadline := by
  unfold earlier
  cases min with
  | none => exact le_rfl
  | some m =>
    dsimp only
    split
    · exact le_rfl
    · next hle => exact not_lt.mp hle

end Walk

/-! ### What is pending -/

/-- The entry is not cancelled and its callback is one of `p`. -/
def TimerEntry.pends (p : κ → Bool) (te : TimerEntry κ) : Bool := !te.canceled && te.cb.any p

/-- The addresses of the entries that are not cancelled and whose callback is one of
`p`, the newest first. -/
def Timerwheel.pending (p : κ → Bool) (tw : Timerwheel κ) : List Ptr :=
  (tw.entries.filter (TimerEntry.pends p)).map TimerEntry.id

namespace Timerwheel

variable {p : κ → Bool}

/-- An addition adds one entry, when there is memory for it. -/
theorem pending_add (alloc : Bool) (now : ℕ) (ms : ℤ) (cb : Option κ) (tw : Timerwheel κ) :
    (timerwheelAdd alloc now ms cb tw).2.pending p =
      if alloc && cb.any p then tw.brk :: tw.pending p else tw.pending p := by
  unfold timerwheelAdd pending
  cases alloc with
  | false => rfl
  | true =>
    simp only [if_true, Bool.true_and, List.filter_cons, TimerEntry.pends, Bool.not_false]
    split <;> rfl

/-- A cancellation takes its entry out. -/
theorem pending_cancel (id : Ptr) (tw : Timerwheel κ) :
    (timerwheelCancel id tw).pending p = (tw.pending p).filter (· ≠ id) := by
  unfold timerwheelCancel pending
  dsimp only
  induction tw.entries with
  | nil => rfl
  | cons te es ih =>
    rw [List.map_cons, List.filter_cons, List.filter_cons]
    by_cases hid : te.id = id
    · -- the entry is the one that is cancelled
      have hcancel : (te.cancel id).pends p = false := by
        simp [TimerEntry.pends, TimerEntry.cancel, hid]
      rw [hcancel, if_neg (by decide), ih]
      cases te.pends p with
      | false => rfl
      | true => simp [hid]
    · have hcancel : te.cancel id = te := by simp [TimerEntry.cancel, hid]
      rw [hcancel]
      cases te.pends p with
      | false => exact ih
      | true => simp [hid, ih]

/-- One turn of a walk takes out the entry whose callback is called, and no other. -/
theorem pending_step {w w' : Walk κ} {tw tw' : Timerwheel κ} {cb : Option κ}
    (h : w.step tw = some (w', tw', cb)) :
    (tw'.pending p).Sublist (tw.pending p) ∧
      (tw'.pending p).length + (if cb.any p then 1 else 0) = (tw.pending p).length := by
  obtain ⟨curr, next, hback, hcases⟩ := Walk.step_cases h
  have hentries := w.front_append_back tw
  rw [hback] at hentries
  have hsub : (w.front tw ++ next).Sublist tw.entries := by
    rw [← hentries]
    exact (List.sublist_cons_self curr next).append_left _
  rcases hcases with ⟨-, rfl, -, -, hcb⟩ | ⟨rfl, -, -, rfl⟩
  · refine ⟨(hsub.filter _).map _, ?_⟩
    unfold pending
    rw [List.length_map, List.length_map, ← hentries, List.filter_append, List.filter_append,
      List.length_append, List.length_append, List.filter_cons]
    have hpends : cb.any p = curr.pends p := by
      rw [hcb]
      unfold TimerEntry.pends
      cases curr.canceled <;> rfl
    rw [hpends]
    cases curr.pends p with
    | false => rfl
    | true =>
      rw [if_pos rfl, if_pos rfl, List.length_cons]
      omega
  · exact ⟨List.Sublist.refl _, rfl⟩

end Timerwheel

end Libtrp
