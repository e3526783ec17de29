import Mathlib.Logic.Relation
import Mathlib.Order.Lattice

/-!
# Populations

The members of a population are numbered, and each is in a state.  Members are born in some
states and go on by steps of their own; none is ever forgotten.  `Grows` says this of two
moments: what was there has taken steps, and what is new was born in between and may
have taken steps since.

## Main definitions

* `Grows born step n f n' f'` — the members `f` below `n` became the members `f'`
  below `n'`.

## Main results

* `Grows.trans` — one moment after the other.
* `Grows.invariant` — **what holds at birth and is kept by steps holds of all members.**
* `Grows.kept` — what steps keep is kept for each member.
-/

namespace Lib

open Relation

variable {ι α β : Type*} [LinearOrder ι]

/-- The members there were have taken steps, the new ones since they were born. -/
structure Grows (born : α → Prop) (step : α → α → Prop) (n : ι) (f : ι → α) (n' : ι)
    (f' : ι → α) : Prop where
  le : n ≤ n'
  old : ∀ i < n, ReflTransGen step (f i) (f' i)
  new : ∀ i, n ≤ i → i < n' → ∃ a, born a ∧ ReflTransGen step a (f' i)

namespace Grows

variable {born born' : α → Prop} {step step' : α → α → Prop} {n n' n'' : ι}
  {f f' f'' : ι → α}

/-- Nothing is born. -/
theorem of_eq (hn : n' = n) (h : ∀ i < n, ReflTransGen step (f i) (f' i)) :
    Grows born step n f n' f' :=
  ⟨hn.ge, h, fun _ hi hi' => absurd (hn ▸ hi') (not_lt.mpr hi)⟩

theorem refl (n : ι) (f : ι → α) : Grows born step n f n f := of_eq rfl fun _ _ => .refl

theorem trans (h : Grows born step n f n' f') (h' : Grows born step n' f' n'' f'') :
    Grows born step n f n'' f'' := by
  refine ⟨h.le.trans h'.le, fun i hi => ?_, fun i hi hi'' => ?_⟩
  · exact (h.old i hi).trans (h'.old i (hi.trans_le h.le))
  · by_cases hi' : i < n'
    · -- it was born before the moment in between
      obtain ⟨a, ha, hsteps⟩ := h.new i hi hi'
      exact ⟨a, ha, hsteps.trans (h'.old i hi')⟩
    · exact h'.new i (not_lt.mp hi') hi''

/-- Births and steps that are among others. -/
theorem mono (h : Grows born step n f n' f') (hborn : ∀ a, born a → born' a)
    (hstep : ∀ a b, step a b → step' a b) : Grows born' step' n f n' f' := by
  refine ⟨h.le, fun i hi => ReflTransGen.mono hstep _ _ (h.old i hi), fun i hi hi' => ?_⟩
  obtain ⟨a, ha, hsteps⟩ := h.new i hi hi'
  exact ⟨a, hborn a ha, ReflTransGen.mono hstep _ _ hsteps⟩

/-- What steps keep holds behind steps. -/
theorem keeps {inv : α → Prop} (hstep : ∀ a b, inv a → step a b → inv b) {a b : α}
    (ha : inv a) (h : ReflTransGen step a b) : inv b := by
  induction h with
  | refl => exact ha
  | tail _ hstep' ih => exact hstep _ _ ih hstep'

/-- **What holds at birth and is kept by steps holds of all members.** -/
theorem invariant (h : Grows born step n f n' f') {inv : α → Prop}
    (hborn : ∀ a, born a → inv a) (hstep : ∀ a b, inv a → step a b → inv b)
    (hf : ∀ i < n, inv (f i)) : ∀ i < n', inv (f' i) := by
  intro i hi'
  by_cases hi : i < n
  · exact keeps hstep (hf i hi) (h.old i hi)
  · obtain ⟨a, ha, hsteps⟩ := h.new i (not_lt.mp hi) hi'
    exact keeps hstep (hborn a ha) hsteps

/-- What holds of the states a step connects, and of their chains, holds of each member. -/
theorem related (h : Grows born step n f n' f') {R : α → α → Prop} (hrefl : ∀ a, R a a)
    (htrans : ∀ a b c, R a b → R b c → R a c) (hstep : ∀ a b, step a b → R a b) {i : ι}
    (hi : i < n) : R (f i) (f' i) := by
  have hsteps := h.old i hi
  generalize f' i = b at hsteps
  induction hsteps with
  | refl => exact hrefl _
  | tail _ hstep' ih => exact htrans _ _ _ ih (hstep _ _ hstep')

/-- **What steps keep** is kept for each member. -/
theorem kept (h : Grows born step n f n' f') {g : α → β} (hg : ∀ a b, step a b → g b = g a)
    {i : ι} (hi : i < n) : g (f' i) = g (f i) :=
  h.related (R := fun a b => g b = g a) (fun _ => rfl) (fun _ _ _ hab hbc => hbc.trans hab) hg hi

end Grows

end Lib
