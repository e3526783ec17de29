import Mathlib.Data.List.Basic
import Mathlib.Order.RelClasses

/-!
# Runs of a transition system

A transition system is a relation `step s i t`: on input `i` state `s` may
become `t`.  A run from `s` is a list of inputs, each paired with the state it
leads to.  What is asked of a run is said by two predicates, `good` of its
states and `ok` of its steps, and what is assumed of it by a `guard`, a
condition on each step's input and on the state before it.

## Main definitions

* `IsRun step s r` — `r` is a run from `s`.
* `Holds good ok s r` — every state of the run is good and every step is ok.
* `Meets guard s r` — every step of the run meets the guard.
* `ending s r` — the state in which the run ends.
* `trace f s is` — the run of a system that is a function of its input.
* `recorded watch s g r` — the run with a history variable.
* `Reaches step guard s t` — `t` is reached from `s` by steps meeting the guard.

## Main results

* `holds_of_meets` — the invariant rule for guarded runs.
* `holds_iff_meets` — the guard is exact when each step that misses it fails.
* `meets_or_lost` — what a step that misses the guard loses is lost at the end.
* `IsRun.refines` — the refinement rule.
* `acc_of_ranked` — the termination rule.
-/

namespace Lib

variable {σ ι : Type*}

/-- A list of inputs with the states they lead to is a run. -/
def IsRun (step : σ → ι → σ → Prop) : σ → List (ι × σ) → Prop
  | _, [] => True
  | s, (i, t) :: r => step s i t ∧ IsRun step t r

/-- Every state of the run is good and every step of it is ok. -/
def Holds (good : σ → Prop) (ok : σ → ι → σ → Prop) : σ → List (ι × σ) → Prop
  | s, [] => good s
  | s, (i, t) :: r => good s ∧ ok s i t ∧ Holds good ok t r

/-- Every step of the run meets the guard. -/
def Meets (guard : σ → ι → Prop) : σ → List (ι × σ) → Prop
  | _, [] => True
  | s, (i, t) :: r => guard s i ∧ Meets guard t r

/-- The state in which a run ends. -/
def ending : σ → List (ι × σ) → σ
  | s, [] => s
  | _, (_, t) :: r => ending t r

/-- The run of a deterministic system on a list of inputs. -/
def trace (f : ι → σ → σ) : σ → List ι → List (ι × σ)
  | _, [] => []
  | s, i :: is => (i, f i s) :: trace f (f i s) is

@[simp] theorem isRun_nil (step : σ → ι → σ → Prop) (s : σ) : IsRun step s [] := trivial

@[simp] theorem isRun_cons (step : σ → ι → σ → Prop) (s t : σ) (i : ι) (r : List (ι × σ)) :
    IsRun step s ((i, t) :: r) ↔ step s i t ∧ IsRun step t r := Iff.rfl

@[simp] theorem holds_nil (good : σ → Prop) (ok : σ → ι → σ → Prop) (s : σ) :
    Holds good ok s [] ↔ good s := Iff.rfl

@[simp] theorem holds_cons (good : σ → Prop) (ok : σ → ι → σ → Prop) (s t : σ) (i : ι)
    (r : List (ι × σ)) :
    Holds good ok s ((i, t) :: r) ↔ good s ∧ ok s i t ∧ Holds good ok t r := Iff.rfl

@[simp] theorem meets_nil (guard : σ → ι → Prop) (s : σ) : Meets guard s [] := trivial

@[simp] theorem meets_cons (guard : σ → ι → Prop) (s t : σ) (i : ι) (r : List (ι × σ)) :
    Meets guard s ((i, t) :: r) ↔ guard s i ∧ Meets guard t r := Iff.rfl

/-- A guard that every step meets. -/
theorem meets_of_forall {guard : σ → ι → Prop} (hg : ∀ s i, guard s i) :
    ∀ (r : List (ι × σ)) (s : σ), Meets guard s r := by
  intro r
  induction r with
  | nil => intro s; trivial
  | cons p r ih => intro s; exact ⟨hg s p.1, ih p.2⟩

/-- A guard that is implied by another. -/
theorem Meets.mono {guard guard' : σ → ι → Prop} (hg : ∀ s i, guard s i → guard' s i)
    {r : List (ι × σ)} {s : σ} (h : Meets guard s r) : Meets guard' s r := by
  induction r generalizing s with
  | nil => trivial
  | cons p r ih => exact ⟨hg s p.1 h.1, ih h.2⟩

theorem Holds.first {good : σ → Prop} {ok : σ → ι → σ → Prop} {s : σ} {r : List (ι × σ)}
    (h : Holds good ok s r) : good s := by
  cases r with
  | nil => exact h
  | cons p r => exact h.1

/-- A property of states and steps that follows from another holds along the
same runs. -/
theorem Holds.mono {good good' : σ → Prop} {ok ok' : σ → ι → σ → Prop}
    (hg : ∀ s, good s → good' s) (hok : ∀ s i t, good s → ok s i t → ok' s i t) :
    ∀ {r : List (ι × σ)} {s : σ}, Holds good ok s r → Holds good' ok' s r := by
  intro r
  induction r with
  | nil => intro s h; exact hg s h
  | cons p r ih =>
    intro s h
    exact ⟨hg s h.1, hok s p.1 p.2 h.1 h.2.1, ih h.2.2⟩

/-- **The invariant rule.**  A step that meets the guard from a state of the
invariant is ok and leads to such a state. -/
theorem holds_of_meets {step : σ → ι → σ → Prop} {guard : σ → ι → Prop} {inv : σ → Prop}
    {ok : σ → ι → σ → Prop}
    (hstep : ∀ s i t, inv s → guard s i → step s i t → ok s i t ∧ inv t) :
    ∀ {r : List (ι × σ)} {s : σ}, inv s → IsRun step s r → Meets guard s r →
      Holds inv ok s r := by
  intro r
  induction r with
  | nil => intro s hs _ _; exact hs
  | cons p r ih =>
    intro s hs hr hm
    obtain ⟨hok, ht⟩ := hstep s p.1 p.2 hs hm.1 hr.1
    exact ⟨hs, hok, ih ht hr.2 hm.2⟩

/-- **The guard is exact**: when moreover a step that misses it fails or leads
to a state that is not good, the runs that are good throughout are those that
meet the guard throughout. -/
theorem holds_iff_meets {step : σ → ι → σ → Prop} {guard : σ → ι → Prop} {inv good : σ → Prop}
    {ok : σ → ι → σ → Prop} (hgood : ∀ s, inv s → good s)
    (hstep : ∀ s i t, inv s → guard s i → step s i t → ok s i t ∧ inv t)
    (hbreak : ∀ s i t, inv s → ¬ guard s i → step s i t → ¬ (ok s i t ∧ good t)) :
    ∀ {r : List (ι × σ)} {s : σ}, inv s → IsRun step s r →
      (Holds good ok s r ↔ Meets guard s r) := by
  intro r
  induction r with
  | nil => intro s hs _; exact ⟨fun _ => trivial, fun _ => hgood s hs⟩
  | cons p r ih =>
    intro s hs hr
    constructor
    · intro h
      have hg : guard s p.1 := by
        by_contra hg
        exact hbreak s p.1 p.2 hs hg hr.1 ⟨h.2.1, h.2.2.first⟩
      have ht : inv p.2 := (hstep s p.1 p.2 hs hg hr.1).2
      exact ⟨hg, (ih ht hr.2).mp h.2.2⟩
    · intro h
      exact (holds_of_meets hstep hs hr h).mono hgood fun _ _ _ _ hok => hok

/-- **The rule of what is lost.**  When a step that misses the guard loses something, and no step
brings it back, it is lost at the end of exactly those runs that do not meet the guard. -/
theorem meets_or_lost {step : σ → ι → σ → Prop} {guard : σ → ι → Prop} {inv lost : σ → Prop}
    (hstep : ∀ s i t, inv s → guard s i → step s i t → inv t)
    (hbreak : ∀ s i t, inv s → ¬ guard s i → step s i t → lost t)
    (hlost : ∀ s i t, lost s → step s i t → lost t) :
    ∀ {r : List (ι × σ)} {s : σ}, inv s → IsRun step s r →
      Meets guard s r ∧ inv (ending s r) ∨ ¬ Meets guard s r ∧ lost (ending s r) := by
  have hstays : ∀ {r : List (ι × σ)} {s : σ}, lost s → IsRun step s r → lost (ending s r) := by
    intro r
    induction r with
    | nil => intro s hs _; exact hs
    | cons p r ih => intro s hs hr; exact ih (hlost s p.1 p.2 hs hr.1) hr.2
  intro r
  induction r with
  | nil => intro s hs _; exact .inl ⟨trivial, hs⟩
  | cons p r ih =>
    intro s hs hr
    by_cases hg : guard s p.1
    · exact (ih (hstep s p.1 p.2 hs hg hr.1) hr.2).imp (fun h => ⟨⟨hg, h.1⟩, h.2⟩)
        fun h => ⟨fun hm => h.1 hm.2, h.2⟩
    · have hend : lost (ending p.2 r) := hstays (hbreak s p.1 p.2 hs hg hr.1) hr.2
      exact .inr ⟨fun hm => hg hm.1, hend⟩

/-- **The refinement rule.**  When each step from a state of the invariant is seen through
`f` as a step of another system, a run is seen as a run of that system. -/
theorem IsRun.refines {τ : Type*} {step : σ → ι → σ → Prop} {step' : τ → ι → τ → Prop} {f : σ → τ}
    {inv : σ → Prop}
    (hstep : ∀ s i t, inv s → step s i t → step' (f s) i (f t) ∧ inv t) :
    ∀ {r : List (ι × σ)} {s : σ}, inv s → IsRun step s r →
      IsRun step' (f s) (r.map fun p => (p.1, f p.2)) := by
  intro r
  induction r with
  | nil => intro s _ _; trivial
  | cons p r ih =>
    intro s hs hr
    obtain ⟨hst, ht⟩ := hstep s p.1 p.2 hs hr.1
    exact ⟨hst, ih ht hr.2⟩

/-- What holds of a run seen through `f`. -/
theorem holds_map {τ : Type*} {good : τ → Prop} {ok : τ → ι → τ → Prop} {f : σ → τ}
    {r : List (ι × σ)} {s : σ} : Holds good ok (f s) (r.map fun p => (p.1, f p.2)) ↔
      Holds (fun s => good (f s)) (fun s i t => ok (f s) i (f t)) s r := by
  induction r generalizing s with
  | nil => exact Iff.rfl
  | cons p r ih => exact and_congr Iff.rfl (and_congr Iff.rfl ih)

/-! ### The run of a function on given inputs -/

/-- A system that is a partial function of its input runs on inputs it takes one
after the other. -/
theorem isRun_trace {f : σ → ι → Option σ} {l : List ι} {s : σ}
    (h : (l.foldlM f s).isSome = true) :
    IsRun (fun s i t => f s i = some t) s (trace (fun i s => (f s i).getD s) s l) := by
  induction l generalizing s with
  | nil => trivial
  | cons i l ih =>
    rw [List.foldlM_cons] at h
    cases hstep : f s i with
    | none => simp [hstep] at h
    | some t =>
      rw [hstep] at h
      simp only [trace, isRun_cons, hstep, Option.getD_some]
      exact ⟨trivial, ih h⟩

theorem ending_trace (f : ι → σ → σ) (l : List ι) (s : σ) :
    ending s (trace f s l) = l.foldl (fun s i => f i s) s := by
  induction l generalizing s with
  | nil => rfl
  | cons i l ih => exact ih (f i s)

/-- A system that is a function of its input runs on all inputs. -/
theorem isRun_of_fun (f : ι → σ → σ) (s : σ) (l : List ι) :
    IsRun (fun s i t => t = f i s) s (trace f s l) := by
  induction l generalizing s with
  | nil => trivial
  | cons i l ih => exact ⟨rfl, ih (f i s)⟩

/-- A run whose steps all meet a condition is a run of these steps. -/
theorem IsRun.and_meets {step : σ → ι → σ → Prop} {guard : σ → ι → Prop} {r : List (ι × σ)}
    {s : σ} (h : IsRun step s r) (hm : Meets guard s r) :
    IsRun (fun s i t => step s i t ∧ guard s i) s r := by
  induction r generalizing s with
  | nil => trivial
  | cons p r ih => exact ⟨⟨h.1, hm.1⟩, ih h.2 hm.2⟩

/-- The last state of such a run is good when all are. -/
theorem Holds.last {good : σ → Prop} {ok : σ → ι → σ → Prop} {f : ι → σ → σ} {l : List ι}
    {s : σ} (h : Holds good ok s (trace f s l)) : good (l.foldl (fun s i => f i s) s) := by
  induction l generalizing s with
  | nil => exact h
  | cons i l ih => exact ih h.2.2

/-- The last step of such a run is ok when all are. -/
theorem Holds.ok_last {good : σ → Prop} {ok : σ → ι → σ → Prop} {f : ι → σ → σ} {l : List ι}
    {i : ι} {s : σ} (h : Holds good ok s (trace f s (l ++ [i]))) :
    ok (l.foldl (fun s i => f i s) s) i (f i (l.foldl (fun s i => f i s) s)) := by
  induction l generalizing s with
  | nil => exact h.2.1
  | cons j l ih => exact ih h.2.2

/-- A condition on the inputs alone. -/
theorem meets_trace {guard : ι → Prop} (f : ι → σ → σ) {l : List ι} (hl : ∀ i ∈ l, guard i)
    (s : σ) : Meets (fun _ i => guard i) s (trace f s l) := by
  induction l generalizing s with
  | nil => trivial
  | cons i l ih =>
    exact ⟨hl i List.mem_cons_self, ih (fun j hj => hl j (List.mem_cons_of_mem i hj)) (f i s)⟩

instance decidableMeets {guard : σ → ι → Prop} [∀ s i, Decidable (guard s i)] :
    ∀ (s : σ) (r : List (ι × σ)), Decidable (Meets guard s r)
  | _, [] => .isTrue trivial
  | _, (_, t) :: r => @instDecidableAnd _ _ _ (decidableMeets t r)

/-! ### History variables -/

/-- A run with a history beside each of its states, which `watch` writes and no step reads. -/
def recorded {γ : Type*} (watch : σ → ι → σ → γ → γ) : σ → γ → List (ι × σ) → List (ι × σ × γ)
  | _, _, [] => []
  | s, g, (i, t) :: r => (i, t, watch s i t g) :: recorded watch t (watch s i t g) r

/-- It is a run of the system with the history. -/
theorem IsRun.recorded {γ : Type*} {step : σ → ι → σ → Prop} {watch : σ → ι → σ → γ → γ}
    {r : List (ι × σ)} {s : σ} {g : γ} (h : IsRun step s r) :
    IsRun (fun p i q => step p.1 i q.1 ∧ q.2 = watch p.1 i q.1 p.2) (s, g)
      (recorded watch s g r) := by
  induction r generalizing s g with
  | nil => trivial
  | cons p r ih => exact ⟨⟨h.1, rfl⟩, ih h.2⟩

theorem Meets.recorded {γ : Type*} {guard : σ → ι → Prop} {watch : σ → ι → σ → γ → γ}
    {r : List (ι × σ)} {s : σ} {g : γ} (h : Meets guard s r) :
    Meets (fun p i => guard p.1 i) (s, g) (recorded watch s g r) := by
  induction r generalizing s g with
  | nil => trivial
  | cons p r ih => exact ⟨h.1, ih h.2⟩

/-! ### Reachability -/

/-- `t` is reached from `s` by steps that meet the guard. -/
inductive Reaches (step : σ → ι → σ → Prop) (guard : σ → ι → Prop) (s : σ) : σ → Prop
  | refl : Reaches step guard s s
  | step {t u : σ} (i : ι) : Reaches step guard s t → guard t i → step t i u →
      Reaches step guard s u

/-- One step more at the beginning. -/
theorem Reaches.head {step : σ → ι → σ → Prop} {guard : σ → ι → Prop} {s t u : σ} {i : ι}
    (hg : guard s i) (hs : step s i t) (h : Reaches step guard t u) : Reaches step guard s u := by
  induction h with
  | refl => exact .step i .refl hg hs
  | step j _ hgj hstep ih => exact .step j ih hgj hstep

theorem Reaches.trans {step : σ → ι → σ → Prop} {guard : σ → ι → Prop} {s t u : σ}
    (h : Reaches step guard s t) (h' : Reaches step guard t u) : Reaches step guard s u := by
  induction h' with
  | refl => exact h
  | step i _ hg hstep ih => exact .step i ih hg hstep

/-- What a function reaches on inputs it takes one after the other. -/
theorem reaches_trace {f : σ → ι → Option σ} {l : List ι} {s : σ}
    (h : (l.foldlM f s).isSome = true) :
    Reaches (fun s i t => f s i = some t) (fun _ _ => True) s
      (l.foldl (fun s i => (f s i).getD s) s) := by
  induction l generalizing s with
  | nil => exact .refl
  | cons i l ih =>
    rw [List.foldlM_cons] at h
    rw [List.foldl_cons]
    cases hstep : f s i with
    | none => simp [hstep] at h
    | some t =>
      rw [hstep] at h
      exact .head trivial hstep (ih h)

/-- **The termination rule.**  A system ends from each state that has a rank, when every step
lowers it. -/
theorem acc_of_ranked {α : Type*} [LT α] [WellFoundedLT α] {step : σ → ι → σ → Prop}
    {ranked : σ → α → Prop}
    (hstep : ∀ s i t a, ranked s a → step s i t → ∃ b, b < a ∧ ranked t b) {s : σ} {a : α}
    (hs : ranked s a) : Acc (fun t s => ∃ i, step s i t) s := by
  induction a using WellFoundedLT.induction generalizing s with
  | ind a ih =>
    constructor
    rintro t ⟨i, hst⟩
    obtain ⟨b, hlt, ht⟩ := hstep s i t a hs hst
    exact ih b hlt ht

/-- The invariant rule for reachable states. -/
theorem Reaches.invariant {step : σ → ι → σ → Prop} {guard : σ → ι → Prop} {inv : σ → Prop}
    (hstep : ∀ s i t, inv s → guard s i → step s i t → inv t) {s t : σ} (hs : inv s)
    (h : Reaches step guard s t) : inv t := by
  induction h with
  | refl => exact hs
  | step i _ hg hst ih => exact hstep _ i _ ih hg hst

end Lib
