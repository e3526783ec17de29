import Mathlib.Order.Defs.Unbundled

/-!
# Programs over a state

A program reads and writes a state and returns a value, or gets stuck where its
behaviour is undefined; the state it got stuck in is kept.  What is proved about
programs are triples: from a state of the precondition, a program that returns
leaves a state of the postcondition.

## Main definitions

* `Prog σ α` — the programs over `σ` that return an `α`.
* `Prog.exec m s` — the value returned, if any, and the last state.
* `Prog.Ensures P m Q` — the triple.
* `Prog.Keeps I m` — the triple of an invariant.
* `Prog.Does R m` — what a program does to the state, also when it gets stuck.
* `Prog.Leaves R Q m` — what a program that returns does to the state, and what it
  returns.
* `Prog.Total m` — the program does not get stuck.
* `Prog.Returns m s` — the program does not get stuck from `s`.

## Main results

* `Prog.exec_bind` — how a sequence runs.
* `Prog.Ensures.bind`, `Prog.Does.bind` — the rules of sequencing.
* `Prog.Does.keeps` — an invariant is kept by what a program does.
-/

namespace Lib

/-- A program over a state, which may get stuck. -/
abbrev Prog (σ α : Type) := OptionT (StateM σ) α

namespace Prog

variable {σ α β : Type}

/-- Run a program: what it returns, unless it gets stuck, and the last state. -/
def exec (m : Prog σ α) (s : σ) : Option α × σ := m.run s

/-- Read the state. -/
def read (f : σ → α) : Prog σ α := fun s => (some (f s), s)

/-- Change the state. -/
def write (f : σ → σ) : Prog σ Unit := fun s => (some (), f s)

/-- Take a value off the state. -/
def take (f : σ → α × σ) : Prog σ α := fun s => (some (f s).1, (f s).2)

/-- Undefined behaviour. -/
def stuck : Prog σ α := fun s => (none, s)

/-! ### Running programs -/

@[simp] theorem exec_pure (a : α) (s : σ) : (pure a : Prog σ α).exec s = (some a, s) := rfl

@[simp] theorem exec_read (f : σ → α) (s : σ) : (read f).exec s = (some (f s), s) := rfl

@[simp] theorem exec_write (f : σ → σ) (s : σ) : (write f).exec s = (some (), f s) := rfl

@[simp] theorem exec_take (f : σ → α × σ) (s : σ) :
    (take f).exec s = (some (f s).1, (f s).2) := rfl

@[simp] theorem exec_stuck (s : σ) : (stuck : Prog σ α).exec s = (none, s) := rfl

/-- A sequence runs its parts in turn, up to where it gets stuck. -/
theorem exec_bind (m : Prog σ α) (f : α → Prog σ β) (s : σ) :
    (m >>= f).exec s =
      match m.exec s with
      | (some a, t) => (f a).exec t
      | (none, t) => (none, t) := by
  show (OptionT.bind m f) s = _
  simp only [exec, OptionT.run, OptionT.bind, OptionT.mk, bind, StateT.bind]
  obtain ⟨_ | a, t⟩ := m s <;> rfl

/-- A sequence whose first part returns. -/
theorem exec_bind_of {m : Prog σ α} {f : α → Prog σ β} {s t : σ} {a : α}
    (h : m.exec s = (some a, t)) : (m >>= f).exec s = (f a).exec t := by
  rw [exec_bind, h]

/-- What a program does when its value is not used. -/
theorem exec_discard (m : Prog σ α) (s : σ) :
    ((m >>= fun _ => pure ()).exec s).2 = (m.exec s).2 := by
  rw [exec_bind]
  obtain ⟨_ | a, t⟩ := m.exec s <;> rfl

/-- A sequence returns when both its parts do. -/
theorem exec_bind_eq_some {m : Prog σ α} {f : α → Prog σ β} {s u : σ} {b : β} :
    (m >>= f).exec s = (some b, u) ↔
      ∃ a t, m.exec s = (some a, t) ∧ (f a).exec t = (some b, u) := by
  rw [exec_bind]
  obtain ⟨_ | a, t⟩ := m.exec s
  · simp
  · simp [and_assoc]

@[simp] theorem exec_ite (p : Prop) [Decidable p] (m n : Prog σ α) (s : σ) :
    (if p then m else n).exec s = if p then m.exec s else n.exec s := by
  split <;> rfl

/-! ### Triples -/

/-- From a state of `P`, what `m` returns and the state it leaves are of `Q`. -/
def Ensures (P : σ → Prop) (m : Prog σ α) (Q : α → σ → Prop) : Prop :=
  ∀ s, P s → ∀ a t, m.exec s = (some a, t) → Q a t

/-- `m` keeps the invariant `I`. -/
abbrev Keeps (I : σ → Prop) (m : Prog σ α) : Prop := Ensures I m fun _ => I

theorem Ensures.pure {P : σ → Prop} {a : α} {Q : α → σ → Prop} (h : ∀ s, P s → Q a s) :
    Ensures P (pure a : Prog σ α) Q := by
  rintro s hs _ _ ⟨⟩
  exact h s hs

theorem Ensures.read {P : σ → Prop} {f : σ → α} {Q : α → σ → Prop}
    (h : ∀ s, P s → Q (f s) s) : Ensures P (read f) Q := by
  rintro s hs _ _ ⟨⟩
  exact h s hs

theorem Ensures.write {P : σ → Prop} {f : σ → σ} {Q : Unit → σ → Prop}
    (h : ∀ s, P s → Q () (f s)) : Ensures P (write f) Q := by
  rintro s hs _ _ ⟨⟩
  exact h s hs

theorem Ensures.take {P : σ → Prop} {f : σ → α × σ} {Q : α → σ → Prop}
    (h : ∀ s, P s → Q (f s).1 (f s).2) : Ensures P (take f) Q := by
  rintro s hs _ _ ⟨⟩
  exact h s hs

/-- Nothing is asked of a program that gets stuck. -/
theorem Ensures.stuck {P : σ → Prop} {Q : α → σ → Prop} : Ensures P stuck Q := by
  rintro s _ _ _ ⟨⟩

/-- **Sequencing**: what the first part ensures is what the second starts from. -/
theorem Ensures.bind {P : σ → Prop} {m : Prog σ α} {f : α → Prog σ β} {Q : α → σ → Prop}
    {S : β → σ → Prop} (hm : Ensures P m Q) (hf : ∀ a, Ensures (Q a) (f a) S) :
    Ensures P (m >>= f) S := by
  intro s hs b u h
  obtain ⟨a, t, hmt, hft⟩ := exec_bind_eq_some.mp h
  exact hf a t (hm s hs a t hmt) b u hft

theorem Ensures.ite {P : σ → Prop} {p : Prop} [Decidable p] {m n : Prog σ α}
    {Q : α → σ → Prop} (hm : p → Ensures P m Q) (hn : ¬ p → Ensures P n Q) :
    Ensures P (if p then m else n) Q := by
  split
  · next hp => exact hm hp
  · next hp => exact hn hp

/-- **Consequence.** -/
theorem Ensures.mono {P P' : σ → Prop} {m : Prog σ α} {Q Q' : α → σ → Prop}
    (hm : Ensures P m Q) (hP : ∀ s, P' s → P s) (hQ : ∀ a s, Q a s → Q' a s) :
    Ensures P' m Q' := by
  intro s hs a t h
  exact hQ a t (hm s (hP s hs) a t h)

/-! ### What a program does -/

/-- The first state and the last are related by `R`, also when `m` gets stuck. -/
def Does (R : σ → σ → Prop) (m : Prog σ α) : Prop := ∀ s, R s (m.exec s).2

section Does

variable {R : σ → σ → Prop}

theorem Does.pure (hR : ∀ s, R s s) (a : α) : Does R (pure a : Prog σ α) := fun s => hR s

theorem Does.read (hR : ∀ s, R s s) (f : σ → α) : Does R (read f) := fun s => hR s

theorem Does.stuck (hR : ∀ s, R s s) : Does R (stuck : Prog σ α) := fun s => hR s

theorem Does.write {f : σ → σ} (h : ∀ s, R s (f s)) : Does R (write f) := h

theorem Does.take {f : σ → α × σ} (h : ∀ s, R s (f s).2) : Does R (take f) := h

/-- A sequence does what its parts do in turn. -/
theorem Does.bind (hR : ∀ ⦃s t u⦄, R s t → R t u → R s u) {m : Prog σ α} {f : α → Prog σ β}
    (hm : Does R m) (hf : ∀ a, Does R (f a)) : Does R (m >>= f) := by
  intro s
  have hms := hm s
  rw [exec_bind]
  generalize m.exec s = r at hms ⊢
  obtain ⟨_ | a, t⟩ := r
  · exact hms
  · exact hR hms (hf a t)

theorem Does.ite {p : Prop} [Decidable p] {m n : Prog σ α} (hm : Does R m) (hn : Does R n) :
    Does R (if p then m else n) := by
  split
  · exact hm
  · exact hn

/-- What a program does keeps an invariant when `R` does. -/
theorem Does.keeps {I : σ → Prop} (hI : ∀ s t, R s t → I s → I t) {m : Prog σ α}
    (hm : Does R m) : Keeps I m := by
  intro s hs a t h
  have hst := hm s
  rw [h] at hst
  exact hI s t hst hs

end Does

/-! ### What a program returns -/

/-- When `m` returns, the first state and the last are related by `R`, and what it
returns is of `Q`. -/
def Leaves (R : σ → σ → Prop) (Q : α → Prop) (m : Prog σ α) : Prop :=
  ∀ s a t, m.exec s = (some a, t) → R s t ∧ Q a

section Leaves

variable {R : σ → σ → Prop} {Q : β → Prop}

theorem Leaves.pure (hR : ∀ s, R s s) {b : β} (h : Q b) : Leaves R Q (pure b) := by
  rintro s _ _ ⟨⟩
  exact ⟨hR s, h⟩

theorem Leaves.stuck : Leaves R Q stuck := by
  rintro s _ _ ⟨⟩

/-- What a sequence returns is what its last part does. -/
theorem Leaves.bind (hR : ∀ ⦃s t u⦄, R s t → R t u → R s u) {m : Prog σ α} {f : α → Prog σ β}
    (hm : Does R m) (hf : ∀ a, Leaves R Q (f a)) : Leaves R Q (m >>= f) := by
  intro s b u h
  obtain ⟨a, t, hmt, hft⟩ := exec_bind_eq_some.mp h
  have hst := hm s
  rw [hmt] at hst
  obtain ⟨htu, hb⟩ := hf a t b u hft
  exact ⟨hR hst htu, hb⟩

/-- What is returned is known, whatever came before. -/
theorem Leaves.last {m : Prog σ α} {b : β} (hm : Does R m) (hb : Q b) :
    Leaves R Q (m >>= fun _ => Pure.pure b) := by
  intro s b' u h
  obtain ⟨a, t, hmt, hft⟩ := exec_bind_eq_some.mp h
  obtain ⟨rfl, rfl⟩ : b = b' ∧ t = u := by simpa using hft
  have hst := hm s
  rw [hmt] at hst
  exact ⟨hst, hb⟩

theorem Leaves.ite {p : Prop} [Decidable p] {m n : Prog σ β} (hm : p → Leaves R Q m)
    (hn : ¬ p → Leaves R Q n) : Leaves R Q (if p then m else n) := by
  split
  · next hp => exact hm hp
  · next hp => exact hn hp

end Leaves

/-! ### Programs that do not get stuck -/

/-- `m` returns from every state. -/
def Total (m : Prog σ α) : Prop := ∀ s, ∃ a, (m.exec s).1 = some a

theorem Total.pure (a : α) : Total (pure a : Prog σ α) := fun _ => ⟨a, rfl⟩

theorem Total.read (f : σ → α) : Total (read f) := fun s => ⟨f s, rfl⟩

theorem Total.write (f : σ → σ) : Total (write f) := fun _ => ⟨(), rfl⟩

theorem Total.take (f : σ → α × σ) : Total (take f) := fun s => ⟨(f s).1, rfl⟩

theorem Total.bind {m : Prog σ α} {f : α → Prog σ β} (hm : Total m) (hf : ∀ a, Total (f a)) :
    Total (m >>= f) := by
  intro s
  obtain ⟨a, ha⟩ := hm s
  rw [exec_bind]
  generalize m.exec s = r at ha ⊢
  obtain ⟨o, t⟩ := r
  obtain rfl : o = some a := ha
  exact hf a t

theorem Total.ite {p : Prop} [Decidable p] {m n : Prog σ α} (hm : Total m) (hn : Total n) :
    Total (if p then m else n) := by
  split
  · exact hm
  · exact hn

/-- What a total program returns, and the state it leaves. -/
theorem Total.exec_eq {m : Prog σ α} (hm : Total m) (s : σ) :
    ∃ a, m.exec s = (some a, (m.exec s).2) := by
  obtain ⟨a, ha⟩ := hm s
  exact ⟨a, Prod.ext ha rfl⟩

/-! ### Where a program returns -/

/-- `m` returns from `s`. -/
def Returns (m : Prog σ α) (s : σ) : Prop := ∃ a t, m.exec s = (some a, t)

theorem Returns.pure (a : α) (s : σ) : Returns (pure a : Prog σ α) s := ⟨a, s, rfl⟩

theorem Total.returns {m : Prog σ α} (hm : Total m) (s : σ) : Returns m s := by
  obtain ⟨a, ha⟩ := hm.exec_eq s
  exact ⟨a, _, ha⟩

/-- `n` does what `m` does, and returns nothing. -/
def Forgets (m : Prog σ α) (n : Prog σ Unit) : Prop :=
  ∀ s, n.exec s = ((m.exec s).1.map fun _ => (), (m.exec s).2)

theorem Forgets.pure (a : α) : Forgets (pure a : Prog σ α) (pure ()) := fun _ => rfl

theorem Forgets.stuck : Forgets (stuck : Prog σ α) stuck := fun _ => rfl

/-- The value is given by what comes last. -/
theorem Forgets.last (n : Prog σ Unit) (a : α) : Forgets (n >>= fun _ => Pure.pure a) n := by
  intro s
  rw [exec_bind]
  obtain ⟨_ | _, t⟩ := n.exec s <;> rfl

theorem Forgets.bind {m : Prog σ β} {f : β → Prog σ α} {g : β → Prog σ Unit}
    (h : ∀ b, Forgets (f b) (g b)) : Forgets (m >>= f) (m >>= g) := by
  intro s
  rw [exec_bind, exec_bind]
  obtain ⟨_ | b, t⟩ := m.exec s
  · rfl
  · exact h b t

theorem Forgets.ite {p : Prop} [Decidable p] {m m' : Prog σ α} {n n' : Prog σ Unit}
    (h : Forgets m n) (h' : Forgets m' n') : Forgets (if p then m else m')
      (if p then n else n') := by
  split
  · exact h
  · exact h'

end Prog

end Lib
