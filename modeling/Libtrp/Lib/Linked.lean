import Mathlib.Data.List.Nodup
import Mathlib.Data.List.Basic
import Mathlib.Logic.Function.Basic

/-!
# Singly linked lists in a heap

A linked list is a `next` function and a head; what it holds is a list of
nodes.  `Seg next p l q` says that following `next` from `p` visits exactly the
nodes of `l` and then stands at `q`, and `Linked next p l` is the case where the
walk ends.  The relation is functional in `l`, so a list is determined by its
head, and a list that ends has no repetition.

Writes to `next` are `Function.update`s.  The rules below say which writes keep
a segment (`Seg.update`), how a node is put at the end of a list
(`Linked.snoc`), and how one is taken out of the middle (`Linked.unlink`).

## Main results

* `Linked.unique`, `Linked.nodup` — the nodes are determined and distinct.
* `Linked.snoc`, `Linked.unlink` — enqueueing and unlinking.
-/

namespace Lib

variable {α : Type*}

/-- Following `next` from `p` visits the nodes of `l` and then stands at `q`. -/
def Seg (next : α → Option α) : Option α → List α → Option α → Prop
  | p, [], q => p = q
  | p, a :: l, q => p = some a ∧ Seg next (next a) l q

/-- Following `next` from `p` visits the nodes of `l` and then ends. -/
def Linked (next : α → Option α) (p : Option α) (l : List α) : Prop := Seg next p l none

@[simp] theorem seg_nil (next : α → Option α) (p q : Option α) : Seg next p [] q ↔ p = q := Iff.rfl

@[simp] theorem seg_cons (next : α → Option α) (p q : Option α) (a : α) (l : List α) :
    Seg next p (a :: l) q ↔ p = some a ∧ Seg next (next a) l q := Iff.rfl

@[simp] theorem linked_nil (next : α → Option α) (p : Option α) :
    Linked next p [] ↔ p = none := Iff.rfl

@[simp] theorem linked_cons (next : α → Option α) (p : Option α) (a : α) (l : List α) :
    Linked next p (a :: l) ↔ p = some a ∧ Linked next (next a) l := Iff.rfl

/-! ### Segments -/

theorem seg_append {next : α → Option α} : ∀ {l₁ l₂ : List α} {p q : Option α},
    Seg next p (l₁ ++ l₂) q ↔ ∃ r, Seg next p l₁ r ∧ Seg next r l₂ q := by
  intro l₁
  induction l₁ with
  | nil =>
    intro l₂ p q
    constructor
    · intro h; exact ⟨p, rfl, h⟩
    · rintro ⟨r, rfl, h⟩; exact h
  | cons a l₁ ih =>
    intro l₂ p q
    rw [List.cons_append, seg_cons, ih]
    constructor
    · rintro ⟨hp, r, h₁, h₂⟩; exact ⟨r, ⟨hp, h₁⟩, h₂⟩
    · rintro ⟨r, ⟨hp, h₁⟩, h₂⟩; exact ⟨hp, r, h₁, h₂⟩

/-- A segment depends only on the links of its own nodes. -/
theorem Seg.congr {next next' : α → Option α} : ∀ {l : List α} {p q : Option α},
    Seg next p l q → (∀ a ∈ l, next' a = next a) → Seg next' p l q := by
  intro l
  induction l with
  | nil => intro p q h _; exact h
  | cons a l ih =>
    intro p q h hl
    rw [seg_cons] at h ⊢
    refine ⟨h.1, ?_⟩
    rw [hl a List.mem_cons_self]
    exact ih h.2 fun b hb => hl b (List.mem_cons_of_mem a hb)

/-- Writing the link of a node outside a segment keeps it. -/
theorem Seg.update [DecidableEq α] {next : α → Option α} {l : List α} {p q : Option α}
    (h : Seg next p l q) {a : α} (ha : a ∉ l) (r : Option α) :
    Seg (Function.update next a r) p l q := by
  refine h.congr fun b hb => ?_
  have hba : b ≠ a := fun hba => ha (hba ▸ hb)
  exact Function.update_of_ne hba r next

/-- The last link of a nonempty segment leads to its end. -/
theorem Seg.next_last {next : α → Option α} {l : List α} {a : α} {p q : Option α}
    (h : Seg next p (l ++ [a]) q) : next a = q := by
  obtain ⟨r, -, hr⟩ := seg_append.mp h
  exact hr.2

/-- Two segments from one start that stop at a node outside both are equal. -/
theorem Seg.unique {next : α → Option α} {q : Option α} : ∀ {l l' : List α} {p : Option α},
    Seg next p l q → Seg next p l' q → (∀ a ∈ l, some a ≠ q) → (∀ a ∈ l', some a ≠ q) →
      l = l' := by
  intro l
  induction l with
  | nil =>
    intro l' p h h' _ hq'
    cases l' with
    | nil => rfl
    | cons b l' => exact absurd (h'.1.symm.trans h) (hq' b List.mem_cons_self)
  | cons a l ih =>
    intro l' p h h' hq hq'
    cases l' with
    | nil => exact absurd (h.1.symm.trans h') (hq a List.mem_cons_self)
    | cons b l' =>
      rw [seg_cons] at h h'
      have hab : a = b := Option.some.inj (h.1.symm.trans h'.1)
      subst hab
      rw [ih h.2 h'.2 (fun c hc => hq c (List.mem_cons_of_mem a hc))
        (fun c hc => hq' c (List.mem_cons_of_mem a hc))]

/-- A segment that stops at a node outside it visits no node twice. -/
theorem Seg.nodup {next : α → Option α} {q : Option α} : ∀ {l : List α} {p : Option α},
    Seg next p l q → (∀ a ∈ l, some a ≠ q) → l.Nodup := by
  intro l
  induction l with
  | nil => intro p _ _; exact List.nodup_nil
  | cons a l ih =>
    intro p h hq
    have hq' : ∀ b ∈ l, some b ≠ q := fun b hb => hq b (List.mem_cons_of_mem a hb)
    refine List.nodup_cons.mpr ⟨?_, ih h.2 hq'⟩
    -- from a second visit the same nodes would follow as from the first
    intro ha
    obtain ⟨l₁, l₂, rfl⟩ := List.append_of_mem ha
    obtain ⟨r, -, hr⟩ := seg_append.mp h.2
    have heq := hr.2.unique h.2 (fun b hb => hq' b (by simp [hb])) hq'
    have hlen := congrArg List.length heq
    simp only [List.length_append, List.length_cons] at hlen
    omega

/-! ### Lists that end -/

/-- A head determines the nodes of its list. -/
theorem Linked.unique {next : α → Option α} {l l' : List α} {p : Option α}
    (h : Linked next p l) (h' : Linked next p l') : l = l' :=
  Seg.unique h h' (fun _ _ => Option.some_ne_none _) (fun _ _ => Option.some_ne_none _)

theorem Linked.nodup {next : α → Option α} {l : List α} {p : Option α}
    (h : Linked next p l) : l.Nodup :=
  Seg.nodup h fun _ _ => Option.some_ne_none _

theorem Linked.congr {next next' : α → Option α} {l : List α} {p : Option α}
    (h : Linked next p l) (hl : ∀ a ∈ l, next' a = next a) : Linked next' p l :=
  Seg.congr h hl

theorem Linked.update [DecidableEq α] {next : α → Option α} {l : List α} {p : Option α}
    (h : Linked next p l) {a : α} (ha : a ∉ l) (r : Option α) :
    Linked (Function.update next a r) p l :=
  Seg.update h ha r

/-- The head pointer is the first node. -/
theorem Linked.head_eq {next : α → Option α} {l : List α} {p : Option α}
    (h : Linked next p l) : p = l.head? := by
  cases l with
  | nil => exact h
  | cons a l => exact h.1

theorem Linked.next_last {next : α → Option α} {l : List α} {a : α} {p : Option α}
    (h : Linked next p l) (ha : l.getLast? = some a) : next a = none := by
  obtain ⟨l, rfl⟩ := List.getLast?_eq_some_iff.mp ha
  exact Seg.next_last h

/-- Consecutive nodes are linked. -/
theorem Linked.next_eq {next : α → Option α} {l₁ l₂ : List α} {a b : α} {p : Option α}
    (h : Linked next p (l₁ ++ a :: b :: l₂)) : next a = some b := by
  obtain ⟨r, -, hr⟩ := seg_append.mp h
  exact hr.2.1

/-- A list goes on through each of its nodes. -/
theorem Linked.mem_next {next : α → Option α} {l : List α} {a b : α} {p : Option α}
    (h : Linked next p l) (ha : a ∈ l) (hn : next a = some b) : b ∈ l := by
  obtain ⟨l₁, l₂, rfl⟩ := List.append_of_mem ha
  cases l₂ with
  | nil =>
    rw [h.next_last List.getLast?_concat] at hn
    cases hn
  | cons c l₂ =>
    have hc : c = b := Option.some.inj (h.next_eq.symm.trans hn)
    simp [hc]

/-- **Putting a new node behind the last.** -/
theorem Linked.snoc [DecidableEq α] {next : α → Option α} {l : List α} {a b : α} {p : Option α}
    (h : Linked next p l) (ha : l.getLast? = some a) (hb : b ∉ l) :
    Linked (Function.update (Function.update next a (some b)) b none) p (l ++ [b]) := by
  obtain ⟨l₀, rfl⟩ := List.getLast?_eq_some_iff.mp ha
  have hnd : a ∉ l₀ := by
    have := List.nodup_append.mp h.nodup
    intro hal
    exact this.2.2 a hal a (List.mem_singleton_self a) rfl
  have hba : b ≠ a := fun hba => hb (by simp [hba])
  obtain ⟨r, hr, hra⟩ := seg_append.mp h
  obtain rfl : r = some a := hra.1
  have hbl : b ∉ l₀ := fun hbl => hb (by simp [hbl])
  rw [List.append_assoc]
  refine seg_append.mpr ⟨some a, (hr.update hnd _).update hbl _, rfl, ?_⟩
  rw [Function.update_of_ne (Ne.symm hba), Function.update_self]
  refine ⟨rfl, ?_⟩
  rw [seg_nil, Function.update_self]

/-- **Taking a node out of the middle**: its predecessor takes over its link. -/
theorem Linked.unlink [DecidableEq α] {next : α → Option α} {l₁ l₂ : List α} {a b : α}
    {p : Option α} (h : Linked next p (l₁ ++ a :: b :: l₂)) :
    Linked (Function.update next a (next b)) p (l₁ ++ a :: l₂) := by
  have hnd := h.nodup
  rw [List.nodup_append] at hnd
  obtain ⟨-, hnd, hdis⟩ := hnd
  simp only [List.nodup_cons, List.mem_cons, not_or] at hnd
  obtain ⟨r, hr, rfl, hb, hl⟩ := seg_append.mp h
  have ha : a ∉ l₁ := fun ha => hdis a ha a List.mem_cons_self rfl
  refine seg_append.mpr ⟨some a, hr.update ha _, rfl, ?_⟩
  rw [Function.update_self]
  exact Seg.update hl hnd.1.2 _

/-- The same two facts for any heap that reads as it should: behind the last
node there is a new one. -/
theorem Linked.concat [DecidableEq α] {next next' : α → Option α} {l : List α} {b : α}
    {p : Option α} (h : Linked next p l) (hb : b ∉ l) (hnone : next' b = none)
    (hlast : ∀ a, l.getLast? = some a → next' a = some b)
    (hrest : ∀ a ∈ l, l.getLast? ≠ some a → next' a = next a) :
    Linked next' (p.or (some b)) (l ++ [b]) := by
  rcases l.eq_nil_or_concat' with rfl | ⟨l₀, a, rfl⟩
  · obtain rfl : p = none := h
    exact ⟨rfl, hnone⟩
  have ha : (l₀ ++ [a]).getLast? = some a := List.getLast?_concat
  have hp : p.or (some b) = p := by
    rw [h.head_eq]
    cases l₀ <;> rfl
  rw [hp]
  refine (h.snoc ha hb).congr fun c hc => ?_
  rcases eq_or_ne c b with rfl | hcb
  · rw [Function.update_self, hnone]
  have hcl : c ∈ l₀ ++ [a] := by simpa [hcb] using hc
  rw [Function.update_of_ne hcb]
  rcases eq_or_ne c a with rfl | hca
  · rw [Function.update_self, hlast c ha]
  · rw [Function.update_of_ne hca]
    refine hrest c hcl fun hla => hca ?_
    rw [ha] at hla
    exact (Option.some.inj hla).symm

end Lib
