import Mathlib.Data.List.Induction
import Mathlib.Data.List.Perm.Basic
import Mathlib.Logic.Function.Basic

/-!
# Lists of entries with distinct keys

A list whose entries have distinct keys is a finite map.  Three edits keep it one: an entry
is replaced by one of its key, an entry of a new key is appended, and an entry is erased by
moving the last one into its place.  Each is an update of the map at one key.

## Main definitions

* `lookup key l k` — the entry of the key `k`.
* `swapErase l i` — the list without its entry `i`, in whose place the last one is.

## Main results

* `lookup_set`, `lookup_concat`, `lookup_swapErase` — what each edit is to the map.
-/

namespace Lib

variable {α κ : Type*} {key : α → κ} {l l' : List α}

/-- An entry and the others. -/
theorem perm_cons_eraseIdx {i : ℕ} (hi : i < l.length) : l.Perm (l[i] :: l.eraseIdx i) :=
  (List.getElem_cons_eraseIdx_perm hi).symm

/-- Without an entry its key is free. -/
theorem notMem_eraseIdx (hl : (l.map key).Nodup) {i : ℕ} (hi : i < l.length) :
    key l[i] ∉ (l.eraseIdx i).map key ∧ ((l.eraseIdx i).map key).Nodup := by
  have hnd := ((perm_cons_eraseIdx hi).map key).nodup_iff.mp hl
  rwa [List.map_cons, List.nodup_cons] at hnd

/-! ### The map -/

variable [DecidableEq κ]

/-- The first entry of the key `k`. -/
def lookup (key : α → κ) (l : List α) (k : κ) : Option α := l.find? fun a => key a = k

theorem lookup_eq_none {k : κ} : lookup key l k = none ↔ k ∉ l.map key := by
  simp [lookup]

theorem lookup_cons (a : α) (l : List α) :
    lookup key (a :: l) = Function.update (lookup key l) (key a) (some a) := by
  funext k
  unfold lookup
  rw [List.find?_cons]
  by_cases hk : k = key a
  · rw [hk, Function.update_self]
    simp
  · rw [Function.update_of_ne hk]
    simp [Ne.symm hk]

/-- The entry of a key is the one entry that has it. -/
theorem lookup_eq_some (hl : (l.map key).Nodup) {k : κ} {a : α} :
    lookup key l k = some a ↔ a ∈ l ∧ key a = k := by
  induction l with
  | nil => simp [lookup]
  | cons b l ih =>
    rw [List.map_cons, List.nodup_cons] at hl
    rw [lookup_cons, List.mem_cons]
    by_cases hk : k = key b
    · -- no entry behind `b` has its key
      have hfree : ∀ a ∈ l, key a ≠ key b := by
        intro a ha hab
        exact hl.1 (hab ▸ List.mem_map_of_mem ha)
      rw [hk, Function.update_self, Option.some.injEq]
      constructor
      · rintro rfl
        exact ⟨.inl rfl, rfl⟩
      · rintro ⟨rfl | ha, hab⟩
        · rfl
        · exact absurd hab (hfree a ha)
    · rw [Function.update_of_ne hk, ih hl.2]
      constructor
      · rintro ⟨ha, hak⟩
        exact ⟨.inr ha, hak⟩
      · rintro ⟨rfl | ha, hak⟩
        · exact absurd hak.symm hk
        · exact ⟨ha, hak⟩

/-- The order of the entries does not matter. -/
theorem lookup_perm (hl : (l.map key).Nodup) (hp : l.Perm l') : lookup key l = lookup key l' := by
  funext k
  have hl' : (l'.map key).Nodup := (hp.map key).nodup_iff.mp hl
  ext a
  rw [lookup_eq_some hl, lookup_eq_some hl', hp.mem_iff]

/-! ### The edits -/

/-- Replacing the entry of a key. -/
theorem lookup_set (hl : (l.map key).Nodup) {i : ℕ} (hi : i < l.length) {a : α}
    (ha : key a = key l[i]) :
    ((l.set i a).map key).Nodup ∧
      lookup key (l.set i a) = Function.update (lookup key l) (key a) (some a) := by
  have hperm := List.set_perm_cons_eraseIdx hi a
  have hnd : ((l.set i a).map key).Nodup := by
    rw [(hperm.map key).nodup_iff, List.map_cons, List.nodup_cons, ha]
    exact notMem_eraseIdx hl hi
  refine ⟨hnd, ?_⟩
  rw [lookup_perm hnd hperm, lookup_perm hl (perm_cons_eraseIdx hi), lookup_cons, lookup_cons,
    ← ha, Function.update_idem]

/-- Appending an entry of a new key. -/
theorem lookup_concat (hl : (l.map key).Nodup) {a : α} (ha : key a ∉ l.map key) :
    ((l ++ [a]).map key).Nodup ∧
      lookup key (l ++ [a]) = Function.update (lookup key l) (key a) (some a) := by
  have hperm : (l ++ [a]).Perm (a :: l) := List.perm_append_singleton a l
  have hnd : ((l ++ [a]).map key).Nodup := by
    rw [(hperm.map key).nodup_iff, List.map_cons, List.nodup_cons]
    exact ⟨ha, hl⟩
  exact ⟨hnd, by rw [lookup_perm hnd hperm, lookup_cons]⟩

/-- The list without its entry `i`, in whose place the last one is. -/
def swapErase (l : List α) (i : ℕ) : List α :=
  match l.getLast? with
  | some a => (l.set i a).dropLast
  | none => []

theorem swapErase_concat (l : List α) (a : α) (i : ℕ) :
    swapErase (l ++ [a]) i = if i < l.length then l.set i a else l := by
  unfold swapErase
  rw [List.getLast?_concat]
  dsimp only
  split_ifs with hi
  · rw [List.set_append_left i a hi, List.dropLast_concat]
  · rw [List.set_append_right i a (Nat.le_of_not_lt hi)]
    cases i - l.length <;> simp

/-- Up to their order these are the other entries. -/
theorem swapErase_perm {i : ℕ} (hi : i < l.length) : (swapErase l i).Perm (l.eraseIdx i) := by
  induction l using List.reverseRecOn with
  | nil => simp at hi
  | append_singleton l a =>
    rw [swapErase_concat]
    split_ifs with hlt
    · rw [List.eraseIdx_append_of_lt_length hlt]
      exact (List.set_perm_cons_eraseIdx hlt a).trans (List.perm_append_singleton a _).symm
    · -- the last entry is erased itself
      have hlast : i = l.length := by
        rw [List.length_append, List.length_singleton] at hi
        omega
      rw [hlast, List.eraseIdx_append_of_length_le (Nat.le_refl _), Nat.sub_self]
      simp

/-- Erasing an entry. -/
theorem lookup_swapErase (hl : (l.map key).Nodup) {i : ℕ} (hi : i < l.length) :
    ((swapErase l i).map key).Nodup ∧
      lookup key (swapErase l i) = Function.update (lookup key l) (key l[i]) none := by
  have hperm := swapErase_perm hi
  obtain ⟨hfree, hrest⟩ := notMem_eraseIdx hl hi
  have hnd : ((swapErase l i).map key).Nodup := (hperm.map key).nodup_iff.mpr hrest
  refine ⟨hnd, ?_⟩
  rw [lookup_perm hnd hperm, lookup_perm hl (perm_cons_eraseIdx hi), lookup_cons,
    Function.update_idem, ← lookup_eq_none.mpr hfree, Function.update_eq_self]

end Lib
