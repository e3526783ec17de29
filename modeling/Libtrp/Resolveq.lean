import Mathlib.Data.List.Basic
import Libtrp.Core
import Libtrp.Lib.Linked
import Libtrp.Lib.Run

/-!
# The resolve queue

The connections whose destination the packet interface is resolving, in an array
that is indexed by the keys the interface is given.  Slots that are not in use
form a list through the array.  The array is given back when the last
connection leaves.

What it is for is a table: a key that was returned stands for a connection until it is
popped.

## Main definitions

* `resolveqPut`, `resolveqPop`, `resolveqDel` — the operations.
* `Resolveq.slot` — what the slot of a key holds, when it is in use.
* `ResolveqRep q l` — the slots of `l` are the free ones, in order.
* `ResolveqState` — the queue beside the keys that are outstanding.

## Main results

* `ResolveqRep.put`, `ResolveqRep.pop`, `ResolveqRep.del` — what the operations do to the
  slots.
* `resolveq_refines` — **the queue is a table of the outstanding keys.**

## References

`src/resolveq.c`, `src/resolveq.h`.
-/

namespace Libtrp

open Lib

/-- `resolveq_union_t`.  The flag `inuse` says which half of the union is in
use: the data of a slot in use, or the link of a free one. -/
inductive ResolveqUnion
  | data (c : Option Ptr)
  | next (i : Option ℕ)
  deriving DecidableEq, Repr

/-- `resolveq_t`.  The length of the array is its field `len`. -/
structure Resolveq where
  size : ℤ
  map : List ResolveqUnion
  free : Option ℕ
  deriving DecidableEq, Repr, Inhabited

/-- `resolveq_init` -/
def resolveqInit : Resolveq := ⟨0, [], none⟩

/-- `resolveq_clear` -/
def resolveqClear (_ : Resolveq) : Resolveq := resolveqInit

/-- `_enqueue` -/
def resolveqEnqueue (q : Resolveq) (i : ℕ) : Resolveq :=
  { q with map := q.map.set i (.next q.free), free := some i }

/-- `_grow` -/
def resolveqGrow (q : Resolveq) (alloc : Bool) : Resolveq :=
  if alloc then resolveqEnqueue { q with map := q.map ++ [.next none] } q.map.length else q

/-- The link of slot `i`. -/
def Resolveq.link (q : Resolveq) (i : ℕ) : Option ℕ :=
  match q.map[i]? with
  | some (.next n) => n
  | _ => none

/-- `_check_size` -/
def resolveqCheckSize (q : Resolveq) : Resolveq := if q.size = 0 then resolveqClear q else q

/-- `resolveq_put`: the key, or `-1`. -/
def resolveqPut (q : Resolveq) (c : Ptr) (alloc : Bool) : ℤ × Resolveq :=
  let q := if q.free.isNone then resolveqGrow q alloc else q
  match q.free with
  | none => (-1, q)
  | some i => (i, ⟨q.size + 1, q.map.set i (.data (some c)), q.link i⟩)

/-- `resolveq_pop`.  A negative key reads before the array. -/
def resolveqPop (q : Resolveq) (key : ℤ) : Option (Option Ptr × Resolveq) :=
  if key < q.map.length then
    if key < 0 then none
    else
      match q.map[key.toNat]? with
      | some (.data c) =>
        let q := resolveqEnqueue q key.toNat
        some (c, resolveqCheckSize { q with size := q.size - 1 })
      | _ => some (none, resolveqCheckSize q)
  else some (none, q)

/-- `resolveq_del`.  A negative key reads before the array. -/
def resolveqDel (q : Resolveq) (key : ℤ) : Option Resolveq :=
  if key < q.map.length then
    if key < 0 then none
    else
      match q.map[key.toNat]? with
      | some (.data _) => some { q with map := q.map.set key.toNat (.data none) }
      | _ => some q
  else some q

/-! ### The slots -/

namespace ResolveqUnion

/-- The data of a slot in use. -/
def data? : ResolveqUnion → Option (Option Ptr)
  | data c => some c
  | next _ => none

/-- The flag of the slot. -/
def inuse (u : ResolveqUnion) : Bool := u.data?.isSome

end ResolveqUnion

/-- What the slot of `key` holds, when it is in use. -/
def Resolveq.slot (q : Resolveq) (key : ℤ) : Option (Option Ptr) :=
  if key < 0 then none else q.map[key.toNat]?.bind ResolveqUnion.data?

/-- The slots of `l` are the free ones, in order, and the size is the number of those in
use. -/
structure ResolveqRep (q : Resolveq) (l : List ℕ) : Prop where
  free : Linked q.link q.free l
  unused : ∀ i, i ∈ l ↔ ∃ n, q.map[i]? = some (.next n)
  size : q.size = q.map.countP ResolveqUnion.inuse

theorem resolveqRep_init : ResolveqRep resolveqInit [] where
  free := rfl
  unused := fun i => iff_of_false List.not_mem_nil (by simp [resolveqInit])
  size := rfl

namespace Resolveq

variable {q : Resolveq} {c : Ptr}

theorem slot_eq_some {key : ℤ} {d : Option Ptr} :
    q.slot key = some d ↔ ∃ i : ℕ, key = i ∧ q.map[i]? = some (.data d) := by
  unfold slot
  constructor
  · intro h
    split_ifs at h with hneg
    obtain ⟨u, hu, hd⟩ := Option.bind_eq_some_iff.mp h
    cases u with
    | data e =>
      obtain rfl : e = d := Option.some.inj hd
      exact ⟨key.toNat, by omega, hu⟩
    | next n => exact nomatch hd
  · rintro ⟨i, rfl, hi⟩
    rw [if_neg (by omega), Int.toNat_natCast, hi]
    rfl

/-- A write to a slot. -/
theorem slot_set (map : List ResolveqUnion) {i : ℕ} (hi : i < map.length) (u : ResolveqUnion)
    (size size' : ℤ) (free free' : Option ℕ) (key : ℤ) :
    slot ⟨size', map.set i u, free'⟩ key =
      if key = i then u.data? else slot ⟨size, map, free⟩ key := by
  unfold slot
  by_cases hneg : key < 0
  · rw [if_pos hneg, if_pos hneg, if_neg (by omega)]
  · rw [if_neg hneg, if_neg hneg, List.getElem?_set]
    by_cases hkey : key = i
    · subst hkey
      simp [hi]
    · rw [if_neg (by omega), if_neg hkey]

/-- Appending a slot that is not in use. -/
theorem slot_append (map : List ResolveqUnion) (n : Option ℕ) (size size' : ℤ)
    (free free' : Option ℕ) (key : ℤ) :
    slot ⟨size', map ++ [.next n], free'⟩ key = slot ⟨size, map, free⟩ key := by
  unfold slot
  by_cases hneg : key < 0
  · rw [if_pos hneg, if_pos hneg]
  · rw [if_neg hneg, if_neg hneg]
    rcases lt_trichotomy key.toNat map.length with hlt | heq | hgt
    · rw [List.getElem?_append_left hlt]
    · simp [heq, ResolveqUnion.data?]
    · have hlen : (map ++ [ResolveqUnion.next n]).length ≤ key.toNat := by
        rw [List.length_append, List.length_singleton]
        omega
      rw [List.getElem?_eq_none hlen, List.getElem?_eq_none (Nat.le_of_lt hgt)]

/-- A write to a slot leaves the links of the others. -/
theorem link_set {map : List ResolveqUnion} {i : ℕ} {l : List ℕ} (hi : i ∉ l) (u : ResolveqUnion)
    {size : ℤ} (size' : ℤ) {free p : Option ℕ} (free' : Option ℕ)
    (hl : Linked (link ⟨size, map, free⟩) p l) : Linked (link ⟨size', map.set i u, free'⟩) p l := by
  refine hl.congr fun j hj => ?_
  unfold link
  rw [List.getElem?_set_ne (ne_of_mem_of_not_mem hj hi).symm]

/-- A slot in use holds the connection. -/
def Has (q : Resolveq) (d : Ptr) : Prop := .data (some d) ∈ q.map

theorem not_has_init (d : Ptr) : ¬ Has resolveqInit d := List.not_mem_nil

variable {d : Ptr}

theorem Has.of_enqueue {i : ℕ} (h : (resolveqEnqueue q i).Has d) : q.Has d :=
  (List.mem_or_eq_of_mem_set h).resolve_right nofun

theorem Has.of_grow {alloc : Bool} (h : (resolveqGrow q alloc).Has d) : q.Has d := by
  unfold resolveqGrow at h
  split at h
  · have happend : Has { q with map := q.map ++ [.next none] } d := h.of_enqueue
    rcases List.mem_append.mp happend with h | h
    · exact h
    · exact absurd (List.mem_singleton.mp h) nofun
  · exact h

theorem Has.of_checkSize (h : (resolveqCheckSize q).Has d) : q.Has d := by
  unfold resolveqCheckSize at h
  split at h
  · exact absurd h (not_has_init d)
  · exact h

/-- A put puts in the connection that is put. -/
theorem Has.of_put {alloc : Bool} (h : (resolveqPut q c alloc).2.Has d) : q.Has d ∨ d = c := by
  unfold resolveqPut at h
  have hgrow : (if q.free.isNone then resolveqGrow q alloc else q).Has d → q.Has d := by
    intro h
    split at h
    · exact h.of_grow
    · exact h
  generalize (if q.free.isNone then resolveqGrow q alloc else q) = q' at h hgrow
  dsimp only at h
  cases hfree : q'.free with
  | none =>
    rw [hfree] at h
    exact Or.inl (hgrow h)
  | some i =>
    rw [hfree] at h
    rcases List.mem_or_eq_of_mem_set h with h | h
    · exact Or.inl (hgrow h)
    · exact Or.inr (Option.some.inj (ResolveqUnion.data.inj h))

/-- What a pop returns was in the queue, and nothing is new in it. -/
theorem has_of_pop {key : ℤ} {e : Option Ptr} {q' : Resolveq}
    (h : resolveqPop q key = some (e, q')) : (∀ d ∈ e, q.Has d) ∧ ∀ d, q'.Has d → q.Has d := by
  unfold resolveqPop at h
  split_ifs at h with hlt hneg
  · split at h
    · next c hget =>
      obtain ⟨rfl, rfl⟩ : c = e ∧ _ := by simpa using h
      refine ⟨?_, fun d hd => hd.of_checkSize.of_enqueue⟩
      rintro d rfl
      exact List.mem_of_getElem? hget
    · obtain ⟨rfl, rfl⟩ : none = e ∧ _ := by simpa using h
      exact ⟨nofun, fun d hd => hd.of_checkSize⟩
  · obtain ⟨rfl, rfl⟩ : none = e ∧ q = q' := by simpa using h
    exact ⟨nofun, fun d hd => hd⟩

/-- A deletion puts nothing in. -/
theorem Has.of_del {key : ℤ} {q' : Resolveq} (h : resolveqDel q key = some q') (hd : q'.Has d) :
    q.Has d := by
  unfold resolveqDel at h
  split_ifs at h
  · split at h
    · obtain rfl := Option.some.inj h
      exact (List.mem_or_eq_of_mem_set hd).resolve_right nofun
    · obtain rfl := Option.some.inj h
      exact hd
  · obtain rfl := Option.some.inj h
    exact hd

/-- Without a free slot and the memory for one a put leaves the queue alone. -/
theorem put_fails {alloc : Bool} (h : q.free = none ∧ alloc = false) (c : Ptr) :
    resolveqPut q c alloc = (-1, q) := by
  obtain ⟨hfree, rfl⟩ := h
  simp [resolveqPut, resolveqGrow, hfree]

/-- Otherwise there is one connection more in it. -/
theorem put_size {alloc : Bool} (h : ¬ (q.free = none ∧ alloc = false)) (c : Ptr) :
    (resolveqPut q c alloc).2.size = q.size + 1 := by
  cases hfree : q.free with
  | some i => simp [resolveqPut, hfree]
  | none =>
    have halloc : alloc = true := by simpa [hfree] using h
    simp [resolveqPut, resolveqGrow, resolveqEnqueue, hfree, halloc]

end Resolveq

namespace ResolveqRep

variable {q : Resolveq} {l : List ℕ} {c : Ptr}

/-- A slot that is in use is not free. -/
theorem not_mem (hq : ResolveqRep q l) {i : ℕ} {d : Option Ptr}
    (hi : q.map[i]? = some (.data d)) : i ∉ l := by
  intro h
  obtain ⟨n, hn⟩ := (hq.unused i).mp h
  exact nomatch hn.symm.trans hi

/-- A free slot is not in use. -/
theorem slot_of_mem (hq : ResolveqRep q l) {i : ℕ} (hi : i ∈ l) : q.slot i = none := by
  cases hs : q.slot i with
  | none => rfl
  | some d =>
    obtain ⟨j, hj, hd⟩ := Resolveq.slot_eq_some.mp hs
    obtain rfl : i = j := by omega
    exact absurd hi (hq.not_mem hd)

/-- There is a free slot, or there is no memory for one. -/
theorem grow (hq : ResolveqRep q l) (alloc : Bool) :
    ((if q.free.isNone then resolveqGrow q alloc else q) = q ∧ q.free = none ∧ alloc = false) ∨
      ∃ i l', ResolveqRep (if q.free.isNone then resolveqGrow q alloc else q) (i :: l') ∧
        (if q.free.isNone then resolveqGrow q alloc else q).size = q.size ∧ ∀ k,
          (if q.free.isNone then resolveqGrow q alloc else q).slot k = q.slot k := by
  cases l with
  | cons i l =>
    have hfree : q.free = some i := hq.free.1
    rw [hfree, if_neg (by simp)]
    exact Or.inr ⟨i, l, hq, rfl, fun _ => rfl⟩
  | nil =>
    have hfree : q.free = none := hq.free
    rw [hfree, Option.isNone_none, if_pos rfl]
    cases alloc with
    | false => exact Or.inl ⟨rfl, rfl, rfl⟩
    | true =>
      -- a slot is appended, and it is the only free one
      have hlen : (q.map ++ [ResolveqUnion.next none]).set q.map.length (.next none) =
          q.map ++ [.next none] := by
        rw [List.set_append_right _ _ le_rfl, Nat.sub_self]
        rfl
      have hgrow : resolveqGrow q true =
          ⟨q.size, q.map ++ [.next none], some q.map.length⟩ := by
        unfold resolveqGrow resolveqEnqueue
        rw [if_pos rfl, hfree, hlen]
      rw [hgrow]
      refine Or.inr ⟨q.map.length, [], ⟨⟨rfl, ?_⟩, fun j => ?_, ?_⟩, rfl,
        fun k => Resolveq.slot_append _ _ _ _ _ _ k⟩
      · simp [Resolveq.link]
      · rw [List.mem_singleton]
        constructor
        · rintro rfl
          exact ⟨none, by simp⟩
        · rintro ⟨n, hn⟩
          rcases lt_trichotomy j q.map.length with hlt | heq | hgt
          · rw [List.getElem?_append_left hlt] at hn
            exact absurd ((hq.unused j).mpr ⟨n, hn⟩) List.not_mem_nil
          · exact heq
          · rw [List.getElem?_eq_none (by simp; omega)] at hn
            cases hn
      · rw [hq.size, List.countP_append]
        rfl

/-- **A put** takes a slot that was not in use, if there is memory for one. -/
theorem put (hq : ResolveqRep q l) (c : Ptr) (alloc : Bool) :
    (resolveqPut q c alloc = (-1, q) ∧ alloc = false) ∨
      ∃ l', ResolveqRep (resolveqPut q c alloc).2 l' ∧ 0 ≤ (resolveqPut q c alloc).1 ∧
        (resolveqPut q c alloc).2.size = q.size + 1 ∧ q.slot (resolveqPut q c alloc).1 = none ∧
        ∀ k, (resolveqPut q c alloc).2.slot k =
          if k = (resolveqPut q c alloc).1 then some (some c) else q.slot k := by
  have hgrow := hq.grow alloc
  unfold resolveqPut
  generalize (if q.free.isNone then resolveqGrow q alloc else q) = q' at hgrow
  rcases hgrow with ⟨rfl, hfree, halloc⟩ | ⟨i, l', hrep, hsize, hslot⟩
  · refine Or.inl ⟨?_, halloc⟩
    simp only [hfree]
  · have hfree : q'.free = some i := hrep.free.1
    obtain ⟨n, hn⟩ := (hrep.unused i).mp List.mem_cons_self
    have hi : i < q'.map.length := (List.getElem?_eq_some_iff.mp hn).1
    have hnot : i ∉ l' := (List.nodup_cons.mp hrep.free.nodup).1
    simp only [hfree]
    refine Or.inr ⟨l', ⟨?_, fun j => ?_, ?_⟩, Int.natCast_nonneg i, ?_, ?_, fun k => ?_⟩
    · exact Resolveq.link_set hnot _ _ _ hrep.free.2
    · rw [List.getElem?_set]
      by_cases hij : i = j
      · subst hij
        simp [hnot, hi]
      · rw [if_neg hij, ← hrep.unused j, List.mem_cons, or_iff_right (Ne.symm hij)]
    · rw [List.countP_set hi, (List.getElem?_eq_some_iff.mp hn).2, hrep.size]
      simp [ResolveqUnion.inuse, ResolveqUnion.data?]
    · rw [← hsize]
    · rw [← hslot]
      exact hrep.slot_of_mem List.mem_cons_self
    · rw [Resolveq.slot_set q'.map hi _ q'.size _ q'.free, ← hslot]
      rfl

/-- Giving the array back when no slot is in use takes nothing out. -/
theorem checkSize (hq : ResolveqRep q l) : ∃ l', ResolveqRep (resolveqCheckSize q) l' ∧
    (resolveqCheckSize q).size = q.size ∧ ∀ k, (resolveqCheckSize q).slot k = q.slot k := by
  unfold resolveqCheckSize
  split
  · next hzero =>
    refine ⟨[], resolveqRep_init, hzero.symm, fun k => ?_⟩
    cases hk : q.slot k with
    | none => simp [resolveqClear, resolveqInit, Resolveq.slot]
    | some e =>
      obtain ⟨j, -, hj⟩ := Resolveq.slot_eq_some.mp hk
      have hpos : 0 < q.map.countP ResolveqUnion.inuse :=
        List.countP_pos_iff.mpr ⟨_, List.mem_of_getElem? hj, rfl⟩
      have hsize := hq.size
      omega
  · exact ⟨l, hq, rfl, fun _ => rfl⟩

/-- **A pop** of a slot in use gives it back. -/
theorem pop (hq : ResolveqRep q l) {key : ℤ} {d : Option Ptr} (hkey : q.slot key = some d) :
    ∃ q' l', resolveqPop q key = some (d, q') ∧ ResolveqRep q' l' ∧ q'.size = q.size - 1 ∧
      ∀ k, q'.slot k = if k = key then none else q.slot k := by
  obtain ⟨i, rfl, hd⟩ := Resolveq.slot_eq_some.mp hkey
  have hi : i < q.map.length := (List.getElem?_eq_some_iff.mp hd).1
  have hnot := hq.not_mem hd
  have hpop : resolveqPop q i = some (d, resolveqCheckSize
      ⟨q.size - 1, q.map.set i (.next q.free), some i⟩) := by
    unfold resolveqPop
    rw [if_pos (by exact_mod_cast hi), if_neg (by omega), Int.toNat_natCast, hd]
    rfl
  have hrep : ResolveqRep ⟨q.size - 1, q.map.set i (.next q.free), some i⟩ (i :: l) := by
    refine ⟨⟨rfl, ?_⟩, fun j => ?_, ?_⟩
    · have hlink : Resolveq.link ⟨q.size - 1, q.map.set i (.next q.free), some i⟩ i = q.free := by
        simp [Resolveq.link, hi]
      rw [hlink]
      exact Resolveq.link_set hnot _ _ _ hq.free
    · rw [List.getElem?_set, List.mem_cons]
      by_cases hij : i = j
      · subst hij
        simp [hi]
      · rw [if_neg hij, ← hq.unused j, or_iff_right (Ne.symm hij)]
    · have hmem : 0 < q.map.countP ResolveqUnion.inuse :=
        List.countP_pos_iff.mpr ⟨_, List.mem_of_getElem? hd, rfl⟩
      rw [List.countP_set hi, (List.getElem?_eq_some_iff.mp hd).2, hq.size]
      simp [ResolveqUnion.inuse, ResolveqUnion.data?]
      omega
  obtain ⟨l', hrep', hsize, hslot⟩ := hrep.checkSize
  refine ⟨_, l', hpop, hrep', hsize, fun k => ?_⟩
  rw [hslot]
  exact Resolveq.slot_set q.map hi _ q.size _ q.free _ k

/-- A pop of a slot that is not in use takes nothing out. -/
theorem pop_unused (hq : ResolveqRep q l) {key : ℤ} (hpos : 0 ≤ key) (hkey : q.slot key = none) :
    ∃ q' l', resolveqPop q key = some (none, q') ∧ ResolveqRep q' l' ∧ q'.size = q.size ∧
      ∀ k, q'.slot k = q.slot k := by
  unfold resolveqPop
  rw [if_neg (Int.not_lt.mpr hpos)]
  split
  · split
    · next d hd =>
      have hd := Resolveq.slot_eq_some.mpr ⟨key.toNat, (Int.toNat_of_nonneg hpos).symm, hd⟩
      exact nomatch hkey.symm.trans hd
    · obtain ⟨l', hrep, hsize, hslot⟩ := hq.checkSize
      exact ⟨_, l', rfl, hrep, hsize, hslot⟩
  · exact ⟨q, l, rfl, hq, rfl, fun _ => rfl⟩

/-- **A deletion** leaves the slot in use. -/
theorem del (hq : ResolveqRep q l) {key : ℤ} {d : Option Ptr} (hkey : q.slot key = some d) :
    ∃ q', resolveqDel q key = some q' ∧ ResolveqRep q' l ∧ q'.size = q.size ∧
      ∀ k, q'.slot k = if k = key then some none else q.slot k := by
  obtain ⟨i, rfl, hd⟩ := Resolveq.slot_eq_some.mp hkey
  have hi : i < q.map.length := (List.getElem?_eq_some_iff.mp hd).1
  have hnot := hq.not_mem hd
  have hdel : resolveqDel q i = some ⟨q.size, q.map.set i (.data none), q.free⟩ := by
    unfold resolveqDel
    rw [if_pos (by exact_mod_cast hi), if_neg (by omega), Int.toNat_natCast, hd]
  refine ⟨_, hdel, ⟨Resolveq.link_set hnot _ _ _ hq.free, fun j => ?_, ?_⟩, rfl, fun k => ?_⟩
  · rw [List.getElem?_set]
    by_cases hij : i = j
    · subst hij
      simp [hnot, hi]
    · rw [if_neg hij, ← hq.unused j]
  · have hmem : 0 < q.map.countP ResolveqUnion.inuse :=
      List.countP_pos_iff.mpr ⟨_, List.mem_of_getElem? hd, rfl⟩
    rw [List.countP_set hi, (List.getElem?_eq_some_iff.mp hd).2, hq.size]
    simp [ResolveqUnion.inuse, ResolveqUnion.data?]
    omega
  · exact Resolveq.slot_set q.map hi _ q.size _ q.free _ k

end ResolveqRep

/-- A deletion of a slot that is not in use changes nothing. -/
theorem resolveqDel_unused {q : Resolveq} {key : ℤ} (hpos : 0 ≤ key) (hkey : q.slot key = none) :
    resolveqDel q key = some q := by
  unfold resolveqDel
  rw [if_neg (Int.not_lt.mpr hpos)]
  split
  · split
    · next d hd =>
      have hd := Resolveq.slot_eq_some.mpr ⟨key.toNat, (Int.toNat_of_nonneg hpos).symm, hd⟩
      exact nomatch hkey.symm.trans hd
    · rfl
  · rfl

/-! ### Runs -/

/-- The queue beside the keys that are outstanding, each with what it stands for, and all
keys that were returned so far. -/
structure ResolveqState where
  q : Resolveq
  out : List (ℤ × Option Ptr)
  issued : List ℤ
  deriving DecidableEq

/-- The keys that are outstanding. -/
def ResolveqState.keys (s : ResolveqState) : List ℤ := s.out.map Prod.fst

/-- A call. -/
inductive ResolveqOp
  | put (c : Ptr) (alloc : Bool)
  | pop (key : ℤ)
  | del (key : ℤ)
  deriving DecidableEq, Repr

/-- One call, and what it is to the keys. -/
def ResolveqOp.run (op : ResolveqOp) (s : ResolveqState) : ResolveqState :=
  match op with
  | .put c alloc =>
    let (key, q) := resolveqPut s.q c alloc
    if key = -1 then ⟨q, s.out, s.issued⟩ else ⟨q, (key, some c) :: s.out, key :: s.issued⟩
  | .pop key =>
    ⟨((resolveqPop s.q key).map Prod.snd).getD s.q, s.out.filter fun p => p.1 ≠ key, s.issued⟩
  | .del key =>
    ⟨(resolveqDel s.q key).getD s.q, s.out.map fun p => if p.1 = key then (key, none) else p,
      s.issued⟩

/-- A key is one that a put has returned. -/
def ResolveqOp.Legal (s : ResolveqState) : ResolveqOp → Prop
  | .put _ _ => True
  | .pop key | .del key => key ∈ s.issued

instance (s : ResolveqState) (op : ResolveqOp) : Decidable (op.Legal s) := by
  cases op <;> unfold ResolveqOp.Legal <;> infer_instance

def ResolveqStep (s : ResolveqState) (op : ResolveqOp) (t : ResolveqState) : Prop :=
  t = op.run s ∧ op.Legal s

/-- An empty queue. -/
def ResolveqState.init : ResolveqState := ⟨resolveqInit, [], []⟩

/-- A key stands for what a pop of it returns.  The keys that are outstanding are those of
the slots in use, and the free list is made of the others; when it is empty, and the array
can be moved, nothing points into the array. -/
structure ResolveqGood (s : ResolveqState) : Prop where
  nodup : s.keys.Nodup
  yields : ∀ key d, (key, d) ∈ s.out → ∃ q, resolveqPop s.q key = some (d, q)
  size : s.q.size = s.keys.length
  inuse : ∀ (i : ℕ) u, s.q.map[i]? = some u → (u.inuse = true ↔ (i : ℤ) ∈ s.keys)
  free : ∃ l, Linked s.q.link s.q.free l ∧ l.Nodup ∧
    ∀ i, i ∈ l ↔ ∃ u, s.q.map[i]? = some u ∧ u.inuse = false
  moved : s.q.free = none → ∀ u ∈ s.q.map, u.inuse = true

/-- A put that fails had no memory and changes nothing, and its key was not outstanding
otherwise.  A pop returns what its key stands for, if the key is outstanding, and frees
the slot.  No call reads outside the array. -/
def ResolveqOk (s : ResolveqState) (op : ResolveqOp) (t : ResolveqState) : Prop :=
  match op with
  | .put c alloc =>
    let key := (resolveqPut s.q c alloc).1
    (key = -1 ∧ alloc = false ∧ t = s) ∨ (0 ≤ key ∧ key ∉ s.keys ∧ t.q.slot key = some (some c))
  | .pop key =>
    ∃ r, resolveqPop s.q key = some (r, t.q) ∧ (∀ d, (key, d) ∈ s.out → r = d) ∧
      (key ∉ s.keys → r = none) ∧ t.q.slot key = none
  | .del key => resolveqDel s.q key = some t.q

/-- The invariant: the slots in use are the outstanding keys. -/
structure ResolveqInv (s : ResolveqState) (l : List ℕ) : Prop where
  rep : ResolveqRep s.q l
  slot : ∀ key d, s.q.slot key = some d ↔ (key, d) ∈ s.out
  nodup : s.keys.Nodup
  size : s.q.size = s.keys.length
  issued : ∀ key ∈ s.issued, 0 ≤ key

theorem resolveqInv_init : ResolveqInv .init [] where
  rep := resolveqRep_init
  slot := fun key d => iff_of_false (by simp [Resolveq.slot, ResolveqState.init, resolveqInit])
    List.not_mem_nil
  nodup := List.nodup_nil
  size := rfl
  issued := nofun

namespace ResolveqInv

variable {s : ResolveqState} {l : List ℕ}

theorem slot_eq_none (hs : ResolveqInv s l) {key : ℤ} : s.q.slot key = none ↔ key ∉ s.keys := by
  rw [← not_iff_not, not_not, ResolveqState.keys, List.mem_map]
  constructor
  · intro h
    obtain ⟨d, hd⟩ := Option.ne_none_iff_exists'.mp h
    exact ⟨(key, d), (hs.slot key d).mp hd, rfl⟩
  · rintro ⟨⟨k, d⟩, hd, rfl⟩
    rw [(hs.slot k d).mpr hd]
    exact Option.some_ne_none d

theorem good (hs : ResolveqInv s l) : ResolveqGood s where
  nodup := hs.nodup
  yields := fun key d hd => by
    obtain ⟨q, -, hpop, -⟩ := hs.rep.pop ((hs.slot key d).mpr hd)
    exact ⟨q, hpop⟩
  size := hs.size
  inuse := fun i u hu => by
    cases u with
    | data d =>
      have hd : s.q.slot i = some d := Resolveq.slot_eq_some.mpr ⟨i, rfl, hu⟩
      exact iff_of_true rfl (List.mem_map_of_mem ((hs.slot i d).mp hd))
    | next n =>
      have hfree := hs.rep.slot_of_mem ((hs.rep.unused i).mpr ⟨n, hu⟩)
      exact iff_of_false Bool.false_ne_true (hs.slot_eq_none.mp hfree)
  free := by
    refine ⟨l, hs.rep.free, hs.rep.free.nodup, fun i => (hs.rep.unused i).trans ?_⟩
    constructor
    · rintro ⟨n, hn⟩
      exact ⟨_, hn, rfl⟩
    · rintro ⟨u, hu, hfree⟩
      cases u with
      | data d => exact nomatch hfree
      | next n => exact ⟨n, hu⟩
  moved := fun hnone u hu => by
    have hfree := hs.rep.free
    cases l with
    | cons i l => exact nomatch hnone.symm.trans hfree.1
    | nil =>
      cases u with
      | data d => rfl
      | next n =>
        obtain ⟨i, hi⟩ := List.mem_iff_getElem?.mp hu
        exact absurd ((hs.rep.unused i).mpr ⟨n, hi⟩) List.not_mem_nil

theorem put (hs : ResolveqInv s l) (c : Ptr) (alloc : Bool) :
    ResolveqOk s (.put c alloc) ((ResolveqOp.put c alloc).run s) ∧
      ∃ l', ResolveqInv ((ResolveqOp.put c alloc).run s) l' := by
  simp only [ResolveqOk, ResolveqOp.run]
  rcases hput : resolveqPut s.q c alloc with ⟨key, q⟩
  have hput := hput ▸ hs.rep.put c alloc
  dsimp only at hput ⊢
  rcases hput with ⟨hp, halloc⟩ | ⟨l', hrep, hpos, hsize, hfree, hslot⟩
  · obtain ⟨rfl, rfl⟩ := Prod.mk.inj hp
    rw [if_pos rfl]
    exact ⟨Or.inl ⟨rfl, halloc, rfl⟩, l, hs⟩
  · have hkey : key ∉ s.keys := hs.slot_eq_none.mp hfree
    rw [if_neg (by omega)]
    refine ⟨Or.inr ⟨hpos, hkey, by rw [hslot, if_pos rfl]⟩, l', hrep, fun k d => ?_, ?_, ?_, ?_⟩
    · dsimp only
      rw [hslot, List.mem_cons, Prod.mk.injEq]
      split
      · next hk =>
        subst hk
        constructor
        · intro h
          exact Or.inl ⟨rfl, (Option.some.inj h).symm⟩
        · rintro (⟨-, rfl⟩ | h)
          · rfl
          · exact absurd (List.mem_map_of_mem h) hkey
      · next hk => rw [hs.slot k d, or_iff_right fun h => hk h.1]
    · exact List.nodup_cons.mpr ⟨hkey, hs.nodup⟩
    · have hlen := hs.size
      simp only [ResolveqState.keys, List.map_cons, List.length_cons] at hlen ⊢
      omega
    · intro k hk
      rcases List.mem_cons.mp hk with rfl | hk
      · exact hpos
      · exact hs.issued k hk

/-- Popping a key takes it, and nothing else, out of those outstanding. -/
theorem mem_pop {key k : ℤ} {d : Option Ptr} :
    (k, d) ∈ ((ResolveqOp.pop key).run s).out ↔ (k, d) ∈ s.out ∧ k ≠ key := by
  simp [ResolveqOp.run]

theorem nodup_pop (hs : ResolveqInv s l) (key : ℤ) : ((ResolveqOp.pop key).run s).keys.Nodup :=
  (List.filter_sublist.map Prod.fst).nodup hs.nodup

theorem length_pop (hs : ResolveqInv s l) (key : ℤ) : ((ResolveqOp.pop key).run s).keys.length =
    if key ∈ s.keys then s.keys.length - 1 else s.keys.length := by
  have hcount : (s.out.filter fun p => p.1 ≠ key).length + s.keys.count key = s.keys.length := by
    have hsplit := List.length_eq_countP_add_countP (fun p : ℤ × Option Ptr => p.1 = key)
      (l := s.out)
    have hkey : s.keys.count key = s.out.countP fun p => p.1 = key := by
      rw [List.count, ResolveqState.keys, List.countP_map]
      congr 1
    rw [← List.countP_eq_length_filter, hkey]
    simp only [ResolveqState.keys, List.length_map, decide_not, decide_eq_true_eq] at hsplit ⊢
    omega
  have hlen : ((ResolveqOp.pop key).run s).keys.length =
      (s.out.filter fun p => p.1 ≠ key).length := List.length_map _
  rw [hlen]
  split
  · next hmem =>
    rw [List.count_eq_one_of_mem hs.nodup hmem] at hcount
    omega
  · next hmem =>
    rw [List.count_eq_zero_of_not_mem hmem] at hcount
    omega

theorem pop (hs : ResolveqInv s l) {key : ℤ} (hkey : key ∈ s.issued) :
    ResolveqOk s (.pop key) ((ResolveqOp.pop key).run s) ∧
      ∃ l', ResolveqInv ((ResolveqOp.pop key).run s) l' := by
  have hpos := hs.issued key hkey
  have hnodup := hs.nodup_pop key
  have hlen := hs.length_pop key
  have hmem : ∀ k d, (k, d) ∈ ((ResolveqOp.pop key).run s).out ↔ (k, d) ∈ s.out ∧ k ≠ key :=
    fun _ _ => mem_pop
  cases hslot : s.q.slot key with
  | none =>
    have hnot := hs.slot_eq_none.mp hslot
    obtain ⟨q, l', hpop, hrep, hsize, hsame⟩ := hs.rep.pop_unused hpos hslot
    have hq : ((ResolveqOp.pop key).run s).q = q := by simp [ResolveqOp.run, hpop]
    refine ⟨⟨none, by rw [hpop, hq], fun d hd => ?_, fun _ => rfl, by rw [hq, hsame, hslot]⟩,
      l', ?_⟩
    · exact absurd (List.mem_map_of_mem hd) hnot
    · refine ⟨hq ▸ hrep, fun k d => ?_, hnodup, ?_, hs.issued⟩
      · rw [hq, hsame, hs.slot, hmem, iff_self_and]
        rintro hd rfl
        exact hnot (List.mem_map_of_mem hd)
      · rw [hq, hsize, hlen, if_neg hnot, hs.size]
  | some d =>
    have hout := (hs.slot key d).mp hslot
    have hin : key ∈ s.keys := List.mem_map_of_mem hout
    obtain ⟨q, l', hpop, hrep, hsize, hsame⟩ := hs.rep.pop hslot
    have hq : ((ResolveqOp.pop key).run s).q = q := by simp [ResolveqOp.run, hpop]
    refine ⟨⟨d, by rw [hpop, hq], fun e he => ?_, fun h => absurd hin h,
      by rw [hq, hsame, if_pos rfl]⟩, l', ?_⟩
    · exact Option.some.inj (((hs.slot key d).mpr hout).symm.trans ((hs.slot key e).mpr he))
    · refine ⟨hq ▸ hrep, fun k e => ?_, hnodup, ?_, hs.issued⟩
      · rw [hq, hsame, hmem]
        split
        · next hk => simp [hk]
        · next hk => rw [hs.slot, and_iff_left hk]
      · have hpos : 0 < s.keys.length := List.length_pos_of_mem hin
        rw [hq, hsize, hlen, if_pos hin, hs.size]
        omega

theorem keys_del (key : ℤ) : ((ResolveqOp.del key).run s).keys = s.keys := by
  unfold ResolveqState.keys ResolveqOp.run
  rw [List.map_map]
  refine List.map_congr_left fun p _ => ?_
  simp only [Function.comp_apply]
  split
  · next h => exact h.symm
  · rfl

theorem mem_del {key k : ℤ} {d : Option Ptr} : (k, d) ∈ ((ResolveqOp.del key).run s).out ↔
    if k = key then k ∈ s.keys ∧ d = none else (k, d) ∈ s.out := by
  simp only [ResolveqOp.run, ResolveqState.keys, List.mem_map]
  constructor
  · rintro ⟨⟨j, e⟩, he, h⟩
    split at h
    · next hj =>
      obtain ⟨rfl, rfl⟩ := Prod.mk.inj h
      rw [if_pos rfl]
      exact ⟨⟨_, he, hj⟩, rfl⟩
    · next hj =>
      obtain ⟨rfl, rfl⟩ := Prod.mk.inj h
      rw [if_neg hj]
      exact he
  · intro h
    split at h
    · next hk =>
      obtain ⟨⟨⟨j, e⟩, he, rfl⟩, rfl⟩ := h
      exact ⟨_, he, by rw [if_pos hk]; rw [hk]⟩
    · next hk => exact ⟨_, h, if_neg hk⟩

theorem del (hs : ResolveqInv s l) {key : ℤ} (hkey : key ∈ s.issued) :
    ResolveqOk s (.del key) ((ResolveqOp.del key).run s) ∧
      ∃ l', ResolveqInv ((ResolveqOp.del key).run s) l' := by
  have hpos := hs.issued key hkey
  have hkeys := keys_del (s := s) key
  have hmem : ∀ k d, (k, d) ∈ ((ResolveqOp.del key).run s).out ↔
      if k = key then k ∈ s.keys ∧ d = none else (k, d) ∈ s.out := fun _ _ => mem_del
  cases hslot : s.q.slot key with
  | none =>
    have hnot := hs.slot_eq_none.mp hslot
    have hdel := resolveqDel_unused hpos hslot
    have hq : ((ResolveqOp.del key).run s).q = s.q := by simp [ResolveqOp.run, hdel]
    refine ⟨by rw [ResolveqOk, hdel, hq], l, hq ▸ hs.rep, fun k d => ?_, hkeys ▸ hs.nodup, ?_,
      hs.issued⟩
    · rw [hq, hs.slot, hmem]
      split
      · next hk =>
        subst hk
        exact iff_of_false (fun h => hnot (List.mem_map_of_mem h)) fun h => hnot h.1
      · rfl
    · rw [hq, hkeys, hs.size]
  | some d =>
    obtain ⟨q, hdel, hrep, hsize, hsame⟩ := hs.rep.del hslot
    have hin : key ∈ s.keys := List.mem_map_of_mem ((hs.slot key d).mp hslot)
    have hq : ((ResolveqOp.del key).run s).q = q := by simp [ResolveqOp.run, hdel]
    refine ⟨by rw [ResolveqOk, hdel, hq], l, hq ▸ hrep, fun k e => ?_, hkeys ▸ hs.nodup, ?_,
      hs.issued⟩
    · rw [hq, hsame, hmem]
      split
      · next hk =>
        subst hk
        rw [and_iff_right hin, Option.some_inj, eq_comm]
      · exact hs.slot k e
    · rw [hq, hkeys, hsize, hs.size]

/-- The rule for one call. -/
theorem step (hs : ResolveqInv s l) {op : ResolveqOp} {t : ResolveqState}
    (hst : ResolveqStep s op t) : ResolveqOk s op t ∧ ∃ l', ResolveqInv t l' := by
  obtain ⟨rfl, hlegal⟩ := hst
  cases op with
  | put c alloc => exact hs.put c alloc
  | pop key => exact hs.pop hlegal
  | del key => exact hs.del hlegal

end ResolveqInv

/-- **The queue is a table of the outstanding keys.**  This holds in every state of every
run whose keys come from earlier puts, whichever allocations fail. -/
theorem resolveq_refines {r : List (ResolveqOp × ResolveqState)}
    (hr : IsRun ResolveqStep .init r) : Holds ResolveqGood ResolveqOk .init r := by
  have hstep : ∀ s op t, (∃ l, ResolveqInv s l) → True → ResolveqStep s op t →
      ResolveqOk s op t ∧ ∃ l, ResolveqInv t l := by
    rintro s op t ⟨l, hs⟩ - hst
    exact hs.step hst
  have hrun := holds_of_meets hstep ⟨[], resolveqInv_init⟩ hr
    (meets_of_forall (fun _ _ => trivial) r _)
  exact hrun.mono (fun s ⟨l, hs⟩ => hs.good) fun _ _ _ _ hok => hok

/-- Two connections, of which one is deleted before its key comes back, and a third that
is put when the array was given back. -/
theorem resolveq_refines_three : Holds ResolveqGood ResolveqOk .init
    (trace ResolveqOp.run .init [.put 4 true, .put 5 true, .put 6 false, .del 0, .pop 0, .pop 0,
      .pop 1, .put 6 true, .del 1, .pop 0]) := by
  refine resolveq_refines ?_
  simp only [trace, isRun_cons, isRun_nil, ResolveqStep, true_and, and_true]
  decide

end Libtrp
