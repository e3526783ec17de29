import Mathlib.Data.List.Perm.Subperm
import Mathlib.Data.Nat.Prime.Basic
import Libtrp.Lib.Linked
import Libtrp.Lib.Run
import Libtrp.Util

/-!
# The connection map

The map gives every connection an identifier whose low bits are the index of
its slot and whose upper bits are random.  Slots that are not full form a list
through the array itself: a slot's union holds either the connection or the
index of the next free slot.  The array doubles when the list runs out, up to
`mask + 1` slots, and is given back when the last connection leaves.

What it is for is a finite set of connections with distinct identifiers.
`connmap_refines` says that it is that over every run of its calls.

## Main definitions

* `connmapInit`, `connmapAdd`, `connmapDel`, `connmapGet`, `connmapClear` — the
  operations; `connmapIterate` is the loop its callers write around
  `connmap_iter_get`.
* `ConnmapInv m h fl live` — the invariant, with the free slots `fl` and the
  connections `live` the map holds.

## Main results

* `connmap_refines` — **the map is a set of connections with distinct ids.**

## References

`src/connmap.c`, `src/connmap.h`.
-/

namespace Libtrp

open Lib

/-- `connmap_entry_t`.  The flag `isfull` says which half of the union is in
use; `NPOS` ends the list of free slots. -/
inductive ConnmapEntry
  | full (c : Ptr)
  | free (next : Option ℕ)
  deriving DecidableEq, Repr

instance : Inhabited ConnmapEntry := ⟨.free none⟩

namespace ConnmapEntry

/-- The connection of a full slot. -/
def conn? : ConnmapEntry → Option Ptr
  | .full c => some c
  | .free _ => none

/-- The link of a free slot. -/
def next : ConnmapEntry → Option ℕ
  | .full _ => none
  | .free n => n

end ConnmapEntry

/-- `connmap_t` -/
structure Connmap where
  mask : UInt64
  size : ℕ
  cap : ℕ
  map : Option (List ConnmapEntry)
  free : Option ℕ
  deriving DecidableEq, Repr, Inhabited

namespace Connmap

/-- `map->map[i]` -/
def entry (m : Connmap) (i : ℕ) : ConnmapEntry := (m.map.getD []).getD i default

/-- `map->map[i] = e` -/
def put (m : Connmap) (i : ℕ) (e : ConnmapEntry) : Connmap :=
  { m with map := m.map.map fun es => es.set i e }

/-- The connection in slot `i`. -/
def slot (m : Connmap) (i : ℕ) : Option Ptr := (m.entry i).conn?

/-- The link of slot `i`. -/
def next (m : Connmap) (i : ℕ) : Option ℕ := (m.entry i).next

end Connmap

/-! ### The operations -/

/-- `connmap_max_conn` -/
def connmapMaxConn : UInt64 := (1 : UInt64) <<< 31

/-- `connmap_index` -/
def connmapIndex (m : Connmap) (id : UInt64) : ℕ := (m.mask &&& id).toNat

/-- `connmap_has_free` -/
def connmapHasFree (m : Connmap) : Bool := m.free.isSome

/-- `connmap_push` -/
def connmapPush (m : Connmap) (i : ℕ) : Connmap := { m.put i (.free m.free) with free := some i }

/-- `connmap_max` -/
def connmapMax (m : Connmap) : ℕ := (m.mask + 1).toNat

/-- `connmap_random`, from two 32-bit draws. -/
def connmapRandom (r₁ r₂ : UInt32) : UInt64 := (r₁.toUInt64 <<< 32) ^^^ r₂.toUInt64

/-- The two bounds `connmap_init` puts on `max`. -/
def connmapClamp (max : UInt64) : UInt64 :=
  let max := if max = 0 then 1 else max
  if max > connmapMaxConn then connmapMaxConn else max

/-- `connmap_init` -/
def connmapInit (max : UInt64) : Connmap :=
  ⟨nearPwr2_64 (connmapClamp max) - 1, 0, 0, none, none⟩

/-- `connmap_clear` -/
def connmapClear (m : Connmap) : Connmap := connmapInit (connmapMax m).toUInt64

/-- `connmap_iter_beg` -/
def connmapIterBeg (_ : Connmap) : ℕ := 0

/-- `connmap_iter_end` -/
def connmapIterEnd (m : Connmap) : ℕ := m.cap

/-- `connmap_iter_get` -/
def connmapIterGet (m : Connmap) (i : ℕ) : Option Ptr := m.slot i

/-- The connections a loop from `connmap_iter_beg` to `connmap_iter_end` gets. -/
def connmapIterate (m : Connmap) : List Ptr :=
  (List.range' (connmapIterBeg m) (connmapIterEnd m - connmapIterBeg m)).filterMap
    (connmapIterGet m)

/-- The part of `connmap_add` that makes room.  What the new half of the array
holds before it is pushed is not read. -/
def connmapGrow (m : Connmap) (alloc : Bool) : Errno × Connmap :=
  if m.size ≥ connmapMax m then (ENOSPC, m)
  else if !alloc then (ENOMEM, m)
  else
    match m.map with
    | some es =>
      let m' := { m with map := some (es ++ List.replicate m.cap default), cap := m.cap * 2 }
      (0, (List.range' m.cap m.cap).foldl connmapPush m')
    | none => (0, connmapPush { m with map := some [default], cap := 1 } 0)

/-- The part of `connmap_add` that fills the first free slot, number `i`. -/
def connmapFill (m : Connmap) (h : ConnHeap) (conn : Ptr) (r₁ r₂ : UInt32) (i : ℕ) :
    Connmap × ConnHeap :=
  let id := i.toUInt64 ^^^ (connmapRandom r₁ r₂ &&& ~~~m.mask)
  ({ m.put i (.full conn) with free := m.next i, size := m.size + 1 },
    h.set conn fun x => { x with self := { x.self with id := id } })

/-- `connmap_add`.  Success leaves a free slot, so the last case is not reached. -/
def connmapAdd (m : Connmap) (h : ConnHeap) (conn : Ptr) (alloc : Bool) (r₁ r₂ : UInt32) :
    Errno × Connmap × ConnHeap :=
  let (code, m) := if connmapHasFree m then (0, m) else connmapGrow m alloc
  if code ≠ 0 then (code, m, h)
  else
    match m.free with
    | some i => (0, connmapFill m h conn r₁ r₂ i)
    | none => (0, m, h)

/-- `connmap_get` -/
def connmapGet (m : Connmap) (h : ConnHeap) (id : UInt64) : Option Ptr :=
  let i := connmapIndex m id
  if i < m.cap then
    match m.slot i with
    | some c => if id == (h.conn c).self.id then some c else none
    | none => none
  else none

/-- `connmap_del` -/
def connmapDel (m : Connmap) (h : ConnHeap) (id : UInt64) : Option Ptr × Connmap :=
  let i := connmapIndex m id
  if i < m.cap then
    match m.slot i with
    | some c =>
      if id == (h.conn c).self.id then
        let m := connmapPush m i
        let m := { m with size := m.size - 1 }
        (some c, if m.size == 0 then connmapClear m else m)
      else (none, m)
    | none => (none, m)
  else (none, m)

/-! ### What the map can hold -/

namespace Connmap

/-- A slot holds the connection. -/
def Has (m : Connmap) (c : Ptr) : Prop := .full c ∈ m.map.getD []

variable {m : Connmap} {c d : Ptr}

theorem Has.of_put {i : ℕ} {e : ConnmapEntry} (h : (m.put i e).Has d) : m.Has d ∨ e = .full d := by
  unfold Has put at *
  cases hmap : m.map with
  | none =>
    rw [hmap] at h
    exact Or.inl h
  | some es =>
    rw [hmap] at h
    exact (List.mem_or_eq_of_mem_set h).imp_right Eq.symm

theorem Has.of_push {i : ℕ} (h : (connmapPush m i).Has d) : m.Has d := by
  have hput : (m.put i (.free m.free)).Has d := h
  exact hput.of_put.resolve_right nofun

theorem Has.of_foldl_push {is : List ℕ} (h : (is.foldl connmapPush m).Has d) : m.Has d := by
  induction is generalizing m with
  | nil => exact h
  | cons i is ih => exact (ih h).of_push

theorem not_has_init (max : UInt64) : ¬ (connmapInit max).Has d := nofun

theorem Has.of_grow {alloc : Bool} (h : (connmapGrow m alloc).2.Has d) : m.Has d := by
  unfold connmapGrow at h
  split_ifs at h
  · exact h
  · exact h
  · cases hmap : m.map with
    | none =>
      rw [hmap] at h
      have h' : Has { m with map := some [default], cap := 1 } d := h.of_push
      exact absurd (List.mem_singleton.mp h') nofun
    | some es =>
      rw [hmap] at h
      have h' : Has
          { m with map := some (es ++ List.replicate m.cap default), cap := m.cap * 2 } d :=
        h.of_foldl_push
      unfold Has at h' ⊢
      rw [hmap]
      rcases List.mem_append.mp h' with h' | h'
      · exact h'
      · exact absurd (List.eq_of_mem_replicate h') nofun

/-- An addition adds the connection that is added. -/
theorem Has.of_add {h : ConnHeap} {alloc : Bool} {r₁ r₂ : UInt32}
    (hd : (connmapAdd m h c alloc r₁ r₂).2.1.Has d) : m.Has d ∨ d = c := by
  unfold connmapAdd at hd
  have hgrow : (if connmapHasFree m then ((0 : Errno), m) else connmapGrow m alloc).2.Has d →
      m.Has d := by
    intro hd
    split at hd
    · exact hd
    · exact hd.of_grow
  generalize (if connmapHasFree m then ((0 : Errno), m) else connmapGrow m alloc) = p at hd hgrow
  obtain ⟨code, m'⟩ := p
  dsimp only at hd hgrow
  split at hd
  · exact Or.inl (hgrow hd)
  · split at hd
    · next i _ =>
      have hput : (m'.put i (.full c)).Has d := hd
      rcases hput.of_put with hd | hd
      · exact Or.inl (hgrow hd)
      · exact Or.inr (ConnmapEntry.full.inj hd).symm
    · exact Or.inl (hgrow hd)

/-- A deletion adds none. -/
theorem Has.of_del {h : ConnHeap} {id : UInt64} (hd : (connmapDel m h id).2.Has d) : m.Has d := by
  unfold connmapDel at hd
  dsimp only at hd
  split at hd
  · split at hd
    · split at hd
      · next i _ =>
        dsimp only at hd
        split at hd
        · exact absurd hd (not_has_init _)
        · have hpush : (connmapPush m (connmapIndex m id)).Has d := hd
          exact hpush.of_push
      · exact hd
    · exact hd
  · exact hd

/-- The array has a slot, where there is one. -/
def Sized (m : Connmap) : Prop := m.map ≠ none → 0 < m.cap

theorem sized_init (max : UInt64) : (connmapInit max).Sized := fun h => absurd rfl h

theorem Sized.push (h : m.Sized) (i : ℕ) : (connmapPush m i).Sized := by
  intro hmap
  refine h fun hnone => hmap ?_
  show (m.map.map fun es => es.set i (.free m.free)) = none
  rw [hnone]
  rfl

theorem Sized.foldl_push (h : m.Sized) (is : List ℕ) : (is.foldl connmapPush m).Sized := by
  induction is generalizing m with
  | nil => exact h
  | cons i is ih => exact ih (h.push i)

theorem Sized.grow (h : m.Sized) (alloc : Bool) : (connmapGrow m alloc).2.Sized := by
  unfold connmapGrow
  split
  · exact h
  · split
    · exact h
    · split
      · next es hmap =>
        refine foldl_push (fun _ => ?_) _
        have hcap : 0 < m.cap := h (hmap ▸ Option.some_ne_none es)
        exact Nat.mul_pos hcap Nat.two_pos
      · exact push (fun _ => Nat.one_pos) 0

theorem Sized.add (hm : m.Sized) (h : ConnHeap) (c : Ptr) (alloc : Bool) (r₁ r₂ : UInt32) :
    (connmapAdd m h c alloc r₁ r₂).2.1.Sized := by
  unfold connmapAdd
  have hgrow : (if connmapHasFree m then ((0 : Errno), m) else connmapGrow m alloc).2.Sized := by
    split
    · exact hm
    · exact hm.grow alloc
  generalize (if connmapHasFree m then ((0 : Errno), m) else connmapGrow m alloc) = p at hgrow
  obtain ⟨code, m'⟩ := p
  dsimp only at hgrow ⊢
  split
  · exact hgrow
  · split
    · next i _ =>
      intro hmap
      refine hgrow fun hnone => hmap ?_
      show (m'.map.map fun es => es.set i (.full c)) = none
      rw [hnone]
      rfl
    · exact hgrow

theorem Sized.del (hm : m.Sized) (h : ConnHeap) (id : UInt64) : (connmapDel m h id).2.Sized := by
  unfold connmapDel
  dsimp only
  split
  · split
    · split
      · dsimp only
        split
        · exact sized_init _
        · exact hm.push _
      · exact hm
    · exact hm
  · exact hm

/-- What is found is in the map. -/
theorem has_of_get {h : ConnHeap} {id : UInt64} (hc : connmapGet m h id = some c) : m.Has c := by
  unfold connmapGet at hc
  dsimp only at hc
  split at hc
  · split at hc
    · next e hslot =>
      split_ifs at hc
      obtain rfl := Option.some.inj hc
      unfold slot entry at hslot
      unfold Has
      rw [List.getD_eq_getElem?_getD] at hslot
      cases hget : (m.map.getD [])[connmapIndex m id]? with
      | none =>
        rw [hget] at hslot
        exact nomatch hslot
      | some u =>
        rw [hget] at hslot
        cases u with
        | free n => exact nomatch hslot
        | full d =>
          obtain rfl : d = _ := Option.some.inj hslot
          exact List.mem_of_getElem? hget
    · exact nomatch hc
  · exact nomatch hc

end Connmap

/-! ### Slots and the connections in them -/

namespace Connmap

theorem entry_put (m : Connmap) {i : ℕ} (hi : i < (m.map.getD []).length) (e : ConnmapEntry) :
    (m.put i e).entry = Function.update m.entry i e := by
  funext j
  cases hm : m.map with
  | none => simp [hm] at hi
  | some es =>
    simp only [hm, Option.getD_some] at hi
    simp only [entry, put, hm, Option.map_some, Option.getD_some, List.getD_eq_getElem?_getD,
      List.getElem?_set]
    rcases eq_or_ne j i with rfl | hji
    · simp [hi]
    · simp [hji, Ne.symm hji, entry, hm, List.getD_eq_getElem?_getD]

theorem next_put (m : Connmap) {i : ℕ} (hi : i < (m.map.getD []).length) (e : ConnmapEntry) :
    (m.put i e).next = Function.update m.next i e.next := by
  funext j
  rw [next, entry_put m hi]
  rcases eq_or_ne j i with rfl | hji
  · simp
  · simp [hji, next]

theorem slot_put (m : Connmap) {i : ℕ} (hi : i < (m.map.getD []).length) (e : ConnmapEntry) :
    (m.put i e).slot = Function.update m.slot i e.conn? := by
  funext j
  rw [slot, entry_put m hi]
  rcases eq_or_ne j i with rfl | hji
  · simp
  · simp [hji, slot]

@[simp] theorem length_put (m : Connmap) (i : ℕ) (e : ConnmapEntry) :
    ((m.put i e).map.getD []).length = (m.map.getD []).length := by
  cases hm : m.map <;> simp [put, hm]

end Connmap

/-- The connections in the first `n` slots. -/
def contents (slot : ℕ → Option Ptr) (n : ℕ) : List Ptr := (List.range n).filterMap slot

theorem mem_contents {slot : ℕ → Option Ptr} {n : ℕ} {c : Ptr} :
    c ∈ contents slot n ↔ ∃ i < n, slot i = some c := by
  simp [contents, List.mem_filterMap]

theorem connmapIterate_eq (m : Connmap) : connmapIterate m = contents m.slot m.cap := by
  simp only [connmapIterate, connmapIterBeg, connmapIterEnd, Nat.sub_zero, contents,
    List.range_eq_range']
  rfl

/-- Filling a free slot adds one connection. -/
theorem contents_fill {slot : ℕ → Option Ptr} {n i : ℕ} (hi : i < n) (hs : slot i = none)
    (c : Ptr) : (contents (Function.update slot i (some c)) n).Perm (c :: contents slot n) := by
  obtain ⟨l₁, l₂, hl⟩ := List.append_of_mem (List.mem_range.mpr hi)
  have hnd : (l₁ ++ i :: l₂).Nodup := hl ▸ List.nodup_range
  rw [List.nodup_append, List.nodup_cons] at hnd
  have hcongr : ∀ l : List ℕ, i ∉ l →
      l.filterMap (Function.update slot i (some c)) = l.filterMap slot := by
    intro l hil
    refine List.filterMap_congr fun j hj => ?_
    have hji : j ≠ i := fun hji => hil (hji ▸ hj)
    exact Function.update_of_ne hji _ _
  have h₁ := hcongr l₁ fun hil => hnd.2.2 i hil i List.mem_cons_self rfl
  have h₂ := hcongr l₂ hnd.2.1.1
  simp only [contents, hl, List.filterMap_append, List.filterMap_cons, Function.update_self, hs,
    h₁, h₂]
  exact List.perm_middle

/-- Emptying a full slot removes its connection. -/
theorem contents_empty {slot : ℕ → Option Ptr} {n i : ℕ} (hi : i < n) {c : Ptr}
    (hs : slot i = some c) :
    (contents slot n).Perm (c :: contents (Function.update slot i none) n) := by
  have h0 : Function.update slot i none i = none := Function.update_self ..
  have h := contents_fill hi h0 c
  rwa [Function.update_idem, Function.update_eq_self_iff.mpr hs.symm] at h

/-! ### The invariant -/

/-- The map holds the connections `live`, and its free slots are `fl`, in the
order of the list. -/
structure ConnmapInv (m : Connmap) (h : ConnHeap) (fl : List ℕ) (live : List Ptr) : Prop where
  mask : ∃ k ≤ 31, m.mask.toNat + 1 = 2 ^ k
  /-- The capacity is zero or divides the number of connections the mask allows. -/
  cap : m.cap ∣ m.mask.toNat + 1 ∨ m.cap = 0
  map : m.map = none ↔ m.cap = 0
  length : (m.map.getD []).length = m.cap
  linked : Linked m.next m.free fl
  free : ∀ i, i ∈ fl ↔ i < m.cap ∧ m.slot i = none
  ids : ∀ i c, m.slot i = some c → connmapIndex m (h.conn c).self.id = i
  count : fl.length + m.size = m.cap
  size : m.size = live.length
  live : (contents m.slot m.cap).Perm live

theorem Connmap.slot_of_ge {m : Connmap} (hlen : (m.map.getD []).length = m.cap) {i : ℕ}
    (hi : m.cap ≤ i) : m.slot i = none := by
  simp [slot, entry, List.getD_eq_getElem?_getD, List.getElem?_eq_none (hlen ▸ hi), default,
    ConnmapEntry.conn?]

namespace ConnmapInv

variable {m : Connmap} {h : ConnHeap} {fl : List ℕ} {live : List Ptr}

theorem toNat_mask_add (hm : ConnmapInv m h fl live) : connmapMax m = m.mask.toNat + 1 := by
  obtain ⟨k, hk, hmask⟩ := hm.mask
  have hpow : 2 ^ k ≤ 2 ^ 31 := Nat.pow_le_pow_right Nat.two_pos hk
  rw [connmapMax, UInt64.toNat_add]
  change (m.mask.toNat + 1) % 2 ^ 64 = _
  omega

theorem mem_live (hm : ConnmapInv m h fl live) {c : Ptr} :
    c ∈ live ↔ ∃ i, m.slot i = some c := by
  rw [← hm.live.mem_iff, mem_contents]
  constructor
  · rintro ⟨i, -, hi⟩; exact ⟨i, hi⟩
  · rintro ⟨i, hi⟩
    refine ⟨i, ?_, hi⟩
    by_contra hlt
    rw [Connmap.slot_of_ge hm.length (Nat.le_of_not_lt hlt)] at hi
    cases hi

/-- A live connection is in the slot its identifier names. -/
theorem slot_index (hm : ConnmapInv m h fl live) {c : Ptr} (hc : c ∈ live) :
    m.slot (connmapIndex m (h.conn c).self.id) = some c := by
  obtain ⟨i, hi⟩ := hm.mem_live.mp hc
  rwa [hm.ids i c hi]

/-- No two live connections share an identifier. -/
theorem ids_inj (hm : ConnmapInv m h fl live) {c d : Ptr} (hc : c ∈ live) (hd : d ∈ live)
    (hid : (h.conn c).self.id = (h.conn d).self.id) : c = d := by
  have hsc := hm.slot_index hc
  rw [hid, hm.slot_index hd] at hsc
  exact (Option.some.inj hsc).symm

/-- The heap matters by the identifiers of the connections held. -/
theorem congr (hm : ConnmapInv m h fl live) {h' : ConnHeap}
    (hid : ∀ c ∈ live, (h'.conn c).self.id = (h.conn c).self.id) : ConnmapInv m h' fl live :=
  { hm with
    ids := fun i c hc => by
      rw [hid c (hm.mem_live.mpr ⟨i, hc⟩)]
      exact hm.ids i c hc }

theorem nodup (hm : ConnmapInv m h fl live) : live.Nodup := by
  rw [← hm.live.nodup_iff]
  refine List.Nodup.filterMap ?_ List.nodup_range
  intro i j c hi hj
  rw [← hm.ids i c hi, ← hm.ids j c hj]

/-- `connmap_get` finds the live connection with the identifier. -/
theorem get_eq_some (hm : ConnmapInv m h fl live) {id : UInt64} {c : Ptr} :
    connmapGet m h id = some c ↔ c ∈ live ∧ (h.conn c).self.id = id := by
  simp only [connmapGet]
  constructor
  · intro hg
    split at hg
    · cases hs : m.slot (connmapIndex m id) with
      | none => rw [hs] at hg; cases hg
      | some d =>
        rw [hs] at hg
        simp only [beq_iff_eq, Option.ite_none_right_eq_some, Option.some.injEq] at hg
        obtain ⟨hid, rfl⟩ := hg
        exact ⟨hm.mem_live.mpr ⟨_, hs⟩, hid.symm⟩
    · cases hg
  · rintro ⟨hc, rfl⟩
    have hs := hm.slot_index hc
    have hlt : connmapIndex m (h.conn c).self.id < m.cap := by
      by_contra hlt
      rw [Connmap.slot_of_ge hm.length (Nat.le_of_not_lt hlt)] at hs
      cases hs
    rw [if_pos hlt, hs]
    simp

end ConnmapInv

/-! ### Initialising and clearing -/

theorem connmapClamp_pos (max : UInt64) : 0 < (connmapClamp max).toNat := by
  have hn : 0 < (if max = 0 then (1 : UInt64) else max).toNat := by
    split
    · decide
    · next h0 =>
      rw [Nat.pos_iff_ne_zero]
      intro hz
      exact h0 (UInt64.toNat_inj.mp hz)
  simp only [connmapClamp]
  generalize (if max = 0 then (1 : UInt64) else max) = n at hn ⊢
  split
  · decide
  · exact hn

theorem connmapClamp_le (max : UInt64) : (connmapClamp max).toNat ≤ 2 ^ 31 := by
  simp only [connmapClamp]
  generalize (if max = 0 then 1 else max) = n
  split
  · decide
  · next hle =>
    rw [gt_iff_lt, UInt64.lt_iff_toNat_lt, Nat.not_lt] at hle
    exact hle

/-- The number of connections the mask allows is a power of two. -/
theorem toNat_mask_init (max : UInt64) : ∃ k ≤ 31, (connmapInit max).mask.toNat + 1 = 2 ^ k := by
  have h1 := connmapClamp_le max
  have hpow := toNat_nearPwr2_64 (connmapClamp_pos max) (h1.trans (by decide))
  have hclog : Nat.clog 2 (connmapClamp max).toNat ≤ 31 :=
    (Nat.clog_le_iff_le_pow Nat.one_lt_two).mpr h1
  refine ⟨Nat.clog 2 (connmapClamp max).toNat, hclog, ?_⟩
  have hle : (1 : UInt64) ≤ nearPwr2_64 (connmapClamp max) := by
    rw [UInt64.le_iff_toNat_le, hpow]
    exact Nat.two_pow_pos _
  rw [connmapInit, UInt64.toNat_sub_of_le _ 1 hle, hpow]
  exact Nat.succ_pred_eq_of_pos (Nat.two_pow_pos _)

theorem connmapInv_init (max : UInt64) (h : ConnHeap) :
    ConnmapInv (connmapInit max) h [] [] where
  mask := toNat_mask_init max
  cap := Or.inr rfl
  map := iff_of_true rfl rfl
  length := rfl
  linked := rfl
  free := fun i => by simp [connmapInit]
  ids := fun i c hi => by simp [connmapInit, Connmap.slot, Connmap.entry, default,
    ConnmapEntry.conn?] at hi
  count := rfl
  size := rfl
  live := by simp [contents, connmapInit]

/-- Clearing keeps the mask. -/
theorem connmapClear_mask {m : Connmap} {h : ConnHeap} {fl : List ℕ} {live : List Ptr}
    (hm : ConnmapInv m h fl live) : (connmapClear m).mask = m.mask := by
  obtain ⟨k, hk, hmask⟩ := hm.mask
  have hpow : 2 ^ k ≤ 2 ^ 31 := Nat.pow_le_pow_right Nat.two_pos hk
  have hpos : 0 < 2 ^ k := Nat.two_pow_pos k
  have hmax : (connmapMax m).toUInt64.toNat = 2 ^ k := by
    rw [hm.toNat_mask_add, hmask]
    change 2 ^ k % 2 ^ 64 = _
    omega
  have hclamp : connmapClamp (connmapMax m).toUInt64 = (connmapMax m).toUInt64 := by
    have h0 : (connmapMax m).toUInt64 ≠ 0 := by
      intro h0
      rw [h0] at hmax
      exact hpos.ne hmax
    have h1 : ¬ (connmapMax m).toUInt64 > connmapMaxConn := by
      rw [gt_iff_lt, UInt64.lt_iff_toNat_lt, hmax]
      exact Nat.not_lt.mpr hpow
    rw [connmapClamp, if_neg h0, if_neg h1]
  rw [connmapClear, connmapInit, hclamp, nearPwr2_64_of_pow (by omega) hmax]
  apply UInt64.toNat_inj.mp
  have hle : (1 : UInt64) ≤ (connmapMax m).toUInt64 := by
    rw [UInt64.le_iff_toNat_le, hmax]
    exact hpos
  rw [UInt64.toNat_sub_of_le _ 1 hle, hmax]
  change 2 ^ k - 1 = _
  omega

/-! ### Making room -/

theorem foldl_connmapPush_mask (is : List ℕ) : ∀ m : Connmap,
    (is.foldl connmapPush m).mask = m.mask := by
  induction is with
  | nil => intro m; rfl
  | cons i is ih => intro m; exact ih (connmapPush m i)

/-- Pushing free slots puts them in front of the list, the last one first. -/
theorem foldl_connmapPush : ∀ (is : List ℕ) {m : Connmap} {fl : List ℕ}, is.Nodup →
    (∀ i ∈ is, i < (m.map.getD []).length ∧ i ∉ fl) → Linked m.next m.free fl →
    Linked (is.foldl connmapPush m).next (is.foldl connmapPush m).free (is.reverse ++ fl) ∧
      (∀ i, (is.foldl connmapPush m).slot i = if i ∈ is then none else m.slot i) ∧
      (is.foldl connmapPush m).size = m.size ∧
      (is.foldl connmapPush m).cap = m.cap ∧
      ((is.foldl connmapPush m).map.getD []).length = (m.map.getD []).length ∧
      ((is.foldl connmapPush m).map = none ↔ m.map = none) := by
  intro is
  induction is with
  | nil => intro m fl _ _ hl; simp [hl]
  | cons i is ih =>
    intro m fl hnd hi hl
    rw [List.nodup_cons] at hnd
    obtain ⟨hlt, hfl⟩ := hi i List.mem_cons_self
    have hnext : (connmapPush m i).next = Function.update m.next i m.free :=
      m.next_put hlt _
    have hslot : (connmapPush m i).slot = Function.update m.slot i none := m.slot_put hlt _
    have hlen : ((connmapPush m i).map.getD []).length = (m.map.getD []).length :=
      m.length_put i _
    have hlink : Linked (connmapPush m i).next (connmapPush m i).free (i :: fl) := by
      rw [hnext]
      refine ⟨rfl, ?_⟩
      rw [Function.update_self]
      exact hl.update hfl _
    have hi' : ∀ j ∈ is, j < ((connmapPush m i).map.getD []).length ∧ j ∉ i :: fl := by
      intro j hj
      obtain ⟨hjlt, hjfl⟩ := hi j (List.mem_cons_of_mem i hj)
      refine ⟨hlen ▸ hjlt, ?_⟩
      rw [List.mem_cons, not_or]
      exact ⟨fun hji => hnd.1 (hji ▸ hj), hjfl⟩
    obtain ⟨h₁, h₂, h₃, h₄, h₅, h₆⟩ := ih hnd.2 hi' hlink
    refine ⟨by simpa using h₁, fun j => ?_, h₃, h₄, h₅.trans hlen, ?_⟩
    · rw [List.foldl_cons, h₂, hslot]
      rcases eq_or_ne j i with rfl | hji
      · simp
      · simp [hji]
    · rw [List.foldl_cons, h₆]
      simp [connmapPush, Connmap.put]

theorem connmapGrow_mask (m : Connmap) (alloc : Bool) :
    (connmapGrow m alloc).2.mask = m.mask := by
  unfold connmapGrow
  split
  · rfl
  split
  · rfl
  split
  · exact foldl_connmapPush_mask _ _
  · rfl

/-- Adding writes the identifier of the connection, if it writes to the heap at all. -/
theorem connmapAdd_heap (m : Connmap) (h : ConnHeap) (c : Ptr) (alloc : Bool) (r₁ r₂ : UInt32) :
    (connmapAdd m h c alloc r₁ r₂).2.2 = h ∨ ∃ id, (connmapAdd m h c alloc r₁ r₂).2.2 =
      h.set c fun x => { x with self := { x.self with id := id } } := by
  unfold connmapAdd
  generalize (if connmapHasFree m then ((0 : Errno), m) else connmapGrow m alloc) = p
  obtain ⟨code, m'⟩ := p
  dsimp only
  split_ifs
  · exact Or.inl rfl
  · cases m'.free with
    | none => exact Or.inl rfl
    | some i => exact Or.inr ⟨_, rfl⟩

/-- Adding allocates no connection. -/
theorem connmapAdd_brk (m : Connmap) (h : ConnHeap) (c : Ptr) (alloc : Bool) (r₁ r₂ : UInt32) :
    (connmapAdd m h c alloc r₁ r₂).2.2.brk = h.brk := by
  obtain heq | ⟨id, heq⟩ := connmapAdd_heap m h c alloc r₁ r₂
  · rw [heq]
  · rw [heq, ConnHeap.brk_set]

theorem connmapAdd_mask (m : Connmap) (h : ConnHeap) (c : Ptr) (alloc : Bool) (r₁ r₂ : UInt32) :
    (connmapAdd m h c alloc r₁ r₂).2.1.mask = m.mask := by
  have hgrow : (if connmapHasFree m then ((0 : Errno), m) else connmapGrow m alloc).2.mask =
      m.mask := by
    split
    · rfl
    · exact connmapGrow_mask m alloc
  simp only [connmapAdd]
  generalize (if connmapHasFree m then ((0 : Errno), m) else connmapGrow m alloc) = res at hgrow ⊢
  split
  · exact hgrow
  split
  · exact hgrow
  · exact hgrow

/-- Empty slots at the end hold nothing. -/
theorem contents_extend {slot : ℕ → Option Ptr} {n : ℕ} (hs : ∀ i, n ≤ i → slot i = none) :
    ∀ d, contents slot (n + d) = contents slot n := by
  intro d
  induction d with
  | zero => rfl
  | succ d ih =>
    rw [contents, ← Nat.add_assoc, List.range_succ, List.filterMap_append, ← contents, ih]
    simp [hs (n + d) (Nat.le_add_right n d)]

namespace ConnmapInv

variable {m : Connmap} {h : ConnHeap} {i : ℕ} {fl : List ℕ} {live : List Ptr}

theorem size_le (hm : ConnmapInv m h fl live) : m.size ≤ connmapMax m := by
  obtain ⟨k, hk, hmask⟩ := hm.mask
  have hcount := hm.count
  rw [hm.toNat_mask_add]
  rcases hm.cap with hdvd | h0
  · have := Nat.le_of_dvd (Nat.succ_pos _) hdvd
    omega
  · omega

/-- A map with a free slot has room. -/
theorem size_lt (hm : ConnmapInv m h (i :: fl) live) : m.size < connmapMax m := by
  have hcount := hm.count
  rw [List.length_cons] at hcount
  rw [hm.toNat_mask_add]
  rcases hm.cap with hdvd | h0
  · have := Nat.le_of_dvd (Nat.succ_pos _) hdvd
    omega
  · omega

/-- With room for more connections than there are, a full map can double. -/
theorem double_dvd (hm : ConnmapInv m h [] live) (hlt : m.size < connmapMax m)
    (h0 : m.cap ≠ 0) : m.cap * 2 ∣ m.mask.toNat + 1 := by
  obtain ⟨k, hk, hmask⟩ := hm.mask
  have hdvd := hm.cap.resolve_right h0
  have hcount : 0 + m.size = m.cap := hm.count
  rw [hm.toNat_mask_add] at hlt
  rw [hmask] at hdvd hlt ⊢
  obtain ⟨j, hj, hcap⟩ := (Nat.dvd_prime_pow Nat.prime_two).mp hdvd
  rw [hcap, ← Nat.pow_succ]
  refine pow_dvd_pow 2 ?_
  by_contra hle
  have : 2 ^ k ≤ 2 ^ j := Nat.pow_le_pow_right Nat.two_pos (by omega)
  omega

/-- A longer array whose new slots are pushed holds the same connections. -/
theorem extend (hm : ConnmapInv m h [] live) {d : ℕ} (hdvd : m.cap + d ∣ m.mask.toNat + 1)
    {m' : Connmap} (hm' : m' = { m with
      map := some (m.map.getD [] ++ List.replicate d default), cap := m.cap + d }) (hd : 0 < d) :
    ConnmapInv ((List.range' m.cap d).foldl connmapPush m') h (List.range' m.cap d).reverse
      live := by
  have hlen : (m'.map.getD []).length = m.cap + d := by simp [hm', hm.length]
  have hslot : m'.slot = m.slot := by
    funext i
    simp only [hm', Connmap.slot, Connmap.entry, Option.getD_some, List.getD_eq_getElem?_getD]
    rcases Nat.lt_or_ge i (m.map.getD []).length with hlt | hge
    · rw [List.getElem?_append_left hlt]
    · rw [List.getElem?_append_right hge, List.getElem?_eq_none hge, List.getElem?_replicate]
      split <;> rfl
  have hnone : ∀ i, i ∈ List.range' m.cap d → m.slot i = none := by
    intro i hi
    exact Connmap.slot_of_ge hm.length (List.mem_range'_1.mp hi).1
  have hfree : Linked m'.next m'.free [] := by rw [hm']; exact hm.linked
  have h₃ := foldl_connmapPush_mask (List.range' m.cap d) m'
  obtain ⟨h₁, h₂, h₄, h₅, h₆, h₇⟩ := foldl_connmapPush (List.range' m.cap d) List.nodup_range'
    (fun i hi => ⟨hlen ▸ (List.mem_range'_1.mp hi).2, List.not_mem_nil⟩) hfree
  generalize (List.range' m.cap d).foldl connmapPush m' = n at *
  have hcap : n.cap = m.cap + d := by rw [h₅, hm']
  have hmask : n.mask = m.mask := by rw [h₃, hm']
  have hsize : n.size = m.size := by rw [h₄, hm']
  have hn : n.slot = m.slot := by
    funext i
    rw [h₂, hslot]
    split
    · next hi => exact (hnone i hi).symm
    · rfl
  have hcount : 0 + m.size = m.cap := hm.count
  refine ⟨hmask ▸ hm.mask, Or.inl ?_, ?_, ?_, ?_, ?_, ?_, ?_, ?_, ?_⟩
  · rwa [hcap, hmask]
  · rw [h₇, hm', hcap]
    simp only [reduceCtorEq, false_iff]
    omega
  · rw [h₆, hlen, hcap]
  · simpa using h₁
  · intro i
    rw [List.mem_reverse, hn, hcap]
    constructor
    · intro hi
      exact ⟨(List.mem_range'_1.mp hi).2, hnone i hi⟩
    · rintro ⟨hlt, hs⟩
      refine List.mem_range'_1.mpr ⟨?_, hlt⟩
      by_contra hi
      exact List.not_mem_nil ((hm.free i).mpr ⟨Nat.lt_of_not_le hi, hs⟩)
  · intro i c hi
    rw [hn] at hi
    rw [connmapIndex, hmask]
    exact hm.ids i c hi
  · rw [List.length_reverse, List.length_range', hsize, hcap]
    omega
  · rw [hsize]
    exact hm.size
  · rw [hn, hcap, contents_extend fun i hi => Connmap.slot_of_ge hm.length hi]
    exact hm.live

/-- Growing a full map leaves it the connections it held, with free slots. -/
theorem grow (hm : ConnmapInv m h [] live) {alloc : Bool} (hok : (connmapGrow m alloc).1 = 0) :
    ∃ i fl, ConnmapInv (connmapGrow m alloc).2 h (i :: fl) live := by
  have hpos : 0 < m.mask.toNat + 1 := Nat.succ_pos _
  unfold connmapGrow at hok ⊢
  split at hok
  · cases hok
  next hlt =>
  rw [if_neg hlt]
  rw [ge_iff_le, Nat.not_le] at hlt
  split at hok
  · cases hok
  next halloc =>
  rw [if_neg halloc]
  cases hmap : m.map with
  | none =>
    have h0 : m.cap = 0 := hm.map.mp hmap
    have hinv := hm.extend (d := 1) (by simp [h0]) rfl Nat.one_pos
    exact ⟨0, [], by simpa [h0, hmap] using hinv⟩
  | some es =>
    have h0 : m.cap ≠ 0 := fun h0 => by rw [hm.map.mpr h0] at hmap; cases hmap
    obtain ⟨n, hn⟩ : ∃ n, m.cap = n + 1 := ⟨m.cap - 1, by omega⟩
    have hinv := hm.extend (d := m.cap) (by rw [← Nat.mul_two]; exact hm.double_dvd hlt h0) rfl
      (Nat.pos_of_ne_zero h0)
    refine ⟨m.cap + n, (List.range' m.cap n).reverse, ?_⟩
    have hrange : (List.range' m.cap m.cap).reverse =
        (m.cap + n) :: (List.range' m.cap n).reverse := by
      calc (List.range' m.cap m.cap).reverse = (List.range' m.cap (n + 1)).reverse := by rw [← hn]
        _ = _ := by rw [List.range'_1_concat, List.reverse_concat]
    rw [← hrange]
    simpa [hmap, Nat.mul_two] using hinv

/-- Why growing fails, and that a map that failed to grow is as it was. -/
theorem grow_error {alloc : Bool} (herr : (connmapGrow m alloc).1 ≠ 0) :
    (connmapGrow m alloc).2 = m ∧
      ((connmapGrow m alloc).1 = ENOSPC ∧ connmapMax m ≤ m.size ∨
        (connmapGrow m alloc).1 = ENOMEM ∧ m.size < connmapMax m ∧ alloc = false) := by
  unfold connmapGrow at herr ⊢
  split
  · next hge => exact ⟨rfl, Or.inl ⟨rfl, hge⟩⟩
  next hlt =>
  rw [ge_iff_le, Nat.not_le] at hlt
  rw [if_neg (Nat.not_le.mpr hlt)] at herr
  split
  · next halloc => exact ⟨rfl, Or.inr ⟨rfl, hlt, by simpa using halloc⟩⟩
  next halloc =>
  rw [if_neg halloc] at herr
  cases hmap : m.map <;> simp [hmap] at herr

/-! ### Adding and removing -/

/-- A slot's own number names it, whatever the upper bits are. -/
theorem index_id (hm : ConnmapInv m h fl live) {i : ℕ} (hi : i < m.cap) (r : UInt64) :
    connmapIndex m (i.toUInt64 ^^^ (r &&& ~~~m.mask)) = i := by
  obtain ⟨k, hk, hmask⟩ := hm.mask
  have hpow : 2 ^ k ≤ 2 ^ 31 := Nat.pow_le_pow_right Nat.two_pos hk
  have hcap : m.cap ≤ 2 ^ k := by
    rcases hm.cap with hdvd | h0
    · exact hmask ▸ Nat.le_of_dvd (Nat.succ_pos _) hdvd
    · omega
  have hlow : m.mask &&& (i.toUInt64 ^^^ (r &&& ~~~m.mask)) = m.mask &&& i.toUInt64 := by
    apply UInt64.toBitVec_inj.mp
    simp only [UInt64.toBitVec_and, UInt64.toBitVec_xor, UInt64.toBitVec_not]
    ext j hj
    simp only [BitVec.getElem_and, BitVec.getElem_xor, BitVec.getElem_not]
    cases m.mask.toBitVec[j] <;> simp
  have hi64 : i.toUInt64.toNat = i := by
    change i % 2 ^ 64 = i
    omega
  rw [connmapIndex, hlow, UInt64.toNat_and, hi64, Nat.and_comm]
  have hm' : m.mask.toNat = 2 ^ k - 1 := by omega
  rw [hm', Nat.and_two_pow_sub_one_eq_mod, Nat.mod_eq_of_lt (by omega)]

/-- Filling the first free slot adds the connection, whose identifier names
the slot. -/
theorem fill (hm : ConnmapInv m h (i :: fl) live) {c : Ptr} (hc : c ∉ live) (r₁ r₂ : UInt32) :
    ConnmapInv (connmapFill m h c r₁ r₂ i).1 (connmapFill m h c r₁ r₂ i).2 fl (c :: live) := by
  obtain ⟨hi, hs⟩ := (hm.free i).mp List.mem_cons_self
  have hlt : i < (m.map.getD []).length := hm.length ▸ hi
  have hnd := hm.linked.nodup
  rw [List.nodup_cons] at hnd
  have hslot : (connmapFill m h c r₁ r₂ i).1.slot = Function.update m.slot i (some c) :=
    m.slot_put hlt _
  have hnext : (connmapFill m h c r₁ r₂ i).1.next = Function.update m.next i none :=
    m.next_put hlt _
  have hcount : (i :: fl).length + m.size = m.cap := hm.count
  refine ⟨hm.mask, hm.cap, ?_, ?_, ?_, ?_, ?_, ?_, ?_, ?_⟩
  · simpa [connmapFill, Connmap.put] using hm.map
  · exact (m.length_put i _).trans hm.length
  · rw [hnext]
    exact hm.linked.2.update hnd.1 _
  · intro j
    rw [hslot]
    rcases eq_or_ne j i with rfl | hji
    · simp [hnd.1]
    · have hj := hm.free j
      rw [List.mem_cons, or_iff_right hji] at hj
      rw [Function.update_of_ne hji]
      exact hj
  · intro j d hj
    rw [hslot] at hj
    rcases eq_or_ne j i with rfl | hji
    · rw [Function.update_self, Option.some.injEq] at hj
      subst hj
      simp only [connmapFill, ConnHeap.conn_set_self]
      exact hm.index_id hi _
    · rw [Function.update_of_ne hji] at hj
      have hdc : d ≠ c := fun hdc => hc (hdc ▸ hm.mem_live.mpr ⟨j, hj⟩)
      simp only [connmapFill, ConnHeap.conn_set_of_ne h hdc]
      exact hm.ids j d hj
  · rw [List.length_cons] at hcount
    change fl.length + (m.size + 1) = m.cap
    omega
  · rw [List.length_cons, ← hm.size]
    rfl
  · rw [hslot]
    exact (contents_fill hi hs c).trans (hm.live.cons c)

/-- Pushing a full slot takes its connection out. -/
theorem push (hm : ConnmapInv m h fl live) {i : ℕ} {c : Ptr} (hs : m.slot i = some c) :
    ConnmapInv { connmapPush m i with size := m.size - 1 } h (i :: fl) (live.erase c) := by
  have hi : i < m.cap := by
    by_contra hlt
    rw [Connmap.slot_of_ge hm.length (Nat.le_of_not_lt hlt)] at hs
    cases hs
  have hlt : i < (m.map.getD []).length := hm.length ▸ hi
  have hc : c ∈ live := hm.mem_live.mpr ⟨i, hs⟩
  have hfl : i ∉ fl := by
    intro hfl
    rw [((hm.free i).mp hfl).2] at hs
    cases hs
  have hpos : 0 < live.length := List.length_pos_of_mem hc
  have hcount : fl.length + m.size = m.cap := hm.count
  have hsize : m.size = live.length := hm.size
  have hslot : Connmap.slot { connmapPush m i with size := m.size - 1 } =
      Function.update m.slot i none := m.slot_put hlt _
  have hnext : Connmap.next { connmapPush m i with size := m.size - 1 } =
      Function.update m.next i m.free := m.next_put hlt _
  refine ⟨hm.mask, hm.cap, ?_, ?_, ?_, ?_, ?_, ?_, ?_, ?_⟩
  · simpa [connmapPush, Connmap.put] using hm.map
  · exact (m.length_put i _).trans hm.length
  · rw [hnext, linked_cons, Function.update_self]
    exact ⟨rfl, hm.linked.update hfl _⟩
  · intro j
    rw [hslot, List.mem_cons]
    rcases eq_or_ne j i with rfl | hji
    · rw [Function.update_self]
      exact iff_of_true (Or.inl rfl) ⟨hi, rfl⟩
    · rw [Function.update_of_ne hji, or_iff_right hji]
      exact hm.free j
  · intro j d hj
    rw [hslot] at hj
    rcases eq_or_ne j i with rfl | hji
    · simp at hj
    · rw [Function.update_of_ne hji] at hj
      exact hm.ids j d hj
  · change (i :: fl).length + (m.size - 1) = m.cap
    rw [List.length_cons]
    omega
  · change m.size - 1 = _
    rw [List.length_erase_of_mem hc, hsize]
  · rw [hslot]
    have hperm := (contents_empty hi hs).symm.trans hm.live
    exact List.cons_perm_iff_perm_erase.mp hperm |>.2

/-- What adding does, by its code. -/
theorem add (hm : ConnmapInv m h fl live) {c : Ptr} (hc : c ∉ live) (alloc : Bool)
    (r₁ r₂ : UInt32) :
    ((connmapAdd m h c alloc r₁ r₂).1 = 0 ∧ live.length < m.mask.toNat + 1 ∧
      ∃ fl', ConnmapInv (connmapAdd m h c alloc r₁ r₂).2.1 (connmapAdd m h c alloc r₁ r₂).2.2 fl'
        (c :: live)) ∨
    ((connmapAdd m h c alloc r₁ r₂).1 = ENOSPC ∧ live.length = m.mask.toNat + 1 ∧
      (connmapAdd m h c alloc r₁ r₂).2 = (m, h)) ∨
    ((connmapAdd m h c alloc r₁ r₂).1 = ENOMEM ∧ live.length < m.mask.toNat + 1 ∧
      alloc = false ∧ (connmapAdd m h c alloc r₁ r₂).2 = (m, h)) := by
  have hle := hm.size_le
  have hmax := hm.toNat_mask_add
  rw [← hm.size, ← hmax]
  unfold connmapAdd
  cases hfree : m.free with
  | some i =>
    have hhas : connmapHasFree m = true := by rw [connmapHasFree, hfree]; rfl
    have hl := hm.linked
    cases fl with
    | nil => rw [linked_nil, hfree] at hl; cases hl
    | cons j fl =>
      obtain rfl : i = j := Option.some.inj (hfree.symm.trans hl.1)
      have hroom := hm.size_lt
      simp only [hhas, if_true, ne_eq, not_true_eq_false, if_false, hfree]
      exact Or.inl ⟨trivial, hroom, fl, hm.fill hc r₁ r₂⟩
  | none =>
    have hhas : connmapHasFree m = false := by rw [connmapHasFree, hfree]; rfl
    obtain rfl : fl = [] := (Linked.unique hm.linked (by rw [hfree]; rfl))
    simp only [hhas, Bool.false_eq_true, if_false]
    by_cases hcode : (connmapGrow m alloc).1 = 0
    · obtain ⟨i, fl, hg⟩ := hm.grow hcode
      have hroom := hg.size_lt
      rw [connmapMax, connmapGrow_mask, ← connmapMax, hg.size, ← hm.size] at hroom
      rw [if_neg (not_not.mpr hcode), hg.linked.1]
      exact Or.inl ⟨rfl, hroom, fl, hg.fill hc r₁ r₂⟩
    · rw [if_pos hcode]
      obtain ⟨hsame, hwhy⟩ := grow_error hcode
      refine Or.inr ?_
      rw [hsame]
      rcases hwhy with ⟨hcode, hge⟩ | ⟨hcode, hlt, halloc⟩
      · exact Or.inl ⟨hcode, by omega, rfl⟩
      · exact Or.inr ⟨hcode, hlt, halloc, rfl⟩

/-- Removal takes out the connection with the identifier, if there is one, and
returns what `connmap_get` would have. -/
theorem del (hm : ConnmapInv m h fl live) (id : UInt64) :
    (connmapDel m h id).1 = connmapGet m h id ∧
      ∃ fl', ConnmapInv (connmapDel m h id).2 h fl'
        (live.filter fun c => (h.conn c).self.id ≠ id) := by
  have hnone : connmapGet m h id = none →
      live.filter (fun c => (h.conn c).self.id ≠ id) = live := by
    intro hg
    refine List.filter_eq_self.mpr fun c hc => ?_
    rw [decide_eq_true_eq]
    intro hid
    rw [hm.get_eq_some.mpr ⟨hc, hid⟩] at hg
    cases hg
  cases hg : connmapGet m h id with
  | none =>
    rw [hnone hg]
    simp only [connmapGet] at hg
    simp only [connmapDel]
    split
    · next hi =>
      rw [if_pos hi] at hg
      cases hs : m.slot (connmapIndex m id) with
      | none => exact ⟨rfl, fl, hm⟩
      | some c =>
        rw [hs] at hg
        simp only at hg ⊢
        split
        · next hid => rw [if_pos hid] at hg; cases hg
        · exact ⟨rfl, fl, hm⟩
    · exact ⟨rfl, fl, hm⟩
  | some c =>
    obtain ⟨hc, rfl⟩ := hm.get_eq_some.mp hg
    have hs := hm.slot_index hc
    have hi : connmapIndex m (h.conn c).self.id < m.cap := by
      by_contra hlt
      rw [Connmap.slot_of_ge hm.length (Nat.le_of_not_lt hlt)] at hs
      cases hs
    have hlive : live.filter (fun d => (h.conn d).self.id ≠ (h.conn c).self.id) =
        live.erase c := by
      rw [hm.nodup.erase_eq_filter]
      refine List.filter_congr fun d hd => ?_
      rw [bne, Bool.beq_eq_decide_eq, ← decide_not, decide_eq_decide]
      exact not_congr ⟨hm.ids_inj hd hc, fun hdc => hdc ▸ rfl⟩
    have hpush := hm.push hs
    rw [hlive]
    simp only [connmapDel, if_pos hi, hs, beq_self_eq_true, if_true, true_and]
    split
    · next h0 =>
      have hsize : (live.erase c).length = 0 := hpush.size.symm.trans (eq_of_beq h0)
      rw [List.eq_nil_of_length_eq_zero hsize]
      exact ⟨[], connmapInv_init _ h⟩
    · exact ⟨_, hpush⟩

theorem connmapDel_mask (hm : ConnmapInv m h fl live) (id : UInt64) :
    (connmapDel m h id).2.mask = m.mask := by
  simp only [connmapDel]
  split
  · split
    · next c hs =>
      split
      · next hid =>
        have hpush := hm.push hs
        split
        · exact connmapClear_mask hpush
        · rfl
      · rfl
    · rfl
  · rfl

end ConnmapInv

/-! ### Runs -/

/-- The calls on a connection map; an addition comes with the outcome of the
allocation it may make and the two numbers it draws. -/
inductive ConnmapOp
  | add (c : Ptr) (alloc : Bool) (r₁ r₂ : UInt32)
  | del (id : UInt64)
  | get (id : UInt64)
  | clear
  deriving DecidableEq, Repr

/-- A map with its connections, beside the set of them it should hold. -/
structure ConnmapState where
  m : Connmap
  h : ConnHeap
  live : List Ptr

/-- One call on the map, and what it is to the set. -/
def ConnmapOp.run (op : ConnmapOp) (s : ConnmapState) : ConnmapState :=
  match op with
  | .add c alloc r₁ r₂ =>
    let (code, m, h) := connmapAdd s.m s.h c alloc r₁ r₂
    ⟨m, h, if code = 0 then c :: s.live else s.live⟩
  | .del id =>
    ⟨(connmapDel s.m s.h id).2, s.h, s.live.filter fun c => (s.h.conn c).self.id ≠ id⟩
  | .get _ => s
  | .clear => ⟨connmapClear s.m, s.h, []⟩

/-- A connection that is added is not in the map yet. -/
def ConnmapStep (s : ConnmapState) (op : ConnmapOp) (t : ConnmapState) : Prop :=
  t = op.run s ∧ ∀ c alloc r₁ r₂, op = .add c alloc r₁ r₂ → c ∉ s.live

/-- An empty map for up to `max` connections. -/
def ConnmapState.init (max : UInt64) (h : ConnHeap) : ConnmapState := ⟨connmapInit max, h, []⟩

/-- What the map shows of itself is the set. -/
structure ConnmapGood (s : ConnmapState) : Prop where
  get : ∀ id c, connmapGet s.m s.h id = some c ↔ c ∈ s.live ∧ (s.h.conn c).self.id = id
  ids : ∀ c ∈ s.live, ∀ d ∈ s.live, (s.h.conn c).self.id = (s.h.conn d).self.id → c = d
  size : s.m.size = s.live.length
  /-- The free list visits each slot that is not full, once. -/
  free : ∃ fl, Linked s.m.next s.m.free fl ∧ fl.Nodup ∧
    ∀ i, i ∈ fl ↔ i < s.m.cap ∧ s.m.slot i = none
  /-- A loop over the slots, all of which there are, gets each connection once. -/
  length : (s.m.map.getD []).length = s.m.cap
  iterate : (connmapIterate s.m).Perm s.live ∧ s.live.Nodup

/-- No call changes how many connections fit.  An addition that succeeds is one
there was room for, a failed one changes nothing, and a removal returns the
connection there was. -/
def ConnmapOk (s : ConnmapState) (op : ConnmapOp) (t : ConnmapState) : Prop :=
  t.m.mask = s.m.mask ∧
  match op with
  | .add c alloc r₁ r₂ =>
    let code := (connmapAdd s.m s.h c alloc r₁ r₂).1
    (code = 0 ∨ code = ENOSPC ∨ code = ENOMEM ∧ alloc = false) ∧
      (code = ENOSPC ↔ s.live.length = s.m.mask.toNat + 1) ∧ (code ≠ 0 → t = s)
  | .del id => (connmapDel s.m s.h id).1 = connmapGet s.m s.h id
  | .get _ => True
  | .clear => True

theorem ConnmapInv.good {s : ConnmapState} {fl : List ℕ} (hs : ConnmapInv s.m s.h fl s.live) :
    ConnmapGood s where
  get := fun _ _ => hs.get_eq_some
  ids := fun _ hc _ hd => hs.ids_inj hc hd
  size := hs.size
  free := ⟨fl, hs.linked, hs.linked.nodup, hs.free⟩
  length := hs.length
  iterate := ⟨(connmapIterate_eq s.m).symm ▸ hs.live, hs.nodup⟩

theorem ConnmapInv.step {s t : ConnmapState} {fl : List ℕ} (hs : ConnmapInv s.m s.h fl s.live)
    {op : ConnmapOp} (hst : ConnmapStep s op t) :
    ConnmapOk s op t ∧ ∃ fl', ConnmapInv t.m t.h fl' t.live := by
  obtain ⟨rfl, hc⟩ := hst
  cases op with
  | add c alloc r₁ r₂ =>
    have hmask : (connmapAdd s.m s.h c alloc r₁ r₂).2.1.mask = s.m.mask :=
      connmapAdd_mask s.m s.h c alloc r₁ r₂
    have hadd := hs.add (hc c alloc r₁ r₂ rfl) alloc r₁ r₂
    simp only [ConnmapOk, ConnmapOp.run]
    generalize connmapAdd s.m s.h c alloc r₁ r₂ = res at hmask hadd ⊢
    obtain ⟨code, m, h⟩ := res
    rcases hadd with ⟨rfl, hlt, fl', hfl⟩ | ⟨rfl, heq, hsame⟩ | ⟨rfl, hlt, halloc, hsame⟩
    · refine ⟨⟨hmask, Or.inl rfl, ⟨fun h0 => ?_, fun heq => ?_⟩, fun h0 => absurd rfl h0⟩, fl', hfl⟩
      · cases h0
      · exact absurd heq hlt.ne
    · obtain ⟨rfl, rfl⟩ := Prod.mk.inj hsame
      exact ⟨⟨rfl, Or.inr (Or.inl rfl), iff_of_true rfl heq, fun _ => rfl⟩, fl, hs⟩
    · obtain ⟨rfl, rfl⟩ := Prod.mk.inj hsame
      refine ⟨⟨rfl, Or.inr (Or.inr ⟨rfl, halloc⟩), ⟨fun h0 => ?_, fun heq => ?_⟩, fun _ => rfl⟩,
        fl, hs⟩
      · cases h0
      · exact absurd heq hlt.ne
  | del id =>
    obtain ⟨hret, hinv⟩ := hs.del id
    exact ⟨⟨hs.connmapDel_mask id, hret⟩, hinv⟩
  | get id => exact ⟨⟨rfl, trivial⟩, fl, hs⟩
  | clear => exact ⟨⟨connmapClear_mask hs, trivial⟩, [], connmapInv_init _ s.h⟩

/-- **The map is a set of connections with distinct identifiers.**  This holds in
every state of every run, whatever numbers are drawn and whichever allocations
fail. -/
theorem connmap_refines (max : UInt64) (h : ConnHeap) {r : List (ConnmapOp × ConnmapState)}
    (hr : IsRun ConnmapStep (ConnmapState.init max h) r) :
    Holds ConnmapGood ConnmapOk (ConnmapState.init max h) r := by
  have hinit : ∃ fl, ConnmapInv (connmapInit max) h fl [] := ⟨[], connmapInv_init max h⟩
  have hstep : ∀ (s : ConnmapState) op t, (∃ fl, ConnmapInv s.m s.h fl s.live) → True →
      ConnmapStep s op t → ConnmapOk s op t ∧ ∃ fl, ConnmapInv t.m t.h fl t.live := by
    intro s op t hs _ hst
    obtain ⟨fl, hs⟩ := hs
    exact hs.step hst
  have hrun := holds_of_meets hstep hinit hr (meets_of_forall (fun _ _ => trivial) r _)
  exact hrun.mono (fun s hs => hs.elim fun _ hs => hs.good) fun _ _ _ _ hok => hok

/-- Three connections, none of them in a map. -/
def connmapHeap : ConnHeap := ⟨fun _ => default, fun _ => true, 3⟩

/-- A map for two connections that fills, refuses a third, empties and is
cleared. -/
theorem connmap_refines_two :
    Holds ConnmapGood ConnmapOk (ConnmapState.init 2 connmapHeap)
      (trace ConnmapOp.run (ConnmapState.init 2 connmapHeap)
        [.add 0 true 7 9, .add 1 true 5 4, .add 2 true 0 0, .clear, .add 2 true 1 1]) :=
  connmap_refines 2 connmapHeap (by
    simp [trace, ConnmapStep]
    decide)

end Libtrp
