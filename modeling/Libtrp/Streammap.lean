import Mathlib.Order.Basic
import Libtrp.Core
import Libtrp.Lib.Linked
import Libtrp.Lib.Run

/-!
# The stream map

A connection's streams are kept in an array, and the slots of that array that
hold no stream form a list through the array itself: a free slot holds the
address of the next one.  The array is allocated by the first addition and
freed when the last stream leaves.

What it is for is a table of at most `max` streams, each under an identifier
below `max`.  The map is that table until it is asked for a slot that holds no
stream or for one stream too many, or until it is used again after it became
empty.  In each of these cases it hands out a link or leaves the array, and
`streammap_table_iff` says that there is no other.

A call that leaves the array, or reads it after it was freed, has no meaning in
C; its result here is `none`.

## Main definitions

* `streammapAdd`, `streammapDel`, `streammapGet` — the operations.
* `StreammapInv max m h live` — the invariant: no array yet, an array whose
  slots are the streams `live` and a list of free ones, or an array that is gone.

## Main results

* `streammap_table_iff` — **when the stream map is a table.**

## References

`src/streammap.c`, `src/streammap.h`, and `tripc_open_stream` of `src/conn.c`.
-/

namespace Libtrp

open Lib

namespace StreamHeap

/-- `b[i]` -/
def read (h : StreamHeap) (b : Ptr) (i : ℤ) : Option StreamCell :=
  if i < 0 then none else (h.block b).bind fun cells => cells[i.toNat]?

/-- `b[i] = x` -/
def write (h : StreamHeap) (b : Ptr) (i : ℤ) (x : StreamCell) : StreamHeap :=
  h.setBlock b ((h.block b).map fun cells => cells.set i.toNat x)

end StreamHeap

/-! ### The operations -/

/-- `streammap_init` -/
def streammapInit (max : ℤ) : Streammap := ⟨0, max, none, .null⟩

/-- The loop of `streammap_add`: each slot of the new array holds the address
of the next one, the last slot that of the one behind the array. -/
def streammapThread (b : Ptr) (max : ℕ) : List StreamCell :=
  (List.range max).map fun i => .slot b (i + 1)

/-- The part of `streammap_add` that allocates the array. -/
def streammapAlloc (m : Streammap) (h : StreamHeap) (alloc : Bool) :
    Option (Errno × Streammap × StreamHeap) :=
  if m.free ≠ .null then some (0, m, h)
  else if !alloc then some (ENOMEM, m, h)
  else if INT_MAX < m.cap * 2 then none
  else
    let b := h.brk
    let h := { h with brk := h.brk + 1 }
    some (0, { m with map := some b, cap := m.cap * 2, free := .slot b 0 },
      h.setBlock b (some (streammapThread b m.cap.toNat)))

/-- The part of `streammap_add` that takes the first free slot. -/
def streammapFill (m : Streammap) (h : StreamHeap) (s : Ptr) : Option (Streammap × StreamHeap) :=
  match m.free with
  | .slot b i => do
    let free ← h.read b i
    let base ← m.map
    -- the index is the distance of two addresses, which must be in one array
    if b ≠ base then none
    else
      let h := h.setStream s fun x => { x with id := i }
      some ({ m with free := free, size := m.size + 1 }, h.write b i (.stream s))
  | _ => none

/-- `streammap_add` -/
def streammapAdd (m : Streammap) (h : StreamHeap) (s : Ptr) (alloc : Bool) :
    Option (Errno × Streammap × StreamHeap) :=
  match streammapAlloc m h alloc with
  | none => none
  | some (code, m, h) =>
    if code ≠ 0 then some (code, m, h)
    else (streammapFill m h s).map fun (m, h) => (0, m, h)

/-- `streammap_del` -/
def streammapDel (m : Streammap) (h : StreamHeap) (index : ℤ) :
    Option (StreamCell × Streammap × StreamHeap) :=
  if index < m.cap then do
    let b ← m.map
    let s ← h.read b index
    let h := h.write b index (if m.free ≠ .null then m.free else .null)
    let m := { m with free := .slot b index.toNat, size := m.size - 1 }
    if m.size = 0 then some (s, { m with map := none }, h.setBlock b none)
    else some (s, m, h)
  else some (.null, m, h)

/-- `streammap_get` -/
def streammapGet (m : Streammap) (h : StreamHeap) (index : ℤ) : Option StreamCell :=
  if index < m.cap then m.map.bind fun b => h.read b index
  else some .null

/-! ### The table it stands for -/

/-- The live stream with an identifier. -/
def streamAt (h : StreamHeap) (live : List Ptr) (index : ℤ) : StreamCell :=
  match live.find? fun s => (h.stream s).id = index with
  | some s => .stream s
  | none => .null

/-- An address in the array `b`, as an index. -/
def StreamCell.index? (b : Ptr) : StreamCell → Option ℕ
  | .slot b' j => if b' = b then some j else none
  | _ => none

/-- The link of a free slot, as an index of the same array. -/
def slotNext (b : Ptr) (cells : List StreamCell) (i : ℕ) : Option ℕ :=
  cells[i]?.bind (StreamCell.index? b)

/-- The array is `cells`, allocated as `b`, and its free slots are `fl`, in the
order of a list that ends behind the array. -/
structure StreammapActive (max : ℕ) (m : Streammap) (h : StreamHeap) (live : List Ptr) (b : Ptr)
    (cells : List StreamCell) (fl : List ℕ) : Prop where
  map : m.map = some b
  block : h.block b = some cells
  length : cells.length = max
  cap : m.cap = max * 2
  size : m.size = live.length
  count : fl.length + live.length = max
  ids : ∀ s ∈ live, ∃ i < max, (h.stream s).id = (i : ℕ) ∧ cells[i]? = some (.stream s)
  nodup : live.Nodup
  free : ∃ f, m.free = .slot b f ∧ Seg (slotNext b cells) (some f) fl (some max)
  slots : ∀ i < max, i ∈ fl ∨ ∃ s ∈ live, (h.stream s).id = (i : ℕ)
  mem_free : ∀ i ∈ fl, i < max

/-- The three phases of a map: no array yet, an array, and none any more. -/
inductive StreammapInv (max : ℕ) (m : Streammap) (h : StreamHeap) (live : List Ptr) : Prop
  | fresh : m = streammapInit max → live = [] → StreammapInv max m h live
  | active (b : Ptr) (cells : List StreamCell) (fl : List ℕ) :
      StreammapActive max m h live b cells fl → live ≠ [] → StreammapInv max m h live
  | gone (b : Ptr) (f : ℕ) : m = ⟨0, max * 2, none, .slot b f⟩ → live = [] →
      StreammapInv max m h live

/-! ### Slots -/

theorem slotNext_set {b : Ptr} {cells : List StreamCell} {i : ℕ} (hi : i < cells.length)
    (x : StreamCell) : slotNext b (cells.set i x) =
      Function.update (slotNext b cells) i (x.index? b) := by
  funext j
  rcases eq_or_ne j i with rfl | hji
  · simp [slotNext, hi]
  · simp [slotNext, hji, Ne.symm hji]

theorem slotNext_eq_some {b : Ptr} {cells : List StreamCell} {i j : ℕ} :
    slotNext b cells i = some j ↔ cells[i]? = some (.slot b j) := by
  unfold slotNext StreamCell.index?
  cases cells[i]? with
  | none => simp
  | some x => cases x <;> simp

theorem length_streammapThread (b : Ptr) (max : ℕ) : (streammapThread b max).length = max := by
  simp [streammapThread]

/-- The new array is one list of free slots that ends behind it. -/
theorem seg_streammapThread (b : Ptr) {max : ℕ} : ∀ n ≤ max,
    Seg (slotNext b (streammapThread b max)) (some 0) (List.range n) (some n) := by
  intro n
  induction n with
  | zero => intro _; rfl
  | succ n ih =>
    intro hn
    rw [List.range_succ]
    refine seg_append.mpr ⟨some n, ih (Nat.le_of_succ_le hn), rfl, ?_⟩
    rw [seg_nil, slotNext_eq_some]
    simp [streammapThread, Nat.lt_of_succ_le hn]

/-- A node of a segment that stands somewhere in the end has a link. -/
theorem exists_next_of_mem {α : Type*} {next : α → Option α} {q : α} :
    ∀ {l : List α} {p : Option α}, Seg next p l (some q) → ∀ a ∈ l, ∃ b, next a = some b := by
  intro l
  induction l with
  | nil => intro p _ a ha; cases ha
  | cons c l ih =>
    intro p h a ha
    rcases List.mem_cons.mp ha with rfl | ha
    · cases l with
      | nil => exact ⟨q, h.2⟩
      | cons d l => exact ⟨d, h.2.1⟩
    · exact ih h.2 a ha

namespace StreammapActive

variable {max : ℕ} {m : Streammap} {h : StreamHeap} {live : List Ptr} {b : Ptr}
  {cells : List StreamCell} {fl : List ℕ}

theorem read (hm : StreammapActive max m h live b cells fl) (i : ℕ) :
    h.read b i = cells[i]? := by
  rw [StreamHeap.read, if_neg (Int.not_lt.mpr (Int.natCast_nonneg i)), hm.block]
  rfl

theorem write (hm : StreammapActive max m h live b cells fl) (i : ℕ) (x : StreamCell) :
    h.write b i x = h.setBlock b (some (cells.set i x)) := by
  simp [StreamHeap.write, hm.block]

/-- A free slot holds a link. -/
theorem cell_free (hm : StreammapActive max m h live b cells fl) {i : ℕ} (hi : i ∈ fl) :
    ∃ j, cells[i]? = some (.slot b j) := by
  obtain ⟨f, -, hf⟩ := hm.free
  obtain ⟨j, hj⟩ := exists_next_of_mem hf i hi
  exact ⟨j, slotNext_eq_some.mp hj⟩

/-- The slot of a live stream holds it. -/
theorem cell_live (hm : StreammapActive max m h live b cells fl) {s : Ptr} (hs : s ∈ live) {i : ℕ}
    (hi : (h.stream s).id = i) : i < max ∧ cells[i]? = some (.stream s) := by
  obtain ⟨j, hj, hid, hc⟩ := hm.ids s hs
  obtain rfl : i = j := by rw [hi] at hid; exact_mod_cast hid
  exact ⟨hj, hc⟩

/-- No two live streams share an identifier. -/
theorem ids_inj (hm : StreammapActive max m h live b cells fl) {s t : Ptr} (hs : s ∈ live)
    (ht : t ∈ live) (hid : (h.stream s).id = (h.stream t).id) : s = t := by
  obtain ⟨i, -, hi, hc⟩ := hm.ids s hs
  have hct := (hm.cell_live ht (hid ▸ hi)).2
  rw [hc] at hct
  simpa using hct

/-- A free slot is the slot of no live stream. -/
theorem not_mem_free (hm : StreammapActive max m h live b cells fl) {s : Ptr} (hs : s ∈ live)
    {i : ℕ} (hi : (h.stream s).id = i) : i ∉ fl := by
  intro hfl
  obtain ⟨j, hj⟩ := hm.cell_free hfl
  have hc := (hm.cell_live hs hi).2
  rw [hj] at hc
  cases hc

/-- A list of free slots is not empty while there is room. -/
theorem free_ne_nil (hm : StreammapActive max m h live b cells fl) :
    fl = [] ↔ max ≤ live.length := by
  have hcount := hm.count
  rw [← List.length_eq_zero_iff]
  omega

/-- The list of free slots visits none twice. -/
theorem nodup_free (hm : StreammapActive max m h live b cells fl) : fl.Nodup := by
  obtain ⟨f, -, hf⟩ := hm.free
  refine hf.nodup fun i hi hmax => ?_
  exact Nat.ne_of_lt (hm.mem_free i hi) (Option.some.inj hmax)

/-- Writing the array changes no stream, and a write to another stream keeps the
slots of the live ones. -/
theorem ids_set (hm : StreammapActive max m h live b cells fl) {i : ℕ} {x : StreamCell}
    {h' : StreamHeap} {l : List Ptr} (hl : ∀ s ∈ l, s ∈ live)
    (hid : ∀ s ∈ l, (h'.stream s).id = (h.stream s).id) (hi : ∀ s ∈ l, (h.stream s).id ≠ i) :
    ∀ s ∈ l, ∃ j < max, (h'.stream s).id = (j : ℕ) ∧ (cells.set i x)[j]? = some (.stream s) := by
  intro s hs
  obtain ⟨j, hj, hsj, hc⟩ := hm.ids s (hl s hs)
  have hij : i ≠ j := by
    rintro rfl
    exact hi s hs hsj
  refine ⟨j, hj, (hid s hs).trans hsj, ?_⟩
  rw [List.getElem?_set_ne hij]
  exact hc

/-- Taking the first free slot for a stream. -/
theorem fill {i : ℕ} (hm : StreammapActive max m h live b cells (i :: fl)) {s : Ptr}
    (hs : s ∉ live) : ∃ m' h', streammapFill m h s = some (m', h') ∧
      StreammapActive max m' h' (s :: live) b (cells.set i (.stream s)) fl := by
  obtain ⟨f, hf, hfi, hseg⟩ := hm.free
  obtain rfl : f = i := Option.some.inj hfi
  obtain ⟨j, hj⟩ := hm.cell_free List.mem_cons_self
  have hnext : slotNext b cells f = some j := slotNext_eq_some.mpr hj
  have hmax : f < max := hm.mem_free f List.mem_cons_self
  have hlen : f < cells.length := hm.length ▸ hmax
  have hnd : f ∉ fl := (List.nodup_cons.mp hm.nodup_free).1
  have hcount := hm.count
  have hother : ∀ t ∈ live, (h.stream t).id ≠ (f : ℕ) := fun t ht hid =>
    hm.not_mem_free ht hid List.mem_cons_self
  have hst : ∀ t ∈ live, t ≠ s := fun t ht hts => hs (hts ▸ ht)
  let h' := h.setStream s fun x => { x with id := f }
  refine ⟨{ m with free := .slot b j, size := m.size + 1 }, h'.write b f (.stream s), ?_, ?_⟩
  · simp only [streammapFill, hf]
    rw [hm.read, hj, hm.map]
    simp [h']
  have hblock : h'.block b = some cells := hm.block
  have hw : h'.write b f (.stream s) = h'.setBlock b (some (cells.set f (.stream s))) := by
    simp [StreamHeap.write, hblock]
  rw [hw]
  refine ⟨hm.map, by simp, by simpa using hm.length, hm.cap, ?_, ?_, ?_, ?_, ?_, ?_, ?_⟩
  · simp [hm.size]
  · simp only [List.length_cons] at hcount ⊢
    omega
  · intro t ht
    rcases List.mem_cons.mp ht with rfl | ht
    · exact ⟨f, hmax, by simp [h'], by simp [hlen]⟩
    · refine hm.ids_set (fun _ ht => ht) (fun t ht => ?_) hother t ht
      rw [StreamHeap.stream_setBlock, StreamHeap.stream_setStream_of_ne h (hst t ht)]
  · exact List.nodup_cons.mpr ⟨hs, hm.nodup⟩
  · refine ⟨j, rfl, ?_⟩
    rw [slotNext_set hlen, ← hnext]
    exact hseg.update hnd _
  · intro k hk
    rcases hm.slots k hk with hk | ⟨t, ht, hid⟩
    · rcases List.mem_cons.mp hk with rfl | hk
      · exact Or.inr ⟨s, List.mem_cons_self, by simp [h']⟩
      · exact Or.inl hk
    · refine Or.inr ⟨t, List.mem_cons_of_mem s ht, ?_⟩
      rw [StreamHeap.stream_setBlock, StreamHeap.stream_setStream_of_ne h (hst t ht)]
      exact hid
  · exact fun k hk => hm.mem_free k (List.mem_cons_of_mem f hk)

/-- Without a free slot the next link is read behind the array. -/
theorem fill_full (hm : StreammapActive max m h live b cells []) (s : Ptr) :
    streammapFill m h s = none := by
  obtain ⟨f, hf, hfi⟩ := hm.free
  obtain rfl : f = max := Option.some.inj hfi
  simp only [streammapFill, hf]
  rw [hm.read, List.getElem?_eq_none hm.length.le]
  rfl

/-- What the map has for a live stream's identifier. -/
theorem get (hm : StreammapActive max m h live b cells fl) {s : Ptr} (hs : s ∈ live) :
    streammapGet m h (h.stream s).id = some (.stream s) := by
  obtain ⟨i, hi, hid, hc⟩ := hm.ids s hs
  have hlt : (i : ℤ) < m.cap := by
    rw [hm.cap]
    omega
  rw [hid, streammapGet, if_pos hlt, hm.map, Option.bind_some, hm.read, hc]

/-- A slot without a live stream is a link or not in the array. -/
theorem read_free (hm : StreammapActive max m h live b cells fl) {i : ℕ}
    (hi : ∀ s ∈ live, (h.stream s).id ≠ i) :
    (i < max ∧ ∃ j, h.read b i = some (.slot b j)) ∨ h.read b i = none := by
  rw [hm.read]
  rcases Nat.lt_or_ge i max with hlt | hge
  · rcases hm.slots i hlt with hfl | ⟨s, hs, hid⟩
    · exact Or.inl ⟨hlt, hm.cell_free hfl⟩
    · exact absurd hid (hi s hs)
  · exact Or.inr (List.getElem?_eq_none (hm.length.trans_le hge))

/-- Removing a live stream puts its slot in front of the free ones; without a
live stream left the array is freed. -/
theorem del (hm : StreammapActive max m h live b cells fl) {s : Ptr} (hs : s ∈ live) :
    ∃ m' h', streammapDel m h (h.stream s).id = some (.stream s, m', h') ∧
      h'.stream = h.stream ∧ StreammapInv max m' h' (live.erase s) := by
  obtain ⟨i, hi, hid, hc⟩ := hm.ids s hs
  have hlt : (i : ℤ) < m.cap := by
    rw [hm.cap]
    omega
  obtain ⟨f, hf, hseg⟩ := hm.free
  have hlen : i < cells.length := hm.length ▸ hi
  have hfl : i ∉ fl := hm.not_mem_free hs hid
  have hpos : 0 < live.length := List.length_pos_of_mem hs
  have hcount := hm.count
  have hsize := hm.size
  have herase : (live.erase s).length = live.length - 1 := List.length_erase_of_mem hs
  have hfree : (if m.free ≠ .null then m.free else .null) = m.free := by
    rw [hf]
    rfl
  have hread : h.read b i = some (.stream s) := (hm.read i).trans hc
  simp only [hid, streammapDel, if_pos hlt, hm.map, hfree, Option.bind_eq_bind, Option.bind_some,
    hread, hm.write, Int.toNat_natCast]
  split
  · next h0 =>
    refine ⟨_, _, rfl, rfl, .gone b i ?_ ?_⟩
    · rw [h0, hm.cap]
    · refine List.eq_nil_of_length_eq_zero ?_
      omega
  · next h0 =>
    refine ⟨_, _, rfl, rfl, .active b (cells.set i m.free) (i :: fl) ?_ ?_⟩
    · refine ⟨rfl, by simp, by simpa using hm.length, hm.cap, ?_, ?_, ?_, hm.nodup.erase s,
        ?_, ?_, ?_⟩
      · rw [herase, hsize]
        push_cast [Nat.sub_add_cancel hpos]
        omega
      · rw [List.length_cons]
        omega
      · refine hm.ids_set (fun t ht => List.mem_of_mem_erase ht) (fun _ _ => rfl) fun t ht hit => ?_
        have hts : t = s := hm.ids_inj (List.mem_of_mem_erase ht) hs (hit.trans hid.symm)
        exact hm.nodup.not_mem_erase (hts ▸ ht)
      · refine ⟨i, rfl, rfl, ?_⟩
        rw [slotNext_set hlen, Function.update_self, hf]
        simp only [StreamCell.index?, if_true]
        exact hseg.update hfl _
      · intro k hk
        rw [List.mem_cons]
        rcases hm.slots k hk with hk | ⟨t, ht, hit⟩
        · exact Or.inl (Or.inr hk)
        · rcases eq_or_ne t s with rfl | hts
          · refine Or.inl (Or.inl ?_)
            rw [hid] at hit
            exact_mod_cast hit.symm
          · exact Or.inr ⟨t, (List.mem_erase_of_ne hts).mpr ht, hit⟩
      · intro k hk
        rcases List.mem_cons.mp hk with rfl | hk
        · exact hi
        · exact hm.mem_free k hk
    · intro hnil
      rw [hnil, List.length_nil] at herase
      refine h0 ?_
      rw [hsize]
      omega

/-- Removing what is not there counts a stream that was not, or leaves the
array. -/
theorem del_free (hm : StreammapActive max m h live b cells fl) {i : ℕ} (hi : (i : ℤ) < m.cap)
    (hfree : ∀ s ∈ live, (h.stream s).id ≠ i) {c : StreamCell} {m' : Streammap} {h' : StreamHeap}
    (hdel : streammapDel m h i = some (c, m', h')) : m'.size = m.size - 1 := by
  simp only [streammapDel, if_pos hi, hm.map, Option.bind_eq_bind, Option.bind_some] at hdel
  rcases hm.read_free hfree with ⟨-, j, hr⟩ | hr
  · rw [hr, Option.bind_some] at hdel
    split at hdel
    · obtain ⟨-, rfl, -⟩ := Prod.mk.injEq .. ▸ Option.some.inj hdel
      rfl
    · obtain ⟨-, rfl, -⟩ := Prod.mk.injEq .. ▸ Option.some.inj hdel
      rfl
  · rw [hr] at hdel
    cases hdel

end StreammapActive

/-- The first addition makes an array of free slots. -/
theorem streammapAlloc_init {max : ℕ} (hmax : (max : ℤ) * 2 ≤ INT_MAX) (h : StreamHeap) :
    ∃ m' h', streammapAlloc (streammapInit max) h true = some (0, m', h') ∧
      StreammapActive max m' h' [] h.brk (streammapThread h.brk max) (List.range max) := by
  let h' := { h with brk := h.brk + 1 }
  refine ⟨⟨0, max * 2, some h.brk, .slot h.brk 0⟩,
    h'.setBlock h.brk (some (streammapThread h.brk max)), ?_, ?_⟩
  · simp [streammapAlloc, streammapInit, Int.not_lt.mpr hmax, h']
  · refine ⟨rfl, by simp, length_streammapThread _ _, rfl, rfl, by simp, ?_, List.nodup_nil,
      ⟨0, rfl, seg_streammapThread h.brk max le_rfl⟩, ?_, ?_⟩
    · intro s hs
      cases hs
    · intro i hi
      exact Or.inl (List.mem_range.mpr hi)
    · intro i hi
      exact List.mem_range.mp hi

/-! ### Runs -/

/-- The calls on a stream map; an addition comes with the outcome of the
allocation it may make. -/
inductive StreammapOp
  | add (s : Ptr) (alloc : Bool)
  | del (index : ℤ)
  | get (index : ℤ)
  deriving DecidableEq, Repr

/-- A map for `max` streams with its heap, beside the streams it should hold. -/
structure StreammapState where
  max : ℕ
  m : Streammap
  h : StreamHeap
  live : List Ptr

/-- One call on the map, and what it is to the table.  Nothing follows a call
that has no meaning. -/
def StreammapOp.run (op : StreammapOp) (s : StreammapState) : Option StreammapState :=
  match op with
  | .add p alloc => (streammapAdd s.m s.h p alloc).map fun (code, m, h) =>
      ⟨s.max, m, h, if code = 0 then p :: s.live else s.live⟩
  | .del index => (streammapDel s.m s.h index).map fun (_, m, h) =>
      ⟨s.max, m, h, s.live.filter fun p => (s.h.stream p).id ≠ index⟩
  | .get index => (streammapGet s.m s.h index).map fun _ => s

/-- Only streams that are not in the map are added, and only indices that are
not negative are asked for. -/
def StreammapOp.Legal (s : StreammapState) : StreammapOp → Prop
  | .add p _ => p ∉ s.live
  | .del index => 0 ≤ index
  | .get index => 0 ≤ index

def StreammapStep (s : Option StreammapState) (op : StreammapOp) (t : Option StreammapState) :
    Prop :=
  t = s.bind op.run ∧ ∀ s₀ ∈ s, op.Legal s₀

/-- An empty map for up to `max` streams. -/
def StreammapState.init (max : ℕ) (h : StreamHeap) : StreammapState :=
  ⟨max, streammapInit max, h, []⟩

/-- The streams have distinct identifiers below `max`, under which the map has
them, and their number is the map's size. -/
structure StreammapTable (s : StreammapState) : Prop where
  size : s.m.size = s.live.length
  nodup : s.live.Nodup
  range : ∀ p ∈ s.live, 0 ≤ (s.h.stream p).id ∧ (s.h.stream p).id < s.max
  ids : ∀ p ∈ s.live, ∀ q ∈ s.live, (s.h.stream p).id = (s.h.stream q).id → p = q
  get : ∀ p ∈ s.live, streammapGet s.m s.h (s.h.stream p).id = some (.stream p)

/-- The calls so far all had a meaning, and the map is a table. -/
def StreammapGood (s : Option StreammapState) : Prop := ∃ s₀, s = some s₀ ∧ StreammapTable s₀

/-- An addition succeeds exactly while there is room, and a lookup gets the live
stream with the index. -/
def StreammapOk (s : Option StreammapState) (op : StreammapOp) (_ : Option StreammapState) :
    Prop :=
  ∀ s₀ ∈ s,
    match op with
    | .add p alloc =>
      ∃ code m h, streammapAdd s₀.m s₀.h p alloc = some (code, m, h) ∧
        (code = 0 ↔ s₀.live.length < s₀.max)
    | .del _ => True
    | .get index => streammapGet s₀.m s₀.h index = some (streamAt s₀.h s₀.live index)

/-- There is room for the stream added; the first addition gets its array and
doubling `max` stays in an `int`, and no addition comes after the map became
empty; an index asked for is not below the capacity or is a live stream's. -/
def StreammapGuard (s : Option StreammapState) (op : StreammapOp) : Prop :=
  ∀ s₀ ∈ s,
    match op with
    | .add _ alloc =>
      s₀.live.length < s₀.max ∧
        (s₀.m.map = none → s₀.m.free = .null ∧ alloc = true ∧ s₀.m.cap * 2 ≤ INT_MAX)
    | .del index => s₀.m.cap ≤ index ∨ ∃ p ∈ s₀.live, (s₀.h.stream p).id = index
    | .get index => s₀.m.cap ≤ index ∨ ∃ p ∈ s₀.live, (s₀.h.stream p).id = index

namespace StreammapInv

variable {max : ℕ} {m : Streammap} {h : StreamHeap} {live : List Ptr}

theorem table {s : StreammapState} (hs : StreammapInv s.max s.m s.h s.live) :
    StreammapTable s := by
  rcases hs with ⟨hm, hl⟩ | ⟨b, cells, fl, hm, -⟩ | ⟨b, f, hm, hl⟩
  · exact ⟨by rw [hm, hl]; rfl, by simp [hl], by simp [hl], by simp [hl], by simp [hl]⟩
  · refine ⟨hm.size, hm.nodup, fun p hp => ?_, fun p hp q hq => hm.ids_inj hp hq,
      fun p hp => hm.get hp⟩
    obtain ⟨i, hi, hid, -⟩ := hm.ids p hp
    omega
  · exact ⟨by rw [hm, hl]; rfl, by simp [hl], by simp [hl], by simp [hl], by simp [hl]⟩

/-- An addition to a map with an array, be it a new one. -/
theorem add_of_alloc {m₁ : Streammap} {h₁ : StreamHeap} {b : Ptr} {cells : List StreamCell}
    {fl : List ℕ} {alloc : Bool} (halloc : streammapAlloc m h alloc = some (0, m₁, h₁))
    (hm : StreammapActive max m₁ h₁ live b cells fl) {s : Ptr} (hs : s ∉ live)
    (hroom : live.length < max) : ∃ m' h', streammapAdd m h s alloc = some (0, m', h') ∧
      StreammapInv max m' h' (s :: live) := by
  cases fl with
  | nil => exact absurd (hm.free_ne_nil.mp rfl) (Nat.not_le.mpr hroom)
  | cons i fl =>
    obtain ⟨m', h', hfill, hinv⟩ := hm.fill hs
    refine ⟨m', h', ?_, .active b _ fl hinv (List.cons_ne_nil s live)⟩
    simp [streammapAdd, halloc, hfill]

theorem alloc_active {b : Ptr} {cells : List StreamCell} {fl : List ℕ}
    (hm : StreammapActive max m h live b cells fl) (alloc : Bool) :
    streammapAlloc m h alloc = some (0, m, h) := by
  obtain ⟨f, hf, -⟩ := hm.free
  simp [streammapAlloc, hf]

theorem add (hm : StreammapInv max m h live) {s : Ptr} (hs : s ∉ live) {alloc : Bool}
    (hroom : live.length < max)
    (hmap : m.map = none → m.free = .null ∧ alloc = true ∧ m.cap * 2 ≤ INT_MAX) :
    ∃ m' h', streammapAdd m h s alloc = some (0, m', h') ∧
      StreammapInv max m' h' (s :: live) := by
  rcases hm with ⟨rfl, rfl⟩ | ⟨b, cells, fl, hm, -⟩ | ⟨b, f, rfl, -⟩
  · obtain ⟨-, rfl, hcap⟩ := hmap rfl
    obtain ⟨m₁, h₁, halloc, hinv⟩ := streammapAlloc_init hcap h
    exact add_of_alloc halloc hinv hs hroom
  · exact add_of_alloc (alloc_active hm alloc) hm hs hroom
  · cases (hmap rfl).1

/-- An addition there is no room for, or that needs what it does not get,
fails or leaves the array. -/
theorem add_break (hm : StreammapInv max m h live) (hmax : 1 ≤ max) (s : Ptr) (alloc : Bool)
    (hbad : live.length < max →
      ¬ (m.map = none → m.free = .null ∧ alloc = true ∧ m.cap * 2 ≤ INT_MAX)) :
    (streammapAdd m h s alloc = none) ∨
      (live.length < max ∧ streammapAdd m h s alloc = some (ENOMEM, m, h)) := by
  rcases hm with ⟨rfl, rfl⟩ | ⟨b, cells, fl, hm, -⟩ | ⟨b, f, rfl, rfl⟩
  · cases alloc with
    | false =>
      refine Or.inr ⟨hmax, ?_⟩
      simp [streammapAdd, streammapAlloc, streammapInit, ENOMEM]
    | true =>
      refine Or.inl ?_
      have hcap : INT_MAX < (max : ℤ) * 2 := by
        have := hbad hmax
        push Not at this
        simpa [streammapInit] using this
      simp [streammapAdd, streammapAlloc, streammapInit, hcap]
  · refine Or.inl ?_
    have hfull : max ≤ live.length := by
      by_contra hlt
      refine hbad (Nat.lt_of_not_le hlt) fun hnone => ?_
      rw [hm.map] at hnone
      cases hnone
    obtain rfl : fl = [] := hm.free_ne_nil.mpr hfull
    simp [streammapAdd, alloc_active hm alloc, hm.fill_full s]
  · refine Or.inl ?_
    simp only [streammapAdd, streammapAlloc, streammapFill]
    cases h.read b f <;> simp

/-- Above the capacity there is no live stream. -/
theorem id_lt_cap (hm : StreammapInv max m h live) {s : Ptr} (hs : s ∈ live) :
    (h.stream s).id < m.cap := by
  rcases hm with ⟨-, rfl⟩ | ⟨b, cells, fl, hm, -⟩ | ⟨b, f, -, rfl⟩
  · cases hs
  · obtain ⟨i, hi, hid, -⟩ := hm.ids s hs
    rw [hid, hm.cap]
    omega
  · cases hs

theorem streamAt_of_mem (hm : StreammapInv max m h live) {s : Ptr} (hs : s ∈ live) :
    streamAt h live (h.stream s).id = .stream s := by
  have ht := table (s := ⟨max, m, h, live⟩) hm
  unfold streamAt
  cases hf : live.find? fun t => (h.stream t).id = (h.stream s).id with
  | none =>
    have := List.find?_eq_none.mp hf s hs
    simp at this
  | some t =>
    have hid : (h.stream t).id = (h.stream s).id := by simpa using List.find?_some hf
    rw [ht.ids t (List.mem_of_find?_eq_some hf) s hs hid]

theorem streamAt_of_forall_ne {i : ℤ} (hi : ∀ s ∈ live, (h.stream s).id ≠ i) :
    streamAt h live i = .null := by
  have hf : (live.find? fun s => (h.stream s).id = i) = none :=
    List.find?_eq_none.mpr fun s hs => by simpa using hi s hs
  rw [streamAt, hf]

/-- A lookup of a live stream or of an index that is not in the array. -/
theorem get (hm : StreammapInv max m h live) {i : ℤ}
    (hi : m.cap ≤ i ∨ ∃ s ∈ live, (h.stream s).id = i) :
    streammapGet m h i = some (streamAt h live i) := by
  rcases hi with hi | ⟨s, hs, rfl⟩
  · have hnone : ∀ s ∈ live, (h.stream s).id ≠ i := fun s hs hid =>
      absurd (hid ▸ hm.id_lt_cap hs) (Int.not_lt.mpr hi)
    rw [streamAt_of_forall_ne hnone, streammapGet, if_neg (Int.not_lt.mpr hi)]
  · rw [hm.streamAt_of_mem hs]
    exact (table (s := ⟨max, m, h, live⟩) hm).get s hs

/-- Any other lookup gets a link or leaves the array. -/
theorem get_break (hm : StreammapInv max m h live) {i : ℤ} (h0 : 0 ≤ i) (hi : i < m.cap)
    (hfree : ∀ s ∈ live, (h.stream s).id ≠ i) : streammapGet m h i ≠ some .null := by
  obtain ⟨i, rfl⟩ := Int.eq_ofNat_of_zero_le h0
  rcases hm with ⟨rfl, -⟩ | ⟨b, cells, fl, hm, -⟩ | ⟨b, f, rfl, -⟩
  · rw [streammapGet, if_pos hi]
    simp [streammapInit]
  · rw [streammapGet, if_pos hi, hm.map, Option.bind_some]
    rcases hm.read_free hfree with ⟨-, j, hr⟩ | hr <;> simp [hr]
  · rw [streammapGet, if_pos hi]
    simp

/-- A removal of a live stream or of an index that is not in the array. -/
theorem del (hm : StreammapInv max m h live) {i : ℤ}
    (hi : m.cap ≤ i ∨ ∃ s ∈ live, (h.stream s).id = i) :
    ∃ c m' h', streammapDel m h i = some (c, m', h') ∧
      StreammapInv max m' h' (live.filter fun s => (h.stream s).id ≠ i) := by
  rcases hi with hi | ⟨s, hs, rfl⟩
  · have hlive : live.filter (fun s => (h.stream s).id ≠ i) = live := by
      refine List.filter_eq_self.mpr fun s hs => ?_
      rw [decide_eq_true_eq]
      exact fun hid => absurd (hid ▸ hm.id_lt_cap hs) (Int.not_lt.mpr hi)
    rw [hlive]
    exact ⟨.null, m, h, by rw [streammapDel, if_neg (Int.not_lt.mpr hi)], hm⟩
  · have ht := table (s := ⟨max, m, h, live⟩) hm
    have hlive : live.filter (fun t => (h.stream t).id ≠ (h.stream s).id) = live.erase s := by
      rw [ht.nodup.erase_eq_filter]
      refine List.filter_congr fun t htl => ?_
      rw [bne, Bool.beq_eq_decide_eq, ← decide_not, decide_eq_decide]
      exact not_congr ⟨ht.ids t htl s hs, fun hts => hts ▸ rfl⟩
    rw [hlive]
    rcases hm with ⟨-, rfl⟩ | ⟨b, cells, fl, hm, -⟩ | ⟨b, f, -, rfl⟩
    · cases hs
    · obtain ⟨m', h', hdel, -, hinv⟩ := hm.del hs
      exact ⟨_, m', h', hdel, hinv⟩
    · cases hs

/-- Any other removal counts a stream that was not there or leaves the array. -/
theorem del_break (hm : StreammapInv max m h live) {i : ℤ} (h0 : 0 ≤ i) (hi : i < m.cap)
    (hfree : ∀ s ∈ live, (h.stream s).id ≠ i) {c : StreamCell} {m' : Streammap} {h' : StreamHeap}
    (hdel : streammapDel m h i = some (c, m', h')) : m'.size = m.size - 1 := by
  obtain ⟨i, rfl⟩ := Int.eq_ofNat_of_zero_le h0
  rcases hm with ⟨rfl, -⟩ | ⟨b, cells, fl, hm, -⟩ | ⟨b, f, rfl, -⟩
  · rw [streammapDel, if_pos hi] at hdel
    cases hdel
  · exact hm.del_free hi hfree hdel
  · rw [streammapDel, if_pos hi] at hdel
    cases hdel

end StreammapInv

/-- A map in one of its three phases. -/
def StreammapRep (s : Option StreammapState) : Prop :=
  ∃ s₀, s = some s₀ ∧ 1 ≤ s₀.max ∧ StreammapInv s₀.max s₀.m s₀.h s₀.live

theorem StreammapRep.good {s : Option StreammapState} (hs : StreammapRep s) :
    StreammapGood s := by
  obtain ⟨s₀, rfl, -, hs⟩ := hs
  exact ⟨s₀, rfl, hs.table⟩

theorem StreammapRep.step {s t : Option StreammapState} {op : StreammapOp} (hs : StreammapRep s)
    (hg : StreammapGuard s op) (hst : StreammapStep s op t) :
    StreammapOk s op t ∧ StreammapRep t := by
  obtain ⟨s, rfl, hmax, hs⟩ := hs
  obtain ⟨rfl, hlegal⟩ := hst
  have hg := hg s rfl
  have hlegal := hlegal s rfl
  cases op with
  | add p alloc =>
    obtain ⟨hroom, hmap⟩ := hg
    obtain ⟨m', h', hadd, hinv⟩ := hs.add hlegal hroom hmap
    refine ⟨?_, ⟨s.max, m', h', p :: s.live⟩, by simp [StreammapOp.run, hadd], hmax, hinv⟩
    rintro _ ⟨⟩
    exact ⟨0, m', h', hadd, iff_of_true rfl hroom⟩
  | del i =>
    obtain ⟨c, m', h', hdel, hinv⟩ := hs.del hg
    refine ⟨?_, ⟨s.max, m', h', _⟩, by simp only [Option.bind_some, StreammapOp.run, hdel]; rfl,
      hmax, hinv⟩
    rintro _ ⟨⟩
    trivial
  | get i =>
    have hget := hs.get hg
    refine ⟨?_, s, by simp [StreammapOp.run, hget], hmax, hs⟩
    rintro _ ⟨⟩
    exact hget

theorem StreammapRep.break {s t : Option StreammapState} {op : StreammapOp} (hs : StreammapRep s)
    (hg : ¬ StreammapGuard s op) (hst : StreammapStep s op t) :
    ¬ (StreammapOk s op t ∧ StreammapGood t) := by
  obtain ⟨s, rfl, hmax, hs⟩ := hs
  obtain ⟨rfl, hlegal⟩ := hst
  have hlegal := hlegal s rfl
  unfold StreammapGuard at hg
  push Not at hg
  obtain ⟨_, ⟨⟩, hg⟩ := hg
  rintro ⟨hok, s', hs', ht⟩
  have hok := hok s rfl
  cases op with
  | add p alloc =>
    obtain ⟨code, m', h', hadd, hcode⟩ := hok
    rcases hs.add_break hmax p alloc (fun hroom hmap => hg ⟨hroom, hmap⟩) with
      hnone | ⟨hroom, hmem⟩
    · rw [hnone] at hadd
      cases hadd
    · rw [hmem] at hadd
      cases hadd
      exact absurd (hcode.mpr hroom) (by decide)
  | del i =>
    push Not at hg
    obtain ⟨hi, hfree⟩ := hg
    cases hdel : streammapDel s.m s.h i with
    | none =>
      simp only [Option.bind_some, StreammapOp.run, hdel, Option.map_none] at hs'
      cases hs'
    | some res =>
      obtain ⟨c, m', h'⟩ := res
      have hsize := hs.del_break hlegal (by omega) hfree hdel
      simp only [Option.bind_some, StreammapOp.run, hdel, Option.map_some,
        Option.some.injEq] at hs'
      have hlive : s.live.filter (fun p => (s.h.stream p).id ≠ i) = s.live :=
        List.filter_eq_self.mpr fun p hp => by simpa using hfree p hp
      have htable : m'.size = (s.live.filter fun p => (s.h.stream p).id ≠ i).length := by
        rw [← hs'] at ht
        exact ht.size
      have hcount : s.m.size = s.live.length := hs.table.size
      rw [hlive, hsize, hcount] at htable
      omega
  | get i =>
    push Not at hg
    obtain ⟨hi, hfree⟩ := hg
    have hget : streammapGet s.m s.h i = some (streamAt s.h s.live i) := hok
    rw [StreammapInv.streamAt_of_forall_ne hfree] at hget
    exact hs.get_break hlegal (by omega) hfree hget

/-- **When the stream map is a table.**  From an empty map for `max` streams, a
run behaves as a table in every state it reaches exactly when each addition
finds room, the first one gets its array and no other follows an emptying, and
each index asked for is not below the capacity or is that of a live stream. -/
theorem streammap_table_iff {max : ℕ} (hmax : 1 ≤ max) (h : StreamHeap)
    {r : List (StreammapOp × Option StreammapState)}
    (hr : IsRun StreammapStep (some (StreammapState.init max h)) r) :
    Holds StreammapGood StreammapOk (some (StreammapState.init max h)) r ↔
      Meets StreammapGuard (some (StreammapState.init max h)) r := by
  have hinit : StreammapRep (some (StreammapState.init max h)) :=
    ⟨_, rfl, hmax, .fresh rfl rfl⟩
  refine holds_iff_meets ?_ ?_ ?_ hinit hr
  · exact fun _ hs => hs.good
  · exact fun _ _ _ hs hg hst => hs.step hg hst
  · exact fun _ _ _ hs hg hst => hs.break hg hst

/-- No streams yet. -/
def streamHeap : StreamHeap := ⟨fun _ => default, fun _ => default, fun _ => none, 0⟩

/-- Two streams that come and one that goes make such a run. -/
theorem streammap_table_iff_two :
    Holds StreammapGood StreammapOk (some (StreammapState.init 2 streamHeap))
      (trace (fun op s => s.bind (StreammapOp.run op)) (some (StreammapState.init 2 streamHeap))
        [.add 5 true, .add 6 true, .get 0, .del 1, .get 4]) := by
  refine (streammap_table_iff (by decide) streamHeap ?_).mpr ?_
  · simp only [trace, isRun_cons, isRun_nil, StreammapStep, StreammapOp.Legal, true_and, and_true]
    decide
  · simp only [trace, meets_cons, meets_nil, StreammapGuard, and_true]
    decide

/-- With one stream of two, a lookup of the other slot gets the address behind
the array. -/
theorem streammap_get_free_not_null :
    ¬ ∀ (max : ℕ) (h : StreamHeap) (r : List (StreammapOp × Option StreammapState)), 1 ≤ max →
      IsRun StreammapStep (some (StreammapState.init max h)) r →
        Holds StreammapGood StreammapOk (some (StreammapState.init max h)) r := by
  intro hall
  have h := hall 2 streamHeap (trace (fun op s => s.bind (StreammapOp.run op))
    (some (StreammapState.init 2 streamHeap)) [.add 5 true, .get 1]) (by decide) (by
      simp only [trace, isRun_cons, isRun_nil, StreammapStep, StreammapOp.Legal, true_and, and_true]
      decide)
  have hget : StreammapOk _ (.get 1) _ := h.2.2.2.1
  exact absurd (hget _ rfl) (by decide)

end Libtrp
