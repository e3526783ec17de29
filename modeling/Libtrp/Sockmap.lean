import Libtrp.Core
import Libtrp.Lib.Keyed
import Libtrp.Lib.Run

/-!
# The map of sockets

The map associates descriptors with data.  It is an array whose first `len` entries are in
use; a descriptor that is removed leaves its place to the last of them, and what was
allocated is kept for the next one that is put.

## Main definitions

* `sockmapPut`, `sockmapDel`, `sockmapGet` — the operations.
* `SockmapRep m l` — the first entries of the map are `l`, one for each descriptor.

## Main results

* `sockmap_refines` — **the map is a finite map**, whatever allocations fail.

## References

`src/sockmap.c`, `src/sockmap.h`.
-/

namespace Libtrp

open Lib

/-- `sockmap_entry_t` -/
structure SockmapEntry where
  fd : ℤ
  data : Option Ptr
  deriving DecidableEq, Repr

/-- `sockmap_t` -/
structure Sockmap where
  len : ℕ
  alen : ℕ
  map : Option (List SockmapEntry)
  deriving DecidableEq, Repr

/-- `SOCKMAP_MAX` -/
def sockmapMax : ℕ := 2 ^ 31 - 2

/-- `sockmap_init` -/
def sockmapInit : Sockmap := ⟨0, 0, none⟩

namespace Sockmap

/-- The array. -/
def entries (m : Sockmap) : List SockmapEntry := m.map.getD []

/-- The entries that are in use. -/
def live (m : Sockmap) : List SockmapEntry := m.entries.take m.len

/-- `map->map[i]` -/
def entry (m : Sockmap) (i : ℕ) : SockmapEntry := m.entries.getD i ⟨0, none⟩

/-- `map->map[i] = e` -/
def setEntry (m : Sockmap) (i : ℕ) (e : SockmapEntry) : Sockmap :=
  { m with map := m.map.map fun a => a.set i e }

end Sockmap

/-- The loop of the three functions, which looks for the descriptor. -/
def sockmapFind (m : Sockmap) (fd : ℤ) : Option ℕ := m.live.findIdx? fun e => fd = e.fd

/-- `tripm_realloc`, where new memory reads `junk`. -/
def sockmapRealloc (a : List SockmapEntry) (n : ℕ) (junk : SockmapEntry) : List SockmapEntry :=
  a.take n ++ List.replicate (n - a.length) junk

/-- `sockmap_put`, where it adds the new entry. -/
def sockmapAppend (m : Sockmap) (fd : ℤ) (data : Option Ptr) : Sockmap :=
  { m.setEntry m.len ⟨fd, data⟩ with len := m.len + 1 }

/-- `sockmap_put`; `alloc` is what the allocation it may make returns. -/
def sockmapPut (m : Sockmap) (fd : ℤ) (data : Option Ptr) (alloc : Option SockmapEntry) :
    Errno × Sockmap :=
  match sockmapFind m fd with
  | some i => (0, m.setEntry i { m.entry i with data := data })
  | none =>
    if m.alen ≤ m.len then
      if sockmapMax = m.alen then (ENOMEM, m)
      else
        match alloc with
        | none => (ENOMEM, m)
        | some junk =>
          let nmap := match m.map with
            | some a => sockmapRealloc a (m.len + 1) junk
            | none => [junk]
          (0, sockmapAppend { m with map := some nmap, alen := m.len + 1 } fd data)
    else (0, sockmapAppend m fd data)

/-- `sockmap_del` -/
def sockmapDel (m : Sockmap) (fd : ℤ) : Sockmap :=
  match sockmapFind m fd with
  | some i =>
    let m := { m with len := m.len - 1 }
    (m.setEntry i (m.entry m.len)).setEntry m.len ⟨0, none⟩
  | none => m

/-- `sockmap_get` -/
def sockmapGet (m : Sockmap) (fd : ℤ) : Option Ptr :=
  match sockmapFind m fd with
  | some i => (m.entry i).data
  | none => none

/-! ### The array -/

namespace Sockmap

@[simp] theorem entries_setEntry (m : Sockmap) (i : ℕ) (e : SockmapEntry) :
    (m.setEntry i e).entries = m.entries.set i e := by
  unfold setEntry entries
  cases m.map <;> rfl

@[simp] theorem len_setEntry (m : Sockmap) (i : ℕ) (e : SockmapEntry) :
    (m.setEntry i e).len = m.len := rfl

@[simp] theorem alen_setEntry (m : Sockmap) (i : ℕ) (e : SockmapEntry) :
    (m.setEntry i e).alen = m.alen := rfl

end Sockmap

/-- The entries of the map that are in use are `l`, one for each descriptor; `spare` is what
is allocated behind them. -/
structure SockmapRep (m : Sockmap) (l spare : List SockmapEntry) : Prop where
  entries : m.entries = l ++ spare
  len : m.len = l.length
  alen : m.alen = l.length + spare.length
  max : m.alen ≤ sockmapMax
  keys : (l.map SockmapEntry.fd).Nodup

namespace SockmapRep

variable {m : Sockmap} {l spare : List SockmapEntry} {fd : ℤ}

theorem live (hm : SockmapRep m l spare) : m.live = l := by
  rw [Sockmap.live, hm.entries, hm.len, List.take_left]

theorem entry (hm : SockmapRep m l spare) {i : ℕ} (hi : i < l.length) : m.entry i = l[i] := by
  rw [Sockmap.entry, hm.entries]
  simp [List.getElem?_append_left hi, hi]

/-- The loop finds the entry of the descriptor. -/
theorem find_eq_some (hm : SockmapRep m l spare) {i : ℕ} (h : sockmapFind m fd = some i) :
    ∃ hi : i < l.length, l[i].fd = fd := by
  rw [sockmapFind, hm.live, List.findIdx?_eq_some_iff_getElem] at h
  obtain ⟨hi, hfd, -⟩ := h
  exact ⟨hi, (of_decide_eq_true hfd).symm⟩

theorem find_eq_none (hm : SockmapRep m l spare) (h : sockmapFind m fd = none) :
    fd ∉ l.map SockmapEntry.fd := by
  rw [sockmapFind, hm.live, List.findIdx?_eq_none_iff] at h
  intro hmem
  obtain ⟨e, he, rfl⟩ := List.mem_map.mp hmem
  simpa using h e he

/-- What is read is the data of the one entry. -/
theorem get (hm : SockmapRep m l spare) (fd : ℤ) :
    sockmapGet m fd = (lookup SockmapEntry.fd l fd).bind SockmapEntry.data := by
  unfold sockmapGet
  cases hfind : sockmapFind m fd with
  | none =>
    rw [lookup_eq_none.mpr (hm.find_eq_none hfind)]
    rfl
  | some i =>
    obtain ⟨hi, hfd⟩ := hm.find_eq_some hfind
    have hlookup : lookup SockmapEntry.fd l fd = some l[i] :=
      (lookup_eq_some hm.keys).mpr ⟨List.getElem_mem hi, hfd⟩
    rw [hlookup, Option.bind_some, ← hm.entry hi]

/-! ### What each operation does to it -/

/-- Putting data at a descriptor that is there replaces its data. -/
theorem set (hm : SockmapRep m l spare) {i : ℕ} (hi : i < l.length) (hfd : l[i].fd = fd)
    (data : Option Ptr) :
    SockmapRep (m.setEntry i { m.entry i with data := data }) (l.set i ⟨fd, data⟩) spare where
  entries := by
    have hentry : { m.entry i with data := data } = (⟨fd, data⟩ : SockmapEntry) := by
      rw [hm.entry hi, ← hfd]
    rw [hentry, Sockmap.entries_setEntry, hm.entries, List.set_append_left i _ hi]
  len := by
    rw [List.length_set]
    exact hm.len
  alen := by
    rw [List.length_set]
    exact hm.alen
  max := hm.max
  keys := (lookup_set (a := ⟨fd, data⟩) hm.keys hi hfd.symm).1

/-- Adding an entry where there is room for it. -/
theorem append {e : SockmapEntry} (hm : SockmapRep m l (e :: spare))
    (hfd : fd ∉ l.map SockmapEntry.fd) (data : Option Ptr) :
    SockmapRep (sockmapAppend m fd data) (l ++ [⟨fd, data⟩]) spare where
  entries := by
    have hset : (sockmapAppend m fd data).entries = (m.setEntry m.len ⟨fd, data⟩).entries := rfl
    rw [hset, Sockmap.entries_setEntry, hm.entries, hm.len,
      List.set_append_right _ _ (Nat.le_refl _), Nat.sub_self, List.set_cons_zero,
      List.append_assoc, List.singleton_append]
  len := by
    rw [List.length_append, ← hm.len]
    rfl
  alen := by
    have halen := hm.alen
    rw [List.length_cons] at halen
    rw [List.length_append, List.length_singleton, Nat.add_assoc, Nat.add_comm 1]
    exact halen
  max := hm.max
  keys := (lookup_concat hm.keys hfd (a := ⟨fd, data⟩)).1

/-- When there is none, one entry is allocated. -/
theorem grow (hm : SockmapRep m l []) (hmax : sockmapMax ≠ m.alen) (junk : SockmapEntry) :
    SockmapRep
      { m with
        map := some (match m.map with
          | some a => sockmapRealloc a (m.len + 1) junk
          | none => [junk])
        alen := m.len + 1 } l [junk] where
  entries := by
    have hentries := hm.entries
    rw [List.append_nil] at hentries
    unfold Sockmap.entries at hentries ⊢
    cases hmap : m.map with
    | none =>
      rw [hmap] at hentries
      simp [← hentries]
    | some a =>
      rw [hmap, Option.getD_some] at hentries
      subst hentries
      simp [sockmapRealloc, hm.len]
  len := hm.len
  alen := by
    rw [hm.len]
    rfl
  max := by
    have hle := hm.max
    have halen := hm.alen
    have hlen := hm.len
    rw [List.length_nil] at halen
    dsimp only
    omega
  keys := hm.keys

/-- The last entry takes the place of the one that is removed. -/
theorem erase (hm : SockmapRep m l spare) {i : ℕ} (hi : i < l.length)
    (hfind : sockmapFind m fd = some i) :
    SockmapRep (sockmapDel m fd) (swapErase l i) (⟨0, none⟩ :: spare) := by
  have hkeys := (lookup_swapErase hm.keys hi).1
  induction l using List.reverseRecOn with
  | nil => simp at hi
  | append_singleton l last =>
    have hlen : m.len - 1 = l.length := by
      rw [hm.len, List.length_append, List.length_singleton, Nat.add_sub_cancel]
    have hlast : m.entry l.length = last := by
      rw [hm.entry (by simp)]
      simp
    have hdel : sockmapDel m fd =
        { (m.setEntry i last).setEntry l.length ⟨0, none⟩ with len := l.length } := by
      unfold sockmapDel
      rw [hfind]
      dsimp only
      rw [hlen, ← hlast]
      rfl
    have hswap : (swapErase (l ++ [last]) i).length = l.length := by
      rw [swapErase_concat]
      split_ifs
      · rw [List.length_set]
      · rfl
    rw [hdel]
    refine ⟨?_, hswap.symm, ?_, hm.max, hkeys⟩
    · have hset : ∀ s : Sockmap, { s with len := l.length }.entries = s.entries := fun _ => rfl
      rw [hset, Sockmap.entries_setEntry, Sockmap.entries_setEntry, hm.entries, swapErase_concat,
        List.append_assoc, List.singleton_append]
      split_ifs with hlt
      · rw [List.set_append_left i _ hlt, List.set_append_right _ _ (by simp)]
        simp
      · have hi' : i = l.length := by
          rw [List.length_append, List.length_singleton] at hi
          omega
        rw [hi', List.set_append_right _ _ (Nat.le_refl _), List.set_append_right _ _
          (Nat.le_refl _)]
        simp
    · rw [hswap, List.length_cons]
      have halen := hm.alen
      rw [List.length_append, List.length_singleton] at halen
      change m.alen = _
      omega

end SockmapRep

/-- An empty map. -/
theorem sockmapRep_init : SockmapRep sockmapInit [] [] where
  entries := rfl
  len := rfl
  alen := rfl
  max := by decide
  keys := List.nodup_nil

/-! ### Runs -/

/-- The calls on a map; one that puts comes with what the allocation it may make returns. -/
inductive SockmapOp
  | put (fd : ℤ) (data : Option Ptr) (alloc : Option SockmapEntry)
  | del (fd : ℤ)
  | get (fd : ℤ)
  deriving DecidableEq, Repr

/-- A map, beside what it should associate. -/
structure SockmapState where
  m : Sockmap
  assoc : ℤ → Option (Option Ptr)

/-- Nothing is associated. -/
def SockmapState.init : SockmapState := ⟨sockmapInit, fun _ => none⟩

/-- One call on the map, and what it is to the association: a descriptor has the data it was
last put with, unless it was removed since. -/
def SockmapOp.run (op : SockmapOp) (s : SockmapState) : SockmapState :=
  match op with
  | .put fd data alloc =>
    let (code, m) := sockmapPut s.m fd data alloc
    ⟨m, if code = 0 then Function.update s.assoc fd (some data) else s.assoc⟩
  | .del fd => ⟨sockmapDel s.m fd, Function.update s.assoc fd none⟩
  | .get _ => s

/-- The steps as a relation. -/
def SockmapStep (s : SockmapState) (op : SockmapOp) (t : SockmapState) : Prop := t = op.run s

/-- What the map shows of itself is the association. -/
structure SockmapGood (s : SockmapState) : Prop where
  get : ∀ fd, sockmapGet s.m fd = (s.assoc fd).getD none
  /-- A descriptor is among the first entries when it is associated, and only once. -/
  mem : ∀ fd, fd ∈ s.m.live.map SockmapEntry.fd ↔ s.assoc fd ≠ none
  nodup : (s.m.live.map SockmapEntry.fd).Nodup
  /-- The first entries are in the array. -/
  length : s.m.live.length = s.m.len ∧ s.m.entries.length = s.m.alen
  fits : s.m.len ≤ s.m.alen

/-- A descriptor is put, or it is new and there is no room for it, and then nothing is changed;
removing one changes no other. -/
def SockmapOk (s : SockmapState) (op : SockmapOp) (t : SockmapState) : Prop :=
  match op with
  | .put fd data alloc =>
    let code := (sockmapPut s.m fd data alloc).1
    (code = 0 ∨ code = ENOMEM) ∧
      (code = ENOMEM ↔ s.assoc fd = none ∧ s.m.len = s.m.alen ∧
        (alloc = none ∨ s.m.alen = sockmapMax)) ∧
      (code = ENOMEM → t = s)
  | .del fd => ∀ fd', fd' ≠ fd → sockmapGet t.m fd' = sockmapGet s.m fd'
  | .get _ => t = s

/-- The map represents the association. -/
def SockmapInv (s : SockmapState) : Prop :=
  ∃ l spare, SockmapRep s.m l spare ∧
    s.assoc = fun fd => (lookup SockmapEntry.fd l fd).map SockmapEntry.data

theorem SockmapInv.good {s : SockmapState} (hs : SockmapInv s) : SockmapGood s := by
  obtain ⟨l, spare, hm, hassoc⟩ := hs
  have hlive := hm.live
  refine ⟨fun fd => ?_, fun fd => ?_, ?_, ⟨?_, ?_⟩, ?_⟩
  · rw [hm.get, hassoc]
    dsimp only
    cases lookup SockmapEntry.fd l fd <;> rfl
  · rw [hlive, hassoc, ← not_iff_not, not_not, Option.map_eq_none_iff, lookup_eq_none]
  · rw [hlive]
    exact hm.keys
  · rw [hlive, hm.len]
  · rw [hm.entries, List.length_append, hm.alen]
  · rw [hm.len, hm.alen]
    exact Nat.le_add_right _ _

/-- An update of the entries is one of the association. -/
theorem assoc_update (l : List SockmapEntry) (fd : ℤ) (e : Option SockmapEntry) :
    (fun k => (Function.update (lookup SockmapEntry.fd l) fd e k).map SockmapEntry.data) =
      Function.update (fun k => (lookup SockmapEntry.fd l k).map SockmapEntry.data) fd
        (e.map SockmapEntry.data) := by
  funext k
  by_cases hk : k = fd
  · rw [hk, Function.update_self, Function.update_self]
  · rw [Function.update_of_ne hk, Function.update_of_ne hk]

/-- **Putting** associates, or changes nothing where a new descriptor finds no room and none is
allocated. -/
theorem SockmapRep.put {m : Sockmap} {l spare : List SockmapEntry} (hm : SockmapRep m l spare)
    (fd : ℤ) (data : Option Ptr) (alloc : Option SockmapEntry) :
    ((∃ m' l' spare', sockmapPut m fd data alloc = (0, m') ∧ SockmapRep m' l' spare' ∧
        lookup SockmapEntry.fd l' =
          Function.update (lookup SockmapEntry.fd l) fd (some ⟨fd, data⟩)) ∧
        (lookup SockmapEntry.fd l fd = none → m.len = m.alen →
          alloc ≠ none ∧ m.alen ≠ sockmapMax)) ∨
      sockmapPut m fd data alloc = (ENOMEM, m) ∧ lookup SockmapEntry.fd l fd = none ∧
        m.len = m.alen ∧ (alloc = none ∨ m.alen = sockmapMax) := by
  unfold sockmapPut
  cases hfind : sockmapFind m fd with
  | some i =>
    obtain ⟨hi, hfd⟩ := hm.find_eq_some hfind
    refine .inl ⟨⟨_, _, _, rfl, hm.set hi hfd data,
      (lookup_set (a := ⟨fd, data⟩) hm.keys hi hfd.symm).2⟩, fun hnone => ?_⟩
    exact absurd (List.mem_map.mpr ⟨l[i], List.getElem_mem hi, hfd⟩) (lookup_eq_none.mp hnone)
  | none =>
    have hfree := hm.find_eq_none hfind
    have hconcat := (lookup_concat (a := ⟨fd, data⟩) hm.keys hfree).2
    dsimp only
    cases spare with
    | cons e spare =>
      -- an entry was allocated before
      have hroom : m.len < m.alen := by
        rw [hm.alen, hm.len, List.length_cons]
        omega
      rw [if_neg (Nat.not_le.mpr hroom)]
      exact .inl ⟨⟨_, _, _, rfl, hm.append hfree data, hconcat⟩, fun _ hlen => absurd hlen hroom.ne⟩
    | nil =>
      have hfull : m.len = m.alen := by
        rw [hm.alen, hm.len]
        rfl
      have hnone : lookup SockmapEntry.fd l fd = none := lookup_eq_none.mpr hfree
      rw [if_pos hfull.ge]
      by_cases hmax : sockmapMax = m.alen
      · rw [if_pos hmax]
        exact .inr ⟨rfl, hnone, hfull, .inr hmax.symm⟩
      · rw [if_neg hmax]
        cases alloc with
        | none => exact .inr ⟨rfl, hnone, hfull, .inl rfl⟩
        | some junk =>
          exact .inl ⟨⟨_, _, _, rfl, (hm.grow hmax junk).append hfree data, hconcat⟩,
            fun _ _ => ⟨Option.some_ne_none junk, Ne.symm hmax⟩⟩

/-- **Removing** ends the association of the descriptor. -/
theorem SockmapRep.del {m : Sockmap} {l spare : List SockmapEntry} (hm : SockmapRep m l spare)
    (fd : ℤ) : ∃ l' spare', SockmapRep (sockmapDel m fd) l' spare' ∧
      lookup SockmapEntry.fd l' = Function.update (lookup SockmapEntry.fd l) fd none := by
  cases hfind : sockmapFind m fd with
  | some i =>
    obtain ⟨hi, rfl⟩ := hm.find_eq_some hfind
    exact ⟨_, _, hm.erase hi hfind, (lookup_swapErase hm.keys hi).2⟩
  | none =>
    have hfree := lookup_eq_none.mpr (hm.find_eq_none hfind)
    have hdel : sockmapDel m fd = m := by
      unfold sockmapDel
      rw [hfind]
    exact ⟨l, spare, hdel.symm ▸ hm, by rw [← hfree, Function.update_eq_self]⟩

/-- **One call.** -/
theorem SockmapInv.step {s t : SockmapState} {op : SockmapOp} (hs : SockmapInv s)
    (hst : SockmapStep s op t) : SockmapOk s op t ∧ SockmapInv t := by
  obtain ⟨l, spare, hm, hassoc⟩ := hs
  subst hst
  cases op with
  | put fd data alloc =>
    simp only [SockmapOk, SockmapOp.run]
    have hnew : s.assoc fd = none ↔ lookup SockmapEntry.fd l fd = none := by
      rw [hassoc, Option.map_eq_none_iff]
    rcases hm.put fd data alloc with
      ⟨⟨m', l', spare', hput, hm', hlookup⟩, hroom⟩ | ⟨hput, hnone, hfull, halloc⟩
    · rw [hput]
      have hcode : (0 : Errno) ≠ ENOMEM := by decide
      refine ⟨⟨.inl rfl, iff_of_false hcode ?_, fun h => absurd h hcode⟩, l', spare', hm', ?_⟩
      · rintro ⟨hnone, hfull, halloc⟩
        obtain ⟨hsome, hmax⟩ := hroom (hnew.mp hnone) hfull
        exact halloc.elim hsome hmax
      · dsimp only
        rw [if_pos rfl, hlookup, assoc_update, hassoc]
        rfl
    · rw [hput]
      exact ⟨⟨.inr rfl, iff_of_true rfl ⟨hnew.mpr hnone, hfull, halloc⟩, fun _ => rfl⟩, l, spare,
        hm, hassoc⟩
  | del fd =>
    obtain ⟨l', spare', hm', hlookup⟩ := hm.del fd
    refine ⟨fun fd' hne => ?_, l', spare', hm', ?_⟩
    · change sockmapGet (sockmapDel s.m fd) fd' = _
      rw [hm'.get, hm.get, hlookup, Function.update_of_ne hne]
    · change Function.update s.assoc fd none = _
      rw [hlookup, assoc_update, hassoc]
      rfl
  | get fd => exact ⟨rfl, l, spare, hm, hassoc⟩

/-- **The map is a finite map** in every state of every run, whatever allocations fail. -/
theorem sockmap_refines {r : List (SockmapOp × SockmapState)}
    (hr : IsRun SockmapStep .init r) : Holds SockmapGood SockmapOk .init r := by
  have hinit : SockmapInv .init := ⟨[], [], sockmapRep_init, rfl⟩
  have hrun := holds_of_meets (fun s op t hs _ hst => hs.step hst) hinit hr
    (meets_of_forall (fun _ _ => trivial) r _)
  exact hrun.mono (fun s hs => hs.good) fun _ _ _ _ hok => hok

/-- Two descriptors: one takes the place of the other, the room of which is used again; then
there is no memory. -/
theorem sockmap_refines_two :
    Holds SockmapGood SockmapOk .init (trace SockmapOp.run .init
      [.put 5 (some 1) (some ⟨0, none⟩), .put 6 (some 2) (some ⟨0, none⟩), .del 5,
        .put 7 (some 3) none, .put 8 (some 4) none, .get 6]) :=
  sockmap_refines (isRun_of_fun SockmapOp.run _ _)

end Libtrp
