import Libtrp.TripListen
import Libtrp.TripOpen

/-!
# What refers to a connection

A connection is referred to by the send queue, by its slot of the resolve queue and by
timers, and each that takes it out of the connection map would have to take it out of
these too.  None of them does so in all cases: an open that fails leaves its slot, the
states `CLOSE` and `UNBIND` clear the map only, a close leaves the tail of the send queue
and every timer but the state's, and `_trip_listen` puts a connection back that was closed
while it sent.

## Main definitions

* `Router.Refers r c` — a table refers to the connection `c`.
* `Router.Tied r` — what is referred to is in the map, and was not given back.
* `Ties c r r'` — no reference is new but to the connection `c`.
* `TieGuard` — the step leaves no reference behind.

## Main results

* `Refs.ties` — what programs of a connection refer to.
* `Tables.closeConnection` — **what a close takes out.**
* `trip_stays_tied` — **when no reference is ever left behind.**

## References

`src/trip.c` (`_trip_close_connection`, `_trip_close`, `trip_open_connection`,
`_trip_set_state`, `_trip_listen`), `src/conn.c` (`_tripc_destroy`), `src/sendq.c`.
-/

namespace Libtrp

open Lib

/-! ### References -/

namespace Router

variable (r : Router)

/-- A timer with the callback is not cancelled. -/
def Pends (cb : Callback) : Prop := r.pending (fun x => x = cb) ≠ []

/-- The send queue refers to the connection: its tail does, or its head leads there. -/
def Queued (c : Ptr) : Prop := r.sendq.tail = some c ∨ ∃ l, Seg r.heap.next r.sendq.head l (some c)

/-- The send queue, a slot of the resolve queue or a timer refers to the connection. -/
def Refers (c : Ptr) : Prop :=
  r.Queued c ∨ r.resolveq.Has c ∨ ∃ cb : Callback, cb.conn? = some c ∧ r.Pends cb

/-- **What is referred to was not given back**, and is in the map. -/
def Tied : Prop := ∀ c, r.Refers c → r.heap.live c = true ∧ r.conn.Has c

end Router

/-- The tables refer to connections of `P` only. -/
structure Refs (P : Ptr → Prop) (r : Router) : Prop where
  sendq : ∃ l, SendqRep r.sendq r.heap l ∧ ∀ d ∈ l, P d
  resolveq : ∀ d, r.resolveq.Has d → P d
  timers : ∀ (cb : Callback) d, cb.conn? = some d → r.Pends cb → P d

/-- What a list leads to is in it. -/
theorem mem_of_seg {next : Ptr → Option Ptr} {c : Ptr} : ∀ {l l' : List Ptr} {p : Option Ptr},
    Linked next p l → Seg next p l' (some c) → c ∈ l := by
  intro l l'
  induction l' generalizing l with
  | nil =>
    intro p hl hs
    obtain rfl : p = some c := hs
    cases l with
    | nil => cases hl
    | cons d l =>
      cases hl.1
      exact List.mem_cons_self
  | cons e l' ih =>
    intro p hl hs
    obtain ⟨rfl, hs⟩ := hs
    cases l with
    | nil => cases hl
    | cons d l =>
      cases hl.1
      exact List.mem_cons_of_mem e (ih hl.2 hs)

namespace Refs

variable {P Q : Ptr → Prop} {r : Router}

/-- The queue refers to what it holds. -/
theorem mem_of_queued {l : List Ptr} (hl : SendqRep r.sendq r.heap l) {c : Ptr} (h : r.Queued c) :
    c ∈ l := by
  rcases h with htail | ⟨l', hseg⟩
  · exact List.mem_of_getLast? (hl.tail.symm.trans htail)
  · exact mem_of_seg hl.linked hseg

theorem queued_of_mem {l : List Ptr} (hl : SendqRep r.sendq r.heap l) {c : Ptr} (h : c ∈ l) :
    r.Queued c := by
  obtain ⟨l₁, l₂, rfl⟩ := List.append_of_mem h
  obtain ⟨q, hseg, htail⟩ := seg_append.mp hl.linked
  obtain ⟨rfl, -⟩ := htail
  exact Or.inr ⟨l₁, hseg⟩

theorem refers (h : Refs P r) {c : Ptr} (hc : r.Refers c) : P c := by
  rcases hc with hq | hslot | ⟨cb, hcb, hpends⟩
  · obtain ⟨l, hl, hP⟩ := h.sendq
    exact hP c (mem_of_queued hl hq)
  · exact h.resolveq c hslot
  · exact h.timers cb c hcb hpends

/-- What is referred to is all that matters. -/
theorem imp (h : Refs P r) (hQ : ∀ c, r.Refers c → Q c) : Refs Q r := by
  obtain ⟨l, hl, -⟩ := h.sendq
  refine ⟨⟨l, hl, fun d hd => ?_⟩, fun d hd => ?_, fun cb d hcb hp => ?_⟩
  · exact hQ d (Or.inl (queued_of_mem hl hd))
  · exact hQ d (Or.inr (Or.inl hd))
  · exact hQ d (Or.inr (Or.inr ⟨cb, hcb, hp⟩))

end Refs

/-! ### What programs refer to -/

/-- The send queue frees no connection, and changes no identifier. -/
theorem sendqWrites_ids : SendqWrites fun h h' =>
    h'.live = h.live ∧ ∀ d, (h'.conn d).self.id = (h.conn d).self.id where
  refl := fun _ => ⟨rfl, fun _ => rfl⟩
  trans := fun h h' => ⟨h'.1.trans h.1, fun d => (h'.2 d).trans (h.2 d)⟩
  link := fun h c _ => ⟨rfl, fun d => ConnHeap.conn_set_field (fun x => x.self.id) h c d rfl⟩
  flag := fun h c _ => ⟨rfl, fun d => ConnHeap.conn_set_field (fun x => x.self.id) h c d rfl⟩

/-- The map is the same, and no reference is new but to the connection `c`. -/
structure Ties (c : Option Ptr) (r r' : Router) : Prop where
  conn : r'.conn = r.conn
  live : r'.heap.live = r.heap.live
  brk : r'.heap.brk = r.heap.brk
  id : ∀ d, (r'.heap.conn d).self.id = (r.heap.conn d).self.id
  sendq : ∀ l, SendqRep r.sendq r.heap l → (∀ d ∈ c, d < r.heap.brk) →
    ∃ l', SendqRep r'.sendq r'.heap l' ∧ ∀ d ∈ l', d ∈ l ∨ d ∈ c
  resolveq : ∀ d, r'.resolveq.Has d → r.resolveq.Has d
  timers : ∀ (cb : Callback) d, cb.conn? = some d → r'.Pends cb → r.Pends cb ∨ d ∈ c

namespace Ties

variable {c : Option Ptr} {r r' r'' : Router}

theorem refl (r : Router) : Ties c r r where
  conn := rfl
  live := rfl
  brk := rfl
  id := fun _ => rfl
  sendq := fun l hl _ => ⟨l, hl, fun _ hd => Or.inl hd⟩
  resolveq := fun _ hd => hd
  timers := fun _ _ _ h => Or.inl h

theorem trans (h : Ties c r r') (h' : Ties c r' r'') : Ties c r r'' where
  conn := h'.conn.trans h.conn
  live := h'.live.trans h.live
  brk := h'.brk.trans h.brk
  id := fun d => (h'.id d).trans (h.id d)
  sendq := fun l hl hc => by
    obtain ⟨l', hl', hmem⟩ := h.sendq l hl hc
    obtain ⟨l'', hl'', hmem'⟩ := h'.sendq l' hl' (h.brk.symm ▸ hc)
    refine ⟨l'', hl'', fun d hd => ?_⟩
    rcases hmem' d hd with hd | hd
    · exact hmem d hd
    · exact Or.inr hd
  resolveq := fun d hd => h.resolveq d (h'.resolveq d hd)
  timers := fun cb d hcb hp => by
    rcases h'.timers cb d hcb hp with hp | hd
    · exact h.timers cb d hcb hp
    · exact Or.inr hd

/-- A write that keeps the identifiers, the links and the flags of connections. -/
theorem of_heap (hm : r'.conn = r.conn) (hl : r'.heap.live = r.heap.live)
    (hb : r'.heap.brk = r.heap.brk)
    (hid : ∀ d, (r'.heap.conn d).self.id = (r.heap.conn d).self.id)
    (hnext : ∀ d, (r'.heap.conn d).next = (r.heap.conn d).next)
    (hinsend : ∀ d, (r'.heap.conn d).insend = (r.heap.conn d).insend)
    (hq : r'.sendq = r.sendq) (hs : r'.resolveq = r.resolveq)
    (ht : ∀ (cb : Callback) d, cb.conn? = some d → r'.Pends cb → r.Pends cb ∨ d ∈ c) :
    Ties c r r' where
  conn := hm
  live := hl
  brk := hb
  id := hid
  sendq := fun l hrep _ => by
    rw [hq]
    exact ⟨l, hrep.of_links hb.ge (fun d _ => hnext d) hinsend, fun _ hd => Or.inl hd⟩
  resolveq := fun d hd => hs ▸ hd
  timers := ht

/-- A write to other fields. -/
theorem of_eq (hm : r'.conn = r.conn) (hh : r'.heap = r.heap) (hq : r'.sendq = r.sendq)
    (hs : r'.resolveq = r.resolveq) (ht : r'.timers = r.timers) : Ties c r r' := by
  refine of_heap hm (by rw [hh]) (by rw [hh]) (fun d => by rw [hh]) (fun d => by rw [hh])
    (fun d => by rw [hh]) hq hs fun cb d _ hp => Or.inl ?_
  unfold Router.Pends Router.pending at hp ⊢
  rwa [ht] at hp

theorem setConn (r : Router) (d : Ptr) {f : Connection → Connection} (hf : Connection.Plain f) :
    Ties c r (r.setConn d f) :=
  of_heap rfl rfl rfl
    (fun e => ConnHeap.conn_set_field (fun x => x.self.id) r.heap d e (hf _).2.2)
    (fun e => ConnHeap.conn_set_field Connection.next r.heap d e (hf _).1)
    (fun e => ConnHeap.conn_set_field Connection.insend r.heap d e (hf _).2.1) rfl rfl
    fun _ _ _ hp => Or.inl hp

/-- Fewer timers. -/
theorem fewer (r : Router) {timers : Timers Callback}
    (hsub : ∀ p, (timers.wheel.pending p).Sublist (r.pending p)) :
    Ties c r (r.setTimers timers) := by
  refine of_heap rfl rfl rfl (fun _ => rfl) (fun _ => rfl) (fun _ => rfl) rfl rfl
    fun cb d _ hp => Or.inl fun hnil => hp ?_
  have hle := hsub fun x => x = cb
  rw [hnil] at hle
  exact List.sublist_nil.mp hle

theorem cancel (r : Router) (id : Ptr) :
    Ties c r (r.setTimers (tripCancelTimeout id r.timers)) := by
  refine fewer r fun p => ?_
  show ((timerwheelCancel id r.timers.wheel).pending p).Sublist _
  rw [Timerwheel.pending_cancel]
  exact List.filter_sublist

/-- A timer of the connection, or of none. -/
theorem timer (r : Router) (alloc : Bool) (now now' : ℕ) (ms : ℤ) {cb : Callback}
    (hcb : ∀ d, cb.conn? = some d → d ∈ c) :
    Ties c r (r.setTimers (tripSetTimeout alloc now now' ms (some cb) r.timers).2) := by
  refine of_heap rfl rfl rfl (fun _ => rfl) (fun _ => rfl) (fun _ => rfl) rfl rfl
    fun cb' d hd hp => ?_
  by_cases heq : cb = cb'
  · exact Or.inr (hcb d (heq ▸ hd))
  · left
    unfold Router.Pends Router.pending at hp ⊢
    rw [show (r.setTimers _).timers = (tripSetTimeout alloc now now' ms (some cb) r.timers).2 from
      rfl, pending_tripSetTimeout, decide_eq_false heq, Bool.and_false] at hp
    exact hp

/-- The connection is put into the queue. -/
theorem nq (r : Router) (d : Ptr) : Ties (some d) r (r.setSendq (sendqNq r.sendq r.heap d)) where
  conn := rfl
  live := (sendqWrites_ids.nq r.sendq r.heap d).1
  brk := sendqNq_heap_brk r.sendq r.heap d
  id := (sendqWrites_ids.nq r.sendq r.heap d).2
  sendq := fun l hl hd => by
    refine ⟨Fifo.nq l d, hl.nq (hd d rfl), fun e he => ?_⟩
    rcases Fifo.mem_nq.mp he with he | rfl
    · exact Or.inl he
    · exact Or.inr rfl
  resolveq := fun _ hd => hd
  timers := fun _ _ _ hp => Or.inl hp

/-- The first connection is taken from the queue. -/
theorem dq (r : Router) : Ties c r (r.setSendq (sendqDq r.sendq r.heap).2) where
  conn := rfl
  live := (sendqWrites_ids.dq r.sendq r.heap).1
  brk := sendqDq_heap_brk r.sendq r.heap
  id := (sendqWrites_ids.dq r.sendq r.heap).2
  sendq := fun l hl _ => ⟨l.tail, hl.dq.2, fun _ hd => Or.inl (List.mem_of_mem_tail hd)⟩
  resolveq := fun _ hd => hd
  timers := fun _ _ _ hp => Or.inl hp

/-- Packing a packet refers to nothing. -/
theorem packs : Packs (Ties none) where
  refl := refl
  trans := trans
  conn := fun r d _ hf => setConn r d hf
  buf := fun _ _ => of_eq rfl rfl rfl rfl rfl

/-! Where no reference is new. -/

theorem queue (h : Ties none r r') {l : List Ptr} (hl : SendqRep r.sendq r.heap l) :
    ∃ l', SendqRep r'.sendq r'.heap l' ∧ ∀ d ∈ l', d ∈ l := by
  obtain ⟨l', hl', hmem⟩ := h.sendq l hl fun d hd => absurd hd (Option.not_mem_none d)
  exact ⟨l', hl', fun d hd => (hmem d hd).resolve_right (Option.not_mem_none d)⟩

theorem pends (h : Ties none r r') {cb : Callback} {d : Ptr} (hcb : cb.conn? = some d)
    (hp : r'.Pends cb) : r.Pends cb :=
  (h.timers cb d hcb hp).resolve_right (Option.not_mem_none d)

/-- A program that refers to nothing new does less than one that may. -/
theorem mono (h : Ties none r r') : Ties c r r' where
  conn := h.conn
  live := h.live
  brk := h.brk
  id := h.id
  sendq := fun l hl _ => by
    obtain ⟨l', hl', hmem⟩ := h.queue hl
    exact ⟨l', hl', fun d hd => Or.inl (hmem d hd)⟩
  resolveq := h.resolveq
  timers := fun cb d hcb hp => Or.inl (h.pends hcb hp)

end Ties

/-- **The steps of a connection refer to it only.** -/
theorem Acts.ties {c : Ptr} {r r' : Router} (h : Acts c r r') : Ties (some c) r r' := by
  induction h with
  | refl => exact .refl r
  | conn hf _ ih => exact ih.trans (.setConn _ c hf)
  | nq _ ih => exact ih.trans (.nq _ c)
  | timer alloc now now' ms hcb _ ih =>
    refine ih.trans (.timer _ alloc now now' ms fun d hd => ?_)
    rcases hcb with rfl | hcb
    · exact absurd hd (Option.not_mem_none d)
    · exact hcb.symm.trans hd
  | cancel id _ ih => exact ih.trans (.cancel _ id)
  | buf _ _ ih => exact ih.trans (.of_eq rfl rfl rfl rfl rfl)

theorem Refs.ties {P : Ptr → Prop} {c : Option Ptr} {r r' : Router} (h : Refs P r)
    (ht : Ties c r r') (hc : ∀ d ∈ c, P d ∧ d < r.heap.brk) : Refs P r' := by
  obtain ⟨l, hl, hP⟩ := h.sendq
  obtain ⟨l', hl', hmem⟩ := ht.sendq l hl fun d hd => (hc d hd).2
  refine ⟨⟨l', hl', fun d hd => ?_⟩, fun d hd => h.resolveq d (ht.resolveq d hd),
    fun cb d hcb hp => ?_⟩
  · rcases hmem d hd with hd | hd
    · exact hP d hd
    · exact (hc d hd).1
  · rcases ht.timers cb d hcb hp with hp | hd
    · exact h.timers cb d hcb hp
    · exact (hc d hd).1

theorem Refs.still {P : Ptr → Prop} {r r' : Router} (h : Refs P r) (ht : Ties none r r') :
    Refs P r' := h.ties ht fun d hd => absurd hd (Option.not_mem_none d)

/-! ### The tables -/

/-- The map is well formed, what it holds was not given back, and the tables refer to what
it holds. -/
structure Tables (r : Router) : Prop where
  map : ∃ fl live, ConnmapInv r.conn r.heap fl live
  live : ∀ d, r.conn.Has d → r.heap.live d = true
  bound : ∀ d, r.conn.Has d → d < r.heap.brk
  refs : Refs r.conn.Has r

/-- What the map holds is what it stands for. -/
theorem ConnmapInv.has_iff {m : Connmap} {h : ConnHeap} {fl : List ℕ} {live : List Ptr}
    (hm : ConnmapInv m h fl live) {c : Ptr} : m.Has c ↔ c ∈ live := by
  rw [hm.mem_live]
  constructor
  · intro hc
    obtain ⟨i, hi, hget⟩ := List.getElem_of_mem hc
    refine ⟨i, ?_⟩
    rw [Connmap.slot, Connmap.entry, List.getD_eq_getElem _ _ hi, hget]
    rfl
  · rintro ⟨i, hi⟩
    unfold Connmap.slot Connmap.entry at hi
    by_cases hlt : i < (m.map.getD []).length
    · rw [List.getD_eq_getElem _ _ hlt] at hi
      cases he : (m.map.getD [])[i] with
      | free n => rw [he] at hi; cases hi
      | full d =>
        rw [he] at hi
        cases hi
        have hmem : (m.map.getD [])[i] ∈ m.map.getD [] := List.getElem_mem hlt
        rw [he] at hmem
        exact hmem
    · rw [List.getD_eq_default _ _ (Nat.le_of_not_lt hlt)] at hi
      cases hi

namespace Tables

variable {r r' : Router} {c : Ptr}

/-- What is referred to was not given back. -/
theorem tied (h : Tables r) : r.Tied := by
  intro c hc
  have hhas : r.conn.Has c := h.refs.refers hc
  exact ⟨h.live c hhas, hhas⟩

theorem ties {c : Option Ptr} (h : Tables r) (ht : Ties c r r') (hc : ∀ d ∈ c, r.conn.Has d) :
    Tables r' := by
  obtain ⟨fl, live, hm⟩ := h.map
  refine ⟨⟨fl, live, ?_⟩, ?_, ?_, ?_⟩
  · rw [ht.conn]
    exact hm.congr fun d _ => ht.id d
  · rw [ht.conn, ht.live]
    exact h.live
  · rw [ht.conn, ht.brk]
    exact h.bound
  · rw [ht.conn]
    exact h.refs.ties ht fun d hd => ⟨hc d hd, h.bound d (hc d hd)⟩

theorem still (h : Tables r) (ht : Ties none r r') : Tables r' :=
  h.ties ht fun d hd => absurd hd (Option.not_mem_none d)

end Tables

theorem tables_tripNew (preset : TripPreset) (now : ℕ) (buf : Buf) :
    Tables (tripNew preset now buf) where
  map := ⟨[], [], connmapInv_init _ _⟩
  live := fun _ hd => absurd hd (Connmap.not_has_init _)
  bound := fun _ hd => absurd hd (Connmap.not_has_init _)
  refs := ⟨⟨[], sendqRep_init fun _ => rfl, fun _ hd => absurd hd List.not_mem_nil⟩,
    fun d hd => absurd hd (Resolveq.not_has_init d), fun _ _ _ hp => absurd rfl hp⟩

/-! ### A connection is made -/

/-- The connection at `r.heap.brk` was made, and nothing but a slot refers to it. -/
structure Fresh (r r' : Router) : Prop where
  conn : r'.conn = r.conn
  sendq : r'.sendq = r.sendq
  timers : r'.timers = r.timers
  brk : r'.heap.brk = r.heap.brk + 1
  live : r'.heap.live = Function.update r.heap.live r.heap.brk true
  kept : ∀ d, d ≠ r.heap.brk → r'.heap.conn d = r.heap.conn d
  insend : (r'.heap.conn r.heap.brk).insend = false

/-- A connection that is made is in no queue. -/
theorem Fresh.made (r : Router) (q : Resolveq) {x : Connection} (hx : x.insend = false) :
    Fresh r ((r.allocConn.setResolveq q).setConn r.heap.brk fun _ => x) where
  conn := rfl
  sendq := rfl
  timers := rfl
  brk := rfl
  live := rfl
  kept := fun _ hd => ConnHeap.conn_set_of_ne r.allocConn.heap hd fun _ => x
  insend := by
    rw [Router.setConn, ConnHeap.conn_set_self]
    exact hx

theorem Fresh.open (r : Router) (alloc : Bool) : Fresh r (tripOpenFresh r alloc) :=
  .made r _ rfl

theorem resolveq_tripOpenFresh (r : Router) (alloc : Bool) :
    (tripOpenFresh r alloc).resolveq = (resolveqPut r.resolveq r.heap.brk alloc).2 := rfl

theorem Fresh.segment (r : Router) (src : ℤ) : Fresh r (tripSegmentFresh r src) := by
  rw [tripSegmentFresh, Router.setConn_setConn]
  exact .made r r.resolveq rfl

theorem resolveq_tripSegmentFresh (r : Router) (src : ℤ) :
    (tripSegmentFresh r src).resolveq = r.resolveq := by
  rw [tripSegmentFresh, Router.setConn_setConn]
  rfl

theorem Router.Pends.of_timers {r r' : Router} (h : r'.timers = r.timers) {cb : Callback}
    (hp : r'.Pends cb) : r.Pends cb := by
  unfold Router.Pends Router.pending at hp ⊢
  rwa [h] at hp

/-- What is referred to when the connection has its identifier. -/
theorem Refs.fresh {P Q : Ptr → Prop} {r r₁ : Router} (h : Refs P r) (hf : Fresh r r₁)
    (hP : ∀ d, P d → Q d) (hq : ∀ d, r₁.resolveq.Has d → Q d) {alloc : Bool} {x y : UInt32}
    {code : Errno} {mh : Connmap × ConnHeap}
    (hadd : connmapAdd r.conn r₁.heap r.heap.brk alloc x y = (code, mh)) :
    Refs Q (r₁.setMap mh) := by
  obtain ⟨l, hl, hmem⟩ := h.sendq
  have hout : r.heap.brk ∉ l := fun hin => absurd (hl.alloc _ hin) (lt_irrefl _)
  have hfresh : SendqRep r₁.sendq r₁.heap l := by
    rw [hf.sendq]
    refine hl.of_links (hf.brk.symm ▸ Nat.le_succ _) (fun d hd => ?_) fun d => ?_
    · rw [hf.kept d (ne_of_mem_of_not_mem hd hout)]
    · by_cases hd : d = r.heap.brk
      · rw [hd, hf.insend, ← Bool.not_eq_true _ |>.mp (mt (hl.insend _).mp hout)]
      · rw [hf.kept d hd]
  refine ⟨⟨l, ?_, fun d hd => hP d (hmem d hd)⟩, hq, fun cb d hcb hp => ?_⟩
  · have hheap := connmapAdd_heap r.conn r₁.heap r.heap.brk alloc x y
    rw [hadd] at hheap
    obtain heq | ⟨id, heq⟩ := hheap
    · rw [Router.heap_setMap, show mh.2 = r₁.heap from heq]
      exact hfresh
    · rw [Router.heap_setMap, show mh.2 = _ from heq]
      exact hfresh.of_links le_rfl
        (fun d _ => ConnHeap.conn_set_field Connection.next r₁.heap r.heap.brk d rfl)
        fun d => ConnHeap.conn_set_field Connection.insend r₁.heap r.heap.brk d rfl
  · exact hP d (h.timers cb d hcb (.of_timers hf.timers hp))

namespace Tables

variable {r r₁ : Router} {alloc : Bool} {x y : UInt32} {code : Errno} {mh : Connmap × ConnHeap}

/-- What the map holds is older than the connection that is made. -/
theorem not_has_brk (h : Tables r) : ¬ r.conn.Has r.heap.brk :=
  fun hd => absurd (h.bound _ hd) (lt_irrefl _)

/-- The map is the same once the connection is made. -/
theorem fresh_map (h : Tables r) (hf : Fresh r r₁) : ∃ fl live,
    ConnmapInv r.conn r₁.heap fl live ∧ r.heap.brk ∉ live ∧ ∀ d, r.conn.Has d ↔ d ∈ live := by
  obtain ⟨fl, live, hm⟩ := h.map
  have hnot : r.heap.brk ∉ live := fun hin => h.not_has_brk (hm.has_iff.mpr hin)
  refine ⟨fl, live, hm.congr fun d hd => ?_, hnot, fun d => hm.has_iff⟩
  rw [hf.kept d (ne_of_mem_of_not_mem hd hnot)]

/-- The connection that is made finds a place in the map. -/
theorem add (h : Tables r) (hf : Fresh r r₁) (hq : ∀ d, r₁.resolveq.Has d → r.resolveq.Has d ∨
    d = r.heap.brk) (hadd : connmapAdd r.conn r₁.heap r.heap.brk alloc x y = (0, mh)) :
    Tables (r₁.setMap mh) ∧ mh.2.brk = r.heap.brk + 1 ∧
      ∀ d, mh.1.Has d ↔ d = r.heap.brk ∨ r.conn.Has d := by
  obtain ⟨fl, live, hm, hnot, hhas₁⟩ := h.fresh_map hf
  have hadded := hm.add hnot alloc x y
  have hbrk := connmapAdd_brk r.conn r₁.heap r.heap.brk alloc x y
  have hlive : (connmapAdd r.conn r₁.heap r.heap.brk alloc x y).2.2.live = r₁.heap.live := by
    obtain heq | ⟨id, heq⟩ := connmapAdd_heap r.conn r₁.heap r.heap.brk alloc x y
    · rw [heq]
    · rw [heq, ConnHeap.live_set]
  rw [hadd] at hadded hbrk hlive
  obtain ⟨fl', hm'⟩ : ∃ fl', ConnmapInv mh.1 mh.2 fl' (r.heap.brk :: live) := by
    rcases hadded with ⟨-, -, hok⟩ | ⟨hcode, -⟩ | ⟨hcode, -⟩
    · exact hok
    · exact absurd (show 0 = ENOSPC from hcode) (by decide)
    · exact absurd (show 0 = ENOMEM from hcode) (by decide)
  have hhas : ∀ d, mh.1.Has d ↔ d = r.heap.brk ∨ r.conn.Has d := fun d => by
    rw [hm'.has_iff, hhas₁, List.mem_cons]
  refine ⟨⟨⟨fl', _, hm'⟩, fun d hd => ?_, fun d hd => ?_, ?_⟩, hbrk.trans hf.brk, hhas⟩
  · rw [Router.heap_setMap, show mh.2.live = _ from hlive, hf.live]
    rcases (hhas d).mp hd with rfl | hd
    · exact Function.update_self _ _ _
    · rw [Function.update_of_ne (h.bound d hd).ne]
      exact h.live d hd
  · rw [Router.heap_setMap, show mh.2.brk = _ from hbrk, hf.brk]
    rcases (hhas d).mp hd with rfl | hd
    · exact Nat.lt_succ_self _
    · exact (h.bound d hd).trans (Nat.lt_succ_self _)
  · refine h.refs.fresh hf (fun d hd => (hhas d).mpr (Or.inr hd)) (fun d hd => ?_) hadd
    rcases hq d hd with hd | rfl
    · exact (hhas d).mpr (Or.inr (h.refs.resolveq d hd))
    · exact (hhas _).mpr (Or.inl rfl)

/-- It finds none, and was put into no slot. -/
theorem add_fails (h : Tables r) (hf : Fresh r r₁)
    (hq : ∀ d, r₁.resolveq.Has d → r.resolveq.Has d)
    (hadd : connmapAdd r.conn r₁.heap r.heap.brk alloc x y = (code, mh)) (hcode : code ≠ 0) :
    Tables (r₁.setMap mh) ∧ mh.2.brk = r.heap.brk + 1 ∧ mh.1 = r.conn := by
  obtain ⟨fl, live, hm, hnot, hhas₁⟩ := h.fresh_map hf
  obtain rfl : mh = (r.conn, r₁.heap) := by
    rcases hm.add hnot alloc x y with ⟨hok, -⟩ | ⟨-, -, hsame⟩ | ⟨-, -, -, hsame⟩
    · rw [hadd] at hok
      exact absurd hok hcode
    · rwa [hadd] at hsame
    · rwa [hadd] at hsame
  refine ⟨⟨⟨fl, live, hm⟩, fun d hd => ?_, fun d hd => ?_, ?_⟩, hf.brk, rfl⟩
  · rw [Router.heap_setMap, hf.live, Function.update_of_ne (h.bound d hd).ne]
    exact h.live d hd
  · rw [Router.heap_setMap, hf.brk]
    exact (h.bound d hd).trans (Nat.lt_succ_self _)
  · exact h.refs.fresh hf (fun _ hd => hd) (fun d hd => h.refs.resolveq d (hq d hd)) hadd

end Tables

/-! ### Connections are taken out -/

/-- What a close takes out of the map has no more references than it takes back: the queue
leads to it by a link that is no tail, and its timer is the one of its state. -/
structure CloseGuard (r : Router) (c : Ptr) : Prop where
  tail : r.sendq.tail ≠ some c
  resolveq : ¬ r.resolveq.Has c
  timers : ∀ cb : Callback, cb.conn? = some c → cb.ofState c = false → ¬ r.Pends cb
  /-- Nothing refers to another connection that is found by the identifier. -/
  found : ∀ d, connmapGet r.conn r.heap (r.heap.conn c).self.id = some d → d = c ∨ ¬ r.Refers d

/-- The timer of the state of `c` and what the map holds are forgotten, and the queue is
left to the last. -/
theorem exec_tripcDestroy (c : Ptr) (s : Env) : ∃ t r, (tripcDestroy c).exec s = (some (), t) ∧
    Ties none s.router r ∧ r.sendq = s.router.sendq ∧
    (Timed s.router → r.pending (Callback.ofState c) = []) ∧
    t.router = (r.setSendq (sendqDel r.sendq r.heap c)).setConn c
      fun x => { x with errmsg := none } := by
  unfold tripcDestroy
  rw [Prog.exec_bind_of (exec_setConn _ _ _)]
  generalize hu : s.setRouter _ = u
  have hst : Ties none s.router u.router ∧ u.router.sendq = s.router.sendq ∧
      (Timed s.router → Timed u.router) := by
    rw [← hu]
    refine ⟨.setConn _ c fun _ => ⟨rfl, rfl, rfl⟩, rfl, fun ht => ht.still ?_⟩
    exact .setConn _ c fun _ => ⟨rfl, rfl⟩
  obtain ⟨v, hexec, -, hv⟩ := exec_tripcCancelTimeout c u
  have hnil := (disarm c u).2
  rw [hexec] at hnil
  have huv : Ties none u.router v.router ∧ v.router.sendq = u.router.sendq := by
    rcases hv with ⟨-, hv⟩ | ⟨e, -, hv⟩
    · rw [hv]
      exact ⟨.refl _, rfl⟩
    · rw [hv]
      exact ⟨(Ties.cancel _ e).trans (.setConn _ c fun _ => ⟨rfl, rfl, rfl⟩), rfl⟩
  rw [Prog.exec_bind_of hexec]
  exact ⟨_, v.router, rfl, hst.1.trans huv.1, huv.2.trans hst.2.1, fun ht => hnil (hst.2.2 ht), rfl⟩

/-- A connection that is taken out of the queue is the only one. -/
theorem SendqRep.mem_del {l : List Ptr} {q : Sendq} {h : ConnHeap} (hq : SendqRep q h l)
    {c d : Ptr} : d ∈ Fifo.del l c ↔ d ≠ c ∧ d ∈ l := hq.nodup.mem_erase_iff

/-- What a close does. -/
theorem exec_tripCloseConnectionEnd (c : Ptr) (s : Env) : ∃ t r,
    (tripCloseConnectionEnd c).exec s = (some [], t) ∧
    Ties none { s.router with
      conn := (connmapDel s.router.conn s.router.heap (s.router.heap.conn c).self.id).2 } r ∧
    r.sendq = s.router.sendq ∧ (Timed s.router → r.pending (Callback.ofState c) = []) ∧
    t.router = ((r.setSendq (sendqDel r.sendq r.heap c)).setConn c
      fun x => { x with errmsg := none }).freeConn c := by
  unfold tripCloseConnectionEnd
  rw [Prog.exec_bind_of (exec_getConn _ _), Prog.exec_bind_of (exec_store _ _)]
  generalize hu : s.setRouter _ = u
  obtain ⟨v, r, hexec, hties, hsendq, htimers, hv⟩ := exec_tripcDestroy c u
  have hrouter : u.router = { s.router with
      conn := (connmapDel s.router.conn s.router.heap (s.router.heap.conn c).self.id).2 } := by
    rw [← hu]
    rfl
  rw [hrouter] at hties hsendq
  have htimed : Timed s.router → Timed u.router := fun ht => by
    rw [hrouter]
    exact ⟨ht.own, ht.bound, fun d hd => ht.mapped d (Connmap.Has.of_del hd), ht.sized.del _ _⟩
  rw [Prog.exec_bind_of hexec]
  exact ⟨_, r, rfl, hties, hsendq, fun ht => htimers (htimed ht), by rw [← hv]; rfl⟩

namespace Tables

variable {r : Router} {c : Ptr}

/-- **What a close takes out** was not referred to by anything else. -/
theorem closeConnection {s t : Env} {ts : List Task} (h : Tables s.router) (ht : Timed s.router)
    (hg : CloseGuard s.router c) (hexec : (tripCloseConnectionEnd c).exec s = (some ts, t)) :
    ts = [] ∧ Tables t.router ∧ t.router.heap.brk = s.router.heap.brk ∧
      ∀ d, t.router.conn.Has d → s.router.conn.Has d := by
  obtain ⟨t', r, hexec', hties, hsendq, htimers, hrouter⟩ := exec_tripCloseConnectionEnd c s
  obtain ⟨rfl, rfl⟩ : [] = ts ∧ t' = t := by simpa using hexec'.symm.trans hexec
  have hwrite : Ties none (r.setSendq (sendqDel r.sendq r.heap c))
      ((r.setSendq (sendqDel r.sendq r.heap c)).setConn c fun x => { x with errmsg := none }) :=
    .setConn _ c fun _ => ⟨rfl, rfl, rfl⟩
  obtain ⟨fl, live, hm⟩ := h.map
  obtain ⟨fl', live', hdel, hlive'⟩ : ∃ fl' live', ConnmapInv
      (connmapDel s.router.conn s.router.heap (s.router.heap.conn c).self.id).2 s.router.heap fl'
        live' ∧ ∀ d, d ∈ live' ↔
          d ∈ live ∧ (s.router.heap.conn d).self.id ≠ (s.router.heap.conn c).self.id := by
    obtain ⟨-, fl', hdel⟩ := hm.del (s.router.heap.conn c).self.id
    exact ⟨fl', _, hdel, fun d => by rw [List.mem_filter, decide_eq_true_eq]⟩
  -- the map has lost what has the identifier of the connection
  have hhas : ∀ d, t'.router.conn.Has d ↔ s.router.conn.Has d ∧
      (s.router.heap.conn d).self.id ≠ (s.router.heap.conn c).self.id := fun d => by
    rw [hrouter, Router.conn_freeConn]
    show r.conn.Has d ↔ _
    rw [hties.conn, hdel.has_iff, hm.has_iff, hlive']
  -- whatever is referred to has another identifier
  have hkeeps : ∀ d, s.router.Refers d → d ≠ c → t'.router.conn.Has d := by
    intro d hd hdc
    have hin := h.refs.refers hd
    refine (hhas d).mpr ⟨hin, fun hid => ?_⟩
    rcases hg.found d (hm.get_eq_some.mpr ⟨hm.has_iff.mp hin, hid⟩) with heq | hno
    · exact hdc heq
    · exact hno hd
  have hheap : t'.router.heap.brk = s.router.heap.brk ∧
      ∀ d, (t'.router.heap.conn d).self.id = (s.router.heap.conn d).self.id := by
    rw [hrouter]
    refine ⟨(sendqDel_brk r.sendq r.heap c).trans hties.brk, fun d => ?_⟩
    exact (hwrite.id d).trans (((sendqWrites_ids.del r.sendq r.heap c).2 d).trans (hties.id d))
  refine ⟨rfl, ⟨⟨fl', live', ?_⟩, fun d hd => ?_, fun d hd => ?_, ?_⟩, hheap.1, fun d hd => ?_⟩
  · rw [show t'.router.conn = _ from (congrArg Router.conn hrouter).trans hties.conn]
    exact hdel.congr fun d _ => hheap.2 d
  · -- what is given back is not in the map
    obtain ⟨hin, hid⟩ := (hhas d).mp hd
    have hdc : d ≠ c := fun heq => hid (heq ▸ rfl)
    have hlive : r.heap.live = s.router.heap.live := hties.live
    rw [hrouter]
    show Function.update (sendqDel r.sendq r.heap c).2.live c false d = true
    rw [Function.update_of_ne hdc, (sendqWrites_ids.del r.sendq r.heap c).1, hlive]
    exact h.live d hin
  · rw [hheap.1]
    exact h.bound d ((hhas d).mp hd).1
  · have hrefs := h.refs.imp fun d hd => hd
    -- the condition says that it is not the last of the queue
    have htail : r.sendq.tail ≠ some c := hsendq ▸ hg.tail
    obtain ⟨l, hl, hmem⟩ := hrefs.sendq
    obtain ⟨l', hl', hmem'⟩ := hties.queue (l := l) ⟨hl.linked, hl.tail, hl.insend, hl.alloc⟩
    obtain ⟨l₁, hl₁, hmem₁⟩ := hwrite.queue (hl'.del htail)
    refine ⟨⟨l₁, ?_, fun d hd => ?_⟩, fun d hd => ?_, fun cb d hcb hp => ?_⟩
    · rw [hrouter]
      exact ⟨hl₁.linked, hl₁.tail, hl₁.insend, hl₁.alloc⟩
    · obtain ⟨hdc, hd⟩ := hl'.mem_del.mp (hmem₁ d hd)
      exact hkeeps d (hmem d (hmem' d hd)) hdc
    · have hd : s.router.resolveq.Has d := hties.resolveq d (by rw [hrouter] at hd; exact hd)
      refine hkeeps d (Or.inr (Or.inl hd)) fun heq => hg.resolveq (heq ▸ hd)
    · have hpr : r.Pends cb := by
        rw [hrouter] at hp
        exact .of_timers rfl hp
      have hps : s.router.Pends cb := .of_timers rfl (hties.pends hcb hpr)
      refine hkeeps d (Or.inr (Or.inr ⟨cb, hcb, hps⟩)) ?_
      rintro rfl
      -- the timer of the state is cancelled, and there is no other
      cases hof : cb.ofState d with
      | false => exact hg.timers cb hcb hof hps
      | true =>
        refine hpr (Timerwheel.pending_eq_nil_of_imp (fun cb' hcb' => ?_) (htimers ht))
        rw [of_decide_eq_true hcb']
        exact hof
  · exact ((hhas d).mp hd).1

end Tables

/-- A connection that is not in the map is given back. -/
theorem Tables.freeConn {r : Router} {c : Ptr} (h : Tables r) (hc : ¬ r.conn.Has c) :
    Tables (r.freeConn c) := by
  obtain ⟨fl, live, hm⟩ := h.map
  obtain ⟨l, hl, hmem⟩ := h.refs.sendq
  refine ⟨⟨fl, live, hm.congr fun _ _ => rfl⟩, fun d hd => ?_, h.bound,
    ⟨⟨l, ⟨hl.linked, hl.tail, hl.insend, hl.alloc⟩, hmem⟩, h.refs.resolveq,
      fun cb d hcb hp => h.refs.timers cb d hcb (.of_timers rfl hp)⟩⟩
  have hdc : d ≠ c := fun heq => hc (heq ▸ hd)
  show Function.update r.heap.live c false d = true
  rw [Function.update_of_ne hdc]
  exact h.live d hd

/-- The map may be cleared when nothing refers to a connection. -/
structure Vacant (r : Router) : Prop where
  tables : Tables r
  refs : Refs (fun _ => False) r

/-- The map is cleared where nothing refers to a connection, and no connection is made. -/
structure Clears (r r' : Router) : Prop where
  brk : r'.heap.brk = r.heap.brk
  old : ∀ d, r'.conn.Has d → r.conn.Has d
  vacant : Vacant r → Vacant r'

namespace Clears

variable {r r' r'' : Router}

theorem trans (h : Clears r r') (h' : Clears r' r'') : Clears r r'' :=
  ⟨h'.brk.trans h.brk, fun d hd => h.old d (h'.old d hd), fun hr => h'.vacant (h.vacant hr)⟩

theorem ties (h : Ties none r r') : Clears r r' where
  brk := h.brk
  old := fun _ hd => h.conn ▸ hd
  vacant := fun hr => ⟨hr.tables.still h, hr.refs.still h⟩

/-- Clearing the map, whatever is given back. -/
theorem clear (r : Router) (live : Ptr → Bool) :
    Clears r { r with heap := { r.heap with live := live }, conn := connmapClear r.conn } where
  brk := rfl
  old := fun _ hd => absurd hd (Connmap.not_has_init _)
  vacant := fun hr => by
    obtain ⟨l, hl, hmem⟩ := hr.refs.sendq
    have hrefs : ∀ {P : Ptr → Prop}, (∀ d, False → P d) → Refs P
        { r with heap := { r.heap with live := live }, conn := connmapClear r.conn } := by
      intro P hP
      refine ⟨⟨l, ⟨hl.linked, hl.tail, hl.insend, hl.alloc⟩, fun d hd => hP d (hmem d hd)⟩,
        fun d hd => hP d (hr.refs.resolveq d hd), fun cb d hcb hp => ?_⟩
      exact hP d (hr.refs.timers cb d hcb (.of_timers rfl hp))
    exact ⟨⟨⟨[], [], connmapInv_init _ _⟩, fun _ hd => absurd hd (Connmap.not_has_init _),
      fun _ hd => absurd hd (Connmap.not_has_init _), hrefs fun _ => False.elim⟩, hrefs fun _ => id⟩

theorem tripClose (ms : ℤ) : Framed Clears (Libtrp.tripClose ms) := by
  intro s
  show Clears s.router _
  obtain ⟨live, hlive⟩ := foldl_freeConn (connmapIterate s.router.conn) s.router
  by_cases hms : ms = 0
  · have hclear := clear s.router live
    simpa [Libtrp.tripClose, hms, hlive] using hclear
  · have hclear := clear s.router s.router.heap.live
    simpa [Libtrp.tripClose, hms] using hclear

end Clears

/-! ### Programs that refer to nothing new -/

/-- A task that is neither a callback nor gives a connection back. -/
def Task.tame : Task → Bool
  | .callback _ | .freeConnection _ => false
  | _ => true

/-- A relation of the router before and after that holds where no reference is new. -/
structure Tame (R : Router → Router → Prop) : Prop where
  trans : ∀ {r r' r''}, R r r' → R r' r'' → R r r''
  ties : ∀ {r r'}, Ties none r r' → R r r'

/-- The relation holds of the program, and what is left of it is tame. -/
def Tames (R : Router → Router → Prop) (m : TripM (List Task)) : Prop :=
  Prog.Leaves (fun s t => R s.router t.router) (fun ts => ∀ u ∈ ts, u.tame = true) m

namespace Tame

variable {R : Router → Router → Prop} {α β : Type}

theorem bind (hR : Tame R) {m : TripM α} {f : α → TripM β} (hm : Framed R m)
    (hf : ∀ a, Framed R (f a)) : Framed R (m >>= f) :=
  Prog.Does.bind (R := fun s t : Env => R s.router t.router) (fun _ _ _ h h' => hR.trans h h') hm hf

theorem fetch (hR : Tame R) (f : Router → α) : Framed R (Libtrp.fetch f) :=
  fun s => hR.ties (.refl s.router)

theorem pure (hR : Tame R) (a : α) : Framed R (Pure.pure a : TripM α) :=
  fun s => hR.ties (.refl s.router)

theorem store (hR : Tame R) {f : Router → Router} (hf : ∀ r, Ties none r (f r)) :
    Framed R (Libtrp.store f) := fun s => hR.ties (hf s.router)

theorem tripmAlloc (hR : Tame R) : Framed R Libtrp.tripmAlloc := fun s => hR.ties (.refl s.router)

theorem triptimeNow (hR : Tame R) : Framed R Libtrp.triptimeNow := fun s => hR.ties (.refl s.router)

/-- A timer that is not a connection's. -/
theorem timer (hR : Tame R) {cb : Callback} (hcb : cb.conn? = none) (ms : ℤ) :
    Framed R (tripSetTimeoutM ms cb) := by
  intro s
  obtain ⟨now, now', t, hexec, ht⟩ := exec_tripSetTimeoutM ms cb s
  rw [hexec, ht]
  exact hR.ties (.timer _ _ now now' ms fun d hd => absurd (hcb.symm.trans hd)
    (Option.not_mem_none d))

theorem tripSetDeadline (hR : Tame R) (ms : ℤ) : Framed R (Libtrp.tripSetDeadline ms) :=
  hR.bind hR.triptimeNow fun _ => hR.store fun _ => .of_eq rfl rfl rfl rfl rfl

theorem tripArmState (hR : Tame R) (ms : ℤ) : Framed R (Libtrp.tripArmState ms) :=
  hR.bind (hR.timer rfl ms) fun _ => hR.store fun _ => .of_eq rfl rfl rfl rfl rfl

theorem tripFillMissing (hR : Tame R) : Framed R Libtrp.tripFillMissing := by
  refine hR.bind (hR.fetch _) fun packet => Frame.ite ?_ (hR.fetch _)
  refine hR.bind hR.tripmAlloc fun alloc => hR.bind (hR.store fun r => ?_) fun _ => hR.fetch _
  split <;> exact .of_eq rfl rfl rfl rfl rfl

theorem tripLeaveState (hR : Tame R) (state : TriprState) :
    Framed R (Libtrp.tripLeaveState state) := by
  have hcancel : Framed R tripTimeoutCancelState := by
    refine hR.bind (hR.fetch _) fun e => ?_
    cases e with
    | none => exact hR.pure ()
    | some e =>
      refine hR.bind (fun s => hR.ties (.cancel s.router e)) fun _ => hR.store fun _ => ?_
      exact .of_eq rfl rfl rfl rfl rfl
  cases state with
  | BIND | CLOSE | UNBIND => exact hR.bind (hR.tripSetDeadline 0) fun _ => hcancel
  | START | LISTEN | END | ERROR => exact hR.pure ()

/-! #### What is left -/

theorem leave (hR : Tame R) {ts : List Task} (h : ∀ u ∈ ts, u.tame = true) :
    Tames R (Pure.pure ts) :=
  Prog.Leaves.pure (R := fun s t : Env => R s.router t.router) (fun _ => hR.ties (.refl _)) h

theorem nil (hR : Tame R) : Tames R (Pure.pure []) :=
  hR.leave fun _ hu => absurd hu List.not_mem_nil

theorem one (hR : Tame R) {t : Task} (h : t.tame = true) : Tames R (Pure.pure [t]) :=
  hR.leave fun _ hu => List.mem_singleton.mp hu ▸ h

theorem two (hR : Tame R) {t u : Task} (ht : t.tame = true) (hu : u.tame = true) :
    Tames R (Pure.pure [t, u]) := by
  refine hR.leave fun v hv => ?_
  rcases List.mem_cons.mp hv with rfl | hv
  · exact ht
  · exact List.mem_singleton.mp hv ▸ hu

theorem andThen (hR : Tame R) {m : TripM α} {f : α → TripM (List Task)} (hm : Framed R m)
    (hf : ∀ a, Tames R (f a)) : Tames R (m >>= f) :=
  Prog.Leaves.bind (R := fun s t : Env => R s.router t.router) (fun _ _ _ h h' => hR.trans h h')
    hm hf

/-- Nothing is left. -/
theorem stop (hR : Tame R) {m : TripM α} (hm : Framed R m) :
    Tames R (m >>= fun _ => Pure.pure []) := hR.andThen hm fun _ => hR.nil

end Tame

theorem Tames.ite {R : Router → Router → Prop} {p : Prop} [Decidable p] {m n : TripM (List Task)}
    (hm : Tames R m) (hn : Tames R n) : Tames R (if p then m else n) :=
  Prog.Leaves.ite (fun _ => hm) fun _ => hn

theorem Tames.stuck {R : Router → Router → Prop} : Tames R Prog.stuck := Prog.Leaves.stuck

namespace Tame

variable {R : Router → Router → Prop}

theorem callPacket (hR : Tame R) {ts : List Task} (h : Tames R (Pure.pure ts)) :
    Tames R (Libtrp.callPacket ts) := hR.andThen (hR.fetch _) fun _ => .ite h .stuck

/-- **Entering a state**; the two that clear the map ask more of the relation. -/
theorem tripEnterState (hR : Tame R) {next : TriprState}
    (hclose : next = .CLOSE ∨ next = .UNBIND → ∀ ms, Framed R (tripClose ms)) :
    Tames R (Libtrp.tripEnterState next) := by
  cases next with
  | START | END => exact hR.nil
  | LISTEN => exact hR.stop (hR.store fun _ => .of_eq rfl rfl rfl rfl rfl)
  | BIND =>
    refine hR.andThen (hR.fetch _) fun ms => hR.andThen (hR.tripSetDeadline ms) fun _ => ?_
    exact hR.andThen (hR.tripArmState ms) fun _ => hR.callPacket (hR.one rfl)
  | CLOSE =>
    refine hR.andThen (hR.fetch _) fun ms => hR.andThen (hclose (Or.inl rfl) ms) fun _ => ?_
    exact hR.andThen (hR.tripSetDeadline ms) fun _ => hR.stop (hR.tripArmState ms)
  | UNBIND =>
    exact hR.andThen (hclose (Or.inr rfl) 0) fun _ => hR.callPacket (hR.two rfl rfl)
  | ERROR =>
    refine hR.andThen (hR.fetch _) fun packet => hR.andThen (hR.fetch _) fun statetimer => ?_
    cases packet with
    | none => exact .stuck
    | some packet =>
      refine .ite (hR.andThen (hR.fetch _) fun ms => ?_) hR.nil
      exact hR.andThen (hR.tripArmState ms) fun _ => hR.one rfl

/-- Changing the state. -/
theorem tripSetState (hR : Tame R) {state : TriprState} {s t : Env} {ts : List Task}
    (hclose : s.router.nextState state = .CLOSE ∨ s.router.nextState state = .UNBIND →
      ∀ ms, Framed R (tripClose ms))
    (h : (Libtrp.tripSetState state).exec s = (some ts, t)) :
    R s.router t.router ∧ ∀ u ∈ ts, u.tame = true := by
  unfold Libtrp.tripSetState at h
  rw [Prog.exec_bind_of (exec_fetch _ _)] at h
  have hrest : Tames R (Libtrp.tripLeaveState s.router.state >>= fun _ =>
      Libtrp.store (fun r => { r with state := s.router.nextState state }) >>= fun _ =>
        Libtrp.tripEnterState (s.router.nextState state)) := by
    refine hR.andThen (hR.tripLeaveState _) fun _ => hR.andThen (hR.store fun _ => ?_) fun _ => ?_
    · exact .of_eq rfl rfl rfl rfl rfl
    · exact hR.tripEnterState hclose
  exact hrest s ts t h

end Tame

theorem tame_ties : Tame (Ties none) := ⟨Ties.trans, id⟩

theorem tame_clears : Tame Clears := ⟨Clears.trans, Clears.ties⟩

/-! ### Calls and tasks -/

/-- Connections leave the resolve queue. -/
theorem Ties.setResolveq {c : Option Ptr} {r : Router} {q : Resolveq}
    (hq : ∀ d, q.Has d → r.resolveq.Has d) : Ties c r (r.setResolveq q) where
  conn := rfl
  live := rfl
  brk := rfl
  id := fun _ => rfl
  sendq := fun l hl _ => ⟨l, hl, fun _ hd => Or.inl hd⟩
  resolveq := hq
  timers := fun _ _ _ hp => Or.inl hp

/-- The timer for resolving has expired. -/
theorem tripcTimeoutStateResolve_ties (c : Ptr) :
    Framed (Ties (some c)) (tripcTimeoutStateResolve c) := by
  intro s
  unfold tripcTimeoutStateResolve
  rw [Prog.exec_bind_of (exec_getConn _ _), Prog.exec_bind_of (exec_fetch _ _)]
  cases hdel : resolveqDel s.router.resolveq (s.router.heap.conn c).resolvekey with
  | none => exact .refl s.router
  | some q =>
    dsimp only
    rw [Prog.exec_bind_of (exec_store _ _), Prog.exec_bind_of (exec_setConn _ _ _)]
    generalize hu : Env.setRouter (Env.setRouter _ _) _ = u
    have hset : Ties (some c) s.router u.router := by
      rw [← hu]
      exact (Ties.setResolveq fun _ => Resolveq.Has.of_del hdel).trans
        (.setConn _ c fun _ => ⟨rfl, rfl, rfl⟩)
    exact hset.trans ((RunsOn.tripcSetError (c := c) ETIME none).acts u).1.ties

/-- A resolution refers to the connection that was in the slot. -/
theorem tripResolve_ties (key src : ℤ) (err : Errno) (emsg : Option String) (s : Env) :
    ∃ c : Option Ptr, (∀ d ∈ c, s.router.resolveq.Has d) ∧
      Ties c s.router ((tripResolve key src err emsg).exec s).2.router := by
  unfold tripResolve
  rw [Prog.exec_bind_of (exec_fetch _ _)]
  rcases hpop : resolveqPop s.router.resolveq key with _ | ⟨c, q⟩
  · exact ⟨none, fun d hd => absurd hd (Option.not_mem_none d), .refl s.router⟩
  · obtain ⟨hc, hq⟩ := Resolveq.has_of_pop hpop
    refine ⟨c, hc, ?_⟩
    dsimp only
    rw [Prog.exec_bind_of (exec_store _ _)]
    cases c with
    | none => exact .setResolveq hq
    | some c =>
      have hpopped := (RunsOn.tripResolvePopped (c := c) src err emsg).acts
        (s.setRouter (s.router.setResolveq q))
      exact (Ties.setResolveq hq).trans hpopped.1.ties

namespace Tame

variable {R : Router → Router → Prop}

theorem tripSetError (hR : Tame R) (eval : Errno) (msg : Option String) :
    Tames R (Libtrp.tripSetError eval msg) := by
  refine hR.andThen (hR.fetch _) fun state => .ite (hR.andThen hR.tripmAlloc fun alloc => ?_) hR.nil
  exact hR.andThen (hR.store fun _ => .of_eq rfl rfl rfl rfl rfl) fun _ => hR.one rfl

theorem tripActionSwitch (hR : Tame R) (fd : ℤ) (events : UInt32) :
    Tames R (Libtrp.tripActionSwitch fd events) := by
  refine hR.andThen (hR.fetch _) fun state => ?_
  cases state with
  | START =>
    refine .ite (hR.one rfl) (hR.andThen hR.tripFillMissing fun there => .ite (hR.one rfl) ?_)
    refine hR.andThen (hR.fetch _) fun hooks =>
      .ite (hR.one rfl) (hR.andThen (hR.store fun _ => ?_) ?_)
    · exact .of_eq rfl rfl rfl rfl rfl
    · exact fun _ => hR.one rfl
  | BIND =>
    refine .ite (hR.one rfl)
      (hR.andThen hR.triptimeNow fun _ => hR.andThen (hR.fetch _) fun _ => ?_)
    exact .ite (hR.one rfl) (hR.stop (hR.tripArmState _))
  | LISTEN => exact hR.one rfl
  | CLOSE => exact hR.two rfl rfl
  | UNBIND =>
    exact hR.andThen hR.triptimeNow fun _ =>
      hR.andThen (hR.fetch _) fun _ => .ite (hR.one rfl) hR.nil
  | END | ERROR => exact hR.nil

theorem tripAction (hR : Tame R) (fd : ℤ) (events : UInt32) :
    Tames R (Libtrp.tripAction fd events) := by
  refine .ite ?_ (hR.tripActionSwitch fd events)
  rintro s _ _ ⟨⟩
  exact ⟨hR.ties (.refl s.router), by simp [Task.tame]⟩

/-- The calls, but for those that make a connection or are about one. -/
theorem api (hR : Tame R) {api : Api} (hopen : api ≠ .openConnection)
    (hresolve : ∀ key src err emsg, api ≠ .resolve key src err emsg)
    (hseg : ∀ src len buf, api ≠ .seg src len buf) : Tames R api.run := by
  cases api with
  | openConnection => exact absurd rfl hopen
  | resolve key src err emsg => exact absurd rfl (hresolve key src err emsg)
  | seg src len buf => exact absurd rfl (hseg src len buf)
  | start =>
    refine hR.andThen (hR.store fun r => ?_) fun _ => hR.andThen (hR.fetch _) fun _ => ?_
    · split <;> exact .of_eq rfl rfl rfl rfl rfl
    · exact .ite (hR.tripAction _ 0) hR.nil
  | action fd events => exact hR.tripAction fd events
  | timeout => exact hR.andThen hR.triptimeNow fun _ => hR.andThen (hR.fetch _) fun _ => hR.one rfl
  | stop =>
    refine hR.andThen (hR.fetch _) fun state => ?_
    cases state with
    | START | BIND | LISTEN => exact hR.andThen (hR.timer rfl 0) fun e => .ite (hR.one rfl) hR.nil
    | CLOSE | UNBIND | END | ERROR => exact hR.nil
  | setopt opt =>
    refine hR.stop (hR.store fun r => ?_)
    cases opt with
    | PACKET packet udp => cases packet <;> exact .of_eq rfl rfl rfl rfl rfl
    | _ => exact .of_eq rfl rfl rfl rfl rfl
  | setTimeout ms => exact hR.stop (hR.timer rfl ms)
  | cancelTimeout id =>
    exact hR.andThen (hR.fetch _) fun _ =>
      .ite (hR.stop fun s => hR.ties (.cancel s.router id)) .stuck
  | ready => exact hR.andThen (hR.fetch _) fun _ => .ite (hR.one rfl) (hR.one rfl)
  | unready err => exact .ite (hR.one rfl) (hR.one rfl)
  | error eval msg => exact hR.one rfl
  | watch fd events =>
    refine .ite (.ite (hR.stop (hR.store fun _ => ?_)) ?_) hR.nil
    · exact .of_eq rfl rfl rfl rfl rfl
    · refine hR.andThen (hR.store fun _ => .of_eq rfl rfl rfl rfl rfl) fun _ => ?_
      exact hR.andThen (hR.fetch _) fun _ => .ite (hR.stop (hR.timer rfl 0)) hR.nil

end Tame

/-- A program of the connection `c`. -/
theorem RunsOn.ties {α : Type} {c : Ptr} {m : TripM α} (hm : RunsOn c m) :
    Framed (Ties (some c)) m := fun s => (hm.acts s).1.ties

theorem tame_conn (c : Option Ptr) : Tame (Ties c) := ⟨Ties.trans, Ties.mono⟩

/-- **A callback refers to its connection only.** -/
theorem tripCallback_ties (cb : Callback) : Tames (Ties cb.conn?) (tripCallback cb) := by
  have hR := tame_conn cb.conn?
  cases cb with
  | tripSendImmediately => exact hR.two rfl rfl
  | tripTimeoutRouter =>
    refine hR.andThen (hR.store fun _ => .of_eq rfl rfl rfl rfl rfl) fun _ => ?_
    exact hR.andThen (hR.fetch _) fun _ => .ite hR.nil (hR.one rfl)
  | tripStopAsync => exact hR.one rfl
  | tripResolveDelaySuccess c => exact hR.stop (RunsOn.tripcSetState (c := c) .OPEN).ties
  | tripResolveDelayFailure c => exact hR.two rfl rfl
  | tripOpenConnectionAsync c =>
    refine hR.andThen (RunsOn.tripcStart (c := c)).ties fun _ => hR.andThen (hR.fetch _) fun x => ?_
    exact hR.callPacket (hR.one rfl)
  | tripcTimeoutStateResolve c =>
    exact hR.andThen (tripcTimeoutStateResolve_ties c) fun _ => hR.two rfl rfl
  | tripcTimeoutStateResend c =>
    exact hR.andThen (RunsOn.tripcTimeoutStateResend (c := c)).ties fun close =>
      .ite (hR.two rfl rfl) hR.nil
  | tripcTimeoutStateReadyPing c => exact hR.stop (RunsOn.tripcSetState (c := c) .PING).ties
  | user => exact hR.one rfl

/-- A task that takes no connection out of a table but the send queue, and refers to none. -/
def Task.idles : Task → Bool
  | .setState _ | .walk _ | .callback _ | .pack _ _ _ | .closeConnection _
  | .freeConnection _ => false
  | _ => true

/-- The other tasks. -/
theorem Tame.task {R : Router → Router → Prop} (hR : Tame R) {t : Task} (h : t.idles = true)
    (code : Errno) : Tames R (t.run code) := by
  have hzero : Framed R (Libtrp.store fun r => { r with sendlen := 0 }) :=
    hR.store fun _ => .of_eq rfl rfl rfl rfl rfl
  have hlimit : ∀ sent, Tames R (tripSendLimit sent) :=
    fun sent => hR.andThen (hR.fetch _) fun _ => .ite hR.nil (hR.one rfl)
  cases t with
  | setState | walk | callback | pack | closeConnection | freeConnection =>
    exact absurd h Bool.false_ne_true
  | bind | unbind | resolve | connection | reject | user => exact hR.nil
  | read fd events => exact .ite (hR.callPacket (hR.one rfl)) (.ite (hR.one rfl) (hR.one rfl))
  | resend => exact .ite (.ite (hR.one rfl) (hR.one rfl)) (hR.andThen hzero fun _ => hR.one rfl)
  | send c connsent sent =>
    refine .ite (.ite (hR.andThen (hR.fetch _) fun x => ?_) (hR.one rfl))
      (hR.andThen hzero fun _ => hR.one rfl)
    exact hR.stop (hR.store fun _ => .of_eq rfl rfl rfl rfl rfl)
  | setError eval msg => exact hR.tripSetError eval msg
  | unbindArm =>
    refine hR.andThen (hR.fetch _) fun ms => hR.andThen (hR.tripSetDeadline ms) fun _ => ?_
    exact hR.stop (hR.tripArmState ms)
  | action events =>
    exact hR.andThen (hR.fetch _) fun _ => .ite hR.nil (hR.tripActionSwitch _ events)
  | listen fd events => exact .ite (hR.callPacket (hR.one rfl)) (hR.one rfl)
  | listenOut events =>
    exact .ite (hR.andThen (hR.fetch _) fun _ => .ite (hR.callPacket (hR.one rfl)) (hR.one rfl))
      hR.nil
  | sendNext sent =>
    refine hR.andThen (fun s => hR.ties (.dq s.router)) fun c => ?_
    cases c with
    | none => exact hR.nil
    | some c => exact hR.one rfl
  | packed c connsent sent =>
    refine hR.andThen (hR.fetch _) fun sendlen => .ite (hR.andThen hzero fun _ => hR.one rfl) ?_
    exact .ite (hR.callPacket (hR.one rfl)) (hlimit sent)
  | closeDeadline =>
    exact hR.andThen hR.triptimeNow fun _ =>
      hR.andThen (hR.fetch _) fun _ => .ite (hR.one rfl) hR.nil
  | sendImmediately =>
    exact hR.andThen (hR.fetch _) fun _ => .ite (hR.stop (hR.timer rfl 1)) hR.nil

/-! ### Steps -/

/-- What a task that is on top asks for: the map is cleared when nothing refers to a
connection, what is closed has no reference but those the close takes back, and a connection
that is put back into the queue is in the map. -/
def Task.TieGuard (r : Router) : Task → Prop
  | .setState state => r.nextState state = .CLOSE ∨ r.nextState state = .UNBIND →
      ∀ d, ¬ r.Refers d
  | .closeConnection d => CloseGuard r d
  | .pack d connsent _ => r.maxConnectionSendCount ≤ connsent → r.conn.Has d
  | _ => True

/-- **What leaves no reference behind.**  An open that fails has taken nothing but the
connection. -/
def TieGuard (c : Config) : Input → Prop
  | .call .openConnection o => OpenFails c.router o → OpenBare c.router o
  | .call _ _ => True
  | .run _ _ => ∀ u ∈ c.todo.head?, u.TieGuard c.router

/-- What a task on the stack rests on: a callback on its connection, and the end of an open
that failed on that it is not in the map. -/
def Task.Fits (r : Router) : Task → Prop
  | .callback cb => ∀ d ∈ cb.conn?, r.conn.Has d
  | .freeConnection d => ¬ r.conn.Has d ∧ d < r.heap.brk
  | _ => True

theorem Task.fits_of_tame {t : Task} (h : t.tame = true) (r : Router) : t.Fits r := by
  cases t <;> trivial

/-- The tables after a step that leaves `ts` to do. -/
structure TieStep (r : Router) (ts : List Task) (r' : Router) : Prop where
  tables : Tables r'
  brk : r.heap.brk ≤ r'.heap.brk
  old : ∀ d < r.heap.brk, r'.conn.Has d → r.conn.Has d
  fits : ∀ t ∈ ts, t.Fits r'

theorem TieStep.of_ties {c : Option Ptr} {r r' : Router} {ts : List Task} (h : Tables r)
    (ht : Ties c r r') (hc : ∀ d ∈ c, r.conn.Has d) (hts : ∀ t ∈ ts, t.tame = true) :
    TieStep r ts r' where
  tables := h.ties ht hc
  brk := ht.brk.ge
  old := fun _ _ hd => ht.conn ▸ hd
  fits := fun t hmem => Task.fits_of_tame (hts t hmem) r'

theorem TieStep.of_still {r r' : Router} {ts : List Task} (h : Tables r) (ht : Ties none r r')
    (hts : ∀ t ∈ ts, t.tame = true) : TieStep r ts r' :=
  .of_ties h ht (fun d hd => absurd hd (Option.not_mem_none d)) hts

/-- A connection that was made and finds its place acts. -/
theorem TieStep.of_made {r r₁ r' : Router} (h : Tables r) (hf : Fresh r r₁)
    (hq : ∀ d, r₁.resolveq.Has d → r.resolveq.Has d ∨ d = r.heap.brk) {alloc : Bool}
    {x y : UInt32} {mh : Connmap × ConnHeap}
    (hadd : connmapAdd r.conn r₁.heap r.heap.brk alloc x y = (0, mh))
    (ht : Ties (some r.heap.brk) (r₁.setMap mh) r') : TieStep r [] r' := by
  obtain ⟨htables, hbrk, hhas⟩ := h.add hf hq hadd
  refine ⟨htables.ties ht fun d hd => ?_, ?_, fun d hd hin => ?_, fun _ hmem => ?_⟩
  · obtain rfl := Option.some.inj hd
    exact (hhas _).mpr (Or.inl rfl)
  · rw [ht.brk, Router.heap_setMap, hbrk]
    exact Nat.le_succ _
  · rw [ht.conn, Router.conn_setMap, hhas] at hin
    exact hin.resolve_left hd.ne
  · exact absurd hmem List.not_mem_nil

/-- **Opening a connection** that fails with nothing but the connection taken, or does not
fail. -/
theorem Opens.tied {s : Env} {ts : List Task} {r' : Router} (h : Opens s ts r')
    (hs : Tables s.router) (hg : OpenFails s.router s.oracle → OpenBare s.router s.oracle) :
    TieStep s.router ts r' := by
  cases h with
  | reject _ => exact .of_still hs (.refl _) (by simp [Task.tame])
  | @busy code mh errmsg hallow halloc hadd hcode =>
    have hfull := (connmapAdd_fails hadd).mp hcode
    have hput : PutFails s.router s.oracle := by
      rcases hg (Or.inr (Or.inr (Or.inr (Or.inl hfull)))) with hno | hno | ⟨hput, -⟩
      · exact absurd (hno.symm.trans hallow) Bool.false_ne_true
      · exact absurd (hno.symm.trans halloc) Bool.false_ne_true
      · exact hput
    have hq : ∀ d, (tripOpenFresh s.router s.oracle.alloc.tail.head).resolveq.Has d →
        s.router.resolveq.Has d := by
      intro d hd
      have hsame := congrArg Prod.snd (Resolveq.put_fails hput s.router.heap.brk)
      rw [resolveq_tripOpenFresh] at hd
      rwa [show (resolveqPut _ _ _).2 = s.router.resolveq from hsame] at hd
    obtain ⟨htables, hbrk, hsame⟩ := hs.add_fails (.open _ _) hq hadd hcode
    have hset : Ties none ((tripOpenFresh s.router s.oracle.alloc.tail.head).setMap mh)
        (((tripOpenFresh s.router s.oracle.alloc.tail.head).setMap mh).setConn s.router.heap.brk
          (Connection.refused EBUSY errmsg)) := .setConn _ _ fun _ => ⟨rfl, rfl, rfl⟩
    refine ⟨htables.still hset, ?_, fun d _ hd => ?_, fun t ht => ?_⟩
    · rw [hset.brk, Router.heap_setMap, hbrk]
      exact Nat.le_succ _
    · rw [hset.conn, Router.conn_setMap, hsame] at hd
      exact hd
    · rcases List.mem_cons.mp ht with rfl | ht
      · trivial
      · rw [List.mem_singleton.mp ht]
        refine ⟨fun hd => hs.not_has_brk ?_, ?_⟩
        · rw [hset.conn, Router.conn_setMap, hsame] at hd
          exact hd
        · rw [hset.brk, Router.heap_setMap, hbrk]
          exact Nat.lt_succ_self _
  | timer errmsg hallow halloc hadd htimer =>
    rcases hg (Or.inr (Or.inr (Or.inr (Or.inr htimer)))) with hno | hno | ⟨-, hfull⟩
    · exact absurd (hno.symm.trans hallow) Bool.false_ne_true
    · exact absurd (hno.symm.trans halloc) Bool.false_ne_true
    · exact absurd rfl ((connmapAdd_fails hadd).mpr hfull)
  | armed now now' _ _ hadd _ =>
    have hq : ∀ d, (tripOpenFresh s.router s.oracle.alloc.tail.head).resolveq.Has d →
        s.router.resolveq.Has d ∨ d = s.router.heap.brk := by
      intro d hd
      rw [resolveq_tripOpenFresh] at hd
      exact Resolveq.Has.of_put hd
    exact .of_made hs (.open _ _) hq hadd (.timer _ true now now' 0 fun d hd => hd)

/-- **A segment that comes in.** -/
theorem tripSeg_tied (src : ℤ) (len : ℕ) (buf : Buf) {s : Env} (hs : Tables s.router) :
    TieStep s.router [] ((tripSeg src len buf).exec s).2.router := by
  have hnil : ∀ t ∈ ([] : List Task), t.tame = true := fun _ ht => absurd ht List.not_mem_nil
  rcases tripSeg_cases src len buf s with hsame | ⟨_, c, -, hset⟩ |
    ⟨_, c, pre, en, hc, t, hst, hread⟩ | ⟨-, alloc, x, y, code, mh, hadd, hres⟩
  · rw [hsame]
    exact .of_still hs (.refl _) hnil
  · rw [hset]
    exact .of_still hs (.setConn _ c fun _ => ⟨rfl, rfl, rfl⟩) hnil
  · -- what is found by its identifier is in the map
    have hacts := (ActsOn.tripcRead (c := c) pre (sizeSub (sizeSub len tripSign) en)
      (buf.drop en) t).1
    rw [hread]
    rw [hst.router] at hacts
    refine .of_ties hs hacts.ties (fun d hd => ?_) hnil
    obtain rfl := Option.some.inj hd
    exact Connmap.has_of_get hc
  · have hfresh := Fresh.segment s.router src
    have hq : ∀ d, (tripSegmentFresh s.router src).resolveq.Has d → s.router.resolveq.Has d := by
      intro d hd
      rwa [resolveq_tripSegmentFresh] at hd
    rcases hres with ⟨hcode, hfree⟩ | ⟨rfl, hacts⟩
    · obtain ⟨htables, hbrk, hsame⟩ := hs.add_fails hfresh hq hadd hcode
      rw [hfree]
      refine ⟨htables.freeConn ?_, ?_, fun d _ hd => ?_, fun _ ht => absurd ht List.not_mem_nil⟩
      · rw [Router.conn_setMap, hsame]
        exact hs.not_has_brk
      · rw [Router.heap_freeConn_brk, Router.heap_setMap, hbrk]
        exact Nat.le_succ _
      · rw [Router.conn_freeConn, Router.conn_setMap, hsame] at hd
        exact hd
    · exact .of_made hs hfresh (fun d hd => Or.inl (hq d hd)) hadd hacts.ties

/-- **Every call.** -/
theorem Api.run_tied {api : Api} {s t : Env} {ts : List Task} (hs : Tables s.router)
    (hg : api = .openConnection → OpenFails s.router s.oracle → OpenBare s.router s.oracle)
    (h : api.run.exec s = (some ts, t)) : TieStep s.router ts t.router := by
  by_cases hopen : api = .openConnection
  · subst hopen
    obtain ⟨ts', t', hexec, hopens⟩ := exec_tripOpenConnection s
    obtain ⟨rfl, rfl⟩ : ts' = ts ∧ t' = t := by simpa using hexec.symm.trans h
    exact hopens.tied hs (hg rfl)
  by_cases hseg : ∃ src len buf, api = .seg src len buf
  · obtain ⟨src, len, buf, rfl⟩ := hseg
    have htied := tripSeg_tied src len buf hs
    simp only [Api.run] at h
    obtain ⟨_, v, hv, h⟩ := Prog.exec_bind_eq_some.mp h
    cases h
    rwa [hv] at htied
  by_cases hresolve : ∃ key src err emsg, api = .resolve key src err emsg
  · obtain ⟨key, src, err, emsg, rfl⟩ := hresolve
    obtain ⟨c, hc, hties⟩ := tripResolve_ties key src err emsg s
    simp only [Api.run] at h
    obtain ⟨_, v, hv, h⟩ := Prog.exec_bind_eq_some.mp h
    cases h
    rw [hv] at hties
    exact .of_ties hs hties (fun d hd => hs.refs.resolveq d (hc d hd))
      fun _ ht => absurd ht List.not_mem_nil
  · have hapi := tame_ties.api hopen
      (fun key src err emsg heq => hresolve ⟨key, src, err, emsg, heq⟩)
      (fun src len buf heq => hseg ⟨src, len, buf, heq⟩)
    obtain ⟨hties, htame⟩ := hapi s ts t h
    exact .of_still hs hties htame

/-- The walk takes out what was pending. -/
theorem tripTimeoutWalk_tied {w : Walk Callback} {s t : Env} {ts : List Task}
    (hs : Tables s.router) (h : (tripTimeoutWalk w).exec s = (some ts, t)) :
    TieStep s.router ts t.router := by
  unfold tripTimeoutWalk at h
  rw [Prog.exec_bind_of (exec_fetch _ _)] at h
  cases hstep : w.step s.router.timers.wheel with
  | none =>
    rw [hstep] at h
    cases h
    exact .of_still hs (.fewer _ fun p => .refl _) fun _ ht => absurd ht List.not_mem_nil
  | some p =>
    obtain ⟨w', wheel, cb⟩ := p
    rw [hstep] at h
    cases h
    have hpending := fun p => Timerwheel.pending_step (p := p) hstep
    have hties : Ties none s.router (s.router.setTimers { s.router.timers with wheel := wheel }) :=
      .fewer _ fun p => (hpending p).1
    refine ⟨hs.still hties, le_rfl, fun _ _ hd => hd, fun t ht => ?_⟩
    rcases List.mem_append.mp ht with ht | ht
    · obtain ⟨cb', hcb', rfl⟩ : ∃ cb' ∈ cb, Task.callback cb' = t := by simpa using ht
      intro d hd
      refine hs.refs.timers cb' d hd fun hnil => ?_
      have hlen := (hpending fun x => x = cb').2
      rw [show s.router.timers.wheel.pending _ = [] from hnil, Option.mem_def.mp hcb'] at hlen
      simp at hlen
    · rw [List.mem_singleton.mp ht]
      trivial

/-- A connection that has sent its share is put back into the queue. -/
theorem tripSendPack_tied {c : Ptr} {connsent sent : UInt32} {s t : Env} {ts : List Task}
    (hs : Tables s.router) (hg : s.router.maxConnectionSendCount ≤ connsent → s.router.conn.Has c)
    (h : (tripSendPack c connsent sent).exec s = (some ts, t)) : TieStep s.router ts t.router := by
  unfold tripSendPack at h
  rw [Prog.exec_bind_of (exec_fetch _ _)] at h
  split_ifs at h with hmax
  · rw [Prog.exec_bind_of (exec_fetch _ _)] at h
    obtain ⟨len, u, hlen, h⟩ := Prog.exec_bind_eq_some.mp h
    have hties := Ties.packs.tripcSend (c := c) s.router.buflen s
    rw [hlen] at hties
    cases h
    exact .of_still hs (hties.trans (.of_eq rfl rfl rfl rfl rfl)) (by simp [Task.tame])
  · rw [Prog.exec_bind_of (exec_store _ _)] at h
    obtain ⟨rfl, hts⟩ := tripSendLimit_cases h
    refine .of_ties hs (.nq s.router c) (fun d hd => ?_) fun u hu => ?_
    · obtain rfl := Option.some.inj hd
      exact hg (UInt32.not_lt.mp hmax)
    · rcases hts with rfl | ⟨rfl, -⟩
      · exact absurd hu List.not_mem_nil
      · rw [List.mem_singleton.mp hu]
        rfl

/-- **Every task on top.** -/
theorem Task.run_tied {code : Errno} {u : Task} {s t : Env} {ts : List Task}
    (hs : Tables s.router) (ht : Timed s.router) (hu : u.Fits s.router)
    (hg : u.TieGuard s.router) (h : (u.run code).exec s = (some ts, t)) :
    TieStep s.router ts t.router := by
  by_cases hidles : u.idles = true
  · obtain ⟨hties, htame⟩ := tame_ties.task hidles code s ts t h
    exact .of_still hs hties htame
  cases u with
  | setState state =>
    by_cases hclose : s.router.nextState state = .CLOSE ∨ s.router.nextState state = .UNBIND
    · obtain ⟨hclears, htame⟩ := tame_clears.tripSetState (fun _ ms => .tripClose ms) h
      have hvacant : Vacant s.router := ⟨hs, hs.refs.imp fun d hd => hg hclose d hd⟩
      exact ⟨(hclears.vacant hvacant).tables, hclears.brk.ge, fun d _ => hclears.old d,
        fun v hv => Task.fits_of_tame (htame v hv) t.router⟩
    · obtain ⟨hties, htame⟩ := tame_ties.tripSetState (fun hc => absurd hc hclose) h
      exact .of_still hs hties htame
  | walk w => exact tripTimeoutWalk_tied hs h
  | callback cb =>
    obtain ⟨hties, htame⟩ := tripCallback_ties cb s ts t h
    exact .of_ties hs hties hu htame
  | pack c connsent sent => exact tripSendPack_tied hs hg h
  | closeConnection c =>
    obtain ⟨rfl, htables, hbrk, hold⟩ := hs.closeConnection ht hg h
    exact ⟨htables, hbrk.ge, fun d _ => hold d, fun _ hv => absurd hv List.not_mem_nil⟩
  | freeConnection c =>
    cases h
    exact ⟨hs.freeConn hu.1, le_rfl, fun _ _ hd => hd, fun _ hv => absurd hv List.not_mem_nil⟩
  | _ => exact absurd rfl hidles

/-- The tables, and what the tasks on the stack rest on. -/
structure TieInv (c : Config) : Prop where
  known : Known c
  tables : Tables c.router
  fits : ∀ t ∈ c.todo, t.Fits c.router

namespace TieInv

variable {c c' : Config} {i : Input}

/-- What is below the task on top is no callback. -/
theorem rest {r r' : Router} {ts rest : List Task} (hs : TieStep r ts r')
    (hrest : ∀ t ∈ rest, t.urgent = false) (hfits : ∀ t ∈ rest, t.Fits r) :
    ∀ t ∈ rest, t.Fits r' := by
  intro t ht
  cases t with
  | callback cb => exact absurd (hrest _ ht) (Bool.false_ne_true ∘ Eq.symm)
  | freeConnection d =>
    obtain ⟨hd, hlt⟩ := hfits _ ht
    exact ⟨fun hin => hd (hs.old d hlt hin), hlt.trans_le hs.brk⟩
  | _ => trivial

/-- **One step.** -/
theorem step (hc : TieInv c) (hg : TieGuard c i) (h : c.Step i c') : TieInv c' := by
  have hknown := (hc.known.step h).1
  rcases Config.step_cases h with ⟨api, o, ts, e, rfl, hw, hexec, rfl⟩ |
    ⟨code, o, u, rest, ts, e, rfl, htodo, hexec, rfl⟩
  · have htied := Api.run_tied hc.tables (by rintro rfl; exact hg) hexec
    refine ⟨hknown, htied.tables, fun t ht => ?_⟩
    rcases List.mem_append.mp ht with ht | ht
    · exact htied.fits t ht
    · exact rest htied (hc.known.tidy.of_waits hw) hc.fits t ht
  · have hurgent : ∀ t ∈ rest, t.urgent = false :=
      fun t ht => hc.known.tidy t (by rw [htodo]; exact ht)
    have hfits : ∀ t ∈ u :: rest, t.Fits c.router := htodo ▸ hc.fits
    have htied := Task.run_tied hc.tables hc.known.timed (hfits u List.mem_cons_self)
      (hg u (by rw [htodo]; rfl)) hexec
    refine ⟨hknown, htied.tables, fun t ht => ?_⟩
    rcases List.mem_append.mp ht with ht | ht
    · exact htied.fits t ht
    · exact TieInv.rest htied hurgent (fun t ht => hfits t (List.mem_cons_of_mem u ht)) t ht

end TieInv

/-- **No table refers to a connection that was given back** or is not in the map, in a run in
which each open that fails has taken nothing, each connection that is closed or cleared has
no other reference, and each one put back into the queue is in the map. -/
theorem trip_stays_tied (preset : TripPreset) (now : ℕ) (buf : Buf) {r : List (Input × Config)}
    (hr : IsRun Config.Step (.idle (tripNew preset now buf)) r)
    (hm : Meets TieGuard (.idle (tripNew preset now buf)) r) :
    Holds (fun c : Config => c.router.Tied) (fun _ _ _ => True)
      (.idle (tripNew preset now buf)) r := by
  have hfirst : TieInv (.idle (tripNew preset now buf)) :=
    ⟨known_idle preset now buf, tables_tripNew preset now buf,
      fun _ ht => absurd ht List.not_mem_nil⟩
  refine (holds_of_meets ?_ hfirst hr hm).mono (fun c hc => hc.tables.tied) fun _ _ _ _ hok => hok
  intro c i c' hc hg h
  exact ⟨trivial, hc.step hg h⟩

/-! A condition that can be computed. -/

/-- What is closed is not the tail of the queue, and has no slot and no timer but its
state's. -/
def Router.closable (r : Router) (c : Ptr) : Bool :=
  r.sendq.tail ≠ some c && decide (ResolveqUnion.data (some c) ∉ r.resolveq.map) &&
    r.timers.wheel.entries.all (fun e => !e.pends fun cb => cb.conn? = some c && !cb.ofState c) &&
    (connmapGet r.conn r.heap (r.heap.conn c).self.id).all (· = c)

/-- The step clears no map and puts no connection back. -/
def Config.tieable (c : Config) : Input → Bool
  | .call .openConnection o => !decide (OpenFails c.router o)
  | .call _ _ => true
  | .run _ _ =>
    match c.todo.head? with
    | some (.setState state) =>
      c.router.nextState state ≠ .CLOSE && c.router.nextState state ≠ .UNBIND
    | some (.closeConnection d) => c.router.closable d
    | some (.pack _ connsent _) => connsent < c.router.maxConnectionSendCount
    | _ => true

theorem CloseGuard.of_closable {r : Router} {c : Ptr} (h : r.closable c = true) :
    CloseGuard r c := by
  unfold Router.closable at h
  simp only [Bool.and_eq_true, decide_eq_true_eq] at h
  obtain ⟨⟨⟨htail, hslot⟩, htimers⟩, hfound⟩ := h
  refine ⟨htail, hslot, fun cb hcb hof hp => hp ?_, fun d hd => Or.inl ?_⟩
  · have hnil : r.pending (fun cb => cb.conn? = some c && !cb.ofState c) = [] := by
      refine List.map_eq_nil_iff.mpr (List.filter_eq_nil_iff.mpr fun e he => ?_)
      exact Bool.not_eq_true _ ▸ Bool.not_eq_true' _ ▸ List.all_eq_true.mp htimers e he
    refine Timerwheel.pending_eq_nil_of_imp (fun cb' hcb' => ?_) hnil
    rw [of_decide_eq_true hcb', hcb, hof]
    simp
  · rw [hd] at hfound
    exact of_decide_eq_true hfound

theorem TieGuard.of_tieable {c : Config} {i : Input} (h : c.tieable i = true) : TieGuard c i := by
  cases i with
  | call api o =>
    cases api with
    | openConnection => exact fun hfails => absurd hfails (by simpa [Config.tieable] using h)
    | _ => trivial
  | run code o =>
    rintro u hu
    unfold Config.tieable at h
    rw [Option.mem_def.mp hu] at h
    cases u with
    | setState state =>
      simp only [Bool.and_eq_true, decide_eq_true_eq] at h
      exact fun hc => hc.elim (fun hc => absurd hc h.1) fun hc => absurd hc h.2
    | closeConnection d => exact .of_closable h
    | pack d connsent sent =>
      have hlt : connsent < c.router.maxConnectionSendCount := of_decide_eq_true h
      exact fun hle => absurd hlt (UInt32.not_lt.mpr hle)
    | _ => trivial

/-- A connection is opened, is not found, and is closed. -/
def failedInputs : List Input :=
  listenInputs ++ [.call .openConnection plainOracle, .call .timeout plainOracle] ++
    List.replicate 6 turn ++ [.call (.resolve 0 2 EHOSTDOWN none) plainOracle,
      .call .timeout plainOracle, turn, turn, turn, turn]

/-- The close takes its last reference. -/
theorem trip_stays_tied_closed :
    Holds (fun c : Config => c.router.Tied) (fun _ _ _ => True)
      (.idle (tripNew .ROUTER 0 fun _ => 0))
      (trace (fun i c => (c.step i).getD c) (.idle (tripNew .ROUTER 0 fun _ => 0)) failedInputs) :=
  trip_stays_tied .ROUTER 0 (fun _ => 0) (isRun_trace (by decide))
    (.mono (fun _ _ => .of_tieable) (by decide : Meets (fun c i => Config.tieable c i = true) _ _))

/-- The router listens. Memory is found for a connection and its slot, and none for the map. -/
def untiedInputs : List Input :=
  listenInputs ++ [.call .openConnection (allocating fun k => k ≠ 2), turn, turn]

/-- **A connection that finds no place in the map** was given back, and is in its slot. -/
theorem trip_open_unties :
    ¬ ∀ (preset : TripPreset) (now : ℕ) (buf : Buf) (r : List (Input × Config)),
      IsRun Config.Step (.idle (tripNew preset now buf)) r →
        Holds (fun c : Config => c.router.Tied) (fun _ _ _ => True)
          (.idle (tripNew preset now buf)) r := by
  intro h
  have hlast := (h .ROUTER 0 (fun _ => 0) _
    (isRun_trace (f := Config.step) (l := untiedInputs) (by decide))).last
  have hslot : ResolveqUnion.data (some 0) ∈
      (untiedInputs.foldl (fun c i => (c.step i).getD c)
        (Config.idle (tripNew .ROUTER 0 fun _ => 0))).router.resolveq.map := by decide
  have hlive := (hlast 0 (Or.inr (Or.inl hslot))).1
  revert hlive
  decide

end Libtrp
