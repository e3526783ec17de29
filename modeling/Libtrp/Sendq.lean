import Mathlib.Data.List.Perm.Subperm
import Libtrp.Core
import Libtrp.Lib.Linked
import Libtrp.Lib.Run

/-!
# The send queue

The queue of the connections that want to send: a head and a tail pointer, a
`next` link in each connection, and the flag `insend` that says whether the
connection is in the queue.  What it is for is a first-in-first-out queue of
distinct connections with removal, the list operations of `Fifo`.

`sendq_del` unlinks a connection without looking at the tail.  Removing the
last connection therefore leaves `tail` on it, and what is enqueued next hangs
behind a connection the head no longer leads to.  That is the only way the four
parts get out of step: `sendq_fifo_iff` says that a run behaves as a queue
throughout exactly when it never removes the connection at the tail.

## Main definitions

* `sendqDq`, `sendqNq`, `sendqDel` — the operations.
* `SendqRep q h l` — the queue holds the connections `l`, in order.
* `SendqShape q h l` — its head leads to `l`, wherever its tail is.

## Main results

* `sendq_fifo_iff` — **when the send queue is a queue.**
* `sendq_shape` — what is left of it otherwise.

## References

`src/sendq.c`, `src/sendq.h`.
-/

namespace Libtrp

open Lib

/-- `sendq_t` -/
structure Sendq where
  head : Option Ptr
  tail : Option Ptr
  deriving DecidableEq, Repr, Inhabited

/-- `sendq_init` -/
def sendqInit : Sendq := ⟨none, none⟩

/-- `sendq_dq` -/
def sendqDq (q : Sendq) (h : ConnHeap) : Option Ptr × Sendq × ConnHeap :=
  match q.head with
  | none => (none, q, h)
  | some c =>
    let head := h.next c
    (some c, ⟨head, if head.isNone then none else q.tail⟩,
      h.set c fun x => (x.setNext none).setInsend false)

/-- `sendq_nq` -/
def sendqNq (q : Sendq) (h : ConnHeap) (c : Ptr) : Sendq × ConnHeap :=
  if (h.conn c).insend then (q, h)
  else
    match q.tail with
    | some t =>
      let h := h.set t fun x => x.setNext (some c)
      (⟨q.head, some c⟩, h.set c fun x => (x.setNext none).setInsend true)
    | none => (⟨some c, some c⟩, h.set c fun x => (x.setNext none).setInsend true)

/-- `*p = n`, where `p` points to the link of a connection or, when `none`, to
the head of the queue. -/
def sendqStore (p n : Option Ptr) (q : Sendq) (h : ConnHeap) : Sendq × ConnHeap :=
  match p with
  | none => (⟨n, q.tail⟩, h)
  | some m => (q, h.set m fun x => x.setNext n)

/-- The loop of `sendq_del`: `p` points to the link that leads to `n`. -/
def sendqUnlink (c : Ptr) : ℕ → Option Ptr → Option Ptr → Sendq → ConnHeap → Sendq × ConnHeap
  | 0, _, _, q, h => (q, h)
  | _ + 1, _, none, q, h => (q, h)
  | k + 1, p, some n, q, h =>
    if n = c then sendqStore p (h.next n) q h
    else sendqUnlink c k (some n) (h.next n) q h

/-- `sendq_del`.  A list of connections visits no more of them than there are,
so `h.brk` bounds the loop. -/
def sendqDel (q : Sendq) (h : ConnHeap) (c : Ptr) : Sendq × ConnHeap :=
  let qh := if (h.conn c).insend then sendqUnlink c h.brk none q.head q h else (q, h)
  (qh.1, qh.2.set c fun x => x.setInsend false)

/-- `sendq_has` -/
def sendqHas (q : Sendq) : Bool := q.head.isSome

/-! ### What the operations write -/

/-- The relation holds of writes to the link and the flag of a connection. -/
structure SendqWrites (R : ConnHeap → ConnHeap → Prop) : Prop where
  refl : ∀ h, R h h
  trans : ∀ {h h' h''}, R h h' → R h' h'' → R h h''
  link : ∀ h c n, R h (h.set c fun x => x.setNext n)
  flag : ∀ h c b, R h (h.set c fun x => x.setInsend b)

namespace SendqWrites

variable {R : ConnHeap → ConnHeap → Prop}

theorem both (hR : SendqWrites R) (h : ConnHeap) (c : Ptr) (n : Option Ptr) (b : Bool) :
    R h (h.set c fun x => (x.setNext n).setInsend b) := by
  have hset := ConnHeap.set_set h c (fun x => x.setNext n) fun x => x.setInsend b
  exact hset ▸ hR.trans (hR.link h c n) (hR.flag _ c b)

theorem dq (hR : SendqWrites R) (q : Sendq) (h : ConnHeap) : R h (sendqDq q h).2.2 := by
  unfold sendqDq
  split
  · exact hR.refl h
  · exact hR.both h _ none false

theorem nq (hR : SendqWrites R) (q : Sendq) (h : ConnHeap) (c : Ptr) : R h (sendqNq q h c).2 := by
  unfold sendqNq
  split_ifs
  · exact hR.refl h
  · split
    · next t _ => exact hR.trans (hR.link h t (some c)) (hR.both _ c none true)
    · exact hR.both h c none true

theorem unlink (hR : SendqWrites R) (c : Ptr) (k : ℕ) (p n : Option Ptr) (q : Sendq)
    (h : ConnHeap) : R h (sendqUnlink c k p n q h).2 := by
  induction k generalizing p n with
  | zero => exact hR.refl h
  | succ k ih =>
    cases n with
    | none => exact hR.refl h
    | some n =>
      unfold sendqUnlink
      split_ifs
      · cases p with
        | none => exact hR.refl h
        | some m => exact hR.link h m (h.next n)
      · exact ih (some n) (h.next n)

theorem del (hR : SendqWrites R) (q : Sendq) (h : ConnHeap) (c : Ptr) :
    R h (sendqDel q h c).2 := by
  refine hR.trans ?_ (hR.flag _ c false)
  split_ifs
  · exact hR.unlink c h.brk none q.head q h
  · exact hR.refl h

end SendqWrites

/-- They allocate nothing. -/
theorem sendqWrites_brk : SendqWrites fun h h' => h'.brk = h.brk :=
  ⟨fun _ => rfl, fun h h' => h'.trans h, fun _ _ _ => rfl, fun _ _ _ => rfl⟩

/-! ### Where the queue leads -/

/-- Head, tail and every link of the queue lead to connections of `P`, also where it is not
the queue of a list. -/
structure SendqLinks (P : Ptr → Prop) (q : Sendq) (h : ConnHeap) : Prop where
  head : ∀ c ∈ q.head, P c
  tail : ∀ c ∈ q.tail, P c
  next : ∀ d, ∀ c ∈ h.next d, P c

namespace SendqLinks

variable {P : Ptr → Prop} {q : Sendq} {h : ConnHeap} {c : Ptr}

/-- A connection is written to. -/
theorem set (hq : SendqLinks P q h) (c : Ptr) (f : Connection → Connection)
    (hf : ∀ d ∈ (f (h.conn c)).next, P d) : SendqLinks P q (h.set c f) := by
  refine ⟨hq.head, hq.tail, fun d => ?_⟩
  rw [ConnHeap.next_set]
  rcases eq_or_ne d c with rfl | hdc
  · rw [Function.update_self]
    exact hf
  · rw [Function.update_of_ne hdc]
    exact hq.next d

theorem dq (hq : SendqLinks P q h) :
    SendqLinks P (sendqDq q h).2.1 (sendqDq q h).2.2 ∧ ∀ c ∈ (sendqDq q h).1, P c := by
  unfold sendqDq
  cases hhead : q.head with
  | none => exact ⟨hq, fun c hc => absurd hc (Option.not_mem_none c)⟩
  | some c =>
    have hset := hq.set c (fun x => (x.setNext none).setInsend false)
      fun d hd => absurd hd (Option.not_mem_none d)
    refine ⟨⟨hq.next c, fun d hd => ?_, hset.next⟩, ?_⟩
    · dsimp only at hd
      split at hd
      · exact absurd hd (Option.not_mem_none d)
      · exact hq.tail d hd
    · rintro _ ⟨⟩
      exact hq.head c hhead

theorem nq (hq : SendqLinks P q h) (hc : P c) :
    SendqLinks P (sendqNq q h c).1 (sendqNq q h c).2 := by
  have hnew : ∀ d ∈ some c, P d := by
    rintro _ ⟨⟩
    exact hc
  have hlast : ∀ {h' : ConnHeap}, SendqLinks P q h' →
      SendqLinks P q (h'.set c fun x => (x.setNext none).setInsend true) :=
    fun hq' => hq'.set c _ fun d hd => absurd hd (Option.not_mem_none d)
  unfold sendqNq
  split
  · exact hq
  · cases q.tail with
    | none => exact ⟨hnew, hnew, (hlast hq).next⟩
    | some t => exact ⟨hq.head, hnew, (hlast (hq.set t _ hnew)).next⟩

theorem unlink (hq : SendqLinks P q h) (k : ℕ) (p : Option Ptr) :
    ∀ n : Option Ptr, SendqLinks P (sendqUnlink c k p n q h).1 (sendqUnlink c k p n q h).2 := by
  induction k generalizing p with
  | zero => exact fun _ => hq
  | succ k ih =>
    intro n
    cases n with
    | none => exact hq
    | some n =>
      unfold sendqUnlink
      split
      · -- the link to `c` is made to lead behind it
        cases p with
        | none => exact ⟨hq.next n, hq.tail, hq.next⟩
        | some m => exact hq.set m (fun x => x.setNext (h.next n)) (hq.next n)
      · exact ih (some n) (h.next n)

theorem del (hq : SendqLinks P q h) : SendqLinks P (sendqDel q h c).1 (sendqDel q h c).2 := by
  have hunlinked : SendqLinks P
      (if (h.conn c).insend then sendqUnlink c h.brk none q.head q h else (q, h)).1
      (if (h.conn c).insend then sendqUnlink c h.brk none q.head q h else (q, h)).2 := by
    split
    · exact hq.unlink h.brk none q.head
    · exact hq
  exact hunlinked.set c (fun x => x.setInsend false) (hunlinked.next c)

end SendqLinks

/-! ### The queue it stands for -/

namespace Fifo

/-- Enqueueing what is there already changes nothing. -/
def nq (l : List Ptr) (c : Ptr) : List Ptr := if c ∈ l then l else l ++ [c]

/-- Removal of one connection. -/
def del (l : List Ptr) (c : Ptr) : List Ptr := l.erase c

theorem mem_nq {l : List Ptr} {c d : Ptr} : d ∈ nq l c ↔ d ∈ l ∨ d = c := by
  unfold nq
  split_ifs with hc
  · constructor
    · exact .inl
    · rintro (hd | rfl)
      · exact hd
      · exact hc
  · simp

end Fifo

/-- The head leads to the connections `l`, all of them flagged, and the tail is the last of them
or one that the head does not lead to. -/
structure SendqShape (q : Sendq) (h : ConnHeap) (l : List Ptr) : Prop where
  linked : Linked h.next q.head l
  tail : q.tail = l.getLast? ∨ ∃ t ∉ l, q.tail = some t
  insend : ∀ c ∈ l, (h.conn c).insend = true
  alloc : ∀ c ∈ l, c < h.brk

/-- The queue holds exactly the connections `l`, in order: they are what the
head leads to, the tail is the last of them, and they are the flagged ones. -/
structure SendqRep (q : Sendq) (h : ConnHeap) (l : List Ptr) : Prop where
  linked : Linked h.next q.head l
  tail : q.tail = l.getLast?
  insend : ∀ c, (h.conn c).insend = true ↔ c ∈ l
  alloc : ∀ c ∈ l, c < h.brk

theorem SendqRep.shape {q : Sendq} {h : ConnHeap} {l : List Ptr} (hq : SendqRep q h l) :
    SendqShape q h l :=
  ⟨hq.linked, .inl hq.tail, fun c hc => (hq.insend c).mpr hc, hq.alloc⟩

/-- It is the queue of `l` when the tail is the last and no other connection is flagged. -/
theorem SendqShape.rep {q : Sendq} {h : ConnHeap} {l : List Ptr} (hq : SendqShape q h l)
    (ht : q.tail = l.getLast?) (hin : ∀ c, (h.conn c).insend = true → c ∈ l) : SendqRep q h l :=
  ⟨hq.linked, ht, fun c => ⟨hin c, hq.insend c⟩, hq.alloc⟩

theorem SendqShape.not_mem {q : Sendq} {h : ConnHeap} {l : List Ptr} {c : Ptr}
    (hq : SendqShape q h l) (hc : (h.conn c).insend = false) : c ∉ l := by
  intro hmem
  rw [hq.insend c hmem] at hc
  cases hc

theorem SendqRep.nodup {q : Sendq} {h : ConnHeap} {l : List Ptr} (hq : SendqRep q h l) :
    l.Nodup := hq.linked.nodup

theorem sendqRep_init {h : ConnHeap} (hh : ∀ c, (h.conn c).insend = false) :
    SendqRep sendqInit h [] where
  linked := rfl
  tail := rfl
  insend := fun c => by simp [hh c]
  alloc := fun c hc => by simp at hc

/-- The queue leads where it did where its links and the flags are the same. -/
theorem SendqShape.of_links {q : Sendq} {h h' : ConnHeap} {l : List Ptr} (hq : SendqShape q h l)
    (hb : h.brk ≤ h'.brk) (hnext : ∀ c ∈ l, (h'.conn c).next = (h.conn c).next)
    (hinsend : ∀ c, (h'.conn c).insend = (h.conn c).insend) : SendqShape q h' l where
  linked := hq.linked.congr hnext
  tail := hq.tail
  insend := fun c hc => (hinsend c).trans (hq.insend c hc)
  alloc := fun c hc => (hq.alloc c hc).trans_le hb

/-- The queue holds the same where its links and the flags are the same. -/
theorem SendqRep.of_links {q : Sendq} {h h' : ConnHeap} {l : List Ptr} (hq : SendqRep q h l)
    (hb : h.brk ≤ h'.brk) (hnext : ∀ c ∈ l, (h'.conn c).next = (h.conn c).next)
    (hinsend : ∀ c, (h'.conn c).insend = (h.conn c).insend) : SendqRep q h' l := by
  refine (hq.shape.of_links hb hnext hinsend).rep hq.tail fun c hc => ?_
  rw [hinsend] at hc
  exact (hq.insend c).mp hc

/-! ### What each operation does to it -/

/-- Dequeueing takes the first connection, and the tail is right where it was right before. -/
theorem SendqShape.dq {q : Sendq} {h : ConnHeap} {l : List Ptr} (hq : SendqShape q h l) :
    (sendqDq q h).1 = l.head? ∧ SendqShape (sendqDq q h).2.1 (sendqDq q h).2.2 l.tail ∧
      (q.tail = l.getLast? → (sendqDq q h).2.1.tail = l.tail.getLast?) := by
  have hhead := hq.linked.head_eq
  cases l with
  | nil =>
    rw [List.head?_nil] at hhead
    simp only [sendqDq, hhead]
    exact ⟨rfl, hq, id⟩
  | cons c l =>
    rw [List.head?_cons] at hhead
    simp only [sendqDq, hhead, List.head?_cons, List.tail_cons, true_and]
    have hnd : c ∉ l := (List.nodup_cons.mp hq.linked.nodup).1
    have hl : Linked h.next (h.next c) l := hq.linked.2
    have hlast : q.tail = (c :: l).getLast? →
        (if (h.next c).isNone then none else q.tail) = l.getLast? := by
      intro ht
      rw [hl.head_eq]
      cases l with
      | nil => rfl
      | cons d l => simpa using ht
    refine ⟨⟨?_, ?_, ?_, ?_⟩, hlast⟩
    · rw [ConnHeap.next_set]
      exact hl.update hnd _
    · rcases hq.tail with ht | ⟨t, htl, ht⟩
      · exact .inl (hlast ht)
      -- the last connection taken puts the tail right
      · cases l with
        | nil => exact .inl (if_pos (by rw [hl.head_eq]; rfl))
        | cons d l =>
          refine .inr ⟨t, fun hmem => htl (List.mem_cons_of_mem c hmem), ?_⟩
          rw [if_neg (by rw [hl.head_eq]; simp), ht]
    · intro d hd
      rw [ConnHeap.conn_set_of_ne h (show d ≠ c from fun hdc => hnd (hdc ▸ hd))]
      exact hq.insend d (List.mem_cons_of_mem c hd)
    · intro d hd
      exact hq.alloc d (List.mem_cons_of_mem c hd)

/-- What is taken was the first. -/
theorem SendqShape.dq_eq_some {q : Sendq} {h : ConnHeap} {l : List Ptr} {c : Ptr}
    (hq : SendqShape q h l) (hc : (sendqDq q h).1 = some c) : ∃ l', l = c :: l' := by
  have hhead : some c = l.head? := hc.symm.trans hq.dq.1
  cases l with
  | nil => cases hhead
  | cons d l =>
    cases hhead
    exact ⟨l, rfl⟩

theorem SendqShape.dq_eq_none {q : Sendq} {h : ConnHeap} {l : List Ptr} (hq : SendqShape q h l)
    (hc : (sendqDq q h).1 = none) : l = [] :=
  List.head?_eq_none_iff.mp (hq.dq.1.symm.trans hc)

/-- Only what is taken loses its flag. -/
theorem sendqDq_insend {q : Sendq} {h : ConnHeap} {d : Ptr} (hd : (sendqDq q h).1 ≠ some d) :
    ((sendqDq q h).2.2.conn d).insend = (h.conn d).insend := by
  unfold sendqDq at hd ⊢
  split
  · rfl
  · next c hc =>
    rw [hc] at hd
    have hdc : d ≠ c := fun hdc => hd (by rw [hdc])
    dsimp only
    rw [ConnHeap.conn_set_of_ne h hdc]

/-- Dequeueing takes the first connection. -/
theorem SendqRep.dq {q : Sendq} {h : ConnHeap} {l : List Ptr} (hq : SendqRep q h l) :
    (sendqDq q h).1 = l.head? ∧
      SendqRep (sendqDq q h).2.1 (sendqDq q h).2.2 l.tail := by
  obtain ⟨hhead, hshape, hlast⟩ := hq.shape.dq
  refine ⟨hhead, hshape.rep (hlast hq.tail) fun d hd => ?_⟩
  cases l with
  | nil =>
    rw [sendqDq_insend (by rw [hhead]; simp)] at hd
    exact (hq.insend d).mp hd
  | cons c l =>
    rcases eq_or_ne d c with rfl | hdc
    · have hout : ((sendqDq q h).2.2.conn d).insend = false := by
        simp [sendqDq, show q.head = some d from hq.linked.head_eq]
      rw [hout] at hd
      cases hd
    · rw [sendqDq_insend (by rw [hhead]; simpa using hdc.symm), hq.insend] at hd
      exact (List.mem_cons.mp hd).resolve_left hdc

/-- Who is enqueued is flagged. -/
theorem sendqNq_insend (q : Sendq) (h : ConnHeap) (c d : Ptr) :
    ((sendqNq q h c).2.conn d).insend = ((h.conn d).insend || decide (d = c)) := by
  have hset : ∀ h' : ConnHeap, (h'.conn d).insend = (h.conn d).insend →
      ((h'.set c fun x => (x.setNext none).setInsend true).conn d).insend =
        ((h.conn d).insend || decide (d = c)) := by
    intro h' hh'
    rcases eq_or_ne d c with rfl | hdc
    · simp
    · rw [ConnHeap.conn_set_of_ne h' hdc, hh', decide_eq_false hdc, Bool.or_false]
  unfold sendqNq
  split_ifs with hin
  · rcases eq_or_ne d c with rfl | hdc
    · rw [hin, Bool.true_or]
    · rw [decide_eq_false hdc, Bool.or_false]
  · split
    · exact hset _ (ConnHeap.conn_set_field Connection.insend h _ d rfl)
    · exact hset h rfl

/-- Enqueueing puts a connection that is not flagged behind the tail; it is led to there if the
tail is the last. -/
theorem SendqShape.nq {q : Sendq} {h : ConnHeap} {l : List Ptr} (hq : SendqShape q h l) {c : Ptr}
    (hc : c < h.brk) : SendqShape (sendqNq q h c).1 (sendqNq q h c).2
      (if (h.conn c).insend = false ∧ q.tail = l.getLast? then l ++ [c] else l) := by
  cases hin : (h.conn c).insend with
  | true =>
    rw [if_neg (fun hif => Bool.false_ne_true hif.1.symm), sendqNq, if_pos hin]
    exact hq
  | false =>
    have hcl : c ∉ l := hq.not_mem hin
    have halloc : ∀ d ∈ l ++ [c], d < (sendqNq q h c).2.brk := by
      rw [sendqWrites_brk.nq q h c]
      intro d hd
      rcases List.mem_append.mp hd with hd | hd
      · exact hq.alloc d hd
      · exact List.mem_singleton.mp hd ▸ hc
    -- it is flagged, whether it is led to or not
    have hflag : ∀ d ∈ l ++ [c], ((sendqNq q h c).2.conn d).insend = true := by
      intro d hd
      rw [sendqNq_insend, Bool.or_eq_true, decide_eq_true_eq]
      exact (List.mem_append.mp hd).imp (hq.insend d) List.mem_singleton.mp
    by_cases hlast : q.tail = l.getLast?
    · rw [if_pos ⟨rfl, hlast⟩]
      refine ⟨?_, .inl ?_, hflag, halloc⟩
      · simp only [sendqNq, hin, Bool.false_eq_true, if_false]
        cases ht : q.tail with
        | none =>
          obtain rfl : l = [] := List.getLast?_eq_none_iff.mp (hlast.symm.trans ht)
          simp [ConnHeap.next]
        | some t =>
          dsimp only
          rw [ConnHeap.next_set, ConnHeap.next_set]
          exact hq.linked.snoc (hlast.symm.trans ht) hcl
      · rw [List.getLast?_concat, sendqNq, if_neg (by simp [hin])]
        split
        · rfl
        · rfl
    · -- it hangs behind a connection that the head does not lead to
      rw [if_neg (fun hif => hlast hif.2)]
      obtain ⟨t, htl, ht⟩ := hq.tail.resolve_left hlast
      have hnq : sendqNq q h c = (⟨q.head, some c⟩,
          (h.set t fun x => x.setNext (some c)).set c fun x =>
            (x.setNext none).setInsend true) := by
        simp only [sendqNq, hin, Bool.false_eq_true, if_false, ht]
      refine ⟨?_, .inr ⟨c, hcl, by rw [hnq]⟩, fun d hd => hflag d (List.mem_append_left _ hd),
        fun d hd => halloc d (List.mem_append_left _ hd)⟩
      rw [hnq, ConnHeap.next_set, ConnHeap.next_set]
      exact (hq.linked.update htl _).update hcl _

theorem mem_sendqNq {q : Sendq} {h : ConnHeap} {l : List Ptr} {c d : Ptr} :
    d ∈ (if (h.conn c).insend = false ∧ q.tail = l.getLast? then l ++ [c] else l) ↔
      d ∈ l ∨ d = c ∧ (h.conn c).insend = false ∧ q.tail = l.getLast? := by
  split_ifs with hif
  · rw [List.mem_append, List.mem_singleton, and_iff_left hif]
  · rw [or_iff_left fun hd => hif hd.2]

theorem length_sendqNq_le (q : Sendq) (h : ConnHeap) (l : List Ptr) (c : Ptr) :
    (if (h.conn c).insend = false ∧ q.tail = l.getLast? then l ++ [c] else l).length ≤
      l.length + 1 := by
  split_ifs
  · rw [List.length_append, List.length_singleton]
  · exact Nat.le_succ _

/-- Enqueueing neither puts the tail right nor wrong. -/
theorem SendqShape.nq_tail {q : Sendq} {h : ConnHeap} {l : List Ptr} (hq : SendqShape q h l)
    (c : Ptr) : (sendqNq q h c).1.tail =
      (if (h.conn c).insend = false ∧ q.tail = l.getLast? then l ++ [c] else l).getLast? ↔
        q.tail = l.getLast? := by
  cases hin : (h.conn c).insend with
  | true => rw [if_neg (fun hif => Bool.false_ne_true hif.1.symm), sendqNq, if_pos hin]
  | false =>
    have htail : (sendqNq q h c).1.tail = some c := by
      rw [sendqNq, if_neg (by simp [hin])]
      split
      · rfl
      · rfl
    rw [htail]
    by_cases hlast : q.tail = l.getLast?
    · rw [if_pos ⟨rfl, hlast⟩, List.getLast?_concat]
      exact iff_of_true rfl hlast
    · rw [if_neg (fun hif => hlast hif.2)]
      exact iff_of_false (fun h => hq.not_mem hin (List.mem_of_getLast? h.symm)) hlast

/-- Enqueueing puts a connection that is not there at the end. -/
theorem SendqRep.nq {q : Sendq} {h : ConnHeap} {l : List Ptr} (hq : SendqRep q h l) {c : Ptr}
    (hc : c < h.brk) : SendqRep (sendqNq q h c).1 (sendqNq q h c).2 (Fifo.nq l c) := by
  have hlist : (if (h.conn c).insend = false ∧ q.tail = l.getLast? then l ++ [c] else l) =
      Fifo.nq l c := by
    unfold Fifo.nq
    by_cases hin : c ∈ l
    · rw [if_pos hin, if_neg fun hif => hq.shape.not_mem hif.1 hin]
    · rw [if_neg hin, if_pos ⟨Bool.eq_false_iff.mpr fun h => hin ((hq.insend c).mp h), hq.tail⟩]
  have hshape := hq.shape.nq hc
  have htail := (hq.shape.nq_tail c).mpr hq.tail
  rw [hlist] at hshape htail
  refine hshape.rep htail fun d hd => Fifo.mem_nq.mpr ?_
  rw [sendqNq_insend, Bool.or_eq_true, decide_eq_true_eq, hq.insend] at hd
  exact hd

/-- The loop of `sendq_del` with the connection ahead of it: the link that leads
to the connection takes over the connection's own. -/
theorem sendqUnlink_eq {c : Ptr} {q : Sendq} {h : ConnHeap} {l₂ : List Ptr} :
    ∀ {l₁ : List Ptr} {k : ℕ} {p n : Option Ptr}, c ∉ l₁ → l₁.length < k →
      Linked h.next n (l₁ ++ c :: l₂) →
      sendqUnlink c k p n q h = sendqStore (l₁.getLast?.or p) (h.next c) q h := by
  intro l₁
  induction l₁ with
  | nil =>
    intro k p n _ hk hn
    obtain ⟨k, rfl⟩ : ∃ j, k = j + 1 := ⟨k - 1, by simp at hk; omega⟩
    rw [List.nil_append, linked_cons] at hn
    rw [hn.1]
    simp [sendqUnlink]
  | cons a l₁ ih =>
    intro k p n hc hk hn
    obtain ⟨k, rfl⟩ : ∃ j, k = j + 1 := ⟨k - 1, by simp at hk; omega⟩
    rw [List.cons_append, linked_cons] at hn
    rw [List.mem_cons, not_or] at hc
    rw [hn.1]
    simp only [sendqUnlink, if_neg (Ne.symm hc.1)]
    rw [ih hc.2 (by simpa using hk) hn.2, List.getLast?_cons]
    cases l₁.getLast? <;> rfl

theorem sendqUnlink_tail (c : Ptr) : ∀ (k : ℕ) (p n : Option Ptr) (q : Sendq) (h : ConnHeap),
    (sendqUnlink c k p n q h).1.tail = q.tail := by
  intro k
  induction k with
  | zero => intro p n q h; rfl
  | succ k ih =>
    intro p n q h
    cases n with
    | none => rfl
    | some n =>
      rw [sendqUnlink]
      split
      · cases p <;> rfl
      · exact ih _ _ _ _

/-- `sendq_del` never moves the tail. -/
theorem sendqDel_tail (q : Sendq) (h : ConnHeap) (c : Ptr) :
    (sendqDel q h c).1.tail = q.tail := by
  simp only [sendqDel]
  split
  · exact sendqUnlink_tail c _ _ _ _ _
  · rfl

@[simp] theorem sendqDel_brk (q : Sendq) (h : ConnHeap) (c : Ptr) :
    (sendqDel q h c).2.brk = h.brk := sendqWrites_brk.del q h c

/-- The loop writes links only. -/
theorem sendqUnlink_insend (c : Ptr) (q : Sendq) (h : ConnHeap) (d : Ptr) :
    ∀ (k : ℕ) (p n : Option Ptr),
      ((sendqUnlink c k p n q h).2.conn d).insend = (h.conn d).insend := by
  intro k
  induction k with
  | zero => intro p n; rfl
  | succ k ih =>
    intro p n
    cases n with
    | none => rfl
    | some n =>
      rw [sendqUnlink]
      split
      · cases p with
        | none => rfl
        | some m =>
          dsimp only [sendqStore]
          exact ConnHeap.conn_set_field Connection.insend h m d rfl
      · exact ih _ _

/-- Only what is removed loses its flag. -/
theorem sendqDel_insend (q : Sendq) (h : ConnHeap) (c d : Ptr) :
    ((sendqDel q h c).2.conn d).insend = (decide (d ≠ c) && (h.conn d).insend) := by
  unfold sendqDel
  rcases eq_or_ne d c with rfl | hdc
  · simp
  · rw [ConnHeap.conn_set_of_ne _ hdc, decide_eq_true hdc, Bool.true_and]
    split
    · exact sendqUnlink_insend c q h d _ _ _
    · rfl

theorem SendqShape.length_le {q : Sendq} {h : ConnHeap} {l : List Ptr} (hq : SendqShape q h l) :
    l.length ≤ h.brk := by
  have hsub : l ⊆ List.range h.brk := fun c hc => List.mem_range.mpr (hq.alloc c hc)
  have hle := (List.subperm_of_subset hq.linked.nodup hsub).length_le
  rwa [List.length_range] at hle

/-- `sendq_del` takes a connection out of the list. -/
theorem SendqShape.del_links {q : Sendq} {h : ConnHeap} {l₁ l₂ : List Ptr} {c : Ptr}
    (hq : SendqShape q h (l₁ ++ c :: l₂)) :
    Linked (sendqDel q h c).2.next (sendqDel q h c).1.head (l₁ ++ l₂) := by
  have hnd := hq.linked.nodup
  rw [List.nodup_append, List.nodup_cons] at hnd
  have hc₁ : c ∉ l₁ := fun hc => hnd.2.2 c hc c List.mem_cons_self rfl
  have hc : c ∉ l₁ ++ l₂ := by simp [hc₁, hnd.2.1.1]
  have hk : l₁.length < h.brk := by
    have hle := hq.length_le
    simp only [List.length_append, List.length_cons] at hle
    omega
  have hin : (h.conn c).insend = true := hq.insend c (by simp)
  simp only [sendqDel, hin, if_true, sendqUnlink_eq hc₁ hk hq.linked, Option.or_none]
  rw [ConnHeap.next_set]
  refine Linked.update ?_ hc _
  cases hl : l₁.getLast? with
  | none =>
    obtain rfl := List.getLast?_eq_none_iff.mp hl
    exact hq.linked.2
  | some m =>
    obtain ⟨l₀, rfl⟩ := List.getLast?_eq_some_iff.mp hl
    have hlink : Linked h.next q.head (l₀ ++ m :: c :: l₂) := by simpa using hq.linked
    simp only [sendqStore, ConnHeap.next_set]
    simpa using hlink.unlink

/-- The loop with the connection not ahead of it. -/
theorem sendqUnlink_of_not_mem {c : Ptr} {q : Sendq} {h : ConnHeap} :
    ∀ {l : List Ptr} {k : ℕ} {p n : Option Ptr}, c ∉ l → Linked h.next n l →
      sendqUnlink c k p n q h = (q, h) := by
  intro l
  induction l with
  | nil =>
    intro k p n _ hn
    obtain rfl : n = none := hn
    cases k <;> rfl
  | cons a l ih =>
    intro k p n hc hn
    rw [linked_cons] at hn
    rw [List.mem_cons, not_or] at hc
    rw [hn.1]
    cases k with
    | zero => rfl
    | succ k =>
      rw [sendqUnlink, if_neg (Ne.symm hc.1)]
      exact ih hc.2 hn.2

/-- What the head does not lead to is not found. -/
theorem SendqShape.del_not_mem {q : Sendq} {h : ConnHeap} {l : List Ptr} {c : Ptr}
    (hq : SendqShape q h l) (hc : c ∉ l) :
    sendqDel q h c = (q, h.set c fun x => x.setInsend false) := by
  unfold sendqDel
  rw [sendqUnlink_of_not_mem hc hq.linked, ite_self]

/-- Removal, which leaves the tail where it is. -/
theorem SendqShape.del {q : Sendq} {h : ConnHeap} {l : List Ptr} (hq : SendqShape q h l) (c : Ptr) :
    SendqShape (sendqDel q h c).1 (sendqDel q h c).2 (Fifo.del l c) ∧
      (q.tail = l.getLast? → q.tail ≠ some c → q.tail = (Fifo.del l c).getLast?) := by
  unfold Fifo.del
  have hsub : ∀ d, d ∈ l.erase c → d ∈ l := fun d => List.mem_of_mem_erase
  have hflag : ∀ d ∈ l.erase c, ((sendqDel q h c).2.conn d).insend = true := by
    intro d hd
    rw [sendqDel_insend, Bool.and_eq_true, decide_eq_true_eq]
    have hne : d ≠ c := ((List.Nodup.mem_erase_iff hq.linked.nodup).mp hd).1
    exact ⟨hne, hq.insend d (hsub d hd)⟩
  have halloc : ∀ d ∈ l.erase c, d < (sendqDel q h c).2.brk := by
    intro d hd
    rw [sendqDel_brk]
    exact hq.alloc d (hsub d hd)
  by_cases hin : c ∈ l
  · obtain ⟨l₁, l₂, rfl⟩ := List.append_of_mem hin
    have hnd := hq.linked.nodup
    rw [List.nodup_append, List.nodup_cons] at hnd
    have hc₁ : c ∉ l₁ := fun hc => hnd.2.2 c hc c List.mem_cons_self rfl
    have herase : (l₁ ++ c :: l₂).erase c = l₁ ++ l₂ := by
      rw [List.erase_append_right _ hc₁, List.erase_cons_head]
    -- the last is still the last if it was not the one
    have hlast : q.tail = (l₁ ++ c :: l₂).getLast? → q.tail ≠ some c →
        q.tail = ((l₁ ++ c :: l₂).erase c).getLast? := by
      intro ht hc
      have hl₂ : l₂ ≠ [] := by
        rintro rfl
        exact hc (by rw [ht, List.getLast?_concat])
      rw [herase, ht, List.getLast?_append_of_ne_nil _ (List.cons_ne_nil c l₂),
        List.getLast?_append_of_ne_nil _ hl₂, List.getLast?_cons_of_ne_nil hl₂]
    refine ⟨⟨herase ▸ hq.del_links, ?_, hflag, halloc⟩, hlast⟩
    rw [sendqDel_tail]
    rcases hq.tail with ht | ⟨t, htl, ht⟩
    · by_cases hc : q.tail = some c
      · exact .inr ⟨c, List.Nodup.not_mem_erase hq.linked.nodup, hc⟩
      · exact .inl (hlast ht hc)
    · exact .inr ⟨t, fun hmem => htl (hsub t hmem), ht⟩
  · rw [List.erase_of_not_mem hin] at hflag halloc ⊢
    refine ⟨⟨?_, sendqDel_tail q h c ▸ hq.tail, hflag, halloc⟩, fun ht _ => ht⟩
    rw [hq.del_not_mem hin, ConnHeap.next_set]
    exact hq.linked.update hin _

/-- Removal, unless it is of the last connection. -/
theorem SendqRep.del {q : Sendq} {h : ConnHeap} {l : List Ptr} (hq : SendqRep q h l) {c : Ptr}
    (hc : q.tail ≠ some c) :
    SendqRep (sendqDel q h c).1 (sendqDel q h c).2 (Fifo.del l c) := by
  obtain ⟨hshape, hlast⟩ := hq.shape.del c
  refine hshape.rep ((sendqDel_tail q h c).trans (hlast hq.tail hc)) fun d hd => ?_
  rw [sendqDel_insend, Bool.and_eq_true, decide_eq_true_eq, hq.insend] at hd
  exact (List.Nodup.mem_erase_iff hq.nodup).mpr hd

/-- Removing the last connection leaves the tail on it. -/
theorem SendqRep.del_tail {q : Sendq} {h : ConnHeap} {l : List Ptr} (hq : SendqRep q h l) {c : Ptr}
    (hc : q.tail = some c) :
    ¬ SendqRep (sendqDel q h c).1 (sendqDel q h c).2 (Fifo.del l c) := by
  intro hdel
  have htail := hdel.tail
  rw [sendqDel_tail, hc] at htail
  exact (List.Nodup.not_mem_erase hq.nodup) (List.mem_of_getLast? htail.symm)

/-! ### Runs -/

/-- The calls on a send queue. -/
inductive SendqOp
  | nq (c : Ptr)
  | dq
  | del (c : Ptr)
  deriving DecidableEq, Repr

/-- A queue with its connections, beside the list it should hold. -/
structure SendqState where
  q : Sendq
  h : ConnHeap
  fifo : List Ptr

/-- One call on the queue, and what it is to the list. -/
def SendqOp.run (op : SendqOp) (s : SendqState) : SendqState :=
  match op with
  | .nq c => ⟨(sendqNq s.q s.h c).1, (sendqNq s.q s.h c).2, Fifo.nq s.fifo c⟩
  | .dq => ⟨(sendqDq s.q s.h).2.1, (sendqDq s.q s.h).2.2, s.fifo.tail⟩
  | .del c => ⟨(sendqDel s.q s.h c).1, (sendqDel s.q s.h c).2, Fifo.del s.fifo c⟩

/-- A call may be made on any connection there is. -/
def SendqStep (s : SendqState) (op : SendqOp) (t : SendqState) : Prop :=
  t = op.run s ∧ ∀ c, op = .nq c ∨ op = .del c → c < s.h.brk

/-- An empty queue over connections that are in none. -/
def SendqState.empty (h : ConnHeap) : SendqState := ⟨sendqInit, h, []⟩

/-- The queue holds the list it should. -/
def SendqGood (s : SendqState) : Prop := SendqRep s.q s.h s.fifo

/-- A dequeue returns the earliest connection still there. -/
def SendqOk (s : SendqState) (op : SendqOp) (_ : SendqState) : Prop :=
  op = .dq → (sendqDq s.q s.h).1 = s.fifo.head?

/-- The connection removed, if any, is not the one at the tail. -/
def SendqGuard (s : SendqState) (op : SendqOp) : Prop :=
  ∀ c, op = .del c → s.q.tail ≠ some c

theorem SendqGood.step {s t : SendqState} {op : SendqOp} (hs : SendqGood s)
    (hg : SendqGuard s op) (hst : SendqStep s op t) : SendqOk s op t ∧ SendqGood t := by
  obtain ⟨rfl, hc⟩ := hst
  cases op with
  | nq c => exact ⟨fun h => (by cases h), hs.nq (hc c (Or.inl rfl))⟩
  | dq => exact ⟨fun _ => hs.dq.1, hs.dq.2⟩
  | del c => exact ⟨fun h => (by cases h), hs.del (hg c rfl)⟩

/-- **What every send queue is.**  Whatever was enqueued, dequeued and removed, the head leads
through flagged connections to an end, and the tail is the last of them or one that the head does
not lead to. -/
theorem sendq_shape {h : ConnHeap} (hh : ∀ c, (h.conn c).insend = false)
    {r : List (SendqOp × SendqState)} (hr : IsRun SendqStep (SendqState.empty h) r) :
    Holds (fun s => ∃ l, SendqShape s.q s.h l) (fun _ _ _ => True) (SendqState.empty h) r := by
  refine holds_of_meets ?_ ⟨[], (sendqRep_init hh).shape⟩ hr
    (meets_of_forall (fun _ _ => trivial) r _ : Meets (fun _ _ => True) _ r)
  rintro s op t ⟨l, hl⟩ - ⟨rfl, hc⟩
  cases op with
  | nq c => exact ⟨trivial, _, hl.nq (hc c (Or.inl rfl))⟩
  | dq => exact ⟨trivial, _, hl.dq.2.1⟩
  | del c => exact ⟨trivial, _, (hl.del c).1⟩

theorem SendqGood.break {s t : SendqState} {op : SendqOp} (hs : SendqGood s)
    (hg : ¬ SendqGuard s op) (hst : SendqStep s op t) : ¬ (SendqOk s op t ∧ SendqGood t) := by
  obtain ⟨rfl, -⟩ := hst
  unfold SendqGuard at hg
  push Not at hg
  obtain ⟨c, rfl, hc⟩ := hg
  exact fun h => hs.del_tail hc h.2

/-- **When the send queue is a queue.**  From an empty queue, a run behaves as a
first-in-first-out queue of distinct connections in every state it reaches
exactly when it never removes the connection at the tail. -/
theorem sendq_fifo_iff {h : ConnHeap} (hh : ∀ c, (h.conn c).insend = false)
    {r : List (SendqOp × SendqState)} (hr : IsRun SendqStep (SendqState.empty h) r) :
    Holds SendqGood SendqOk (SendqState.empty h) r ↔ Meets SendqGuard (SendqState.empty h) r :=
  holds_iff_meets (fun _ hs => hs) (fun _ _ _ hs hg hst => hs.step hg hst)
    (fun _ _ _ hs hg hst => hs.break hg hst) (sendqRep_init hh) hr

/-- Three connections, none of them in a queue. -/
def sendqHeap : ConnHeap := ⟨fun _ => default, fun _ => true, 3⟩

/-- Removing the first of two and dequeueing the other is such a run. -/
theorem sendq_fifo_iff_del_first :
    Holds SendqGood SendqOk (SendqState.empty sendqHeap)
      (trace SendqOp.run (SendqState.empty sendqHeap) [.nq 0, .nq 1, .del 0, .dq]) :=
  (sendq_fifo_iff (fun _ => rfl) (by simp [trace, SendqStep]; decide)).mpr (by
    simp [trace, SendqGuard]; decide)

/-- Removing the only connection leaves the queue with a tail and no head. -/
theorem sendq_del_last_not_fifo :
    ¬ ∀ (h : ConnHeap) (r : List (SendqOp × SendqState)), (∀ c, (h.conn c).insend = false) →
      IsRun SendqStep (SendqState.empty h) r → Holds SendqGood SendqOk (SendqState.empty h) r := by
  intro hall
  have h := hall sendqHeap (trace SendqOp.run (SendqState.empty sendqHeap) [.nq 0, .del 0])
    (fun _ => rfl) (by simp [trace, SendqStep]; decide)
  have hgood : SendqGood _ := h.2.2.2.2
  exact absurd hgood.tail (by decide)

end Libtrp
