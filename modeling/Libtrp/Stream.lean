import Mathlib.Data.List.Perm.Subperm
import Mathlib.Order.Basic
import Libtrp.Core
import Libtrp.Lib.Linked
import Libtrp.Lib.Run

/-!
# Messages of a stream

A message that is sent is put on two lists: the connection's queue of its
priority, from which it is cleared when it has gone out, and its stream's list
of outstanding messages, from which it is removed when it is done.  Both lists
use the one link a message has.

What they are for is one list each, of the messages sent and not cleared and of
the messages sent and not done.  The two agree as long as they run through the
same nodes.  `trips_messages_iff` says that this is so exactly when no message
is sent behind one of another stream, and no message is cleared while another
is behind it.

## Main definitions

* `tripsSend`, `tripcSendClear`, `tripsDoneMessage` — the operations, over
  `tripcSendAdd`, `tripsMsgAdd` and `tripsMsgRemove`.
* `MsgInv` — the invariant: each list holds what it should, and what a stream
  has in a queue is the whole queue.

## Main results

* `trips_messages_iff` — **when each list holds its messages.**

## References

`src/stream.c`, `src/message.h`, `src/messageq.h`, and the message queue of
`src/conn.c`.
-/

namespace Libtrp

open Lib

/-! ### The operations -/

/-- `TRIPS_OPT_PRIORITY` -/
def TRIPS_OPT_PRIORITY : ℕ := 1 <<< 0
/-- `_TRIPS_OPT_BACKFLOW` -/
def TRIPS_OPT_BACKFLOW : ℕ := 1 <<< 4
/-- `_TRIPS_OPT_CLOSED` -/
def TRIPS_OPT_CLOSED : ℕ := 1 <<< 5
/-- `_TRIPS_OPT_STALLED` -/
def TRIPS_OPT_STALLED : ℕ := 1 <<< 6

/-- `_trips_priority` -/
def tripsPriority (s : Stream) : Fin 2 := Fin.ofNat 2 (s.flags &&& TRIPS_OPT_PRIORITY)

namespace Messageq

/-- `sendbeg[p] = m` -/
def setBeg (q : Messageq) (p : Fin 2) (m : Option Ptr) : Messageq :=
  { q with sendbeg := Function.update q.sendbeg p m }

/-- `sendend[p] = m` -/
def setEnd (q : Messageq) (p : Fin 2) (m : Option Ptr) : Messageq :=
  { q with sendend := Function.update q.sendend p m }

end Messageq

/-- `m->next = n` -/
def StreamHeap.setNext (h : StreamHeap) (m : Ptr) (n : Option Ptr) : StreamHeap :=
  h.setMsg m fun x => { x with next := n }

/-- `_tripc_send_add` -/
def tripcSendAdd (q : Messageq) (h : StreamHeap) (m : Ptr) : Messageq × StreamHeap :=
  let p := (h.msg m).priority
  match q.sendend p with
  | some e => (q.setEnd p (some m), (h.setNext e (some m)).setNext m none)
  | none => ((q.setBeg p (some m)).setEnd p (some m), h.setNext m none)

/-- `_tripc_send_clear` -/
def tripcSendClear (q : Messageq) (h : StreamHeap) (m : Ptr) : Messageq × StreamHeap :=
  let p := (h.msg m).priority
  if some m = q.sendbeg p then
    (if q.sendbeg p = q.sendend p then (q.setBeg p none).setEnd p none
      else q.setBeg p (h.next m), h.setNext m none)
  else (q, h)

/-- `_trips_msg_add` -/
def tripsMsgAdd (h : StreamHeap) (s m : Ptr) : StreamHeap :=
  match (h.stream s).listend with
  | some e =>
    ((h.setNext e (some m)).setStream s fun x => { x with listend := some m }).setNext m none
  | none => (h.setStream s fun x => { x with listbeg := some m, listend := some m }).setNext m none

/-- The body of the loop of `_trips_msg_remove` at the message, `p` being the
one before it. -/
def tripsMsgDrop (s m : Ptr) (p : Option Ptr) (h : StreamHeap) : StreamHeap :=
  let h := match p with
    | some a =>
      let h := h.setNext a (h.next m)
      if some m = (h.stream s).listend then h.setStream s fun x => { x with listend := some a }
      else h
    | none =>
      if some m = (h.stream s).listend then
        h.setStream s fun x => { x with listbeg := none, listend := none }
      else h.setStream s fun x => { x with listbeg := h.next m }
  h.setNext m none

/-- The loop of `_trips_msg_remove`. -/
def tripsMsgUnlink (s mess : Ptr) : ℕ → Option Ptr → Option Ptr → StreamHeap → StreamHeap
  | 0, _, _, h => h
  | _ + 1, _, none, h => h
  | k + 1, p, some m, h =>
    if m = mess then tripsMsgDrop s m p h
    else tripsMsgUnlink s mess k (some m) (h.next m) h

/-- `_trips_msg_remove`.  A list of messages visits no more of them than there
are, so `h.brk` bounds the loop. -/
def tripsMsgRemove (h : StreamHeap) (s mess : Ptr) : StreamHeap :=
  tripsMsgUnlink s mess h.brk none (h.stream s).listbeg h

/-- `_trips_done_message`.  The message's memory is freed, and its pointer is
never used again. -/
def tripsDoneMessage (h : StreamHeap) (s m : Ptr) : StreamHeap := tripsMsgRemove h s m

/-- Why `trips_send` refuses a message, before it allocates one; zero if it does
not. -/
def tripsSendCode (messageSize : UInt32) (s : Stream) (len : ℕ) (buf : Option Bytes) : Errno :=
  if !s.connected then ENOTCONN
  else if buf.isNone || len == 0 || (len : ℤ) > INT_MAX || len > messageSize.toNat then EINVAL
  else if s.flags &&& TRIPS_OPT_CLOSED ≠ 0 then ESHUTDOWN
  else if s.flags &&& (TRIPS_OPT_BACKFLOW ||| TRIPS_OPT_STALLED) ≠ 0 then EWOULDBLOCK
  else 0

/-- The message `trips_send` allocates and fills in. -/
def tripsNewMsg (h : StreamHeap) (s : Ptr) (len : ℕ) (buf : Option Bytes) : StreamHeap :=
  { h with brk := h.brk + 1 }.setMsg h.brk fun _ =>
    ⟨s, len, buf.getD [], tripsPriority (h.stream s), none⟩

/-- `trips_send` -/
def tripsSend (messageSize : UInt32) (q : Messageq) (h : StreamHeap) (s : Ptr) (len : ℕ)
    (buf : Option Bytes) (alloc : Bool) : Errno × Messageq × StreamHeap :=
  let code := tripsSendCode messageSize (h.stream s) len buf
  if code ≠ 0 then (code, q, h)
  else if !alloc then (ENOMEM, q, h)
  else
    let m := h.brk
    let (q, h) := tripcSendAdd q (tripsNewMsg h s len buf) m
    (0, q, tripsMsgAdd h s m)

/-! ### What each operation writes -/

namespace StreamHeap

/-- `h'` is `h` with other links between its messages, and other lists of its
streams. -/
def Relinks (h h' : StreamHeap) : Prop :=
  h'.brk = h.brk ∧ ∀ n, h'.msg n = { h.msg n with next := h'.next n }

theorem Relinks.refl (h : StreamHeap) : Relinks h h := ⟨rfl, fun _ => rfl⟩

theorem Relinks.trans {h h' h'' : StreamHeap} (h₁ : Relinks h h') (h₂ : Relinks h' h'') :
    Relinks h h'' := by
  refine ⟨h₂.1.trans h₁.1, fun n => ?_⟩
  rw [h₂.2, h₁.2]

theorem Relinks.stream {h h' : StreamHeap} (hr : Relinks h h') (n : Ptr) :
    (h'.msg n).stream = (h.msg n).stream := by rw [hr.2]

theorem Relinks.priority {h h' : StreamHeap} (hr : Relinks h h') (n : Ptr) :
    (h'.msg n).priority = (h.msg n).priority := by rw [hr.2]

theorem relinks_setNext (h : StreamHeap) (m : Ptr) (n : Option Ptr) :
    Relinks h (h.setNext m n) := by
  refine ⟨rfl, fun k => ?_⟩
  rcases eq_or_ne k m with rfl | hkm
  · simp [setNext, next]
  · simp [setNext, next, msg_setMsg_of_ne h hkm]

theorem relinks_setStream (h : StreamHeap) (s : Ptr) (f : Stream → Stream) :
    Relinks h (h.setStream s f) := ⟨rfl, fun _ => rfl⟩

theorem next_setNext (h : StreamHeap) (m : Ptr) (n : Option Ptr) :
    (h.setNext m n).next = Function.update h.next m n := next_setMsg h m _

@[simp] theorem stream_setNext (h : StreamHeap) (m : Ptr) (n : Option Ptr) :
    (h.setNext m n).stream = h.stream := rfl

end StreamHeap

open StreamHeap

theorem relinks_tripcSendAdd (q : Messageq) (h : StreamHeap) (m : Ptr) :
    Relinks h (tripcSendAdd q h m).2 := by
  simp only [tripcSendAdd]
  split
  · exact (relinks_setNext h _ _).trans (relinks_setNext _ _ _)
  · exact relinks_setNext h _ _

theorem relinks_tripsMsgAdd (h : StreamHeap) (s m : Ptr) : Relinks h (tripsMsgAdd h s m) := by
  simp only [tripsMsgAdd]
  split
  · exact ((relinks_setNext h _ _).trans (relinks_setStream _ _ _)).trans (relinks_setNext _ _ _)
  · exact (relinks_setStream h _ _).trans (relinks_setNext _ _ _)

theorem relinks_tripsMsgDrop (s m : Ptr) (p : Option Ptr) (h : StreamHeap) :
    Relinks h (tripsMsgDrop s m p h) := by
  refine Relinks.trans ?_ (relinks_setNext _ _ _)
  cases p with
  | some a =>
    simp only
    split
    · exact (relinks_setNext h _ _).trans (relinks_setStream _ _ _)
    · exact relinks_setNext h _ _
  | none =>
    simp only
    split
    · exact relinks_setStream h _ _
    · exact relinks_setStream h _ _

/-- A message put behind the end of a queue. -/
theorem next_tripcSendAdd (q : Messageq) (h : StreamHeap) (m n : Ptr) :
    (tripcSendAdd q h m).2.next n = if n = m then none
      else if q.sendend (h.msg m).priority = some n then some m else h.next n := by
  simp only [tripcSendAdd]
  cases q.sendend (h.msg m).priority with
  | none =>
    rw [next_setNext]
    simp [Function.update_apply]
  | some e =>
    simp only [next_setNext, Function.update_apply, Option.some.injEq, eq_comm]

/-- A message put behind the end of its stream's list. -/
theorem next_tripsMsgAdd (h : StreamHeap) (s m n : Ptr) :
    (tripsMsgAdd h s m).next n = if n = m then none
      else if (h.stream s).listend = some n then some m else h.next n := by
  simp only [tripsMsgAdd]
  cases (h.stream s).listend with
  | none => simp [next_setNext, Function.update_apply]
  | some e =>
    simp only [next_setNext, next_setStream, Function.update_apply, Option.some.injEq, eq_comm]

/-- The queue of the message's priority gets a new end, and a beginning if it
had none. -/
theorem queue_tripcSendAdd {q : Messageq} {h : StreamHeap} {m : Ptr}
    (hq : q.sendend (h.msg m).priority = none ↔ q.sendbeg (h.msg m).priority = none) :
    (tripcSendAdd q h m).1.sendbeg = Function.update q.sendbeg (h.msg m).priority
        ((q.sendbeg (h.msg m).priority).or (some m)) ∧
      (tripcSendAdd q h m).1.sendend = Function.update q.sendend (h.msg m).priority (some m) := by
  simp only [tripcSendAdd]
  cases he : q.sendend (h.msg m).priority with
  | none =>
    rw [hq.mp he]
    exact ⟨rfl, rfl⟩
  | some e =>
    cases hb : q.sendbeg (h.msg m).priority with
    | none =>
      rw [hq.mpr hb] at he
      cases he
    | some b =>
      refine ⟨?_, rfl⟩
      rw [Option.some_or, ← hb, Function.update_eq_self]
      rfl

theorem stream_tripcSendAdd (q : Messageq) (h : StreamHeap) (m : Ptr) :
    (tripcSendAdd q h m).2.stream = h.stream := by
  simp only [tripcSendAdd]
  split <;> rfl

/-- The stream's list gets a new end, and a beginning if it had none. -/
theorem stream_tripsMsgAdd {h : StreamHeap} {s m : Ptr}
    (hs : (h.stream s).listend = none ↔ (h.stream s).listbeg = none) :
    (tripsMsgAdd h s m).stream = Function.update h.stream s { h.stream s with
      listbeg := (h.stream s).listbeg.or (some m), listend := some m } := by
  simp only [tripsMsgAdd]
  cases he : (h.stream s).listend with
  | none =>
    rw [hs.mp he]
    rfl
  | some e =>
    cases hb : (h.stream s).listbeg with
    | none =>
      rw [hs.mpr hb] at he
      cases he
    | some b =>
      rw [Option.some_or, ← hb]
      rfl

/-! ### The lists they stand for -/

/-- A connection's queues and its streams, beside the messages each queue and
each stream's list should hold. -/
structure MsgState where
  messageSize : UInt32
  q : Messageq
  h : StreamHeap
  queue : Fin 2 → List Ptr
  own : Ptr → List Ptr

/-- Each list is reached from its beginning and ends at its end. -/
structure MsgGood (s : MsgState) : Prop where
  queue : ∀ p, Linked s.h.next (s.q.sendbeg p) (s.queue p)
  queueEnd : ∀ p, s.q.sendend p = (s.queue p).getLast?
  own : ∀ t, Linked s.h.next (s.h.stream t).listbeg (s.own t)
  ownEnd : ∀ t, (s.h.stream t).listend = (s.own t).getLast?

/-- The invariant.  A queue that holds a message of a stream is the last part
of the stream's list. -/
structure MsgInv (s : MsgState) : Prop extends MsgGood s where
  owner : ∀ t, ∀ m ∈ s.own t, (s.h.msg m).stream = t ∧
    (s.h.msg m).priority = tripsPriority (s.h.stream t) ∧ m < s.h.brk
  suffix : ∀ p, ∀ m ∈ s.queue p, (s.h.msg m).priority = p ∧
    s.queue p <:+ s.own (s.h.msg m).stream

namespace MsgInv

variable {s : MsgState}

/-- A message in a queue is outstanding. -/
theorem mem_own (hs : MsgInv s) {p : Fin 2} {m : Ptr} (hm : m ∈ s.queue p) :
    m ∈ s.own (s.h.msg m).stream :=
  (hs.suffix p m hm).2.mem hm

theorem lt_brk (hs : MsgInv s) {p : Fin 2} {m : Ptr} (hm : m ∈ s.queue p) : m < s.h.brk :=
  (hs.owner _ m (hs.mem_own hm)).2.2

theorem queue_ends (hs : MsgInv s) (p : Fin 2) :
    s.q.sendend p = none ↔ s.q.sendbeg p = none := by
  rw [hs.queueEnd, (hs.queue p).head_eq, List.getLast?_eq_none_iff, List.head?_eq_none_iff]

theorem own_ends (hs : MsgInv s) (t : Ptr) :
    (s.h.stream t).listend = none ↔ (s.h.stream t).listbeg = none := by
  rw [hs.ownEnd, (hs.own t).head_eq, List.getLast?_eq_none_iff, List.head?_eq_none_iff]

/-- The last message of a queue is the last of its stream. -/
theorem getLast?_own (hs : MsgInv s) {p : Fin 2} {e : Ptr} (he : s.q.sendend p = some e) :
    (s.own (s.h.msg e).stream).getLast? = some e := by
  rw [hs.queueEnd] at he
  obtain ⟨l, hl⟩ := (hs.suffix p e (List.mem_of_getLast? he)).2
  have hne : s.queue p ≠ [] := List.ne_nil_of_mem (List.mem_of_getLast? he)
  rw [← hl, List.getLast?_append_of_ne_nil _ hne, he]

end MsgInv

/-! ### Sending -/

/-- What a message sent on stream `t`, at the priority `p`, leaves behind. -/
structure TripsSent (s : MsgState) (t : Ptr) (p : Fin 2) (q : Messageq) (h : StreamHeap) :
    Prop where
  prio : p = tripsPriority (s.h.stream t)
  sendbeg : q.sendbeg = Function.update s.q.sendbeg p ((s.q.sendbeg p).or (some s.h.brk))
  sendend : q.sendend = Function.update s.q.sendend p (some s.h.brk)
  stream : h.stream = Function.update s.h.stream t { s.h.stream t with
    listbeg := (s.h.stream t).listbeg.or (some s.h.brk), listend := some s.h.brk }
  next : ∀ n, h.next n = if n = s.h.brk then none
    else if (s.h.stream t).listend = some n ∨ s.q.sendend p = some n then some s.h.brk
    else s.h.next n
  brk : h.brk = s.h.brk + 1
  msg : ∀ n, n ≠ s.h.brk → (h.msg n).stream = (s.h.msg n).stream ∧
    (h.msg n).priority = (s.h.msg n).priority
  self : (h.msg s.h.brk).stream = t ∧ (h.msg s.h.brk).priority = p

theorem tripsSend_spec {s : MsgState} (hs : MsgInv s) {t : Ptr} {len : ℕ} {buf : Option Bytes}
    {alloc : Bool} (hok : (tripsSend s.messageSize s.q s.h t len buf alloc).1 = 0) {p : Fin 2}
    (hp : p = tripsPriority (s.h.stream t)) {q : Messageq} {h : StreamHeap}
    (hqh : (tripsSend s.messageSize s.q s.h t len buf alloc).2 = (q, h)) :
    TripsSent s t p q h := by
  simp only [tripsSend] at hok hqh
  split at hok
  · next hcode => exact absurd hok hcode
  split at hok
  · cases hok
  rename_i hcode halloc
  rw [if_neg hcode, if_neg halloc] at hqh
  -- the heap after the allocation, then after each of the two lists
  generalize hh₀ : tripsNewMsg s.h t len buf = h₀ at hqh
  have hstream₀ : h₀.stream = s.h.stream := by rw [← hh₀]; rfl
  have hself : (h₀.msg s.h.brk).stream = t ∧ (h₀.msg s.h.brk).priority = p := by
    rw [← hh₀]
    simp [tripsNewMsg, hp]
  have hother : ∀ n, n ≠ s.h.brk → h₀.msg n = s.h.msg n := by
    intro n hn
    rw [← hh₀]
    exact msg_setMsg_of_ne _ hn _
  obtain ⟨rfl, rfl⟩ := Prod.mk.inj hqh
  have hr := (relinks_tripcSendAdd s.q h₀ s.h.brk).trans
    (relinks_tripsMsgAdd (tripcSendAdd s.q h₀ s.h.brk).2 t s.h.brk)
  have hq := queue_tripcSendAdd (q := s.q) (h := h₀) (m := s.h.brk)
    (by rw [hself.2]; exact hs.queue_ends p)
  rw [hself.2] at hq
  refine ⟨hp, hq.1, hq.2, ?_, ?_, ?_, ?_, ?_⟩
  · rw [stream_tripsMsgAdd, stream_tripcSendAdd, hstream₀]
    rw [stream_tripcSendAdd, hstream₀]
    exact hs.own_ends t
  · intro n
    rw [next_tripsMsgAdd, stream_tripcSendAdd, hstream₀, next_tripcSendAdd, hself.2]
    by_cases hn : n = s.h.brk
    · rw [if_pos hn, if_pos hn]
    rw [if_neg hn, if_neg hn, if_neg hn, show h₀.next n = s.h.next n by
      simp [StreamHeap.next, hother n hn]]
    by_cases hle : (s.h.stream t).listend = some n
    · rw [if_pos hle, if_pos (Or.inl hle)]
    · rw [if_neg hle]
      simp [hle]
  · rw [hr.1, ← hh₀]
    rfl
  · intro n hn
    rw [hr.stream, hr.priority, hother n hn]
    exact ⟨rfl, rfl⟩
  · rw [hr.stream, hr.priority]
    exact hself

namespace TripsSent

variable {s : MsgState} {t : Ptr} {p : Fin 2} {q : Messageq} {h : StreamHeap}

/-- Only the last message of the queue and that of the stream get a new link. -/
theorem keep (hsent : TripsSent s t p q h) {n : Ptr} (hn : n < s.h.brk)
    (hle : (s.h.stream t).listend ≠ some n) (hse : s.q.sendend p ≠ some n) :
    h.next n = s.h.next n := by
  rw [hsent.next, if_neg hn.ne, if_neg (not_or.mpr ⟨hle, hse⟩)]

theorem mem_of_listend (hs : MsgInv s) {n : Ptr} (hn : (s.h.stream t).listend = some n) :
    n ∈ s.own t := List.mem_of_getLast? (hs.ownEnd t ▸ hn)

theorem mem_of_sendend (hs : MsgInv s) {n : Ptr} (hn : s.q.sendend p = some n) :
    n ∈ s.queue p := List.mem_of_getLast? (hs.queueEnd p ▸ hn)

/-- The messages of the stream are those of its priority. -/
theorem own_prio (hs : MsgInv s) (hsent : TripsSent s t p q h) {n : Ptr} (hn : n ∈ s.own t) :
    (s.h.msg n).priority = p := by
  rw [hsent.prio]
  exact (hs.owner t n hn).2.1

/-- A queue that ends in a message of the stream is the end of its list. -/
theorem queue_suffix (hs : MsgInv s)
    (hguard : ∀ e, s.q.sendend p = some e → (s.h.msg e).stream = t) :
    s.queue p <:+ s.own t := by
  cases he : s.q.sendend p with
  | none =>
    rw [hs.queueEnd, List.getLast?_eq_none_iff] at he
    rw [he]
    exact List.nil_suffix
  | some e =>
    have hsuf := (hs.suffix p e (mem_of_sendend hs he)).2
    rwa [hguard e he] at hsuf

/-- Then the two end in the same message. -/
theorem getLast?_eq (hs : MsgInv s)
    (hguard : ∀ e, s.q.sendend p = some e → (s.h.msg e).stream = t) {n : Ptr}
    (hn : n ∈ s.queue p) : (s.own t).getLast? = s.q.sendend p := by
  obtain ⟨l, hl⟩ := queue_suffix hs hguard
  rw [← hl, List.getLast?_append_of_ne_nil _ (List.ne_nil_of_mem hn), hs.queueEnd]

theorem queue (hs : MsgInv s) (hsent : TripsSent s t p q h)
    (hguard : ∀ e, s.q.sendend p = some e → (s.h.msg e).stream = t) (p' : Fin 2) :
    Linked h.next (q.sendbeg p') (Function.update s.queue p (s.queue p ++ [s.h.brk]) p') := by
  rcases eq_or_ne p' p with rfl | hpp
  · rw [Function.update_self, hsent.sendbeg, Function.update_self]
    refine (hs.queue p').concat ?_ ?_ ?_ ?_
    · exact fun hn => (hs.lt_brk hn).ne rfl
    · rw [hsent.next, if_pos rfl]
    · intro n hn
      rw [← hs.queueEnd] at hn
      rw [hsent.next, if_neg (hs.lt_brk (mem_of_sendend hs hn)).ne, if_pos (Or.inr hn)]
    · intro n hn hne
      rw [← hs.queueEnd] at hne
      refine hsent.keep (hs.lt_brk hn) ?_ hne
      rwa [hs.ownEnd, getLast?_eq hs hguard hn]
  · rw [Function.update_of_ne hpp, hsent.sendbeg, Function.update_of_ne hpp]
    refine (hs.queue p').congr fun n hn => hsent.keep (hs.lt_brk hn) ?_ ?_
    · intro hle
      exact hpp ((hs.suffix p' n hn).1.symm.trans (own_prio hs hsent (mem_of_listend hs hle)))
    · intro hse
      exact hpp ((hs.suffix p' n hn).1.symm.trans (hs.suffix p n (mem_of_sendend hs hse)).1)

theorem own (hs : MsgInv s) (hsent : TripsSent s t p q h)
    (hguard : ∀ e, s.q.sendend p = some e → (s.h.msg e).stream = t) (t' : Ptr) :
    Linked h.next (h.stream t').listbeg (Function.update s.own t (s.own t ++ [s.h.brk]) t') := by
  rcases eq_or_ne t' t with rfl | htt
  · rw [Function.update_self, hsent.stream, Function.update_self]
    refine (hs.own t').concat ?_ ?_ ?_ ?_
    · exact fun hn => (hs.owner t' _ hn).2.2.ne rfl
    · rw [hsent.next, if_pos rfl]
    · intro n hn
      rw [← hs.ownEnd] at hn
      have hlt := (hs.owner t' n (mem_of_listend hs hn)).2.2
      rw [hsent.next, if_neg hlt.ne, if_pos (Or.inl hn)]
    · intro n hn hne
      rw [← hs.ownEnd] at hne
      refine hsent.keep (hs.owner t' n hn).2.2 hne fun hse => hne ?_
      rw [hs.ownEnd, getLast?_eq hs hguard (mem_of_sendend hs hse), hse]
  · rw [Function.update_of_ne htt, hsent.stream, Function.update_of_ne htt]
    refine (hs.own t').congr fun n hn => hsent.keep (hs.owner t' n hn).2.2 ?_ ?_
    · intro hle
      exact htt ((hs.owner t' n hn).1.symm.trans (hs.owner t n (mem_of_listend hs hle)).1)
    · intro hse
      exact htt ((hs.owner t' n hn).1.symm.trans (hguard n hse))

/-- No stream changes its options. -/
theorem tripsPriority_eq (hsent : TripsSent s t p q h) (t' : Ptr) :
    tripsPriority (h.stream t') = tripsPriority (s.h.stream t') := by
  rw [hsent.stream]
  rcases eq_or_ne t' t with rfl | htt
  · rw [Function.update_self]
    rfl
  · rw [Function.update_of_ne htt]

theorem owner (hs : MsgInv s) (hsent : TripsSent s t p q h) {t' n : Ptr}
    (hn : n ∈ Function.update s.own t (s.own t ++ [s.h.brk]) t') :
    (h.msg n).stream = t' ∧ (h.msg n).priority = tripsPriority (h.stream t') ∧ n < h.brk := by
  rw [hsent.tripsPriority_eq, hsent.brk]
  have hold : n ∈ s.own t' → (h.msg n).stream = t' ∧
      (h.msg n).priority = tripsPriority (s.h.stream t') ∧ n < s.h.brk + 1 := by
    intro hn
    obtain ⟨h₁, h₂, h₃⟩ := hs.owner t' n hn
    rw [(hsent.msg n h₃.ne).1, (hsent.msg n h₃.ne).2]
    exact ⟨h₁, h₂, Nat.lt_succ_of_lt h₃⟩
  rcases eq_or_ne t' t with rfl | htt
  · rw [Function.update_self, List.mem_append, List.mem_singleton] at hn
    rcases hn with hn | rfl
    · exact hold hn
    · exact ⟨hsent.self.1, hsent.self.2.trans hsent.prio, Nat.lt_succ_self _⟩
  · rw [Function.update_of_ne htt] at hn
    exact hold hn

theorem suffix (hs : MsgInv s) (hsent : TripsSent s t p q h)
    (hguard : ∀ e, s.q.sendend p = some e → (s.h.msg e).stream = t) {p' : Fin 2} {n : Ptr}
    (hn : n ∈ Function.update s.queue p (s.queue p ++ [s.h.brk]) p') :
    (h.msg n).priority = p' ∧ Function.update s.queue p (s.queue p ++ [s.h.brk]) p' <:+
      Function.update s.own t (s.own t ++ [s.h.brk]) (h.msg n).stream := by
  rcases eq_or_ne p' p with rfl | hpp
  · obtain ⟨l, hl⟩ := queue_suffix hs hguard
    rw [Function.update_self, List.mem_append, List.mem_singleton] at hn
    have hst : (h.msg n).stream = t ∧ (h.msg n).priority = p' := by
      rcases hn with hn | rfl
      · have hne := (hs.lt_brk hn).ne
        rw [(hsent.msg n hne).1, (hsent.msg n hne).2]
        exact ⟨(hs.owner t n (hl ▸ List.mem_append_right l hn)).1, (hs.suffix p' n hn).1⟩
      · exact hsent.self
    rw [hst.1, hst.2, Function.update_self, Function.update_self]
    exact ⟨rfl, l, by rw [← hl, List.append_assoc]⟩
  · rw [Function.update_of_ne hpp] at hn
    have hne := (hs.lt_brk hn).ne
    obtain ⟨h₁, h₂⟩ := hs.suffix p' n hn
    have hnt : (s.h.msg n).stream ≠ t := by
      intro hnt
      exact hpp (h₁.symm.trans (own_prio hs hsent (hnt ▸ hs.mem_own hn)))
    rw [(hsent.msg n hne).1, (hsent.msg n hne).2, Function.update_of_ne hpp,
      Function.update_of_ne hnt]
    exact ⟨h₁, h₂⟩

end TripsSent

/-- Sending on the stream whose message is last in the queue, or on any stream
while the queue is empty. -/
theorem MsgInv.send {s : MsgState} (hs : MsgInv s) {t : Ptr} {p : Fin 2} {q : Messageq}
    {h : StreamHeap} (hsent : TripsSent s t p q h)
    (hguard : ∀ e, s.q.sendend p = some e → (s.h.msg e).stream = t) :
    MsgInv ⟨s.messageSize, q, h, Function.update s.queue p (s.queue p ++ [s.h.brk]),
      Function.update s.own t (s.own t ++ [s.h.brk])⟩ where
  queue := hsent.queue hs hguard
  own := hsent.own hs hguard
  queueEnd := fun p' => by
    rcases eq_or_ne p' p with rfl | hpp
    · simp only [Function.update_self, hsent.sendend, List.getLast?_concat]
    · simp only [Function.update_of_ne hpp, hsent.sendend, hs.queueEnd]
  ownEnd := fun t' => by
    rcases eq_or_ne t' t with rfl | htt
    · simp only [Function.update_self, hsent.stream, List.getLast?_concat]
    · simp only [Function.update_of_ne htt, hsent.stream, hs.ownEnd]
  owner := fun _ _ hn => hsent.owner hs hn
  suffix := fun _ _ hn => hsent.suffix hs hguard hn

/-- Sending behind a message of another stream goes on in that stream's list. -/
theorem MsgInv.send_break {s : MsgState} (hs : MsgInv s) {t e : Ptr} {p : Fin 2} {q : Messageq}
    {h : StreamHeap} (hsent : TripsSent s t p q h) (he : s.q.sendend p = some e)
    (het : (s.h.msg e).stream ≠ t) :
    ¬ MsgGood ⟨s.messageSize, q, h, Function.update s.queue p (s.queue p ++ [s.h.brk]),
      Function.update s.own t (s.own t ++ [s.h.brk])⟩ := by
  intro hgood
  have hlink := hgood.own (s.h.msg e).stream
  simp only [Function.update_of_ne het] at hlink
  have hnone := hlink.next_last (hs.getLast?_own he)
  have hlt := hs.lt_brk (TripsSent.mem_of_sendend hs he)
  rw [hsent.next, if_neg hlt.ne, if_pos (Or.inr he)] at hnone
  cases hnone

/-! ### Clearing -/

/-- The message cleared is the only one in its queue, and its link ends both
lists already. -/
theorem MsgInv.clear {s : MsgState} (hs : MsgInv s) {m : Ptr} {p : Fin 2}
    (hp : p = (s.h.msg m).priority) (hm : (s.queue p).head? = some m)
    (hguard : s.q.sendbeg p = s.q.sendend p) :
    MsgInv ⟨s.messageSize, (tripcSendClear s.q s.h m).1, (tripcSendClear s.q s.h m).2,
      Function.update s.queue p (s.queue p).tail, s.own⟩ := by
  have hbeg : s.q.sendbeg p = some m := (hs.queue p).head_eq.trans hm
  have hlast : (s.queue p).getLast? = some m := by
    rw [← hs.queueEnd, ← hguard, hbeg]
  have hone : s.queue p = [m] := by
    obtain ⟨l, hl⟩ := List.head?_eq_some_iff.mp hm
    have hnd := (hs.queue p).nodup
    rw [hl] at hlast hnd ⊢
    rcases l.eq_nil_or_concat' with rfl | ⟨l, e, rfl⟩
    · rfl
    · rw [← List.cons_append, List.getLast?_concat, Option.some.injEq] at hlast
      simp [hlast] at hnd
  have hnone : s.h.next m = none := (hs.queue p).next_last hlast
  have hnext : (s.h.setNext m none).next = s.h.next := by
    rw [next_setNext, ← hnone, Function.update_eq_self]
  have hclear : tripcSendClear s.q s.h m =
      ((s.q.setBeg p none).setEnd p none, s.h.setNext m none) := by
    simp only [tripcSendClear, ← hp]
    rw [if_pos hbeg.symm, if_pos hguard]
  have hr := relinks_setNext s.h m none
  rw [hclear, hone, List.tail_cons]
  refine ⟨⟨?_, ?_, ?_, ?_⟩, ?_, ?_⟩
  · intro p'
    rw [hnext]
    rcases eq_or_ne p' p with rfl | hpp
    · simp [Messageq.setBeg, Messageq.setEnd]
    · simpa [Messageq.setBeg, Messageq.setEnd, hpp] using hs.queue p'
  · intro p'
    rcases eq_or_ne p' p with rfl | hpp
    · simp [Messageq.setBeg, Messageq.setEnd]
    · simpa [Messageq.setBeg, Messageq.setEnd, hpp] using hs.queueEnd p'
  · intro t
    rw [hnext]
    exact hs.own t
  · exact hs.ownEnd
  · intro t n hn
    rw [hr.stream, hr.priority, hr.1]
    exact hs.owner t n hn
  · intro p' n hn
    rcases eq_or_ne p' p with rfl | hpp
    · simp at hn
    · simp only [Function.update_of_ne hpp] at hn ⊢
      rw [hr.stream, hr.priority]
      exact hs.suffix p' n hn

/-- Clearing a message with another behind it cuts its stream's list. -/
theorem MsgInv.clear_break {s : MsgState} (hs : MsgInv s) {m : Ptr} {p : Fin 2}
    (hp : p = (s.h.msg m).priority) (hm : (s.queue p).head? = some m)
    (hguard : s.q.sendbeg p ≠ s.q.sendend p) :
    ¬ MsgGood ⟨s.messageSize, (tripcSendClear s.q s.h m).1, (tripcSendClear s.q s.h m).2,
      Function.update s.queue p (s.queue p).tail, s.own⟩ := by
  intro hgood
  have hbeg : s.q.sendbeg p = some m := (hs.queue p).head_eq.trans hm
  obtain ⟨l, hl⟩ := List.head?_eq_some_iff.mp hm
  have hnext : (tripcSendClear s.q s.h m).2.next m = none := by
    simp only [tripcSendClear, ← hp]
    rw [if_pos hbeg.symm, next_setNext, Function.update_self]
  cases l with
  | nil =>
    refine hguard ?_
    rw [hbeg, hs.queueEnd, hl]
    rfl
  | cons n l =>
    obtain ⟨l₀, hl₀⟩ := (hs.suffix p m (List.mem_of_head? hm)).2
    have hlink := hgood.own (s.h.msg m).stream
    simp only [← hl₀, hl] at hlink
    rw [hlink.next_eq] at hnext
    cases hnext

/-! ### Removing -/

/-- The loop of `_trips_msg_remove`, with the message ahead of it. -/
theorem tripsMsgUnlink_eq {t m : Ptr} {h : StreamHeap} {l₂ : List Ptr} :
    ∀ {l₁ : List Ptr} {k : ℕ} {p n : Option Ptr}, m ∉ l₁ → l₁.length < k →
      Linked h.next n (l₁ ++ m :: l₂) →
      tripsMsgUnlink t m k p n h = tripsMsgDrop t m (l₁.getLast?.or p) h := by
  intro l₁
  induction l₁ with
  | nil =>
    intro k p n _ hk hn
    obtain ⟨k, rfl⟩ : ∃ j, k = j + 1 := ⟨k - 1, by simp at hk; omega⟩
    rw [List.nil_append, linked_cons] at hn
    rw [hn.1]
    simp [tripsMsgUnlink]
  | cons a l₁ ih =>
    intro k p n hm hk hn
    obtain ⟨k, rfl⟩ : ∃ j, k = j + 1 := ⟨k - 1, by simp at hk; omega⟩
    rw [List.cons_append, linked_cons] at hn
    rw [List.mem_cons, not_or] at hm
    rw [hn.1]
    simp only [tripsMsgUnlink, if_neg (Ne.symm hm.1)]
    rw [ih hm.2 (by simpa using hk) hn.2, List.getLast?_cons]
    cases l₁.getLast? <;> rfl

theorem next_tripsMsgDrop (t m : Ptr) (p : Option Ptr) (h : StreamHeap) (n : Ptr) :
    (tripsMsgDrop t m p h).next n = if n = m then none
      else if p = some n then h.next m else h.next n := by
  simp only [tripsMsgDrop, next_setNext, Function.update_apply]
  by_cases hn : n = m
  · rw [if_pos hn, if_pos hn]
  rw [if_neg hn, if_neg hn]
  cases p with
  | none =>
    simp only
    split <;> simp
  | some a =>
    simp only
    split <;> simp [next_setNext, Function.update_apply, eq_comm]

/-- The stream's ends, once the message between `l₁` and `l₂` is gone. -/
theorem stream_tripsMsgDrop {t m : Ptr} {h : StreamHeap} {l₁ l₂ : List Ptr}
    (hl : Linked h.next (h.stream t).listbeg (l₁ ++ m :: l₂))
    (he : (h.stream t).listend = (l₁ ++ m :: l₂).getLast?) :
    (∀ t', t' ≠ t → (tripsMsgDrop t m l₁.getLast? h).stream t' = h.stream t') ∧
      ((tripsMsgDrop t m l₁.getLast? h).stream t).listbeg =
        (if l₁ = [] then h.next m else (h.stream t).listbeg) ∧
      ((tripsMsgDrop t m l₁.getLast? h).stream t).listend = (l₁ ++ l₂).getLast? ∧
      ((tripsMsgDrop t m l₁.getLast? h).stream t).flags = (h.stream t).flags := by
  have hnd := hl.nodup
  have hmend : some m = (h.stream t).listend ↔ l₂ = [] := by
    rw [he]
    rcases l₂.eq_nil_or_concat' with rfl | ⟨l, e, rfl⟩
    · simp
    · rw [← List.cons_append, ← List.append_assoc, List.getLast?_concat, Option.some.injEq]
      refine iff_of_false ?_ (by simp)
      rintro rfl
      simp [List.nodup_append] at hnd
  simp only [tripsMsgDrop, stream_setNext, hmend]
  rcases l₁.eq_nil_or_concat' with rfl | ⟨l, a, rfl⟩
  · simp only [List.getLast?_nil, List.nil_append, if_true]
    split
    · next h₂ =>
      subst h₂
      refine ⟨fun t' ht => stream_setStream_of_ne h ht _, ?_, ?_, ?_⟩
      · rw [stream_setStream_self, hl.next_last List.getLast?_concat]
      · rw [stream_setStream_self]
        rfl
      · rw [stream_setStream_self]
    · next h₂ =>
      refine ⟨fun t' ht => stream_setStream_of_ne h ht _, ?_, ?_, ?_⟩
      · rw [stream_setStream_self]
      · rw [stream_setStream_self, he]
        exact List.getLast?_cons_of_ne_nil h₂
      · rw [stream_setStream_self]
  · simp only [List.getLast?_concat, List.append_eq_nil_iff, List.cons_ne_nil, and_false, if_false]
    split
    · next h₂ =>
      subst h₂
      refine ⟨fun t' ht => stream_setStream_of_ne _ ht _, ?_, ?_, ?_⟩
      · rw [stream_setStream_self, stream_setNext]
      · rw [stream_setStream_self, List.append_nil, List.getLast?_concat]
      · rw [stream_setStream_self, stream_setNext]
    · next h₂ =>
      refine ⟨fun _ _ => rfl, rfl, ?_, rfl⟩
      rw [stream_setNext, he, List.getLast?_append_of_ne_nil _ (List.cons_ne_nil m l₂),
        List.getLast?_append_of_ne_nil _ h₂, List.getLast?_cons_of_ne_nil h₂]

/-- Removing a message that was cleared. -/
theorem MsgInv.done {s : MsgState} (hs : MsgInv s) {m t : Ptr} (ht : t = (s.h.msg m).stream)
    (hm : m ∈ s.own t) (hq : ∀ p, m ∉ s.queue p) :
    MsgInv ⟨s.messageSize, s.q, tripsDoneMessage s.h t m, s.queue,
      Function.update s.own t ((s.own t).erase m)⟩ := by
  obtain ⟨l₁, l₂, hl⟩ := List.append_of_mem hm
  have hlink := hs.own t
  have hend := hs.ownEnd t
  rw [hl] at hlink hend
  have hnd := hlink.nodup
  rw [List.nodup_append, List.nodup_cons] at hnd
  have hm₁ : m ∉ l₁ := fun hm => hnd.2.2 m hm m List.mem_cons_self rfl
  have herase : (s.own t).erase m = l₁ ++ l₂ := by
    rw [hl, List.erase_append_right _ hm₁, List.erase_cons_head]
  have hsub : ∀ n ∈ l₁ ++ l₂, n ∈ s.own t ∧ n ≠ m := by
    intro n hn
    have hnm : n ≠ m := by
      rintro rfl
      rcases List.mem_append.mp hn with hn | hn
      · exact hm₁ hn
      · exact hnd.2.1.1 hn
    refine ⟨?_, hnm⟩
    rw [hl]
    rcases List.mem_append.mp hn with hn | hn
    · exact List.mem_append_left _ hn
    · exact List.mem_append_right _ (List.mem_cons_of_mem m hn)
  -- the loop finds the message before it has gone through all there are
  have hk : l₁.length < s.h.brk := by
    have hsubset : l₁ ++ m :: l₂ ⊆ List.range s.h.brk := fun n hn =>
      List.mem_range.mpr (hs.owner t n (hl ▸ hn)).2.2
    have hle := (List.subperm_of_subset hlink.nodup hsubset).length_le
    simp only [List.length_append, List.length_cons, List.length_range] at hle
    omega
  have hdone : tripsDoneMessage s.h t m = tripsMsgDrop t m l₁.getLast? s.h := by
    rw [tripsDoneMessage, tripsMsgRemove, tripsMsgUnlink_eq hm₁ hk hlink, Option.or_none]
  have hr := relinks_tripsMsgDrop t m l₁.getLast? s.h
  obtain ⟨hother, hbeg, hend', hflags⟩ := stream_tripsMsgDrop hlink hend
  rw [hdone, herase]
  generalize hh : tripsMsgDrop t m l₁.getLast? s.h = h at *
  have hnext : ∀ n, h.next n = if n = m then none
      else if l₁.getLast? = some n then s.h.next m else s.h.next n := by
    rw [← hh]
    exact next_tripsMsgDrop t m _ s.h
  -- a list that has neither the message nor the one before it keeps its links
  have hkeep : ∀ n, n ≠ m → l₁.getLast? ≠ some n → h.next n = s.h.next n := by
    intro n hn hlast
    rw [hnext, if_neg hn, if_neg hlast]
  have hbefore : ∀ n, l₁.getLast? = some n → n ∈ s.own t ∧ s.h.next n = some m := by
    intro n hn
    obtain ⟨l, rfl⟩ := List.getLast?_eq_some_iff.mp hn
    rw [List.append_assoc] at hlink
    refine ⟨?_, hlink.next_eq⟩
    rw [hl]
    simp
  have hprio : ∀ t', tripsPriority (h.stream t') = tripsPriority (s.h.stream t') := by
    intro t'
    rcases eq_or_ne t' t with rfl | htt
    · rw [tripsPriority, tripsPriority, hflags]
    · rw [hother t' htt]
  refine ⟨⟨?_, hs.queueEnd, ?_, ?_⟩, ?_, ?_⟩
  · intro p
    refine (hs.queue p).congr fun n hn => hkeep n (fun hnm => hq p (hnm ▸ hn)) fun hlast => ?_
    exact hq p ((hs.queue p).mem_next hn (hbefore n hlast).2)
  · intro t'
    rcases eq_or_ne t' t with rfl | htt
    · simp only [Function.update_self, hbeg]
      rcases l₁.eq_nil_or_concat' with rfl | ⟨l, a, rfl⟩
      · rw [if_pos rfl, List.nil_append]
        refine Linked.congr hlink.2 fun n hn => hkeep n (fun hnm => hnd.2.1.1 (hnm ▸ hn)) ?_
        simp
      · rw [if_neg (by simp)]
        rw [List.append_assoc] at hlink ⊢
        refine hlink.unlink.congr fun n hn => ?_
        have hn' : n ∈ l ++ [a] ++ l₂ := by simpa using hn
        rw [hnext, if_neg (hsub n hn').2, List.getLast?_concat, Function.update_apply]
        simp only [Option.some.injEq, eq_comm]
    · simp only [Function.update_of_ne htt, hother t' htt]
      refine (hs.own t').congr fun n hn => hkeep n ?_ fun hlast => ?_
      · rintro rfl
        exact htt ((hs.owner t' n hn).1.symm.trans ht.symm)
      · exact htt ((hs.owner t' n hn).1.symm.trans (hs.owner t n (hbefore n hlast).1).1)
  · intro t'
    rcases eq_or_ne t' t with rfl | htt
    · simp only [Function.update_self, hend']
    · simp only [Function.update_of_ne htt, hother t' htt, hs.ownEnd]
  · intro t' n hn
    rw [hr.stream, hr.priority, hr.1, hprio]
    rcases eq_or_ne t' t with rfl | htt
    · simp only [Function.update_self] at hn
      exact hs.owner t' n (hsub n hn).1
    · simp only [Function.update_of_ne htt] at hn
      exact hs.owner t' n hn
  · intro p n hn
    obtain ⟨h₁, h₂⟩ := hs.suffix p n hn
    rw [hr.stream, hr.priority]
    refine ⟨h₁, ?_⟩
    rcases eq_or_ne (s.h.msg n).stream t with hnt | hnt
    · simp only [hnt, Function.update_self]
      rw [hnt, hl] at h₂
      -- the queue is behind the message, which is not in it
      rcases List.suffix_or_suffix_of_suffix h₂ (List.suffix_append l₁ (m :: l₂)) with hsuf | hsuf
      · rcases List.suffix_cons_iff.mp hsuf with heq | hsuf
        · exact absurd (heq ▸ List.mem_cons_self) (hq p)
        · exact hsuf.trans (List.suffix_append l₁ l₂)
      · exact absurd (hsuf.mem List.mem_cons_self) (hq p)
    · simp only [Function.update_of_ne hnt]
      exact h₂

/-! ### Runs -/

/-- The calls on the messages of one connection. -/
inductive MsgOp
  | send (t : Ptr) (len : ℕ) (buf : Option Bytes) (alloc : Bool)
  | clear (m : Ptr)
  | done (m : Ptr)
  deriving DecidableEq, Repr

/-- One call, and what it is to the lists. -/
def MsgOp.run (op : MsgOp) (s : MsgState) : MsgState :=
  match op with
  | .send t len buf alloc =>
    let p := tripsPriority (s.h.stream t)
    let (_, q, h) := tripsSend s.messageSize s.q s.h t len buf alloc
    ⟨s.messageSize, q, h, Function.update s.queue p (s.queue p ++ [s.h.brk]),
      Function.update s.own t (s.own t ++ [s.h.brk])⟩
  | .clear m =>
    let p := (s.h.msg m).priority
    let (q, h) := tripcSendClear s.q s.h m
    ⟨s.messageSize, q, h, Function.update s.queue p (s.queue p).tail, s.own⟩
  | .done m =>
    let t := (s.h.msg m).stream
    ⟨s.messageSize, s.q, tripsDoneMessage s.h t m, s.queue,
      Function.update s.own t ((s.own t).erase m)⟩

/-- A send succeeds, the message cleared is the front of its queue, and a
message that is done is outstanding and was cleared. -/
def MsgOp.Legal (s : MsgState) : MsgOp → Prop
  | .send t len buf alloc => (tripsSend s.messageSize s.q s.h t len buf alloc).1 = 0
  | .clear m => (s.queue (s.h.msg m).priority).head? = some m
  | .done m => m ∈ s.own (s.h.msg m).stream ∧ ∀ p, m ∉ s.queue p

def MsgStep (s : MsgState) (op : MsgOp) (t : MsgState) : Prop := t = op.run s ∧ op.Legal s

/-- A connection and its streams before any message. -/
def MsgState.init (messageSize : UInt32) (q : Messageq) (h : StreamHeap) : MsgState :=
  ⟨messageSize, q, h, fun _ => [], fun _ => []⟩

/-- A send finds its priority's queue empty or ending in a message of the same
stream, and a message is cleared when it is the only one in its queue. -/
def MsgGuard (s : MsgState) (op : MsgOp) : Prop :=
  match op with
  | .send t _ _ _ =>
    ∀ e ∈ s.q.sendend (tripsPriority (s.h.stream t)), (s.h.msg e).stream = t
  | .clear m => s.q.sendbeg (s.h.msg m).priority = s.q.sendend (s.h.msg m).priority
  | .done _ => True

theorem msgInv_init {q : Messageq} {h : StreamHeap} (messageSize : UInt32)
    (hq : ∀ p, q.sendbeg p = none ∧ q.sendend p = none)
    (hh : ∀ t, (h.stream t).listbeg = none ∧ (h.stream t).listend = none) :
    MsgInv (MsgState.init messageSize q h) where
  queue := fun p => (hq p).1
  queueEnd := fun p => (hq p).2
  own := fun t => (hh t).1
  ownEnd := fun t => (hh t).2
  owner := fun _ _ hn => absurd hn List.not_mem_nil
  suffix := fun _ _ hn => absurd hn List.not_mem_nil

theorem MsgInv.step {s t : MsgState} {op : MsgOp} (hs : MsgInv s) (hg : MsgGuard s op)
    (hst : MsgStep s op t) : MsgInv t := by
  obtain ⟨rfl, hlegal⟩ := hst
  cases op with
  | send u len buf alloc => exact hs.send (tripsSend_spec hs hlegal rfl rfl) hg
  | clear m => exact hs.clear rfl hlegal hg
  | done m => exact hs.done rfl hlegal.1 hlegal.2

theorem MsgInv.break {s t : MsgState} {op : MsgOp} (hs : MsgInv s) (hg : ¬ MsgGuard s op)
    (hst : MsgStep s op t) : ¬ MsgGood t := by
  obtain ⟨rfl, hlegal⟩ := hst
  cases op with
  | send u len buf alloc =>
    simp only [MsgGuard] at hg
    push Not at hg
    obtain ⟨e, he, heu⟩ := hg
    exact hs.send_break (tripsSend_spec hs hlegal rfl rfl) he heu
  | clear m => exact hs.clear_break rfl hlegal hg
  | done m => exact absurd trivial hg

/-- **When each list holds its messages.**  From a connection without messages,
each queue and each stream's list holds exactly its messages, in every state a
run reaches, exactly when no send of the run is behind another stream's message
and no message is cleared while there is one behind it. -/
theorem trips_messages_iff {messageSize : UInt32} {q : Messageq} {h : StreamHeap}
    (hq : ∀ p, q.sendbeg p = none ∧ q.sendend p = none)
    (hh : ∀ t, (h.stream t).listbeg = none ∧ (h.stream t).listend = none)
    {r : List (MsgOp × MsgState)} (hr : IsRun MsgStep (MsgState.init messageSize q h) r) :
    Holds MsgGood (fun _ _ _ => True) (MsgState.init messageSize q h) r ↔
      Meets MsgGuard (MsgState.init messageSize q h) r := by
  have hinit := msgInv_init messageSize hq hh
  refine holds_iff_meets ?_ ?_ ?_ hinit hr
  · exact fun _ hs => hs.toMsgGood
  · exact fun _ _ _ hs hg hst => ⟨trivial, hs.step hg hst⟩
  · exact fun _ _ _ hs hg hst ht => hs.break hg hst ht.2

/-- A connected stream and one of priority, and two empty queues. -/
def msgHeap : StreamHeap :=
  ⟨fun t => ⟨true, t, t, none, none⟩, fun _ => default, fun _ => none, 8⟩
def msgQueue : Messageq := ⟨1, 0, fun _ => none, fun _ => none⟩

/-- Two streams of different priorities, whose messages wait in two queues. -/
theorem trips_messages_iff_two :
    Holds MsgGood (fun _ _ _ => True) (MsgState.init 9 msgQueue msgHeap)
      (trace MsgOp.run (MsgState.init 9 msgQueue msgHeap)
        [.send 0 1 (some [7]) true, .send 1 1 (some [7]) true, .clear 8, .send 1 1 (some [7]) true,
          .done 8]) := by
  refine (trips_messages_iff (fun _ => ⟨rfl, rfl⟩) (fun _ => ⟨rfl, rfl⟩) ?_).mpr ?_
  · simp only [trace, isRun_cons, isRun_nil, MsgStep, MsgOp.Legal, true_and, and_true]
    decide
  · simp only [trace, meets_cons, meets_nil, MsgGuard, and_true]
    decide

/-- A message sent on a second stream of the same priority is in the first
stream's list too. -/
theorem trips_send_leaks :
    ¬ ∀ (messageSize : UInt32) (q : Messageq) (h : StreamHeap) (r : List (MsgOp × MsgState)),
      (∀ p, q.sendbeg p = none ∧ q.sendend p = none) →
      (∀ t, (h.stream t).listbeg = none ∧ (h.stream t).listend = none) →
      IsRun MsgStep (MsgState.init messageSize q h) r →
        Holds MsgGood (fun _ _ _ => True) (MsgState.init messageSize q h) r := by
  intro hall
  have h := hall 9 msgQueue msgHeap (trace MsgOp.run (MsgState.init 9 msgQueue msgHeap)
    [.send 0 1 (some [7]) true, .send 2 1 (some [7]) true]) (fun _ => ⟨rfl, rfl⟩)
    (fun _ => ⟨rfl, rfl⟩) (by
      simp only [trace, isRun_cons, isRun_nil, MsgStep, MsgOp.Legal, true_and, and_true]
      decide)
  have hgood : MsgGood _ := h.2.2.2.2
  have hnone := (hgood.own 0).next_last (a := 8) (by decide)
  exact absurd hnone (by decide)

end Libtrp
