import Libtrp.Conn
import Libtrp.Stream

/-!
# Whose turn it is to send

A connection has two queues of messages, one of priority and one that is served
whenever there is time for it.  A counter under a mask says whose turn it is, and
the other queue has the turn of an empty one.

A new connection has no bit in its mask, so that the counter stays at zero and the
turn is never that of the priority queue while there is a message in the other; and
the flag of a stream is used as the number of its queue, which is the other one.

## Main definitions

* `tripcSendPick` — the message to send next.
* `SchedGood`, `SchedOk` — the schedule that the two queues are made for.

## Main results

* `tripcSendPick_eq_none`, `tripcSendPick_of_empty` — what is picked when a queue is
  empty.
* `tripc_schedule_iff` — **when a new connection keeps the schedule.**

## References

`src/conn.c` (`_tripc_send_pick`, `_tripc_init`), `src/stream.c` (`_trips_priority`),
`src/messageq.h`.
-/

namespace Libtrp

open Lib

/-- `_TRIP_MESSAGE_PRIORITY` -/
def TRIP_MESSAGE_PRIORITY : Fin 2 := 0
/-- `_TRIP_MESSAGE_WHENEVER` -/
def TRIP_MESSAGE_WHENEVER : Fin 2 := 1

/-- The counter moves on. -/
def Messageq.turn (q : Messageq) : Messageq :=
  { q with sendwhich := (q.sendwhich + 1) &&& q.sendmask }

/-- The queue whose turn it is. -/
def Messageq.which (q : Messageq) : Fin 2 :=
  if q.sendwhich ≠ 0 then TRIP_MESSAGE_PRIORITY else TRIP_MESSAGE_WHENEVER

/-- `_tripc_send_pick` -/
def tripcSendPick (q : Messageq) : Option Ptr × Messageq :=
  let q := q.turn
  match q.sendbeg q.which with
  | some m => (some m, q)
  | none =>
    -- the other queue: `0x01 & (which + 1)`
    match q.sendbeg (q.which + 1) with
    | some m => (some m, q)
    | none => (none, q)

namespace Messageq

variable {q : Messageq}

@[simp] theorem sendbeg_turn (q : Messageq) : q.turn.sendbeg = q.sendbeg := rfl

@[simp] theorem sendend_turn (q : Messageq) : q.turn.sendend = q.sendend := rfl

theorem eq_or_eq_add_one (p p' : Fin 2) : p = p' ∨ p = p' + 1 := by
  revert p p'
  decide

end Messageq

theorem tripcSendPick_snd (q : Messageq) : (tripcSendPick q).2 = q.turn := by
  unfold tripcSendPick
  dsimp only
  split
  · rfl
  · split <;> rfl

/-- What is picked, by the queue whose turn it is. -/
theorem tripcSendPick_fst (q : Messageq) : (tripcSendPick q).1 =
    (q.sendbeg q.turn.which).or (q.sendbeg (q.turn.which + 1)) := by
  unfold tripcSendPick
  simp only [Messageq.sendbeg_turn]
  cases q.sendbeg q.turn.which with
  | some m => rfl
  | none => cases q.sendbeg (q.turn.which + 1) <;> rfl

/-- **Nothing is picked** only when both queues are empty. -/
theorem tripcSendPick_eq_none {q : Messageq} :
    (tripcSendPick q).1 = none ↔ ∀ p, q.sendbeg p = none := by
  rw [tripcSendPick_fst, Option.or_eq_none_iff]
  constructor
  · rintro ⟨hturn, hother⟩ p
    rcases Messageq.eq_or_eq_add_one p q.turn.which with rfl | rfl
    · exact hturn
    · exact hother
  · intro h
    exact ⟨h _, h _⟩

/-- **The other queue** is picked from when one is empty. -/
theorem tripcSendPick_of_empty {q : Messageq} {p : Fin 2} (hp : q.sendbeg (p + 1) = none) :
    (tripcSendPick q).1 = q.sendbeg p := by
  rw [tripcSendPick_fst]
  rcases Messageq.eq_or_eq_add_one p q.turn.which with h | h
  · rw [← h, hp, Option.or_none]
  · have hturn : q.turn.which = p + 1 := by
      rw [h, add_assoc, show (1 : Fin 2) + 1 = 0 from rfl, add_zero]
    rw [hturn, hp, Option.none_or, ← hturn, ← h]

/-! ### Runs -/

/-- The queues of a connection and its streams, beside the messages that were picked, the
last one first, since both queues have had messages. -/
structure SchedState where
  messageSize : UInt32
  q : Messageq
  h : StreamHeap
  picks : List Ptr

/-- Both queues have messages. -/
def Messageq.both (q : Messageq) : Bool := (q.sendbeg 0).isSome && (q.sendbeg 1).isSome

/-- A call. -/
inductive SchedOp
  | send (t : Ptr) (len : ℕ) (buf : Option Bytes) (alloc : Bool)
  | pick
  | clear (m : Ptr)
  deriving DecidableEq, Repr

/-- One call. -/
def SchedOp.run (op : SchedOp) (s : SchedState) : SchedState :=
  match op with
  | .send t len buf alloc =>
    let (_, q, h) := tripsSend s.messageSize s.q s.h t len buf alloc
    ⟨s.messageSize, q, h, if q.both then s.picks else []⟩
  | .pick =>
    let (m, q) := tripcSendPick s.q
    ⟨s.messageSize, q, s.h, if q.both then m.toList ++ s.picks else []⟩
  | .clear m =>
    let (q, h) := tripcSendClear s.q s.h m
    ⟨s.messageSize, q, h, if q.both then s.picks else []⟩

/-- The last `sendmask + 2` picks, when both queues have had messages for as long, are
from either queue. -/
def SchedGood (s : SchedState) : Prop :=
  s.q.sendmask.toNat + 2 ≤ s.picks.length →
    ∀ p, ∃ m ∈ s.picks.take (s.q.sendmask.toNat + 2), (s.h.msg m).priority = p

/-- The queue that the messages of a stream are for. -/
def schedQueue (x : Stream) : Fin 2 :=
  if x.flags &&& TRIPS_OPT_PRIORITY ≠ 0 then TRIP_MESSAGE_PRIORITY else TRIP_MESSAGE_WHENEVER

/-- A message that is sent is the last one in its queue.  A pick is of a message if there
is one, and from the other queue if one is empty. -/
def SchedOk (s : SchedState) (op : SchedOp) (t : SchedState) : Prop :=
  match op with
  | .send u len buf alloc =>
    (tripsSend s.messageSize s.q s.h u len buf alloc).1 = 0 →
      t.q.sendend (schedQueue (s.h.stream u)) = some s.h.brk
  | .pick =>
    ((tripcSendPick s.q).1 = none ↔ ∀ p, s.q.sendbeg p = none) ∧
      ∀ p, s.q.sendbeg (p + 1) = none → (tripcSendPick s.q).1 = s.q.sendbeg p
  | .clear _ => True

/-- A message is refused by its stream or for its length, or there is no memory for it. -/
def SchedGuard (s : SchedState) : SchedOp → Prop
  | .send t len buf alloc =>
    tripsSendCode s.messageSize (s.h.stream t) len buf ≠ 0 ∨ alloc = false
  | .pick | .clear _ => True

/-- A new connection with streams. -/
def SchedState.init (incoming : Bool) (maxStreams messageSize : UInt32) (h : StreamHeap) :
    SchedState := ⟨messageSize, (tripcInit incoming maxStreams).msg, h, []⟩

/-- The invariant: there are no messages. -/
structure SchedInv (s : SchedState) : Prop where
  sendbeg : ∀ p, s.q.sendbeg p = none
  sendend : ∀ p, s.q.sendend p = none
  picks : s.picks = []

/-- The flag of a stream is the number of the queue that its messages are not for. -/
theorem tripsPriority_eq (x : Stream) : tripsPriority x = schedQueue x + 1 := by
  unfold tripsPriority schedQueue TRIPS_OPT_PRIORITY
  rw [Nat.one_shiftLeft, pow_zero, Nat.and_one_is_mod]
  rcases Nat.mod_two_eq_zero_or_one x.flags with h | h
  · rw [h]
    rfl
  · rw [h]
    rfl

/-- A message that is accepted is the last one in the queue of its priority. -/
theorem tripsSend_accepted {messageSize : UInt32} {q : Messageq} {h : StreamHeap} {u : Ptr}
    {len : ℕ} {buf : Option Bytes} {alloc : Bool}
    (hq : ∀ p, q.sendend p = none ↔ q.sendbeg p = none)
    (hcode : (tripsSend messageSize q h u len buf alloc).1 = 0) :
    (tripsSend messageSize q h u len buf alloc).2.1.sendend =
      Function.update q.sendend (tripsPriority (h.stream u)) (some h.brk) := by
  have hprio : ((tripsNewMsg h u len buf).msg h.brk).priority = tripsPriority (h.stream u) := by
    rw [tripsNewMsg, StreamHeap.msg_setMsg_self]
  unfold tripsSend at hcode ⊢
  dsimp only at hcode ⊢
  split_ifs at hcode ⊢ with hrefused halloc
  · exact absurd hcode hrefused
  · exact absurd (show ENOMEM = 0 from hcode) (by decide)
  · rw [← hprio]
    exact (queue_tripcSendAdd (hq _)).2

/-- When a message is refused. -/
theorem tripsSend_ne_zero {messageSize : UInt32} {q : Messageq} {h : StreamHeap} {u : Ptr}
    {len : ℕ} {buf : Option Bytes} {alloc : Bool} :
    (tripsSend messageSize q h u len buf alloc).1 ≠ 0 ↔
      tripsSendCode messageSize (h.stream u) len buf ≠ 0 ∨ alloc = false := by
  unfold tripsSend
  dsimp only
  split_ifs with hcode halloc
  · exact iff_of_true hcode (.inl hcode)
  · exact iff_of_true (show ENOMEM ≠ 0 by decide) (.inr (Bool.not_eq_true' alloc ▸ halloc))
  · refine iff_of_false (fun h => h rfl) ?_
    rintro (h | rfl)
    · exact hcode h
    · exact halloc rfl

/-- A message that is refused changes nothing. -/
theorem tripsSend_refused {messageSize : UInt32} {q : Messageq} {h : StreamHeap} {u : Ptr}
    {len : ℕ} {buf : Option Bytes} {alloc : Bool}
    (hcode : (tripsSend messageSize q h u len buf alloc).1 ≠ 0) :
    (tripsSend messageSize q h u len buf alloc).2 = (q, h) := by
  unfold tripsSend at hcode ⊢
  dsimp only at hcode ⊢
  split_ifs at hcode ⊢
  · rfl
  · rfl
  · exact absurd rfl hcode

namespace SchedInv

variable {s : SchedState}

theorem good (hs : SchedInv s) : SchedGood s := by
  intro hlen
  rw [hs.picks] at hlen
  exact absurd hlen (by simp)

theorem not_both (hs : SchedInv s) : s.q.both = false := by
  rw [Messageq.both, hs.sendbeg]
  rfl

end SchedInv

theorem schedOk_pick (s t : SchedState) : SchedOk s .pick t :=
  ⟨tripcSendPick_eq_none, fun _ hp => tripcSendPick_of_empty hp⟩

/-- Calls that send nothing leave the queues empty. -/
theorem SchedInv.step {s : SchedState} (hs : SchedInv s) {op : SchedOp} (hg : SchedGuard s op) :
    SchedOk s op (op.run s) ∧ SchedInv (op.run s) := by
  have hboth := hs.not_both
  cases op with
  | send u len buf alloc =>
    have hrefused := (tripsSend_ne_zero (q := s.q)).mpr hg
    refine ⟨fun hcode => absurd hcode hrefused, ?_⟩
    simp only [SchedOp.run, tripsSend_refused hrefused]
    refine ⟨hs.sendbeg, hs.sendend, ?_⟩
    dsimp only
    rw [hboth, if_neg Bool.false_ne_true]
  | pick =>
    refine ⟨schedOk_pick s _, ?_⟩
    simp only [SchedOp.run, tripcSendPick_snd]
    refine ⟨hs.sendbeg, hs.sendend, ?_⟩
    dsimp only
    rw [show s.q.turn.both = false from hboth, if_neg Bool.false_ne_true]
  | clear m =>
    refine ⟨trivial, ?_⟩
    have hsame : tripcSendClear s.q s.h m = (s.q, s.h) := by
      unfold tripcSendClear
      dsimp only
      rw [hs.sendbeg, if_neg (Option.some_ne_none m)]
    simp only [SchedOp.run, hsame]
    refine ⟨hs.sendbeg, hs.sendend, ?_⟩
    dsimp only
    rw [hboth, if_neg Bool.false_ne_true]

/-- A message that is accepted is in the wrong queue. -/
theorem SchedInv.break {s : SchedState} (hs : SchedInv s) {op : SchedOp} (hg : ¬ SchedGuard s op) :
    ¬ SchedOk s op (op.run s) := by
  cases op with
  | send u len buf alloc =>
    intro hok
    have hcode : (tripsSend s.messageSize s.q s.h u len buf alloc).1 = 0 :=
      not_not.mp fun hne => hg (tripsSend_ne_zero.mp hne)
    have hlast : (tripsSend s.messageSize s.q s.h u len buf alloc).2.1.sendend
        (schedQueue (s.h.stream u)) = some s.h.brk := hok hcode
    rw [tripsSend_accepted (fun p => by rw [hs.sendend, hs.sendbeg]) hcode, tripsPriority_eq,
      Function.update_of_ne ?_, hs.sendend] at hlast
    · exact Option.some_ne_none _ hlast.symm
    · generalize schedQueue (s.h.stream u) = p
      revert p
      decide
  | pick => exact absurd trivial hg
  | clear m => exact absurd trivial hg

/-- **When a new connection keeps the schedule.**  A run from a new connection keeps it
exactly when no message is accepted.  What is picked when a queue is empty is right in
every run. -/
theorem tripc_schedule_iff (incoming : Bool) (maxStreams messageSize : UInt32) (h : StreamHeap)
    (ops : List SchedOp) :
    let s := SchedState.init incoming maxStreams messageSize h
    (Holds SchedGood SchedOk s (trace SchedOp.run s ops) ↔
      Meets SchedGuard s (trace SchedOp.run s ops)) ∧
    Holds (fun _ => True) (fun s op t => op = .pick → SchedOk s op t) s
      (trace SchedOp.run s ops) := by
  intro s
  have hinit : SchedInv s := ⟨fun _ => rfl, fun _ => rfl, rfl⟩
  have hrun := isRun_of_fun SchedOp.run s ops
  constructor
  · refine holds_iff_meets (fun _ => SchedInv.good) ?_ ?_ hinit hrun
    · rintro s op _ hs hg rfl
      exact hs.step hg
    · rintro s op _ hs hg rfl ⟨hok, -⟩
      exact hs.break hg hok
  · have hstep : ∀ (s : SchedState) op t, True → True → t = SchedOp.run op s →
        (op = .pick → SchedOk s op t) ∧ True := by
      rintro s op t - - -
      refine ⟨?_, trivial⟩
      rintro rfl
      exact schedOk_pick s t
    exact holds_of_meets hstep trivial hrun (meets_of_forall (fun _ _ => trivial) _ _)

/-- Two streams have a message each, and both picks are from one queue. -/
theorem tripc_schedule_starves :
    ¬ ∀ (incoming : Bool) (maxStreams messageSize : UInt32) (h : StreamHeap) (ops : List SchedOp),
      Holds SchedGood SchedOk (SchedState.init incoming maxStreams messageSize h)
        (trace SchedOp.run (SchedState.init incoming maxStreams messageSize h) ops) := by
  intro hall
  have h := (hall false 8 9 msgHeap
    [.send 0 1 (some [7]) true, .send 1 1 (some [7]) true, .pick, .pick]).last
  obtain ⟨m, hm, hprio⟩ := h (by decide) 0
  revert hprio
  revert m
  decide

end Libtrp
