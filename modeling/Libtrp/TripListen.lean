import Libtrp.TripKeeps
import Libtrp.TripWatch

/-!
# The send part of `_trip_listen`

The packet that was not sent before is tried again, and then each connection of the queue
sends up to its limit of packets and is put at the end again, until more than the limit of
all were sent.  While a packet is sent its interface may put connections into the queue,
so that the queue's length does not bound the loop; what bounds it is that a connection
that stays in the queue has sent something.

A connection whose packet would block is not put back: `_trip_listen` keeps the packet, and
returns.  One that has sent its share is put behind the tail, which the head need not lead to
since `sendq_del` has left it there.

What `_tripc_send` does is left open here, up to `TripcSends`.

## Main definitions

* `ListenState`, `ListenState.step` — the send part, with `_tripc_send` a parameter.
* `ListenTurn` — what one step does.
* `Requeues` — no connection that was taken is lost.

## Main results

* `tripListen_requeues_iff` — **when no connection is lost.**
* `tripListen_bounded` — **the send part ends**, and how many packets it sends.
* `tripListen_wraps` — with the two limits at the ends of their range it sends more.

## References

`src/trip.c` (`_trip_listen`), `src/sendq.c`, `src/conn.c` (`_tripc_send`),
`test/reliable_packet.c` (`reliable_send`).
-/

namespace Libtrp

open Lib

/-! ### The steps -/

/-- `_trip_listen`, before the next packet of `c`, where `send` is `_tripc_send`. -/
def tripSendPackWith (send : Ptr → ℕ → TripM ℕ) (c : Ptr) (connsent sent : UInt32) :
    TripM (List Task) := do
  let max ← fetch Router.maxConnectionSendCount
  if connsent < max then
    let buflen ← fetch Router.buflen
    let len ← send c buflen
    store fun r => { r with sendlen := len }
    return [.packed c connsent sent]
  else
    store fun r => r.setSendq (sendqNq r.sendq r.heap c)
    tripSendLimit sent

theorem tripSendPackWith_tripcSend (c : Ptr) (connsent sent : UInt32) :
    tripSendPackWith tripcSend c connsent sent = tripSendPack c connsent sent := rfl

/-- What is run where the task on top is one of the send part; `packet->send` has returned
`code`. -/
def listenRun (send : Ptr → ℕ → TripM ℕ) (code : Errno) : List Task → Option (TripM (List Task))
  | [.listenOut events] => some (tripListenOut events)
  | [.resend] => some (tripListenResend code)
  | [.sendNext sent] => some (tripSendNext sent)
  | [.pack c connsent sent] => some (tripSendPackWith send c connsent sent)
  | [.packed c connsent sent] => some (tripSendPacked c connsent sent)
  | [.send c connsent sent] => some (tripSendSent c connsent sent code)
  | _ => none

/-- With the function that is called there, this is what the router's machine runs. -/
theorem listenRun_tripcSend {code : Errno} {t : Task} {m : TripM (List Task)}
    (h : listenRun tripcSend code [t] = some m) : m = t.run code := by
  cases t <;> cases h <;> rfl

/-- The calls of `packet->send`. -/
def callsSend : List Task → Bool
  | [.resend] | [.send _ _ _] => true
  | _ => false

/-- Connections are put into the queue. -/
def Router.enqueue (r : Router) (cs : List Ptr) : Router :=
  cs.foldl (fun r c => r.setSendq (sendqNq r.sendq r.heap c)) r

/-- The send part: what is left of it, how often `packet->send` was called, and the connections
that were taken from the queue and for which `_tripc_send` has not returned zero since. -/
structure ListenState where
  router : Router
  todo : List Task
  sends : ℕ
  owed : List Ptr

/-- What `packet->send` does when it is called, the connections it puts into the queue and the
code it returns; and what else is asked of the environment. -/
structure ListenInput where
  nq : List Ptr
  code : Errno
  o : Oracle

namespace ListenState

/-- Before the send part. -/
def start (r : Router) (events : UInt32) : ListenState := ⟨r, [.listenOut events], 0, []⟩

/-- Who was taken and has something to send when the part goes on with `ts`. -/
def owes (s : ListenState) (ts : List Task) : List Ptr :=
  match s.todo, ts with
  | [.sendNext _], [.pack c _ _] => c :: s.owed
  | [.packed c _ _], _ => if s.router.sendlen = 0 then s.owed.filter (· ≠ c) else s.owed
  | _, _ => s.owed

/-- **One step.**  The part is over when nothing is left, or when an error is set. -/
def step (send : Ptr → ℕ → TripM ℕ) (s : ListenState) (i : ListenInput) : Option ListenState :=
  let calls := callsSend s.todo
  let r := if calls then s.router.enqueue i.nq else s.router
  (listenRun send i.code s.todo).bind fun m =>
    match m.exec ⟨r, i.o, []⟩ with
    | (some ts, u) => some ⟨u.router, ts, s.sends + if calls then 1 else 0, s.owes ts⟩
    | (none, _) => none

/-- The steps as a relation; what is put into the queue are connections. -/
def Step (send : Ptr → ℕ → TripM ℕ) (s : ListenState) (i : ListenInput) (t : ListenState) : Prop :=
  s.step send i = some t ∧ ∀ c ∈ i.nq, c < s.router.heap.brk

end ListenState

/-- Nothing is done to the send queue, its limits, the interface and the state. -/
structure SameQueue (r r' : Router) : Prop where
  sendq : r'.sendq = r.sendq
  brk : r'.heap.brk = r.heap.brk
  next : ∀ c, r'.heap.next c = r.heap.next c
  insend : ∀ c, (r'.heap.conn c).insend = (r.heap.conn c).insend
  maxPacket : r'.maxPacketSendCount = r.maxPacketSendCount
  maxConnection : r'.maxConnectionSendCount = r.maxConnectionSendCount
  packet : r'.packet = r.packet
  state : r'.state = r.state

/-- What `send` has of `_tripc_send`: it puts nothing into the queue. -/
def TripcSends (send : Ptr → ℕ → TripM ℕ) : Prop :=
  ∀ c len, (send c len).Does fun s t => SameQueue s.router t.router

/-! ### What a step does -/

/-- Behind a connection: the part returns, or goes on when not too many packets were sent. -/
def GoesOn (r : Router) (sent : UInt32) (ts : List Task) : Prop :=
  ts = [] ∨ ts = [.sendNext sent] ∧ sent ≤ r.maxPacketSendCount

/-- **What one step does.** -/
inductive ListenTurn (s : ListenState) (i : ListenInput) : ListenState → Prop
  /-- Nothing is to be sent. -/
  | skip {events : UInt32} : s.todo = [.listenOut events] → ListenTurn s i { s with todo := [] }
  /-- There is no packet that was not sent before. -/
  | first {events : UInt32} : s.todo = [.listenOut events] →
      ListenTurn s i { s with todo := [.sendNext 0] }
  | again {events : UInt32} : s.todo = [.listenOut events] →
      ListenTurn s i { s with todo := [.resend] }
  | resent : s.todo = [.resend] → i.code = 0 →
      ListenTurn s i
        ⟨{ s.router.enqueue i.nq with sendlen := 0 }, [.sendNext 1], s.sends + 1, s.owed⟩
  | resendBlocked : s.todo = [.resend] → wouldBlock i.code = true →
      ListenTurn s i ⟨s.router.enqueue i.nq, [.sendNext 0], s.sends + 1, s.owed⟩
  | resendError : s.todo = [.resend] →
      ListenTurn s i ⟨s.router.enqueue i.nq, [.setError i.code none], s.sends + 1, s.owed⟩
  | next {sent : UInt32} {c : Ptr} : s.todo = [.sendNext sent] →
      (sendqDq s.router.sendq s.router.heap).1 = some c →
      ListenTurn s i ⟨s.router.setSendq (sendqDq s.router.sendq s.router.heap).2,
        [.pack c 0 sent], s.sends, c :: s.owed⟩
  | empty {sent : UInt32} : s.todo = [.sendNext sent] →
      (sendqDq s.router.sendq s.router.heap).1 = none →
      ListenTurn s i { s with
        router := s.router.setSendq (sendqDq s.router.sendq s.router.heap).2, todo := [] }
  | pack {c : Ptr} {connsent sent : UInt32} {r : Router} : s.todo = [.pack c connsent sent] →
      connsent < s.router.maxConnectionSendCount → SameQueue s.router r →
      ListenTurn s i { s with router := r, todo := [.packed c connsent sent] }
  | requeue {c : Ptr} {connsent sent : UInt32} {ts : List Task} : s.todo = [.pack c connsent sent] →
      ¬ connsent < s.router.maxConnectionSendCount → GoesOn s.router sent ts →
      ListenTurn s i { s with
        router := s.router.setSendq (sendqNq s.router.sendq s.router.heap c), todo := ts }
  | packError {c : Ptr} {connsent sent : UInt32} : s.todo = [.packed c connsent sent] →
      ListenTurn s i { s with
        router := { s.router with sendlen := 0 }, todo := [.setError ECOMM none] }
  | send {c : Ptr} {connsent sent : UInt32} : s.todo = [.packed c connsent sent] →
      ListenTurn s i { s with todo := [.send c connsent sent] }
  | idle {c : Ptr} {connsent sent : UInt32} {ts : List Task} : s.todo = [.packed c connsent sent] →
      GoesOn s.router sent ts →
      ListenTurn s i { s with todo := ts, owed := s.owed.filter (· ≠ c) }
  | sent {c : Ptr} {connsent sent : UInt32} : s.todo = [.send c connsent sent] → i.code = 0 →
      ListenTurn s i ⟨{ s.router.enqueue i.nq with sendlen := 0 },
        [.pack c (connsent + 1) (sent + 1)], s.sends + 1, s.owed⟩
  | blocked {c : Ptr} {connsent sent : UInt32} : s.todo = [.send c connsent sent] →
      wouldBlock i.code = true →
      ListenTurn s i
        ⟨{ s.router.enqueue i.nq with sendsrc := ((s.router.enqueue i.nq).heap.conn c).src }, [],
          s.sends + 1, s.owed⟩
  | sendError {c : Ptr} {connsent sent : UInt32} : s.todo = [.send c connsent sent] →
      ¬ wouldBlock i.code = true →
      ListenTurn s i ⟨s.router.enqueue i.nq, [.setError i.code none], s.sends + 1, s.owed⟩

/-! Each of the programs, by what it leaves. -/

section Programs

variable {s t : Env} {ts : List Task} {code : Errno}

/-- A call of the interface is made. -/
theorem callPacket_cases {ts' : List Task} (h : (callPacket ts).exec s = (some ts', t)) :
    ts' = ts ∧ t = s := by
  unfold callPacket at h
  rw [Prog.exec_bind_of (exec_fetch _ _)] at h
  split_ifs at h
  · cases h
    exact ⟨rfl, rfl⟩
  · cases h

theorem tripSendLimit_cases {sent : UInt32} (h : (tripSendLimit sent).exec s = (some ts, t)) :
    t = s ∧ GoesOn s.router sent ts := by
  unfold tripSendLimit at h
  rw [Prog.exec_bind_of (exec_fetch _ _)] at h
  split_ifs at h with hmax
  · cases h
    exact ⟨rfl, .inl rfl⟩
  · cases h
    exact ⟨rfl, .inr ⟨rfl, UInt32.not_lt.mp hmax⟩⟩

theorem tripListenOut_cases {events : UInt32}
    (h : (tripListenOut events).exec s = (some ts, t)) :
    t = s ∧ (ts = [] ∨ ts = [.sendNext 0] ∨ ts = [.resend]) := by
  unfold tripListenOut at h
  split_ifs at h
  · rw [Prog.exec_bind_of (exec_fetch _ _)] at h
    split_ifs at h
    · obtain ⟨rfl, rfl⟩ := callPacket_cases h
      exact ⟨rfl, .inr (.inr rfl)⟩
    · cases h
      exact ⟨rfl, .inr (.inl rfl)⟩
  · cases h
    exact ⟨rfl, .inl rfl⟩

theorem tripListenResend_cases (h : (tripListenResend code).exec s = (some ts, t)) :
    (code = 0 ∧ t = s.setRouter { s.router with sendlen := 0 } ∧ ts = [.sendNext 1]) ∨
      t = s ∧ (wouldBlock code = true ∧ ts = [.sendNext 0] ∨ ts = [.setError code none]) := by
  unfold tripListenResend at h
  split_ifs at h with hcode hblock
  · cases h
    exact .inr ⟨rfl, .inl ⟨hblock, rfl⟩⟩
  · cases h
    exact .inr ⟨rfl, .inr rfl⟩
  · cases h
    exact .inl ⟨not_ne_iff.mp hcode, rfl, rfl⟩

theorem tripSendNext_cases {sent : UInt32} (h : (tripSendNext sent).exec s = (some ts, t)) :
    t = s.setRouter (s.router.setSendq (sendqDq s.router.sendq s.router.heap).2) ∧
      ts = (sendqDq s.router.sendq s.router.heap).1.toList.map (.pack · 0 sent) := by
  unfold tripSendNext at h
  rw [Prog.exec_bind_of (Prog.exec_take _ _)] at h
  dsimp only at h
  cases hc : (sendqDq s.router.sendq s.router.heap).1 with
  | none =>
    rw [hc] at h
    cases h
    exact ⟨rfl, rfl⟩
  | some c =>
    rw [hc] at h
    cases h
    exact ⟨rfl, rfl⟩

theorem tripSendPackWith_cases {send : Ptr → ℕ → TripM ℕ} (hsend : TripcSends send) {c : Ptr}
    {connsent sent : UInt32} (h : (tripSendPackWith send c connsent sent).exec s = (some ts, t)) :
    (connsent < s.router.maxConnectionSendCount ∧ SameQueue s.router t.router ∧
        ts = [.packed c connsent sent]) ∨
      ¬ connsent < s.router.maxConnectionSendCount ∧
        t = s.setRouter (s.router.setSendq (sendqNq s.router.sendq s.router.heap c)) ∧
        GoesOn s.router sent ts := by
  unfold tripSendPackWith at h
  rw [Prog.exec_bind_of (exec_fetch _ _)] at h
  split_ifs at h with hmax
  · rw [Prog.exec_bind_of (exec_fetch _ _)] at h
    obtain ⟨len, u, hlen, h⟩ := Prog.exec_bind_eq_some.mp h
    cases h
    have hsame := hsend c s.router.buflen s
    rw [hlen] at hsame
    exact .inl ⟨hmax, ⟨hsame.sendq, hsame.brk, hsame.next, hsame.insend, hsame.maxPacket,
      hsame.maxConnection, hsame.packet, hsame.state⟩, rfl⟩
  · rw [Prog.exec_bind_of (exec_store _ _)] at h
    obtain ⟨rfl, hts⟩ := tripSendLimit_cases h
    exact .inr ⟨hmax, rfl, hts⟩

theorem tripSendPacked_cases {c : Ptr} {connsent sent : UInt32}
    (h : (tripSendPacked c connsent sent).exec s = (some ts, t)) :
    (s.router.sendlen ≠ 0 ∧ t = s.setRouter { s.router with sendlen := 0 } ∧
        ts = [.setError ECOMM none]) ∨
      (s.router.sendlen ≠ 0 ∧ t = s ∧ ts = [.send c connsent sent]) ∨
      s.router.sendlen = 0 ∧ t = s ∧ GoesOn s.router sent ts := by
  unfold tripSendPacked at h
  rw [Prog.exec_bind_of (exec_fetch _ _)] at h
  split_ifs at h with hnpos hlen
  · cases h
    exact .inl ⟨by rw [hnpos]; decide, rfl, rfl⟩
  · obtain ⟨rfl, rfl⟩ := callPacket_cases h
    exact .inr (.inl ⟨hlen, rfl, rfl⟩)
  · obtain ⟨rfl, hts⟩ := tripSendLimit_cases h
    exact .inr (.inr ⟨not_ne_iff.mp hlen, rfl, hts⟩)

theorem tripSendSent_cases {c : Ptr} {connsent sent : UInt32}
    (h : (tripSendSent c connsent sent code).exec s = (some ts, t)) :
    (code = 0 ∧ t = s.setRouter { s.router with sendlen := 0 } ∧
        ts = [.pack c (connsent + 1) (sent + 1)]) ∨
      (wouldBlock code = true ∧
        t = s.setRouter { s.router with sendsrc := (s.router.heap.conn c).src } ∧ ts = []) ∨
      ¬ wouldBlock code = true ∧ t = s ∧ ts = [.setError code none] := by
  unfold tripSendSent at h
  split_ifs at h with hcode hblock
  · cases h
    exact .inr (.inl ⟨hblock, rfl, rfl⟩)
  · cases h
    exact .inr (.inr ⟨hblock, rfl, rfl⟩)
  · cases h
    exact .inl ⟨not_ne_iff.mp hcode, rfl, rfl⟩

end Programs

/-- What a step runs. -/
theorem ListenState.step_eq_some {send : Ptr → ℕ → TripM ℕ} {s t : ListenState} {i : ListenInput} :
    s.step send i = some t ↔ ∃ m ts u, listenRun send i.code s.todo = some m ∧
      m.exec ⟨if callsSend s.todo then s.router.enqueue i.nq else s.router, i.o, []⟩ =
        (some ts, u) ∧
      t = ⟨u.router, ts, s.sends + if callsSend s.todo then 1 else 0, s.owes ts⟩ := by
  unfold ListenState.step
  dsimp only
  rw [Option.bind_eq_some_iff]
  constructor
  · rintro ⟨m, hm, h⟩
    split at h
    · next ts u hexec =>
      cases h
      exact ⟨m, ts, u, hm, hexec, rfl⟩
    · cases h
  · rintro ⟨m, ts, u, hm, hexec, rfl⟩
    exact ⟨m, hm, by rw [hexec]⟩

/-- **Every step is one of these.** -/
theorem ListenTurn.of_step {send : Ptr → ℕ → TripM ℕ} (hsend : TripcSends send)
    {s t : ListenState} {i : ListenInput} (h : s.step send i = some t) : ListenTurn s i t := by
  obtain ⟨m, ts, u, hm, hexec, rfl⟩ := ListenState.step_eq_some.mp h
  clear h
  obtain ⟨router, todo, sends, owed⟩ := s
  dsimp only at hm hexec ⊢
  rcases todo with _ | ⟨task, _ | ⟨task', rest⟩⟩
  · cases hm
  · cases task with
    | listenOut events =>
      cases hm
      obtain ⟨rfl, rfl | rfl | rfl⟩ := tripListenOut_cases hexec
      · exact .skip (s := ⟨router, _, sends, owed⟩) rfl
      · exact .first (s := ⟨router, _, sends, owed⟩) rfl
      · exact .again (s := ⟨router, _, sends, owed⟩) rfl
    | resend =>
      cases hm
      rcases tripListenResend_cases hexec with ⟨hcode, rfl, rfl⟩ | ⟨rfl, ⟨hblock, rfl⟩ | rfl⟩
      · exact .resent (s := ⟨router, _, sends, owed⟩) rfl hcode
      · exact .resendBlocked (s := ⟨router, _, sends, owed⟩) rfl hblock
      · exact .resendError (s := ⟨router, _, sends, owed⟩) rfl
    | sendNext sent =>
      cases hm
      obtain ⟨rfl, rfl⟩ := tripSendNext_cases hexec
      cases hc : (sendqDq router.sendq router.heap).1 with
      | none =>
        have hturn :=
          ListenTurn.empty (s := ⟨router, [.sendNext sent], sends, owed⟩) (i := i) rfl hc
        simpa [callsSend, ListenState.owes, hc] using hturn
      | some c =>
        have hturn :=
          ListenTurn.next (s := ⟨router, [.sendNext sent], sends, owed⟩) (i := i) rfl hc
        simpa [callsSend, ListenState.owes, hc] using hturn
    | pack c connsent sent =>
      cases hm
      rcases tripSendPackWith_cases hsend hexec with ⟨hmax, hsame, rfl⟩ | ⟨hmax, rfl, hts⟩
      · exact .pack (s := ⟨router, _, sends, owed⟩) rfl hmax hsame
      · exact .requeue (s := ⟨router, [.pack c connsent sent], sends, owed⟩) rfl hmax hts
    -- who packs nothing is no longer owed a place
    | packed c connsent sent =>
      cases hm
      rcases tripSendPacked_cases hexec with ⟨hlen, rfl, rfl⟩ | ⟨hlen, rfl, rfl⟩ | ⟨hlen, rfl, hts⟩
      · rw [show ListenState.owes ⟨router, [.packed c connsent sent], sends, owed⟩ _ = owed from
          if_neg hlen]
        exact .packError (s := ⟨router, [.packed c connsent sent], sends, owed⟩) rfl
      · rw [show ListenState.owes ⟨router, [.packed c connsent sent], sends, owed⟩ _ = owed from
          if_neg hlen]
        exact .send (s := ⟨router, [.packed c connsent sent], sends, owed⟩) rfl
      · rw [show ListenState.owes ⟨router, [.packed c connsent sent], sends, owed⟩ ts =
          owed.filter (· ≠ c) from if_pos hlen]
        exact .idle (s := ⟨router, [.packed c connsent sent], sends, owed⟩) rfl hts
    | send c connsent sent =>
      cases hm
      rcases tripSendSent_cases hexec with
        ⟨hcode, rfl, rfl⟩ | ⟨hblock, rfl, rfl⟩ | ⟨hblock, rfl, rfl⟩
      · exact .sent (s := ⟨router, _, sends, owed⟩) rfl hcode
      · exact .blocked (s := ⟨router, _, sends, owed⟩) rfl hblock
      · exact .sendError (s := ⟨router, _, sends, owed⟩) rfl hblock
    | _ => cases hm
  · cases task <;> cases hm

/-! ### The queue -/

theorem sendqNq_heap_brk (q : Sendq) (h : ConnHeap) (c : Ptr) : (sendqNq q h c).2.brk = h.brk :=
  sendqWrites_brk.nq q h c

theorem sendqDq_heap_brk (q : Sendq) (h : ConnHeap) : (sendqDq q h).2.2.brk = h.brk :=
  sendqWrites_brk.dq q h

/-- What does nothing to the queue leaves what it holds. -/
theorem SendqShape.same {r r' : Router} {l : List Ptr} (hq : SendqShape r.sendq r.heap l)
    (h : SameQueue r r') : SendqShape r'.sendq r'.heap l := by
  rw [h.sendq]
  exact hq.of_links h.brk.ge (fun c _ => h.next c) h.insend

/-- What putting connections into the queue leaves alone. -/
theorem enqueue_keeps (r : Router) (cs : List Ptr) :
    (r.enqueue cs).heap.brk = r.heap.brk ∧ (r.enqueue cs).state = r.state ∧
      (r.enqueue cs).packet = r.packet ∧
      (r.enqueue cs).maxPacketSendCount = r.maxPacketSendCount ∧
      (r.enqueue cs).maxConnectionSendCount = r.maxConnectionSendCount := by
  unfold Router.enqueue
  induction cs generalizing r with
  | nil => exact ⟨rfl, rfl, rfl, rfl, rfl⟩
  | cons c cs ih =>
    obtain ⟨hbrk, hkept⟩ := ih (r.setSendq (sendqNq r.sendq r.heap c))
    exact ⟨hbrk.trans (sendqNq_heap_brk _ _ _), hkept⟩

/-- They are flagged then, with those that were. -/
theorem enqueue_insend (r : Router) (cs : List Ptr) (d : Ptr) :
    ((r.enqueue cs).heap.conn d).insend = ((r.heap.conn d).insend || decide (d ∈ cs)) := by
  unfold Router.enqueue
  induction cs generalizing r with
  | nil => simp
  | cons c cs ih =>
    rw [List.foldl_cons, ih]
    show (((sendqNq r.sendq r.heap c).2.conn d).insend || _) = _
    rw [sendqNq_insend, Bool.or_assoc, ← Bool.decide_or]
    simp only [List.mem_cons]

/-- Where the tail is the last connection, they are in the queue then, with those that were; else
nothing is put into it. -/
theorem SendqShape.enqueue {r : Router} {l cs : List Ptr} (hq : SendqShape r.sendq r.heap l)
    (hcs : ∀ c ∈ cs, c < r.heap.brk) :
    ∃ l', SendqShape (r.enqueue cs).sendq (r.enqueue cs).heap l' ∧ ∀ d, d ∈ l' ↔
      d ∈ l ∨ d ∈ cs ∧ (r.heap.conn d).insend = false ∧ r.sendq.tail = l.getLast? := by
  unfold Router.enqueue
  induction cs generalizing r l with
  | nil => exact ⟨l, hq, fun d => by simp⟩
  | cons c cs ih =>
    have hnq := hq.nq (hcs c List.mem_cons_self)
    obtain ⟨l', hl', hmem⟩ := ih (r := r.setSendq (sendqNq r.sendq r.heap c)) hnq fun d hd => by
      show d < (sendqNq r.sendq r.heap c).2.brk
      rw [sendqNq_heap_brk]
      exact hcs d (List.mem_cons_of_mem c hd)
    refine ⟨l', hl', fun d => (hmem d).trans ?_⟩
    have htail : (r.setSendq (sendqNq r.sendq r.heap c)).sendq.tail = _ ↔ _ := hq.nq_tail c
    have hflag : (((r.setSendq (sendqNq r.sendq r.heap c)).heap.conn d).insend = false) ↔
        (r.heap.conn d).insend = false ∧ d ≠ c := by
      show ((sendqNq r.sendq r.heap c).2.conn d).insend = false ↔ _
      rw [sendqNq_insend, Bool.or_eq_false_iff, decide_eq_false_iff_not]
    rw [mem_sendqNq, hflag, htail, List.mem_cons]
    rcases eq_or_ne d c with rfl | hdc
    · simp
    · simp [hdc]

/-! ### What `_tripc_send` does to the queue -/

/-- The relation holds of what is written when a packet is packed: the record of a connection, but
for its link, its flag and its identifier, and the buffer. -/
structure Packs (R : Router → Router → Prop) : Prop where
  refl : ∀ r, R r r
  trans : ∀ {r r' r''}, R r r' → R r' r'' → R r r''
  conn : ∀ r (c : Ptr) {f}, Connection.Plain f → R r (r.setConn c f)
  buf : ∀ r buf, R r { r with buf := buf }

namespace Packs

variable {R : Router → Router → Prop} {α β : Type} {c : Ptr}

theorem pure (hR : Packs R) (a : α) : Framed R (Pure.pure a : TripM α) := fun s => hR.refl s.router

theorem stuck (hR : Packs R) : Framed R (Prog.stuck : TripM α) := fun s => hR.refl s.router

theorem bind (hR : Packs R) {m : TripM α} {f : α → TripM β} (hm : Framed R m)
    (hf : ∀ a, Framed R (f a)) : Framed R (m >>= f) :=
  Prog.Does.bind (R := fun s t : Env => R s.router t.router) (fun _ _ _ h h' => hR.trans h h') hm hf

theorem getConn (hR : Packs R) : Framed R (getConn c) := fun s => hR.refl s.router

theorem setConn (hR : Packs R) {f : Connection → Connection} (hf : Connection.Plain f) :
    Framed R (setConn c f) := fun s => hR.conn s.router c hf

theorem tripcSeq (hR : Packs R) : Framed R (tripcSeq c) := by
  refine hR.bind hR.getConn fun _ => hR.bind (hR.setConn fun _ => ?_) fun _ => hR.pure _
  exact ⟨rfl, rfl, rfl⟩

/-- An error ends the connection without a packet. -/
theorem tripcSetError (hR : Packs R) (eval : Errno) (msg : Option String) :
    Framed R (tripcSetError c eval msg) := by
  refine hR.bind hR.getConn fun x => Frame.ite ?_ (hR.pure ())
  refine hR.bind (fun s => hR.refl s.router) fun alloc => ?_
  refine hR.bind (hR.setConn fun _ => ⟨rfl, rfl, rfl⟩) fun _ => hR.bind (hR.pure ()) fun _ => ?_
  exact hR.bind (hR.setConn fun _ => ⟨rfl, rfl, rfl⟩) fun _ => hR.pure ()

theorem tripPackM (hR : Packs R) (blen : ℕ) (fmt : List PackDir) (as : List PackArg) :
    Framed R (tripPackM blen fmt as) := by
  refine hR.bind (fun s => hR.refl s.router) fun sign => ?_
  refine hR.bind (fun s => hR.refl s.router) fun buf => ?_
  split
  · exact hR.bind (fun s => hR.buf s.router _) fun _ => hR.pure _
  · exact hR.stuck

theorem tripcSendPing (hR : Packs R) (len : ℕ) : Framed R (tripcSendPing c len) := by
  refine hR.bind hR.getConn fun x => Frame.ite ?_ (hR.pure 0)
  refine hR.bind hR.tripcSeq fun seq => hR.bind (hR.setConn fun _ => ⟨rfl, rfl, rfl⟩) fun _ => ?_
  split
  · exact hR.stuck
  · refine hR.bind (fun s => hR.refl s.router) fun nonce => ?_
    refine hR.bind (hR.setConn fun _ => ⟨rfl, rfl, rfl⟩) fun _ => ?_
    exact hR.tripPackM _ _ _

theorem tripcSendOnce (hR : Packs R) {send : TripM ℕ} (hsend : Framed R send) :
    Framed R (tripcSendOnce c send) := by
  refine hR.bind hR.getConn fun x => Frame.ite ?_ (hR.pure 0)
  exact hR.bind hsend fun wlen => hR.bind (hR.setConn fun _ => ⟨rfl, rfl, rfl⟩) fun _ =>
    hR.pure wlen

/-- **Such a relation holds of `_tripc_send`.** -/
theorem tripcSend (hR : Packs R) (len : ℕ) : Framed R (tripcSend c len) := by
  refine hR.bind hR.getConn fun x => ?_
  have hinfo : ∀ (fmt : List PackDir) (as : UInt64 → Connection → List PackArg),
      Framed R (Libtrp.tripcSeq c >>= fun seq =>
        Libtrp.getConn c >>= fun x => Libtrp.tripPackM len fmt (as seq x)) :=
    fun fmt as => hR.bind hR.tripcSeq fun seq => hR.bind hR.getConn fun x => hR.tripPackM _ _ _
  cases x.state with
  | START | CLOSE => exact hR.bind (hR.tripcSetError _ _) fun _ => hR.pure _
  | RESOLVE | READY | END | ERROR => exact hR.pure _
  | OPEN => exact hR.tripcSendOnce (hinfo _ _)
  | CHAL => exact hR.tripcSendOnce (hinfo _ _)
  | PING | READY_PING => exact hR.tripcSendPing len

end Packs

namespace SameQueue

variable {r r' r'' : Router}

theorem refl (r : Router) : SameQueue r r :=
  ⟨rfl, rfl, fun _ => rfl, fun _ => rfl, rfl, rfl, rfl, rfl⟩

theorem trans (h : SameQueue r r') (h' : SameQueue r' r'') : SameQueue r r'' where
  sendq := h'.sendq.trans h.sendq
  brk := h'.brk.trans h.brk
  next := fun c => (h'.next c).trans (h.next c)
  insend := fun c => (h'.insend c).trans (h.insend c)
  maxPacket := h'.maxPacket.trans h.maxPacket
  maxConnection := h'.maxConnection.trans h.maxConnection
  packet := h'.packet.trans h.packet
  state := h'.state.trans h.state

/-- A write to a connection that leaves its place in the queue. -/
theorem setConn (r : Router) (c : Ptr) {f : Connection → Connection} (hf : Connection.Plain f) :
    SameQueue r (r.setConn c f) :=
  ⟨rfl, rfl, fun d => ConnHeap.conn_set_field Connection.next r.heap c d (hf _).1,
    fun d => ConnHeap.conn_set_field Connection.insend r.heap c d (hf _).2.1, rfl, rfl, rfl, rfl⟩

theorem packs : Packs SameQueue where
  refl := refl
  trans := trans
  conn := setConn
  buf := fun _ _ => ⟨rfl, rfl, fun _ => rfl, fun _ => rfl, rfl, rfl, rfl, rfl⟩

end SameQueue

/-- **`_tripc_send` puts nothing into the queue.** -/
theorem tripcSends_tripcSend : TripcSends tripcSend :=
  fun _ len => SameQueue.packs.tripcSend len

/-! ### No connection is lost -/

/-- The send queue leads to the connection. -/
def InQueue (r : Router) (c : Ptr) : Prop := ∃ l, Linked r.heap.next r.sendq.head l ∧ c ∈ l

/-- The tail of the send queue is the last connection its head leads to. -/
def TailLast (r : Router) : Prop :=
  ∃ l, Linked r.heap.next r.sendq.head l ∧ r.sendq.tail = l.getLast?

/-- The send queue leads to the connection when `sendq_nq` was called on it. -/
def Enqueues (r : Router) (c : Ptr) : Prop :=
  InQueue r c ∨ (r.heap.conn c).insend = false ∧ TailLast r

/-- **No connection that was taken is lost**: when the part has returned, and not with an
error, `_tripc_send` returned zero for it or it is in the queue again. -/
def Requeues (s : ListenState) : Prop :=
  s.router.state ≠ .ERROR → ∀ c ∈ s.owed, InQueue s.router c

/-- A connection that has sent its share can be put into the queue; and no packet blocks that was
just packed, unless its connection is in the queue then, or is put there while it is sent. -/
def RequeueGuard (s : ListenState) (i : ListenInput) : Prop :=
  s.router.state ≠ .ERROR →
    match s.todo with
    | [.pack c connsent _] => connsent < s.router.maxConnectionSendCount ∨ Enqueues s.router c
    | [.send c _ _] =>
      wouldBlock i.code = false ∨ InQueue s.router c ∨ c ∈ i.nq ∧ Enqueues s.router c
    | _ => True

section Shape

variable {r : Router} {l : List Ptr} {c : Ptr}

theorem SendqShape.inQueue_iff (hq : SendqShape r.sendq r.heap l) : InQueue r c ↔ c ∈ l := by
  refine ⟨?_, fun hc => ⟨l, hq.linked, hc⟩⟩
  rintro ⟨l', hl', hc⟩
  exact hl'.unique hq.linked ▸ hc

theorem SendqShape.enqueues_iff (hq : SendqShape r.sendq r.heap l) : Enqueues r c ↔
    c ∈ l ∨ (r.heap.conn c).insend = false ∧ r.sendq.tail = l.getLast? := by
  refine or_congr hq.inQueue_iff (and_congr_right fun _ => ?_)
  refine ⟨?_, fun ht => ⟨l, hq.linked, ht⟩⟩
  rintro ⟨l', hl', ht⟩
  exact hl'.unique hq.linked ▸ ht

end Shape

/-- The connection the part is at. -/
def ListenState.conn? (s : ListenState) : Option Ptr :=
  match s.todo with
  | [.pack c _ _] | [.packed c _ _] | [.send c _ _] => some c
  | _ => none

/-- The part has neither set an error nor returned in one. -/
def ListenState.sound (s : ListenState) : Prop :=
  (∀ e msg, s.todo ≠ [.setError e msg]) ∧ s.router.state ≠ .ERROR

/-- Who was taken is in the queue again, or is the one the part is at. -/
structure OwedInv (s : ListenState) : Prop where
  queue : ∃ l, SendqShape s.router.sendq s.router.heap l ∧
    (s.sound → ∀ c ∈ s.owed, s.conn? = some c ∨ c ∈ l)
  alloc : ∀ c, s.conn? = some c → c < s.router.heap.brk ∧ c ∈ s.owed

/-- Behind a connection the part is at none. -/
theorem GoesOn.conn?_ne {r r' : Router} {sent : UInt32} {ts : List Task} (h : GoesOn r sent ts)
    {sends : ℕ} {owed : List Ptr} {c : Ptr} :
    (ListenState.mk r' ts sends owed).conn? ≠ some c := by
  rcases h with rfl | ⟨rfl, -⟩ <;> exact nofun

/-- **One step.** -/
theorem OwedInv.step {s t : ListenState} {i : ListenInput} (hs : OwedInv s)
    (hg : RequeueGuard s i) (hnq : ∀ c ∈ i.nq, c < s.router.heap.brk) (h : ListenTurn s i t) :
    OwedInv t := by
  obtain ⟨⟨l, hl, howed⟩, halloc⟩ := hs
  obtain ⟨router, todo, sends, owed⟩ := s
  obtain ⟨l', hl', hmem⟩ := hl.enqueue hnq
  have hstate : (router.enqueue i.nq).state = router.state := (enqueue_keeps router i.nq).2.1
  cases h with
  | skip htodo | first htodo | again htodo =>
    subst htodo
    exact ⟨⟨l, hl, fun hsound => howed ⟨nofun, hsound.2⟩⟩, nofun⟩
  | resent htodo _ | resendBlocked htodo _ | resendError htodo =>
    subst htodo
    refine ⟨⟨l', hl', fun hsound c hc => ?_⟩, nofun⟩
    exact (howed ⟨nofun, hstate ▸ hsound.2⟩ c hc).imp nofun fun hcl => (hmem c).mpr (.inl hcl)
  | @next sent c htodo hdq =>
    subst htodo
    obtain ⟨l, rfl⟩ := hl.dq_eq_some hdq
    refine ⟨⟨l, hl.dq.2.1, fun hsound d hd => ?_⟩, ?_⟩
    · rcases List.mem_cons.mp hd with rfl | hd
      · exact .inl rfl
      · rcases howed ⟨nofun, hsound.2⟩ d hd with hnone | hmem
        · cases hnone
        · rcases List.mem_cons.mp hmem with rfl | hmem
          · exact .inl rfl
          · exact .inr hmem
    · rintro d ⟨⟩
      refine ⟨?_, List.mem_cons_self⟩
      show c < (sendqDq router.sendq router.heap).2.2.brk
      rw [sendqDq_heap_brk]
      exact hl.alloc c List.mem_cons_self
  | empty htodo hdq =>
    subst htodo
    have hnil : l = [] := hl.dq_eq_none hdq
    refine ⟨⟨l.tail, hl.dq.2.1, fun hsound c hc => ?_⟩, nofun⟩
    exact (howed ⟨nofun, hsound.2⟩ c hc).imp nofun fun hcl => by simp [hnil] at hcl
  | pack htodo _ hsame =>
    subst htodo
    refine ⟨⟨l, hl.same hsame, fun hsound => howed ⟨nofun, hsame.state ▸ hsound.2⟩⟩, fun c hc => ?_⟩
    exact ⟨hsame.brk ▸ (halloc c hc).1, (halloc c hc).2⟩
  | @requeue c connsent sent ts htodo hmax hts =>
    subst htodo
    refine ⟨⟨_, hl.nq (halloc c rfl).1, fun hsound d hd => .inr (mem_sendqNq.mpr ?_)⟩,
      fun d hd => absurd hd hts.conn?_ne⟩
    rcases howed ⟨nofun, hsound.2⟩ d hd with hcur | hdl
    · cases hcur
      have hput : Enqueues router c := (hg hsound.2).resolve_left hmax
      exact (hl.enqueues_iff.mp hput).imp id fun h => ⟨rfl, h⟩
    · exact .inl hdl
  | packError htodo =>
    exact ⟨⟨l, hl, fun hsound => absurd rfl (hsound.1 _ _)⟩, nofun⟩
  | send htodo =>
    subst htodo
    exact ⟨⟨l, hl, fun hsound => howed ⟨nofun, hsound.2⟩⟩, halloc⟩
  | @idle c connsent sent ts htodo hts =>
    subst htodo
    refine ⟨⟨l, hl, fun hsound d hd => ?_⟩, fun d hd => absurd hd hts.conn?_ne⟩
    -- a connection that has nothing to send is no longer owed
    obtain ⟨hd, hne⟩ := List.mem_filter.mp hd
    rcases howed ⟨nofun, hsound.2⟩ d hd with hcur | hdl
    · cases hcur
      simp at hne
    · exact .inr hdl
  | @sent c connsent sent htodo _ =>
    subst htodo
    refine ⟨⟨l', hl', fun hsound d hd => ?_⟩, fun d hd => ?_⟩
    · exact (howed ⟨nofun, hstate ▸ hsound.2⟩ d hd).imp id fun hdl => (hmem d).mpr (.inl hdl)
    · exact ⟨(enqueue_keeps router i.nq).1.symm ▸ (halloc d hd).1, (halloc d hd).2⟩
  | @blocked c connsent sent htodo hblock =>
    subst htodo
    refine ⟨⟨l', hl', fun hsound d hd => .inr ((hmem d).mpr ?_)⟩, nofun⟩
    have hsound' : router.state ≠ .ERROR := hstate ▸ hsound.2
    rcases howed ⟨nofun, hsound'⟩ d hd with hcur | hdl
    · cases hcur
      rcases (hg hsound').resolve_left (by simp [hblock]) with hin | ⟨hc, hput⟩
      · exact .inl (hl.inQueue_iff.mp hin)
      · exact (hl.enqueues_iff.mp hput).imp id fun h => ⟨hc, h⟩
    · exact .inl hdl
  | sendError htodo _ =>
    exact ⟨⟨l', hl', fun hsound => absurd rfl (hsound.1 _ _)⟩, nofun⟩

/-- A connection that was taken and has something to send is not in the queue, and is not put
there before the part returns. -/
structure Lost (s : ListenState) : Prop where
  state : s.router.state ≠ .ERROR
  queue : ∃ l c, SendqShape s.router.sendq s.router.heap l ∧ c ∉ l ∧
    c ∈ s.owed ∧ s.conn? ≠ some c ∧ (s.todo = [] ∨ (s.router.heap.conn c).insend = true)
  alloc : ∀ c, s.conn? = some c → c < s.router.heap.brk

theorem Lost.not_requeues {s : ListenState} (hs : Lost s) : ¬ Requeues s := by
  obtain ⟨hstate, ⟨l, c, hl, hc, howed, -⟩, -⟩ := hs
  exact fun h => hc (hl.inQueue_iff.mp (h hstate c howed))

/-- A flagged connection that the queue does not lead to is never enqueued. -/
theorem Lost.enqueue {r : Router} {l cs : List Ptr} {c : Ptr} (hl : SendqShape r.sendq r.heap l)
    (hcs : ∀ d ∈ cs, d < r.heap.brk) (hc : c ∉ l) (hin : (r.heap.conn c).insend = true) :
    ((r.enqueue cs).heap.conn c).insend = true ∧
      ∃ l', SendqShape (r.enqueue cs).sendq (r.enqueue cs).heap l' ∧ c ∉ l' := by
  obtain ⟨l', hl', hmem⟩ := hl.enqueue hcs
  refine ⟨by rw [enqueue_insend, hin, Bool.true_or], l', hl', fun hcl => ?_⟩
  rcases (hmem c).mp hcl with hcl | ⟨-, hout, -⟩
  · exact hc hcl
  · rw [hin] at hout
    cases hout

/-- **What is lost stays lost.** -/
theorem Lost.step {s t : ListenState} {i : ListenInput} (hs : Lost s)
    (hnq : ∀ c ∈ i.nq, c < s.router.heap.brk) (h : ListenTurn s i t) : Lost t := by
  obtain ⟨hstate, ⟨l, c, hl, hc, howed, hconn, hover⟩, halloc⟩ := hs
  obtain ⟨router, todo, sends, owed⟩ := s
  -- before a step there is something left to do, so that the connection is flagged
  have hin : todo ≠ [] → (router.heap.conn c).insend = true := fun htodo =>
    hover.resolve_left htodo
  have hkeeps := enqueue_keeps router i.nq
  have hstate' : (router.enqueue i.nq).state ≠ .ERROR := hkeeps.2.1.symm ▸ hstate
  cases h with
  | skip htodo | first htodo | again htodo | packError htodo =>
    subst htodo
    exact ⟨hstate, ⟨l, c, hl, hc, howed, nofun, .inr (hin (List.cons_ne_nil _ _))⟩, nofun⟩
  -- whoever is enqueued meanwhile, it is not this one: it is flagged
  | resent htodo _ | resendBlocked htodo _ | resendError htodo | blocked htodo _
  | sendError htodo _ =>
    subst htodo
    obtain ⟨hin', l', hl', hc'⟩ := Lost.enqueue hl hnq hc (hin (List.cons_ne_nil _ _))
    exact ⟨hstate', ⟨l', c, hl', hc', howed, nofun, .inr hin'⟩, nofun⟩
  | @next sent d htodo hdq =>
    subst htodo
    obtain ⟨l, rfl⟩ := hl.dq_eq_some hdq
    have hdc : some d ≠ some c := fun hdc => hc (Option.some.inj hdc ▸ List.mem_cons_self)
    refine ⟨hstate, ⟨l, c, hl.dq.2.1, fun hcl => hc (List.mem_cons_of_mem d hcl),
      List.mem_cons_of_mem d howed, hdc, .inr ?_⟩, ?_⟩
    · exact (sendqDq_insend (hdq ▸ hdc)).trans (hin (List.cons_ne_nil _ _))
    · rintro _ ⟨⟩
      show d < (sendqDq router.sendq router.heap).2.2.brk
      rw [sendqDq_heap_brk]
      exact hl.alloc d List.mem_cons_self
  | empty htodo hdq =>
    subst htodo
    exact ⟨hstate, ⟨l.tail, c, hl.dq.2.1, fun hcl => hc (List.mem_of_mem_tail hcl), howed, nofun,
      .inl rfl⟩, nofun⟩
  | pack htodo _ hsame =>
    subst htodo
    refine ⟨hsame.state ▸ hstate, ⟨l, c, hl.same hsame, hc, howed, hconn, .inr ?_⟩, ?_⟩
    · exact (hsame.insend c).trans (hin (List.cons_ne_nil _ _))
    · exact fun d hd => hsame.brk ▸ halloc d hd
  | @requeue d connsent sent ts htodo _ hts =>
    subst htodo
    refine ⟨hstate, ⟨_, c, hl.nq (halloc d rfl), fun hcl => ?_, howed, hts.conn?_ne, .inr ?_⟩,
      fun e he => absurd he hts.conn?_ne⟩
    · rcases mem_sendqNq.mp hcl with hcl | ⟨hcd, -⟩
      · exact hc hcl
      · exact hconn (congrArg some hcd.symm)
    · show ((sendqNq router.sendq router.heap d).2.conn c).insend = true
      rw [sendqNq_insend, hin (List.cons_ne_nil _ _), Bool.true_or]
  | send htodo =>
    subst htodo
    exact ⟨hstate, ⟨l, c, hl, hc, howed, hconn, .inr (hin (List.cons_ne_nil _ _))⟩, halloc⟩
  | @idle d connsent sent ts htodo hts =>
    subst htodo
    have hdc : c ≠ d := fun hcd => hconn (congrArg some hcd.symm)
    exact ⟨hstate, ⟨l, c, hl, hc, List.mem_filter.mpr ⟨howed, decide_eq_true hdc⟩, hts.conn?_ne,
      .inr (hin (List.cons_ne_nil _ _))⟩, fun e he => absurd he hts.conn?_ne⟩
  | sent htodo _ =>
    subst htodo
    obtain ⟨hin', l', hl', hc'⟩ := Lost.enqueue hl hnq hc (hin (List.cons_ne_nil _ _))
    exact ⟨hstate', ⟨l', c, hl', hc', howed, hconn, .inr hin'⟩,
      fun d hd => hkeeps.1.symm ▸ halloc d hd⟩

/-- A connection that is not put back is lost. -/
theorem OwedInv.break {s t : ListenState} {i : ListenInput} (hs : OwedInv s)
    (hg : ¬ RequeueGuard s i) (hnq : ∀ c ∈ i.nq, c < s.router.heap.brk) (h : ListenTurn s i t) :
    Lost t := by
  obtain ⟨⟨l, hl, -⟩, halloc⟩ := hs
  obtain ⟨router, todo, sends, owed⟩ := s
  unfold RequeueGuard at hg
  push Not at hg
  obtain ⟨hstate, hg⟩ := hg
  cases h with
  | @requeue c connsent sent ts htodo hmax hts =>
    subst htodo
    have hput : ¬ Enqueues router c := fun hput => hg (.inr hput)
    rw [hl.enqueues_iff, not_or] at hput
    -- the flag is set, and the queue does not lead to it
    refine ⟨hstate, ⟨_, c, hl.nq (halloc c rfl).1, fun hcl => ?_, (halloc c rfl).2, hts.conn?_ne,
      .inr ?_⟩, fun d hd => absurd hd hts.conn?_ne⟩
    · rcases mem_sendqNq.mp hcl with hcl | ⟨-, hcl⟩
      · exact hput.1 hcl
      · exact hput.2 hcl
    · show ((sendqNq router.sendq router.heap c).2.conn c).insend = true
      rw [sendqNq_insend, decide_eq_true rfl, Bool.or_true]
  | @blocked c connsent sent htodo hblock =>
    subst htodo
    obtain ⟨l', hl', hmem⟩ := hl.enqueue hnq
    have hout : ¬ InQueue router c := fun hin => hg (.inr (.inl hin))
    refine ⟨(enqueue_keeps router i.nq).2.1.symm ▸ hstate, ⟨l', c, hl', fun hcl => ?_,
      (halloc c rfl).2, nofun, .inl rfl⟩, nofun⟩
    rcases (hmem c).mp hcl with hcl | ⟨hc, hcl⟩
    · exact hout (hl.inQueue_iff.mpr hcl)
    · exact hg (.inr (.inr ⟨hc, hl.enqueues_iff.mpr (.inr hcl)⟩))
  | pack htodo hmax _ =>
    subst htodo
    exact absurd (.inl hmax) hg
  | sent htodo hcode =>
    subst htodo
    exact absurd (.inl (by rw [hcode]; rfl)) hg
  | sendError htodo herror =>
    subst htodo
    exact absurd (.inl (Bool.eq_false_iff.mpr herror)) hg
  | skip htodo | first htodo | again htodo | resent htodo _ | resendBlocked htodo _
  | resendError htodo | next htodo _ | empty htodo _ | packError htodo | send htodo
  | idle htodo _ =>
    subst htodo
    exact absurd trivial hg

theorem OwedInv.requeues {s : ListenState} (hs : OwedInv s) (htodo : s.todo = []) : Requeues s := by
  intro hstate c hc
  obtain ⟨l, hl, howed⟩ := hs.queue
  have hsound : s.sound := ⟨fun e msg h => absurd (htodo.symm.trans h) (by simp), hstate⟩
  refine hl.inQueue_iff.mpr ((howed hsound c hc).resolve_left ?_)
  unfold ListenState.conn?
  rw [htodo]
  exact nofun

/-- **When no connection is lost**: a run that returns loses none if and only if each connection
that has sent its share can be put into the queue, and no packet blocks that was just packed, up to
connections that are put into the queue while it is sent. -/
theorem tripListen_requeues_iff {send : Ptr → ℕ → TripM ℕ} (hsend : TripcSends send) (r : Router)
    (events : UInt32) {l : List Ptr} (hq : SendqShape r.sendq r.heap l)
    {run : List (ListenInput × ListenState)}
    (hrun : IsRun (ListenState.Step send) (.start r events) run)
    (hreturns : (ending (.start r events) run).todo = []) :
    Requeues (ending (.start r events) run) ↔ Meets RequeueGuard (.start r events) run := by
  have hinit : OwedInv (.start r events) := ⟨⟨l, hq, fun _ => nofun⟩, nofun⟩
  have hends := meets_or_lost (fun _ _ _ hs hg h => hs.step hg h.2 (.of_step hsend h.1))
    (fun _ _ _ hs hg h => hs.break hg h.2 (.of_step hsend h.1))
    (fun _ _ _ hs h => hs.step h.2 (.of_step hsend h.1)) hinit hrun
  rcases hends with ⟨hm, hinv⟩ | ⟨hm, hlost⟩
  · exact iff_of_true (hinv.requeues hreturns) hm
  · exact iff_of_false hlost.not_requeues hm

/-! ### The part ends -/

/-- How many packets were sent where the part is, and how far it is in its work for a
connection: whether that connection has sent something, and what comes next. -/
inductive Counted (limit maxConn brk : ℕ) : List Task → ℕ → ℕ → ℕ → Prop
  | listenOut {events : UInt32} : Counted limit maxConn brk [.listenOut events] 0 0 4
  | resend : Counted limit maxConn brk [.resend] 0 0 1
  | sendNext {sent : UInt32} {sends : ℕ} : sends ≤ sent.toNat + 1 → sent.toNat ≤ limit →
      Counted limit maxConn brk [.sendNext sent] sends 0 1
  | pack {c : Ptr} {connsent sent : UInt32} {sends : ℕ} : c < brk → connsent.toNat ≤ maxConn →
      sends ≤ sent.toNat + 1 → sent.toNat ≤ limit + connsent.toNat →
      Counted limit maxConn brk [.pack c connsent sent] sends (Nat.min 1 connsent.toNat) 3
  | packed {c : Ptr} {connsent sent : UInt32} {sends : ℕ} : c < brk → connsent.toNat < maxConn →
      sends ≤ sent.toNat + 1 → sent.toNat ≤ limit + connsent.toNat →
      Counted limit maxConn brk [.packed c connsent sent] sends (Nat.min 1 connsent.toNat) 2
  | send {c : Ptr} {connsent sent : UInt32} {sends : ℕ} : c < brk → connsent.toNat < maxConn →
      sends ≤ sent.toNat + 1 → sent.toNat ≤ limit + connsent.toNat →
      Counted limit maxConn brk [.send c connsent sent] sends (Nat.min 1 connsent.toNat) 1
  | setError {e : Errno} {msg : Option String} {sends : ℕ} : sends ≤ limit + maxConn + 1 →
      Counted limit maxConn brk [.setError e msg] sends 0 0
  | nil {sends : ℕ} : sends ≤ limit + maxConn + 1 → Counted limit maxConn brk [] sends 0 0

/-- The state is counted, and what is left of the packets, then of the queue, then of the work for
a connection ranks it. -/
structure Ranked (limit maxConn : ℕ) (s : ListenState) (rank : ℕ ×ₗ ℕ ×ₗ ℕ) : Prop where
  maxPacket : s.router.maxPacketSendCount.toNat ≤ limit
  maxConnection : s.router.maxConnectionSendCount.toNat = maxConn
  counted : ∃ l busy phase, SendqShape s.router.sendq s.router.heap l ∧
    Counted limit maxConn s.router.heap.brk s.todo s.sends busy phase ∧
    rank = toLex (limit + maxConn + 1 - s.sends, toLex (l.length + busy, phase))

theorem Counted.sends_le {limit maxConn brk sends busy phase : ℕ} {todo : List Task}
    (h : Counted limit maxConn brk todo sends busy phase) : sends ≤ limit + maxConn + 1 := by
  cases h <;> omega

/-- Behind a connection. -/
theorem GoesOn.counted {limit maxConn brk sends : ℕ} {r : Router} {sent : UInt32} {ts : List Task}
    (h : GoesOn r sent ts) (hmax : r.maxPacketSendCount.toNat ≤ limit)
    (hsends : sends ≤ sent.toNat + 1) (hsent : sent.toNat ≤ limit + maxConn) :
    ∃ phase ≤ 1, Counted limit maxConn brk ts sends 0 phase := by
  rcases h with rfl | ⟨rfl, hle⟩
  · exact ⟨0, Nat.zero_le 1, .nil (by omega)⟩
  · rw [UInt32.le_iff_toNat_le] at hle
    exact ⟨1, le_rfl, .sendNext hsends (hle.trans hmax)⟩

theorem ranked_mk {limit maxConn sends busy phase : ℕ} {r : Router} {todo : List Task}
    {owed l : List Ptr} (hmax : r.maxPacketSendCount.toNat ≤ limit)
    (hmaxConn : r.maxConnectionSendCount.toNat = maxConn) (hl : SendqShape r.sendq r.heap l)
    (hcounted : Counted limit maxConn r.heap.brk todo sends busy phase) :
    Ranked limit maxConn ⟨r, todo, sends, owed⟩
      (toLex (limit + maxConn + 1 - sends, toLex (l.length + busy, phase))) :=
  ⟨hmax, hmaxConn, l, busy, phase, hl, hcounted, rfl⟩

/-- A counter that does not wrap. -/
theorem toNat_counted {n : UInt32} (h : n.toNat + 1 < 2 ^ 32) : (n + 1).toNat = n.toNat + 1 := by
  rw [UInt32.toNat_add]
  exact Nat.mod_eq_of_lt h

/-- **Every step lowers the rank.** -/
theorem Ranked.step {limit maxConn : ℕ} (hlimit : 1 ≤ limit) (hconn : 1 ≤ maxConn)
    (hsum : limit + maxConn < 2 ^ 32) {s t : ListenState} {i : ListenInput}
    {rank : ℕ ×ₗ ℕ ×ₗ ℕ} (hs : Ranked limit maxConn s rank)
    (hnq : ∀ c ∈ i.nq, c < s.router.heap.brk) (h : ListenTurn s i t) :
    ∃ rank', rank' < rank ∧ Ranked limit maxConn t rank' := by
  obtain ⟨hmax, hmaxConn, l, busy, phase, hl, hcounted, rfl⟩ := hs
  obtain ⟨router, todo, sends, owed⟩ := s
  obtain ⟨l', hl', -⟩ := hl.enqueue hnq
  obtain ⟨hbrk, -, -, hmaxPacket', hmaxConnection'⟩ := enqueue_keeps router i.nq
  dsimp only at hmax hmaxConn hl hcounted ⊢
  have hmax' : (router.enqueue i.nq).maxPacketSendCount.toNat ≤ limit := hmaxPacket' ▸ hmax
  have hmaxConn' : (router.enqueue i.nq).maxConnectionSendCount.toNat = maxConn :=
    hmaxConnection' ▸ hmaxConn
  -- a rank is lower when fewer packets are left, or as many and less of the queue or the work
  have hlower : ∀ {n n' q q' p p' : ℕ}, n' < n ∨ n' = n ∧ (q' < q ∨ q' = q ∧ p' < p) →
      (toLex (n', toLex (q', p')) : ℕ ×ₗ ℕ ×ₗ ℕ) < toLex (n, toLex (q, p)) := by
    intro n n' q q' p p' h
    rwa [Prod.Lex.toLex_lt_toLex, Prod.Lex.toLex_lt_toLex]
  cases h with
  | skip htodo =>
    subst htodo
    cases hcounted
    exact ⟨_, hlower (.inr ⟨rfl, .inr ⟨rfl, by decide⟩⟩),
      ranked_mk hmax hmaxConn hl (.nil (Nat.zero_le _))⟩
  | first htodo =>
    subst htodo
    cases hcounted
    exact ⟨_, hlower (.inr ⟨rfl, .inr ⟨rfl, by decide⟩⟩), hmax, hmaxConn, l, _, _, hl,
      .sendNext (Nat.zero_le _) (Nat.zero_le _), rfl⟩
  | again htodo =>
    subst htodo
    cases hcounted
    exact ⟨_, hlower (.inr ⟨rfl, .inr ⟨rfl, by decide⟩⟩), hmax, hmaxConn, l, _, _, hl, .resend, rfl⟩
  | resent htodo _ =>
    -- from here to the end a packet is one fewer to send, whoever is enqueued meanwhile
    subst htodo
    cases hcounted
    refine ⟨_, hlower (.inl ?_), ranked_mk hmax' hmaxConn' hl' (.sendNext ?_ hlimit)⟩
    · omega
    · exact Nat.le_succ 1
  | resendBlocked htodo _ =>
    subst htodo
    cases hcounted
    refine ⟨_, hlower (.inl ?_), ranked_mk hmax' hmaxConn' hl' (.sendNext ?_ (Nat.zero_le _))⟩
    · omega
    · exact le_rfl
  | resendError htodo =>
    subst htodo
    cases hcounted
    refine ⟨_, hlower (.inl ?_), ranked_mk hmax' hmaxConn' hl' (.setError ?_)⟩
    · omega
    · exact Nat.le_add_left _ _
  | @next sent c htodo hdq =>
    subst htodo
    cases hcounted with
    | sendNext hsends hsent =>
      obtain ⟨l, rfl⟩ := hl.dq_eq_some hdq
      have hc : c < (sendqDq router.sendq router.heap).2.2.brk :=
        (sendqDq_heap_brk _ _).symm ▸ hl.alloc c List.mem_cons_self
      refine ⟨_, hlower (.inr ⟨rfl, .inl ?_⟩), hmax, hmaxConn, l, _, _, hl.dq.2.1,
        .pack hc (Nat.zero_le _) hsends (hsent.trans (Nat.le_add_right _ _)), rfl⟩
      exact Nat.lt_succ_self _
  | empty htodo hdq =>
    subst htodo
    cases hcounted with
    | sendNext hsends hsent =>
      obtain rfl : l = [] := hl.dq_eq_none hdq
      exact ⟨_, hlower (.inr ⟨rfl, .inr ⟨rfl, by decide⟩⟩), hmax, hmaxConn, [], _, _, hl.dq.2.1,
        .nil (by dsimp only; omega), rfl⟩
  | @pack c connsent sent r htodo hlt hsame =>
    subst htodo
    cases hcounted with
    | pack hc hle hsends hsent =>
      rw [UInt32.lt_iff_toNat_lt] at hlt
      have hlt' : connsent.toNat < maxConn := hmaxConn ▸ hlt
      exact ⟨_, hlower (.inr ⟨rfl, .inr ⟨rfl, by decide⟩⟩), hsame.maxPacket.symm ▸ hmax,
        hsame.maxConnection.symm ▸ hmaxConn, l, _, _, hl.same hsame,
        .packed (hsame.brk.symm ▸ hc) hlt' hsends hsent, rfl⟩
  | @requeue c connsent sent ts htodo hlt hts =>
    subst htodo
    cases hcounted with
    | pack hc hle hsends hsent =>
      rw [UInt32.lt_iff_toNat_lt] at hlt
      have hall : connsent.toNat = maxConn := by
        have hge : ¬ connsent.toNat < maxConn := hmaxConn ▸ hlt
        omega
      -- it has sent something, which pays for its place in the queue
      have hbusy : Nat.min 1 connsent.toNat = 1 := Nat.min_eq_left (hall ▸ hconn)
      have hlength := length_sendqNq_le router.sendq router.heap l c
      obtain ⟨phase, hphase, hcounted⟩ := @GoesOn.counted limit maxConn
        (sendqNq router.sendq router.heap c).2.brk _ _ _ _ hts hmax hsends (hall ▸ hsent)
      refine ⟨_, hlower (.inr ⟨rfl, ?_⟩), hmax, hmaxConn, _, _, _, hl.nq hc, hcounted, rfl⟩
      omega
  | packError htodo =>
    subst htodo
    cases hcounted with
    | packed hc hlt hsends hsent =>
      refine ⟨_, hlower (.inr ⟨rfl, ?_⟩), hmax, hmaxConn, l, _, _, hl,
        .setError (by dsimp only; omega), rfl⟩
      omega
  | send htodo =>
    subst htodo
    cases hcounted with
    | packed hc hlt hsends hsent =>
      exact ⟨_, hlower (.inr ⟨rfl, .inr ⟨rfl, by decide⟩⟩), hmax, hmaxConn, l, _, _, hl,
        .send hc hlt hsends hsent, rfl⟩
  | idle htodo hts =>
    subst htodo
    cases hcounted with
    | packed hc hlt hsends hsent =>
      obtain ⟨phase, hphase, hcounted⟩ := @GoesOn.counted limit maxConn
        router.heap.brk _ _ _ _ hts hmax hsends (by omega)
      refine ⟨_, hlower (.inr ⟨rfl, ?_⟩), hmax, hmaxConn, l, _, _, hl, hcounted, rfl⟩
      omega
  | @sent c connsent sent htodo _ =>
    subst htodo
    dsimp only
    cases hcounted with
    | send hc hlt hsends hsent =>
      have hconnsent : (connsent + 1).toNat = connsent.toNat + 1 := toNat_counted (by omega)
      have hsent' : (sent + 1).toNat = sent.toNat + 1 := toNat_counted (by omega)
      refine ⟨_, hlower (.inl ?_), ranked_mk hmax' hmaxConn' hl' (.pack (hbrk.symm ▸ hc) ?_ ?_ ?_)⟩
      all_goals omega
  | blocked htodo _ =>
    subst htodo
    dsimp only
    cases hcounted with
    | send hc hlt hsends hsent =>
      refine ⟨_, hlower (.inl ?_), ranked_mk hmax' hmaxConn' hl' (.nil ?_)⟩
      all_goals omega
  | sendError htodo _ =>
    subst htodo
    dsimp only
    cases hcounted with
    | send hc hlt hsends hsent =>
      refine ⟨_, hlower (.inl ?_), ranked_mk hmax' hmaxConn' hl' (.setError ?_)⟩
      all_goals omega

/-- The part is over. -/
def ListenState.over (s : ListenState) : Prop := s.todo = [] ∨ ∃ e msg, s.todo = [.setError e msg]

theorem ListenTurn.packet {s t : ListenState} {i : ListenInput} (h : ListenTurn s i t) :
    t.router.packet = s.router.packet := by
  have henqueue : (s.router.enqueue i.nq).packet = s.router.packet :=
    (enqueue_keeps s.router i.nq).2.2.1
  cases h with
  | resent | resendBlocked | resendError | sent | blocked | sendError => exact henqueue
  | pack _ _ hsame => exact hsame.packet
  | skip | first | again | next | empty | requeue | packError | send | idle => rfl

/-- A program that returns makes a step. -/
theorem ListenState.isSome_step {send : Ptr → ℕ → TripM ℕ} {s : ListenState} {i : ListenInput}
    {m : TripM (List Task)} (hm : listenRun send i.code s.todo = some m)
    (hexec : ∀ r : Router, r.packet = s.router.packet →
      ∃ ts u, m.exec ⟨r, i.o, []⟩ = (some ts, u)) :
    (s.step send i).isSome = true := by
  have hpacket : (if callsSend s.todo then s.router.enqueue i.nq else s.router).packet =
      s.router.packet := by
    split
    · exact (enqueue_keeps s.router i.nq).2.2.1
    · rfl
  obtain ⟨ts, u, hexec⟩ := hexec _ hpacket
  exact Option.isSome_iff_exists.mpr ⟨_, step_eq_some.mpr ⟨m, ts, u, hm, hexec, rfl⟩⟩

/-- Until it is over the part goes on, when `_tripc_send` returns. -/
theorem Ranked.progress {limit maxConn : ℕ} {send : Ptr → ℕ → TripM ℕ}
    (hreturns : ∀ c len e, ((send c len).exec e).1.isSome = true) {s : ListenState}
    {rank : ℕ ×ₗ ℕ ×ₗ ℕ} (hs : Ranked limit maxConn s rank)
    (hpacket : s.router.packet.isSome = true) (i : ListenInput) :
    s.over ∨ (s.step send i).isSome = true := by
  obtain ⟨-, -, l, busy, phase, -, hcounted, -⟩ := hs
  have hcall : ∀ {r : Router} (ts : List Task), r.packet = s.router.packet →
      (callPacket ts).exec ⟨r, i.o, []⟩ = (some ts, ⟨r, i.o, []⟩) := by
    intro r ts hr
    unfold callPacket
    rw [Prog.exec_bind_of (exec_fetch _ _), hr, if_pos hpacket]
    rfl
  have hlimit : ∀ (sent : UInt32) (e : Env),
      ∃ ts u, (tripSendLimit sent).exec e = (some ts, u) := by
    intro sent e
    unfold tripSendLimit
    rw [Prog.exec_bind_of (exec_fetch _ _)]
    split_ifs
    · exact ⟨_, _, rfl⟩
    · exact ⟨_, _, rfl⟩
  obtain ⟨router, todo, sends, owed⟩ := s
  cases hcounted with
  | nil => exact .inl (.inl rfl)
  | setError => exact .inl (.inr ⟨_, _, rfl⟩)
  | listenOut =>
    refine .inr (ListenState.isSome_step rfl fun r hr => ?_)
    unfold tripListenOut
    split_ifs
    · rw [Prog.exec_bind_of (exec_fetch _ _)]
      split_ifs
      · exact ⟨_, _, hcall _ hr⟩
      · exact ⟨_, _, rfl⟩
    · exact ⟨_, _, rfl⟩
  | resend =>
    refine .inr (ListenState.isSome_step rfl fun r hr => ?_)
    unfold tripListenResend
    split_ifs
    · exact ⟨_, _, rfl⟩
    · exact ⟨_, _, rfl⟩
    · exact ⟨_, _, rfl⟩
  | sendNext =>
    refine .inr (ListenState.isSome_step rfl fun r hr => ?_)
    unfold tripSendNext
    rw [Prog.exec_bind_of (Prog.exec_take _ _)]
    dsimp only
    split
    · exact ⟨_, _, rfl⟩
    · exact ⟨_, _, rfl⟩
  | @pack c connsent sent =>
    refine .inr (ListenState.isSome_step rfl fun r hr => ?_)
    unfold tripSendPackWith
    rw [Prog.exec_bind_of (exec_fetch _ _)]
    split_ifs
    · rw [Prog.exec_bind_of (exec_fetch _ _)]
      obtain ⟨len, hlen⟩ := Option.isSome_iff_exists.mp (hreturns c r.buflen ⟨r, i.o, []⟩)
      rw [Prog.exec_bind_of (t := ((send c r.buflen).exec ⟨r, i.o, []⟩).2) (Prod.ext hlen rfl)]
      exact ⟨_, _, rfl⟩
    · rw [Prog.exec_bind_of (exec_store _ _)]
      exact hlimit _ _
  | packed =>
    refine .inr (ListenState.isSome_step rfl fun r hr => ?_)
    unfold tripSendPacked
    rw [Prog.exec_bind_of (exec_fetch _ _)]
    split_ifs
    · exact ⟨_, _, rfl⟩
    · exact ⟨_, _, hcall _ hr⟩
    · exact hlimit _ _
  | send =>
    refine .inr (ListenState.isSome_step rfl fun r hr => ?_)
    unfold tripSendSent
    split_ifs
    · exact ⟨_, _, rfl⟩
    · exact ⟨_, _, rfl⟩
    · exact ⟨_, _, rfl⟩

/-- **The send part ends**, whatever is put into the queue meanwhile; it does not get stuck before,
and sends a bounded number of packets. -/
theorem tripListen_bounded {send : Ptr → ℕ → TripM ℕ} (hsend : TripcSends send) (r : Router)
    (events : UInt32) {l : List Ptr} (hq : SendqShape r.sendq r.heap l)
    (hconn : 1 ≤ r.maxConnectionSendCount.toNat)
    (hsum : r.maxPacketSendCount.toNat + r.maxConnectionSendCount.toNat < 2 ^ 32)
    (hends : ¬ (r.maxPacketSendCount.toNat = 0 ∧ r.maxConnectionSendCount.toNat = 2 ^ 32 - 1)) :
    Acc (fun t s => ∃ i, ListenState.Step send s i t) (.start r events) ∧
      ∀ s, Reaches (ListenState.Step send) (fun _ _ => True) (.start r events) s →
        s.sends ≤ r.maxPacketSendCount.toNat + r.maxConnectionSendCount.toNat + 2 ∧
          (r.packet.isSome = true → (∀ c len e, ((send c len).exec e).1.isSome = true) →
            s.over ∨ ∀ i, (s.step send i).isSome = true) := by
  -- the counter starts at one when the packet that was not sent before is sent
  obtain ⟨limit, hone, hmax, hle, hlimit⟩ : ∃ limit, 1 ≤ limit ∧
      r.maxPacketSendCount.toNat ≤ limit ∧ limit ≤ r.maxPacketSendCount.toNat + 1 ∧
        limit + r.maxConnectionSendCount.toNat < 2 ^ 32 := by
    rcases Nat.eq_zero_or_pos r.maxPacketSendCount.toNat with hzero | hpos
    · exact ⟨1, le_rfl, by omega, by omega, by omega⟩
    · exact ⟨_, hpos, le_rfl, Nat.le_succ _, hsum⟩
  have hstep : ∀ s i t rank, Ranked limit r.maxConnectionSendCount.toNat s rank →
      ListenState.Step send s i t →
        ∃ rank', rank' < rank ∧ Ranked limit r.maxConnectionSendCount.toNat t rank' :=
    fun s i t rank hs h => hs.step hone hconn hlimit h.2 (.of_step hsend h.1)
  have hinit : Ranked limit r.maxConnectionSendCount.toNat (.start r events) _ :=
    ranked_mk hmax rfl hq .listenOut
  refine ⟨acc_of_ranked hstep hinit, fun s hr => ?_⟩
  obtain ⟨⟨rank, hs⟩, hpacket⟩ := @Reaches.invariant _ _ (ListenState.Step send) (fun _ _ => True)
    (fun s => (∃ rank, Ranked limit r.maxConnectionSendCount.toNat s rank) ∧
      s.router.packet = r.packet)
    (by
      rintro s i t ⟨⟨rank, hs⟩, hpacket⟩ - h
      obtain ⟨rank', -, ht⟩ := hstep s i t rank hs h
      exact ⟨⟨rank', ht⟩, (ListenTurn.of_step hsend h.1).packet.trans hpacket⟩)
    _ _ ⟨⟨_, hinit⟩, rfl⟩ hr
  refine ⟨?_, fun hp hreturns => ?_⟩
  · obtain ⟨-, -, l, busy, phase, -, hcounted, -⟩ := hs
    have hsends := hcounted.sends_le
    omega
  · by_cases hover : s.over
    · exact .inl hover
    · exact .inr fun i => (hs.progress hreturns (hpacket ▸ hp) i).resolve_left hover

/-! ### Runs -/

/-- A router with one connection in its queue. -/
def Router.queued (r : Router) (x : Connection) : Router :=
  r.setSendq (sendqNq sendqInit ⟨fun _ => (x.setNext none).setInsend false, fun _ => true, 1⟩ 0)

theorem sendqRep_queued (r : Router) (x : Connection) :
    SendqRep (r.queued x).sendq (r.queued x).heap [0] :=
  (sendqRep_init fun _ => rfl).nq Nat.one_pos

/-- A connection that is to send its `OPEN`. -/
def openConfig : Config :=
  (resolvedInputs ++ [turn]).foldl (fun c i => (c.step i).getD c)
    (.idle (tripNew .ROUTER 0 fun _ => 0))

def openRouter : Router := openConfig.router.queued (openConfig.router.heap.conn 0)

/-- Where `packet->send` returns `code`. -/
def sendTurn (code : Errno) : ListenInput := ⟨[], code, plainOracle⟩

theorem isRun_sendTurns {send : Ptr → ℕ → TripM ℕ} {s : ListenState} {l : List Errno}
    (h : ((l.map sendTurn).foldlM (ListenState.step send) s).isSome = true) :
    IsRun (ListenState.Step send) s
      (trace (fun i s => (s.step send i).getD s) s (l.map sendTurn)) := by
  refine (isRun_trace h).and_meets (Meets.mono (fun s i hi => ?_)
    (@meets_trace _ _ (fun i => i.nq = []) _ _ ?_ s))
  · intro c hc
    rw [hi] at hc
    exact nomatch hc
  · intro i hi
    obtain ⟨code, -, rfl⟩ := List.mem_map.mp hi
    rfl

/-- No connection has sent its share, and no packet blocks. -/
def ListenState.unshared (s : ListenState) (i : ListenInput) : Bool :=
  match s.todo with
  | [.pack _ connsent _] => connsent < s.router.maxConnectionSendCount
  | [.send _ _ _] => !wouldBlock i.code
  | _ => true

theorem RequeueGuard.of_unshared {s : ListenState} {i : ListenInput} (h : s.unshared i = true) :
    RequeueGuard s i := by
  intro _
  unfold ListenState.unshared at h
  split at h
  · exact .inl (of_decide_eq_true h)
  · exact .inl (Bool.not_eq_true' _ ▸ h)
  · trivial

/-- The packet is sent, and there is nothing more to send. -/
theorem tripListen_requeues_sent :
    Requeues (ending (.start openRouter tripEventOut)
      (trace (fun i s => (s.step tripcSend i).getD s) (.start openRouter tripEventOut)
        ([0, 0, 0, 0, 0, 0, 0, 0].map sendTurn))) := by
  refine (tripListen_requeues_iff tripcSends_tripcSend openRouter tripEventOut
    (sendqRep_queued _ _).shape (isRun_sendTurns (by decide +kernel)) ?_).mpr ?_
  · rw [ending_trace]
    decide +kernel
  · exact Meets.mono (fun _ _ => .of_unshared)
      (by decide +kernel : Meets (fun s i => ListenState.unshared s i = true) _ _)

/-- **A packet that blocks** loses its connection. -/
theorem tripListen_loses :
    ¬ ∀ (send : Ptr → ℕ → TripM ℕ), TripcSends send →
      ∀ (r : Router) (events : UInt32) (l : List Ptr), SendqRep r.sendq r.heap l →
      ∀ run : List (ListenInput × ListenState),
        IsRun (ListenState.Step send) (.start r events) run →
        (ending (.start r events) run).todo = [] → Requeues (ending (.start r events) run) := by
  intro h
  have hlast := h tripcSend tripcSends_tripcSend openRouter tripEventOut _ (sendqRep_queued _ _) _
    (isRun_sendTurns (l := [0, 0, 0, 0, EAGAIN]) (by decide +kernel))
  rw [ending_trace] at hlast
  obtain ⟨l, hl, hmem⟩ := hlast (by decide +kernel) (by decide +kernel) 0 (by decide +kernel)
  have hhead := hl.head_eq
  rw [show Sendq.head _ = none by decide +kernel] at hhead
  rw [List.head?_eq_none_iff.mp hhead.symm] at hmem
  cases hmem

/-- A connection that always has something to send. -/
def sendOne (_ : Ptr) (_ : ℕ) : TripM ℕ := return 1

theorem tripcSends_sendOne : TripcSends sendOne := fun _ _ s => .refl s.router

/-- With the limits the router has. -/
theorem tripListen_bounded_open :
    Acc (fun t s => ∃ i, ListenState.Step sendOne s i t) (.start openRouter tripEventOut) ∧
      ∀ s, Reaches (ListenState.Step sendOne) (fun _ _ => True) (.start openRouter tripEventOut) s →
        s.sends ≤ 1024 + 128 + 2 ∧ (s.over ∨ ∀ i, (s.step sendOne i).isSome = true) := by
  obtain ⟨hends, hbound⟩ := tripListen_bounded tripcSends_sendOne openRouter tripEventOut
    (sendqRep_queued _ _).shape (by decide +kernel) (by decide +kernel) (by decide +kernel)
  refine ⟨hends, fun s hs => ⟨(hbound s hs).1, (hbound s hs).2 ?_ ?_⟩⟩
  · decide +kernel
  · exact fun _ _ _ => rfl

/-! The counter of all packets is back at zero when the packet that was not sent before is followed
by as many packets of one connection as a limit can allow. -/

namespace ListenState

variable {r : Router} {c : Ptr} {connsent sent : UInt32} {sends : ℕ} {owed : List Ptr}

/-- One step, where `packet->send` returns zero when it is called. -/
theorem Step.of_exec {s t : ListenState} {m : TripM (List Task)}
    (hm : listenRun sendOne 0 s.todo = some m)
    (hexec : m.exec ⟨s.router, plainOracle, []⟩ = (some t.todo, ⟨t.router, plainOracle, []⟩))
    (hsends : t.sends = s.sends + if callsSend s.todo then 1 else 0)
    (howed : t.owed = s.owes t.todo) : Step sendOne s (sendTurn 0) t := by
  have hrouter : (if callsSend s.todo then s.router.enqueue [] else s.router) = s.router := by
    split
    · rfl
    · rfl
  refine ⟨step_eq_some.mpr ⟨m, t.todo, ⟨t.router, plainOracle, []⟩, hm, ?_, ?_⟩, nofun⟩
  · rw [← hexec]
    exact congrArg (fun r => m.exec ⟨r, plainOracle, []⟩) hrouter
  · rw [← hsends, ← howed]

/-- The first of the queue is taken. -/
theorem reaches_sendNext {l : List Ptr} (hq : SendqRep r.sendq r.heap (c :: l)) :
    Reaches (Step sendOne) (fun _ _ => True) ⟨r, [.sendNext sent], sends, owed⟩
      ⟨r.setSendq (sendqDq r.sendq r.heap).2, [.pack c 0 sent], sends, c :: owed⟩ := by
  refine .step _ .refl trivial (.of_exec rfl ?_ rfl rfl)
  unfold tripSendNext
  rw [Prog.exec_bind_of (Prog.exec_take _ _)]
  dsimp only
  rw [show (sendqDq r.sendq r.heap).1 = some c from hq.dq.1]
  rfl

/-- One packet of the connection is sent. -/
theorem reaches_sent (hlen : r.sendlen = 0) (hp : r.packet.isSome = true)
    (hlt : connsent < r.maxConnectionSendCount) :
    Reaches (Step sendOne) (fun _ _ => True) ⟨r, [.pack c connsent sent], sends, owed⟩
      ⟨r, [.pack c (connsent + 1) (sent + 1)], sends + 1, owed⟩ := by
  have hpack : Step sendOne ⟨r, [.pack c connsent sent], sends, owed⟩ (sendTurn 0)
      ⟨{ r with sendlen := 1 }, [.packed c connsent sent], sends, owed⟩ := by
    refine .of_exec rfl ?_ rfl rfl
    unfold tripSendPackWith
    rw [Prog.exec_bind_of (exec_fetch _ _), if_pos hlt]
    rfl
  have hpacked : Step sendOne ⟨{ r with sendlen := 1 }, [.packed c connsent sent], sends, owed⟩
      (sendTurn 0) ⟨{ r with sendlen := 1 }, [.send c connsent sent], sends, owed⟩ := by
    refine .of_exec rfl ?_ rfl rfl
    unfold tripSendPacked
    rw [Prog.exec_bind_of (exec_fetch _ _), if_neg (show (1 : ℕ) ≠ NPOS by decide),
      if_pos (show (1 : ℕ) ≠ 0 by decide)]
    unfold callPacket
    rw [Prog.exec_bind_of (exec_fetch _ _), if_pos hp]
    rfl
  have hsent : Step sendOne ⟨{ r with sendlen := 1 }, [.send c connsent sent], sends, owed⟩
      (sendTurn 0) ⟨r, [.pack c (connsent + 1) (sent + 1)], sends + 1, owed⟩ := by
    refine .of_exec rfl ?_ rfl rfl
    have hr : { r with sendlen := 0 } = r := by rw [← hlen]
    unfold tripSendSent
    rw [if_neg (by decide), Prog.exec_bind_of (exec_store _ _)]
    dsimp only [Env.setRouter]
    rw [hr]
    rfl
  exact ((Reaches.refl.step _ trivial hpack).step _ trivial hpacked).step _ trivial hsent

/-- And so on, up to the limit. -/
theorem reaches_packs (hlen : r.sendlen = 0) (hp : r.packet.isSome = true) {j : ℕ}
    (hj : j ≤ r.maxConnectionSendCount.toNat) :
    Reaches (Step sendOne) (fun _ _ => True) ⟨r, [.pack c 0 sent], sends, owed⟩
      ⟨r, [.pack c (UInt32.ofNat j) (sent + UInt32.ofNat j)], sends + j, owed⟩ := by
  induction j with
  | zero =>
    rw [show UInt32.ofNat 0 = 0 from rfl, UInt32.add_zero]
    exact .refl
  | succ j ih =>
    have hlt : UInt32.ofNat j < r.maxConnectionSendCount := by
      have hj' : j < UInt32.size := Nat.lt_of_lt_of_le hj r.maxConnectionSendCount.toNat_lt.le
      rw [UInt32.lt_iff_toNat_lt, UInt32.toNat_ofNat_of_lt' hj']
      exact hj
    rw [UInt32.ofNat_add, ← UInt32.add_assoc]
    exact (ih (Nat.le_of_succ_le hj)).trans (reaches_sent hlen hp hlt)

theorem tripSendLimit_next {e : Env} (hle : sent ≤ e.router.maxPacketSendCount) :
    (tripSendLimit sent).exec e = (some [.sendNext sent], e) := by
  unfold tripSendLimit
  rw [Prog.exec_bind_of (exec_fetch _ _), if_neg (UInt32.not_lt.mpr hle)]
  rfl

/-- With the limit reached the connection is at the end of the queue again. -/
theorem reaches_requeue (hle : sent ≤ r.maxPacketSendCount) :
    Reaches (Step sendOne) (fun _ _ => True)
      ⟨r, [.pack c r.maxConnectionSendCount sent], sends, owed⟩
      ⟨r.setSendq (sendqNq r.sendq r.heap c), [.sendNext sent], sends, owed⟩ := by
  refine .step _ .refl trivial (.of_exec rfl ?_ rfl rfl)
  unfold tripSendPackWith
  rw [Prog.exec_bind_of (exec_fetch _ _), if_neg (UInt32.lt_irrefl _),
    Prog.exec_bind_of (exec_store _ _)]
  exact tripSendLimit_next hle

/-- Behind the packet that was not sent before, where the counter is at one. -/
theorem reaches_wraps_next (hq : SendqRep r.sendq r.heap [c]) (hlen : r.sendlen = 0)
    (hp : r.packet.isSome = true) (hmax : r.maxConnectionSendCount = 4294967295) :
    ∃ s, Reaches (Step sendOne) (fun _ _ => True) ⟨r, [.sendNext 1], sends, owed⟩ s ∧
      s.sends = sends + r.maxConnectionSendCount.toNat + 2 := by
  have hzero : 1 + r.maxConnectionSendCount = 0 := by
    rw [hmax]
    decide
  have hmax' : r.maxConnectionSendCount.toNat = 4294967295 := congrArg UInt32.toNat hmax
  -- the whole limit of the connection
  have hall := @reaches_packs (r.setSendq (sendqDq r.sendq r.heap).2) c 1 sends (c :: owed) hlen hp
    r.maxConnectionSendCount.toNat le_rfl
  rw [UInt32.ofNat_toNat, hzero] at hall
  -- and two packets more
  have hqueue : SendqRep _ _ [c] :=
    hq.dq.2.nq (c := c) ((sendqDq_heap_brk r.sendq r.heap).symm ▸ hq.alloc c List.mem_cons_self)
  refine ⟨_, (((reaches_sendNext hq).trans hall).trans (reaches_requeue (UInt32.zero_le))).trans
    ((reaches_sendNext hqueue).trans (@reaches_packs _ c 0 _ _ ?_ ?_ 2 ?_)), ?_⟩
  · exact hlen
  · exact hp
  · exact hmax'.symm ▸ (by decide)
  · rfl

theorem tripListenOut_resend {e : Env} (hlen : e.router.sendlen ≠ 0)
    (hp : e.router.packet.isSome = true) :
    (tripListenOut tripEventOut).exec e = (some [.resend], e) := by
  unfold tripListenOut callPacket
  rw [if_pos (by decide), Prog.exec_bind_of (exec_fetch _ _), if_pos hlen,
    Prog.exec_bind_of (exec_fetch _ _), if_pos hp]
  rfl

/-- **The counter is back at zero** when one connection sends the rest of its range, behind a
packet that was not sent before: then more is sent. -/
theorem reaches_wraps (hq : SendqRep r.sendq r.heap [c]) (hlen : r.sendlen ≠ 0)
    (hp : r.packet.isSome = true) (hmax : r.maxConnectionSendCount = 4294967295) :
    ∃ s, Reaches (Step sendOne) (fun _ _ => True) (.start r tripEventOut) s ∧
      s.sends = r.maxConnectionSendCount.toNat + 3 := by
  have hout : Step sendOne (.start r tripEventOut) (sendTurn 0) ⟨r, [.resend], 0, []⟩ :=
    .of_exec rfl (tripListenOut_resend hlen hp) rfl rfl
  have hresend : Step sendOne ⟨r, [.resend], 0, []⟩ (sendTurn 0)
      ⟨{ r with sendlen := 0 }, [.sendNext 1], 1, []⟩ := .of_exec rfl rfl rfl rfl
  obtain ⟨s, hs, hsends⟩ := @reaches_wraps_next { r with sendlen := 0 } c 1 [] hq rfl hp hmax
  refine ⟨s, .head trivial hout (.head trivial hresend hs), ?_⟩
  rw [hsends]
  dsimp only
  omega

end ListenState

/-- A packet was not sent before, and the limits are at the ends of their range. -/
def wrapRouter : Router :=
  { openRouter with sendlen := 1, maxPacketSendCount := 0, maxConnectionSendCount := 4294967295 }

/-- **With the two limits at the ends of their range** more packets are sent than both allow. -/
theorem tripListen_wraps :
    ¬ ∀ (send : Ptr → ℕ → TripM ℕ), TripcSends send →
      ∀ (r : Router) (events : UInt32) (l : List Ptr), SendqRep r.sendq r.heap l →
      1 ≤ r.maxConnectionSendCount.toNat →
      r.maxPacketSendCount.toNat + r.maxConnectionSendCount.toNat < 2 ^ 32 →
        Acc (fun t s => ∃ i, ListenState.Step send s i t) (.start r events) ∧
          ∀ s, Reaches (ListenState.Step send) (fun _ _ => True) (.start r events) s →
            s.sends ≤ r.maxPacketSendCount.toNat + r.maxConnectionSendCount.toNat + 2 := by
  intro h
  have hq : SendqRep wrapRouter.sendq wrapRouter.heap [0] :=
    sendqRep_queued openConfig.router (openConfig.router.heap.conn 0)
  obtain ⟨s, hs, hsends⟩ := ListenState.reaches_wraps hq Nat.one_ne_zero (by decide +kernel) rfl
  have hbound : s.sends ≤ 4294967297 :=
    (h sendOne tripcSends_sendOne wrapRouter tripEventOut _ hq (by decide) (by decide)).2 s hs
  rw [hsends] at hbound
  exact absurd hbound (by decide)

end Libtrp
