import Libtrp.TripSend
import Libtrp.TripTies

/-!
# What is not about connections

Most calls and tasks of the router are not about a connection: they write to other
fields, set timers of their own, and take the first connection off the send queue.

What is about a connection may put it behind the send queue.  Only the send loop takes one
off, the first, and only the end of a connection takes one out.  The queue may lead astray
once a connection at its tail was taken out, but it never leads out of what was allocated.

## Main definitions

* `Apart R`, `Aside R` — a relation that holds of what is not about connections.
* `Linking R` — and where a connection is put into the send queue.
* `Router.Sendable` — the send queue leads to connections that are there.
* `Sendables c` — and so do the tasks that send.
* `Queues c i c'` — what a step does to a send queue that is one.

## Main results

* `Apart.api`, `Aside.task` — **the calls and tasks that are not about connections.**
* `Linking.api`, `Linking.task` — **and those that may put one into the send queue.**
* `Sendables.step` — every step keeps what the send queue leads to.
* `trip_sends_in_order` — **what waits is sent in order**, where nothing is left behind.

## References

`src/trip.c`, `src/sendq.c`.
-/

namespace Libtrp

open Lib

/-! ### What is not about connections -/

/-- A relation of the router before and after that holds of writes to the other fields and
of timers that are not a connection's. -/
structure Apart (R : Router → Router → Prop) : Prop where
  trans : ∀ {r r' r''}, R r r' → R r' r'' → R r r''
  of_eq : ∀ {r r' : Router}, r'.heap = r.heap → r'.conn = r.conn → r'.sendq = r.sendq →
    r'.resolveq = r.resolveq → r'.timers = r.timers → r'.buflen = r.buflen → R r r'
  cancel : ∀ r id, R r (r.setTimers (tripCancelTimeout id r.timers))
  timer : ∀ (r : Router) (alloc : Bool) (now now' : ℕ) (ms : ℤ) {cb : Callback}, cb.conn? = none →
    R r (r.setTimers (tripSetTimeout alloc now now' ms (some cb) r.timers).2)

/-- And where the send queue gives up its first. -/
structure Aside (R : Router → Router → Prop) : Prop extends Apart R where
  dq : ∀ r, R r (r.setSendq (sendqDq r.sendq r.heap).2)

namespace Apart

variable {R : Router → Router → Prop} {α β : Type}

theorem refl (hR : Apart R) (r : Router) : R r r := hR.of_eq rfl rfl rfl rfl rfl rfl

theorem bind (hR : Apart R) {m : TripM α} {f : α → TripM β} (hm : Framed R m)
    (hf : ∀ a, Framed R (f a)) : Framed R (m >>= f) :=
  Prog.Does.bind (R := fun s t : Env => R s.router t.router) (fun _ _ _ h h' => hR.trans h h') hm hf

theorem pure (hR : Apart R) (a : α) : Framed R (Pure.pure a : TripM α) := fun s => hR.refl s.router

theorem stuck (hR : Apart R) : Framed R (Prog.stuck : TripM α) := fun s => hR.refl s.router

theorem fetch (hR : Apart R) (f : Router → α) : Framed R (Libtrp.fetch f) :=
  fun s => hR.refl s.router

theorem tripmAlloc (hR : Apart R) : Framed R Libtrp.tripmAlloc := fun s => hR.refl s.router

theorem triptimeNow (hR : Apart R) : Framed R Libtrp.triptimeNow := fun s => hR.refl s.router

/-- A write to other fields. -/
theorem store (hR : Apart R) {f : Router → Router} (hh : ∀ r, (f r).heap = r.heap)
    (hm : ∀ r, (f r).conn = r.conn) (hq : ∀ r, (f r).sendq = r.sendq)
    (hs : ∀ r, (f r).resolveq = r.resolveq) (ht : ∀ r, (f r).timers = r.timers)
    (hl : ∀ r, (f r).buflen = r.buflen) : Framed R (Libtrp.store f) :=
  fun s => hR.of_eq (hh s.router) (hm s.router) (hq s.router) (hs s.router) (ht s.router)
    (hl s.router)

theorem timerM (hR : Apart R) {cb : Callback} (hcb : cb.conn? = none) (ms : ℤ) :
    Framed R (tripSetTimeoutM ms cb) := by
  intro s
  obtain ⟨now, now', t, hexec, ht⟩ := exec_tripSetTimeoutM ms cb s
  rw [hexec, ht]
  exact hR.timer _ _ now now' ms hcb

theorem cancelM (hR : Apart R) (id : Ptr) : Framed R (tripCancelTimeoutM id) :=
  fun s => hR.cancel s.router id

theorem tripSetDeadline (hR : Apart R) (ms : ℤ) : Framed R (Libtrp.tripSetDeadline ms) :=
  hR.bind hR.triptimeNow fun _ => hR.store (fun _ => rfl) (fun _ => rfl) (fun _ => rfl)
    (fun _ => rfl) (fun _ => rfl) fun _ => rfl

theorem tripArmState (hR : Apart R) (ms : ℤ) : Framed R (Libtrp.tripArmState ms) :=
  hR.bind (hR.timerM rfl ms) fun _ => hR.store (fun _ => rfl) (fun _ => rfl) (fun _ => rfl)
    (fun _ => rfl) (fun _ => rfl) fun _ => rfl

theorem callPacket (hR : Apart R) (ts : List Task) : Framed R (Libtrp.callPacket ts) :=
  hR.bind (hR.fetch _) fun _ => Frame.ite (hR.pure ts) hR.stuck

theorem tripTimeoutCancelState (hR : Apart R) : Framed R Libtrp.tripTimeoutCancelState := by
  refine hR.bind (hR.fetch _) fun e => ?_
  cases e with
  | none => exact hR.pure ()
  | some e =>
    refine hR.bind (hR.cancelM e) fun _ => hR.store ?_ ?_ ?_ ?_ ?_ ?_
    all_goals exact fun _ => rfl

theorem tripLeaveState (hR : Apart R) (state : TriprState) :
    Framed R (Libtrp.tripLeaveState state) := by
  cases state with
  | BIND | CLOSE | UNBIND => exact hR.bind (hR.tripSetDeadline 0) fun _ => hR.tripTimeoutCancelState
  | START | LISTEN | END | ERROR => exact hR.pure ()

/-- **Entering a state**; two of them clear the map. -/
theorem tripEnterState (hR : Apart R) {state : TriprState}
    (hclose : state = .CLOSE ∨ state = .UNBIND → ∀ ms, Framed R (tripClose ms)) :
    Framed R (Libtrp.tripEnterState state) := by
  cases state with
  | START | END => exact hR.pure []
  | LISTEN =>
    refine hR.bind (hR.store ?_ ?_ ?_ ?_ ?_ ?_) fun _ => hR.pure []
    all_goals exact fun _ => rfl
  | BIND =>
    refine hR.bind (hR.fetch _) fun ms => hR.bind (hR.tripSetDeadline ms) fun _ => ?_
    exact hR.bind (hR.tripArmState ms) fun _ => hR.callPacket _
  | CLOSE =>
    refine hR.bind (hR.fetch _) fun ms => hR.bind (hclose (Or.inl rfl) ms) fun _ => ?_
    exact hR.bind (hR.tripSetDeadline ms) fun _ => hR.bind (hR.tripArmState ms) fun _ => hR.pure []
  | UNBIND => exact hR.bind (hclose (Or.inr rfl) 0) fun _ => hR.callPacket _
  | ERROR =>
    refine hR.bind (hR.fetch _) fun packet => hR.bind (hR.fetch _) fun statetimer => ?_
    cases packet with
    | none => exact hR.stuck
    | some packet =>
      refine Frame.ite (hR.bind (hR.fetch _) fun ms => ?_) (hR.pure [])
      exact hR.bind (hR.tripArmState ms) fun _ => hR.pure _

theorem tripSetState (hR : Apart R) (hclose : ∀ ms, Framed R (tripClose ms)) (state : TriprState) :
    Framed R (Libtrp.tripSetState state) := by
  refine hR.bind (hR.fetch _) fun old => hR.bind (hR.tripLeaveState old) fun _ => ?_
  refine hR.bind (hR.store ?_ ?_ ?_ ?_ ?_ ?_) fun _ => hR.tripEnterState fun _ => hclose
  all_goals exact fun _ => rfl

theorem tripSetError (hR : Apart R) (eval : Errno) (msg : Option String) :
    Framed R (Libtrp.tripSetError eval msg) := by
  refine hR.bind (hR.fetch _) fun state => Frame.ite (hR.bind hR.tripmAlloc fun alloc => ?_)
    (hR.pure [])
  refine hR.bind (hR.store ?_ ?_ ?_ ?_ ?_ ?_) fun _ => hR.pure _
  all_goals exact fun _ => rfl

theorem tripFillMissing (hR : Apart R) : Framed R Libtrp.tripFillMissing := by
  refine hR.bind (hR.fetch _) fun packet => Frame.ite ?_ (hR.fetch _)
  refine hR.bind hR.tripmAlloc fun alloc => hR.bind (fun s => ?_) fun _ => hR.fetch _
  cases alloc <;> exact hR.of_eq rfl rfl rfl rfl rfl rfl

theorem tripActionSwitch (hR : Apart R) (fd : ℤ) (events : UInt32) :
    Framed R (Libtrp.tripActionSwitch fd events) := by
  refine hR.bind (hR.fetch _) fun state => ?_
  cases state with
  | START =>
    refine Frame.ite (hR.pure _) (hR.bind hR.tripFillMissing fun there => Frame.ite (hR.pure _) ?_)
    refine hR.bind (hR.fetch _) fun hooks => Frame.ite (hR.pure _) ?_
    refine hR.bind (hR.store ?_ ?_ ?_ ?_ ?_ ?_) fun _ => hR.pure _
    all_goals exact fun _ => rfl
  | BIND =>
    refine Frame.ite (hR.pure _) (hR.bind hR.triptimeNow fun _ => hR.bind (hR.fetch _) fun _ => ?_)
    exact Frame.ite (hR.pure _) (hR.bind (hR.tripArmState _) fun _ => hR.pure [])
  | LISTEN | CLOSE | END | ERROR => exact hR.pure _
  | UNBIND =>
    exact hR.bind hR.triptimeNow fun _ =>
      hR.bind (hR.fetch _) fun _ => Frame.ite (hR.pure _) (hR.pure [])

theorem tripTimeout (hR : Apart R) : Framed R Libtrp.tripTimeout :=
  hR.bind hR.triptimeNow fun _ => hR.bind (hR.fetch _) fun _ => hR.pure _

theorem tripAction (hR : Apart R) (fd : ℤ) (events : UInt32) :
    Framed R (Libtrp.tripAction fd events) :=
  Frame.ite (hR.bind hR.tripTimeout fun _ => hR.pure _) (hR.tripActionSwitch fd events)

/-- Asking to send when there is something to send. -/
theorem sendLater (hR : Apart R) (ms : ℤ) : Framed R (do
    let has ← Libtrp.fetch fun r => sendqHas r.sendq
    if has then
      let _ ← tripSetTimeoutM ms .tripSendImmediately
      return ([] : List Task)
    else return []) :=
  hR.bind (hR.fetch _) fun _ =>
    Frame.ite (hR.bind (hR.timerM rfl ms) fun _ => hR.pure []) (hR.pure [])

/-- **The calls**, but for those about connections. -/
theorem api (hR : Apart R) {api : Api} (hopen : api ≠ .openConnection)
    (hresolve : ∀ key src err emsg, api ≠ .resolve key src err emsg)
    (hseg : ∀ src len buf, api ≠ .seg src len buf) : Framed R api.run := by
  cases api with
  | openConnection => exact absurd rfl hopen
  | resolve key src err emsg => exact absurd rfl (hresolve key src err emsg)
  | seg src len buf => exact absurd rfl (hseg src len buf)
  | start =>
    refine hR.bind (fun s => ?_) fun _ => hR.bind (hR.fetch _) fun state =>
      Frame.ite (hR.tripAction _ 0) (hR.pure [])
    show R s.router (if s.router.state = .END then { s.router with state := .START } else s.router)
    split <;> exact hR.of_eq rfl rfl rfl rfl rfl rfl
  | action fd events => exact hR.tripAction fd events
  | timeout => exact hR.tripTimeout
  | stop =>
    refine hR.bind (hR.fetch _) fun state => ?_
    cases state with
    | START | BIND | LISTEN =>
      exact hR.bind (hR.timerM rfl 0) fun e => Frame.ite (hR.pure _) (hR.pure [])
    | CLOSE | UNBIND | END | ERROR => exact hR.pure []
  | setopt opt =>
    refine hR.bind (fun s => ?_) fun _ => hR.pure []
    show R s.router (tripSetopt opt s.router)
    cases opt with
    | PACKET packet udp => cases packet <;> exact hR.of_eq rfl rfl rfl rfl rfl rfl
    | _ => exact hR.of_eq rfl rfl rfl rfl rfl rfl
  | setTimeout ms => exact hR.bind (hR.timerM rfl ms) fun _ => hR.pure []
  | cancelTimeout id =>
    exact hR.bind (hR.fetch _) fun _ =>
      Frame.ite (hR.bind (hR.cancelM id) fun _ => hR.pure []) hR.stuck
  | ready => exact hR.bind (hR.fetch _) fun _ => Frame.ite (hR.pure _) (hR.pure _)
  | unready err => exact Frame.ite (hR.pure _) (hR.pure _)
  | error eval msg => exact hR.pure _
  | watch fd events =>
    have hflag : ∀ val, Framed R (Libtrp.store fun r => r.setFlag triprFlagAlwaysReady val) := by
      intro val
      apply hR.store
      all_goals exact fun _ => rfl
    refine Frame.ite (Frame.ite (hR.bind (hflag false) fun _ => hR.pure []) ?_) (hR.pure [])
    exact hR.bind (hflag true) fun _ => hR.sendLater 0

/-- **The tasks** that are not about connections, do not change the state and take nothing off
the send queue. -/
theorem idle (hR : Apart R) {t : Task} (h : t.idles = true) (hnext : ∀ sent, t ≠ .sendNext sent)
    (code : Errno) : Framed R (t.run code) := by
  have hzero : Framed R (Libtrp.store fun r => { r with sendlen := 0 }) := by
    apply hR.store
    all_goals exact fun _ => rfl
  have hlimit : ∀ sent, Framed R (tripSendLimit sent) :=
    fun sent => hR.bind (hR.fetch _) fun _ => Frame.ite (hR.pure []) (hR.pure _)
  cases t with
  | walk | callback | pack | closeConnection | freeConnection | setState =>
    exact absurd h Bool.false_ne_true
  | bind | unbind | resolve | connection | reject | user => exact hR.pure []
  | read fd events =>
    exact Frame.ite (hR.callPacket _) (Frame.ite (hR.pure _) (hR.pure _))
  | resend =>
    exact Frame.ite (Frame.ite (hR.pure _) (hR.pure _)) (hR.bind hzero fun _ => hR.pure _)
  | send c connsent sent =>
    refine Frame.ite (Frame.ite (hR.bind (hR.fetch _) fun x => ?_) (hR.pure _))
      (hR.bind hzero fun _ => hR.pure _)
    refine hR.bind (hR.store ?_ ?_ ?_ ?_ ?_ ?_) fun _ => hR.pure []
    all_goals exact fun _ => rfl
  | setError eval msg => exact hR.tripSetError eval msg
  | unbindArm =>
    refine hR.bind (hR.fetch _) fun ms => hR.bind (hR.tripSetDeadline ms) fun _ => ?_
    exact hR.bind (hR.tripArmState ms) fun _ => hR.pure []
  | action events =>
    exact hR.bind (hR.fetch _) fun _ => Frame.ite (hR.pure []) (hR.tripActionSwitch _ events)
  | listen fd events => exact Frame.ite (hR.callPacket _) (hR.pure _)
  | listenOut events =>
    exact Frame.ite (hR.bind (hR.fetch _) fun _ => Frame.ite (hR.callPacket _) (hR.pure _))
      (hR.pure [])
  | sendNext sent => exact absurd rfl (hnext sent)
  | packed c connsent sent =>
    refine hR.bind (hR.fetch _) fun sendlen => Frame.ite (hR.bind hzero fun _ => hR.pure _) ?_
    exact Frame.ite (hR.callPacket _) (hlimit sent)
  | closeDeadline =>
    exact hR.bind hR.triptimeNow fun _ =>
      hR.bind (hR.fetch _) fun _ => Frame.ite (hR.pure _) (hR.pure [])
  | sendImmediately => exact hR.sendLater 1

end Apart

namespace Aside

variable {R : Router → Router → Prop}

/-- **The tasks** that are not about connections and do not change the state. -/
theorem idle (hR : Aside R) {t : Task} (h : t.idles = true) (code : Errno) :
    Framed R (t.run code) := by
  by_cases hnext : ∃ sent, t = .sendNext sent
  · obtain ⟨sent, rfl⟩ := hnext
    refine hR.bind (fun s => hR.dq s.router) fun c => ?_
    cases c <;> exact hR.pure _
  · exact hR.toApart.idle h (fun sent heq => hnext ⟨sent, heq⟩) code

/-- **The tasks**, but for those about connections. -/
theorem task (hR : Aside R) (hclose : ∀ ms, Framed R (tripClose ms)) {t : Task}
    (h : t.idles = true ∨ ∃ state, t = .setState state) (code : Errno) : Framed R (t.run code) := by
  obtain h | ⟨state, rfl⟩ := h
  · exact hR.idle h code
  · exact hR.tripSetState hclose state

end Aside

/-! ### Where the send queue leads -/

/-- The links and the flags of the send queue are the same, but for connections that are new,
and there is as much room for what is sent. -/
structure SameSendq (r r' : Router) : Prop where
  brk : r.heap.brk ≤ r'.heap.brk
  room : r'.buflen = r.buflen
  sendq : r'.sendq = r.sendq
  links : ∀ d, (r'.heap.next d = r.heap.next d ∧
    (r'.heap.conn d).insend = (r.heap.conn d).insend) ∨
    r.heap.brk ≤ d ∧ r'.heap.next d = none ∧ (r'.heap.conn d).insend = false

namespace SameSendq

variable {r r' r'' : Router}

theorem of_eq (hh : r'.heap = r.heap) (hl : r'.buflen = r.buflen) (hq : r'.sendq = r.sendq) :
    SameSendq r r' := ⟨by rw [hh], hl, hq, fun d => Or.inl (by rw [hh]; exact ⟨rfl, rfl⟩)⟩

theorem trans (h : SameSendq r r') (h' : SameSendq r' r'') : SameSendq r r'' := by
  refine ⟨h.brk.trans h'.brk, h'.room.trans h.room, h'.sendq.trans h.sendq, fun d => ?_⟩
  rcases h'.links d with ⟨hnext', hinsend'⟩ | ⟨hnew, hnone⟩
  · rw [hnext', hinsend']
    exact h.links d
  · exact Or.inr ⟨h.brk.trans hnew, hnone⟩

/-- A write that keeps the links and the flags of connections. -/
theorem setConn (r : Router) (c : Ptr) {f : Connection → Connection}
    (hf : ∀ x, (f x).next = x.next ∧ (f x).insend = x.insend) : SameSendq r (r.setConn c f) where
  brk := le_rfl
  room := rfl
  sendq := rfl
  links := fun d => Or.inl
    ⟨ConnHeap.conn_set_field Connection.next r.heap c d (hf _).1,
      ConnHeap.conn_set_field Connection.insend r.heap c d (hf _).2⟩

/-- A connection is made, and is in no queue. -/
theorem fresh (hf : Fresh r r') (hl : r'.buflen = r.buflen)
    (hnext : r'.heap.next r.heap.brk = none) : SameSendq r r' where
  brk := hf.brk.ge.trans' (Nat.le_succ _)
  room := hl
  sendq := hf.sendq
  links := fun d => by
    rcases eq_or_ne d r.heap.brk with rfl | hd
    · exact Or.inr ⟨le_rfl, hnext, hf.insend⟩
    · left
      unfold ConnHeap.next
      rw [hf.kept d hd]
      exact ⟨rfl, rfl⟩

/-- The connection map writes identifiers only. -/
theorem setMap (r : Router) (c : Ptr) (alloc : Bool) (x y : UInt32) :
    SameSendq r (r.setMap (connmapAdd r.conn r.heap c alloc x y).2) := by
  have hheap := connmapAdd_heap r.conn r.heap c alloc x y
  have hbrk := connmapAdd_brk r.conn r.heap c alloc x y
  refine ⟨hbrk.ge, rfl, rfl, fun d => Or.inl ?_⟩
  show (connmapAdd r.conn r.heap c alloc x y).2.2.next d = _ ∧
    ((connmapAdd r.conn r.heap c alloc x y).2.2.conn d).insend = _
  obtain heq | ⟨id, heq⟩ := hheap
  · rw [heq]
    exact ⟨rfl, rfl⟩
  · rw [heq]
    exact ⟨ConnHeap.conn_set_field Connection.next r.heap c d rfl,
      ConnHeap.conn_set_field Connection.insend r.heap c d rfl⟩

theorem freeConn (r : Router) (c : Ptr) : SameSendq r (r.freeConn c) :=
  ⟨le_rfl, rfl, rfl, fun _ => Or.inl ⟨rfl, rfl⟩⟩

/-- A queue stays one. -/
theorem queue (h : SameSendq r r') {l : List Ptr} (hl : SendqRep r.sendq r.heap l) :
    SendqRep r'.sendq r'.heap l := by
  have hold : ∀ d ∈ l, r'.heap.next d = r.heap.next d ∧
      (r'.heap.conn d).insend = (r.heap.conn d).insend :=
    fun d hd => (h.links d).resolve_right fun hnew => absurd (hl.alloc d hd) hnew.1.not_gt
  rw [h.sendq]
  refine ⟨hl.linked.congr fun d hd => (hold d hd).1, hl.tail, fun d => ?_,
    fun d hd => (hl.alloc d hd).trans_le h.brk⟩
  rcases h.links d with ⟨-, hsame⟩ | ⟨hnew, -, hnone⟩
  · rw [hsame]
    exact hl.insend d
  · rw [hnone]
    exact iff_of_false Bool.false_ne_true fun hd => absurd (hl.alloc d hd) hnew.not_gt

end SameSendq

/-- A relation of the router before and after that holds where the send queue is the same, and
where a connection that is there is put into it. -/
structure Linking (R : Router → Router → Prop) : Prop where
  trans : ∀ {r r' r''}, R r r' → R r' r'' → R r r''
  brk : ∀ {r r'}, R r r' → r.heap.brk ≤ r'.heap.brk
  same : ∀ {r r'}, SameSendq r r' → R r r'
  nq : ∀ {r : Router} {c}, c < r.heap.brk → R r (r.setSendq (sendqNq r.sendq r.heap c))

namespace Linking

variable {R : Router → Router → Prop} {r r' : Router} {c : Ptr}

theorem apart (hR : Linking R) : Apart R where
  trans := hR.trans
  of_eq := fun hh _ hq _ _ hl => hR.same (.of_eq hh hl hq)
  cancel := fun _ _ => hR.same (.of_eq rfl rfl rfl)
  timer := fun _ _ _ _ _ _ _ => hR.same (.of_eq rfl rfl rfl)

theorem refl (hR : Linking R) (r : Router) : R r r := hR.apart.refl r

theorem of_eq (hR : Linking R) (hh : r'.heap = r.heap) (hl : r'.buflen = r.buflen)
    (hq : r'.sendq = r.sendq) : R r r' := hR.same (.of_eq hh hl hq)

/-- The steps of a connection enqueue no other one. -/
theorem acts (hR : Linking R) (h : Acts c r r') (hc : c < r.heap.brk) : R r r' := by
  induction h with
  | refl => exact hR.refl r
  | conn hf _ ih => exact hR.trans ih (hR.same (.setConn _ c fun x => ⟨(hf x).1, (hf x).2.1⟩))
  | nq _ ih => exact hR.trans ih (hR.nq (hc.trans_le (hR.brk ih)))
  | timer _ _ _ _ _ _ ih | cancel _ _ ih | buf _ _ ih =>
    exact hR.trans ih (hR.of_eq rfl rfl rfl)

/-- A program of a connection that is there. -/
theorem runs (hR : Linking R) {α : Type} {m : TripM α} (hm : RunsOn c m) {s : Env}
    (hc : c < s.router.heap.brk) : R s.router (m.exec s).2.router := hR.acts (hm.acts s).1 hc

theorem tripClose (hR : Linking R) (ms : ℤ) : Framed R (Libtrp.tripClose ms) := by
  intro s
  obtain ⟨live, hlive⟩ := foldl_freeConn (connmapIterate s.router.conn) s.router
  by_cases hms : ms = 0
  · simp only [Libtrp.tripClose, hms, if_true, hlive, exec_store]
    exact hR.same ⟨le_rfl, rfl, rfl, fun _ => Or.inl ⟨rfl, rfl⟩⟩
  · simp only [Libtrp.tripClose, hms, if_false, exec_store]
    exact hR.of_eq rfl rfl rfl

end Linking

/-! ### Calls and tasks -/

section Calls

variable {R : Router → Router → Prop}

/-- **Opening a connection** enqueues none. -/
theorem Opens.linked {s : Env} {ts : List Task} {r' : Router} (h : Opens s ts r') :
    SameSendq s.router r' := by
  have hfresh : ∀ alloc, SameSendq s.router (tripOpenFresh s.router alloc) := by
    intro alloc
    refine .fresh (.open s.router alloc) rfl ?_
    show ((tripOpenFresh s.router alloc).heap.conn s.router.heap.brk).next = none
    rw [conn_tripOpenFresh_self]
    rfl
  have hadded : ∀ {code : Errno} {mh : Connmap × ConnHeap},
      connmapAdd s.router.conn (tripOpenFresh s.router s.oracle.alloc.tail.head).heap
        s.router.heap.brk s.oracle.alloc.tail.tail.head s.oracle.random.head
        s.oracle.random.tail.head = (code, mh) →
      SameSendq s.router ((tripOpenFresh s.router s.oracle.alloc.tail.head).setMap mh) := by
    intro code mh hadd
    have hmap := SameSendq.setMap (tripOpenFresh s.router s.oracle.alloc.tail.head)
      s.router.heap.brk s.oracle.alloc.tail.tail.head s.oracle.random.head s.oracle.random.tail.head
    rw [conn_tripOpenFresh, hadd] at hmap
    exact (hfresh _).trans hmap
  cases h with
  | reject => exact .of_eq rfl rfl rfl
  | busy errmsg _ _ hadd _ => exact (hadded hadd).trans (.setConn _ _ fun _ => ⟨rfl, rfl⟩)
  | timer errmsg _ _ hadd _ => exact (hadded hadd).trans (.setConn _ _ fun _ => ⟨rfl, rfl⟩)
  | armed now now' _ _ hadd _ => exact (hadded hadd).trans (.of_eq rfl rfl rfl)

/-- **A segment that came in** may enqueue its connection. -/
theorem Linking.tripSeg (hR : Linking R) (src : ℤ) (len : ℕ) (buf : Buf) {s : Env}
    (hm : ∀ c, s.router.conn.Has c → c < s.router.heap.brk) :
    R s.router ((Libtrp.tripSeg src len buf).exec s).2.router := by
  rcases tripSeg_cases src len buf s with hsame | ⟨_, c, -, hset⟩ |
    ⟨_, c, pre, en, hc, t, hst, hread⟩ | ⟨-, alloc, x, y, code, mh, hadd, hres⟩
  · rw [hsame]
    exact hR.refl s.router
  · rw [hset]
    exact hR.same (.setConn _ c fun _ => ⟨rfl, rfl⟩)
  · have hacts := (ActsOn.tripcRead (c := c) pre (sizeSub (sizeSub len tripSign) en)
      (buf.drop en) t).1
    rw [hread]
    rw [hst.router] at hacts
    exact hR.acts hacts (hm c (Connmap.has_of_get hc))
  · have hfresh : SameSendq s.router (tripSegmentFresh s.router src) := by
      refine .fresh (.segment s.router src) rfl ?_
      unfold tripSegmentFresh Router.setConn ConnHeap.next
      rw [ConnHeap.conn_set_self, ConnHeap.conn_set_self]
      rfl
    have hmap := SameSendq.setMap (tripSegmentFresh s.router src) s.router.heap.brk alloc x y
    rw [show (tripSegmentFresh s.router src).conn = s.router.conn from rfl, hadd] at hmap
    have hmade := hfresh.trans hmap
    rcases hres with ⟨-, hfree⟩ | ⟨-, hacts⟩
    · rw [hfree]
      exact hR.same (hmade.trans (.freeConn _ _))
    · refine hR.trans (hR.same hmade) (hR.acts hacts ?_)
      have hbrk := connmapAdd_brk s.router.conn (tripSegmentFresh s.router src).heap
        s.router.heap.brk alloc x y
      rw [hadd] at hbrk
      rw [Router.heap_setMap, show mh.2.brk = _ from hbrk]
      exact Nat.lt_succ_self _

/-- **A resolution** is for a connection of the resolve queue. -/
theorem Linking.tripResolve (hR : Linking R) (key src : ℤ) (err : Errno) (emsg : Option String)
    {s : Env} (hq : ∀ d, s.router.resolveq.Has d → d < s.router.heap.brk) :
    R s.router ((Libtrp.tripResolve key src err emsg).exec s).2.router := by
  unfold Libtrp.tripResolve
  rw [Prog.exec_bind_of (exec_fetch _ _)]
  rcases hpop : resolveqPop s.router.resolveq key with _ | ⟨c, q⟩
  · exact hR.refl s.router
  · have hqueue : R s.router (s.router.setResolveq q) := hR.of_eq rfl rfl rfl
    dsimp only
    rw [Prog.exec_bind_of (exec_store _ _)]
    cases c with
    | none => exact hR.of_eq rfl rfl rfl
    | some c =>
      have hc := hq c ((Resolveq.has_of_pop hpop).1 c rfl)
      have hpopped := RunsOn.tripResolvePopped (c := c) src err emsg
      exact hR.trans hqueue (hR.runs hpopped (s := s.setRouter (s.router.setResolveq q)) hc)

/-- **A callback** is about its connection. -/
theorem Linking.tripCallback (hR : Linking R) {cb : Callback} {s : Env}
    (hc : ∀ d ∈ cb.conn?, d < s.router.heap.brk) :
    R s.router ((Libtrp.tripCallback cb).exec s).2.router := by
  have hthen : ∀ {α : Type} {c : Ptr} {m : TripM α} {f : α → TripM (List Task)}, RunsOn c m →
      (∀ a, Framed R (f a)) → c < s.router.heap.brk →
      R s.router ((m >>= f).exec s).2.router := by
    intro α c m f hm hf hlt
    obtain ⟨a, hexec⟩ := hm.total.exec_eq s
    rw [Prog.exec_bind_of hexec]
    exact hR.trans (hR.runs hm hlt) (hf a _)
  have hpure : ∀ ts : List Task, Framed R (pure ts) := hR.apart.pure
  cases cb with
  | tripSendImmediately | tripStopAsync | user | tripResolveDelayFailure => exact hR.refl s.router
  | tripTimeoutRouter =>
    refine hR.apart.bind (hR.apart.store ?_ ?_ ?_ ?_ ?_ ?_) (fun _ => ?_) s
    all_goals try exact fun _ => rfl
    exact hR.apart.bind (hR.apart.fetch _) fun _ => Frame.ite (hpure _) (hpure _)
  | tripResolveDelaySuccess c => exact hthen (.tripcSetState .OPEN) (fun _ => hpure _) (hc c rfl)
  | tripOpenConnectionAsync c =>
    refine hthen .tripcStart (fun _ => ?_) (hc c rfl)
    exact hR.apart.bind (hR.apart.fetch _) fun _ => hR.apart.callPacket _
  | tripcTimeoutStateResend c =>
    exact hthen .tripcTimeoutStateResend (fun _ => Frame.ite (hpure _) (hpure _)) (hc c rfl)
  | tripcTimeoutStateReadyPing c =>
    exact hthen (.tripcSetState .PING) (fun _ => hpure _) (hc c rfl)
  | tripcTimeoutStateResolve c =>
    show R s.router (Prog.exec (tripcTimeoutStateResolve c >>= _) s).2.router
    unfold tripcTimeoutStateResolve
    rw [bind_assoc, Prog.exec_bind_of (exec_getConn _ _), bind_assoc,
      Prog.exec_bind_of (exec_fetch _ _)]
    split
    · exact hR.refl s.router
    · next q _ =>
      rw [bind_assoc, Prog.exec_bind_of (exec_store _ _), bind_assoc,
        Prog.exec_bind_of (exec_setConn _ _ _)]
      generalize hu : Env.setRouter (Env.setRouter _ _) _ = u
      have hset : SameSendq s.router u.router := by
        have hqueue : SameSendq s.router (s.router.setResolveq q) := .of_eq rfl rfl rfl
        rw [← hu]
        exact hqueue.trans (.setConn _ c fun _ => ⟨rfl, rfl⟩)
      have herror := RunsOn.tripcSetError (c := c) ETIME none
      obtain ⟨_, hexec⟩ := herror.total.exec_eq u
      rw [Prog.exec_bind_of hexec]
      exact hR.trans (hR.same hset) (hR.trans (hR.runs herror ((hc c rfl).trans_le hset.brk))
        (hpure _ _))

/-- A packet is packed, or the connection is put back into the queue. -/
theorem Linking.tripSendPack (hR : Linking R) {c : Ptr} {connsent sent : UInt32} {s t : Env}
    {ts : List Task} (hc : c < s.router.heap.brk)
    (h : (Libtrp.tripSendPack c connsent sent).exec s = (some ts, t)) : R s.router t.router := by
  unfold Libtrp.tripSendPack at h
  rw [Prog.exec_bind_of (exec_fetch _ _)] at h
  split_ifs at h
  · rw [Prog.exec_bind_of (exec_fetch _ _)] at h
    obtain ⟨len, u, hlen, h⟩ := Prog.exec_bind_eq_some.mp h
    have hsend := hR.acts (ActsOn.tripcSend (c := c) s.router.buflen s).1 hc
    rw [hlen] at hsend
    cases h
    exact hR.trans hsend (hR.of_eq rfl rfl rfl)
  · rw [Prog.exec_bind_of (exec_store _ _)] at h
    obtain ⟨rfl, -⟩ := exec_tripSendLimit h
    exact hR.nq hc

/-- **The end of a connection** takes it out of the send queue, as far as it goes. -/
theorem tripCloseConnectionEnd_linked (c : Ptr) (s : Env) : ∃ t r,
    (tripCloseConnectionEnd c).exec s = (some [], t) ∧ SameSendq s.router r ∧
      SameSendq (r.setSendq (sendqDel r.sendq r.heap c)) t.router := by
  unfold tripCloseConnectionEnd tripcDestroy
  rw [Prog.exec_bind_of (exec_getConn _ _), Prog.exec_bind_of (exec_store _ _)]
  generalize hu : Env.setRouter _ _ = u
  have hdel : SameSendq s.router u.router := by
    rw [← hu]
    exact .of_eq rfl rfl rfl
  rw [bind_assoc, Prog.exec_bind_of (exec_setConn _ _ _)]
  generalize hv : Env.setRouter _ _ = v
  have hset : SameSendq u.router v.router := by
    rw [← hv]
    exact .setConn _ c fun _ => ⟨rfl, rfl⟩
  obtain ⟨w, hexec, -, hcancel⟩ := exec_tripcCancelTimeout c v
  have hsame : SameSendq v.router w.router := by
    obtain hsame | ⟨e, -, hw⟩ := hcancel
    · rw [hsame.2]
      exact .of_eq rfl rfl rfl
    · have htimers : SameSendq v.router
          (v.router.setTimers (tripCancelTimeout e v.router.timers)) := .of_eq rfl rfl rfl
      rw [hw]
      exact htimers.trans (.setConn _ c fun _ => ⟨rfl, rfl⟩)
  rw [bind_assoc, Prog.exec_bind_of hexec]
  refine ⟨_, w.router, rfl, (hdel.trans hset).trans hsame, ?_⟩
  have herrmsg : SameSendq (w.router.setSendq (sendqDel w.router.sendq w.router.heap c))
      ((w.router.setSendq (sendqDel w.router.sendq w.router.heap c)).setConn c
        fun x => { x with errmsg := none }) := .setConn _ c fun _ => ⟨rfl, rfl⟩
  exact herrmsg.trans (.freeConn _ c)

/-- **Every call**. -/
theorem Linking.api (hR : Linking R) {api : Api} {s t : Env} {ts : List Task}
    (hm : ∀ c, s.router.conn.Has c → c < s.router.heap.brk)
    (hq : ∀ d, s.router.resolveq.Has d → d < s.router.heap.brk)
    (h : api.run.exec s = (some ts, t)) : R s.router t.router := by
  by_cases hopen : api = .openConnection
  · subst hopen
    obtain ⟨ts', t', hexec, hopens⟩ := exec_tripOpenConnection s
    obtain ⟨rfl, rfl⟩ : ts' = ts ∧ t' = t := by simpa using hexec.symm.trans h
    exact hR.same hopens.linked
  by_cases hseg : ∃ src len buf, api = .seg src len buf
  · obtain ⟨src, len, buf, rfl⟩ := hseg
    have hlinked := hR.tripSeg src len buf hm
    obtain ⟨_, v, hv, h⟩ := Prog.exec_bind_eq_some.mp h
    cases h
    rwa [hv] at hlinked
  by_cases hresolve : ∃ key src err emsg, api = .resolve key src err emsg
  · obtain ⟨key, src, err, emsg, rfl⟩ := hresolve
    have hlinked := hR.tripResolve key src err emsg hq
    obtain ⟨_, v, hv, h⟩ := Prog.exec_bind_eq_some.mp h
    cases h
    rwa [hv] at hlinked
  · have haside := hR.apart.api hopen
      (fun key src err emsg heq => hresolve ⟨key, src, err, emsg, heq⟩)
      (fun src len buf heq => hseg ⟨src, len, buf, heq⟩) s
    rwa [h] at haside

/-- The connection a task of the send loop is about. -/
def Task.packer? : Task → Option Ptr
  | .send c _ _ | .pack c _ _ | .packed c _ _ => some c
  | _ => none

/-- **Every task**, but for those that take a connection off or out of the send queue. -/
theorem Linking.task (hR : Linking R) {code : Errno} {u : Task} {s t : Env} {ts : List Task}
    (hnext : ∀ sent, u ≠ .sendNext sent) (hend : ∀ d, u ≠ .closeConnection d)
    (hcb : ∀ cb, u = .callback cb → ∀ d ∈ cb.conn?, d < s.router.heap.brk)
    (hu : ∀ d ∈ u.packer?, d < s.router.heap.brk) (h : (u.run code).exec s = (some ts, t)) :
    R s.router t.router := by
  have hframed : Framed R (u.run code) → R s.router t.router := by
    intro hm
    have hrun := hm s
    rwa [h] at hrun
  by_cases hidles : u.idles = true
  · exact hframed (hR.apart.idle hidles hnext code)
  cases u with
  | setState state => exact hframed (hR.apart.tripSetState hR.tripClose state)
  | walk w =>
    refine hframed (hR.apart.bind (hR.apart.fetch _) fun step => ?_)
    cases step with
    | none =>
      exact hR.apart.bind hR.apart.triptimeNow fun now =>
        hR.apart.bind (fun _ => hR.of_eq rfl rfl rfl) fun _ => hR.apart.pure _
    | some p => exact hR.apart.bind (fun _ => hR.of_eq rfl rfl rfl) fun _ => hR.apart.pure _
  | callback cb =>
    have hrun := hR.tripCallback (hcb cb rfl)
    rwa [show (Libtrp.tripCallback cb).exec s = _ from h] at hrun
  | pack c connsent sent => exact hR.tripSendPack (hu c rfl) h
  | closeConnection d => exact absurd rfl (hend d)
  | freeConnection d =>
    cases h
    exact hR.same (.freeConn s.router d)
  | _ => exact absurd rfl hidles

end Calls

/-- The send queue leads to connections that are there. -/
def Router.Sendable (r : Router) : Prop := SendqLinks (fun c => c < r.heap.brk) r.sendq r.heap

/-- There are no fewer connections, the send queue still leads to such, and there is as much
room for what is sent. -/
structure LinkedSend (r r' : Router) : Prop where
  brk : r.heap.brk ≤ r'.heap.brk
  room : r'.buflen = r.buflen
  links : r.Sendable → r'.Sendable

namespace LinkedSend

variable {r r' r'' : Router} {c : Ptr}

theorem trans (h : LinkedSend r r') (h' : LinkedSend r' r'') : LinkedSend r r'' :=
  ⟨h.brk.trans h'.brk, h'.room.trans h.room, h'.links ∘ h.links⟩

theorem same (h : SameSendq r r') : LinkedSend r r' := by
  refine ⟨h.brk, h.room, fun hr => ⟨fun d hd => ?_, fun d hd => ?_, fun d e he => ?_⟩⟩
  · exact (hr.head d (h.sendq ▸ hd)).trans_le h.brk
  · exact (hr.tail d (h.sendq ▸ hd)).trans_le h.brk
  · rcases h.links d with ⟨hsame, -⟩ | ⟨-, hnone, -⟩
    · exact (hr.next d e (hsame ▸ he)).trans_le h.brk
    · rw [hnone] at he
      exact absurd he (Option.not_mem_none e)

theorem nq (hc : c < r.heap.brk) : LinkedSend r (r.setSendq (sendqNq r.sendq r.heap c)) := by
  have hbrk : (sendqNq r.sendq r.heap c).2.brk = r.heap.brk := sendqNq_heap_brk r.sendq r.heap c
  refine ⟨hbrk.ge, rfl, fun h => ?_⟩
  unfold Router.Sendable
  rw [show (r.setSendq (sendqNq r.sendq r.heap c)).heap.brk = r.heap.brk from hbrk]
  exact SendqLinks.nq h hc

theorem dq (r : Router) : LinkedSend r (r.setSendq (sendqDq r.sendq r.heap).2) := by
  have hbrk : (sendqDq r.sendq r.heap).2.2.brk = r.heap.brk := sendqDq_heap_brk r.sendq r.heap
  refine ⟨hbrk.ge, rfl, fun h => ?_⟩
  unfold Router.Sendable
  rw [show (r.setSendq (sendqDq r.sendq r.heap).2).heap.brk = r.heap.brk from hbrk]
  exact (SendqLinks.dq h).1

theorem del (r : Router) (c : Ptr) : LinkedSend r (r.setSendq (sendqDel r.sendq r.heap c)) := by
  have hbrk : (sendqDel r.sendq r.heap c).2.brk = r.heap.brk := sendqDel_brk r.sendq r.heap c
  refine ⟨hbrk.ge, rfl, fun h => ?_⟩
  unfold Router.Sendable
  rw [show (r.setSendq (sendqDel r.sendq r.heap c)).heap.brk = r.heap.brk from hbrk]
  exact SendqLinks.del h

theorem linking : Linking LinkedSend := ⟨trans, brk, same, nq⟩

end LinkedSend

/-! ### Over the steps of the machine -/

/-- The tasks are about connections that are there. -/
def Packing (r : Router) (ts : List Task) : Prop := ∀ t ∈ ts, ∀ d ∈ t.packer?, d < r.heap.brk

theorem Packing.of_idle {r : Router} {ts : List Task} (h : ∀ t ∈ ts, t.sends = false) :
    Packing r ts := by
  intro t ht d hd
  have hidle := h t ht
  cases t <;> first
    | exact absurd hd (Option.not_mem_none d)
    | exact absurd hidle (Bool.false_ne_true ∘ Eq.symm)

theorem Packing.nil {r : Router} : Packing r [] := fun _ ht => absurd ht List.not_mem_nil

theorem Packing.one {r : Router} {t : Task} (h : ∀ d ∈ t.packer?, d < r.heap.brk) :
    Packing r [t] := fun _ ht => List.mem_singleton.mp ht ▸ h

/-- A task that packs nothing. -/
theorem Packing.other {r : Router} {t : Task} (h : t.packer? = none) : Packing r [t] :=
  .one fun d hd => absurd (h ▸ hd) (Option.not_mem_none d)

theorem Packing.append {r : Router} {ts ts' : List Task} (h : Packing r ts) (h' : Packing r ts') :
    Packing r (ts ++ ts') := by
  intro t ht
  rcases List.mem_append.mp ht with ht | ht
  · exact h t ht
  · exact h' t ht

theorem Packing.mono {r r' : Router} {ts : List Task} (h : Packing r ts)
    (hr : r.heap.brk ≤ r'.heap.brk) : Packing r' ts :=
  fun t ht d hd => (h t ht d hd).trans_le hr

/-- What is left where a connection is done. -/
theorem Packing.of_limit {r : Router} {sent : UInt32} {ts : List Task}
    (h : ts = [] ∨ ts = [.sendNext sent]) : Packing r ts := by
  rcases h with rfl | rfl
  · exact .nil
  · exact .other rfl

/-- The first connection is taken off the queue, and is packed for. -/
theorem exec_tripSendNext {sent : UInt32} {s t : Env} {ts : List Task}
    (h : (tripSendNext sent).exec s = (some ts, t)) :
    t.router = s.router.setSendq (sendqDq s.router.sendq s.router.heap).2 ∧
      ts = (sendqDq s.router.sendq s.router.heap).1.toList.map fun d => Task.pack d 0 sent := by
  obtain ⟨c, u, htake, h⟩ := Prog.exec_bind_eq_some.mp h
  rw [Prog.exec_take] at htake
  cases htake
  cases hc : (sendqDq s.router.sendq s.router.heap).1 with
  | none =>
    rw [hc] at h
    cases h
    exact ⟨rfl, rfl⟩
  | some c =>
    rw [hc] at h
    cases h
    exact ⟨rfl, rfl⟩

/-- The next connection of the queue is there. -/
theorem tripSendNext_linkedSend {sent : UInt32} {s t : Env} {ts : List Task}
    (hs : s.router.Sendable) (h : (tripSendNext sent).exec s = (some ts, t)) :
    LinkedSend s.router t.router ∧ Packing t.router ts := by
  have hbrk := sendqDq_heap_brk s.router.sendq s.router.heap
  obtain ⟨ht, rfl⟩ := exec_tripSendNext h
  rw [ht]
  refine ⟨.dq s.router, ?_⟩
  cases hc : (sendqDq s.router.sendq s.router.heap).1 with
  | none => exact .nil
  | some c =>
    refine .one fun d hd => ?_
    have hlt := (SendqLinks.dq hs).2 c hc
    exact Option.some.inj hd ▸ hlt.trans_eq hbrk.symm

/-- **What a task leaves to do** packs for the connection the task is at, if for any. -/
theorem Task.run_packing {code : Errno} {u : Task} {s t : Env} {ts : List Task}
    (hnext : ∀ sent, u ≠ .sendNext sent) (hu : ∀ d ∈ u.packer?, d < t.router.heap.brk)
    (h : (u.run code).exec s = (some ts, t)) : Packing t.router ts := by
  have hidle : u.sends = false → (∀ events, u ≠ .listenOut events) → Packing t.router ts :=
    fun hno hout => .of_idle (Idles.task hno hout code s ts t h).2
  cases u with
  | pack c connsent sent =>
    simp only [Task.run, tripSendPack] at h
    rw [Prog.exec_bind_of (exec_fetch _ _)] at h
    split_ifs at h
    · rw [Prog.exec_bind_of (exec_fetch _ _)] at h
      obtain ⟨len, u, hlen, h⟩ := Prog.exec_bind_eq_some.mp h
      cases h
      exact .one hu
    · -- its share is sent, and the loop goes on to the next
      rw [Prog.exec_bind_of (exec_store _ _)] at h
      obtain ⟨-, hts⟩ := exec_tripSendLimit h
      exact .of_limit hts
  | sendNext sent => exact absurd rfl (hnext sent)
  | listenOut events =>
    simp only [Task.run, tripListenOut] at h
    split_ifs at h
    · rw [Prog.exec_bind_of (exec_fetch _ _)] at h
      split_ifs at h
      · obtain ⟨-, rfl, -⟩ := exec_callPacket h
        exact .other rfl
      · cases h
        exact .other rfl
    · cases h
      exact .nil
  | resend =>
    simp only [Task.run, tripListenResend] at h
    split_ifs at h
    all_goals
      cases h
      exact .other rfl
  | send c connsent sent =>
    simp only [Task.run, tripSendSent] at h
    split_ifs at h
    · -- the packet blocks, and the loop is left
      rw [Prog.exec_bind_of (exec_getConn _ _)] at h
      cases h
      exact .nil
    · cases h
      exact .other rfl
    · cases h
      exact .one hu
  | packed c connsent sent =>
    simp only [Task.run, tripSendPacked] at h
    rw [Prog.exec_bind_of (exec_fetch _ _)] at h
    split_ifs at h
    · cases h
      exact .other rfl
    · obtain ⟨-, rfl, -⟩ := exec_callPacket h
      exact .one hu
    · -- there was nothing to pack, and the loop goes on to the next
      obtain ⟨-, hts⟩ := exec_tripSendLimit h
      exact .of_limit hts
  | _ => exact hidle rfl (by simp)

/-- **Every task on top** keeps where the send queue leads. -/
theorem Task.run_linkedSend {code : Errno} {u : Task} {s t : Env} {ts : List Task}
    (hs : s.router.Sendable) (hcb : ∀ cb, u = .callback cb → ∀ d ∈ cb.conn?, d < s.router.heap.brk)
    (hu : ∀ d ∈ u.packer?, d < s.router.heap.brk) (h : (u.run code).exec s = (some ts, t)) :
    LinkedSend s.router t.router ∧ Packing t.router ts := by
  by_cases hnext : ∃ sent, u = .sendNext sent
  · obtain ⟨sent, rfl⟩ := hnext
    exact tripSendNext_linkedSend hs h
  have hlinked : LinkedSend s.router t.router := by
    by_cases hend : ∃ d, u = .closeConnection d
    · obtain ⟨d, rfl⟩ := hend
      obtain ⟨t', r, hexec, hsame, hafter⟩ := tripCloseConnectionEnd_linked d s
      obtain ⟨-, rfl⟩ : [] = ts ∧ t' = t := by
        simpa using hexec.symm.trans (show (tripCloseConnectionEnd d).exec s = _ from h)
      exact (LinkedSend.same hsame).trans ((LinkedSend.del r d).trans (.same hafter))
    · exact LinkedSend.linking.task (fun sent heq => hnext ⟨sent, heq⟩)
        (fun d heq => hend ⟨d, heq⟩) hcb hu h
  exact ⟨hlinked, Task.run_packing (fun sent heq => hnext ⟨sent, heq⟩)
    (fun d hd => (hu d hd).trans_le hlinked.brk) h⟩

/-- The send queue and what is sent lead to connections that are there, and there is room for
a segment. -/
structure Sendables (c : Config) : Prop where
  known : Known c
  room : c.router.buflen = 1200
  links : c.router.Sendable
  packing : Packing c.router c.todo

theorem sendables_idle (preset : TripPreset) (now : ℕ) (buf : Buf) :
    Sendables (.idle (tripNew preset now buf)) where
  known := known_idle preset now buf
  room := rfl
  links := ⟨fun d hd => absurd hd (Option.not_mem_none d),
    fun d hd => absurd hd (Option.not_mem_none d), fun _ e he => absurd he (Option.not_mem_none e)⟩
  packing := .nil

/-- **Every step** keeps what the send queue leads to. -/
theorem Sendables.step {c c' : Config} {i : Input} (hc : Sendables c) (h : c.Step i c') :
    Sendables c' ∧ c.router.heap.brk ≤ c'.router.heap.brk := by
  have hknown := (hc.known.step h).1
  rcases Config.step_cases h with ⟨api, o, ts, e, rfl, -, hexec, rfl⟩ |
    ⟨code, o, u, rest, ts, e, rfl, htodo, hexec, rfl⟩
  · have hlinked := LinkedSend.linking.api hc.known.timed.mapped hc.known.queued hexec
    have hts : Packing e.router ts := .of_idle (Idles.api api _ ts e hexec).2
    exact ⟨⟨hknown, hlinked.room.trans hc.room, hlinked.links hc.links,
      hts.append (hc.packing.mono hlinked.brk)⟩, hlinked.brk⟩
  · have hpacking : Packing c.router (u :: rest) := htodo ▸ hc.packing
    have hdue := hc.known.due u (by rw [htodo]; exact List.mem_cons_self)
    obtain ⟨hlinked, hts⟩ := Task.run_linkedSend hc.links (fun cb hcb d hd => (hdue cb hcb d hd).1)
      (hpacking u List.mem_cons_self) hexec
    have hrest : Packing c.router rest := fun t ht => hpacking t (List.mem_cons_of_mem u ht)
    exact ⟨⟨hknown, hlinked.room.trans hc.room, hlinked.links hc.links,
      hts.append (hrest.mono hlinked.brk)⟩, hlinked.brk⟩

/-! ### The order of what waits -/

/-- What the send queue stands for stays, and more may wait behind it. -/
structure Lengthens (r r' : Router) : Prop where
  brk : r.heap.brk ≤ r'.heap.brk
  queue : ∀ l, SendqRep r.sendq r.heap l → ∃ l', SendqRep r'.sendq r'.heap l' ∧ l <+: l'

theorem Lengthens.linking : Linking Lengthens where
  trans := fun h h' => ⟨h.brk.trans h'.brk, fun l hl => by
    obtain ⟨l', hl', hpre⟩ := h.queue l hl
    obtain ⟨l'', hl'', hpre'⟩ := h'.queue l' hl'
    exact ⟨l'', hl'', hpre.trans hpre'⟩⟩
  brk := Lengthens.brk
  same := fun h => ⟨h.brk, fun l hl => ⟨l, h.queue hl, List.prefix_rfl⟩⟩
  nq := fun {r c} hc => by
    refine ⟨(sendqNq_heap_brk r.sendq r.heap c).ge, fun l hl => ⟨Fifo.nq l c, hl.nq hc, ?_⟩⟩
    unfold Fifo.nq
    split
    · exact List.prefix_rfl
    · exact List.prefix_append l [c]

/-- **What a step does to what waits**, `l`.  The send loop takes the first, and packs for it
next; the end of a connection takes it out; everything else leaves what waits where it is, and
may put more behind it. -/
def Queues (c : Config) (i : Input) (c' : Config) : Prop :=
  ∀ l, SendqRep c.router.sendq c.router.heap l →
    ∃ l', SendqRep c'.router.sendq c'.router.heap l' ∧
      match i, c.todo with
      | .run _ _, .sendNext sent :: rest =>
        l' = l.tail ∧ c'.todo = l.head?.toList.map (fun d => Task.pack d 0 sent) ++ rest
      | .run _ _, .closeConnection d :: _ => l' = Fifo.del l d
      | _, _ => l <+: l'

/-- The send queue is one, of connections that are in the map and were not given back. -/
def Router.Lines (r : Router) : Prop :=
  ∃ l, SendqRep r.sendq r.heap l ∧ ∀ d ∈ l, r.heap.live d = true ∧ r.conn.Has d

theorem Tables.lines {r : Router} (h : Tables r) : r.Lines := by
  obtain ⟨l, hl, hhas⟩ := h.refs.sendq
  exact ⟨l, hl, fun d hd => ⟨h.live d (hhas d hd), hhas d hd⟩⟩

/-- **Every step** that leaves no reference behind. -/
theorem Sendables.queues {c c' : Config} {i : Input} (hc : Sendables c) (hg : TieGuard c i)
    (h : c.Step i c') : Queues c i c' := by
  intro l hl
  rcases Config.step_cases h with ⟨api, o, ts, e, rfl, -, hexec, rfl⟩ |
    ⟨code, o, u, rest, ts, e, rfl, htodo, hexec, rfl⟩
  · exact (Lengthens.linking.api hc.known.timed.mapped hc.known.queued hexec).queue l hl
  have hguard : u.TieGuard c.router := hg u (by rw [htodo]; rfl)
  have hpacking : ∀ d ∈ u.packer?, d < c.router.heap.brk :=
    hc.packing u (by rw [htodo]; exact List.mem_cons_self)
  have hdue := hc.known.due u (by rw [htodo]; exact List.mem_cons_self)
  dsimp only
  rw [htodo]
  by_cases hnext : ∃ sent, u = .sendNext sent
  · obtain ⟨sent, rfl⟩ := hnext
    obtain ⟨ht, rfl⟩ := exec_tripSendNext hexec
    obtain ⟨hfirst, hrest⟩ := hl.dq
    refine ⟨l.tail, ?_, rfl, ?_⟩
    · rw [ht]
      exact hrest
    · rw [hfirst]
  by_cases hend : ∃ d, u = .closeConnection d
  · -- the condition says that it is not the tail
    obtain ⟨d, rfl⟩ := hend
    obtain ⟨t, r, hrun, hsame, hafter⟩ :=
      tripCloseConnectionEnd_linked d (⟨c.router, o, []⟩ : Env)
    obtain ⟨rfl, rfl⟩ : [] = ts ∧ t = e := by simpa using hrun.symm.trans hexec
    have htail : r.sendq.tail ≠ some d := by
      rw [hsame.sendq]
      exact hguard.tail
    exact ⟨Fifo.del l d, hafter.queue ((hsame.queue hl).del htail), rfl⟩
  have hlonger : Lengthens c.router e.router :=
    Lengthens.linking.task (fun sent heq => hnext ⟨sent, heq⟩) (fun d heq => hend ⟨d, heq⟩)
      (fun cb hcb d hd => (hdue cb hcb d hd).1) hpacking hexec
  obtain ⟨l', hl', hpre⟩ := hlonger.queue l hl
  refine ⟨l', hl', ?_⟩
  cases u <;> first
    | exact hpre
    | exact absurd ⟨_, rfl⟩ hnext
    | exact absurd ⟨_, rfl⟩ hend

/-- **What waits is sent in order**, in a run in which each open that fails has taken nothing,
each connection that is closed or cleared has no other reference, and each one put back into
the queue is in the map.  The send queue holds each connection once, and holds no connection
that was given back or is not in the map.  A connection keeps its place until the send loop
takes it, which takes the first, or the connection is closed. -/
theorem trip_sends_in_order (preset : TripPreset) (now : ℕ) (buf : Buf)
    {r : List (Input × Config)} (hr : IsRun Config.Step (.idle (tripNew preset now buf)) r)
    (hm : Meets TieGuard (.idle (tripNew preset now buf)) r) :
    Holds (fun c : Config => c.router.Lines) Queues (.idle (tripNew preset now buf)) r := by
  have hstep : ∀ c i c', Sendables c ∧ TieInv c → TieGuard c i → Config.Step c i c' →
      Queues c i c' ∧ Sendables c' ∧ TieInv c' :=
    fun c i c' hc hg h => ⟨hc.1.queues hg h, (hc.1.step h).1, hc.2.step hg h⟩
  have hfirst : Sendables (.idle (tripNew preset now buf)) ∧
      TieInv (.idle (tripNew preset now buf)) :=
    ⟨sendables_idle preset now buf, known_idle preset now buf, tables_tripNew preset now buf,
      fun _ ht => absurd ht List.not_mem_nil⟩
  exact (holds_of_meets hstep hfirst hr hm).mono (fun c hc => hc.2.tables.lines)
    fun _ _ _ _ hok => hok

/-- Two connections are opened, and the packet of one of them blocks. -/
theorem trip_sends_in_order_blocked :
    Holds (fun c : Config => c.router.Lines) Queues (.idle (tripNew .ROUTER 0 fun _ => 0))
      (trace (fun i c => (c.step i).getD c) (.idle (tripNew .ROUTER 0 fun _ => 0)) blockInputs) :=
  trip_sends_in_order .ROUTER 0 (fun _ => 0) (isRun_trace (by decide))
    (.mono (fun _ _ => .of_tieable) (by decide : Meets (fun c i => Config.tieable c i = true) _ _))

end Libtrp
