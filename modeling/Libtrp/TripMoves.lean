import Libtrp.TripKeeps
import Libtrp.TripTurn

/-!
# What resolving moves

A connection that is opened is put into the resolve queue, and begins to resolve at the
next timeout: the packet interface is asked, and a timer is armed.  Which of the two
answers first takes the connection out of the queue.  Everything else the router does
leaves the queue and the keys alone, and arms no timer of that kind.

A timer of a connection's state is the one the connection refers to.  This is what the
cancellation of the other answer rests on.

## Main definitions

* `Timed r` — the timers of connections are those they refer to.
* `Moves cb r r'` — no timer about resolving is new but one with the callback `cb`.
* `Steady r r'` — resolving is left alone.
* `Mutes m` — a program that leaves it alone, and so does what is left of it.

## Main results

* `Timed.arm` — a connection sets its timer where none is pending.
* `Steady.frame` — **programs leave resolving alone.**

## References

`src/conn.c` (`_tripc_set_state`, `_tripc_timeout_state_resolve_cb`).
-/

namespace Libtrp

open Lib

/-! ### Timers that are pending -/

namespace Timerwheel

variable {κ : Type*} {p q : κ → Bool} {tw : Timerwheel κ}

/-- Fewer callbacks, fewer entries. -/
theorem pending_mono (h : ∀ cb, p cb = true → q cb = true) :
    (tw.pending p).Sublist (tw.pending q) := by
  refine (List.monotone_filter_right tw.entries fun e he => ?_).map _
  unfold TimerEntry.pends at he ⊢
  rw [Bool.and_eq_true] at he ⊢
  refine ⟨he.1, ?_⟩
  cases hcb : e.cb with
  | none => rw [hcb] at he; exact he.2
  | some cb => rw [hcb] at he; exact h cb he.2

theorem pending_eq_nil_of_imp (h : ∀ cb, p cb = true → q cb = true) (hq : tw.pending q = []) :
    tw.pending p = [] := by
  have hsub : (tw.pending p).Sublist (tw.pending q) := pending_mono h
  rw [hq] at hsub
  exact List.sublist_nil.mp hsub

end Timerwheel

/-- The entries of the router's timers that are pending with a callback of `p`. -/
abbrev Router.pending (r : Router) (p : Callback → Bool) : List Ptr := r.timers.wheel.pending p

/-- The callback of a timer that the connection `d` refers to. -/
def Callback.ofState (d : Ptr) : Callback → Bool
  | .tripcTimeoutStateResolve c | .tripcTimeoutStateResend c
  | .tripcTimeoutStateReadyPing c => c = d
  | _ => false

/-- The callback is called with a connection from `b` on. -/
def Callback.beyond (b : Ptr) (cb : Callback) : Bool := cb.conn?.any fun c => b ≤ c

/-- The callback begins to resolve, or an answer has come. -/
def Callback.ofResolve : Callback → Bool
  | .tripOpenConnectionAsync _ | .tripcTimeoutStateResolve _ | .tripResolveDelaySuccess _
  | .tripResolveDelayFailure _ => true
  | _ => false

theorem Callback.ofConn_of_ofState {d : Ptr} {cb : Callback} (h : cb.ofState d = true) :
    cb.ofConn = true := by
  cases cb <;> first | rfl | exact absurd h Bool.false_ne_true

theorem Callback.ofConn_of_beyond {b : Ptr} {cb : Callback} (h : cb.beyond b = true) :
    cb.ofConn = true := by
  cases cb <;> first | rfl | exact absurd h Bool.false_ne_true

theorem Callback.ofConn_of_ofResolve {cb : Callback} (h : cb.ofResolve = true) :
    cb.ofConn = true := by
  cases cb <;> first | rfl | exact absurd h Bool.false_ne_true

/-- A connection refers to the timer of its state, timers are those of connections there
are, and so is what the map holds, which has slots where it is there. -/
structure Timed (r : Router) : Prop where
  own : ∀ d, (r.pending (Callback.ofState d)).Sublist (r.heap.conn d).statetimer.toList
  bound : r.pending (Callback.beyond r.heap.brk) = []
  mapped : ∀ c, r.conn.Has c → c < r.heap.brk
  sized : r.conn.Sized

namespace Timed

variable {r r' : Router} {c : Ptr}

theorem maps (h : Timed r) : Maps (fun r c => c < r.heap.brk) r :=
  fun _ c hc => h.mapped c (Connmap.has_of_get hc)

/-- Writes nobody finds. -/
theorem still (h : Timed r) (hr : Still r r') : Timed r' := by
  refine ⟨fun d => ?_, ?_, fun c hc => ?_, hr.mapped.sized h.sized⟩
  · unfold Router.pending
    rw [hr.pending _ fun _ => Callback.ofConn_of_ofState, hr.heap.statetimer]
    exact h.own d
  · unfold Router.pending
    rw [hr.heap.brk, hr.pending _ fun _ => Callback.ofConn_of_beyond]
    exact h.bound
  · rw [hr.heap.brk]
    exact h.mapped c (hr.mapped.has c hc)

/-- Fewer timers. -/
theorem fewer (h : Timed r) {timers : Timers Callback}
    (hsub : ∀ p, (timers.wheel.pending p).Sublist (r.pending p)) : Timed (r.setTimers timers) := by
  refine ⟨fun d => (hsub _).trans (h.own d), ?_, h.mapped, h.sized⟩
  have hbound := hsub (Callback.beyond r.heap.brk)
  rw [h.bound] at hbound
  exact List.sublist_nil.mp hbound

theorem cancel (h : Timed r) (id : Ptr) : Timed (r.setTimers (tripCancelTimeout id r.timers)) := by
  refine h.fewer fun p => ?_
  show ((timerwheelCancel id r.timers.wheel).pending p).Sublist _
  rw [Timerwheel.pending_cancel]
  exact List.filter_sublist

/-- The connection `c` forgets its timer, which is not pending. -/
theorem forget (h : Timed r) (hc : r.pending (Callback.ofState c) = [])
    {f : Connection → Connection} : Timed (r.setConn c f) := by
  refine ⟨fun d => ?_, h.bound, h.mapped, h.sized⟩
  rcases eq_or_ne d c with rfl | hdc
  · show (r.pending _).Sublist _
    rw [hc]
    exact List.nil_sublist _
  · show (r.pending _).Sublist ((r.heap.set c f).conn d).statetimer.toList
    rw [ConnHeap.conn_set_of_ne _ hdc]
    exact h.own d

end Timed

/-- The timer of a connection is cancelled. -/
theorem exec_tripcCancelTimeout (c : Ptr) (s : Env) :
    ∃ t, (tripcCancelTimeout c).exec s = (some (), t) ∧ t.oracle = s.oracle ∧
      ((s.router.heap.conn c).statetimer = none ∧ t.router = s.router ∨
        ∃ e, (s.router.heap.conn c).statetimer = some e ∧
          t.router = (s.router.setTimers (tripCancelTimeout e s.router.timers)).setConn c
            fun x => { x with statetimer := none }) := by
  unfold tripcCancelTimeout
  rw [Prog.exec_bind_of (exec_getConn _ _)]
  cases he : (s.router.heap.conn c).statetimer with
  | none => exact ⟨s, rfl, rfl, Or.inl ⟨rfl, rfl⟩⟩
  | some e => exact ⟨_, rfl, rfl, Or.inr ⟨e, rfl, rfl⟩⟩

/-! ### What is left alone -/

/-- There are no fewer connections, each with its key, and no timer about resolving is
new but one with the callback `cb`. -/
structure Moves (cb : Option Callback) (r r' : Router) : Prop where
  brk : r.heap.brk ≤ r'.heap.brk
  key : ∀ c < r.heap.brk, (r'.heap.conn c).resolvekey = (r.heap.conn c).resolvekey
  pending : ∀ p : Callback → Bool, (∀ cb, p cb = true → cb.ofResolve = true) →
    (r'.pending p).length ≤ (r.pending p).length + if cb.any p then 1 else 0

/-- The resolve queue is left alone too, and so are the timers. -/
structure Steady (r r' : Router) : Prop where
  moves : Moves none r r'
  resolveq : r'.resolveq = r.resolveq
  timed : Timed r → Timed r'

namespace Moves

variable {cb cb' : Option Callback} {r r' r'' : Router}

theorem refl (r : Router) : Moves none r r := ⟨le_rfl, fun _ _ => rfl, fun _ _ => le_rfl⟩

theorem trans (h : Moves cb r r') (h' : Moves none r' r'') : Moves cb r r'' where
  brk := h.brk.trans h'.brk
  key := fun c hc => (h'.key c (hc.trans_le h.brk)).trans (h.key c hc)
  pending := fun p hp => (h'.pending p hp).trans (h.pending p hp)

theorem trans' (h : Moves none r r') (h' : Moves cb r' r'') : Moves cb r r'' where
  brk := h.brk.trans h'.brk
  key := fun c hc => (h'.key c (hc.trans_le h.brk)).trans (h.key c hc)
  pending := fun p hp => by
    have h₁ := h.pending p hp
    have h₂ := h'.pending p hp
    rw [Option.any_none, if_neg (by decide)] at h₁
    omega

/-- A write that leaves the keys alone and arms no such timer. -/
theorem of_eq (hb : r'.heap.brk = r.heap.brk)
    (hk : ∀ c, (r'.heap.conn c).resolvekey = (r.heap.conn c).resolvekey)
    (hp : ∀ p : Callback → Bool, (∀ cb, p cb = true → cb.ofResolve = true) →
      (r'.pending p).length ≤ (r.pending p).length) : Moves none r r' where
  brk := hb.ge
  key := fun c _ => hk c
  pending := hp

theorem still (h : Still r r') : Moves none r r' := by
  refine of_eq h.heap.brk h.heap.resolvekey fun p hp => ?_
  unfold Router.pending
  rw [h.pending p fun cb hcb => Callback.ofConn_of_ofResolve (hp cb hcb)]

theorem cancel (r : Router) (id : Ptr) :
    Moves none r (r.setTimers (tripCancelTimeout id r.timers)) := by
  refine of_eq rfl (fun _ => rfl) fun p _ => ?_
  show ((timerwheelCancel id r.timers.wheel).pending p).length ≤ _
  rw [Timerwheel.pending_cancel]
  exact List.length_filter_le _ _

/-- A timer is set. -/
theorem timer (r : Router) (alloc : Bool) (now now' : ℕ) (ms : ℤ) (cb : Callback) :
    Moves (some cb) r (r.setTimers (tripSetTimeout alloc now now' ms (some cb) r.timers).2) := by
  refine ⟨le_rfl, fun _ _ => rfl, fun p _ => ?_⟩
  show ((tripSetTimeout alloc now now' ms (some cb) r.timers).2.wheel.pending p).length ≤ _
  rw [pending_tripSetTimeout, Option.any_some]
  cases p cb <;> cases alloc <;> simp

/-- A timer that is not about resolving. -/
theorem of_other (h : Moves cb r r') (hcb : ∀ cb' ∈ cb, cb'.ofResolve = false) :
    Moves none r r' := by
  refine ⟨h.brk, h.key, fun p hp => ?_⟩
  have hlen := h.pending p hp
  have hnone : cb.any p = false := by
    cases cb with
    | none => rfl
    | some cb' =>
      rw [Option.any_some]
      by_contra hpos
      have hof := hp cb' (Bool.not_eq_false _ |>.mp hpos)
      rw [hcb cb' rfl] at hof
      exact Bool.false_ne_true hof
  rw [hnone] at hlen
  exact hlen

theorem setConn (r : Router) (c : Ptr) {f : Connection → Connection}
    (hf : ∀ x, (f x).resolvekey = x.resolvekey) : Moves none r (r.setConn c f) :=
  of_eq rfl (fun d => ConnHeap.conn_set_field Connection.resolvekey r.heap c d (hf _))
    fun _ _ => le_rfl

end Moves

namespace Steady

variable {r r' r'' : Router}

theorem refl (r : Router) : Steady r r := ⟨.refl r, rfl, id⟩

theorem trans (h : Steady r r') (h' : Steady r' r'') : Steady r r'' :=
  ⟨h.moves.trans h'.moves, h'.resolveq.trans h.resolveq, fun hr => h'.timed (h.timed hr)⟩

theorem still (h : Still r r') : Steady r r' := ⟨.still h, h.resolveq, fun hr => hr.still h⟩

theorem cancel (r : Router) (id : Ptr) : Steady r (r.setTimers (tripCancelTimeout id r.timers)) :=
  ⟨.cancel r id, rfl, fun hr => hr.cancel id⟩

/-- A write to other fields. -/
theorem of_eq (hh : r'.heap = r.heap) (hq : r'.resolveq = r.resolveq) (hm : r'.conn = r.conn)
    (hw : r'.timers = r.timers) : Steady r r' := by
  have hpending : ∀ p, r'.pending p = r.pending p := fun p => by rw [Router.pending, hw]
  refine ⟨.of_eq (by rw [hh]) (fun d => by rw [hh]) fun p _ => (congrArg _ (hpending p)).le, hq, ?_⟩
  intro h
  refine ⟨fun d => ?_, ?_, ?_, hm ▸ h.sized⟩
  · rw [hpending, hh]
    exact h.own d
  · rw [hpending, hh]
    exact h.bound
  · rw [hm, hh]
    exact h.mapped

end Steady

/-- The timer of a connection is cancelled, and is not pending then. -/
theorem disarm (c : Ptr) (s : Env) :
    Steady s.router ((tripcCancelTimeout c).exec s).2.router ∧
      (Timed s.router →
        ((tripcCancelTimeout c).exec s).2.router.pending (Callback.ofState c) = []) := by
  obtain ⟨t, hexec, -, ⟨hnone, ht⟩ | ⟨e, he, ht⟩⟩ := exec_tripcCancelTimeout c s
  · rw [hexec, ht]
    refine ⟨.refl _, fun hr => ?_⟩
    have hown := hr.own c
    rw [hnone] at hown
    exact List.sublist_nil.mp hown
  · rw [hexec, ht]
    have hnil : Timed s.router →
        (s.router.setTimers (tripCancelTimeout e s.router.timers)).pending
          (Callback.ofState c) = [] := by
      intro hr
      have hown := hr.own c
      rw [he] at hown
      show (timerwheelCancel e s.router.timers.wheel).pending _ = []
      rw [Timerwheel.pending_cancel, List.filter_eq_nil_iff]
      intro id hid
      simpa using hown.subset hid
    refine ⟨⟨(Moves.cancel _ e).trans (.setConn _ c fun _ => rfl), rfl, fun hr => ?_⟩, hnil⟩
    exact (hr.cancel e).forget (hnil hr)

/-- How a connection's timer is set. -/
theorem exec_tripcSetTimeout (c : Ptr) (ms : ℤ) (cb : Ptr → Callback) (s : Env) :
    ∃ now now' t, (tripcSetTimeout c ms cb).exec s = (some (), t) ∧
      t.router = (s.router.setTimers (tripSetTimeout s.oracle.alloc.head now now' ms
          (some (cb c)) s.router.timers).2).setConn c
        fun x => { x with statetimer :=
          if s.oracle.alloc.head then some s.router.timers.wheel.brk else none } := by
  obtain ⟨now, now', t, hexec, ht⟩ := exec_tripSetTimeoutM ms (cb c) s
  unfold tripcSetTimeout
  refine ⟨now, now', ?_⟩
  cases halloc : s.oracle.alloc.head with
  | false =>
    rw [halloc] at hexec ht
    rw [Prog.exec_bind_of hexec]
    exact ⟨_, rfl, by rw [← ht]; rfl⟩
  | true =>
    rw [halloc] at hexec ht
    rw [Prog.exec_bind_of hexec]
    exact ⟨_, rfl, by rw [← ht]; rfl⟩

/-- A timer of the state of `c`. -/
def Callback.Arms (cb : Callback) (c : Ptr) : Prop :=
  cb = .tripcTimeoutStateResolve c ∨ cb = .tripcTimeoutStateResend c ∨
    cb = .tripcTimeoutStateReadyPing c

theorem Callback.Arms.ofState {cb : Callback} {c : Ptr} (h : cb.Arms c) (d : Ptr) :
    cb.ofState d = decide (c = d) := by
  rcases h with rfl | rfl | rfl <;> rfl

theorem Callback.Arms.conn? {cb : Callback} {c : Ptr} (h : cb.Arms c) : cb.conn? = some c := by
  rcases h with rfl | rfl | rfl <;> rfl

/-- **A connection sets its timer** where none is pending. -/
theorem Timed.arm {r : Router} (h : Timed r) {c : Ptr} (hc : c < r.heap.brk)
    (hnil : r.pending (Callback.ofState c) = []) {cb : Callback} (hcb : cb.Arms c) (alloc : Bool)
    (now now' : ℕ) (ms : ℤ) :
    Timed ((r.setTimers (tripSetTimeout alloc now now' ms (some cb) r.timers).2).setConn c
      fun x => { x with statetimer := if alloc then some r.timers.wheel.brk else none }) := by
  have hpending := fun p => pending_tripSetTimeout p alloc now now' ms cb r.timers
  refine ⟨fun d => ?_, ?_, h.mapped, h.sized⟩
  · show ((tripSetTimeout alloc now now' ms (some cb) r.timers).2.wheel.pending _).Sublist _
    rw [hpending, hcb.ofState]
    rcases eq_or_ne d c with rfl | hdc
    · rw [show r.timers.wheel.pending _ = [] from hnil, Router.setConn, ConnHeap.conn_set_self]
      cases alloc <;> simp
    · rw [decide_eq_false (Ne.symm hdc), Bool.and_false, if_neg (by decide), Router.setConn,
        ConnHeap.conn_set_of_ne _ hdc]
      exact h.own d
  · show (tripSetTimeout alloc now now' ms (some cb) r.timers).2.wheel.pending
      (Callback.beyond r.heap.brk) = []
    have hnot : cb.beyond r.heap.brk = false := by
      rw [Callback.beyond, hcb.conn?, Option.any_some]
      exact decide_eq_false (not_le.mpr hc)
    rw [hpending, hnot, Bool.and_false]
    exact h.bound

/-- The timer of a connection is set; `cb` is its callback. -/
theorem arm_moves (c : Ptr) (ms : ℤ) (cb : Ptr → Callback) (s : Env) :
    Moves (some (cb c)) s.router ((tripcSetTimeout c ms cb).exec s).2.router ∧
      ((tripcSetTimeout c ms cb).exec s).2.router.resolveq = s.router.resolveq ∧
      ((cb c).Arms c → c < s.router.heap.brk → s.router.pending (Callback.ofState c) = [] →
        Timed s.router → Timed ((tripcSetTimeout c ms cb).exec s).2.router) := by
  obtain ⟨now, now', t, hexec, ht⟩ := exec_tripcSetTimeout c ms cb s
  rw [hexec, ht]
  refine ⟨?_, rfl, fun hcb hc hnil hs => hs.arm hc hnil hcb _ now now' ms⟩
  exact (Moves.timer _ _ now now' ms (cb c)).trans (.setConn _ c fun _ => rfl)

/-- Behind the cancellation of the timer, and writes nobody finds. -/
theorem arm_behind {c : Ptr} (ms : ℤ) {cb : Ptr → Callback} (hcb : (cb c).Arms c) {s t : Env}
    (hc : c < s.router.heap.brk) (hst : Still ((tripcCancelTimeout c).exec s).2.router t.router) :
    Moves (some (cb c)) s.router ((tripcSetTimeout c ms cb).exec t).2.router ∧
      ((tripcSetTimeout c ms cb).exec t).2.router.resolveq = s.router.resolveq ∧
      (Timed s.router → Timed ((tripcSetTimeout c ms cb).exec t).2.router) := by
  obtain ⟨hsteady, hnil⟩ := disarm c s
  have hsteady' := hsteady.trans (.still hst)
  obtain ⟨hmoves, hq, htimed⟩ := arm_moves c ms cb t
  refine ⟨hsteady'.moves.trans' hmoves, hq.trans hsteady'.resolveq, fun hs => ?_⟩
  refine htimed hcb (hc.trans_le hsteady'.moves.brk) ?_ (hsteady'.timed hs)
  unfold Router.pending
  rw [hst.pending _ fun _ => Callback.ofConn_of_ofState]
  exact hnil hs

/-- There is one more connection, which nothing refers to. -/
theorem Timed.grow {r r' : Router} (h : Timed r) (hbrk : r'.heap.brk = r.heap.brk + 1)
    (hconn : ∀ d, d ≠ r.heap.brk → r'.heap.conn d = r.heap.conn d)
    (hpending : ∀ p, r'.pending p = r.pending p) (hmap : r'.conn = r.conn) : Timed r' := by
  refine ⟨fun d => ?_, ?_, fun d hd => ?_, hmap ▸ h.sized⟩
  · rw [hpending]
    rcases eq_or_ne d r.heap.brk with rfl | hd
    · have hnil : r.pending (Callback.ofState r.heap.brk) = [] := by
        refine Timerwheel.pending_eq_nil_of_imp (fun cb hcb => ?_) h.bound
        cases cb <;> simp_all [Callback.ofState, Callback.beyond, Callback.conn?]
      rw [hnil]
      exact List.nil_sublist _
    · rw [hconn d hd]
      exact h.own d
  · rw [hpending, hbrk]
    refine Timerwheel.pending_eq_nil_of_imp (fun cb hcb => ?_) h.bound
    unfold Callback.beyond at hcb ⊢
    cases hconn? : cb.conn? with
    | none => rw [hconn?] at hcb; exact hcb
    | some d =>
      rw [hconn?, Option.any_some, decide_eq_true_eq] at hcb
      rw [Option.any_some, decide_eq_true_eq]
      exact (Nat.le_succ _).trans hcb
  · rw [hmap] at hd
    rw [hbrk]
    exact (h.mapped d hd).trans (Nat.lt_succ_self _)

theorem Moves.grow {r r' : Router} (hbrk : r'.heap.brk = r.heap.brk + 1)
    (hconn : ∀ d, d ≠ r.heap.brk → r'.heap.conn d = r.heap.conn d)
    (hpending : ∀ p, r'.pending p = r.pending p) : Moves none r r' := by
  refine ⟨?_, fun d hd => ?_, fun p _ => ?_⟩
  · rw [hbrk]
    exact Nat.le_succ _
  · rw [hconn d hd.ne]
  · rw [hpending]
    exact Nat.le_add_right _ _

/-- A connection that a segment makes. -/
theorem Steady.fresh (r : Router) (src : ℤ) : Steady r (tripSegmentFresh r src) := by
  have hconn : ∀ d, d ≠ r.heap.brk → (tripSegmentFresh r src).heap.conn d = r.heap.conn d := by
    intro d hd
    rw [tripSegmentFresh, Router.setConn, ConnHeap.conn_set_of_ne _ hd, Router.setConn,
      ConnHeap.conn_set_of_ne _ hd]
    rfl
  exact ⟨.grow rfl hconn fun _ => rfl, rfl, fun h => h.grow rfl hconn (fun _ => rfl) rfl⟩

/-- The map is changed, and at most `c` is new in it. -/
theorem Steady.setMap {r : Router} {c : Ptr} {mh : Connmap × ConnHeap} (hc : c < r.heap.brk)
    (hheap : ConnHeap.Still r.heap mh.2) (hmap : ∀ d, mh.1.Has d → r.conn.Has d ∨ d = c)
    (hsized : r.conn.Sized → mh.1.Sized) : Steady r (r.setMap mh) := by
  refine ⟨.of_eq hheap.brk hheap.resolvekey fun _ _ => le_rfl, rfl,
    fun h => ⟨fun d => ?_, ?_, ?_, hsized h.sized⟩⟩
  · rw [Router.heap_setMap, hheap.statetimer]
    exact h.own d
  · rw [Router.heap_setMap, hheap.brk]
    exact h.bound
  · intro d hd
    rw [Router.heap_setMap, hheap.brk]
    rcases hmap d hd with hd | rfl
    · exact h.mapped d hd
    · exact hc

/-- An addition to the map. -/
theorem Steady.add {c : Ptr} {s : Env} (hc : c < s.router.heap.brk) :
    Steady s.router ((connmapAddM c).exec s).2.router := by
  rw [exec_connmapAddM]
  exact setMap hc (.add _ _ c _ _ _) (fun d => Connmap.Has.of_add) fun h => h.add _ c _ _ _

/-- **Programs leave resolving alone.** -/
theorem Steady.frame : Frame (fun r c => c < r.heap.brk) Steady where
  trans := trans
  still := still
  keep := fun h hc => hc.trans_le h.moves.brk
  cancel := cancel
  disarm := fun c s => (disarm c s).1
  arm := by
    intro c ms cb s t hc hcb hst
    have harms : (cb c).Arms c ∧ (cb c).ofResolve = false := by
      rcases hcb with rfl | rfl
      · exact ⟨Or.inr (Or.inl rfl), rfl⟩
      · exact ⟨Or.inr (Or.inr rfl), rfl⟩
    obtain ⟨hmoves, hq, htimed⟩ := arm_behind ms harms.1 hc hst
    refine ⟨hmoves.of_other ?_, hq, htimed⟩
    rintro _ ⟨⟩
    exact harms.2
  fresh := fresh
  fresh_ok := fun _ _ => Nat.lt_succ_self _
  add := fun _ _ hc => add hc

/-! ### Sending -/

/-- A program that leaves resolving alone. -/
abbrev Steadies {α : Type} (m : TripM α) : Prop := Framed Steady m

namespace Steadies

variable {α β : Type} {c : Ptr}

theorem stays {m : TripM α} (hm : Stays m) : Steadies m := Steady.frame.stays hm

theorem bind {m : TripM α} {f : α → TripM β} (hm : Steadies m) (hf : ∀ a, Steadies (f a)) :
    Steadies (m >>= f) := Steady.frame.bind hm hf

theorem ite {p : Prop} [Decidable p] {m n : TripM α} (hm : Steadies m) (hn : Steadies n) :
    Steadies (if p then m else n) := Frame.ite hm hn

theorem store {f : Router → Router} (hf : ∀ r, Steady r (f r)) : Steadies (Libtrp.store f) :=
  fun s => hf s.router

theorem tripcSetError (eval : Errno) (msg : Option String) :
    Steadies (Libtrp.tripcSetError c eval msg) := Steady.frame.tripcSetError eval msg

theorem tripPackM (blen : ℕ) (fmt : List PackDir) (as : List PackArg) :
    Steadies (Libtrp.tripPackM blen fmt as) := by
  refine bind (stays (.consult _)) fun sign => bind (stays (.fetch _)) fun buf => ?_
  cases tripPack sign blen buf fmt as with
  | none => exact stays .stuck
  | some p => exact bind (store fun _ => .of_eq rfl rfl rfl rfl) fun _ => stays (.pure _)

theorem tripcSendOnce {send : TripM ℕ} (hs : Steadies send) :
    Steadies (Libtrp.tripcSendOnce c send) := by
  refine bind (stays (.getConn c)) fun x => ite (bind hs fun wlen => ?_) (stays (.pure _))
  exact bind (stays (.setConn fun _ => ⟨rfl, rfl⟩)) fun _ => stays (.pure _)

theorem tripcSendPing (blen : ℕ) : Steadies (Libtrp.tripcSendPing c blen) := by
  refine bind (stays (.getConn c)) fun x => ite (bind (stays .tripcSeq) fun seq => ?_)
    (stays (.pure _))
  refine bind (stays (.setConn fun _ => ⟨rfl, rfl⟩)) fun _ => ?_
  cases x.self.nonce with
  | none => exact stays .stuck
  | some nonce =>
    refine bind (stays .randombytesBuf) fun _ => ?_
    exact bind (stays (.setConn fun _ => ⟨rfl, rfl⟩)) fun _ => tripPackM _ _ _

theorem tripcSend (len : ℕ) : Steadies (Libtrp.tripcSend c len) := by
  have hpacked : ∀ (fmt : List PackDir) (as : UInt64 → Connection → List PackArg),
      Steadies (do
        let seq ← tripcSeq c
        let x ← getConn c
        Libtrp.tripPackM len fmt (as seq x)) :=
    fun fmt as => bind (stays .tripcSeq) fun seq => bind (stays (.getConn c)) fun x =>
      tripPackM _ _ _
  refine bind (stays (.getConn c)) fun x => ?_
  cases x.state with
  | START | CLOSE => exact bind (tripcSetError _ _) fun _ => stays (.pure _)
  | RESOLVE | READY | END | ERROR => exact stays (.pure _)
  | OPEN => exact tripcSendOnce (hpacked _ _)
  | CHAL => exact tripcSendOnce (hpacked _ _)
  | PING | READY_PING => exact tripcSendPing len

end Steadies

/-- A task that is neither a callback of a timer nor asks to resolve. -/
def Task.mute : Task → Bool
  | .callback _ | .resolve _ _ => false
  | _ => true

theorem Task.mute_of_plain {t : Task} (h : t.plain = true) : t.mute = true := by
  cases t <;> first | rfl | exact absurd h Bool.false_ne_true

/-- A program that leaves resolving alone, and so does what is left of it. -/
def Mutes (m : TripM (List Task)) : Prop :=
  Prog.Leaves (fun s t => Steady s.router t.router) (fun ts => ∀ u ∈ ts, u.mute = true) m

namespace Mutes

variable {α : Type} {c : Ptr}

theorem of_plain {m : TripM (List Task)} (hm : Plain Steady m) : Mutes m :=
  fun s ts t h => ⟨(hm s ts t h).1, fun u hu => Task.mute_of_plain ((hm s ts t h).2 u hu)⟩

theorem pure {ts : List Task} (h : ∀ u ∈ ts, u.mute = true) : Mutes (Pure.pure ts) :=
  Prog.Leaves.pure (R := fun s t : Env => Steady s.router t.router) (fun _ => .refl _) h

theorem nil : Mutes (Pure.pure []) := pure fun _ hu => absurd hu List.not_mem_nil

theorem one {t : Task} (h : t.mute = true) : Mutes (Pure.pure [t]) :=
  pure fun _ hu => List.mem_singleton.mp hu ▸ h

theorem bind {m : TripM α} {f : α → TripM (List Task)} (hm : Steadies m) (hf : ∀ a, Mutes (f a)) :
    Mutes (m >>= f) :=
  Prog.Leaves.bind (R := fun s t : Env => Steady s.router t.router)
    (fun _ _ _ h h' => h.trans h') hm hf

theorem ite {p : Prop} [Decidable p] {m n : TripM (List Task)} (hm : Mutes m) (hn : Mutes n) :
    Mutes (if p then m else n) := Prog.Leaves.ite (fun _ => hm) fun _ => hn

theorem callPacket {t : Task} (h : t.mute = true) : Mutes (Libtrp.callPacket [t]) :=
  bind (.stays (.fetch _)) fun _ => ite (one h) Prog.Leaves.stuck

theorem tripSendLimit (sent : UInt32) : Mutes (Libtrp.tripSendLimit sent) :=
  bind (.stays (.fetch _)) fun _ => ite nil (one rfl)

/-- **The tasks that send.** -/
theorem sends {t : Task} (ht : t.sends = true ∨ ∃ events, t = .listenOut events) (code : Errno) :
    Mutes (t.run code) := by
  have hzero : Steadies (store fun r => { r with sendlen := 0 }) :=
    .store fun _ => .of_eq rfl rfl rfl rfl
  cases t with
  | listenOut events =>
    exact ite (bind (.stays (.fetch _)) fun _ => ite (callPacket rfl) (one rfl)) nil
  | resend =>
    exact ite (ite (one rfl) (one rfl)) (bind hzero fun _ => one rfl)
  | send c connsent sent =>
    refine ite (ite (bind (.stays (.getConn c)) fun x => ?_) (one rfl))
      (bind hzero fun _ => one rfl)
    exact bind (.store fun _ => .of_eq rfl rfl rfl rfl) fun _ => nil
  | sendNext sent =>
    refine bind (fun s => .still ?_) fun c => ?_
    · exact .of_heap (ConnHeap.Still.sendq.dq _ _) rfl rfl rfl rfl (.refl _) rfl
    cases c with
    | none => exact nil
    | some c => exact one rfl
  | pack c connsent sent =>
    refine bind (.stays (.fetch _)) fun max => ite ?_ (bind ?_ fun _ => tripSendLimit sent)
    · refine bind (.stays (.fetch _)) fun buflen => bind (.tripcSend buflen) fun len => ?_
      exact bind (.store fun _ => .of_eq rfl rfl rfl rfl) fun _ => one rfl
    · refine .store fun _ => .still ?_
      exact .of_heap (ConnHeap.Still.sendq.nq _ _ c) rfl rfl rfl rfl (.refl _) rfl
  | packed c connsent sent =>
    refine bind (.stays (.fetch _)) fun sendlen => ite (bind hzero fun _ => one rfl) ?_
    exact ite (callPacket rfl) (tripSendLimit sent)
  | _ =>
    rcases ht with ht | ⟨_, ht⟩
    · exact absurd ht Bool.false_ne_true
    · exact nomatch ht

end Mutes

/-! ### Callbacks -/

/-- What a callback that is on top finds: its connection is there, and no other timer of
that connection's state is pending. -/
def Callback.Due (cb : Callback) (r : Router) : Prop :=
  ∀ c ∈ cb.conn?, c < r.heap.brk ∧ (cb.ofState c = true → r.pending (Callback.ofState c) = [])

/-- A connection begins: when it resolves, the timer for it is armed. -/
theorem tripcStart_moves {c : Ptr} {s : Env} (hc : c < s.router.heap.brk) :
    Moves (some (.tripcTimeoutStateResolve c)) s.router ((tripcStart c).exec s).2.router ∧
      ((tripcStart c).exec s).2.router.resolveq = s.router.resolveq ∧
      (Timed s.router → Timed ((tripcStart c).exec s).2.router) := by
  have hsteady : ∀ {r : Router}, Steady s.router r →
      Moves (some (.tripcTimeoutStateResolve c)) s.router r ∧ r.resolveq = s.router.resolveq ∧
        (Timed s.router → Timed r) := by
    intro r h
    refine ⟨⟨h.moves.brk, h.moves.key, fun p hp => ?_⟩, h.resolveq, h.timed⟩
    have hlen := h.moves.pending p hp
    rw [Option.any_none, if_neg (by decide)] at hlen
    exact hlen.trans (Nat.le_add_right _ _)
  unfold tripcStart
  rw [Prog.exec_bind_of (exec_getConn _ _), Prog.exec_ite]
  split
  · exact hsteady (Steadies.tripcSetError _ _ s)
  · split
    · exact hsteady (Steady.frame.tripcSetState (by decide) s hc)
    · -- the timer is cancelled, the state changes, and the timer is armed
      obtain ⟨t, hexec, -, -⟩ := exec_tripcCancelTimeout c s
      have hstill : Still ((tripcCancelTimeout c).exec s).2.router
          (t.router.setConn c fun x => { x with state := .RESOLVE }) := by
        rw [hexec]
        exact .setConn _ c fun _ => ⟨rfl, rfl⟩
      show Moves _ _ ((tripcCancelTimeout c >>= fun _ => _).exec s).2.router ∧
        ((tripcCancelTimeout c >>= fun _ => _).exec s).2.router.resolveq = _ ∧
        (_ → Timed ((tripcCancelTimeout c >>= fun _ => _).exec s).2.router)
      rw [Prog.exec_bind_of hexec, Prog.exec_bind_of (exec_setConn _ _ _)]
      show Moves _ _ ((getConn c >>= fun x => _).exec _).2.router ∧
        ((getConn c >>= fun x => _).exec _).2.router.resolveq = _ ∧
        (_ → Timed ((getConn c >>= fun x => _).exec _).2.router)
      rw [Prog.exec_bind_of (exec_getConn _ _)]
      exact arm_behind _ (Or.inl rfl) hc hstill

/-- The timer for resolving has expired. -/
theorem tripcTimeoutStateResolve_moves {c : Ptr} {s t : Env}
    (h : (tripcTimeoutStateResolve c).exec s = (some (), t)) :
    resolveqDel s.router.resolveq (s.router.heap.conn c).resolvekey = some t.router.resolveq ∧
      Moves none s.router t.router ∧
      (s.router.pending (Callback.ofState c) = [] → Timed s.router → Timed t.router) := by
  unfold tripcTimeoutStateResolve at h
  rw [Prog.exec_bind_of (exec_getConn _ _), Prog.exec_bind_of (exec_fetch _ _)] at h
  cases hdel : resolveqDel s.router.resolveq (s.router.heap.conn c).resolvekey with
  | none =>
    rw [hdel] at h
    cases h
  | some q =>
    rw [hdel] at h
    dsimp only at h
    rw [Prog.exec_bind_of (exec_store _ _), Prog.exec_bind_of (exec_setConn _ _ _)] at h
    generalize hu : Env.setRouter (Env.setRouter _ _) _ = u at h
    have herror := Steadies.tripcSetError (c := c) ETIME none u
    rw [h] at herror
    have hrouter : u.router = (s.router.setResolveq q).setConn c fun x =>
      { x with statetimer := none } := by
      rw [← hu]
      rfl
    rw [hrouter] at herror
    refine ⟨by rw [herror.resolveq]; rfl, ?_, fun hnil hs => herror.timed ?_⟩
    · have hqueue : Moves none s.router (s.router.setResolveq q) :=
        .of_eq rfl (fun _ => rfl) fun _ _ => le_rfl
      have hforget : Moves none (s.router.setResolveq q)
          ((s.router.setResolveq q).setConn c fun x => { x with statetimer := none }) :=
        .setConn _ c fun _ => rfl
      exact (hqueue.trans hforget).trans herror.moves
    · have hs' : Timed (s.router.setResolveq q) :=
        ⟨hs.own, hs.bound, hs.mapped, hs.sized⟩
      exact hs'.forget hnil

/-- A segment is sent again: the timer is armed where none is pending. -/
theorem tripcTimeoutStateResend_steady {c : Ptr} {s : Env} (hc : c < s.router.heap.brk)
    (hnil : s.router.pending (Callback.ofState c) = []) :
    Steady s.router ((tripcTimeoutStateResend c).exec s).2.router := by
  unfold tripcTimeoutStateResend
  rw [Prog.exec_bind_of (exec_triptimeNow _), Prog.exec_bind_of (exec_getConn _ _), Prog.exec_ite]
  split
  · exact Steadies.bind (.tripcSetError _ _) (fun _ => .stays (.pure true)) s.popClock
  · have hsend := Stays.tripcSetSend (c := c) s.popClock
    rw [Prog.exec_bind]
    rcases hexec : (tripcSetSend c).exec s.popClock with ⟨_ | _, t⟩
    · rw [hexec] at hsend
      exact .still hsend
    · rw [hexec] at hsend
      obtain ⟨ms, u, hu⟩ : ∃ ms u, (tripcGetGrowth c).exec t = (some ms, u) := ⟨_, _, rfl⟩
      have hgrowth := Stays.tripcGetGrowth (c := c) t
      rw [hu] at hgrowth
      have hstill : Still s.router u.router := hsend.trans hgrowth
      dsimp only
      rw [Prog.exec_bind_of hu]
      obtain ⟨hmoves, hq, htimed⟩ := arm_moves c ms .tripcTimeoutStateResend u
      obtain ⟨_, _, v, hv, -⟩ := exec_tripcSetTimeout c ms .tripcTimeoutStateResend u
      rw [Prog.exec_bind_of hv]
      rw [hv] at hmoves hq htimed
      refine ⟨?_, hq.trans hstill.resolveq, fun hs => ?_⟩
      · refine ((Moves.still hstill).trans' hmoves).of_other ?_
        rintro _ ⟨⟩
        rfl
      · refine htimed (Or.inr (Or.inl rfl)) (by rw [hstill.heap.brk]; exact hc) ?_ (hs.still hstill)
        unfold Router.pending
        rw [hstill.pending _ fun _ => Callback.ofConn_of_ofState]
        exact hnil

end Libtrp
