import Libtrp.TripMoves

/-!
# Asking to resolve

What opening a connection does, by what fails, and what the answer to it does: of the
packet interface, or of the timer.  With what leaves resolving alone these are all the
steps of the machine.

## Main definitions

* `Opens` — what `trip_open_connection` does.
* `Answered d r r'` — the connection `d` has its answer.
* `Task.Moved`, `Api.Moved` — what a task on top does to resolving, and what a call does.

## Main results

* `exec_tripOpenConnection` — **opening a connection** does one of those.
* `tripResolve_cases` — **what a resolution does.**
* `Task.run_moved`, `Api.run_moved` — every step is one of these.

## References

`src/trip.c` (`trip_open_connection`, `_trip_open_connection_async_cb`, `trip_resolve`),
`src/resolveq.c`.
-/

namespace Libtrp

open Lib

/-! ### Opening a connection -/

/-- A connection that is opened, with its key. -/
def tripcOpened (maxStreams : UInt32) (key : ℤ) : Connection :=
  { tripcInit false maxStreams with resolvekey := key }

/-- The router when the connection that is opened was put into the resolve queue. -/
def tripOpenFresh (r : Router) (alloc : Bool) : Router :=
  (r.allocConn.setResolveq (resolveqPut r.resolveq r.heap.brk alloc).2).setConn r.heap.brk
    fun _ => tripcOpened r.maxStreams (resolveqPut r.resolveq r.heap.brk alloc).1

section Fresh

variable (r : Router) (alloc : Bool)

theorem conn_tripOpenFresh : (tripOpenFresh r alloc).conn = r.conn := rfl

theorem conn_tripOpenFresh_self : (tripOpenFresh r alloc).heap.conn r.heap.brk =
    tripcOpened r.maxStreams (resolveqPut r.resolveq r.heap.brk alloc).1 :=
  ConnHeap.conn_set_self r.allocConn.heap r.heap.brk
    fun _ => tripcOpened r.maxStreams (resolveqPut r.resolveq r.heap.brk alloc).1

theorem conn_tripOpenFresh_of_ne {d : Ptr} (hd : d ≠ r.heap.brk) :
    (tripOpenFresh r alloc).heap.conn d = r.heap.conn d :=
  ConnHeap.conn_set_of_ne r.allocConn.heap hd
    fun _ => tripcOpened r.maxStreams (resolveqPut r.resolveq r.heap.brk alloc).1

/-- What the program has done so far. -/
theorem tripOpenFresh_eq : tripOpenFresh r alloc =
    ((r.allocConn.setConn r.heap.brk fun _ => tripcInit false r.maxStreams).setResolveq
      (resolveqPut r.resolveq r.heap.brk alloc).2).setConn r.heap.brk
        fun x => { x with resolvekey := (resolveqPut r.resolveq r.heap.brk alloc).1 } := by
  have hset := Router.setConn_setConn
    (r.allocConn.setResolveq (resolveqPut r.resolveq r.heap.brk alloc).2) r.heap.brk
    (fun _ => tripcInit false r.maxStreams)
    fun x => { x with resolvekey := (resolveqPut r.resolveq r.heap.brk alloc).1 }
  exact hset.symm

end Fresh

/-- `_tripc_set_error` of a connection that has just begun. -/
def Connection.refused (e : Errno) (errmsg : Option String) (x : Connection) : Connection :=
  { x with error := e, errmsg := errmsg, state := .ERROR }

/-- What `trip_open_connection` does, by what fails. -/
inductive Opens (s : Env) : List Task → Router → Prop
  | reject {err : Errno} : s.router.has triprFlagAllowOut = false ∧ err = EINVAL ∨
        s.oracle.alloc.head = false ∧ err = ENOMEM →
      Opens s [.reject err] s.router
  | busy {code : Errno} {mh : Connmap × ConnHeap} (errmsg : Option String) :
      s.router.has triprFlagAllowOut = true → s.oracle.alloc.head = true →
      connmapAdd s.router.conn (tripOpenFresh s.router s.oracle.alloc.tail.head).heap
        s.router.heap.brk s.oracle.alloc.tail.tail.head s.oracle.random.head
        s.oracle.random.tail.head = (code, mh) → code ≠ 0 →
      Opens s [.connection s.router.heap.brk, .freeConnection s.router.heap.brk]
        (((tripOpenFresh s.router s.oracle.alloc.tail.head).setMap mh).setConn s.router.heap.brk
          (Connection.refused EBUSY errmsg))
  | timer {mh : Connmap × ConnHeap} (errmsg : Option String) :
      s.router.has triprFlagAllowOut = true → s.oracle.alloc.head = true →
      connmapAdd s.router.conn (tripOpenFresh s.router s.oracle.alloc.tail.head).heap
        s.router.heap.brk s.oracle.alloc.tail.tail.head s.oracle.random.head
        s.oracle.random.tail.head = (0, mh) → s.oracle.alloc.tail.tail.tail.head = false →
      Opens s [.connection s.router.heap.brk, .freeConnection s.router.heap.brk]
        (((tripOpenFresh s.router s.oracle.alloc.tail.head).setMap mh).setConn s.router.heap.brk
          (Connection.refused ENOMEM errmsg))
  | armed {mh : Connmap × ConnHeap} (now now' : ℕ) :
      s.router.has triprFlagAllowOut = true → s.oracle.alloc.head = true →
      connmapAdd s.router.conn (tripOpenFresh s.router s.oracle.alloc.tail.head).heap
        s.router.heap.brk s.oracle.alloc.tail.tail.head s.oracle.random.head
        s.oracle.random.tail.head = (0, mh) → s.oracle.alloc.tail.tail.tail.head = true →
      Opens s [] (((tripOpenFresh s.router s.oracle.alloc.tail.head).setMap mh).setTimers
        (tripSetTimeout true now now' 0 (some (.tripOpenConnectionAsync s.router.heap.brk))
          s.router.timers).2)

/-- The connection goes to `ERROR`. -/
theorem exec_tripcSetError {c : Ptr} {s : Env} (hs : (s.router.heap.conn c).state ≠ .ERROR)
    (eval : Errno) (msg : Option String) :
    ∃ t errmsg, (tripcSetError c eval msg).exec s = (some (), t) ∧
      t.router = s.router.setConn c (Connection.refused eval errmsg) := by
  unfold tripcSetError
  rw [Prog.exec_bind_of (exec_getConn _ _), if_pos hs, Prog.exec_bind_of (exec_tripmAlloc _),
    Prog.exec_bind_of (exec_setConn _ _ _)]
  refine ⟨_, if s.oracle.alloc.head then some (msg.getD "") else none, rfl, ?_⟩
  exact Router.setConn_setConn _ _ _ _

/-- **Opening a connection** does one of these. -/
theorem exec_tripOpenConnection (s : Env) :
    ∃ ts t, tripOpenConnection.exec s = (some ts, t) ∧ Opens s ts t.router := by
  unfold tripOpenConnection
  rw [Prog.exec_bind_of (exec_fetch _ _), Prog.exec_ite]
  cases hallow : s.router.has triprFlagAllowOut with
  | false => exact ⟨_, s, rfl, .reject (Or.inl ⟨hallow, rfl⟩)⟩
  | true =>
    rw [if_pos rfl, exec_tripNewConnection_bind]
    cases halloc : s.oracle.alloc.head with
    | false => exact ⟨_, s.popAlloc, rfl, .reject (Or.inr ⟨halloc, rfl⟩)⟩
    | true =>
      rw [if_pos rfl]
      dsimp only
      rw [Prog.exec_bind_of (exec_fetch _ _), Prog.exec_bind_of (exec_setConn _ _ _)]
      obtain ⟨t, ht, hrouter, horacle⟩ : ∃ t,
          (tripResolveqPut s.router.heap.brk).exec
            ((s.popAlloc.setRouter s.router.allocConn).setRouter
              ((s.popAlloc.setRouter s.router.allocConn).router.setConn s.router.heap.brk fun _ =>
                tripcInit false (s.popAlloc.setRouter s.router.allocConn).router.maxStreams)) =
            (some (), t) ∧ t.router = tripOpenFresh s.router s.oracle.alloc.tail.head ∧
          t.oracle = { s.oracle with alloc := s.oracle.alloc.tail.tail } :=
        ⟨_, rfl, (tripOpenFresh_eq _ _).symm, rfl⟩
      have hstate : ((tripOpenFresh s.router s.oracle.alloc.tail.head).heap.conn
          s.router.heap.brk).state = .START := by
        rw [conn_tripOpenFresh_self]
        rfl
      rw [Prog.exec_bind_of ht, Prog.exec_bind_of (exec_connmapAddM _ t), hrouter, horacle,
        conn_tripOpenFresh]
      dsimp only
      have hself := connmapAdd_conn_self Connection.state (fun _ _ => rfl) s.router.conn
        (tripOpenFresh s.router s.oracle.alloc.tail.head).heap s.router.heap.brk
        s.oracle.alloc.tail.tail.head s.oracle.random.head s.oracle.random.tail.head
      rcases hadd : connmapAdd s.router.conn (tripOpenFresh s.router s.oracle.alloc.tail.head).heap
          s.router.heap.brk s.oracle.alloc.tail.tail.head s.oracle.random.head
          s.oracle.random.tail.head with ⟨code, mh⟩
      rw [hadd, hstate] at hself
      dsimp only at hself ⊢
      generalize hu : Env.setRouter _ _ = u
      have hurouter : u.router = (tripOpenFresh s.router s.oracle.alloc.tail.head).setMap mh := by
        rw [← hu]
        rfl
      have huoracle : u.oracle.alloc = s.oracle.alloc.tail.tail.tail := by
        rw [← hu]
        show t.oracle.alloc.tail = _
        rw [horacle]
      by_cases hcode : code ≠ 0
      · rw [if_pos hcode]
        obtain ⟨v, errmsg, hv, hvrouter⟩ := exec_tripcSetError (c := s.router.heap.brk) (s := u)
          (by rw [hurouter, Router.heap_setMap, hself]; decide) EBUSY none
        rw [Prog.exec_bind_of hv]
        refine ⟨_, v, rfl, ?_⟩
        rw [hvrouter, hurouter]
        exact .busy errmsg hallow halloc hadd hcode
      · rw [if_neg hcode]
        obtain rfl := not_not.mp hcode
        obtain ⟨now, now', v, hv, hvrouter⟩ :=
          exec_tripSetTimeoutM 0 (.tripOpenConnectionAsync s.router.heap.brk) u
        rw [huoracle, hurouter] at hvrouter
        rw [huoracle] at hv
        cases htimer : s.oracle.alloc.tail.tail.tail.head with
        | false =>
          rw [htimer] at hv hvrouter
          rw [Prog.exec_bind_of hv]
          -- no timer was set
          have hvrouter : v.router = (tripOpenFresh s.router s.oracle.alloc.tail.head).setMap mh :=
            hvrouter
          obtain ⟨w, errmsg, hw, hwrouter⟩ := exec_tripcSetError (c := s.router.heap.brk) (s := v)
            (by rw [hvrouter, Router.heap_setMap, hself]; decide) ENOMEM none
          dsimp only [Option.isNone_none]
          rw [if_pos rfl, Prog.exec_bind_of hw]
          refine ⟨_, w, rfl, ?_⟩
          rw [hwrouter, hvrouter]
          exact .timer errmsg hallow halloc hadd htimer
        | true =>
          rw [htimer] at hv hvrouter
          rw [Prog.exec_bind_of hv]
          refine ⟨_, v, rfl, ?_⟩
          rw [hvrouter]
          exact .armed now now' hallow halloc hadd htimer

/-- A timer that is not one of a connection's state is set. -/
theorem Timed.timer {r : Router} (h : Timed r) {cb : Callback} (hcb : ∀ d, cb.ofState d = false)
    (hb : cb.beyond r.heap.brk = false) (alloc : Bool) (now now' : ℕ) (ms : ℤ) :
    Timed (r.setTimers (tripSetTimeout alloc now now' ms (some cb) r.timers).2) := by
  have hpending := fun p => pending_tripSetTimeout p alloc now now' ms cb r.timers
  refine ⟨fun d => ?_, ?_, h.mapped, h.sized⟩
  · show ((tripSetTimeout alloc now now' ms (some cb) r.timers).2.wheel.pending _).Sublist _
    rw [hpending, hcb, Bool.and_false]
    exact h.own d
  · show (tripSetTimeout alloc now now' ms (some cb) r.timers).2.wheel.pending
      (Callback.beyond r.heap.brk) = []
    rw [hpending, hb, Bool.and_false]
    exact h.bound

/-- The connection that is opened is put into the map. -/
theorem tripOpenFresh_setMap {r : Router} (alloc alloc' : Bool) {r₁ r₂ : UInt32} {code : Errno}
    {mh : Connmap × ConnHeap}
    (hadd : connmapAdd r.conn (tripOpenFresh r alloc).heap r.heap.brk alloc' r₁ r₂ = (code, mh)) :
    Moves none r ((tripOpenFresh r alloc).setMap mh) ∧ mh.2.brk = r.heap.brk + 1 ∧
      (mh.2.conn r.heap.brk).resolvekey = (resolveqPut r.resolveq r.heap.brk alloc).1 ∧
      (Timed r → Timed ((tripOpenFresh r alloc).setMap mh)) := by
  have hconn : ∀ d, d ≠ r.heap.brk → (tripOpenFresh r alloc).heap.conn d = r.heap.conn d :=
    fun d hd => conn_tripOpenFresh_of_ne r alloc hd
  have hstill := ConnHeap.Still.add r.conn (tripOpenFresh r alloc).heap r.heap.brk alloc' r₁ r₂
  have hmap := fun d =>
    @Connmap.Has.of_add r.conn r.heap.brk d (tripOpenFresh r alloc).heap alloc' r₁ r₂
  have hsized := fun h =>
    @Connmap.Sized.add r.conn h (tripOpenFresh r alloc).heap r.heap.brk alloc' r₁ r₂
  rw [hadd] at hstill hmap hsized
  have hsteady : Steady (tripOpenFresh r alloc) ((tripOpenFresh r alloc).setMap mh) :=
    .setMap (c := r.heap.brk) (Nat.lt_succ_self _) hstill hmap hsized
  have hgrow : Moves none r (tripOpenFresh r alloc) := .grow rfl hconn fun _ => rfl
  refine ⟨hgrow.trans hsteady.moves, hstill.brk, ?_, fun h => hsteady.timed ?_⟩
  · rw [hstill.resolvekey, conn_tripOpenFresh_self]
    rfl
  · exact h.grow rfl hconn (fun _ => rfl) rfl

/-- The connection is in the resolve queue with its key, and its timer is armed unless
opening it failed. -/
structure Opened (r r' : Router) (alloc : Bool) (cb : Option Callback) : Prop where
  moves : Moves cb r r'
  brk : r'.heap.brk = r.heap.brk + 1
  resolveq : r'.resolveq = (resolveqPut r.resolveq r.heap.brk alloc).2
  key : (r'.heap.conn r.heap.brk).resolvekey = (resolveqPut r.resolveq r.heap.brk alloc).1
  begins : ∀ cb' ∈ cb, cb' = .tripOpenConnectionAsync r.heap.brk

/-- What opening a connection does to resolving. -/
theorem Opens.moved {s : Env} {ts : List Task} {r' : Router} (h : Opens s ts r')
    (hs : Timed s.router) : Timed r' ∧ (∀ u ∈ ts, u.mute = true) ∧
      (r' = s.router ∨ ∃ cb, Opened s.router r' s.oracle.alloc.tail.head cb) := by
  have hmute : ∀ c, ∀ u ∈ [Task.connection c, .freeConnection c], u.mute = true := by
    simp [Task.mute]
  have hfail : ∀ {mh : Connmap × ConnHeap} {code e : Errno} {errmsg : Option String},
      connmapAdd s.router.conn (tripOpenFresh s.router s.oracle.alloc.tail.head).heap
        s.router.heap.brk s.oracle.alloc.tail.tail.head s.oracle.random.head
        s.oracle.random.tail.head = (code, mh) →
      Timed (((tripOpenFresh s.router s.oracle.alloc.tail.head).setMap mh).setConn s.router.heap.brk
        (Connection.refused e errmsg)) ∧
      Opened s.router (((tripOpenFresh s.router s.oracle.alloc.tail.head).setMap mh).setConn
        s.router.heap.brk (Connection.refused e errmsg)) s.oracle.alloc.tail.head none := by
    intro mh code e errmsg hadd
    obtain ⟨hmoves, hbrk, hkey, htimed⟩ := tripOpenFresh_setMap _ _ hadd
    have hstill : Still ((tripOpenFresh s.router s.oracle.alloc.tail.head).setMap mh)
        (((tripOpenFresh s.router s.oracle.alloc.tail.head).setMap mh).setConn s.router.heap.brk
          (Connection.refused e errmsg)) := .setConn _ _ fun _ => ⟨rfl, rfl⟩
    refine ⟨(htimed hs).still hstill, hmoves.trans (.still hstill), hbrk, rfl, ?_, nofun⟩
    rw [hstill.heap.resolvekey]
    exact hkey
  cases h with
  | reject => exact ⟨hs, by simp [Task.mute], Or.inl rfl⟩
  | busy errmsg hallow halloc hadd hcode =>
    obtain ⟨htimed, hopened⟩ := hfail hadd
    exact ⟨htimed, hmute _, Or.inr ⟨none, hopened⟩⟩
  | timer errmsg hallow halloc hadd htimer =>
    obtain ⟨htimed, hopened⟩ := hfail hadd
    exact ⟨htimed, hmute _, Or.inr ⟨none, hopened⟩⟩
  | @armed mh now now' hallow halloc hadd htimer =>
    obtain ⟨hmoves, hbrk, hkey, htimed⟩ := tripOpenFresh_setMap _ _ hadd
    refine ⟨(htimed hs).timer (fun _ => rfl) ?_ true now now' 0, by simp,
      Or.inr ⟨some (.tripOpenConnectionAsync s.router.heap.brk), ?_⟩⟩
    · rw [Router.heap_setMap, hbrk]
      exact decide_eq_false (Nat.not_succ_le_self _)
    · refine ⟨hmoves.trans' (.timer _ true now now' 0 _), hbrk, rfl, hkey, ?_⟩
      rintro _ ⟨⟩
      rfl

/-! ### Resolving ends -/

/-- A timer of the connection `d`, with the answer. -/
theorem answer_moves {d : Ptr} {cb : Callback} (hcb : cb = .tripResolveDelaySuccess d ∨
    cb = .tripResolveDelayFailure d) {s : Env} (hd : d < s.router.heap.brk) :
    Moves (some cb) s.router ((tripSetTimeoutM 0 cb).exec s).2.router ∧
      ((tripSetTimeoutM 0 cb).exec s).2.router.resolveq = s.router.resolveq ∧
      ((tripSetTimeoutM 0 cb).exec s).2.router.pending (Callback.ofState d) =
        s.router.pending (Callback.ofState d) ∧
      (Timed s.router → Timed ((tripSetTimeoutM 0 cb).exec s).2.router) := by
  obtain ⟨now, now', t, hexec, ht⟩ := exec_tripSetTimeoutM 0 cb s
  have hof : ∀ e, cb.ofState e = false := by
    intro e
    rcases hcb with rfl | rfl <;> rfl
  have hbeyond : cb.beyond s.router.heap.brk = false := by
    rcases hcb with rfl | rfl <;> exact decide_eq_false (not_le.mpr hd)
  rw [hexec, ht]
  refine ⟨.timer _ _ now now' 0 cb, rfl, ?_, fun h => h.timer hof hbeyond _ now now' 0⟩
  show (tripSetTimeout _ now now' 0 (some cb) s.router.timers).2.wheel.pending _ = _
  rw [pending_tripSetTimeout, hof, Bool.and_false]
  rfl

/-- The connection `d` has its answer. -/
structure Answered (d : Ptr) (r r' : Router) : Prop where
  moves : Moves (some (.tripResolveDelaySuccess d)) r r' ∨
    Moves (some (.tripResolveDelayFailure d)) r r'
  resolveq : r'.resolveq = r.resolveq
  disarmed : r'.pending (Callback.ofState d) = []
  timed : Timed r'

/-- The timer for resolving is cancelled, and one with the answer is set. -/
theorem tripResolvePopped_answered {d : Ptr} {s : Env} (hd : d < s.router.heap.brk)
    (hs : Timed s.router) (src : ℤ) (err : Errno) (emsg : Option String) :
    Answered d s.router ((tripResolvePopped d src err emsg).exec s).2.router := by
  obtain ⟨t, hexec, -, -⟩ := exec_tripcCancelTimeout d s
  obtain ⟨hst, hnil⟩ := disarm d s
  rw [hexec] at hst hnil
  unfold tripResolvePopped
  rw [Prog.exec_bind_of hexec, Prog.exec_bind_of (exec_setConn _ _ _), Prog.exec_ite]
  generalize hu : t.setRouter (t.router.setConn d fun x => x.setSrc src) = u
  have htu : Still t.router u.router := by
    rw [← hu]
    exact .setConn _ d fun _ => ⟨rfl, rfl⟩
  have key : ∀ {cb : Callback}, cb = .tripResolveDelaySuccess d ∨ cb = .tripResolveDelayFailure d →
      ∀ v : Env, Still u.router v.router →
        Answered d s.router ((tripSetTimeoutM 0 cb >>= fun _ => pure ()).exec v).2.router := by
    intro cb hcb v huv
    have htv := htu.trans huv
    have hsv : Steady s.router v.router := hst.trans (.still htv)
    obtain ⟨hmoves, hq, hpending, htimed⟩ := answer_moves hcb (hd.trans_le hsv.moves.brk)
    rw [Prog.exec_discard]
    refine ⟨?_, hq.trans hsv.resolveq, ?_, htimed (hsv.timed hs)⟩
    · have hall := hsv.moves.trans' hmoves
      rcases hcb with rfl | rfl
      · exact Or.inl hall
      · exact Or.inr hall
    · rw [hpending, Router.pending, htv.pending _ fun _ => Callback.ofConn_of_ofState]
      exact hnil hs
  split
  · exact key (Or.inl rfl) u (.refl _)
  · have herror := Stays.tripcSetError (c := d) err emsg u
    obtain ⟨v, hv⟩ : ∃ v, (tripcSetError d err emsg).exec u = (some (), v) := by
      obtain ⟨_, hv⟩ := (RunsOn.tripcSetError (c := d) err emsg).total.exec_eq u
      exact ⟨_, hv⟩
    rw [hv] at herror
    rw [Prog.exec_bind_of hv]
    exact key (Or.inr rfl) v herror

/-- **What a resolution does**: nothing but free its slot when the connection has timed
out. -/
theorem tripResolve_cases {key src : ℤ} {err : Errno} {emsg : Option String} {s t : Env}
    (h : (tripResolve key src err emsg).exec s = (some (), t)) :
    (∃ q, resolveqPop s.router.resolveq key = some (none, q) ∧ t.router = s.router.setResolveq q) ∨
      ∃ d q, resolveqPop s.router.resolveq key = some (some d, q) ∧
        (d < s.router.heap.brk → Timed s.router →
          Answered d (s.router.setResolveq q) t.router) := by
  unfold tripResolve at h
  rw [Prog.exec_bind_of (exec_fetch _ _)] at h
  rcases hpop : resolveqPop s.router.resolveq key with _ | ⟨_ | d, q⟩
  · rw [hpop] at h
    cases h
  · rw [hpop] at h
    cases h
    exact Or.inl ⟨q, rfl, rfl⟩
  · rw [hpop] at h
    refine Or.inr ⟨d, q, rfl, fun hd hs => ?_⟩
    dsimp only at h
    rw [Prog.exec_bind_of (exec_store _ _)] at h
    have hs' : Timed (s.router.setResolveq q) := ⟨hs.own, hs.bound, hs.mapped, hs.sized⟩
    have hanswered := tripResolvePopped_answered (s := s.setRouter (s.router.setResolveq q))
      hd hs' src err emsg
    rw [h] at hanswered
    exact hanswered

/-! ### The steps -/

/-- What a task on top does to resolving, and what it leaves to do. -/
inductive Task.Moved (r : Router) : Task → List Task → Router → Prop
  | steady {t : Task} {ts : List Task} {r' : Router} : Steady r r' →
      (∀ u ∈ ts, u.mute = true) →
      (∀ c, t ≠ .callback (.tripOpenConnectionAsync c) ∧
        t ≠ .callback (.tripcTimeoutStateResolve c)) → Moved r t ts r'
  | walk {w w' : Walk Callback} {cb : Callback} {r' : Router} : r'.heap = r.heap →
      r'.resolveq = r.resolveq →
      (∀ p, (r'.pending p).length + (if p cb then 1 else 0) = (r.pending p).length) →
      cb.Due r' → Moved r (.walk w) [.callback cb, .walk w'] r'
  | ask {c : Ptr} {r' : Router} : Moves (some (.tripcTimeoutStateResolve c)) r r' →
      r'.resolveq = r.resolveq →
      Moved r (.callback (.tripOpenConnectionAsync c)) [.resolve c (r.heap.conn c).resolvekey] r'
  | timeout {c : Ptr} {r' : Router} :
      resolveqDel r.resolveq (r.heap.conn c).resolvekey = some r'.resolveq → Moves none r r' →
      Moved r (.callback (.tripcTimeoutStateResolve c)) (tripCloseConnection c) r'

/-- What a call does to resolving, and what it leaves to do; `alloc` is the outcome of the
allocation that may be made for the resolve queue. -/
inductive Api.Moved (alloc : Bool) (r : Router) : Api → List Task → Router → Prop
  | steady {api : Api} {ts : List Task} {r' : Router} : Steady r r' →
      (∀ u ∈ ts, u.mute = true) → (∀ key src err emsg, api ≠ .resolve key src err emsg) →
      Moved alloc r api ts r'
  | opened {ts : List Task} {r' : Router} {cb : Option Callback} : Opened r r' alloc cb →
      (∀ u ∈ ts, u.mute = true) → Moved alloc r .openConnection ts r'
  | late {key src : ℤ} {err : Errno} {emsg : Option String} {q : Resolveq} :
      resolveqPop r.resolveq key = some (none, q) →
      Moved alloc r (.resolve key src err emsg) [] (r.setResolveq q)
  | answered {key src : ℤ} {err : Errno} {emsg : Option String} {d : Ptr} {q : Resolveq}
      {r' : Router} : resolveqPop r.resolveq key = some (some d, q) →
      Answered d (r.setResolveq q) r' → Moved alloc r (.resolve key src err emsg) [] r'

/-- What the walk takes out is due, and the others are timed. -/
theorem Timed.walk {r : Router} (h : Timed r) {w w' : Walk Callback}
    {wheel : Timerwheel Callback} {cb : Option Callback}
    (hstep : w.step r.timers.wheel = some (w', wheel, cb)) :
    Timed (r.setTimers { r.timers with wheel := wheel }) ∧
      ∀ cb' ∈ cb, cb'.Due (r.setTimers { r.timers with wheel := wheel }) := by
  have hpending := fun p => Timerwheel.pending_step (p := p) hstep
  refine ⟨h.fewer fun p => (hpending p).1, fun cb' hcb c hc => ⟨?_, fun hof => ?_⟩⟩
  · -- a timer of a connection that is not there is not pending
    have hlen := (hpending (Callback.beyond r.heap.brk)).2
    rw [show r.timers.wheel.pending _ = [] from h.bound, Option.mem_def.mp hcb, Option.any_some]
      at hlen
    by_contra hlt
    have hbeyond : cb'.beyond r.heap.brk = true := by
      rw [Callback.beyond, Option.mem_def.mp hc, Option.any_some]
      exact decide_eq_true (not_lt.mp hlt)
    rw [hbeyond] at hlen
    exact absurd hlen (by simp)
  · -- there was at most one
    have hlen := (hpending (Callback.ofState c)).2
    have hone := (h.own c).length_le
    rw [Option.mem_def.mp hcb, Option.any_some, hof, if_pos rfl] at hlen
    have hle : (r.heap.conn c).statetimer.toList.length ≤ 1 := by
      cases (r.heap.conn c).statetimer <;> simp
    refine List.eq_nil_of_length_eq_zero ?_
    show (wheel.pending _).length = 0
    unfold Router.pending at hone
    omega

/-- What a task on top finds. -/
def Task.Due (t : Task) (r : Router) : Prop := ∀ cb, t = .callback cb → cb.Due r

/-- **Every task on top does one of these to resolving.** -/
theorem Task.run_moved {code : Errno} {u : Task} {s t : Env} {ts : List Task}
    (hs : Timed s.router) (hu : u.Due s.router) (h : (u.run code).exec s = (some ts, t)) :
    u.Moved s.router ts t.router ∧ Timed t.router := by
  have mutes : (∀ c, u ≠ .callback (.tripOpenConnectionAsync c) ∧
      u ≠ .callback (.tripcTimeoutStateResolve c)) → Mutes (u.run code) →
      u.Moved s.router ts t.router ∧ Timed t.router := by
    intro hne hm
    obtain ⟨hst, hts⟩ := hm s ts t h
    exact ⟨.steady hst hts hne, hst.timed hs⟩
  have framed : u.framed = true → u.Moved s.router ts t.router ∧ Timed t.router := by
    intro hframed
    obtain ⟨hst, hts⟩ := Steady.frame.task hframed code s ts t h
    have hsteady : Steady s.router t.router := by
      refine hst fun c hc => ?_
      cases u with
      | callback cb => exact (hu cb rfl c hc).1
      | _ => exact nomatch hc
    refine ⟨.steady hsteady (fun v hv => mute_of_plain (hts v hv)) fun c => ?_, hsteady.timed hs⟩
    constructor <;> rintro rfl <;> exact absurd hframed Bool.false_ne_true
  cases u with
  | resend => exact mutes (by simp) (.sends (Or.inl rfl) code)
  | send => exact mutes (by simp) (.sends (Or.inl rfl) code)
  | sendNext => exact mutes (by simp) (.sends (Or.inl rfl) code)
  | pack => exact mutes (by simp) (.sends (Or.inl rfl) code)
  | packed => exact mutes (by simp) (.sends (Or.inl rfl) code)
  | listenOut events => exact mutes (by simp) (.sends (Or.inr ⟨events, rfl⟩) code)
  | walk w =>
    simp only [Task.run, tripTimeoutWalk] at h
    rw [Prog.exec_bind_of (exec_fetch _ _)] at h
    cases hstep : w.step s.router.timers.wheel with
    | none =>
      rw [hstep] at h
      cases h
      have hsteady : Steady s.router
          (s.router.setTimers (tripTimeoutEnd w.now s.oracle.clock.head.toNat w.min
            s.router.timers)) :=
        ⟨.of_eq rfl (fun _ => rfl) fun _ _ => le_rfl, rfl, fun hs =>
          ⟨hs.own, hs.bound, hs.mapped, hs.sized⟩⟩
      exact ⟨.steady hsteady (by simp) (by simp), hsteady.timed hs⟩
    | some p =>
      obtain ⟨w', wheel, cb⟩ := p
      rw [hstep] at h
      cases h
      obtain ⟨htimed, hdue⟩ := hs.walk hstep
      have hpending := fun p => Timerwheel.pending_step (p := p) hstep
      cases cb with
      | none =>
        refine ⟨.steady ⟨.of_eq rfl (fun _ => rfl) fun p _ => ?_, rfl, fun _ => htimed⟩ ?_ ?_,
          htimed⟩
        · exact (hpending p).1.length_le
        · simp [mute]
        · simp
      | some cb => exact ⟨.walk rfl rfl (fun p => (hpending p).2) (hdue cb rfl), htimed⟩
  | callback cb =>
    cases cb with
    | tripOpenConnectionAsync c =>
      have hc := (hu _ rfl c rfl).1
      obtain ⟨hmoves, hq, htimed⟩ := tripcStart_moves hc
      simp only [Task.run, tripCallback, tripOpenConnectionAsync] at h
      obtain ⟨_, v, hv, h⟩ := Prog.exec_bind_eq_some.mp h
      rw [hv] at hmoves hq htimed
      rw [Prog.exec_bind_of (exec_getConn _ _)] at h
      obtain ⟨-, rfl, rfl⟩ := exec_callPacket h
      rw [hmoves.key c hc]
      exact ⟨.ask hmoves hq, htimed hs⟩
    | tripcTimeoutStateResolve c =>
      obtain ⟨-, hnil⟩ := hu _ rfl c rfl
      simp only [Task.run, tripCallback] at h
      obtain ⟨_, v, hv, h⟩ := Prog.exec_bind_eq_some.mp h
      cases h
      obtain ⟨hdel, hmoves, htimed⟩ := tripcTimeoutStateResolve_moves hv
      exact ⟨.timeout hdel hmoves, htimed (hnil (decide_eq_true rfl)) hs⟩
    | tripcTimeoutStateResend c =>
      obtain ⟨hc, hnil⟩ := hu _ rfl c rfl
      have hsteady := tripcTimeoutStateResend_steady hc (hnil (decide_eq_true rfl))
      simp only [Task.run, tripCallback] at h
      obtain ⟨close, v, hv, h⟩ := Prog.exec_bind_eq_some.mp h
      rw [hv] at hsteady
      have hmute : Mutes (if close then pure (tripCloseConnection c) else pure []) :=
        .ite (.of_plain (Steady.frame.tripCloseConnection c)) .nil
      obtain ⟨hvt, hts⟩ := hmute v ts t h
      exact ⟨.steady (hsteady.trans hvt) hts (by simp), (hsteady.trans hvt).timed hs⟩
    | _ => exact framed rfl
  | _ => exact framed rfl

/-- **Every call does one of these to resolving**, when what is in the resolve queue is
there. -/
theorem Api.run_moved {api : Api} {s t : Env} {ts : List Task} (hs : Timed s.router)
    (hq : ∀ key d q, resolveqPop s.router.resolveq key = some (some d, q) → d < s.router.heap.brk)
    (h : api.run.exec s = (some ts, t)) :
    api.Moved s.oracle.alloc.tail.head s.router ts t.router ∧ Timed t.router := by
  have plain : api ≠ .openConnection → (∀ key src err emsg, api ≠ .resolve key src err emsg) →
      api.Moved s.oracle.alloc.tail.head s.router ts t.router ∧ Timed t.router := by
    intro hopen hresolve
    obtain ⟨hst, hts⟩ := Steady.frame.api hopen hresolve s ts t h
    have hsteady := hst hs.maps
    exact ⟨.steady hsteady (fun u hu => Task.mute_of_plain (hts u hu)) hresolve, hsteady.timed hs⟩
  cases api with
  | openConnection =>
    obtain ⟨ts', t', hexec, hopens⟩ := exec_tripOpenConnection s
    obtain ⟨rfl, rfl⟩ : ts' = ts ∧ t' = t := by simpa using hexec.symm.trans h
    obtain ⟨htimed, hmute, hsame | ⟨cb, hopened⟩⟩ := hopens.moved hs
    · refine ⟨.steady ?_ hmute (by simp), htimed⟩
      rw [hsame]
      exact .refl _
    · exact ⟨.opened hopened hmute, htimed⟩
  | resolve key src err emsg =>
    simp only [Api.run] at h
    obtain ⟨_, v, hv, h⟩ := Prog.exec_bind_eq_some.mp h
    cases h
    rcases tripResolve_cases hv with ⟨q, hpop, hrouter⟩ | ⟨d, q, hpop, hanswered⟩
    · rw [hrouter]
      exact ⟨.late hpop, hs.own, hs.bound, hs.mapped, hs.sized⟩
    · have hd := hanswered (hq key d q hpop) hs
      exact ⟨.answered hpop hd, hd.timed⟩
  | _ => exact plain (by simp) (by simp)

theorem Task.due_of_urgent {t : Task} (h : t.urgent = false) (r : Router) : t.Due r := by
  rintro cb rfl
  exact absurd h (Bool.false_ne_true ∘ Eq.symm)

theorem Task.due_of_mute {t : Task} (h : t.mute = true) (r : Router) : t.Due r := by
  rintro cb rfl
  exact absurd h Bool.false_ne_true

/-- The timers are timed, a callback on top finds its connection, and the connections in
the resolve queue are there. -/
structure Known (c : Config) : Prop where
  tidy : c.Tidy
  timed : Timed c.router
  due : ∀ t ∈ c.todo, t.Due c.router
  queued : ∀ d, c.router.resolveq.Has d → d < c.router.heap.brk

/-- What a step does to resolving; the tasks below the one on top are not urgent. -/
inductive Config.Moved (c : Config) : Input → Config → Prop
  | call {api : Api} {o : Oracle} {ts : List Task} {r' : Router} :
      (∀ t ∈ c.todo, t.urgent = false) → api.Moved o.alloc.tail.head c.router ts r' →
      Moved c (.call api o) ⟨r', ts ++ c.todo, c.log ++ ts.filter Task.isCallout⟩
  | run {code : Errno} {o : Oracle} {u : Task} {rest ts : List Task} {r' : Router} :
      c.todo = u :: rest → (∀ t ∈ rest, t.urgent = false) → u.Moved c.router ts r' →
      Moved c (.run code o) ⟨r', ts ++ rest,
        c.log ++ (if u.isCallout then [] else [u]) ++ ts.filter Task.isCallout⟩

theorem known_idle (preset : TripPreset) (now : ℕ) (buf : Buf) :
    Known (.idle (tripNew preset now buf)) where
  tidy := Config.tidy_idle _
  timed := ⟨fun _ => List.nil_sublist _, rfl, fun _ hc => absurd hc (Connmap.not_has_init _),
    Connmap.sized_init _⟩
  due := fun _ ht => absurd ht List.not_mem_nil
  queued := fun d hd => absurd hd (Resolveq.not_has_init d)

/-- What a call leaves is no callback. -/
theorem Api.Moved.mute {alloc : Bool} {r r' : Router} {api : Api} {ts : List Task}
    (h : api.Moved alloc r ts r') : ∀ u ∈ ts, u.mute = true := by
  cases h with
  | steady _ hmute _ => exact hmute
  | opened _ hmute => exact hmute
  | late => exact fun _ hu => absurd hu List.not_mem_nil
  | answered => exact fun _ hu => absurd hu List.not_mem_nil

/-- A callback that a task leaves finds its connection. -/
theorem Task.Moved.due {r r' : Router} {u : Task} {ts : List Task} (h : u.Moved r ts r') :
    ∀ v ∈ ts, v.Due r' := by
  have hmutes : (∀ v ∈ ts, v.mute = true) → ∀ v ∈ ts, v.Due r' :=
    fun hmute v hv => Task.due_of_mute (hmute v hv) r'
  cases h with
  | steady _ hmute _ => exact hmutes hmute
  | walk _ _ _ hdue =>
    intro v hv
    rcases List.mem_cons.mp hv with rfl | hv
    · rintro _ ⟨⟩
      exact hdue
    · rw [List.mem_singleton.mp hv]
      rintro _ ⟨⟩
  | ask _ _ =>
    intro v hv
    rw [List.mem_singleton.mp hv]
    rintro _ ⟨⟩
  | timeout _ _ => exact hmutes (by simp [tripCloseConnection, Task.mute])

/-- The connections in the resolve queue are there, also when a new one is put in. -/
theorem Api.Moved.queued {alloc : Bool} {r r' : Router} {api : Api} {ts : List Task}
    (h : api.Moved alloc r ts r') (hr : ∀ d, r.resolveq.Has d → d < r.heap.brk) (d : Ptr)
    (hd : r'.resolveq.Has d) : d < r'.heap.brk := by
  cases h with
  | steady hst _ _ => exact (hr d (hst.resolveq ▸ hd)).trans_le hst.moves.brk
  | opened ho _ =>
    rw [ho.brk]
    rw [ho.resolveq] at hd
    rcases hd.of_put with hd | rfl
    · exact (hr d hd).trans (Nat.lt_succ_self _)
    · exact Nat.lt_succ_self _
  | late hpop => exact hr d ((Resolveq.has_of_pop hpop).2 d hd)
  | answered hpop ha =>
    rw [ha.resolveq] at hd
    have hlt := hr d ((Resolveq.has_of_pop hpop).2 d hd)
    rcases ha.moves with hmoves | hmoves
    · exact hlt.trans_le hmoves.brk
    · exact hlt.trans_le hmoves.brk

theorem Task.Moved.queued {r r' : Router} {u : Task} {ts : List Task} (h : u.Moved r ts r')
    (hr : ∀ d, r.resolveq.Has d → d < r.heap.brk) (d : Ptr) (hd : r'.resolveq.Has d) :
    d < r'.heap.brk := by
  cases h with
  | steady hst _ _ => exact (hr d (hst.resolveq ▸ hd)).trans_le hst.moves.brk
  | walk hheap hq _ _ =>
    rw [hheap]
    exact hr d (hq ▸ hd)
  | ask hmoves hq => exact (hr d (hq ▸ hd)).trans_le hmoves.brk
  | timeout hdel hmoves => exact (hr d (Resolveq.Has.of_del hdel hd)).trans_le hmoves.brk

namespace Known

variable {c c' : Config} {i : Input}

/-- **Every step** keeps it, and moves what is to be resolved so. -/
theorem step (hc : Known c) (h : c.Step i c') : Known c' ∧ c.Moved i c' := by
  have htidy := hc.tidy.step h
  rcases Config.step_cases h with ⟨api, o, ts, e, rfl, hw, hexec, rfl⟩ |
    ⟨code, o, u, rest, ts, e, rfl, htodo, hexec, rfl⟩
  · have hrest := hc.tidy.of_waits hw
    obtain ⟨hm, ht⟩ := Api.run_moved hc.timed
      (fun key d q hpop => hc.queued d ((Resolveq.has_of_pop hpop).1 d rfl)) hexec
    refine ⟨⟨htidy, ht, fun t ht => ?_, fun d hd => ?_⟩, .call hrest hm⟩
    · rcases List.mem_append.mp ht with ht | ht
      · exact Task.due_of_mute (hm.mute t ht) e.router
      · exact Task.due_of_urgent (hrest t ht) e.router
    · exact hm.queued hc.queued d hd
  · have hrest : ∀ t ∈ rest, t.urgent = false := fun t ht => hc.tidy t (by rw [htodo]; exact ht)
    obtain ⟨hm, ht⟩ := Task.run_moved hc.timed
      (hc.due u (by rw [htodo]; exact List.mem_cons_self)) hexec
    refine ⟨⟨htidy, ht, fun t ht => ?_, fun d hd => ?_⟩, .run htodo hrest hm⟩
    · rcases List.mem_append.mp ht with ht | ht
      · exact hm.due t ht
      · exact Task.due_of_urgent (hrest t ht) e.router
    · exact hm.queued hc.queued d hd

/-- What is reached from a new router is known. -/
theorem of_reaches {preset : TripPreset} {now : ℕ} {buf : Buf} {guard : Config → Input → Prop}
    (h : Reaches Config.Step guard (.idle (tripNew preset now buf)) c) : Known c := by
  refine Reaches.invariant ?_ (known_idle preset now buf) h
  intro c i c' hc _ hstep
  exact (hc.step hstep).1

end Known

end Libtrp
