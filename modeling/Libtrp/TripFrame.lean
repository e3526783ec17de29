import Libtrp.Trip

/-!
# What the machine leaves alone

Most programs of the router leave the state machine alone: they change neither the
state nor the error, they do not touch the timer of the state, and what is left of
them changes the state neither.  This is said once here, so that what is proved
about the state machine only looks at the few that do.

## Main definitions

* `Router.stateTimers` — the pending timers of the state machine.
* `Quiet r r'` — the state machine is left alone.
* `SegmentOpens` — a segment that asks for a connection.
* `Task.calm` — a task that is no change of the state.

## Main results

* `tripSeg_cases` — what a segment that comes in can do to the router.
* `Acts.quiet`, `Calms.tripSendPack` and the others — the programs that are quiet.

## References

`src/trip.c`.
-/

namespace Libtrp

open Lib

/-! ### The state machine -/

/-- The callback is `_trip_timeout_router_cb`. -/
def Callback.isRouter : Callback → Bool
  | .tripTimeoutRouter => true
  | _ => false

/-- The pending timers whose callback is `_trip_timeout_router_cb`. -/
def Router.stateTimers (r : Router) : List Ptr := r.timers.wheel.pending Callback.isRouter

/-- The state machine is left alone; its timers may be cancelled. -/
structure Quiet (r r' : Router) : Prop where
  state : r'.state = r.state
  error : r'.error = r.error
  statetimer : r'.statetimer = r.statetimer
  timers : r'.stateTimers.Sublist r.stateTimers

namespace Quiet

variable {r r' r'' : Router}

theorem refl (r : Router) : Quiet r r := ⟨rfl, rfl, rfl, .refl _⟩

theorem trans (h : Quiet r r') (h' : Quiet r' r'') : Quiet r r'' :=
  ⟨h'.state.trans h.state, h'.error.trans h.error, h'.statetimer.trans h.statetimer,
    h'.timers.trans h.timers⟩

/-- A write to none of the fields. -/
theorem of_eq (hs : r'.state = r.state) (he : r'.error = r.error)
    (ht : r'.statetimer = r.statetimer) (hw : r'.timers = r.timers) : Quiet r r' :=
  ⟨hs, he, ht, by unfold Router.stateTimers; rw [hw]⟩

end Quiet

/-! ### Timers -/

/-- The wheel a timer is added to. -/
theorem wheel_tripSetTimeout (alloc : Bool) (now now' : ℕ) (ms : ℤ) (cb : Option Callback)
    (ts : Timers Callback) :
    (tripSetTimeout alloc now now' ms cb ts).2.wheel =
      (timerwheelAdd alloc now ms cb ts.wheel).2 := by
  cases alloc with
  | false => rfl
  | true => rw [tripSetTimeout_true]; rfl

/-- What is pending once a timer is set. -/
theorem pending_tripSetTimeout (p : Callback → Bool) (alloc : Bool) (now now' : ℕ) (ms : ℤ)
    (cb : Callback) (ts : Timers Callback) :
    (tripSetTimeout alloc now now' ms (some cb) ts).2.wheel.pending p =
      if alloc && p cb then ts.wheel.brk :: ts.wheel.pending p else ts.wheel.pending p := by
  rw [wheel_tripSetTimeout, Timerwheel.pending_add]
  rfl

/-- How setting a timer runs. -/
theorem exec_tripSetTimeoutM (ms : ℤ) (cb : Callback) (s : Env) :
    ∃ now now' t, (tripSetTimeoutM ms cb).exec s =
        (if s.oracle.alloc.head then some (some s.router.timers.wheel.brk) else some none, t) ∧
      t.router = s.router.setTimers
        (tripSetTimeout s.oracle.alloc.head now now' ms (some cb) s.router.timers).2 := by
  unfold tripSetTimeoutM
  rw [Prog.exec_bind_of (exec_tripmAlloc s), Prog.exec_bind_of (exec_triptimeNow _),
    Prog.exec_bind_of (exec_triptimeNow _)]
  refine ⟨s.oracle.clock.head.toNat, s.oracle.clock.tail.head.toNat, ?_⟩
  cases s.oracle.alloc.head with
  | false => exact ⟨_, rfl, rfl⟩
  | true => exact ⟨_, rfl, rfl⟩

theorem Quiet.setTimer (r : Router) (alloc : Bool) (now now' : ℕ) (ms : ℤ) {cb : Callback}
    (hcb : cb.isRouter = false) :
    Quiet r (r.setTimers (tripSetTimeout alloc now now' ms (some cb) r.timers).2) := by
  refine ⟨rfl, rfl, rfl, ?_⟩
  show ((tripSetTimeout alloc now now' ms (some cb) r.timers).2.wheel.pending _).Sublist _
  rw [pending_tripSetTimeout, hcb, Bool.and_false]
  exact .refl _

theorem Quiet.cancelTimer (r : Router) (id : Ptr) :
    Quiet r (r.setTimers (tripCancelTimeout id r.timers)) := by
  refine ⟨rfl, rfl, rfl, ?_⟩
  show ((timerwheelCancel id r.timers.wheel).pending _).Sublist _
  rw [Timerwheel.pending_cancel]
  exact List.filter_sublist

/-- The steps of a connection are quiet. -/
theorem Acts.quiet {c : Ptr} {r r' : Router} (h : Acts c r r') : Quiet r r' := by
  induction h with
  | refl => exact .refl r
  | conn _ _ ih | nq _ ih | buf _ _ ih => exact ih.trans (.of_eq rfl rfl rfl rfl)
  | timer alloc now now' ms hcb _ ih =>
    refine ih.trans (.setTimer _ alloc now now' ms ?_)
    rcases hcb with rfl | hcb
    · rfl
    · revert hcb
      rename_i cb _
      cases cb <;> simp [Callback.conn?, Callback.isRouter]
  | cancel id _ ih => exact ih.trans (.cancelTimer _ id)

/-! ### Segments -/

/-- The segment asks for a connection: it has passed what every segment passes, and its
control says OPEN. -/
def SegmentOpens (len : ℕ) (buf : Buf) : Prop :=
  ∃ en pre, SegmentPasses len buf en pre ∧ pre.control = tripControlOpen

/-- **What a segment can do to the router**: nothing, or it moves a connection to
another source, or a connection reads it, or it asks for a connection and makes one, for
which there may be no room. -/
theorem tripSeg_cases (src : ℤ) (len : ℕ) (buf : Buf) (s : Env) :
    ((tripSeg src len buf).exec s).2.router = s.router ∨
      (∃ id c, tripRouterGetConnBySrc s.router src id = some (some c) ∧
        ((tripSeg src len buf).exec s).2.router = s.router.setConn c fun x => x.setSrc src) ∨
      (∃ id c pre en, connmapGet s.router.conn s.router.heap id = some c ∧
        ∃ t, SameBut s t ∧ ((tripSeg src len buf).exec s).2 =
          ((tripcRead c pre (sizeSub (sizeSub len tripSign) en) (buf.drop en)).exec t).2) ∨
      SegmentOpens len buf ∧ ∃ alloc r₁ r₂ code mh,
        connmapAdd s.router.conn (tripSegmentFresh s.router src).heap s.router.heap.brk
          alloc r₁ r₂ = (code, mh) ∧
        (code ≠ 0 ∧ ((tripSeg src len buf).exec s).2.router =
            ((tripSegmentFresh s.router src).setMap mh).freeConn s.router.heap.brk ∨
          code = 0 ∧ Acts s.router.heap.brk ((tripSegmentFresh s.router src).setMap mh)
            ((tripSeg src len buf).exec s).2.router) := by
  unfold tripSeg
  rw [Prog.exec_bind_of (exec_fetch _ _), Prog.exec_ite]
  split
  swap
  · exact Or.inl rfl
  rcases tripSegment_cases src len buf s with ⟨hsame, -⟩ | ⟨en, pre, t, hpass, hst, hexec⟩
  · exact Or.inl hsame.router
  rw [hexec, ← hst.router]
  split
  · next hopen =>
    have hasks : SegmentOpens len buf := ⟨en, pre, hpass, hopen⟩
    rcases tripSegmentOpen_cases src len buf en pre t with
      hsame | ⟨c, hsrc, hset⟩ | ⟨endroute, screen, u, -, htu, hcreate⟩
    · exact Or.inl hsame.router
    · exact Or.inr (Or.inl ⟨_, c, hsrc, hset⟩)
    · rw [hcreate, ← htu.router]
      rcases tripSegmentCreate_cases src len buf (en + endroute) pre
          (t.oracle.screen { screen with route := en + screen.route }) u with
        ⟨-, hsame⟩ | ⟨-, r₁, r₂, code, mh, hadd, hres⟩
      · exact Or.inl hsame
      · exact Or.inr (Or.inr (Or.inr ⟨hasks, _, r₁, r₂, code, mh, hadd, hres⟩))
  · rcases tripSegmentComm_cases src len buf en pre t with ⟨hsame, -⟩ | ⟨c, hc, hread⟩
    · exact Or.inl hsame.router
    · obtain ⟨u, htu, hu⟩ := exec_tripSegmentRead src len buf en pre c t
      rw [hread, hu]
      exact Or.inr (Or.inr (Or.inl ⟨_, c, pre, en, hc.found, u, hst.trans htu, rfl⟩))

theorem Quiet.setMap (r : Router) (mh : Connmap × ConnHeap) : Quiet r (r.setMap mh) :=
  .of_eq rfl rfl rfl rfl

theorem Quiet.setConn (r : Router) (c : Ptr) (f : Connection → Connection) :
    Quiet r (r.setConn c f) := .of_eq rfl rfl rfl rfl

theorem Quiet.allocConn (r : Router) : Quiet r r.allocConn := .of_eq rfl rfl rfl rfl

theorem Quiet.freeConn (r : Router) (c : Ptr) : Quiet r (r.freeConn c) := .of_eq rfl rfl rfl rfl

/-- Giving connections back only says that they are not live. -/
theorem foldl_freeConn (l : List Ptr) (r : Router) : ∃ live, l.foldl Router.freeConn r =
    { r with heap := { r.heap with live := live } } := by
  induction l generalizing r with
  | nil => exact ⟨_, rfl⟩
  | cons c l ih =>
    obtain ⟨live, hlive⟩ := ih (r.freeConn c)
    exact ⟨live, hlive⟩

theorem Quiet.fresh (r : Router) (src : ℤ) (mh : Connmap × ConnHeap) :
    Quiet r ((tripSegmentFresh r src).setMap mh) :=
  (((allocConn r).trans (setConn _ _ _)).trans (setConn _ _ _)).trans (setMap _ _)

/-- A segment leaves the state machine alone. -/
theorem Quiet.tripSeg (src : ℤ) (len : ℕ) (buf : Buf) (s : Env) :
    Quiet s.router ((tripSeg src len buf).exec s).2.router := by
  rcases tripSeg_cases src len buf s with
    hsame | ⟨_, c, -, hset⟩ | ⟨_, c, pre, en, -, t, hst, hread⟩ | ⟨-, _, _, _, _, mh, -, hres⟩
  · rw [hsame]
    exact .refl _
  · rw [hset]
    exact .setConn _ _ _
  · rw [hread, ← hst.router]
    exact (ActsOn.tripcRead pre _ _ t).1.quiet
  · rcases hres with ⟨-, hfree⟩ | ⟨-, hacts⟩
    · rw [hfree]
      exact (Quiet.fresh _ src mh).trans (.freeConn _ _)
    · exact (Quiet.fresh _ src mh).trans hacts.quiet

/-! ### Programs that are quiet -/

/-- A program that leaves the state machine alone. -/
def Hushed {α : Type} (m : TripM α) : Prop :=
  Prog.Does (fun s t => Quiet s.router t.router) m

namespace Hushed

variable {α β : Type}

theorem pure (a : α) : Hushed (Pure.pure a) := fun s => .refl s.router

theorem bind {m : TripM α} {f : α → TripM β} (hm : Hushed m) (hf : ∀ a, Hushed (f a)) :
    Hushed (m >>= f) :=
  Prog.Does.bind (fun _ _ _ h h' => h.trans h') hm hf

theorem ite {p : Prop} [Decidable p] {m n : TripM α} (hm : Hushed m) (hn : Hushed n) :
    Hushed (if p then m else n) := Prog.Does.ite hm hn

theorem fetch (f : Router → α) : Hushed (Libtrp.fetch f) := fun s => .refl s.router

theorem store {f : Router → Router} (hf : ∀ r, Quiet r (f r)) : Hushed (Libtrp.store f) :=
  fun s => hf s.router

theorem acts {c : Ptr} {m : TripM α} (hm : ActsOn c m) : Hushed m := fun s => (hm s).1.quiet

theorem runs {c : Ptr} {m : TripM α} (hm : RunsOn c m) : Hushed m := acts hm.acts

theorem getConn (c : Ptr) : Hushed (Libtrp.getConn c) := fetch _

theorem setConn (c : Ptr) (f : Connection → Connection) : Hushed (Libtrp.setConn c f) :=
  store fun r => .setConn r c f

theorem tripmAlloc : Hushed Libtrp.tripmAlloc := fun s => .refl s.router

theorem triptimeNow : Hushed Libtrp.triptimeNow := fun s => .refl s.router

theorem timer {cb : Callback} (hcb : cb.isRouter = false) (ms : ℤ) :
    Hushed (tripSetTimeoutM ms cb) := by
  intro s
  obtain ⟨now, now', t, hexec, ht⟩ := exec_tripSetTimeoutM ms cb s
  rw [hexec, ht]
  exact .setTimer _ _ now now' ms hcb

theorem tripNewConnection : Hushed Libtrp.tripNewConnection := by
  intro s
  rw [exec_tripNewConnection]
  split
  · exact .allocConn _
  · exact .refl _

theorem tripResolveqPut (c : Ptr) : Hushed (Libtrp.tripResolveqPut c) := by
  refine bind tripmAlloc fun alloc => bind ?_ fun key => setConn c _
  exact fun s => .of_eq rfl rfl rfl rfl

theorem connmapAddM (c : Ptr) : Hushed (Libtrp.connmapAddM c) := by
  intro s
  rw [exec_connmapAddM]
  exact .setMap _ _

theorem tripcDestroy (c : Ptr) : Hushed (Libtrp.tripcDestroy c) := by
  refine bind (setConn c _) fun _ => bind (runs (RunsOn.tripcCancelTimeout (c := c))) fun _ => ?_
  exact bind (store fun r => .of_eq rfl rfl rfl rfl) fun _ => setConn c _

theorem tripcTimeoutStateResolve (c : Ptr) : Hushed (Libtrp.tripcTimeoutStateResolve c) := by
  refine bind (getConn c) fun x => bind (fetch _) fun q => ?_
  split
  · exact fun s => .refl s.router
  · refine bind (store fun r => .of_eq rfl rfl rfl rfl) fun _ => bind (setConn c _) fun _ => ?_
    exact runs (RunsOn.tripcSetError (c := c) _ _)

theorem tripResolve (key src : ℤ) (err : Errno) (emsg : Option String) :
    Hushed (Libtrp.tripResolve key src err emsg) := by
  refine bind (fetch _) fun q => ?_
  split
  · exact fun s => .refl s.router
  · refine bind (store fun r => .of_eq rfl rfl rfl rfl) fun _ => ?_
    split
    · exact pure ()
    · exact runs (RunsOn.tripResolvePopped _ _ _)

theorem tripFillMissing : Hushed Libtrp.tripFillMissing := by
  refine bind (fetch _) fun packet => ite ?_ (fetch _)
  refine bind tripmAlloc fun alloc => bind (store fun r => ?_) fun _ => fetch _
  split <;> exact .of_eq rfl rfl rfl rfl

end Hushed

/-! ### Calm tasks -/

/-- The callback changes the state of the router. -/
def Callback.ofMachine : Callback → Bool
  | .tripTimeoutRouter | .tripStopAsync => true
  | _ => false

/-- A task that neither changes the state, nor binds, nor unbinds, and is no callback
of a timer. -/
def Task.calm : Task → Bool
  | .bind | .unbind | .setState _ | .setError _ _ | .unbindArm | .callback _ => false
  | _ => true

/-- A program that leaves the state machine alone, and so does what is left of it. -/
def Calms (m : TripM (List Task)) : Prop :=
  ∀ s ts t, m.exec s = (some ts, t) → Quiet s.router t.router ∧ ∀ u ∈ ts, u.calm = true

namespace Calms

variable {α : Type}

theorem pure {ts : List Task} (h : ∀ u ∈ ts, u.calm = true) : Calms (Pure.pure ts) := by
  rintro s _ _ ⟨⟩
  exact ⟨.refl _, h⟩

theorem nil : Calms (Pure.pure []) := pure fun _ hu => absurd hu List.not_mem_nil

theorem one {t : Task} (h : t.calm = true) : Calms (Pure.pure [t]) :=
  pure fun _ hu => List.mem_singleton.mp hu ▸ h

theorem stuck : Calms Prog.stuck := by
  rintro s _ _ ⟨⟩

theorem bind {m : TripM α} {f : α → TripM (List Task)} (hm : Hushed m) (hf : ∀ a, Calms (f a)) :
    Calms (m >>= f) := by
  intro s ts t h
  obtain ⟨a, u, hmu, hfu⟩ := Prog.exec_bind_eq_some.mp h
  have hsu := hm s
  rw [hmu] at hsu
  obtain ⟨hut, hts⟩ := hf a u ts t hfu
  exact ⟨hsu.trans hut, hts⟩

theorem ite {p : Prop} [Decidable p] {m n : TripM (List Task)} (hm : Calms m) (hn : Calms n) :
    Calms (if p then m else n) := by
  split
  · exact hm
  · exact hn

/-- A quiet program with nothing left of it. -/
theorem hushed {m : TripM α} (hm : Hushed m) : Calms (m >>= fun _ => Pure.pure []) :=
  bind hm fun _ => nil

theorem callPacket {t : Task} (h : t.calm = true) : Calms (Libtrp.callPacket [t]) :=
  bind (.fetch _) fun _ => ite (one h) stuck

theorem tripListen (fd : ℤ) (events : UInt32) : Calms (Libtrp.tripListen fd events) :=
  ite (callPacket rfl) (one rfl)

theorem tripListenOut (events : UInt32) : Calms (Libtrp.tripListenOut events) :=
  ite (bind (.fetch _) fun _ => ite (callPacket rfl) (one rfl)) nil

theorem tripSendNext (sent : UInt32) : Calms (Libtrp.tripSendNext sent) := by
  refine bind (fun s => .of_eq rfl rfl rfl rfl) fun c => ?_
  cases c with
  | none => exact nil
  | some c => exact one rfl

theorem tripSendLimit (sent : UInt32) : Calms (Libtrp.tripSendLimit sent) :=
  bind (.fetch _) fun _ => ite nil (one rfl)

theorem tripSendPack (c : Ptr) (connsent sent : UInt32) :
    Calms (Libtrp.tripSendPack c connsent sent) := by
  refine bind (.fetch _) fun max => ite ?_ ?_
  · refine bind (.fetch _) fun buflen => ?_
    refine bind (.acts (ActsOn.tripcSend (c := c) buflen)) fun len => ?_
    exact bind (.store fun r => .of_eq rfl rfl rfl rfl) fun _ => one rfl
  · exact bind (.store fun r => .of_eq rfl rfl rfl rfl) fun _ => tripSendLimit sent

theorem tripSendImmediately : Calms Libtrp.tripSendImmediately :=
  bind (.fetch _) fun _ => ite (bind (.timer rfl 1) fun _ => nil) nil

theorem tripCloseConnection (c : Ptr) : Calms (Pure.pure (Libtrp.tripCloseConnection c)) := by
  refine pure fun u hu => ?_
  simp only [Libtrp.tripCloseConnection, List.mem_cons, List.not_mem_nil, or_false] at hu
  rcases hu with rfl | rfl <;> rfl

theorem tripCloseConnectionEnd (c : Ptr) : Calms (Libtrp.tripCloseConnectionEnd c) := by
  refine bind (.getConn c) fun x => bind (.store fun r => .of_eq rfl rfl rfl rfl) fun _ => ?_
  refine bind (.tripcDestroy c) fun _ => bind ?_ fun _ => nil
  exact .store fun r => .freeConn r c

theorem tripOpenConnection : Calms Libtrp.tripOpenConnection := by
  have hfail : ∀ (c : Ptr) (e : Errno), Calms (do
      tripcSetError c e none
      return [.connection c, .freeConnection c]) := by
    intro c e
    refine bind (.runs (RunsOn.tripcSetError (c := c) e none)) fun _ => pure fun u hu => ?_
    simp only [List.mem_cons, List.not_mem_nil, or_false] at hu
    rcases hu with rfl | rfl <;> rfl
  refine bind (.fetch _) fun allow => ite (bind .tripNewConnection fun c => ?_) (one rfl)
  cases c with
  | none => exact one rfl
  | some c =>
    refine bind (.fetch _) fun max => bind (.setConn c _) fun _ => ?_
    refine bind (.tripResolveqPut c) fun _ => bind (.connmapAddM c) fun code => ite (hfail c _) ?_
    exact bind (.timer rfl 0) fun e => ite (hfail c _) nil

theorem tripOpenConnectionAsync (c : Ptr) : Calms (Libtrp.tripOpenConnectionAsync c) := by
  refine bind (.runs (RunsOn.tripcStart (c := c))) fun _ => bind (.getConn c) fun x => ?_
  exact callPacket rfl

theorem tripTimeout : Calms Libtrp.tripTimeout :=
  bind .triptimeNow fun _ => bind (.fetch _) fun _ => one rfl

theorem tripWatch (fd : ℤ) (events : UInt32) : Calms (Libtrp.tripWatch fd events) := by
  refine ite (ite ?_ ?_) nil
  · exact bind (.store fun r => .of_eq rfl rfl rfl rfl) fun _ => nil
  · refine bind (.store fun r => .of_eq rfl rfl rfl rfl) fun _ => bind (.fetch _) fun has => ?_
    exact ite (bind (.timer rfl 0) fun _ => nil) nil

theorem tripCancelUser (id : Ptr) : Calms (Libtrp.tripCancelUser id) := by
  refine bind (.fetch _) fun own => ite (hushed ?_) stuck
  exact .store fun r => .cancelTimer r id

/-- The callbacks that are not of the state machine. -/
theorem tripCallback {cb : Callback} (hcb : cb.ofMachine = false) :
    Calms (Libtrp.tripCallback cb) := by
  cases cb with
  | tripSendImmediately =>
    refine pure fun u hu => ?_
    simp only [List.mem_cons, List.not_mem_nil, or_false] at hu
    rcases hu with rfl | rfl <;> rfl
  | tripTimeoutRouter => exact absurd hcb (by decide)
  | tripStopAsync => exact absurd hcb (by decide)
  | tripResolveDelaySuccess c => exact hushed (.runs (RunsOn.tripcSetState (c := c) .OPEN))
  | tripResolveDelayFailure c => exact tripCloseConnection c
  | tripOpenConnectionAsync c => exact tripOpenConnectionAsync c
  | tripcTimeoutStateResolve c =>
    exact bind (.tripcTimeoutStateResolve c) fun _ => tripCloseConnection c
  | tripcTimeoutStateResend c =>
    refine bind (.runs (RunsOn.tripcTimeoutStateResend (c := c))) fun close => ?_
    exact ite (tripCloseConnection c) nil
  | tripcTimeoutStateReadyPing c => exact hushed (.runs (RunsOn.tripcSetState (c := c) .PING))
  | user => exact one rfl

end Calms

end Libtrp
