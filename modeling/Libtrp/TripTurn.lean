import Libtrp.TripFrame

/-!
# The turns of the state machine

What each step of the machine does to the state, the error and the timer of the
state, and which tasks it leaves on the stack.  A step is calm, or it is one of the
few that end in a change of the state.  Everything that is proved about the state
machine looks at these cases and at no program again.

## Main definitions

* `Entered` — the router once `_trip_set_state` has changed the state.
* `Arms` — a timer of the state is armed.
* `Task.Turn`, `Api.Turn` — what a task on top does, and what a call does.

## Main results

* `exec_tripSetState` — what `_trip_set_state` does.
* `Task.run_turn`, `Api.run_turn` — every step is one of these.

## References

`src/trip.c`.
-/

namespace Libtrp

open Lib

/-! ### Changing the state -/

/-- The states that are left with their timer cancelled. -/
def TriprState.timed : TriprState → Bool
  | .BIND | .CLOSE | .UNBIND => true
  | .START | .LISTEN | .END | .ERROR => false

namespace Router

/-- The timer of the state when the state is left. -/
def leftTimer (r : Router) : Option Ptr := if r.state.timed then none else r.statetimer

/-- What is pending when the state is left. -/
def leftTimers (r : Router) : List Ptr :=
  if r.state.timed then r.stateTimers.filter fun id => some id ≠ r.statetimer else r.stateTimers

/-- The state `_trip_set_state` enters: it stays in `ERROR`. -/
def nextState (r : Router) (state : TriprState) : TriprState :=
  if r.state = .ERROR then .ERROR else state

/-- The interface is told to unbind when `ERROR` is entered. -/
def unbindsOnError (r : Router) : Bool := r.packet.any Packet.router && r.leftTimer.isNone

/-- Entering the state arms its timer. -/
def armsState (r : Router) : TriprState → Bool
  | .BIND | .CLOSE => true
  | .ERROR => r.unbindsOnError
  | .START | .LISTEN | .UNBIND | .END => false

/-- What entering the state leaves to do. -/
def enterTasks (r : Router) : TriprState → List Task
  | .BIND => [.bind]
  | .UNBIND => [.unbind, .unbindArm]
  | .ERROR => if r.unbindsOnError then [.unbind] else []
  | .START | .LISTEN | .CLOSE | .END => []

end Router

/-- The state was left. -/
structure Left (r r' : Router) : Prop where
  state : r'.state = r.state
  error : r'.error = r.error
  packet : r'.packet = r.packet
  timer : r'.statetimer = r.leftTimer
  timers : r'.stateTimers = r.leftTimers

/-- A timer of the state is armed, when there is memory for it. -/
structure Arms (r r' : Router) : Prop where
  state : r'.state = r.state
  error : r'.error = r.error
  timers : r'.stateTimers = r'.statetimer.toList ++ r.stateTimers

/-- The router once the state was changed to `next`; `armed` says whether its timer
is armed. -/
structure Entered (r : Router) (next : TriprState) (armed : Bool) (r' : Router) : Prop where
  state : r'.state = next
  error : r'.error = r.error
  timer : armed = false → r'.statetimer = r.leftTimer ∧ r'.stateTimers = r.leftTimers
  timers : armed = true → r'.stateTimers = r'.statetimer.toList ++ r.leftTimers

theorem Arms.of_eq {r u : Router} {e : Option Ptr} (hs : u.state = r.state)
    (he : u.error = r.error) (ht : u.stateTimers = e.toList ++ r.stateTimers) :
    Arms r { u with statetimer := e } := ⟨hs, he, ht⟩

theorem exec_tripArmState (ms : ℤ) (s : Env) :
    ∃ t, (tripArmState ms).exec s = (some (), t) ∧ Arms s.router t.router := by
  obtain ⟨now, now', t, hexec, ht⟩ := exec_tripSetTimeoutM ms .tripTimeoutRouter s
  have hpending := pending_tripSetTimeout Callback.isRouter s.oracle.alloc.head now now' ms
    .tripTimeoutRouter s.router.timers
  have hstate : t.router.state = s.router.state := by rw [ht]; rfl
  have herror : t.router.error = s.router.error := by rw [ht]; rfl
  have htimers : t.router.stateTimers =
      (tripSetTimeout s.oracle.alloc.head now now' ms (some .tripTimeoutRouter)
        s.router.timers).2.wheel.pending Callback.isRouter := by
    rw [Router.stateTimers, ht]
    rfl
  unfold tripArmState
  cases halloc : s.oracle.alloc.head with
  | false =>
    rw [halloc] at hexec hpending htimers
    rw [Prog.exec_bind_of hexec]
    exact ⟨_, rfl, .of_eq hstate herror (htimers.trans hpending)⟩
  | true =>
    rw [halloc] at hexec hpending htimers
    rw [Prog.exec_bind_of hexec]
    exact ⟨_, rfl, .of_eq hstate herror (htimers.trans hpending)⟩

theorem exec_tripSetDeadline (ms : ℤ) (s : Env) :
    ∃ t, (tripSetDeadline ms).exec s = (some (), t) ∧
      ∃ d, t.router = { s.router with statedeadline := d } := ⟨_, rfl, _, rfl⟩

/-- The timer of the state is cancelled. -/
theorem exec_tripTimeoutCancelState (s : Env) :
    ∃ t, tripTimeoutCancelState.exec s = (some (), t) ∧ t.router.state = s.router.state ∧
      t.router.error = s.router.error ∧ t.router.packet = s.router.packet ∧
      t.router.statetimer = none ∧ t.router.stateTimers =
        s.router.stateTimers.filter fun id => some id ≠ s.router.statetimer := by
  unfold tripTimeoutCancelState
  rw [Prog.exec_bind_of (exec_fetch _ _)]
  cases he : s.router.statetimer with
  | none =>
    refine ⟨s, rfl, rfl, rfl, rfl, he, ?_⟩
    exact (List.filter_eq_self.mpr (by simp)).symm
  | some e =>
    refine ⟨_, rfl, rfl, rfl, rfl, rfl, ?_⟩
    show (timerwheelCancel e s.router.timers.wheel).pending _ = _
    rw [Timerwheel.pending_cancel]
    simp [Router.stateTimers]

/-- Leaving a state cancels its timer. -/
theorem exec_tripLeaveState (s : Env) :
    ∃ t, (tripLeaveState s.router.state).exec s = (some (), t) ∧ Left s.router t.router := by
  cases hstate : s.router.state with
  | BIND | CLOSE | UNBIND =>
    obtain ⟨u, hu, d, hd⟩ := exec_tripSetDeadline 0 s
    obtain ⟨t, ht, hts, hte, htp, htimer, htimers⟩ := exec_tripTimeoutCancelState u
    refine ⟨t, (Prog.exec_bind_of hu).trans ht, ?_⟩
    rw [hd] at hts hte htp htimers
    refine ⟨hts, hte, htp, ?_, ?_⟩
    · rw [htimer, Router.leftTimer, hstate]
      rfl
    · rw [htimers, Router.leftTimers, hstate]
      rfl
  | START | LISTEN | END | ERROR =>
    refine ⟨s, rfl, rfl, rfl, rfl, ?_, ?_⟩
    · rw [Router.leftTimer, hstate]
      rfl
    · rw [Router.leftTimers, hstate]
      rfl

/-- Closing the connections. -/
theorem exec_tripClose (ms : ℤ) (s : Env) :
    ∃ t, (tripClose ms).exec s = (some (), t) ∧ t.router.state = s.router.state ∧
      t.router.error = s.router.error ∧ t.router.packet = s.router.packet ∧
      t.router.statetimer = s.router.statetimer ∧ t.router.timers = s.router.timers := by
  refine ⟨_, rfl, ?_⟩
  obtain ⟨live, hlive⟩ := foldl_freeConn (connmapIterate s.router.conn) s.router
  by_cases hms : ms = 0
  · simp [hms, hlive]
  · simp [hms]

/-- The router between leaving a state and entering `next`. -/
structure Between (r : Router) (next : TriprState) (u : Router) : Prop where
  state : u.state = next
  error : u.error = r.error
  packet : u.packet = r.packet
  timer : u.statetimer = r.leftTimer
  timers : u.stateTimers = r.leftTimers

namespace Between

variable {r u v : Router} {next : TriprState}

/-- Writes to other fields. -/
theorem trans (h : Between r next u) (hs : v.state = u.state) (he : v.error = u.error)
    (hp : v.packet = u.packet) (ht : v.statetimer = u.statetimer) (hw : v.timers = u.timers) :
    Between r next v := by
  refine ⟨hs.trans h.state, he.trans h.error, hp.trans h.packet, ht.trans h.timer, ?_⟩
  rw [← h.timers, Router.stateTimers, hw]
  rfl

theorem deadline (h : Between r next u) {d : ℕ} (hd : v = { u with statedeadline := d }) :
    Between r next v := by
  subst hd
  exact ⟨h.state, h.error, h.packet, h.timer, h.timers⟩

/-- Nothing is armed. -/
theorem plain (h : Between r next u) : Entered r next false u :=
  ⟨h.state, h.error, fun _ => ⟨h.timer, h.timers⟩, fun h => absurd h (by decide)⟩

theorem arms (h : Between r next u) (huv : Arms u v) : Entered r next true v := by
  refine ⟨huv.state.trans h.state, huv.error.trans h.error, fun h => absurd h (by decide), ?_⟩
  intro _
  rw [huv.timers, h.timers]

end Between

/-- A callout of the packet interface that returns. -/
theorem exec_callPacket {ts ts' : List Task} {s t : Env}
    (h : (callPacket ts).exec s = (some ts', t)) :
    s.router.packet.isSome = true ∧ ts' = ts ∧ t = s := by
  unfold callPacket at h
  rw [Prog.exec_bind_of (exec_fetch _ _), Prog.exec_ite] at h
  split at h
  · next hp =>
    cases h
    exact ⟨hp, rfl, rfl⟩
  · cases h

/-- Entering a state. -/
theorem exec_tripEnterState {r : Router} {next : TriprState} {s t : Env} {ts : List Task}
    (hs : Between r next s.router) (h : (tripEnterState next).exec s = (some ts, t)) :
    ts = r.enterTasks next ∧ Entered r next (r.armsState next) t.router := by
  cases next with
  | START | END =>
    cases h
    exact ⟨rfl, hs.plain⟩
  | LISTEN =>
    cases h
    exact ⟨rfl, (hs.deadline rfl).plain⟩
  | BIND =>
    unfold tripEnterState at h
    rw [Prog.exec_bind_of (exec_fetch _ _)] at h
    obtain ⟨u, hu, d, hd⟩ := exec_tripSetDeadline s.router.timeoutBind s
    obtain ⟨v, hv, harms⟩ := exec_tripArmState s.router.timeoutBind u
    rw [Prog.exec_bind_of hu, Prog.exec_bind_of hv] at h
    obtain ⟨-, rfl, rfl⟩ := exec_callPacket h
    exact ⟨rfl, (hs.deadline hd).arms harms⟩
  | CLOSE =>
    unfold tripEnterState at h
    rw [Prog.exec_bind_of (exec_fetch _ _)] at h
    obtain ⟨u, hu, hus, hue, hup, hut, huw⟩ := exec_tripClose s.router.timeoutClose s
    obtain ⟨v, hv, d, hd⟩ := exec_tripSetDeadline s.router.timeoutClose u
    obtain ⟨w, hw, harms⟩ := exec_tripArmState s.router.timeoutClose v
    rw [Prog.exec_bind_of hu, Prog.exec_bind_of hv, Prog.exec_bind_of hw] at h
    cases h
    exact ⟨rfl, ((hs.trans hus hue hup hut huw).deadline hd).arms harms⟩
  | UNBIND =>
    unfold tripEnterState at h
    obtain ⟨u, hu, hus, hue, hup, hut, huw⟩ := exec_tripClose 0 s
    rw [Prog.exec_bind_of hu] at h
    obtain ⟨-, rfl, rfl⟩ := exec_callPacket h
    exact ⟨rfl, (hs.trans hus hue hup hut huw).plain⟩
  | ERROR =>
    unfold tripEnterState at h
    rw [Prog.exec_bind_of (exec_fetch _ _), Prog.exec_bind_of (exec_fetch _ _), hs.packet,
      hs.timer] at h
    unfold Router.enterTasks Router.armsState Router.unbindsOnError
    cases hp : r.packet with
    | none =>
      rw [hp] at h
      cases h
    | some packet =>
      rw [hp] at h
      dsimp only [Option.any_some] at h ⊢
      by_cases hunbind : (packet.router && r.leftTimer.isNone) = true
      · rw [if_pos hunbind, Prog.exec_bind_of (exec_fetch _ _)] at h
        obtain ⟨u, hu, harms⟩ := exec_tripArmState s.router.timeoutUnbind s
        rw [Prog.exec_bind_of hu] at h
        cases h
        rw [if_pos hunbind, hunbind]
        exact ⟨rfl, hs.arms harms⟩
      · rw [if_neg hunbind] at h
        cases h
        rw [if_neg hunbind, Bool.not_eq_true _ |>.mp hunbind]
        exact ⟨rfl, hs.plain⟩

/-- **What `_trip_set_state` does.** -/
theorem exec_tripSetState {state : TriprState} {s t : Env} {ts : List Task}
    (h : (tripSetState state).exec s = (some ts, t)) :
    ts = s.router.enterTasks (s.router.nextState state) ∧
      Entered s.router (s.router.nextState state)
        (s.router.armsState (s.router.nextState state)) t.router := by
  unfold tripSetState at h
  rw [Prog.exec_bind_of (exec_fetch _ _)] at h
  obtain ⟨u, hu, hleft⟩ := exec_tripLeaveState s
  rw [Prog.exec_bind_of hu] at h
  dsimp only at h
  rw [Prog.exec_bind_of (exec_store _ _)] at h
  refine exec_tripEnterState ?_ h
  exact ⟨rfl, hleft.error, hleft.packet, hleft.timer, hleft.timers⟩

/-! ### The turns -/

/-- What the switch of `trip_action` does when the clock reads `now`. -/
inductive Switch (now : ℕ) (r : Router) (fd : ℤ) : List Task → Router → Prop
  | calm {ts : List Task} {r' : Router} : Quiet r r' → (∀ t ∈ ts, t.calm = true) →
      Switch now r fd ts r'
  | startError {msg : Option String} {r' : Router} : r.state = .START → Quiet r r' →
      Switch now r fd [.setError EINVAL msg] r'
  | start {r' : Router} : r.state = .START → fd = tripSocketTimeout → Quiet r r' →
      Switch now r fd [.setState .BIND] r'
  | bindError {e : Errno} {msg : Option String} : r.state = .BIND → e = EINVAL ∨ e = ETIME →
      Switch now r fd [.setError e msg] r
  | bindArm {r' : Router} : r.state = .BIND → fd = tripSocketTimeout → now ≤ r.statedeadline →
      Arms r r' → Switch now r fd [] r'
  | unbound : r.state = .UNBIND → Switch now r fd [.setState .END] r

/-- A callout whose code is an error of the router. -/
def Task.listens : Task → Bool
  | .read _ _ | .resend | .send _ _ _ => true
  | _ => false

/-- What a task on top does, and what it leaves to do. -/
inductive Task.Turn (code : Errno) (now : ℕ) (r : Router) : Task → List Task → Router → Prop
  | calm {t : Task} {ts : List Task} {r' : Router} : Quiet r r' → (∀ u ∈ ts, u.calm = true) →
      Turn code now r t ts r'
  | fatal {t : Task} : t.listens = true → code ≠ 0 → wouldBlock code = false →
      Turn code now r t [.setError code none] r
  | overflow {c : Ptr} {connsent sent : UInt32} {r' : Router} : r.sendlen = NPOS → Quiet r r' →
      Turn code now r (.packed c connsent sent) [.setError ECOMM none] r'
  | setState {state : TriprState} {r' : Router} :
      Entered r (r.nextState state) (r.armsState (r.nextState state)) r' →
      Turn code now r (.setState state) (r.enterTasks (r.nextState state)) r'
  | setError {eval : Errno} {msg errmsg : Option String} : r.state ≠ .ERROR →
      Turn code now r (.setError eval msg) [.setState .ERROR]
        { r with error := eval, errmsg := errmsg }
  | unbindArm {r' : Router} : Arms r r' → Turn code now r .unbindArm [] r'
  | walk {w w' : Walk Callback} {cb : Callback} {r' : Router} : Quiet r r' →
      r'.stateTimers.length + (if cb.isRouter then 1 else 0) = r.stateTimers.length →
      Turn code now r (.walk w) [.callback cb, .walk w'] r'
  | stateTimer : r.state ≠ .ERROR →
      Turn code now r (.callback .tripTimeoutRouter) [.setError ETIME none]
        { r with statetimer := none }
  | stateTimerError : r.state = .ERROR →
      Turn code now r (.callback .tripTimeoutRouter) [] { r with statetimer := none }
  | stopAsync : Turn code now r (.callback .tripStopAsync) [.setState .CLOSE] r
  | closeDeadline : r.statedeadline ≤ now → Turn code now r .closeDeadline [.setState .UNBIND] r
  | action {events : UInt32} {ts : List Task} {r' : Router} :
      Switch now r tripSocketTimeout ts r' → Turn code now r (.action events) ts r'

/-- What a call does, and what it leaves to do. -/
inductive Api.Turn (now : ℕ) (r : Router) : Api → List Task → Router → Prop
  | calm {api : Api} {ts : List Task} {r' : Router} : Quiet r r' → (∀ u ∈ ts, u.calm = true) →
      Turn now r api ts r'
  | restart {ts : List Task} : r.state = .END → (∀ u ∈ ts, u.calm = true) →
      Turn now r .start ts { r with state := .START }
  | action {fd : ℤ} {events : UInt32} {ts : List Task} {r' : Router} : fd ≠ tripSocketTimeout →
      Switch now r fd ts r' → Turn now r (.action fd events) ts r'
  | stop {r' : Router} : r.state = .START ∨ r.state = .BIND ∨ r.state = .LISTEN → Quiet r r' →
      Turn now r .stop [.setState .CLOSE] r'
  | ready : r.state = .BIND → Turn now r .ready [.setState .LISTEN] r
  | readyError : r.state ≠ .BIND → Turn now r .ready [.setState .ERROR] r
  | unreadyError {err : Errno} : err ≠ 0 → Turn now r (.unready err) [.setError err none] r
  | unready : Turn now r (.unready 0) [.setState .END] r
  | error {eval : Errno} {msg : Option String} :
      Turn now r (.error eval msg) [.setError eval msg] r

/-- The switch of `trip_action`. -/
theorem exec_tripActionSwitch {fd : ℤ} {events : UInt32} {s t : Env} {ts : List Task}
    (h : (tripActionSwitch fd events).exec s = (some ts, t)) :
    Switch s.oracle.clock.head.toNat s.router fd ts t.router := by
  unfold tripActionSwitch at h
  rw [Prog.exec_bind_of (exec_fetch _ _)] at h
  cases hstate : s.router.state with
  | START =>
    rw [hstate] at h
    dsimp only [tripActionStart] at h
    by_cases hfd : fd = tripSocketTimeout
    swap
    · rw [if_pos hfd] at h
      cases h
      exact .startError hstate (.refl _)
    rw [if_neg (not_not.mpr hfd)] at h
    obtain ⟨there, u, hu, h⟩ := Prog.exec_bind_eq_some.mp h
    have hquiet := Hushed.tripFillMissing s
    rw [hu] at hquiet
    have hfail : ∀ {msg : Option String}, (pure [.setError EINVAL msg] : TripM (List Task)).exec u =
        (some ts, t) → Switch s.oracle.clock.head.toNat s.router fd ts t.router := by
      rintro msg ⟨⟩
      exact .startError hstate hquiet
    cases there with
    | false => exact hfail h
    | true =>
      rw [if_neg (by decide), Prog.exec_bind_of (exec_fetch _ _)] at h
      cases hhooks : u.router.hooks with
      | false =>
        rw [hhooks] at h
        exact hfail h
      | true =>
        rw [hhooks] at h
        cases h
        exact .start hstate hfd (hquiet.trans (.of_eq rfl rfl rfl rfl))
  | BIND =>
    rw [hstate] at h
    dsimp only [tripActionBind] at h
    by_cases hfd : fd = tripSocketTimeout
    swap
    · rw [if_pos hfd] at h
      cases h
      exact .bindError hstate (Or.inl rfl)
    rw [if_neg (not_not.mpr hfd), Prog.exec_bind_of (exec_triptimeNow _),
      Prog.exec_bind_of (exec_fetch _ _)] at h
    by_cases hnow : s.oracle.clock.head.toNat > s.router.statedeadline
    · rw [Env.router_popClock, if_pos hnow] at h
      cases h
      exact .bindError hstate (Or.inr rfl)
    · rw [Env.router_popClock, if_neg hnow] at h
      obtain ⟨u, hu, harms⟩ := exec_tripArmState
        (triptimeTimeout s.router.statedeadline s.oracle.clock.head.toNat) s.popClock
      rw [Prog.exec_bind_of hu] at h
      cases h
      exact .bindArm hstate hfd (not_lt.mp hnow) harms
  | LISTEN =>
    rw [hstate] at h
    cases h
    exact .calm (.refl _) (by simp [Task.calm])
  | CLOSE =>
    rw [hstate] at h
    cases h
    exact .calm (.refl _) (by simp [Task.calm])
  | UNBIND =>
    rw [hstate] at h
    dsimp only [tripActionDeadline] at h
    rw [Prog.exec_bind_of (exec_triptimeNow _), Prog.exec_bind_of (exec_fetch _ _),
      Prog.exec_ite] at h
    split at h
    · cases h
      exact .unbound hstate
    · cases h
      exact .calm (.refl _) (by simp)
  | END | ERROR =>
    rw [hstate] at h
    cases h
    exact .calm (.refl _) (by simp)

/-- **Every task on top takes one of these turns.** -/
theorem Task.run_turn {code : Errno} {u : Task} {s t : Env} {ts : List Task}
    (h : (u.run code).exec s = (some ts, t)) :
    u.Turn code s.oracle.clock.head.toNat s.router ts t.router := by
  have calm : Calms (u.run code) → u.Turn code s.oracle.clock.head.toNat s.router ts t.router :=
    fun hc => .calm (hc s ts t h).1 (hc s ts t h).2
  have same : ∀ {m : TripM (List Task)}, Calms m → m.exec s = (some ts, t) →
      u.Turn code s.oracle.clock.head.toNat s.router ts t.router :=
    fun hc h => .calm (hc s ts t h).1 (hc s ts t h).2
  cases u with
  | bind | unbind | resolve | connection | reject | user => exact calm .nil
  | listen fd events => exact calm (.tripListen fd events)
  | listenOut events => exact calm (.tripListenOut events)
  | sendNext sent => exact calm (.tripSendNext sent)
  | pack c connsent sent => exact calm (.tripSendPack c connsent sent)
  | sendImmediately => exact calm .tripSendImmediately
  | closeConnection c => exact calm (.tripCloseConnectionEnd c)
  | freeConnection c => exact calm (.hushed (.store fun r => .freeConn r c))
  | read fd events =>
    -- the codes that are an error are those of the last branch
    simp only [Task.run, tripListenRead] at h
    split_ifs at h with hzero hblock
    · exact same (.callPacket rfl) h
    · exact same (.one rfl) h
    · cases h
      exact .fatal rfl hzero (Bool.not_eq_true _ |>.mp hblock)
  | resend =>
    simp only [Task.run, tripListenResend] at h
    split_ifs at h with hcode hblock
    · exact same (.one rfl) h
    · cases h
      exact .fatal rfl hcode (Bool.not_eq_true _ |>.mp hblock)
    · refine same (.bind (.store fun r => ?_) fun _ => .one ?_) h
      · exact .of_eq rfl rfl rfl rfl
      · rfl
  | send c connsent sent =>
    simp only [Task.run, tripSendSent] at h
    split_ifs at h with hcode hblock
    · refine same (.bind (.getConn c) fun x => ?_) h
      exact .bind (.store fun r => .of_eq rfl rfl rfl rfl) fun _ => .nil
    · cases h
      exact .fatal rfl hcode (Bool.not_eq_true _ |>.mp hblock)
    · refine same (.bind (.store fun r => ?_) fun _ => .one ?_) h
      · exact .of_eq rfl rfl rfl rfl
      · rfl
  | packed c connsent sent =>
    simp only [Task.run, tripSendPacked] at h
    rw [Prog.exec_bind_of (exec_fetch _ _)] at h
    split_ifs at h with hnpos hlen
    · cases h
      exact .overflow hnpos (.of_eq rfl rfl rfl rfl)
    · exact same (.callPacket rfl) h
    · exact same (.tripSendLimit sent) h
  | setState state =>
    obtain ⟨rfl, hentered⟩ := exec_tripSetState h
    exact .setState hentered
  | setError eval msg =>
    simp only [Task.run, tripSetError] at h
    rw [Prog.exec_bind_of (exec_fetch _ _)] at h
    split_ifs at h with hstate
    · rw [Prog.exec_bind_of (exec_tripmAlloc s)] at h
      cases h
      exact .setError hstate
    · exact same .nil h
  | unbindArm =>
    simp only [Task.run, tripUnbindArm] at h
    rw [Prog.exec_bind_of (exec_fetch _ _)] at h
    obtain ⟨u, hu, d, hd⟩ := exec_tripSetDeadline s.router.timeoutUnbind s
    obtain ⟨v, hv, harms⟩ := exec_tripArmState s.router.timeoutUnbind u
    rw [Prog.exec_bind_of hu, Prog.exec_bind_of hv] at h
    cases h
    rw [hd] at harms
    exact .unbindArm ⟨harms.state, harms.error, harms.timers⟩
  | walk w =>
    simp only [Task.run, tripTimeoutWalk] at h
    rw [Prog.exec_bind_of (exec_fetch _ _)] at h
    cases hstep : w.step s.router.timers.wheel with
    | none =>
      rw [hstep] at h
      cases h
      exact .calm ⟨rfl, rfl, rfl, .refl _⟩ (by simp)
    | some p =>
      obtain ⟨w', wheel, cb⟩ := p
      rw [hstep] at h
      cases h
      have hpending := Timerwheel.pending_step (p := Callback.isRouter) hstep
      have hquiet : Quiet s.router (s.router.setTimers { s.router.timers with wheel := wheel }) :=
        ⟨rfl, rfl, rfl, hpending.1⟩
      cases cb with
      | none => exact .calm hquiet (by simp [Task.calm])
      | some cb => exact .walk hquiet hpending.2
  | callback cb =>
    cases hcb : cb.ofMachine with
    | false => exact calm (.tripCallback hcb)
    | true =>
      cases cb with
      | tripTimeoutRouter =>
        simp only [Task.run, tripCallback, tripTimeoutRouterCb] at h
        rw [Prog.exec_bind_of (exec_store _ _), Prog.exec_bind_of (exec_fetch _ _)] at h
        split_ifs at h with hstate
        · cases h
          exact .stateTimerError hstate
        · cases h
          exact .stateTimer hstate
      | tripStopAsync =>
        cases h
        exact .stopAsync
      | _ => exact absurd hcb Bool.false_ne_true
  | action events =>
    simp only [Task.run, tripActionTimeout] at h
    rw [Prog.exec_bind_of (exec_fetch _ _)] at h
    split_ifs at h
    · exact same .nil h
    · exact .action (exec_tripActionSwitch h)
  | closeDeadline =>
    simp only [Task.run, tripActionDeadline] at h
    rw [Prog.exec_bind_of (exec_triptimeNow _), Prog.exec_bind_of (exec_fetch _ _),
      Prog.exec_ite] at h
    split_ifs at h with hnow
    · cases h
      exact .closeDeadline hnow
    · cases h
      exact .calm (.refl _) (by simp)

/-- `trip_action` for a timeout only walks the timers at first. -/
theorem Calms.tripActionTimeout (events : UInt32) : Calms (do
    let ts ← Libtrp.tripTimeout
    return ts ++ [.action events]) := by
  rintro s ts t h
  cases h
  exact ⟨.of_eq rfl rfl rfl rfl, by simp [Task.calm]⟩

/-- **Every call takes one of these turns.** -/
theorem Api.run_turn {api : Api} {s t : Env} {ts : List Task}
    (h : api.run.exec s = (some ts, t)) :
    api.Turn s.oracle.clock.head.toNat s.router ts t.router := by
  have calm : Calms api.run → api.Turn s.oracle.clock.head.toNat s.router ts t.router :=
    fun hc => .calm (hc s ts t h).1 (hc s ts t h).2
  cases api with
  | timeout => exact calm .tripTimeout
  | openConnection => exact calm .tripOpenConnection
  | setopt opt =>
    refine calm (.hushed (.store fun r => ?_))
    cases opt with
    | PACKET packet udp => cases packet <;> exact .of_eq rfl rfl rfl rfl
    | _ => exact .of_eq rfl rfl rfl rfl
  | setTimeout ms => exact calm (.hushed (.timer rfl ms))
  | cancelTimeout id => exact calm (.tripCancelUser id)
  | seg src len buf => exact calm (.hushed (Quiet.tripSeg src len buf))
  | resolve key src err emsg => exact calm (.hushed (.tripResolve key src err emsg))
  | watch fd events => exact calm (.tripWatch fd events)
  | start =>
    simp only [Api.run, tripStart] at h
    rw [Prog.exec_bind_of (exec_store _ _), Prog.exec_bind_of (exec_fetch _ _),
      Env.router_setRouter] at h
    by_cases hend : s.router.state = .END
    · rw [if_pos hend, if_pos rfl, tripAction, if_pos rfl] at h
      cases h
      exact .restart hend (by simp [Task.calm])
    · rw [if_neg hend] at h
      split_ifs at h
      · rw [tripAction, if_pos rfl] at h
        obtain ⟨hquiet, hts⟩ := Calms.tripActionTimeout 0 _ _ _ h
        exact .calm hquiet hts
      · cases h
        exact .calm (.refl _) (by simp)
  | action fd events =>
    simp only [Api.run, tripAction] at h
    split_ifs at h with hfd
    · obtain ⟨hquiet, hts⟩ := Calms.tripActionTimeout events _ _ _ h
      exact .calm hquiet hts
    · exact .action hfd (exec_tripActionSwitch h)
  | stop =>
    simp only [Api.run, tripStop] at h
    rw [Prog.exec_bind_of (exec_fetch _ _)] at h
    have hstop : s.router.state = .START ∨ s.router.state = .BIND ∨ s.router.state = .LISTEN →
        (do
          let e ← tripSetTimeoutM 0 .tripStopAsync
          if e.isNone then return [Task.setState .CLOSE] else return []).exec s = (some ts, t) →
        Api.Turn s.oracle.clock.head.toNat s.router .stop ts t.router := by
      intro hstate h
      obtain ⟨e, u, hu, h⟩ := Prog.exec_bind_eq_some.mp h
      have hquiet := @Hushed.timer .tripStopAsync rfl 0 s
      rw [hu] at hquiet
      cases e with
      | none =>
        cases h
        exact .stop hstate hquiet
      | some e =>
        cases h
        exact .calm hquiet (by simp)
    cases hstate : s.router.state with
    | START => exact hstop (Or.inl hstate) (by rw [hstate] at h; exact h)
    | BIND => exact hstop (Or.inr (Or.inl hstate)) (by rw [hstate] at h; exact h)
    | LISTEN => exact hstop (Or.inr (Or.inr hstate)) (by rw [hstate] at h; exact h)
    | CLOSE | UNBIND | END | ERROR =>
      rw [hstate] at h
      cases h
      exact .calm (.refl _) (by simp)
  | ready =>
    simp only [Api.run, tripReady] at h
    rw [Prog.exec_bind_of (exec_fetch _ _)] at h
    split_ifs at h with hstate
    · cases h
      exact .ready hstate
    · cases h
      exact .readyError hstate
  | unready err =>
    simp only [Api.run, tripUnready] at h
    split_ifs at h with herr
    · cases h
      exact .unreadyError herr
    · cases h
      rw [not_not.mp herr]
      exact .unready
  | error eval msg =>
    cases h
    exact .error

/-! ### Steps -/

/-- A task that is only ever on top of the stack. -/
def Task.urgent : Task → Bool
  | .setState _ | .setError _ _ | .callback _ => true
  | _ => false

theorem Task.urgent_of_calm {t : Task} (h : t.calm = true) : t.urgent = false := by
  cases t <;> first | rfl | exact absurd h Bool.false_ne_true

theorem Task.urgent_of_isCallout {t : Task} (h : t.isCallout = true) : t.urgent = false := by
  cases t <;> first | rfl | exact absurd h Bool.false_ne_true

/-- What is urgent is on top. -/
theorem Switch.tail {now : ℕ} {r r' : Router} {fd : ℤ} {ts : List Task}
    (h : Switch now r fd ts r') : ∀ u ∈ ts.tail, u.urgent = false := by
  cases h with
  | calm _ hts => exact fun u hu => Task.urgent_of_calm (hts u (List.mem_of_mem_tail hu))
  | startError | start | bindError | bindArm | unbound => exact fun u hu => absurd hu (by simp)

theorem Task.Turn.tail {code : Errno} {now : ℕ} {r r' : Router} {t : Task} {ts : List Task}
    (h : t.Turn code now r ts r') : ∀ u ∈ ts.tail, u.urgent = false := by
  cases h with
  | calm _ hts => exact fun u hu => Task.urgent_of_calm (hts u (List.mem_of_mem_tail hu))
  | setState =>
    generalize r.nextState _ = next
    cases next <;> simp [Router.enterTasks, Task.urgent]
    split <;> simp
  | walk => simp [Task.urgent]
  | action h => exact h.tail
  | fatal | overflow | setError | unbindArm | stateTimer | stateTimerError | stopAsync
    | closeDeadline => exact fun u hu => absurd hu (by simp)

theorem Api.Turn.tail {now : ℕ} {r r' : Router} {api : Api} {ts : List Task}
    (h : api.Turn now r ts r') : ∀ u ∈ ts.tail, u.urgent = false := by
  cases h with
  | calm _ hts | restart _ hts =>
    exact fun u hu => Task.urgent_of_calm (hts u (List.mem_of_mem_tail hu))
  | action _ h => exact h.tail
  | stop | ready | readyError | unreadyError | unready | error =>
    exact fun u hu => absurd hu (by simp)

namespace Config

variable {c c' : Config} {i : Input}

/-- What a run of a program above the stack leaves. -/
theorem go_eq_some {rest begun : List Task} {o : Oracle} {m : TripM (List Task)} :
    c.go rest begun o m = some c' ↔ ∃ ts s, m.exec ⟨c.router, o, []⟩ = (some ts, s) ∧
      (ts.any Task.isWalk && rest.any Task.isWalk) = false ∧
      c' = ⟨s.router, ts ++ rest, c.log ++ begun ++ ts.filter Task.isCallout⟩ := by
  unfold go
  rcases m.exec ⟨c.router, o, []⟩ with ⟨_ | ts, s⟩
  · simp
  · dsimp only
    by_cases hw : (ts.any Task.isWalk && rest.any Task.isWalk) = true
    · rw [if_pos hw]
      refine iff_of_false (by simp) ?_
      rintro ⟨ts', s', heq, hw', -⟩
      simp only [Prod.mk.injEq, Option.some.injEq] at heq
      rw [heq.1, hw'] at hw
      exact Bool.false_ne_true hw
    · rw [if_neg hw]
      constructor
      · intro h
        exact ⟨ts, s, rfl, Bool.not_eq_true _ |>.mp hw, (Option.some.inj h).symm⟩
      · rintro ⟨ts', s', heq, -, rfl⟩
        simp only [Prod.mk.injEq, Option.some.injEq] at heq
        rw [heq.1, heq.2]

/-- **A step** is a call, or a turn of the task on top. -/
theorem step_cases (h : c.Step i c') :
    (∃ api o ts s, i = .call api o ∧ c.waits = true ∧
        api.run.exec ⟨c.router, o, []⟩ = (some ts, s) ∧
        c' = ⟨s.router, ts ++ c.todo, c.log ++ ts.filter Task.isCallout⟩) ∨
      ∃ code o t rest ts s, i = .run code o ∧ c.todo = t :: rest ∧
        (t.run code).exec ⟨c.router, o, []⟩ = (some ts, s) ∧
        c' = ⟨s.router, ts ++ rest,
          c.log ++ (if t.isCallout then [] else [t]) ++ ts.filter Task.isCallout⟩ := by
  unfold Step step at h
  cases i with
  | call api o =>
    split_ifs at h with hwaits
    obtain ⟨ts, s, hexec, -, rfl⟩ := go_eq_some.mp h
    exact Or.inl ⟨api, o, ts, s, rfl, hwaits, hexec, by simp⟩
  | run code o =>
    cases htodo : c.todo with
    | nil => simp [htodo] at h
    | cons t rest =>
      simp only [htodo] at h
      obtain ⟨ts, s, hexec, -, rfl⟩ := go_eq_some.mp h
      exact Or.inr ⟨code, o, t, rest, ts, s, rfl, rfl, hexec, rfl⟩

/-- What is urgent is on top. -/
def Tidy (c : Config) : Prop := ∀ t ∈ c.todo.tail, t.urgent = false

theorem tidy_idle (r : Router) : (idle r).Tidy := fun _ ht => absurd ht List.not_mem_nil

/-- When the router may be called nothing is urgent. -/
theorem Tidy.of_waits (hc : c.Tidy) (hw : c.waits = true) : ∀ t ∈ c.todo, t.urgent = false := by
  unfold waits at hw
  intro t ht
  cases htodo : c.todo with
  | nil => simp [htodo] at ht
  | cons u rest =>
    rw [htodo, List.head?_cons, Option.all_some] at hw
    rw [htodo] at ht
    rcases List.mem_cons.mp ht with rfl | ht
    · exact Task.urgent_of_isCallout hw
    · exact hc t (by rw [htodo]; exact ht)

theorem mem_tail_append {ts rest : List Task} {t : Task} (h : t ∈ (ts ++ rest).tail) :
    t ∈ ts.tail ∨ t ∈ rest := by
  cases ts with
  | nil => exact Or.inr (List.mem_of_mem_tail h)
  | cons u ts => exact List.mem_append.mp h

/-- Every step keeps the stack tidy. -/
theorem Tidy.step (hc : c.Tidy) (h : c.Step i c') : c'.Tidy := by
  rcases step_cases h with ⟨api, o, ts, s, -, hw, hexec, rfl⟩ |
    ⟨code, o, t, rest, ts, s, -, htodo, hexec, rfl⟩
  · intro u hu
    rcases mem_tail_append hu with hu | hu
    · exact (Api.run_turn hexec).tail u hu
    · exact hc.of_waits hw u hu
  · intro u hu
    rcases mem_tail_append hu with hu | hu
    · exact (Task.run_turn hexec).tail u hu
    · exact hc u (by rw [htodo]; exact hu)

end Config

end Libtrp
