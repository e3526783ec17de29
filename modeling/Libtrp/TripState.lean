import Libtrp.TripTurn
import Libtrp.Lib.Run

/-!
# The state of the router over its runs

What the state machine is for, over every run of the machine: a router that has
failed says so, the timer of a state does not outlive it, the packet interface is
unbound at most once for each time it was bound, and a router that is stopped goes
through `CLOSE` and `UNBIND` to `END`.  None of it holds of every run, and each
theorem says what has to be avoided.

## Main definitions

* `Reports` — a router that has failed reports an error.

## Main results

* `trip_reports` — **when a router that has failed reports an error.**

## References

`src/trip.c` (`_trip_set_state`, `_trip_set_error`, `trip_action`, `trip_ready`,
`trip_unready`, `trip_stop`), `src/trip_poll.c` (`trip_run`).
-/

namespace Libtrp

open Lib

/-! ### A router that has failed -/

/-- `EHOSTDOWN` -/
def EHOSTDOWN : Errno := 112

/-- What `trip_action` returns, wherever it ends. -/
def tripActionCode (r : Router) : Errno := r.error

/-- The code `trip_run` returns without waiting for events, once it is set up. -/
def tripRunCode (r : Router) : Option Errno :=
  if r.state = .END then some EHOSTDOWN else if r.state = .ERROR then some r.error else none

/-- A router that has failed reports an error. -/
def Reports (c : Config) : Prop :=
  c.router.state = .ERROR →
    c.router.error ≠ 0 ∧ tripActionCode c.router ≠ 0 ∧ tripRunCode c.router ≠ some 0

/-- The packet interface gives `trip_error` a code. -/
def Input.givesCode : Input → Bool
  | .call (.error eval _) _ => eval ≠ 0
  | _ => true

/-- The steps with such inputs. -/
def ErrorStep (c : Config) (i : Input) (c' : Config) : Prop := c.Step i c' ∧ i.givesCode = true

/-- `trip_ready` is called while the router binds, or has failed already. -/
def ReadyInBind (c : Config) : Input → Prop
  | .call .ready _ => c.router.state = .BIND ∨ c.router.state = .ERROR
  | _ => True

instance (c : Config) (i : Input) : Decidable (ReadyInBind c i) := by
  unfold ReadyInBind
  split <;> infer_instance

instance (c : Config) : Decidable (Reports c) := by
  unfold Reports
  infer_instance

/-- What a change of the state that is to come needs: an error to report. -/
def Task.Fails (r : Router) : Task → Prop
  | .setState state => state = .ERROR → r.error ≠ 0
  | .setError eval _ => eval ≠ 0
  | _ => True

theorem Task.fails_of_urgent {t : Task} (h : t.urgent = false) (r : Router) : t.Fails r := by
  cases t <;> trivial

theorem Task.fails_of_calm {t : Task} (h : t.calm = true) (r : Router) : t.Fails r :=
  fails_of_urgent (urgent_of_calm h) r

/-- A router in `ERROR` has an error. -/
def Router.Failed (r : Router) : Prop := r.state = .ERROR → r.error ≠ 0

theorem Quiet.failed {r r' : Router} (h : Quiet r r') (hr : r.Failed) : r'.Failed := by
  unfold Router.Failed
  rw [h.state, h.error]
  exact hr

theorem Switch.fails {now : ℕ} {r r' : Router} {fd : ℤ} {ts : List Task}
    (h : Switch now r fd ts r') (hr : r.Failed) : r'.Failed ∧ ∀ u ∈ ts, u.Fails r' := by
  cases h with
  | calm hq hts => exact ⟨hq.failed hr, fun u hu => Task.fails_of_calm (hts u hu) _⟩
  | startError _ hq => exact ⟨hq.failed hr, by simp [Task.Fails, EINVAL]⟩
  | start _ _ hq => exact ⟨hq.failed hr, by simp [Task.Fails]⟩
  | bindError _ he =>
    refine ⟨hr, ?_⟩
    rcases he with rfl | rfl <;> simp [Task.Fails, EINVAL, ETIME]
  | bindArm hstate _ _ harms =>
    refine ⟨fun hs => ?_, by simp⟩
    rw [harms.state, hstate] at hs
    exact absurd hs (by decide)
  | unbound => exact ⟨hr, by simp [Task.Fails]⟩

theorem Task.Turn.fails {code : Errno} {now : ℕ} {r r' : Router} {t : Task} {ts : List Task}
    (h : t.Turn code now r ts r') (hr : r.Failed) (ht : t.Fails r) :
    r'.Failed ∧ ∀ u ∈ ts, u.Fails r' := by
  cases h with
  | calm hq hts => exact ⟨hq.failed hr, fun u hu => Task.fails_of_calm (hts u hu) _⟩
  | fatal _ hcode _ => exact ⟨hr, by simpa [Task.Fails] using hcode⟩
  | overflow _ hq => exact ⟨hq.failed hr, by simp [Task.Fails, ECOMM]⟩
  | @setState state _ hentered =>
    constructor
    · intro hs
      rw [hentered.state] at hs
      rw [hentered.error]
      unfold Router.nextState at hs
      split_ifs at hs with herror
      · exact hr herror
      · exact ht hs
    · intro u hu
      refine fails_of_urgent ?_ _
      generalize r.nextState state = next at hu
      cases next <;> simp [Router.enterTasks] at hu
      · rw [hu]; rfl
      · rcases hu with rfl | rfl <;> rfl
      · rw [hu.2]; rfl
  | setError hstate => exact ⟨fun hs => absurd hs hstate, by simpa [Task.Fails] using ht⟩
  | unbindArm harms =>
    refine ⟨fun hs => ?_, by simp⟩
    rw [harms.error]
    exact hr (harms.state ▸ hs)
  | walk hq _ => exact ⟨hq.failed hr, by simp [Task.Fails]⟩
  | stateTimer hstate => exact ⟨fun hs => absurd hs hstate, by simp [Task.Fails, ETIME]⟩
  | stateTimerError _ => exact ⟨hr, by simp⟩
  | stopAsync => exact ⟨hr, by simp [Task.Fails]⟩
  | closeDeadline => exact ⟨hr, by simp [Task.Fails]⟩
  | action h => exact h.fails hr

theorem Api.Turn.fails {now : ℕ} {r r' : Router} {api : Api} {ts : List Task}
    (h : api.Turn now r ts r') (hr : r.Failed)
    (herror : ∀ eval msg, api = .error eval msg → eval ≠ 0)
    (hready : api = .ready → r.state = .BIND ∨ r.state = .ERROR) :
    r'.Failed ∧ ∀ u ∈ ts, u.Fails r' := by
  cases h with
  | calm hq hts => exact ⟨hq.failed hr, fun u hu => Task.fails_of_calm (hts u hu) _⟩
  | restart _ hts =>
    exact ⟨fun hs => TriprState.noConfusion hs, fun u hu => Task.fails_of_calm (hts u hu) _⟩
  | action _ h => exact h.fails hr
  | stop _ hq => exact ⟨hq.failed hr, by simp [Task.Fails]⟩
  | ready _ => exact ⟨hr, by simp [Task.Fails]⟩
  | readyError hbind =>
    have hfailed : r.state = .ERROR := (hready rfl).resolve_left hbind
    exact ⟨hr, by simpa [Task.Fails] using hr hfailed⟩
  | unreadyError herr => exact ⟨hr, by simpa [Task.Fails] using herr⟩
  | unready => exact ⟨hr, by simp [Task.Fails]⟩
  | error => exact ⟨hr, by simpa [Task.Fails] using herror _ _ rfl⟩

/-- A router in `ERROR` has an error, and so will have one that is to fail. -/
structure ErrorInv (c : Config) : Prop where
  tidy : c.Tidy
  failed : c.router.Failed
  fails : ∀ t ∈ c.todo, t.Fails c.router

theorem ErrorInv.reports {c : Config} (hc : ErrorInv c) : Reports c := by
  intro hs
  have herror := hc.failed hs
  refine ⟨herror, herror, ?_⟩
  unfold tripRunCode
  rw [if_neg (by rw [hs]; decide), if_pos hs]
  simpa using herror

theorem ErrorInv.step {c c' : Config} {i : Input} (hc : ErrorInv c) (hg : ReadyInBind c i)
    (h : ErrorStep c i c') : ErrorInv c' := by
  have htidy := hc.tidy.step h.1
  rcases Config.step_cases h.1 with ⟨api, o, ts, s, rfl, hw, hexec, rfl⟩ |
    ⟨code, o, t, rest, ts, s, rfl, htodo, hexec, rfl⟩
  · obtain ⟨hfailed, hts⟩ := (Api.run_turn hexec).fails hc.failed
      (fun eval msg heq => by subst heq; simpa [Input.givesCode] using h.2)
      (fun heq => by subst heq; exact hg)
    refine ⟨htidy, hfailed, fun u hu => ?_⟩
    rcases List.mem_append.mp hu with hu | hu
    · exact hts u hu
    · exact Task.fails_of_urgent (hc.tidy.of_waits hw u hu) _
  · obtain ⟨hfailed, hts⟩ := (Task.run_turn hexec).fails hc.failed
      (hc.fails t (by rw [htodo]; exact List.mem_cons_self))
    refine ⟨htidy, hfailed, fun u hu => ?_⟩
    rcases List.mem_append.mp hu with hu | hu
    · exact hts u hu
    · exact Task.fails_of_urgent (hc.tidy u (by rw [htodo]; exact hu)) _

/-- **When a router that has failed reports an error**: in every run in which the
packet interface calls `trip_ready` only while the router binds. -/
theorem trip_reports (preset : TripPreset) (now : ℕ) (buf : Buf) {r : List (Input × Config)}
    (hr : IsRun ErrorStep (.idle (tripNew preset now buf)) r)
    (hm : Meets ReadyInBind (.idle (tripNew preset now buf)) r) :
    Holds Reports (fun _ _ _ => True) (.idle (tripNew preset now buf)) r := by
  have hinit : ErrorInv (.idle (tripNew preset now buf)) :=
    ⟨Config.tidy_idle _, fun hs => TriprState.noConfusion hs, fun t ht =>
      absurd ht List.not_mem_nil⟩
  refine Holds.mono (fun c hc => ErrorInv.reports hc) (fun _ _ _ _ hok => hok)
    (holds_of_meets ?_ hinit hr hm)
  intro c i c' hc hg h
  exact ⟨trivial, hc.step hg h⟩

/-- The task on top is run. -/
def turn : Input := .run 0 plainOracle

/-- A packet interface and the callbacks of the user are set, and the router is
started: it waits for the interface to bind. -/
def startInputs : List Input :=
  [.call (.setopt (.PACKET (some ⟨false⟩) none)) plainOracle,
    .call (.setopt (.HOOKS true)) plainOracle, .call .start plainOracle, turn, turn, turn]

/-- The interface binds, and fails to unbind. -/
theorem trip_reports_unready :
    Holds Reports (fun _ _ _ => True) (.idle (tripNew .ROUTER 0 fun _ => 0))
      (trace (fun i c => (c.step i).getD c) (.idle (tripNew .ROUTER 0 fun _ => 0))
        (startInputs ++ [.call .ready plainOracle, turn, .call (.unready EINVAL) plainOracle,
          turn, turn])) :=
  trip_reports .ROUTER 0 _ ((isRun_trace (by decide)).and_meets (by decide)) (by decide)

/-- **A second `trip_ready`** makes the router fail without an error. -/
theorem trip_ready_twice :
    ¬ ∀ (preset : TripPreset) (now : ℕ) (buf : Buf) (r : List (Input × Config)),
      IsRun ErrorStep (.idle (tripNew preset now buf)) r →
        Holds Reports (fun _ _ _ => True) (.idle (tripNew preset now buf)) r := by
  intro h
  have hlast := (h .ROUTER 0 (fun _ => 0) _ ((isRun_trace (f := Config.step)
    (l := startInputs ++ [.call .ready plainOracle, turn, .call .ready plainOracle, turn])
      (by decide)).and_meets (by decide))).last
  revert hlast
  decide

/-! ### The timer of the state -/

/-- The pending timer of the state machine is the one of the state, and there is none
in `LISTEN` and `END`; its callback finds the router in neither. -/
structure StateTimerOk (c : Config) : Prop where
  one : c.router.stateTimers.length ≤ 1
  own : ∀ id ∈ c.router.stateTimers, c.router.statetimer = some id
  none : c.router.state = .LISTEN ∨ c.router.state = .END → c.router.stateTimers = []
  harmless : c.todo.head? = some (.callback .tripTimeoutRouter) →
    c.router.state ≠ .LISTEN ∧ c.router.state ≠ .END

/-- The state is not changed while the interface unbinds for `UNBIND`, and in `BIND` an
action for a timeout finds no timer set or the deadline passed. -/
def StateTimerGuard (c : Config) : Input → Prop
  | .call _ _ => True
  | .run _ o =>
    match c.todo.head? with
    | some (.setState _) => .unbindArm ∉ c.todo
    | some (.action _) => c.router.state = .BIND →
        c.router.statetimer = none ∨ c.router.statedeadline < o.clock.head.toNat
    | _ => True

/-- What is pending belongs to the state. -/
structure TimerFit (r : Router) : Prop where
  timers : r.stateTimers.Sublist r.statetimer.toList
  still : r.state = .START ∨ r.state = .LISTEN ∨ r.state = .END → r.statetimer = none

namespace TimerFit

variable {r r' : Router}

theorem own (h : TimerFit r) {id : Ptr} (hid : id ∈ r.stateTimers) : r.statetimer = some id :=
  Option.mem_toList.mp (h.timers.subset hid)

theorem nil (h : TimerFit r) (hr : r.statetimer = none) : r.stateTimers = [] := by
  have htimers := h.timers
  rw [hr] at htimers
  exact List.sublist_nil.mp htimers

theorem quiet (h : TimerFit r) (hq : Quiet r r') : TimerFit r' := by
  refine ⟨?_, ?_⟩
  · rw [hq.statetimer]
    exact hq.timers.trans h.timers
  · rw [hq.state, hq.statetimer]
    exact h.still

/-- Nothing is pending once a state with a timer is left. -/
theorem leftTimers_timed (h : TimerFit r) (ht : r.state.timed = true) : r.leftTimers = [] := by
  rw [Router.leftTimers, if_pos ht, List.filter_eq_nil_iff]
  intro id hid
  simpa using (h.own hid).symm

/-- Nothing is pending once a state is left whose timer is not set then. -/
theorem leftTimers_nil (h : TimerFit r) (ht : r.leftTimer = none) : r.leftTimers = [] := by
  cases htimed : r.state.timed with
  | true => exact h.leftTimers_timed htimed
  | false =>
    rw [Router.leftTimer, htimed] at ht
    rw [Router.leftTimers, htimed]
    exact h.nil ht

/-- The timer is not set once a state other than `ERROR` is left. -/
theorem leftTimer_none (h : TimerFit r) (hr : r.state ≠ .ERROR) : r.leftTimer = none := by
  unfold Router.leftTimer
  cases hstate : r.state with
  | BIND | CLOSE | UNBIND => rfl
  | START => exact h.still (Or.inl hstate)
  | LISTEN => exact h.still (Or.inr (Or.inl hstate))
  | END => exact h.still (Or.inr (Or.inr hstate))
  | ERROR => exact absurd hstate hr

/-- Where nothing is armed the timer is that of the state that was left. -/
theorem leftTimers_sublist (h : TimerFit r) : r.leftTimers.Sublist r.leftTimer.toList := by
  by_cases hr : r.state = .ERROR
  · rw [Router.leftTimers, Router.leftTimer, hr]
    exact h.timers
  · rw [h.leftTimers_nil (h.leftTimer_none hr)]
    exact List.nil_sublist _

/-- **Changing the state** leaves at most the timer of the new one. -/
theorem entered (h : TimerFit r) {state : TriprState}
    (he : Entered r (r.nextState state) (r.armsState (r.nextState state)) r') : TimerFit r' := by
  have hnext : r.nextState state ≠ .ERROR → r.state ≠ .ERROR := by
    intro hne hr
    exact hne (if_pos hr)
  generalize r.nextState state = next at he hnext
  cases harmed : r.armsState next with
  | false =>
    obtain ⟨htimer, htimers⟩ := he.timer harmed
    refine ⟨by rw [htimer, htimers]; exact h.leftTimers_sublist, fun hs => ?_⟩
    rw [he.state] at hs
    rw [htimer]
    refine h.leftTimer_none (hnext ?_)
    rcases hs with rfl | rfl | rfl <;> decide
  | true =>
    have hnone : r.leftTimer = none := by
      cases next with
      | BIND | CLOSE => exact h.leftTimer_none (hnext (by decide))
      | ERROR =>
        unfold Router.armsState Router.unbindsOnError at harmed
        simpa using (Bool.and_eq_true_iff.mp harmed).2
      | START | LISTEN | UNBIND | END => exact absurd harmed Bool.false_ne_true
    refine ⟨?_, fun hs => ?_⟩
    · rw [he.timers harmed, h.leftTimers_nil hnone, List.append_nil]
    · rw [he.state] at hs
      rcases hs with rfl | rfl | rfl <;> exact absurd harmed Bool.false_ne_true

/-- Arming where nothing is pending. -/
theorem arms (h : TimerFit r) (hr : r.statetimer = none) (ha : Arms r r')
    (hs : r.state = .BIND ∨ r.state = .UNBIND) : TimerFit r' := by
  refine ⟨?_, fun hs' => ?_⟩
  · rw [ha.timers, h.nil hr, List.append_nil]
  · rw [ha.state] at hs'
    rcases hs with hs | hs <;> simp [hs] at hs'

end TimerFit

/-- The timer of the state fits, also where it is yet to be armed or its callback is
on top. -/
structure StateTimerInv (c : Config) : Prop where
  tidy : c.Tidy
  fit : TimerFit c.router
  arming : .unbindArm ∈ c.todo → c.router.state = .UNBIND ∧ c.router.statetimer = none
  once : c.todo.count .unbindArm ≤ 1
  fired : c.todo.head? = some (.callback .tripTimeoutRouter) →
    c.router.stateTimers = [] ∧ c.router.statetimer ≠ none

namespace StateTimerInv

variable {c : Config}

theorem ok (hc : StateTimerInv c) : StateTimerOk c := by
  refine ⟨?_, fun id hid => hc.fit.own hid, ?_, ?_⟩
  · refine hc.fit.timers.length_le.trans ?_
    cases c.router.statetimer <;> simp
  · intro hs
    exact hc.fit.nil (hc.fit.still (Or.inr hs))
  · intro htop
    have hne := (hc.fired htop).2
    exact ⟨fun hs => hne (hc.fit.still (Or.inr (Or.inl hs))),
      fun hs => hne (hc.fit.still (Or.inr (Or.inr hs)))⟩

/-- A step that leaves tasks which neither arm the timer nor are its callback. -/
theorem next {r : Router} {ts rest log : List Task}
    (htidy : Config.Tidy ⟨r, ts ++ rest, log⟩) (hfit : TimerFit r)
    (hts : ∀ u ∈ ts, u ≠ .unbindArm ∧ u ≠ .callback .tripTimeoutRouter)
    (hrest : ∀ u ∈ rest, u.urgent = false) (hcount : rest.count .unbindArm ≤ 1)
    (harming : .unbindArm ∈ rest → r.state = .UNBIND ∧ r.statetimer = none) :
    StateTimerInv ⟨r, ts ++ rest, log⟩ := by
  have hnone : .unbindArm ∉ ts := fun h => (hts _ h).1 rfl
  refine ⟨htidy, hfit, ?_, ?_, ?_⟩
  · intro h
    exact harming ((List.mem_append.mp h).resolve_left hnone)
  · rw [List.count_append, List.count_eq_zero_of_not_mem hnone, Nat.zero_add]
    exact hcount
  · intro htop
    cases ts with
    | nil => exact absurd (hrest _ (List.mem_of_head? htop)) (by decide)
    | cons u ts => exact absurd (Option.some.inj htop) (hts u List.mem_cons_self).2

/-- A task that is calm does neither. -/
theorem calm_ne {u : Task} (h : u.calm = true) :
    u ≠ .unbindArm ∧ u ≠ .callback .tripTimeoutRouter := by
  constructor <;> rintro rfl <;> exact absurd h (by decide)

/-- A switch in an action, with the tasks `rest` below. -/
theorem switch {now : ℕ} {r r' : Router} {fd : ℤ} {ts rest log : List Task}
    (h : Switch now r fd ts r') (htidy : Config.Tidy ⟨r', ts ++ rest, log⟩) (hfit : TimerFit r)
    (hguard : fd = tripSocketTimeout → r.state = .BIND →
      r.statetimer = none ∨ r.statedeadline < now)
    (hrest : ∀ u ∈ rest, u.urgent = false) (hcount : rest.count .unbindArm ≤ 1)
    (harming : .unbindArm ∈ rest → r.state = .UNBIND ∧ r.statetimer = none) :
    StateTimerInv ⟨r', ts ++ rest, log⟩ := by
  have same : Quiet r r' → .unbindArm ∈ rest → r'.state = .UNBIND ∧ r'.statetimer = none := by
    intro hq h
    rw [hq.state, hq.statetimer]
    exact harming h
  cases h with
  | calm hq hts =>
    exact next htidy (hfit.quiet hq) (fun u hu => calm_ne (hts u hu)) hrest hcount (same hq)
  | startError _ hq | start _ _ hq =>
    exact next htidy (hfit.quiet hq) (by simp) hrest hcount (same hq)
  | bindError | unbound => exact next htidy hfit (by simp) hrest hcount harming
  | bindArm hstate hfd hnow harms =>
    have hnone : r.statetimer = none :=
      (hguard hfd hstate).resolve_right (not_lt.mpr hnow)
    refine next htidy (hfit.arms hnone harms (Or.inl hstate)) (by simp) hrest hcount ?_
    intro h
    have hunbind := (harming h).1
    rw [hstate] at hunbind
    exact absurd hunbind (by decide)

/-- A call keeps the invariant. -/
theorem call (hc : StateTimerInv c) {api : Api} {now : ℕ} {r' : Router} {ts log : List Task}
    (hw : c.waits = true) (h : api.Turn now c.router ts r')
    (htidy : Config.Tidy ⟨r', ts ++ c.todo, log⟩) :
    StateTimerInv ⟨r', ts ++ c.todo, log⟩ := by
  have hrest := hc.tidy.of_waits hw
  cases h with
  | calm hq hts =>
    refine next htidy (hc.fit.quiet hq) (fun u hu => calm_ne (hts u hu)) hrest hc.once ?_
    rw [hq.state, hq.statetimer]
    exact hc.arming
  | restart hend hts =>
    have hnone := hc.fit.still (Or.inr (Or.inr hend))
    refine next htidy ⟨hc.fit.timers, fun _ => hnone⟩ (fun u hu => calm_ne (hts u hu)) hrest
      hc.once ?_
    intro h
    have hunbind := (hc.arming h).1
    rw [hend] at hunbind
    exact absurd hunbind (by decide)
  | action hfd h =>
    exact switch h htidy hc.fit (fun h => absurd h hfd) hrest hc.once hc.arming
  | stop _ hq =>
    refine next htidy (hc.fit.quiet hq) (by simp) hrest hc.once ?_
    rw [hq.state, hq.statetimer]
    exact hc.arming
  | ready | readyError | unreadyError | unready | error =>
    exact next htidy hc.fit (by simp) hrest hc.once hc.arming

/-- A turn of the task on top keeps the invariant. -/
theorem run (hc : StateTimerInv c) {t : Task} {rest : List Task} (htodo : c.todo = t :: rest)
    {code : Errno} {o : Oracle} (hg : StateTimerGuard c (.run code o)) {r' : Router}
    {ts log : List Task} (h : t.Turn code o.clock.head.toNat c.router ts r')
    (htidy : Config.Tidy ⟨r', ts ++ rest, log⟩) : StateTimerInv ⟨r', ts ++ rest, log⟩ := by
  have hrest : ∀ u ∈ rest, u.urgent = false := fun u hu => hc.tidy u (by rw [htodo]; exact hu)
  have hcount : rest.count .unbindArm ≤ 1 := by
    have honce := hc.once
    rw [htodo] at honce
    exact (List.count_le_count_cons).trans honce
  have harming : .unbindArm ∈ rest →
      c.router.state = .UNBIND ∧ c.router.statetimer = none :=
    fun h => hc.arming (by rw [htodo]; exact List.mem_cons_of_mem _ h)
  unfold StateTimerGuard at hg
  dsimp only at hg
  rw [htodo, List.head?_cons] at hg
  cases h with
  | calm hq hts =>
    refine next htidy (hc.fit.quiet hq) (fun u hu => calm_ne (hts u hu)) hrest hcount ?_
    rw [hq.state, hq.statetimer]
    exact harming
  | fatal | stopAsync | closeDeadline => exact next htidy hc.fit (by simp) hrest hcount harming
  | setError => exact next htidy ⟨hc.fit.timers, hc.fit.still⟩ (by simp) hrest hcount harming
  | overflow _ hq =>
    refine next htidy (hc.fit.quiet hq) (by simp) hrest hcount ?_
    rw [hq.state, hq.statetimer]
    exact harming
  | @setState state _ hentered =>
    have hnone : .unbindArm ∉ rest := fun h => hg (List.mem_cons_of_mem _ h)
    have hfit := hc.fit.entered hentered
    by_cases hunbind : c.router.nextState state = .UNBIND
    swap
    · refine next htidy hfit ?_ hrest hcount fun h => absurd h hnone
      generalize c.router.nextState state = next at hunbind
      cases next <;> simp [Router.enterTasks] at hunbind ⊢
    · -- the timer of `UNBIND` is armed behind `unbind`
      rw [hunbind] at hentered htidy ⊢
      have hne : c.router.state ≠ .ERROR := by
        intro hr
        rw [Router.nextState, if_pos hr] at hunbind
        exact absurd hunbind (by decide)
      refine ⟨htidy, hunbind ▸ hfit, fun _ => ?_, ?_, fun htop => ?_⟩
      · exact ⟨hentered.state, (hentered.timer rfl).1.trans (hc.fit.leftTimer_none hne)⟩
      · show List.count _ ([.unbind, .unbindArm] ++ rest) ≤ 1
        rw [List.count_append, List.count_eq_zero_of_not_mem hnone]
        decide
      · exact absurd (Option.some.inj htop) (by decide)
  | unbindArm harms =>
    have hnone : .unbindArm ∉ rest := by
      have honce := hc.once
      rw [htodo, List.count_cons_self] at honce
      exact List.count_eq_zero.mp (by omega)
    obtain ⟨hstate, htimer⟩ := hc.arming (by rw [htodo]; exact List.mem_cons_self)
    exact next htidy (hc.fit.arms htimer harms (Or.inr hstate)) (by simp) hrest hcount
      fun h => absurd h hnone
  | @walk w w' cb _ hq hlen =>
    by_cases hcb : cb = .tripTimeoutRouter
    swap
    · refine next htidy (hc.fit.quiet hq) (by simp [hcb]) hrest hcount ?_
      rw [hq.state, hq.statetimer]
      exact harming
    · -- the timer of the state is taken out, and nothing else was pending
      subst hcb
      have hone := hc.ok.one
      rw [Callback.isRouter, if_pos rfl] at hlen
      have hnil : r'.stateTimers = [] := List.length_eq_zero_iff.mp (by omega)
      refine ⟨htidy, hc.fit.quiet hq, ?_, ?_, fun _ => ⟨hnil, ?_⟩⟩
      · rw [hq.state, hq.statetimer]
        intro h
        exact harming (by simpa using h)
      · rw [List.count_append]
        exact (Nat.zero_add _).trans_le hcount
      · rw [hq.statetimer]
        intro hnone
        rw [hc.fit.nil hnone] at hlen
        simp at hlen
  | stateTimer _ | stateTimerError _ =>
    have hfired := hc.fired (by rw [htodo]; rfl)
    refine next htidy ⟨?_, fun _ => rfl⟩ (by simp) hrest hcount fun h => ⟨(harming h).1, rfl⟩
    show c.router.stateTimers.Sublist _
    rw [hfired.1]
    exact List.nil_sublist _
  | action h => exact switch h htidy hc.fit (fun _ => hg) hrest hcount harming

theorem step {c' : Config} {i : Input} (hc : StateTimerInv c) (hg : StateTimerGuard c i)
    (h : c.Step i c') : StateTimerInv c' := by
  have htidy := hc.tidy.step h
  rcases Config.step_cases h with ⟨api, o, ts, s, rfl, hw, hexec, rfl⟩ |
    ⟨code, o, t, rest, ts, s, rfl, htodo, hexec, rfl⟩
  · exact hc.call hw (Api.run_turn hexec) htidy
  · exact hc.run htodo hg (Task.run_turn hexec) htidy

end StateTimerInv

instance (c : Config) (i : Input) : Decidable (StateTimerGuard c i) := by
  unfold StateTimerGuard
  split
  · infer_instance
  · split <;> infer_instance

/-- **When the timer of a state does not outlive it**: in every run in which the state
is not changed while the interface unbinds for `UNBIND`, and no action re-arms the
timer of `BIND`. -/
theorem trip_stateTimer (preset : TripPreset) (now : ℕ) (buf : Buf) {r : List (Input × Config)}
    (hr : IsRun Config.Step (.idle (tripNew preset now buf)) r)
    (hm : Meets StateTimerGuard (.idle (tripNew preset now buf)) r) :
    Holds StateTimerOk (fun _ _ _ => True) (.idle (tripNew preset now buf)) r := by
  have hinit : StateTimerInv (.idle (tripNew preset now buf)) := by
    refine ⟨Config.tidy_idle _, ⟨.refl _, fun _ => rfl⟩, ?_, Nat.zero_le 1, ?_⟩
    · exact fun h => absurd h List.not_mem_nil
    · exact fun h => nomatch h
  refine Holds.mono (fun c hc => StateTimerInv.ok hc) (fun _ _ _ _ hok => hok)
    (holds_of_meets ?_ hinit hr hm)
  intro c i c' hc hg h
  exact ⟨trivial, hc.step hg h⟩

/-- The interface binds, and the router listens. -/
def listenInputs : List Input := startInputs ++ [.call .ready plainOracle, turn, turn]

/-- Where allocations fail. -/
def noMemory : Oracle := { plainOracle with alloc := Stream'.const false }

/-- A router without memory is stopped; an action finds the deadline of `CLOSE` passed,
and the interface is unbound. -/
def stopInputs : List Input :=
  [.call .stop noMemory, turn,
    .call (.action 5 0) plainOracle, turn, turn, turn, turn, turn, turn,
    .call (.unready 0) plainOracle, turn]

/-- The router listens, and is stopped. -/
theorem trip_stateTimer_stop :
    Holds StateTimerOk (fun _ _ _ => True) (.idle (tripNew .ROUTER 0 fun _ => 0))
      (trace (fun i c => (c.step i).getD c) (.idle (tripNew .ROUTER 0 fun _ => 0))
        (listenInputs ++ stopInputs)) :=
  trip_stateTimer .ROUTER 0 _ (isRun_trace (by decide)) (by decide)

/-- **An action while the router binds** re-arms the timer of `BIND`, and the one it was
armed with is pending in `LISTEN`. -/
theorem trip_action_rearms :
    ¬ ∀ (preset : TripPreset) (now : ℕ) (buf : Buf) (r : List (Input × Config)),
      IsRun Config.Step (.idle (tripNew preset now buf)) r →
        Holds StateTimerOk (fun _ _ _ => True) (.idle (tripNew preset now buf)) r := by
  intro h
  have hlast := (h .ROUTER 0 (fun _ => 0) _ (isRun_trace (f := Config.step)
    (l := startInputs ++ [turn, .call (.action tripSocketTimeout 0) plainOracle, turn, turn, turn,
      .call .ready plainOracle, turn]) (by decide))).last
  have hnone := hlast.none
  revert hnone
  decide

/-! ### Binding and unbinding -/

/-- The states in which the interface is bound, or binds. -/
def TriprState.bound : TriprState → Bool
  | .BIND | .LISTEN | .CLOSE => true
  | .START | .UNBIND | .END | .ERROR => false

/-- The interface was told to unbind at most once for each time it was told to bind. -/
def UnbindOnce (c : Config) : Prop := c.log.count .unbind ≤ c.log.count .bind

/-- `CLOSE` and `UNBIND` are entered from a state in which the interface is bound, and
so is `ERROR` where that tells the interface to unbind. -/
def BoundGuard (c : Config) : Input → Prop
  | .call _ _ => True
  | .run _ _ =>
    match c.todo.head? with
    | some (.setState state) =>
      c.router.nextState state = .CLOSE ∨ c.router.nextState state = .UNBIND ∨
          c.router.nextState state = .ERROR ∧ c.router.unbindsOnError = true →
        c.router.state.bound = true
    | _ => True

instance (c : Config) (i : Input) : Decidable (BoundGuard c i) := by
  unfold BoundGuard
  split
  · infer_instance
  · split <;> infer_instance

instance (c : Config) : Decidable (UnbindOnce c) := inferInstanceAs (Decidable (_ ≤ _))

/-- A task that neither binds nor unbinds, nor begins to listen. -/
def Task.offBind (t : Task) : Prop := t ≠ .bind ∧ t ≠ .unbind ∧ t ≠ .setState .LISTEN

theorem Task.offBind_of_calm {t : Task} (h : t.calm = true) : t.offBind := by
  refine ⟨?_, ?_, ?_⟩ <;> rintro rfl <;> exact absurd h (by decide)

theorem Switch.offBind {now : ℕ} {r r' : Router} {fd : ℤ} {ts : List Task}
    (h : Switch now r fd ts r') : r'.state = r.state ∧ ∀ u ∈ ts, u.offBind := by
  cases h with
  | calm hq hts => exact ⟨hq.state, fun u hu => Task.offBind_of_calm (hts u hu)⟩
  | startError _ hq | start _ _ hq => exact ⟨hq.state, by simp [Task.offBind]⟩
  | bindError | unbound => exact ⟨rfl, by simp [Task.offBind]⟩
  | bindArm _ _ _ harms => exact ⟨harms.state, by simp⟩

/-- A task that does not change the state neither binds nor unbinds. -/
theorem Task.Turn.offBind {code : Errno} {now : ℕ} {r r' : Router} {t : Task} {ts : List Task}
    (h : t.Turn code now r ts r') :
    (∃ state, t = .setState state ∧ ts = r.enterTasks (r.nextState state) ∧
        r'.state = r.nextState state) ∨
      r'.state = r.state ∧ ∀ u ∈ ts, u.offBind := by
  cases h with
  | calm hq hts => exact Or.inr ⟨hq.state, fun u hu => Task.offBind_of_calm (hts u hu)⟩
  | setState hentered => exact Or.inl ⟨_, rfl, rfl, hentered.state⟩
  | fatal | setError | stateTimer | stopAsync | closeDeadline =>
    exact Or.inr ⟨rfl, by simp [Task.offBind]⟩
  | stateTimerError => exact Or.inr ⟨rfl, by simp⟩
  | overflow _ hq | walk hq => exact Or.inr ⟨hq.state, by simp [Task.offBind]⟩
  | unbindArm harms => exact Or.inr ⟨harms.state, by simp⟩
  | action h => exact Or.inr h.offBind

theorem Api.Turn.offBind {now : ℕ} {r r' : Router} {api : Api} {ts : List Task}
    (h : api.Turn now r ts r') :
    (r.state = .BIND ∧ ts = [.setState .LISTEN] ∧ r' = r) ∨
      (r'.state = r.state ∨ r'.state = .START) ∧ ∀ u ∈ ts, u.offBind := by
  cases h with
  | calm hq hts =>
    exact Or.inr ⟨Or.inl hq.state, fun u hu => Task.offBind_of_calm (hts u hu)⟩
  | restart _ hts => exact Or.inr ⟨Or.inr rfl, fun u hu => Task.offBind_of_calm (hts u hu)⟩
  | action _ h => exact Or.inr ⟨Or.inl h.offBind.1, h.offBind.2⟩
  | stop _ hq => exact Or.inr ⟨Or.inl hq.state, by simp [Task.offBind]⟩
  | ready hbind => exact Or.inl ⟨hbind, rfl, rfl⟩
  | readyError | unreadyError | unready | error =>
    exact Or.inr ⟨Or.inl rfl, by simp [Task.offBind]⟩

/-- Where the interface is bound there is a bind that was not unbound yet. -/
structure BoundInv (c : Config) : Prop where
  tidy : c.Tidy
  once : UnbindOnce c
  bound : c.router.state.bound = true → c.log.count .unbind < c.log.count .bind
  listen : c.todo.head? = some (.setState .LISTEN) → c.router.state = .BIND

/-- The callouts of a step are those it leaves on top. -/
theorem count_log {t : Task} (ht : t.isCallout = true) (log begun ts : List Task)
    (hbegun : ∀ u ∈ begun, u.isCallout = false) :
    (log ++ begun ++ ts.filter Task.isCallout).count t = log.count t + ts.count t := by
  have hnone : t ∉ begun := fun h => by rw [hbegun t h] at ht; exact Bool.false_ne_true ht
  rw [List.count_append, List.count_append, List.count_eq_zero_of_not_mem hnone,
    List.count_filter ht, Nat.add_zero]

namespace BoundInv

variable {c : Config}

/-- A step that neither binds nor unbinds. -/
theorem off (hc : BoundInv c) {r : Router} {ts rest begun : List Task}
    (htidy : Config.Tidy ⟨r, ts ++ rest, c.log ++ begun ++ ts.filter Task.isCallout⟩)
    (hs : r.state = c.router.state ∨ r.state = .START) (hts : ∀ u ∈ ts, u.offBind)
    (hrest : ∀ u ∈ rest, u.urgent = false) (hbegun : ∀ u ∈ begun, u.isCallout = false) :
    BoundInv ⟨r, ts ++ rest, c.log ++ begun ++ ts.filter Task.isCallout⟩ := by
  have hbind : ts.count .bind = 0 := List.count_eq_zero.mpr fun h => (hts _ h).1 rfl
  have hunbind : ts.count .unbind = 0 := List.count_eq_zero.mpr fun h => (hts _ h).2.1 rfl
  refine ⟨htidy, ?_, ?_, ?_⟩
  · unfold UnbindOnce
    rw [count_log rfl _ _ _ hbegun, count_log rfl _ _ _ hbegun, hbind, hunbind]
    exact hc.once
  · intro hb
    show _ < _
    rw [count_log rfl _ _ _ hbegun, count_log rfl _ _ _ hbegun, hbind, hunbind]
    rcases hs with hs | hs
    · exact hc.bound (by rw [← hs]; exact hb)
    · change r.state.bound = true at hb
      rw [hs] at hb
      exact absurd hb (by decide)
  · intro htop
    cases ts with
    | nil => exact absurd (hrest _ (List.mem_of_head? htop)) (by decide)
    | cons u ts => exact absurd (Option.some.inj htop) (hts u List.mem_cons_self).2.2

/-- A change of the state. -/
theorem setState (hc : BoundInv c) {state : TriprState} {rest : List Task}
    (htodo : c.todo = .setState state :: rest) {code : Errno} {o : Oracle}
    (hg : BoundGuard c (.run code o)) {r : Router} {ts : List Task}
    (hts : ts = c.router.enterTasks (c.router.nextState state))
    (hs : r.state = c.router.nextState state)
    (htidy : Config.Tidy ⟨r, ts ++ rest,
      c.log ++ [.setState state] ++ ts.filter Task.isCallout⟩) :
    BoundInv ⟨r, ts ++ rest, c.log ++ [.setState state] ++ ts.filter Task.isCallout⟩ := by
  have hrest : ∀ u ∈ rest, u.urgent = false := fun u hu => hc.tidy u (by rw [htodo]; exact hu)
  have hbegun : ∀ u ∈ [Task.setState state], u.isCallout = false := by simp [Task.isCallout]
  have hlisten : c.router.nextState state = .LISTEN → c.router.state = .BIND := by
    intro hnext
    unfold Router.nextState at hnext
    split_ifs at hnext
    exact hc.listen (by rw [htodo, hnext]; rfl)
  unfold BoundGuard at hg
  dsimp only at hg
  rw [htodo, List.head?_cons] at hg
  dsimp only at hg
  -- what is counted, by the state that is entered
  have key : c.log.count .unbind + ts.count .unbind ≤ c.log.count .bind + ts.count .bind ∧
      (r.state.bound = true → c.log.count .unbind + ts.count .unbind <
        c.log.count .bind + ts.count .bind) := by
    have honce : c.log.count .unbind ≤ c.log.count .bind := hc.once
    rw [hs, hts]
    generalize c.router.nextState state = next at hg hlisten
    cases next with
    | START | END => exact ⟨honce, fun h => absurd h (by decide)⟩
    | BIND =>
      have hlt : c.log.count .unbind < c.log.count .bind + 1 := Nat.lt_succ_of_le honce
      exact ⟨hlt.le, fun _ => hlt⟩
    | LISTEN =>
      have hlt := hc.bound (by rw [hlisten rfl]; rfl)
      exact ⟨hlt.le, fun _ => hlt⟩
    | CLOSE =>
      have hlt := hc.bound (hg (Or.inl rfl))
      exact ⟨hlt.le, fun _ => hlt⟩
    | UNBIND =>
      have hlt := hc.bound (hg (Or.inr (Or.inl rfl)))
      exact ⟨hlt, fun h => absurd h (by decide)⟩
    | ERROR =>
      refine ⟨?_, fun h => absurd h (by decide)⟩
      unfold Router.enterTasks
      dsimp only
      by_cases hunbind : c.router.unbindsOnError = true
      · rw [if_pos hunbind]
        exact hc.bound (hg (Or.inr (Or.inr ⟨rfl, hunbind⟩)))
      · rw [if_neg hunbind]
        exact honce
  refine ⟨htidy, ?_, ?_, ?_⟩
  · unfold UnbindOnce
    rw [count_log rfl _ _ _ hbegun, count_log rfl _ _ _ hbegun]
    exact key.1
  · show _ → _ < _
    rw [count_log rfl _ _ _ hbegun, count_log rfl _ _ _ hbegun]
    exact key.2
  · intro htop
    rw [hts] at htop
    generalize c.router.nextState state = next at htop
    have hnot : rest.head? ≠ some (.setState .LISTEN) := fun h =>
      absurd (hrest _ (List.mem_of_head? h)) (by decide)
    cases next with
    | START | LISTEN | CLOSE | END => exact absurd htop hnot
    | BIND | UNBIND => exact absurd (Option.some.inj htop) (by decide)
    | ERROR =>
      unfold Router.enterTasks at htop
      dsimp only at htop
      split_ifs at htop
      · exact absurd (Option.some.inj htop) (by decide)
      · exact absurd htop hnot

theorem step {c' : Config} {i : Input} (hc : BoundInv c) (hg : BoundGuard c i)
    (h : c.Step i c') : BoundInv c' := by
  have htidy := hc.tidy.step h
  rcases Config.step_cases h with ⟨api, o, ts, s, rfl, hw, hexec, rfl⟩ |
    ⟨code, o, t, rest, ts, s, rfl, htodo, hexec, rfl⟩
  · have hrest := hc.tidy.of_waits hw
    have hlog : c.log ++ ts.filter Task.isCallout = c.log ++ [] ++ ts.filter Task.isCallout := by
      simp
    rcases (Api.run_turn hexec).offBind with ⟨hbind, rfl, hr⟩ | ⟨hs, hts⟩
    · refine ⟨htidy, ?_, ?_, fun _ => ?_⟩
      · show UnbindOnce ⟨_, _, c.log ++ []⟩
        rw [List.append_nil]
        exact hc.once
      · show s.router.state.bound = true → List.count _ (c.log ++ []) < List.count _ (c.log ++ [])
        rw [List.append_nil, hr]
        exact hc.bound
      · show s.router.state = .BIND
        rw [hr]
        exact hbind
    · rw [hlog] at htidy ⊢
      exact hc.off htidy hs hts hrest (by simp)
  · have hrest : ∀ u ∈ rest, u.urgent = false := fun u hu =>
      hc.tidy u (by rw [htodo]; exact hu)
    rcases (Task.run_turn hexec).offBind with ⟨state, rfl, hts, hs⟩ | ⟨hs, hts⟩
    · exact hc.setState htodo hg hts hs htidy
    · refine hc.off htidy (Or.inl hs) hts hrest fun u hu => ?_
      split_ifs at hu with hcall
      · exact absurd hu List.not_mem_nil
      · rw [List.mem_singleton.mp hu]
        exact Bool.not_eq_true _ |>.mp hcall

end BoundInv

/-- **When the interface is unbound at most once for each time it was bound**: in every
run in which it is told to unbind, or the router begins to close, only where it is
bound. -/
theorem trip_unbind_once (preset : TripPreset) (now : ℕ) (buf : Buf)
    {r : List (Input × Config)}
    (hr : IsRun Config.Step (.idle (tripNew preset now buf)) r)
    (hm : Meets BoundGuard (.idle (tripNew preset now buf)) r) :
    Holds UnbindOnce (fun _ _ _ => True) (.idle (tripNew preset now buf)) r := by
  have hinit : BoundInv (.idle (tripNew preset now buf)) :=
    ⟨Config.tidy_idle _, Nat.le_refl 0, fun h => absurd h Bool.false_ne_true, fun h => nomatch h⟩
  refine Holds.mono (fun c hc => BoundInv.once hc) (fun _ _ _ _ hok => hok)
    (holds_of_meets ?_ hinit hr hm)
  intro c i c' hc hg h
  exact ⟨trivial, hc.step hg h⟩

/-- The router listens, and is stopped. -/
theorem trip_unbind_once_stop :
    Holds UnbindOnce (fun _ _ _ => True) (.idle (tripNew .ROUTER 0 fun _ => 0))
      (trace (fun i c => (c.step i).getD c) (.idle (tripNew .ROUTER 0 fun _ => 0))
        (listenInputs ++ stopInputs)) :=
  trip_unbind_once .ROUTER 0 _ (isRun_trace (by decide)) (by decide)

/-- **A router that fails after it was stopped** unbinds again. -/
theorem trip_unbind_twice :
    ¬ ∀ (preset : TripPreset) (now : ℕ) (buf : Buf) (r : List (Input × Config)),
      IsRun Config.Step (.idle (tripNew preset now buf)) r →
        Holds UnbindOnce (fun _ _ _ => True) (.idle (tripNew preset now buf)) r := by
  intro h
  have hlast := (h .ROUTER 0 (fun _ => 0) _ (isRun_trace (f := Config.step)
    (l := listenInputs ++ stopInputs ++ [.call (.error EINVAL none) plainOracle, turn, turn])
      (by decide))).last
  revert hlast
  decide

end Libtrp
