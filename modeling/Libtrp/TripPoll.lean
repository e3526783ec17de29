import Libtrp.TripStop

/-!
# The poll loop

`trip_run` polls the descriptors that are watched until a deadline of its caller.  Each
time round `next_timeout` says how long to wait.  When the deadline of the router's timers
is due it says zero, and overwrites that deadline; `trip_timeout`, which sets it anew, is
called when `epoll_wait` returns no descriptor.  When it returns some, the loop acts on
them and waits again, and the timers that were due wait for whoever sets a deadline next.

The router's functions run on its machine: the loop goes on when its stack is empty.
`trip_run` may be called again when it has returned, and its caller may call the router
between two calls; a deadline that was overwritten before `epoll_wait` failed is still owed
then.

## Main definitions

* `nextTimeout` — `next_timeout`.
* `PollState`, `PollState.step` — the calls of `trip_run`, one after the other.
* `PollServes` — what is asked of each time round.

## Main results

* `nextTimeout_bounds` — the loop neither waits long nor backwards.
* `tripRun_serves` — **when no deadline is lost.**
* `tripRun_discards` — a descriptor that is ready discards one.

## References

`src/trip_poll.c` (`next_timeout`, `trip_run`), `src/trip_poll.h`, `src/trip.h`.
-/

namespace Libtrp

open Lib

/-! ### How long to wait -/

/-- `next_timeout`: what it returns, and the deadline it leaves in the poll. -/
def nextTimeout (poll deadline now : ℕ) : ℤ × ℕ :=
  if deadline < poll then
    if deadline ≤ now then (0, poll)
    else if deadline ≥ (now + triprMaxTimeout) % 2 ^ 64 then (triprMaxTimeout, poll)
    else (toInt (sizeSub deadline now), poll)
  else if poll ≤ now then (0, TRIPTIME_END)
  else if poll ≥ (now + triprMaxTimeout) % 2 ^ 64 then (triprMaxTimeout, poll)
  else (toInt (sizeSub poll now), poll)

/-- It finds the deadline of the poll due, and overwrites it. -/
def PollDue (poll deadline now : ℕ) : Prop := poll ≤ deadline ∧ poll ≤ now

instance (poll deadline now : ℕ) : Decidable (PollDue poll deadline now) :=
  inferInstanceAs (Decidable (_ ∧ _))

/-- A distance below the cap is what it is as an `int`. -/
theorem toInt_sizeSub {a b : ℕ} (hba : b < a) (ha : a < b + triprMaxTimeout) (hmax : a < 2 ^ 64) :
    toInt (sizeSub a b) = a - b := by
  unfold triprMaxTimeout at ha
  have hsub : sizeSub a b = a - b := by
    unfold sizeSub
    omega
  have hmod : Int.bmod ((a - b : ℕ) : ℤ) (2 ^ 32) = ((a - b : ℕ) : ℤ) := by
    apply Int.bmod_eq_of_le_mul_two <;> omega
  unfold toInt
  rw [hsub, hmod]
  omega

/-- **The loop waits neither long nor backwards.** -/
theorem nextTimeout_bounds {poll deadline now : ℕ} (hpoll : poll < 2 ^ 64)
    (hdeadline : deadline < 2 ^ 64) :
    0 ≤ (nextTimeout poll deadline now).1 ∧
      (nextTimeout poll deadline now).1 ≤ triprMaxTimeout := by
  have hdistance : ∀ d : ℕ, d < 2 ^ 64 → ¬ d ≤ now → ¬ d ≥ (now + triprMaxTimeout) % 2 ^ 64 →
      0 ≤ toInt (sizeSub d now) ∧ toInt (sizeSub d now) ≤ triprMaxTimeout := by
    intro d hd hnow hmax
    have hle := Nat.mod_le (now + triprMaxTimeout) (2 ^ 64)
    rw [toInt_sizeSub (not_le.mp hnow) (by omega) hd]
    omega
  have hcap : 0 ≤ (triprMaxTimeout : ℤ) := Int.natCast_nonneg _
  unfold nextTimeout
  split_ifs with hlt hd hmax hp hmax <;> dsimp only
  · exact ⟨le_rfl, hcap⟩
  · exact ⟨hcap, le_rfl⟩
  · exact hdistance deadline hdeadline hd hmax
  · exact ⟨le_rfl, hcap⟩
  · exact ⟨hcap, le_rfl⟩
  · exact hdistance poll hpoll hp hmax

/-! ### The loop -/

def EINTR : Errno := 4

/-- `EPOLLIN` -/
def epollIn : UInt32 := 1
/-- `EPOLLOUT` -/
def epollOut : UInt32 := 4

/-- The events `trip_action` is called with. -/
def epollEvents (evs : UInt32) : UInt32 :=
  (if evs &&& epollIn ≠ 0 then tripEventIn else 0) |||
    (if evs &&& epollOut ≠ 0 then tripEventOut else 0)

/-- Where `trip_run` is. -/
inductive PollPhase
  /-- Before `epoll_wait`. -/
  | wait (timeout : ℤ)
  /-- In `trip_timeout`. -/
  | timeout
  /-- In `trip_action`; `rest` are the descriptors that are left. -/
  | action (rest : List (ℤ × UInt32))
  /-- It has returned. -/
  | done (code : Errno)
  deriving DecidableEq, Repr

/-- `trip_run` and its router.  `deadline` is the one of the caller, and `owed` says that
`next_timeout` has overwritten the deadline of the poll and `trip_timeout` was not called
since, in this call or an earlier one. -/
structure PollState where
  config : Config
  deadline : ℕ
  phase : PollPhase
  owed : Bool

/-- `epoll_wait` fails or returns descriptors, the router's machine takes a step, or the
function that was called has returned; the clock reads `now` then.  At last `trip_run` is called,
where `poll` says that there is a poll, and the clock reads `now` and then `now'`. -/
inductive PollInput
  | error (err : Errno)
  | ready (events : List (ℤ × UInt32)) (o : Oracle)
  | router (i : Input)
  | next (now : ℕ) (o : Oracle)
  | run (poll : Bool) (timeout : ℤ) (now now' : ℕ)

/-- Whether `trip_timeout` is called at once. -/
def Api.callsTimeout (r : Router) : Api → Bool
  | .timeout => true
  | .action fd _ => fd = tripSocketTimeout
  | .start => r.state = .START || r.state = .END
  | _ => false

def Input.callsTimeout (r : Router) : Input → Bool
  | .call api _ => api.callsTimeout r
  | .run _ _ => false

namespace PollState

/-- The router's machine takes a step. -/
def router (s : PollState) (phase : PollPhase) (i : Input) : Option PollState :=
  (s.config.step i).map fun c =>
    { s with config := c, phase := phase, owed := s.owed && !i.callsTimeout s.config.router }

/-- The next time `next_timeout` is called. -/
def wait (s : PollState) (now : ℕ) : PollState :=
  let r := s.config.router
  let (timeout, poll) := nextTimeout r.timers.deadline s.deadline now
  { s with
    config := { s.config with router := r.setTimers { r.timers with deadline := poll } }
    phase := .wait timeout
    owed := decide (PollDue r.timers.deadline s.deadline now) }

/-- The end of a turn of the loop. -/
def again (s : PollState) (now : ℕ) : PollState :=
  if s.config.router.error ≠ 0 then { s with phase := .done s.config.router.error }
  else if now ≥ s.deadline ∧ s.deadline ≠ TRIPTIME_END then { s with phase := .done 0 }
  else s.wait now

/-- `trip_run`, up to the first `epoll_wait`. -/
def run (s : PollState) (poll : Bool) (timeout : ℤ) (now now' : ℕ) : PollState :=
  let deadline := if timeout < 0 then TRIPTIME_END else triptimeDeadline now' timeout
  if !poll then { s with phase := .done EINVAL }
  else if s.config.router.state = .END then { s with phase := .done EHOSTDOWN }
  else if s.config.router.state = .ERROR then { s with phase := .done s.config.router.error }
  else { s with deadline := deadline }.wait now

/-- The next descriptor of those that are ready. -/
def act (s : PollState) (e : ℤ × UInt32) (rest : List (ℤ × UInt32)) (o : Oracle) :
    Option PollState :=
  s.router (.action rest) (.call (.action e.1 (epollEvents e.2)) o)

/-- **One step** of `trip_run`, or of its caller when it has returned. -/
def step (s : PollState) : PollInput → Option PollState
  | .error err =>
    match s.phase with
    | .wait _ => some { s with phase := .done err }
    | _ => none
  | .ready events o =>
    match s.phase, events with
    | .wait _, [] => s.router .timeout (.call .timeout o)
    | .wait _, e :: rest => s.act e rest o
    | _, _ => none
  | .router i =>
    match s.phase with
    | .timeout | .action _ => if s.config.todo = [] then none else s.router s.phase i
    | .done _ => s.router s.phase i
    | .wait _ => none
  | .next now o =>
    if s.config.todo = [] then
      match s.phase with
      | .timeout | .action [] => some (s.again now)
      | .action (e :: rest) =>
        if s.config.router.error ≠ 0 then some { s with phase := .done s.config.router.error }
        else s.act e rest o
      | .wait _ | .done _ => none
    else none
  | .run poll timeout now now' =>
    match s.phase with
    | .done _ => if s.config.todo = [] then some (s.run poll timeout now now') else none
    | .wait _ | .timeout | .action _ => none

/-- The steps as a relation. -/
def Step (s : PollState) (i : PollInput) (t : PollState) : Prop := s.step i = some t

end PollState

/-- The first call of `trip_run`. -/
def tripRun (poll : Bool) (timeout : ℤ) (now now' : ℕ) (c : Config) : PollState :=
  PollState.run ⟨c, 0, .done 0, false⟩ poll timeout now now'

/-! ### What is lost -/

/-- **What is asked of each time round**: the loop does not come to `epoll_wait` again while
a deadline that was overwritten is owed its `trip_timeout`. -/
def PollServes (s : PollState) (_ : PollInput) (t : PollState) : Prop :=
  ∀ timeout, t.phase = .wait timeout → s.owed = false

/-- While a deadline is owed its `trip_timeout`, no descriptor is ready, and `trip_run` is not
called again. -/
def PollGuard (s : PollState) : PollInput → Prop
  | .ready events _ => s.owed = true → events = []
  | .run _ _ _ _ => s.owed = false
  | _ => True

instance (s : PollState) : DecidablePred (PollGuard s)
  | .ready _ _ => inferInstanceAs (Decidable (_ → _))
  | .run _ _ _ _ => inferInstanceAs (Decidable (_ = _))
  | .error _ | .router _ | .next _ _ => .isTrue trivial

/-- Nothing is owed while the router runs. -/
def PollInv (s : PollState) : Prop :=
  match s.phase with
  | .timeout | .action _ => s.owed = false
  | .wait _ | .done _ => True

/-- What a step of the router leaves. -/
theorem PollState.router_eq_some {s t : PollState} {phase : PollPhase} {i : Input} :
    s.router phase i = some t ↔ ∃ c, s.config.step i = some c ∧
      t = { s with
        config := c, phase := phase, owed := s.owed && !i.callsTimeout s.config.router } := by
  unfold PollState.router
  rw [Option.map_eq_some_iff]
  exact exists_congr fun c => and_congr_right fun _ => eq_comm

/-- The end of a turn does not come to the router. -/
theorem PollInv.again (s : PollState) (now : ℕ) : PollInv (s.again now) := by
  unfold PollState.again
  split_ifs <;> exact trivial

/-- Nor does the beginning of a call. -/
theorem PollInv.run (s : PollState) (poll : Bool) (timeout : ℤ) (now now' : ℕ) :
    PollInv (s.run poll timeout now now') := by
  unfold PollState.run
  dsimp only
  split_ifs <;> exact trivial

/-- **One step.** -/
theorem PollInv.step {s t : PollState} {i : PollInput} (hs : PollInv s) (hg : PollGuard s i)
    (h : s.Step i t) : PollServes s i t ∧ PollInv t := by
  -- no step of the router ends in `epoll_wait`
  have hrouter : ∀ {phase : PollPhase} {j : Input}, (∀ ms, phase ≠ .wait ms) →
      ((∃ code, phase = .done code) ∨ (s.owed && !j.callsTimeout s.config.router) = false) →
        s.router phase j = some t → PollServes s i t ∧ PollInv t := by
    intro phase j hphase howed hj
    obtain ⟨c, -, rfl⟩ := PollState.router_eq_some.mp hj
    refine ⟨fun ms hms => absurd hms (hphase ms), ?_⟩
    cases phase with
    | timeout | action => exact howed.resolve_left (by simp)
    | wait | done => trivial
  unfold PollState.Step at h
  cases i with
  | error err =>
    simp only [PollState.step] at h
    split at h
    · cases h
      exact ⟨fun ms hms => absurd hms (by simp), trivial⟩
    · cases h
  | ready events o =>
    simp only [PollState.step] at h
    split at h
    · exact hrouter (by simp) (.inr (by simp [Input.callsTimeout, Api.callsTimeout])) h
    · -- a descriptor is ready, so nothing is owed
      have howed : s.owed = false := by
        by_contra hne
        exact absurd (hg (by simpa using hne)) (by simp)
      exact hrouter (by simp) (.inr (by simp [howed])) h
    · cases h
  | router j =>
    simp only [PollState.step] at h
    unfold PollInv at hs
    cases hphase : s.phase with
    | wait => simp [hphase] at h
    | done code =>
      simp only [hphase] at h
      exact hrouter (by simp) (.inl ⟨code, rfl⟩) h
    -- the router ran, so nothing is owed when it is called again
    | timeout | action =>
      simp only [hphase] at h hs
      split_ifs at h
      exact hrouter (by simp) (.inr (by simp [hs])) h
  | next now o =>
    simp only [PollState.step] at h
    unfold PollInv at hs
    split at h
    case isFalse => cases h
    cases hphase : s.phase with
    | wait | done => simp [hphase] at h
    | timeout =>
      simp only [hphase, Option.some.injEq] at h hs
      subst h
      exact ⟨fun _ _ => hs, .again s now⟩
    | action rest =>
      simp only [hphase] at h hs
      cases rest with
      | nil =>
        cases h
        exact ⟨fun _ _ => hs, .again s now⟩
      | cons e rest =>
        by_cases herror : s.config.router.error ≠ 0
        · simp only [if_pos herror, Option.some.injEq] at h
          subst h
          exact ⟨fun ms hms => absurd hms (by simp), trivial⟩
        · simp only [if_neg herror] at h
          exact hrouter (by simp) (.inr (by simp [hs])) h
  | run poll timeout now now' =>
    simp only [PollState.step] at h
    cases hphase : s.phase with
    | wait | timeout | action => simp [hphase] at h
    | done code =>
      simp only [hphase] at h
      split_ifs at h
      cases h
      exact ⟨fun _ _ => hg, .run s poll timeout now now'⟩

/-- **When no deadline is lost**: when no descriptor is ready each time a deadline of the poll
was overwritten, and `trip_run` is not called again before it is made up for, `trip_timeout` is
called before `epoll_wait` is again. -/
theorem tripRun_serves (poll : Bool) (timeout : ℤ) (now now' : ℕ) (c : Config)
    {r : List (PollInput × PollState)}
    (hr : IsRun PollState.Step (tripRun poll timeout now now' c) r)
    (hm : Meets PollGuard (tripRun poll timeout now now' c) r) :
    Holds (fun _ => True) PollServes (tripRun poll timeout now now' c) r := by
  have hfirst : PollInv (tripRun poll timeout now now' c) := .run _ poll timeout now now'
  refine Holds.mono (fun _ _ => trivial) (fun _ _ _ _ hok => hok) (holds_of_meets ?_ hfirst hr hm)
  intro s i t hs hg h
  exact hs.step hg h

/-- Where the timers are due. -/
def dueOracle : Oracle := { plainOracle with clock := Stream'.const 5000 }

/-- `epoll_wait` is interrupted, so that the timers are walked before the next call; in that
`epoll_wait` returns no descriptor. -/
def duePolls : List PollInput :=
  [.error EINTR, .router (.call .timeout dueOracle), .router (.run 0 dueOracle),
    .router (.run 0 dueOracle), .run true (-1) 5000 5000, .ready [] dueOracle,
    .router (.run 0 dueOracle), .next 5000 dueOracle]

/-- `epoll_wait` returns a descriptor, and its packets are read. -/
def readyPolls : List PollInput :=
  [.ready [(3, epollIn)] dueOracle, .router (.run 0 dueOracle), .router (.run EAGAIN dueOracle),
    .router (.run 0 dueOracle)]

/-- The timers that are due are walked. -/
theorem tripRun_serves_due :
    Holds (fun _ => True) PollServes (tripRun true (-1) 5000 5000 listening)
      (trace (fun i s => (s.step i).getD s) (tripRun true (-1) 5000 5000 listening)
        duePolls) :=
  tripRun_serves true (-1) 5000 5000 listening (isRun_trace (by decide)) (by decide)

/-- **A descriptor that is ready** discards the deadline: the loop waits again, and the timers
that were due were not walked. -/
theorem tripRun_discards :
    ¬ ∀ (preset : TripPreset) (now₀ : ℕ) (buf : Buf) (c : Config),
      Reaches Config.Step (fun _ _ => True) (.idle (tripNew preset now₀ buf)) c → c.todo = [] →
        ∀ (poll : Bool) (timeout : ℤ) (now now' : ℕ) (r : List (PollInput × PollState)),
          IsRun PollState.Step (tripRun poll timeout now now' c) r →
            Holds (fun _ => True) PollServes (tripRun poll timeout now now' c) r := by
  intro h
  have hlast := (h .ROUTER 0 (fun _ => 0) listening
    (reaches_trace (f := Config.step) (by decide)) (by decide) true (-1) 5000 5000 _
    (isRun_trace (f := PollState.step) (l := readyPolls ++ [.next 5000 dueOracle])
      (by decide))).ok_last
  -- it was owed, and the loop waits
  exact absurd (hlast 1024 (by decide)) (by decide)

end Libtrp
