import Libtrp.TripState

/-!
# Stopping the router

A router that is stopped closes its connections in `CLOSE`, tells the packet
interface to unbind in `UNBIND`, and is done in `END`.  The timer of `CLOSE` is armed
with the callback that makes the router fail, and is due when the time for closing is
over, which is also when an action would go on to `UNBIND`: who comes first decides.

## Main definitions

* `Along` — the state stays, or goes on to the next one of a router that is stopped.
* `Shuts` — the interface reports no error and answers in time that it is unbound.
* `ShutGuard` — what has to be avoided moreover.

## Main results

* `trip_stop_along` — **when a router that is stopped does not fail.**

## References

`src/trip.c` (`trip_stop`, `_trip_stop_async_cb`, `_trip_set_state`, `trip_action`,
`_trip_timeout_router_cb`).
-/

namespace Libtrp

open Lib

/-! ### The way of a router that is stopped -/

/-- The states of a router that listens, or was stopped. -/
def TriprState.shuts : TriprState → Bool
  | .LISTEN | .CLOSE | .UNBIND | .END => true
  | .START | .BIND | .ERROR => false

/-- The state stays, or goes on to the next one. -/
def Along (state next : TriprState) : Prop :=
  next = state ∨ (state = .LISTEN ∧ next = .CLOSE) ∨ (state = .CLOSE ∧ next = .UNBIND) ∨
    (state = .UNBIND ∧ next = .END)

theorem Along.shuts {state next : TriprState} (h : Along state next) (hs : state.shuts = true) :
    next.shuts = true := by
  rcases h with rfl | ⟨-, rfl⟩ | ⟨-, rfl⟩ | ⟨-, rfl⟩
  · exact hs
  all_goals rfl

/-- The calls and codes of an interface that reports no error and is unbound before the
time for that is over. -/
def Shuts (c : Config) : Input → Prop
  | .call .start _ | .call .ready _ | .call (.error _ _) _ => False
  | .call (.unready err) _ => err = 0 ∧ c.router.state = .UNBIND
  | .call _ _ => True
  | .run code _ =>
    match c.todo.head? with
    | some (.callback .tripTimeoutRouter) => c.router.state ≠ .UNBIND
    | some t => t.listens = true → code = 0 ∨ wouldBlock code = true
    | none => True

/-- Neither the timer of `CLOSE` is run, nor one that is left over; closing is asked for
in `LISTEN` only, and unbinding in `CLOSE`; and no connection fails to pack. -/
def ShutGuard (c : Config) : Input → Prop
  | .call _ _ => True
  | .run _ o =>
    match c.todo.head? with
    | some (.callback .tripTimeoutRouter) => False
    | some (.callback .tripStopAsync) => c.router.state = .LISTEN ∨ c.router.state = .CLOSE
    | some .closeDeadline =>
      c.router.state = .CLOSE ∨ o.clock.head.toNat < c.router.statedeadline
    | some (.packed _ _ _) => c.router.sendlen ≠ NPOS
    | _ => True

/-- The steps of such an interface. -/
def ShutStep (c : Config) (i : Input) (c' : Config) : Prop := c.Step i c' ∧ Shuts c i

/-- A change of the state that is to come goes on the way, and no error is to come. -/
def Task.Leads (state : TriprState) : Task → Prop
  | .setState next => Along state next
  | .setError _ _ => False
  | _ => True

theorem Task.leads_of_urgent {t : Task} (h : t.urgent = false) (state : TriprState) :
    t.Leads state := by
  cases t <;> trivial

theorem Task.leads_of_calm {t : Task} (h : t.calm = true) (state : TriprState) :
    t.Leads state := leads_of_urgent (urgent_of_calm h) state

theorem Switch.leads {now : ℕ} {r r' : Router} {fd : ℤ} {ts : List Task}
    (h : Switch now r fd ts r') (hr : r.state.shuts = true) :
    r'.state = r.state ∧ ∀ u ∈ ts, u.Leads r.state := by
  cases h with
  | calm hq hts => exact ⟨hq.state, fun u hu => Task.leads_of_calm (hts u hu) _⟩
  | startError hs _ | start hs _ _ | bindError hs _ | bindArm hs _ _ _ =>
    rw [hs] at hr
    exact absurd hr (by decide)
  | unbound hs => exact ⟨rfl, by simp [Task.Leads, Along, hs]⟩

/-- The router goes its way, and what is to come leads on. -/
structure ShutInv (c : Config) : Prop where
  tidy : c.Tidy
  shuts : c.router.state.shuts = true
  leads : ∀ t ∈ c.todo, t.Leads c.router.state

namespace ShutInv

variable {c : Config}

/-- A call goes on the way. -/
theorem call (hc : ShutInv c) {api : Api} {o : Oracle} (hs : Shuts c (.call api o))
    {r' : Router} {ts : List Task}
    (h : api.Turn o.clock.head.toNat c.router ts r') :
    r'.state = c.router.state ∧ ∀ u ∈ ts, u.Leads c.router.state := by
  have hshuts := hc.shuts
  cases h with
  | calm hq hts => exact ⟨hq.state, fun u hu => Task.leads_of_calm (hts u hu) _⟩
  | restart | ready | readyError | error => exact hs.elim
  | action _ h => exact h.leads hshuts
  | stop hstate hq =>
    refine ⟨hq.state, ?_⟩
    rcases hstate with hstate | hstate | hstate <;> rw [hstate] at hshuts ⊢
    · exact absurd hshuts (by decide)
    · exact absurd hshuts (by decide)
    · simp [Task.Leads, Along]
  | unreadyError herr => exact absurd hs.1 herr
  | unready => exact ⟨rfl, by simp [Task.Leads, Along, hs.2]⟩

/-- A turn of the task on top goes on the way. -/
theorem run (hc : ShutInv c) {t : Task} {rest : List Task} (htodo : c.todo = t :: rest)
    {code : Errno} {o : Oracle} (hs : Shuts c (.run code o)) (hg : ShutGuard c (.run code o))
    {r' : Router} {ts : List Task} (h : t.Turn code o.clock.head.toNat c.router ts r') :
    Along c.router.state r'.state ∧ ∀ u ∈ ts, u.Leads r'.state := by
  have hleads := hc.leads t (by rw [htodo]; exact List.mem_cons_self)
  have hshuts := hc.shuts
  unfold Shuts at hs
  unfold ShutGuard at hg
  dsimp only at hs hg
  rw [htodo, List.head?_cons] at hs hg
  cases h with
  | calm hq hts => exact ⟨Or.inl hq.state, fun u hu => Task.leads_of_calm (hts u hu) _⟩
  | fatal hlistens hcode hblock =>
    -- the interface reports no error
    have hok : code = 0 ∨ wouldBlock code = true := by
      cases t <;> first | exact absurd hlistens Bool.false_ne_true | exact hs rfl
    rcases hok with rfl | hok
    · exact absurd rfl hcode
    · rw [hok] at hblock
      exact absurd hblock (by decide)
  | overflow hnpos _ => exact absurd hnpos hg
  | @setState state _ hentered =>
    have hne : c.router.state ≠ .ERROR := by
      intro hr
      rw [hr] at hshuts
      exact absurd hshuts (by decide)
    have hnext : c.router.nextState state = state := if_neg hne
    rw [hentered.state, hnext]
    refine ⟨hleads, fun u hu => Task.leads_of_urgent ?_ _⟩
    have halong : state.shuts = true := Along.shuts hleads hshuts
    cases state <;> simp [Router.enterTasks, TriprState.shuts] at hu halong
    rcases hu with rfl | rfl <;> rfl
  | setError => exact hleads.elim
  | unbindArm harms => exact ⟨Or.inl harms.state, by simp⟩
  | walk hq _ => exact ⟨Or.inl hq.state, by simp [Task.Leads]⟩
  | stateTimer | stateTimerError => exact hg.elim
  | stopAsync =>
    refine ⟨Or.inl rfl, ?_⟩
    rcases hg with hg | hg <;> simp [Task.Leads, Along, hg]
  | closeDeadline hnow =>
    have hclose : c.router.state = .CLOSE := hg.resolve_right (not_lt.mpr hnow)
    exact ⟨Or.inl rfl, by simp [Task.Leads, Along, hclose]⟩
  | action h =>
    obtain ⟨hstate, hts⟩ := h.leads hshuts
    rw [hstate]
    exact ⟨Or.inl rfl, hts⟩

theorem step {c' : Config} {i : Input} (hc : ShutInv c) (hg : ShutGuard c i)
    (h : ShutStep c i c') : Along c.router.state c'.router.state ∧ ShutInv c' := by
  have htidy := hc.tidy.step h.1
  rcases Config.step_cases h.1 with ⟨api, o, ts, s, rfl, hw, hexec, rfl⟩ |
    ⟨code, o, t, rest, ts, s, rfl, htodo, hexec, rfl⟩
  · obtain ⟨hstate, hts⟩ := hc.call h.2 (Api.run_turn hexec)
    refine ⟨Or.inl hstate, htidy, ?_, fun u hu => ?_⟩
    · show s.router.state.shuts = true
      rw [hstate]
      exact hc.shuts
    · show u.Leads s.router.state
      rw [hstate]
      rcases List.mem_append.mp hu with hu | hu
      · exact hts u hu
      · exact hc.leads u hu
  · obtain ⟨halong, hts⟩ := hc.run htodo h.2 hg (Task.run_turn hexec)
    refine ⟨halong, htidy, halong.shuts hc.shuts, fun u hu => ?_⟩
    rcases List.mem_append.mp hu with hu | hu
    · exact hts u hu
    · exact Task.leads_of_urgent (hc.tidy u (by rw [htodo]; exact hu)) _

end ShutInv

instance (c : Config) (i : Input) : Decidable (Shuts c i) := by
  induction i using Input.casesOn with
  | call api o => induction api using Api.casesOn <;> dsimp only [Shuts] <;> infer_instance
  | run code o =>
    dsimp only [Shuts]
    generalize c.todo.head? = t
    induction t using Option.casesOn with
    | none => exact .isTrue trivial
    | some t =>
      induction t using Task.casesOn with
      | callback cb => induction cb using Callback.casesOn <;> infer_instance
      | _ => infer_instance

instance (c : Config) (i : Input) : Decidable (ShutGuard c i) := by
  induction i using Input.casesOn with
  | call api o => exact .isTrue trivial
  | run code o =>
    dsimp only [ShutGuard]
    generalize c.todo.head? = t
    induction t using Option.casesOn with
    | none => exact .isTrue trivial
    | some t =>
      induction t using Task.casesOn with
      | callback cb => induction cb using Callback.casesOn <;> infer_instance
      | _ => infer_instance

/-- **When a router that is stopped does not fail**: it goes through `CLOSE` and `UNBIND`
to `END` in every run in which the timer of `CLOSE` is not run. -/
theorem trip_stop_along (preset : TripPreset) (now : ℕ) (buf : Buf) {c c₁ : Config}
    (hreach : Reaches Config.Step (fun _ _ => True) (.idle (tripNew preset now buf)) c)
    (hlisten : c.router.state = .LISTEN) {o : Oracle} (hstop : c.Step (.call .stop o) c₁)
    {r : List (Input × Config)} (hr : IsRun ShutStep c₁ r) (hm : Meets ShutGuard c₁ r) :
    Holds (fun c => c.router.state.shuts = true)
      (fun c _ c' => Along c.router.state c'.router.state) c₁ r := by
  have htidy : c.Tidy := by
    refine Reaches.invariant ?_ (Config.tidy_idle _) hreach
    intro _ _ _ hc _ h
    exact Config.Tidy.step hc h
  have hinit : ShutInv c₁ := by
    have hwaits : c.waits = true := by
      rcases Config.step_cases hstop with ⟨_, _, _, _, -, hw, -⟩ | ⟨_, _, _, _, _, _, hi, -⟩
      · exact hw
      · exact nomatch hi
    have hc : ShutInv c := by
      refine ⟨htidy, by rw [hlisten]; rfl, fun t ht => ?_⟩
      exact Task.leads_of_urgent (htidy.of_waits hwaits t ht) _
    exact (hc.step (i := .call .stop o) trivial ⟨hstop, trivial⟩).2
  refine Holds.mono (fun c hc => ShutInv.shuts hc) (fun _ _ _ _ hok => hok)
    (holds_of_meets ?_ hinit hr hm)
  intro c i c' hc hg h
  exact hc.step hg h

/-- A router that listens. -/
def listening : Config :=
  listenInputs.foldl (fun c i => (c.step i).getD c) (.idle (tripNew .ROUTER 0 fun _ => 0))

/-- A router that was stopped. -/
def stopped (o : Oracle) : Config := (listening.step (.call .stop o)).getD listening

/-- An action comes before the timer of `CLOSE`. -/
theorem trip_stop_along_end :
    Holds (fun c : Config => c.router.state.shuts = true)
      (fun c _ c' => Along c.router.state c'.router.state) (stopped noMemory)
      (trace (fun i c => (c.step i).getD c) (stopped noMemory) stopInputs.tail) :=
  trip_stop_along .ROUTER 0 (fun _ => 0) (reaches_trace (by decide)) (by decide) (o := noMemory)
    (isRun_trace (f := Config.step) (l := [.call .stop noMemory]) (by decide)).1
    ((isRun_trace (by decide)).and_meets (by decide)) (by decide)

/-- **The timer of `CLOSE`** makes a router fail that was stopped and whose interface
reports no error. -/
theorem trip_stop_fails :
    ¬ ∀ (preset : TripPreset) (now : ℕ) (buf : Buf) (c c₁ : Config),
      Reaches Config.Step (fun _ _ => True) (.idle (tripNew preset now buf)) c →
        c.router.state = .LISTEN → ∀ o, c.Step (.call .stop o) c₁ →
          ∀ r : List (Input × Config), IsRun ShutStep c₁ r →
            Holds (fun c => c.router.state.shuts = true)
              (fun c _ c' => Along c.router.state c'.router.state) c₁ r := by
  intro h
  have hlast := (h .ROUTER 0 (fun _ => 0) listening (stopped plainOracle)
    (reaches_trace (by decide)) (by decide) plainOracle
    (isRun_trace (f := Config.step) (l := [.call .stop plainOracle]) (by decide)).1 _
    ((isRun_trace (f := Config.step) (l := [.call .timeout plainOracle, turn, turn, turn, turn,
      turn, turn, turn]) (by decide)).and_meets (by decide))).last
  revert hlast
  decide

end Libtrp
