import Libtrp.TripState

/-!
# The life of a router

Whoever calls whom, a router begins in `START`, tells the packet interface to bind, and
listens once it is ready; it may be shut down from anywhere, and begin again when it has
ended.  It does not come back from `ERROR`, and keeps the code that it failed with.  What it
goes through is counted: it never listens without being bound for it, and is never bound
without being begun.

## Main definitions

* `Life`, `Life.Step` — a router for its user, and its steps.
* `Config.life` — the life of the router of a machine.

## Main results

* `Life.Ordered.step`, `Life.Step.failed` — what the steps of a life keep.
* `trip_lives` — **every run of the machine is a life.**
* `trip_listens_bound` — **a router listens no more often than it is bound**, is bound no more
  often than it begins, and fails for good.

## References

`src/trip.c` (`_trip_set_state`, `_trip_set_error`, `trip_start`, `trip_ready`,
`trip_action`).
-/

namespace Libtrp

open Lib

/-! ### Lives -/

/-- A router for its user: its state, the code of its error, and how often it has begun, told
the interface to bind, and listened. -/
structure Life where
  state : TriprState
  error : Errno
  begun : ℕ
  bound : ℕ
  listened : ℕ

namespace Life

/-- The states in which a router shuts down. -/
def closing : TriprState → Bool
  | .CLOSE | .UNBIND | .END => true
  | .START | .BIND | .LISTEN | .ERROR => false

/-- **The steps of a life.** -/
inductive Step (l : Life) (i : Input) : Life → Prop
  | stays : Step l i l
  | begins {o : Oracle} : i = .call .start o → l.state = .END →
      Step l i { l with state := .START, begun := l.begun + 1 }
  | binds : l.state = .START → Step l i { l with state := .BIND, bound := l.bound + 1 }
  | listens : l.state = .BIND → Step l i { l with state := .LISTEN, listened := l.listened + 1 }
  | shuts {next : TriprState} : l.state ≠ .ERROR → closing next = true →
      Step l i { l with state := next }
  /-- The code is written before `ERROR` is entered. -/
  | notes (e : Errno) : l.state ≠ .ERROR → Step l i { l with error := e }
  | fails : l.state ≠ .ERROR → Step l i { l with state := .ERROR }

/-- It has listened for being bound, and been bound for beginning, of which the last may
still be to come. -/
structure Ordered (l : Life) : Prop where
  listened : l.listened + (if l.state = .BIND then 1 else 0) ≤ l.bound
  bound : l.bound + (if l.state = .START then 1 else 0) ≤ l.begun

theorem Ordered.step {l l' : Life} {i : Input} (hl : l.Ordered) (h : l.Step i l') : l'.Ordered := by
  obtain ⟨hlistened, hbound⟩ := hl
  cases h with
  | stays => exact ⟨hlistened, hbound⟩
  | begins _ hs | binds hs | listens hs =>
    rw [hs] at hlistened hbound
    constructor
    · simp at hlistened ⊢
      omega
    · simp at hbound ⊢
      omega
  | @shuts next hs hnext =>
    have hbind : next ≠ .BIND := by
      rintro rfl
      cases hnext
    have hstart : next ≠ .START := by
      rintro rfl
      cases hnext
    constructor
    · dsimp only
      rw [if_neg hbind]
      omega
    · dsimp only
      rw [if_neg hstart]
      omega
  | notes e hs => exact ⟨hlistened, hbound⟩
  | fails hs =>
    constructor
    · simp
      omega
    · simp
      omega

/-- A router that has failed stays so, with its code. -/
theorem Step.failed {l l' : Life} {i : Input} (h : l.Step i l') (hl : l.state = .ERROR) :
    l'.state = .ERROR ∧ l'.error = l.error := by
  cases h with
  | stays => exact ⟨hl, rfl⟩
  | begins _ hs | binds hs | listens hs => cases hl.symm.trans hs
  | shuts hs _ | notes _ hs | fails hs => exact absurd hl hs

end Life

/-! ### The life of a machine -/

/-- The life of the router, which has begun `n` times. -/
def Config.life (c : Config) (n : ℕ) : Life :=
  ⟨c.router.state, c.router.error, n, c.log.count .bind, c.log.count (.setState .LISTEN)⟩

/-- How often the router has begun. -/
def restarts (c : Config) (_ : Input) (c' : Config) (n : ℕ) : ℕ :=
  if c.router.state = .END ∧ c'.router.state = .START then n + 1 else n

/-- A change of the state that is to come follows from the state. -/
def Task.Follows (state : TriprState) : Task → Prop
  | .setState .START => False
  | .setState .BIND => state = .START
  | .setState .LISTEN => state = .BIND
  | _ => True

theorem Task.follows_of_urgent {t : Task} (h : t.urgent = false) (state : TriprState) :
    t.Follows state := by
  cases t with
  | setState _ => cases h
  | _ => trivial

theorem Task.follows_of_calm {t : Task} (h : t.calm = true) (state : TriprState) :
    t.Follows state := follows_of_urgent (urgent_of_calm h) state

/-- What ensues follows from the state, and does not bind. -/
structure Ensuing (state : TriprState) (ts : List Task) : Prop where
  follows : ∀ u ∈ ts, u.Follows state
  unbound : ts.count .bind = 0

namespace Ensuing

variable {state : TriprState}

theorem calm {ts : List Task} (h : ∀ u ∈ ts, u.calm = true) : Ensuing state ts :=
  ⟨fun u hu => Task.follows_of_calm (h u hu) state,
    List.count_eq_zero.mpr fun hu => absurd (h _ hu) Bool.false_ne_true⟩

theorem nil : Ensuing state [] := calm fun _ hu => absurd hu List.not_mem_nil

theorem one {t : Task} (h : t.Follows state) (ht : t ≠ .bind) : Ensuing state [t] := by
  refine ⟨fun u hu => List.mem_singleton.mp hu ▸ h, List.count_eq_zero.mpr fun hu => ?_⟩
  exact ht (List.mem_singleton.mp hu).symm

end Ensuing

/-- The switch of `trip_action` changes neither the state nor the code. -/
theorem Switch.lives {now : ℕ} {r r' : Router} {fd : ℤ} {ts : List Task}
    (h : Switch now r fd ts r') :
    r'.state = r.state ∧ r'.error = r.error ∧ Ensuing r.state ts := by
  cases h with
  | calm hq hts => exact ⟨hq.state, hq.error, .calm hts⟩
  | startError _ hq => exact ⟨hq.state, hq.error, .one trivial (by simp)⟩
  | start hs _ hq => exact ⟨hq.state, hq.error, .one hs (by simp)⟩
  | bindError _ _ => exact ⟨rfl, rfl, .one trivial (by simp)⟩
  | bindArm _ _ _ harms => exact ⟨harms.state, harms.error, .nil⟩
  | unbound _ => exact ⟨rfl, rfl, .one trivial (by simp)⟩

/-- **A call** begins again, or changes neither. -/
theorem Api.Turn.lives {now : ℕ} {r r' : Router} {api : Api} {ts : List Task}
    (h : api.Turn now r ts r') :
    (api = .start ∧ r.state = .END ∧ r'.state = .START ∨ r'.state = r.state) ∧
      r'.error = r.error ∧ Ensuing r'.state ts := by
  cases h with
  | calm hq hts => exact ⟨Or.inr hq.state, hq.error, .calm hts⟩
  | restart hs hts => exact ⟨Or.inl ⟨rfl, hs, rfl⟩, rfl, .calm hts⟩
  | action _ h =>
    obtain ⟨hstate, herror, hts⟩ := h.lives
    exact ⟨Or.inr hstate, herror, hstate ▸ hts⟩
  | stop _ hq => exact ⟨Or.inr hq.state, hq.error, .one trivial (by simp)⟩
  | ready hs => exact ⟨Or.inr rfl, rfl, .one hs (by simp)⟩
  | readyError | unreadyError | unready | error =>
    exact ⟨Or.inr rfl, rfl, .one trivial (by simp)⟩

/-- A task on top that enters no state notes an error at most. -/
theorem Task.Turn.lives {code : Errno} {now : ℕ} {r r' : Router} {t : Task} {ts : List Task}
    (h : t.Turn code now r ts r') (ht : ∀ state, t ≠ .setState state) :
    r'.state = r.state ∧ (r'.error = r.error ∨ r.state ≠ .ERROR) ∧ Ensuing r.state ts := by
  cases h with
  | calm hq hts => exact ⟨hq.state, Or.inl hq.error, .calm hts⟩
  | setState _ => exact absurd rfl (ht _)
  | fatal | stopAsync | closeDeadline => exact ⟨rfl, Or.inl rfl, .one trivial (by simp)⟩
  | overflow _ hq => exact ⟨hq.state, Or.inl hq.error, .one trivial (by simp)⟩
  | setError hs => exact ⟨rfl, Or.inr hs, .one trivial (by simp)⟩
  | unbindArm harms => exact ⟨harms.state, Or.inl harms.error, .nil⟩
  | walk hq _ =>
    refine ⟨hq.state, Or.inl hq.error, fun u hu => ?_, by simp⟩
    rcases List.mem_cons.mp hu with rfl | hu
    · trivial
    · exact List.mem_singleton.mp hu ▸ trivial
  | stateTimer _ => exact ⟨rfl, Or.inl rfl, .one trivial (by simp)⟩
  | stateTimerError _ => exact ⟨rfl, Or.inl rfl, .nil⟩
  | action h =>
    obtain ⟨hstate, herror, hts⟩ := h.lives
    exact ⟨hstate, Or.inl herror, hts⟩

/-- What was begun is in the log where no callout is. -/
theorem count_begun {t : Task} (ht : t.isCallout = false) (log begun ts : List Task) :
    (log ++ begun ++ ts.filter Task.isCallout).count t = log.count t + begun.count t := by
  have hnone : t ∉ ts.filter Task.isCallout := fun h =>
    Bool.false_ne_true (ht.symm.trans (List.mem_filter.mp h).2)
  rw [List.count_append, List.count_append, List.count_eq_zero_of_not_mem hnone, Nat.add_zero]

/-- A turn tells the interface to bind where it leaves that to be done. -/
theorem count_bind_turn (t : Task) (log ts : List Task) :
    (log ++ (if t.isCallout then [] else [t]) ++ ts.filter Task.isCallout).count .bind =
      log.count .bind + ts.count .bind := by
  refine count_log rfl log _ ts fun u hu => ?_
  cases ht : t.isCallout with
  | true => simp [ht] at hu
  | false =>
    rw [ht] at hu
    exact List.mem_singleton.mp hu ▸ ht

/-- A turn listens where it is the turn of what enters `LISTEN`. -/
theorem count_listen_turn (t : Task) (log ts : List Task) :
    (log ++ (if t.isCallout then [] else [t]) ++ ts.filter Task.isCallout).count
        (.setState .LISTEN) =
      log.count (.setState .LISTEN) + [t].count (.setState .LISTEN) := by
  rw [count_begun rfl]
  cases ht : t.isCallout with
  | true =>
    -- a callout enters no state
    have hne : Task.setState .LISTEN ∉ [t] := fun h => by
      rw [← List.mem_singleton.mp h] at ht
      cases ht
    rw [if_pos rfl, List.count_nil, List.count_eq_zero_of_not_mem hne]
  | false => rw [if_neg Bool.false_ne_true]

/-- What a router is to do is urgent on top only, and follows from its state. -/
structure Living (c : Config) : Prop where
  tidy : c.Tidy
  follows : ∀ t ∈ c.todo, t.Follows c.router.state

theorem living_idle (r : Router) : Living (.idle r) :=
  ⟨Config.tidy_idle r, fun _ ht => absurd ht List.not_mem_nil⟩

/-- Entering a state is a step of a life. -/
theorem Living.setState {c : Config} {i : Input} (hc : Living c) {state : TriprState}
    {rest : List Task} (htodo : c.todo = .setState state :: rest) {r' : Router} {ts : List Task}
    (hs : r'.state = c.router.nextState state) (herror : r'.error = c.router.error)
    (hts : ts = c.router.enterTasks (c.router.nextState state)) (n : ℕ) :
    (c.life n).Step i ⟨r'.state, r'.error, n, c.log.count .bind + ts.count .bind,
      c.log.count (.setState .LISTEN) + [Task.setState state].count (.setState .LISTEN)⟩ ∧
      ∀ u ∈ ts, u.Follows r'.state := by
  have hfollows := hc.follows (.setState state) (by rw [htodo]; exact List.mem_cons_self)
  have hurgent : ∀ next, ∀ u ∈ c.router.enterTasks next, u.urgent = false := by
    intro next u hu
    cases next <;> simp [Router.enterTasks] at hu
    · rw [hu]
      rfl
    · rcases hu with rfl | rfl <;> rfl
    · rw [hu.2]
      rfl
  have hunbind : (c.router.enterTasks .ERROR).count .bind = 0 := by
    show (if c.router.unbindsOnError = true then [Task.unbind] else []).count .bind = 0
    split <;> rfl
  refine ⟨?_, fun u hu => Task.follows_of_urgent (hurgent _ u (hts ▸ hu)) _⟩
  rw [hs, herror, hts]
  by_cases hfailed : c.router.state = .ERROR
  · -- it stays where it is
    have hnext : c.router.nextState state = .ERROR := if_pos hfailed
    have hlisten : state ≠ .LISTEN := by
      rintro rfl
      cases hfailed.symm.trans hfollows
    have hcount : [Task.setState state].count (.setState .LISTEN) = 0 := by
      refine List.count_eq_zero.mpr fun hmem => hlisten ?_
      exact (Task.setState.inj (List.mem_singleton.mp hmem)).symm
    rw [hnext, hunbind, hcount, ← hfailed]
    exact .stays
  · have hnext : c.router.nextState state = state := if_neg hfailed
    rw [hnext]
    cases state with
    | START => exact hfollows.elim
    | BIND => exact .binds hfollows
    | LISTEN => exact .listens hfollows
    | CLOSE => exact .shuts hfailed rfl
    | UNBIND => exact .shuts hfailed rfl
    | END => exact .shuts hfailed rfl
    | ERROR =>
      rw [hunbind]
      exact .fails hfailed

/-- A call begins again, or is none of the life's own steps. -/
theorem Living.call {c c' : Config} (hc : Living c) {api : Api} {o : Oracle} {ts : List Task}
    {s : Env} (hw : c.waits = true) (hexec : api.run.exec ⟨c.router, o, []⟩ = (some ts, s))
    (hc' : c' = ⟨s.router, ts ++ c.todo, c.log ++ ts.filter Task.isCallout⟩) (n : ℕ) :
    (c.life n).Step (.call api o) (c'.life (restarts c (.call api o) c' n)) ∧
      ∀ u ∈ c'.todo, u.Follows c'.router.state := by
  subst hc'
  obtain ⟨hstate, herror, hensuing⟩ := (Api.run_turn hexec).lives
  have hbind := count_log (t := .bind) rfl c.log [] ts (by simp)
  have hlisten := count_begun (t := .setState .LISTEN) rfl c.log [] ts
  rw [List.append_nil, hensuing.unbound, Nat.add_zero] at hbind
  rw [List.append_nil, List.count_nil, Nat.add_zero] at hlisten
  constructor
  · unfold Config.life restarts
    dsimp only
    rw [hbind, hlisten, herror]
    rcases hstate with ⟨rfl, hend, hstart⟩ | hstate
    · rw [if_pos ⟨hend, hstart⟩, hstart]
      exact .begins rfl hend
    · rw [hstate, if_neg fun hboth => by cases hboth.1.symm.trans hboth.2]
      exact .stays
  · intro u hu
    rcases List.mem_append.mp hu with hu | hu
    · exact hensuing.follows u hu
    · exact Task.follows_of_urgent (hc.tidy.of_waits hw u hu) _

/-- The turn of a state that is entered. -/
theorem Living.enter {c c' : Config} (hc : Living c) {state : TriprState} {code : Errno}
    {o : Oracle} {rest ts : List Task} {s : Env} (htodo : c.todo = .setState state :: rest)
    (hexec : ((Task.setState state).run code).exec ⟨c.router, o, []⟩ = (some ts, s))
    (hc' : c' = ⟨s.router, ts ++ rest, c.log ++ (if (Task.setState state).isCallout then []
      else [.setState state]) ++ ts.filter Task.isCallout⟩) (n : ℕ) :
    (c.life n).Step (.run code o) (c'.life (restarts c (.run code o) c' n)) ∧
      ∀ u ∈ c'.todo, u.Follows c'.router.state := by
  subst hc'
  obtain ⟨hts, hentered⟩ := exec_tripSetState hexec
  obtain ⟨hlife, hfollows⟩ := hc.setState (i := .run code o) htodo hentered.state hentered.error
    hts n
  -- `START` is never entered, so the router does not begin again
  have hstart : ¬ (c.router.state = .END ∧ s.router.state = .START) := by
    rintro ⟨hend, hstart⟩
    have hnext : c.router.nextState state = state :=
      if_neg fun herror => by cases hend.symm.trans herror
    have htask := hc.follows (.setState state) (by rw [htodo]; exact List.mem_cons_self)
    rw [hentered.state, show Router.nextState _ _ = _ from hnext] at hstart
    rw [hstart] at htask
    exact htask
  constructor
  · unfold Config.life restarts
    dsimp only
    rw [count_bind_turn, count_listen_turn, if_neg hstart]
    exact hlife
  · intro u hu
    rcases List.mem_append.mp hu with hu | hu
    · exact hfollows u hu
    · exact Task.follows_of_urgent (hc.tidy u (by rw [htodo]; exact hu)) _

/-- Any other turn notes an error at most. -/
theorem Living.turn {c c' : Config} (hc : Living c) {t : Task} {code : Errno} {o : Oracle}
    {rest ts : List Task} {s : Env} (htodo : c.todo = t :: rest)
    (hexec : (t.run code).exec ⟨c.router, o, []⟩ = (some ts, s))
    (ht : ∀ state, t ≠ .setState state)
    (hc' : c' = ⟨s.router, ts ++ rest,
      c.log ++ (if t.isCallout then [] else [t]) ++ ts.filter Task.isCallout⟩) (n : ℕ) :
    (c.life n).Step (.run code o) (c'.life (restarts c (.run code o) c' n)) ∧
      ∀ u ∈ c'.todo, u.Follows c'.router.state := by
  subst hc'
  obtain ⟨hstate, herror, hensuing⟩ := (Task.run_turn hexec).lives ht
  have hzero : [t].count (.setState .LISTEN) = 0 :=
    List.count_eq_zero.mpr fun hmem => ht .LISTEN (List.mem_singleton.mp hmem).symm
  constructor
  · unfold Config.life restarts
    dsimp only at hstate ⊢
    rw [count_bind_turn, count_listen_turn, hensuing.unbound, hzero, hstate,
      if_neg fun hboth => by cases hboth.1.symm.trans hboth.2]
    rcases herror with herror | herror
    · rw [herror]
      exact .stays
    · exact .notes s.router.error herror
  · intro u hu
    rcases List.mem_append.mp hu with hu | hu
    · rw [show _ = c.router.state from hstate]
      exact hensuing.follows u hu
    · exact Task.follows_of_urgent (hc.tidy u (by rw [htodo]; exact hu)) _

/-- **Every step of the machine** is one of a life. -/
theorem Living.step {c c' : Config} {i : Input} (hc : Living c) (h : c.Step i c') (n : ℕ) :
    (c.life n).Step i (c'.life (restarts c i c' n)) ∧ Living c' := by
  have htidy := hc.tidy.step h
  rcases Config.step_cases h with ⟨api, o, ts, s, rfl, hw, hexec, hc'⟩ |
    ⟨code, o, t, rest, ts, s, rfl, htodo, hexec, hc'⟩
  · obtain ⟨hlife, hfollows⟩ := hc.call hw hexec hc' n
    exact ⟨hlife, htidy, hfollows⟩
  · by_cases hset : ∃ state, t = .setState state
    · obtain ⟨state, rfl⟩ := hset
      obtain ⟨hlife, hfollows⟩ := hc.enter htodo hexec hc' n
      exact ⟨hlife, htidy, hfollows⟩
    · have ht : ∀ state, t ≠ .setState state := fun state heq => hset ⟨state, heq⟩
      obtain ⟨hlife, hfollows⟩ := hc.turn htodo hexec ht hc' n
      exact ⟨hlife, htidy, hfollows⟩

/-! ### Runs -/

/-- The machine with the count of its beginnings. -/
abbrev Begun := Config × ℕ

/-- The life of the router of a machine whose beginnings are counted. -/
def Begun.life (p : Begun) : Life := p.1.life p.2

/-- A run from where the tasks follow from the state is a life, whatever count it begins with. -/
theorem Living.run {c : Config} (hc : Living c) (n : ℕ) {r : List (Input × Config)}
    (hr : IsRun Config.Step c r) :
    IsRun Life.Step (Begun.life (c, n))
      ((recorded restarts c n r).map fun p => (p.1, Begun.life p.2)) := by
  have hstep : ∀ (p : Begun) i (q : Begun), Living p.1 →
      p.1.Step i q.1 ∧ q.2 = restarts p.1 i q.1 p.2 →
      p.life.Step i q.life ∧ Living q.1 := by
    rintro p i ⟨c', n'⟩ hp ⟨hstep, hn⟩
    dsimp only at hstep hn
    subst hn
    exact hp.step hstep p.2
  exact hr.recorded.refines hstep hc

/-- **Every run of the machine is a life.** -/
theorem trip_lives (preset : TripPreset) (now : ℕ) (buf : Buf) {r : List (Input × Config)}
    (hr : IsRun Config.Step (.idle (tripNew preset now buf)) r) :
    IsRun Life.Step (Begun.life (.idle (tripNew preset now buf), 1))
      ((recorded restarts (.idle (tripNew preset now buf)) 1 r).map fun p =>
        (p.1, Begun.life p.2)) :=
  (living_idle _).run 1 hr

/-- A router is begun, bound, and listens. -/
theorem trip_lives_listening :
    IsRun Life.Step (Begun.life (.idle (tripNew .ROUTER 0 fun _ => 0), 1))
      ((recorded restarts (.idle (tripNew .ROUTER 0 fun _ => 0)) 1
        (trace (fun i c => (c.step i).getD c) (.idle (tripNew .ROUTER 0 fun _ => 0))
          listenInputs)).map fun p => (p.1, Begun.life p.2)) :=
  trip_lives .ROUTER 0 (fun _ => 0) (isRun_trace (by decide))

/-- **A router listens no more often than it is bound**, and is bound no more often than it
begins; once it has failed it stays so, with the same code. -/
theorem trip_listens_bound (preset : TripPreset) (now : ℕ) (buf : Buf) {r : List (Input × Config)}
    (hr : IsRun Config.Step (.idle (tripNew preset now buf)) r) :
    Holds (fun p : Begun => p.1.log.count (.setState .LISTEN) ≤ p.1.log.count .bind ∧
        p.1.log.count .bind ≤ p.2)
      (fun p _ q => p.1.router.state = .ERROR →
        q.1.router.state = .ERROR ∧ q.1.router.error = p.1.router.error)
      (.idle (tripNew preset now buf), 1)
      (recorded restarts (.idle (tripNew preset now buf)) 1 r) := by
  have hinit : (Begun.life (.idle (tripNew preset now buf), 1)).Ordered := ⟨Nat.zero_le _, le_rfl⟩
  have hstep : ∀ (l : Life) i l', l.Ordered → True → l.Step i l' →
      (l.state = .ERROR → l'.state = .ERROR ∧ l'.error = l.error) ∧ l'.Ordered :=
    fun l i l' hl _ h => ⟨h.failed, hl.step h⟩
  have hlife := holds_of_meets hstep hinit ((living_idle _).run 1 hr)
    (meets_of_forall (fun _ _ => trivial) _ _)
  refine (holds_map.mp hlife).mono (fun p hp => ?_) fun _ _ _ _ hok => hok
  exact ⟨(Nat.le_add_right _ _).trans hp.listened, (Nat.le_add_right _ _).trans hp.bound⟩

/-- It is ready twice, and fails. -/
theorem trip_listens_bound_twice :
    Holds (fun p : Begun => p.1.log.count (.setState .LISTEN) ≤ p.1.log.count .bind ∧
        p.1.log.count .bind ≤ p.2)
      (fun p _ q => p.1.router.state = .ERROR →
        q.1.router.state = .ERROR ∧ q.1.router.error = p.1.router.error)
      (.idle (tripNew .ROUTER 0 fun _ => 0), 1)
      (recorded restarts (.idle (tripNew .ROUTER 0 fun _ => 0)) 1
        (trace (fun i c => (c.step i).getD c) (.idle (tripNew .ROUTER 0 fun _ => 0))
          (listenInputs ++ [.call .ready plainOracle, turn]))) :=
  trip_listens_bound .ROUTER 0 (fun _ => 0) (isRun_trace (by decide))

end Libtrp
