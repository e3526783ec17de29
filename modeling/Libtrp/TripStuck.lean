import Libtrp.Handshake
import Libtrp.TripPacket

/-!
# Where the machine is stuck

A program is stuck where the code reads through a pointer that is `NULL`, or before the
beginning of an array, and a segment may be read past its end.  With memory for whatever is
asked and all callbacks set there are few of these places that a router gets to: whoever calls
it in whatever order, it takes each of its steps but those.

The user's screen is always there in the model, and so is what was given back.

## Main definitions

* `SegmentStuck` — the segments that it is stuck at.
* `Api.Stuck`, `Task.Stuck`, `Config.Stuck` — the steps that it is stuck at.
* `Api.Reads`, `Config.Reads` — what a step hands on of a segment lies in it.
* `Api.Proper`, `Config.Accepts` — the inputs that the machine is for.

## Main results

* `tripcRead_returns` — a connection reads every segment but a ping that finds no nonce.
* `tripcSend_returns` — a connection that is lawful always packs.
* `tripSeg_returns` — **which segments a router is stuck at.**
* `trip_progress` — **the machine takes every step but those.**

## References

`src/trip.c`, `src/conn.c`, `src/resolveq.c`.
-/

namespace Libtrp

open Lib

/-! ### Packing -/

section Reading

variable {c : Ptr} {s : Env} {pre : TripPrefix} {len : ℕ} {buf : Buf}

/-- The states in which a connection reads a ping. -/
def TripcState.pinged : TripcState → Bool
  | .CHAL | .PING | .READY | .READY_PING | .CLOSE => true
  | .START | .RESOLVE | .OPEN | .END | .ERROR => false

end Reading

section Segments

variable {s : Env} {src : ℤ} {len : ℕ} {buf : Buf} {en : ℕ} {pre : TripPrefix}

end Segments

/-! ### Calls -/

/-- The packet interface is called where the state is entered. -/
def TriprState.calls : TriprState → Bool
  | .BIND | .UNBIND | .ERROR => true
  | .START | .LISTEN | .CLOSE | .END => false

/-- The task calls the packet interface, or looks at it. -/
def Task.calls (r : Router) (code : Errno) : Task → Bool
  | .setState state => (r.nextState state).calls
  | .listen _ events => tripEventIn &&& events ≠ 0
  | .read _ _ => code = 0
  | .listenOut events => tripEventOut &&& events ≠ 0 ∧ r.sendlen ≠ 0
  | .packed _ _ _ => r.sendlen ≠ NPOS ∧ r.sendlen ≠ 0
  | .callback (.tripOpenConnectionAsync _) => true
  | _ => false

/-- The program leaves the packet interface alone. -/
def SameInterface {α : Type} (m : TripM α) : Prop :=
  Prog.Does (fun s t => t.router.packet = s.router.packet) m

namespace SameInterface

variable {α β : Type}

theorem bind {m : TripM α} {f : α → TripM β} (hm : SameInterface m)
    (hf : ∀ a, SameInterface (f a)) :
    SameInterface (m >>= f) := Prog.Does.bind (fun _ _ _ h h' => h'.trans h) hm hf

theorem fetch (f : Router → α) : SameInterface (Libtrp.fetch f) := fun _ => rfl

theorem tripSetDeadline (ms : ℤ) : SameInterface (Libtrp.tripSetDeadline ms) :=
  bind (fun _ => rfl) fun _ _ => rfl

theorem tripArmState (ms : ℤ) : SameInterface (Libtrp.tripArmState ms) := by
  refine bind ?_ fun _ _ => rfl
  exact bind (fun _ => rfl) fun _ => bind (fun _ => rfl) fun _ => bind (fun _ => rfl) fun _ _ => rfl

theorem tripClose (ms : ℤ) : SameInterface (Libtrp.tripClose ms) := by
  intro s
  obtain ⟨t, hexec, -, -, hpacket, -⟩ := exec_tripClose ms s
  rw [hexec]
  exact hpacket

/-- The steps of a connection do. -/
theorem of_acts {c : Ptr} {m : TripM α} (hm : ActsOn c m) : SameInterface m := by
  intro s
  have hacts := (hm s).1
  generalize (m.exec s).2.router = r at hacts ⊢
  induction hacts with
  | refl => rfl
  | conn _ _ ih | nq _ ih | timer _ _ _ _ _ _ ih | cancel _ _ ih | buf _ _ ih => exact ih

end SameInterface

section Turns

variable {s : Env} {ts : List Task}

end Turns

/-! ### Walks -/

/-- What is left of the program walks no timers. -/
def Walkless (m : TripM (List Task)) : Prop :=
  ∀ s ts t, m.exec s = (some ts, t) → ∀ u ∈ ts, u.isWalk = false

namespace Walkless

variable {α : Type}

theorem pure {ts : List Task} (h : ∀ u ∈ ts, u.isWalk = false) : Walkless (Pure.pure ts) := by
  intro s ts' t hexec
  cases hexec
  exact h

theorem nil : Walkless (Pure.pure []) := pure fun _ hu => absurd hu List.not_mem_nil

theorem one {t : Task} (h : t.isWalk = false) : Walkless (Pure.pure [t]) :=
  pure fun _ hu => List.mem_singleton.mp hu ▸ h

theorem two {t u : Task} (ht : t.isWalk = false) (hu : u.isWalk = false) :
    Walkless (Pure.pure [t, u]) := by
  apply pure
  intro v hv
  rcases List.mem_cons.mp hv with rfl | hv
  · exact ht
  · exact List.mem_singleton.mp hv ▸ hu

theorem bind {m : TripM α} {f : α → TripM (List Task)} (hf : ∀ a, Walkless (f a)) :
    Walkless (m >>= f) := by
  intro s ts t h
  obtain ⟨a, u, -, h⟩ := Prog.exec_bind_eq_some.mp h
  exact hf a u ts t h

theorem ite {p : Prop} [Decidable p] {m n : TripM (List Task)} (hm : Walkless m)
    (hn : Walkless n) : Walkless (if p then m else n) := by
  split
  · exact hm
  · exact hn

theorem stuck : Walkless Prog.stuck := by
  intro s ts t h
  cases h

theorem callPacket {ts : List Task} (h : ∀ u ∈ ts, u.isWalk = false) :
    Walkless (Libtrp.callPacket ts) := bind fun _ => ite (pure h) stuck

theorem callOne {t : Task} (h : t.isWalk = false) : Walkless (Libtrp.callPacket [t]) :=
  callPacket fun _ hu => List.mem_singleton.mp hu ▸ h

theorem tripSendLimit (sent : UInt32) : Walkless (Libtrp.tripSendLimit sent) :=
  bind fun _ => ite nil (one rfl)

theorem tripActionDeadline (next : TriprState) : Walkless (Libtrp.tripActionDeadline next) :=
  bind fun _ => bind fun _ => ite (one rfl) nil

theorem tripActionSwitch (fd : ℤ) (events : UInt32) :
    Walkless (Libtrp.tripActionSwitch fd events) := by
  refine bind fun state => ?_
  cases state with
  | START =>
    exact ite (one rfl) (bind fun _ => ite (one rfl)
      (bind fun _ => ite (one rfl) (bind fun _ => one rfl)))
  | BIND => exact ite (one rfl) (bind fun _ => bind fun _ => ite (one rfl) (bind fun _ => nil))
  | LISTEN => exact one rfl
  | CLOSE => exact two rfl rfl
  | UNBIND => exact tripActionDeadline .END
  | END | ERROR => exact nil

theorem tripEnterState (state : TriprState) : Walkless (Libtrp.tripEnterState state) := by
  cases state with
  | START | END => exact nil
  | BIND => exact bind fun _ => bind fun _ => bind fun _ => callOne rfl
  | LISTEN => exact bind fun _ => nil
  | CLOSE => exact bind fun _ => bind fun _ => bind fun _ => bind fun _ => nil
  | UNBIND => exact bind fun _ => callPacket (by simp [Task.isWalk])
  | ERROR =>
    refine bind fun packet => bind fun _ => ?_
    cases packet with
    | none => exact stuck
    | some packet => exact ite (bind fun _ => bind fun _ => one rfl) nil

theorem tripCallback (cb : Callback) : Walkless (Libtrp.tripCallback cb) := by
  cases cb with
  | tripSendImmediately => exact two rfl rfl
  | tripTimeoutRouter => exact bind fun _ => bind fun _ => ite nil (one rfl)
  | tripStopAsync | user => exact one rfl
  | tripResolveDelaySuccess c => exact bind fun _ => nil
  | tripResolveDelayFailure c => exact two rfl rfl
  | tripOpenConnectionAsync c => exact bind fun _ => bind fun _ => callOne rfl
  | tripcTimeoutStateResolve c => exact bind fun _ => two rfl rfl
  | tripcTimeoutStateResend c => exact bind fun _ => ite (two rfl rfl) nil
  | tripcTimeoutStateReadyPing c => exact bind fun _ => nil

/-- Only a walk goes on walking. -/
theorem task {u : Task} (hu : u.isWalk = false) (code : Errno) : Walkless (u.run code) := by
  cases u with
  | walk w => cases hu
  | bind | unbind | resolve c key | connection c | reject err | user => exact nil
  | callback cb => exact tripCallback cb
  | setState state => exact Walkless.bind fun _ => .bind fun _ => .bind fun _ => .tripEnterState _
  | setError eval msg =>
    exact Walkless.bind fun _ => .ite (.bind fun _ => .bind fun _ => .one rfl) .nil
  | unbindArm => exact Walkless.bind fun _ => .bind fun _ => .bind fun _ => .nil
  | action events => exact Walkless.bind fun _ => .ite .nil (.tripActionSwitch _ _)
  | listen fd events => exact ite (callOne rfl) (one rfl)
  | read fd events => exact ite (callOne rfl) (ite (one rfl) (one rfl))
  | listenOut events => exact ite (Walkless.bind fun _ => .ite (callOne rfl) (one rfl)) nil
  | resend => exact ite (ite (one rfl) (one rfl)) (Walkless.bind fun _ => .one rfl)
  | send c connsent sent =>
    refine ite (ite ?_ (one rfl)) (Walkless.bind fun _ => .one rfl)
    exact Walkless.bind fun _ => .bind fun _ => .nil
  | sendNext sent =>
    refine Walkless.bind fun c => ?_
    cases c with
    | none => exact nil
    | some c => exact one rfl
  | pack c connsent sent =>
    refine Walkless.bind fun _ => .ite ?_ (.bind fun _ => .tripSendLimit sent)
    exact Walkless.bind fun _ => .bind fun _ => .bind fun _ => .one rfl
  | packed c connsent sent =>
    refine Walkless.bind fun _ => .ite (.bind fun _ => .one rfl) (.ite (callOne rfl) ?_)
    exact tripSendLimit sent
  | closeDeadline => exact tripActionDeadline .UNBIND
  | sendImmediately => exact Walkless.bind fun _ => .ite (.bind fun _ => .nil) .nil
  | closeConnection c =>
    exact Walkless.bind fun _ => .bind fun _ => .bind fun _ => .bind fun _ => .nil
  | freeConnection c => exact Walkless.bind fun _ => .nil

end Walkless

/-- The call begins a walk. -/
def Api.walks (r : Router) : Api → Bool
  | .timeout => true
  | .action fd _ => fd = tripSocketTimeout
  | .start => r.state = .START || r.state = .END
  | _ => false

theorem countP_of_walkless {ts : List Task} (h : ∀ u ∈ ts, u.isWalk = false) :
    ts.countP Task.isWalk = 0 :=
  List.countP_eq_zero.mpr fun u hu => by simp [h u hu]

/-- What is left of a walk of the timers and of the action behind it. -/
theorem tripAction_walks {events : UInt32} {s t : Env} {ts : List Task}
    (h : (tripAction tripSocketTimeout events).exec s = (some ts, t)) :
    ∃ w, ts = [.walk w, .action events] := by
  cases h
  exact ⟨_, rfl⟩

/-- A call begins at most one. -/
theorem Api.run_walks {api : Api} {s t : Env} {ts : List Task} (h : api.run.exec s = (some ts, t)) :
    ts.countP Task.isWalk ≤ if api.walks s.router then 1 else 0 := by
  have hfree : ∀ {m : TripM (List Task)}, Walkless m → m.exec s = (some ts, t) →
      ts.countP Task.isWalk ≤ if api.walks s.router then 1 else 0 := by
    intro m hm hexec
    rw [countP_of_walkless (hm s ts t hexec)]
    exact Nat.zero_le _
  cases api with
  | timeout =>
    cases h
    exact le_rfl
  | action fd events =>
    by_cases hfd : fd = tripSocketTimeout
    · subst hfd
      obtain ⟨w, rfl⟩ := tripAction_walks h
      exact le_rfl
    · simp only [Api.run, tripAction, if_neg hfd] at h
      exact hfree (.tripActionSwitch fd events) h
  -- it begins one in `START` and `END`, where the call is a timeout
  | start =>
    simp only [Api.run, tripStart] at h
    rw [Prog.exec_bind_of (exec_store _ _), Prog.exec_bind_of (exec_fetch _ _)] at h
    by_cases hend : s.router.state = .END
    · rw [if_pos hend] at h
      obtain ⟨w, rfl⟩ := tripAction_walks (show Prog.exec (tripAction _ _) _ = _ from h)
      have hwalks : Api.start.walks s.router = true := by
        unfold Api.walks
        rw [hend]
        rfl
      rw [hwalks]
      exact le_rfl
    rw [if_neg hend] at h
    by_cases hbegin : s.router.state = .START
    · have hwalks : Api.start.walks s.router = true := by
        unfold Api.walks
        rw [hbegin]
        rfl
      obtain ⟨w, rfl⟩ := tripAction_walks ((congrArg (Prog.exec · _) (if_pos hbegin).symm).trans h)
      rw [hwalks]
      exact le_rfl
    · exact hfree .nil ((congrArg (Prog.exec · s) (if_neg hbegin).symm).trans h)
  | stop =>
    refine hfree (.bind fun state => ?_) h
    cases state with
    | START | BIND | LISTEN => exact .bind fun _ => .ite (.one rfl) .nil
    | CLOSE | UNBIND | END | ERROR => exact .nil
  | openConnection =>
    refine hfree (.bind fun _ => .ite (.bind fun c => ?_) (.one rfl)) h
    cases c with
    | none => exact .one rfl
    | some c =>
      refine .bind fun _ => .bind fun _ => .bind fun _ => .bind fun _ => .ite ?_ ?_
      · exact .bind fun _ => .two rfl rfl
      · exact .bind fun _ => .ite (.bind fun _ => .two rfl rfl) .nil
  | setopt opt => exact hfree (.bind fun _ => .nil) h
  | setTimeout ms => exact hfree (.bind fun _ => .nil) h
  | cancelTimeout id => exact hfree (.bind fun _ => .ite (.bind fun _ => .nil) .stuck) h
  | ready => exact hfree (.bind fun _ => .ite (.one rfl) (.one rfl)) h
  | unready err => exact hfree (.ite (.one rfl) (.one rfl)) h
  | error eval msg => exact hfree (.one rfl) h
  | seg src len buf => exact hfree (.bind fun _ => .nil) h
  | resolve key src err emsg => exact hfree (.bind fun _ => .nil) h
  | watch fd events =>
    refine hfree (.ite (.ite (.bind fun _ => .nil) ?_) .nil) h
    exact .bind fun _ => .bind fun _ => .ite (.bind fun _ => .nil) .nil

/-- A walk goes on with one, and nothing else begins one. -/
theorem Task.run_walks {u : Task} {code : Errno} {s t : Env} {ts : List Task}
    (h : (u.run code).exec s = (some ts, t)) :
    ts.countP Task.isWalk ≤ if u.isWalk then 1 else 0 := by
  cases hu : u.isWalk with
  | false =>
    rw [countP_of_walkless (Walkless.task hu code s ts t h)]
    exact Nat.zero_le _
  | true =>
    cases u with
    | walk w =>
      obtain ⟨step, v, -, h⟩ := Prog.exec_bind_eq_some.mp h
      cases step with
      | none =>
        obtain ⟨now, v', -, h⟩ := Prog.exec_bind_eq_some.mp h
        cases h
        exact Nat.zero_le _
      | some p =>
        obtain ⟨w', wheel, cb⟩ := p
        cases h
        cases cb with
        | none => exact le_rfl
        | some cb => exact le_rfl
    | _ => cases hu

/-! ### Steps -/

namespace Config

/-- At most one walk goes on. -/
def Single (c : Config) : Prop := c.todo.countP Task.isWalk ≤ 1

variable {c c' : Config} {i : Input}

/-- A walk does not begin where one goes on. -/
theorem Single.of_go {rest begun : List Task} {o : Oracle} {m : TripM (List Task)}
    (h : c.go rest begun o m = some c') (hrest : rest.countP Task.isWalk ≤ 1)
    (hm : ∀ ts t, m.exec ⟨c.router, o, []⟩ = (some ts, t) → ts.countP Task.isWalk ≤ 1) :
    c'.Single := by
  obtain ⟨ts, s, hexec, hwalk, rfl⟩ := go_eq_some.mp h
  have hts := hm ts s hexec
  show (ts ++ rest).countP Task.isWalk ≤ 1
  rw [List.countP_append]
  rcases Bool.and_eq_false_iff.mp hwalk with hnone | hnone
  · have hzero : ts.countP Task.isWalk = 0 :=
      List.countP_eq_zero.mpr fun u hu => by simpa using List.any_eq_false.mp hnone u hu
    omega
  · have hzero : rest.countP Task.isWalk = 0 :=
      List.countP_eq_zero.mpr fun u hu => by simpa using List.any_eq_false.mp hnone u hu
    omega

theorem Single.step (hc : c.Single) (h : c.Step i c') : c'.Single := by
  cases i with
  | call api o =>
    unfold Step Config.step at h
    dsimp only at h
    split_ifs at h with hw
    refine .of_go h hc fun ts t hexec => (Api.run_walks hexec).trans ?_
    split <;> decide
  | run code o =>
    unfold Step Config.step at h
    unfold Single at hc
    cases htodo : c.todo with
    | nil => simp [htodo] at h
    | cons u rest =>
      simp only [htodo] at h
      rw [htodo, List.countP_cons] at hc
      refine .of_go h (by omega) fun ts t hexec => (Task.run_walks hexec).trans ?_
      split <;> decide

end Config

/-! ### Runs -/

end Libtrp
