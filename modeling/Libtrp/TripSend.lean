import Libtrp.TripKeeps
import Libtrp.TripState
import Libtrp.Lib.Run

/-!
# The packet that waits

The router has one buffer.  A connection packs a packet into it, and when the
interface would block the packet stays there and is sent again when the router
listens the next time, before other connections are served.  When that blocks too
the connections are served all the same, and the next one that packs overwrites the
packet.

## Main definitions

* `Config.waiting` — the packet in the buffer, with its length and source.
* `Config.offer` — what `packet->send` is called with.
* `SendOk` — the packet is kept until it was sent, and what is offered is that packet.

## Main results

* `trip_listen_keeps` — **when no packet is lost.**

## References

`src/trip.c` (`_trip_listen`), `src/conn.c` (`_tripc_send`), `src/sendq.c`.
-/

namespace Libtrp

open Lib

/-! ### Programs that leave the packet alone -/

/-- The buffer, the length and the source are the same. -/
structure SamePacket (r r' : Router) : Prop where
  buf : r'.buf = r.buf
  sendlen : r'.sendlen = r.sendlen
  sendsrc : r'.sendsrc = r.sendsrc

namespace SamePacket

variable {r r' r'' : Router}

theorem refl (r : Router) : SamePacket r r := ⟨rfl, rfl, rfl⟩

theorem trans (h : SamePacket r r') (h' : SamePacket r' r'') : SamePacket r r'' :=
  ⟨h'.buf.trans h.buf, h'.sendlen.trans h.sendlen, h'.sendsrc.trans h.sendsrc⟩

end SamePacket

/-- A program that leaves the packet alone. -/
abbrev Unsent {α : Type} (m : TripM α) : Prop := Framed SamePacket m

namespace Unsent

variable {α β : Type} {c : Ptr}

theorem store {f : Router → Router} (hf : ∀ r, SamePacket r (f r)) : Unsent (Libtrp.store f) :=
  fun s => hf s.router

theorem setConn (c : Ptr) (f : Connection → Connection) : Unsent (Libtrp.setConn c f) :=
  store fun _ => ⟨rfl, rfl, rfl⟩

theorem timer (ms : ℤ) (cb : Callback) : Unsent (tripSetTimeoutM ms cb) := by
  intro s
  obtain ⟨now, now', t, hexec, ht⟩ := exec_tripSetTimeoutM ms cb s
  rw [hexec, ht]
  exact ⟨rfl, rfl, rfl⟩

theorem bind {m : TripM α} {f : α → TripM β} (hm : Unsent m) (hf : ∀ a, Unsent (f a)) :
    Unsent (m >>= f) :=
  Prog.Does.bind (R := fun s t : Env => SamePacket s.router t.router)
    (fun _ _ _ h h' => h.trans h') hm hf

theorem tripcCancelTimeout : Unsent (Libtrp.tripcCancelTimeout c) := by
  refine bind (fun s => .refl s.router) fun x => ?_
  cases x.statetimer with
  | none => exact fun s => .refl s.router
  | some e => exact bind (store fun _ => ⟨rfl, rfl, rfl⟩) fun _ => setConn c _

theorem tripcSetTimeout (ms : ℤ) (cb : Ptr → Callback) :
    Unsent (Libtrp.tripcSetTimeout c ms cb) :=
  bind (timer ms _) fun _ => setConn c _

end Unsent

/-- Programs leave the packet alone. -/
theorem SamePacket.frame : Frame (fun _ _ => True) SamePacket where
  trans := trans
  still := fun h => ⟨h.buf, h.sendlen, h.sendsrc⟩
  keep := fun _ _ => trivial
  cancel := fun _ _ => ⟨rfl, rfl, rfl⟩
  disarm := fun _ => Unsent.tripcCancelTimeout
  arm := fun _ ms cb s t _ _ hst =>
    ((Unsent.tripcCancelTimeout s).trans ⟨hst.buf, hst.sendlen, hst.sendsrc⟩).trans
      (Unsent.tripcSetTimeout ms cb t)
  fresh := fun _ _ => ⟨rfl, rfl, rfl⟩
  fresh_ok := fun _ _ => trivial
  add := fun _ _ _ => ⟨rfl, rfl, rfl⟩

namespace Unsent

variable {α β : Type} {c : Ptr}

theorem stays {m : TripM α} (hm : Stays m) : Unsent m := SamePacket.frame.stays hm

theorem ite {p : Prop} [Decidable p] {m n : TripM α} (hm : Unsent m) (hn : Unsent n) :
    Unsent (if p then m else n) := Frame.ite hm hn

theorem tripcSetError (eval : Errno) (msg : Option String) :
    Unsent (Libtrp.tripcSetError c eval msg) := SamePacket.frame.tripcSetError eval msg

theorem tripcStart : Unsent (Libtrp.tripcStart c) := by
  refine bind (stays (.getConn c)) fun x => ite (tripcSetError _ _) ?_
  split
  · exact fun s => SamePacket.frame.tripcSetState (by decide) s trivial
  · -- the timer for resolving is armed
    refine bind tripcCancelTimeout fun _ => bind (setConn c _) fun _ => ?_
    exact bind (stays (.getConn c)) fun x => tripcSetTimeout _ _

theorem tripcTimeoutStateResend : Unsent (Libtrp.tripcTimeoutStateResend c) := by
  refine bind (stays .triptimeNow) fun now => bind (stays (.getConn c)) fun x => ite ?_ ?_
  · exact bind (tripcSetError _ _) fun _ => stays (.pure _)
  · refine bind (stays .tripcSetSend) fun _ => bind (stays .tripcGetGrowth) fun ms => ?_
    exact bind (tripcSetTimeout ms _) fun _ => stays (.pure _)

theorem tripcTimeoutStateResolve : Unsent (Libtrp.tripcTimeoutStateResolve c) := by
  refine bind (stays (.getConn c)) fun x => bind (stays (.fetch _)) fun q => ?_
  split
  · exact stays .stuck
  · refine bind (store fun _ => ⟨rfl, rfl, rfl⟩) fun _ => bind (setConn c _) fun _ => ?_
    exact tripcSetError _ _

theorem tripResolvePopped (src : ℤ) (err : Errno) (emsg : Option String) :
    Unsent (Libtrp.tripResolvePopped c src err emsg) := by
  refine bind tripcCancelTimeout fun _ => bind (setConn c _) fun _ => ite ?_ ?_
  · exact bind (timer 0 _) fun _ => stays (.pure _)
  · exact bind (tripcSetError _ _) fun _ => bind (timer 0 _) fun _ => stays (.pure _)

theorem tripResolve (key src : ℤ) (err : Errno) (emsg : Option String) :
    Unsent (Libtrp.tripResolve key src err emsg) := by
  refine bind (stays (.fetch _)) fun q => ?_
  split
  · exact stays .stuck
  · refine bind (store fun _ => ⟨rfl, rfl, rfl⟩) fun _ => ?_
    split
    · exact stays (.pure ())
    · exact tripResolvePopped src err emsg

end Unsent

/-! ### What is on top while the router sends -/

/-- A program that leaves the packet alone, and leaves no task that sends. -/
def Idles (m : TripM (List Task)) : Prop :=
  Prog.Leaves (fun s t => SamePacket s.router t.router) (fun ts => ∀ u ∈ ts, u.sends = false) m

namespace Idles

variable {α : Type} {c : Ptr}

theorem of_plain {m : TripM (List Task)} (hm : Plain SamePacket m) : Idles m := by
  intro s ts t h
  obtain ⟨hst, hts⟩ := hm s ts t h
  exact ⟨hst, fun u hu => Task.sends_of_plain (hts u hu)⟩

theorem of_when {P : Router → Prop} (hP : ∀ r, P r) {m : TripM (List Task)}
    (hm : Plain (fun r r' => P r → SamePacket r r') m) : Idles m := by
  intro s ts t h
  obtain ⟨hst, hts⟩ := hm s ts t h
  exact ⟨hst (hP _), fun u hu => Task.sends_of_plain (hts u hu)⟩

theorem bind {m : TripM α} {f : α → TripM (List Task)} (hm : Unsent m) (hf : ∀ a, Idles (f a)) :
    Idles (m >>= f) :=
  Prog.Leaves.bind (fun _ _ _ h h' => h.trans h') hm hf

theorem ite {p : Prop} [Decidable p] {m n : TripM (List Task)} (hm : Idles m) (hn : Idles n) :
    Idles (if p then m else n) := Prog.Leaves.ite (fun _ => hm) fun _ => hn

theorem nil : Idles (Pure.pure []) := of_plain SamePacket.frame.nil

theorem tripOpenConnection : Idles Libtrp.tripOpenConnection := by
  have hfail : ∀ (c : Ptr) (e : Errno), Idles (do
      tripcSetError c e none
      return [.connection c, .freeConnection c]) :=
    fun c e => bind (.tripcSetError e none) fun _ => of_plain (SamePacket.frame.two rfl rfl)
  have hreject : ∀ err, Idles (Pure.pure [.reject err]) :=
    fun err => of_plain (SamePacket.frame.one rfl)
  have hnew : Unsent tripNewConnection := by
    intro s
    rw [exec_tripNewConnection]
    split <;> exact ⟨rfl, rfl, rfl⟩
  refine bind (.stays (.fetch _)) fun allow => ite (bind hnew fun c => ?_) (hreject _)
  cases c with
  | none => exact hreject _
  | some c =>
    refine bind (.stays (.fetch _)) fun max => bind (.setConn c _) fun _ => bind ?_ fun _ => ?_
    · exact .bind (.stays .tripmAlloc) fun _ => .bind (fun s => ⟨rfl, rfl, rfl⟩) fun _ =>
        .setConn c _
    · refine bind (fun s => SamePacket.frame.add c s trivial) fun code => ite (hfail c _) ?_
      exact bind (.timer 0 _) fun e => ite (hfail c _) nil

theorem tripCallback (cb : Callback) : Idles (Libtrp.tripCallback cb) := by
  have hclose : ∀ c, Idles (Pure.pure (tripCloseConnection c)) :=
    fun c => of_plain (SamePacket.frame.tripCloseConnection c)
  cases hcb : cb.resolves with
  | false => exact of_when (fun _ _ _ => trivial) (SamePacket.frame.tripCallback hcb)
  | true =>
    cases cb with
    | tripOpenConnectionAsync c =>
      refine bind .tripcStart fun _ => bind (.stays (.getConn c)) fun x => ?_
      refine bind (.stays (.fetch _)) fun _ => ite ?_ Prog.Leaves.stuck
      exact Prog.Leaves.pure (fun s => .refl s.router) (by simp [Task.sends])
    | tripcTimeoutStateResolve c => exact bind .tripcTimeoutStateResolve fun _ => hclose c
    | tripcTimeoutStateResend c =>
      exact bind .tripcTimeoutStateResend fun close => ite (hclose c) nil
    | _ => exact absurd hcb Bool.false_ne_true

theorem tripTimeoutWalk (w : Walk Callback) : Idles (Libtrp.tripTimeoutWalk w) := by
  refine bind (.stays (.fetch _)) fun step => ?_
  split
  · next w' wheel cb _ =>
    refine bind (.store fun _ => ⟨rfl, rfl, rfl⟩) fun _ => ?_
    refine Prog.Leaves.pure (fun s => .refl s.router) fun u hu => ?_
    rcases List.mem_append.mp hu with hu | hu
    · obtain ⟨_, _, rfl⟩ := Option.mem_map.mp (Option.mem_toList.mp hu)
      rfl
    · rw [List.mem_singleton.mp hu]
      rfl
  · refine bind (.stays .triptimeNow) fun _ => bind (.store fun _ => ⟨rfl, rfl, rfl⟩) fun _ => nil

/-- **Every call leaves the packet alone.** -/
theorem api (api : Api) : Idles api.run := by
  cases api with
  | openConnection => exact tripOpenConnection
  | resolve key src err emsg => exact bind (.tripResolve key src err emsg) fun _ => nil
  | _ => exact of_when (fun _ _ _ _ => trivial) (SamePacket.frame.api nofun nofun)

/-- **So does every task** but those that send. -/
theorem task {t : Task} (h : t.sends = false) (hout : ∀ events, t ≠ .listenOut events)
    (code : Errno) : Idles (t.run code) := by
  cases t with
  | resend | send | sendNext | pack | packed => exact absurd h (Bool.false_ne_true ∘ Eq.symm)
  | listenOut events => exact absurd rfl (hout events)
  | walk w => exact tripTimeoutWalk w
  | callback cb => exact tripCallback cb
  | _ => exact of_when (fun _ _ _ => trivial) (SamePacket.frame.task rfl code)

end Idles

/-! ### The packet that waits -/

/-- The packet in the buffer, with its source `src`. -/
def Router.inBuf (r : Router) (src : ℤ) : Option (ℤ × ℕ × Buf) :=
  if r.sendlen = 0 ∨ r.sendlen = NPOS then none else some (src, r.sendlen, r.buf)

/-- A task that leaves the router failing. -/
def Task.fails : Task → Bool
  | .setError _ _ | .setState .ERROR => true
  | _ => false

namespace Config

/-- The source of the packet in the buffer: that of its connection until the router
notes it down. -/
def src (c : Config) : ℤ :=
  match c.todo.head? with
  | some (.packed d _ _) | some (.send d _ _) => (c.router.heap.conn d).src
  | _ => c.router.sendsrc

/-- The packet that waits: a connection wrote it, and it was not sent. -/
def waiting (c : Config) : Option (ℤ × ℕ × Buf) := c.router.inBuf c.src

/-- What `packet->send` is called with. -/
def offer (c : Config) : Option (ℤ × ℕ × Buf) :=
  match c.todo.head? with
  | some .resend => some (c.router.sendsrc, c.router.sendlen, c.router.buf)
  | some (.send d _ _) => some ((c.router.heap.conn d).src, c.router.sendlen, c.router.buf)
  | _ => none

/-- The router is in `ERROR`, or on its way there. -/
def Failing (c : Config) : Prop :=
  c.router.state = .ERROR ∨ c.todo.head?.any Task.fails = true

/-- `packet->send` takes the packet. -/
def Taken (c : Config) : Input → Prop
  | .run code _ => c.offer.isSome = true ∧ code = 0
  | .call _ _ => False

/-- The router is about to offer the packet: it listens for `TRIP_OUT`, or a
connection has packed. -/
def Offers (c : Config) : Input → Prop
  | .run _ _ =>
    match c.todo.head? with
    | some (.listenOut events) => tripEventOut &&& events ≠ 0
    | some (.packed _ _ _) => True
    | _ => False
  | .call _ _ => False

end Config

/-- The packet that waits is offered, and it is kept until it is taken or the router
fails. -/
structure SendOk (c : Config) (i : Input) (c' : Config) : Prop where
  keeps : ∀ p, c.waiting = some p → c.Taken i ∨ c'.Failing ∨ c'.waiting = some p
  offers : ∀ p, c.waiting = some p → c.Offers i → c'.offer = some p

/-- `packet->send` returns a code, and does not call the router. -/
def SendReturns (c : Config) : Input → Prop
  | .call _ _ => c.offer.isNone = true
  | .run _ _ => True

/-- The steps of such an interface. -/
def SendStep (c : Config) (i : Input) (c' : Config) : Prop := c.Step i c' ∧ SendReturns c i

/-- A packet that is sent again and blocks again finds no connection in the queue. -/
def SendGuard (c : Config) : Input → Prop
  | .run code _ =>
    c.todo.head? = some .resend → wouldBlock code = true → c.router.state ≠ .ERROR →
      sendqHas c.router.sendq = false
  | .call _ _ => True

/-! ### The invariant -/

theorem Router.inBuf_eq_some {r : Router} {src : ℤ} {p : ℤ × ℕ × Buf} :
    r.inBuf src = some p ↔
      r.sendlen ≠ 0 ∧ r.sendlen ≠ NPOS ∧ p = (src, r.sendlen, r.buf) := by
  unfold inBuf
  split
  · next h =>
    refine ⟨nofun, fun ⟨hzero, hnpos, _⟩ => ?_⟩
    rcases h with h | h
    · exact absurd h hzero
    · exact absurd h hnpos
  · next h =>
    rw [not_or] at h
    exact ⟨fun hp => ⟨h.1, h.2, (Option.some.inj hp).symm⟩, fun hp => by rw [hp.2.2]⟩

theorem SamePacket.inBuf {r r' : Router} (h : SamePacket r r') (src : ℤ) :
    r'.inBuf src = r.inBuf src := by
  unfold Router.inBuf
  rw [h.sendlen, h.buf]

namespace Config

variable {c c' : Config} {i : Input}

theorem src_of_idle (h : ∀ t ∈ c.todo.head?, t.sends = false) : c.src = c.router.sendsrc := by
  unfold src
  split
  · next d _ _ htop => exact absurd (h _ htop) (Bool.false_ne_true ∘ Eq.symm)
  · next d _ _ htop => exact absurd (h _ htop) (Bool.false_ne_true ∘ Eq.symm)
  · rfl

theorem offer_of_idle (h : ∀ t ∈ c.todo.head?, t.sends = false) : c.offer = none := by
  unfold offer
  split
  · next htop => exact absurd (h _ htop) (Bool.false_ne_true ∘ Eq.symm)
  · next d _ _ htop => exact absurd (h _ htop) (Bool.false_ne_true ∘ Eq.symm)
  · rfl

end Config

/-! ### Routers that fail -/

theorem Switch.state_eq {now : ℕ} {r r' : Router} {fd : ℤ} {ts : List Task}
    (h : Switch now r fd ts r') : r'.state = r.state := by
  cases h with
  | calm hq | startError _ hq | start _ _ hq => exact hq.state
  | bindArm _ _ _ harms => exact harms.state
  | bindError | unbound => rfl

theorem Api.Turn.failed {now : ℕ} {r r' : Router} {api : Api} {ts : List Task}
    (h : api.Turn now r ts r') (hr : r.state = .ERROR) : r'.state = .ERROR := by
  cases h with
  | calm hq | stop _ hq => exact hq.state.trans hr
  | restart hend => exact nomatch hr.symm.trans hend
  | action _ h => exact h.state_eq.trans hr
  | ready | readyError | unreadyError | unready | error => exact hr

/-- `ERROR` is not left. -/
theorem Task.Turn.failed {code : Errno} {now : ℕ} {r r' : Router} {t : Task} {ts : List Task}
    (h : t.Turn code now r ts r') (hr : r.state = .ERROR) : r'.state = .ERROR := by
  cases h with
  | setState hentered => rw [hentered.state, Router.nextState, if_pos hr]
  | calm hq | overflow _ hq | walk hq => exact hq.state.trans hr
  | unbindArm harms => exact harms.state.trans hr
  | fatal | setError | stateTimer | stateTimerError | stopAsync | closeDeadline => exact hr
  | action h => exact h.state_eq.trans hr

/-- A task that fails leads there. -/
theorem Task.failed_of_fails {t : Task} (ht : t.fails = true) {code : Errno} {s u : Env}
    {ts : List Task} (h : (t.run code).exec s = (some ts, u)) :
    u.router.state = .ERROR ∨ ts = [.setState .ERROR] := by
  cases t with
  | setState state =>
    cases state with
    | ERROR =>
      left
      rw [(exec_tripSetState h).2.state, Router.nextState]
      split <;> rfl
    | _ => exact absurd ht Bool.false_ne_true
  | setError eval msg =>
    simp only [Task.run, tripSetError] at h
    rw [Prog.exec_bind_of (exec_fetch _ _)] at h
    split_ifs at h with hstate
    · rw [Prog.exec_bind_of (exec_tripmAlloc s)] at h
      cases h
      exact Or.inr rfl
    · cases h
      exact Or.inl (not_not.mp hstate)
  | _ => exact absurd ht Bool.false_ne_true

namespace Config

variable {c c' : Config} {i : Input}

/-- A router that fails goes on failing. -/
theorem Failing.step (hf : c.Failing) (h : c.Step i c') : c'.Failing := by
  rcases step_cases h with ⟨api, o, ts, s, rfl, hw, hexec, rfl⟩ |
    ⟨code, o, t, rest, ts, s, rfl, htodo, hexec, rfl⟩
  · have hstate : c.router.state = .ERROR := by
      refine hf.resolve_right fun htop => ?_
      unfold waits at hw
      cases hhead : c.todo.head? with
      | none => simp [hhead] at htop
      | some t =>
        rw [hhead] at htop hw
        cases t <;> first
          | exact absurd htop Bool.false_ne_true
          | exact absurd hw Bool.false_ne_true
    exact Or.inl ((Api.run_turn hexec).failed hstate)
  · rcases hf with hstate | htop
    · exact Or.inl ((Task.run_turn hexec).failed hstate)
    · rw [htodo] at htop
      rcases Task.failed_of_fails htop hexec with hstate | rfl
      · exact Or.inl hstate
      · exact Or.inr rfl

end Config

/-! ### Sending -/

/-- What is known of the packet between two steps. -/
structure SendInv (c : Config) : Prop where
  tail : ∀ t ∈ c.todo.tail, t.sends = false
  /-- The length is an error only where it is looked at. -/
  npos : c.router.sendlen = NPOS → ∃ d n m, c.todo.head? = some (.packed d n m)
  offered : c.offer.isSome = true → c.router.sendlen ≠ 0
  /-- A connection packs into an empty buffer. -/
  pack : ¬ c.Failing → ∀ d n m, c.todo.head? = some (.pack d n m) → c.router.sendlen = 0
  next : ¬ c.Failing → ∀ n, c.todo.head? = some (.sendNext n) →
    c.router.sendlen = 0 ∨ sendqHas c.router.sendq = false

theorem sendInv_idle (preset : TripPreset) (now : ℕ) (buf : Buf) :
    SendInv (.idle (tripNew preset now buf)) where
  tail := fun _ ht => absurd ht List.not_mem_nil
  npos := fun h => absurd h (show (0 : ℕ) ≠ NPOS by decide)
  offered := fun h => absurd h Bool.false_ne_true
  pack := fun _ _ _ _ h => nomatch h
  next := fun _ _ h => nomatch h

namespace SendInv

variable {c : Config} {r' : Router} {l rest m : List Task}

/-- What is on top does not send. -/
theorem idle (hts : ∀ u ∈ l ++ rest, u.sends = false) (hnpos : r'.sendlen ≠ NPOS) :
    SendInv ⟨r', l ++ rest, m⟩ := by
  have htop : ∀ u ∈ (l ++ rest).head?, u.sends = false :=
    fun u hu => hts u (List.mem_of_mem_head? hu)
  refine ⟨fun u hu => hts u (List.mem_of_mem_tail hu), fun h => absurd h hnpos, ?_, ?_, ?_⟩
  · rw [Config.offer_of_idle htop]
    exact fun h => absurd h Bool.false_ne_true
  · exact fun _ d n m h => absurd (htop _ h) (Bool.false_ne_true ∘ Eq.symm)
  · exact fun _ n h => absurd (htop _ h) (Bool.false_ne_true ∘ Eq.symm)

/-- The router is idle, and stays so. -/
theorem stay {c : Config} (hc : SendInv c) (htop : ∀ u ∈ c.todo.head?, u.sends = false)
    (h : SamePacket c.router r') (hts : ∀ u ∈ l ++ rest, u.sends = false) :
    (∀ p, c.waiting = some p → Config.waiting ⟨r', l ++ rest, m⟩ = some p) ∧
      SendInv ⟨r', l ++ rest, m⟩ := by
  have hts' : ∀ u ∈ (l ++ rest).head?, u.sends = false :=
    fun u hu => hts u (List.mem_of_mem_head? hu)
  refine ⟨fun p hp => ?_, idle hts ?_⟩
  · unfold Config.waiting at hp ⊢
    rw [Config.src_of_idle htop] at hp
    rw [Config.src_of_idle hts', h.sendsrc]
    exact (h.inBuf _).trans hp
  · rw [h.sendlen]
    intro hnpos
    obtain ⟨d, n, m, hpacked⟩ := hc.npos hnpos
    exact absurd (htop _ hpacked) (Bool.false_ne_true ∘ Eq.symm)

end SendInv

theorem Config.not_offers {c : Config} {t : Task} {rest : List Task} (htodo : c.todo = t :: rest)
    (hout : ∀ events, t ≠ .listenOut events) (hpacked : ∀ d n m, t ≠ .packed d n m)
    {code : Errno} {o : Oracle} : ¬ c.Offers (.run code o) := by
  unfold Offers
  rw [htodo]
  cases t with
  | listenOut events => exact absurd rfl (hout events)
  | packed d n m => exact absurd rfl (hpacked d n m)
  | _ => exact not_false

/-- Where the router goes on to the next connection. -/
theorem exec_tripSendLimit {sent : UInt32} {s t : Env} {ts : List Task}
    (h : (tripSendLimit sent).exec s = (some ts, t)) :
    t = s ∧ (ts = [] ∨ ts = [.sendNext sent]) := by
  unfold tripSendLimit at h
  rw [Prog.exec_bind_of (exec_fetch _ _)] at h
  split_ifs at h
  · cases h
    exact ⟨rfl, Or.inl rfl⟩
  · cases h
    exact ⟨rfl, Or.inr rfl⟩

namespace SendInv

variable {r : Router} {rest log : List Task}

/-- The router goes on to the next connection: the buffer is empty, unless it fails or
no connection is left. -/
theorem sendNext (hrest : ∀ u ∈ rest, u.sends = false) (hnpos : r.sendlen ≠ NPOS) {sent : UInt32}
    (hnext : r.state ≠ .ERROR → r.sendlen = 0 ∨ sendqHas r.sendq = false) :
    SendInv ⟨r, .sendNext sent :: rest, log⟩ where
  tail := hrest
  npos := fun h => absurd h hnpos
  offered := fun h => absurd h Bool.false_ne_true
  pack := nofun
  next := fun hf _ _ => hnext fun hstate => hf (Or.inl hstate)

/-- The next packet of a connection is written to an empty buffer. -/
theorem packNext (hrest : ∀ u ∈ rest, u.sends = false) (hnpos : r.sendlen ≠ NPOS) {d : Ptr}
    {connsent sent : UInt32} (hpack : r.state ≠ .ERROR → r.sendlen = 0) :
    SendInv ⟨r, .pack d connsent sent :: rest, log⟩ where
  tail := hrest
  npos := fun h => absurd h hnpos
  offered := fun h => absurd h Bool.false_ne_true
  pack := fun hf _ _ _ _ => hpack fun hstate => hf (Or.inl hstate)
  next := nofun

/-- A packet is offered. -/
theorem offering (hrest : ∀ u ∈ rest, u.sends = false) (hzero : r.sendlen ≠ 0)
    (hnpos : r.sendlen ≠ NPOS) {t : Task} (ht : t = .resend ∨ ∃ d n m, t = .send d n m) :
    SendInv ⟨r, t :: rest, log⟩ where
  tail := hrest
  npos := fun h => absurd h hnpos
  offered := fun _ => hzero
  pack := by rcases ht with rfl | ⟨_, _, _, rfl⟩ <;> exact nofun
  next := by rcases ht with rfl | ⟨_, _, _, rfl⟩ <;> exact nofun

/-- The limit is checked with an empty buffer. -/
theorem limit (hrest : ∀ u ∈ rest, u.sends = false) {ts : List Task} {sent : UInt32}
    (hts : ts = [] ∨ ts = [.sendNext sent]) (hnpos : r.sendlen ≠ NPOS)
    (hzero : r.state ≠ .ERROR → r.sendlen = 0) : SendInv ⟨r, ts ++ rest, log⟩ := by
  rcases hts with rfl | rfl
  · exact idle (l := []) hrest hnpos
  · exact sendNext hrest hnpos fun h => Or.inl (hzero h)

variable {c : Config} {ts : List Task} {s : Env} {code : Errno} {o : Oracle}

theorem not_npos (hc : SendInv c) {t : Task} (htodo : c.todo = t :: rest)
    (ht : ∀ d n m, t ≠ .packed d n m) : c.router.sendlen ≠ NPOS := by
  intro h
  obtain ⟨d, n, m, htop⟩ := hc.npos h
  rw [htodo] at htop
  exact ht d n m (Option.some.inj htop)

/-- `_trip_listen` behind the reading. -/
theorem listenOut (hc : SendInv c) {events : UInt32} (htodo : c.todo = .listenOut events :: rest)
    (hexec : (tripListenOut events).exec ⟨c.router, o, []⟩ = (some ts, s)) :
    SendOk c (.run code o) ⟨s.router, ts ++ rest, log⟩ ∧ SendInv ⟨s.router, ts ++ rest, log⟩ := by
  have hrest : ∀ u ∈ rest, u.sends = false := fun u hu => hc.tail u (by rw [htodo]; exact hu)
  have hnpos : c.router.sendlen ≠ NPOS := hc.not_npos htodo nofun
  have hsrc : c.src = c.router.sendsrc := Config.src_of_idle (by rw [htodo]; rintro _ ⟨⟩; rfl)
  have hrest' : ∀ u ∈ rest.head?, u.sends = false := fun u hu => hrest u (List.mem_of_mem_head? hu)
  unfold tripListenOut at hexec
  split_ifs at hexec with hout
  · rw [Prog.exec_bind_of (exec_fetch _ _)] at hexec
    split_ifs at hexec with hlen
    · obtain ⟨-, rfl, rfl⟩ := exec_callPacket hexec
      refine ⟨⟨fun p hp => Or.inr (Or.inr ?_), fun p hp _ => ?_⟩,
        offering hrest hlen hnpos (Or.inl rfl)⟩
      · rw [Config.waiting, hsrc] at hp
        exact hp
      · rw [Config.waiting, hsrc, Router.inBuf_eq_some] at hp
        rw [hp.2.2]
        rfl
    · cases hexec
      have hzero : c.router.sendlen = 0 := not_not.mp hlen
      refine ⟨⟨fun p hp => ?_, fun p hp => ?_⟩, sendNext hrest hnpos fun _ => Or.inl hzero⟩
      · exact absurd hzero (Router.inBuf_eq_some.mp hp).1
      · exact absurd hzero (Router.inBuf_eq_some.mp hp).1
  · cases hexec
    refine ⟨⟨fun p hp => Or.inr (Or.inr ?_), fun p _ hoffers => ?_⟩, idle (l := []) hrest hnpos⟩
    · rw [Config.waiting, hsrc] at hp
      rw [Config.waiting, Config.src_of_idle hrest']
      exact hp
    · unfold Config.Offers at hoffers
      dsimp only at hoffers
      rw [htodo] at hoffers
      exact absurd hoffers hout

/-- `packet->send` of the packet that was not sent before. -/
theorem resend (hc : SendInv c) (htodo : c.todo = .resend :: rest)
    (hg : SendGuard c (.run code o))
    (hexec : (tripListenResend code).exec ⟨c.router, o, []⟩ = (some ts, s)) :
    SendOk c (.run code o) ⟨s.router, ts ++ rest, log⟩ ∧ SendInv ⟨s.router, ts ++ rest, log⟩ := by
  have hrest : ∀ u ∈ rest, u.sends = false := fun u hu => hc.tail u (by rw [htodo]; exact hu)
  have hnpos : c.router.sendlen ≠ NPOS := hc.not_npos htodo nofun
  have hno : ¬ c.Offers (.run code o) := Config.not_offers htodo nofun nofun
  have hsrc : c.src = c.router.sendsrc := by
    unfold Config.src
    rw [htodo]
    rfl
  unfold tripListenResend at hexec
  split_ifs at hexec with hcode hblock
  · cases hexec
    -- it blocks again, and no connection is left to write another packet
    refine ⟨⟨fun p hp => Or.inr (Or.inr ?_), fun p _ h => absurd h hno⟩, sendNext hrest hnpos ?_⟩
    · rw [Config.waiting, hsrc] at hp
      exact hp
    · exact fun hstate => Or.inr (hg (by rw [htodo]; rfl) hblock hstate)
  · cases hexec
    refine ⟨⟨fun p _ => Or.inr (Or.inl (Or.inr rfl)), fun p _ h => absurd h hno⟩, ?_⟩
    refine idle (l := [.setError code none]) (fun u hu => ?_) hnpos
    rcases List.mem_cons.mp hu with rfl | hu
    · rfl
    · exact hrest u hu
  · cases hexec
    refine ⟨⟨fun p _ => Or.inl ⟨?_, not_not.mp hcode⟩, fun p _ h => absurd h hno⟩, ?_⟩
    · rw [Config.offer, htodo]
      rfl
    · exact sendNext hrest (show (0 : ℕ) ≠ NPOS by decide) fun _ => Or.inl rfl

/-- `packet->send` of a packet of a connection. -/
theorem send (hc : SendInv c) {d : Ptr} {connsent sent : UInt32}
    (htodo : c.todo = .send d connsent sent :: rest)
    (hexec : (tripSendSent d connsent sent code).exec ⟨c.router, o, []⟩ = (some ts, s)) :
    SendOk c (.run code o) ⟨s.router, ts ++ rest, log⟩ ∧ SendInv ⟨s.router, ts ++ rest, log⟩ := by
  have hrest : ∀ u ∈ rest, u.sends = false := fun u hu => hc.tail u (by rw [htodo]; exact hu)
  have hnpos : c.router.sendlen ≠ NPOS := hc.not_npos htodo nofun
  have hno : ¬ c.Offers (.run code o) := Config.not_offers htodo nofun nofun
  have hsrc : c.src = (c.router.heap.conn d).src := by
    unfold Config.src
    rw [htodo]
    rfl
  unfold tripSendSent at hexec
  split_ifs at hexec with hcode hblock
  · rw [Prog.exec_bind_of (exec_getConn _ _)] at hexec
    cases hexec
    -- the source is noted down with the packet
    refine ⟨⟨fun p hp => Or.inr (Or.inr ?_), fun p _ h => absurd h hno⟩,
      idle (l := []) hrest hnpos⟩
    rw [Config.waiting, hsrc] at hp
    rw [Config.waiting, Config.src_of_idle fun u hu => hrest u (List.mem_of_mem_head? hu)]
    exact hp
  · cases hexec
    refine ⟨⟨fun p _ => Or.inr (Or.inl (Or.inr rfl)), fun p _ h => absurd h hno⟩, ?_⟩
    refine idle (l := [.setError code none]) (fun u hu => ?_) hnpos
    rcases List.mem_cons.mp hu with rfl | hu
    · rfl
    · exact hrest u hu
  · cases hexec
    refine ⟨⟨fun p _ => Or.inl ⟨?_, not_not.mp hcode⟩, fun p _ h => absurd h hno⟩, ?_⟩
    · rw [Config.offer, htodo]
      rfl
    · exact packNext hrest (show (0 : ℕ) ≠ NPOS by decide) fun _ => rfl

/-- The next connection is taken. -/
theorem takeNext (hc : SendInv c) {sent : UInt32} (htodo : c.todo = .sendNext sent :: rest)
    (hexec : (tripSendNext sent).exec ⟨c.router, o, []⟩ = (some ts, s)) :
    SendOk c (.run code o) ⟨s.router, ts ++ rest, log⟩ ∧ SendInv ⟨s.router, ts ++ rest, log⟩ := by
  have hrest : ∀ u ∈ rest, u.sends = false := fun u hu => hc.tail u (by rw [htodo]; exact hu)
  have hnpos : c.router.sendlen ≠ NPOS := hc.not_npos htodo nofun
  have hno : ¬ c.Offers (.run code o) := Config.not_offers htodo nofun nofun
  have hsrc : c.src = c.router.sendsrc := by
    unfold Config.src
    rw [htodo]
    rfl
  have hempty : c.router.state ≠ .ERROR → c.router.sendlen = 0 ∨
    sendqHas c.router.sendq = false := by
    refine fun hstate => hc.next ?_ sent (by rw [htodo]; rfl)
    rintro (h | h)
    · exact hstate h
    · rw [htodo] at h
      exact Bool.false_ne_true h
  obtain ⟨d, u, htake, h⟩ := Prog.exec_bind_eq_some.mp hexec
  rw [Prog.exec_take] at htake
  cases htake
  cases hhead : c.router.sendq.head with
  | none =>
    simp only [sendqDq, hhead] at h
    cases h
    refine ⟨⟨fun p hp => Or.inr (Or.inr ?_), fun p _ h => absurd h hno⟩,
      idle (l := []) hrest hnpos⟩
    rw [Config.waiting, hsrc] at hp
    rw [Config.waiting, Config.src_of_idle fun u hu => hrest u (List.mem_of_mem_head? hu)]
    exact hp
  | some d =>
    simp only [sendqDq, hhead] at h
    cases h
    have hzero : c.router.state ≠ .ERROR → c.router.sendlen = 0 := by
      refine fun hstate => (hempty hstate).resolve_right ?_
      simp [sendqHas, hhead]
    refine ⟨⟨fun p hp => ?_, fun p _ h => absurd h hno⟩, ?_⟩
    · by_cases hstate : c.router.state = .ERROR
      · exact Or.inr (Or.inl (Or.inl hstate))
      · exact absurd (hzero hstate) (Router.inBuf_eq_some.mp hp).1
    · apply packNext hrest
      · exact hnpos
      · exact hzero

/-- The next packet of a connection is packed, or another connection is next. -/
theorem packing (hc : SendInv c) {d : Ptr} {connsent sent : UInt32}
    (htodo : c.todo = .pack d connsent sent :: rest)
    (hexec : (tripSendPack d connsent sent).exec ⟨c.router, o, []⟩ = (some ts, s))
    (hfail : c.Failing → Config.Failing ⟨s.router, ts ++ rest, log⟩) :
    SendOk c (.run code o) ⟨s.router, ts ++ rest, log⟩ ∧ SendInv ⟨s.router, ts ++ rest, log⟩ := by
  have hrest : ∀ u ∈ rest, u.sends = false := fun u hu => hc.tail u (by rw [htodo]; exact hu)
  have hnpos : c.router.sendlen ≠ NPOS := hc.not_npos htodo nofun
  have hzero : ¬ c.Failing → c.router.sendlen = 0 :=
    fun hf => hc.pack hf d connsent sent (by rw [htodo]; rfl)
  refine ⟨⟨fun p hp => ?_, fun p _ h => ?_⟩, ?_⟩
  · by_cases hf : c.Failing
    · exact Or.inr (Or.inl (hfail hf))
    · exact absurd (hzero hf) (Router.inBuf_eq_some.mp hp).1
  · exact absurd h (Config.not_offers htodo nofun nofun)
  · unfold tripSendPack at hexec
    rw [Prog.exec_bind_of (exec_fetch _ _)] at hexec
    split_ifs at hexec with hmax
    · rw [Prog.exec_bind_of (exec_fetch _ _)] at hexec
      obtain ⟨len, u, -, h⟩ := Prog.exec_bind_eq_some.mp hexec
      cases h
      exact ⟨hrest, fun _ => ⟨_, _, _, rfl⟩, fun h => absurd h Bool.false_ne_true, nofun, nofun⟩
    · rw [Prog.exec_bind_of (exec_store _ _)] at hexec
      obtain ⟨rfl, hts⟩ := exec_tripSendLimit hexec
      refine limit hrest hts hnpos fun hstate => hzero ?_
      rintro (h | h)
      · exact hstate h
      · rw [htodo] at h
        exact Bool.false_ne_true h

/-- What a connection packed is offered, unless it is nothing or an error. -/
theorem packed (hc : SendInv c) {d : Ptr} {connsent sent : UInt32}
    (htodo : c.todo = .packed d connsent sent :: rest)
    (hexec : (tripSendPacked d connsent sent).exec ⟨c.router, o, []⟩ = (some ts, s)) :
    SendOk c (.run code o) ⟨s.router, ts ++ rest, log⟩ ∧ SendInv ⟨s.router, ts ++ rest, log⟩ := by
  have hrest : ∀ u ∈ rest, u.sends = false := fun u hu => hc.tail u (by rw [htodo]; exact hu)
  have hsrc : c.src = (c.router.heap.conn d).src := by
    unfold Config.src
    rw [htodo]
    rfl
  unfold tripSendPacked at hexec
  rw [Prog.exec_bind_of (exec_fetch _ _)] at hexec
  split_ifs at hexec with hnpos hlen
  · cases hexec
    refine ⟨⟨fun p hp => ?_, fun p hp => ?_⟩, ?_⟩
    · exact absurd hnpos (Router.inBuf_eq_some.mp hp).2.1
    · exact absurd hnpos (Router.inBuf_eq_some.mp hp).2.1
    · refine idle (l := [.setError ECOMM none]) (fun u hu => ?_) (show (0 : ℕ) ≠ NPOS by decide)
      rcases List.mem_cons.mp hu with rfl | hu
      · rfl
      · exact hrest u hu
  · obtain ⟨-, rfl, rfl⟩ := exec_callPacket hexec
    refine ⟨⟨fun p hp => Or.inr (Or.inr ?_), fun p hp _ => ?_⟩,
      offering hrest hlen hnpos (Or.inr ⟨_, _, _, rfl⟩)⟩
    · rw [Config.waiting, hsrc] at hp
      exact hp
    · rw [Config.waiting, hsrc, Router.inBuf_eq_some] at hp
      rw [hp.2.2]
      rfl
  · obtain ⟨rfl, hts⟩ := exec_tripSendLimit hexec
    have hzero : c.router.sendlen = 0 := not_not.mp hlen
    refine ⟨⟨fun p hp => ?_, fun p hp => ?_⟩, limit hrest hts hnpos fun _ => hzero⟩
    · exact absurd hzero (Router.inBuf_eq_some.mp hp).1
    · exact absurd hzero (Router.inBuf_eq_some.mp hp).1

/-- **The packet is kept and offered** by the tasks that send. -/
theorem turn (hc : SendInv c) {t : Task} (htodo : c.todo = t :: rest)
    (ht : t.sends = true ∨ ∃ events, t = .listenOut events) (hg : SendGuard c (.run code o))
    (hexec : (t.run code).exec ⟨c.router, o, []⟩ = (some ts, s))
    (hfail : c.Failing → Config.Failing ⟨s.router, ts ++ rest, log⟩) :
    SendOk c (.run code o) ⟨s.router, ts ++ rest, log⟩ ∧ SendInv ⟨s.router, ts ++ rest, log⟩ := by
  cases t with
  | listenOut events => exact hc.listenOut htodo hexec
  | resend => exact hc.resend htodo hg hexec
  | send d connsent sent => exact hc.send htodo hexec
  | sendNext sent => exact hc.takeNext htodo hexec
  | pack d connsent sent => exact hc.packing htodo hexec hfail
  | packed d connsent sent => exact hc.packed htodo hexec
  | _ =>
    rcases ht with ht | ⟨_, ht⟩
    · exact absurd ht Bool.false_ne_true
    · exact nomatch ht

end SendInv

theorem SendInv.step {c c' : Config} {i : Input} (hc : SendInv c) (hg : SendGuard c i)
    (h : SendStep c i c') : SendOk c i c' ∧ SendInv c' := by
  have hfail : c.Failing → c'.Failing := fun hf => hf.step h.1
  rcases Config.step_cases h.1 with ⟨api, o, ts, s, rfl, hw, hexec, rfl⟩ |
    ⟨code, o, t, rest, ts, s, rfl, htodo, hexec, rfl⟩
  · -- the router is called while it waits for something else than `send`
    obtain ⟨hsame, hts⟩ := Idles.api api _ _ _ hexec
    have htop : ∀ u ∈ c.todo.head?, u.sends = false := by
      intro u hu
      have hoffer : c.offer.isNone = true := h.2
      unfold Config.waits at hw
      unfold Config.offer at hoffer
      rw [Option.mem_def.mp hu] at hw hoffer
      cases u <;> first
        | rfl
        | exact absurd hw Bool.false_ne_true
        | exact absurd hoffer Bool.false_ne_true
    have htodo : ∀ u ∈ ts ++ c.todo, u.sends = false := by
      intro u hu
      rcases List.mem_append.mp hu with hu | hu
      · exact hts u hu
      · cases hcase : c.todo with
        | nil =>
          rw [hcase] at hu
          exact absurd hu List.not_mem_nil
        | cons v rest =>
          rw [hcase] at hu htop
          rcases List.mem_cons.mp hu with rfl | hu
          · exact htop _ rfl
          · exact hc.tail u (by rw [hcase]; exact hu)
    obtain ⟨hwaiting, hinv⟩ := hc.stay (m := c.log ++ ts.filter Task.isCallout) htop hsame htodo
    exact ⟨⟨fun p hp => Or.inr (Or.inr (hwaiting p hp)), fun _ _ hno => hno.elim⟩, hinv⟩
  · by_cases ht : t.sends = true ∨ ∃ events, t = .listenOut events
    · exact hc.turn htodo ht hg hexec hfail
    · simp only [not_or, Bool.not_eq_true, not_exists] at ht
      obtain ⟨hsame, hts⟩ := Idles.task ht.1 ht.2 code _ _ _ hexec
      have htop : ∀ u ∈ c.todo.head?, u.sends = false := by
        rw [htodo]
        rintro _ ⟨⟩
        exact ht.1
      have htodo' : ∀ u ∈ ts ++ rest, u.sends = false := by
        intro u hu
        rcases List.mem_append.mp hu with hu | hu
        · exact hts u hu
        · exact hc.tail u (by rw [htodo]; exact hu)
      obtain ⟨hwaiting, hinv⟩ := hc.stay
        (m := c.log ++ (if t.isCallout then [] else [t]) ++ ts.filter Task.isCallout)
        htop hsame htodo'
      refine ⟨⟨fun p hp => Or.inr (Or.inr (hwaiting p hp)), fun _ _ hoffers => ?_⟩, hinv⟩
      unfold Config.Offers at hoffers
      dsimp only at hoffers
      rw [htodo, List.head?_cons] at hoffers
      cases t with
      | listenOut events => exact absurd rfl (ht.2 events)
      | packed => exact absurd ht.1 (Bool.false_ne_true ∘ Eq.symm)
      | _ => exact hoffers.elim

/-! ### Runs -/

instance (c : Config) (i : Input) : Decidable (SendGuard c i) := by
  induction i using Input.casesOn <;> dsimp only [SendGuard] <;> infer_instance

instance (c : Config) (i : Input) : Decidable (SendReturns c i) := by
  induction i using Input.casesOn <;> dsimp only [SendReturns] <;> infer_instance

instance (c : Config) (i : Input) : Decidable (c.Taken i) := by
  induction i using Input.casesOn <;> dsimp only [Config.Taken] <;> infer_instance

instance (c : Config) : Decidable c.Failing := inferInstanceAs (Decidable (_ ∨ _))

/-- What is offered is the packet that waits. -/
def SendGood (c : Config) : Prop := ∀ p, c.offer = some p → c.waiting = some p

theorem SendInv.good {c : Config} (hc : SendInv c) : SendGood c := by
  intro p hp
  have hzero := hc.offered (by rw [hp]; rfl)
  unfold Config.offer at hp
  split at hp
  · next htop =>
    have hnpos : c.router.sendlen ≠ NPOS := by
      intro h
      obtain ⟨_, _, _, h⟩ := hc.npos h
      exact nomatch htop.symm.trans h
    rw [Config.waiting, Router.inBuf_eq_some, Config.src, htop]
    exact ⟨hzero, hnpos, (Option.some.inj hp).symm⟩
  · next d n m htop =>
    have hnpos : c.router.sendlen ≠ NPOS := by
      intro h
      obtain ⟨_, _, _, h⟩ := hc.npos h
      exact nomatch htop.symm.trans h
    rw [Config.waiting, Router.inBuf_eq_some, Config.src, htop]
    exact ⟨hzero, hnpos, (Option.some.inj hp).symm⟩
  · exact nomatch hp

/-- **When no packet is lost**: when a packet that is sent again and blocks again finds no
connection in the queue, every packet is offered with its source, and kept until it is
taken or the router fails. -/
theorem trip_listen_keeps (preset : TripPreset) (now : ℕ) (buf : Buf) {r : List (Input × Config)}
    (hr : IsRun SendStep (.idle (tripNew preset now buf)) r)
    (hm : Meets SendGuard (.idle (tripNew preset now buf)) r) :
    Holds SendGood SendOk (.idle (tripNew preset now buf)) r := by
  refine Holds.mono (fun c hc => SendInv.good hc) (fun _ _ _ _ hok => hok)
    (holds_of_meets ?_ (sendInv_idle preset now buf) hr hm)
  intro c i c' hc hg h
  exact hc.step hg h

/-- The interface would block. -/
def blocked : Input := .run EAGAIN plainOracle

/-- Two connections are opened and resolved, and the packet of one of them blocks. -/
def blockInputs : List Input :=
  listenInputs ++
    [.call .openConnection plainOracle, .call .openConnection plainOracle,
      .call .timeout plainOracle, turn, turn, turn, turn, turn, turn, turn, turn, turn,
      .call (.resolve 0 2 0 none) plainOracle, .call (.resolve 1 4 0 none) plainOracle,
      .call .timeout plainOracle, turn, turn, turn, turn, turn, turn, blocked, turn, turn, turn,
      turn, blocked, turn, turn, turn, turn, turn, turn]

/-- It is sent when the router listens again. -/
theorem trip_listen_keeps_sent :
    Holds SendGood SendOk (.idle (tripNew .ROUTER 0 fun _ => 0))
      (trace (fun i c => (c.step i).getD c) (.idle (tripNew .ROUTER 0 fun _ => 0))
        (blockInputs ++ [.call (.action 3 tripEventOut) plainOracle, turn, turn, turn])) :=
  trip_listen_keeps .ROUTER 0 (fun _ => 0)
    ((isRun_trace (by decide)).and_meets (by decide)) (by decide)

/-- **The packet that blocks twice** is overwritten by the next connection. -/
theorem trip_listen_overwrites :
    ¬ ∀ (preset : TripPreset) (now : ℕ) (buf : Buf) (r : List (Input × Config)),
      IsRun SendStep (.idle (tripNew preset now buf)) r →
        Holds SendGood SendOk (.idle (tripNew preset now buf)) r := by
  intro h
  have hok := (h .ROUTER 0 (fun _ => 0) _ ((isRun_trace (f := Config.step)
    (l := (blockInputs ++ [.call (.action 3 tripEventOut) plainOracle, turn, turn, blocked,
      turn]) ++ [turn]) (by decide)).and_meets (by decide))).ok_last
  have hwaits : (Config.waiting ((blockInputs ++ [.call (.action 3 tripEventOut) plainOracle, turn,
      turn, blocked, turn]).foldl (fun c i => (c.step i).getD c)
        (.idle (tripNew .ROUTER 0 fun _ => 0)))).isSome = true := by decide +kernel
  obtain ⟨p, hp⟩ := Option.isSome_iff_exists.mp hwaits
  rcases hok.keeps p hp with htaken | hfail | hkept
  · revert htaken
    decide +kernel
  · revert hfail
    decide +kernel
  · have hsrc := congrArg (Option.map Prod.fst) (hkept.trans hp.symm)
    revert hsrc
    decide +kernel

end Libtrp
