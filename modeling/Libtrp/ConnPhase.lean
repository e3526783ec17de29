import Libtrp.Lib.Population
import Libtrp.ConnRead
import Libtrp.TripAsk

/-!
# Phases of a connection

What two peers make of each other is little of what is kept of a connection: who opened
it, the state, the identifiers and sequence number, and what was learned from the other
side.  This is its standing.  It goes on by few steps: a connection starts, is resolved,
is challenged, says something, fails.  Most programs leave every standing alone.

Nothing turns encryption on, nothing activates the pings, and nothing draws a nonce.  So
an incoming connection does not come further than `CHAL`, and an outgoing one not
further than `PING`: it is there that each waits for a ping of the other.

## Main definitions

* `Standing` — what a connection and its peer have made of each other.
* `Standing.Step`, `Standing.Born` — how it goes on, and how it begins.
* `Standing.Lawful` — no keys, no pings, and a state of its side.

## Main results

* `Standing.Lawful.step` — **what a step keeps.**
* `tripcStart_steps`, `tripcRead_steps`, `tripcSend_steps` — the programs of a connection
  take such steps.

## References

`src/conn.c`.
-/

namespace Libtrp

open Lib

/-! ### Standings -/

/-- What a connection and its peer have made of each other. -/
structure Standing where
  incoming : Bool
  encrypted : Bool
  /-- `ping.isactive` -/
  active : Bool
  state : TripcState
  self : Connself
  peer : Connpeer
  deriving DecidableEq

def Connection.standing (x : Connection) : Standing :=
  ⟨x.incoming, x.encrypted, x.ping.isactive, x.state, x.self, x.peer⟩

/-- The standing of the connection `c`. -/
def Router.standing (r : Router) (c : Ptr) : Standing := (r.heap.conn c).standing

/-- What a peer tells of itself. -/
structure Info where
  id : UInt64
  lim : Connlim
  nonce : Bytes
  key : Bytes
  deriving DecidableEq

/-- The information at an offset. -/
def infoAt (buf : Buf) (off : ℕ) : Info :=
  ⟨infoId buf off, infoLim buf off, infoNonce buf off, infoKey buf off⟩

/-- There is no nonce or no key. -/
def Info.bare (i : Info) : Bool := areZeros i.nonce || areZeros i.key

/-- What is learned of a peer that tells it. -/
def Connpeer.told (i : Info) (p : Connpeer) : Connpeer :=
  { p with
    id := i.id
    lim := i.lim
    nonce := if i.bare then p.nonce else some i.nonce
    pk := if i.bare then p.pk else some i.key }

/-- What surrounds a step of a connection. -/
structure Scene where
  /-- What may be heard with a prefix: the information of the sender, if it is where it
  should be. -/
  heard : TripPrefix → Option Info → Prop
  /-- Whether the router takes a turn of its own. -/
  turns : Prop
  /-- Whether it may pack. -/
  packs : Prop
  /-- Whether a connection is opened. -/
  opens : Prop
  /-- Whether a resolution has failed. -/
  denies : Prop

/-- Where a connection may be given an error. -/
def Scene.ends (sc : Scene) : Prop :=
  sc.turns ∨ sc.opens ∨ sc.denies ∨ ∃ pre oi, sc.heard pre oi

namespace Standing

def enter (state : TripcState) (x : Standing) : Standing := { x with state := state }

/-- The next sequence number is taken. -/
def speaks (x : Standing) : Standing :=
  { x with self := { x.self with sequence := x.self.sequence + 1 } }

def hears (i : Info) (x : Standing) : Standing := { x with peer := x.peer.told i }

/-- The standing a connection is made with. -/
def fresh (incoming : Bool) (id : UInt64) : Standing :=
  { (tripcInit incoming 0).standing with self := { (tripcInit incoming 0).self with id := id } }

/-- The user's screening has let it in. -/
def screened (screen : TripScreen) (x : Standing) : Standing :=
  { x with
    self := { x.self with opensk := screen.opensk, signsk := screen.signsk }
    peer := { x.peer with signpk := screen.signpk } }

@[simp] theorem state_enter (state : TripcState) (x : Standing) : (x.enter state).state = state :=
  rfl
@[simp] theorem enter_enter (s s' : TripcState) (x : Standing) :
    (x.enter s).enter s' = x.enter s' := rfl
@[simp] theorem incoming_enter (state : TripcState) (x : Standing) :
    (x.enter state).incoming = x.incoming := rfl
@[simp] theorem self_enter (state : TripcState) (x : Standing) : (x.enter state).self = x.self :=
  rfl
@[simp] theorem peer_enter (state : TripcState) (x : Standing) : (x.enter state).peer = x.peer :=
  rfl
@[simp] theorem self_hears (i : Info) (x : Standing) : (x.hears i).self = x.self := rfl
@[simp] theorem state_hears (i : Info) (x : Standing) : (x.hears i).state = x.state := rfl

/-- The states a connection may be in, by who opened it. -/
def phases (incoming : Bool) : List TripcState :=
  if incoming then [.START, .CHAL, .ERROR] else [.START, .RESOLVE, .OPEN, .PING, .ERROR]

/-- What may become of a connection. -/
inductive Step (sc : Scene) (x : Standing) : Standing → Prop
  /-- `_tripc_start` -/
  | starts : sc.turns → x.incoming = false → x.state = .START → Step sc x (x.enter .RESOLVE)
  /-- `_tripc_resolved` -/
  | resolved : sc.turns → x.incoming = false → Step sc x (x.enter .OPEN)
  /-- `_tripc_read` in `OPEN` -/
  | challenged {pre : TripPrefix} {i : Info} : sc.heard pre (some i) →
      pre.control ≠ tripControlOpen → pre.id = x.self.id → x.state = .OPEN →
      Step sc x ((x.hears i).enter .PING)
  /-- `_tripc_send_open`, `_tripc_send_chal` -/
  | speaks : sc.packs → x.state = .OPEN ∨ x.state = .CHAL → Step sc x x.speaks
  /-- `_tripc_parse_ping`, whatever it makes of the segment -/
  | pinged {pre : TripPrefix} {i : Info} (nonce : Bytes) : sc.heard pre (some i) →
      x.incoming = true → x.state = .CHAL → x.peer.nonce.isSome = true →
      Step sc x { x with peer := { x.peer with nonce := some nonce } }
  /-- `_tripc_set_error` -/
  | fails : sc.ends → Step sc x (x.enter .ERROR)

/-- A connection begins when this side opens it, and when an OPEN segment is admitted. -/
inductive Born (sc : Scene) : Standing → Prop
  /-- `trip_open_connection` -/
  | opens (id : UInt64) : sc.opens → Born sc (fresh false id)
  /-- There is no room in the map. -/
  | refused {pre : TripPrefix} {oi : Option Info} (id : UInt64) : sc.heard pre oi →
      pre.control = tripControlOpen → Born sc (fresh true id)
  /-- The information is not where it should be. -/
  | deaf {pre : TripPrefix} (id : UInt64) (screen : TripScreen) : sc.heard pre none →
      pre.control = tripControlOpen → Born sc (((fresh true id).screened screen).enter .CHAL)
  | asked {pre : TripPrefix} {i : Info} (id : UInt64) (screen : TripScreen) :
      sc.heard pre (some i) → pre.control = tripControlOpen →
      Born sc ((((fresh true id).screened screen).enter .CHAL).hears i)

/-- No keys were made, no ping is active, and the state is one of its side; a connection that
this side opened has nothing to sign with. -/
structure Lawful (x : Standing) : Prop where
  plain : x.encrypted = false
  idle : x.active = false
  nonce : x.self.nonce = none
  pk : x.self.pk = none
  sk : x.self.sk = none
  openpk : x.peer.openpk = none
  phase : x.state ∈ phases x.incoming
  unsigned : x.incoming = false → x.self.signsk = none ∧ x.peer.signpk = none

instance (x : Standing) : Decidable x.Lawful :=
  decidable_of_iff (x.encrypted = false ∧ x.active = false ∧ x.self.nonce = none ∧
    x.self.pk = none ∧ x.self.sk = none ∧ x.peer.openpk = none ∧ x.state ∈ phases x.incoming ∧
    (x.incoming = false → x.self.signsk = none ∧ x.peer.signpk = none))
    ⟨fun ⟨h₁, h₂, h₃, h₄, h₅, h₆, h₇, h₈⟩ => ⟨h₁, h₂, h₃, h₄, h₅, h₆, h₇, h₈⟩,
      fun ⟨h₁, h₂, h₃, h₄, h₅, h₆, h₇, h₈⟩ => ⟨h₁, h₂, h₃, h₄, h₅, h₆, h₇, h₈⟩⟩

theorem error_mem_phases (incoming : Bool) : TripcState.ERROR ∈ phases incoming := by
  cases incoming <;> decide

/-- A lawful standing in another state of its side. -/
theorem Lawful.enter {x : Standing} (h : x.Lawful) {state : TripcState}
    (hs : state ∈ phases x.incoming) : (x.enter state).Lawful := { h with phase := hs }

/-- Only a connection that this side opened is in `OPEN` or in `PING`. -/
theorem Lawful.outgoing {x : Standing} (h : x.Lawful) (hs : x.state = .OPEN ∨ x.state = .PING) :
    x.incoming = false := by
  by_contra hin
  have hphase := h.phase
  rw [Bool.not_eq_false _ |>.mp hin] at hphase
  rcases hs with hs | hs
  · rw [hs] at hphase
    exact absurd hphase (by decide)
  · rw [hs] at hphase
    exact absurd hphase (by decide)

/-- Only one that a segment has made is in `CHAL`. -/
theorem Lawful.made {x : Standing} (h : x.Lawful) (hs : x.state = .CHAL) : x.incoming = true := by
  by_contra hout
  have hphase := h.phase
  rw [hs, Bool.not_eq_true _ |>.mp hout] at hphase
  exact absurd hphase (by decide)

/-- **What a step keeps.** -/
theorem Lawful.step {sc : Scene} {x y : Standing} (h : x.Lawful)
    (hxy : Step sc x y) : y.Lawful := by
  cases hxy with
  | starts _ hout _ => exact h.enter (by rw [hout]; decide)
  | resolved _ hout => exact h.enter (by rw [hout]; decide)
  | @challenged pre i _ _ _ hopen =>
    have hout := h.outgoing (Or.inl hopen)
    have hheard : (x.hears i).Lawful := { h with }
    exact hheard.enter (by rw [show (x.hears i).incoming = false from hout]; decide)
  | speaks _ => exact { h with }
  | pinged nonce _ _ _ _ => exact { h with }
  | fails _ => exact h.enter (error_mem_phases _)

/-- Who opened a connection is kept. -/
theorem Step.incoming {sc : Scene} {x y : Standing}
    (h : Step sc x y) :
    y.incoming = x.incoming := by
  cases h <;> rfl

theorem lawful_fresh (incoming : Bool) (id : UInt64) : (fresh incoming id).Lawful where
  plain := rfl
  idle := rfl
  nonce := rfl
  pk := rfl
  sk := rfl
  openpk := rfl
  phase := by
    show TripcState.START ∈ phases incoming
    cases incoming <;> decide
  unsigned := fun _ => ⟨rfl, rfl⟩

/-- A connection for a segment, which the user has screened. -/
theorem lawful_chal (id : UInt64) (screen : TripScreen) :
    (((fresh true id).screened screen).enter .CHAL).Lawful where
  plain := rfl
  idle := rfl
  nonce := rfl
  pk := rfl
  sk := rfl
  openpk := rfl
  phase := (by decide : TripcState.CHAL ∈ phases true)
  unsigned := fun h => Bool.noConfusion (h : true = false)

theorem lawful_born {sc : Scene} {x : Standing} (h : Born sc x) :
    x.Lawful := by
  cases h with
  | opens id _ => exact lawful_fresh false id
  | refused id _ _ => exact lawful_fresh true id
  | deaf id screen _ _ => exact lawful_chal id screen
  | asked id screen _ _ => exact { lawful_chal id screen with }

end Standing

/-! ### Programs that leave standings alone -/

/-- The callback is `_tripc_timeout_state_ready_ping`. -/
def Callback.isReadyPing : Callback → Bool
  | .tripcTimeoutStateReadyPing _ => true
  | _ => false

/-- No connection is to ping because it was ready. -/
def Router.Unready (r : Router) : Prop := r.pending Callback.isReadyPing = []

/-- Every standing is the same, and no connection has become ready. -/
structure SameStandings (r r' : Router) : Prop where
  brk : r'.heap.brk = r.heap.brk
  standing : ∀ d, r'.standing d = r.standing d
  unready : r.Unready → r'.Unready

namespace SameStandings

variable {r r' r'' : Router}

theorem refl (r : Router) : SameStandings r r := ⟨rfl, fun _ => rfl, id⟩

theorem trans (h : SameStandings r r') (h' : SameStandings r' r'') : SameStandings r r'' :=
  ⟨h'.brk.trans h.brk, fun d => (h'.standing d).trans (h.standing d), h'.unready ∘ h.unready⟩

/-- A write that leaves the records of connections and the timers alone. -/
theorem of_eq (hb : r'.heap.brk = r.heap.brk) (hh : r'.heap.conn = r.heap.conn)
    (ht : r'.timers = r.timers) : SameStandings r r' := by
  refine ⟨hb, fun d => ?_, fun hr => ?_⟩
  · rw [Router.standing, hh]
    rfl
  · unfold Router.Unready Router.pending at hr ⊢
    rwa [ht]

/-- A write to other fields of a connection. -/
theorem setConn (r : Router) (c : Ptr) {f : Connection → Connection}
    (hf : ∀ x, (f x).standing = x.standing) : SameStandings r (r.setConn c f) :=
  ⟨rfl, fun d => ConnHeap.conn_set_field Connection.standing r.heap c d (hf _), id⟩

/-- Fewer timers. -/
theorem fewer (r : Router) {timers : Timers Callback}
    (hsub : ∀ p, (timers.wheel.pending p).Sublist (r.pending p)) :
    SameStandings r (r.setTimers timers) := by
  refine ⟨rfl, fun _ => rfl, fun hr => ?_⟩
  have hle := hsub Callback.isReadyPing
  rw [show r.pending _ = [] from hr] at hle
  exact List.sublist_nil.mp hle

theorem cancel (r : Router) (id : Ptr) :
    SameStandings r (r.setTimers (tripCancelTimeout id r.timers)) := by
  refine fewer r fun p => ?_
  show ((timerwheelCancel id r.timers.wheel).pending p).Sublist _
  rw [Timerwheel.pending_cancel]
  exact List.filter_sublist

theorem timer (r : Router) (alloc : Bool) (now now' : ℕ) (ms : ℤ) {cb : Callback}
    (hcb : cb.isReadyPing = false) :
    SameStandings r (r.setTimers (tripSetTimeout alloc now now' ms (some cb) r.timers).2) := by
  refine ⟨rfl, fun _ => rfl, fun hr => ?_⟩
  show (tripSetTimeout alloc now now' ms (some cb) r.timers).2.wheel.pending _ = []
  rw [pending_tripSetTimeout, hcb, Bool.and_false]
  exact hr

/-- The send queue writes to its links only. -/
theorem sendqWrites : SendqWrites fun h h' =>
    h'.brk = h.brk ∧ ∀ d, (h'.conn d).standing = (h.conn d).standing where
  refl := fun _ => ⟨rfl, fun _ => rfl⟩
  trans := fun h h' => ⟨h'.1.trans h.1, fun d => (h'.2 d).trans (h.2 d)⟩
  link := fun h c _ => ⟨rfl, fun d => ConnHeap.conn_set_field Connection.standing h c d rfl⟩
  flag := fun h c _ => ⟨rfl, fun d => ConnHeap.conn_set_field Connection.standing h c d rfl⟩

/-- What an operation on the send queue leaves. -/
theorem setSendq (r : Router) {qh : Sendq × ConnHeap}
    (h : qh.2.brk = r.heap.brk ∧ ∀ d, (qh.2.conn d).standing = (r.heap.conn d).standing) :
    SameStandings r (r.setSendq qh) := ⟨h.1, h.2, id⟩

end SameStandings

/-- A program that leaves every standing alone. -/
def Rests {α : Type} (m : TripM α) : Prop :=
  Prog.Does (fun s t => SameStandings s.router t.router) m

namespace Rests

variable {α β : Type} {c : Ptr}

theorem pure (a : α) : Rests (Pure.pure a) := fun s => .refl s.router

theorem stuck : Rests (Prog.stuck : TripM α) := fun s => .refl s.router

theorem bind {m : TripM α} {f : α → TripM β} (hm : Rests m) (hf : ∀ a, Rests (f a)) :
    Rests (m >>= f) :=
  Prog.Does.bind (R := fun s t : Env => SameStandings s.router t.router)
    (fun _ _ _ h h' => h.trans h') hm hf

theorem ite {p : Prop} [Decidable p] {m n : TripM α} (hm : Rests m) (hn : Rests n) :
    Rests (if p then m else n) := Prog.Does.ite hm hn

/-- What is left when it returns. -/
theorem exec {m : TripM α} (hm : Rests m) {s t : Env} {a : α} (h : m.exec s = (some a, t)) :
    SameStandings s.router t.router := by
  have hs := hm s
  rwa [h] at hs

theorem fetch (f : Router → α) : Rests (Libtrp.fetch f) := fun s => .refl s.router

theorem consult (f : Oracle → α) : Rests (Libtrp.consult f) := fun s => .refl s.router

theorem mark (m : Mark) : Rests (Libtrp.mark m) := fun s => .refl s.router

theorem sizeSubM (a b : ℕ) : Rests (Libtrp.sizeSubM a b) := fun s => .refl s.router

theorem getConn (c : Ptr) : Rests (Libtrp.getConn c) := fetch _

theorem tripmAlloc : Rests Libtrp.tripmAlloc := fun s => .refl s.router

theorem triptimeNow : Rests Libtrp.triptimeNow := fun s => .refl s.router

theorem randombytesBuf : Rests Libtrp.randombytesBuf := fun s => .refl s.router

theorem store {f : Router → Router} (hf : ∀ r, SameStandings r (f r)) :
    Rests (Libtrp.store f) := fun s => hf s.router

/-- A write to fields of the router that are not about connections or timers. -/
theorem store_of {f : Router → Router} (hh : ∀ r, (f r).heap = r.heap)
    (ht : ∀ r, (f r).timers = r.timers) : Rests (Libtrp.store f) :=
  store fun r => .of_eq (by rw [hh]) (by rw [hh]) (ht r)

theorem setConn {f : Connection → Connection} (hf : ∀ x, (f x).standing = x.standing) :
    Rests (Libtrp.setConn c f) := store fun r => .setConn r c hf

theorem timer {cb : Callback} (hcb : cb.isReadyPing = false) (ms : ℤ) :
    Rests (tripSetTimeoutM ms cb) := by
  intro s
  obtain ⟨now, now', t, hexec, ht⟩ := exec_tripSetTimeoutM ms cb s
  rw [hexec, ht]
  exact .timer _ _ now now' ms hcb

theorem tripCancelTimeoutM (id : Ptr) : Rests (Libtrp.tripCancelTimeoutM id) :=
  store fun r => .cancel r id

theorem tripQconnection : Rests (Libtrp.tripQconnection c) := by
  refine bind (store fun r => ?_) fun _ => bind (fetch _) fun flag => ite ?_ (pure ())
  · exact .setSendq r (SameStandings.sendqWrites.nq r.sendq r.heap c)
  · exact bind (timer rfl 0) fun _ => pure ()

theorem tripUnqconnection : Rests (Libtrp.tripUnqconnection c) :=
  store fun r => .setSendq r (SameStandings.sendqWrites.del r.sendq r.heap c)

theorem tripcGeneratePing : Rests (Libtrp.tripcGeneratePing c) :=
  bind randombytesBuf fun _ => bind triptimeNow fun _ => setConn fun _ => rfl

theorem tripcSetDeadline (ms : ℤ) : Rests (Libtrp.tripcSetDeadline c ms) :=
  bind triptimeNow fun _ => setConn fun _ => rfl

theorem tripcSetGrowth (ms : ℤ) : Rests (Libtrp.tripcSetGrowth c ms) := setConn fun _ => rfl

theorem tripcGetGrowth : Rests (Libtrp.tripcGetGrowth c) :=
  bind (getConn c) fun _ => bind (setConn fun _ => rfl) fun _ => pure _

theorem tripcSetTimeout {cb : Ptr → Callback} (hcb : (cb c).isReadyPing = false) (ms : ℤ) :
    Rests (Libtrp.tripcSetTimeout c ms cb) :=
  bind (timer hcb ms) fun _ => setConn fun _ => rfl

theorem tripcCancelTimeout : Rests (Libtrp.tripcCancelTimeout c) := by
  refine bind (getConn c) fun x => ?_
  cases x.statetimer with
  | none => exact pure ()
  | some e => exact bind (tripCancelTimeoutM e) fun _ => setConn fun _ => rfl

theorem tripcSetSend : Rests (Libtrp.tripcSetSend c) :=
  bind tripQconnection fun _ => setConn fun _ => rfl

theorem tripcLeave (state : TripcState) : Rests (Libtrp.tripcLeave c state) := by
  cases state
  case RESOLVE | OPEN | CHAL | PING | READY | CLOSE => exact tripcCancelTimeout
  case START | READY_PING | END | ERROR => exact pure ()

theorem tripPackM (blen : ℕ) (fmt : List PackDir) (as : List PackArg) :
    Rests (Libtrp.tripPackM blen fmt as) := by
  refine bind (consult _) fun sign => bind (fetch _) fun buf => ?_
  split
  · exact bind (store_of (fun _ => rfl) fun _ => rfl) fun _ => pure _
  · exact stuck

end Rests

/-! ### Where a connection goes -/

/-- The connection `c` has gone to `y`, and the others are as they were. -/
structure GoesTo (c : Ptr) (y : Standing) (r r' : Router) : Prop where
  brk : r'.heap.brk = r.heap.brk
  self : r'.standing c = y
  other : ∀ d, d ≠ c → r'.standing d = r.standing d
  unready : r.Unready → r'.Unready

namespace SameStandings

variable {c : Ptr} {y : Standing} {r r' r'' : Router}

/-- Nothing has come of it. -/
theorem goes (h : SameStandings r r') (c : Ptr) : GoesTo c (r.standing c) r r' :=
  ⟨h.brk, h.standing c, fun d _ => h.standing d, h.unready⟩

theorem andThen (h : SameStandings r r') (h' : GoesTo c y r' r'') : GoesTo c y r r'' :=
  ⟨h'.brk.trans h.brk, h'.self, fun d hd => (h'.other d hd).trans (h.standing d),
    h'.unready ∘ h.unready⟩

end SameStandings

namespace GoesTo

variable {c : Ptr} {y z : Standing} {r r' r'' : Router}

theorem trans (h : GoesTo c y r r') (h' : GoesTo c z r' r'') : GoesTo c z r r'' :=
  ⟨h'.brk.trans h.brk, h'.self, fun d hd => (h'.other d hd).trans (h.other d hd),
    h'.unready ∘ h.unready⟩

theorem andThen (h : GoesTo c y r r') (h' : SameStandings r' r'') : GoesTo c y r r'' :=
  ⟨h'.brk.trans h.brk, (h'.standing c).trans h.self,
    fun d hd => (h'.standing d).trans (h.other d hd), h'.unready ∘ h.unready⟩

/-- The connection is written to. -/
theorem setConn (r : Router) (c : Ptr) {f : Connection → Connection}
    (hf : ∀ x, x.standing = r.standing c → (f x).standing = y) : GoesTo c y r (r.setConn c f) where
  brk := rfl
  self := by
    unfold Router.setConn Router.standing
    rw [ConnHeap.conn_set_self]
    exact hf _ rfl
  other := fun d hd => by
    unfold Router.setConn Router.standing
    rw [ConnHeap.conn_set_of_ne _ hd]
  unready := id

end GoesTo

/-- Without encryption there are no keys to make. -/
theorem exec_tripcMkKeys_plain {c : Ptr} {s : Env} (h : (s.router.standing c).encrypted = false) :
    (tripcMkKeys c).exec s = (some (), s) := by
  have henc : (s.router.heap.conn c).encrypted = false := h
  unfold tripcMkKeys
  rw [Prog.exec_bind_of (exec_getConn _ _), if_neg (by rw [henc]; exact Bool.false_ne_true)]
  rfl

/-- Entering a state, but those that are to become ready or to close. -/
theorem tripcEnter_same {c : Ptr} {state : TripcState} (hstate : state ≠ .READY ∧ state ≠ .CLOSE)
    {s : Env} (henc : (s.router.standing c).encrypted = false) :
    SameStandings s.router ((tripcEnter c state).exec s).2.router := by
  have hresend : (Callback.tripcTimeoutStateResend c).isReadyPing = false := rfl
  cases state with
  | READY => exact absurd rfl hstate.1
  | CLOSE => exact absurd rfl hstate.2
  | START | READY_PING | END | ERROR => exact .refl s.router
  | RESOLVE => exact Rests.bind (.getConn c) (fun x => .tripcSetTimeout rfl x.maxresolve) s
  | CHAL =>
    show SameStandings s.router ((tripcMkKeys c).exec s).2.router
    rw [exec_tripcMkKeys_plain henc]
    exact .refl s.router
  | OPEN =>
    show SameStandings s.router ((tripcMkKeys c >>= fun _ => _).exec s).2.router
    rw [Prog.exec_bind_of (exec_tripcMkKeys_plain henc)]
    refine Rests.bind (.getConn c) (fun x => .bind (.tripcSetDeadline _) fun _ => ?_) s
    refine .bind (.tripcSetGrowth _) fun _ => .bind .tripcSetSend fun _ => ?_
    exact .bind .tripcGetGrowth fun ms => .tripcSetTimeout hresend ms
  | PING =>
    refine Rests.bind .tripcGeneratePing (fun _ => .bind (.getConn c) fun x => ?_) s
    refine .bind (.tripcSetDeadline _) fun _ => .bind (.tripcSetGrowth _) fun _ => ?_
    refine .bind .tripcGetGrowth fun ms => .bind (.tripcSetTimeout hresend ms) fun _ => ?_
    exact .tripcSetSend

/-- **The state is changed.** -/
theorem tripcSetState_goes {c : Ptr} {state : TripcState}
    (hstate : state ≠ .READY ∧ state ≠ .CLOSE) {s : Env}
    (henc : (s.router.standing c).encrypted = false) :
    GoesTo c ((s.router.standing c).enter state) s.router
      ((tripcSetState c state).exec s).2.router := by
  obtain ⟨_, hleave⟩ := (RunsOn.tripcLeave (c := c) state).total.exec_eq s
  have hsame := Rests.tripcLeave (c := c) state s
  unfold tripcSetState
  rw [Prog.exec_bind_of hleave, Prog.exec_bind_of (exec_setConn _ _ _)]
  generalize ((tripcLeave c state).exec s).2 = t at hsame
  have hset : GoesTo c ((s.router.standing c).enter state) t.router
      (t.setRouter (t.router.setConn c fun x => { x with state := state })).router := by
    refine .setConn _ c fun x hx => ?_
    rw [hsame.standing] at hx
    rw [← hx]
    rfl
  generalize t.setRouter _ = u at hset ⊢
  refine (hsame.andThen hset).andThen (tripcEnter_same hstate ?_)
  rw [hset.self]
  exact henc

/-- **An error** takes a connection to `ERROR`, also one that is there. -/
theorem tripcSetError_goes (c : Ptr) (eval : Errno) (msg : Option String) (s : Env) :
    GoesTo c ((s.router.standing c).enter .ERROR) s.router
      ((tripcSetError c eval msg).exec s).2.router := by
  by_cases hs : (s.router.heap.conn c).state = .ERROR
  · rw [tripcSetError_of_error (show (s.status c).state = .ERROR from hs)]
    have hsame : (s.router.standing c).enter .ERROR = s.router.standing c := by
      show ({ s.router.standing c with state := .ERROR } : Standing) = _
      rw [← hs]
      rfl
    rw [hsame]
    exact (SameStandings.refl s.router).goes c
  · obtain ⟨t, errmsg, hexec, ht⟩ := exec_tripcSetError hs eval msg
    rw [hexec, ht]
    refine .setConn _ c fun x hx => ?_
    rw [← hx]
    rfl

/-! ### The steps of a connection -/

open Relation

/-- The connection `c` has taken steps, and the others are as they were. -/
def Steps (sc : Scene) (c : Ptr) (r r' : Router) : Prop :=
  ∃ y, ReflTransGen (Standing.Step sc) (r.standing c) y ∧ GoesTo c y r r'

namespace Steps

variable {sc : Scene} {c : Ptr} {y : Standing} {r r' r'' : Router}

theorem same (h : SameStandings r r') : Steps sc c r r' := ⟨_, .refl, h.goes c⟩

theorem one (hy : Standing.Step sc (r.standing c) y) (h : GoesTo c y r r') :
    Steps sc c r r' := ⟨y, .single hy, h⟩

theorem trans (h : Steps sc c r r') (h' : Steps sc c r' r'') : Steps sc c r r'' := by
  obtain ⟨y, hy, hg⟩ := h
  obtain ⟨z, hz, hg'⟩ := h'
  rw [hg.self] at hz
  exact ⟨z, hy.trans hz, hg.trans hg'⟩

theorem andThen (h : Steps sc c r r') (h' : SameStandings r' r'') : Steps sc c r r'' :=
  h.trans (.same h')

/-- What was done before is left alone. -/
theorem after (h : SameStandings r r') (h' : Steps sc c r' r'') : Steps sc c r r'' :=
  (Steps.same h).trans h'

theorem fails (hends : sc.ends) (h : GoesTo c ((r.standing c).enter .ERROR) r r') :
    Steps sc c r r' := one (.fails hends) h

/-- One connection has taken steps, and none was born. -/
theorem grows {born : Standing → Prop} (h : Steps sc c r r') :
    Grows born (Standing.Step sc) r.heap.brk r.standing r'.heap.brk r'.standing := by
  obtain ⟨y, hy, hg⟩ := h
  refine .of_eq hg.brk fun d _ => ?_
  rcases eq_or_ne d c with rfl | hd
  · rw [hg.self]
    exact hy
  · rw [hg.other d hd]

theorem unready (h : Steps sc c r r') (hr : r.Unready) : r'.Unready := by
  obtain ⟨y, -, hg⟩ := h
  exact hg.unready hr

end Steps

/-! ### Programs take such steps -/

section Programs

variable {sc : Scene} {c : Ptr} {s t : Env}

/-- A connection that this side opened begins to resolve. -/
theorem tripcStart_steps (hturns : sc.turns) (hx : (s.router.standing c).Lawful)
    (hout : (s.router.standing c).incoming = false) :
    Steps sc c s.router ((tripcStart c).exec s).2.router := by
  have hin : (s.router.heap.conn c).incoming = false := hout
  unfold tripcStart
  rw [Prog.exec_bind_of (exec_getConn _ _), Prog.exec_ite]
  split
  · exact .fails (.inl hturns) (tripcSetError_goes c _ _ s)
  · next hstart =>
    rw [hin, if_neg Bool.false_ne_true]
    exact .one (.starts hturns hout (not_not.mp hstart)) (tripcSetState_goes (by decide) hx.plain)

/-- It is resolved. -/
theorem tripcResolved_steps (hturns : sc.turns) (hx : (s.router.standing c).Lawful)
    (hout : (s.router.standing c).incoming = false) :
    Steps sc c s.router ((tripcResolved c).exec s).2.router :=
  .one (.resolved hturns hout) (tripcSetState_goes (by decide) hx.plain)

theorem tripcTimeoutStateResend_steps (hturns : sc.turns) :
    Steps sc c s.router ((tripcTimeoutStateResend c).exec s).2.router := by
  unfold tripcTimeoutStateResend
  rw [Prog.exec_bind_of (exec_triptimeNow _), Prog.exec_bind_of (exec_getConn _ _), Prog.exec_ite]
  split
  · obtain ⟨_, herror⟩ := (RunsOn.tripcSetError (c := c) ETIME none).total.exec_eq s.popClock
    rw [Prog.exec_bind_of herror]
    exact .fails (.inl hturns) (tripcSetError_goes c _ _ s.popClock)
  · refine .same (Rests.bind .tripcSetSend (fun _ => ?_) s.popClock)
    exact .bind .tripcGetGrowth fun ms => .bind (.tripcSetTimeout rfl ms) fun _ => .pure false

theorem tripcTimeoutStateResolve_steps (hturns : sc.turns) :
    Steps sc c s.router ((tripcTimeoutStateResolve c).exec s).2.router := by
  unfold tripcTimeoutStateResolve
  rw [Prog.exec_bind_of (exec_getConn _ _), Prog.exec_bind_of (exec_fetch _ _)]
  split
  · exact .same (.refl s.router)
  · next q _ =>
    rw [Prog.exec_bind_of (exec_store _ _), Prog.exec_bind_of (exec_setConn _ _ _)]
    generalize hu : Env.setRouter (Env.setRouter _ _) _ = u
    have hset : SameStandings s.router u.router := by
      have hqueue : SameStandings s.router (s.router.setResolveq q) := .of_eq rfl rfl rfl
      rw [← hu]
      exact hqueue.trans (.setConn _ c fun _ => rfl)
    exact .after hset (.fails (.inl hturns) (tripcSetError_goes c _ _ u))

/-- What a resolution does with the connection it has popped. -/
theorem tripResolvePopped_steps {err : Errno} {emsg : Option String}
    (hdenies : ¬(err = 0 ∧ emsg = none) → sc.denies) (src : ℤ) :
    Steps sc c s.router ((tripResolvePopped c src err emsg).exec s).2.router := by
  obtain ⟨_, hcancel⟩ := (RunsOn.tripcCancelTimeout (c := c)).total.exec_eq s
  have hrests := Rests.tripcCancelTimeout (c := c) s
  unfold tripResolvePopped
  rw [Prog.exec_bind_of hcancel, Prog.exec_bind_of (exec_setConn _ _ _)]
  generalize ((tripcCancelTimeout c).exec s).2 = u at hrests
  have hsame : SameStandings s.router
    (u.setRouter (u.router.setConn c fun x => x.setSrc src)).router :=
    hrests.trans (.setConn u.router c fun _ => rfl)
  generalize u.setRouter _ = v at hsame ⊢
  refine .after hsame ?_
  split
  · exact .same (Rests.bind (.timer rfl 0) (fun _ => .pure ()) v)
  · next herr =>
    obtain ⟨_, herror⟩ := (RunsOn.tripcSetError (c := c) err emsg).total.exec_eq v
    rw [Prog.exec_bind_of herror]
    have hends : sc.ends := .inr (.inr (.inl (hdenies herr)))
    refine (Steps.fails hends (tripcSetError_goes c err emsg v)).andThen ?_
    exact Rests.bind (.timer rfl 0) (fun _ => .pure ()) _

/-- What taking the information comes to. -/
theorem standing_takeInfo (buf : Buf) (off : ℕ) (x : Connection) :
    (x.takeInfo buf off).standing = x.standing.hears (infoAt buf off) := by
  have hbare : (infoAt buf off).bare = infoBare buf off := rfl
  unfold Connection.takeInfo Standing.hears Connpeer.told
  rw [hbare]
  split <;> rfl

/-- **A connection reads a segment** that came to it. -/
theorem tripcRead_steps {pre : TripPrefix} {len : ℕ} {buf : Buf} {code : Errno}
    (hx : (s.router.standing c).Lawful) (hheard : sc.heard pre (some (infoAt buf 48)))
    (hopen : pre.control ≠ tripControlOpen) (hid : pre.id = (s.router.standing c).self.id)
    (h : (tripcRead c pre len buf).exec s = (some code, t)) :
    Steps sc c s.router t.router := by
  have hphase := hx.phase
  -- what is refused at once changes nothing
  have hrefused : ∀ {state}, (s.router.heap.conn c).state = state →
      (tripcReadSwitch c pre len buf state).exec s = (some (some EINVAL), s) →
        Steps sc c s.router t.router := by
    intro state hstate hrun
    rw [exec_tripcRead, hstate, Prog.exec_bind_of hrun] at h
    cases h
    exact .same (.refl s.router)
  cases hstate : (s.router.heap.conn c).state with
  | START | ERROR =>
    rw [exec_tripcRead, hstate] at h
    cases h
    exact .same (.refl s.router)
  | RESOLVE =>
    rw [exec_tripcRead, hstate] at h
    obtain ⟨_, herror⟩ :=
      (RunsOn.tripcSetError (c := c) EINVAL (some "Invalid state.")).total.exec_eq s
    have hread : (tripcReadSwitch c pre len buf .RESOLVE).exec s =
        (some none, ((tripcSetError c EINVAL (some "Invalid state.")).exec s).2) :=
      (Prog.exec_bind_of herror).trans rfl
    rw [Prog.exec_bind_of hread] at h
    cases h
    exact .fails (.inr (.inr (.inr ⟨pre, _, hheard⟩))) (tripcSetError_goes c _ _ s)
  | OPEN =>
    rcases exec_tripcRead_info infoFormat_chal (follows_tripcSetState c .PING)
        (by rw [hstate]; rfl) with
      ⟨-, hquiet⟩ | ⟨-, -, hstuck⟩ | ⟨-, u, hu, -, hexec⟩
    · cases hquiet.symm.trans h
      exact .same (.refl s.router)
    · rw [h] at hstuck
      cases hstuck
    · cases hexec.symm.trans h
      -- what the challenge tells is taken before the state is left
      have htold : GoesTo c ((s.router.standing c).hears (infoAt buf 48)) s.router u.router := by
        rw [hu]
        refine .setConn _ c fun x hx => ?_
        rw [standing_takeInfo, hx]
      refine .one (.challenged hheard hopen hid hstate) (htold.trans ?_)
      have henc : (u.router.standing c).encrypted = false := by
        rw [htold.self]
        exact hx.plain
      have hping := @tripcSetState_goes c .PING (by decide) _ henc
      rwa [htold.self] at hping
  | CHAL =>
    by_cases hdata : pre.control = tripControlData
    · refine hrefused hstate ?_
      unfold tripcReadSwitch
      dsimp only
      rw [if_pos hdata]
      rfl
    by_cases hping : pre.control = tripControlPing
    swap
    · refine hrefused hstate ?_
      unfold tripcReadSwitch
      dsimp only
      rw [if_neg hdata, if_neg hopen, if_neg hping]
      rfl
    have hread : tripcReadSwitch c pre len buf (s.router.heap.conn c).state =
        tripcParsed (tripcParsePing c len buf pre) (tripcSetSend c) := by
      rw [hstate]
      unfold tripcReadSwitch
      dsimp only
      rw [if_neg hdata, if_neg hopen, if_pos hping]
    rcases exec_tripcRead_ping (follows_tripcSetSend c) hread with
      ⟨-, hquiet | hstuck⟩ | ⟨hhears, u, hu, -, hexec⟩
    · cases hquiet.symm.trans h
      exact .same (.refl s.router)
    · rw [h] at hstuck
      cases hstuck
    · have hin : (s.router.standing c).incoming = true :=
        hhears.2.1.resolve_left fun hactive => Bool.false_ne_true (hx.idle.symm.trans hactive)
      have hnonce : (s.router.standing c).peer.nonce.isSome = true :=
        Option.isSome_iff_ne_none.mpr hhears.2.2
      -- the nonce of the peer is overwritten, and it asks to send
      have hpinged : Steps sc c s.router u.router := by
        refine .one (.pinged (pingNonce s.oracle pre) hheard hin hstate hnonce) ?_
        rw [hu]
        refine .setConn _ c fun x hx => ?_
        rw [← hx]
        rfl
      rw [hexec] at h
      split at h
      · cases h
        exact hpinged
      · cases h
        exact hpinged.andThen (Rests.tripcSetSend u)
  | PING =>
    have hout := hx.outgoing (Or.inr hstate)
    by_cases hdata : pre.control = tripControlData
    · refine hrefused hstate ?_
      unfold tripcReadSwitch
      dsimp only
      rw [if_pos hdata]
      rfl
    by_cases hping : pre.control = tripControlPing
    swap
    · refine hrefused hstate ?_
      unfold tripcReadSwitch
      dsimp only
      rw [if_neg hdata, if_neg hping]
      split <;> rfl
    have hread : tripcReadSwitch c pre len buf (s.router.heap.conn c).state =
        tripcParsed (tripcParsePing c len buf pre) (tripcSetState c .READY) := by
      rw [hstate]
      unfold tripcReadSwitch
      dsimp only
      rw [if_neg hdata, if_pos hping]
    -- only a ping takes it to `READY`, and it listens to none
    rcases exec_tripcRead_ping (follows_tripcSetState c .READY) hread with
      ⟨-, hquiet | hstuck⟩ | ⟨hhears, -⟩
    · cases hquiet.symm.trans h
      exact .same (.refl s.router)
    · rw [h] at hstuck
      cases hstuck
    · rcases hhears.2.1 with hactive | hin
      · exact absurd (hx.idle.symm.trans hactive) Bool.false_ne_true
      · exact absurd (hout.symm.trans hin) Bool.false_ne_true
  | READY | READY_PING | CLOSE | END =>
    rw [show (s.router.standing c).state = _ from hstate] at hphase
    generalize (s.router.standing c).incoming = incoming at hphase
    cases incoming <;> exact absurd hphase (by decide)

end Programs

/-! ### Sending -/

/-- The next sequence number is taken. -/
theorem tripcSeq_goes (c : Ptr) (s : Env) :
    GoesTo c (s.router.standing c).speaks s.router ((tripcSeq c).exec s).2.router :=
  .setConn s.router c fun x hx => by
    rw [← hx]
    rfl

/-- A segment takes the next number. -/
theorem tripcSendSeq_goes {c : Ptr} {s : Env} {fmt : List PackDir}
    {as : UInt64 → Connection → List PackArg} (len : ℕ) :
    GoesTo c (s.router.standing c).speaks s.router ((do
      let seq ← tripcSeq c
      let x ← getConn c
      tripPackM len fmt (as seq x) : TripM ℕ).exec s).2.router := by
  obtain ⟨seq, hseq⟩ := (RunsOn.tripcSeq (c := c)).total.exec_eq s
  rw [Prog.exec_bind_of hseq]
  refine (tripcSeq_goes c s).andThen ?_
  exact Rests.bind (.getConn c) (fun x => .tripPackM len fmt (as seq x)) _

/-- Segments are sent in `OPEN` and in `CHAL`. -/
theorem tripcSendOnce_steps {sc : Scene} {c : Ptr} {s : Env} (hpacks : sc.packs)
    (hstate : (s.router.standing c).state = .OPEN ∨ (s.router.standing c).state = .CHAL)
    {fmt : List PackDir} {as : UInt64 → Connection → List PackArg} (len : ℕ) :
    Steps sc c s.router ((tripcSendOnce c (do
      let seq ← tripcSeq c
      let x ← getConn c
      tripPackM len fmt (as seq x))).exec s).2.router := by
  unfold tripcSendOnce
  rw [Prog.exec_bind_of (exec_getConn _ _), Prog.exec_ite]
  split
  · have hgoes := @tripcSendSeq_goes c s fmt as len
    rw [Prog.exec_bind]
    split
    · next wlen u hexec =>
      rw [hexec] at hgoes
      refine (Steps.one (.speaks hpacks hstate) hgoes).andThen ?_
      have hrest : Rests (do
          setConn c fun x => x.setHassend false
          pure wlen) := .bind (.setConn fun _ => rfl) fun _ => .pure wlen
      exact hrest u
    · next u hexec =>
      rw [hexec] at hgoes
      exact .one (.speaks hpacks hstate) hgoes
  · exact .same (.refl s.router)

/-- **A connection packs a segment**, or says that it has none. -/
theorem tripcSend_steps {sc : Scene} {c : Ptr} {s : Env} (hturns : sc.turns) (hpacks : sc.packs)
    (hx : (s.router.standing c).Lawful) (len : ℕ) :
    Steps sc c s.router ((tripcSend c len).exec s).2.router := by
  have hphase := hx.phase
  unfold tripcSend
  rw [Prog.exec_bind_of (exec_getConn _ _)]
  cases hstate : (s.router.heap.conn c).state with
  | START =>
    obtain ⟨_, herror⟩ := (RunsOn.tripcSetError (c := c) EINVAL
      (some "Should not be sending in START.")).total.exec_eq s
    dsimp only
    rw [Prog.exec_bind_of herror]
    exact .fails (.inl hturns) (tripcSetError_goes c _ _ s)
  | RESOLVE | ERROR => exact .same (.refl s.router)
  | OPEN => exact tripcSendOnce_steps hpacks (Or.inl hstate) len
  | CHAL => exact tripcSendOnce_steps hpacks (Or.inr hstate) len
  | PING =>
    -- the pings are not active
    have hidle : ¬ ((s.router.heap.conn c).hassend &&
      (s.router.heap.conn c).ping.isactive) = true := by
      rw [show (s.router.heap.conn c).ping.isactive = false from hx.idle, Bool.and_false]
      exact Bool.false_ne_true
    have hsend : (tripcSendPing c len).exec s = (some 0, s) := by
      unfold tripcSendPing
      rw [Prog.exec_bind_of (exec_getConn _ _), if_neg hidle]
      rfl
    rw [hsend]
    exact .same (.refl s.router)
  | READY | READY_PING | CLOSE | END =>
    rw [show (s.router.standing c).state = _ from hstate] at hphase
    generalize (s.router.standing c).incoming = incoming at hphase
    cases incoming <;> exact absurd hphase (by decide)

/-- **The end of a connection** leaves its standing. -/
theorem Rests.tripcDestroy {c : Ptr} : Rests (Libtrp.tripcDestroy c) := by
  refine bind (setConn fun _ => rfl) fun _ => bind tripcCancelTimeout fun _ => ?_
  exact bind tripUnqconnection fun _ => setConn fun _ => rfl

end Libtrp
