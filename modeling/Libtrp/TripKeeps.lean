import Libtrp.Handshake
import Libtrp.TripFrame

/-!
# What every program keeps

Programs of the router are made of a few primitives, and most of what they write is
found by nobody else.  A relation of the router before and after that holds of what is
written to such places, of a timer that is cancelled, and of the timer of a connection
that is cancelled and armed again, holds of every program but those that are about
resolving, the walk of the timers, and sending.

## Main definitions

* `Still r r'` — only such places are written.
* `Frame R` — the relation holds of the primitives.
* `Task.plain` — the tasks that such a program leaves.

## Main results

* `Frame.tripcSetState`, `Frame.tripSeg`, `Frame.tripSetState` and the others — the
  relation holds of the programs.
* `Frame.api`, `Frame.task` — **it holds of the calls and of the tasks.**

## References

`src/trip.c`, `src/conn.c`.
-/

namespace Libtrp

open Lib

/-! ### Writes nobody finds -/

/-- The connections find their timers and their keys where they were. -/
structure ConnHeap.Still (h h' : ConnHeap) : Prop where
  brk : h'.brk = h.brk
  statetimer : ∀ c, (h'.conn c).statetimer = (h.conn c).statetimer
  resolvekey : ∀ c, (h'.conn c).resolvekey = (h.conn c).resolvekey

/-- A write that leaves the timer and the key of a connection alone. -/
def Connection.Still (f : Connection → Connection) : Prop :=
  ∀ x, (f x).statetimer = x.statetimer ∧ (f x).resolvekey = x.resolvekey

namespace ConnHeap.Still

variable {h h' h'' : ConnHeap}

theorem refl (h : ConnHeap) : ConnHeap.Still h h := ⟨rfl, fun _ => rfl, fun _ => rfl⟩

theorem trans (hh : ConnHeap.Still h h') (hh' : ConnHeap.Still h' h'') : ConnHeap.Still h h'' :=
  ⟨hh'.brk.trans hh.brk, fun c => (hh'.statetimer c).trans (hh.statetimer c),
    fun c => (hh'.resolvekey c).trans (hh.resolvekey c)⟩

theorem set (h : ConnHeap) (c : Ptr) {f : Connection → Connection} (hf : Connection.Still f) :
    ConnHeap.Still h (h.set c f) :=
  ⟨rfl, fun d => conn_set_field Connection.statetimer h c d (hf _).1,
    fun d => conn_set_field Connection.resolvekey h c d (hf _).2⟩

theorem sendq : SendqWrites ConnHeap.Still :=
  ⟨refl, trans, fun h c _ => set h c fun _ => ⟨rfl, rfl⟩, fun h c _ => set h c fun _ => ⟨rfl, rfl⟩⟩

theorem add (m : Connmap) (h : ConnHeap) (c : Ptr) (alloc : Bool) (r₁ r₂ : UInt32) :
    ConnHeap.Still h (connmapAdd m h c alloc r₁ r₂).2.2 := by
  obtain heq | ⟨id, heq⟩ := connmapAdd_heap m h c alloc r₁ r₂
  · rw [heq]
    exact refl h
  · rw [heq]
    exact set h c fun _ => ⟨rfl, rfl⟩

end ConnHeap.Still

/-- No connection is new in the map. -/
structure Connmap.Fewer (m m' : Connmap) : Prop where
  has : ∀ c, m'.Has c → m.Has c
  sized : m.Sized → m'.Sized

namespace Connmap.Fewer

variable {m m' m'' : Connmap}

theorem refl (m : Connmap) : Fewer m m := ⟨fun _ h => h, id⟩

theorem trans (h : Fewer m m') (h' : Fewer m' m'') : Fewer m m'' :=
  ⟨fun c hc => h.has c (h'.has c hc), h'.sized ∘ h.sized⟩

theorem del (m : Connmap) (h : ConnHeap) (id : UInt64) : Fewer m (connmapDel m h id).2 :=
  ⟨fun _ => Connmap.Has.of_del, fun hm => hm.del h id⟩

theorem clear (m : Connmap) : Fewer m (connmapClear m) :=
  ⟨fun _ hc => absurd hc (Connmap.not_has_init _), fun _ => Connmap.sized_init _⟩

end Connmap.Fewer

/-- The callback is about a connection. -/
def Callback.ofConn (cb : Callback) : Bool := cb.conn?.isSome

/-- The packet that waits, the resolve queue, the timers of connections and where a
connection finds them are the same, and no connection is new in the map. -/
structure Still (r r' : Router) : Prop where
  buf : r'.buf = r.buf
  sendlen : r'.sendlen = r.sendlen
  sendsrc : r'.sendsrc = r.sendsrc
  resolveq : r'.resolveq = r.resolveq
  mapped : Connmap.Fewer r.conn r'.conn
  pending : ∀ p : Callback → Bool, (∀ cb, p cb = true → cb.ofConn = true) →
    r'.timers.wheel.pending p = r.timers.wheel.pending p
  heap : ConnHeap.Still r.heap r'.heap

namespace Still

variable {r r' r'' : Router}

theorem refl (r : Router) : Still r r :=
  ⟨rfl, rfl, rfl, rfl, .refl _, fun _ _ => rfl, .refl _⟩

theorem trans (h : Still r r') (h' : Still r' r'') : Still r r'' where
  buf := h'.buf.trans h.buf
  sendlen := h'.sendlen.trans h.sendlen
  sendsrc := h'.sendsrc.trans h.sendsrc
  resolveq := h'.resolveq.trans h.resolveq
  mapped := h.mapped.trans h'.mapped
  pending := fun p hp => (h'.pending p hp).trans (h.pending p hp)
  heap := h.heap.trans h'.heap

/-- A write to a heap of the same connections. -/
theorem of_heap (h : ConnHeap.Still r.heap r'.heap) (hb : r'.buf = r.buf)
    (hl : r'.sendlen = r.sendlen) (hs : r'.sendsrc = r.sendsrc) (hq : r'.resolveq = r.resolveq)
    (hm : Connmap.Fewer r.conn r'.conn) (hw : r'.timers.wheel = r.timers.wheel) :
    Still r r' :=
  ⟨hb, hl, hs, hq, hm, fun _ _ => by rw [hw], h⟩

/-- A write to other fields. -/
theorem of_eq (hb : r'.buf = r.buf) (hl : r'.sendlen = r.sendlen) (hs : r'.sendsrc = r.sendsrc)
    (hq : r'.resolveq = r.resolveq) (hm : r'.conn = r.conn) (hw : r'.timers = r.timers)
    (hc : r'.heap.conn = r.heap.conn) (hk : r'.heap.brk = r.heap.brk) : Still r r' :=
  of_heap ⟨hk, fun c => by rw [hc], fun c => by rw [hc]⟩ hb hl hs hq (hm ▸ .refl _)
    (by rw [hw])

theorem setConn (r : Router) (c : Ptr) {f : Connection → Connection} (hf : Connection.Still f) :
    Still r (r.setConn c f) := of_heap (.set _ c hf) rfl rfl rfl rfl (.refl _) rfl

/-- A timer that is not a connection's. -/
theorem timer (r : Router) (alloc : Bool) (now now' : ℕ) (ms : ℤ) {cb : Callback}
    (hcb : cb.ofConn = false) :
    Still r (r.setTimers (tripSetTimeout alloc now now' ms (some cb) r.timers).2) := by
  refine ⟨rfl, rfl, rfl, rfl, .refl _, fun p hp => ?_, .refl _⟩
  show (tripSetTimeout alloc now now' ms (some cb) r.timers).2.wheel.pending p = _
  have hpcb : p cb = false := by
    by_contra h
    rw [hp cb (Bool.not_eq_false _ |>.mp h)] at hcb
    exact absurd hcb (by decide)
  rw [pending_tripSetTimeout, hpcb, Bool.and_false]
  rfl

end Still

/-- A program that only writes to such places. -/
def Stays {α : Type} (m : TripM α) : Prop := Prog.Does (fun s t => Still s.router t.router) m

namespace Stays

variable {α β : Type} {c : Ptr}

theorem pure (a : α) : Stays (Pure.pure a) := fun s => .refl s.router

theorem stuck : Stays (Prog.stuck : TripM α) := fun s => .refl s.router

theorem bind {m : TripM α} {f : α → TripM β} (hm : Stays m) (hf : ∀ a, Stays (f a)) :
    Stays (m >>= f) :=
  Prog.Does.bind (fun _ _ _ h h' => h.trans h') hm hf

theorem ite {p : Prop} [Decidable p] {m n : TripM α} (hm : Stays m) (hn : Stays n) :
    Stays (if p then m else n) := Prog.Does.ite hm hn

theorem fetch (f : Router → α) : Stays (Libtrp.fetch f) := fun s => .refl s.router

theorem consult (f : Oracle → α) : Stays (Libtrp.consult f) := fun s => .refl s.router

theorem mark (m : Mark) : Stays (Libtrp.mark m) := fun s => .refl s.router

theorem sizeSubM (a b : ℕ) : Stays (Libtrp.sizeSubM a b) := fun s => .refl s.router

theorem getConn (c : Ptr) : Stays (Libtrp.getConn c) := fetch _

theorem tripmAlloc : Stays Libtrp.tripmAlloc := fun s => .refl s.router

theorem triptimeNow : Stays Libtrp.triptimeNow := fun s => .refl s.router

theorem randombytesBuf : Stays Libtrp.randombytesBuf := fun s => .refl s.router

theorem store {f : Router → Router} (hf : ∀ r, Still r (f r)) : Stays (Libtrp.store f) :=
  fun s => hf s.router

theorem setConn {f : Connection → Connection} (hf : Connection.Still f) :
    Stays (Libtrp.setConn c f) := store fun r => .setConn r c hf

theorem timer {cb : Callback} (hcb : cb.ofConn = false) (ms : ℤ) :
    Stays (tripSetTimeoutM ms cb) := by
  intro s
  obtain ⟨now, now', t, hexec, ht⟩ := exec_tripSetTimeoutM ms cb s
  rw [hexec, ht]
  exact .timer _ _ now now' ms hcb

theorem tripQconnection : Stays (Libtrp.tripQconnection c) := by
  refine bind (store fun r => ?_) fun _ => bind (fetch _) fun flag => ?_
  · exact .of_heap (ConnHeap.Still.sendq.nq _ _ c) rfl rfl rfl rfl (.refl _) rfl
  · exact ite (bind (timer rfl 0) fun _ => pure ()) (pure ())

theorem tripUnqconnection : Stays (Libtrp.tripUnqconnection c) :=
  store fun _ => .of_heap (ConnHeap.Still.sendq.del _ _ c) rfl rfl rfl rfl (.refl _) rfl

theorem tripcMkKeys : Stays (Libtrp.tripcMkKeys c) := by
  refine bind (getConn c) fun x => ite ?_ (pure ())
  refine bind (ite (pure true) tripmAlloc) fun pk => bind (ite (pure true) tripmAlloc) fun sk => ?_
  refine ite (bind randombytesBuf fun _ => bind randombytesBuf fun _ => ?_) ?_
  all_goals exact setConn fun _ => ⟨rfl, rfl⟩

theorem tripcGeneratePing : Stays (Libtrp.tripcGeneratePing c) :=
  bind randombytesBuf fun _ => bind triptimeNow fun _ => setConn fun _ => ⟨rfl, rfl⟩

theorem tripcSetDeadline (ms : ℤ) : Stays (Libtrp.tripcSetDeadline c ms) :=
  bind triptimeNow fun _ => setConn fun _ => ⟨rfl, rfl⟩

theorem tripcSetGrowth (ms : ℤ) : Stays (Libtrp.tripcSetGrowth c ms) :=
  setConn fun _ => ⟨rfl, rfl⟩

theorem tripcGetGrowth : Stays (Libtrp.tripcGetGrowth c) :=
  bind (getConn c) fun _ => bind (setConn fun _ => ⟨rfl, rfl⟩) fun _ => pure _

theorem tripcSetSend : Stays (Libtrp.tripcSetSend c) :=
  bind tripQconnection fun _ => setConn fun _ => ⟨rfl, rfl⟩

theorem tripcSeq : Stays (Libtrp.tripcSeq c) :=
  bind (getConn c) fun _ => bind (setConn fun _ => ⟨rfl, rfl⟩) fun _ => pure _

theorem tripcParseInfo (fmt : List PackDir) (len : ℕ) (buf : Buf) :
    Stays (Libtrp.tripcParseInfo fmt c len buf) := by
  unfold Libtrp.tripcParseInfo
  dsimp only
  refine ite (pure _) ?_
  split
  · refine bind (setConn fun _ => ⟨rfl, rfl⟩) fun _ => ite (pure _) (bind tripmAlloc fun _ => ?_)
    refine bind tripmAlloc fun _ => ite (bind (setConn fun _ => ?_) fun _ => pure _) stuck
    exact ⟨rfl, rfl⟩
  · exact stuck

theorem tripcParsePing (len : ℕ) (buf : Buf) (pre : TripPrefix) :
    Stays (Libtrp.tripcParsePing c len buf pre) := by
  refine bind (getConn c) fun x => ite (bind (setConn fun _ => ⟨rfl, rfl⟩) fun _ => ?_) (pure _)
  cases x.peer.nonce with
  | none => exact stuck
  | some nonce =>
    exact bind randombytesBuf fun _ => bind (setConn fun _ => ⟨rfl, rfl⟩) fun _ => pure _

/-- Going to `ERROR` arms and cancels no timer. -/
theorem tripcSetError (eval : Errno) (msg : Option String) :
    Stays (Libtrp.tripcSetError c eval msg) := by
  refine bind (getConn c) fun x => ite (bind tripmAlloc fun _ => ?_) (pure ())
  refine bind (setConn fun _ => ⟨rfl, rfl⟩) fun _ => bind (pure ()) fun _ => ?_
  exact bind (setConn fun _ => ⟨rfl, rfl⟩) fun _ => pure ()

theorem tripFreeConnection : Stays (Libtrp.tripFreeConnection c) :=
  store fun _ => .of_eq rfl rfl rfl rfl rfl rfl rfl rfl

theorem tripFillMissing : Stays Libtrp.tripFillMissing := by
  refine bind (fetch _) fun packet => ite ?_ (fetch _)
  refine bind tripmAlloc fun alloc => bind (store fun _ => ?_) fun _ => fetch _
  split <;> exact .of_eq rfl rfl rfl rfl rfl rfl rfl rfl

theorem tripSetDeadline (ms : ℤ) : Stays (Libtrp.tripSetDeadline ms) :=
  bind triptimeNow fun _ => store fun _ => .of_eq rfl rfl rfl rfl rfl rfl rfl rfl

theorem tripArmState (ms : ℤ) : Stays (Libtrp.tripArmState ms) :=
  bind (timer rfl ms) fun _ => store fun _ => .of_eq rfl rfl rfl rfl rfl rfl rfl rfl

theorem tripClose (ms : ℤ) : Stays (Libtrp.tripClose ms) := by
  refine store fun r => ?_
  dsimp only
  split
  · obtain ⟨live, hlive⟩ := foldl_freeConn (connmapIterate r.conn) r
    rw [hlive]
    exact .of_heap ⟨rfl, fun _ => rfl, fun _ => rfl⟩ rfl rfl rfl rfl (.clear _) rfl
  · exact .of_heap (.refl _) rfl rfl rfl rfl (.clear _) rfl

end Stays

/-! ### Relations that programs keep -/

/-- The relation holds of the primitives: of writes nobody finds, of a timer that is
cancelled, of the timer of a connection that is cancelled, and armed behind that, and of
a connection that is made for a segment.  `ok` says for which connections. -/
structure Frame (ok : Router → Ptr → Prop) (R : Router → Router → Prop) : Prop where
  trans : ∀ {r r' r''}, R r r' → R r' r'' → R r r''
  still : ∀ {r r'}, Still r r' → R r r'
  keep : ∀ {r r'} {c : Ptr}, R r r' → ok r c → ok r' c
  cancel : ∀ r id, R r (r.setTimers (tripCancelTimeout id r.timers))
  disarm : ∀ (c : Ptr) (s : Env), R s.router ((tripcCancelTimeout c).exec s).2.router
  arm : ∀ (c : Ptr) (ms : ℤ) (cb : Ptr → Callback) (s t : Env), ok s.router c →
    cb = .tripcTimeoutStateResend ∨ cb = .tripcTimeoutStateReadyPing →
    Still ((tripcCancelTimeout c).exec s).2.router t.router →
    R s.router ((tripcSetTimeout c ms cb).exec t).2.router
  fresh : ∀ r src, R r (tripSegmentFresh r src)
  fresh_ok : ∀ r src, ok (tripSegmentFresh r src) r.heap.brk
  add : ∀ (c : Ptr) (s : Env), ok s.router c → R s.router ((connmapAddM c).exec s).2.router

/-- A program of which the relation holds. -/
def Framed (R : Router → Router → Prop) {α : Type} (m : TripM α) : Prop :=
  Prog.Does (fun s t => R s.router t.router) m

/-- A program of the connection `c` of which the relation holds. -/
def FramedOn (ok : Router → Ptr → Prop) (R : Router → Router → Prop) (c : Ptr) {α : Type}
    (m : TripM α) : Prop := ∀ s : Env, ok s.router c → R s.router (m.exec s).2.router

/-- Such a program, behind `_tripc_cancel_timeout` and writes nobody finds. -/
def Behind (ok : Router → Ptr → Prop) (R : Router → Router → Prop) (c : Ptr) {α : Type}
    (m : TripM α) : Prop :=
  ∀ s t : Env, ok s.router c → Still ((tripcCancelTimeout c).exec s).2.router t.router →
    R s.router (m.exec t).2.router

namespace Frame

variable {ok : Router → Ptr → Prop} {R : Router → Router → Prop} {α β : Type} {c : Ptr}

theorem stays (hR : Frame ok R) {m : TripM α} (hm : Stays m) : Framed R m :=
  fun s => hR.still (hm s)

theorem bind (hR : Frame ok R) {m : TripM α} {f : α → TripM β} (hm : Framed R m)
    (hf : ∀ a, Framed R (f a)) : Framed R (m >>= f) :=
  Prog.Does.bind (R := fun s t : Env => R s.router t.router) (fun _ _ _ h h' => hR.trans h h') hm hf

theorem ite {p : Prop} [Decidable p] {m n : TripM α} (hm : Framed R m) (hn : Framed R n) :
    Framed R (if p then m else n) := Prog.Does.ite hm hn

theorem on {m : TripM α} (hm : Framed R m) : FramedOn ok R c m := fun s _ => hm s

theorem stays_on (hR : Frame ok R) {m : TripM α} (hm : Stays m) : FramedOn ok R c m :=
  on (hR.stays hm)

theorem bind_on (hR : Frame ok R) {m : TripM α} {f : α → TripM β} (hm : FramedOn ok R c m)
    (hf : ∀ a, FramedOn ok R c (f a)) : FramedOn ok R c (m >>= f) := by
  intro s hs
  have hst := hm s hs
  rw [Prog.exec_bind]
  generalize m.exec s = p at hst
  obtain ⟨_ | a, t⟩ := p
  · exact hst
  · exact hR.trans hst (hf a t (hR.keep hst hs))

theorem ite_on {p : Prop} [Decidable p] {m n : TripM α} (hm : FramedOn ok R c m)
    (hn : FramedOn ok R c n) : FramedOn ok R c (if p then m else n) := by
  split
  · exact hm
  · exact hn

/-! #### Behind a cancellation -/

/-- Writes nobody finds come first. -/
theorem behind_bind (hR : Frame ok R) {m : TripM α} {f : α → TripM β} (hm : Stays m)
    (hf : ∀ a, Behind ok R c (f a)) : Behind ok R c (m >>= f) := by
  intro s t hs hst
  have htu := hm t
  rw [Prog.exec_bind]
  generalize m.exec t = p at htu
  obtain ⟨_ | a, u⟩ := p
  · exact hR.trans (hR.disarm c s) (hR.still (hst.trans htu))
  · exact hf a s u hs (hst.trans htu)

theorem behind_stays (hR : Frame ok R) {m : TripM α} (hm : Stays m) : Behind ok R c m :=
  fun s t _ hst => hR.trans (hR.disarm c s) (hR.still (hst.trans (hm t)))

theorem behind_arm (hR : Frame ok R) {cb : Ptr → Callback}
    (hcb : cb = .tripcTimeoutStateResend ∨ cb = .tripcTimeoutStateReadyPing) (ms : ℤ) :
    Behind ok R c (tripcSetTimeout c ms cb) := fun s t hs hst => hR.arm c ms cb s t hs hcb hst

/-- The timer is armed, and writes nobody finds follow. -/
theorem behind_arm_bind (hR : Frame ok R) {cb : Ptr → Callback}
    (hcb : cb = .tripcTimeoutStateResend ∨ cb = .tripcTimeoutStateReadyPing) (ms : ℤ)
    {m : TripM α} (hm : Stays m) : Behind ok R c (tripcSetTimeout c ms cb >>= fun _ => m) := by
  intro s t hs hst
  have harm := hR.arm c ms cb s t hs hcb hst
  rw [Prog.exec_bind]
  generalize (tripcSetTimeout c ms cb).exec t = p at harm
  obtain ⟨_ | a, u⟩ := p
  · exact harm
  · exact hR.trans harm (hR.still (hm u))

/-- Entering a state whose timer was cancelled. -/
theorem behind_tripcEnter (hR : Frame ok R) {state : TripcState} (hstate : state ≠ .RESOLVE) :
    Behind ok R c (tripcEnter c state) := by
  cases state
  case RESOLVE => exact absurd rfl hstate
  case START | READY_PING | END | ERROR => exact hR.behind_stays (.pure ())
  case CHAL => exact hR.behind_stays .tripcMkKeys
  case OPEN =>
    refine hR.behind_bind .tripcMkKeys fun _ => hR.behind_bind (.getConn c) fun x => ?_
    refine hR.behind_bind (.tripcSetDeadline _) fun _ => ?_
    refine hR.behind_bind (.tripcSetGrowth _) fun _ => hR.behind_bind .tripcSetSend fun _ => ?_
    exact hR.behind_bind .tripcGetGrowth fun ms => hR.behind_arm (Or.inl rfl) ms
  case PING =>
    refine hR.behind_bind .tripcGeneratePing fun _ => hR.behind_bind (.getConn c) fun x => ?_
    refine hR.behind_bind (.tripcSetDeadline _) fun _ => ?_
    refine hR.behind_bind (.tripcSetGrowth _) fun _ => ?_
    refine hR.behind_bind .tripcGetGrowth fun ms => ?_
    exact hR.behind_arm_bind (Or.inl rfl) ms .tripcSetSend
  case READY =>
    refine hR.behind_bind (.getConn c) fun x => hR.behind_bind (.tripcSetDeadline _) fun _ => ?_
    exact hR.behind_arm (Or.inr rfl) _
  case CLOSE =>
    refine hR.behind_bind (.getConn c) fun x => hR.behind_bind (.tripcSetDeadline _) fun _ => ?_
    exact hR.behind_arm (Or.inr rfl) _

/-! #### Connections -/

theorem stays_setState (state : TripcState) :
    Stays (setConn c fun x => { x with state := state }) := .setConn fun _ => ⟨rfl, rfl⟩

/-- **Changing the state of a connection**, unless it starts to resolve. -/
theorem tripcSetState (hR : Frame ok R) {state : TripcState} (hstate : state ≠ .RESOLVE) :
    FramedOn ok R c (Libtrp.tripcSetState c state) := by
  -- the timer is cancelled on entry
  have hcancel : tripcLeave c state = tripcCancelTimeout c →
      FramedOn ok R c (Libtrp.tripcSetState c state) := by
    intro hleave s hs
    unfold Libtrp.tripcSetState
    rw [hleave, Prog.exec_bind]
    have hbehind := hR.behind_bind (stays_setState (c := c) state) fun _ =>
      hR.behind_tripcEnter (c := c) hstate
    rcases hexec : (tripcCancelTimeout c).exec s with ⟨_ | _, t⟩
    · have hst := hR.disarm c s
      rw [hexec] at hst
      exact hst
    · exact hbehind s t hs (by rw [hexec]; exact .refl _)
  cases state
  case RESOLVE => exact absurd rfl hstate
  case START | READY_PING | END | ERROR =>
    exact hR.stays_on (.bind (.pure ()) fun _ => .bind (stays_setState _) fun _ => .pure ())
  case OPEN | CHAL | PING | READY | CLOSE => exact hcancel rfl

theorem tripcSetError (hR : Frame ok R) (eval : Errno) (msg : Option String) :
    Framed R (Libtrp.tripcSetError c eval msg) := hR.stays (.tripcSetError eval msg)

/-- A connection that came in does not start to resolve, and arms no timer. -/
theorem tripcStart (hR : Frame ok R) {s : Env} (hin : (s.router.heap.conn c).incoming = true) :
    R s.router ((Libtrp.tripcStart c).exec s).2.router := by
  unfold Libtrp.tripcStart
  rw [Prog.exec_bind_of (exec_getConn _ _), hin, if_pos rfl]
  split
  · exact hR.tripcSetError _ _ s
  · have hchal : Framed R (Libtrp.tripcSetState c .CHAL) := by
      refine hR.bind (hR.disarm c) fun _ => hR.stays (.bind (stays_setState .CHAL) fun _ => ?_)
      exact .tripcMkKeys
    exact hchal s

theorem tripcParsed (hR : Frame ok R) {parse : TripM Errno} {next : TripM Unit} (hp : Stays parse)
    (hn : FramedOn ok R c next) : FramedOn ok R c (Libtrp.tripcParsed parse next) := by
  refine hR.bind_on (hR.stays_on hp) fun _ => ite_on (hR.stays_on (.pure _)) ?_
  exact hR.bind_on hn fun _ => hR.stays_on (.pure _)

theorem tripcReadSwitch (hR : Frame ok R) (pre : TripPrefix) (len : ℕ) (buf : Buf)
    (state : TripcState) : FramedOn ok R c (Libtrp.tripcReadSwitch c pre len buf state) := by
  have hpure : ∀ code, FramedOn ok R c (pure code : TripM (Option Errno)) :=
    fun code => hR.stays_on (.pure _)
  have hping : ∀ {next : TripM Unit}, FramedOn ok R c next →
      FramedOn ok R c (Libtrp.tripcParsed (tripcParsePing c len buf pre) next) :=
    fun hn => hR.tripcParsed (.tripcParsePing len buf pre) hn
  have hnil : FramedOn ok R c (pure () : TripM Unit) := hR.stays_on (.pure ())
  have hsend : FramedOn ok R c (tripcSetSend c) := hR.stays_on .tripcSetSend
  cases state
  case START | ERROR | END => exact hpure _
  case RESOLVE => exact hR.bind_on (on (hR.tripcSetError _ _)) fun _ => hpure _
  case OPEN => exact hR.tripcParsed (.tripcParseInfo _ len buf) (hR.tripcSetState (by decide))
  case CHAL =>
    refine ite_on (hR.tripcParsed (.pure _) (hR.tripcSetState (by decide)))
      (ite_on ?_ (ite_on ?_ ?_))
    · exact hR.tripcParsed (.tripcParseInfo _ len buf) hsend
    · exact hping hsend
    · exact hpure _
  case PING | READY | READY_PING =>
    refine ite_on (hR.tripcParsed (.pure _) hnil) (ite_on ?_ (ite_on ?_ (hpure _)))
    · exact hping (hR.tripcSetState (by decide))
    · exact hR.tripcParsed (.pure _) (hR.tripcSetState (by decide))
  case CLOSE =>
    refine ite_on (hR.tripcParsed (.pure _) hnil) (ite_on ?_ (ite_on ?_ (hpure _)))
    · exact hping (hR.tripcSetState (by decide))
    · exact hR.tripcParsed (.pure _) hnil

theorem tripcRead (hR : Frame ok R) (pre : TripPrefix) (len : ℕ) (buf : Buf) :
    FramedOn ok R c (Libtrp.tripcRead c pre len buf) := by
  refine hR.bind_on (hR.stays_on (.getConn c)) fun x => ?_
  refine hR.bind_on (hR.tripcReadSwitch pre len buf x.state) fun code => ?_
  cases code with
  | some code => exact hR.stays_on (.pure code)
  | none => exact hR.stays_on (.bind (.getConn c) fun x => .pure _)

theorem tripcDestroy (hR : Frame ok R) : Framed R (Libtrp.tripcDestroy c) := by
  refine hR.bind (hR.stays (.setConn fun _ => ⟨rfl, rfl⟩)) fun _ => ?_
  refine hR.bind (hR.disarm c) fun _ => ?_
  exact hR.stays (.bind .tripUnqconnection fun _ => .setConn fun _ => ⟨rfl, rfl⟩)

/-! #### Segments -/

theorem tripSegmentInfo (hR : Frame ok R) (src : ℤ) (len : ℕ) (buf : Buf) (en : ℕ)
    (pre : TripPrefix) : FramedOn ok R c (Libtrp.tripSegmentInfo src len buf en pre c) := by
  have hnil : FramedOn ok R c (pure () : TripM Unit) := hR.stays_on (.pure ())
  have hsub := fun a b => hR.stays_on (c := c) (Stays.sizeSubM a b)
  have hmark := fun m => hR.stays_on (c := c) (Stays.mark m)
  refine hR.bind_on (hsub _ _) fun _ => hR.bind_on (hsub _ _) fun _ => ?_
  refine hR.bind_on (hsub _ _) fun _ => hR.bind_on (hmark _) fun _ => ite_on hnil ?_
  refine hR.bind_on (hsub _ _) fun _ => hR.bind_on (hmark _) fun _ => ?_
  exact hR.bind_on (hR.tripcRead _ _ _) fun _ => ite_on hnil (hR.stays_on .tripcSetSend)

/-- What follows the start of a connection that came in. -/
theorem tripcStart_bind (hR : Frame ok R) {s : Env} (hs : ok s.router c)
    (hin : (s.router.heap.conn c).incoming = true) {m : TripM α} (hm : FramedOn ok R c m) :
    R s.router ((Libtrp.tripcStart c >>= fun _ => m).exec s).2.router := by
  have hstart := hR.tripcStart hin
  rw [Prog.exec_bind]
  generalize (Libtrp.tripcStart c).exec s = p at hstart
  obtain ⟨_ | _, t⟩ := p
  · exact hstart
  · exact hR.trans hstart (hm t (hR.keep hstart hs))

/-- **Making a connection for a segment.** -/
theorem tripSegmentCreate (hR : Frame ok R) (src : ℤ) (len : ℕ) (buf : Buf) (en : ℕ)
    (pre : TripPrefix) (screen : TripScreen) :
    Framed R (Libtrp.tripSegmentCreate src len buf en pre screen) := by
  intro s
  unfold Libtrp.tripSegmentCreate
  rw [exec_tripNewConnection_bind]
  cases s.oracle.alloc.head with
  | false => exact hR.still (.refl _)
  | true =>
    rw [if_pos rfl]
    dsimp only
    rw [Prog.exec_bind_of (exec_fetch _ _), Prog.exec_bind_of (exec_setConn _ _ _),
      Prog.exec_bind_of (exec_setConn _ _ _)]
    generalize ht : Env.setRouter (Env.setRouter _ _) _ = t
    have hrouter : t.router = tripSegmentFresh s.router src := by rw [← ht]; rfl
    have hst : R s.router t.router := hrouter ▸ hR.fresh s.router src
    have hok : ok t.router s.router.heap.brk := hrouter ▸ hR.fresh_ok s.router src
    have hin : (t.router.heap.conn s.router.heap.brk).incoming = true := by
      rw [hrouter, tripSegmentFresh, Router.setConn, ConnHeap.conn_set_self, Router.setConn,
        ConnHeap.conn_set_self]
      rfl
    rw [Prog.exec_bind_of (exec_connmapAddM _ t)]
    generalize hu : Env.setRouter _ _ = u
    have htu : R t.router u.router := by
      rw [← hu]
      exact hR.add _ t hok
    split
    · exact hR.trans hst (hR.trans htu (hR.stays (.bind .tripFreeConnection fun _ => .pure ()) _))
    · rw [Prog.exec_bind_of (exec_tripcSetScreen _ _ _)]
      generalize hv : Env.setRouter _ _ = v
      have huv : R u.router v.router := by
        rw [← hv]
        exact hR.still (.setConn _ _ fun _ => ⟨rfl, rfl⟩)
      have hin' : (v.router.heap.conn s.router.heap.brk).incoming = true := by
        rw [← hv]
        refine (ConnHeap.conn_set_field Connection.incoming _ _ _ rfl).trans ?_
        rw [← hu]
        exact (connmapAdd_conn_self Connection.incoming (fun _ _ => rfl) _ _ _ _ _ _).trans hin
      refine hR.trans hst (hR.trans htu (hR.trans huv ?_))
      exact hR.tripcStart_bind (hR.keep huv (hR.keep htu hok)) hin'
        (hR.tripSegmentInfo src len buf en pre)

end Frame

/-- What is found in the map is as it should be. -/
def Maps (ok : Router → Ptr → Prop) (r : Router) : Prop :=
  ∀ id c, connmapGet r.conn r.heap id = some c → ok r c

/-- A program of which the relation holds when what is found in the map is as it should
be. -/
def FramedMap (ok : Router → Ptr → Prop) (R : Router → Router → Prop) {α : Type}
    (m : TripM α) : Prop := ∀ s : Env, Maps ok s.router → R s.router (m.exec s).2.router

namespace Frame

variable {ok : Router → Ptr → Prop} {R : Router → Router → Prop} {α β : Type} {c : Ptr}

theorem map {m : TripM α} (hm : Framed R m) : FramedMap ok R m := fun s _ => hm s

/-- Behind a program that leaves the router as it is. -/
theorem same_bind {m : TripM α} {f : α → TripM β} (hR : Frame ok R)
    (hm : Prog.Does (fun s t => t.router = s.router) m) (hf : ∀ a, FramedMap ok R (f a)) :
    FramedMap ok R (m >>= f) := by
  intro s hs
  have hst := hm s
  rw [Prog.exec_bind]
  generalize m.exec s = p at hst
  obtain ⟨_ | a, t⟩ := p
  · dsimp only at hst ⊢
    rw [hst]
    exact hR.still (.refl _)
  · have htu := hf a t (by rw [hst]; exact hs)
    rw [hst] at htu
    exact htu

theorem ite_map {p : Prop} [Decidable p] {m n : TripM α} (hm : FramedMap ok R m)
    (hn : FramedMap ok R n) : FramedMap ok R (if p then m else n) := by
  split
  · exact hm
  · exact hn

theorem tripSegmentOpen (hR : Frame ok R) (src : ℤ) (len : ℕ) (buf : Buf) (en : ℕ)
    (pre : TripPrefix) : Framed R (Libtrp.tripSegmentOpen src len buf en pre) := by
  have hnil : Framed R (pure () : TripM Unit) := hR.stays (.pure ())
  have hfetch : ∀ {γ : Type} (f : Router → γ), Framed R (fetch f) := fun f => hR.stays (.fetch f)
  have hask : ∀ {γ : Type} (f : Oracle → γ), Framed R (consult f) := fun f => hR.stays (.consult f)
  refine hR.bind (hfetch _) fun _ => hR.bind (hfetch _) fun _ => ite hnil (ite hnil ?_)
  refine hR.bind (hR.stays (.sizeSubM _ _)) fun rest => hR.bind (hR.stays (.mark _)) fun _ => ?_
  split
  · exact hnil
  · refine ite hnil (hR.bind (hfetch _) fun found => ?_)
    split
    · exact hR.stays .stuck
    · -- a new connection, when the screen lets it in
      refine hR.bind (hask _) fun _ => hR.bind (hask _) fun _ => hR.bind (hfetch _) fun _ => ?_
      exact ite hnil (ite hnil (hR.tripSegmentCreate _ _ _ _ _ _))
    · refine hR.bind (hR.stays (.getConn _)) fun _ => hR.bind (hask _) fun _ => ?_
      refine hR.bind (hfetch _) fun _ => ite hnil (hR.stays (.setConn fun _ => ?_))
      exact ⟨rfl, rfl⟩

theorem tripSegmentComm (hR : Frame ok R) (src : ℤ) (len : ℕ) (buf : Buf) (en : ℕ)
    (pre : TripPrefix) : FramedMap ok R (Libtrp.tripSegmentComm src len buf en pre) := by
  have hnil : FramedMap ok R (pure () : TripM Unit) := map (hR.stays (.pure ()))
  refine hR.same_bind (fun _ => rfl) fun _ => ite_map hnil fun s hs => ?_
  rw [Prog.exec_bind_of (exec_fetch _ _)]
  cases hc : connmapGet s.router.conn s.router.heap pre.id with
  | none => exact hR.still (.refl _)
  | some c =>
    have hon : FramedOn ok R c (do
        let x ← getConn c
        let verify ← consult Oracle.verify
        let plain ← fetch fun r => r.has triprFlagAllowPlainOsig
        if !tripChallengeVerified verify len buf pre x plain then tripRouterReject src 203
        else tripSegmentRead src len buf en pre c) := by
      refine hR.bind_on (hR.stays_on (.getConn c)) fun _ => ?_
      refine hR.bind_on (hR.stays_on (.consult _)) fun _ => ?_
      refine hR.bind_on (hR.stays_on (.fetch _)) fun _ => ?_
      refine ite_on (hR.stays_on (.pure ())) (hR.bind_on (hR.stays_on (.sizeSubM _ _)) fun _ => ?_)
      refine hR.bind_on (hR.stays_on (.sizeSubM _ _)) fun _ => ?_
      refine hR.bind_on (hR.stays_on (.mark _)) fun _ => ?_
      exact hR.bind_on (hR.tripcRead _ _ _) fun _ => ite_on (hR.stays_on (.pure ()))
        (hR.stays_on (.pure ()))
    exact hon s (hs _ c hc)

/-- **Segments that come in.** -/
theorem tripSeg (hR : Frame ok R) (src : ℤ) (len : ℕ) (buf : Buf) :
    FramedMap ok R (Libtrp.tripSeg src len buf) := by
  have hnil : FramedMap ok R (pure () : TripM Unit) := map (hR.stays (.pure ()))
  refine hR.same_bind (fun _ => rfl) fun _ => ite_map ?_ hnil
  refine ite_map hnil (ite_map hnil (hR.same_bind (fun _ => rfl) fun _ => ?_))
  split
  · exact hnil
  · exact ite_map hnil (ite_map (map (hR.tripSegmentOpen _ _ _ _ _)) (hR.tripSegmentComm _ _ _ _ _))

end Frame

/-! ### Calls and tasks -/

/-- A task of the part of `_trip_listen` that sends. -/
def Task.sends : Task → Bool
  | .resend | .send _ _ _ | .sendNext _ | .pack _ _ _ | .packed _ _ _ => true
  | _ => false

/-- A task that neither sends, nor is a callback of a timer, nor asks the packet
interface to resolve. -/
def Task.plain : Task → Bool
  | .resend | .send _ _ _ | .sendNext _ | .pack _ _ _ | .packed _ _ _ | .callback _
  | .resolve _ _ => false
  | _ => true

theorem Task.sends_of_plain {t : Task} (h : t.plain = true) : t.sends = false := by
  cases t <;> first | rfl | exact absurd h Bool.false_ne_true

/-- The relation holds of a program, and what is left of it is plain. -/
def Plain (R : Router → Router → Prop) (m : TripM (List Task)) : Prop :=
  Prog.Leaves (fun s t => R s.router t.router) (fun ts => ∀ u ∈ ts, u.plain = true) m

namespace Frame

variable {ok : Router → Ptr → Prop} {R : Router → Router → Prop} {α : Type}

theorem andThen (hR : Frame ok R) {m : TripM α} {f : α → TripM (List Task)} (hm : Framed R m)
    (hf : ∀ a, Plain R (f a)) : Plain R (m >>= f) :=
  Prog.Leaves.bind (R := fun s t : Env => R s.router t.router)
    (fun _ _ _ h h' => hR.trans h h') hm hf

theorem after (hR : Frame ok R) {m : TripM α} {f : α → TripM (List Task)} (hm : Stays m)
    (hf : ∀ a, Plain R (f a)) : Plain R (m >>= f) := hR.andThen (hR.stays hm) hf

theorem plain (hR : Frame ok R) {ts : List Task} (h : ∀ u ∈ ts, u.plain = true) :
    Plain R (pure ts) :=
  Prog.Leaves.pure (R := fun s t : Env => R s.router t.router) (fun _ => hR.still (.refl _)) h

theorem nil (hR : Frame ok R) : Plain R (pure []) := hR.plain fun _ hu => absurd hu List.not_mem_nil

theorem one (hR : Frame ok R) {t : Task} (h : t.plain = true) : Plain R (pure [t]) :=
  hR.plain fun _ hu => List.mem_singleton.mp hu ▸ h

theorem two (hR : Frame ok R) {t u : Task} (ht : t.plain = true) (hu : u.plain = true) :
    Plain R (pure [t, u]) := by
  refine hR.plain fun v hv => ?_
  simp only [List.mem_cons, List.not_mem_nil, or_false] at hv
  rcases hv with rfl | rfl
  · exact ht
  · exact hu

end Frame

theorem Plain.ite {R : Router → Router → Prop} {p : Prop} [Decidable p] {m n : TripM (List Task)}
    (hm : Plain R m) (hn : Plain R n) : Plain R (if p then m else n) :=
  Prog.Leaves.ite (fun _ => hm) fun _ => hn

/-- A condition that is not needed. -/
theorem Plain.when {R : Router → Router → Prop} (P : Router → Prop) {m : TripM (List Task)}
    (hm : Plain R m) : Plain (fun r r' => P r → R r r') m :=
  fun s ts t h => ⟨fun _ => (hm s ts t h).1, (hm s ts t h).2⟩

theorem Plain.stuck {R : Router → Router → Prop} : Plain R Prog.stuck := Prog.Leaves.stuck

namespace Frame

variable {ok : Router → Ptr → Prop} {R : Router → Router → Prop} {α : Type}

/-- Nothing is left of the program. -/
theorem stop (hR : Frame ok R) {m : TripM α} (hm : Framed R m) : Plain R (m >>= fun _ => pure []) :=
  hR.andThen hm fun _ => hR.nil

theorem callPacket (hR : Frame ok R) {ts : List Task} (h : Plain R (pure ts)) :
    Plain R (Libtrp.callPacket ts) :=
  hR.after (.fetch _) fun _ => .ite h .stuck

/-! #### The machine -/

theorem tripTimeoutCancelState (hR : Frame ok R) : Framed R Libtrp.tripTimeoutCancelState := by
  refine hR.bind (hR.stays (.fetch _)) fun e => ?_
  cases e with
  | none => exact hR.stays (.pure ())
  | some e =>
    refine hR.bind (fun s => hR.cancel s.router e) fun _ => hR.stays (.store fun _ => ?_)
    exact .of_eq rfl rfl rfl rfl rfl rfl rfl rfl

theorem tripLeaveState (hR : Frame ok R) (state : TriprState) :
    Framed R (Libtrp.tripLeaveState state) := by
  cases state
  case BIND | CLOSE | UNBIND =>
    exact hR.bind (hR.stays (.tripSetDeadline 0)) fun _ => hR.tripTimeoutCancelState
  case START | LISTEN | END | ERROR => exact hR.stays (.pure ())

/-- **Changing the state of the router.** -/
theorem tripSetState (hR : Frame ok R) (state : TriprState) :
    Plain R (Libtrp.tripSetState state) := by
  refine hR.after (.fetch _) fun old => hR.andThen (hR.tripLeaveState old) fun _ => ?_
  refine hR.after (.store fun _ => .of_eq rfl rfl rfl rfl rfl rfl rfl rfl) fun _ => ?_
  generalize (if old = .ERROR then .ERROR else state) = next
  cases next with
  | START | END => exact hR.nil
  | LISTEN =>
    exact hR.stop (hR.stays (.store fun _ => .of_eq rfl rfl rfl rfl rfl rfl rfl rfl))
  | BIND =>
    refine hR.after (.fetch _) fun ms => hR.after (.tripSetDeadline ms) fun _ => ?_
    exact hR.after (.tripArmState ms) fun _ => hR.callPacket (hR.one rfl)
  | CLOSE =>
    refine hR.after (.fetch _) fun ms => hR.after (.tripClose ms) fun _ => ?_
    exact hR.after (.tripSetDeadline ms) fun _ => hR.stop (hR.stays (.tripArmState ms))
  | UNBIND => exact hR.after (.tripClose 0) fun _ => hR.callPacket (hR.two rfl rfl)
  | ERROR =>
    refine hR.after (.fetch _) fun packet => hR.after (.fetch _) fun statetimer => ?_
    cases packet with
    | none => exact .stuck
    | some packet =>
      refine .ite (hR.after (.fetch _) fun ms => hR.after (.tripArmState ms) fun _ => ?_) hR.nil
      exact hR.one rfl

theorem tripSetError (hR : Frame ok R) (eval : Errno) (msg : Option String) :
    Plain R (Libtrp.tripSetError eval msg) := by
  refine hR.after (.fetch _) fun state => .ite (hR.after .tripmAlloc fun alloc => ?_) hR.nil
  refine hR.after (.store fun _ => .of_eq rfl rfl rfl rfl rfl rfl rfl rfl) fun _ => ?_
  exact hR.one rfl

theorem tripTimeout (hR : Frame ok R) : Plain R Libtrp.tripTimeout :=
  hR.after .triptimeNow fun _ => hR.after (.fetch _) fun _ => hR.one rfl

theorem tripActionDeadline (hR : Frame ok R) (next : TriprState) :
    Plain R (Libtrp.tripActionDeadline next) :=
  hR.after .triptimeNow fun _ => hR.after (.fetch _) fun _ => .ite (hR.one rfl) hR.nil

theorem tripActionSwitch (hR : Frame ok R) (fd : ℤ) (events : UInt32) :
    Plain R (Libtrp.tripActionSwitch fd events) := by
  refine hR.after (.fetch _) fun state => ?_
  cases state with
  | START =>
    refine .ite (hR.one rfl) (hR.after .tripFillMissing fun there => .ite (hR.one rfl) ?_)
    refine hR.after (.fetch _) fun hooks => .ite (hR.one rfl) (hR.after (.store fun _ => ?_) ?_)
    · exact .of_eq rfl rfl rfl rfl rfl rfl rfl rfl
    · exact fun _ => hR.one rfl
  | BIND =>
    refine .ite (hR.one rfl) (hR.after .triptimeNow fun _ => hR.after (.fetch _) fun _ => ?_)
    exact .ite (hR.one rfl) (hR.stop (hR.stays (.tripArmState _)))
  | LISTEN => exact hR.one rfl
  | CLOSE => exact hR.two rfl rfl
  | UNBIND => exact hR.tripActionDeadline .END
  | END | ERROR => exact hR.nil

theorem tripAction (hR : Frame ok R) (fd : ℤ) (events : UInt32) :
    Plain R (Libtrp.tripAction fd events) := by
  refine .ite ?_ (hR.tripActionSwitch fd events)
  rintro s _ _ ⟨⟩
  exact ⟨hR.still (.refl _), by simp [Task.plain]⟩

theorem tripCloseConnection (hR : Frame ok R) (c : Ptr) :
    Plain R (pure (Libtrp.tripCloseConnection c)) := hR.two rfl rfl

/-- The calls, but for segments and those that begin to resolve and that end it. -/
theorem api_plain (hR : Frame ok R) {api : Api} (hopen : api ≠ .openConnection)
    (hresolve : ∀ key src err emsg, api ≠ .resolve key src err emsg)
    (hseg : ∀ src len buf, api ≠ .seg src len buf) : Plain R api.run := by
  have htimer : ∀ {cb : Callback}, cb.ofConn = false → ∀ ms, Framed R (tripSetTimeoutM ms cb) :=
    fun hcb ms => hR.stays (.timer hcb ms)
  cases api with
  | openConnection => exact absurd rfl hopen
  | resolve key src err emsg => exact absurd rfl (hresolve key src err emsg)
  | seg src len buf => exact absurd rfl (hseg src len buf)
  | start =>
    refine hR.after (.store fun r => ?_) fun _ => hR.after (.fetch _) fun _ => ?_
    · split <;> exact .of_eq rfl rfl rfl rfl rfl rfl rfl rfl
    · exact .ite (hR.tripAction _ 0) hR.nil
  | action fd events => exact hR.tripAction fd events
  | timeout => exact hR.tripTimeout
  | stop =>
    refine hR.after (.fetch _) fun state => ?_
    cases state with
    | START | BIND | LISTEN => exact hR.andThen (htimer rfl 0) fun e => .ite (hR.one rfl) hR.nil
    | CLOSE | UNBIND | END | ERROR => exact hR.nil
  | setopt opt =>
    refine hR.stop (hR.stays (.store fun r => ?_))
    cases opt with
    | PACKET packet udp => cases packet <;> exact .of_eq rfl rfl rfl rfl rfl rfl rfl rfl
    | _ => exact .of_eq rfl rfl rfl rfl rfl rfl rfl rfl
  | setTimeout ms => exact hR.stop (htimer rfl ms)
  | cancelTimeout id =>
    exact hR.after (.fetch _) fun _ => .ite (hR.stop fun s => hR.cancel s.router id) .stuck
  | ready => exact hR.after (.fetch _) fun _ => .ite (hR.one rfl) (hR.one rfl)
  | unready err => exact .ite (hR.one rfl) (hR.one rfl)
  | error eval msg => exact hR.one rfl
  | watch fd events =>
    refine .ite (.ite (hR.stop (hR.stays (.store fun _ => ?_))) ?_) hR.nil
    · exact .of_eq rfl rfl rfl rfl rfl rfl rfl rfl
    · refine hR.after (.store fun _ => .of_eq rfl rfl rfl rfl rfl rfl rfl rfl) fun _ => ?_
      exact hR.after (.fetch _) fun _ => .ite (hR.stop (htimer rfl 0)) hR.nil

/-- **The calls**, but for those that begin to resolve and that end it, when what is in
the map is as it should be. -/
theorem api (hR : Frame ok R) {api : Api} (hopen : api ≠ .openConnection)
    (hresolve : ∀ key src err emsg, api ≠ .resolve key src err emsg) :
    Plain (fun r r' => Maps ok r → R r r') api.run := by
  by_cases hseg : ∃ src len buf, api = .seg src len buf
  · obtain ⟨src, len, buf, rfl⟩ := hseg
    exact Prog.Leaves.last (hR.tripSeg src len buf) fun _ hu => absurd hu List.not_mem_nil
  · refine (hR.api_plain hopen hresolve ?_).when _
    rintro src len buf rfl
    exact hseg ⟨src, len, buf, rfl⟩

end Frame

/-- The callbacks that begin to resolve or end it, and the one that arms its own timer
again. -/
def Callback.resolves : Callback → Bool
  | .tripOpenConnectionAsync _ | .tripcTimeoutStateResolve _ | .tripcTimeoutStateResend _ => true
  | _ => false

/-- The connection that a task is a callback of. -/
def Task.conn? : Task → Option Ptr
  | .callback cb => cb.conn?
  | _ => none

/-- A task that is neither such a callback, nor the walk of the timers, nor sends. -/
def Task.framed : Task → Bool
  | .resend | .send _ _ _ | .sendNext _ | .pack _ _ _ | .packed _ _ _ | .listenOut _
  | .walk _ => false
  | .callback cb => !cb.resolves
  | _ => true

namespace Frame

variable {ok : Router → Ptr → Prop} {R : Router → Router → Prop}

/-- What a callback is given is as it should be. -/
theorem tripCallback (hR : Frame ok R) {cb : Callback} (hcb : cb.resolves = false) :
    Plain (fun r r' => (∀ c ∈ cb.conn?, ok r c) → R r r') (Libtrp.tripCallback cb) := by
  have hstop : ∀ {c : Ptr} {m : TripM Unit}, c ∈ cb.conn? → FramedOn ok R c m →
      Plain (fun r r' => (∀ c ∈ cb.conn?, ok r c) → R r r') (m >>= fun _ => pure []) :=
    fun hc hm => Prog.Leaves.last (fun s hs => hm s (hs _ hc)) fun _ hu =>
      absurd hu List.not_mem_nil
  have hmono : ∀ {m : TripM (List Task)}, Plain R m →
      Plain (fun r r' => (∀ c ∈ cb.conn?, ok r c) → R r r') m := fun hm => hm.when _
  cases cb with
  | tripOpenConnectionAsync | tripcTimeoutStateResolve | tripcTimeoutStateResend =>
    exact absurd hcb (Bool.false_ne_true ∘ Eq.symm)
  | tripSendImmediately => exact hmono (hR.two rfl rfl)
  | tripTimeoutRouter =>
    refine hmono (hR.after (.store fun _ => .of_eq rfl rfl rfl rfl rfl rfl rfl rfl) fun _ => ?_)
    exact hR.after (.fetch _) fun _ => .ite hR.nil (hR.one rfl)
  | tripStopAsync => exact hmono (hR.one rfl)
  | tripResolveDelaySuccess c => exact hstop rfl (hR.tripcSetState (by decide))
  | tripResolveDelayFailure c => exact hmono (hR.tripCloseConnection c)
  | tripcTimeoutStateReadyPing c => exact hstop rfl (hR.tripcSetState (by decide))
  | user => exact hmono (hR.one rfl)

/-- The tasks, but for callbacks, the walk and those that send. -/
theorem task_plain (hR : Frame ok R) {t : Task} (h : t.framed = true)
    (hcb : ∀ cb, t ≠ .callback cb) (code : Errno) : Plain R (t.run code) := by
  cases t with
  | resend | send | sendNext | pack | packed | listenOut | walk =>
    exact absurd h Bool.false_ne_true
  | callback cb => exact absurd rfl (hcb cb)
  | bind | unbind | resolve | connection | reject | user => exact hR.nil
  | read fd events => exact .ite (hR.callPacket (hR.one rfl)) (.ite (hR.one rfl) (hR.one rfl))
  | setState state => exact hR.tripSetState state
  | setError eval msg => exact hR.tripSetError eval msg
  | unbindArm =>
    refine hR.after (.fetch _) fun ms => hR.after (.tripSetDeadline ms) fun _ => ?_
    exact hR.stop (hR.stays (.tripArmState ms))
  | action events => exact hR.after (.fetch _) fun _ => .ite hR.nil (hR.tripActionSwitch _ events)
  | listen fd events => exact .ite (hR.callPacket (hR.one rfl)) (hR.one rfl)
  | closeDeadline => exact hR.tripActionDeadline .UNBIND
  | sendImmediately =>
    exact hR.after (.fetch _) fun _ => .ite (hR.stop (hR.stays (.timer rfl 1))) hR.nil
  | closeConnection c =>
    refine hR.after (.getConn c) fun x => hR.after (.store fun r => ?_) fun _ => ?_
    · exact .of_heap (.refl _) rfl rfl rfl rfl (.del _ _ _) rfl
    · exact hR.andThen hR.tripcDestroy fun _ => hR.stop (hR.stays .tripFreeConnection)
  | freeConnection c => exact hR.stop (hR.stays .tripFreeConnection)

/-- **The tasks**, but for such callbacks, the walk and those that send. -/
theorem task (hR : Frame ok R) {t : Task} (h : t.framed = true) (code : Errno) :
    Plain (fun r r' => (∀ c ∈ t.conn?, ok r c) → R r r') (t.run code) := by
  by_cases hcb : ∃ cb, t = .callback cb
  · obtain ⟨cb, rfl⟩ := hcb
    exact hR.tripCallback (by simpa [Task.framed] using h)
  · refine (hR.task_plain h ?_ code).when _
    rintro cb rfl
    exact hcb ⟨cb, rfl⟩

end Frame

end Libtrp
