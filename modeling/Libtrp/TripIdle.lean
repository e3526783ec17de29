import Libtrp.TripTurn

/-!
# What asks for packets to be sent

A connection that has something to send is put into the send queue by
`_trip_qconnection`, which sets a timer for `_trip_send_immediately_cb` then.  Few
programs come there: the ones that enter `OPEN` or `PING`, that resend, and that read
what a peer has sent.  The others set no such timer, and this is said once here, with
what no program ever does: no connection's limits are written after `_tripc_init`, and
no timer has an address that was not allocated.

## Main definitions

* `Connection.limits` — what `_tripc_init` writes and nothing else does.
* `Router.SendFree` — no timer is set for `_trip_send_immediately_cb`.
* `Idle q r r'` — what a program may do that may ask for sending when `q` is true.

## Main results

* `Defers.task`, `Defers.api` — what the tasks and the calls may do.
* `tripTimeoutWalk_idle` — the walk of the timers asks for nothing.
* `Config.step_idle` — what every step keeps.

## References

`src/trip.c` (`_trip_qconnection`), `src/conn.c` (`_tripc_set_send`, `_tripc_init`).
-/

namespace Libtrp

open Lib

/-! ### Limits -/

/-- What a connection's resends and their deadlines are reckoned from. -/
structure Limits where
  maxstatems : ℤ
  statems : ℤ
  pingmaxms : ℤ
  pingms : ℤ
  deriving DecidableEq, Repr

/-- The limits of a connection. -/
def Connection.limits (x : Connection) : Limits :=
  ⟨x.maxstatems, x.statems, x.ping.maxms, x.ping.ms⟩

/-- What `_tripc_init` leaves: nothing is assigned to the fields of `ping`. -/
def tripcLimits : Limits := ⟨3000, 100, 0, 0⟩

theorem limits_tripcInit (incoming : Bool) (maxStreams : UInt32) :
    (tripcInit incoming maxStreams).limits = tripcLimits := rfl

/-- A write that leaves the limits alone or makes them those of a new connection. -/
def Connection.KeepsLimits (f : Connection → Connection) : Prop :=
  ∀ x, (f x).limits = x.limits ∨ (f x).limits = tripcLimits

/-- Every connection has the limits it had, or those of a new one; a new one has these. -/
structure ConnHeap.Limited (h h' : ConnHeap) : Prop where
  kept : ∀ c, (h'.conn c).limits = (h.conn c).limits ∨ (h'.conn c).limits = tripcLimits
  made : ∀ c, h.brk ≤ c → c < h'.brk → (h'.conn c).limits = tripcLimits

namespace ConnHeap.Limited

variable {h h' h'' : ConnHeap}

/-- No connection is new. -/
theorem of_brk (hb : h'.brk = h.brk)
    (hk : ∀ c, (h'.conn c).limits = (h.conn c).limits ∨ (h'.conn c).limits = tripcLimits) :
    Limited h h' :=
  ⟨hk, fun _ hc hc' => absurd (hb ▸ hc') (Nat.not_lt.mpr hc)⟩

theorem refl (h : ConnHeap) : Limited h h := of_brk rfl fun _ => Or.inl rfl

theorem trans (hh : Limited h h') (hh' : Limited h' h'') : Limited h h'' := by
  constructor
  · intro c
    rcases hh'.kept c with heq | hnew
    · rw [heq]
      exact hh.kept c
    · exact Or.inr hnew
  · intro c hc hc''
    rcases Nat.lt_or_ge c h'.brk with hc' | hc'
    · -- it was new in between
      rcases hh'.kept c with heq | hnew
      · rw [heq]
        exact hh.made c hc hc'
      · exact hnew
    · exact hh'.made c hc' hc''

theorem set (h : ConnHeap) (c : Ptr) {f : Connection → Connection}
    (hf : Connection.KeepsLimits f) : Limited h (h.set c f) := by
  refine of_brk rfl fun d => ?_
  rcases eq_or_ne d c with rfl | hdc
  · rw [conn_set_self]
    exact hf _
  · rw [conn_set_of_ne h hdc]
    exact Or.inl rfl

theorem sendq : SendqWrites Limited :=
  ⟨refl, trans, fun h c _ => set h c fun _ => Or.inl rfl, fun h c _ => set h c fun _ => Or.inl rfl⟩

theorem add (m : Connmap) (h : ConnHeap) (c : Ptr) (alloc : Bool) (r₁ r₂ : UInt32) :
    Limited h (connmapAdd m h c alloc r₁ r₂).2.2 := by
  obtain heq | ⟨id, heq⟩ := connmapAdd_heap m h c alloc r₁ r₂
  · rw [heq]
    exact refl h
  · rw [heq]
    exact set h c fun _ => Or.inl rfl

end ConnHeap.Limited

/-! ### Timers -/

/-- No timer is set for `_trip_send_immediately_cb`. -/
def Router.SendFree (r : Router) : Prop :=
  ∀ e ∈ r.timers.wheel.entries, e.cb ≠ some .tripSendImmediately

/-- Every timer has an address that was allocated. -/
def Router.Bounded (r : Router) : Prop :=
  ∀ e ∈ r.timers.wheel.entries, e.id < r.timers.wheel.brk

instance (r : Router) : Decidable r.SendFree := inferInstanceAs (Decidable (∀ e ∈ _, _))

/-- **What a program may do to the router**; when `q` is true it may ask for sending. -/
structure Idle (q : Bool) (r r' : Router) : Prop where
  sends : q = false → r.SendFree → r'.SendFree
  bounded : r.Bounded → r'.Bounded
  limited : r.heap.Limited r'.heap

namespace Idle

variable {q : Bool} {r r' r'' : Router}

theorem refl (r : Router) : Idle q r r := ⟨fun _ h => h, id, .refl _⟩

theorem trans (h : Idle q r r') (h' : Idle q r' r'') : Idle q r r'' :=
  ⟨fun hq hs => h'.sends hq (h.sends hq hs), h'.bounded ∘ h.bounded, h.limited.trans h'.limited⟩

/-- A program that asks for nothing is one that may. -/
theorem mono (h : Idle false r r') : Idle q r r' := ⟨fun _ => h.sends rfl, h.bounded, h.limited⟩

/-- A write that leaves the timers alone. -/
theorem of_heap (hw : r'.timers = r.timers) (hh : r.heap.Limited r'.heap) : Idle q r r' := by
  refine ⟨fun _ hs => ?_, fun hb => ?_, hh⟩
  · unfold Router.SendFree
    rwa [hw]
  · unfold Router.Bounded
    rwa [hw]

theorem setConn (r : Router) (c : Ptr) {f : Connection → Connection}
    (hf : Connection.KeepsLimits f) : Idle q r (r.setConn c f) := of_heap rfl (.set _ c hf)

/-- A new connection. -/
theorem made (r : Router) (incoming : Bool) :
    Idle q r (r.allocConn.setConn r.heap.brk fun _ => tripcInit incoming r.maxStreams) := by
  have hself : ((r.allocConn.setConn r.heap.brk fun _ =>
      tripcInit incoming r.maxStreams).heap.conn r.heap.brk).limits = tripcLimits := by
    rw [Router.setConn, ConnHeap.conn_set_self]
    exact limits_tripcInit incoming r.maxStreams
  refine of_heap rfl ⟨fun c => ?_, fun c hc hc' => ?_⟩
  · rcases eq_or_ne c r.heap.brk with rfl | hne
    · exact Or.inr hself
    · exact Or.inl (by rw [Router.setConn, ConnHeap.conn_set_of_ne _ hne]; rfl)
  · have hbrk : c < r.heap.brk + 1 := hc'
    obtain rfl : c = r.heap.brk := Nat.le_antisymm (Nat.le_of_lt_succ hbrk) hc
    exact hself

theorem timer (r : Router) (alloc : Bool) (now now' : ℕ) (ms : ℤ) {cb : Callback}
    (hcb : q = false → cb ≠ .tripSendImmediately) :
    Idle q r (r.setTimers (tripSetTimeout alloc now now' ms (some cb) r.timers).2) := by
  cases alloc with
  | false => exact of_heap rfl (.refl _)
  | true =>
    rw [tripSetTimeout_true]
    refine ⟨fun hq hs e he => ?_, fun hb e he => ?_, .refl _⟩
    · rcases List.mem_cons.mp he with rfl | he
      · exact fun h => hcb hq (Option.some.inj h)
      · exact hs e he
    · rcases List.mem_cons.mp he with rfl | he
      · exact Nat.lt_succ_self _
      · exact Nat.lt_succ_of_lt (hb e he)

theorem cancel (r : Router) (id : Ptr) :
    Idle q r (r.setTimers (tripCancelTimeout id r.timers)) := by
  refine ⟨fun _ hs e he => ?_, fun hb e he => ?_, .refl _⟩
  · obtain ⟨te, hte, rfl⟩ := List.mem_map.mp he
    rw [TimerEntry.cb_cancel]
    exact hs te hte
  · obtain ⟨te, hte, rfl⟩ := List.mem_map.mp he
    rw [TimerEntry.id_cancel]
    exact hb te hte

end Idle

/-! ### Programs -/

/-- A program that may do so. -/
def Idling (q : Bool) {α : Type} (m : TripM α) : Prop :=
  Prog.Does (fun s t => Idle q s.router t.router) m

namespace Idling

variable {q : Bool} {α β : Type} {c : Ptr}

@[simp] theorem pure (a : α) : Idling q (Pure.pure a : TripM α) := fun s => .refl s.router

@[simp] theorem stuck : Idling q (Prog.stuck : TripM α) := fun s => .refl s.router

@[simp] theorem bind {m : TripM α} {f : α → TripM β} (hm : Idling q m) (hf : ∀ a, Idling q (f a)) :
    Idling q (m >>= f) := Prog.Does.bind (fun _ _ _ h h' => h.trans h') hm hf

@[simp] theorem ite {p : Prop} [Decidable p] {m n : TripM α} (hm : Idling q m) (hn : Idling q n) :
    Idling q (if p then m else n) := Prog.Does.ite hm hn

theorem mono {m : TripM α} (hm : Idling false m) : Idling q m := fun s => (hm s).mono

/-- What it leaves when it is run to its end. -/
theorem exec {m : TripM α} {s t : Env} {a : α} (hm : Idling q m) (h : m.exec s = (some a, t)) :
    Idle q s.router t.router := by
  have hs := hm s
  rwa [h] at hs

@[simp] theorem fetch (f : Router → α) : Idling q (Libtrp.fetch f) := fun s => .refl s.router

@[simp] theorem consult (f : Oracle → α) : Idling q (Libtrp.consult f) := fun s => .refl s.router

@[simp] theorem mark (m : Mark) : Idling q (Libtrp.mark m) := fun s => .refl s.router

@[simp] theorem sizeSubM (a b : ℕ) : Idling q (Libtrp.sizeSubM a b) := fun s => .refl s.router

@[simp] theorem getConn (c : Ptr) : Idling q (Libtrp.getConn c) := fetch _

@[simp] theorem tripmAlloc : Idling q Libtrp.tripmAlloc := fun s => .refl s.router

@[simp] theorem triptimeNow : Idling q Libtrp.triptimeNow := fun s => .refl s.router

@[simp] theorem randombytesBuf : Idling q Libtrp.randombytesBuf := fun s => .refl s.router

theorem store {f : Router → Router} (hf : ∀ r, Idle q r (f r)) : Idling q (Libtrp.store f) :=
  fun s => hf s.router

/-- A write that leaves the timers and the connections alone. -/
theorem store_of {f : Router → Router} (hw : ∀ r, (f r).timers = r.timers)
    (hh : ∀ r, (f r).heap = r.heap) : Idling q (Libtrp.store f) :=
  store fun r => .of_heap (hw r) (hh r ▸ .refl _)

theorem setConn {f : Connection → Connection} (hf : Connection.KeepsLimits f) :
    Idling q (Libtrp.setConn c f) := store fun r => .setConn r c hf

/-- A write that leaves the limits alone. -/
theorem setConn_of {f : Connection → Connection} (hf : ∀ x, (f x).limits = x.limits) :
    Idling q (Libtrp.setConn c f) := setConn fun x => Or.inl (hf x)

theorem timer {cb : Callback} (hcb : q = false → cb ≠ .tripSendImmediately) (ms : ℤ) :
    Idling q (tripSetTimeoutM ms cb) := by
  intro s
  obtain ⟨now, now', t, hexec, ht⟩ := exec_tripSetTimeoutM ms cb s
  rw [hexec, ht]
  exact .timer _ _ now now' ms hcb

/-! #### Connections -/

theorem tripUnqconnection : Idling q (Libtrp.tripUnqconnection c) :=
  store fun r => .of_heap rfl (ConnHeap.Limited.sendq.del r.sendq r.heap c)

/-- What puts a connection into the send queue asks for sending. -/
theorem tripQconnection : Idling true (Libtrp.tripQconnection c) := by
  refine bind (store fun r => ?_) fun _ => bind (fetch _) fun flag => ?_
  · exact .of_heap rfl (ConnHeap.Limited.sendq.nq r.sendq r.heap c)
  exact ite (bind (timer (by simp) 0) fun _ => pure ()) (pure ())

theorem tripcSetSend : Idling true (Libtrp.tripcSetSend c) :=
  bind tripQconnection fun _ => setConn_of fun _ => rfl

theorem tripcMkKeys : Idling q (Libtrp.tripcMkKeys c) := by
  refine bind (getConn c) fun x => ite ?_ (pure ())
  refine bind (ite (pure _) tripmAlloc) fun pk => bind (ite (pure _) tripmAlloc) fun sk => ite ?_ ?_
  · exact bind randombytesBuf fun _ => bind randombytesBuf fun _ => setConn_of fun _ => rfl
  · exact setConn_of fun _ => rfl

theorem tripcGeneratePing : Idling q (Libtrp.tripcGeneratePing c) :=
  bind randombytesBuf fun _ => bind triptimeNow fun _ => setConn_of fun _ => rfl

theorem tripcSetDeadline (ms : ℤ) : Idling q (Libtrp.tripcSetDeadline c ms) :=
  bind triptimeNow fun _ => setConn_of fun _ => rfl

theorem tripcSetGrowth (ms : ℤ) : Idling q (Libtrp.tripcSetGrowth c ms) :=
  setConn_of fun _ => rfl

theorem tripcGetGrowth : Idling q (Libtrp.tripcGetGrowth c) :=
  bind (getConn c) fun _ => bind (setConn_of fun _ => rfl) fun _ => pure _

theorem tripcSetTimeout (ms : ℤ) {cb : Ptr → Callback} (hcb : cb c ≠ .tripSendImmediately) :
    Idling q (Libtrp.tripcSetTimeout c ms cb) :=
  bind (timer (fun _ => hcb) ms) fun _ => setConn_of fun _ => rfl

theorem tripCancelTimeoutM (id : Ptr) : Idling q (Libtrp.tripCancelTimeoutM id) :=
  store fun r => .cancel r id

theorem tripcCancelTimeout : Idling q (Libtrp.tripcCancelTimeout c) := by
  refine bind (getConn c) fun x => ?_
  split
  · exact bind (tripCancelTimeoutM _) fun _ => setConn_of fun _ => rfl
  · exact pure ()

theorem tripcSeq : Idling q (Libtrp.tripcSeq c) :=
  bind (getConn c) fun _ => bind (setConn_of fun _ => rfl) fun _ => pure _

theorem tripcLeave (state : TripcState) : Idling q (Libtrp.tripcLeave c state) := by
  cases state <;> first | exact pure () | exact tripcCancelTimeout

/-- Entering `OPEN` or `PING` asks for sending. -/
theorem tripcEnter (state : TripcState) : Idling true (Libtrp.tripcEnter c state) := by
  cases state with
  | RESOLVE => exact bind (getConn c) fun x => tripcSetTimeout _ (by simp)
  | OPEN =>
    refine bind tripcMkKeys fun _ => bind (getConn c) fun x => bind (tripcSetDeadline _) fun _ => ?_
    refine bind (tripcSetGrowth _) fun _ => bind tripcSetSend fun _ => ?_
    exact bind tripcGetGrowth fun ms => tripcSetTimeout ms (by simp)
  | CHAL => exact tripcMkKeys
  | PING =>
    refine bind tripcGeneratePing fun _ => bind (getConn c) fun x => ?_
    refine bind (tripcSetDeadline _) fun _ => ?_
    refine bind (tripcSetGrowth _) fun _ => bind tripcGetGrowth fun ms => ?_
    exact bind (tripcSetTimeout ms (by simp)) fun _ => tripcSetSend
  | READY =>
    exact bind (getConn c) fun x => bind (tripcSetDeadline _) fun _ => tripcSetTimeout _ (by simp)
  | CLOSE =>
    exact bind (getConn c) fun x => bind (tripcSetDeadline _) fun _ => tripcSetTimeout _ (by simp)
  | START | READY_PING | END | ERROR => exact pure ()

/-- Entering another state does not. -/
theorem tripcEnter_idle {state : TripcState} (hopen : state ≠ .OPEN) (hping : state ≠ .PING) :
    Idling false (Libtrp.tripcEnter c state) := by
  cases state with
  | OPEN => exact absurd rfl hopen
  | PING => exact absurd rfl hping
  | RESOLVE => exact bind (getConn c) fun x => tripcSetTimeout _ (by simp)
  | CHAL => exact tripcMkKeys
  | READY =>
    exact bind (getConn c) fun x => bind (tripcSetDeadline _) fun _ => tripcSetTimeout _ (by simp)
  | CLOSE =>
    exact bind (getConn c) fun x => bind (tripcSetDeadline _) fun _ => tripcSetTimeout _ (by simp)
  | START | READY_PING | END | ERROR => exact pure ()

theorem tripcSetState (state : TripcState) : Idling true (Libtrp.tripcSetState c state) :=
  bind (tripcLeave state) fun _ => bind (setConn_of fun _ => rfl) fun _ => tripcEnter state

theorem tripcSetState_idle {state : TripcState} (hopen : state ≠ .OPEN) (hping : state ≠ .PING) :
    Idling false (Libtrp.tripcSetState c state) :=
  bind (tripcLeave state) fun _ => bind (setConn_of fun _ => rfl) fun _ =>
    tripcEnter_idle hopen hping

theorem tripcSetError (eval : Errno) (msg : Option String) :
    Idling q (Libtrp.tripcSetError c eval msg) := by
  refine bind (getConn c) fun x => ite (bind tripmAlloc fun alloc => ?_) (pure ())
  refine bind (setConn_of fun _ => rfl) fun _ => ?_
  exact mono (tripcSetState_idle (by simp) (by simp))

theorem tripcStart : Idling q (Libtrp.tripcStart c) := by
  refine bind (getConn c) fun x => ite (tripcSetError _ _) (mono ?_)
  split <;> exact tripcSetState_idle (by simp) (by simp)

theorem tripcTimeoutStateResolve : Idling q (Libtrp.tripcTimeoutStateResolve c) := by
  refine bind (getConn c) fun x => bind (fetch _) fun rq => ?_
  split
  · exact stuck
  · refine bind (store_of (fun _ => rfl) fun _ => rfl) fun _ => ?_
    exact bind (setConn_of fun _ => rfl) fun _ => tripcSetError _ _

theorem tripcTimeoutStateResend : Idling true (Libtrp.tripcTimeoutStateResend c) := by
  refine bind triptimeNow fun now => bind (getConn c) fun x => ite ?_ ?_
  · exact bind (tripcSetError _ _) fun _ => pure true
  · refine bind tripcSetSend fun _ => bind tripcGetGrowth fun ms => ?_
    exact bind (tripcSetTimeout ms (by simp)) fun _ => pure false

theorem tripResolvePopped (src : ℤ) (err : Errno) (emsg : Option String) :
    Idling q (Libtrp.tripResolvePopped c src err emsg) := by
  refine bind tripcCancelTimeout fun _ => bind (setConn_of fun _ => rfl) fun _ => ite ?_ ?_
  · exact bind (timer (by simp) 0) fun _ => pure ()
  · exact bind (tripcSetError _ _) fun _ => bind (timer (by simp) 0) fun _ => pure ()

theorem tripcParseInfo (fmt : List PackDir) (len : ℕ) (buf : Buf) :
    Idling q (Libtrp.tripcParseInfo fmt c len buf) := by
  unfold Libtrp.tripcParseInfo
  dsimp only
  refine ite (pure _) ?_
  split
  · refine bind (setConn_of fun _ => rfl) fun _ => ite (pure _) ?_
    refine bind tripmAlloc fun a => bind tripmAlloc fun b => ite ?_ stuck
    exact bind (setConn_of fun _ => rfl) fun _ => pure _
  · exact stuck

theorem tripcParsePing (len : ℕ) (buf : Buf) (pre : TripPrefix) :
    Idling q (Libtrp.tripcParsePing c len buf pre) := by
  refine bind (getConn c) fun x => ite (bind (setConn_of fun _ => rfl) fun _ => ?_) (pure _)
  split
  · exact stuck
  · exact bind randombytesBuf fun nonce => bind (setConn_of fun _ => rfl) fun _ => pure _

theorem tripcParsed {parse : TripM Errno} {next : TripM Unit} (hp : Idling q parse)
    (hn : Idling q next) : Idling q (Libtrp.tripcParsed parse next) :=
  bind hp fun _ => ite (pure _) (bind hn fun _ => pure _)

theorem tripcReadSwitch (pre : TripPrefix) (len : ℕ) (buf : Buf) (state : TripcState) :
    Idling true (Libtrp.tripcReadSwitch c pre len buf state) := by
  cases state with
  | START | ERROR | END => exact pure _
  | OPEN => exact tripcParsed (tripcParseInfo _ _ _) (tripcSetState _)
  | CHAL =>
    refine ite (tripcParsed (pure _) (tripcSetState _)) (ite ?_ (ite ?_ (pure _)))
    · exact tripcParsed (tripcParseInfo _ _ _) tripcSetSend
    · exact tripcParsed (tripcParsePing _ _ _) tripcSetSend
  | PING | READY | READY_PING =>
    refine ite (tripcParsed (pure _) (pure ())) (ite ?_ (ite ?_ (pure _)))
    · exact tripcParsed (tripcParsePing _ _ _) (tripcSetState _)
    · exact tripcParsed (pure _) (tripcSetState _)
  | CLOSE =>
    refine ite (tripcParsed (pure _) (pure ())) (ite ?_ (ite ?_ (pure _)))
    · exact tripcParsed (tripcParsePing _ _ _) (tripcSetState _)
    · exact tripcParsed (pure _) (pure ())
  | RESOLVE => exact bind (tripcSetError _ _) fun _ => pure _

theorem tripcRead (pre : TripPrefix) (len : ℕ) (buf : Buf) :
    Idling true (Libtrp.tripcRead c pre len buf) := by
  refine bind (getConn c) fun x => bind (tripcReadSwitch _ _ _ _) fun code => ?_
  split
  · exact pure _
  · exact bind (getConn c) fun _ => pure _

theorem tripPackM (blen : ℕ) (fmt : List PackDir) (as : List PackArg) :
    Idling q (Libtrp.tripPackM blen fmt as) := by
  refine bind (consult _) fun sign => bind (fetch _) fun buf => ?_
  split
  · exact bind (store_of (fun _ => rfl) fun _ => rfl) fun _ => pure _
  · exact stuck

theorem tripcSendPing (blen : ℕ) : Idling q (Libtrp.tripcSendPing c blen) := by
  refine bind (getConn c) fun x => ite ?_ (pure _)
  refine bind tripcSeq fun seq => bind (setConn_of fun _ => rfl) fun _ => ?_
  split
  · exact stuck
  · exact bind randombytesBuf fun nonce => bind (setConn_of fun _ => rfl) fun _ => tripPackM _ _ _

theorem tripcSendOnce {send : TripM ℕ} (hsend : Idling q send) :
    Idling q (Libtrp.tripcSendOnce c send) :=
  bind (getConn c) fun _ => ite (bind hsend fun _ => bind (setConn_of fun _ => rfl) fun _ => pure _)
    (pure _)

/-- What sends asks for nothing. -/
theorem tripcSend (len : ℕ) : Idling q (Libtrp.tripcSend c len) := by
  refine bind (getConn c) fun x => ?_
  split
  · exact bind (tripcSetError _ _) fun _ => pure _
  · exact pure _
  · exact tripcSendOnce (bind tripcSeq fun _ => bind (getConn c) fun _ => tripPackM _ _ _)
  · exact tripcSendOnce (bind tripcSeq fun _ => bind (getConn c) fun _ => tripPackM _ _ _)
  · exact tripcSendPing _
  · exact tripcSendPing _
  · exact pure _
  · exact pure _
  · exact pure _
  · exact bind (tripcSetError _ _) fun _ => pure _

theorem tripcDestroy : Idling q (Libtrp.tripcDestroy c) := by
  refine bind (setConn_of fun _ => rfl) fun _ => bind tripcCancelTimeout fun _ => ?_
  exact bind tripUnqconnection fun _ => setConn_of fun _ => rfl

/-! #### Making and ending connections -/

/-- A connection that is made is initialised at once. -/
theorem exec_made (incoming : Bool) (m : TripM α) (rest : Ptr → UInt32 → TripM α) (s : Env) :
    Prog.exec (do
      let c ← Libtrp.tripNewConnection
      match c with
      | none => m
      | some c => do
        let max ← Libtrp.fetch Router.maxStreams
        Libtrp.setConn c fun _ => tripcInit incoming max
        rest c max) s =
      if s.oracle.alloc.head then
        (rest s.router.heap.brk s.router.maxStreams).exec (s.popAlloc.setRouter
          (s.router.allocConn.setConn s.router.heap.brk fun _ =>
            tripcInit incoming s.router.maxStreams))
      else m.exec s.popAlloc := by
  rw [exec_tripNewConnection_bind]
  cases s.oracle.alloc.head with
  | false => rfl
  | true =>
    rw [if_pos rfl, if_pos rfl]
    dsimp only
    rw [Prog.exec_bind_of (exec_fetch _ _), Prog.exec_bind_of (exec_setConn _ _ _)]
    rfl

theorem tripNewConnection (incoming : Bool) {m : TripM α} {rest : Ptr → UInt32 → TripM α}
    (hm : Idling q m) (hrest : ∀ c max, Idling q (rest c max)) :
    Idling q (do
      let c ← Libtrp.tripNewConnection
      match c with
      | none => m
      | some c => do
        let max ← Libtrp.fetch Router.maxStreams
        Libtrp.setConn c fun _ => tripcInit incoming max
        rest c max) := by
  intro s
  rw [exec_made]
  split
  · have hidle := hrest s.router.heap.brk s.router.maxStreams (s.popAlloc.setRouter
      (s.router.allocConn.setConn s.router.heap.brk fun _ =>
        tripcInit incoming s.router.maxStreams))
    exact (Idle.made s.router incoming).trans hidle
  · exact hm s.popAlloc

theorem tripFreeConnection : Idling q (Libtrp.tripFreeConnection c) :=
  store fun _ => .of_heap rfl (.of_brk rfl fun _ => Or.inl rfl)

theorem connmapAddM : Idling q (Libtrp.connmapAddM c) := by
  intro s
  rw [exec_connmapAddM]
  exact .of_heap rfl (.add _ _ _ _ _ _)

theorem tripResolveqPut : Idling q (Libtrp.tripResolveqPut c) := by
  refine bind tripmAlloc fun alloc => bind ?_ fun key => setConn_of fun _ => rfl
  exact fun s => .of_heap rfl (.refl _)

theorem tripResolve (key src : ℤ) (err : Errno) (emsg : Option String) :
    Idling q (Libtrp.tripResolve key src err emsg) := by
  refine bind (fetch _) fun rq => ?_
  split
  · exact stuck
  · refine bind (store_of (fun _ => rfl) fun _ => rfl) fun _ => ?_
    split
    · exact pure ()
    · exact tripResolvePopped _ _ _

/-! #### Segments -/

theorem tripSegmentInfo (src : ℤ) (len : ℕ) (buf : Buf) (en : ℕ) (pre : TripPrefix) :
    Idling true (Libtrp.tripSegmentInfo src len buf en pre c) := by
  refine bind (sizeSubM _ _) fun len => bind (sizeSubM _ _) fun rest => ?_
  refine bind (sizeSubM _ _) fun rest => bind (mark _) fun _ => ite (pure ()) ?_
  refine bind (sizeSubM _ _) fun rest => bind (mark _) fun _ => ?_
  refine bind (tripcRead _ _ _) fun code => ?_
  exact ite (pure ()) tripcSetSend

theorem tripSegmentCreate (src : ℤ) (len : ℕ) (buf : Buf) (en : ℕ) (pre : TripPrefix)
    (screen : TripScreen) : Idling true (Libtrp.tripSegmentCreate src len buf en pre screen) := by
  refine tripNewConnection true (pure ()) fun c max => ?_
  refine bind (setConn_of fun _ => rfl) fun _ => bind connmapAddM fun code => ite ?_ ?_
  · exact bind tripFreeConnection fun _ => pure ()
  · refine bind (setConn_of fun _ => rfl) fun _ => bind tripcStart fun _ => ?_
    exact tripSegmentInfo _ _ _ _ _

theorem tripSegmentOpen (src : ℤ) (len : ℕ) (buf : Buf) (en : ℕ) (pre : TripPrefix) :
    Idling true (Libtrp.tripSegmentOpen src len buf en pre) := by
  refine bind (fetch _) fun _ => bind (fetch _) fun _ => ite (pure ()) (ite (pure ()) ?_)
  refine bind (sizeSubM _ _) fun rest => bind (mark _) fun _ => ?_
  split
  · exact pure ()
  refine ite (pure ()) (bind (fetch _) fun c => ?_)
  match c with
  | none => exact stuck
  | some none =>
    refine bind (consult _) fun ask => bind (consult _) fun verify => bind (fetch _) fun plain => ?_
    exact ite (pure ()) (ite (pure ()) (tripSegmentCreate _ _ _ _ _ _))
  | some (some c) =>
    refine bind (getConn c) fun x => bind (consult _) fun verify => bind (fetch _) fun plain => ?_
    exact ite (pure ()) (setConn_of fun _ => rfl)

theorem tripSegmentComm (src : ℤ) (len : ℕ) (buf : Buf) (en : ℕ) (pre : TripPrefix) :
    Idling true (Libtrp.tripSegmentComm src len buf en pre) := by
  refine bind (fetch _) fun _ => ite (pure ()) (bind (fetch _) fun c => ?_)
  cases c with
  | none => exact pure ()
  | some c =>
    refine bind (getConn c) fun x => bind (consult _) fun verify => bind (fetch _) fun plain => ?_
    refine ite (pure ()) (bind (sizeSubM _ _) fun _ => bind (sizeSubM _ _) fun _ => ?_)
    exact bind (mark _) fun _ => bind (tripcRead _ _ _) fun code => ite (pure ()) (pure ())

/-- A segment may ask for sending. -/
theorem tripSeg (src : ℤ) (len : ℕ) (buf : Buf) : Idling true (Libtrp.tripSeg src len buf) := by
  refine bind (fetch _) fun state => ite (ite (pure ()) (ite (pure ()) ?_)) (pure ())
  refine bind (mark _) fun _ => ?_
  split
  · exact pure ()
  · exact ite (pure ()) (ite (tripSegmentOpen _ _ _ _ _) (tripSegmentComm _ _ _ _ _))

/-! #### The router -/

theorem tripTimeoutCancelState : Idling q Libtrp.tripTimeoutCancelState := by
  refine bind (fetch _) fun e => ?_
  cases e with
  | none => exact pure ()
  | some e => exact bind (tripCancelTimeoutM e) fun _ => store_of (fun _ => rfl) fun _ => rfl

theorem tripSetDeadline (ms : ℤ) : Idling q (Libtrp.tripSetDeadline ms) :=
  bind triptimeNow fun _ => store_of (fun _ => rfl) fun _ => rfl

theorem tripArmState (ms : ℤ) : Idling q (Libtrp.tripArmState ms) :=
  bind (timer (by simp) ms) fun _ => store_of (fun _ => rfl) fun _ => rfl

theorem tripClose (ms : ℤ) : Idling q (Libtrp.tripClose ms) := by
  refine store fun r => ?_
  dsimp only
  split
  · obtain ⟨live, hlive⟩ := foldl_freeConn (connmapIterate r.conn) r
    rw [hlive]
    exact .of_heap rfl (.of_brk rfl fun _ => Or.inl rfl)
  · exact .of_heap rfl (.refl _)

theorem tripLeaveState (state : TriprState) : Idling q (Libtrp.tripLeaveState state) := by
  cases state with
  | BIND | CLOSE | UNBIND => exact bind (tripSetDeadline 0) fun _ => tripTimeoutCancelState
  | START | LISTEN | END | ERROR => exact pure ()

theorem tripFillMissing : Idling q Libtrp.tripFillMissing := by
  refine bind (fetch _) fun packet => ite ?_ (fetch _)
  refine bind tripmAlloc fun alloc => bind (store fun r => ?_) fun _ => fetch _
  split <;> exact .of_heap rfl (.refl _)

end Idling

/-! ### Tasks and calls -/

/-- `_trip_send_immediately_cb`, or what is left of it. -/
def Task.immediate : Task → Bool
  | .callback .tripSendImmediately | .sendImmediately => true
  | _ => false

/-- A task that may ask for sending. -/
def Task.asks : Task → Bool
  | .callback (.tripResolveDelaySuccess _) | .callback (.tripcTimeoutStateResend _)
  | .callback (.tripcTimeoutStateReadyPing _) => true
  | _ => false

/-- A call that may: of a segment, or that makes the router always ready. -/
def Api.asks : Api → Bool
  | .seg _ _ _ | .watch _ _ => true
  | _ => false

/-- A program that may do so, and leaves no sending to do. -/
def Defers (q : Bool) (m : TripM (List Task)) : Prop :=
  Prog.Leaves (fun s t => Idle q s.router t.router) (fun ts => ∀ u ∈ ts, u.immediate = false) m

namespace Defers

variable {q : Bool} {α : Type}

theorem pure {ts : List Task} (h : ∀ u ∈ ts, u.immediate = false) : Defers q (Pure.pure ts) :=
  Prog.Leaves.pure (R := fun s t : Env => Idle q s.router t.router) (fun _ => .refl _) h

theorem nil : Defers q (Pure.pure []) := pure fun _ hu => absurd hu List.not_mem_nil

theorem one {t : Task} (h : t.immediate = false) : Defers q (Pure.pure [t]) :=
  pure fun _ hu => List.mem_singleton.mp hu ▸ h

theorem two {t u : Task} (ht : t.immediate = false) (hu : u.immediate = false) :
    Defers q (Pure.pure [t, u]) := by
  refine pure fun v hv => ?_
  simp only [List.mem_cons, List.not_mem_nil, or_false] at hv
  rcases hv with rfl | rfl
  · exact ht
  · exact hu

theorem stuck : Defers q Prog.stuck := Prog.Leaves.stuck

theorem bind {m : TripM α} {f : α → TripM (List Task)} (hm : Idling q m)
    (hf : ∀ a, Defers q (f a)) : Defers q (m >>= f) :=
  Prog.Leaves.bind (R := fun s t : Env => Idle q s.router t.router)
    (fun _ _ _ h h' => h.trans h') hm hf

theorem ite {p : Prop} [Decidable p] {m n : TripM (List Task)} (hm : Defers q m)
    (hn : Defers q n) : Defers q (if p then m else n) := Prog.Leaves.ite (fun _ => hm) fun _ => hn

/-- Nothing is left to do. -/
theorem stop {m : TripM α} (hm : Idling q m) : Defers q (m >>= fun _ => Pure.pure []) :=
  bind hm fun _ => nil

theorem callPacket {ts : List Task} (h : Defers q (Pure.pure ts)) :
    Defers q (Libtrp.callPacket ts) := bind (.fetch _) fun _ => ite h stuck

theorem tripSetState (state : TriprState) : Defers q (Libtrp.tripSetState state) := by
  refine bind (.fetch _) fun old => bind (.tripLeaveState old) fun _ => ?_
  refine bind (.store_of (fun _ => rfl) fun _ => rfl) fun _ => ?_
  generalize (if old = .ERROR then .ERROR else state) = next
  cases next with
  | START | END => exact nil
  | LISTEN => exact stop (.store_of (fun _ => rfl) fun _ => rfl)
  | BIND =>
    refine bind (.fetch _) fun ms => bind (.tripSetDeadline ms) fun _ => ?_
    exact bind (.tripArmState ms) fun _ => callPacket (one rfl)
  | CLOSE =>
    refine bind (.fetch _) fun ms => bind (.tripClose ms) fun _ => ?_
    exact bind (.tripSetDeadline ms) fun _ => stop (.tripArmState ms)
  | UNBIND => exact bind (.tripClose 0) fun _ => callPacket (two rfl rfl)
  | ERROR =>
    refine bind (.fetch _) fun packet => bind (.fetch _) fun statetimer => ?_
    cases packet with
    | none => exact stuck
    | some packet =>
      exact ite (bind (.fetch _) fun ms => bind (.tripArmState ms) fun _ => one rfl) nil

theorem tripSetError (eval : Errno) (msg : Option String) :
    Defers q (Libtrp.tripSetError eval msg) := by
  refine bind (.fetch _) fun state => ite (bind .tripmAlloc fun alloc => ?_) nil
  exact bind (.store_of (fun _ => rfl) fun _ => rfl) fun _ => one rfl

theorem tripTimeout : Defers q Libtrp.tripTimeout :=
  bind .triptimeNow fun _ => bind (.fetch _) fun _ => one rfl

theorem tripActionDeadline (next : TriprState) : Defers q (Libtrp.tripActionDeadline next) :=
  bind .triptimeNow fun _ => bind (.fetch _) fun _ => ite (one rfl) nil

theorem tripActionSwitch (fd : ℤ) (events : UInt32) :
    Defers q (Libtrp.tripActionSwitch fd events) := by
  refine bind (.fetch _) fun state => ?_
  cases state with
  | START =>
    refine ite (one rfl) (bind .tripFillMissing fun there => ite (one rfl) ?_)
    refine bind (.fetch _) fun hooks => ite (one rfl) ?_
    exact bind (.store_of (fun _ => rfl) fun _ => rfl) fun _ => one rfl
  | BIND =>
    refine ite (one rfl) (bind .triptimeNow fun _ => bind (.fetch _) fun _ => ?_)
    exact ite (one rfl) (stop (.tripArmState _))
  | LISTEN => exact one rfl
  | CLOSE => exact two rfl rfl
  | UNBIND => exact tripActionDeadline .END
  | END | ERROR => exact nil

theorem tripAction (fd : ℤ) (events : UInt32) : Defers q (Libtrp.tripAction fd events) := by
  refine ite ?_ (tripActionSwitch fd events)
  rintro s _ _ ⟨⟩
  exact ⟨.refl _, by simp [Task.immediate]⟩

theorem made (incoming : Bool) {m : TripM (List Task)} {rest : Ptr → UInt32 → TripM (List Task)}
    (hm : Defers q m) (hrest : ∀ c max, Defers q (rest c max)) :
    Defers q (do
      let c ← tripNewConnection
      match c with
      | none => m
      | some c => do
        let max ← fetch Router.maxStreams
        setConn c fun _ => tripcInit incoming max
        rest c max) := by
  intro s ts t h
  rw [Idling.exec_made] at h
  split at h
  · obtain ⟨hidle, hts⟩ := hrest _ _ _ ts t h
    exact ⟨(Idle.made s.router incoming).trans hidle, hts⟩
  · exact hm s.popAlloc ts t h

theorem tripSendLimit (sent : UInt32) : Defers q (Libtrp.tripSendLimit sent) :=
  bind (.fetch _) fun _ => ite nil (one rfl)

theorem tripOpenConnection : Defers q Libtrp.tripOpenConnection := by
  have hfail : ∀ (c : Ptr) (e : Errno), Defers q (do
      tripcSetError c e none
      return [.connection c, .freeConnection c]) :=
    fun c e => bind (.tripcSetError e none) fun _ => two rfl rfl
  refine bind (.fetch _) fun allow => ite ?_ (one rfl)
  refine made false (one rfl) fun c max => ?_
  refine bind .tripResolveqPut fun _ => bind .connmapAddM fun code => ite (hfail c _) ?_
  exact bind (.timer (by simp) 0) fun e => ite (hfail c _) nil

/-- **The calls**: they ask for sending only if they read a segment or make the router
always ready. -/
theorem api {api : Api} (h : q = false → api.asks = false) : Defers q api.run := by
  cases api with
  | start =>
    refine bind (.store fun r => ?_) fun _ => bind (.fetch _) fun _ => ite (tripAction _ 0) nil
    split <;> exact .of_heap rfl (.refl _)
  | action fd events => exact tripAction fd events
  | timeout => exact tripTimeout
  | stop =>
    refine bind (.fetch _) fun state => ?_
    cases state with
    | START | BIND | LISTEN => exact bind (.timer (by simp) 0) fun e => ite (one rfl) nil
    | CLOSE | UNBIND | END | ERROR => exact nil
  | openConnection => exact tripOpenConnection
  | setopt opt =>
    refine stop (.store fun r => ?_)
    cases opt with
    | PACKET packet udp => cases packet <;> exact .of_heap rfl (.refl _)
    | _ => exact .of_heap rfl (.refl _)
  | setTimeout ms => exact stop (.timer (by simp) ms)
  | cancelTimeout id =>
    exact bind (.fetch _) fun _ => ite (stop (.tripCancelTimeoutM id)) stuck
  | ready => exact bind (.fetch _) fun _ => ite (one rfl) (one rfl)
  | unready err => exact ite (one rfl) (one rfl)
  | error eval msg => exact one rfl
  | seg src len buf =>
    cases q with
    | true => exact stop (.tripSeg src len buf)
    | false => exact absurd (h rfl) (by simp [Api.asks])
  | resolve key src err emsg => exact stop (.tripResolve key src err emsg)
  | watch fd events =>
    cases q with
    | false => exact absurd (h rfl) (by simp [Api.asks])
    | true =>
      refine ite (ite (stop (.store_of (fun _ => rfl) fun _ => rfl)) ?_) nil
      refine bind (.store_of (fun _ => rfl) fun _ => rfl) fun _ => bind (.fetch _) fun _ => ?_
      exact ite (stop (.timer (by simp) 0)) nil

theorem tripCallback {cb : Callback} (hcb : (Task.callback cb).immediate = false)
    (h : q = false → (Task.callback cb).asks = false) : Defers q (Libtrp.tripCallback cb) := by
  have hask : ∀ {m : TripM (List Task)}, (Task.callback cb).asks = true → Defers true m →
      Defers q m := by
    intro m hasks hm
    cases q with
    | true => exact hm
    | false => exact absurd (h rfl) (by rw [hasks]; decide)
  cases cb with
  | tripSendImmediately => exact absurd hcb (by decide)
  | tripTimeoutRouter =>
    refine bind (.store_of (fun _ => rfl) fun _ => rfl) fun _ => ?_
    exact bind (.fetch _) fun _ => ite nil (one rfl)
  | tripStopAsync => exact one rfl
  | tripResolveDelaySuccess c => exact hask rfl (stop (.tripcSetState .OPEN))
  | tripResolveDelayFailure c => exact two rfl rfl
  | tripOpenConnectionAsync c =>
    exact bind .tripcStart fun _ => bind (.getConn c) fun x => callPacket (one rfl)
  | tripcTimeoutStateResolve c => exact bind .tripcTimeoutStateResolve fun _ => two rfl rfl
  | tripcTimeoutStateResend c =>
    exact hask rfl (bind .tripcTimeoutStateResend fun close => ite (two rfl rfl) nil)
  | tripcTimeoutStateReadyPing c => exact hask rfl (stop (.tripcSetState .PING))
  | user => exact one rfl

/-- **The tasks**, but for the walk of the timers and the sending itself: they ask for
sending only if they enter `OPEN` or `PING` or resend. -/
theorem task {t : Task} (ht : t.immediate = false) (hwalk : t.isWalk = false)
    (h : q = false → t.asks = false) (code : Errno) : Defers q (t.run code) := by
  cases t with
  | walk w => exact absurd hwalk (by simp [Task.isWalk])
  | sendImmediately => exact absurd ht (by decide)
  | callback cb => exact tripCallback ht h
  | bind | unbind | resolve | connection | reject | user => exact nil
  | read fd events => exact ite (callPacket (one rfl)) (ite (one rfl) (one rfl))
  | resend =>
    refine ite (ite (one rfl) (one rfl)) (bind (.store_of (fun _ => rfl) fun _ => rfl) fun _ => ?_)
    exact one rfl
  | send c connsent sent =>
    refine ite (ite ?_ (one rfl)) (bind (.store_of (fun _ => rfl) fun _ => rfl) fun _ => one rfl)
    exact bind (.getConn c) fun x => stop (.store_of (fun _ => rfl) fun _ => rfl)
  | setState state => exact tripSetState state
  | setError eval msg => exact tripSetError eval msg
  | unbindArm =>
    refine bind (.fetch _) fun ms => bind (.tripSetDeadline ms) fun _ => ?_
    exact stop (.tripArmState ms)
  | action events => exact bind (.fetch _) fun _ => ite nil (tripActionSwitch _ events)
  | listen fd events => exact ite (callPacket (one rfl)) (one rfl)
  | listenOut events =>
    exact ite (bind (.fetch _) fun _ => ite (callPacket (one rfl)) (one rfl)) nil
  | sendNext sent =>
    refine bind (fun s => .of_heap rfl (ConnHeap.Limited.sendq.dq _ _)) fun c => ?_
    cases c with
    | none => exact nil
    | some c => exact one rfl
  | pack c connsent sent =>
    refine bind (.fetch _) fun max => ite ?_ ?_
    · refine bind (.fetch _) fun buflen => bind (.tripcSend buflen) fun len => ?_
      exact bind (.store_of (fun _ => rfl) fun _ => rfl) fun _ => one rfl
    · refine bind (.store fun r => ?_) fun _ => tripSendLimit sent
      exact .of_heap rfl (ConnHeap.Limited.sendq.nq _ _ _)
  | packed c connsent sent =>
    refine bind (.fetch _) fun sendlen => ite ?_ (ite (callPacket (one rfl)) (tripSendLimit sent))
    exact bind (.store_of (fun _ => rfl) fun _ => rfl) fun _ => one rfl
  | closeDeadline => exact tripActionDeadline .UNBIND
  | closeConnection c =>
    refine bind (.getConn c) fun x => bind (.store_of (fun _ => rfl) fun _ => rfl) fun _ => ?_
    exact bind .tripcDestroy fun _ => stop .tripFreeConnection
  | freeConnection c => exact stop .tripFreeConnection

end Defers

/-! ### The walk of the timers -/

/-- A turn of the walk only takes timers out. -/
theorem Walk.mem_of_step {w w' : Walk Callback} {tw tw' : Timerwheel Callback}
    {cb : Option Callback} (h : w.step tw = some (w', tw', cb)) :
    tw'.brk = tw.brk ∧ (∀ e ∈ tw'.entries, e ∈ tw.entries) ∧
      ∀ cb' ∈ cb, ∃ e ∈ tw.entries, e.cb = some cb' := by
  obtain ⟨curr, next, hback, hcases⟩ := Walk.step_cases h
  have hentries := w.front_append_back tw
  rw [hback] at hentries
  rcases hcases with ⟨-, rfl, -, -, rfl⟩ | ⟨rfl, -, -, rfl⟩
  · refine ⟨rfl, fun e he => ?_, fun cb' hcb => ⟨curr, ?_, ?_⟩⟩
    · rw [← hentries]
      rcases List.mem_append.mp he with he | he
      · exact List.mem_append_left _ he
      · exact List.mem_append_right _ (List.mem_cons_of_mem _ he)
    · rw [← hentries]
      exact List.mem_append_right _ List.mem_cons_self
    · split at hcb
      · cases hcb
      · exact hcb
  · exact ⟨rfl, fun e he => he, fun cb' hcb => by cases hcb⟩

/-- **The walk** asks for nothing, and calls no callback that is not in the wheel. -/
theorem tripTimeoutWalk_idle {w : Walk Callback} {s t : Env} {ts : List Task}
    (h : (tripTimeoutWalk w).exec s = (some ts, t)) :
    Idle false s.router t.router ∧ (s.router.SendFree → ∀ u ∈ ts, u.immediate = false) := by
  unfold tripTimeoutWalk at h
  rw [Prog.exec_bind_of (exec_fetch _ _)] at h
  cases hstep : w.step s.router.timers.wheel with
  | none =>
    rw [hstep] at h
    cases h
    exact ⟨⟨fun _ hs => hs, id, .refl _⟩, fun _ u hu => absurd hu List.not_mem_nil⟩
  | some p =>
    obtain ⟨w', wheel, cb⟩ := p
    rw [hstep] at h
    cases h
    obtain ⟨hbrk, hsub, hcb⟩ := Walk.mem_of_step hstep
    refine ⟨⟨fun _ hs e he => hs e (hsub e he), fun hb e he => ?_, .refl _⟩, fun hs u hu => ?_⟩
    · have hlt : e.id < wheel.brk := hbrk ▸ hb e (hsub e he)
      exact hlt
    · simp only [List.mem_append, Option.mem_toList, Option.map_eq_some_iff,
        List.mem_singleton] at hu
      rcases hu with ⟨cb', hcb', rfl⟩ | rfl
      · obtain ⟨e, he, hecb⟩ := hcb cb' hcb'
        have hne : cb' ≠ .tripSendImmediately := fun heq => hs e he (heq ▸ hecb)
        cases cb' <;> first | rfl | exact absurd rfl hne
      · rfl

/-! ### Steps -/

/-- Every task. -/
theorem Task.run_idle {code : Errno} {t : Task} {s s' : Env} {ts : List Task}
    (h : (t.run code).exec s = (some ts, s')) : Idle true s.router s'.router := by
  cases ht : t.immediate with
  | false =>
    cases hwalk : t.isWalk with
    | false => exact (Defers.task ht hwalk (by simp) code s ts s' h).1
    | true =>
      cases t with
      | walk w => exact (tripTimeoutWalk_idle h).1.mono
      | _ => exact absurd hwalk (by simp [Task.isWalk])
  | true =>
    -- the sending itself sets its timer again
    have hidles : Idling true (t.run code) := by
      cases t with
      | callback cb =>
        cases cb with
        | tripSendImmediately => exact .pure _
        | _ => exact absurd ht (by simp [Task.immediate])
      | sendImmediately =>
        exact .bind (.fetch _) fun _ => .ite (.bind (.timer (by simp) 1) fun _ => .pure _) (.pure _)
      | _ => exact absurd ht (by simp [Task.immediate])
    exact hidles.exec h

/-- **Every step** keeps the limits of the connections and the addresses of the timers. -/
theorem Config.step_idle {c c' : Config} {i : Input} (h : c.Step i c') :
    Idle true c.router c'.router := by
  rcases step_cases h with ⟨api, o, ts, s, -, -, hexec, rfl⟩ |
    ⟨code, o, t, rest, ts, s, -, -, hexec, rfl⟩
  · exact (Defers.api (by simp) _ ts s hexec).1
  · exact Task.run_idle hexec

end Libtrp
