import Libtrp.TripMoves
import Libtrp.TripWatch

/-!
# How long a connection waits before it resends

A connection that enters `OPEN` or `PING` sets a deadline for the state and a first
interval after which it resends; `_tripc_get_growth` makes each interval half as long
again as the one before, up to `maxstatems`.  In `OPEN` this starts at a tenth of a
second and is capped at three.  In `PING` both the interval and the deadline are read
from fields of `ping` that `_tripc_init` does not set, and nothing ever grows from zero.

## Main definitions

* `nextGrowth`, `Connection.interval` — the recurrence.
* `BacksOff` — what is asked of the intervals of a number of resends.
* `Entry` — where a state that resends is entered.

## Main results

* `backsOff_open_iff`, `not_backsOff_ping` — the intervals of the two states.
* `entry_backsOff_iff` — **when a connection backs off.**

## References

`src/conn.c` (`_tripc_set_deadline`, `_tripc_set_growth`, `_tripc_get_growth`,
`_tripc_timeout_state_resend_cb`, `_tripc_set_state`, `_tripc_init`).
-/

namespace Libtrp

open Lib

/-! ### The recurrence -/

/-- The largest `int`. -/
def intMax : ℤ := 2 ^ 31 - 1

/-- What `_tripc_get_growth` makes of `growms`. -/
def nextGrowth (max ms : ℤ) : ℤ := if ms + ms.tdiv 2 > max then max else ms + ms.tdiv 2

/-- What `_tripc_get_growth` leaves in the connection; what it returns is `growms`. -/
def Connection.grow (x : Connection) : Connection :=
  { x with growms := nextGrowth x.maxstatems x.growms, retry := x.retry + 1 }

theorem exec_tripcGetGrowth (c : Ptr) (s : Env) :
    (tripcGetGrowth c).exec s = (some (s.router.heap.conn c).growms,
      s.setRouter (s.router.setConn c Connection.grow)) := rfl

/-- The interval before the resend `k`, where the first one comes before `0`. -/
def Connection.interval (x : Connection) (k : ℕ) : ℤ := (Connection.grow^[k] x).growms

/-- **What is asked of the intervals**, up to the resend `n`. -/
structure BacksOff (n : ℕ) (x : Connection) : Prop where
  pos : ∀ k ≤ n, 0 < x.interval k
  le : ∀ k ≤ n, x.interval k ≤ x.maxstatems
  grows : ∀ k < n, x.interval k < x.maxstatems → x.interval k < x.interval (k + 1)
  stays : ∀ k < n, x.interval k = x.maxstatems → x.interval (k + 1) = x.maxstatems
  /-- Neither sum of `_tripc_get_growth` overflows. -/
  growms : ∀ k ≤ n, x.interval k + (x.interval k).tdiv 2 ≤ intMax
  retry : ∀ k ≤ n, (Connection.grow^[k] x).retry + 1 ≤ intMax

/-- Half as much again is more from `2` on. -/
theorem lt_nextGrowth {max ms : ℤ} (hms : 2 ≤ ms) (hlt : ms < max) : ms < nextGrowth max ms := by
  have hhalf : ms.tdiv 2 = ms / 2 := Int.tdiv_eq_ediv_of_nonneg (by omega)
  unfold nextGrowth
  rw [hhalf]
  split <;> omega

theorem nextGrowth_le (max ms : ℤ) : nextGrowth max ms ≤ max := by
  unfold nextGrowth
  split
  · exact le_rfl
  · next hle => exact not_lt.mp hle

/-- The cap stays. -/
theorem nextGrowth_max {max : ℤ} (hmax : 2 ≤ max) : nextGrowth max max = max := by
  have hhalf : max.tdiv 2 = max / 2 := Int.tdiv_eq_ediv_of_nonneg (by omega)
  unfold nextGrowth
  rw [hhalf]
  exact if_pos (by omega)

namespace Connection

variable (x : Connection)

theorem maxstatems_grow (k : ℕ) : (grow^[k] x).maxstatems = x.maxstatems := by
  induction k generalizing x with
  | zero => rfl
  | succ k ih => exact ih x.grow

theorem retry_grow (k : ℕ) : (grow^[k] x).retry = x.retry + k := by
  induction k generalizing x with
  | zero => simp
  | succ k ih =>
    rw [Function.iterate_succ_apply, ih]
    simp only [grow]
    push_cast
    ring

theorem interval_succ (k : ℕ) : x.interval (k + 1) = nextGrowth x.maxstatems (x.interval k) := by
  unfold interval
  rw [Function.iterate_succ_apply', ← maxstatems_grow x k]
  rfl

/-- From `2` on the intervals stay between `2` and the cap. -/
theorem interval_bounds {x : Connection} (hms : 2 ≤ x.growms) (hle : x.growms ≤ x.maxstatems)
    (k : ℕ) : 2 ≤ x.interval k ∧ x.interval k ≤ x.maxstatems := by
  induction k with
  | zero => exact ⟨hms, hle⟩
  | succ k ih =>
    rw [interval_succ]
    refine ⟨?_, nextGrowth_le _ _⟩
    rcases lt_or_eq_of_le ih.2 with hlt | heq
    · exact le_of_lt (lt_of_le_of_lt ih.1 (lt_nextGrowth ih.1 hlt))
    · rw [heq, nextGrowth_max (heq ▸ ih.1)]
      exact heq ▸ ih.1

end Connection

/-- **The intervals from `2` on**: they are as asked as long as the resends can be
counted. -/
theorem backsOff_iff {x : Connection} (hms : 2 ≤ x.growms) (hle : x.growms ≤ x.maxstatems)
    (hmax : x.maxstatems ≤ 2 ^ 30) (n : ℕ) : BacksOff n x ↔ x.retry + n + 1 ≤ intMax := by
  have hbounds := Connection.interval_bounds hms hle
  constructor
  · intro h
    have hretry := h.retry n le_rfl
    rwa [Connection.retry_grow] at hretry
  · intro hn
    constructor
    · exact fun k _ => by linarith [(hbounds k).1]
    · exact fun k _ => (hbounds k).2
    · intro k _ hlt
      rw [Connection.interval_succ]
      exact lt_nextGrowth (hbounds k).1 hlt
    · intro k _ heq
      rw [Connection.interval_succ, heq]
      exact nextGrowth_max (heq ▸ (hbounds k).1)
    · intro k _
      obtain ⟨hlow, hhigh⟩ := hbounds k
      rw [Int.tdiv_eq_ediv_of_nonneg (by omega)]
      unfold intMax
      omega
    · intro k hk
      rw [Connection.retry_grow]
      have hcast : (k : ℤ) ≤ n := Int.ofNat_le.mpr hk
      omega

/-! ### The states that resend -/

/-- The connection when the first interval of the state is set, by `_tripc_set_growth`. -/
def Connection.enter (state : TripcState) (x : Connection) : Connection :=
  { x with growms := if state = .PING then x.ping.ms else x.statems, retry := 0 }

/-- The intervals of `OPEN`. -/
theorem backsOff_open_iff {x : Connection} (hx : x.limits = tripcLimits) (n : ℕ) :
    BacksOff n (x.enter .OPEN) ↔ (n : ℤ) + 1 ≤ intMax := by
  simp only [Connection.limits, tripcLimits, Limits.mk.injEq] at hx
  have hms : (x.enter .OPEN).growms = 100 := hx.2.1
  have hmax : (x.enter .OPEN).maxstatems = 3000 := hx.1
  rw [backsOff_iff (by omega) (by omega) (by omega)]
  show (0 : ℤ) + n + 1 ≤ intMax ↔ _
  rw [zero_add]

/-- In `PING` there is no time between two resends. -/
theorem not_backsOff_ping {x : Connection} (hx : x.limits = tripcLimits) (n : ℕ) :
    ¬ BacksOff n (x.enter .PING) := by
  simp only [Connection.limits, tripcLimits, Limits.mk.injEq] at hx
  intro h
  have hpos : 0 < (x.enter .PING).interval 0 := h.pos 0 (Nat.zero_le n)
  have hzero : (x.enter .PING).interval 0 = 0 := hx.2.2.2
  omega

/-! ### Entering a state -/

/-- What the backoff is reckoned from. -/
def Connection.backoff (x : Connection) : Limits × ℤ × ℤ × ℕ :=
  (x.limits, x.growms, x.retry, x.statedeadline)

/-- The recurrence reads nothing else. -/
theorem Connection.backoff_grow {x y : Connection} (h : x.backoff = y.backoff) :
    x.grow.backoff = y.grow.backoff := by
  have hmax : x.maxstatems = y.maxstatems := congrArg (fun b => b.1.maxstatems) h
  have hgrowms : x.growms = y.growms := congrArg (fun b => b.2.1) h
  have hretry : x.retry = y.retry := congrArg (fun b => b.2.2.1) h
  have hdeadline : x.statedeadline = y.statedeadline := congrArg (fun b => b.2.2.2) h
  have hlimits : x.limits = y.limits := congrArg Prod.fst h
  show (x.limits, nextGrowth x.maxstatems x.growms, x.retry + 1, x.statedeadline) = _
  rw [hlimits, hmax, hgrowms, hretry, hdeadline]
  rfl

/-- How setting a timer runs, with the readings of the clock. -/
theorem exec_tripSetTimeoutM_eq (ms : ℤ) (cb : Callback) (s : Env) :
    ∃ t, (tripSetTimeoutM ms cb).exec s =
        (some (if s.oracle.alloc.head then some s.router.timers.wheel.brk else none), t) ∧
      t.oracle.alloc = s.oracle.alloc.tail ∧ t.oracle.clock = s.oracle.clock.tail.tail ∧
      t.router = s.router.setTimers (tripSetTimeout s.oracle.alloc.head s.oracle.clock.head.toNat
        s.oracle.clock.tail.head.toNat ms (some cb) s.router.timers).2 := by
  unfold tripSetTimeoutM
  rw [Prog.exec_bind_of (exec_tripmAlloc s), Prog.exec_bind_of (exec_triptimeNow _),
    Prog.exec_bind_of (exec_triptimeNow _)]
  cases s.oracle.alloc.head with
  | false => exact ⟨_, rfl, rfl, rfl, rfl⟩
  | true => exact ⟨_, rfl, rfl, rfl, rfl⟩

/-- How many allocations `_tripc_mk_keys` asks for. -/
def Connection.keyAllocs (x : Connection) : ℕ :=
  if x.encrypted then (if x.self.pk.isSome then 0 else 1) + (if x.self.sk.isSome then 0 else 1)
  else 0

/-- An allocation that is made only when there is nothing yet. -/
theorem exec_allocUnless (b : Bool) (s : Env) :
    ∃ a t, (if b then pure true else tripmAlloc : TripM Bool).exec s = (some a, t) ∧
      t.router = s.router ∧ t.oracle.clock = s.oracle.clock ∧
      t.oracle.alloc = s.oracle.alloc.drop (if b then 0 else 1) := by
  cases b with
  | false => exact ⟨_, _, rfl, rfl, rfl, rfl⟩
  | true => exact ⟨_, _, rfl, rfl, rfl, rfl⟩

theorem exec_tripcMkKeys (c : Ptr) (s : Env) :
    ∃ t, (tripcMkKeys c).exec s = (some (), t) ∧
      (t.router.heap.conn c).backoff = (s.router.heap.conn c).backoff ∧
      t.oracle.clock = s.oracle.clock ∧
      t.oracle.alloc = s.oracle.alloc.drop (s.router.heap.conn c).keyAllocs := by
  unfold tripcMkKeys Connection.keyAllocs
  rw [Prog.exec_bind_of (exec_getConn _ _)]
  cases (s.router.heap.conn c).encrypted with
  | false => exact ⟨s, rfl, rfl, rfl, rfl⟩
  | true =>
    obtain ⟨pk, t, ht, hrouter, hclock, halloc⟩ :=
      exec_allocUnless (s.router.heap.conn c).self.pk.isSome s
    obtain ⟨sk, u, hu, hrouter', hclock', halloc'⟩ :=
      exec_allocUnless (s.router.heap.conn c).self.sk.isSome t
    rw [if_pos rfl, Prog.exec_bind_of ht, Prog.exec_bind_of hu, if_pos rfl, ← Stream'.drop_drop,
      ← halloc, ← halloc', ← hclock, ← hclock', ← hrouter, ← hrouter']
    have hwrite : ∀ {v : Env} {f : Connection → Connection}, v.router = u.router →
        (∀ x, (f x).backoff = x.backoff) →
          ((v.setRouter (v.router.setConn c f)).router.heap.conn c).backoff =
            (u.router.heap.conn c).backoff := by
      intro v f hv hf
      rw [hv]
      exact ConnHeap.conn_set_field Connection.backoff u.router.heap c c (hf _)
    split
    · exact ⟨_, rfl, hwrite rfl fun _ => rfl, rfl, rfl⟩
    · exact ⟨_, rfl, hwrite rfl fun _ => rfl, rfl, rfl⟩

/-- `_tripc_set_send` sets a timer whatever the flag. -/
theorem exec_tripcSetSend (c : Ptr) (s : Env) :
    ∃ t, (tripcSetSend c).exec s = (some (), t) ∧
      (t.router.heap.conn c).backoff = (s.router.heap.conn c).backoff ∧
      t.oracle.clock = s.oracle.clock.tail.tail ∧ t.oracle.alloc = s.oracle.alloc.tail := by
  have hsame : SameField Connection.backoff c (tripcSetSend c) :=
    .bind (.tripQconnection (fun _ _ => rfl) fun _ _ => rfl) fun _ => .setConn fun _ => rfl
  have hflag : s.router.flag ||| triprFlagAlwaysReady ≠ 0 := by
    intro h
    have hbit : (s.router.flag ||| triprFlagAlwaysReady).toNat.testBit 7 = true := by
      rw [UInt32.toNat_or, Nat.testBit_or]
      simp only [Bool.or_eq_true]
      exact Or.inr (by decide)
    rw [h] at hbit
    simp at hbit
  generalize hu : s.setRouter (s.router.setSendq (sendqNq s.router.sendq s.router.heap c)) = u
  have hflag' : u.router.flag ||| triprFlagAlwaysReady ≠ 0 := by rw [← hu]; exact hflag
  obtain ⟨t, ht, halloc, hclock, -⟩ := exec_tripSetTimeoutM_eq 0 .tripSendImmediately u
  have hexec : (tripcSetSend c).exec s =
      (some (), t.setRouter (t.router.setConn c fun x => x.setHassend true)) := by
    unfold tripcSetSend tripQconnection
    simp only [bind_assoc]
    rw [Prog.exec_bind_of (exec_store _ _), hu, Prog.exec_bind_of (exec_fetch _ _), if_pos hflag',
      bind_assoc, Prog.exec_bind_of ht]
    rfl
  have hfield := hsame s
  rw [hexec] at hfield
  rw [← hu] at halloc hclock
  exact ⟨_, hexec, hfield, hclock, halloc⟩

/-- Entering `OPEN`, until the timer is set. -/
def tripcOpening (c : Ptr) : TripM ℤ := do
  tripcLeave c .OPEN
  setConn c fun x => { x with state := .OPEN }
  tripcMkKeys c
  let x ← getConn c
  tripcSetDeadline c x.maxstatems
  tripcSetGrowth c x.statems
  tripcSetSend c
  tripcGetGrowth c

theorem tripcSetState_open_eq (c : Ptr) :
    tripcSetState c .OPEN =
      tripcOpening c >>= fun ms => tripcSetTimeout c ms .tripcTimeoutStateResend := by
  unfold tripcOpening tripcSetState tripcEnter
  simp only [bind_assoc]

theorem Idling.tripcOpening (c : Ptr) : Idling true (tripcOpening c) := by
  refine bind (tripcLeave .OPEN) fun _ => bind (setConn_of fun _ => rfl) fun _ => ?_
  refine bind tripcMkKeys fun _ => bind (getConn c) fun x => bind (tripcSetDeadline _) fun _ => ?_
  exact bind (tripcSetGrowth _) fun _ => bind tripcSetSend fun _ => tripcGetGrowth

/-- What it leaves: the deadline is reckoned from the first reading of the clock, and three
readings are made. -/
theorem exec_tripcOpening (c : Ptr) (s : Env) :
    ∃ t, (tripcOpening c).exec s = (some (s.router.heap.conn c).statems, t) ∧
      (t.router.heap.conn c).backoff =
        { ((s.router.heap.conn c).enter .OPEN).grow with
          statedeadline := triptimeDeadline s.oracle.clock.head.toNat
            (s.router.heap.conn c).maxstatems }.backoff ∧
      t.oracle.clock = s.oracle.clock.tail.tail.tail ∧
      t.oracle.alloc = (s.oracle.alloc.drop (s.router.heap.conn c).keyAllocs).tail := by
  obtain ⟨s₁, h₁, horacle, hrouter⟩ := exec_tripcCancelTimeout c s
  have hconn : ∀ {α : Type} (g : Connection → α), (∀ x e, g { x with statetimer := e } = g x) →
      g (s₁.router.heap.conn c) = g (s.router.heap.conn c) := by
    intro α g hg
    rcases hrouter with ⟨-, hsame⟩ | ⟨e, -, hset⟩
    · rw [hsame]
    · rw [hset]
      exact ConnHeap.conn_set_field g s.router.heap c c
        (f := fun x => { x with statetimer := none }) (hg _ none)
  generalize h₂ : s₁.setRouter (s₁.router.setConn c fun x => { x with state := .OPEN }) = s₂
  have hconn₂ : ∀ {α : Type} (g : Connection → α), (∀ x e, g { x with statetimer := e } = g x) →
      (∀ x, g { x with state := .OPEN } = g x) →
        g (s₂.router.heap.conn c) = g (s.router.heap.conn c) := by
    intro α g hg hstate
    rw [← hconn g hg, ← h₂]
    exact ConnHeap.conn_set_field g s₁.router.heap c c (f := fun x => { x with state := .OPEN })
      (hstate _)
  obtain ⟨s₃, h₃, hback₃, hclock₃, halloc₃⟩ := exec_tripcMkKeys c s₂
  rw [hconn₂ Connection.keyAllocs (fun _ _ => rfl) fun _ => rfl] at halloc₃
  rw [hconn₂ Connection.backoff (fun _ _ => rfl) fun _ => rfl] at hback₃
  have hmax : (s₃.router.heap.conn c).maxstatems = (s.router.heap.conn c).maxstatems :=
    congrArg (fun b => b.1.maxstatems) hback₃
  have hms : (s₃.router.heap.conn c).statems = (s.router.heap.conn c).statems :=
    congrArg (fun b => b.1.statems) hback₃
  have hnow : s₃.oracle.clock = s.oracle.clock := by
    rw [hclock₃, ← h₂, ← horacle]
    rfl
  -- the deadline and the first interval
  generalize h₅ : s₃.popClock.setRouter ((s₃.router.setConn c fun x => { x with
      statedeadline := triptimeDeadline s₃.oracle.clock.head.toNat
        (s₃.router.heap.conn c).maxstatems }).setConn c fun x => { x with
          growms := (s₃.router.heap.conn c).statems, retry := 0 }) = s₅
  have hback₅ : (s₅.router.heap.conn c).backoff = { (s.router.heap.conn c).enter .OPEN with
      statedeadline := triptimeDeadline s.oracle.clock.head.toNat
        (s.router.heap.conn c).maxstatems }.backoff := by
    have hlim : (s₃.router.heap.conn c).limits = (s.router.heap.conn c).limits :=
      congrArg Prod.fst hback₃
    rw [← h₅, hmax, hms, hnow]
    show (((s₃.router.setConn c _).setConn c _).heap.conn c).backoff = _
    rw [Router.setConn, ConnHeap.conn_set_self, Router.setConn, ConnHeap.conn_set_self]
    exact congrArg (fun l : Limits => (l, (s.router.heap.conn c).statems, (0 : ℤ), triptimeDeadline
      s.oracle.clock.head.toNat (s.router.heap.conn c).maxstatems)) hlim
  obtain ⟨s₆, h₆, hback₆, hclock₆, halloc₆⟩ := exec_tripcSetSend c s₅
  have hgrow : (s₆.router.heap.conn c).growms = (s.router.heap.conn c).statems :=
    congrArg (fun b => b.2.1) (hback₆.trans hback₅)
  refine ⟨s₆.setRouter (s₆.router.setConn c Connection.grow), ?_, ?_, ?_, ?_⟩
  · unfold tripcOpening
    rw [show tripcLeave c .OPEN = tripcCancelTimeout c from rfl, Prog.exec_bind_of h₁,
      Prog.exec_bind_of (exec_setConn _ _ _), h₂, Prog.exec_bind_of h₃,
      Prog.exec_bind_of (exec_getConn _ _)]
    show (tripcSetSend c >>= fun _ => tripcGetGrowth c).exec
      (s₃.popClock.setRouter ((s₃.router.setConn c _).setConn c _)) = _
    rw [h₅, Prog.exec_bind_of h₆, exec_tripcGetGrowth, hgrow]
  · rw [conn_of_setConn (f := Connection.grow) rfl]
    exact Connection.backoff_grow (hback₆.trans hback₅)
  · show s₆.oracle.clock = _
    rw [hclock₆, ← hnow, ← h₅]
    rfl
  · show s₆.oracle.alloc = _
    rw [halloc₆, ← h₅]
    show s₃.oracle.alloc.tail = _
    rw [halloc₃, ← h₂, ← horacle]
    rfl

/-- **The timer of `OPEN`**: what the state's deadline is, and when the first resend is due
if there is memory for the timer. -/
theorem exec_tripcSetState_open {c : Ptr} {s t : Env} (hb : s.router.Bounded)
    (h : (tripcSetState c .OPEN).exec s = (some (), t)) :
    (t.router.heap.conn c).backoff =
        { ((s.router.heap.conn c).enter .OPEN).grow with
          statedeadline := triptimeDeadline s.oracle.clock.head.toNat
            (s.router.heap.conn c).maxstatems }.backoff ∧
      ((s.oracle.alloc.drop (s.router.heap.conn c).keyAllocs).tail.head = false ∧
          (t.router.heap.conn c).statetimer = none ∨
        (s.oracle.alloc.drop (s.router.heap.conn c).keyAllocs).tail.head = true ∧
          ∃ te es, t.router.timers.wheel.entries = te :: es ∧ (∀ e ∈ es, e.id < te.id) ∧
            (t.router.heap.conn c).statetimer = some te.id ∧
            te.deadline = triptimeDeadline s.oracle.clock.tail.tail.tail.head.toNat
              (s.router.heap.conn c).statems) := by
  rw [tripcSetState_open_eq] at h
  obtain ⟨u, hu, hback, hclock, halloc⟩ := exec_tripcOpening c s
  have hbounded : u.router.Bounded := ((Idling.tripcOpening c).exec hu).bounded hb
  obtain ⟨v, hv, -, -, hrouter⟩ := exec_tripSetTimeoutM_eq (s.router.heap.conn c).statems
    (.tripcTimeoutStateResend c) u
  rw [Prog.exec_bind_of hu, tripcSetTimeout, Prog.exec_bind_of hv, exec_setConn] at h
  cases h
  have hheap : v.router.heap = u.router.heap := by rw [hrouter]; rfl
  rw [halloc, hclock] at hrouter
  rw [halloc] at hv
  refine ⟨?_, ?_⟩
  · rw [← hback, ← hheap]
    exact ConnHeap.conn_set_field Connection.backoff v.router.heap c c (f := fun x =>
      { x with statetimer := _ }) rfl
  · have htimer : ∀ e : Option Ptr, ((v.setRouter (v.router.setConn c fun x =>
        { x with statetimer := e })).router.heap.conn c).statetimer = e := by
      intro e
      exact congrArg Connection.statetimer
        (conn_of_setConn (s := v) (c := c) (f := fun x => { x with statetimer := e }) rfl)
    rw [halloc, htimer]
    cases hmem : (s.oracle.alloc.drop (s.router.heap.conn c).keyAllocs).tail.head with
    | false => exact Or.inl ⟨rfl, rfl⟩
    | true =>
      rw [hmem, tripSetTimeout_true] at hrouter
      refine Or.inr ⟨rfl, ⟨u.router.timers.wheel.brk, triptimeDeadline
        s.oracle.clock.tail.tail.tail.head.toNat (s.router.heap.conn c).statems,
        some (.tripcTimeoutStateResend c), false⟩, u.router.timers.wheel.entries, ?_, hbounded,
          rfl, rfl⟩
      show v.router.timers.wheel.entries = _
      rw [hrouter]
      rfl

/-! ### Reachable entries -/

/-- **Where a state that resends is entered**: the connection was resolved, the timer of
`READY` ran out, or a challenge has been parsed.  `s` is what `_tripc_set_state` is
called from. -/
inductive Entry (cfg : Config) : Ptr → TripcState → Env → Prop
  | resolved {o : Oracle} {c : Ptr} {rest : List Task} :
      cfg.todo = .callback (.tripResolveDelaySuccess c) :: rest →
      Entry cfg c .OPEN ⟨cfg.router, o, []⟩
  | readyPing {o : Oracle} {c : Ptr} {rest : List Task} :
      cfg.todo = .callback (.tripcTimeoutStateReadyPing c) :: rest →
      Entry cfg c .PING ⟨cfg.router, o, []⟩
  | challenged {o : Oracle} {len : ℕ} {buf : Buf} {en : ℕ} {pre : TripPrefix} {c : Ptr}
      {s t : Env} : cfg.waits = true → cfg.router.state = .LISTEN ∨ cfg.router.state = .CLOSE →
      SegmentPasses len buf en pre → pre.control ≠ tripControlOpen →
      CommPasses ⟨cfg.router, o, []⟩ len buf pre c → (cfg.router.heap.conn c).state = .OPEN →
      SameBut ⟨cfg.router, o, []⟩ s →
      (tripcParseChal c (sizeSub (sizeSub len tripSign) en) (buf.drop en)).exec s = (some 0, t) →
      Entry cfg c .PING t

/-- **What is asked of an entry** that leads from `s` to `t`, up to the resend `n`. -/
structure EntryBacksOff (n : ℕ) (c : Ptr) (state : TripcState) (s t : Env) : Prop where
  intervals : BacksOff n ((s.router.heap.conn c).enter state)
  /-- The state's deadline lies behind the first resend. -/
  deadline : ∀ te ∈ t.router.timers.wheel.entries,
    (t.router.heap.conn c).statetimer = some te.id →
      te.deadline < (t.router.heap.conn c).statedeadline

/-- If there is memory for the timer, the clock does not run too far from the reading for the
deadline to the one for the timer. -/
def ResendsInTime (s : Env) (c : Ptr) : Prop :=
  (s.oracle.alloc.drop (s.router.heap.conn c).keyAllocs).tail.head = true →
    triptimeDeadline s.oracle.clock.tail.tail.tail.head.toNat 100 <
      triptimeDeadline s.oracle.clock.head.toNat 3000

/-- Every connection that was made has the limits of a new one, and every timer an address that was
allocated. -/
structure Router.Made (r : Router) : Prop where
  limits : ∀ c < r.heap.brk, (r.heap.conn c).limits = tripcLimits
  bounded : r.Bounded

theorem Idle.made_of {r r' : Router} (h : Idle true r r') (hr : r.Made) : r'.Made := by
  refine ⟨fun c hc => ?_, h.bounded hr.bounded⟩
  rcases Nat.lt_or_ge c r.heap.brk with hold | hnew
  · rcases h.limited.kept c with heq | hnew
    · rw [heq]
      exact hr.limits c hold
    · exact hnew
  · exact h.limited.made c hnew hc

theorem Reaches.made {preset : TripPreset} {now : ℕ} {buf : Buf} {cfg : Config}
    (hr : Reaches Config.Step (fun _ _ => True) (.idle (tripNew preset now buf)) cfg) :
    cfg.router.Made := by
  have hfirst : (tripNew preset now buf).Made :=
    ⟨fun c hc => absurd hc (Nat.not_lt_zero c), fun e he => absurd he List.not_mem_nil⟩
  induction hr with
  | refl => exact hfirst
  | step i _ _ hstep ih => exact (Config.step_idle hstep).made_of ih

/-- What a state is entered from has the same. -/
theorem Entry.made {cfg : Config} {c : Ptr} {state : TripcState} {s : Env}
    (he : Entry cfg c state s) (hm : cfg.router.Made) (hc : c < cfg.router.heap.brk) :
    (s.router.heap.conn c).limits = tripcLimits ∧ s.router.Bounded := by
  cases he with
  | resolved | readyPing => exact ⟨hm.limits c hc, hm.bounded⟩
  | challenged _ _ _ _ _ _ hsame hparse =>
    -- the parser writes what the peer tells
    have hidle := (Idling.tripcParseInfo (q := true) _ _ _).exec hparse
    rw [hsame.router] at hidle
    refine ⟨?_, hidle.bounded hm.bounded⟩
    rcases hidle.limited.kept c with heq | hnew
    · rw [heq]
      exact hm.limits c hc
    · exact hnew

/-- **When a connection backs off**: in `OPEN`, as long as the resends can be counted and
the clock does not run away, and never in `PING`. -/
theorem entry_backsOff_iff {preset : TripPreset} {now : ℕ} {buf : Buf} {cfg : Config} {c : Ptr}
    {state : TripcState} {s t : Env} {n : ℕ}
    (hr : Reaches Config.Step (fun _ _ => True) (.idle (tripNew preset now buf)) cfg)
    (hc : c < cfg.router.heap.brk) (he : Entry cfg c state s)
    (ht : (tripcSetState c state).exec s = (some (), t)) :
    EntryBacksOff n c state s t ↔
      state = .OPEN ∧ (n : ℤ) + 1 ≤ intMax ∧ ResendsInTime s c := by
  obtain ⟨hlimits, hbounded⟩ := he.made (Reaches.made hr) hc
  have hstate : state = .OPEN ∨ state = .PING := by
    cases he with
    | resolved => exact Or.inl rfl
    | readyPing | challenged => exact Or.inr rfl
  rcases hstate with rfl | rfl
  swap
  · refine iff_of_false (fun h => not_backsOff_ping hlimits n h.intervals) ?_
    rintro ⟨hopen, -⟩
    exact absurd hopen (by decide)
  obtain ⟨hback, htimer⟩ := exec_tripcSetState_open hbounded ht
  have hdeadline : (t.router.heap.conn c).statedeadline = triptimeDeadline
      s.oracle.clock.head.toNat (s.router.heap.conn c).maxstatems :=
    congrArg (fun b => b.2.2.2) hback
  have hlims : (s.router.heap.conn c).maxstatems = 3000 ∧ (s.router.heap.conn c).statems = 100 := by
    simp only [Connection.limits, tripcLimits, Limits.mk.injEq] at hlimits
    exact ⟨hlimits.1, hlimits.2.1⟩
  rw [hlims.1] at hdeadline
  rw [hlims.2] at htimer
  constructor
  · rintro ⟨hintervals, hfirst⟩
    refine ⟨rfl, (backsOff_open_iff hlimits n).mp hintervals, fun hmem => ?_⟩
    rcases htimer with ⟨hno, -⟩ | ⟨-, te, es, hentries, -, hid, hte⟩
    · rw [hmem] at hno
      cases hno
    · have hlt := hfirst te (by rw [hentries]; exact List.mem_cons_self) hid
      rwa [hte, hdeadline] at hlt
  · rintro ⟨-, hn, hclock⟩
    refine ⟨(backsOff_open_iff hlimits n).mpr hn, fun te hte hid => ?_⟩
    rcases htimer with ⟨-, hnone⟩ | ⟨hmem, te', es, hentries, hold, hid', hte'⟩
    · rw [hnone] at hid
      cases hid
    · -- the timer of the state is the newest
      have heq : te'.id = te.id := Option.some.inj (hid'.symm.trans hid)
      rw [hentries] at hte
      rcases List.mem_cons.mp hte with rfl | hmem'
      · rw [hte', hdeadline]
        exact hclock hmem
      · exact absurd (hold te hmem') (by rw [heq]; exact Nat.lt_irrefl _)

/-- The router of which the first connection is resolved and is to enter `OPEN`. -/
def resolvedConfig : Config :=
  resolvedInputs.foldl (fun c i => (c.step i).getD c) (.idle (tripNew .ROUTER 0 fun _ => 0))

/-- It backs off for a thousand resends. -/
theorem entry_backsOff_resolved :
    EntryBacksOff 1000 0 .OPEN ⟨resolvedConfig.router, plainOracle, []⟩
      ((tripcSetState 0 .OPEN).exec ⟨resolvedConfig.router, plainOracle, []⟩).2 :=
  (entry_backsOff_iff (reaches_trace (f := Config.step) (by decide)) (by decide)
    (@Entry.resolved resolvedConfig plainOracle 0 resolvedConfig.todo.tail (by decide)) rfl).mpr
      ⟨rfl, by decide, fun _ => by decide⟩

/-- A challenge of zeros. -/
def chalSegment : Buf := fun i => if i = 0 then tripControlChal else 0

/-- Unencrypted segments are let in, and the connection that is resolved waits for its
challenge. -/
def openedInputs : List Input :=
  [.call (.setopt (.ALLOW_PLAIN_COMM true)) plainOracle,
    .call (.setopt (.ALLOW_PLAIN_OSIG true)) plainOracle] ++ resolvedInputs ++ List.replicate 5 turn

def openedConfig : Config :=
  openedInputs.foldl (fun c i => (c.step i).getD c) (.idle (tripNew .ROUTER 0 fun _ => 0))

/-- **A challenge** takes a connection to `PING`, where it resends without end. -/
theorem entry_not_backsOff_challenged :
    ¬ ∀ (preset : TripPreset) (now : ℕ) (buf : Buf) (cfg : Config) (c : Ptr) (state : TripcState)
      (s t : Env) (n : ℕ),
      Reaches Config.Step (fun _ _ => True) (.idle (tripNew preset now buf)) cfg →
        c < cfg.router.heap.brk → Entry cfg c state s →
          (tripcSetState c state).exec s = (some (), t) → EntryBacksOff n c state s t := by
  intro h
  have hparse : ((tripcParseChal 0 128 (chalSegment.drop 10)).exec
      ⟨openedConfig.router, plainOracle, []⟩).1 = some 0 := by decide
  have hentry : Entry openedConfig 0 .PING ((tripcParseChal 0 128 (chalSegment.drop 10)).exec
      ⟨openedConfig.router, plainOracle, []⟩).2 :=
    .challenged (o := plainOracle) (s := ⟨openedConfig.router, plainOracle, []⟩) (by decide)
      (Or.inl (by decide)) (⟨by decide, rfl, by decide⟩ :
        SegmentPasses 202 chalSegment 10 ⟨false, tripControlChal, 0, 0⟩) (by decide)
      ⟨Or.inr (by decide), by decide, by decide⟩ (by decide) (.refl _) (Prod.ext hparse rfl)
  obtain ⟨_, ht⟩ := (RunsOn.tripcSetState (c := 0) .PING).total.exec_eq
    ((tripcParseChal 0 128 (chalSegment.drop 10)).exec ⟨openedConfig.router, plainOracle, []⟩).2
  have hback := h .ROUTER 0 (fun _ => 0) openedConfig 0 .PING _ _ 0
    (reaches_trace (f := Config.step) (by decide)) (by decide) hentry ht
  exact not_backsOff_ping (by decide) 0 hback.intervals

end Libtrp
