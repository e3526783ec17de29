import Libtrp.TripAsk
import Libtrp.TripState

/-!
# One answer for each connection

The packet interface is asked once for each connection that is opened, by the key of a
slot of the resolve queue, and it answers each time once, whenever it likes.  The timer
for resolving may be first.  The slot is used again by other connections, but not before
the answer has come.

## Main definitions

* `Asking` — the machine beside the requests that are not answered yet.
* `Config.due`, `Config.fired` — the callbacks that are to come, and those that came.
* `Booked` — the slots, the requests and the callbacks agree.
* `AskOk` — an answer that comes too late changes no connection.

## Main results

* `trip_resolve_once` — **each connection is resolved, fails or times out at most once.**

## References

`src/trip.c` (`trip_open_connection`, `trip_resolve`), `src/conn.c`
(`_tripc_timeout_state_resolve_cb`), `src/resolveq.c`.
-/

namespace Libtrp

open Lib

/-! ### Requests -/

/-- What the packet interface is asked: the key, and the connection it stands for. -/
def Task.ask? : Task → Option (ℤ × Ptr)
  | .resolve c key => some (key, c)
  | _ => none

/-- The machine, and the requests that are not answered yet. -/
structure Asking where
  config : Config
  asked : List (ℤ × Ptr)

/-- A step; each request is answered once. -/
def Asking.step (s : Asking) (i : Input) : Option Asking :=
  match s.config.step i with
  | none => none
  | some c =>
    let new := (c.log.drop s.config.log.length).filterMap Task.ask?
    match i with
    | .call (.resolve key _ _ _) _ =>
      match s.asked.find? fun p => p.1 = key with
      | some p => some ⟨c, s.asked.erase p ++ new⟩
      | none => none
    | _ => some ⟨c, s.asked ++ new⟩

/-- All allocations of the step succeed. -/
def Input.Plenty : Input → Prop
  | .call _ o | .run _ o => o.alloc = Stream'.const true

/-- The steps for which there is memory. -/
def AskStep (s : Asking) (i : Input) (t : Asking) : Prop := s.step i = some t ∧ i.Plenty

/-! ### Callbacks that decide -/

/-- The connection `d` is to ask. -/
def Callback.opens (d : Ptr) : Callback → Bool
  | .tripOpenConnectionAsync c => c = d
  | _ => false

/-- The connection `d` times out. -/
def Callback.expires (d : Ptr) : Callback → Bool
  | .tripcTimeoutStateResolve c => c = d
  | _ => false

/-- The answer for the connection `d` is reported: it moves to `OPEN`, or is closed. -/
def Callback.reports (d : Ptr) : Callback → Bool
  | .tripResolveDelaySuccess c | .tripResolveDelayFailure c => c = d
  | _ => false

/-- The connection `d` moves to `OPEN` since it was resolved, or is closed since that
failed or took too long. -/
def Callback.decides (d : Ptr) (cb : Callback) : Bool := cb.reports d || cb.expires d

/-- The connection `d` is to ask, or has asked and may time out. -/
def Callback.waits (d : Ptr) (cb : Callback) : Bool := cb.opens d || cb.expires d

/-- A callback of `p`. -/
def Task.fires (p : Callback → Bool) : Task → Bool
  | .callback cb => p cb
  | _ => false

namespace Config

/-- How many callbacks of `p` are to come. -/
def due (c : Config) (p : Callback → Bool) : ℕ :=
  (c.router.pending p).length + c.todo.countP (Task.fires p)

/-- How many callbacks of `p` came. -/
def fired (c : Config) (p : Callback → Bool) : ℕ := c.log.countP (Task.fires p)

end Config

/-- **A connection is decided about at most once**, and requests that are not answered
have keys of their own, each of which stands for a slot. -/
structure AskGood (s : Asking) : Prop where
  once : ∀ d, s.config.fired (Callback.decides d) ≤ 1
  keys : (s.asked.map Prod.fst).Nodup ∧ ∀ p ∈ s.asked, 0 ≤ p.1

/-- An answer that comes when its connection has timed out changes nothing but the slot
of its key. -/
def AskOk (s : Asking) (i : Input) (t : Asking) : Prop :=
  match i with
  | .call (.resolve key _ _ _) _ =>
    ∀ d, (key, d) ∈ s.asked → s.config.fired (Callback.expires d) ≠ 0 →
      ∃ q, t.config.router = s.config.router.setResolveq q ∧ t.config.todo = s.config.todo
  | _ => True

/-! ### Slots, requests and callbacks -/

/-- What is known of the slots `q`, the keys of the connections below `brk`, the
callbacks that are due and those that have fired, and the requests. -/
structure Booked (r : Router) (due fired : (Callback → Bool) → ℕ) (asked : List (ℤ × Ptr)) :
    Prop where
  rep : ∃ l, ResolveqRep r.resolveq l
  /-- A connection in the queue is there by its key, and was not decided about. -/
  slot : ∀ key d, r.resolveq.slot key = some (some d) →
    (r.heap.conn d).resolvekey = key ∧ d < r.heap.brk ∧
      fired (Callback.decides d) + due (Callback.reports d) = 0
  /-- A connection that waits is in the queue. -/
  queued : ∀ d, due (Callback.waits d) ≠ 0 →
    r.resolveq.slot (r.heap.conn d).resolvekey = some (some d)
  waits : ∀ d, due (Callback.waits d) ≤ 1
  once : ∀ d, fired (Callback.decides d) + due (Callback.reports d) ≤ 1
  fresh : ∀ d, r.heap.brk ≤ d → fired (Callback.decides d) + due (Callback.reports d) = 0
  /-- The slot of a request is in use until the answer comes. -/
  inuse : ∀ key d, (key, d) ∈ asked → 0 ≤ key ∧ d < r.heap.brk ∧ due (Callback.opens d) = 0 ∧
    (r.resolveq.slot key = some none ∨ r.resolveq.slot key = some (some d))
  keys : (asked.map Prod.fst).Nodup

theorem Callback.ofResolve_of_waits {d : Ptr} {cb : Callback} (h : cb.waits d = true) :
    cb.ofResolve = true := by
  cases cb <;> first | rfl | exact absurd h Bool.false_ne_true

theorem Callback.ofResolve_of_reports {d : Ptr} {cb : Callback} (h : cb.reports d = true) :
    cb.ofResolve = true := by
  cases cb <;> first | rfl | exact absurd h Bool.false_ne_true

theorem Callback.ofResolve_of_opens {d : Ptr} {cb : Callback} (h : cb.opens d = true) :
    cb.ofResolve = true := by
  cases cb <;> first | rfl | exact absurd h Bool.false_ne_true

namespace Booked

variable {r r' : Router} {due fired due' fired' : (Callback → Bool) → ℕ} {asked : List (ℤ × Ptr)}

theorem init (preset : TripPreset) (now : ℕ) (buf : Buf) :
    Booked (tripNew preset now buf) (fun _ => 0) (fun _ => 0) [] where
  rep := ⟨[], resolveqRep_init⟩
  slot := fun key d h => by
    rw [show (tripNew preset now buf).resolveq = resolveqInit from rfl] at h
    simp [Resolveq.slot, resolveqInit] at h
  queued := fun _ h => absurd rfl h
  waits := fun _ => Nat.zero_le 1
  once := fun _ => Nat.zero_le 1
  fresh := fun _ _ => rfl
  inuse := fun _ _ h => absurd h List.not_mem_nil
  keys := List.nodup_nil

/-- No connection is new among those that wait, and what came was due. -/
theorem steady (h : Booked r due fired asked) (hbrk : r.heap.brk ≤ r'.heap.brk)
    (hkey : ∀ d < r.heap.brk, (r'.heap.conn d).resolvekey = (r.heap.conn d).resolvekey)
    (hq : r'.resolveq = r.resolveq)
    (hwaits : ∀ d, due' (Callback.waits d) ≤ due (Callback.waits d))
    (hopens : ∀ d, due' (Callback.opens d) ≤ due (Callback.opens d))
    (hsum : ∀ d, fired' (Callback.decides d) + due' (Callback.reports d) ≤
      fired (Callback.decides d) + due (Callback.reports d)) : Booked r' due' fired' asked where
  rep := hq ▸ h.rep
  slot := fun key d hd => by
    rw [hq] at hd
    obtain ⟨hk, hlt, hzero⟩ := h.slot key d hd
    exact ⟨(hkey d hlt).trans hk, hlt.trans_le hbrk, Nat.le_zero.mp ((hsum d).trans hzero.le)⟩
  queued := fun d hd => by
    have hslot := h.queued d fun hzero => hd (Nat.le_zero.mp ((hwaits d).trans hzero.le))
    rw [hq, hkey d (h.slot _ d hslot).2.1]
    exact hslot
  waits := fun d => (hwaits d).trans (h.waits d)
  once := fun d => (hsum d).trans (h.once d)
  fresh := fun d hd => Nat.le_zero.mp ((hsum d).trans (h.fresh d (hbrk.trans hd)).le)
  inuse := fun key d hd => by
    obtain ⟨hpos, hlt, hzero, hslot⟩ := h.inuse key d hd
    exact ⟨hpos, hlt.trans_le hbrk, Nat.le_zero.mp ((hopens d).trans hzero.le), by rwa [hq]⟩
  keys := h.keys

/-- A connection is put into the queue. -/
theorem opened (h : Booked r due fired asked) {cb : Option Callback} (ho : Opened r r' true cb)
    (hdue : ∀ p : Callback → Bool, (∀ cb, p cb = true → cb.ofResolve = true) →
      due' p ≤ due p + if cb.any p then 1 else 0)
    (hsum : ∀ d, fired' (Callback.decides d) + due' (Callback.reports d) ≤
      fired (Callback.decides d) + due (Callback.reports d)) : Booked r' due' fired' asked := by
  obtain ⟨l, hrep⟩ := h.rep
  obtain ⟨hfail, halloc⟩ | ⟨l', hrep', hpos, -, hfree, hslot⟩ := hrep.put r.heap.brk true
  · exact absurd halloc (by decide)
  -- the queue, and what begins, is new for the new connection only
  have hslot' : ∀ key, r'.resolveq.slot key =
      if key = (resolveqPut r.resolveq r.heap.brk true).1 then some (some r.heap.brk)
      else r.resolveq.slot key := by
    rw [ho.resolveq]
    exact hslot
  have hold : ∀ key d, r.resolveq.slot key = some (some d) → r'.resolveq.slot key =
    some (some d) := by
    intro key d hd
    rw [hslot', if_neg, hd]
    rintro rfl
    exact nomatch hfree.symm.trans hd
  have hany : ∀ (p : Ptr → Callback → Bool), (∀ d cb, p d cb = true → cb.ofResolve = true) →
      (∀ d c, p d (.tripOpenConnectionAsync c) = decide (c = d)) → ∀ d, d ≠ r.heap.brk →
        due' (p d) ≤ due (p d) := by
    intro p hp hopen d hd
    have hle := hdue (p d) (hp d)
    have hno : cb.any (p d) = false := by
      cases cb with
      | none => rfl
      | some cb =>
        rw [Option.any_some, ho.begins cb rfl, hopen]
        exact decide_eq_false (Ne.symm hd)
    rwa [hno] at hle
  have hfreshwaits : due (Callback.waits r.heap.brk) = 0 := by
    by_contra hne
    exact absurd (h.slot _ _ (h.queued _ hne)).2.1 (lt_irrefl _)
  have hbrk : r.heap.brk < r'.heap.brk := by
    rw [ho.brk]
    exact Nat.lt_succ_self _
  refine ⟨⟨l', ho.resolveq ▸ hrep'⟩, fun key d hd => ?_, fun d hd => ?_, fun d => ?_,
    fun d => (hsum d).trans (h.once d), fun d hd => ?_, fun key d hd => ?_, h.keys⟩
  · rw [hslot'] at hd
    split_ifs at hd with hkey
    · obtain rfl : r.heap.brk = d := by simpa using hd
      exact ⟨ho.key.trans hkey.symm, hbrk,
        Nat.le_zero.mp ((hsum _).trans (h.fresh _ le_rfl).le)⟩
    · obtain ⟨hk, hlt, hzero⟩ := h.slot key d hd
      exact ⟨(ho.moves.key d hlt).trans hk, hlt.trans hbrk,
        Nat.le_zero.mp ((hsum d).trans hzero.le)⟩
  · rcases eq_or_ne d r.heap.brk with rfl | hne
    · rw [ho.key, hslot', if_pos rfl]
    · have hle := hany Callback.waits (fun _ _ => Callback.ofResolve_of_waits)
        (fun _ _ => Bool.or_false _) d hne
      have hwas := h.queued d fun hzero => hd (Nat.le_zero.mp (hle.trans hzero.le))
      rw [ho.moves.key d (h.slot _ d hwas).2.1]
      exact hold _ d hwas
  · rcases eq_or_ne d r.heap.brk with rfl | hne
    · have hle := hdue _ fun _ => Callback.ofResolve_of_waits (d := r.heap.brk)
      rw [hfreshwaits, Nat.zero_add] at hle
      refine hle.trans ?_
      split <;> decide
    · exact (hany Callback.waits (fun _ _ => Callback.ofResolve_of_waits)
        (fun _ _ => Bool.or_false _) d hne).trans (h.waits d)
  · exact Nat.le_zero.mp ((hsum d).trans (h.fresh d (hbrk.le.trans hd)).le)
  · obtain ⟨hkey, hlt, hopens, hwas⟩ := h.inuse key d hd
    refine ⟨hkey, hlt.trans hbrk, ?_, ?_⟩
    · exact Nat.le_zero.mp ((hany Callback.opens (fun _ _ => Callback.ofResolve_of_opens)
        (fun _ _ => rfl) d hlt.ne).trans hopens.le)
    · have hkeep : r'.resolveq.slot key = r.resolveq.slot key := by
        rw [hslot', if_neg]
        rintro rfl
        rcases hwas with hwas | hwas <;> exact nomatch hfree.symm.trans hwas
      rwa [hkeep]

/-- The packet interface is asked for the connection `c`. -/
theorem ask (h : Booked r due fired asked) {c : Ptr} (hbrk : r.heap.brk ≤ r'.heap.brk)
    (hkey : ∀ d < r.heap.brk, (r'.heap.conn d).resolvekey = (r.heap.conn d).resolvekey)
    (hq : r'.resolveq = r.resolveq)
    (hwaits : ∀ d, due' (Callback.waits d) ≤ due (Callback.waits d))
    (hopens : ∀ d, due' (Callback.opens d) ≤ due (Callback.opens d))
    (hasks : due' (Callback.opens c) + 1 ≤ due (Callback.opens c))
    (hmono : due (Callback.opens c) ≤ due (Callback.waits c))
    (hsum : ∀ d, fired' (Callback.decides d) + due' (Callback.reports d) ≤
      fired (Callback.decides d) + due (Callback.reports d)) :
    Booked r' due' fired' (asked ++ [((r.heap.conn c).resolvekey, c)]) := by
  have hold := h.steady hbrk hkey hq hwaits hopens hsum
  have hslot := h.queued c (by omega)
  have hone := h.waits c
  obtain ⟨-, hlt, -⟩ := h.slot _ c hslot
  obtain ⟨i, hi, -⟩ := Resolveq.slot_eq_some.mp hslot
  refine { hold with inuse := fun key d hd => ?_, keys := ?_ }
  · rcases List.mem_append.mp hd with hd | hd
    · exact hold.inuse key d hd
    · obtain ⟨rfl, rfl⟩ := Prod.mk.inj (List.mem_singleton.mp hd)
      refine ⟨by omega, hlt.trans_le hbrk, by omega, Or.inr ?_⟩
      rw [hq]
      exact hslot
  · -- no other connection has the key of `c`, which has not asked before
    rw [List.map_append, List.nodup_append]
    refine ⟨h.keys, List.nodup_singleton _, ?_⟩
    rintro key hkey' _ hmem rfl
    obtain ⟨⟨k, d⟩, hd, rfl⟩ := List.mem_map.mp hkey'
    obtain rfl : k = (r.heap.conn c).resolvekey := List.mem_singleton.mp hmem
    obtain ⟨-, -, hzero, hnone | hsome⟩ := h.inuse _ d hd
    · exact nomatch hslot.symm.trans hnone
    · obtain rfl : c = d := by simpa using hslot.symm.trans hsome
      omega

/-- The connection `c` times out. -/
theorem timeout (h : Booked r due fired asked) {c : Ptr} (hbrk : r.heap.brk ≤ r'.heap.brk)
    (hkey : ∀ d < r.heap.brk, (r'.heap.conn d).resolvekey = (r.heap.conn d).resolvekey)
    (hq : resolveqDel r.resolveq (r.heap.conn c).resolvekey = some r'.resolveq)
    (hwaits : ∀ d, due' (Callback.waits d) + (if d = c then 1 else 0) ≤ due (Callback.waits d))
    (hopens : ∀ d, due' (Callback.opens d) ≤ due (Callback.opens d))
    (hsum : ∀ d, fired' (Callback.decides d) + due' (Callback.reports d) ≤
      fired (Callback.decides d) + due (Callback.reports d) + if d = c then 1 else 0) :
    Booked r' due' fired' asked := by
  obtain ⟨l, hrep⟩ := h.rep
  have hwas : r.resolveq.slot (r.heap.conn c).resolvekey = some (some c) := by
    have hle := hwaits c
    rw [if_pos rfl] at hle
    exact h.queued c (by omega)
  obtain ⟨q, hdel, hrep', -, hslot⟩ := hrep.del hwas
  obtain rfl : q = r'.resolveq := Option.some.inj (hdel.symm.trans hq)
  obtain ⟨-, hlt, hzero⟩ := h.slot _ c hwas
  have hother : ∀ d, d ≠ c → fired' (Callback.decides d) + due' (Callback.reports d) ≤
      fired (Callback.decides d) + due (Callback.reports d) := by
    intro d hd
    have hle := hsum d
    rwa [if_neg hd] at hle
  have hless : ∀ d, due' (Callback.waits d) ≤ due (Callback.waits d) :=
    fun d => (Nat.le_add_right _ _).trans (hwaits d)
  -- a slot that still holds a connection was not that of `c`
  have hkept : ∀ key d, r'.resolveq.slot key = some (some d) →
      d ≠ c ∧ r.resolveq.slot key = some (some d) := by
    intro key d hd
    rw [hslot] at hd
    split_ifs at hd with hk
    · exact absurd hd (by simp)
    · refine ⟨?_, hd⟩
      rintro rfl
      exact hk (h.slot key d hd).1.symm
  refine ⟨⟨l, hrep'⟩, fun key d hd => ?_, fun d hd => ?_, fun d => (hless d).trans (h.waits d),
    fun d => ?_, fun d hd => ?_, fun key d hd => ?_, h.keys⟩
  · obtain ⟨hne, hd⟩ := hkept key d hd
    obtain ⟨hk, hlt, hzero⟩ := h.slot key d hd
    exact ⟨(hkey d hlt).trans hk, hlt.trans_le hbrk,
      Nat.le_zero.mp ((hother d hne).trans hzero.le)⟩
  · have hne : d ≠ c := by
      rintro rfl
      have hle := hwaits d
      have hone := h.waits d
      rw [if_pos rfl] at hle
      omega
    have hd' := h.queued d fun hzero => hd (Nat.le_zero.mp ((hless d).trans hzero.le))
    rw [hslot, hkey d (h.slot _ d hd').2.1, if_neg, hd']
    intro hk
    rw [hk, hwas] at hd'
    exact hne (by simpa using hd'.symm)
  · rcases eq_or_ne d c with rfl | hne
    · have hle := hsum d
      rw [if_pos rfl, hzero] at hle
      exact hle
    · exact (hother d hne).trans (h.once d)
  · have hne : d ≠ c := by
      rintro rfl
      exact absurd (hlt.trans_le hbrk) (not_lt.mpr hd)
    exact Nat.le_zero.mp ((hother d hne).trans (h.fresh d (hbrk.trans hd)).le)
  · obtain ⟨hpos, hlt, hopen, hd⟩ := h.inuse key d hd
    refine ⟨hpos, hlt.trans_le hbrk, Nat.le_zero.mp ((hopens d).trans hopen.le), ?_⟩
    rw [hslot]
    split_ifs
    · exact Or.inl rfl
    · exact hd

/-- A request is answered: its slot is free again. -/
theorem answer (h : Booked r due fired asked) {key : ℤ} {d : Ptr} (hd : (key, d) ∈ asked)
    {e : Option Ptr} {q : Resolveq} (hpop : resolveqPop r.resolveq key = some (e, q)) :
    r.resolveq.slot key = some e ∧ (e = none ∨ e = some d) ∧ ∃ l, ResolveqRep q l ∧
      ∀ k, q.slot k = if k = key then none else r.resolveq.slot k := by
  obtain ⟨l, hrep⟩ := h.rep
  obtain ⟨-, -, -, hslot⟩ := h.inuse key d hd
  have hinuse : ∃ e', r.resolveq.slot key = some e' ∧ (e' = none ∨ e' = some d) := by
    rcases hslot with hslot | hslot
    · exact ⟨none, hslot, Or.inl rfl⟩
    · exact ⟨some d, hslot, Or.inr rfl⟩
  obtain ⟨e', he', hcases⟩ := hinuse
  obtain ⟨q', l', hpop', hrep', -, hslot'⟩ := hrep.pop he'
  obtain ⟨rfl, rfl⟩ : e' = e ∧ q' = q := by simpa using hpop'.symm.trans hpop
  exact ⟨he', hcases, l', hrep', hslot'⟩

/-- The requests that are left have other keys. -/
theorem ne_of_mem_erase (h : Booked r due fired asked) {p : ℤ × Ptr} (hp : p ∈ asked) {k : ℤ}
    {d : Ptr} (hd : (k, d) ∈ asked.erase p) : k ≠ p.1 := by
  rintro rfl
  have hmem := List.mem_of_mem_erase hd
  have heq : (p.1, d) = p := List.inj_on_of_nodup_map h.keys hmem hp rfl
  rw [heq] at hd
  exact absurd hd (List.Nodup.not_mem_erase h.keys.of_map)

/-- The answer comes, and is too late when the slot holds no connection; otherwise it is
to be reported, and the connection does not wait any longer. -/
theorem answered (h : Booked r due fired asked) {key : ℤ} {d : Ptr} (hd : (key, d) ∈ asked)
    {e : Option Ptr} {q : Resolveq} (hpop : resolveqPop r.resolveq key = some (e, q))
    (hbrk : r.heap.brk ≤ r'.heap.brk)
    (hkey : ∀ d < r.heap.brk, (r'.heap.conn d).resolvekey = (r.heap.conn d).resolvekey)
    (hq : r'.resolveq = q)
    (hwaits : ∀ d, due' (Callback.waits d) ≤ due (Callback.waits d))
    (hdisarmed : ∀ c ∈ e, due' (Callback.waits c) = 0)
    (hopens : ∀ d, due' (Callback.opens d) ≤ due (Callback.opens d))
    (hsum : ∀ d, fired' (Callback.decides d) + due' (Callback.reports d) ≤
      fired (Callback.decides d) + due (Callback.reports d) + if e = some d then 1 else 0) :
    Booked r' due' fired' (asked.erase (key, d)) := by
  subst hq
  obtain ⟨hwas, hcases, l, hrep, hslot⟩ := h.answer hd hpop
  have hother : ∀ c, e ≠ some c → fired' (Callback.decides c) + due' (Callback.reports c) ≤
      fired (Callback.decides c) + due (Callback.reports c) := by
    intro c hc
    have hle := hsum c
    rwa [if_neg hc] at hle
  have hkept : ∀ k c, r'.resolveq.slot k = some (some c) →
      e ≠ some c ∧ r.resolveq.slot k = some (some c) := by
    intro k c hc
    rw [hslot] at hc
    split_ifs at hc with hk
    refine ⟨?_, hc⟩
    rintro rfl
    exact hk ((h.slot k c hc).1.symm.trans (h.slot key c hwas).1)
  refine ⟨⟨l, hrep⟩, fun k c hc => ?_, fun c hc => ?_, fun c => (hwaits c).trans (h.waits c),
    fun c => ?_, fun c hc => ?_, fun k c hc => ?_, ?_⟩
  · obtain ⟨hne, hc⟩ := hkept k c hc
    obtain ⟨hk, hlt, hzero⟩ := h.slot k c hc
    exact ⟨(hkey c hlt).trans hk, hlt.trans_le hbrk,
      Nat.le_zero.mp ((hother c hne).trans hzero.le)⟩
  · have hne : e ≠ some c := fun he => hc (hdisarmed c he)
    have hc' := h.queued c fun hzero => hc (Nat.le_zero.mp ((hwaits c).trans hzero.le))
    rw [hslot, hkey c (h.slot _ c hc').2.1, if_neg, hc']
    intro hk
    rw [hk, hwas] at hc'
    exact hne (Option.some.inj hc')
  · by_cases he : e = some c
    · have hle := hsum c
      have hzero := (h.slot key c (he ▸ hwas)).2.2
      rw [if_pos he, hzero] at hle
      exact hle
    · exact (hother c he).trans (h.once c)
  · have hne : e ≠ some c := by
      rintro rfl
      exact absurd ((h.slot key c hwas).2.1.trans_le hbrk) (not_lt.mpr hc)
    exact Nat.le_zero.mp ((hother c hne).trans (h.fresh c (hbrk.trans hc)).le)
  · have hne := h.ne_of_mem_erase hd hc
    obtain ⟨hpos, hlt, hopen, hc⟩ := h.inuse k c (List.mem_of_mem_erase hc)
    refine ⟨hpos, hlt.trans_le hbrk, Nat.le_zero.mp ((hopens c).trans hopen.le), ?_⟩
    rwa [hslot, if_neg hne]
  · exact h.keys.sublist (List.erase_sublist.map _)

end Booked

/-! ### Counting -/

/-- The entries of fewer callbacks are fewer. -/
theorem Config.due_mono {p p' : Callback → Bool} (h : ∀ cb, p cb = true → p' cb = true)
    (c : Config) : c.due p ≤ c.due p' := by
  refine Nat.add_le_add (Timerwheel.pending_mono h).length_le (List.countP_mono_left ?_)
  intro t _ ht
  cases t <;> first | exact absurd ht Bool.false_ne_true | exact h _ ht

/-- Where neither kind is pending, neither is their union. -/
theorem Timerwheel.pending_or {κ : Type*} {p p' : κ → Bool} {tw : Timerwheel κ}
    (h : tw.pending p = []) (h' : tw.pending p' = []) :
    tw.pending (fun cb => p cb || p' cb) = [] := by
  unfold pending at h h' ⊢
  rw [List.map_eq_nil_iff, List.filter_eq_nil_iff] at h h' ⊢
  intro e he hpends
  have hp := h e he
  have hp' := h' e he
  unfold TimerEntry.pends at hp hp' hpends
  cases hcb : e.cb with
  | none => simp [hcb] at hpends
  | some cb =>
    simp only [hcb, Option.any_some, Bool.and_eq_true, Bool.not_eq_true', Bool.or_eq_true,
      not_and, Bool.not_eq_true] at hp hp' hpends
    rcases hpends.2 with hcb | hcb
    · rw [hp hpends.1] at hcb
      exact Bool.false_ne_true hcb
    · rw [hp' hpends.1] at hcb
      exact Bool.false_ne_true hcb

theorem Task.fires_of_mute {t : Task} (h : t.mute = true) (p : Callback → Bool) :
    t.fires p = false := by
  cases t <;> first | rfl | exact absurd h Bool.false_ne_true

theorem Task.fires_of_urgent {t : Task} (h : t.urgent = false) (p : Callback → Bool) :
    t.fires p = false := by
  cases t <;> first | rfl | exact absurd h (Bool.false_ne_true ∘ Eq.symm)

theorem Task.fires_of_isCallout {t : Task} (h : t.isCallout = true) (p : Callback → Bool) :
    t.fires p = false := by
  cases t <;> first | rfl | exact absurd h Bool.false_ne_true

theorem countP_fires {p : Callback → Bool} {ts : List Task} (h : ∀ u ∈ ts, u.fires p = false) :
    ts.countP (Task.fires p) = 0 :=
  List.countP_eq_zero.mpr fun u hu => by rw [h u hu]; exact Bool.false_ne_true

/-- Callouts are no callbacks. -/
theorem fired_append (p : Callback → Bool) (log begun ts : List Task) :
    (log ++ begun ++ ts.filter Task.isCallout).countP (Task.fires p) =
      log.countP (Task.fires p) + begun.countP (Task.fires p) := by
  rw [List.countP_append, List.countP_append, Nat.add_eq_left]
  exact countP_fires fun u hu => Task.fires_of_isCallout (List.mem_filter.mp hu).2 p

/-- What is logged of the task that was on top. -/
theorem countP_begun (p : Callback → Bool) (t : Task) :
    (if t.isCallout then [] else [t]).countP (Task.fires p) = if t.fires p then 1 else 0 := by
  cases hcall : t.isCallout with
  | false =>
    rw [if_neg (by decide), List.countP_cons, List.countP_nil, Nat.zero_add]
  | true =>
    rw [if_pos rfl, List.countP_nil, Task.fires_of_isCallout hcall, if_neg (by decide)]

/-- What a step asks the packet interface. -/
theorem asks_of_mute {ts : List Task} (h : ∀ u ∈ ts, u.mute = true) :
    ts.filterMap Task.ask? = [] := by
  refine List.filterMap_eq_nil_iff.mpr fun u hu => ?_
  have hmute := h u hu
  cases u <;> first | rfl | exact absurd hmute Bool.false_ne_true

/-- The requests among what was logged. -/
theorem filterMap_ask_log (log begun ts : List Task) (hbegun : begun.filterMap Task.ask? = []) :
    ((log ++ begun ++ ts.filter Task.isCallout).drop log.length).filterMap Task.ask? =
      ts.filterMap Task.ask? := by
  -- what asks is a callout
  have hask : ∀ t : Task, (if t.isCallout then t.ask? else none) = t.ask? := by
    intro t
    cases t <;> rfl
  rw [List.append_assoc, List.drop_left, List.filterMap_append, hbegun, List.nil_append,
    List.filterMap_filter]
  exact congrArg (List.filterMap · ts) (funext hask)

/-! ### The invariant -/

/-- What is known between two steps. -/
structure AskInv (s : Asking) : Prop where
  tidy : s.config.Tidy
  timed : Timed s.config.router
  due : ∀ t ∈ s.config.todo, t.Due s.config.router
  booked : Booked s.config.router s.config.due s.config.fired s.asked

namespace AskInv

variable {s t : Asking}

theorem good (hs : AskInv s) : AskGood s where
  once := fun d => (Nat.le_add_right _ _).trans (hs.booked.once d)
  keys := ⟨hs.booked.keys, fun p hp => (hs.booked.inuse p.1 p.2 hp).1⟩

/-- A call, which comes while no callback is on top.  `asked` are the requests that are
not answered before the new ones. -/
theorem call (hs : AskInv s) (hquiet : ∀ u ∈ s.config.todo, u.urgent = false) {api : Api}
    {r' : Router} {ts log : List Task} {asked : List (ℤ × Ptr)}
    (hm : api.Moved true s.config.router ts r') (ht : Timed r')
    (htidy : Config.Tidy ⟨r', ts ++ s.config.todo, log⟩)
    (hfired : ∀ p, Config.fired ⟨r', ts ++ s.config.todo, log⟩ p = s.config.fired p)
    (hasked : (∃ key src err emsg d, api = .resolve key src err emsg ∧ (key, d) ∈ s.asked ∧
        asked = s.asked.erase (key, d)) ∨
      (∀ key src err emsg, api ≠ .resolve key src err emsg) ∧ asked = s.asked) :
    ts.filterMap Task.ask? = [] ∧ AskInv ⟨⟨r', ts ++ s.config.todo, log⟩, asked⟩ := by
  have hrest : ∀ p, s.config.todo.countP (Task.fires p) = 0 :=
    fun p => countP_fires fun u hu => Task.fires_of_urgent (hquiet u hu) p
  have hwas : ∀ p, s.config.due p = (s.config.router.pending p).length := by
    intro p
    rw [Config.due, hrest, Nat.add_zero]
  -- what is left of the call is no callback either
  have key : (∀ u ∈ ts, u.mute = true) → (∀ p, Config.due ⟨r', ts ++ s.config.todo, log⟩ p =
      (r'.pending p).length) ∧ ∀ u ∈ ts ++ s.config.todo, u.Due r' := by
    intro hmute
    constructor
    · intro p
      show (r'.pending p).length + (ts ++ s.config.todo).countP _ = _
      rw [List.countP_append, hrest, countP_fires fun u hu => Task.fires_of_mute (hmute u hu) p,
        Nat.add_zero]
    · intro u hu
      rcases List.mem_append.mp hu with hu | hu
      · exact Task.due_of_mute (hmute u hu) r'
      · exact Task.due_of_urgent (hquiet u hu) r'
  cases hm with
  | steady hst hmute hne =>
    obtain ⟨hdue, hall⟩ := key hmute
    obtain ⟨_, _, _, _, _, rfl, -⟩ | ⟨-, rfl⟩ := hasked
    · exact absurd rfl (hne _ _ _ _)
    have hle : ∀ p : Callback → Bool, (∀ cb, p cb = true → cb.ofResolve = true) →
        Config.due ⟨r', ts ++ s.config.todo, log⟩ p ≤ s.config.due p := by
      intro p hp
      rw [hdue, hwas]
      simpa using hst.moves.pending p hp
    refine ⟨asks_of_mute hmute, htidy, ht, hall, ?_⟩
    refine hs.booked.steady hst.moves.brk hst.moves.key hst.resolveq ?_ ?_ fun d => ?_
    · exact fun d => hle _ fun _ => Callback.ofResolve_of_waits
    · exact fun d => hle _ fun _ => Callback.ofResolve_of_opens
    · rw [hfired]
      exact Nat.add_le_add_left (hle (Callback.reports d) fun _ => Callback.ofResolve_of_reports) _
  | @opened _ _ cb ho hmute =>
    obtain ⟨hdue, hall⟩ := key hmute
    obtain ⟨_, _, _, _, _, heq, -⟩ | ⟨-, rfl⟩ := hasked
    · exact nomatch heq
    refine ⟨asks_of_mute hmute, htidy, ht, hall, hs.booked.opened ho (fun p hp => ?_) fun d => ?_⟩
    · rw [hdue, hwas]
      exact ho.moves.pending p hp
    · rw [hfired, hdue, hwas]
      have hle := ho.moves.pending _ fun _ => Callback.ofResolve_of_reports (d := d)
      have hno : cb.any (Callback.reports d) = false := by
        cases cb with
        | none => rfl
        | some cb => rw [Option.any_some, ho.begins cb rfl]; rfl
      rw [hno] at hle
      exact Nat.add_le_add_left hle _
  | @late key src err emsg q hpop =>
    obtain ⟨hdue, hall⟩ := key (by simp)
    obtain ⟨_, _, _, _, d, heq, hd, rfl⟩ | ⟨hne, -⟩ := hasked
    swap
    · exact absurd rfl (hne _ _ _ _)
    obtain ⟨rfl, -⟩ := Api.resolve.inj heq
    refine ⟨rfl, htidy, ht, hall, ?_⟩
    refine hs.booked.answered hd hpop le_rfl (fun _ _ => rfl) rfl ?_ nofun ?_ fun d => ?_
    · exact fun d => by rw [hdue, hwas]; rfl
    · exact fun d => by rw [hdue, hwas]; rfl
    · rw [hfired, hdue, hwas, if_neg (by simp)]
      exact le_rfl
  | @answered key src err emsg d q _ hpop ha =>
    obtain ⟨hdue, hall⟩ := key (by simp)
    obtain ⟨_, _, _, _, d', heq, hd, rfl⟩ | ⟨hne, -⟩ := hasked
    swap
    · exact absurd rfl (hne _ _ _ _)
    obtain ⟨rfl, -⟩ := Api.resolve.inj heq
    obtain ⟨hslot, hcases, -⟩ := hs.booked.answer hd hpop
    obtain rfl : d = d' := by simpa using hcases
    obtain ⟨-, -, hopens, -⟩ := hs.booked.inuse _ _ hd
    -- only the report is new
    have hnew : ∃ cb, Moves (some cb) (s.config.router.setResolveq q) r' ∧
        (cb = .tripResolveDelaySuccess d ∨ cb = .tripResolveDelayFailure d) := by
      rcases ha.moves with hmoves | hmoves
      · exact ⟨_, hmoves, Or.inl rfl⟩
      · exact ⟨_, hmoves, Or.inr rfl⟩
    obtain ⟨cb, hmoves, hcb⟩ := hnew
    have hle : ∀ p : Callback → Bool, (∀ cb, p cb = true → cb.ofResolve = true) →
        p cb = false → (r'.pending p).length ≤ (s.config.router.pending p).length := by
      intro p hp hno
      have hle := hmoves.pending p hp
      rw [Option.any_some, hno] at hle
      exact hle
    have hopens' : ∀ e, (r'.pending (Callback.opens e)).length ≤
        (s.config.router.pending (Callback.opens e)).length := by
      refine fun e => hle _ (fun _ => Callback.ofResolve_of_opens) ?_
      rcases hcb with rfl | rfl <;> rfl
    refine ⟨rfl, htidy, ht, hall, ?_⟩
    refine hs.booked.answered hd hpop hmoves.brk hmoves.key ha.resolveq ?_ ?_ ?_ fun e => ?_
    · intro e
      rw [hdue, hwas]
      refine hle _ (fun _ => Callback.ofResolve_of_waits) ?_
      rcases hcb with rfl | rfl <;> rfl
    · rintro _ ⟨⟩
      have hnone : r'.pending (Callback.opens d) = [] := by
        rw [hwas] at hopens
        exact List.eq_nil_of_length_eq_zero (Nat.le_zero.mp ((hopens' d).trans hopens.le))
      have hexpires : r'.pending (Callback.expires d) = [] := by
        refine Timerwheel.pending_eq_nil_of_imp (fun cb hcb => ?_) ha.disarmed
        cases cb <;> first | exact hcb | exact absurd hcb Bool.false_ne_true
      rw [hdue]
      exact List.length_eq_zero_iff.mpr (Timerwheel.pending_or hnone hexpires)
    · intro e
      rw [hdue, hwas]
      exact hopens' e
    · rw [hfired, hdue, hwas, Nat.add_assoc]
      refine Nat.add_le_add_left ?_ _
      have hreports := hmoves.pending _ fun _ => Callback.ofResolve_of_reports (d := e)
      have hsame : Callback.reports e cb = decide (some d = some e) := by
        rcases hcb with rfl | rfl <;> simp [Callback.reports]
      simp only [Option.any_some, hsame, decide_eq_true_eq] at hreports
      exact hreports

/-- A turn of the task on top. -/
theorem run (hs : AskInv s) {u : Task} {rest : List Task} (htodo : s.config.todo = u :: rest)
    {r' : Router} {ts log : List Task} (hm : u.Moved s.config.router ts r') (ht : Timed r')
    (htidy : Config.Tidy ⟨r', ts ++ rest, log⟩)
    (hfired : ∀ p, Config.fired ⟨r', ts ++ rest, log⟩ p =
      s.config.fired p + if u.fires p then 1 else 0) :
    AskInv ⟨⟨r', ts ++ rest, log⟩, s.asked ++ ts.filterMap Task.ask?⟩ := by
  have hquiet : ∀ v ∈ rest, v.urgent = false := fun v hv => hs.tidy v (by rw [htodo]; exact hv)
  have hrest : ∀ p, rest.countP (Task.fires p) = 0 :=
    fun p => countP_fires fun v hv => Task.fires_of_urgent (hquiet v hv) p
  have hwas : ∀ p, s.config.due p =
      (s.config.router.pending p).length + if u.fires p then 1 else 0 := by
    intro p
    rw [Config.due, htodo, List.countP_cons, hrest, Nat.zero_add]
  have hdue : ∀ p, Config.due ⟨r', ts ++ rest, log⟩ p =
      (r'.pending p).length + ts.countP (Task.fires p) := by
    intro p
    show (r'.pending p).length + (ts ++ rest).countP _ = _
    rw [List.countP_append, hrest, Nat.add_zero]
  have hall : (∀ v ∈ ts, v.Due r') → ∀ v ∈ ts ++ rest, v.Due r' := by
    intro hts v hv
    rcases List.mem_append.mp hv with hv | hv
    · exact hts v hv
    · exact Task.due_of_urgent (hquiet v hv) r'
  have hmutes : (∀ v ∈ ts, v.mute = true) → (∀ v ∈ ts ++ rest, v.Due r') ∧
      ∀ p, Config.due ⟨r', ts ++ rest, log⟩ p = (r'.pending p).length := by
    intro hmute
    refine ⟨hall fun v hv => Task.due_of_mute (hmute v hv) r', fun p => ?_⟩
    rw [hdue, countP_fires fun v hv => Task.fires_of_mute (hmute v hv) p, Nat.add_zero]
  cases hm with
  | steady hst hmute hne =>
    obtain ⟨hdues, hdue⟩ := hmutes hmute
    rw [asks_of_mute hmute, List.append_nil]
    have hle : ∀ p : Callback → Bool, (∀ cb, p cb = true → cb.ofResolve = true) →
        (r'.pending p).length ≤ (s.config.router.pending p).length := by
      intro p hp
      simpa using hst.moves.pending p hp
    refine ⟨htidy, ht, hdues, ?_⟩
    refine hs.booked.steady hst.moves.brk hst.moves.key hst.resolveq ?_ ?_ fun d => ?_
    · intro d
      rw [hdue, hwas]
      exact (hle (Callback.waits d) fun _ => Callback.ofResolve_of_waits).trans
        (Nat.le_add_right _ _)
    · intro d
      rw [hdue, hwas]
      exact (hle (Callback.opens d) fun _ => Callback.ofResolve_of_opens).trans
        (Nat.le_add_right _ _)
    · -- a report that came was due
      have hsame : u.fires (Callback.decides d) = u.fires (Callback.reports d) := by
        cases u with
        | callback cb =>
          cases cb with
          | tripcTimeoutStateResolve c => exact absurd rfl (hne c).2
          | _ => simp [Task.fires, Callback.decides, Callback.reports, Callback.expires]
        | _ => rfl
      rw [hfired, hdue, hwas, hsame]
      have hle' := hle (Callback.reports d) fun _ => Callback.ofResolve_of_reports
      omega
  | @walk _ w' cb _ hheap hq hpending hdue' =>
    have hsame : ∀ p, Config.due ⟨r', [.callback cb, .walk w'] ++ rest, log⟩ p =
      s.config.due p := by
      intro p
      rw [hdue, hwas, ← hpending p]
      simp only [List.countP_cons, List.countP_nil, Task.fires, Bool.false_eq_true, if_false,
        Nat.add_zero, Nat.zero_add]
      rfl
    refine ⟨htidy, ht, hall ?_, ?_⟩
    · intro v hv
      rcases List.mem_cons.mp hv with rfl | hv
      · rintro _ ⟨⟩
        exact hdue'
      · rw [List.mem_singleton.mp hv]
        rintro _ ⟨⟩
    · rw [show [Task.callback cb, .walk w'].filterMap Task.ask? = [] from rfl, List.append_nil]
      refine hs.booked.steady (by rw [hheap]) (fun d _ => by rw [hheap]) hq ?_ ?_ fun d => ?_
      · exact fun d => (hsame _).le
      · exact fun d => (hsame _).le
      · rw [hsame, hfired]
        exact le_rfl
  | @ask c _ hmoves hq =>
    have hts : ∀ p, ([.resolve c (s.config.router.heap.conn c).resolvekey] : List Task).countP
        (Task.fires p) = 0 := fun p => rfl
    have hlen := fun p (hp : ∀ cb, p cb = true → cb.ofResolve = true) => hmoves.pending p hp
    refine ⟨htidy, ht, hall ?_, ?_⟩
    · intro v hv
      rw [List.mem_singleton.mp hv]
      rintro _ ⟨⟩
    · refine hs.booked.ask hmoves.brk hmoves.key hq (fun d => ?_) (fun d => ?_) ?_ ?_ fun d => ?_
      · have hwaits := hlen (Callback.waits d) fun _ => Callback.ofResolve_of_waits
        rw [hdue, hwas, hts, Nat.add_zero]
        simp only [Option.any_some, Task.fires, Callback.waits, Callback.opens, Callback.expires,
          Bool.or_false, Bool.false_or] at hwaits ⊢
        exact hwaits
      · rw [hdue, hwas, hts, Nat.add_zero]
        exact (hlen (Callback.opens d) fun _ => Callback.ofResolve_of_opens).trans
          (Nat.add_le_add_left (Nat.zero_le _) _)
      · rw [hdue, hwas, hts, Nat.add_zero]
        have hopens := hlen (Callback.opens c) fun _ => Callback.ofResolve_of_opens
        simp only [Option.any_some, Task.fires, Callback.opens, decide_true, if_true,
          Bool.false_eq_true, if_false, Nat.add_zero] at hopens ⊢
        exact Nat.add_le_add_right hopens 1
      · exact s.config.due_mono fun cb hcb => by simp [Callback.waits, hcb]
      · rw [hfired, hdue, hwas, hts, Nat.add_zero]
        have hreports := hlen (Callback.reports d) fun _ => Callback.ofResolve_of_reports
        simp only [Option.any_some, Task.fires, Callback.decides, Callback.reports,
          Callback.expires, Bool.or_self, Bool.false_eq_true, if_false, Nat.add_zero] at hreports ⊢
        exact Nat.add_le_add_left hreports _
  | @timeout c _ hdel hmoves =>
    obtain ⟨hdues, hdue⟩ := hmutes (by simp [tripCloseConnection, Task.mute])
    rw [show (tripCloseConnection c).filterMap Task.ask? = [] from rfl, List.append_nil]
    have hlen : ∀ p : Callback → Bool, (∀ cb, p cb = true → cb.ofResolve = true) →
        (r'.pending p).length ≤ (s.config.router.pending p).length := by
      intro p hp
      simpa using hmoves.pending p hp
    refine ⟨htidy, ht, hdues, ?_⟩
    refine hs.booked.timeout hmoves.brk hmoves.key hdel (fun d => ?_) (fun d => ?_) fun d => ?_
    · rw [hdue, hwas]
      have hwaits := hlen (Callback.waits d) fun _ => Callback.ofResolve_of_waits
      simp only [Task.fires, Callback.waits, Callback.opens, Callback.expires, Bool.false_or,
        decide_eq_true_eq, eq_comm (a := c)] at hwaits ⊢
      exact Nat.add_le_add_right hwaits _
    · rw [hdue, hwas]
      exact (hlen (Callback.opens d) fun _ => Callback.ofResolve_of_opens).trans
        (Nat.le_add_right _ _)
    · rw [hfired, hdue, hwas]
      have hreports := hlen (Callback.reports d) fun _ => Callback.ofResolve_of_reports
      simp only [Task.fires, Callback.decides, Callback.reports, Callback.expires, Bool.false_or,
        decide_eq_true_eq, Bool.false_eq_true, if_false, eq_comm (a := c)] at hreports ⊢
      omega

end AskInv

/-- A connection that has timed out is not in the queue. -/
theorem Booked.expired {c : Config} {asked : List (ℤ × Ptr)}
    (h : Booked c.router c.due c.fired asked) {key : ℤ} {d : Ptr}
    (hd : c.fired (Callback.expires d) ≠ 0) : c.router.resolveq.slot key ≠ some (some d) := by
  intro hslot
  have hle : c.fired (Callback.expires d) ≤ c.fired (Callback.decides d) := by
    refine List.countP_mono_left fun t _ ht => ?_
    cases t with
    | callback cb => exact Bool.or_eq_true _ _ |>.mpr (Or.inr ht)
    | _ => exact absurd ht Bool.false_ne_true
  have hzero := (h.slot key d hslot).2.2
  omega

/-- An answer that comes too late. -/
theorem Api.Moved.late_of_expired {s : Asking} (hs : AskInv s) {key src : ℤ} {err : Errno}
    {emsg : Option String} {r' : Router} {ts : List Task}
    (hm : Api.Moved true s.config.router (.resolve key src err emsg) ts r') {d : Ptr}
    (hd : (key, d) ∈ s.asked) (hfired : s.config.fired (Callback.expires d) ≠ 0) :
    ts = [] ∧ ∃ q, r' = s.config.router.setResolveq q := by
  cases hm with
  | steady _ _ hne => exact absurd rfl (hne _ _ _ _)
  | late hpop => exact ⟨rfl, _, rfl⟩
  | answered hpop _ =>
    obtain ⟨hslot, hcases, -⟩ := hs.booked.answer hd hpop
    obtain rfl := Option.some.inj (hcases.resolve_left (Option.some_ne_none _))
    exact absurd hslot (hs.booked.expired hfired)

theorem AskInv.known {s : Asking} (hs : AskInv s) : Known s.config where
  tidy := hs.tidy
  timed := hs.timed
  due := hs.due
  queued := fun d hd => by
    obtain ⟨i, hi, hget⟩ := List.mem_iff_getElem.mp hd
    have hslot : s.config.router.resolveq.slot i = some (some d) :=
      Resolveq.slot_eq_some.mpr ⟨i, rfl, List.getElem?_eq_some_iff.mpr ⟨hi, hget⟩⟩
    exact (hs.booked.slot i d hslot).2.1

/-- **The rule for one step.** -/
theorem AskInv.step {s t : Asking} {i : Input} (hs : AskInv s) (h : AskStep s i t) :
    AskOk s i t ∧ AskInv t := by
  obtain ⟨hstep, hplenty⟩ := h
  unfold Asking.step at hstep
  cases hc : s.config.step i with
  | none => simp [hc] at hstep
  | some c =>
    rw [hc] at hstep
    dsimp only at hstep
    obtain ⟨⟨htidy, ht, -, -⟩, hmoved⟩ := hs.known.step hc
    cases hmoved with
    | @call api o ts r' hquiet hm =>
      rw [show o.alloc.tail.head = true by rw [show o.alloc = Stream'.const true from hplenty]; rfl]
        at hm
      have hlog := filterMap_ask_log s.config.log [] ts rfl
      rw [List.append_nil] at hlog
      have hfired : ∀ p, Config.fired ⟨r', ts ++ s.config.todo,
          s.config.log ++ ts.filter Task.isCallout⟩ p = s.config.fired p := by
        intro p
        have hcount := fired_append p s.config.log [] ts
        rwa [List.append_nil] at hcount
      rw [hlog] at hstep
      split at hstep
      · next key src err emsg o' heq =>
        obtain ⟨rfl, rfl⟩ := Input.call.inj heq
        cases hfind : s.asked.find? fun p => p.1 = key with
        | none => simp [hfind] at hstep
        | some p =>
          rw [hfind] at hstep
          obtain rfl := Option.some.inj hstep
          obtain ⟨k, d⟩ := p
          obtain rfl : k = key := by simpa using List.find?_some hfind
          have hd := List.mem_of_find?_eq_some hfind
          obtain ⟨hnone, hinv⟩ := hs.call hquiet hm ht htidy hfired
            (Or.inl ⟨k, src, err, emsg, d, rfl, hd, rfl⟩)
          rw [hnone, List.append_nil]
          refine ⟨fun d' hd' hexpired => ?_, hinv⟩
          obtain ⟨rfl, q, hq⟩ := hm.late_of_expired hs hd' hexpired
          exact ⟨q, hq, rfl⟩
      · next hne =>
        obtain rfl := Option.some.inj hstep
        have hne' : ∀ key src err emsg, api ≠ .resolve key src err emsg := by
          rintro key src err emsg rfl
          exact hne key src err emsg o rfl
        obtain ⟨hnone, hinv⟩ := hs.call hquiet hm ht htidy hfired (Or.inr ⟨hne', rfl⟩)
        rw [hnone, List.append_nil]
        refine ⟨?_, hinv⟩
        unfold AskOk
        split
        · next key src err emsg o' heq => exact absurd (Input.call.inj heq).1 (hne' _ _ _ _)
        · trivial
    | @run code o u rest ts r' htodo _ hm =>
      have hbegun : (if u.isCallout then [] else [u]).filterMap Task.ask? = [] := by
        cases u <;> rfl
      have hlog := filterMap_ask_log s.config.log (if u.isCallout then [] else [u]) ts hbegun
      have hfired : ∀ p, Config.fired ⟨r', ts ++ rest, s.config.log ++
          (if u.isCallout then [] else [u]) ++ ts.filter Task.isCallout⟩ p =
            s.config.fired p + if u.fires p then 1 else 0 := by
        intro p
        exact (fired_append p _ _ ts).trans (congrArg _ (countP_begun p u))
      rw [hlog] at hstep
      obtain rfl := Option.some.inj hstep
      exact ⟨trivial, hs.run htodo hm ht htidy hfired⟩

/-! ### Runs -/

/-- A new router, which has asked nothing. -/
def Asking.idle (r : Router) : Asking := ⟨.idle r, []⟩

theorem askInv_idle (preset : TripPreset) (now : ℕ) (buf : Buf) :
    AskInv (.idle (tripNew preset now buf)) where
  tidy := Config.tidy_idle _
  timed := (known_idle preset now buf).timed
  due := fun _ ht => absurd ht List.not_mem_nil
  booked := .init preset now buf

/-- **One answer for each connection**: in every run with memory in which each request is
answered at most once, a connection is resolved, fails or times out at most once, and an
answer that comes after the time out changes no connection. -/
theorem trip_resolve_once (preset : TripPreset) (now : ℕ) (buf : Buf)
    {r : List (Input × Asking)} (hr : IsRun AskStep (.idle (tripNew preset now buf)) r) :
    Holds AskGood AskOk (.idle (tripNew preset now buf)) r := by
  refine Holds.mono (fun s hs => AskInv.good hs) (fun _ _ _ _ hok => hok)
    (holds_of_meets ?_ (askInv_idle preset now buf) hr (meets_of_forall (fun _ _ => trivial) r _))
  intro s i t hs _ h
  exact hs.step h

/-- A connection is opened and times out; the answer comes late, and the next connection
resolves with the same key. -/
def lateInputs : List Input :=
  listenInputs ++ [.call .openConnection plainOracle, .call .timeout plainOracle] ++
    List.replicate 6 turn ++
    [.call .timeout { plainOracle with clock := Stream'.const 1000 }] ++ List.replicate 5 turn ++
    [.call (.resolve 0 2 0 none) plainOracle, .call .openConnection plainOracle,
      .call .timeout plainOracle] ++ List.replicate 5 turn ++
    [.call (.resolve 0 2 0 none) plainOracle, .call .timeout plainOracle, turn, turn]

theorem plenty_lateInputs : ∀ i ∈ lateInputs, i.Plenty := by
  have hplain : plainOracle.alloc = Stream'.const true := rfl
  simp [lateInputs, listenInputs, startInputs, turn, Input.Plenty, hplain, or_imp, forall_and]

/-- The late answer to a connection that has timed out. -/
theorem trip_resolve_once_late :
    Holds AskGood AskOk (.idle (tripNew .ROUTER 0 fun _ => 0))
      (trace (fun i s => (s.step i).getD s) (.idle (tripNew .ROUTER 0 fun _ => 0)) lateInputs) :=
  trip_resolve_once .ROUTER 0 (fun _ => 0)
    ((isRun_trace (by decide)).and_meets (meets_trace _ plenty_lateInputs _))

end Libtrp
