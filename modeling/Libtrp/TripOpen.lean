import Libtrp.Reject
import Libtrp.TripResolve
import Libtrp.TripStop

/-!
# Opening a connection that fails

Opening a connection takes a connection, a slot of the resolve queue, a slot of the
connection map and a timer, in this order.  When one of them is not to be had, those that
were taken before would have to be given back.  They are not: only a connection that is
not made at all leaves no trace, and one that finds no slot in both tables.

## Main definitions

* `OpenFails r o` — one of the four is not to be had.
* `OpenBare r o` — nothing but the connection itself was taken.
* `Task.keyed d` — a task that uses the key of the connection `d`.
* `Recovers c c'` — the call leaves no trace but a connection that is told to the user.

## Main results

* `Silent.step` — a connection nobody waits for never uses its key.
* `trip_open_connection_recovers` — **the call recovers if and only if nothing was taken.**

## References

`src/trip.c` (`trip_open_connection`, `_trip_reject_connection`), `src/resolveq.c`,
`src/connmap.c`.
-/

namespace Libtrp

open Lib

/-! ### What fails -/

section Fails

variable (r : Router) (o : Oracle)

/-- `resolveq_put` finds no slot, and no memory for one. -/
def PutFails : Prop := r.resolveq.free = none ∧ o.alloc.tail.head = false

/-- `connmap_add` finds no slot, and may have no more or finds no memory for them. -/
def AddFails : Prop :=
  r.conn.free = none ∧ (connmapMax r.conn ≤ r.conn.size ∨ o.alloc.tail.tail.head = false)

/-- `trip_open_connection` fails: where outgoing connections are allowed, the connection,
the slots or the timer is not to be had. -/
def OpenFails : Prop :=
  r.has triprFlagAllowOut = false ∨ o.alloc.head = false ∨ PutFails r o ∨ AddFails r o ∨
    o.alloc.tail.tail.tail.head = false

/-- Nothing but the connection itself is taken before it fails. -/
def OpenBare : Prop :=
  r.has triprFlagAllowOut = false ∨ o.alloc.head = false ∨ PutFails r o ∧ AddFails r o

instance : Decidable (OpenFails r o) := by
  unfold OpenFails PutFails AddFails; infer_instance

instance : Decidable (OpenBare r o) := by
  unfold OpenBare PutFails AddFails; infer_instance

end Fails

/-- When `connmap_add` fails. -/
theorem connmapAddCode_ne_zero {m : Connmap} {alloc : Bool} : connmapAddCode m alloc ≠ 0 ↔
    m.free = none ∧ (connmapMax m ≤ m.size ∨ alloc = false) := by
  unfold connmapAddCode connmapHasFree
  cases hfree : m.free with
  | some i => simp
  | none =>
    rw [Option.isSome_none, if_neg (by decide)]
    unfold connmapGrow
    by_cases hsize : connmapMax m ≤ m.size
    · rw [if_pos hsize]
      exact iff_of_true (show ENOSPC ≠ 0 by decide) ⟨rfl, Or.inl hsize⟩
    · rw [if_neg hsize]
      cases alloc with
      | false => exact iff_of_true (show ENOMEM ≠ 0 by decide) ⟨rfl, Or.inr rfl⟩
      | true =>
        rw [if_neg (by decide)]
        refine iff_of_false ?_ (by simp [hsize])
        cases m.map <;> simp

/-! ### What is left of a failed call -/

/-- The key of the connection `d` is used: the packet interface is asked with it or is to
be asked, or its slot is emptied since the connection timed out. -/
def Task.keyed (d : Ptr) : Task → Bool
  | .resolve c _ => c = d
  | t => t.fires (Callback.waits d)

/-- The call leaves no trace: the map and the resolve queue hold what they held, the user
is told once, with an error, and the key of a connection that was made is not used in any
run from there. -/
structure Recovers (c c' : Config) : Prop where
  mapped : ∀ d, c'.router.conn.Has d ↔ c.router.conn.Has d
  mapSize : c'.router.conn.size = c.router.conn.size
  slots : ∀ key, c'.router.resolveq.slot key = c.router.resolveq.slot key
  queueSize : c'.router.resolveq.size = c.router.resolveq.size
  told : (∃ d, c'.log = c.log ++ [.connection d] ∧ (c'.router.heap.conn d).error ≠ 0) ∨
    ∃ err, c'.log = c.log ++ [.reject err] ∧ err ≠ 0
  unused : ∀ d, c.router.heap.brk ≤ d → d < c'.router.heap.brk →
    ∀ r, IsRun Config.Step c' r →
      Holds (fun e => e.log.countP (Task.keyed d) = c.log.countP (Task.keyed d))
        (fun _ _ _ => True) c' r

/-- The connection `d` was made, and nobody waits for it. -/
def Silent (d : Ptr) (c : Config) : Prop :=
  d < c.router.heap.brk ∧ c.due (Callback.waits d) = 0

theorem Task.keyed_of_mute {t : Task} (h : t.mute = true) (d : Ptr) : t.keyed d = false := by
  cases t <;> first | rfl | exact absurd h Bool.false_ne_true

/-- A callout is keyed when it asks. -/
theorem Task.keyed_begun {u : Task} {d : Ptr} (h : u.fires (Callback.waits d) = false) :
    (if u.isCallout then [] else [u]).countP (Task.keyed d) = 0 := by
  cases hcall : u.isCallout with
  | true => rfl
  | false =>
    have hkey : u.keyed d = false := by
      cases u <;> first | exact h | exact absurd hcall (Bool.false_ne_true ∘ Eq.symm)
    simp [hkey]

theorem countP_keyed_callouts {ts : List Task} {d : Ptr} (h : ∀ u ∈ ts, u.mute = true) :
    (ts.filter Task.isCallout).countP (Task.keyed d) = 0 := by
  refine List.countP_eq_zero.mpr fun u hu => ?_
  rw [Task.keyed_of_mute (h u (List.mem_filter.mp hu).1)]
  exact Bool.false_ne_true

/-- Nobody waits for a connection where nobody did, and no callback comes of it. -/
theorem Moves.not_waiting {r r' : Router} {cb : Option Callback} {d : Ptr} (h : Moves cb r r')
    (hcb : cb.any (Callback.waits d) = false) (hr : (r.pending (Callback.waits d)).length = 0) :
    (r'.pending (Callback.waits d)).length = 0 := by
  have hle := h.pending (Callback.waits d) fun _ => Callback.ofResolve_of_waits
  rw [hr, hcb] at hle
  exact Nat.le_zero.mp hle

namespace Silent

variable {c c' : Config} {i : Input} {d : Ptr}

/-- A call arms no callback that would wait for the connection. -/
theorem pending_call (hd : d < c.router.heap.brk) {alloc : Bool} {api : Api} {ts : List Task}
    {r' : Router} (hm : api.Moved alloc c.router ts r')
    (hp : (c.router.pending (Callback.waits d)).length = 0) :
    c.router.heap.brk ≤ r'.heap.brk ∧ (r'.pending (Callback.waits d)).length = 0 := by
  cases hm with
  | steady hst _ _ => exact ⟨hst.moves.brk, hst.moves.not_waiting rfl hp⟩
  | @opened _ _ cb ho _ =>
    refine ⟨ho.moves.brk, ho.moves.not_waiting ?_ hp⟩
    cases cb with
    | none => rfl
    | some cb =>
      rw [Option.any_some, ho.begins cb rfl]
      simpa [Callback.waits, Callback.opens, Callback.expires] using hd.ne'
  | late _ => exact ⟨le_rfl, hp⟩
  | answered _ ha =>
    rcases ha.moves with hmoves | hmoves
    · exact ⟨hmoves.brk, hmoves.not_waiting rfl hp⟩
    · exact ⟨hmoves.brk, hmoves.not_waiting rfl hp⟩

/-- A task on top that does not wait for the connection leaves none that does, and asks for
another one if any. -/
theorem pending_run {u : Task} {ts : List Task} {r' : Router} (hm : u.Moved c.router ts r')
    (hu : u.fires (Callback.waits d) = false)
    (hp : (c.router.pending (Callback.waits d)).length = 0) :
    c.router.heap.brk ≤ r'.heap.brk ∧ (r'.pending (Callback.waits d)).length = 0 ∧
      ts.countP (Task.fires (Callback.waits d)) = 0 ∧
      (ts.filter Task.isCallout).countP (Task.keyed d) = 0 := by
  have hmutes : ∀ {ts : List Task}, (∀ v ∈ ts, v.mute = true) →
      ts.countP (Task.fires (Callback.waits d)) = 0 ∧
        (ts.filter Task.isCallout).countP (Task.keyed d) = 0 :=
    fun hmute => ⟨countP_fires fun v hv => Task.fires_of_mute (hmute v hv) _,
      countP_keyed_callouts hmute⟩
  cases hm with
  | steady hst hmute _ =>
    exact ⟨hst.moves.brk, hst.moves.not_waiting rfl hp, hmutes hmute⟩
  | @walk _ w' cb _ hheap _ hpending _ =>
    -- what is taken out was pending
    have hsum := hpending (Callback.waits d)
    rw [hp] at hsum
    have hno : Callback.waits d cb = false := by
      by_contra hyes
      rw [if_pos (Bool.not_eq_false _ |>.mp hyes)] at hsum
      exact absurd hsum (Nat.succ_ne_zero _)
    refine ⟨(congrArg ConnHeap.brk hheap).ge, by omega, ?_, rfl⟩
    simp [Task.fires, hno]
  | @ask e _ hmoves _ =>
    have hne : e ≠ d := by
      simpa [Task.fires, Callback.waits, Callback.opens, Callback.expires] using hu
    refine ⟨hmoves.brk, hmoves.not_waiting ?_ hp, rfl, ?_⟩
    · simpa [Callback.waits, Callback.opens, Callback.expires] using hne
    · simpa [Task.isCallout, Task.keyed] using hne
  | timeout _ hmoves =>
    exact ⟨hmoves.brk, hmoves.not_waiting rfl hp, hmutes (by simp [tripCloseConnection, Task.mute])⟩

/-- **Nobody waits for the connection later**, and its key is not used. -/
theorem step (hs : Silent d c) (hm : c.Moved i c') :
    Silent d c' ∧ c'.log.countP (Task.keyed d) = c.log.countP (Task.keyed d) := by
  obtain ⟨hd, hdue⟩ := hs
  obtain ⟨hpending, htodo⟩ := Nat.add_eq_zero_iff.mp hdue
  cases hm with
  | @call api o ts r' hrest hm =>
    obtain ⟨hbrk, hpending'⟩ := pending_call hd hm hpending
    refine ⟨⟨hd.trans_le hbrk, ?_⟩, ?_⟩
    · show (r'.pending _).length + (ts ++ c.todo).countP _ = 0
      rw [hpending', List.countP_append, htodo,
        countP_fires fun v hv => Task.fires_of_mute (hm.mute v hv) _]
    · rw [List.countP_append, countP_keyed_callouts hm.mute, Nat.add_zero]
  | @run code o u rest ts r' hu hrest hm =>
    rw [hu, List.countP_cons] at htodo
    have hfires : u.fires (Callback.waits d) = false := by
      by_contra hyes
      rw [if_pos (Bool.not_eq_false _ |>.mp hyes)] at htodo
      exact absurd htodo (Nat.succ_ne_zero _)
    obtain ⟨hbrk, hpending', hts, hasks⟩ := pending_run hm hfires hpending
    refine ⟨⟨hd.trans_le hbrk, ?_⟩, ?_⟩
    · show (r'.pending _).length + (ts ++ rest).countP _ = 0
      rw [hpending', List.countP_append, hts]
      omega
    · rw [List.countP_append, List.countP_append, Task.keyed_begun hfires, hasks, Nat.add_zero]

/-- **In no run** from where nobody waits for a connection its key is used. -/
theorem run (hc : Known c) (hs : Silent d c) {r : List (Input × Config)}
    (hr : IsRun Config.Step c r) :
    Holds (fun e => e.log.countP (Task.keyed d) = c.log.countP (Task.keyed d))
      (fun _ _ _ => True) c r := by
  have hstep : ∀ e i e',
      (Known e ∧ Silent d e ∧ e.log.countP (Task.keyed d) = c.log.countP (Task.keyed d)) → True →
        Config.Step e i e' → True ∧ Known e' ∧ Silent d e' ∧
          e'.log.countP (Task.keyed d) = c.log.countP (Task.keyed d) := by
    rintro e i e' ⟨he, hse, hlog⟩ - hstep
    obtain ⟨he', hm⟩ := he.step hstep
    obtain ⟨hse', hlog'⟩ := hse.step hm
    exact ⟨trivial, he', hse', hlog'.trans hlog⟩
  have hall := holds_of_meets hstep ⟨hc, hs, rfl⟩ hr (meets_of_forall (fun _ _ => trivial) r c)
  exact hall.mono (fun e he => he.2.2) fun _ _ _ _ hok => hok

end Silent

/-! ### The call -/

/-- What a call of `trip_open_connection` does. -/
theorem Config.step_openConnection {c c' : Config} {o : Oracle}
    (h : c.Step (.call .openConnection o) c') : c.waits = true ∧ ∃ ts,
      Opens ⟨c.router, o, []⟩ ts c'.router ∧ c'.todo = ts ++ c.todo ∧
        c'.log = c.log ++ ts.filter Task.isCallout := by
  rcases step_cases h with ⟨api, o', ts, e, heq, hw, hexec, rfl⟩ |
    ⟨code, o', u, rest, ts, e, heq, -⟩
  · obtain ⟨rfl, rfl⟩ := Input.call.inj heq
    obtain ⟨ts', t', hexec', hopens⟩ := exec_tripOpenConnection ⟨c.router, o, []⟩
    obtain ⟨rfl, rfl⟩ : ts' = ts ∧ t' = e := by simpa using hexec'.symm.trans hexec
    exact ⟨hw, ts', hopens, rfl, rfl⟩
  · exact nomatch heq

/-- No callback waits for a connection that is just made, unless its timer was set. -/
theorem Known.silent {c c' : Config} {ts : List Task} (hc : Known c)
    (hw : c.waits = true) (htodo : c'.todo = ts ++ c.todo) (hts : ∀ u ∈ ts, u.mute = true)
    {d : Ptr} (hd : c.router.heap.brk ≤ d) (hbrk : d < c'.router.heap.brk)
    (hm : Moves none c.router c'.router) : Silent d c' := by
  refine ⟨hbrk, ?_⟩
  have hwas : c.router.pending (Callback.waits d) = [] := by
    refine Timerwheel.pending_eq_nil_of_imp (fun cb hcb => ?_) hc.timed.bound
    cases cb <;> simp_all [Callback.waits, Callback.opens, Callback.expires, Callback.beyond,
      Callback.conn?]
  show (c'.router.pending _).length + c'.todo.countP _ = 0
  rw [hm.not_waiting rfl (by rw [hwas]; rfl), htodo, List.countP_append,
    countP_fires fun u hu => Task.fires_of_mute (hts u hu) _,
    countP_fires fun u hu => Task.fires_of_urgent (hc.tidy.of_waits hw u hu) _]

/-- The code of `connmap_add`. -/
theorem connmapAdd_fails {r : Router} {o : Oracle} {h : ConnHeap} {d : Ptr} {r₁ r₂ : UInt32}
    {code : Errno} {mh : Connmap × ConnHeap}
    (hadd : connmapAdd r.conn h d o.alloc.tail.tail.head r₁ r₂ = (code, mh)) :
    code ≠ 0 ↔ AddFails r o := by
  rw [← show (connmapAdd r.conn h d o.alloc.tail.tail.head r₁ r₂).1 = code by rw [hadd],
    connmapAdd_code]
  exact connmapAddCode_ne_zero

/-- **Nothing is left** of a call that took nothing but the connection. -/
theorem OpenBare.recovers {c c' : Config} {o : Oracle} (hc : Known c)
    (h : c.Step (.call .openConnection o) c') (hbare : OpenBare c.router o) : Recovers c c' := by
  obtain ⟨hw, ts, hopens, htodo, hlog⟩ := Config.step_openConnection h
  have hknown := (hc.step h).1
  generalize hr' : c'.router = r' at hopens
  cases hopens with
  | @reject err herr =>
    have hne : err ≠ 0 := by
      rcases herr with ⟨-, rfl⟩ | ⟨-, rfl⟩ <;> decide
    refine ⟨fun d => by rw [hr'], by rw [hr'], fun key => by rw [hr'], by rw [hr'],
      .inr ⟨err, hlog, hne⟩, fun d hd hlt => ?_⟩
    rw [hr'] at hlt
    exact absurd hlt (not_lt.mpr hd)
  | @busy code mh errmsg hallow halloc hadd hcode =>
    rcases hbare with hno | hno | ⟨hput, hfull⟩
    · exact absurd (hno.symm.trans hallow) Bool.false_ne_true
    · exact absurd (hno.symm.trans halloc) Bool.false_ne_true
    -- the map and the queue are as they were
    have hmap : c'.router.conn = c.router.conn := by
      have hsize := (connmapAdd_size hc.timed.sized
        (tripOpenFresh c.router o.alloc.tail.head).heap c.router.heap.brk o.alloc.tail.tail.head
        o.random.head o.random.tail.head).2
      rw [hr', ← hsize (by rw [hadd]; exact hcode), hadd]
      rfl
    have hqueue : c'.router.resolveq = c.router.resolveq := by
      rw [hr']
      exact congrArg Prod.snd (Resolveq.put_fails hput c.router.heap.brk)
    refine ⟨fun d => by rw [hmap], by rw [hmap], fun key => by rw [hqueue], by rw [hqueue],
      .inl ⟨c.router.heap.brk, hlog, ?_⟩, fun d hd hlt => ?_⟩
    · rw [hr', Router.setConn, ConnHeap.conn_set_self]
      exact show EBUSY ≠ 0 by decide
    · intro r hr
      have hmoves : Moves none c.router c'.router := by
        rw [hr']
        exact (tripOpenFresh_setMap _ _ hadd).1.trans (.setConn _ _ fun _ => rfl)
      have hkeyed : c'.log.countP (Task.keyed d) = c.log.countP (Task.keyed d) := by
        rw [hlog, List.countP_append]
        rfl
      rw [← hkeyed]
      exact (hc.silent hw htodo (by simp [Task.mute]) hd hlt hmoves).run hknown hr
  | timer errmsg hallow halloc hadd _ =>
    rcases hbare with hno | hno | ⟨-, hfull⟩
    · exact absurd (hno.symm.trans hallow) Bool.false_ne_true
    · exact absurd (hno.symm.trans halloc) Bool.false_ne_true
    · exact absurd rfl ((connmapAdd_fails hadd).mpr hfull)
  | armed now now' hallow halloc hadd _ =>
    rcases hbare with hno | hno | ⟨-, hfull⟩
    · exact absurd (hno.symm.trans hallow) Bool.false_ne_true
    · exact absurd (hno.symm.trans halloc) Bool.false_ne_true
    · exact absurd rfl ((connmapAdd_fails hadd).mpr hfull)

/-- **What was taken stays**, where more than the connection was. -/
theorem OpenBare.of_recovers {c c' : Config} {o : Oracle} (hc : Known c)
    (h : c.Step (.call .openConnection o) c') (hr : Recovers c c') : OpenBare c.router o := by
  obtain ⟨-, ts, hopens, -, -⟩ := Config.step_openConnection h
  -- a connection that is added stays in the map
  have hadded : ∀ {mh : Connmap × ConnHeap}, connmapAdd c.router.conn
      (tripOpenFresh c.router o.alloc.tail.head).heap c.router.heap.brk o.alloc.tail.tail.head
      o.random.head o.random.tail.head = (0, mh) → c'.router.conn = mh.1 → OpenBare c.router o := by
    intro mh hadd hmap
    have hsize := (connmapAdd_size hc.timed.sized
      (tripOpenFresh c.router o.alloc.tail.head).heap c.router.heap.brk o.alloc.tail.tail.head
      o.random.head o.random.tail.head).1
    rw [hadd] at hsize
    have hmore : mh.1.size = c.router.conn.size + 1 := hsize rfl
    have hsame := hr.mapSize
    rw [hmap, hmore] at hsame
    exact absurd hsame (Nat.succ_ne_self _)
  generalize hr' : c'.router = r' at hopens
  cases hopens with
  | reject hno => exact hno.imp And.left fun h => Or.inl h.1
  | @busy code mh errmsg hallow halloc hadd hcode =>
    refine Or.inr (Or.inr ⟨?_, (connmapAdd_fails hadd).mp hcode⟩)
    -- otherwise the connection stays in the queue
    by_contra hput
    have hmore := Resolveq.put_size hput c.router.heap.brk
    have hsame := hr.queueSize
    rw [hr'] at hsame
    have hsize : (resolveqPut c.router.resolveq c.router.heap.brk o.alloc.tail.head).2.size =
        c.router.resolveq.size := hsame
    omega
  | timer errmsg hallow halloc hadd _ => exact hadded hadd (by rw [hr']; rfl)
  | armed now now' hallow halloc hadd _ => exact hadded hadd (by rw [hr']; rfl)

/-- **A call** leaves no trace if and only if it fails with nothing but the connection
taken: it is not made at all, or no slot is found for it in the resolve queue and none in
the map. -/
theorem trip_open_connection_recovers (preset : TripPreset) (now : ℕ) (buf : Buf)
    {c c' : Config} {o : Oracle}
    (hreach : Reaches Config.Step (fun _ _ => True) (.idle (tripNew preset now buf)) c)
    (h : c.Step (.call .openConnection o) c') : Recovers c c' ↔ OpenBare c.router o :=
  ⟨OpenBare.of_recovers (.of_reaches hreach) h, OpenBare.recovers (.of_reaches hreach) h⟩

/-- An oracle whose allocations are answered by `f`, in order. -/
def allocating (f : ℕ → Bool) : Oracle := { plainOracle with alloc := f }

/-- The router that listens, once a connection was opened. -/
def opening (o : Oracle) : Config := (listening.step (.call .openConnection o)).getD listening

/-- There is memory for the connection only. -/
theorem trip_open_connection_recovers_bare :
    Recovers listening (opening (allocating fun k => k = 0)) ↔
      OpenBare listening.router (allocating fun k => k = 0) :=
  trip_open_connection_recovers .ROUTER 0 (fun _ => 0) (reaches_trace (by decide))
    (isRun_trace (f := Config.step) (l := [.call .openConnection (allocating fun k => k = 0)])
      (by decide)).1

/-- **A connection that finds no slot in the map** stays in the resolve queue. -/
theorem trip_open_connection_leaks :
    ¬ ∀ (preset : TripPreset) (now : ℕ) (buf : Buf) (c c' : Config) (o : Oracle),
      Reaches Config.Step (fun _ _ => True) (.idle (tripNew preset now buf)) c →
        c.Step (.call .openConnection o) c' → OpenFails c.router o → Recovers c c' := by
  intro h
  have hqueue := (h .ROUTER 0 (fun _ => 0) listening (opening (allocating fun k => k ≠ 2))
    (allocating fun k => k ≠ 2) (reaches_trace (by decide))
    (isRun_trace (f := Config.step) (l := [.call .openConnection (allocating fun k => k ≠ 2)])
      (by decide)).1 (by decide)).queueSize
  revert hqueue
  decide

end Libtrp
