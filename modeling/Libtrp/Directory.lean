import Libtrp.TripPhase

/-!
# The directory

A router finds its connections by their identifiers.  What it finds is changed in few
places: opening a connection and a segment that asks for one enter a new connection under
an identifier that is not in use, closing a connection removes it, and going to `CLOSE` or
`UNBIND` clears the map.  Nothing else in a run enters, removes or renames one, so a
connection is found under one identifier from when it is made until it is removed, and it
is never entered again.

## Main definitions

* `Router.found` — the connection a router finds by an identifier.
* `Api.Makes` — a call that may enter a connection.
* `Catalogued r` — the map of `r` is well formed, and holds connections that were made.
* `Directs c i c'` — what a step does to what is found.

## Main results

* `Catalogued.enter`, `Catalogued.remove` — a connection is entered, and is removed.
* `trip_directory` — **what a router finds, over every run.**

## References

`src/connmap.c`, `src/trip.c` (`_trip_segment`, `_trip_close`, `_trip_close_connection`,
`trip_open_connection`).
-/

namespace Libtrp

open Lib

/-- The connection that is found by an identifier. -/
def Router.found (r : Router) (id : UInt64) : Option Ptr := connmapGet r.conn r.heap id

/-- The map a new router has. -/
def firstMap : Connmap := connmapInit ((1 : UInt64) <<< 19)

/-- The map holds connections that were made, as many as it had room for at first. -/
structure Catalogued (r : Router) : Prop where
  mask : r.conn.mask = firstMap.mask
  map : ∃ fl live, ConnmapInv r.conn r.heap fl live ∧ ∀ d ∈ live, d < r.heap.brk

namespace Catalogued

variable {r : Router}

/-- **A new connection is entered**, under an identifier that was not in use, or there is no
room for it. -/
theorem enter (h : Catalogued r) {r₁ : Router} (hbrk : r₁.heap.brk = r.heap.brk + 1)
    (hother : ∀ d, d ≠ r.heap.brk → r₁.heap.conn d = r.heap.conn d) {alloc : Bool} {x y : UInt32}
    {code : Errno} {mh : Connmap × ConnHeap}
    (hadd : connmapAdd r.conn r₁.heap r.heap.brk alloc x y = (code, mh)) :
    Catalogued (r₁.setMap mh) ∧ (code ≠ 0 ∧ (r₁.setMap mh).found = r.found ∨
      code = 0 ∧ ∃ id, r.found id = none ∧
        (r₁.setMap mh).found = Function.update r.found id (some r.heap.brk)) := by
  obtain ⟨fl, live, hm, hlive⟩ := h.map
  have hne : ∀ d ∈ live, d ≠ r.heap.brk := fun d hd => (hlive d hd).ne
  have hnew : r.heap.brk ∉ live := fun hd => hne _ hd rfl
  have hm₁ : ConnmapInv r.conn r₁.heap fl live := hm.congr fun d hd => by rw [hother d (hne d hd)]
  have hmade : mh.2.brk = r.heap.brk + 1 := by
    have hmh := connmapAdd_brk r.conn r₁.heap r.heap.brk alloc x y
    rw [hadd] at hmh
    exact hmh.trans hbrk
  have hmask : mh.1.mask = r.conn.mask := by
    have hmh := connmapAdd_mask r.conn r₁.heap r.heap.brk alloc x y
    rwa [hadd] at hmh
  -- entering writes the identifier of the new connection, and of no other
  have hkept : ∀ d ∈ live, mh.2.conn d = r.heap.conn d := fun d hd => by
    have hmh := connmapAdd_conn_of_ne r.conn r₁.heap (hne d hd) alloc x y
    rw [hadd] at hmh
    exact hmh.trans (hother d (hne d hd))
  have hadds := hm₁.add hnew alloc x y
  rw [hadd] at hadds
  -- without room nothing has changed
  have hrefused : code ≠ 0 → mh = (r.conn, r₁.heap) →
      Catalogued (r₁.setMap mh) ∧ (code ≠ 0 ∧ (r₁.setMap mh).found = r.found ∨
        code = 0 ∧ ∃ id, r.found id = none ∧
          (r₁.setMap mh).found = Function.update r.found id (some r.heap.brk)) := by
    rintro hcode rfl
    refine ⟨⟨h.mask, fl, live, hm₁, fun d hd => ?_⟩, Or.inl ⟨hcode, ?_⟩⟩
    · show d < r₁.heap.brk
      rw [hbrk]
      exact Nat.lt_succ_of_lt (hlive d hd)
    · funext id
      refine Option.ext fun d => ?_
      show connmapGet r.conn r₁.heap id = some d ↔ connmapGet r.conn r.heap id = some d
      rw [hm₁.get_eq_some, hm.get_eq_some]
      exact and_congr_right fun hd => by rw [hother d (hne d hd)]
  rcases hadds with ⟨rfl, -, fl', hm'⟩ | ⟨rfl, -, hsame⟩ | ⟨rfl, -, -, hsame⟩
  · refine ⟨⟨hmask.trans h.mask, fl', _, hm', ?_⟩, Or.inr ⟨rfl, (mh.2.conn r.heap.brk).self.id, ?_⟩⟩
    · intro d hd
      show d < mh.2.brk
      rw [hmade]
      rcases List.mem_cons.mp hd with rfl | hd
      · exact Nat.lt_succ_self _
      · exact Nat.lt_succ_of_lt (hlive d hd)
    · -- what is found under the new identifier would be another one
      have hfree : r.found (mh.2.conn r.heap.brk).self.id = none := by
        refine Option.eq_none_iff_forall_ne_some.mpr fun d hfound => ?_
        obtain ⟨hd, hid⟩ := hm.get_eq_some.mp hfound
        rw [← hkept d hd] at hid
        exact hne d hd (hm'.ids_inj (List.mem_cons_of_mem _ hd) List.mem_cons_self hid)
      refine ⟨hfree, funext fun id => ?_⟩
      by_cases hid : id = (mh.2.conn r.heap.brk).self.id
      · rw [hid, Function.update_self]
        exact hm'.get_eq_some.mpr ⟨List.mem_cons_self, rfl⟩
      · rw [Function.update_of_ne hid]
        refine Option.ext fun d => ?_
        show connmapGet mh.1 mh.2 id = some d ↔ connmapGet r.conn r.heap id = some d
        rw [hm'.get_eq_some, hm.get_eq_some, List.mem_cons]
        constructor
        · rintro ⟨rfl | hd, rfl⟩
          · exact absurd rfl hid
          · exact ⟨hd, by rw [hkept d hd]⟩
        · rintro ⟨hd, rfl⟩
          exact ⟨Or.inr hd, by rw [hkept d hd]⟩
  · exact hrefused (by decide) hsame
  · exact hrefused (by decide) hsame

/-- **What has an identifier is removed.** -/
theorem remove (h : Catalogued r) (id : UInt64) :
    Catalogued { r with conn := (connmapDel r.conn r.heap id).2 } ∧
      Router.found { r with conn := (connmapDel r.conn r.heap id).2 } =
        Function.update r.found id none := by
  obtain ⟨fl, live, hm, hlive⟩ := h.map
  obtain ⟨-, fl', hm'⟩ := hm.del id
  refine ⟨⟨(hm.connmapDel_mask id).trans h.mask, fl', _, hm', ?_⟩, funext fun i => ?_⟩
  · exact fun d hd => hlive d (List.mem_filter.mp hd).1
  · refine Option.ext fun d => ?_
    show connmapGet _ r.heap i = some d ↔ _
    rw [hm'.get_eq_some, List.mem_filter, decide_eq_true_eq]
    by_cases hi : i = id
    · subst hi
      rw [Function.update_self]
      exact iff_of_false (fun hd => hd.1.2 hd.2) (by simp)
    · rw [Function.update_of_ne hi]
      show _ ↔ connmapGet r.conn r.heap i = some d
      rw [hm.get_eq_some]
      constructor
      · exact fun hd => ⟨hd.1.1, hd.2⟩
      · exact fun hd => ⟨⟨hd.1, hd.2 ▸ hi⟩, hd.2⟩

/-- **Nothing is found** in a map that was cleared. -/
theorem clear (h : Catalogued r) : Catalogued { r with conn := connmapClear r.conn } ∧
    Router.found { r with conn := connmapClear r.conn } = fun _ => none := by
  obtain ⟨fl, live, hm, -⟩ := h.map
  refine ⟨⟨(connmapClear_mask hm).trans h.mask, [], [], connmapInv_init _ _, ?_⟩, rfl⟩
  exact fun d hd => absurd hd List.not_mem_nil

end Catalogued

/-! ### Where nothing is entered and nothing removed -/

/-- The map is the same, and so are the identifiers. -/
structure SameFound (r r' : Router) : Prop where
  conn : r'.conn = r.conn
  brk : r'.heap.brk = r.heap.brk
  ids : ∀ d, (r'.heap.conn d).self.id = (r.heap.conn d).self.id

namespace SameFound

variable {r r' r'' : Router}

theorem refl (r : Router) : SameFound r r := ⟨rfl, rfl, fun _ => rfl⟩

theorem trans (h : SameFound r r') (h' : SameFound r' r'') : SameFound r r'' :=
  ⟨h'.conn.trans h.conn, h'.brk.trans h.brk, fun d => (h'.ids d).trans (h.ids d)⟩

theorem of_eq (hh : r'.heap = r.heap) (hm : r'.conn = r.conn) : SameFound r r' :=
  ⟨hm, by rw [hh], fun d => by rw [hh]⟩

/-- The same is found. -/
theorem found (h : SameFound r r') : r'.found = r.found := by
  funext id
  unfold Router.found connmapGet
  simp only [h.conn, h.ids]

theorem catalogued (h : SameFound r r') (hr : Catalogued r) : Catalogued r' := by
  obtain ⟨fl, live, hm, hlive⟩ := hr.map
  refine ⟨h.conn ▸ hr.mask, fl, live, ?_, fun d hd => h.brk ▸ hlive d hd⟩
  rw [h.conn]
  exact hm.congr fun d _ => h.ids d

/-- A write that leaves the identifier alone. -/
theorem setConn (r : Router) (c : Ptr) {f : Connection → Connection}
    (hf : ∀ x, (f x).self.id = x.self.id) : SameFound r (r.setConn c f) :=
  ⟨rfl, rfl, fun d => ConnHeap.conn_set_field (fun x => x.self.id) r.heap c d (hf _)⟩

/-- Writes of the send queue. -/
theorem sendqWrites : SendqWrites fun h h' : ConnHeap =>
    h'.brk = h.brk ∧ ∀ d, (h'.conn d).self.id = (h.conn d).self.id where
  refl := fun _ => ⟨rfl, fun _ => rfl⟩
  trans := fun h h' => ⟨h'.1.trans h.1, fun d => (h'.2 d).trans (h.2 d)⟩
  link := fun h c _ => ⟨rfl, fun d => ConnHeap.conn_set_field (fun x => x.self.id) h c d rfl⟩
  flag := fun h c _ => ⟨rfl, fun d => ConnHeap.conn_set_field (fun x => x.self.id) h c d rfl⟩

/-- Steps of a connection. -/
theorem of_acts {c : Ptr} (h : Acts c r r') : SameFound r r' := by
  induction h with
  | refl => exact .refl _
  | conn hf _ ih => exact ih.trans (.setConn _ _ fun x => (hf x).2.2)
  | nq _ ih =>
    obtain ⟨hb, hids⟩ := sendqWrites.nq _ _ c
    exact ih.trans ⟨rfl, hb, hids⟩
  | timer _ _ _ _ _ _ ih | cancel _ _ ih | buf _ _ ih => exact ih.trans (.of_eq rfl rfl)

theorem aside : Aside SameFound where
  trans := trans
  of_eq := fun hh hm _ _ _ _ => .of_eq hh hm
  cancel := fun _ _ => .of_eq rfl rfl
  timer := fun _ _ _ _ _ _ _ => .of_eq rfl rfl
  dq := fun r => by
    obtain ⟨hb, hids⟩ := sendqWrites.dq r.sendq r.heap
    exact ⟨rfl, hb, hids⟩

end SameFound

/-- A program that enters and removes none. -/
def Finds {α : Type} (m : TripM α) : Prop := Framed SameFound m

namespace Finds

variable {α β : Type} {c : Ptr}

theorem bind {m : TripM α} {f : α → TripM β} (hm : Finds m) (hf : ∀ a, Finds (f a)) :
    Finds (m >>= f) := SameFound.aside.bind hm hf

theorem pure (a : α) : Finds (Pure.pure a : TripM α) := SameFound.aside.pure a

theorem acts {m : TripM α} (hm : ActsOn c m) : Finds m := fun s => .of_acts (hm s).1

theorem runs {m : TripM α} (hm : RunsOn c m) : Finds m := acts hm.acts

theorem store {f : Router → Router} (hh : ∀ r, (f r).heap = r.heap)
    (hm : ∀ r, (f r).conn = r.conn) : Finds (Libtrp.store f) :=
  fun s => .of_eq (hh s.router) (hm s.router)

/-- What has run to its end. -/
theorem exec {m : TripM α} (hm : Finds m) {s t : Env} {a : α} (h : m.exec s = (some a, t)) :
    SameFound s.router t.router := by
  have hrun := hm s
  rwa [h] at hrun

theorem tripFreeConnection : Finds (Libtrp.tripFreeConnection c) :=
  fun _ => ⟨rfl, rfl, fun _ => rfl⟩

theorem tripcDestroy : Finds (Libtrp.tripcDestroy c) := by
  refine bind (runs (.setConn fun _ => ⟨rfl, rfl, rfl⟩)) fun _ => ?_
  refine bind (runs .tripcCancelTimeout) fun _ => bind (fun s => ?_) fun _ => ?_
  · obtain ⟨hb, hids⟩ := SameFound.sendqWrites.del s.router.sendq s.router.heap c
    exact ⟨rfl, hb, hids⟩
  · exact runs (.setConn fun _ => ⟨rfl, rfl, rfl⟩)

theorem tripcTimeoutStateResolve : Finds (Libtrp.tripcTimeoutStateResolve c) := by
  refine bind (SameFound.aside.fetch _) fun x => bind (SameFound.aside.fetch _) fun q => ?_
  cases resolveqDel q x.resolvekey with
  | none => exact SameFound.aside.stuck
  | some q =>
    refine bind (store (fun _ => rfl) fun _ => rfl) fun _ => ?_
    exact bind (runs (.setConn fun _ => ⟨rfl, rfl, rfl⟩)) fun _ => runs (.tripcSetError ETIME none)

theorem tripResolve (key src : ℤ) (err : Errno) (emsg : Option String) :
    Finds (Libtrp.tripResolve key src err emsg) := by
  refine bind (SameFound.aside.fetch _) fun q => ?_
  cases resolveqPop q key with
  | none => exact SameFound.aside.stuck
  | some p =>
    obtain ⟨c, q⟩ := p
    refine bind (store (fun _ => rfl) fun _ => rfl) fun _ => ?_
    cases c with
    | none => exact pure ()
    | some c => exact runs (.tripResolvePopped src err emsg)

theorem tripTimeoutWalk (w : Walk Callback) : Finds (Libtrp.tripTimeoutWalk w) := by
  refine bind (SameFound.aside.fetch _) fun step => ?_
  cases step with
  | none =>
    exact bind SameFound.aside.triptimeNow fun now =>
      bind (store (fun _ => rfl) fun _ => rfl) fun _ => pure _
  | some p => exact bind (store (fun _ => rfl) fun _ => rfl) fun _ => pure _

theorem tripCallback (cb : Callback) : Finds (Libtrp.tripCallback cb) := by
  cases cb with
  | tripSendImmediately | tripStopAsync | tripResolveDelayFailure c | user => exact pure _
  | tripTimeoutRouter =>
    refine bind (store (fun _ => rfl) fun _ => rfl) fun _ => ?_
    exact bind (SameFound.aside.fetch _) fun state => Frame.ite (pure _) (pure _)
  | tripResolveDelaySuccess c => exact bind (runs (.tripcSetState .OPEN)) fun _ => pure _
  | tripOpenConnectionAsync c =>
    exact bind (runs .tripcStart) fun _ =>
      bind (SameFound.aside.fetch _) fun _ => SameFound.aside.callPacket _
  | tripcTimeoutStateResolve c => exact bind tripcTimeoutStateResolve fun _ => pure _
  | tripcTimeoutStateResend c =>
    exact bind (runs .tripcTimeoutStateResend) fun close => Frame.ite (pure _) (pure _)
  | tripcTimeoutStateReadyPing c => exact bind (runs (.tripcSetState .PING)) fun _ => pure _

/-- Packing writes to one connection. -/
theorem tripSendPack (connsent sent : UInt32) : Finds (Libtrp.tripSendPack c connsent sent) := by
  refine bind (SameFound.aside.fetch _) fun max => Frame.ite ?_ ?_
  · refine bind (SameFound.aside.fetch _) fun buflen => ?_
    refine bind (acts (.tripcSend buflen)) fun len => ?_
    exact bind (store (fun _ => rfl) fun _ => rfl) fun _ => pure _
  · refine bind (fun s => ?_) fun _ => ?_
    · obtain ⟨hb, hids⟩ := SameFound.sendqWrites.nq s.router.sendq s.router.heap c
      exact ⟨rfl, hb, hids⟩
    · exact bind (SameFound.aside.fetch _) fun _ => Frame.ite (pure _) (pure _)

end Finds

/-! ### Calls and tasks -/

/-- The calls that may make a connection: one that opens it, and a segment that asks for
one. -/
inductive Api.Makes : Api → Prop
  | openConnection : Makes .openConnection
  | seg {src : ℤ} {len : ℕ} {buf : Buf} : SegmentOpens len buf → Makes (.seg src len buf)

/-- A connection that was just made may have been entered. -/
def Enters (r r' : Router) : Prop :=
  r'.heap.brk = r.heap.brk + 1 ∧ ∃ id, r.found id = none ∧
    r'.found = Function.update r.found id (some r.heap.brk)

/-- What a task leaves to be found. -/
def Task.leaves (u : Task) (r : Router) : UInt64 → Option Ptr :=
  match u with
  | .closeConnection c => Function.update r.found (r.heap.conn c).self.id none
  | .setState state =>
    if r.nextState state = .CLOSE ∨ r.nextState state = .UNBIND then fun _ => none else r.found
  | _ => r.found

section Calls

variable {s t : Env} {ts : List Task}

/-- A connection is entered and goes on. -/
theorem Catalogued.enters {r r₁ r' : Router} (h : Catalogued r)
    (hbrk : r₁.heap.brk = r.heap.brk + 1)
    (hother : ∀ d, d ≠ r.heap.brk → r₁.heap.conn d = r.heap.conn d) {alloc : Bool} {x y : UInt32}
    {code : Errno} {mh : Connmap × ConnHeap}
    (hadd : connmapAdd r.conn r₁.heap r.heap.brk alloc x y = (code, mh))
    (hr : SameFound (r₁.setMap mh) r') : Catalogued r' ∧ (r'.found = r.found ∨ Enters r r') := by
  have hmade : mh.2.brk = r.heap.brk + 1 := by
    have hmh := connmapAdd_brk r.conn r₁.heap r.heap.brk alloc x y
    rw [hadd] at hmh
    exact hmh.trans hbrk
  obtain ⟨hcat, ⟨-, hsame⟩ | ⟨-, id, hfree, hfound⟩⟩ := h.enter hbrk hother hadd
  · exact ⟨hr.catalogued hcat, Or.inl (hr.found.trans hsame)⟩
  · exact ⟨hr.catalogued hcat, Or.inr ⟨hr.brk.trans hmade, id, hfree, hr.found.trans hfound⟩⟩

theorem Opens.enters {r' : Router} (hs : Catalogued s.router) (h : Opens s ts r') :
    Catalogued r' ∧ (r'.found = s.router.found ∨ Enters s.router r') := by
  have hother : ∀ d, d ≠ s.router.heap.brk →
      (tripOpenFresh s.router s.oracle.alloc.tail.head).heap.conn d = s.router.heap.conn d :=
    fun d hd => conn_tripOpenFresh_of_ne _ _ hd
  cases h with
  | reject _ => exact ⟨hs, Or.inl rfl⟩
  | busy errmsg _ _ hadd _ =>
    exact hs.enters rfl hother hadd (.setConn _ _ fun _ => rfl)
  | timer errmsg _ _ hadd _ =>
    exact hs.enters rfl hother hadd (.setConn _ _ fun _ => rfl)
  | armed now now' _ _ hadd _ => exact hs.enters rfl hother hadd (.of_eq rfl rfl)

/-- **Every call** enters a new connection or none. -/
theorem Api.run_enters {api : Api} (hs : Catalogued s.router)
    (h : api.run.exec s = (some ts, t)) : Catalogued t.router ∧
      (t.router.found = s.router.found ∨ api.Makes ∧ Enters s.router t.router) := by
  have hsame : Finds api.run → Catalogued t.router ∧
      (t.router.found = s.router.found ∨ api.Makes ∧ Enters s.router t.router) := by
    intro hm
    have hrun := hm.exec h
    exact ⟨hrun.catalogued hs, Or.inl hrun.found⟩
  by_cases hopen : api = .openConnection
  · subst hopen
    obtain ⟨ts', t', hexec, hopens⟩ := exec_tripOpenConnection s
    obtain ⟨rfl, rfl⟩ : ts' = ts ∧ t' = t := by simpa using hexec.symm.trans h
    exact (hopens.enters hs).imp_right (Or.imp_right fun hr => ⟨.openConnection, hr⟩)
  by_cases hresolve : ∃ key src err emsg, api = .resolve key src err emsg
  · obtain ⟨key, src, err, emsg, rfl⟩ := hresolve
    exact hsame (.bind (.tripResolve key src err emsg) fun _ => .pure _)
  by_cases hseg : ∃ src len buf, api = .seg src len buf
  swap
  · exact hsame (SameFound.aside.api hopen
      (fun key src err emsg heq => hresolve ⟨key, src, err, emsg, heq⟩)
      fun src len buf heq => hseg ⟨src, len, buf, heq⟩)
  obtain ⟨src, len, buf, rfl⟩ := hseg
  obtain ⟨_, v, hv, h⟩ := Prog.exec_bind_eq_some.mp h
  cases h
  have hcases := tripSeg_cases src len buf s
  rw [hv] at hcases
  have hfinds : ∀ {r' : Router}, SameFound s.router r' → Catalogued r' ∧
      (r'.found = s.router.found ∨ Api.Makes (.seg src len buf) ∧ Enters s.router r') :=
    fun hr => ⟨hr.catalogued hs, Or.inl hr.found⟩
  rcases hcases with
    hrouter | ⟨_, c, -, hset⟩ | ⟨_, c, pre, en, -, u, hsu, hread⟩ |
    ⟨hasks, _, _, _, code, mh, hadd, hres⟩
  · exact hfinds (hrouter ▸ .refl _)
  · exact hfinds (hset ▸ .setConn _ c fun _ => rfl)
  · refine hfinds ?_
    rw [show t = _ from hread, ← hsu.router]
    exact .of_acts (ActsOn.tripcRead pre _ _ u).1
  · have hother : ∀ d, d ≠ s.router.heap.brk →
        (tripSegmentFresh s.router src).heap.conn d = s.router.heap.conn d :=
      fun d hd => conn_tripSegmentFresh s.router src hd
    have hrest : SameFound ((tripSegmentFresh s.router src).setMap mh) t.router := by
      rcases hres with ⟨-, hfree⟩ | ⟨-, hacts⟩
      · rw [show t.router = _ from hfree]
        exact ⟨rfl, rfl, fun _ => rfl⟩
      · exact .of_acts hacts
    exact (hs.enters rfl hother hadd hrest).imp_right (Or.imp_right fun hr => ⟨.seg hasks, hr⟩)

/-- **Going to another state** clears the map, or leaves it alone. -/
theorem tripSetState_leaves {state : TriprState} (hs : Catalogued s.router)
    (h : (tripSetState state).exec s = (some ts, t)) :
    Catalogued t.router ∧ t.router.found = (Task.setState state).leaves s.router := by
  unfold tripSetState at h
  rw [Prog.exec_bind_of (exec_fetch _ _)] at h
  obtain ⟨_, u, hleave, h⟩ := Prog.exec_bind_eq_some.mp h
  rw [Prog.exec_bind_of (exec_store _ _)] at h
  generalize hv : Env.setRouter _ _ = v at h
  have hsv : SameFound s.router v.router := by
    refine (Finds.exec (SameFound.aside.tripLeaveState s.router.state) hleave).trans ?_
    rw [← hv]
    exact .of_eq rfl rfl
  -- clearing comes before what is left of entering the state
  have hclears : ∀ {ms : ℤ} {f : Unit → TripM (List Task)}, (∀ a, Finds (f a)) →
      (tripClose ms >>= f).exec v = (some ts, t) →
        Catalogued t.router ∧ t.router.found = fun _ => none := by
    intro ms f hf hexec
    obtain ⟨_, w, hclose, hexec⟩ := Prog.exec_bind_eq_some.mp hexec
    have hcleared : SameFound { v.router with conn := connmapClear v.router.conn } w.router := by
      obtain ⟨live, hlive⟩ := foldl_freeConn (connmapIterate v.router.conn) v.router
      unfold tripClose at hclose
      rw [exec_store] at hclose
      cases hclose
      by_cases hms : ms = 0
      · simp only [hms, if_true, hlive]
        exact ⟨rfl, rfl, fun _ => rfl⟩
      · simp only [hms, if_false]
        exact .refl _
    have hrest := hcleared.trans ((hf ()).exec hexec)
    obtain ⟨hcat, hnone⟩ := (hsv.catalogued hs).clear
    exact ⟨hrest.catalogued hcat, hrest.found.trans hnone⟩
  unfold Task.leaves Router.nextState
  dsimp only at h ⊢
  generalize (if s.router.state = .ERROR then TriprState.ERROR else state) = next at h ⊢
  by_cases hnext : next = .CLOSE ∨ next = .UNBIND
  · rw [if_pos hnext]
    rcases hnext with rfl | rfl
    · unfold tripEnterState at h
      rw [Prog.exec_bind_of (exec_fetch _ _)] at h
      refine hclears (fun _ => ?_) h
      refine .bind (SameFound.aside.tripSetDeadline _) fun _ => ?_
      exact .bind (SameFound.aside.tripArmState _) fun _ => .pure _
    · exact hclears (fun _ => SameFound.aside.callPacket _) h
  · rw [if_neg hnext]
    have hrest := hsv.trans (Finds.exec (SameFound.aside.tripEnterState
      fun hclose => absurd hclose hnext) h)
    exact ⟨hrest.catalogued hs, hrest.found⟩

/-- **Closing a connection** removes what has its identifier. -/
theorem tripCloseConnectionEnd_leaves {c : Ptr} (hs : Catalogued s.router)
    (h : (tripCloseConnectionEnd c).exec s = (some ts, t)) :
    Catalogued t.router ∧ t.router.found = (Task.closeConnection c).leaves s.router := by
  unfold tripCloseConnectionEnd at h
  rw [Prog.exec_bind_of (exec_getConn _ _), Prog.exec_bind_of (exec_store _ _)] at h
  have hrest : Finds (tripcDestroy c >>= fun _ => tripFreeConnection c >>= fun _ => pure ts) :=
    .bind .tripcDestroy fun _ => .bind .tripFreeConnection fun _ => .pure _
  have hts : ts = [] := by
    obtain ⟨_, _, -, h⟩ := Prog.exec_bind_eq_some.mp h
    obtain ⟨_, _, -, h⟩ := Prog.exec_bind_eq_some.mp h
    cases h
    rfl
  subst hts
  have hrest := hrest.exec h
  obtain ⟨hcat, hfound⟩ := hs.remove (s.router.heap.conn c).self.id
  exact ⟨hrest.catalogued hcat, hrest.found.trans hfound⟩

/-- **Every task.** -/
theorem Task.run_leaves {code : Errno} {u : Task} (hs : Catalogued s.router)
    (h : (u.run code).exec s = (some ts, t)) :
    Catalogued t.router ∧ t.router.found = u.leaves s.router := by
  have hsame : Finds (u.run code) → u.leaves s.router = s.router.found →
      Catalogued t.router ∧ t.router.found = u.leaves s.router := by
    intro hm hu
    have hrun := hm.exec h
    exact ⟨hrun.catalogued hs, hrun.found.trans hu.symm⟩
  by_cases hidles : u.idles = true
  · refine hsame (SameFound.aside.idle hidles code) ?_
    cases u <;> first | rfl | exact absurd hidles Bool.false_ne_true
  cases u with
  | setState state => exact tripSetState_leaves hs h
  | closeConnection c => exact tripCloseConnectionEnd_leaves hs h
  | walk w => exact hsame (.tripTimeoutWalk w) rfl
  | callback cb => exact hsame (.tripCallback cb) rfl
  | pack c connsent sent => exact hsame (.tripSendPack connsent sent) rfl
  | freeConnection c => exact hsame (.bind .tripFreeConnection fun _ => .pure _) rfl
  | _ => exact absurd rfl hidles

end Calls

/-! ### Runs -/

/-- **What a step does to what is found.** -/
def Directs (c : Config) (i : Input) (c' : Config) : Prop :=
  match i, c.todo with
  | .call api _, _ =>
    c'.router.found = c.router.found ∨ api.Makes ∧ Enters c.router c'.router
  | .run _ _, u :: _ => c'.router.found = u.leaves c.router
  | .run _ _, [] => False

/-- **Every step** of the machine. -/
theorem Catalogued.step {c c' : Config} {i : Input} (hc : Catalogued c.router) (h : c.Step i c') :
    Directs c i c' ∧ Catalogued c'.router := by
  rcases Config.step_cases h with ⟨api, o, ts, e, rfl, -, hexec, rfl⟩ |
    ⟨code, o, u, rest, ts, e, rfl, htodo, hexec, rfl⟩
  · exact (Api.run_enters hc hexec).symm
  · obtain ⟨hcat, hfound⟩ := Task.run_leaves (s := ⟨c.router, o, []⟩) hc hexec
    refine ⟨?_, hcat⟩
    unfold Directs
    rw [htodo]
    exact hfound

/-- A connection keeps its identifier. -/
theorem Standing.Step.id {sc : Scene} {x y : Standing}
    (h : Standing.Step sc x y) : y.self.id = x.self.id := by
  cases h <;> rfl

end Libtrp
