import Libtrp.ConnPhase
import Libtrp.TripAside

/-!
# Phases over the steps of the machine

What the router does is about its connections in few places: opening one, a segment that
came in, a resolution, the callbacks of their timers, and packing a segment.  There each
step moves connections by the steps of their standing, and makes new ones as they are
born; everything else leaves them alone.

## Main definitions

* `Input.Heard`, `Input.scene` — what an input lets a connection hear and do.
* `Evolves sc r r'` — connections have taken steps, and new ones were born.
* `Phased c` — every connection is lawful, and what is to be resolved was opened here.
* `Views.Step` — the machine, as far as the standings go.

## Main results

* `Api.run_evolves`, `Task.run_evolves` — every call and every task is one of these.
* `trip_refines` — **every run is one of standings that are born and take their steps.**
* `trip_lawful` — **no connection ever becomes ready**, and none has keys.

## References

`src/trip.c`, `src/conn.c`.
-/

namespace Libtrp

open Lib Relation

theorem Callback.isReadyPing_of_conn? {cb : Callback} (h : cb.conn? = none) :
    cb.isReadyPing = false := by
  cases cb <;> first | rfl | cases h

theorem aside_sameStandings : Aside SameStandings where
  trans := SameStandings.trans
  of_eq := fun hh _ _ _ ht _ => .of_eq (by rw [hh]) (by rw [hh]) ht
  cancel := .cancel
  timer := fun r alloc now now' ms _ hcb =>
    .timer r alloc now now' ms (Callback.isReadyPing_of_conn? hcb)
  dq := fun r => .setSendq r (SameStandings.sendqWrites.dq r.sendq r.heap)

/-- Clearing the map gives connections back, and writes to none. -/
theorem Rests.tripClose (ms : ℤ) : Rests (Libtrp.tripClose ms) := by
  intro s
  obtain ⟨live, hlive⟩ := foldl_freeConn (connmapIterate s.router.conn) s.router
  by_cases hms : ms = 0
  · simp only [Libtrp.tripClose, hms, if_true, hlive, exec_store]
    exact .of_eq rfl rfl rfl
  · simp only [Libtrp.tripClose, hms, if_false, exec_store]
    exact .of_eq rfl rfl rfl

/-! ### Segments -/

/-- What is found by an identifier has it. -/
theorem id_of_connmapGet {m : Connmap} {h : ConnHeap} {id : UInt64} {c : Ptr}
    (hc : connmapGet m h id = some c) : id = (h.conn c).self.id := by
  unfold connmapGet at hc
  dsimp only at hc
  split at hc
  · split at hc
    · split_ifs at hc with hid
      cases hc
      exact beq_iff_eq.mp hid
    · cases hc
  · cases hc

/-- An OPEN segment of length `len` whose route ends at `en` has room for a sealed box, and
what is left of it behind that is the information. -/
def OpenFits (len en : ℕ) : Prop :=
  48 ≤ sizeSub (sizeSub (sizeSub len tripSign) en) tripSign ∧
    sizeSub (sizeSub len tripSign) ((en + 48) % 2 ^ 64) = 80

/-- What an input lets a connection hear: an OPEN segment tells of its sender behind the
route and the room for a sealed box, another one behind its prefix and that room. -/
inductive Input.Heard : Input → TripPrefix → Option Info → Prop
  | opens {src : ℤ} {len : ℕ} {buf : Buf} {o : Oracle} {en : ℕ} {pre : TripPrefix} {endroute : ℕ}
      {screen : TripScreen} : SegmentPasses len buf en pre → pre.control = tripControlOpen →
      tripUnpackRoute (sizeSub len en) (buf.drop en) = some (endroute, screen) →
      OpenFits len (en + endroute) →
      Heard (.call (.seg src len buf) o) pre
        (some (infoAt (buf.drop ((en + endroute + 48) % 2 ^ 64)) 0))
  | misfits {src : ℤ} {len : ℕ} {buf : Buf} {o : Oracle} {en : ℕ} {pre : TripPrefix} {endroute : ℕ}
      {screen : TripScreen} : SegmentPasses len buf en pre → pre.control = tripControlOpen →
      tripUnpackRoute (sizeSub len en) (buf.drop en) = some (endroute, screen) →
      ¬ OpenFits len (en + endroute) → Heard (.call (.seg src len buf) o) pre none
  | tells {src : ℤ} {len : ℕ} {buf : Buf} {o : Oracle} {en : ℕ} {pre : TripPrefix} :
      SegmentPasses len buf en pre → pre.control ≠ tripControlOpen →
      Heard (.call (.seg src len buf) o) pre (some (infoAt (buf.drop en) 48))

/-- A turn of the machine may pack, and a call does not. -/
def Input.turns : Input → Prop
  | .call _ _ => False
  | .run _ _ => True

/-- `trip_open_connection` is called. -/
def Input.opens : Input → Prop
  | .call .openConnection _ => True
  | _ => False

/-- `trip_resolve` is called with an error or a message. -/
def Input.denies : Input → Prop
  | .call (.resolve _ _ err emsg) _ => ¬(err = 0 ∧ emsg = none)
  | _ => False

/-- What surrounds the connections in a step of the machine. -/
def Input.scene (i : Input) : Scene := ⟨i.Heard, i.turns, i.turns, i.opens, i.denies⟩

/-- The same, where packing is what `packs` says. -/
def Input.sceneOf (i : Input) (packs : Prop) : Scene := { i.scene with packs := packs }

/-- A connection is made, in the standing `y`. -/
structure Makes (y : Standing) (r r' : Router) : Prop where
  brk : r'.heap.brk = r.heap.brk + 1
  self : r'.standing r.heap.brk = y
  other : ∀ d, d ≠ r.heap.brk → r'.standing d = r.standing d
  unready : r.Unready → r'.Unready

namespace Makes

variable {y z : Standing} {r r' r'' : Router}

theorem andThen (h : Makes y r r') (h' : SameStandings r' r'') : Makes y r r'' :=
  ⟨h'.brk.trans h.brk, (h'.standing _).trans h.self,
    fun d hd => (h'.standing d).trans (h.other d hd), h'.unready ∘ h.unready⟩

theorem goesTo (h : Makes y r r') (h' : GoesTo r.heap.brk z r' r'') : Makes z r r'' :=
  ⟨h'.brk.trans h.brk, h'.self, fun d hd => (h'.other d hd).trans (h.other d hd),
    h'.unready ∘ h.unready⟩

/-- It was born in between, and has taken steps since. -/
theorem grows {born : Standing → Prop} {step : Standing → Standing → Prop} {x : Standing}
    (h : Makes y r r') (hx : born x) (hy : ReflTransGen step x y) :
    Grows born step r.heap.brk r.standing r'.heap.brk r'.standing := by
  refine ⟨h.brk ▸ Nat.le_succ _, fun d hd => ?_, fun d hd hd' => ?_⟩
  · rw [h.other d (Nat.ne_of_lt hd)]
  · rw [h.brk] at hd'
    obtain rfl : d = r.heap.brk := Nat.le_antisymm (Nat.lt_succ_iff.mp hd') hd
    exact ⟨x, hx, h.self ▸ hy⟩

/-- A record is written at the end of the memory, and put into the map. -/
theorem of_add {incoming : Bool} {r₁ : Router} (hbrk : r₁.heap.brk = r.heap.brk + 1)
    (hself : r₁.standing r.heap.brk = .fresh incoming 0)
    (hother : ∀ d, d ≠ r.heap.brk → r₁.heap.conn d = r.heap.conn d)
    (htimers : r₁.timers = r.timers) {alloc : Bool} {x y : UInt32} {code : Errno}
    {mh : Connmap × ConnHeap}
    (hadd : connmapAdd r.conn r₁.heap r.heap.brk alloc x y = (code, mh)) :
    ∃ id, Makes (.fresh incoming id) r (r₁.setMap mh) := by
  have hheap := connmapAdd_heap r.conn r₁.heap r.heap.brk alloc x y
  have hmh := connmapAdd_brk r.conn r₁.heap r.heap.brk alloc x y
  have hkept : ∀ d, d ≠ r.heap.brk → mh.2.conn d = r₁.heap.conn d := fun d hd => by
    have h := connmapAdd_conn_of_ne r.conn r₁.heap hd alloc x y
    rwa [hadd] at h
  rw [hadd] at hheap hmh
  have hmade : ∀ id, (mh.2.conn r.heap.brk).standing = .fresh incoming id →
      Makes (.fresh incoming id) r (r₁.setMap mh) := fun id hid => by
    refine ⟨hmh.trans hbrk, hid, fun d hd => ?_, fun hr => ?_⟩
    · show (mh.2.conn d).standing = _
      rw [hkept d hd, hother d hd]
      rfl
    · unfold Router.Unready Router.pending at hr ⊢
      rw [show (r₁.setMap mh).timers = r₁.timers from rfl, htimers]
      exact hr
  have hself : (r₁.heap.conn r.heap.brk).standing = .fresh incoming 0 := hself
  obtain heq | ⟨id, heq⟩ := hheap
  · exact ⟨0, hmade 0 (by rw [show mh.2 = _ from heq, hself])⟩
  · refine ⟨id, hmade id ?_⟩
    rw [show mh.2 = _ from heq, ConnHeap.conn_set_self]
    show { (r₁.heap.conn r.heap.brk).standing with
      self := { (r₁.heap.conn r.heap.brk).standing.self with id := id } } = _
    rw [hself]
    rfl

end Makes

/-- A connection that a segment makes waits for its challenge to be sent. -/
theorem tripcStart_chal {c : Ptr} {s : Env} (hstart : (s.router.standing c).state = .START)
    (hin : (s.router.standing c).incoming = true)
    (henc : (s.router.standing c).encrypted = false) :
    GoesTo c ((s.router.standing c).enter .CHAL) s.router ((tripcStart c).exec s).2.router := by
  have hstate : (s.router.heap.conn c).state = .START := hstart
  have hincoming : (s.router.heap.conn c).incoming = true := hin
  unfold tripcStart
  rw [Prog.exec_bind_of (exec_getConn _ _), if_neg (not_not.mpr hstate), hincoming, if_pos rfl]
  exact tripcSetState_goes (by decide) henc

/-- **What an OPEN segment tells** is written to the connection that was made for it, if the
segment ends where it should. -/
theorem tripSegmentInfo_hears {c : Ptr} {s t : Env} {src : ℤ} {len : ℕ} {buf : Buf} {en : ℕ}
    {pre : TripPrefix} (hchal : (s.router.standing c).state = .CHAL)
    (hopen : pre.control = tripControlOpen)
    (h : (tripSegmentInfo src len buf en pre c).exec s = (some (), t)) :
    ¬ OpenFits len en ∧ SameStandings s.router t.router ∨
      OpenFits len en ∧
        GoesTo c ((s.router.standing c).hears (infoAt (buf.drop ((en + 48) % 2 ^ 64)) 0)) s.router
          t.router := by
  have hbox : fixedSize [.o, .O] = 48 := rfl
  unfold OpenFits
  unfold tripSegmentInfo at h
  rw [Prog.exec_bind_of (exec_sizeSubM _ _ _), Prog.exec_bind_of (exec_sizeSubM _ _ _),
    Prog.exec_bind_of (exec_sizeSubM _ _ _), Prog.exec_bind_of (exec_mark _ _)] at h
  generalize sizeSub (sizeSub (sizeSub len tripSign) en) tripSign = rest at h
  obtain ⟨hfits, hshort⟩ := tripUnpack_fixed (show ∀ d ∈ [PackDir.o, .O], d.fixed?.isSome by decide)
    (by decide) rest (buf.drop en)
  by_cases hrest : fixedSize [.o, .O] ≤ rest
  swap
  · -- there is no room for a sealed box
    have hnpos := hshort (not_le.mp hrest)
    generalize tripUnpack rest (buf.drop en) [.o, .O] = p at h hnpos
    obtain ⟨maclen, out⟩ := p
    dsimp only at h hnpos
    rw [if_pos (Or.inr hnpos)] at h
    cases h
    exact Or.inl ⟨fun hroom => hrest (hbox ▸ hroom.1), .refl s.router⟩
  rw [hfits hrest] at h
  dsimp only at h
  rw [if_neg (by decide), Prog.exec_bind_of (exec_sizeSubM _ _ _),
    Prog.exec_bind_of (exec_mark _ _)] at h
  generalize hu : Env.addMark (Env.addMark _ _) _ = u at h
  have hsu : u.router = s.router := by rw [← hu]; rfl
  rw [← hsu] at hchal ⊢
  have hstate : (u.router.heap.conn c).state = .CHAL := hchal
  -- in `CHAL` it parses an OPEN segment
  have hread : tripcReadSwitch c pre (sizeSub (sizeSub len tripSign)
      ((en + fixedSize [.o, .O]) % 2 ^ 64)) (buf.drop ((en + fixedSize [.o, .O]) % 2 ^ 64))
      (u.router.heap.conn c).state =
        tripcParsed (tripcParseInfo [.Q, .n, .k, .I, .I, .I, .I] c
          (sizeSub (sizeSub len tripSign) ((en + fixedSize [.o, .O]) % 2 ^ 64))
          (buf.drop ((en + fixedSize [.o, .O]) % 2 ^ 64))) (tripcSetSend c) := by
    rw [hstate]
    unfold tripcReadSwitch
    dsimp only
    rw [if_neg (by rw [hopen]; decide), if_pos hopen]
    rfl
  -- whatever it returns, nothing but sending is left
  have hleft : ∀ (code : Errno) (v : Env), (if code ≠ 0 then tripRouterReject src 22
      else tripcSetSend c).exec v = (some (), t) → SameStandings v.router t.router := by
    intro code v hv
    have hrest : Rests (if code ≠ 0 then tripRouterReject src 22 else tripcSetSend c) :=
      .ite (.pure ()) .tripcSetSend
    exact hrest.exec hv
  rcases exec_tripcRead_info infoFormat_open (follows_tripcSetSend c) hread with
    ⟨hlen, hquiet⟩ | ⟨-, -, hstuck⟩ | ⟨htaken, v, hv, -, hexec⟩
  · rw [Prog.exec_bind_of hquiet] at h
    exact Or.inl ⟨fun hroom => hlen hroom.2, hleft _ _ h⟩
  · rcases hr : (tripcRead c pre (sizeSub (sizeSub len tripSign)
        ((en + fixedSize [.o, .O]) % 2 ^ 64))
        (buf.drop ((en + fixedSize [.o, .O]) % 2 ^ 64))).exec u with ⟨_ | code, v⟩
    · rw [Prog.exec_bind, hr] at h
      cases h
    · rw [hr] at hstuck
      cases hstuck
  · rw [Prog.exec_bind_of hexec] at h
    refine Or.inr ⟨⟨hbox ▸ hrest, htaken.1⟩,
      GoesTo.andThen ?_ ((Rests.tripcSetSend v).trans (hleft _ _ h))⟩
    rw [hv]
    refine .setConn _ c fun x hx => ?_
    rw [standing_takeInfo, hx]
    rfl

/-- Connections have taken steps, and new ones were born; none has become ready. -/
structure Evolves (sc : Scene) (r r' : Router) : Prop where
  grows : Grows (Standing.Born sc) (Standing.Step sc) r.heap.brk r.standing r'.heap.brk
    r'.standing
  unready : r.Unready → r'.Unready

namespace Evolves

variable {sc : Scene} {r r' r'' : Router} {c : Ptr} {x y : Standing}

theorem trans (h : Evolves sc r r') (h' : Evolves sc r' r'') : Evolves sc r r'' :=
  ⟨h.grows.trans h'.grows, h'.unready ∘ h.unready⟩

theorem steps (h : Steps sc c r r') : Evolves sc r r' := ⟨h.grows, h.unready⟩

theorem same (h : SameStandings r r') : Evolves sc r r' :=
  ⟨.of_eq h.brk fun d _ => by rw [h.standing d], h.unready⟩

theorem refl (r : Router) : Evolves sc r r := same (.refl r)

theorem born (h : Makes y r r') (hx : Standing.Born sc x)
    (hy : ReflTransGen (Standing.Step sc) x y) : Evolves sc r r' := ⟨h.grows hx hy, h.unready⟩

end Evolves

section Segments

variable {sc : Scene} {s t : Env} {src : ℤ} {len : ℕ} {buf : Buf}
  {en : ℕ} {pre : TripPrefix}

/-- **A connection is made** for an OPEN segment. -/
theorem tripSegmentCreate_evolves {screen : TripScreen} (hopen : pre.control = tripControlOpen)
    (hheard : OpenFits len en → sc.heard pre (some (infoAt (buf.drop ((en + 48) % 2 ^ 64)) 0)))
    (hdeaf : ¬ OpenFits len en → sc.heard pre none)
    (h : (tripSegmentCreate src len buf en pre screen).exec s = (some (), t)) :
    Evolves sc s.router t.router := by
  unfold tripSegmentCreate at h
  rw [exec_tripSegmentMade] at h
  cases halloc : s.oracle.alloc.head with
  | false =>
    rw [halloc, if_neg Bool.false_ne_true] at h
    cases h
    exact .refl s.router
  | true =>
  rw [halloc, if_pos rfl] at h
  rcases hadd : connmapAdd s.router.conn (tripSegmentFresh s.router src).heap s.router.heap.brk
      s.oracle.alloc.tail.head s.oracle.random.head s.oracle.random.tail.head with ⟨code, mh⟩
  rw [hadd] at h
  dsimp only at h
  generalize hu : Env.setRouter _ _ = u at h
  obtain ⟨id, hmade⟩ : ∃ id, Makes (.fresh true id) s.router u.router := by
    rw [← hu]
    refine Makes.of_add rfl ?_ (fun d hd => conn_tripSegmentFresh s.router src hd) rfl hadd
    unfold Router.standing tripSegmentFresh Router.setConn
    rw [ConnHeap.conn_set_self, ConnHeap.conn_set_self]
    rfl
  by_cases hcode : code ≠ 0
  · rw [if_pos hcode] at h
    cases h
    -- there is no room for it in the map, and it is given back
    have hborn : Standing.Born sc (.fresh true id) := by
      by_cases hfits : OpenFits len en
      · exact .refused id (hheard hfits) hopen
      · exact .refused id (hdeaf hfits) hopen
    exact .born (hmade.andThen (.of_eq rfl rfl rfl)) hborn .refl
  rw [if_neg hcode, Prog.exec_bind_of (exec_tripcSetScreen _ _ _)] at h
  generalize hv : Env.setRouter _ _ = v at h
  have hscreened : Makes ((Standing.fresh true id).screened screen) s.router v.router := by
    refine hmade.goesTo ?_
    rw [← hv]
    refine .setConn u.router _ fun x hx => ?_
    rw [hmade.self] at hx
    rw [← hx]
    rfl
  have hself := hscreened.self
  obtain ⟨_, hstart⟩ := (RunsOn.tripcStart (c := s.router.heap.brk)).total.exec_eq v
  have hchal := hscreened.goesTo (hself ▸ tripcStart_chal (by rw [hself]; rfl) (by rw [hself]; rfl)
    (by rw [hself]; rfl))
  rw [Prog.exec_bind_of hstart] at h
  -- it hears what the segment tells, if that fits
  rcases tripSegmentInfo_hears (by rw [hchal.self]; rfl) hopen h with
    ⟨hmisfit, hsame⟩ | ⟨hfit, htold⟩
  · exact .born (hchal.andThen hsame) (.deaf id screen (hdeaf hmisfit) hopen) .refl
  · rw [hchal.self] at htold
    exact .born (hchal.goesTo htold) (.asked id screen (hheard hfit) hopen) .refl

/-- A segment of another control comes to the connection of its identifier. -/
theorem tripSegmentRead_evolves {c : Ptr} (hc : (s.router.standing c).Lawful)
    (hid : pre.id = (s.router.standing c).self.id) (hopen : pre.control ≠ tripControlOpen)
    (hheard : sc.heard pre (some (infoAt (buf.drop en) 48)))
    (h : (tripSegmentRead src len buf en pre c).exec s = (some (), t)) :
    Evolves sc s.router t.router := by
  obtain ⟨u, hsu, hexec⟩ := tripSegmentRead_cases src len buf en pre c s
  rw [← hsu.router] at hc hid ⊢
  rw [hexec] at h
  rcases hread : (tripcRead c pre (sizeSub (sizeSub len tripSign) en) (buf.drop en)).exec u with
    ⟨_ | code, v⟩
  · rw [hread] at h
    cases h
  · rw [hread] at h
    cases h
    exact .steps (tripcRead_steps hc hheard hopen hid hread)

/-- **A segment that came in.** -/
theorem tripSeg_evolves {o : Oracle} {packs : Prop}
    (hl : ∀ c < s.router.heap.brk, (s.router.standing c).Lawful)
    (hm : ∀ c, s.router.conn.Has c → c < s.router.heap.brk)
    (h : (tripSeg src len buf).exec s = (some (), t)) :
    Evolves ((Input.call (.seg src len buf) o).sceneOf packs) s.router t.router := by
  unfold tripSeg at h
  rw [Prog.exec_bind_of (exec_fetch _ _), Prog.exec_ite] at h
  split at h
  swap
  · cases h
    exact .refl s.router
  rcases tripSegment_cases src len buf s with ⟨hsame, -⟩ | ⟨en, pre, u, hpass, hsu, hexec⟩
  · rw [h] at hsame
    rw [hsame.router]
    exact .refl s.router
  rw [hexec] at h
  rw [← hsu.router] at hl hm ⊢
  by_cases hopen : pre.control = tripControlOpen
  · rw [if_pos hopen] at h
    rcases tripSegmentOpen_cases src len buf en pre u with
      hsame | ⟨c, -, hset⟩ | ⟨endroute, screen, v, hopens, huv, hcreate⟩
    · rw [h] at hsame
      rw [hsame.router]
      exact .refl u.router
    · rw [h] at hset
      rw [hset]
      exact .same (.setConn u.router c fun _ => rfl)
    · rw [hcreate] at h
      rw [← huv.router]
      exact tripSegmentCreate_evolves hopen (.opens hpass hopen hopens.route)
        (.misfits hpass hopen hopens.route) h
  · rw [if_neg hopen] at h
    rcases tripSegmentComm_cases src len buf en pre u with ⟨hsame, -⟩ | ⟨c, hcomm, hread⟩
    · rw [h] at hsame
      rw [hsame.router]
      exact .refl u.router
    · rw [hread] at h
      exact tripSegmentRead_evolves (hl c (hm c (Connmap.has_of_get hcomm.found)))
        (id_of_connmapGet hcomm.found) hopen (.tells hpass hopen) h

end Segments

/-! ### Opening and resolving -/

/-- **Opening a connection** makes one of this side, or none. -/
theorem Opens.makes {s : Env} {ts : List Task} {r' : Router} (h : Opens s ts r') :
    r' = s.router ∨ ∃ id y, Makes y s.router r' ∧
      (y = .fresh false id ∨ y = (Standing.fresh false id).enter .ERROR) := by
  have hadded : ∀ {code : Errno} {mh : Connmap × ConnHeap},
      connmapAdd s.router.conn (tripOpenFresh s.router s.oracle.alloc.tail.head).heap
        s.router.heap.brk s.oracle.alloc.tail.tail.head s.oracle.random.head
        s.oracle.random.tail.head = (code, mh) →
      ∃ id, Makes (.fresh false id) s.router
        ((tripOpenFresh s.router s.oracle.alloc.tail.head).setMap mh) := by
    intro code mh hadd
    refine Makes.of_add rfl ?_ (fun d hd => conn_tripOpenFresh_of_ne _ _ hd) rfl hadd
    unfold Router.standing
    rw [conn_tripOpenFresh_self]
    rfl
  have hrefused : ∀ {code e : Errno} {mh : Connmap × ConnHeap} (errmsg : Option String),
      connmapAdd s.router.conn (tripOpenFresh s.router s.oracle.alloc.tail.head).heap
        s.router.heap.brk s.oracle.alloc.tail.tail.head s.oracle.random.head
        s.oracle.random.tail.head = (code, mh) →
      ∃ id y, Makes y s.router (((tripOpenFresh s.router s.oracle.alloc.tail.head).setMap
          mh).setConn s.router.heap.brk (Connection.refused e errmsg)) ∧
        (y = .fresh false id ∨ y = (Standing.fresh false id).enter .ERROR) := by
    intro code e mh errmsg hadd
    obtain ⟨id, hmade⟩ := hadded hadd
    refine ⟨id, _, hmade.goesTo (.setConn _ _ fun x hx => ?_), Or.inr rfl⟩
    rw [hmade.self] at hx
    rw [← hx]
    rfl
  cases h with
  | reject _ => exact Or.inl rfl
  | busy errmsg _ _ hadd _ => exact Or.inr (hrefused errmsg hadd)
  | timer errmsg _ _ hadd _ => exact Or.inr (hrefused errmsg hadd)
  | armed now now' _ _ hadd _ =>
    obtain ⟨id, hmade⟩ := hadded hadd
    exact Or.inr ⟨id, _, hmade.andThen (.timer _ true now now' 0 rfl), Or.inl rfl⟩

section Calls

variable {sc : Scene} {s t : Env} {ts : List Task}

theorem Opens.evolves {r' : Router} (hsc : sc.opens) (h : Opens s ts r') :
    Evolves sc s.router r' := by
  rcases h.makes with rfl | ⟨id, y, hmakes, rfl | rfl⟩
  · exact .refl s.router
  · exact .born hmakes (.opens id hsc) .refl
  · exact .born hmakes (.opens id hsc) (.single (.fails (.inr (.inl hsc))))

theorem tripResolve_evolves {err : Errno} {emsg : Option String}
    (hdenies : ¬(err = 0 ∧ emsg = none) → sc.denies) (key src : ℤ) :
    Evolves sc s.router ((tripResolve key src err emsg).exec s).2.router := by
  unfold tripResolve
  rw [Prog.exec_bind_of (exec_fetch _ _)]
  rcases resolveqPop s.router.resolveq key with _ | ⟨c, q⟩
  · exact .refl s.router
  · have hqueue : SameStandings s.router (s.router.setResolveq q) := .of_eq rfl rfl rfl
    dsimp only
    rw [Prog.exec_bind_of (exec_store _ _)]
    cases c with
    | none => exact .same hqueue
    | some c =>
      have hpopped : Steps sc c (s.router.setResolveq q) _ :=
        @tripResolvePopped_steps sc c (s.setRouter (s.router.setResolveq q)) err emsg hdenies src
      exact .steps (.after hqueue hpopped)

/-- **Every call.** -/
theorem Api.run_evolves {api : Api} {o : Oracle} {packs : Prop}
    (hl : ∀ c < s.router.heap.brk, (s.router.standing c).Lawful)
    (hm : ∀ c, s.router.conn.Has c → c < s.router.heap.brk) (h : api.run.exec s = (some ts, t)) :
    Evolves ((Input.call api o).sceneOf packs) s.router t.router := by
  by_cases hopen : api = .openConnection
  · subst hopen
    obtain ⟨ts', t', hexec, hopens⟩ := exec_tripOpenConnection s
    obtain ⟨rfl, rfl⟩ : ts' = ts ∧ t' = t := by simpa using hexec.symm.trans h
    exact hopens.evolves trivial
  by_cases hseg : ∃ src len buf, api = .seg src len buf
  · obtain ⟨src, len, buf, rfl⟩ := hseg
    obtain ⟨_, v, hv, h⟩ := Prog.exec_bind_eq_some.mp h
    cases h
    exact tripSeg_evolves hl hm hv
  by_cases hresolve : ∃ key src err emsg, api = .resolve key src err emsg
  · obtain ⟨key, src, err, emsg, rfl⟩ := hresolve
    have hevolves : Evolves ((Input.call (.resolve key src err emsg) o).sceneOf packs) s.router _ :=
      tripResolve_evolves id key src
    obtain ⟨_, v, hv, h⟩ := Prog.exec_bind_eq_some.mp h
    cases h
    rwa [hv] at hevolves
  · have haside := aside_sameStandings.api hopen
      (fun key src err emsg heq => hresolve ⟨key, src, err, emsg, heq⟩)
      (fun src len buf heq => hseg ⟨src, len, buf, heq⟩) s
    rw [h] at haside
    exact .same haside

/-! ### Tasks -/

/-- The callback goes on with a connection that this side opened. -/
def Callback.asks : Callback → Bool
  | .tripOpenConnectionAsync _ | .tripResolveDelaySuccess _ => true
  | _ => false

/-- What a callback finds. -/
structure Callback.Calm (cb : Callback) (r : Router) : Prop where
  unready : cb.isReadyPing = false
  lawful : ∀ d ∈ cb.conn?, (r.standing d).Lawful
  ours : cb.asks = true → ∀ d ∈ cb.conn?, (r.standing d).incoming = false

/-- **A callback** moves its connection. -/
theorem tripCallback_evolves (hturns : sc.turns) {cb : Callback} (hcb : cb.Calm s.router) :
    Evolves sc s.router ((tripCallback cb).exec s).2.router := by
  have hthen : ∀ {α : Type} {c : Ptr} {m : TripM α} {f : α → TripM (List Task)}, Prog.Total m →
      Steps sc c s.router (m.exec s).2.router → (∀ a, Rests (f a)) →
      Evolves sc s.router ((m >>= f).exec s).2.router := by
    intro α c m f hm hsteps hf
    obtain ⟨a, hexec⟩ := hm.exec_eq s
    rw [Prog.exec_bind_of hexec]
    exact .steps (hsteps.andThen (hf a _))
  cases cb with
  | tripSendImmediately | tripStopAsync | user | tripResolveDelayFailure => exact .refl s.router
  | tripTimeoutRouter =>
    have htimer : Rests tripTimeoutRouterCb := by
      refine .bind (.store_of ?_ ?_) fun _ => .bind (.fetch _) fun _ => .ite (.pure _) (.pure _)
      all_goals exact fun _ => rfl
    exact .same (htimer s)
  | tripResolveDelaySuccess c =>
    exact hthen (RunsOn.tripcSetState .OPEN).total
      (tripcResolved_steps hturns (hcb.lawful c rfl) (hcb.ours rfl c rfl)) fun _ => .pure _
  | tripOpenConnectionAsync c =>
    refine hthen RunsOn.tripcStart.total
      (tripcStart_steps hturns (hcb.lawful c rfl) (hcb.ours rfl c rfl)) fun _ => ?_
    exact .bind (.getConn c) fun _ => aside_sameStandings.callPacket _
  | tripcTimeoutStateResend c =>
    exact hthen RunsOn.tripcTimeoutStateResend.total (tripcTimeoutStateResend_steps hturns)
      fun _ => .ite (.pure _) (.pure _)
  | tripcTimeoutStateReadyPing c => exact absurd hcb.unready (Bool.false_ne_true ∘ Eq.symm)
  | tripcTimeoutStateResolve c =>
    have hsteps : Steps sc c s.router ((tripcTimeoutStateResolve c).exec s).2.router :=
      tripcTimeoutStateResolve_steps hturns
    show Evolves sc s.router (Prog.exec (tripcTimeoutStateResolve c >>= _) s).2.router
    rcases hexec : (tripcTimeoutStateResolve c).exec s with ⟨_ | ⟨⟩, v⟩
    · rw [hexec] at hsteps
      rw [Prog.exec_bind, hexec]
      exact .steps hsteps
    · rw [hexec] at hsteps
      rw [Prog.exec_bind_of hexec]
      exact .steps hsteps

/-- The walk takes a timer out. -/
theorem tripTimeoutWalk_rests (w : Walk Callback) : Rests (tripTimeoutWalk w) := by
  intro s
  unfold tripTimeoutWalk
  rw [Prog.exec_bind_of (exec_fetch _ _)]
  split
  · next w' wheel cb hstep =>
    rw [Prog.exec_bind_of (exec_store _ _)]
    exact .fewer s.router fun p => (Timerwheel.pending_step (p := p) hstep).1
  · exact .fewer s.router fun p => .refl _

/-- A segment is packed, or the connection is put back into the queue. -/
theorem tripSendPack_evolves {c : Ptr} {connsent sent : UInt32}
    (hturns : sc.turns) (hpacks : sc.packs) (hc : (s.router.standing c).Lawful)
    (h : (tripSendPack c connsent sent).exec s = (some ts, t)) :
    Evolves sc s.router t.router := by
  unfold tripSendPack at h
  rw [Prog.exec_bind_of (exec_fetch _ _)] at h
  split_ifs at h
  · rw [Prog.exec_bind_of (exec_fetch _ _)] at h
    obtain ⟨len, u, hlen, h⟩ := Prog.exec_bind_eq_some.mp h
    have hsteps : Steps sc c s.router ((tripcSend c s.router.buflen).exec s).2.router :=
      tripcSend_steps hturns hpacks hc s.router.buflen
    rw [hlen] at hsteps
    cases h
    exact .steps (hsteps.andThen (.of_eq rfl rfl rfl))
  · rw [Prog.exec_bind_of (exec_store _ _)] at h
    obtain ⟨rfl, -⟩ := exec_tripSendLimit h
    exact .same (.setSendq s.router (SameStandings.sendqWrites.nq s.router.sendq s.router.heap c))

/-- **Every task on top.** -/
theorem Task.run_evolves {code : Errno} {u : Task} (hturns : sc.turns)
    (hpacks : ∀ c connsent sent, u = .pack c connsent sent → sc.packs)
    (hcb : ∀ cb, u = .callback cb → cb.Calm s.router)
    (hu : ∀ d ∈ u.packer?, (s.router.standing d).Lawful)
    (h : (u.run code).exec s = (some ts, t)) : Evolves sc s.router t.router := by
  have hrests : Rests (u.run code) → Evolves sc s.router t.router := by
    intro hm
    have hrun := hm s
    rw [h] at hrun
    exact .same hrun
  by_cases hidles : u.idles = true
  · exact hrests (aside_sameStandings.task Rests.tripClose (Or.inl hidles) code)
  cases u with
  | setState state =>
    exact hrests (aside_sameStandings.task Rests.tripClose (Or.inr ⟨state, rfl⟩) code)
  | walk w => exact hrests (tripTimeoutWalk_rests w)
  | callback cb =>
    have hevolves : Evolves sc s.router ((tripCallback cb).exec s).2.router :=
      tripCallback_evolves hturns (hcb cb rfl)
    rwa [show (tripCallback cb).exec s = _ from h] at hevolves
  | pack c connsent sent =>
    exact tripSendPack_evolves hturns (hpacks c connsent sent rfl) (hu c rfl) h
  | closeConnection c =>
    refine hrests (.bind (.getConn c) fun x => ?_)
    refine .bind (.store_of (fun _ => rfl) fun _ => rfl) fun _ => ?_
    refine .bind .tripcDestroy fun _ => .bind (.store fun r => ?_) fun _ => .pure []
    exact .of_eq rfl rfl rfl
  | freeConnection c => exact hrests (.bind (.store fun r => .of_eq rfl rfl rfl) fun _ => .pure [])
  | _ => exact absurd rfl hidles

end Calls

/-! ### What is to be resolved -/

/-- The connection is in the resolve queue, or a timer goes on with it. -/
def Router.Asking (r : Router) (d : Ptr) : Prop :=
  r.resolveq.Has d ∨ ∃ cb : Callback, cb.asks = true ∧ cb.conn? = some d ∧ r.Pends cb

/-- It is, or such a callback is on the stack. -/
def Config.Asking (c : Config) (d : Ptr) : Prop :=
  c.router.Asking d ∨ ∃ cb : Callback, cb.asks = true ∧ cb.conn? = some d ∧ .callback cb ∈ c.todo

theorem Callback.ofResolve_of_asks {cb : Callback} (h : cb.asks = true) : cb.ofResolve = true := by
  cases cb <;> first | rfl | exact absurd h Bool.false_ne_true

/-- A timer about resolving that is pending was, unless it is the new one. -/
theorem Moves.pends {cb : Option Callback} {r r' : Router} (h : Moves cb r r') {x : Callback}
    (hx : x.ofResolve = true) (hp : r'.Pends x) : r.Pends x ∨ cb = some x := by
  by_contra hno
  rw [not_or] at hno
  have hlen := h.pending (fun y => y = x) fun y hy => of_decide_eq_true hy ▸ hx
  rw [not_not.mp hno.1, if_neg] at hlen
  · exact hp (List.eq_nil_of_length_eq_zero (Nat.le_zero.mp hlen))
  · intro hany
    obtain ⟨y, hy, hyx⟩ := (Option.any_eq_true _ _).mp hany
    exact hno.2 (hy.trans (congrArg some (of_decide_eq_true hyx)))

/-- What is resolved was, unless it is the connection of the new timer. -/
theorem Moves.asking {cb : Option Callback} {r r' : Router} (h : Moves cb r r') {d : Ptr}
    (hq : r'.resolveq.Has d → r.resolveq.Has d) (hd : r'.Asking d) :
    r.Asking d ∨ ∃ x ∈ cb, x.asks = true ∧ x.conn? = some d := by
  rcases hd with hd | ⟨x, hx, hxd, hp⟩
  · exact Or.inl (Or.inl (hq hd))
  · rcases h.pends (Callback.ofResolve_of_asks hx) hp with hp | hcb
    · exact Or.inl (Or.inr ⟨x, hx, hxd, hp⟩)
    · exact Or.inr ⟨x, hcb, hx, hxd⟩

theorem Moves.asking_none {r r' : Router} (h : Moves none r r') {d : Ptr}
    (hq : r'.resolveq.Has d → r.resolveq.Has d) (hd : r'.Asking d) : r.Asking d := by
  rcases h.asking hq hd with hd | ⟨x, hx, -⟩
  · exact hd
  · exact absurd hx (Option.not_mem_none x)

/-- **A call** asks for no connection but one that it makes. -/
theorem Api.Moved.asking {alloc : Bool} {r r' : Router} {api : Api} {ts : List Task}
    (h : api.Moved alloc r ts r') {d : Ptr} (hd : r'.Asking d) :
    r.Asking d ∨ api = .openConnection ∧ d = r.heap.brk := by
  cases h with
  | steady hst _ _ => exact Or.inl (hst.moves.asking_none (fun h => hst.resolveq ▸ h) hd)
  | opened ho _ =>
    rcases hd with hd | ⟨x, hx, hxd, hp⟩
    · rw [ho.resolveq] at hd
      rcases hd.of_put with hd | rfl
      · exact Or.inl (Or.inl hd)
      · exact Or.inr ⟨rfl, rfl⟩
    · rcases ho.moves.pends (Callback.ofResolve_of_asks hx) hp with hp | hcb
      · exact Or.inl (Or.inr ⟨x, hx, hxd, hp⟩)
      · rw [ho.begins x hcb] at hxd
        exact Or.inr ⟨rfl, (Option.some.inj hxd).symm⟩
  | late hpop =>
    left
    rcases hd with hd | hd
    · exact Or.inl ((Resolveq.has_of_pop hpop).2 d hd)
    · exact Or.inr hd
  | @answered _ _ _ _ e q r' hpop ha =>
    left
    obtain ⟨hhas, hle⟩ := Resolveq.has_of_pop hpop
    have hsame : ∀ {cb : Callback}, cb.conn? = some e → Moves (some cb) (r.setResolveq q) r' →
        r.Asking d := by
      intro cb hcb hmoves
      rcases hmoves.asking (fun h => ha.resolveq ▸ h) hd with hd | ⟨x, hx, -, hxd⟩
      · exact hd.imp (hle d) id
      · -- it was in the queue
        obtain rfl := Option.some.inj hx
        obtain rfl := Option.some.inj (hcb.symm.trans hxd)
        exact Or.inl (hhas e rfl)
    rcases ha.moves with hmoves | hmoves
    · exact hsame rfl hmoves
    · exact hsame rfl hmoves

/-- **A task** asks for none, and leaves no such callback but the walk, one that was pending. -/
theorem Task.Moved.asking {r r' : Router} {u : Task} {ts : List Task}
    (h : u.Moved r ts r') {d : Ptr}
    (hd : r'.Asking d ∨ ∃ cb : Callback, cb.asks = true ∧ cb.conn? = some d ∧ .callback cb ∈ ts) :
    r.Asking d := by
  cases h with
  | steady hst hmute _ =>
    rcases hd with hd | ⟨cb, -, -, hcb⟩
    · exact hst.moves.asking_none (fun h => hst.resolveq ▸ h) hd
    · exact absurd (hmute _ hcb) Bool.false_ne_true
  | walk _ hq hpending _ =>
    rcases hd with (hd | ⟨x, hx, hxd, hp⟩) | ⟨x, hx, hxd, hmem⟩
    · exact Or.inl (hq ▸ hd)
    · refine Or.inr ⟨x, hx, hxd, fun hnil => hp (List.eq_nil_of_length_eq_zero ?_)⟩
      have hlen := hpending fun y => y = x
      rw [hnil, List.length_nil] at hlen
      exact Nat.eq_zero_of_add_eq_zero_right hlen
    · refine Or.inr ⟨x, hx, hxd, fun hnil => ?_⟩
      rcases List.mem_cons.mp hmem with heq | hmem
      · have hlen := hpending fun y => y = x
        cases heq
        rw [hnil, decide_eq_true rfl, if_pos rfl] at hlen
        exact absurd hlen (Nat.succ_ne_zero _)
      · exact absurd (List.mem_singleton.mp hmem) (by simp)
  | ask hmoves hq =>
    rcases hd with hd | ⟨x, -, -, hmem⟩
    · rcases hmoves.asking (fun h => hq ▸ h) hd with hd | ⟨x, hx, hasks, -⟩
      · exact hd
      · obtain rfl := Option.some.inj hx
        exact absurd hasks Bool.false_ne_true
    · exact absurd (List.mem_singleton.mp hmem) (by simp)
  | timeout hdel hmoves =>
    rcases hd with hd | ⟨x, -, -, hmem⟩
    · exact hmoves.asking_none (fun h => h.of_del hdel) hd
    · simp [tripCloseConnection] at hmem

/-- **A step** asks for no connection but one that it makes. -/
theorem Config.Moved.asking {c c' : Config} {i : Input} (h : c.Moved i c') {d : Ptr}
    (hd : c'.Asking d) :
    c.Asking d ∨ (∃ o, i = .call .openConnection o) ∧ d = c.router.heap.brk := by
  have hrest : ∀ {ts : List Task} {cb : Callback}, (∀ t ∈ ts, t.urgent = false) →
      .callback cb ∉ ts := fun hts hmem => absurd (hts _ hmem) (Bool.false_ne_true ∘ Eq.symm)
  cases h with
  | @call api o ts r' htodo hm =>
    have hrouter : r'.Asking d := by
      rcases hd with hd | ⟨cb, -, -, hmem⟩
      · exact hd
      · rcases List.mem_append.mp hmem with hmem | hmem
        · exact absurd (hm.mute _ hmem) Bool.false_ne_true
        · exact absurd hmem (hrest htodo)
    rcases hm.asking hrouter with hd | ⟨rfl, hd⟩
    · exact Or.inl (Or.inl hd)
    · exact Or.inr ⟨⟨o, rfl⟩, hd⟩
  | @run code o u rest ts r' htodo hurgent hm =>
    left
    left
    refine hm.asking (hd.imp_right ?_)
    rintro ⟨cb, hcb, hcbd, hmem⟩
    rcases List.mem_append.mp hmem with hmem | hmem
    · exact ⟨cb, hcb, hcbd, hmem⟩
    · exact absurd hmem (hrest hurgent)

/-! ### Over the steps of the machine -/

/-- Every connection is lawful, none has become ready, and what is to be resolved was
opened by this side. -/
structure Phased (c : Config) : Prop where
  sends : Sendables c
  lawful : ∀ d < c.router.heap.brk, (c.router.standing d).Lawful
  unready : c.router.Unready
  calm : ∀ cb : Callback, .callback cb ∈ c.todo → cb.isReadyPing = false
  ours : ∀ d, c.Asking d → (c.router.standing d).incoming = false

theorem phased_idle (preset : TripPreset) (now : ℕ) (buf : Buf) :
    Phased (.idle (tripNew preset now buf)) where
  sends := sendables_idle preset now buf
  lawful := fun _ hd => absurd hd (Nat.not_lt_zero _)
  unready := rfl
  calm := fun _ hcb => absurd hcb List.not_mem_nil
  ours := by
    rintro d ((hd | ⟨_, -, -, hp⟩) | ⟨_, -, -, hmem⟩)
    · exact absurd hd (Resolveq.not_has_init d)
    · exact absurd rfl hp
    · exact absurd hmem List.not_mem_nil

/-- A connection that is to be resolved is there. -/
theorem Known.lt_of_asking {c : Config} (hc : Known c) {d : Ptr} (hd : c.Asking d) :
    d < c.router.heap.brk := by
  rcases hd with (hd | ⟨cb, -, hcb, hp⟩) | ⟨cb, -, hcb, hmem⟩
  · exact hc.queued d hd
  · by_contra hlt
    refine hp (Timerwheel.pending_eq_nil_of_imp (fun x hx => ?_) hc.timed.bound)
    rw [of_decide_eq_true hx, Callback.beyond, hcb]
    exact decide_eq_true (not_lt.mp hlt)
  · exact (hc.due _ hmem cb rfl d hcb).1

/-- What is opened is of this side. -/
theorem incoming_of_opened {c c' : Config} {o : Oracle} (h : c.Step (.call .openConnection o) c')
    (hlt : c.router.heap.brk < c'.router.heap.brk) :
    (c'.router.standing c.router.heap.brk).incoming = false := by
  rcases Config.step_cases h with ⟨api, o, ts, e, heq, -, hexec, rfl⟩ |
    ⟨code, o, u, rest, ts, e, heq, -, -, -⟩
  · cases heq
    obtain ⟨ts', t', hopen, hopens⟩ := exec_tripOpenConnection ⟨c.router, o, []⟩
    obtain ⟨rfl, rfl⟩ : ts' = ts ∧ t' = e := by simpa using hopen.symm.trans hexec
    rcases hopens.makes with hsame | ⟨id, y, hmakes, hy⟩
    · rw [hsame] at hlt
      exact absurd hlt (Nat.lt_irrefl _)
    · rw [show _ = y from hmakes.self]
      rcases hy with rfl | rfl
      · rfl
      · rfl
  · cases heq

namespace Phased

variable {c c' : Config} {i : Input}

/-- Every step moves connections by their steps, of which sending is one where a packet is
packed. -/
theorem evolves_of {packs : Prop} (hc : Phased c) (h : c.Step i c')
    (hpacks : ∀ code o d connsent sent rest, i = .run code o →
      c.todo = .pack d connsent sent :: rest → packs) :
    Evolves (i.sceneOf packs) c.router c'.router := by
  rcases Config.step_cases h with ⟨api, o, ts, e, rfl, -, hexec, rfl⟩ |
    ⟨code, o, u, rest, ts, e, rfl, htodo, hexec, rfl⟩
  · exact Api.run_evolves hc.lawful hc.sends.known.timed.mapped hexec
  · have hmem : u ∈ c.todo := by
      rw [htodo]
      exact List.mem_cons_self
    refine Task.run_evolves (s := ⟨c.router, o, []⟩) trivial (fun d connsent sent hu => ?_)
      (fun cb hcb => ?_) (fun d hd => ?_) hexec
    · exact hpacks code o d connsent sent rest rfl (hu ▸ htodo)
    · have hdue := hc.sends.known.due u hmem cb hcb
      refine ⟨hc.calm cb (hcb ▸ hmem), fun d hd => hc.lawful d (hdue d hd).1, fun hasks d hd => ?_⟩
      exact hc.ours d (Or.inr ⟨cb, hasks, hd, hcb ▸ hmem⟩)
    · exact hc.lawful d (hc.sends.packing u hmem d hd)

/-- **Every step** moves connections by their steps. -/
theorem evolves (hc : Phased c) (h : c.Step i c') : Evolves i.scene c.router c'.router := by
  have hpacks : ∀ code o d connsent sent rest, i = .run code o →
      c.todo = .pack d connsent sent :: rest → i.turns := by
    rintro code o d connsent sent rest rfl _
    trivial
  exact hc.evolves_of h hpacks

/-- A callback on top was pending. -/
theorem calm_step (hc : Phased c) (h : c.Moved i c') {cb : Callback}
    (hmem : .callback cb ∈ c'.todo) : cb.isReadyPing = false := by
  cases h with
  | call htodo hm =>
    rcases List.mem_append.mp hmem with hmem | hmem
    · exact absurd (hm.mute _ hmem) Bool.false_ne_true
    · exact absurd (htodo _ hmem) (Bool.false_ne_true ∘ Eq.symm)
  | run htodo hurgent hm =>
    rcases List.mem_append.mp hmem with hts | hrest
    swap
    · exact absurd (hurgent _ hrest) (Bool.false_ne_true ∘ Eq.symm)
    cases hm with
    | steady _ hmute _ => exact absurd (hmute _ hts) Bool.false_ne_true
    | walk _ _ hpending _ =>
      rcases List.mem_cons.mp hts with heq | hts
      · cases heq
        have hlen := hpending Callback.isReadyPing
        rw [show c.router.pending _ = [] from hc.unready, List.length_nil] at hlen
        by_contra hready
        rw [Bool.not_eq_false _ |>.mp hready, if_pos rfl] at hlen
        exact absurd hlen (Nat.succ_ne_zero _)
      · exact absurd (List.mem_singleton.mp hts) (by simp)
    | ask _ _ => exact absurd (List.mem_singleton.mp hts) (by simp)
    | timeout _ _ => simp [tripCloseConnection] at hts

/-- **Every step** keeps the phases. -/
theorem step (hc : Phased c) (h : c.Step i c') : Phased c' := by
  obtain ⟨hsends, hbrk⟩ := hc.sends.step h
  have hmoved := (hc.sends.known.step h).2
  have hevolves := hc.evolves h
  have hlawful : ∀ d < c'.router.heap.brk, (c'.router.standing d).Lawful :=
    hevolves.grows.invariant (fun _ => Standing.lawful_born) (fun _ _ hx hxy => hx.step hxy)
      hc.lawful
  refine ⟨hsends, hlawful, hevolves.unready hc.unready, fun cb hcb => hc.calm_step hmoved hcb, ?_⟩
  intro d hd
  rcases hmoved.asking hd with hd' | ⟨⟨o, rfl⟩, rfl⟩
  · rw [hevolves.grows.kept (fun _ _ => Standing.Step.incoming) (hc.sends.known.lt_of_asking hd')]
    exact hc.ours d hd'
  · exact incoming_of_opened h (hsends.known.lt_of_asking hd)

end Phased

/-! ### Runs -/

/-- The standings of the connections that were made. -/
structure Views where
  size : ℕ
  view : Ptr → Standing

/-- **What the router is for its connections**: they take steps, and new ones are born. -/
def Views.Step (v : Views) (i : Input) (v' : Views) : Prop :=
  Grows (Standing.Born i.scene) (Standing.Step i.scene) v.size v.view v'.size v'.view

/-- Two connections are opened, and send their segments. -/
def sentRun : List (Input × Config) :=
  trace (fun i c => (c.step i).getD c) (.idle (tripNew .ROUTER 0 fun _ => 0)) blockInputs

end Libtrp
