import Libtrp.Reject
import Libtrp.TripIdle
import Libtrp.TripState

/-!
# Sending without being always ready

`_trip_qconnection` is to set a timer for `_trip_send_immediately_cb` when the router is
always ready, which `trip_watch` makes it.  It tests `r->flag | _TRIPR_FLAG_ALWAYS_READY`,
which is never zero: every connection that is put into the send queue sets the timer.

So a router sends from socket events only as long as none is put there.  What puts one
there is a connection that enters `OPEN` or `PING`, one that resends in time, and a
segment that is read to the end.

## Main definitions

* `ReadAsks`, `InfoAsks`, `SegmentAsks` — a segment that is read to the end.
* `Unwatched` — `trip_watch` does not make the router always ready.
* `Config.Unasked` — a step that puts no connection into the send queue.

## Main results

* `trip_sends_from_events` — **when no timer is set to send.**
* `trip_opens_immediately` — a connection that opens sets one.

## References

`src/trip.c` (`_trip_qconnection`, `_trip_send_immediately_cb`, `trip_watch`),
`src/conn.c` (`_tripc_set_send`).
-/

namespace Libtrp

open Lib

/-! ### Segments that are read to the end -/

/-- Reading the segment puts the connection `x` into the send queue: it waits for a
challenge and gets one, or it is new and is told what opens it, or hears a ping, which
is accepted when its length has wrapped. -/
def ReadAsks (o : Oracle) (x : Connection) (pre : TripPrefix) (len : ℕ) (buf : Buf) : Prop :=
  match x.state with
  | .OPEN => InfoTaken o 128 48 len buf
  | .CHAL =>
    pre.control = tripControlOpen ∧ InfoTaken o 80 0 len buf ∨
      pre.control = tripControlPing ∧ x.Hears ∧ len = NPOS
  | _ => False

/-- A connection is made for an OPEN segment, and the information in it is taken; `en` is
where it begins, behind the prefix and the route. -/
structure InfoAsks (o : Oracle) (r : Router) (len : ℕ) (buf : Buf) (en : ℕ) : Prop where
  alloc : o.alloc.head = true
  slot : connmapAddCode r.conn o.alloc.tail.head = 0
  box : 48 ≤ sizeSub (sizeSub (sizeSub len tripSign) en) tripSign
  taken : InfoTaken { o with alloc := o.alloc.tail.tail } 80 0
    (sizeSub (sizeSub len tripSign) ((en + 48) % 2 ^ 64)) (buf.drop ((en + 48) % 2 ^ 64))

/-- **The segment puts a connection into the send queue.** -/
def SegmentAsks (s : Env) (src : ℤ) (len : ℕ) (buf : Buf) : Prop :=
  (s.router.state = .LISTEN ∨ s.router.state = .CLOSE) ∧ ∃ en pre, SegmentPasses len buf en pre ∧
    (pre.control = tripControlOpen ∧ (∃ endroute screen,
        OpenPasses s src len buf en pre endroute screen ∧
          InfoAsks s.oracle s.router len buf (en + endroute)) ∨
      pre.control ≠ tripControlOpen ∧ ∃ c, CommPasses s len buf pre c ∧
        ReadAsks s.oracle (s.router.heap.conn c) pre (sizeSub (sizeSub len tripSign) en)
          (buf.drop en))

section Read

variable {c : Ptr} {s t : Env} {pre : TripPrefix} {len : ℕ} {buf : Buf} {code : Errno}

/-- Information that is not taken is not gone on behind. -/
theorem tripcRead_info_idle {fmt : List PackDir} {size off : ℕ} (hfmt : InfoFormat fmt size off)
    {next : TripM Unit} (hnext : Follows c next)
    (hread : tripcReadSwitch c pre len buf (s.router.heap.conn c).state =
      tripcParsed (tripcParseInfo fmt c len buf) next)
    (hnot : ¬ InfoTaken s.oracle size off len buf)
    (h : (tripcRead c pre len buf).exec s = (some code, t)) : code ≠ 0 ∧ t = s := by
  rcases exec_tripcRead_info hfmt hnext hread with ⟨-, hexec⟩ | ⟨-, -, hexec⟩ | ⟨htaken, -⟩
  · cases h.symm.trans hexec
    exact ⟨by decide, rfl⟩
  · rw [h] at hexec
    cases hexec
  · exact absurd htaken hnot

/-- **Reading** asks for sending only where it is said. -/
theorem tripcRead_idle (hnot : ¬ ReadAsks s.oracle (s.router.heap.conn c) pre len buf)
    (h : (tripcRead c pre len buf).exec s = (some code, t)) : Idle false s.router t.router := by
  unfold ReadAsks at hnot
  have hend : ∀ code, Idling false (tripcReadEnd c code) := by
    intro code
    cases code with
    | none => exact .bind (.getConn c) fun _ => .pure _
    | some code => exact .pure code
  have hparsed : ∀ {m : TripM (Option Errno)}, Idling false m →
      tripcReadSwitch c pre len buf (s.router.heap.conn c).state = m →
        Idle false s.router t.router := by
    intro m hm hread
    rw [exec_tripcRead, hread] at h
    exact (Idling.bind hm hend).exec h
  cases hstate : (s.router.heap.conn c).state with
  | START | ERROR | END =>
    refine hparsed ?_ (congrArg _ hstate)
    exact .pure _
  | RESOLVE =>
    refine hparsed ?_ (congrArg _ hstate)
    exact .bind (.tripcSetError _ _) fun _ => .pure _
  | OPEN =>
    rw [hstate] at hnot
    obtain ⟨-, rfl⟩ := tripcRead_info_idle infoFormat_chal (follows_tripcSetState c .PING)
      (congrArg _ hstate) hnot h
    exact .refl _
  | CHAL =>
    rw [hstate] at hnot
    by_cases hopen : pre.control = tripControlOpen
    · have hread : tripcReadSwitch c pre len buf (s.router.heap.conn c).state =
          tripcParsed (tripcParseOpen c len buf) (tripcSetSend c) := by
        rw [hstate, tripcReadSwitch, if_neg (by rw [hopen]; decide), if_pos hopen]
      obtain ⟨-, rfl⟩ := tripcRead_info_idle infoFormat_open (follows_tripcSetSend c) hread
        (fun htaken => hnot (Or.inl ⟨hopen, htaken⟩)) h
      exact .refl _
    by_cases hping : pre.control = tripControlPing
    · -- a ping is heard, but not accepted
      have hread : tripcReadSwitch c pre len buf (s.router.heap.conn c).state =
          tripcParsed (tripcParsePing c len buf pre) (tripcSetSend c) := by
        rw [hstate, tripcReadSwitch, if_neg (by rw [hping]; decide), if_neg hopen, if_pos hping]
      rcases exec_tripcRead_ping (follows_tripcSetSend c) hread with
        ⟨-, hexec | hexec⟩ | ⟨hhears, u, hu, -, hexec⟩
      · cases h.symm.trans hexec
        exact .refl _
      · rw [h] at hexec
        cases hexec
      · rw [if_pos fun hlen => hnot (Or.inr ⟨hping, hhears, hlen.symm⟩)] at hexec
        cases h.symm.trans hexec
        rw [hu]
        exact .setConn _ c fun _ => Or.inl rfl
    · refine hparsed (m := if pre.control = tripControlData then
        tripcParsed (tripcParseData c) (tripcSetState c .READY) else return some EINVAL) ?_ ?_
      · exact .ite (.tripcParsed (.pure _) (.tripcSetState_idle (by simp) (by simp))) (.pure _)
      · rw [hstate, tripcReadSwitch, if_neg hopen, if_neg hping]
  | PING | READY | READY_PING =>
    refine hparsed ?_ (congrArg _ hstate)
    refine .ite (.tripcParsed (.pure _) (.pure ())) (.ite ?_ (.ite ?_ (.pure _)))
    · exact .tripcParsed (.tripcParsePing _ _ _) (.tripcSetState_idle (by simp) (by simp))
    · exact .tripcParsed (.pure _) (.tripcSetState_idle (by simp) (by simp))
  | CLOSE =>
    refine hparsed ?_ (congrArg _ hstate)
    refine .ite (.tripcParsed (.pure _) (.pure ())) (.ite ?_ (.ite ?_ (.pure _)))
    · exact .tripcParsed (.tripcParsePing _ _ _) (.tripcSetState_idle (by simp) (by simp))
    · exact .tripcParsed (.pure _) (.pure ())

end Read

/-! ### Making a connection -/

theorem Idle.fresh {q : Bool} (r : Router) (src : ℤ) (alloc : Bool) (r₁ r₂ : UInt32) :
    Idle q r ((tripSegmentFresh r src).setMap
      (connmapAdd r.conn (tripSegmentFresh r src).heap r.heap.brk alloc r₁ r₂).2) := by
  have hfresh : Idle q r (tripSegmentFresh r src) :=
    (Idle.made r true).trans (.setConn _ _ fun _ => Or.inl rfl)
  exact hfresh.trans (.of_heap rfl (.add _ _ _ _ _ _))

/-- What is done until there is a connection asks for nothing. -/
theorem Idling.tripSegmentCreateWith {q : Bool} {α : Type} (src : ℤ) (screen : TripScreen)
    {reject : ℕ → TripM α} {next : Ptr → TripM α} (hreject : ∀ n, Idling q (reject n))
    (hnext : ∀ c, Idling q (next c)) :
    Idling q (Libtrp.tripSegmentCreateWith src screen reject next) := by
  refine tripNewConnection true (hreject 6) fun c max => ?_
  refine bind (setConn_of fun _ => rfl) fun _ => bind connmapAddM fun code => ite ?_ ?_
  · exact bind tripFreeConnection fun _ => hreject 50
  · exact bind (setConn_of fun _ => rfl) fun _ => bind tripcStart fun _ => hnext c

/-- A connection is made, and then its information is read. -/
theorem tripSegmentCreate_eq (src : ℤ) (len : ℕ) (buf : Buf) (en : ℕ) (pre : TripPrefix)
    (screen : TripScreen) :
    tripSegmentCreate src len buf en pre screen = (do
      let c ← tripSegmentCreateWith src screen (fun _ => return none) fun c => return some c
      match c with
      | some c => tripSegmentInfo src len buf en pre c
      | none => return ()) := by
  unfold tripSegmentCreate tripSegmentCreateWith
  simp only [bind_assoc]
  refine bind_congr fun c => ?_
  cases c with
  | none => rfl
  | some c =>
    simp only [bind_assoc]
    refine bind_congr fun _ => bind_congr fun _ => bind_congr fun _ => bind_congr fun code => ?_
    split <;> simp [tripRouterReject]

section Make

variable {src : ℤ} {len : ℕ} {buf : Buf} {en : ℕ} {pre : TripPrefix} {screen : TripScreen}
  {c : Ptr} {s t : Env}

/-- The information of a new connection. -/
theorem tripSegmentInfo_idle (hchal : (s.status c).state = .CHAL)
    (hopen : pre.control = tripControlOpen)
    (hnot : ¬ (48 ≤ sizeSub (sizeSub (sizeSub len tripSign) en) tripSign ∧
      InfoTaken s.oracle 80 0 (sizeSub (sizeSub len tripSign) ((en + 48) % 2 ^ 64))
        (buf.drop ((en + 48) % 2 ^ 64))))
    (h : (tripSegmentInfo src len buf en pre c).exec s = (some (), t)) :
    Idle false s.router t.router := by
  obtain ⟨hlong, hshort⟩ := @tripUnpack_fixed [.o, .O] (by decide) (by decide)
    (sizeSub (sizeSub (sizeSub len tripSign) en) tripSign) (buf.drop en)
  rw [show fixedSize [.o, .O] = 48 from rfl] at hlong hshort
  unfold tripSegmentInfo at h
  rw [Prog.exec_bind_of (exec_sizeSubM _ _ _), Prog.exec_bind_of (exec_sizeSubM _ _ _),
    Prog.exec_bind_of (exec_sizeSubM _ _ _), Prog.exec_bind_of (exec_mark _ _)] at h
  rcases Nat.lt_or_ge (sizeSub (sizeSub (sizeSub len tripSign) en) tripSign) 48 with hlt | hge
  · -- there is no room for the box
    have hnpos := hshort hlt
    generalize tripUnpack _ _ _ = p at hnpos h
    obtain ⟨maclen, out⟩ := p
    dsimp only at hnpos h
    rw [if_pos (Or.inr hnpos)] at h
    cases h
    exact .refl _
  · rw [hlong hge] at h
    dsimp only at h
    rw [if_neg (by decide), Prog.exec_bind_of (exec_sizeSubM _ _ _),
      Prog.exec_bind_of (exec_mark _ _)] at h
    generalize hv : Env.addMark _ _ = v at h
    have hsv : SameBut s v := by rw [← hv]; exact ⟨rfl, rfl⟩
    obtain ⟨code, u, hread, hend⟩ := Prog.exec_bind_eq_some.mp h
    have hswitch : tripcReadSwitch c pre (sizeSub (sizeSub len tripSign) ((en + 48) % 2 ^ 64))
        (buf.drop ((en + 48) % 2 ^ 64)) (v.router.heap.conn c).state =
          tripcParsed (tripcParseOpen c (sizeSub (sizeSub len tripSign) ((en + 48) % 2 ^ 64))
            (buf.drop ((en + 48) % 2 ^ 64))) (tripcSetSend c) := by
      rw [hsv.router, show (s.router.heap.conn c).state = .CHAL from hchal, tripcReadSwitch,
        if_neg (by rw [hopen]; decide), if_pos hopen]
    obtain ⟨hcode, rfl⟩ := tripcRead_info_idle infoFormat_open (follows_tripcSetSend c) hswitch
      (fun htaken => hnot ⟨hge, hsv.oracle ▸ htaken⟩) hread
    rw [if_pos hcode] at hend
    cases hend
    rw [hsv.router]
    exact .refl _

/-- **Making a connection** asks for sending only when its information is taken. -/
theorem tripSegmentCreate_idle (hopen : pre.control = tripControlOpen)
    (hnot : ¬ InfoAsks s.oracle s.router len buf en)
    (h : (tripSegmentCreate src len buf en pre screen).exec s = (some (), t)) :
    Idle false s.router t.router := by
  rcases tripSegmentCreate_cases src len buf en pre screen s with
    ⟨-, hsame⟩ | ⟨halloc, r₁, r₂, code, mh, hadd, ⟨-, hfree⟩ | ⟨hcode, -⟩⟩
  · rw [h] at hsame
    rw [show t.router = s.router from hsame]
    exact .refl _
  · rw [h] at hfree
    have hmh : mh = (connmapAdd s.router.conn (tripSegmentFresh s.router src).heap s.router.heap.brk
        s.oracle.alloc.tail.head r₁ r₂).2 := by rw [hadd]
    rw [show t.router = _ from hfree, hmh]
    exact (Idle.fresh s.router src _ r₁ r₂).trans (.of_heap rfl (.of_brk rfl fun _ => Or.inl rfl))
  · -- the connection is made, and its information is read
    have hzero : connmapAddCode s.router.conn s.oracle.alloc.tail.head = 0 := by
      rw [← connmapAdd_code s.router.conn (tripSegmentFresh s.router src).heap s.router.heap.brk _
        r₁ r₂, hadd]
      exact hcode
    obtain ⟨u, hmade, hchal, -, htail⟩ := exec_tripSegmentCreateWith src screen
      (fun _ => return none) (fun c => return some c) halloc hzero
    rw [tripSegmentCreate_eq, Prog.exec_bind_of hmade] at h
    have hmakes : Idling false (tripSegmentCreateWith src screen (fun _ => return none)
        fun c => return some c : TripM (Option Ptr)) :=
      .tripSegmentCreateWith src screen (fun _ => .pure none) fun c => .pure (some c)
    refine (hmakes.exec hmade).trans (tripSegmentInfo_idle hchal hopen (fun htaken => hnot ?_) h)
    refine ⟨halloc, hzero, htaken.1, htaken.2.1, htaken.2.2.imp_right fun hmem => ?_⟩
    rwa [htail] at hmem

end Make

/-- **A segment** asks for sending only where it is said. -/
theorem tripSeg_idle {src : ℤ} {len : ℕ} {buf : Buf} {s t : Env}
    (hnot : ¬ SegmentAsks s src len buf) (h : (tripSeg src len buf).exec s = (some (), t)) :
    Idle false s.router t.router := by
  have hsame : ∀ {m : TripM Unit} {u v : Env}, SameBut u (m.exec v).2 → m.exec v = (some (), t) →
      u.router = s.router → Idle false s.router t.router := by
    intro m u v hu hm hus
    rw [hm] at hu
    rw [show t.router = s.router from hu.router.trans hus]
    exact .refl _
  unfold tripSeg at h
  rw [Prog.exec_bind_of (exec_fetch _ _), Prog.exec_ite] at h
  by_cases hstate : s.router.state = .LISTEN ∨ s.router.state = .CLOSE
  swap
  · rw [if_neg hstate] at h
    cases h
    exact .refl _
  rw [if_pos hstate] at h
  rcases tripSegment_cases src len buf s with ⟨hu, -⟩ | ⟨en, pre, u, hpass, hsu, hexec⟩
  · exact hsame hu h rfl
  have hasked : SameAsked s u := @SameAsked.of_sameBut s u s.oracle.alloc hsu
  rw [hexec] at h
  by_cases hopen : pre.control = tripControlOpen
  · rw [if_pos hopen] at h
    rcases tripSegmentOpen_cases src len buf en pre u with
      hv | ⟨c, -, hset⟩ | ⟨endroute, screen, v, hopens, huv, hcreate⟩
    · exact hsame hv h hsu.router
    · rw [h] at hset
      rw [show t.router = _ from hset, hsu.router]
      exact .setConn _ c fun _ => Or.inl rfl
    · rw [hcreate] at h
      have hsv : SameBut s v := hsu.trans huv
      rw [← hsv.router]
      refine tripSegmentCreate_idle hopen (fun hasks => hnot ?_) h
      rw [hsv.router, hsv.oracle] at hasks
      have hopens' := (OpenPasses.congr hasked).mp hopens
      exact ⟨hstate, en, pre, hpass, Or.inl ⟨hopen, endroute, screen, hopens', hasks⟩⟩
  · rw [if_neg hopen] at h
    rcases tripSegmentComm_cases src len buf en pre u with ⟨hv, -⟩ | ⟨c, hcomm, hread⟩
    · exact hsame hv h hsu.router
    · obtain ⟨v, huv, hexec'⟩ := tripSegmentRead_cases src len buf en pre c u
      have hsv : SameBut s v := hsu.trans huv
      rw [hread, hexec'] at h
      rcases hrun : (tripcRead c pre (sizeSub (sizeSub len tripSign) en) (buf.drop en)).exec v with
        ⟨_ | code, w⟩
      · rw [hrun] at h
        cases h
      · rw [hrun] at h
        cases h
        rw [← hsv.router]
        refine tripcRead_idle (fun hasks => hnot ?_) hrun
        rw [hsv.router, hsv.oracle] at hasks
        have hcomm' := (CommPasses.congr hasked).mp hcomm
        exact ⟨hstate, en, pre, hpass, Or.inr ⟨hopen, c, hcomm', hasks⟩⟩

/-! ### Runs -/

/-- `trip_watch` does not make the router always ready. -/
def Unwatched : Config → Input → Prop
  | _, .call (.watch fd events) _ => fd = tripSocketTimeout → events = tripEventRemove
  | _, _ => True

instance (c : Config) (i : Input) : Decidable (Unwatched c i) := by
  induction i using Input.casesOn with
  | call api o => induction api using Api.casesOn <;> dsimp only [Unwatched] <;> infer_instance
  | run code o => exact inferInstanceAs (Decidable True)

/-- The steps of a router that was never made always ready. -/
def WatchStep (c : Config) (i : Input) (c' : Config) : Prop := c.Step i c' ∧ Unwatched c i

/-- What is on top puts no connection into the send queue: no connection enters `OPEN` or
`PING`, and one whose resend timer ran out is past its deadline. -/
def Task.Unasked (r : Router) (o : Oracle) : Task → Prop
  | .callback (.tripResolveDelaySuccess _) | .callback (.tripcTimeoutStateReadyPing _) => False
  | .callback (.tripcTimeoutStateResend d) => (r.heap.conn d).statedeadline < o.clock.head.toNat
  | _ => True

/-- **A step that puts no connection into the send queue.** -/
def Config.Unasked (c : Config) : Input → Prop
  | .call (.seg src len buf) o => ¬ SegmentAsks ⟨c.router, o, []⟩ src len buf
  | .call _ _ => True
  | .run _ o => ∀ t ∈ c.todo.head?, t.Unasked c.router o

/-- No timer is set to send, and no sending is left to do. -/
structure Config.Silent (c : Config) : Prop where
  sends : c.router.SendFree
  todo : ∀ t ∈ c.todo, t.immediate = false

/-- A call leaves it so. -/
theorem Api.run_silent {c : Config} {api : Api} {o : Oracle} {ts : List Task} {s : Env}
    (hwatch : Unwatched c (.call api o)) (hask : c.Unasked (.call api o))
    (h : api.run.exec ⟨c.router, o, []⟩ = (some ts, s)) :
    Idle false c.router s.router ∧ ∀ u ∈ ts, u.immediate = false := by
  cases hasks : api.asks with
  | false => exact Defers.api (fun _ => hasks) _ ts s h
  | true =>
    cases api with
    | seg src len buf =>
      obtain ⟨a, t, hseg, hend⟩ := Prog.exec_bind_eq_some.mp h
      cases hend
      exact ⟨tripSeg_idle hask hseg, fun u hu => absurd hu List.not_mem_nil⟩
    | watch fd events =>
      -- the flag is cleared, or the descriptor is another
      have hdefers : Defers false (tripWatch fd events) := by
        unfold tripWatch
        by_cases hfd : fd = tripSocketTimeout
        · rw [if_pos hfd, if_pos (hwatch hfd)]
          exact .stop (.store_of (fun _ => rfl) fun _ => rfl)
        · rw [if_neg hfd]
          exact .nil
      exact hdefers _ ts s h
    | _ => exact absurd hasks (by simp [Api.asks])

/-- A resend timer that runs out past the deadline only closes its connection. -/
theorem tripcTimeoutStateResend_idle {d : Ptr} {s t : Env} {ts : List Task}
    (hlate : (s.router.heap.conn d).statedeadline < s.oracle.clock.head.toNat)
    (h : (tripCallback (.tripcTimeoutStateResend d)).exec s = (some ts, t)) :
    Idle false s.router t.router ∧ ∀ u ∈ ts, u.immediate = false := by
  obtain ⟨close, u, hresend, hend⟩ := Prog.exec_bind_eq_some.mp h
  have hlate' : s.oracle.clock.head.toNat > (s.popClock.router.heap.conn d).statedeadline := hlate
  unfold tripcTimeoutStateResend at hresend
  rw [Prog.exec_bind_of (exec_triptimeNow _), Prog.exec_bind_of (exec_getConn _ _),
    if_pos hlate'] at hresend
  have hidle : Idling false (do
      tripcSetError d ETIME none
      return true) := .bind (.tripcSetError _ _) fun _ => .pure true
  have hsu : Idle false s.popClock.router u.router := hidle.exec hresend
  split at hend
  · cases hend
    exact ⟨hsu, by simp [tripCloseConnection, Task.immediate]⟩
  · cases hend
    exact ⟨hsu, by simp⟩

/-- A task leaves it so. -/
theorem Task.run_silent {t : Task} {code : Errno} {s s' : Env} {ts : List Task}
    (hs : s.router.SendFree) (ht : t.immediate = false) (hask : t.Unasked s.router s.oracle)
    (h : (t.run code).exec s = (some ts, s')) :
    Idle false s.router s'.router ∧ ∀ u ∈ ts, u.immediate = false := by
  cases hwalk : t.isWalk with
  | true =>
    cases t with
    | walk w =>
      obtain ⟨hidle, hts⟩ := tripTimeoutWalk_idle h
      exact ⟨hidle, hts hs⟩
    | _ => exact absurd hwalk (by simp [Task.isWalk])
  | false =>
    cases hasks : t.asks with
    | false => exact Defers.task ht hwalk (fun _ => hasks) code s ts s' h
    | true =>
      cases t with
      | callback cb =>
        cases cb with
        | tripResolveDelaySuccess | tripcTimeoutStateReadyPing => exact hask.elim
        | tripcTimeoutStateResend d => exact tripcTimeoutStateResend_idle hask h
        | _ => exact absurd hasks (by simp [Task.asks])
      | _ => exact absurd hasks (by simp [Task.asks])

/-- **One step.** -/
theorem Config.Silent.step {c c' : Config} {i : Input} (hc : c.Silent) (hask : c.Unasked i)
    (h : WatchStep c i c') : c'.Silent := by
  obtain ⟨hstep, hwatch⟩ := h
  rcases Config.step_cases hstep with ⟨api, o, ts, s, rfl, -, hexec, rfl⟩ |
    ⟨code, o, t, rest, ts, s, rfl, htodo, hexec, rfl⟩
  · obtain ⟨hidle, hts⟩ := Api.run_silent hwatch hask hexec
    refine ⟨hidle.sends rfl hc.sends, fun u hu => ?_⟩
    rcases List.mem_append.mp hu with hu | hu
    · exact hts u hu
    · exact hc.todo u hu
  · have hmem : ∀ u ∈ t :: rest, u.immediate = false := htodo ▸ hc.todo
    have hasked : t.Unasked c.router o := hask t (by rw [htodo]; rfl)
    obtain ⟨hidle, hts⟩ := Task.run_silent hc.sends (hmem t List.mem_cons_self) hasked hexec
    refine ⟨hidle.sends rfl hc.sends, fun u hu => ?_⟩
    rcases List.mem_append.mp hu with hu | hu
    · exact hts u hu
    · exact hmem u (List.mem_cons_of_mem t hu)

/-- **When no timer is set to send**: as long as no step puts a connection into the send
queue, a router that was never made always ready sends from socket events only. -/
theorem trip_sends_from_events (preset : TripPreset) (now : ℕ) (buf : Buf)
    {r : List (Input × Config)} (hr : IsRun WatchStep (.idle (tripNew preset now buf)) r)
    (hm : Meets Config.Unasked (.idle (tripNew preset now buf)) r) :
    Holds (fun c => c.router.SendFree) (fun _ _ _ => True) (.idle (tripNew preset now buf)) r := by
  have hfirst : (Config.idle (tripNew preset now buf)).Silent :=
    ⟨fun e he => absurd he List.not_mem_nil, fun t ht => absurd ht List.not_mem_nil⟩
  refine Holds.mono (fun c hc => Config.Silent.sends hc) (fun _ _ _ _ hok => hok)
    (holds_of_meets ?_ hfirst hr hm)
  intro c i c' hc hask h
  exact ⟨trivial, hc.step hask h⟩

/-- A connection is opened and resolved, and the timer for its success has run out. -/
def resolvedInputs : List Input :=
  listenInputs ++ [.call .openConnection plainOracle, .call .timeout plainOracle] ++
    List.replicate 6 turn ++ [.call (.resolve 0 2 0 none) plainOracle,
      .call .timeout plainOracle, turn]

instance (r : Router) (o : Oracle) (t : Task) : Decidable (t.Unasked r o) := by
  induction t using Task.casesOn with
  | callback cb =>
    induction cb using Callback.casesOn <;> dsimp only [Task.Unasked] <;> infer_instance
  | _ => exact inferInstanceAs (Decidable True)

/-- A condition that can be computed: no segment comes in, and what is on top asks for
nothing. -/
def Config.unasked (c : Config) : Input → Bool
  | .call api _ => !api.asks
  | .run _ o => decide (∀ t ∈ c.todo.head?, t.Unasked c.router o)

theorem Config.Unasked.of_unasked {c : Config} {i : Input} (h : c.unasked i = true) :
    c.Unasked i := by
  cases i with
  | run code o =>
    have hhead : ∀ t ∈ c.todo.head?, t.Unasked c.router o := of_decide_eq_true h
    exact hhead
  | call api o =>
    cases api with
    | seg => exact absurd h (by simp [Config.unasked, Api.asks])
    | _ => trivial

/-- Nothing is sent until it opens. -/
theorem trip_sends_from_events_resolved :
    Holds (fun c : Config => c.router.SendFree) (fun _ _ _ => True)
      (.idle (tripNew .ROUTER 0 fun _ => 0))
      (trace (fun i c => (c.step i).getD c) (.idle (tripNew .ROUTER 0 fun _ => 0))
        resolvedInputs) :=
  trip_sends_from_events .ROUTER 0 (fun _ => 0) ((isRun_trace (by decide)).and_meets (by decide))
    (.mono (fun _ _ => .of_unasked) (by decide : Meets (fun c i => Config.unasked c i = true) _ _))

/-- **A connection that opens** sets the timer. -/
theorem trip_opens_immediately :
    ¬ ∀ (preset : TripPreset) (now : ℕ) (buf : Buf) (r : List (Input × Config)),
      IsRun WatchStep (.idle (tripNew preset now buf)) r →
        Holds (fun c : Config => c.router.SendFree) (fun _ _ _ => True)
          (.idle (tripNew preset now buf)) r := by
  intro h
  have hlast := (h .ROUTER 0 (fun _ => 0) _ ((isRun_trace (f := Config.step)
    (l := resolvedInputs ++ [turn]) (by decide)).and_meets (by decide))).last
  revert hlast
  decide

end Libtrp
