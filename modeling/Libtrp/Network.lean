import Libtrp.Lib.Network
import Libtrp.TripPacket

/-!
# Routers that talk to each other

Routers on one network send each other what waits in their buffers.  The network may lose
a segment, repeat it, keep it as long as it likes and hand it to any router, and memory
behind its end may hold anything; but nothing comes in that was not sent.  Each router is
driven as always: by its user, its interface, its clock and its memory.

Then what a connection believes of its peer is so.  One that a segment made was asked for by
a connection that some router opened, and one that was challenged was challenged by a
connection that was made for a segment under its own identifier.

## Main definitions

* `Vouched`, `Challenged` — who asked for a connection, and who answered it.
* `Fair` — what a connection believes.
* `Allows`, `Config.Sends`, `Reached` — routers on such a network.

## Main results

* `Standing.Wrote.heard` — what is heard of a whole segment is what its sender says.
* `net_agrees` — **connections agree on what they are to each other.**
* `net_clear` — **no key is ever learned**, and every segment is in the clear.

## References

`src/trip.c`, `src/conn.c`, `PROTOCOL.md`.
-/

namespace Libtrp

open Lib Relation

/-! ### What is heard of a whole segment -/

/-- What a connection without keys tells of itself. -/
def Standing.info (x : Standing) : Info :=
  ⟨x.self.id, sentLim, List.replicate tripNonce 0, List.replicate tripKeyPub 0⟩

/-- There is no key in it. -/
theorem Standing.bare_info (x : Standing) : x.info.bare = true := by
  have hzeros : areZeros (List.replicate tripNonce 0) = true := by decide
  unfold Info.bare Standing.info
  rw [hzeros, Bool.true_or]

section Heard

variable {sign : Bytes → Bytes → Bytes} {x : Standing} {len : ℕ} {m buf : Buf}

/-- Memory that holds the same bytes holds the segment. -/
theorem Standing.Wrote.congr (h : x.Wrote sign len m) (hbuf : ∀ i < len, buf i = m i) :
    x.Wrote sign len buf := by
  obtain ⟨seq, hlen, hsealed⟩ := h
  exact ⟨seq, hlen, hsealed.congr fun i hi => hbuf i (hlen ▸ hi)⟩

/-- The information is read as what a connection without keys tells. -/
theorem infoAt_wrote (hx : x.Lawful) {en off : ℕ}
    (h : slice buf (en + off) (infoBytes x.self).length = infoBytes x.self) :
    infoAt (buf.drop en) off = x.info := by
  obtain ⟨hid, hlim, hnonce, hkey⟩ := infoBytes_read hx.sized h
  rw [hx.nonce] at hnonce
  rw [hx.pk] at hkey
  unfold infoAt
  rw [hid, hlim, hnonce, hkey]
  rfl

/-- What an OPEN segment is made of, behind a number of `l` bytes. -/
structure AsksBytes (x : Standing) (l len : ℕ) (buf : Buf) : Prop where
  short : l ≤ 8
  size : len = 205 + l
  unpacked : ∃ e seq, tripUnpackPrefix len buf = some (10 + l, ⟨e, tripControlOpen, x.self.id, seq⟩)
  route : slice (buf.drop (10 + l)) 0 3 = routeBytes
  info : infoAt (buf.drop (61 + l)) 0 = x.info

/-- What a CHAL segment is made of. -/
structure AnswersBytes (x : Standing) (l len : ℕ) (buf : Buf) : Prop where
  short : l ≤ 8
  unpacked : ∃ e seq, tripUnpackPrefix len buf = some (10 + l, ⟨e, tripControlChal, x.peer.id, seq⟩)
  info : infoAt (buf.drop (10 + l)) 48 = x.info

theorem Standing.Wrote.asksBytes (h : x.Wrote sign len buf) (hx : x.Lawful)
    (hin : x.incoming = false) : ∃ l, AsksBytes x l len buf := by
  obtain ⟨seq, hlen, hsealed⟩ := h
  have hl := PackItem.tripUvarLen_le_eight seq
  have hsize : len = 205 + tripUvarLen seq := by
    rw [hlen, head_out hin]
    unfold signedSize
    rw [List.length_append, length_prefixBytes, length_infoBytes hx.sized]
    show 10 + _ + 3 + 48 + 80 + 64 = _
    omega
  have hnpos : NPOS = 2 ^ 64 - 1 := rfl
  have hhead := hsealed.head_eq
  have hinfo := hsealed.info_eq
  rw [head_out hin] at hhead hinfo
  obtain ⟨hfront, hroute⟩ := slice_parts hhead
  rw [length_prefixBytes, Nat.zero_add] at hroute
  rw [List.length_append, length_prefixBytes] at hinfo
  refine ⟨tripUvarLen seq, hl, hsize, ?_, ?_, infoAt_wrote hx ?_⟩
  · obtain ⟨seq', hpre⟩ := @tripUnpackPrefix_of_head len _ _ _ _ hfront (by omega) (by omega)
    rw [(controlByte_open _).2] at hpre
    exact ⟨_, seq', hpre⟩
  · rw [slice_drop]
    exact hroute
  · rw [show 61 + tripUvarLen seq + 0 = 10 + tripUvarLen seq + 3 + 48 by omega]
    exact hinfo

theorem Standing.Wrote.answersBytes (h : x.Wrote sign len buf) (hx : x.Lawful)
    (hin : x.incoming = true) : ∃ l, AnswersBytes x l len buf := by
  obtain ⟨seq, hlen, hsealed⟩ := h
  have hl := PackItem.tripUvarLen_le_eight seq
  have hsize : len = 202 + tripUvarLen seq := by
    rw [hlen, head_in hin]
    unfold signedSize
    rw [length_prefixBytes, length_infoBytes hx.sized]
    show 10 + _ + 48 + 80 + 64 = _
    omega
  have hnpos : NPOS = 2 ^ 64 - 1 := rfl
  have hhead := hsealed.head_eq
  have hinfo := hsealed.info_eq
  rw [head_in hin] at hhead hinfo
  rw [length_prefixBytes] at hinfo
  refine ⟨tripUvarLen seq, hl, ?_, infoAt_wrote hx hinfo⟩
  obtain ⟨seq', hpre⟩ := @tripUnpackPrefix_of_head len _ _ _ _ hhead (by omega) (by omega)
  rw [(controlByte_chal _).2] at hpre
  exact ⟨_, seq', hpre⟩

/-- A whole OPEN segment has the information at its end. -/
theorem openFits_whole {l : ℕ} (hl : l ≤ 8) : OpenFits (205 + l) (10 + l + 3) := by
  have hnpos : NPOS = 2 ^ 64 - 1 := rfl
  have hsign : tripSign = 64 := rfl
  have hsigned : sizeSub (205 + l) tripSign = 141 + l := by
    rw [sizeSub_of_le (by omega) (by omega)]
    omega
  have hrest : sizeSub (141 + l) (10 + l + 3) = 128 := by
    rw [sizeSub_of_le (by omega) (by omega)]
    omega
  unfold OpenFits
  rw [hsigned, hrest, show (10 + l + 3 + 48) % 2 ^ 64 = 61 + l by omega]
  constructor
  · decide
  · rw [sizeSub_of_le (by omega) (by omega)]
    omega

/-- **What is heard of a whole segment is what its sender says**: one that was opened asks,
and one that was made answers to whom it was made for. -/
theorem Standing.Wrote.heard (h : x.Wrote sign len buf) (hx : x.Lawful) {src : ℤ} {o : Oracle}
    {pre : TripPrefix} {oi : Option Info}
    (hheard : (Input.call (.seg src len buf) o).Heard pre oi) :
    oi = some x.info ∧ (pre.control = tripControlOpen ∧ x.incoming = false ∨
      pre.control ≠ tripControlOpen ∧ x.incoming = true ∧ pre.id = x.peer.id) := by
  have hnpos : NPOS = 2 ^ 64 - 1 := rfl
  cases hin : x.incoming with
  | false =>
    obtain ⟨l, hb⟩ := h.asksBytes hx hin
    obtain ⟨e, seq, hpre⟩ := hb.unpacked
    have hl := hb.short
    have hsize := hb.size
    have hrest : sizeSub len (10 + l) = 195 := by
      rw [sizeSub_of_le (by omega) (by omega)]
      omega
    have hzeros := @tripUnpackRoute_of_zeros (sizeSub len (10 + l)) _ hb.route (by omega) (by omega)
    cases hheard with
    | opens hpass hopen hunpack _ =>
      cases hpre.symm.trans hpass.unpacked
      cases hzeros.symm.trans hunpack
      refine ⟨?_, Or.inl ⟨rfl, rfl⟩⟩
      rw [show (10 + l + 3 + 48) % 2 ^ 64 = 61 + l by omega, hb.info]
    | misfits hpass hopen hunpack hmisfit =>
      cases hpre.symm.trans hpass.unpacked
      cases hzeros.symm.trans hunpack
      rw [hsize] at hmisfit
      exact absurd (openFits_whole hl) hmisfit
    | tells hpass hopen =>
      cases hpre.symm.trans hpass.unpacked
      exact absurd rfl hopen
  | true =>
    obtain ⟨l, hb⟩ := h.answersBytes hx hin
    obtain ⟨e, seq, hpre⟩ := hb.unpacked
    cases hheard with
    | opens hpass hopen _ _ | misfits hpass hopen _ _ =>
      cases hpre.symm.trans hpass.unpacked
      exact absurd (show tripControlChal = tripControlOpen from hopen) (by decide)
    | tells hpass hopen =>
      cases hpre.symm.trans hpass.unpacked
      rw [hb.info]
      exact ⟨rfl, Or.inr ⟨hopen, rfl, rfl⟩⟩

end Heard

/-! ### Worlds of routers -/

section Worlds

variable {κ : Type*} {w w' : κ → Config} {x y : Standing}

/-- If a segment has made the connection, some router has opened one under the identifier it
answers to. -/
def Vouched (w : κ → Config) (x : Standing) : Prop :=
  x.incoming = true → ∃ k, ∃ d < (w k).router.heap.brk,
    ((w k).router.standing d).incoming = false ∧ ((w k).router.standing d).self.id = x.peer.id

/-- Some router has a connection that was made for a segment, under the identifier that the
connection knows of its peer, and answers to it. -/
def Challenged (w : κ → Config) (x : Standing) : Prop :=
  ∃ k, ∃ d < (w k).router.heap.brk, ((w k).router.standing d).incoming = true ∧
    ((w k).router.standing d).self.id = x.peer.id ∧ ((w k).router.standing d).peer.id = x.self.id ∧
    Vouched w ((w k).router.standing d)

/-- **What a connection believes of its peer**: it has no keys of it; when it waits for a ping
its peer was asked for, or has answered, with the limits that are sent. -/
structure Fair (w : κ → Config) (x : Standing) : Prop where
  nonce : x.peer.nonce = none
  pk : x.peer.pk = none
  lim : x.state = .CHAL ∨ x.state = .PING → x.peer.lim = sentLim
  asked : x.state = .CHAL → Vouched w x
  answered : x.state = .PING → Challenged w x

/-- No connection was forgotten, and each still says the same. -/
def Later (w w' : κ → Config) : Prop :=
  ∀ k, (w k).router.heap.brk ≤ (w' k).router.heap.brk ∧ ∀ d < (w k).router.heap.brk,
    Standing.Speaks ((w k).router.standing d) ((w' k).router.standing d)

theorem Vouched.speaks (h : Vouched w x) (hxy : Standing.Speaks x y) : Vouched w y := by
  intro hy
  have hx : x.incoming = true := hxy.incoming ▸ hy
  rw [hxy.answers hx]
  exact h hx

theorem Vouched.later (h : Vouched w x) (hw : Later w w') : Vouched w' x := by
  intro hx
  obtain ⟨k, d, hd, hout, hid⟩ := h hx
  have hspeaks := (hw k).2 d hd
  exact ⟨k, d, hd.trans_le (hw k).1, hspeaks.incoming.trans hout, hspeaks.id.trans hid⟩

theorem Challenged.later (h : Challenged w x) (hw : Later w w') : Challenged w' x := by
  obtain ⟨k, d, hd, hin, hid, hpeer, hvouched⟩ := h
  have hspeaks := (hw k).2 d hd
  exact ⟨k, d, hd.trans_le (hw k).1, hspeaks.incoming.trans hin, hspeaks.id.trans hid,
    (hspeaks.answers hin).trans hpeer, (hvouched.later hw).speaks hspeaks⟩

theorem Fair.later (h : Fair w x) (hw : Later w w') : Fair w' x :=
  { h with
    asked := fun hs => (h.asked hs).later hw
    answered := fun hs => (h.answered hs).later hw }

/-- What is heard was said by a connection of some router: by one that asks, or by one that
answers under the identifier in front. -/
def Told (w : κ → Config) (pre : TripPrefix) (oi : Option Info) : Prop :=
  ∃ k, ∃ d < (w k).router.heap.brk, oi = some ((w k).router.standing d).info ∧
    Vouched w ((w k).router.standing d) ∧
    (pre.control = tripControlOpen ∧ ((w k).router.standing d).incoming = false ∨
      pre.control ≠ tripControlOpen ∧ ((w k).router.standing d).incoming = true ∧
        pre.id = ((w k).router.standing d).peer.id)

/-- What a bare information leaves of a peer. -/
theorem peer_told_info (p : Connpeer) (x : Standing) :
    p.told x.info = { p with id := x.self.id, lim := sentLim } := by
  unfold Connpeer.told
  rw [x.bare_info, if_pos rfl, if_pos rfl]
  rfl

/-- A connection that waits for no ping believes nothing. -/
theorem Fair.of_state (hnonce : x.peer.nonce = none) (hpk : x.peer.pk = none)
    (hs : x.state ≠ .CHAL ∧ x.state ≠ .PING) : Fair w x where
  nonce := hnonce
  pk := hpk
  lim := fun h => absurd h (not_or.mpr hs)
  asked := fun h => absurd h hs.1
  answered := fun h => absurd h hs.2

/-- **A step of a connection** that hears what was said keeps what it believes. -/
theorem Fair.step {sc : Scene} (h : Fair w x)
    (hheard : ∀ pre oi, sc.heard pre oi → Told w pre oi) (hxy : Standing.Step sc x y) :
    Fair w y := by
  cases hxy with
  | starts _ _ _ | resolved _ _ | fails _ => exact .of_state h.nonce h.pk (by simp)
  | @challenged pre i hpre hcontrol hid hopen =>
    obtain ⟨k, d, hd, htold, hvouched, ⟨hsame, -⟩ | ⟨-, hin, hto⟩⟩ := hheard _ _ hpre
    · exact absurd hsame hcontrol
    · obtain rfl := Option.some.inj htold
      have hpeer := peer_told_info x.peer ((w k).router.standing d)
      refine ⟨?_, ?_, fun _ => ?_, fun hs => ?_, fun _ => ⟨k, d, hd, hin, ?_, ?_, hvouched⟩⟩
      · show (x.peer.told _).nonce = none
        rw [hpeer]
        exact h.nonce
      · show (x.peer.told _).pk = none
        rw [hpeer]
        exact h.pk
      · show (x.peer.told _).lim = sentLim
        rw [hpeer]
      · exact absurd (show TripcState.PING = .CHAL from hs) (by decide)
      · show _ = (x.peer.told _).id
        rw [hpeer]
      · exact hto.symm.trans hid
  | speaks _ _ => exact ⟨h.nonce, h.pk, h.lim, h.asked, h.answered⟩
  | pinged nonce _ _ _ hsome =>
    -- there is no nonce a ping could be read with
    rw [h.nonce] at hsome
    exact absurd hsome (by decide)

/-- **A connection that is born** believes what it was told. -/
theorem Fair.born {sc : Scene}
    (hheard : ∀ pre oi, sc.heard pre oi → Told w pre oi) (hx : Standing.Born sc x) : Fair w x := by
  have hfresh : ∀ incoming id, Fair w (.fresh incoming id) := by
    intro incoming id
    have hstate : (Standing.fresh incoming id).state = .START := rfl
    refine .of_state rfl rfl ?_
    rw [hstate]
    decide
  cases hx with
  | opens id _ => exact hfresh false id
  | refused id _ _ => exact hfresh true id
  | deaf id screen hpre _ =>
    obtain ⟨k, d, -, htold, -⟩ := hheard _ _ hpre
    cases htold
  | @asked pre i id screen hpre hopen =>
    obtain ⟨k, d, hd, htold, -, ⟨-, hout⟩ | ⟨hno, -⟩⟩ := hheard _ _ hpre
    · obtain rfl := Option.some.inj htold
      have hpeer := peer_told_info (((Standing.fresh true id).screened screen).enter .CHAL).peer
        ((w k).router.standing d)
      refine ⟨?_, ?_, fun _ => ?_, fun _ _ => ⟨k, d, hd, hout, ?_⟩, fun hs => ?_⟩
      · show (Connpeer.told _ _).nonce = none
        rw [hpeer]
        rfl
      · show (Connpeer.told _ _).pk = none
        rw [hpeer]
        rfl
      · show (Connpeer.told _ _).lim = sentLim
        rw [hpeer]
      · show _ = (Connpeer.told _ _).id
        rw [hpeer]
      · exact absurd (show TripcState.CHAL = .PING from hs) (by decide)
    · exact absurd hopen hno

/-! ### The network -/

/-- An input brings nothing but what was sent, with the same bytes up to its length; all
routers sign with the same function. -/
def Allows (sign : Bytes → Bytes → Bytes) (sent : Set (ℕ × Buf)) (i : Input) : Prop :=
  i.oracle.sign = sign ∧ ∀ src len buf o, i = .call (.seg src len buf) o →
    ∃ m ∈ sent, m.1 = len ∧ ∀ j < len, buf j = m.2 j

/-- The interface may send what waits in the buffer, as often as it likes. -/
def Config.Sends (c : Config) (m : ℕ × Buf) : Prop := ∃ src, c.waiting = some (src, m.1, m.2)

/-- What a router rests on. -/
structure Sound (sign : Bytes → Bytes → Bytes) (w : κ → Config) (c : Config) : Prop where
  phased : Phased c
  carried : Carried sign (Vouched w) c.router
  fair : ∀ d < c.router.heap.brk, Fair w (c.router.standing d)

/-- What a segment says: it is a whole one of a connection of some router. -/
def Says (sign : Bytes → Bytes → Bytes) (w : κ → Config) (m : ℕ × Buf) : Prop :=
  ∃ k, ∃ d < (w k).router.heap.brk, Vouched w ((w k).router.standing d) ∧
    ((w k).router.standing d).Wrote sign m.1 m.2

variable {sign : Bytes → Bytes → Bytes}

/-- What comes in was said by some connection. -/
theorem told_of_allows {sent : Set (ℕ × Buf)} {i : Input}
    (hl : ∀ k, ∀ d < (w k).router.heap.brk, ((w k).router.standing d).Lawful)
    (hsent : ∀ m ∈ sent, Says sign w m) (hi : Allows sign sent i) {pre : TripPrefix}
    {oi : Option Info} (h : i.Heard pre oi) : Told w pre oi := by
  have hseg : ∃ src len buf o, i = .call (.seg src len buf) o := by
    cases h <;> exact ⟨_, _, _, _, rfl⟩
  obtain ⟨src, len, buf, o, rfl⟩ := hseg
  obtain ⟨m, hm, rfl, hbuf⟩ := hi.2 src len buf o rfl
  obtain ⟨k, d, hd, hvouched, hwrote⟩ := hsent m hm
  obtain ⟨hinfo, hwho⟩ := (hwrote.congr hbuf).heard (hl k d hd) h
  exact ⟨k, d, hd, hinfo, hvouched, hwho⟩

/-- What a segment says stays true of the connection that wrote it. -/
theorem Says.later {m : ℕ × Buf} (hw : Later w w') (h : Says sign w m) : Says sign w' m := by
  obtain ⟨k, d, hd, hvouched, hwrote⟩ := h
  have hspeaks := (hw k).2 d hd
  exact ⟨k, d, hd.trans_le (hw k).1, (hvouched.later hw).speaks hspeaks, hspeaks.wrote hwrote⟩

/-- A packet in the buffer is still vouched for. -/
theorem Sound.later {c : Config} (hw : Later w w') (h : Sound sign w c) : Sound sign w' c := by
  refine ⟨h.phased, fun hzero hnpos => ?_, fun d hd => (h.fair d hd).later hw⟩
  obtain ⟨d, hd, hvouched, hwrote⟩ := h.carried hzero hnpos
  exact ⟨d, hd, hvouched.later hw, hwrote⟩

variable [DecidableEq κ]

/-- **A step of a router** on what was sent. -/
theorem sound_step {k : κ} {sent : Set (ℕ × Buf)} {i : Input} {c : Config}
    (hw : ∀ j, Sound sign w (w j)) (hsent : ∀ m ∈ sent, Says sign w m) (hi : Allows sign sent i)
    (hstep : (w k).Step i c) :
    Later w (Function.update w k c) ∧ Sound sign (Function.update w k c) c := by
  have hphased := (hw k).phased
  have hheard : ∀ pre oi, i.Heard pre oi → Told w pre oi :=
    fun _ _ => told_of_allows (fun j => (hw j).phased.lawful) hsent hi
  have hevolves := hphased.evolves hstep
  have hfair : ∀ d < c.router.heap.brk,
      (c.router.standing d).Lawful ∧ Fair w (c.router.standing d) := by
    have hborn : ∀ x, Standing.Born i.scene x → x.Lawful ∧ Fair w x :=
      fun x hx => ⟨Standing.lawful_born hx, .born hheard hx⟩
    have hkeeps : ∀ x y, x.Lawful ∧ Fair w x → Standing.Step i.scene x y → y.Lawful ∧ Fair w y :=
      fun x y hx hxy => ⟨hx.1.step hxy, hx.2.step hheard hxy⟩
    exact hevolves.grows.invariant hborn hkeeps fun d hd => ⟨hphased.lawful d hd, (hw k).fair d hd⟩
  have hlater : Later w (Function.update w k c) := by
    intro j
    rcases eq_or_ne j k with rfl | hj
    · rw [Function.update_self]
      exact ⟨hevolves.grows.le, fun d hd =>
        (Standing.said_of_steps (hphased.lawful d hd) (hevolves.grows.old d hd)).1⟩
    · rw [Function.update_of_ne hj]
      exact ⟨le_rfl, fun d _ => .refl _⟩
  refine ⟨hlater, hphased.step hstep, ?_, fun d hd => (hfair d hd).2.later hlater⟩
  refine (hw k).carried.step hphased hi.1 hstep (fun d hd hstate => ?_)
    fun x y hx hxy hvouched => ?_
  · rcases hstate with hopen | hchal
    · -- one that asks was opened by this side
      intro hin
      have hout := (hphased.lawful d hd).outgoing (Or.inl hopen)
      exact absurd (hout.symm.trans hin) Bool.false_ne_true
    · exact ((hw k).fair d hd).asked hchal
  · exact (hvouched.later hlater).speaks (Standing.said_of_steps hx hxy).1

/-- **What routers rest on and what segments say.** -/
theorem trusts_routers : Trusts Config.Step (Allows sign) Config.Sends (Sound (κ := κ) sign)
    (Says sign) Later where
  later_rests := fun hw h => h.later hw
  later_told := fun hw h => h.later hw
  acts := sound_step
  sends := by
    rintro w k ⟨len, b⟩ hw ⟨src, hp⟩
    obtain ⟨hzero, hnpos, hp⟩ := Router.inBuf_eq_some.mp hp
    cases hp
    obtain ⟨d, hd, hvouched, hwrote⟩ := hw.carried hzero hnpos
    exact ⟨k, d, hd, hvouched, hwrote⟩

/-- New routers, and nothing was sent. -/
def newNet (preset : κ → TripPreset) (now : κ → ℕ) (buf : κ → Buf) : Net κ Config (ℕ × Buf) :=
  ⟨fun k => .idle (tripNew (preset k) (now k) (buf k)), ∅⟩

/-- What such a network reaches. -/
def Reached (sign : Bytes → Bytes → Bytes) (preset : κ → TripPreset) (now : κ → ℕ) (buf : κ → Buf)
    (N : Net κ Config (ℕ × Buf)) : Prop :=
  ReflTransGen (Net.Step Config.Step (Allows sign) Config.Sends) (newNet preset now buf) N

variable {preset : κ → TripPreset} {now : κ → ℕ} {buf : κ → Buf} {N : Net κ Config (ℕ × Buf)}

theorem sound_of_reached (h : Reached sign preset now buf N) :
    (∀ k, Sound sign N.node (N.node k)) ∧ ∀ m ∈ N.wire, Says sign N.node m := by
  refine trusts_routers.holds ⟨fun k => ⟨phased_idle _ _ _, ?_, fun d hd => ?_⟩, fun m hm => ?_⟩ h
  · exact fun hzero => absurd rfl hzero
  · exact absurd hd (Nat.not_lt_zero d)
  · exact absurd hm (Set.notMem_empty m)

/-- The first byte of a segment is its control. -/
theorem first_of_head {b : Buf} {control : UInt8} {id seq : UInt64} {rest : Bytes}
    (h : slice b 0 (prefixBytes control id seq ++ rest).length =
      prefixBytes control id seq ++ rest) :
    b 0 = control := by
  have hfirst := (@slice_parts b 0 [control] (beBytes 8 id.toNat ++ varLE seq ++ rest) h).1
  exact (List.cons.inj hfirst).1

/-- **No key is ever learned**: no connection knows a nonce or a key of its peer, and every
segment that was sent is an OPEN or a CHAL segment in the clear. -/
theorem net_clear (h : Reached sign preset now buf N) :
    (∀ k, ∀ c < (N.node k).router.heap.brk,
      ((N.node k).router.standing c).peer.nonce = none ∧
        ((N.node k).router.standing c).peer.pk = none) ∧
    ∀ m ∈ N.wire, m.2 0 = tripControlOpen ∨ m.2 0 = tripControlChal := by
  obtain ⟨hsound, hspeaks⟩ := sound_of_reached h
  refine ⟨fun k c hc => ⟨((hsound k).fair c hc).nonce, ((hsound k).fair c hc).pk⟩, fun m hm => ?_⟩
  obtain ⟨k, d, hd, -, seq, -, hsealed⟩ := hspeaks m hm
  have hpk := ((hsound k).fair d hd).pk
  have hopenpk := ((hsound k).phased.lawful d hd).openpk
  have hhead := hsealed.head_eq
  cases hin : ((N.node k).router.standing d).incoming with
  | false =>
    left
    rw [Standing.head_out hin, hopenpk] at hhead
    exact first_of_head hhead
  | true =>
    right
    rw [Standing.head_in hin, hpk, ← List.append_nil (prefixBytes _ _ _)] at hhead
    exact first_of_head hhead

end Worlds

/-! ### Two routers -/

/-- An input that brings no segment. -/
def Input.idles : Input → Bool
  | .call (.seg _ _ _) _ => false
  | _ => true

theorem allows_of_idles {sign : Bytes → Bytes → Bytes} {sent : Set (ℕ × Buf)} {i : Input}
    (h : i.oracle.sign = sign ∧ i.idles = true) : Allows sign sent i := by
  refine ⟨h.1, fun src len buf o hi => ?_⟩
  rw [hi] at h
  exact absurd h.2 Bool.false_ne_true

/-- A connection is opened and resolved, and its segment is offered. -/
def askingInputs : List Input :=
  [.call (.setopt (.ALLOW_PLAIN_COMM true)) plainOracle,
    .call (.setopt (.ALLOW_PLAIN_OSIG true)) plainOracle] ++ listenInputs ++
  [.call .openConnection plainOracle, .call .timeout plainOracle, turn, turn, turn, turn, turn,
    turn, .call (.resolve 0 2 0 none) plainOracle, .call .timeout plainOracle, turn, turn, turn,
    turn, turn, turn, turn, turn, turn, blocked, turn, turn, turn, turn]

/-- A router listens. -/
def admittingInputs : List Input :=
  [.call (.setopt (.ALLOW_PLAIN_OPEN true)) plainOracle,
    .call (.setopt (.ALLOW_PLAIN_ISIG true)) plainOracle] ++ listenInputs

/-- What is enqueued is offered. -/
def offeringInputs : List Input :=
  [.call .timeout plainOracle, turn, turn, turn, blocked, turn, turn, turn, turn]

/-- The router on these inputs. -/
def Config.after (c : Config) (l : List Input) : Config := l.foldl (fun c i => (c.step i).getD c) c

def askingRouter : Config := (Config.idle (tripNew .ROUTER 0 fun _ => 0)).after askingInputs

/-- The segment that asks. -/
def askingSegment : ℕ × Buf := (askingRouter.router.sendlen, askingRouter.router.buf)

/-- The segment comes in, and its connection answers. -/
def answeringInputs : List Input :=
  admittingInputs ++ [.call (.seg 3 askingSegment.1 askingSegment.2)
    { plainOracle with random := Stream'.const 7 }] ++ offeringInputs

def answeringRouter : Config := (Config.idle (tripNew .ROUTER 0 fun _ => 0)).after answeringInputs

/-- The segment that answers. -/
def answeringSegment : ℕ × Buf := (answeringRouter.router.sendlen, answeringRouter.router.buf)

/-- The challenge comes in. -/
def challengedInputs : List Input :=
  [.call (.seg 2 answeringSegment.1 answeringSegment.2) plainOracle]

def challengedRouter : Config := askingRouter.after challengedInputs

/-- A router with a packet in its buffer may send it. -/
theorem sends_of_waits {c : Config} (hzero : c.router.sendlen ≠ 0)
    (hnpos : c.router.sendlen ≠ NPOS) : c.Sends (c.router.sendlen, c.router.buf) :=
  ⟨c.src, Router.inBuf_eq_some.mpr ⟨hzero, hnpos, rfl⟩⟩

/-- Two routers, and what they have sent. -/
def twoRouters (a b : Config) (sent : Set (ℕ × Buf)) : Net Bool Config (ℕ × Buf) :=
  ⟨fun k => if k then a else b, sent⟩

/-- One of them runs. -/
theorem twoRouters_first {sign : Bytes → Bytes → Bytes} {a b : Config} {sent : Set (ℕ × Buf)}
    {l : List Input} (hl : ∀ i ∈ l, Allows sign sent i)
    (h : (l.foldlM Config.step a).isSome = true) :
    ReflTransGen (Net.Step Config.Step (Allows sign) Config.Sends) (twoRouters a b sent)
      (twoRouters (a.after l) b sent) := by
  have hrun := Net.acts_trace (f := Config.step) (Allows sign) Config.Sends true
    (N := twoRouters a b sent) hl h
  have hnode : Function.update (twoRouters a b sent).node true (a.after l) =
      fun k => if k then a.after l else b := by
    funext k
    cases k <;> rfl
  rw [show twoRouters (a.after l) b sent = ⟨_, sent⟩ from rfl, ← hnode]
  exact hrun

theorem twoRouters_second {sign : Bytes → Bytes → Bytes} {a b : Config} {sent : Set (ℕ × Buf)}
    {l : List Input} (hl : ∀ i ∈ l, Allows sign sent i)
    (h : (l.foldlM Config.step b).isSome = true) :
    ReflTransGen (Net.Step Config.Step (Allows sign) Config.Sends) (twoRouters a b sent)
      (twoRouters a (b.after l) sent) := by
  have hrun := Net.acts_trace (f := Config.step) (Allows sign) Config.Sends false
    (N := twoRouters a b sent) hl h
  have hnode : Function.update (twoRouters a b sent).node false (b.after l) =
      fun k => if k then a else b.after l := by
    funext k
    cases k <;> rfl
  rw [show twoRouters a (b.after l) sent = ⟨_, sent⟩ from rfl, ← hnode]
  exact hrun

theorem twoRouters_sends_first {sign : Bytes → Bytes → Bytes} {a b : Config}
    {sent : Set (ℕ × Buf)} {m : ℕ × Buf} (h : a.Sends m) :
    Net.Step Config.Step (Allows sign) Config.Sends (twoRouters a b sent)
      (twoRouters a b (insert m sent)) :=
  .sends true h

theorem twoRouters_sends_second {sign : Bytes → Bytes → Bytes} {a b : Config}
    {sent : Set (ℕ × Buf)} {m : ℕ × Buf} (h : b.Sends m) :
    Net.Step Config.Step (Allows sign) Config.Sends (twoRouters a b sent)
      (twoRouters a b (insert m sent)) :=
  .sends false h

/-- The router that asked was challenged by the other one. -/
def challengedNet : Net Bool Config (ℕ × Buf) :=
  twoRouters challengedRouter answeringRouter (insert answeringSegment (insert askingSegment ∅))

/-- It is reached. -/
theorem reached_challengedNet :
    Reached plainOracle.sign (fun _ => .ROUTER) (fun _ => 0) (fun _ _ => 0) challengedNet := by
  have hasking : ∀ i ∈ askingInputs, i.oracle.sign = plainOracle.sign ∧ i.idles = true := by
    simp [askingInputs, listenInputs, startInputs, turn, blocked, Input.oracle, Input.idles, or_imp,
      forall_and]
  have hadmitting : ∀ i ∈ admittingInputs, i.oracle.sign = plainOracle.sign ∧ i.idles = true := by
    simp [admittingInputs, listenInputs, startInputs, turn, Input.oracle, Input.idles, or_imp,
      forall_and]
  have hoffering : ∀ i ∈ offeringInputs, i.oracle.sign = plainOracle.sign ∧ i.idles = true := by
    simp [offeringInputs, turn, blocked, Input.oracle, Input.idles, or_imp, forall_and]
  have hseg : ∀ {sent : Set (ℕ × Buf)} {m : ℕ × Buf} (src : ℤ) {o : Oracle}, m ∈ sent →
      o.sign = plainOracle.sign → Allows plainOracle.sign sent (.call (.seg src m.1 m.2) o) := by
    intro sent m src o hm ho
    refine ⟨ho, ?_⟩
    rintro _ _ _ _ ⟨⟩
    exact ⟨m, hm, rfl, fun _ _ => rfl⟩
  have hnew : newNet (fun _ => .ROUTER) (fun _ => 0) (fun _ _ => 0) =
      twoRouters (.idle (tripNew .ROUTER 0 fun _ => 0))
        (.idle (tripNew .ROUTER 0 fun _ => 0)) ∅ := by
    unfold newNet twoRouters
    congr 1
    funext k
    cases k <;> rfl
  have hasks : askingRouter.Sends askingSegment :=
    sends_of_waits (by decide +kernel) (by decide +kernel)
  have hanswers : answeringRouter.Sends answeringSegment :=
    sends_of_waits (by decide +kernel) (by decide +kernel)
  unfold Reached
  rw [hnew]
  -- the first router asks, and its segment is sent
  refine (twoRouters_first (l := askingInputs) (fun i hi => allows_of_idles (hasking i hi))
    (by decide +kernel)).trans (.head (twoRouters_sends_first hasks) ?_)
  -- the second router admits it and answers
  refine (twoRouters_second (l := answeringInputs) (fun i hi => ?_) (by decide +kernel)).trans
    (.head (twoRouters_sends_second hanswers) ?_)
  · rcases List.mem_append.mp hi with hi | hi
    · rcases List.mem_append.mp hi with hi | hi
      · exact allows_of_idles (hadmitting i hi)
      · rw [List.mem_singleton.mp hi]
        exact hseg 3 (Set.mem_insert _ _) rfl
    · exact allows_of_idles (hoffering i hi)
  -- the first router is challenged
  refine (twoRouters_first (l := challengedInputs) (fun i hi => ?_) (by decide +kernel)).trans ?_
  · rw [List.mem_singleton.mp hi]
    exact hseg 2 (Set.mem_insert _ _) rfl
  · exact .refl

theorem askingSegment_mem : askingSegment ∈ challengedNet.wire :=
  Set.mem_insert_of_mem _ (Set.mem_insert _ _)

theorem net_clear_challenged :
    askingSegment.2 0 = tripControlOpen ∨ askingSegment.2 0 = tripControlChal :=
  (net_clear reached_challengedNet).2 _ askingSegment_mem

end Libtrp
