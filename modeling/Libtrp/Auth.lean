import Libtrp.ConnInfo
import Libtrp.Segment

/-!
# Which segments are let in

A segment makes a connection when it is an OPEN segment that the flags, the
user's screening and the check of its signature let in.  A segment of another
control goes to the connection of its identifier; when that is a connection of
this side that waits for its challenge, the segment is read as one whatever its
control is, while the signature is checked for the control CHAL only.

## Main definitions

* `SignatureAccepted` — the segment is signed, or needs no signature.
* `SegmentAdmitted` — what an OPEN segment has to be for a connection to be made.
* `Unsigned` — a segment that is taken for a challenge and was not checked.

## Main results

* `tripSeg_admits` — **a connection is made only for a segment that is let in.**
* `tripSeg_authentic_iff` — **when a challenge is checked before it is believed.**
* `tripSeg_replay` — **when a repeated OPEN segment makes no second connection.**

## References

`src/trip.c` (`_trip_segment`, `trip_seg`), `src/conn.c` (`_tripc_read`,
`_tripc_parse_chal`), `PROTOCOL.md`.
-/

namespace Libtrp

open Lib

/-! ### Signatures -/

/-- The whole segment is signed with the key, or there is no key and the flag
allows that. -/
def SignatureAccepted (s : Env) (len : ℕ) (buf : Buf) (signpk : Option Bytes) (flag : UInt32) :
    Prop :=
  (∃ pk, signpk = some pk ∧ tripUnsign s.oracle.verify len buf (some pk) = 0) ∨
    (signpk = none ∧ s.router.has flag = true)

/-- A missing key does not pass the check. -/
theorem tripVerified_iff {s : Env} {len : ℕ} {buf : Buf} {signpk : Option Bytes} {flag : UInt32} :
    tripVerified s.oracle.verify len buf signpk (s.router.has flag) = true ↔
      SignatureAccepted s len buf signpk flag := by
  unfold tripVerified SignatureAccepted
  cases signpk with
  | none =>
    cases hflag : s.router.has flag with
    | false => simp [tripUnsign, EINVAL]
    | true => simp
  | some pk => simp

/-! ### Admission -/

/-- What a segment has passed when a connection is made for it. -/
structure SegmentAdmitted (s : Env) (len : ℕ) (buf : Buf) (en : ℕ) (pre : TripPrefix)
    (endroute : ℕ) (screen : TripScreen) : Prop where
  state : s.router.state = .LISTEN ∨ s.router.state = .CLOSE
  unpacked : tripUnpackPrefix len buf = some (en, pre)
  control : pre.control = tripControlOpen
  allowIn : s.router.has triprFlagAllowIn = true
  encrypted : pre.encrypted = true ∨ s.router.has triprFlagAllowPlainOpen = true
  route : tripUnpackRoute (len - en) (buf.drop en) = some (endroute, screen)
  within : en + endroute ≤ len
  version : screen.version = tripVersionMajor
  allow : (s.oracle.screen { screen with route := en + screen.route }).allow = true
  signature : SignatureAccepted s len buf
    (s.oracle.screen { screen with route := en + screen.route }).signpk triprFlagAllowPlainIsig

/-- A segment read by its connection leaves the connection map alone. -/
theorem conn_tripSegmentRead (src : ℤ) (len : ℕ) (buf : Buf) (en : ℕ) (pre : TripPrefix)
    (c : Ptr) (s : Env) :
    ((tripSegmentRead src len buf en pre c).exec s).2.router.conn = s.router.conn := by
  obtain ⟨t, hst, hread⟩ := exec_tripSegmentRead src len buf en pre c s
  rw [hread, ← hst.router]
  exact (ActsOn.tripcRead pre _ _ t).1.conn_eq

/-- What the OPEN branch has passed when it goes on to make a connection. -/
theorem OpenPasses.admitted {s t : Env} (hst : SameBut s t) {src : ℤ} {len : ℕ}
    (hlen : len ≤ NPOS) {buf : Buf} {en : ℕ} {pre : TripPrefix} {endroute : ℕ}
    {screen : TripScreen} (hstate : s.router.state = .LISTEN ∨ s.router.state = .CLOSE)
    (hpass : SegmentPasses len buf en pre) (hopen : pre.control = tripControlOpen)
    (h : OpenPasses t src len buf en pre endroute screen) :
    SegmentAdmitted s len buf en pre endroute screen := by
  have hen := tripUnpackPrefix_le hpass.unpacked
  have hroute := h.route
  rw [sizeSub_of_le hen hlen] at hroute
  have hwithin := tripUnpackRoute_le hroute
  have hallow := h.allow
  have hver := tripVerified_iff.mp h.verified
  have hin := h.allowIn
  have henc := h.encrypted
  unfold SignatureAccepted at hver
  rw [hst.oracle] at hallow hver
  rw [hst.router] at hin henc hver
  exact ⟨hstate, hpass.unpacked, hopen, hin, henc, hroute, by omega, h.version, hallow, hver⟩

/-- **A connection is made only for a segment that is let in.** -/
theorem tripSeg_admits {s : Env} {src : ℤ} {len : ℕ} (hlen : len ≤ NPOS) {buf : Buf} {c : Ptr}
    (hnew : c ∈ connmapIterate ((tripSeg src len buf).exec s).2.router.conn)
    (hold : c ∉ connmapIterate s.router.conn) :
    ∃ en pre endroute screen, SegmentAdmitted s len buf en pre endroute screen := by
  have hchanged : ((tripSeg src len buf).exec s).2.router.conn ≠ s.router.conn := by
    intro heq
    rw [heq] at hnew
    exact hold hnew
  unfold tripSeg at hchanged
  rw [Prog.exec_bind_of (exec_fetch _ _)] at hchanged
  by_cases hstate : s.router.state = .LISTEN ∨ s.router.state = .CLOSE
  swap
  · rw [if_neg hstate] at hchanged
    exact absurd rfl hchanged
  rw [if_pos hstate] at hchanged
  rcases tripSegment_cases src len buf s with ⟨hsame, -⟩ | ⟨en, pre, t, hpass, hst, hexec⟩
  · exact absurd (congrArg Router.conn hsame.router) hchanged
  rw [hexec] at hchanged
  by_cases hopen : pre.control = tripControlOpen
  · rw [if_pos hopen] at hchanged
    rcases tripSegmentOpen_cases src len buf en pre t with
      hsame | ⟨d, -, hsrc⟩ | ⟨endroute, screen, u, hopens, -, -⟩
    · rw [hsame.router, hst.router] at hchanged
      exact absurd rfl hchanged
    · rw [hsrc, hst.router] at hchanged
      exact absurd rfl hchanged
    · exact ⟨en, pre, endroute, screen, hopens.admitted hst hlen hstate hpass hopen⟩
  · rw [if_neg hopen] at hchanged
    rcases tripSegmentComm_cases src len buf en pre t with ⟨hsame, -⟩ | ⟨d, -, hread⟩
    · rw [hsame.router, hst.router] at hchanged
      exact absurd rfl hchanged
    · rw [hread, conn_tripSegmentRead, hst.router] at hchanged
      exact absurd rfl hchanged

/-- A listening router that asks for no encryption and no signatures. -/
def listenEnv : Env := ⟨{ plainRouter with state := .LISTEN }, plainOracle, []⟩

/-- A connection is made for an OPEN segment of 205 bytes. -/
theorem tripSeg_admits_open :
    ∃ en pre endroute screen, SegmentAdmitted listenEnv 205 openSegment en pre endroute screen :=
  @tripSeg_admits listenEnv 0 205 (by decide) openSegment 0 (by decide) (by decide)

/-! ### Challenges -/

/-- What is read is taken for a challenge: its length is exact, and there is
memory for the nonce and the key when the peer tells them. -/
def ChalTaken (o : Oracle) (len : ℕ) (buf : Buf) : Prop :=
  len = 128 ∧ (infoBare buf 48 = true ∨ (o.alloc.head = true ∧ o.alloc.tail.head = true))

/-- A connection that waits for its challenge reads every segment as one. -/
theorem tripcRead_open_cases {c : Ptr} {s : Env} (hs : (s.status c).state = .OPEN)
    (pre : TripPrefix) (len : ℕ) (buf : Buf) :
    (tripcRead c pre len buf).exec s =
      match (tripcParseChal c len buf).exec s with
      | (some code, t) =>
        if code ≠ 0 then (some EINVAL, t)
        else (some (((tripcSetState c .PING).exec t).2.status c).error,
          ((tripcSetState c .PING).exec t).2)
      | (none, t) => (none, t) := by
  have hstate : (s.router.heap.conn c).state = .OPEN := hs
  unfold tripcRead
  rw [Prog.exec_bind_of (exec_getConn _ _), hstate]
  show ((tripcParsed (tripcParseChal c len buf) (tripcSetState c .PING)) >>= _).exec s = _
  unfold tripcParsed
  rw [Prog.exec_bind, Prog.exec_bind]
  rcases (tripcParseChal c len buf).exec s with ⟨_ | code, t⟩
  · rfl
  dsimp only
  by_cases hcode : code = 0
  · rw [if_neg (not_not.mpr hcode), if_neg (not_not.mpr hcode)]
    obtain ⟨a, hset⟩ := (RunsOn.tripcSetState (c := c) .PING).total.exec_eq t
    rw [Prog.exec_bind_of hset]
    rfl
  · rw [if_pos hcode, if_pos hcode]
    rfl

/-- What it leaves. -/
theorem exec_tripcRead_open {c : Ptr} {s : Env} (hs : (s.status c).state = .OPEN)
    (pre : TripPrefix) (len : ℕ) (buf : Buf) :
    ((tripcRead c pre len buf).exec s).2 =
      match (tripcParseChal c len buf).exec s with
      | (some code, t) => if code ≠ 0 then t else ((tripcSetState c .PING).exec t).2
      | (none, t) => t := by
  rw [tripcRead_open_cases hs]
  rcases (tripcParseChal c len buf).exec s with ⟨_ | code, t⟩
  · rfl
  · dsimp only
    split <;> rfl

/-- It goes on to `PING` exactly when the segment is taken for a challenge. -/
theorem tripcRead_open_iff {c : Ptr} {s : Env} (hs : (s.status c).state = .OPEN)
    (pre : TripPrefix) (len : ℕ) (buf : Buf) :
    (((tripcRead c pre len buf).exec s).2.status c).state = .PING ↔
      ChalTaken s.oracle len buf := by
  rw [exec_tripcRead_open hs, tripcParseChal, exec_tripcParseInfo infoFormat_chal]
  unfold ChalTaken
  by_cases hlen : len = 128
  swap
  · rw [if_pos hlen]
    refine iff_of_false ?_ fun h => hlen h.1
    show (s.status c).state ≠ .PING
    rw [hs]
    decide
  rw [if_neg (not_not.mpr hlen)]
  dsimp only
  by_cases hbare : infoBare buf 48 = true
  · rw [if_pos hbare]
    dsimp only
    rw [if_neg (not_not.mpr rfl), tripcSetState_status]
    exact iff_of_true rfl ⟨hlen, Or.inl hbare⟩
  rw [if_neg hbare]
  by_cases halloc : (s.oracle.alloc.head && s.oracle.alloc.tail.head) = true
  · rw [if_pos halloc]
    dsimp only
    rw [if_neg (not_not.mpr rfl), tripcSetState_status]
    exact iff_of_true rfl ⟨hlen, Or.inr (by simpa using halloc)⟩
  · rw [if_neg halloc]
    refine iff_of_false ?_ fun h => halloc ?_
    · -- the parser is stuck after it has written identifier and limits
      intro hping
      have h := congrArg ConnStatus.state (Env.status_setConn s c (Connection.setInfo buf 48))
      exact absurd (hs.symm.trans (h.symm.trans hping)) (by decide)
    · simpa using h.2.resolve_left hbare

/-- Adding to the map writes to the connection that is added only. -/
theorem connmapAdd_conn_of_ne (m : Connmap) (h : ConnHeap) {c d : Ptr} (hdc : d ≠ c)
    (alloc : Bool) (r₁ r₂ : UInt32) :
    (connmapAdd m h c alloc r₁ r₂).2.2.conn d = h.conn d := by
  obtain heq | ⟨id, heq⟩ := connmapAdd_heap m h c alloc r₁ r₂
  · rw [heq]
  · rw [heq]
    exact ConnHeap.conn_set_of_ne h hdc _

theorem conn_tripSegmentFresh (r : Router) (src : ℤ) {d : Ptr} (hd : d ≠ r.heap.brk) :
    (tripSegmentFresh r src).heap.conn d = r.heap.conn d := by
  unfold tripSegmentFresh Router.setConn
  rw [ConnHeap.conn_set_of_ne _ hd, ConnHeap.conn_set_of_ne _ hd]
  rfl

/-- Making a connection leaves the fields of the others alone. -/
theorem tripSegmentCreate_field {α : Type*} (g : Connection → α)
    (hnext : ∀ x n, g (x.setNext n) = g x) (hin : ∀ x b, g (x.setInsend b) = g x)
    (src : ℤ) (len : ℕ) (buf : Buf) (en : ℕ) (pre : TripPrefix) (screen : TripScreen) {s : Env}
    {d : Ptr} (hd : d ≠ s.router.heap.brk) :
    g (((tripSegmentCreate src len buf en pre screen).exec s).2.router.heap.conn d) =
      g (s.router.heap.conn d) := by
  rcases tripSegmentCreate_cases src len buf en pre screen s with
    ⟨-, hsame⟩ | ⟨-, r₁, r₂, code, mh, hadd, hres⟩
  · rw [hsame]
  have hadded : mh.2.conn d = s.router.heap.conn d := by
    have h := connmapAdd_conn_of_ne s.router.conn (tripSegmentFresh s.router src).heap hd
      s.oracle.alloc.tail.head r₁ r₂
    rwa [hadd, conn_tripSegmentFresh _ _ hd] at h
  rw [← hadded]
  rcases hres with ⟨-, hfree⟩ | ⟨-, hacts⟩
  · rw [hfree]
    rfl
  · exact hacts.conn_field g hnext hin hd

/-- The OPEN branch leaves the fields of the connections there are alone, but for
their source. -/
theorem tripSegmentOpen_field {α : Type*} (g : Connection → α)
    (hnext : ∀ x n, g (x.setNext n) = g x) (hin : ∀ x b, g (x.setInsend b) = g x)
    (hsrc : ∀ x src, g (x.setSrc src) = g x) (src : ℤ) (len : ℕ) (buf : Buf) (en : ℕ)
    (pre : TripPrefix) {s : Env} {d : Ptr} (hd : d ≠ s.router.heap.brk) :
    g (((tripSegmentOpen src len buf en pre).exec s).2.router.heap.conn d) =
      g (s.router.heap.conn d) := by
  rcases tripSegmentOpen_cases src len buf en pre s with
    hsame | ⟨c, -, hset⟩ | ⟨endroute, screen, t, -, hst, hexec⟩
  · rw [hsame.router]
  · rw [hset]
    exact ConnHeap.conn_set_field g s.router.heap c d (f := fun x => x.setSrc src) (hsrc _ _)
  · rw [hexec, ← hst.router]
    exact tripSegmentCreate_field g hnext hin src len buf _ pre _ (hst.router ▸ hd)

/-- The segment is a challenge, and it is signed with the key of the peer of `c`
or needs no signature. -/
def Authentic (s : Env) (len : ℕ) (buf : Buf) (c : Ptr) : Prop :=
  ∃ en pre, tripUnpackPrefix len buf = some (en, pre) ∧ pre.control = tripControlChal ∧
    SignatureAccepted s len buf (s.status c).peer.signpk triprFlagAllowPlainOsig

/-- A segment of another control that comes to an outgoing connection in `OPEN` and
has the length of a challenge. -/
structure Unsigned (s : Env) (len : ℕ) (buf : Buf) (en : ℕ) (pre : TripPrefix) (c : Ptr) :
    Prop where
  state : s.router.state = .LISTEN ∨ s.router.state = .CLOSE
  passes : SegmentPasses len buf en pre
  control : pre.control ≠ tripControlOpen ∧ pre.control ≠ tripControlChal
  comm : CommPasses s len buf pre c
  there : c < s.router.heap.brk
  outgoing : (s.status c).incoming = false
  waits : (s.status c).state = .OPEN
  taken : ChalTaken s.oracle (sizeSub (sizeSub len tripSign) en) (buf.drop en)

/-- **When a challenge is checked before it is believed**: exactly when the segment
is not one of another control that is read as a challenge. -/
theorem tripSeg_authentic_iff (s : Env) (src : ℤ) (len : ℕ) (buf : Buf) :
    (∀ c < s.router.heap.brk, (s.status c).incoming = false → (s.status c).state = .OPEN →
      (((tripSeg src len buf).exec s).2.status c).state = .PING → Authentic s len buf c) ↔
      ∀ en pre c, ¬ Unsigned s len buf en pre c := by
  have hrun : s.router.state = .LISTEN ∨ s.router.state = .CLOSE →
      (tripSeg src len buf).exec s = (tripSegment src len buf).exec s := by
    intro hstate
    unfold tripSeg
    rw [Prog.exec_bind_of (exec_fetch _ _), if_pos hstate]
  constructor
  · intro h en pre c hc
    refine hc.control.2 ?_
    obtain ⟨en', pre', hunp, hchal, -⟩ : Authentic s len buf c := by
      refine h c hc.there hc.outgoing hc.waits ?_
      rw [hrun hc.state]
      rcases tripSegment_cases src len buf s with ⟨-, hnone⟩ | ⟨en', pre', t, hpass, hst, hexec⟩
      · exact absurd hc.passes (hnone en pre)
      obtain ⟨rfl, rfl⟩ := hpass.unique hc.passes
      have hcomm : CommPasses t len buf pre' c := by
        have h := hc.comm
        refine ⟨?_, ?_, ?_⟩
        · rw [hst.router]; exact h.encrypted
        · rw [hst.router]; exact h.found
        · rw [hst.router, hst.oracle]; exact h.verified
      rw [hexec, if_neg hc.control.1]
      rcases tripSegmentComm_cases src len buf en' pre' t with ⟨-, hnone⟩ | ⟨d, hd, hread⟩
      · exact absurd hcomm (hnone c)
      obtain rfl : d = c := Option.some.inj (hd.found.symm.trans hcomm.found)
      obtain ⟨u, htu, hu⟩ := exec_tripSegmentRead src len buf en' pre' d t
      have hsu : u.router = s.router := htu.router.trans hst.router
      have hwaits : (u.status d).state = .OPEN := by
        unfold Env.status
        rw [hsu]
        exact hc.waits
      rw [hread, hu, tripcRead_open_iff hwaits, htu.oracle, hst.oracle]
      exact hc.taken
    have heq := hc.passes.unpacked.symm.trans hunp
    simp only [Option.some.injEq, Prod.mk.injEq] at heq
    rw [heq.2]
    exact hchal
  · intro hnone c hc hout hopen hping
    by_cases hstate : s.router.state = .LISTEN ∨ s.router.state = .CLOSE
    swap
    · unfold tripSeg at hping
      rw [Prog.exec_bind_of (exec_fetch _ _), if_neg hstate] at hping
      exact absurd (hopen.symm.trans hping) (by decide)
    rw [hrun hstate] at hping
    have hstay : ∀ t : Env, t.status c = s.status c → (t.status c).state ≠ .PING := by
      intro t ht
      rw [ht, hopen]
      decide
    rcases tripSegment_cases src len buf s with ⟨hsame, -⟩ | ⟨en, pre, t, hpass, hst, hexec⟩
    · refine absurd hping (hstay _ ?_)
      unfold Env.status
      rw [hsame.router]
    have hts : t.status c = s.status c := by
      unfold Env.status
      rw [hst.router]
    rw [hexec] at hping
    by_cases hctl : pre.control = tripControlOpen
    · rw [if_pos hctl] at hping
      refine absurd hping (hstay _ ?_)
      rw [← hts]
      refine tripSegmentOpen_field Connection.status (fun _ _ => rfl) (fun _ _ => rfl)
        (fun _ _ => rfl) src len buf en pre ?_
      rw [hst.router]
      exact hc.ne
    rw [if_neg hctl] at hping
    rcases tripSegmentComm_cases src len buf en pre t with ⟨hsame, -⟩ | ⟨d, hd, hread⟩
    · refine absurd hping (hstay _ ?_)
      rw [← hts]
      unfold Env.status
      rw [hsame.router]
    obtain ⟨u, htu, hu⟩ := exec_tripSegmentRead src len buf en pre d t
    have hus : u.status c = s.status c := by
      rw [← hts]
      unfold Env.status
      rw [htu.router]
    rw [hread, hu] at hping
    have hcomm : CommPasses s len buf pre d := by
      refine ⟨?_, ?_, ?_⟩
      · rw [← hst.router]; exact hd.encrypted
      · rw [← hst.router]; exact hd.found
      · rw [← hst.router, ← hst.oracle]; exact hd.verified
    by_cases hdc : c = d
    swap
    · refine absurd hping (hstay _ ?_)
      rw [← hus]
      exact (ActsOn.tripcRead pre _ _ u).1.conn_field Connection.status (fun _ _ => rfl)
        (fun _ _ => rfl) hdc
    subst hdc
    rw [tripcRead_open_iff (by rw [hus, hopen]), htu.oracle, hst.oracle] at hping
    by_cases hchal : pre.control = tripControlChal
    · have hver := hcomm.verified
      unfold tripChallengeVerified at hver
      rw [if_pos hchal] at hver
      exact ⟨en, pre, hpass.unpacked, hchal, tripVerified_iff.mp hver⟩
    · exact absurd ⟨hstate, hpass, ⟨hctl, hchal⟩, hcomm, hc, hout, hopen, hping⟩ (hnone en pre c)

/-- A listening router that wants challenges signed, with a connection of its own
whose destination is resolved. -/
def openingEnv : Env :=
  ((do
    let _ ← tripNewConnection
    setConn 0 fun _ => tripcInit false 8
    let _ ← connmapAddM 0
    tripcStart 0
    tripcResolved 0 : TripM Unit).exec
      (listenEnv.setRouter (tripSetopt (.ALLOW_PLAIN_OSIG false) listenEnv.router))).2

/-- A PING segment: the prefix takes ten bytes. -/
def pingSegment : Buf := fun i => if i = 0 then tripControlPing else 0

/-- A PING segment as long as a challenge is believed without a signature. -/
theorem tripSeg_forged :
    ¬ ∀ (s : Env) (src : ℤ) (len : ℕ) (buf : Buf), ∀ c < s.router.heap.brk,
      (s.status c).incoming = false → (s.status c).state = .OPEN →
        (((tripSeg src len buf).exec s).2.status c).state = .PING → Authentic s len buf c := by
  intro hall
  obtain ⟨en, pre, hunp, hchal, -⟩ := hall openingEnv 0 202 pingSegment 0 (by decide) (by decide)
    (by decide) (by decide)
  have hping : (tripUnpackPrefix 202 pingSegment).map (fun p => p.2.control) =
      some tripControlPing := by decide
  rw [hunp, Option.map_some, hchal] at hping
  exact absurd hping (by decide)

/-! ### Repeated OPEN segments -/

/-- The map holds `live`, all of them allocated, and no connection is registered by
its source. -/
structure Mapped (r : Router) (live : List Ptr) : Prop where
  map : ∃ fl, ConnmapInv r.conn r.heap fl live
  there : ∀ c ∈ live, c < r.heap.brk
  connsrc : r.connsrc = (none, none)

/-- How many connections of the map are from `src` with a peer of identifier `id`. -/
def countPeer (r : Router) (src : ℤ) (id : UInt64) : ℕ :=
  (connmapIterate r.conn).countP fun c => (r.heap.conn c).src = src ∧ (r.heap.conn c).peer.id = id

theorem Mapped.countPeer_eq {r : Router} {live : List Ptr} (h : Mapped r live) (src : ℤ)
    (id : UInt64) : countPeer r src id =
      live.countP fun c => (r.heap.conn c).src = src ∧ (r.heap.conn c).peer.id = id := by
  obtain ⟨fl, hm⟩ := h.map
  unfold countPeer
  rw [connmapIterate_eq]
  exact hm.live.countP_eq _

/-- The connections of the map when one for a segment has been added, and has gone on
with steps of its own. -/
theorem Mapped.added {r r' : Router} {live : List Ptr} (h : Mapped r live) (src : ℤ)
    {alloc : Bool} {r₁ r₂ : UInt32} {mh : Connmap × ConnHeap}
    (hadd : connmapAdd r.conn (tripSegmentFresh r src).heap r.heap.brk alloc r₁ r₂ = (0, mh))
    (hacts : Acts r.heap.brk ((tripSegmentFresh r src).setMap mh) r') :
    Mapped r' (r.heap.brk :: live) := by
  obtain ⟨⟨fl, hm⟩, hthere, hconnsrc⟩ := h
  have hbrk : r.heap.brk ∉ live := fun hin => absurd (hthere _ hin) (lt_irrefl _)
  have hfresh : ConnmapInv r.conn (tripSegmentFresh r src).heap fl live := by
    refine hm.congr fun c hc => ?_
    rw [conn_tripSegmentFresh _ _ (hthere c hc).ne]
  have hcases := hfresh.add hbrk alloc r₁ r₂
  have hheap : mh.2.brk = r.heap.brk + 1 := by
    have hb := connmapAdd_brk r.conn (tripSegmentFresh r src).heap r.heap.brk alloc r₁ r₂
    rw [hadd] at hb
    exact hb
  rw [hadd] at hcases
  obtain ⟨-, -, fl', hadded⟩ : (0 : Errno) = 0 ∧ _ := by
    rcases hcases with h0 | ⟨h0, -⟩ | ⟨h0, -⟩
    · exact h0
    · exact absurd (show (0 : Errno) = ENOSPC from h0) (by decide)
    · exact absurd (show (0 : Errno) = ENOMEM from h0) (by decide)
  refine ⟨⟨fl', ?_⟩, ?_, ?_⟩
  · rw [hacts.conn_eq]
    exact hadded.congr fun c _ => hacts.id_eq c
  · intro c hc
    rw [hacts.alloc_eq.2]
    show c < mh.2.brk
    rw [hheap]
    rcases List.mem_cons.mp hc with rfl | hc
    · exact Nat.lt_succ_self _
    · exact Nat.lt_succ_of_lt (hthere c hc)
  · rw [hacts.connsrc_eq]
    simp only [tripSegmentFresh, Router.connsrc_setMap, Router.connsrc_setConn,
      Router.connsrc_allocConn, hconnsrc]

/-- Making a connection adds at most it. -/
theorem tripSegmentCreate_mapped (src : ℤ) (len : ℕ) (buf : Buf) (en : ℕ) (pre : TripPrefix)
    (screen : TripScreen) {s : Env} {live : List Ptr} (h : Mapped s.router live) :
    Mapped ((tripSegmentCreate src len buf en pre screen).exec s).2.router live ∨
      (s.oracle.alloc.head = true ∧
          connmapAddCode s.router.conn s.oracle.alloc.tail.head = 0) ∧
        Mapped ((tripSegmentCreate src len buf en pre screen).exec s).2.router
          (s.router.heap.brk :: live) := by
  rcases tripSegmentCreate_cases src len buf en pre screen s with
    ⟨-, hsame⟩ | ⟨halloc, r₁, r₂, code, mh, hadd, hres⟩
  · rw [hsame]
    exact Or.inl h
  have hcode := connmapAdd_code s.router.conn (tripSegmentFresh s.router src).heap
    s.router.heap.brk s.oracle.alloc.tail.head r₁ r₂
  rw [hadd] at hcode
  rcases hres with ⟨hne, hfree⟩ | ⟨rfl, hacts⟩
  · obtain ⟨⟨fl, hm⟩, hthere, hconnsrc⟩ := h
    have hbrk : s.router.heap.brk ∉ live := fun hin => absurd (hthere _ hin) (lt_irrefl _)
    have hfresh : ConnmapInv s.router.conn (tripSegmentFresh s.router src).heap fl live := by
      refine hm.congr fun c hc => ?_
      rw [conn_tripSegmentFresh _ _ (hthere c hc).ne]
    have hcases := hfresh.add hbrk s.oracle.alloc.tail.head r₁ r₂
    rw [hadd] at hcases
    have hmh : mh = (s.router.conn, (tripSegmentFresh s.router src).heap) := by
      rcases hcases with ⟨h0, -⟩ | ⟨-, -, heq⟩ | ⟨-, -, -, heq⟩
      · exact absurd h0 hne
      · exact heq
      · exact heq
    have hheap : mh.2.brk = s.router.heap.brk + 1 := by
      rw [hmh]
      rfl
    rw [hfree]
    refine Or.inl ⟨⟨fl, ?_⟩, fun c hc => ?_, ?_⟩
    · rw [Router.conn_freeConn, Router.conn_setMap, hmh]
      refine hfresh.congr fun c _ => ?_
      rw [Router.heap_freeConn_conn, Router.heap_setMap]
    · rw [Router.heap_freeConn_brk, Router.heap_setMap, hheap]
      exact Nat.lt_succ_of_lt (hthere c hc)
    · simp only [tripSegmentFresh, Router.connsrc_freeConn, Router.connsrc_setMap,
        Router.connsrc_setConn, Router.connsrc_allocConn, hconnsrc]
  · exact Or.inr ⟨⟨halloc, hcode.symm⟩, h.added src hadd hacts⟩

/-- Making a connection adds it when there is memory and a slot. -/
theorem tripSegmentCreate_adds (src : ℤ) (len : ℕ) (buf : Buf) (en : ℕ) (pre : TripPrefix)
    (screen : TripScreen) {s : Env} {live : List Ptr} (h : Mapped s.router live)
    (halloc : s.oracle.alloc.head = true)
    (hcode : connmapAddCode s.router.conn s.oracle.alloc.tail.head = 0) :
    Mapped ((tripSegmentCreate src len buf en pre screen).exec s).2.router
      (s.router.heap.brk :: live) := by
  rcases tripSegmentCreate_cases src len buf en pre screen s with
    ⟨hno, -⟩ | ⟨-, r₁, r₂, code, mh, hadd, hres⟩
  · rw [hno] at halloc
    cases halloc
  have hzero := connmapAdd_code s.router.conn (tripSegmentFresh s.router src).heap
    s.router.heap.brk s.oracle.alloc.tail.head r₁ r₂
  rw [hadd, hcode] at hzero
  rcases hres with ⟨hne, -⟩ | ⟨rfl, hacts⟩
  · exact absurd hzero hne
  · exact h.added src hadd hacts

/-- A connection is made for the segment: it is let in, and there is memory and a
slot. -/
def SegmentMakes (s : Env) (len : ℕ) (buf : Buf) : Prop :=
  (∃ en pre endroute screen, SegmentAdmitted s len buf en pre endroute screen) ∧
    s.oracle.alloc.head = true ∧ connmapAddCode s.router.conn s.oracle.alloc.tail.head = 0

/-- The source and the peer of a connection. -/
def Connection.origin (x : Connection) : ℤ × UInt64 := (x.src, x.peer.id)

theorem Mapped.mono {s t : Env} (hst : SameBut s t) {live : List Ptr} (h : Mapped s.router live) :
    Mapped t.router live := by
  rw [hst.router]
  exact h

/-- **An OPEN segment** adds at most one connection to the map, and changes the
origin of none that is there. -/
theorem tripSeg_mapped {s : Env} (src : ℤ) {len : ℕ} (hlen : len ≤ NPOS) {buf : Buf}
    (hopen : ∀ en pre, tripUnpackPrefix len buf = some (en, pre) → pre.control = tripControlOpen)
    {live : List Ptr} (h : Mapped s.router live) :
    (Mapped ((tripSeg src len buf).exec s).2.router live ∨
      SegmentMakes s len buf ∧
        Mapped ((tripSeg src len buf).exec s).2.router (s.router.heap.brk :: live)) ∧
      ∀ d ∈ live, (((tripSeg src len buf).exec s).2.router.heap.conn d).origin =
        (s.router.heap.conn d).origin := by
  have hsame : ∀ t : Env, SameBut s t → (Mapped t.router live ∨ SegmentMakes s len buf ∧
      Mapped t.router (s.router.heap.brk :: live)) ∧
        ∀ d ∈ live, (t.router.heap.conn d).origin = (s.router.heap.conn d).origin := by
    intro t ht
    refine ⟨Or.inl (h.mono ht), fun d _ => ?_⟩
    rw [ht.router]
  unfold tripSeg
  rw [Prog.exec_bind_of (exec_fetch _ _)]
  by_cases hstate : s.router.state = .LISTEN ∨ s.router.state = .CLOSE
  swap
  · rw [if_neg hstate]
    exact hsame s (.refl s)
  rw [if_pos hstate]
  rcases tripSegment_cases src len buf s with ⟨hst, -⟩ | ⟨en, pre, t, hpass, hst, hexec⟩
  · exact hsame _ hst
  have hctl := hopen en pre hpass.unpacked
  rw [hexec, if_pos hctl]
  rcases tripSegmentOpen_cases src len buf en pre t with
    htu | ⟨c, hsrc, -⟩ | ⟨endroute, screen, u, hopens, htu, hcreate⟩
  · exact hsame _ (hst.trans htu)
  · -- no connection is registered by its source
    unfold tripRouterGetConnBySrc at hsrc
    rw [hst.router, h.connsrc] at hsrc
    split_ifs at hsrc <;> simp at hsrc
  have hsu := hst.trans htu
  rw [hcreate]
  constructor
  · rcases tripSegmentCreate_mapped src len buf (en + endroute) pre _ (h.mono hsu) with
      hm | ⟨hmakes, hm⟩
    · exact Or.inl hm
    · rw [hsu.router, hsu.oracle] at hmakes
      rw [hsu.router] at hm
      exact Or.inr ⟨⟨⟨en, pre, endroute, screen, hopens.admitted hst hlen hstate hpass hctl⟩,
        hmakes⟩, hm⟩
  · intro d hd
    have hne : d ≠ u.router.heap.brk := by
      rw [hsu.router]
      exact (h.there d hd).ne
    rw [tripSegmentCreate_field Connection.origin (fun _ _ => rfl) (fun _ _ => rfl) src len buf _
      pre _ hne, hsu.router]

/-- `trip_seg` with the same segment from the same source. -/
def SegStep (src : ℤ) (len : ℕ) (buf : Buf) (s : Env) (_ : Unit) (t : Env) : Prop :=
  (tripSeg src len buf).exec s = (some (), t)

/-- The segment makes no connection while there is one from this source with this
peer. -/
def NoSecond (src : ℤ) (id : UInt64) (len : ℕ) (buf : Buf) (s : Env) (_ : Unit) : Prop :=
  countPeer s.router src id = 0 ∨ ¬ SegmentMakes s len buf

/-- The map has at most one connection from this source with this peer. -/
def AtMostOne (src : ℤ) (id : UInt64) (s : Env) : Prop := countPeer s.router src id ≤ 1

instance (src : ℤ) (id : UInt64) (s : Env) : Decidable (AtMostOne src id s) :=
  inferInstanceAs (Decidable (_ ≤ _))

/-- **When a repeated OPEN segment makes no second connection**: in the runs in
which it makes none while there is one. -/
theorem tripSeg_replay {src : ℤ} {id : UInt64} {len : ℕ} (hlen : len ≤ NPOS) {buf : Buf}
    (hopen : ∀ en pre, tripUnpackPrefix len buf = some (en, pre) → pre.control = tripControlOpen)
    {s : Env} {live : List Ptr} (hs : Mapped s.router live) (hone : AtMostOne src id s)
    {r : List (Unit × Env)} (hr : IsRun (SegStep src len buf) s r)
    (hg : Meets (NoSecond src id len buf) s r) :
    Holds (AtMostOne src id) (fun _ _ _ => True) s r := by
  have hstep : ∀ s i t, (AtMostOne src id s ∧ ∃ live, Mapped s.router live) →
      NoSecond src id len buf s i → SegStep src len buf s i t →
        True ∧ AtMostOne src id t ∧ ∃ live, Mapped t.router live := by
    rintro s i t ⟨hone, live, hs⟩ hg hst
    obtain rfl : t = ((tripSeg src len buf).exec s).2 := (congrArg Prod.snd hst).symm
    refine ⟨trivial, ?_⟩
    obtain ⟨hmapped, horigin⟩ := tripSeg_mapped src hlen hopen hs
    have hcount : live.countP (fun c =>
        (((tripSeg src len buf).exec s).2.router.heap.conn c).src = src ∧
          (((tripSeg src len buf).exec s).2.router.heap.conn c).peer.id = id) =
        countPeer s.router src id := by
      rw [hs.countPeer_eq]
      refine List.countP_congr fun c hc => ?_
      have heq := horigin c hc
      simp only [Connection.origin, Prod.mk.injEq] at heq
      rw [heq.1, heq.2]
    unfold AtMostOne at hone ⊢
    rcases hmapped with hm | ⟨hmakes, hm⟩
    · refine ⟨?_, live, hm⟩
      rw [hm.countPeer_eq, hcount]
      exact hone
    · refine ⟨?_, _, hm⟩
      have hzero := hg.resolve_right (not_not.mpr hmakes)
      rw [hm.countPeer_eq, List.countP_cons, hcount, hzero]
      split <;> omega
  have hinit : AtMostOne src id s ∧ ∃ live, Mapped s.router live := ⟨hone, live, hs⟩
  exact (holds_of_meets hstep hinit hr hg).mono (fun _ h => h.1) fun _ _ _ _ _ => trivial

/-- The OPEN segment of 205 bytes. -/
theorem openSegment_control : ∀ en pre, tripUnpackPrefix 205 openSegment = some (en, pre) →
    pre.control = tripControlOpen := by
  intro en pre h
  have hctl : (tripUnpackPrefix 205 openSegment).map (fun p => p.2.control) =
      some tripControlOpen := by decide
  rw [h, Option.map_some, Option.some.injEq] at hctl
  exact hctl

theorem mapped_listenEnv : Mapped listenEnv.router [] where
  map := ⟨[], connmapInv_init _ _⟩
  there := fun _ h => by simp at h
  connsrc := rfl

/-- What comes of the segment when it is sent `n` times. -/
def openTrace (n : ℕ) : List (Unit × Env) :=
  trace (fun _ s => ((tripSeg 0 205 openSegment).exec s).2) listenEnv (List.replicate n ())

/-- The first OPEN segment makes one connection. -/
theorem tripSeg_replay_first :
    Holds (AtMostOne 0 0) (fun _ _ _ => True) listenEnv (openTrace 1) :=
  tripSeg_replay (by decide) openSegment_control mapped_listenEnv (by decide)
    ⟨Prod.ext (by decide) rfl, trivial⟩ ⟨Or.inl (by decide), trivial⟩

/-- The second one makes another. -/
theorem tripSeg_replay_second :
    ¬ ∀ (src : ℤ) (id : UInt64) (len : ℕ) (buf : Buf) (s : Env) (live : List Ptr)
      (r : List (Unit × Env)), len ≤ NPOS →
        (∀ en pre, tripUnpackPrefix len buf = some (en, pre) → pre.control = tripControlOpen) →
          Mapped s.router live → AtMostOne src id s → IsRun (SegStep src len buf) s r →
            Holds (AtMostOne src id) (fun _ _ _ => True) s r := by
  intro hall
  have h := hall 0 0 205 openSegment listenEnv [] (openTrace 2) (by decide) openSegment_control
    mapped_listenEnv (by decide) ⟨Prod.ext (by decide) rfl, Prod.ext (by decide) rfl, trivial⟩
  have hgood : AtMostOne 0 0 _ := h.2.2.2.2
  exact absurd hgood (by decide)

end Libtrp
