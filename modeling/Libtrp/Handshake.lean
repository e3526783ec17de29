import Libtrp.Auth
import Libtrp.Wire

/-!
# The handshake

A connection that opens sends an OPEN segment; the peer makes a connection for it,
which sends a CHAL segment; that one finds the first connection by its identifier
and moves it on.  Afterwards each side knows the identifier, the limits, the nonce
and the key of the other one.  The copies of nonce and key go to memory that was
allocated without a check.

## Main definitions

* `Agrees` — what a connection knows of its peer is what the peer has sent.
* `OpenExchange`, `ChalExchange` — the two parties of each segment.
* `KeysFit` — there is memory for the copies, if any are made.

## Main results

* `open_delivered_iff`, `chal_delivered_iff` — when one of the segments does what it
  is for.
* `tripHandshake_iff` — **when the handshake does.**

## References

`src/conn.c`, `src/trip.c` (`_trip_segment`), `PROTOCOL.md`.
-/

namespace Libtrp

open Lib

/-! ### What is agreed on -/

/-- Nothing is copied: there is no nonce or no key, or it is zeros. -/
def Connself.bare (self : Connself) : Bool :=
  areZeros (PackField.orZeros tripNonce self.nonce) ||
    areZeros (PackField.orZeros tripKeyPub self.pk)

/-- What a connection knows of its peer is what the peer has sent. -/
structure Agrees (peer : Connpeer) (self : Connself) : Prop where
  id : peer.id = self.id
  lim : peer.lim = sentLim
  keys : ∀ nonce pk, self.nonce = some nonce → self.pk = some pk → areZeros nonce = false →
    areZeros pk = false → peer.nonce = some nonce ∧ peer.pk = some pk

/-- There is memory for the copies of nonce and key, if any are made. -/
def KeysFit (alloc : Stream' Bool) (self : Connself) : Prop :=
  self.bare = true ∨ alloc.head = true ∧ alloc.tail.head = true

/-- A segment signed with `signsk` passes the check with `signpk`: the keys match, or
there is none to check with and the flag allows that. -/
def SignatureFits (s t : Env) (signsk signpk : Option Bytes) (flag : UInt32) : Prop :=
  (∃ sk pk, signsk = some sk ∧ signpk = some pk ∧
      (∀ msg, (s.oracle.sign msg sk).length = tripSign) ∧
      ∀ msg, t.oracle.verify (s.oracle.sign msg sk) msg pk = true) ∨
    signpk = none ∧ t.router.has flag = true

/-- The signature of a segment is where it is looked for. -/
theorem SealedSegment.accepted {s t : Env} {signsk signpk : Option Bytes} {flag : UInt32}
    {head info : Bytes} {buf : Buf} (h : SealedSegment s.oracle.sign signsk head info buf)
    (hfits : SignatureFits s t signsk signpk flag) :
    SignatureAccepted t (signedSize head info + tripSign) buf signpk flag := by
  rcases hfits with ⟨sk, pk, hsk, rfl, hlen, hverify⟩ | hnone
  · refine Or.inl ⟨pk, rfl, ?_⟩
    have hsig := h.signed hsk hlen
    have hbox : 0 < signedSize head info := by
      show 0 < head.length + 48 + info.length
      omega
    unfold tripUnsign
    rw [Nat.add_sub_cancel, hsig]
    dsimp only
    rw [if_neg (by omega), if_pos (hverify _)]
  · exact Or.inr hnone

/-- What is read of the information agrees with what it was written from. -/
theorem infoBare_eq {buf : Buf} {self : Connself} (hself : self.Sized) {en off : ℕ}
    (h : slice buf (en + off) (infoBytes self).length = infoBytes self) :
    infoBare (buf.drop en) off = self.bare := by
  obtain ⟨-, -, hnonce, hkey⟩ := infoBytes_read hself h
  unfold infoBare Connself.bare
  rw [hnonce, hkey]

/-- What the parsers write agrees with it, when they copy what there is to copy. -/
theorem agrees_setInfo {buf : Buf} {self : Connself} (hself : self.Sized) {en off : ℕ}
    (h : slice buf (en + off) (infoBytes self).length = infoBytes self) (x : Connection) :
    (self.bare = true → Agrees (x.setInfo (buf.drop en) off).peer self) ∧
      Agrees ((x.setInfo (buf.drop en) off).setKeys (buf.drop en) off).peer self := by
  obtain ⟨hid, hlim, hnonce, hkey⟩ := infoBytes_read hself h
  refine ⟨fun hbare => ⟨hid, hlim, ?_⟩, ⟨hid, hlim, ?_⟩⟩
  · intro nonce pk hn hk hnz hkz
    unfold Connself.bare at hbare
    rw [hn, hk] at hbare
    simp [PackField.orZeros, hnz, hkz] at hbare
  · intro nonce pk hn hk _ _
    rw [hn] at hnonce
    rw [hk] at hkey
    exact ⟨congrArg some hnonce, congrArg some hkey⟩

/-- **What the parsers do with the information of a peer**: the connection agrees with
it afterwards, if there is memory for what is copied; without it they are stuck. -/
theorem exec_tripcParseInfo_sent {fmt : List PackDir} {size off : ℕ}
    (hfmt : InfoFormat fmt size off) {c : Ptr} {buf : Buf} {self : Connself} (hself : self.Sized)
    {en : ℕ} (h : slice buf (en + off) (infoBytes self).length = infoBytes self) (s : Env) :
    (KeysFit s.oracle.alloc self → ∃ t,
      (tripcParseInfo fmt c size (buf.drop en)).exec s = (some 0, t) ∧
        (t.status c).state = (s.status c).state ∧ (t.status c).error = (s.status c).error ∧
        Agrees (t.status c).peer self) ∧
    (¬ KeysFit s.oracle.alloc self →
      ((tripcParseInfo fmt c size (buf.drop en)).exec s).1 = none) := by
  have hbare := infoBare_eq hself h
  obtain ⟨hagrees, hcopied⟩ := agrees_setInfo hself h (s.router.heap.conn c)
  rw [exec_tripcParseInfo hfmt, if_neg (not_not.mpr rfl), hbare]
  dsimp only
  generalize hw : s.setRouter (s.router.setConn c (Connection.setInfo (buf.drop en) off)) = w
  have hwc : w.router.heap.conn c =
      Connection.setInfo (buf.drop en) off (s.router.heap.conn c) := by
    rw [← hw]
    exact ConnHeap.conn_set_self s.router.heap c (Connection.setInfo (buf.drop en) off)
  constructor
  · intro hfit
    -- without keys and nonce there is nothing to copy
    by_cases hb : self.bare = true
    · rw [if_pos hb]
      refine ⟨w, rfl, ?_⟩
      unfold Env.status
      rw [hwc]
      exact ⟨rfl, rfl, hagrees hb⟩
    · rw [if_neg hb, if_pos (by simpa using hfit.resolve_left hb)]
      generalize hv : Env.setRouter _ _ = v
      have hvc : v.router.heap.conn c = Connection.setKeys (buf.drop en) off
          (Connection.setInfo (buf.drop en) off (s.router.heap.conn c)) := by
        rw [← hv, ← hwc]
        exact ConnHeap.conn_set_self w.router.heap c (Connection.setKeys (buf.drop en) off)
      refine ⟨v, rfl, ?_⟩
      unfold Env.status
      rw [hvc]
      exact ⟨rfl, rfl, hcopied⟩
  · intro hfit
    have hb : ¬ self.bare = true := fun hb => hfit (Or.inl hb)
    have ha : ¬ (s.oracle.alloc.head && s.oracle.alloc.tail.head) = true :=
      fun ha => hfit (Or.inr (by simpa using ha))
    rw [if_neg hb, if_neg ha]

/-! ### A connection for an OPEN segment -/

/-- Starting an incoming connection that was just made takes it to `CHAL`. -/
theorem exec_tripcStart_incoming {c : Ptr} {s : Env}
    (hstate : (s.router.heap.conn c).state = .START)
    (hincoming : (s.router.heap.conn c).incoming = true)
    (htimer : (s.router.heap.conn c).statetimer = none)
    (hencrypted : (s.router.heap.conn c).encrypted = false) :
    (tripcStart c).exec s =
      (some (), s.setRouter (s.router.setConn c fun x => { x with state := .CHAL })) := by
  have hleave : (tripcLeave c .CHAL).exec s = (some (), s) := by
    show (tripcCancelTimeout c).exec s = _
    unfold tripcCancelTimeout
    rw [Prog.exec_bind_of (exec_getConn _ _), htimer]
    rfl
  have henter : ∀ t : Env, (t.router.heap.conn c).encrypted = false →
      (tripcEnter c .CHAL).exec t = (some (), t) := by
    intro t ht
    show (tripcMkKeys c).exec t = _
    unfold tripcMkKeys
    rw [Prog.exec_bind_of (exec_getConn _ _), if_neg (by simp [ht])]
    rfl
  unfold tripcStart
  rw [Prog.exec_bind_of (exec_getConn _ _), if_neg (by simp [hstate]), hincoming, if_pos rfl]
  unfold tripcSetState
  rw [Prog.exec_bind_of hleave, Prog.exec_bind_of (exec_setConn _ _ _)]
  apply henter
  have hkeep := ConnHeap.conn_set_field Connection.encrypted s.router.heap c c
    (f := fun x => { x with state := .CHAL }) rfl
  exact hkeep.trans hencrypted

/-- Adding to the map writes the identifier to the connection only. -/
theorem connmapAdd_conn_self {α : Type*} (g : Connection → α)
    (hid : ∀ x id, g { x with self := { x.self with id := id } } = g x) (m : Connmap)
    (h : ConnHeap) (c : Ptr) (alloc : Bool) (r₁ r₂ : UInt32) :
    g ((connmapAdd m h c alloc r₁ r₂).2.2.conn c) = g (h.conn c) := by
  obtain heq | ⟨id, heq⟩ := connmapAdd_heap m h c alloc r₁ r₂
  · rw [heq]
  · rw [heq, ConnHeap.conn_set_self]
    exact hid _ _

/-- What the user's screening leaves in the connection. -/
def Connection.setScreen (screen : TripScreen) (x : Connection) : Connection :=
  { x with
    self := { x.self with opensk := screen.opensk, signsk := screen.signsk }
    peer := { x.peer with signpk := screen.signpk } }

theorem exec_tripcSetScreen (c : Ptr) (screen : TripScreen) (s : Env) :
    (tripcSetScreen c screen).exec s =
      (some (), s.setRouter (s.router.setConn c (Connection.setScreen screen))) := rfl

/-- `tripSegmentCreate`, for anything that is done when the segment is rejected and when there
is a connection for it. -/
def tripSegmentCreateWith {α : Type} (src : ℤ) (screen : TripScreen) (reject : ℕ → TripM α)
    (next : Ptr → TripM α) : TripM α := do
  let c ← tripNewConnection
  match c with
  | none => reject 6
  | some c => do
    let maxStreams ← fetch Router.maxStreams
    setConn c fun _ => tripcInit true maxStreams
    setConn c fun x => x.setSrc src
    let code ← connmapAddM c
    if code ≠ 0 then
      tripFreeConnection c
      reject 50
    else
      tripcSetScreen c screen
      tripcStart c
      next c

/-- **The connection that is made** is in `CHAL` and knows no peer when it comes to
read the information; two allocations have been made for it. -/
theorem exec_tripSegmentCreateWith {α : Type} (src : ℤ) (screen : TripScreen)
    (reject : ℕ → TripM α) (next : Ptr → TripM α) {s : Env} (halloc : s.oracle.alloc.head = true)
    (hcode : connmapAddCode s.router.conn s.oracle.alloc.tail.head = 0) :
    ∃ t, (tripSegmentCreateWith src screen reject next).exec s =
        (next s.router.heap.brk).exec t ∧
      (t.status s.router.heap.brk).state = .CHAL ∧ (t.status s.router.heap.brk).error = 0 ∧
      t.oracle.alloc = s.oracle.alloc.tail.tail := by
  have hfresh : (tripSegmentFresh s.router src).heap.conn s.router.heap.brk =
      (tripcInit true s.router.maxStreams).setSrc src := by
    rw [tripSegmentFresh, Router.setConn, ConnHeap.conn_set_self, Router.setConn,
      ConnHeap.conn_set_self]
  have hmade := exec_tripSegmentMade src (reject 6) (fun c code =>
    if code ≠ 0 then do
      tripFreeConnection c
      reject 50
    else do
      tripcSetScreen c screen
      tripcStart c
      next c) s
  rw [if_pos halloc] at hmade
  rw [show (tripSegmentCreateWith src screen reject next).exec s = _ from hmade]
  dsimp only
  rw [connmapAdd_code, if_neg (not_not.mpr hcode)]
  generalize hu : Env.setRouter _ _ = u
  -- the map writes the identifier only
  have hconn : ∀ {α : Type} (g : Connection → α),
      (∀ x id, g { x with self := { x.self with id := id } } = g x) →
        g (u.router.heap.conn s.router.heap.brk) =
          g ((tripcInit true s.router.maxStreams).setSrc src) := by
    intro α g hg
    rw [← hfresh, ← hu]
    exact connmapAdd_conn_self g hg _ _ _ _ _ _
  have halloc' : u.oracle.alloc = s.oracle.alloc.tail.tail := by
    rw [← hu]
    rfl
  rw [Prog.exec_bind_of (exec_tripcSetScreen _ _ _)]
  generalize hv : Env.setRouter _ _ = v
  -- and the screen what the user was shown
  have hfield : ∀ {α : Type} (g : Connection → α), (∀ x, g (Connection.setScreen screen x) = g x) →
      (∀ x id, g { x with self := { x.self with id := id } } = g x) →
        g (v.router.heap.conn s.router.heap.brk) =
          g ((tripcInit true s.router.maxStreams).setSrc src) := by
    intro α g hscreen hid
    rw [← hconn g hid, ← hv]
    exact ConnHeap.conn_set_field g u.router.heap _ _ (hscreen _)
  have hstart := @exec_tripcStart_incoming s.router.heap.brk v
    (hfield Connection.state (fun _ => rfl) fun _ _ => rfl)
    (hfield Connection.incoming (fun _ => rfl) fun _ _ => rfl)
    (hfield Connection.statetimer (fun _ => rfl) fun _ _ => rfl)
    (hfield Connection.encrypted (fun _ => rfl) fun _ _ => rfl)
  rw [Prog.exec_bind_of hstart]
  refine ⟨_, rfl, ?_, ?_, ?_⟩
  · rw [Env.status_setConn]
    rfl
  · rw [Env.status_setConn]
    exact hfield Connection.error (fun _ => rfl) fun _ _ => rfl
  · rw [← halloc', ← hv]
    rfl

theorem exec_tripSegmentCreate (src : ℤ) (len : ℕ) (buf : Buf) (en : ℕ) (pre : TripPrefix)
    (screen : TripScreen) {s : Env} (halloc : s.oracle.alloc.head = true)
    (hcode : connmapAddCode s.router.conn s.oracle.alloc.tail.head = 0) :
    ∃ t, (tripSegmentCreate src len buf en pre screen).exec s =
        (tripSegmentInfo src len buf en pre s.router.heap.brk).exec t ∧
      (t.status s.router.heap.brk).state = .CHAL ∧ (t.status s.router.heap.brk).error = 0 ∧
      t.oracle.alloc = s.oracle.alloc.tail.tail :=
  exec_tripSegmentCreateWith src screen (tripRouterReject src) (tripSegmentInfo src len buf en pre)
    halloc hcode

/-! ### Reading the OPEN segment -/

/-- A connection in `CHAL` parses an OPEN segment and asks to send its challenge. -/
theorem tripcRead_chal_cases {c : Ptr} {s : Env} (hs : (s.status c).state = .CHAL)
    {pre : TripPrefix} (hpre : pre.control = tripControlOpen) (len : ℕ) (buf : Buf) :
    (tripcRead c pre len buf).exec s =
      match (tripcParseOpen c len buf).exec s with
      | (some code, t) =>
        if code ≠ 0 then (some EINVAL, t)
        else (some (t.status c).error, ((tripcSetSend c).exec t).2)
      | (none, t) => (none, t) := by
  have hstate : (s.router.heap.conn c).state = .CHAL := hs
  unfold tripcRead
  rw [Prog.exec_bind_of (exec_getConn _ _), hstate]
  unfold tripcReadSwitch
  rw [if_neg (by rw [hpre]; decide), if_pos hpre]
  unfold tripcParsed
  rw [Prog.exec_bind, Prog.exec_bind]
  rcases (tripcParseOpen c len buf).exec s with ⟨_ | code, t⟩
  · rfl
  dsimp only
  by_cases hcode : code = 0
  · rw [if_neg (not_not.mpr hcode), if_neg (not_not.mpr hcode)]
    obtain ⟨a, hset⟩ := (RunsOn.tripcSetSend (c := c)).total.exec_eq t
    have hsame := SameStatus.tripcSetSend (c := c) t
    rw [Prog.exec_bind_of hset, ← hsame]
    rfl
  · rw [if_pos hcode, if_pos hcode]
    rfl

/-- **A challenge is prepared**: the new connection gets what there is in the
segment, if there is memory for it. -/
theorem exec_tripSegmentInfo {c : Ptr} {s : Env} (hs : (s.status c).state = .CHAL)
    (herror : (s.status c).error = 0) (src : ℤ) {en len : ℕ} (hlen : len = en + 48 + 80 + 64)
    (hmax : len ≤ NPOS) {buf : Buf} {self : Connself} (hself : self.Sized)
    (hinfo : slice buf (en + 48) (infoBytes self).length = infoBytes self) {pre : TripPrefix}
    (hpre : pre.control = tripControlOpen) :
    (KeysFit s.oracle.alloc self → ∃ t, (tripSegmentInfo src len buf en pre c).exec s =
      (some (), t) ∧ (t.status c).state = .CHAL ∧ Agrees (t.status c).peer self) ∧
    (¬ KeysFit s.oracle.alloc self → ((tripSegmentInfo src len buf en pre c).exec s).1 = none) := by
  have hbody : sizeSub len tripSign = en + 128 := by
    rw [sizeSub_of_le (by show 64 ≤ len; omega) hmax]
    show len - 64 = _
    omega
  have hrest : sizeSub (en + 128) en = 128 := by
    rw [sizeSub_of_le (by omega) (by omega), Nat.add_sub_cancel_left]
  have hbox : tripUnpack 64 (buf.drop en) [.o, .O] = (48, []) :=
    (tripUnpack_fixed (by decide) (by decide) 64 (buf.drop en)).1 (by decide)
  have hen : (en + 48) % 2 ^ 64 = en + 48 := by
    unfold NPOS at hmax
    exact Nat.mod_eq_of_lt (by omega)
  have hinner : sizeSub (en + 128) (en + 48) = 80 := by
    rw [sizeSub_of_le (by omega) (by omega)]
    omega
  unfold tripSegmentInfo
  rw [Prog.exec_bind_of (exec_sizeSubM _ _ _), Prog.exec_bind_of (exec_sizeSubM _ _ _),
    Prog.exec_bind_of (exec_sizeSubM _ _ _), Prog.exec_bind_of (exec_mark _ _), hbody, hrest,
    show sizeSub 128 tripSign = 64 from rfl, hbox]
  dsimp only
  rw [if_neg (by decide), Prog.exec_bind_of (exec_sizeSubM _ _ _),
    Prog.exec_bind_of (exec_mark _ _), hen, hinner]
  generalize ht : Env.addMark (Env.addMark _ _) _ = t
  have htc : t.status c = s.status c := by rw [← ht]; rfl
  have hto : t.oracle = s.oracle := by rw [← ht]; rfl
  have hread := tripcRead_chal_cases (htc ▸ hs) hpre 80 (buf.drop (en + 48))
  obtain ⟨hfits, hstuck⟩ := exec_tripcParseInfo_sent infoFormat_open hself hinfo t
  rw [hto] at hfits hstuck
  constructor
  · intro hfit
    obtain ⟨u, hparse, hstate, herr, hagrees⟩ := hfits hfit
    rw [tripcParseOpen, hparse] at hread
    dsimp only at hread
    rw [if_neg (not_not.mpr rfl), herr, htc, herror] at hread
    -- what is left is to ask a second time for the challenge to be sent
    rw [Prog.exec_bind_of hread, if_neg (not_not.mpr rfl)]
    obtain ⟨_, hset⟩ := (RunsOn.tripcSetSend (c := c)).total.exec_eq ((tripcSetSend c).exec u).2
    have hsame := (SameStatus.tripcSetSend (c := c) ((tripcSetSend c).exec u).2).trans
      (SameStatus.tripcSetSend (c := c) u)
    refine ⟨_, hset, ?_⟩
    rw [hsame, hstate, htc]
    exact ⟨hs, hagrees⟩
  · intro hfit
    have hnone := hstuck hfit
    rw [tripcParseOpen] at hread
    rcases hparse : (tripcParseInfo [.Q, .n, .k, .I, .I, .I, .I] c 80 (buf.drop (en + 48))).exec t
      with ⟨_ | code, u⟩
    · rw [hparse] at hread
      rw [Prog.exec_bind, hread]
    · rw [hparse] at hnone
      cases hnone

/-! ### The OPEN segment -/

/-- What the router makes of the route of an OPEN segment before the user sees it. -/
def openScreen (x : Connection) : TripScreen :=
  ⟨false, tripVersionMajor, 0, 13 + tripUvarLen x.self.sequence, none, none, none⟩

/-- A connection `c` in `OPEN`, and a router in `LISTEN` that admits what it sends: the
flags and the user's screening let it in, its signature fits, and there is memory and
a slot for a connection. -/
structure OpenExchange (s : Env) (c : Ptr) (blen : ℕ) (t : Env) (src : ℤ) (live : List Ptr) :
    Prop where
  opens : (s.router.heap.conn c).state = .OPEN
  outgoing : (s.router.heap.conn c).incoming = false
  sized : (s.router.heap.conn c).self.Sized
  room : 213 ≤ blen
  size : blen ≤ NPOS
  listens : t.router.state = .LISTEN
  allowIn : t.router.has triprFlagAllowIn = true
  encrypted : (s.router.heap.conn c).peer.openpk.isSome = true ∨
    t.router.has triprFlagAllowPlainOpen = true
  fresh : tripRouterGetConnBySrc t.router src (s.router.heap.conn c).self.id = some none
  allow : (t.oracle.screen (openScreen (s.router.heap.conn c))).allow = true
  signature : SignatureFits s t (s.router.heap.conn c).self.signsk
    (t.oracle.screen (openScreen (s.router.heap.conn c))).signpk triprFlagAllowPlainIsig
  memory : t.oracle.alloc.head = true
  slot : connmapAddCode t.router.conn t.oracle.alloc.tail.head = 0
  mapped : Mapped t.router live

/-- The bytes of `_tripc_send_open` make exactly one connection, in `CHAL`, which
agrees with the one that opens. -/
def OpenDelivered (s : Env) (c : Ptr) (blen : ℕ) (t : Env) (src : ℤ) (live : List Ptr) : Prop :=
  ∃ wlen s', (tripcSendOpen c blen).exec s = (some wlen, s') ∧
    ∃ t', (tripSeg src wlen s'.router.buf).exec t = (some (), t') ∧
      Mapped t'.router (t.router.heap.brk :: live) ∧
      (t'.status t.router.heap.brk).state = .CHAL ∧
      Agrees (t'.status t.router.heap.brk).peer (s.router.heap.conn c).self

/-- The control and the flag of the first byte. -/
theorem controlByte_open (key : Option Bytes) :
    (controlByte tripControlOpen key &&& tripPrefixEmask != 0) = key.isSome ∧
      controlByte tripControlOpen key &&& ~~~tripPrefixEmask = tripControlOpen := by
  have hflag : ∀ b : Bool,
      ((tripControlOpen ||| if b then tripPrefixEmask else 0) &&& tripPrefixEmask != 0) = b ∧
        (tripControlOpen ||| if b then tripPrefixEmask else 0) &&& ~~~tripPrefixEmask =
          tripControlOpen := by decide
  exact hflag key.isSome

theorem controlByte_chal (key : Option Bytes) :
    (controlByte tripControlChal key &&& tripPrefixEmask != 0) = key.isSome ∧
      controlByte tripControlChal key &&& ~~~tripPrefixEmask = tripControlChal := by
  have hflag : ∀ b : Bool,
      ((tripControlChal ||| if b then tripPrefixEmask else 0) &&& tripPrefixEmask != 0) = b ∧
        (tripControlChal ||| if b then tripPrefixEmask else 0) &&& ~~~tripPrefixEmask =
          tripControlChal := by decide
  exact hflag key.isSome

/-- **How the other router gets to the information**: the segment passes its checks and
the connection is made. -/
theorem OpenExchange.exec_tripSeg {s : Env} {c : Ptr} {blen : ℕ} {t : Env} {src : ℤ}
    {live : List Ptr} (h : OpenExchange s c blen t src live) {buf : Buf}
    (hseg : SealedSegment s.oracle.sign (s.router.heap.conn c).self.signsk
      (openHead (s.router.heap.conn c)) (infoBytes (s.router.heap.conn c).self) buf) :
    ∃ u pre screen, SameBut t u ∧ pre.control = tripControlOpen ∧
      (tripSeg src (205 + tripUvarLen (s.router.heap.conn c).self.sequence) buf).exec t =
        (tripSegmentCreate src (205 + tripUvarLen (s.router.heap.conn c).self.sequence) buf
          (13 + tripUvarLen (s.router.heap.conn c).self.sequence) pre screen).exec u := by
  have hopens := h.opens
  have hsized := h.sized
  have henc := h.encrypted
  have hfresh := h.fresh
  have hallow := h.allow
  have hsig := h.signature
  generalize s.router.heap.conn c = x at *
  have hl := PackItem.tripUvarLen_le_eight x.self.sequence
  obtain ⟨hhead, hroute⟩ := slice_parts hseg.head_eq
  rw [length_prefixBytes, Nat.zero_add] at hroute
  have hmax : 205 + tripUvarLen x.self.sequence ≤ NPOS := by
    unfold NPOS
    omega
  obtain ⟨seq, hpre⟩ := tripUnpackPrefix_of_head hhead
    (show 10 + tripUvarLen x.self.sequence ≤ 205 + tripUvarLen x.self.sequence by omega) hmax
  rw [(controlByte_open x.peer.openpk).1, (controlByte_open x.peer.openpk).2] at hpre
  have haccepted := hseg.accepted hsig
  rw [openHead_size hsized] at haccepted
  unfold tripSeg
  rw [Prog.exec_bind_of (exec_fetch _ _), if_pos (Or.inl h.listens)]
  have hpass : SegmentPasses (205 + tripUvarLen x.self.sequence) buf
      (10 + tripUvarLen x.self.sequence) ⟨x.peer.openpk.isSome, tripControlOpen, x.self.id, seq⟩ :=
    ⟨by omega, hpre, show tripControlOpen < tripControlMax by decide⟩
  rcases tripSegment_cases src (205 + tripUvarLen x.self.sequence) buf t with
    ⟨-, hnone⟩ | ⟨en, pre, u, hpass', htu, hexec⟩
  · exact absurd hpass (hnone _ _)
  obtain ⟨rfl, rfl⟩ := hpass'.unique hpass
  have hscreen : (⟨false, tripVersionMajor, 0, 10 + tripUvarLen x.self.sequence + 3, none, none,
      none⟩ : TripScreen) = openScreen x := by
    unfold openScreen
    congr 1
    omega
  have hpasses : OpenPasses u src (205 + tripUvarLen x.self.sequence) buf
      (10 + tripUvarLen x.self.sequence) ⟨x.peer.openpk.isSome, tripControlOpen, x.self.id, seq⟩ 3
      ⟨false, tripVersionMajor, 0, 3, none, none, none⟩ := by
    refine ⟨?_, ?_, ?_, rfl, ?_, ?_, ?_⟩
    · rw [htu.router]
      exact h.allowIn
    · rw [htu.router]
      exact henc
    · rw [sizeSub_of_le (by omega) hmax]
      refine tripUnpackRoute_of_zeros ?_ (by omega) (by omega)
      rw [slice_drop]
      exact hroute
    · rw [htu.router]
      exact hfresh
    · rw [htu.oracle]
      dsimp only
      rw [hscreen]
      exact hallow
    · rw [htu.oracle, htu.router]
      dsimp only
      rw [hscreen]
      exact tripVerified_iff.mpr haccepted
  obtain ⟨v, huv, hopen⟩ := hpasses.exec_eq
  have hen : 10 + tripUvarLen x.self.sequence + 3 = 13 + tripUvarLen x.self.sequence := by omega
  rw [hen] at hopen
  exact ⟨v, ⟨x.peer.openpk.isSome, tripControlOpen, x.self.id, seq⟩, _, htu.trans huv, rfl,
    (hexec.trans (if_pos rfl)).trans hopen⟩

/-- **When an OPEN segment makes the connection it is for**: there is memory for the
copies of nonce and key, behind the two allocations the connection itself needs. -/
theorem open_delivered_iff {s : Env} {c : Ptr} {blen : ℕ} {t : Env} {src : ℤ} {live : List Ptr}
    (h : OpenExchange s c blen t src live) :
    OpenDelivered s c blen t src live ↔
      KeysFit t.oracle.alloc.tail.tail (s.router.heap.conn c).self := by
  obtain ⟨s', hsend, hseg⟩ := exec_tripcSendOpen h.sized h.room h.size
  obtain ⟨u, pre, screen, htu, hpre, hexec⟩ := h.exec_tripSeg hseg
  have halloc : u.oracle.alloc.head = true := by rw [htu.oracle]; exact h.memory
  have hcode : connmapAddCode u.router.conn u.oracle.alloc.tail.head = 0 := by
    rw [htu.oracle, htu.router]
    exact h.slot
  have hl := PackItem.tripUvarLen_le_eight (s.router.heap.conn c).self.sequence
  obtain ⟨v, hcreate, hchal, herror, hvalloc⟩ := exec_tripSegmentCreate src
    (205 + tripUvarLen (s.router.heap.conn c).self.sequence) s'.router.buf
    (13 + tripUvarLen (s.router.heap.conn c).self.sequence) pre screen halloc hcode
  have hadds := tripSegmentCreate_adds src
    (205 + tripUvarLen (s.router.heap.conn c).self.sequence) s'.router.buf
    (13 + tripUvarLen (s.router.heap.conn c).self.sequence) pre screen (h.mapped.mono htu) halloc
    hcode
  have hinfo := hseg.info_eq
  have hplace : (openHead (s.router.heap.conn c)).length + cryptoBoxSealBytes =
      13 + tripUvarLen (s.router.heap.conn c).self.sequence + 48 := by
    unfold openHead
    rw [List.length_append, length_prefixBytes]
    show 10 + _ + 3 + 48 = _
    omega
  rw [hplace] at hinfo
  have hlen : 205 + tripUvarLen (s.router.heap.conn c).self.sequence =
      13 + tripUvarLen (s.router.heap.conn c).self.sequence + 48 + 80 + 64 := by omega
  obtain ⟨hfits, hstuck⟩ := exec_tripSegmentInfo hchal herror src hlen (by unfold NPOS; omega)
    h.sized hinfo hpre
  rw [hvalloc, htu.oracle] at hfits hstuck
  rw [htu.router] at hcreate hadds hfits hstuck
  constructor
  · rintro ⟨wlen, s'', hsend', t', ht', -⟩
    by_contra hfit
    obtain ⟨rfl, rfl⟩ : 205 + tripUvarLen (s.router.heap.conn c).self.sequence = wlen ∧
        s' = s'' := by
      have heq := hsend.symm.trans hsend'
      simpa using heq
    have hnone := hstuck hfit
    rw [← hcreate, ← hexec, ht'] at hnone
    cases hnone
  · intro hfit
    obtain ⟨t', ht', hstate, hagrees⟩ := hfits hfit
    refine ⟨_, s', hsend, t', ?_, ?_, hstate, hagrees⟩
    · rw [hexec, hcreate, ht']
    · rw [hcreate, ht'] at hadds
      exact hadds

/-! ### The CHAL segment -/

/-- A connection `d` that was made for the OPEN segment of `c`, and the router of `c`,
in `LISTEN`, which takes its challenge: the flags let it in, and its signature fits. -/
structure ChalExchange (t : Env) (d : Ptr) (blen : ℕ) (s : Env) (c : Ptr) (live : List Ptr) :
    Prop where
  sized : (t.router.heap.conn d).self.Sized
  room : 210 ≤ blen
  size : blen ≤ NPOS
  known : (t.router.heap.conn d).peer.id = (s.router.heap.conn c).self.id
  listens : s.router.state = .LISTEN
  opens : (s.router.heap.conn c).state = .OPEN
  mapped : Mapped s.router live
  member : c ∈ live
  encrypted : (t.router.heap.conn d).peer.pk.isSome = true ∨
    s.router.has triprFlagAllowPlainComm = true
  signature : SignatureFits t s (t.router.heap.conn d).self.signsk
    (s.router.heap.conn c).peer.signpk triprFlagAllowPlainOsig

/-- The bytes of `_tripc_send_chal` move `c` from `OPEN` to `PING`, and it agrees with
the connection they come from. -/
def ChalDelivered (t : Env) (d : Ptr) (blen : ℕ) (s : Env) (c : Ptr) (src : ℤ) : Prop :=
  ∃ wlen t', (tripcSendChal d blen).exec t = (some wlen, t') ∧
    ∃ s', (tripSeg src wlen t'.router.buf).exec s = (some (), s') ∧
      (s'.status c).state = .PING ∧ Agrees (s'.status c).peer (t.router.heap.conn d).self

/-- **How the challenge gets to the connection that waits for it**: it is found by its
identifier, and reads all behind the prefix. -/
theorem ChalExchange.exec_tripSeg {t : Env} {d : Ptr} {blen : ℕ} {s : Env} {c : Ptr}
    {live : List Ptr} (h : ChalExchange t d blen s c live) (src : ℤ) {buf : Buf}
    (hseg : SealedSegment t.oracle.sign (t.router.heap.conn d).self.signsk
      (chalHead (t.router.heap.conn d)) (infoBytes (t.router.heap.conn d).self) buf) :
    ∃ u pre, SameBut s u ∧
      (tripSeg src (202 + tripUvarLen (t.router.heap.conn d).self.sequence) buf).exec s =
        match (tripcRead c pre 128
          (buf.drop (10 + tripUvarLen (t.router.heap.conn d).self.sequence))).exec u with
        | (some _, v) => (some (), v)
        | (none, v) => (none, v) := by
  have hsized := h.sized
  have hknown := h.known
  have henc := h.encrypted
  have hsig := h.signature
  generalize t.router.heap.conn d = x at *
  have hl := PackItem.tripUvarLen_le_eight x.self.sequence
  have hmax : 202 + tripUvarLen x.self.sequence ≤ NPOS := by
    unfold NPOS
    omega
  obtain ⟨seq, hpre⟩ := tripUnpackPrefix_of_head hseg.head_eq
    (show 10 + tripUvarLen x.self.sequence ≤ 202 + tripUvarLen x.self.sequence by omega) hmax
  rw [(controlByte_chal x.peer.pk).1, (controlByte_chal x.peer.pk).2] at hpre
  have haccepted := hseg.accepted hsig
  rw [chalHead_size hsized] at haccepted
  unfold tripSeg
  rw [Prog.exec_bind_of (exec_fetch _ _), if_pos (Or.inl h.listens)]
  have hpass : SegmentPasses (202 + tripUvarLen x.self.sequence) buf
      (10 + tripUvarLen x.self.sequence) ⟨x.peer.pk.isSome, tripControlChal, x.peer.id, seq⟩ :=
    ⟨by omega, hpre, show tripControlChal < tripControlMax by decide⟩
  rcases tripSegment_cases src (202 + tripUvarLen x.self.sequence) buf s with
    ⟨-, hnone⟩ | ⟨en, pre, u, hpass', hsu, hexec⟩
  · exact absurd hpass (hnone _ _)
  obtain ⟨rfl, rfl⟩ := hpass'.unique hpass
  have hcomm : CommPasses u (202 + tripUvarLen x.self.sequence) buf
      ⟨x.peer.pk.isSome, tripControlChal, x.peer.id, seq⟩ c := by
    refine ⟨?_, ?_, ?_⟩
    · rw [hsu.router]
      exact henc
    · obtain ⟨fl, hm⟩ := h.mapped.map
      rw [hsu.router]
      exact hm.get_eq_some.mpr ⟨h.member, hknown.symm⟩
    · rw [hsu.oracle, hsu.router]
      exact tripVerified_iff.mpr haccepted
  rw [hexec, if_neg (show tripControlChal ≠ tripControlOpen by decide)]
  rcases tripSegmentComm_cases src (202 + tripUvarLen x.self.sequence) buf
    (10 + tripUvarLen x.self.sequence) ⟨x.peer.pk.isSome, tripControlChal, x.peer.id, seq⟩ u with
    ⟨-, hnone⟩ | ⟨e, he, hread⟩
  · exact absurd hcomm (hnone c)
  obtain rfl : e = c := Option.some.inj (he.found.symm.trans hcomm.found)
  obtain ⟨v, huv, hcases⟩ := tripSegmentRead_cases src (202 + tripUvarLen x.self.sequence) buf
    (10 + tripUvarLen x.self.sequence) ⟨x.peer.pk.isSome, tripControlChal, x.peer.id, seq⟩ e u
  have hbody : sizeSub (202 + tripUvarLen x.self.sequence) tripSign =
      138 + tripUvarLen x.self.sequence := by
    rw [sizeSub_of_le (by show 64 ≤ 202 + _; omega) hmax]
    show 202 + tripUvarLen x.self.sequence - 64 = _
    omega
  have hrest : sizeSub (138 + tripUvarLen x.self.sequence) (10 + tripUvarLen x.self.sequence) =
      128 := by
    rw [sizeSub_of_le (by omega) (by omega)]
    omega
  rw [hbody, hrest] at hcases
  exact ⟨v, _, hsu.trans huv, hread.trans hcases⟩

/-- **When a challenge does what it is for**: there is memory for the copies. -/
theorem chal_delivered_iff {t : Env} {d : Ptr} {blen : ℕ} {s : Env} {c : Ptr} {live : List Ptr}
    (h : ChalExchange t d blen s c live) (src : ℤ) :
    ChalDelivered t d blen s c src ↔ KeysFit s.oracle.alloc (t.router.heap.conn d).self := by
  obtain ⟨t', hsend, hseg⟩ := exec_tripcSendChal h.sized h.room h.size
  obtain ⟨u, pre, hsu, hexec⟩ := h.exec_tripSeg src hseg
  have hinfo := hseg.info_eq
  have hhead : (chalHead (t.router.heap.conn d)).length =
      10 + tripUvarLen (t.router.heap.conn d).self.sequence := length_prefixBytes _ _ _
  rw [hhead] at hinfo
  obtain ⟨hfits, hstuck⟩ := @exec_tripcParseInfo_sent _ _ _ infoFormat_chal c _ _ h.sized _ hinfo u
  have hopens : (u.status c).state = .OPEN := by
    unfold Env.status
    rw [hsu.router]
    exact h.opens
  have hread := tripcRead_open_cases hopens pre 128
    (t'.router.buf.drop (10 + tripUvarLen (t.router.heap.conn d).self.sequence))
  rw [hsu.oracle] at hfits hstuck
  unfold tripcParseChal at hread
  constructor
  · rintro ⟨wlen, t'', hsend', s', hs', -⟩
    by_contra hfit
    obtain ⟨rfl, rfl⟩ : 202 + tripUvarLen (t.router.heap.conn d).self.sequence = wlen ∧
        t' = t'' := by
      have heq := hsend.symm.trans hsend'
      simpa using heq
    have hnone := hstuck hfit
    rcases hparse : (tripcParseInfo [.o, .Q, .n, .k, .I, .I, .I, .I, .O] c 128
        (t'.router.buf.drop (10 + tripUvarLen (t.router.heap.conn d).self.sequence))).exec u with
      ⟨_ | code, v⟩
    · rw [hparse] at hread
      rw [hexec, hread] at hs'
      cases hs'
    · rw [hparse] at hnone
      cases hnone
  · intro hfit
    obtain ⟨v, hparse, -, -, hagrees⟩ := hfits hfit
    rw [hparse] at hread
    dsimp only at hread
    rw [if_neg (not_not.mpr rfl)] at hread
    rw [hread] at hexec
    refine ⟨_, t', hsend, _, hexec, ?_, ?_⟩
    · rw [tripcSetState_status]
    · rw [tripcSetState_status]
      exact hagrees

/-- **When the handshake does what it is for**: in both segments, exactly when there is
memory for the copies of nonce and key. -/
theorem tripHandshake_iff (s t : Env) (c d : Ptr) (blen : ℕ) (src : ℤ) (live : List Ptr) :
    (OpenExchange s c blen t src live → (OpenDelivered s c blen t src live ↔
        KeysFit t.oracle.alloc.tail.tail (s.router.heap.conn c).self)) ∧
      (ChalExchange t d blen s c live → (ChalDelivered t d blen s c src ↔
        KeysFit s.oracle.alloc (t.router.heap.conn d).self)) :=
  ⟨fun h => open_delivered_iff h, fun h => chal_delivered_iff h src⟩

/-- A router with an outgoing connection in `OPEN`, which has a nonce and a key. -/
def openingClient : Env :=
  ((do
    let _ ← tripNewConnection
    setConn 0 fun _ => tripcInit false 8
    let _ ← connmapAddM 0
    setConn 0 fun x =>
      { x with self := { x.self with
        nonce := some (List.replicate tripNonce 1)
        pk := some (List.replicate tripKeyPub 1) } }
    tripcStart 0
    tripcResolved 0 : TripM Unit).exec listenEnv).2

/-- A listening router whose allocations succeed or not as `alloc` says. -/
def admittingServer (alloc : Stream' Bool) : Env :=
  { listenEnv with oracle := { plainOracle with alloc := alloc } }

theorem openExchange_client {alloc : Stream' Bool} (halloc : alloc.head = true)
    (hslot : alloc.tail.head = true) :
    OpenExchange openingClient 0 1200 (admittingServer alloc) 0 [] where
  opens := by decide
  outgoing := by decide
  sized := by
    have hnonce : (openingClient.router.heap.conn 0).self.nonce =
        some (List.replicate tripNonce 1) := by decide
    have hpk : (openingClient.router.heap.conn 0).self.pk =
        some (List.replicate tripKeyPub 1) := by decide
    refine ⟨?_, ?_⟩
    · rw [hnonce]
      rintro _ ⟨⟩
      rfl
    · rw [hpk]
      rintro _ ⟨⟩
      rfl
  room := by decide
  size := by decide
  listens := rfl
  allowIn := show listenEnv.router.has _ = true by decide
  encrypted := Or.inr (show listenEnv.router.has _ = true by decide)
  fresh := rfl
  allow := rfl
  signature := Or.inr ⟨rfl, show listenEnv.router.has _ = true by decide⟩
  memory := halloc
  slot := by
    show connmapAddCode listenEnv.router.conn alloc.tail.head = 0
    rw [hslot]
    decide
  mapped := ⟨⟨[], connmapInv_init _ _⟩, fun _ h => by simp at h, rfl⟩

/-- The router of the peer when it has read the OPEN segment. -/
def challengingServer : Env :=
  ((tripSeg 0 205 ((tripcSendOpen 0 1200).exec openingClient).2.router.buf).exec
    (admittingServer (Stream'.const true))).2

theorem mapped_openingClient : Mapped openingClient.router [0] where
  map := by
    have hadded := (connmapInv_init ((1 : UInt64) <<< 19) openingClient.router.heap).add
      (show (0 : Ptr) ∉ [] by simp) true 0 0
    rcases hadded with ⟨-, -, fl, hm⟩ | ⟨hfull, -⟩ | ⟨hno, -⟩
    · exact ⟨fl, hm.congr (by decide)⟩
    · exact absurd hfull (by decide)
    · exact absurd hno (by decide)
  there := by decide
  connsrc := rfl

theorem chalExchange_server : ChalExchange challengingServer 0 1200 openingClient 0 [0] where
  sized := by
    have hnonce : (challengingServer.router.heap.conn 0).self.nonce = none := by decide
    have hpk : (challengingServer.router.heap.conn 0).self.pk = none := by decide
    refine ⟨?_, ?_⟩
    · rw [hnonce]
      rintro _ ⟨⟩
    · rw [hpk]
      rintro _ ⟨⟩
  room := by decide
  size := by decide
  known := by decide
  listens := by decide
  opens := by decide
  mapped := mapped_openingClient
  member := List.mem_singleton_self 0
  encrypted := Or.inr (by decide)
  signature := Or.inr ⟨by decide, by decide⟩

/-- The two sides agree when all allocations succeed. -/
theorem tripHandshake_iff_client :
    OpenDelivered openingClient 0 1200 (admittingServer (Stream'.const true)) 0 [] ∧
      ChalDelivered challengingServer 0 1200 openingClient 0 0 :=
  ⟨((tripHandshake_iff openingClient (admittingServer (Stream'.const true)) 0 0 1200 0 []).1
      (openExchange_client rfl rfl)).mpr (Or.inr ⟨rfl, rfl⟩),
    ((tripHandshake_iff openingClient challengingServer 0 0 1200 0 [0]).2
      chalExchange_server).mpr (Or.inr (by decide))⟩

/-- Without memory for the copies nothing comes of the OPEN segment. -/
theorem tripHandshake_unchecked :
    ¬ ((∀ (s : Env) (c : Ptr) (blen : ℕ) (t : Env) (src : ℤ) (live : List Ptr),
        OpenExchange s c blen t src live → OpenDelivered s c blen t src live) ∧
      ∀ (t : Env) (d : Ptr) (blen : ℕ) (s : Env) (c : Ptr) (live : List Ptr) (src : ℤ),
        ChalExchange t d blen s c live → ChalDelivered t d blen s c src) := by
  rintro ⟨hopen, -⟩
  obtain ⟨wlen, s', hsend, t', ht', -⟩ := hopen openingClient 0 1200
    (admittingServer fun n => decide (n < 2)) 0 [] (openExchange_client rfl rfl)
  have hstuck : ((tripSeg 0 (((tripcSendOpen 0 1200).exec openingClient).1.getD 0)
      ((tripcSendOpen 0 1200).exec openingClient).2.router.buf).exec
        (admittingServer fun n => decide (n < 2))).1 = none := by decide
  rw [hsend] at hstuck
  have hnone : (some () : Option Unit) = none := (congrArg Prod.fst ht').symm.trans hstuck
  cases hnone

end Libtrp
