import Libtrp.Conn

/-!
# Segments that come in

`_trip_segment` reads the prefix of a segment, and then an OPEN segment makes a
new connection, any other one is for the connection the map has under the
prefix's identifier.  The router decides by the control in the prefix whether a
signature is checked, the connection by its own state which parser is run.

## Main definitions

* `tripSegment`, `tripSeg` — the function, cut where its branches begin.
* `Mark.Sound` — what is handed on lies in the segment, and no difference wraps.

## Main results

* `sound_tripSegment` — what a segment adds lies in it exactly where it fits.
* `tripSegment_marks_iff` — **when every length is that of bytes of the segment.**

## References

`src/trip.c` (`_trip_segment`, `trip_seg`), `src/pack.c` (`trip_unpack`).
-/

namespace Libtrp

open Lib

/-! ### The function -/

/-- `_trip_router_reject` -/
def tripRouterReject (_ : ℤ) (_ : ℕ) : TripM Unit := return ()

/-- `_trip_router_is_reported` -/
def tripRouterIsReported (_ : ℤ) : Bool := false

/-- `_trip_router_get_conn_by_src`.  The remainder of a negative source may be
`-1`, which is no index of `connsrc`: the result is `none` then. -/
def tripRouterGetConnBySrc (r : Router) (src : ℤ) (peerid : UInt64) : Option (Option Ptr) :=
  if src.tmod 2 < 0 then none
  else
    some ((if src.tmod 2 = 0 then r.connsrc.1 else r.connsrc.2).filter fun c =>
      (r.heap.conn c).peer.id = peerid)

/-- The prefix of a segment and the length it takes, unless it is rejected. -/
def tripUnpackPrefix (len : ℕ) (buf : Buf) : Option (ℕ × TripPrefix) :=
  match tripUnpack len buf [.C, .Q, .W] with
  | (en, [.uint8 control, .uint64 id, .uint64 seq]) =>
    if en = NPOS ∨ en = 0 then none
    else some (en, ⟨control &&& tripPrefixEmask != 0, control &&& ~~~tripPrefixEmask, id, seq⟩)
  | _ => none

/-- The version and routing information behind the prefix, and the length they
take, unless they are rejected. -/
def tripUnpackRoute (len : ℕ) (buf : Buf) : Option (ℕ × TripScreen) :=
  match tripUnpack len buf [.H, .b] with
  | (endroute, [.uint16 version, .uint32 routelen, .pointer route]) =>
    if endroute = 0 ∨ endroute = NPOS then none
    else some (endroute, ⟨false, version, routelen, route, none, none, none⟩)
  | _ => none

/-- Whether a segment passes the check of its signature: there has to be one
unless there is no key and the flag allows it. -/
def tripVerified (verify : Bytes → Bytes → Bytes → Bool) (len : ℕ) (buf : Buf)
    (signpk : Option Bytes) (allowPlain : Bool) : Bool :=
  if signpk.isSome || !allowPlain then tripUnsign verify len buf signpk = 0 else true

/-- The end of the OPEN branch, for the connection that was made: `len` is the
length of the segment and `en` where the OPEN information begins. -/
def tripSegmentInfo (src : ℤ) (len : ℕ) (buf : Buf) (en : ℕ) (pre : TripPrefix) (c : Ptr) :
    TripM Unit := do
  let len ← sizeSubM len tripSign
  let rest ← sizeSubM len en
  let rest ← sizeSubM rest tripSign
  mark (.hand en rest)
  let (maclen, _) := tripUnpack rest (buf.drop en) [.o, .O]
  if maclen = 0 ∨ maclen = NPOS then tripRouterReject src 201
  else
    let en := (en + maclen) % 2 ^ 64
    let rest ← sizeSubM len en
    mark (.hand en rest)
    let code ← tripcRead c pre rest (buf.drop en)
    if code ≠ 0 then tripRouterReject src 22
    else tripcSetSend c

/-- The OPEN branch once the segment is accepted: a connection for it. -/
def tripSegmentCreate (src : ℤ) (len : ℕ) (buf : Buf) (en : ℕ) (pre : TripPrefix)
    (screen : TripScreen) : TripM Unit := do
  let c ← tripNewConnection
  match c with
  | none => tripRouterReject src 6
  | some c => do
    let maxStreams ← fetch Router.maxStreams
    setConn c fun _ => tripcInit true maxStreams
    setConn c fun x => x.setSrc src
    let code ← connmapAddM c
    if code ≠ 0 then
      tripFreeConnection c
      tripRouterReject src 50
    else
      tripcSetScreen c screen
      tripcStart c
      tripSegmentInfo src len buf en pre c

/-- The OPEN branch when there is no connection from the source yet. -/
def tripSegmentNew (src : ℤ) (len : ℕ) (buf : Buf) (en : ℕ) (pre : TripPrefix)
    (screen : TripScreen) : TripM Unit := do
  let ask ← consult Oracle.screen
  let verify ← consult Oracle.verify
  let plain ← fetch fun r => r.has triprFlagAllowPlainIsig
  let screen := ask screen
  if !screen.allow then return ()
  else if !tripVerified verify len buf screen.signpk plain then tripRouterReject src 203
  else tripSegmentCreate src len buf en pre screen

/-- The branch of `_trip_segment` for OPEN, behind the prefix. -/
def tripSegmentOpen (src : ℤ) (len : ℕ) (buf : Buf) (en : ℕ) (pre : TripPrefix) :
    TripM Unit := do
  let allowIn ← fetch fun r => r.has triprFlagAllowIn
  let plainOpen ← fetch fun r => r.has triprFlagAllowPlainOpen
  if !allowIn then tripRouterReject src 2
  else if !pre.encrypted && !plainOpen then tripRouterReject src 3
  else
    let rest ← sizeSubM len en
    mark (.hand en rest)
    match tripUnpackRoute rest (buf.drop en) with
    | none => tripRouterReject src 4
    | some (endroute, screen) =>
      if screen.version ≠ tripVersionMajor then tripRouterReject src 5
      else do
        let c ← fetch fun r => tripRouterGetConnBySrc r src pre.id
        match c with
        | none => Prog.stuck
        | some none =>
          tripSegmentNew src len buf (en + endroute) pre { screen with route := en + screen.route }
        | some (some c) => do
          let x ← getConn c
          let verify ← consult Oracle.verify
          let plain ← fetch fun r => r.has triprFlagAllowPlainIsig
          if !tripVerified verify len buf x.peer.signpk plain then tripRouterReject src 203
          else setConn c fun x => x.setSrc src

/-- The end of the branch for the other controls. -/
def tripSegmentRead (src : ℤ) (len : ℕ) (buf : Buf) (en : ℕ) (pre : TripPrefix) (c : Ptr) :
    TripM Unit := do
  let len ← sizeSubM len tripSign
  let rest ← sizeSubM len en
  mark (.hand en rest)
  let code ← tripcRead c pre rest (buf.drop en)
  if code ≠ 0 then tripRouterReject src 79
  else return ()

/-- Whether a segment for the connection `x` passes the check of its signature,
which is made for CHAL. -/
def tripChallengeVerified (verify : Bytes → Bytes → Bytes → Bool) (len : ℕ) (buf : Buf)
    (pre : TripPrefix) (x : Connection) (allowPlain : Bool) : Bool :=
  if pre.control = tripControlChal then tripVerified verify len buf x.peer.signpk allowPlain
  else true

/-- The branch of `_trip_segment` for the other controls, behind the prefix. -/
def tripSegmentComm (src : ℤ) (len : ℕ) (buf : Buf) (en : ℕ) (pre : TripPrefix) :
    TripM Unit := do
  let plainComm ← fetch fun r => r.has triprFlagAllowPlainComm
  if !pre.encrypted && !plainComm then tripRouterReject src 7
  else
    let c ← fetch fun r => connmapGet r.conn r.heap pre.id
    match c with
    | none => tripRouterReject src 88
    | some c => do
      let x ← getConn c
      let verify ← consult Oracle.verify
      let plain ← fetch fun r => r.has triprFlagAllowPlainOsig
      if !tripChallengeVerified verify len buf pre x plain then tripRouterReject src 203
      else tripSegmentRead src len buf en pre c

/-- `_trip_segment` -/
def tripSegment (src : ℤ) (len : ℕ) (buf : Buf) : TripM Unit := do
  if len < 16 then tripRouterReject src 0
  else if tripRouterIsReported src then return ()
  else
    mark (.hand 0 len)
    match tripUnpackPrefix len buf with
    | none => tripRouterReject src 1
    | some (en, pre) =>
      if pre.control ≥ tripControlMax then tripRouterReject src 12
      else if pre.control = tripControlOpen then tripSegmentOpen src len buf en pre
      else tripSegmentComm src len buf en pre

/-- `trip_seg` -/
def tripSeg (src : ℤ) (len : ℕ) (buf : Buf) : TripM Unit := do
  let state ← fetch Router.state
  if state = .LISTEN ∨ state = .CLOSE then tripSegment src len buf
  else return ()

/-! ### Lengths -/

/-- What unpacking counts is at most the length it was given. -/
theorem unpackDir_le {blen : ℕ} {buf : Buf} {d : PackDir} {len pos len' pos' : ℕ}
    {out : List UnpackOut} (hlen : len ≤ blen)
    (h : unpackDir blen buf d len pos = (some (len', pos'), out)) : len' ≤ blen := by
  have hfixed : ∀ {n : ℕ} {f : Buf → List UnpackOut},
      unpackFixed blen buf n f len pos = (some (len', pos'), out) → len' ≤ blen := by
    intro n f h
    unfold unpackFixed at h
    dsimp only at h
    split_ifs at h with hgt <;>
      simp only [Prod.mk.injEq, Option.some.injEq, reduceCtorEq, false_and] at h
    exact h.1.1 ▸ not_lt.mp hgt
  cases d
  case O =>
    simp only [unpackDir, Prod.mk.injEq, Option.some.injEq] at h
    omega
  case e | E | s | S | p | other => simp [unpackDir] at h
  case b =>
    simp only [unpackDir] at h
    split_ifs at h with h₁ h₂ h₃ <;>
      simp only [Prod.mk.injEq, Option.some.injEq, reduceCtorEq, false_and] at h
    exact h.1.1 ▸ not_lt.mp h₃
  case V | W =>
    simp only [unpackDir] at h
    split_ifs at h with h₁ h₂ <;>
      simp only [Prod.mk.injEq, Option.some.injEq, reduceCtorEq, false_and] at h
    exact h.1.1 ▸ not_lt.mp (not_or.mp h₂).2
  all_goals
    simp only [unpackDir] at h
    exact hfixed h

theorem unpackFrom_le {blen : ℕ} {buf : Buf} :
    ∀ {fmt : List PackDir} {len pos : ℕ}, len ≤ blen →
      (unpackFrom blen buf fmt len pos).1 = NPOS ∨ (unpackFrom blen buf fmt len pos).1 ≤ blen := by
  intro fmt
  induction fmt with
  | nil => intro len pos hlen; exact Or.inr hlen
  | cons d fmt ih =>
    intro len pos hlen
    unfold unpackFrom
    rcases hd : unpackDir blen buf d len pos with ⟨_ | ⟨len', pos'⟩, out⟩
    · exact Or.inl rfl
    · exact ih (unpackDir_le hlen hd)

/-- `trip_unpack` returns at most the length it was given, or `NPOS`. -/
theorem tripUnpack_le (blen : ℕ) (buf : Buf) (fmt : List PackDir) :
    (tripUnpack blen buf fmt).1 = NPOS ∨ (tripUnpack blen buf fmt).1 ≤ blen :=
  unpackFrom_le (Nat.zero_le blen)

theorem tripUnpackPrefix_le {len en : ℕ} {buf : Buf} {pre : TripPrefix}
    (h : tripUnpackPrefix len buf = some (en, pre)) : en ≤ len := by
  unfold tripUnpackPrefix at h
  have hle := tripUnpack_le len buf [.C, .Q, .W]
  split at h
  · next en' control id seq heq =>
    rw [heq] at hle
    split_ifs at h with hnpos
    simp only [Option.some.injEq, Prod.mk.injEq] at h
    omega
  · simp at h

theorem tripUnpackRoute_le {len en : ℕ} {buf : Buf} {screen : TripScreen}
    (h : tripUnpackRoute len buf = some (en, screen)) : en ≤ len := by
  unfold tripUnpackRoute at h
  have hle := tripUnpack_le len buf [.H, .b]
  split at h
  · next en' version routelen route heq =>
    rw [heq] at hle
    split_ifs at h with hnpos
    simp only [Option.some.injEq, Prod.mk.injEq] at h
    omega
  · simp at h

theorem sizeSub_of_le {a b : ℕ} (hab : b ≤ a) (ha : a ≤ NPOS) : sizeSub a b = a - b := by
  unfold sizeSub
  unfold NPOS at ha
  omega

/-! ### What the branches come to -/

/-- The two ways in which the flags shut an unencrypted segment out. -/
theorem not_encrypted_and {a b : Bool} : (!a && !b) = true ↔ ¬ (a = true ∨ b = true) := by
  cases a <;> simp

/-- The router and the oracle are the same; only marks may differ. -/
structure SameBut (s t : Env) : Prop where
  router : t.router = s.router
  oracle : t.oracle = s.oracle

theorem SameBut.refl (s : Env) : SameBut s s := ⟨rfl, rfl⟩

theorem SameBut.trans {s t u : Env} (h : SameBut s t) (h' : SameBut t u) : SameBut s u :=
  ⟨h'.router.trans h.router, h'.oracle.trans h.oracle⟩

theorem SameBut.addMark (s : Env) (m : Mark) : SameBut s (s.addMark m) := ⟨rfl, rfl⟩

/-- What an OPEN segment has passed when a connection is made for it. -/
structure OpenPasses (s : Env) (src : ℤ) (len : ℕ) (buf : Buf) (en : ℕ) (pre : TripPrefix)
    (endroute : ℕ) (screen : TripScreen) : Prop where
  allowIn : s.router.has triprFlagAllowIn = true
  encrypted : pre.encrypted = true ∨ s.router.has triprFlagAllowPlainOpen = true
  route : tripUnpackRoute (sizeSub len en) (buf.drop en) = some (endroute, screen)
  version : screen.version = tripVersionMajor
  fresh : tripRouterGetConnBySrc s.router src pre.id = some none
  allow : (s.oracle.screen { screen with route := en + screen.route }).allow = true
  verified : tripVerified s.oracle.verify len buf
    (s.oracle.screen { screen with route := en + screen.route }).signpk
    (s.router.has triprFlagAllowPlainIsig) = true

/-- **The OPEN branch** changes nothing, or the source of a connection, or goes on
to make a connection. -/
theorem tripSegmentOpen_cases (src : ℤ) (len : ℕ) (buf : Buf) (en : ℕ) (pre : TripPrefix)
    (s : Env) :
    SameBut s ((tripSegmentOpen src len buf en pre).exec s).2 ∨
      (∃ c, tripRouterGetConnBySrc s.router src pre.id = some (some c) ∧
        ((tripSegmentOpen src len buf en pre).exec s).2.router =
          s.router.setConn c fun x => x.setSrc src) ∨
      ∃ endroute screen t, OpenPasses s src len buf en pre endroute screen ∧ SameBut s t ∧
        (tripSegmentOpen src len buf en pre).exec s =
          (tripSegmentCreate src len buf (en + endroute) pre
            (s.oracle.screen { screen with route := en + screen.route })).exec t := by
  unfold tripSegmentOpen
  rw [Prog.exec_bind_of (exec_fetch _ _), Prog.exec_bind_of (exec_fetch _ _)]
  -- each check that fails leaves the router as it is
  by_cases hin : s.router.has triprFlagAllowIn = true
  swap
  · rw [if_pos (by simpa using hin)]
    exact Or.inl (.refl s)
  rw [if_neg (by simp [hin])]
  by_cases henc : pre.encrypted = true ∨ s.router.has triprFlagAllowPlainOpen = true
  swap
  · rw [if_pos (not_encrypted_and.mpr henc)]
    exact Or.inl (.refl s)
  rw [if_neg (not_encrypted_and.not.mpr (not_not.mpr henc)),
    Prog.exec_bind_of (exec_sizeSubM _ _ _), Prog.exec_bind_of (exec_mark _ _)]
  generalize ht : Env.addMark _ _ = t
  have hst : SameBut s t := by rw [← ht]; exact ⟨rfl, rfl⟩
  cases hroute : tripUnpackRoute (sizeSub len en) (buf.drop en) with
  | none => exact Or.inl hst
  | some route =>
    obtain ⟨endroute, screen⟩ := route
    dsimp only
    by_cases hversion : screen.version = tripVersionMajor
    swap
    · rw [if_pos hversion]
      exact Or.inl hst
    rw [if_neg (not_not.mpr hversion), Prog.exec_bind_of (exec_fetch _ _), hst.router]
    cases hsrc : tripRouterGetConnBySrc s.router src pre.id with
    | none => exact Or.inl hst
    | some c =>
      cases c with
      | none =>
        dsimp only
        unfold tripSegmentNew
        rw [Prog.exec_bind_of (exec_consult _ _), Prog.exec_bind_of (exec_consult _ _),
          Prog.exec_bind_of (exec_fetch _ _), hst.router, hst.oracle]
        dsimp only
        -- nobody is known at the source, so the user is asked
        by_cases hallow :
            (s.oracle.screen { screen with route := en + screen.route }).allow = true
        swap
        · rw [if_pos (by simpa using hallow)]
          exact Or.inl hst
        rw [if_neg (by simp [hallow])]
        by_cases hver : tripVerified s.oracle.verify len buf
            (s.oracle.screen { screen with route := en + screen.route }).signpk
            (s.router.has triprFlagAllowPlainIsig) = true
        swap
        · rw [if_pos (by simpa using hver)]
          exact Or.inl hst
        rw [if_neg (by simp [hver])]
        exact Or.inr (Or.inr ⟨endroute, screen, t,
          ⟨hin, henc, hroute, hversion, hsrc, hallow, hver⟩, hst, rfl⟩)
      | some c =>
        dsimp only
        -- a connection that is known there is only told where the segment came from
        rw [Prog.exec_bind_of (exec_getConn _ _), Prog.exec_bind_of (exec_consult _ _),
          Prog.exec_bind_of (exec_fetch _ _), Prog.exec_ite]
        split
        · exact Or.inl hst
        · refine Or.inr (Or.inl ⟨c, rfl, ?_⟩)
          rw [exec_setConn, ← hst.router]
          rfl

/-- An OPEN segment that has passed it all goes on to make a connection. -/
theorem OpenPasses.exec_eq {s : Env} {src : ℤ} {len : ℕ} {buf : Buf} {en : ℕ} {pre : TripPrefix}
    {endroute : ℕ} {screen : TripScreen} (h : OpenPasses s src len buf en pre endroute screen) :
    ∃ t, SameBut s t ∧ (tripSegmentOpen src len buf en pre).exec s =
      (tripSegmentCreate src len buf (en + endroute) pre
        (s.oracle.screen { screen with route := en + screen.route })).exec t := by
  unfold tripSegmentOpen
  rw [Prog.exec_bind_of (exec_fetch _ _), Prog.exec_bind_of (exec_fetch _ _),
    if_neg (by simp [h.allowIn]), if_neg (not_encrypted_and.not.mpr (not_not.mpr h.encrypted)),
    Prog.exec_bind_of (exec_sizeSubM _ _ _), Prog.exec_bind_of (exec_mark _ _), h.route]
  generalize ht : Env.addMark _ _ = t
  have hst : SameBut s t := by rw [← ht]; exact ⟨rfl, rfl⟩
  dsimp only
  rw [if_neg (not_not.mpr h.version), Prog.exec_bind_of (exec_fetch _ _), hst.router, h.fresh]
  dsimp only
  unfold tripSegmentNew
  rw [Prog.exec_bind_of (exec_consult _ _), Prog.exec_bind_of (exec_consult _ _),
    Prog.exec_bind_of (exec_fetch _ _), hst.router, hst.oracle]
  dsimp only
  rw [if_neg (by simp [h.allow]), if_neg (by simp [h.verified])]
  exact ⟨t, hst, rfl⟩

/-- What a segment of another control has passed when its connection reads it. -/
structure CommPasses (s : Env) (len : ℕ) (buf : Buf) (pre : TripPrefix) (c : Ptr) : Prop where
  encrypted : pre.encrypted = true ∨ s.router.has triprFlagAllowPlainComm = true
  found : connmapGet s.router.conn s.router.heap pre.id = some c
  verified : tripChallengeVerified s.oracle.verify len buf pre (s.router.heap.conn c)
    (s.router.has triprFlagAllowPlainOsig) = true

/-- **The branch for the other controls** changes nothing, or the connection of the
identifier reads the segment. -/
theorem tripSegmentComm_cases (src : ℤ) (len : ℕ) (buf : Buf) (en : ℕ) (pre : TripPrefix)
    (s : Env) :
    SameBut s ((tripSegmentComm src len buf en pre).exec s).2 ∧
        (∀ c, ¬ CommPasses s len buf pre c) ∨
      ∃ c, CommPasses s len buf pre c ∧ (tripSegmentComm src len buf en pre).exec s =
        (tripSegmentRead src len buf en pre c).exec s := by
  unfold tripSegmentComm
  rw [Prog.exec_bind_of (exec_fetch _ _)]
  by_cases henc : pre.encrypted = true ∨ s.router.has triprFlagAllowPlainComm = true
  swap
  · rw [if_pos (not_encrypted_and.mpr henc)]
    exact Or.inl ⟨.refl s, fun c h => henc h.encrypted⟩
  rw [if_neg (not_encrypted_and.not.mpr (not_not.mpr henc)), Prog.exec_bind_of (exec_fetch _ _)]
  cases hget : connmapGet s.router.conn s.router.heap pre.id with
  | none => exact Or.inl ⟨.refl s, fun c h => by simp [h.found] at hget⟩
  | some c =>
    dsimp only
    rw [Prog.exec_bind_of (exec_getConn _ _), Prog.exec_bind_of (exec_consult _ _),
      Prog.exec_bind_of (exec_fetch _ _)]
    by_cases hver : tripChallengeVerified s.oracle.verify len buf pre (s.router.heap.conn c)
        (s.router.has triprFlagAllowPlainOsig) = true
    · rw [if_neg (by simp [hver])]
      exact Or.inr ⟨c, ⟨henc, hget, hver⟩, rfl⟩
    · rw [if_pos (by simpa using hver)]
      refine Or.inl ⟨.refl s, fun d h => hver ?_⟩
      have hcd : c = d := Option.some.inj (hget.symm.trans h.found)
      exact hcd ▸ h.verified

/-- What every segment has passed when it comes to one of the branches. -/
structure SegmentPasses (len : ℕ) (buf : Buf) (en : ℕ) (pre : TripPrefix) : Prop where
  min : 16 ≤ len
  unpacked : tripUnpackPrefix len buf = some (en, pre)
  control : pre.control < tripControlMax

theorem SegmentPasses.unique {len : ℕ} {buf : Buf} {en en' : ℕ} {pre pre' : TripPrefix}
    (h : SegmentPasses len buf en pre) (h' : SegmentPasses len buf en' pre') :
    en = en' ∧ pre = pre' := by
  have heq := h.unpacked.symm.trans h'.unpacked
  simpa using heq

/-- **`_trip_segment`** changes nothing, or comes to one of its two branches. -/
theorem tripSegment_cases (src : ℤ) (len : ℕ) (buf : Buf) (s : Env) :
    SameBut s ((tripSegment src len buf).exec s).2 ∧ (∀ en pre, ¬ SegmentPasses len buf en pre) ∨
      ∃ en pre t, SegmentPasses len buf en pre ∧ SameBut s t ∧
        (tripSegment src len buf).exec s =
          if pre.control = tripControlOpen then (tripSegmentOpen src len buf en pre).exec t
          else (tripSegmentComm src len buf en pre).exec t := by
  unfold tripSegment
  by_cases h16 : len < 16
  · rw [if_pos h16]
    exact Or.inl ⟨.refl s, fun en pre h => absurd h.min (not_le.mpr h16)⟩
  have hreported : ¬ tripRouterIsReported src = true := by simp [tripRouterIsReported]
  rw [if_neg h16, if_neg hreported, Prog.exec_bind_of (exec_mark _ _)]
  cases hpre : tripUnpackPrefix len buf with
  | none => exact Or.inl ⟨.addMark _ _, fun en pre h => by simp [h.unpacked] at hpre⟩
  | some p =>
    obtain ⟨en, pre⟩ := p
    dsimp only
    by_cases hmax : pre.control ≥ tripControlMax
    · rw [if_pos hmax]
      refine Or.inl ⟨.addMark _ _, fun en' pre' h => ?_⟩
      have heq := hpre.symm.trans h.unpacked
      simp only [Option.some.injEq, Prod.mk.injEq] at heq
      exact absurd h.control (UInt8.not_lt.mpr (heq.2 ▸ hmax))
    · rw [if_neg hmax, Prog.exec_ite]
      exact Or.inr ⟨en, pre, _, ⟨not_lt.mp h16, hpre, UInt8.not_le.mp hmax⟩, .addMark _ _, rfl⟩

/-- The router when there is memory for a connection from `src`. -/
def tripSegmentFresh (r : Router) (src : ℤ) : Router :=
  (r.allocConn.setConn r.heap.brk fun _ => tripcInit true r.maxStreams).setConn r.heap.brk
    fun x => x.setSrc src

/-- A connection from `src` is put into the map before anything else is done with it. -/
theorem exec_tripSegmentMade {α : Type} (src : ℤ) (m : TripM α) (rest : Ptr → Errno → TripM α)
    (s : Env) :
    Prog.exec (do
      let c ← tripNewConnection
      match c with
      | none => m
      | some c => do
        let maxStreams ← fetch Router.maxStreams
        setConn c fun _ => tripcInit true maxStreams
        setConn c fun x => x.setSrc src
        let code ← connmapAddM c
        rest c code) s =
      if s.oracle.alloc.head then
        let r := connmapAdd s.router.conn (tripSegmentFresh s.router src).heap s.router.heap.brk
          s.oracle.alloc.tail.head s.oracle.random.head s.oracle.random.tail.head
        (rest s.router.heap.brk r.1).exec (s.popAlloc.popAlloc.popRandom.popRandom.setRouter
          ((tripSegmentFresh s.router src).setMap r.2))
      else m.exec s.popAlloc := by
  rw [exec_tripNewConnection_bind]
  cases s.oracle.alloc.head with
  | false => rfl
  | true =>
    rw [if_pos rfl, if_pos rfl]
    dsimp only
    rw [Prog.exec_bind_of (exec_fetch _ _), Prog.exec_bind_of (exec_setConn _ _ _),
      Prog.exec_bind_of (exec_setConn _ _ _), Prog.exec_bind_of (exec_connmapAddM _ _)]
    rfl

/-- Reading is the last that is done with a segment. -/
theorem tripSegmentRead_cases (src : ℤ) (len : ℕ) (buf : Buf) (en : ℕ) (pre : TripPrefix)
    (c : Ptr) (s : Env) :
    ∃ t, SameBut s t ∧ (tripSegmentRead src len buf en pre c).exec s =
      match (tripcRead c pre (sizeSub (sizeSub len tripSign) en) (buf.drop en)).exec t with
      | (some _, u) => (some (), u)
      | (none, u) => (none, u) := by
  unfold tripSegmentRead
  rw [Prog.exec_bind_of (exec_sizeSubM _ _ _), Prog.exec_bind_of (exec_sizeSubM _ _ _),
    Prog.exec_bind_of (exec_mark _ _), Prog.exec_bind]
  generalize ht : Env.addMark _ _ = t
  refine ⟨t, by rw [← ht]; exact ⟨rfl, rfl⟩, ?_⟩
  rcases (tripcRead c pre (sizeSub (sizeSub len tripSign) en) (buf.drop en)).exec t with
    ⟨_ | code, u⟩
  · rfl
  · dsimp only
    rw [Prog.exec_ite]
    split <;> rfl

/-- What it leaves. -/
theorem exec_tripSegmentRead (src : ℤ) (len : ℕ) (buf : Buf) (en : ℕ) (pre : TripPrefix)
    (c : Ptr) (s : Env) :
    ∃ t, SameBut s t ∧ ((tripSegmentRead src len buf en pre c).exec s).2 =
      ((tripcRead c pre (sizeSub (sizeSub len tripSign) en) (buf.drop en)).exec t).2 := by
  obtain ⟨t, hst, hread⟩ := tripSegmentRead_cases src len buf en pre c s
  refine ⟨t, hst, ?_⟩
  rw [hread]
  rcases (tripcRead c pre (sizeSub (sizeSub len tripSign) en) (buf.drop en)).exec t with
    ⟨_ | code, u⟩ <;> rfl

/-- The end of the OPEN branch is steps of the connection that was made. -/
theorem acts_tripSegmentInfo (src : ℤ) (len : ℕ) (buf : Buf) (en : ℕ) (pre : TripPrefix)
    (c : Ptr) : Prog.Does (fun s t => Acts c s.router t.router)
      (tripSegmentInfo src len buf en pre c) := by
  have htrans : ∀ ⦃s t u : Env⦄, Acts c s.router t.router → Acts c t.router u.router →
      Acts c s.router u.router := fun _ _ _ => Acts.trans
  have hbind := fun {α β : Type} {m : TripM α} {f : α → TripM β} =>
    Prog.Does.bind (m := m) (f := f) htrans
  have hpure : Prog.Does (fun s t => Acts c s.router t.router) (pure () : TripM Unit) :=
    fun _ => .refl
  unfold tripSegmentInfo
  refine hbind (fun _ => .refl) fun _ => hbind (fun _ => .refl) fun _ =>
    hbind (fun _ => .refl) fun _ => hbind (fun _ => .refl) fun _ => ?_
  dsimp only
  refine Prog.Does.ite hpure (hbind (fun _ => .refl) fun _ => hbind (fun _ => .refl) fun _ => ?_)
  refine hbind (fun s => (ActsOn.tripcRead _ _ _ s).1) fun code => Prog.Does.ite hpure ?_
  exact fun s => (RunsOn.tripcSetSend.acts s).1

/-- **Making a connection**: there is no memory, or no room in the map and it is
given back, or it is in the map and goes on with steps of its own. -/
theorem tripSegmentCreate_cases (src : ℤ) (len : ℕ) (buf : Buf) (en : ℕ) (pre : TripPrefix)
    (screen : TripScreen) (s : Env) :
    s.oracle.alloc.head = false ∧
        ((tripSegmentCreate src len buf en pre screen).exec s).2.router = s.router ∨
      s.oracle.alloc.head = true ∧ ∃ r₁ r₂ code mh,
        connmapAdd s.router.conn (tripSegmentFresh s.router src).heap s.router.heap.brk
          s.oracle.alloc.tail.head r₁ r₂ = (code, mh) ∧
        (code ≠ 0 ∧ ((tripSegmentCreate src len buf en pre screen).exec s).2.router =
            ((tripSegmentFresh s.router src).setMap mh).freeConn s.router.heap.brk ∨
          code = 0 ∧ Acts s.router.heap.brk ((tripSegmentFresh s.router src).setMap mh)
            ((tripSegmentCreate src len buf en pre screen).exec s).2.router) := by
  unfold tripSegmentCreate
  rw [exec_tripSegmentMade]
  cases s.oracle.alloc.head with
  | false => exact Or.inl ⟨rfl, rfl⟩
  | true =>
    rw [if_pos rfl]
    rcases hadd : connmapAdd s.router.conn (tripSegmentFresh s.router src).heap
        s.router.heap.brk s.oracle.alloc.tail.head s.oracle.random.head
        s.oracle.random.tail.head with ⟨code, mh⟩
    refine Or.inr ⟨rfl, _, _, code, mh, hadd, ?_⟩
    dsimp only
    by_cases hcode : code = 0
    · refine Or.inr ⟨hcode, ?_⟩
      rw [if_neg (not_not.mpr hcode)]
      generalize hu : Env.setRouter _ _ = u
      obtain ⟨_, v, hv, hscreen⟩ := (RunsOn.tripcSetScreen (c := s.router.heap.brk)
        screen).exec_bind (fun _ => do
          tripcStart s.router.heap.brk
          tripSegmentInfo src len buf en pre s.router.heap.brk) u
      obtain ⟨_, w, hw, hstart⟩ := (RunsOn.tripcStart (c := s.router.heap.brk)).exec_bind (fun _ =>
        tripSegmentInfo src len buf en pre s.router.heap.brk) v
      have hacts := (hscreen.1.trans hstart.1).trans (acts_tripSegmentInfo src len buf en pre _ w)
      rw [← hu] at hacts
      rw [hv, hw]
      exact hacts
    · refine Or.inl ⟨hcode, ?_⟩
      rw [if_pos hcode]
      rfl

/-! ### What is handed on -/

/-- A part that is handed on lies in the segment, and a difference does not wrap. -/
def Mark.Sound (len : ℕ) : Mark → Prop
  | .hand off n => off ≤ len ∧ n ≤ len - off
  | .sub a b => b ≤ a

instance (len : ℕ) : (m : Mark) → Decidable (m.Sound len)
  | .hand _ _ => inferInstanceAs (Decidable (_ ∧ _))
  | .sub _ _ => inferInstanceAs (Decidable (_ ≤ _))

/-- A program that writes no marks down. -/
def Unmarked {α : Type} (m : TripM α) : Prop := Prog.Does (fun s t => t.marks = s.marks) m

namespace Unmarked

variable {α β : Type}

theorem of_acts {c : Ptr} {m : TripM α} (hm : ActsOn c m) : Unmarked m := fun s => (hm s).2

theorem pure (a : α) : Unmarked (Pure.pure a) := fun _ => rfl

theorem bind {m : TripM α} {f : α → TripM β} (hm : Unmarked m) (hf : ∀ a, Unmarked (f a)) :
    Unmarked (m >>= f) := Prog.Does.bind (fun _ _ _ h h' => h'.trans h) hm hf

end Unmarked

/-- The marks of `tripSegmentRead`. -/
def readMarks (len en : ℕ) : List Mark :=
  [.sub len tripSign, .sub (sizeSub len tripSign) en,
    .hand en (sizeSub (sizeSub len tripSign) en)]

theorem marks_tripSegmentRead (src : ℤ) (len : ℕ) (buf : Buf) (en : ℕ) (pre : TripPrefix)
    (c : Ptr) (s : Env) :
    ((tripSegmentRead src len buf en pre c).exec s).2.marks = s.marks ++ readMarks len en := by
  have hrest : Unmarked (do
      let code ← tripcRead c pre (sizeSub (sizeSub len tripSign) en) (buf.drop en)
      if code ≠ 0 then tripRouterReject src 79 else return ()) := by
    refine .bind (.of_acts (ActsOn.tripcRead _ _ _)) fun code => ?_
    split <;> exact .pure ()
  unfold tripSegmentRead
  simp only [Prog.exec_bind (sizeSubM _ _), Prog.exec_bind (mark _), exec_sizeSubM, exec_mark]
  rw [hrest]
  simp [readMarks]

/-- The marks of `tripSegmentInfo`. -/
def infoMarks (len : ℕ) (buf : Buf) (en : ℕ) : List Mark :=
  let len' := sizeSub len tripSign
  let rest := sizeSub (sizeSub len' en) tripSign
  let maclen := (tripUnpack rest (buf.drop en) [.o, .O]).1
  let en' := (en + maclen) % 2 ^ 64
  [.sub len tripSign, .sub len' en, .sub (sizeSub len' en) tripSign, .hand en rest] ++
    if maclen = 0 ∨ maclen = NPOS then [] else [.sub len' en', .hand en' (sizeSub len' en')]

theorem marks_tripSegmentInfo (src : ℤ) (len : ℕ) (buf : Buf) (en : ℕ) (pre : TripPrefix)
    (c : Ptr) (s : Env) :
    ((tripSegmentInfo src len buf en pre c).exec s).2.marks = s.marks ++ infoMarks len buf en := by
  have hrest : ∀ (rest en : ℕ), Unmarked (do
      let code ← tripcRead c pre rest (buf.drop en)
      if code ≠ 0 then tripRouterReject src 22 else tripcSetSend c) := by
    intro rest en
    refine .bind (.of_acts (ActsOn.tripcRead _ _ _)) fun code => ?_
    split
    · exact .pure ()
    · exact .of_acts RunsOn.tripcSetSend.acts
  unfold tripSegmentInfo infoMarks
  simp only [Prog.exec_bind (sizeSubM _ _), Prog.exec_bind (mark _), exec_sizeSubM, exec_mark]
  split
  · simp [tripRouterReject]
  · simp only [Prog.exec_bind (sizeSubM _ _), Prog.exec_bind (mark _), exec_sizeSubM, exec_mark]
    rw [hrest]
    simp

/-- The code of `connmap_add`. -/
def connmapAddCode (m : Connmap) (alloc : Bool) : Errno :=
  if connmapHasFree m then 0 else (connmapGrow m alloc).1

theorem connmapAdd_code (m : Connmap) (h : ConnHeap) (c : Ptr) (alloc : Bool) (r₁ r₂ : UInt32) :
    (connmapAdd m h c alloc r₁ r₂).1 = connmapAddCode m alloc := by
  unfold connmapAdd connmapAddCode
  by_cases hfree : connmapHasFree m = true
  · simp only [hfree, if_true]
    split
    · next h0 => exact absurd rfl h0
    · split <;> rfl
  · simp only [if_neg hfree]
    split
    · rfl
    · next h0 =>
      rw [not_not] at h0
      split <;> exact h0.symm

theorem marks_tripSegmentCreate (src : ℤ) (len : ℕ) (buf : Buf) (en : ℕ) (pre : TripPrefix)
    (screen : TripScreen) (s : Env) :
    ((tripSegmentCreate src len buf en pre screen).exec s).2.marks =
      s.marks ++ if s.oracle.alloc.head = true ∧
        connmapAddCode s.router.conn s.oracle.alloc.tail.head = 0 then infoMarks len buf en
        else [] := by
  unfold tripSegmentCreate
  rw [exec_tripSegmentMade]
  cases s.oracle.alloc.head with
  | false => simp [tripRouterReject]
  | true =>
    rw [if_pos rfl]
    dsimp only
    rw [connmapAdd_code]
    generalize hu : Env.setRouter _ _ = u
    have hmarks' : u.marks = s.marks := by rw [← hu]; rfl
    by_cases hcode : connmapAddCode s.router.conn s.oracle.alloc.tail.head = 0
    · rw [if_neg (not_not.mpr hcode), if_pos ⟨rfl, hcode⟩]
      obtain ⟨_, v, hv, hscreen⟩ := (RunsOn.tripcSetScreen screen).exec_bind (fun _ => do
        tripcStart s.router.heap.brk
        tripSegmentInfo src len buf en pre s.router.heap.brk) u
      obtain ⟨_, w, hw, hstart⟩ := RunsOn.tripcStart.exec_bind (fun _ =>
        tripSegmentInfo src len buf en pre s.router.heap.brk) v
      rw [hv, hw, marks_tripSegmentInfo, hstart.2, hscreen.2, hmarks']
    · rw [if_pos hcode, if_neg fun h => hcode h.2, List.append_nil]
      exact hmarks'

/-- The user lets the OPEN segment in, its signature passes, and there is memory
and a free slot for the connection. -/
def OpenAccepted (s : Env) (len : ℕ) (buf : Buf) (screen : TripScreen) : Prop :=
  (s.oracle.screen screen).allow = true ∧
    tripVerified s.oracle.verify len buf (s.oracle.screen screen).signpk
      (s.router.has triprFlagAllowPlainIsig) = true ∧
    s.oracle.alloc.head = true ∧ connmapAddCode s.router.conn s.oracle.alloc.tail.head = 0

instance (s : Env) (len : ℕ) (buf : Buf) (screen : TripScreen) :
    Decidable (OpenAccepted s len buf screen) := inferInstanceAs (Decidable (_ ∧ _))

theorem marks_tripSegmentNew (src : ℤ) (len : ℕ) (buf : Buf) (en : ℕ) (pre : TripPrefix)
    (screen : TripScreen) (s : Env) :
    ((tripSegmentNew src len buf en pre screen).exec s).2.marks =
      s.marks ++ if OpenAccepted s len buf screen then infoMarks len buf en else [] := by
  unfold tripSegmentNew
  rw [Prog.exec_bind_of (exec_consult _ _), Prog.exec_bind_of (exec_consult _ _),
    Prog.exec_bind_of (exec_fetch _ _)]
  dsimp only
  by_cases hallow : (s.oracle.screen screen).allow = true
  · rw [if_neg (by simp [hallow])]
    by_cases hverified : tripVerified s.oracle.verify len buf (s.oracle.screen screen).signpk
        (s.router.has triprFlagAllowPlainIsig) = true
    · rw [if_neg (by simp [hverified]), marks_tripSegmentCreate]
      simp only [OpenAccepted, hallow, hverified, true_and]
    · have hnot : ¬ OpenAccepted s len buf screen := fun h => hverified h.2.1
      rw [if_pos (by simpa using hverified), if_neg hnot, List.append_nil]
      rfl
  · have hnot : ¬ OpenAccepted s len buf screen := fun h => hallow h.1
    rw [if_pos (by simpa using hallow), if_neg hnot, List.append_nil]
    rfl

/-! ### Which lengths are sound -/

theorem sound_readMarks {len en : ℕ} (hlen : len ≤ NPOS) :
    (∀ m ∈ readMarks len en, m.Sound len) ↔ en + tripSign ≤ len := by
  simp only [readMarks, List.forall_mem_cons, Mark.Sound, List.not_mem_nil, false_imp_iff,
    implies_true, and_true]
  constructor
  · rintro ⟨h64, hen, -⟩
    rw [sizeSub_of_le h64 hlen] at hen
    omega
  · intro h
    have h64 : tripSign ≤ len := by omega
    rw [sizeSub_of_le h64 hlen, sizeSub_of_le (by omega) (by omega)]
    omega

theorem sound_infoMarks {len en : ℕ} (hlen : len ≤ NPOS) (buf : Buf) :
    (∀ m ∈ infoMarks len buf en, m.Sound len) ↔ en + 2 * tripSign ≤ len := by
  constructor
  · intro h
    have h64 : tripSign ≤ len := h (.sub len tripSign) (by simp [infoMarks])
    have hen := h (.sub (sizeSub len tripSign) en) (by simp [infoMarks])
    have hinfo := h (.sub (sizeSub (sizeSub len tripSign) en) tripSign) (by simp [infoMarks])
    simp only [Mark.Sound] at hen hinfo
    rw [sizeSub_of_le h64 hlen] at hen hinfo
    rw [sizeSub_of_le hen (by omega)] at hinfo
    omega
  · intro h
    have h64 : sizeSub len tripSign = len - tripSign := sizeSub_of_le (by omega) hlen
    have hen : sizeSub (len - tripSign) en = len - tripSign - en :=
      sizeSub_of_le (by omega) (by omega)
    have hrest : sizeSub (len - tripSign - en) tripSign = len - tripSign - en - tripSign :=
      sizeSub_of_le (by omega) (by omega)
    have hmac := tripUnpack_le (len - tripSign - en - tripSign) (buf.drop en) [.o, .O]
    simp only [infoMarks, h64, hen, hrest]
    generalize (tripUnpack (len - tripSign - en - tripSign) (buf.drop en) [.o, .O]).1 = maclen
      at hmac
    rw [List.forall_mem_append]
    constructor
    · simp only [List.forall_mem_cons, Mark.Sound, List.not_mem_nil, false_imp_iff,
        implies_true, and_true]
      omega
    · split_ifs with hstop
      · simp
      · have hwrap : (en + maclen) % 2 ^ 64 = en + maclen := by
          unfold NPOS at hlen
          omega
        rw [hwrap, sizeSub_of_le (by omega) (by omega)]
        simp only [List.forall_mem_cons, Mark.Sound, List.not_mem_nil, false_imp_iff,
          implies_true, and_true]
        omega

/-- The OPEN branch makes a connection, whose information begins at `en'`. -/
def OpenReaches (s : Env) (src : ℤ) (len : ℕ) (buf : Buf) (en : ℕ) (pre : TripPrefix)
    (en' : ℕ) : Prop :=
  s.router.has triprFlagAllowIn = true ∧
    (pre.encrypted = true ∨ s.router.has triprFlagAllowPlainOpen = true) ∧
      ∃ endroute screen, tripUnpackRoute (len - en) (buf.drop en) = some (endroute, screen) ∧
        screen.version = tripVersionMajor ∧
          tripRouterGetConnBySrc s.router src pre.id = some none ∧
            OpenAccepted s len buf { screen with route := en + screen.route } ∧ en' = en + endroute

theorem sound_tripSegmentOpen {src : ℤ} {len : ℕ} {buf : Buf} {en : ℕ} {pre : TripPrefix}
    {s : Env} (hlen : len ≤ NPOS) (hen : en ≤ len) (hs : ∀ m ∈ s.marks, m.Sound len) :
    (∀ m ∈ ((tripSegmentOpen src len buf en pre).exec s).2.marks, m.Sound len) ↔
      ∀ en', OpenReaches s src len buf en pre en' → en' + 2 * tripSign ≤ len := by
  unfold tripSegmentOpen
  rw [Prog.exec_bind_of (exec_fetch _ _), Prog.exec_bind_of (exec_fetch _ _)]
  by_cases hin : s.router.has triprFlagAllowIn = true
  swap
  · rw [if_pos (by simpa using hin)]
    exact iff_of_true hs fun en' h => absurd h.1 hin
  rw [if_neg (by simp [hin])]
  by_cases henc : pre.encrypted = true ∨ s.router.has triprFlagAllowPlainOpen = true
  swap
  · rw [if_pos (not_encrypted_and.mpr henc)]
    exact iff_of_true hs fun en' h => absurd h.2.1 henc
  rw [if_neg (not_encrypted_and.not.mpr (not_not.mpr henc)),
    Prog.exec_bind_of (exec_sizeSubM _ _ _), Prog.exec_bind_of (exec_mark _ _),
    sizeSub_of_le hen hlen]
  generalize ht : Env.addMark _ _ = t
  have hrouter : t.router = s.router := by rw [← ht]; rfl
  have horacle : t.oracle = s.oracle := by rw [← ht]; rfl
  have hmarks : ∀ m ∈ t.marks, m.Sound len := by
    rw [← ht]
    simp only [Env.marks_addMark, List.mem_append, List.mem_singleton]
    rintro m ((hm | rfl) | rfl)
    · exact hs m hm
    · exact hen
    · exact ⟨hen, le_refl _⟩
  cases hroute : tripUnpackRoute (len - en) (buf.drop en) with
  | none =>
    refine iff_of_true hmarks ?_
    rintro en' ⟨-, -, endroute, screen, hsome, -⟩
    rw [hroute] at hsome
    cases hsome
  | some route =>
    obtain ⟨endroute, screen⟩ := route
    -- behind the route it is decided by the checks that are left
    have honly : ∀ en', OpenReaches s src len buf en pre en' ↔
        screen.version = tripVersionMajor ∧
          tripRouterGetConnBySrc s.router src pre.id = some none ∧
            OpenAccepted s len buf { screen with route := en + screen.route } ∧
              en' = en + endroute := by
      intro en'
      simp only [OpenReaches, hin, henc, hroute, true_and, Option.some.injEq, Prod.mk.injEq]
      constructor
      · rintro ⟨_, _, ⟨rfl, rfl⟩, h⟩
        exact h
      · exact fun h => ⟨endroute, screen, ⟨rfl, rfl⟩, h⟩
    simp only [honly]
    by_cases hversion : screen.version = tripVersionMajor
    swap
    · rw [if_pos hversion]
      exact iff_of_true hmarks fun en' h => absurd h.1 hversion
    rw [if_neg (not_not.mpr hversion), Prog.exec_bind_of (exec_fetch _ _), hrouter]
    cases hsrc : tripRouterGetConnBySrc s.router src pre.id with
    | none => exact iff_of_true hmarks fun en' h => by cases h.2.1
    | some c =>
      cases c with
      | none =>
        dsimp only
        rw [marks_tripSegmentNew]
        have hacc : OpenAccepted t len buf { screen with route := en + screen.route } ↔
            OpenAccepted s len buf { screen with route := en + screen.route } := by
          simp only [OpenAccepted, hrouter, horacle]
        by_cases h : OpenAccepted s len buf { screen with route := en + screen.route }
        · rw [if_pos (hacc.mpr h), List.forall_mem_append, sound_infoMarks hlen]
          constructor
          · rintro ⟨-, hlen'⟩ en' ⟨-, -, -, rfl⟩
            exact hlen'
          · exact fun hlen' => ⟨hmarks, hlen' _ ⟨hversion, rfl, h, rfl⟩⟩
        · rw [if_neg (hacc.not.mpr h), List.append_nil]
          exact iff_of_true hmarks fun en' h' => absurd h'.2.2.1 h
      | some c =>
        dsimp only
        rw [Prog.exec_bind_of (exec_getConn _ _), Prog.exec_bind_of (exec_consult _ _),
          Prog.exec_bind_of (exec_fetch _ _)]
        -- a connection that is known is handed nothing
        refine iff_of_true ?_ fun en' h => by cases h.2.1
        rw [Prog.exec_ite]
        split <;> exact hmarks

/-- The branch for the other controls hands the segment to its connection. -/
def CommReaches (s : Env) (len : ℕ) (buf : Buf) (pre : TripPrefix) : Prop :=
  (pre.encrypted = true ∨ s.router.has triprFlagAllowPlainComm = true) ∧
    ∃ c, connmapGet s.router.conn s.router.heap pre.id = some c ∧
      tripChallengeVerified s.oracle.verify len buf pre (s.router.heap.conn c)
        (s.router.has triprFlagAllowPlainOsig) = true

theorem sound_tripSegmentComm {src : ℤ} {len : ℕ} {buf : Buf} {en : ℕ} {pre : TripPrefix}
    {s : Env} (hlen : len ≤ NPOS) (hs : ∀ m ∈ s.marks, m.Sound len) :
    (∀ m ∈ ((tripSegmentComm src len buf en pre).exec s).2.marks, m.Sound len) ↔
      (CommReaches s len buf pre → en + tripSign ≤ len) := by
  unfold tripSegmentComm
  rw [Prog.exec_bind_of (exec_fetch _ _)]
  by_cases henc : pre.encrypted = true ∨ s.router.has triprFlagAllowPlainComm = true
  swap
  · rw [if_pos (not_encrypted_and.mpr henc)]
    exact iff_of_true hs fun h => absurd h.1 henc
  rw [if_neg (not_encrypted_and.not.mpr (not_not.mpr henc)), Prog.exec_bind_of (exec_fetch _ _)]
  cases hget : connmapGet s.router.conn s.router.heap pre.id with
  | none =>
    refine iff_of_true hs ?_
    rintro ⟨-, c, hc, -⟩
    rw [hget] at hc
    cases hc
  | some c =>
    dsimp only
    rw [Prog.exec_bind_of (exec_getConn _ _), Prog.exec_bind_of (exec_consult _ _),
      Prog.exec_bind_of (exec_fetch _ _)]
    -- only a challenge is checked before it is handed on
    by_cases hchal : tripChallengeVerified s.oracle.verify len buf pre (s.router.heap.conn c)
        (s.router.has triprFlagAllowPlainOsig) = true
    · have hreach : CommReaches s len buf pre := ⟨henc, c, hget, hchal⟩
      rw [if_neg (by simp [hchal]), marks_tripSegmentRead, List.forall_mem_append,
        sound_readMarks hlen, forall_prop_of_true hreach]
      exact and_iff_right hs
    · rw [if_pos (by simpa using hchal)]
      refine iff_of_true hs ?_
      rintro ⟨-, d, hd, hver⟩
      rw [hget, Option.some.injEq] at hd
      exact absurd (hd ▸ hver) hchal

/-- The segment is long enough for the signatures that are taken off its end: one
where a connection reads it, two where it makes a connection. -/
def SegmentFits (s : Env) (src : ℤ) (len : ℕ) (buf : Buf) : Prop :=
  ∀ en pre, 16 ≤ len → tripUnpackPrefix len buf = some (en, pre) → pre.control < tripControlMax →
    (pre.control = tripControlOpen →
      ∀ en', OpenReaches s src len buf en pre en' → en' + 2 * tripSign ≤ len) ∧
    (pre.control ≠ tripControlOpen → CommReaches s len buf pre → en + tripSign ≤ len)

theorem sound_tripSegment {src : ℤ} {len : ℕ} {buf : Buf} {s : Env} (hlen : len ≤ NPOS)
    (hs : ∀ m ∈ s.marks, m.Sound len) :
    (∀ m ∈ ((tripSegment src len buf).exec s).2.marks, m.Sound len) ↔
      SegmentFits s src len buf := by
  unfold tripSegment
  by_cases h16 : len < 16
  · rw [if_pos h16]
    exact iff_of_true hs fun en pre hge => absurd hge (not_le.mpr h16)
  have hreported : ¬ tripRouterIsReported src = true := by simp [tripRouterIsReported]
  rw [if_neg h16, if_neg hreported, Prog.exec_bind_of (exec_mark _ _)]
  -- the prefix is read out of the whole segment
  generalize ht : Env.addMark _ _ = t
  obtain ⟨hrouter, horacle⟩ : t.router = s.router ∧ t.oracle = s.oracle := by
    rw [← ht]
    exact ⟨rfl, rfl⟩
  have hmarks : ∀ m ∈ t.marks, m.Sound len := by
    rw [← ht, Env.marks_addMark]
    refine List.forall_mem_append.mpr ⟨hs, fun m hm => ?_⟩
    rw [List.mem_singleton.mp hm]
    exact ⟨Nat.zero_le len, le_rfl⟩
  cases hpre : tripUnpackPrefix len buf with
  | none =>
    refine iff_of_true hmarks fun en pre _ hsome => ?_
    rw [hpre] at hsome
    cases hsome
  | some p =>
    obtain ⟨en, pre⟩ := p
    have hen := tripUnpackPrefix_le hpre
    dsimp only
    by_cases hmax : pre.control ≥ tripControlMax
    · rw [if_pos hmax]
      refine iff_of_true hmarks fun en' pre' _ hsome hlt => ?_
      rw [hpre] at hsome
      cases hsome
      exact absurd hlt (UInt8.not_lt.mpr hmax)
    rw [if_neg hmax]
    by_cases hopen : pre.control = tripControlOpen
    · rw [if_pos hopen, sound_tripSegmentOpen hlen hen hmarks]
      constructor
      · intro h en' pre' _ hsome _
        rw [hpre] at hsome
        cases hsome
        refine ⟨fun _ en' hreach => h en' ?_, fun hne => absurd hopen hne⟩
        simpa only [OpenReaches, OpenAccepted, hrouter, horacle] using hreach
      · intro h en' hreach
        refine (h en pre (not_lt.mp h16) hpre (UInt8.not_le.mp hmax)).1 hopen en' ?_
        simpa only [OpenReaches, OpenAccepted, hrouter, horacle] using hreach
    · rw [if_neg hopen, sound_tripSegmentComm hlen hmarks]
      constructor
      · intro h en' pre' _ hsome _
        rw [hpre] at hsome
        cases hsome
        refine ⟨fun heq => absurd heq hopen, fun _ hreach => h ?_⟩
        simpa only [CommReaches, hrouter, horacle] using hreach
      · intro h hreach
        refine (h en pre (not_lt.mp h16) hpre (UInt8.not_le.mp hmax)).2 hopen ?_
        simpa only [CommReaches, hrouter, horacle] using hreach

/-- **When lengths are sound**: exactly when the segment has room for the
signatures; the check is for sixteen bytes only. -/
theorem tripSegment_marks_iff (r : Router) (o : Oracle) (src : ℤ) {len : ℕ} (hlen : len ≤ NPOS)
    (buf : Buf) :
    (∀ m ∈ ((tripSegment src len buf).exec ⟨r, o, []⟩).2.marks, m.Sound len) ↔
      SegmentFits ⟨r, o, []⟩ src len buf :=
  sound_tripSegment hlen fun _ hm => absurd hm List.not_mem_nil

/-- An OPEN segment: the prefix takes ten bytes, version and routing three. -/
def openSegment : Buf := fun i => if i = 0 then tripControlOpen else 0

/-- With two signatures behind them these are 141 bytes. -/
theorem tripSegment_marks_iff_open :
    ((tripSegment 0 141 openSegment).exec ⟨plainRouter, plainOracle, []⟩).2.marks.Forall
      fun m => m.Sound 141 := by
  apply List.forall_iff_forall_mem.mpr
  refine (tripSegment_marks_iff plainRouter plainOracle 0 (by decide) openSegment).mpr ?_
  intro en pre _ hpre _
  obtain ⟨rfl, rfl⟩ : 10 = en ∧ ⟨false, tripControlOpen, 0, 0⟩ = pre := by
    have h : tripUnpackPrefix 141 openSegment = some (10, ⟨false, tripControlOpen, 0, 0⟩) := by
      decide
    rw [h] at hpre
    simpa using hpre
  refine ⟨?_, fun hne => absurd rfl hne⟩
  rintro - en' ⟨-, -, endroute, screen, hroute, -, -, -, rfl⟩
  have h : (tripUnpackRoute (141 - 10) (openSegment.drop 10)).map Prod.fst = some 3 := by decide
  rw [hroute, Option.map_some, Option.some.injEq] at h
  subst h
  decide

/-- The shortest segment that is let in is shorter than a signature. -/
theorem tripSegment_short_wraps :
    ¬ ∀ (r : Router) (o : Oracle) (src : ℤ) (len : ℕ) (buf : Buf), len ≤ NPOS →
      ∀ m ∈ ((tripSegment src len buf).exec ⟨r, o, []⟩).2.marks, m.Sound len := by
  intro hall
  have hmark : Mark.sub 16 tripSign ∈
      ((tripSegment 0 16 openSegment).exec ⟨plainRouter, plainOracle, []⟩).2.marks := by
    decide
  exact absurd (hall plainRouter plainOracle 0 16 openSegment (by decide) _ hmark) (by decide)

end Libtrp
