import Mathlib.Data.UInt
import Libtrp.Lib.Bits
import Libtrp.RoundTrip

/-!
# What `trip_pack` counts and where it writes

The size is counted before anything is written, and compared with the room there is.
Two things escape the count.  The sum for `b` is one of 32 bits, so that a string of
nearly 2^32 bytes counts for a few; and `O` clears as many bytes as `o` moves over from
where encryption started last, which may have been at an `e`.

## Main definitions

* `packParts` — the directives of a format with the bytes each is packed as.
* `packWrites` — the offsets that are written.
* `PackSound` — no string is too long, and each `O` has its bytes before it.
* `PackSoundIn` — what is written lies in the room, as long as what is counted does.

## Main results

* `packDir_part` — **what one directive does.**
* `trip_pack_exact_iff` — **when the count is exact**, in a given room and in every one.
* `trip_pack_len_iff` — **when `trip_pack_len` is enough.**

## References

`src/pack.c` (`trip_pack`, `trip_pack_len`).
-/

namespace Libtrp

open Lib

/-! ### Parts -/

/-- A directive with its argument: the bytes it is packed as, those of the string of `b`
apart. -/
structure PackPart where
  dir : PackDir
  head : ℕ
  body : ℕ
  deriving DecidableEq, Repr

namespace PackPart

/-- The bytes of the part. -/
def size (p : PackPart) : ℕ := p.head + p.body

/-- What the loop counts for it: the sum for `b` is one of `uint32_t`, and the others are
short. -/
def counted (p : PackPart) : ℕ := p.size % 2 ^ 32

end PackPart

/-- A directive takes its arguments and leaves the others; an argument of another type, or
a pointer to fewer bytes than are copied, has no meaning in C. -/
def packTake : PackDir → List PackArg → Option (PackPart × List PackArg)
  | .o, .ptr _ :: as => some (⟨.o, cryptoBoxSealBytes, 0⟩, as)
  | .O, as => some (⟨.O, 0, 0⟩, as)
  | .e, as => some (⟨.e, 0, 0⟩, as)
  | .E, as => some (⟨.E, 0, 0⟩, as)
  | .s, as => some (⟨.s, 0, 0⟩, as)
  | .S, .ptr _ :: as => some (⟨.S, tripSign, 0⟩, as)
  | .n, .ptr nonce :: as =>
    if nonce.all (tripNonce ≤ ·.length) then some (⟨.n, tripNonce, 0⟩, as) else none
  | .k, .ptr key :: as =>
    if key.all (tripKeyPub ≤ ·.length) then some (⟨.k, tripKeyPub, 0⟩, as) else none
  | .b, .uint rlen :: .ptr raw :: as =>
    if rlen = 0 ∨ raw.any (rlen.toNat ≤ ·.length) then
      some (⟨.b, tripUvarLen rlen.toUInt64 + 1, rlen.toNat⟩, as)
    else none
  | .c, .int _ :: as => some (⟨.c, 1, 0⟩, as)
  | .C, .uint _ :: as => some (⟨.C, 1, 0⟩, as)
  | .h, .int _ :: as => some (⟨.h, 2, 0⟩, as)
  | .H, .uint _ :: as => some (⟨.H, 2, 0⟩, as)
  | .i, .int _ :: as => some (⟨.i, 4, 0⟩, as)
  | .I, .uint _ :: as => some (⟨.I, 4, 0⟩, as)
  | .q, .int64 _ :: as => some (⟨.q, 8, 0⟩, as)
  | .Q, .uint64 _ :: as => some (⟨.Q, 8, 0⟩, as)
  | .V, .uint I :: as => some (⟨.V, tripUvarLen I.toUInt64 + 1, 0⟩, as)
  | .W, .uint64 Q :: as => some (⟨.W, tripUvarLen Q + 1, 0⟩, as)
  | _, _ => none

/-- A directive that `trip_pack` knows. -/
def PackDir.packs : PackDir → Bool
  | .p | .other => false
  | _ => true

/-- The parts of a format up to the first directive that is not known, and whether there
is none; `none` when an argument has no meaning. -/
def packParts : List PackDir → List PackArg → Option (List PackPart × Bool)
  | [], _ => some ([], true)
  | d :: fmt, as =>
    if d.packs then do
      let (p, as) ← packTake d as
      let (ps, all) ← packParts fmt as
      return (p :: ps, all)
    else some ([], false)

/-- The bytes of the encoding. -/
def packLength (ps : List PackPart) : ℕ := (ps.map PackPart.size).sum

/-- What is counted for them. -/
def packCounted (ps : List PackPart) : ℕ := (ps.map PackPart.counted).sum

/-- The position from which `O` clears, behind a part. -/
def PackPart.crypt (p : PackPart) (pos crypt : ℕ) : ℕ :=
  if p.dir = .o ∨ p.dir = .e then pos else crypt

theorem tripUvarLen_toUInt64_le (n : UInt32) : tripUvarLen n.toUInt64 ≤ 4 := by
  rw [tripUvarLen_le, UInt32.toNat_toUInt64]
  exact n.toNat_lt

/-- What the parts of a directive can be. -/
theorem packTake_bounds {d : PackDir} {as as' : List PackArg} {p : PackPart}
    (h : packTake d as = some (p, as')) :
    p.dir = d ∧ p.head ≤ 64 ∧ p.body < 2 ^ 32 ∧ (d = .b → p.head ≤ 5) ∧ (d ≠ .b → p.body = 0) := by
  unfold packTake at h
  split at h
  all_goals first
    | (cases h; exact ⟨rfl, by decide, by decide, nofun, fun _ => rfl⟩)
    | skip
  case h_7 | h_8 =>
    split at h
    · cases h
      exact ⟨rfl, by decide, by decide, nofun, fun _ => rfl⟩
    · cases h
  case h_9 rlen raw _ =>
    have hlen := tripUvarLen_toUInt64_le rlen
    split at h
    · cases h
      exact ⟨rfl, by dsimp only; omega, rlen.toNat_lt, fun _ => by dsimp only; omega, fun hb =>
        absurd rfl hb⟩
    · cases h
  case h_18 I _ =>
    have hlen := tripUvarLen_toUInt64_le I
    cases h
    exact ⟨rfl, by dsimp only; omega, by dsimp only; omega, nofun, fun _ => rfl⟩
  case h_19 Q _ =>
    have hlen := PackItem.tripUvarLen_le_eight Q
    cases h
    exact ⟨rfl, by dsimp only; omega, by dsimp only; omega, nofun, fun _ => rfl⟩
  case h_20 => cases h

/-! ### One directive -/

/-- A directive that writes behind what is packed. -/
def PackDir.writes : PackDir → Bool
  | .o | .O | .e | .E | .s | .p | .other => false
  | _ => true

/-- The `n` bytes behind a pointer, or as many zeros. -/
theorem packCopyOrZero_of_all {n : ℕ} {p : Option Bytes} (h : p.all (n ≤ ·.length) = true) :
    ∃ bs : Bytes, bs.length = n ∧ packCopyOrZero n p = .ok bs := by
  cases p with
  | none => exact ⟨_, List.length_replicate, rfl⟩
  | some xs =>
    have hle : n ≤ xs.length := by simpa using h
    refine ⟨xs.take n, List.length_take_of_le hle, ?_⟩
    rw [packCopyOrZero, packCopy, if_pos hle]

theorem packCopy_of_any {n : ℕ} {p : Option Bytes} (h : p.any (n ≤ ·.length) = true) :
    ∃ bs : Bytes, bs.length = n ∧ packCopy n p = .ok bs := by
  cases p with
  | none => exact absurd h Bool.false_ne_true
  | some xs =>
    have hle : n ≤ xs.length := by simpa using h
    exact ⟨xs.take n, List.length_take_of_le hle, by rw [packCopy, if_pos hle]⟩

theorem length_packVar (i : ℕ) (n : UInt64) : (packVar i n).length = i := by
  rw [packVar_eq, length_leBytes]

section Directive

variable {sign : Bytes → Bytes → Bytes} (hsign : ∀ m k, (sign m k).length = tripSign)
include hsign

/-- **A directive that writes** counts its bytes and puts them behind the others. -/
theorem packDir_writes {d : PackDir} {as as' : List PackArg} {p : PackPart}
    (h : packTake d as = some (p, as')) (hd : d.writes = true) :
    ∃ bs : PackState → Bytes, (∀ s, (bs s).length = p.size) ∧ ∀ cap s,
      packDir sign cap d s as =
        (packRoom cap p.counted s).bind fun s => .ok (s.put (bs s), as') := by
  unfold packTake at h
  split at h
  case h_1 | h_2 | h_3 | h_4 | h_5 => exact absurd hd Bool.false_ne_true
  case h_6 key as =>
    -- the signature, or zeros
    cases h
    cases key with
    | none => exact ⟨fun _ => List.replicate tripSign 0, fun _ => rfl, fun _ _ => rfl⟩
    | some key =>
      exact ⟨fun s => sign (slice s.mem s.sigstart (s.pos - s.sigstart)) key,
        fun _ => hsign _ _, fun _ _ => rfl⟩
  case h_7 nonce as =>
    split at h
    · next hlen =>
      cases h
      obtain ⟨bs, hbs, hcopy⟩ := packCopyOrZero_of_all hlen
      refine ⟨fun _ => bs, fun _ => hbs, fun cap s => ?_⟩
      show (packRoom cap tripNonce s).bind (fun s =>
        (packCopyOrZero tripNonce nonce).bind fun bs => .ok (s.put bs, as')) = _
      rw [hcopy]
      rfl
    · cases h
  case h_8 key as =>
    split at h
    · next hlen =>
      cases h
      obtain ⟨bs, hbs, hcopy⟩ := packCopyOrZero_of_all hlen
      refine ⟨fun _ => bs, fun _ => hbs, fun cap s => ?_⟩
      show (packRoom cap tripKeyPub s).bind (fun s =>
        (packCopyOrZero tripKeyPub key).bind fun bs => .ok (s.put bs, as')) = _
      rw [hcopy]
      rfl
    · cases h
  case h_9 rlen raw as =>
    split at h
    · next hlen =>
      cases h
      -- the count of a string wraps, and its length does not
      have hcount : (UInt32.ofNat (tripUvarLen rlen.toUInt64 + 1) + rlen).toNat =
          (tripUvarLen rlen.toUInt64 + 1 + rlen.toNat) % 2 ^ 32 := by
        rw [UInt32.toNat_add, UInt32.toNat_ofNat', Nat.mod_add_mod]
      have hhead : (UInt8.ofNat (tripUvarLen rlen.toUInt64) ::
          packVar (tripUvarLen rlen.toUInt64) rlen.toUInt64).length =
          tripUvarLen rlen.toUInt64 + 1 := by
        rw [List.length_cons, length_packVar]
      generalize hhd : UInt8.ofNat (tripUvarLen rlen.toUInt64) ::
          packVar (tripUvarLen rlen.toUInt64) rlen.toUInt64 = head at hhead
      have hdir : ∀ cap s, packDir sign cap .b s (.uint rlen :: .ptr raw :: as') =
          (packRoom cap ((tripUvarLen rlen.toUInt64 + 1 + rlen.toNat) % 2 ^ 32) s).bind fun s =>
            if rlen = 0 then .ok (s.put head, as')
            else (packCopy rlen.toNat raw).bind fun bs => .ok ((s.put head).put bs, as') := by
        intro cap s
        rw [← hcount, ← hhd]
        rfl
      by_cases hzero : rlen = 0
      · refine ⟨fun _ => head, fun _ => ?_, fun cap s => ?_⟩
        · rw [hhead, PackPart.size, hzero]
          rfl
        · rw [hdir]
          simp only [if_pos hzero]
          rfl
      · obtain ⟨bs, hbs, hcopy⟩ := packCopy_of_any (hlen.resolve_left hzero)
        refine ⟨fun _ => head ++ bs, fun _ => ?_, fun cap s => ?_⟩
        · rw [List.length_append, hhead, hbs]
          rfl
        · rw [hdir]
          simp only [if_neg hzero, hcopy, ← PackState.put_put]
          rfl
    · cases h
  case h_18 I as =>
    cases h
    have hlen := tripUvarLen_toUInt64_le I
    refine ⟨fun _ => UInt8.ofNat (tripUvarLen I.toUInt64) :: packVar (tripUvarLen I.toUInt64)
      I.toUInt64, fun _ => ?_, fun cap s => ?_⟩
    · rw [List.length_cons, length_packVar]
      rfl
    · rw [PackPart.counted, PackPart.size, Nat.mod_eq_of_lt (by dsimp only; omega)]
      rfl
  case h_19 Q as =>
    cases h
    have hlen := PackItem.tripUvarLen_le_eight Q
    refine ⟨fun _ => UInt8.ofNat (tripUvarLen Q) :: packVar (tripUvarLen Q) Q, fun _ => ?_,
      fun cap s => ?_⟩
    · rw [List.length_cons, length_packVar]
      rfl
    · rw [PackPart.counted, PackPart.size, Nat.mod_eq_of_lt (by dsimp only; omega)]
      rfl
  case h_20 => cases h
  all_goals
    cases h
    exact ⟨fun _ => _, fun _ => rfl, fun _ _ => rfl⟩

end Directive

/-- The offsets that a directive writes at: those of the bytes it moves over, but for `o`,
which leaves them, and `O`, which clears those of an `o`. -/
def packDirWrites (d : PackDir) (s s' : PackState) : List ℕ :=
  match d with
  | .o => []
  | .O => List.range' s.cryptstart cryptoBoxSealBytes
  | _ => List.range' s.pos (s'.pos - s.pos)

/-- What a directive that finds room does. -/
structure PackStep (p : PackPart) (s s' : PackState) : Prop where
  size : s'.size = s.size + p.counted
  pos : s'.pos = s.pos + p.size
  crypt : s'.cryptstart = p.crypt s.pos s.cryptstart
  sig : s'.sigstart = if p.dir = .s then s.pos else s.sigstart
  frame : ∀ i ∉ packDirWrites p.dir s s', s'.mem i = s.mem i

theorem packRoom_eq {cap n : ℕ} {s : PackState} (h : s.size + n < 2 ^ 64) : packRoom cap n s =
    if cap < s.size + n then .error (.npos s.mem) else .ok { s with size := s.size + n } := by
  unfold packRoom
  rw [Nat.mod_eq_of_lt h]

theorem overwrite_of_not_mem {mem : Buf} {p n i : ℕ} {bs : Bytes} (hn : bs.length = n)
    (hi : i ∉ List.range' p n) : overwrite mem p bs i = mem i := by
  rw [List.mem_range'_1] at hi
  unfold overwrite
  split
  · rw [List.getD_eq_getElem?_getD, List.getElem?_eq_none (by omega), Option.getD_none]
  · rfl

namespace PackPart

theorem counted_lt (p : PackPart) : p.counted < 2 ^ 32 := Nat.mod_lt _ (Nat.two_pow_pos 32)

theorem counted_le (p : PackPart) : p.counted ≤ p.size := Nat.mod_le _ _

theorem counted_of_lt {p : PackPart} (h : p.size < 2 ^ 32) : p.counted = p.size :=
  Nat.mod_eq_of_lt h

end PackPart

/-- **What one directive does.**  It stops when its bytes, as they are counted, do not
fit. -/
theorem packDir_step {sign : Bytes → Bytes → Bytes} (hsign : ∀ m k, (sign m k).length = tripSign)
    {d : PackDir} {as as' : List PackArg} {p : PackPart} (h : packTake d as = some (p, as'))
    {cap : ℕ} {s : PackState} (hs : s.size ≤ cap) (hcount : s.size + p.counted < 2 ^ 64) :
    (cap < s.size + p.counted → packDir sign cap d s as = .error (.npos s.mem)) ∧
      (s.size + p.counted ≤ cap →
        ∃ s', packDir sign cap d s as = .ok (s', as') ∧ PackStep p s s') := by
  have hdir := (packTake_bounds h).1
  have hroom := @packRoom_eq cap _ s hcount
  by_cases hw : d.writes = true
  · obtain ⟨bs, hbs, hpack⟩ := packDir_writes hsign h hw
    rw [hpack, hroom]
    constructor
    · intro hfull
      rw [if_pos hfull]
      rfl
    · intro hfits
      rw [if_neg (Nat.not_lt.mpr hfits)]
      refine ⟨_, rfl, ?_⟩
      -- such a directive is none of those that only move marks
      have hd : d ≠ .o ∧ d ≠ .O ∧ d ≠ .e ∧ d ≠ .s := by
        refine ⟨?_, ?_, ?_, ?_⟩ <;> rintro rfl <;> exact absurd hw Bool.false_ne_true
      obtain ⟨ho, hO, he, hsig⟩ := hd
      constructor
      · rfl
      · rw [PackState.put, hbs]
      · rw [PackPart.crypt, hdir, if_neg (not_or.mpr ⟨ho, he⟩)]
        rfl
      · rw [hdir, if_neg hsig]
        rfl
      · intro i hi
        refine overwrite_of_not_mem (hbs _) ?_
        rw [hdir] at hi
        unfold packDirWrites at hi
        split at hi
        · exact absurd rfl ho
        · exact absurd rfl hO
        · rwa [PackState.put, hbs, Nat.add_sub_cancel_left] at hi
  · unfold packTake at h
    split at h
    -- these move marks, and the room for a box is counted
    case h_1 key as =>
      cases h
      have hdo : packDir sign cap .o s (.ptr key :: as') =
          (packRoom cap cryptoBoxSealBytes s).bind fun s =>
            .ok ({ s with cryptstart := s.pos, pos := s.pos + cryptoBoxSealBytes }, as') := rfl
      have hroom : packRoom cap cryptoBoxSealBytes s = if cap < s.size + cryptoBoxSealBytes then
          .error (.npos s.mem) else .ok { s with size := s.size + cryptoBoxSealBytes } := hroom
      rw [hdo, hroom]
      constructor
      · intro hfull
        rw [if_pos (show cap < s.size + cryptoBoxSealBytes from hfull)]
        rfl
      · intro hfits
        rw [if_neg (Nat.not_lt.mpr (show s.size + cryptoBoxSealBytes ≤ cap from hfits))]
        exact ⟨_, rfl, rfl, rfl, rfl, rfl, fun _ _ => rfl⟩
    -- the box is cleared where the room for it was made
    case h_2 =>
      cases h
      refine ⟨fun hfull => absurd hs (Nat.not_le.mpr hfull), fun _ =>
        ⟨_, rfl, rfl, rfl, rfl, rfl, ?_⟩⟩
      exact fun i hi => overwrite_of_not_mem List.length_replicate hi
    case h_3 | h_4 | h_5 =>
      cases h
      exact ⟨fun hfull => absurd hs (Nat.not_le.mpr hfull),
        fun _ => ⟨_, rfl, rfl, rfl, rfl, rfl, fun _ _ => rfl⟩⟩
    case h_20 => cases h
    all_goals exact absurd rfl hw

/-- A buffer is small enough for the count not to wrap. -/
theorem packDir_part {sign : Bytes → Bytes → Bytes} (hsign : ∀ m k, (sign m k).length = tripSign)
    {d : PackDir} {as as' : List PackArg} {p : PackPart} (h : packTake d as = some (p, as'))
    {cap : ℕ} (hcap : cap < 2 ^ 63) {s : PackState} (hs : s.size ≤ cap) :
    (cap < s.size + p.counted → packDir sign cap d s as = .error (.npos s.mem)) ∧
      (s.size + p.counted ≤ cap →
        ∃ s', packDir sign cap d s as = .ok (s', as') ∧ PackStep p s s') :=
  packDir_step hsign h hs (by have := p.counted_lt; omega)

/-! ### The loop -/

/-- The offsets that the loop writes at. -/
def packWrites (sign : Bytes → Bytes → Bytes) (cap : ℕ) :
    List PackDir → PackState → List PackArg → List ℕ
  | [], _, _ => []
  | d :: fmt, s, as =>
    match packDir sign cap d s as with
    | .ok (s', as') => packDirWrites d s s' ++ packWrites sign cap fmt s' as'
    | .error _ => []

/-- The state that `trip_pack` begins with. -/
def packStart (buf : Buf) : PackState := ⟨0, 0, buf, 0, 0⟩

/-- The count is exact: nothing is written at `cap` or behind it, the call fails when a
directive is not known or the encoding does not fit, and otherwise it returns the length of
the encoding. -/
structure PackExact (sign : Bytes → Bytes → Bytes) (fmt : List PackDir) (as : List PackArg)
    (ps : List PackPart) (all : Bool) (cap : ℕ) (buf : Buf) : Prop where
  writes : ∀ i ∈ packWrites sign cap fmt (packStart buf) as, i < cap
  returns : ∃ r mem, tripPack sign cap buf fmt as = some (r, mem) ∧
    (∀ i ∉ packWrites sign cap fmt (packStart buf) as, mem i = buf i) ∧
    (r = NPOS ↔ all = false ∨ cap < packLength ps) ∧ (r ≠ NPOS → r = packLength ps)

/-- As far as a buffer can hold what is counted: no string is so long that its length
wraps, and each `O` has the bytes it clears before it. -/
def PackSound : List PackPart → ℕ → ℕ → Prop
  | [], _, _ => True
  | p :: ps, pos, crypt =>
    pos + p.counted < 2 ^ 63 →
      (p.size < 2 ^ 32 ∧ (p.dir = .O → crypt + cryptoBoxSealBytes ≤ pos)) ∧
        PackSound ps (pos + p.size) (p.crypt pos crypt)

instance decidablePackSound :
    ∀ (ps : List PackPart) (pos crypt : ℕ), Decidable (PackSound ps pos crypt)
  | [], _, _ => .isTrue trivial
  | p :: ps, pos, crypt =>
    have := decidablePackSound ps (pos + p.size) (p.crypt pos crypt)
    inferInstanceAs (Decidable (_ → _))

/-- The bytes that the part writes lie below `cap`. -/
def PackPart.Fits (p : PackPart) (cap pos crypt : ℕ) : Prop :=
  match p.dir with
  | .o => True
  | .O => crypt + cryptoBoxSealBytes ≤ cap
  | _ => p.size = 0 ∨ pos + p.size ≤ cap

/-- In a room of `cap` bytes, of which `size` are counted and `pos` are packed: as long as what is
counted fits, so does what is written, and at the end of a format that is known all is counted. -/
def PackSoundIn (cap : ℕ) (all : Bool) : List PackPart → ℕ → ℕ → ℕ → Prop
  | [], size, pos, _ => all = true → size = pos
  | p :: ps, size, pos, crypt =>
    size + p.counted ≤ cap → p.Fits cap pos crypt ∧
      PackSoundIn cap all ps (size + p.counted) (pos + p.size) (p.crypt pos crypt)

theorem packParts_cons {d : PackDir} {fmt : List PackDir} {as : List PackArg} {ps : List PackPart}
    {all : Bool} (h : packParts (d :: fmt) as = some (ps, all)) :
    (d.packs = false ∧ ps = [] ∧ all = false) ∨
      ∃ p as' ps', packTake d as = some (p, as') ∧ packParts fmt as' = some (ps', all) ∧
        ps = p :: ps' := by
  unfold packParts at h
  cases hd : d.packs with
  | false =>
    rw [hd, if_neg Bool.false_ne_true] at h
    cases h
    exact Or.inl ⟨rfl, rfl, rfl⟩
  | true =>
    rw [hd, if_pos rfl] at h
    obtain ⟨⟨p, as'⟩, htake, h⟩ := Option.bind_eq_some_iff.mp h
    obtain ⟨⟨ps', all'⟩, hparts, h⟩ := Option.bind_eq_some_iff.mp h
    cases h
    exact Or.inr ⟨p, as', ps', htake, hparts, rfl⟩

theorem packParts_of_take {d : PackDir} {fmt : List PackDir} {as as' : List PackArg}
    {p : PackPart} {ps : List PackPart} {all : Bool} (hd : d.packs = true)
    (htake : packTake d as = some (p, as')) (h : packParts fmt as' = some (ps, all)) :
    packParts (d :: fmt) as = some (p :: ps, all) := by
  rw [packParts, hd, if_pos rfl, htake]
  show (packParts fmt as').bind _ = _
  rw [h]
  rfl

theorem packTake_b {rlen : UInt32} {raw : Bytes} {as : List PackArg}
    (hlen : rlen.toNat ≤ raw.length) : packTake .b (.uint rlen :: .ptr (some raw) :: as) =
      some (⟨.b, tripUvarLen rlen.toUInt64 + 1, rlen.toNat⟩, as) :=
  if_pos (Or.inr (decide_eq_true hlen))

theorem packDir_unknown {d : PackDir} (hd : d.packs = false) (sign : Bytes → Bytes → Bytes)
    (cap : ℕ) (s : PackState) (as : List PackArg) :
    packDir sign cap d s as = .error (.npos s.mem) := by
  cases d <;> first | rfl | exact absurd hd (Bool.false_ne_true ∘ Eq.symm)

theorem packFrom_cons (sign : Bytes → Bytes → Bytes) (cap : ℕ) (d : PackDir) (fmt : List PackDir)
    (s : PackState) (as : List PackArg) : packFrom sign cap (d :: fmt) s as =
      (packDir sign cap d s as).bind fun p => packFrom sign cap fmt p.1 p.2 := rfl

theorem packLength_cons (p : PackPart) (ps : List PackPart) :
    packLength (p :: ps) = p.size + packLength ps := rfl

theorem packCounted_cons (p : PackPart) (ps : List PackPart) :
    packCounted (p :: ps) = p.counted + packCounted ps := rfl

theorem packCounted_le (ps : List PackPart) : packCounted ps ≤ packLength ps := by
  induction ps with
  | nil => exact le_rfl
  | cons p ps ih =>
    rw [packCounted_cons, packLength_cons]
    exact Nat.add_le_add p.counted_le ih

/-- The count is the length when no string is too long. -/
theorem packCounted_eq_iff (ps : List PackPart) :
    packCounted ps = packLength ps ↔ ∀ p ∈ ps, p.size < 2 ^ 32 := by
  induction ps with
  | nil => exact iff_of_true rfl nofun
  | cons p ps ih =>
    have hp := p.counted_le
    have hps := packCounted_le ps
    have hlt := p.counted_lt
    rw [List.forall_mem_cons, ← ih, packCounted_cons, packLength_cons]
    constructor
    · intro h
      constructor <;> omega
    · rintro ⟨hshort, hcount⟩
      rw [PackPart.counted_of_lt hshort, hcount]

/-- What a directive writes lies in the room where its part does. -/
theorem PackStep.fits_iff {d : PackDir} {p : PackPart} {s s' : PackState} (h : PackStep p s s')
    (hd : p.dir = d) {cap : ℕ} :
    (∀ i ∈ packDirWrites d s s', i < cap) ↔ p.Fits cap s.pos s.cryptstart := by
  have hpos := h.pos
  subst hd
  unfold packDirWrites PackPart.Fits
  split
  · exact iff_of_true nofun trivial
  · simp only [List.mem_range'_1]
    have hseal : cryptoBoxSealBytes = 48 := rfl
    exact ⟨fun h => by have := h (s.cryptstart + 47) (by omega); omega, fun h i hi => by omega⟩
  · simp only [List.mem_range'_1]
    refine ⟨fun h => ?_, fun h i hi => by omega⟩
    -- the last byte is below the end of the room, if there is one
    rcases Nat.eq_zero_or_pos p.size with hzero | hsize
    · exact .inl hzero
    · have := h (s.pos + p.size - 1) (by omega)
      exact .inr (by omega)

section Loop

variable {sign : Bytes → Bytes → Bytes} (hsign : ∀ m k, (sign m k).length = tripSign)
  {cap : ℕ} (hcap : cap < 2 ^ 63)
include hsign hcap

/-- The memory a call leaves is changed where it writes. -/
theorem packFrom_frame : ∀ {fmt : List PackDir} {as : List PackArg} {ps : List PackPart}
    {all : Bool} {s : PackState}, packParts fmt as = some (ps, all) → s.size ≤ cap →
      ∃ mem, (∀ i ∉ packWrites sign cap fmt s as, mem i = s.mem i) ∧
        (packFrom sign cap fmt s as = .error (.npos mem) ∨
          ∃ s', packFrom sign cap fmt s as = .ok s' ∧ s'.mem = mem) := by
  intro fmt
  induction fmt with
  | nil => exact fun {_ _ _ s} _ _ => ⟨s.mem, fun _ _ => rfl, Or.inr ⟨s, rfl, rfl⟩⟩
  | cons d fmt ih =>
    intro as ps all s hparts hs
    rw [packFrom_cons, packWrites]
    rcases packParts_cons hparts with ⟨hd, -, -⟩ | ⟨p, as', ps', htake, hrest, -⟩
    · rw [packDir_unknown hd]
      exact ⟨s.mem, fun _ _ => rfl, Or.inl rfl⟩
    · obtain ⟨hfull, hfits⟩ := packDir_part hsign htake hcap hs
      rcases Nat.lt_or_ge cap (s.size + p.counted) with hlt | hle
      · rw [hfull hlt]
        exact ⟨s.mem, fun _ _ => rfl, Or.inl rfl⟩
      · obtain ⟨s', hdir, hstep⟩ := hfits hle
        obtain ⟨mem, hmem, hresult⟩ := ih (s := s') hrest (by rw [hstep.size]; exact hle)
        rw [hdir]
        refine ⟨mem, fun i hi => ?_, hresult⟩
        rw [List.mem_append, not_or] at hi
        rw [hmem i hi.2]
        refine hstep.frame i ?_
        rw [(packTake_bounds htake).1]
        exact hi.1

/-- **A sound format** writes inside the room, and its count is its length. -/
theorem packFrom_sound : ∀ {fmt : List PackDir} {as : List PackArg} {ps : List PackPart}
    {all : Bool} {s : PackState}, packParts fmt as = some (ps, all) →
      PackSound ps s.pos s.cryptstart → s.size = s.pos → s.pos ≤ cap →
      (∀ i ∈ packWrites sign cap fmt s as, i < cap) ∧
        ((all = false ∨ cap < s.pos + packLength ps) ∧
            (∃ mem, packFrom sign cap fmt s as = .error (.npos mem)) ∨
          all = true ∧ s.pos + packLength ps ≤ cap ∧
            ∃ s', packFrom sign cap fmt s as = .ok s' ∧ s'.size = s.pos + packLength ps ∧
              s'.pos = s.pos + packLength ps) := by
  intro fmt
  induction fmt with
  | nil =>
    rintro as ps all s ⟨⟩ - hsize hs
    exact ⟨fun i hi => absurd hi List.not_mem_nil, Or.inr ⟨rfl, hs, s, rfl, hsize, rfl⟩⟩
  | cons d fmt ih =>
    intro as ps all s hparts hsound hsize hs
    rw [packFrom_cons, packWrites]
    rcases packParts_cons hparts with ⟨hd, -, rfl⟩ | ⟨p, as', ps', htake, hrest, rfl⟩
    · rw [packDir_unknown hd]
      exact ⟨fun i hi => absurd hi List.not_mem_nil, Or.inl ⟨Or.inl rfl, s.mem, rfl⟩⟩
    · obtain ⟨hfull, hfits⟩ := packDir_part hsign htake hcap (hsize.trans_le hs)
      rw [packLength_cons, ← Nat.add_assoc]
      rcases Nat.lt_or_ge cap (s.size + p.counted) with hlt | hle
      · have hcounted := p.counted_le
        rw [hfull hlt]
        exact ⟨fun i hi => absurd hi List.not_mem_nil, Or.inl ⟨Or.inr (by omega), s.mem, rfl⟩⟩
      · obtain ⟨s', hdir, hstep⟩ := hfits hle
        -- it fits, so what is counted is what is written
        obtain ⟨⟨hshort, hO⟩, hsound'⟩ := hsound (by omega)
        have hcounted := PackPart.counted_of_lt hshort
        have hpos := hstep.pos
        have hsize' : s'.size = s'.pos := by rw [hstep.size, hpos, hsize, hcounted]
        have hs' : s'.pos ≤ cap := by omega
        rw [← hpos, ← hstep.crypt] at hsound'
        obtain ⟨hwrites, hresult⟩ := ih hrest hsound' hsize' hs'
        rw [hdir, ← hpos]
        refine ⟨fun i hi => ?_, hresult⟩
        rcases List.mem_append.mp hi with hi | hi
        · refine (hstep.fits_iff (packTake_bounds htake).1).mpr ?_ i hi
          unfold PackPart.Fits
          split
          · trivial
          · have hclear := hO ‹_›
            omega
          · exact .inr (by omega)
        · exact hwrites i hi

/-- **In a given room**, what is written and what is counted. -/
theorem packFrom_soundIn : ∀ {fmt : List PackDir} {as : List PackArg} {ps : List PackPart}
    {all : Bool} {s : PackState}, packParts fmt as = some (ps, all) → s.size ≤ s.pos →
      s.size ≤ cap → (((∀ i ∈ packWrites sign cap fmt s as, i < cap) ∧
          ∀ s', packFrom sign cap fmt s as = .ok s' → s'.size = s.pos + packLength ps) ↔
        PackSoundIn cap all ps s.size s.pos s.cryptstart) ∧
      (∀ s', packFrom sign cap fmt s as = .ok s' → all = true ∧ s'.size ≤ cap) ∧
      ∀ mem, packFrom sign cap fmt s as = .error (.npos mem) →
        all = false ∨ cap < s.pos + packLength ps := by
  intro fmt
  induction fmt with
  | nil =>
    rintro as ps all s ⟨⟩ hsize hs
    refine ⟨⟨fun h _ => h.2 s rfl, fun h => ⟨nofun, ?_⟩⟩, ?_, nofun⟩
    · rintro _ ⟨⟩
      exact h rfl
    · rintro _ ⟨⟩
      exact ⟨rfl, hs⟩
  | cons d fmt ih =>
    intro as ps all s hparts hsize hs
    rw [packFrom_cons, packWrites]
    rcases packParts_cons hparts with ⟨hd, rfl, rfl⟩ | ⟨p, as', ps', htake, hrest, rfl⟩
    · rw [packDir_unknown hd]
      exact ⟨iff_of_true ⟨nofun, nofun⟩ nofun, nofun, fun _ _ => .inl rfl⟩
    · obtain ⟨hfull, hfits⟩ := packDir_part hsign htake hcap hs
      have hcounted := p.counted_le
      rw [packLength_cons, ← Nat.add_assoc]
      rcases Nat.lt_or_ge cap (s.size + p.counted) with hlt | hle
      · rw [hfull hlt]
        exact ⟨iff_of_true ⟨nofun, nofun⟩ fun hle => absurd hle (Nat.not_le.mpr hlt), nofun,
          fun _ _ => .inr (by omega)⟩
      · obtain ⟨s', hdir, hstep⟩ := hfits hle
        have hfit : (∀ i ∈ packDirWrites d s s', i < cap) ↔ p.Fits cap s.pos s.cryptstart :=
          hstep.fits_iff (packTake_bounds htake).1
        obtain ⟨hiff, hok, herror⟩ := ih (s := s') hrest (by rw [hstep.size, hstep.pos]; omega)
          (by rw [hstep.size]; exact hle)
        rw [hstep.size, hstep.pos, hstep.crypt] at hiff
        rw [hstep.pos] at herror
        rw [hdir]
        refine ⟨?_, hok, herror⟩
        rw [PackSoundIn, ← hfit, ← hiff, forall_prop_of_true hle, List.forall_mem_append, and_assoc]
        rfl

end Loop

/-- **A format that is not sound** writes behind the room it is given, for some room. -/
theorem packWrites_unsound {sign : Bytes → Bytes → Bytes}
    (hsign : ∀ m k, (sign m k).length = tripSign) : ∀ {fmt : List PackDir} {as : List PackArg}
    {ps : List PackPart} {all : Bool} {pos crypt : ℕ}, packParts fmt as = some (ps, all) →
      ¬ PackSound ps pos crypt → ∃ cap, pos ≤ cap ∧ cap < 2 ^ 63 ∧
        ∀ s : PackState, s.size = pos → s.pos = pos → s.cryptstart = crypt →
          ∃ i ∈ packWrites sign cap fmt s as, cap ≤ i := by
  intro fmt
  induction fmt with
  | nil =>
    rintro as ps all pos crypt ⟨⟩ h
    exact absurd trivial h
  | cons d fmt ih =>
    intro as ps all pos crypt hparts h
    rcases packParts_cons hparts with ⟨-, rfl, -⟩ | ⟨p, as', ps', htake, hrest, rfl⟩
    · exact absurd trivial h
    · obtain ⟨hdir, hhead, hbody, hb, hnb⟩ := packTake_bounds htake
      rw [PackSound, Classical.not_imp] at h
      obtain ⟨hlt, h⟩ := h
      by_cases hshort : p.size < 2 ^ 32
      · have hcounted := PackPart.counted_of_lt hshort
        by_cases hclear : p.dir = .O → crypt + cryptoBoxSealBytes ≤ pos
        · obtain ⟨cap, hle, hcap, hwrites⟩ := ih hrest fun hs => h ⟨⟨hshort, hclear⟩, hs⟩
          refine ⟨cap, by omega, hcap, fun s hsize hpos hcrypt => ?_⟩
          obtain ⟨s', hpack, hstep⟩ :=
            (packDir_part hsign htake hcap (s := s) (by omega)).2 (by omega)
          obtain ⟨i, hi, hcapi⟩ := hwrites s' (by rw [hstep.size]; omega) (by rw [hstep.pos, hpos])
            (by rw [hstep.crypt, hpos, hcrypt])
          refine ⟨i, ?_, hcapi⟩
          rw [packWrites, hpack]
          exact List.mem_append_right _ hi
        · -- the bytes that are cleared begin less than 48 before the room ends
          obtain ⟨hO, hnear⟩ := Classical.not_imp.mp hclear
          refine ⟨pos + p.counted, by omega, hlt, fun s hsize hpos hcrypt => ?_⟩
          obtain ⟨s', hpack, hstep⟩ :=
            (packDir_part hsign htake hlt (s := s) (by omega)).2 (by omega)
          have hd : d = .O := hdir.symm.trans hO
          have hzero : p.counted = 0 := by
            subst hd
            cases htake
            rfl
          have hseal : cryptoBoxSealBytes = 48 := rfl
          refine ⟨crypt + 47, ?_, by omega⟩
          rw [packWrites, hpack, hd]
          refine List.mem_append_left _ (List.mem_range'_1.mpr ?_)
          rw [hcrypt]
          omega
      · -- the room is what is counted, and the string is longer by 2^32
        have hd : d = .b := by
          by_contra hd
          have hsmall := hnb hd
          rw [PackPart.size] at hshort
          omega
        have hcounted : p.counted < p.size :=
          (Nat.mod_lt _ (Nat.two_pow_pos 32)).trans_le (not_lt.mp hshort)
        refine ⟨pos + p.counted, by omega, hlt, fun s hsize hpos _ => ?_⟩
        obtain ⟨s', hpack, hstep⟩ := (packDir_part hsign htake hlt (s := s) (by omega)).2 (by omega)
        refine ⟨pos + p.size - 1, ?_, by omega⟩
        rw [packWrites, hpack, hd]
        refine List.mem_append_left _ (List.mem_range'_1.mpr ?_)
        rw [hstep.pos, hpos]
        omega

theorem tripPack_eq (sign : Bytes → Bytes → Bytes) (cap : ℕ) (buf : ℕ → UInt8) (fmt : List PackDir)
    (as : List PackArg) : tripPack sign cap buf fmt as =
      match packFrom sign cap fmt (packStart buf) as with
      | .ok s => some (s.size, s.mem)
      | .error (.npos mem) => some (NPOS, mem)
      | .error .undefined => none := rfl

/-- **When the count is exact in a given room.** -/
theorem packExact_iff {sign : Bytes → Bytes → Bytes} (hsign : ∀ m k, (sign m k).length = tripSign)
    {fmt : List PackDir} {as : List PackArg} {ps : List PackPart} {all : Bool}
    (hparts : packParts fmt as = some (ps, all)) {cap : ℕ} (hcap : cap < 2 ^ 63) (buf : Buf) :
    PackExact sign fmt as ps all cap buf ↔ PackSoundIn cap all ps 0 0 0 := by
  have hnpos : NPOS = 2 ^ 64 - 1 := rfl
  obtain ⟨hiff, hok, herror⟩ :=
    packFrom_soundIn hsign hcap (s := packStart buf) hparts le_rfl (Nat.zero_le cap)
  obtain ⟨mem, hframe, hmem⟩ :=
    packFrom_frame hsign hcap (s := packStart buf) hparts (Nat.zero_le cap)
  have hpack := tripPack_eq sign cap buf fmt as
  have hlength : (packStart buf).pos + packLength ps = packLength ps := Nat.zero_add _
  rw [hlength] at hiff herror
  refine Iff.trans ?_ hiff
  constructor
  · rintro ⟨hwrites, r, mem', hr, -, -, hexact⟩
    refine ⟨hwrites, fun s' hs' => ?_⟩
    rw [hpack, hs'] at hr
    cases hr
    exact hexact (by have := (hok s' hs').2; omega)
  · intro h
    refine ⟨h.1, ?_⟩
    rcases hmem with hmem | ⟨s', hs', rfl⟩
    · rw [hpack, hmem]
      exact ⟨NPOS, mem, rfl, hframe, iff_of_true rfl (herror mem hmem), fun h => absurd rfl h⟩
    · obtain ⟨hall, hle⟩ := hok s' hs'
      have hsize := h.2 s' hs'
      rw [hpack, hs']
      refine ⟨s'.size, s'.mem, rfl, hframe, iff_of_false (by omega) ?_, fun _ => hsize⟩
      rintro (h | h)
      · exact absurd hall (by rw [h]; exact Bool.false_ne_true)
      · omega

/-- **When the count is exact.**  In a given room it is exact if and only if the parts are sound
there, and whatever room there is if and only if they are sound. -/
theorem trip_pack_exact_iff {sign : Bytes → Bytes → Bytes}
    (hsign : ∀ m k, (sign m k).length = tripSign) {fmt : List PackDir} {as : List PackArg}
    {ps : List PackPart} {all : Bool} (hparts : packParts fmt as = some (ps, all)) :
    (∀ cap buf, cap < 2 ^ 63 →
        (PackExact sign fmt as ps all cap buf ↔ PackSoundIn cap all ps 0 0 0)) ∧
      ((∀ cap buf, cap < 2 ^ 63 → PackExact sign fmt as ps all cap buf) ↔ PackSound ps 0 0) := by
  refine ⟨fun cap buf hcap => packExact_iff hsign hparts hcap buf, fun hexact => ?_, ?_⟩
  · by_contra hsound
    obtain ⟨cap, -, hcap, hwrites⟩ := packWrites_unsound hsign hparts hsound
    obtain ⟨i, hi, hle⟩ := hwrites (packStart default) rfl rfl rfl
    exact absurd ((hexact cap default hcap).writes i hi) (Nat.not_lt.mpr hle)
  · intro hsound cap buf hcap
    refine (packExact_iff hsign hparts hcap buf).mpr ?_
    obtain ⟨hiff, -, -⟩ :=
      packFrom_soundIn hsign hcap (s := packStart buf) hparts le_rfl (Nat.zero_le cap)
    obtain ⟨hwrites, hresult⟩ :=
      packFrom_sound hsign hcap (s := packStart buf) hparts hsound rfl (Nat.zero_le cap)
    refine hiff.mp ⟨hwrites, fun s' hs' => ?_⟩
    rcases hresult with ⟨-, mem, herror⟩ | ⟨-, -, s'', hok, hsize, -⟩
    · exact nomatch herror.symm.trans hs'
    · cases hok.symm.trans hs'
      exact hsize

/-- A sealed string and its signature. -/
theorem trip_pack_exact_sealed :
    PackExact (fun _ _ => List.replicate tripSign 0) [.o, .b, .O, .S]
      [.ptr none, .uint 2, .ptr (some [7, 9]), .ptr (some [1])]
      [⟨.o, 48, 0⟩, ⟨.b, 2, 2⟩, ⟨.O, 0, 0⟩, ⟨.S, 64, 0⟩] true 200 (fun _ => 0) :=
  (trip_pack_exact_iff (fun _ _ => List.length_replicate) (by decide)).2.mpr (by decide)
    200 (fun _ => 0) (by decide)

/-- Every `O` is behind an `o`. -/
def SealsOpen (fmt : List PackDir) : Prop := ∀ xs ys, fmt = xs ++ .O :: ys → .o ∈ xs

/-- A string of 2^32 - 1 bytes passes for four bytes with its length. -/
theorem trip_pack_overflows :
    ¬ ∀ (sign : Bytes → Bytes → Bytes) (fmt : List PackDir) (as : List PackArg)
        (ps : List PackPart) (all : Bool) (cap : ℕ) (buf : Buf),
      (∀ m k, (sign m k).length = tripSign) → SealsOpen fmt → packParts fmt as = some (ps, all) →
        cap < 2 ^ 63 → PackExact sign fmt as ps all cap buf := by
  intro hall
  have hsign : ∀ m k : Bytes,
      ((fun _ _ => List.replicate tripSign 0) m k : Bytes).length = tripSign :=
    fun _ _ => List.length_replicate
  have hlen : (4294967295 : UInt32).toNat ≤ (List.replicate 4294967295 (0 : UInt8)).length :=
    List.length_replicate.ge
  have htake := @packTake_b 4294967295 _ [] hlen
  have hparts := @packParts_of_take .b [] _ _ _ _ _ rfl htake rfl
  have hopen : SealsOpen [.b] := by
    intro xs ys h
    rcases xs with _ | ⟨x, xs⟩
    · exact nomatch (List.cons.inj h).1
    · exact absurd (congrArg List.length h) (by simp)
  have hexact := hall _ _ _ _ _ 4 default hsign hopen hparts (by decide)
  obtain ⟨s', hpack, hstep⟩ := (packDir_part hsign htake (by decide : 4 < 2 ^ 63)
    (s := packStart default) (Nat.zero_le 4)).2 (by decide)
  have hmem : 4 ∈ packWrites (fun _ _ => List.replicate tripSign 0) 4 [.b] (packStart default)
      [.uint 4294967295, .ptr (some (List.replicate 4294967295 0))] := by
    rw [packWrites, hpack]
    refine List.mem_append_left _ (List.mem_range'_1.mpr ?_)
    rw [hstep.pos]
    exact ⟨Nat.zero_le 4, by decide⟩
  exact absurd (hexact.writes 4 hmem) (lt_irrefl 4)

/-! ### The length of a format -/

/-- The bytes that `trip_pack_len` counts for a directive. -/
def packMax : PackDir → ℕ
  | .o => cryptoBoxSealBytes
  | .e => cryptoBoxMacBytes
  | .s => tripSign
  | .n => tripNonce
  | .k => tripKeyPub
  | .c | .C => 1
  | .h | .H => 2
  | .i | .I => 4
  | .q | .Q => 8
  | .V => 1 + 4
  | .W => 1 + 8
  | .O | .E | .S | .b | .p | .other => 0

/-- `trip_pack_len`.  The sum is one of `unsigned int`. -/
def tripPackLen (fmt : List PackDir) : ℕ := fmt.foldl (fun len d => (len + packMax d) % 2 ^ 32) 0

/-- What the sum would be in wider integers. -/
def packMaxSum (fmt : List PackDir) : ℕ := (fmt.map packMax).sum

theorem tripPackLen_eq (fmt : List PackDir) : tripPackLen fmt = packMaxSum fmt % 2 ^ 32 := by
  have hfold : ∀ (l : List PackDir) (n : ℕ),
      l.foldl (fun len d => (len + packMax d) % 2 ^ 32) (n % 2 ^ 32) =
        (n + packMaxSum l) % 2 ^ 32 := by
    intro l
    induction l with
    | nil => exact fun _ => rfl
    | cons d l ih =>
      intro n
      rw [List.foldl_cons, Nat.mod_add_mod, ih, Nat.add_assoc]
      rfl
  have h := hfold fmt 0
  rwa [Nat.zero_add] at h

/-- The bytes of the strings. -/
def packPayload (ps : List PackPart) : ℕ := (ps.map PackPart.body).sum

/-- The bytes of their lengths, which `trip_pack_len` does not count. -/
def packStringHeads (ps : List PackPart) : ℕ :=
  (ps.map fun p => if p.dir = .b then p.head else 0).sum

/-- What `trip_pack_len` counts for a part beyond its bytes: all of an `e`, and what a number
is shorter than it could be. -/
def PackPart.unused (p : PackPart) : ℕ :=
  match p.dir with
  | .e | .V | .W => packMax p.dir - p.head
  | _ => 0

/-- The same for the parts of a format. -/
def packUnused (ps : List PackPart) : ℕ := (ps.map PackPart.unused).sum

/-- The strings that are so long that their length wraps. -/
def packLongs (ps : List PackPart) : ℕ := ps.countP fun p => 2 ^ 32 ≤ p.size

/-- Each `S` is behind an `s` of its own. -/
def SignsOpen (fmt : List PackDir) : Prop := ∀ xs ys, fmt = xs ++ ys → xs.count .S ≤ xs.count .s

/-- What the parts are counted as. -/
theorem packFrom_size {sign : Bytes → Bytes → Bytes} (hsign : ∀ m k, (sign m k).length = tripSign)
    {cap : ℕ} (hcap : cap < 2 ^ 63) : ∀ {fmt : List PackDir} {as : List PackArg}
    {ps : List PackPart} {all : Bool} {s s' : PackState}, packParts fmt as = some (ps, all) →
      s.size ≤ cap → packFrom sign cap fmt s as = .ok s' →
      all = true ∧ s'.size = s.size + packCounted ps := by
  intro fmt
  induction fmt with
  | nil =>
    rintro as ps all s s' ⟨⟩ - ⟨⟩
    exact ⟨rfl, rfl⟩
  | cons d fmt ih =>
    intro as ps all s s' hparts hs hok
    rw [packFrom_cons] at hok
    rcases packParts_cons hparts with ⟨hd, -, -⟩ | ⟨p, as', ps', htake, hrest, rfl⟩
    · rw [packDir_unknown hd] at hok
      exact nomatch hok
    · obtain ⟨hfull, hfits⟩ := packDir_part hsign htake hcap hs
      rcases Nat.lt_or_ge cap (s.size + p.counted) with hlt | hle
      · rw [hfull hlt] at hok
        exact nomatch hok
      · obtain ⟨t, hdir, hstep⟩ := hfits hle
        rw [hdir] at hok
        have ht := hstep.size
        obtain ⟨hall, hsize⟩ := ih (s := t) hrest (by omega) hok
        refine ⟨hall, ?_⟩
        rw [hsize, ht, packCounted_cons, Nat.add_assoc]

/-- A part against what is counted for its directive. -/
theorem packTake_max {d : PackDir} {as as' : List PackArg} {p : PackPart}
    (h : packTake d as = some (p, as')) :
    packMax d + (if d = .S then tripSign else 0) + (if p.dir = .b then p.head else 0) =
      p.head + p.unused + (if d = .s then tripSign else 0) := by
  have hdir := (packTake_bounds h).1
  unfold packTake at h
  split at h
  case h_7 | h_8 | h_9 =>
    split at h
    · cases h
      simp [packMax, PackPart.unused]
    · cases h
  case h_18 I _ =>
    have hlen := tripUvarLen_toUInt64_le I
    cases h
    simp only [packMax, PackPart.unused, reduceCtorEq, if_false]
    omega
  case h_19 Q _ =>
    have hlen := PackItem.tripUvarLen_le_eight Q
    cases h
    simp only [packMax, PackPart.unused, reduceCtorEq, if_false]
    omega
  case h_20 => cases h
  all_goals
    cases h
    rfl

/-- The parts of a format against what is counted for it. -/
theorem packParts_max : ∀ {fmt : List PackDir} {as : List PackArg} {ps : List PackPart},
    packParts fmt as = some (ps, true) →
      packMaxSum fmt + tripSign * fmt.count .S + packStringHeads ps =
        (ps.map PackPart.head).sum + packUnused ps + tripSign * fmt.count .s := by
  intro fmt
  induction fmt with
  | nil =>
    rintro as ps ⟨⟩
    rfl
  | cons d fmt ih =>
    intro as ps hparts
    rcases packParts_cons hparts with ⟨-, -, h⟩ | ⟨p, as', ps', htake, hrest, rfl⟩
    · exact absurd h (Bool.false_ne_true ∘ Eq.symm)
    · have hpart := packTake_max htake
      have hsum := ih hrest
      have hcount : ∀ f : PackDir, tripSign * (d :: fmt).count f =
          tripSign * fmt.count f + if d = f then tripSign else 0 := by
        intro f
        rw [List.count_cons, Nat.mul_add]
        simp only [beq_iff_eq, mul_ite, Nat.mul_one, Nat.mul_zero]
      rw [hcount, hcount]
      simp only [packMaxSum, packStringHeads, packUnused, List.map_cons, List.sum_cons] at hsum ⊢
      omega

/-- What the parts are counted as, but for the strings that are too long. -/
theorem packParts_counted : ∀ {fmt : List PackDir} {as : List PackArg} {ps : List PackPart}
    {all : Bool}, packParts fmt as = some (ps, all) →
      packCounted ps + 2 ^ 32 * packLongs ps =
        (ps.map PackPart.head).sum + packPayload ps := by
  intro fmt
  induction fmt with
  | nil =>
    rintro as ps all ⟨⟩
    rfl
  | cons d fmt ih =>
    intro as ps all hparts
    rcases packParts_cons hparts with ⟨-, rfl, -⟩ | ⟨p, as', ps', htake, hrest, rfl⟩
    · rfl
    · have hsum := ih hrest
      obtain ⟨-, hhead, hbody, -, -⟩ := packTake_bounds htake
      have hsize : p.size = p.head + p.body := rfl
      have hcounted : p.counted = p.size % 2 ^ 32 := rfl
      rw [packCounted_cons]
      simp only [packLongs, packPayload, List.map_cons, List.sum_cons, List.countP_cons,
        decide_eq_true_eq] at hsum ⊢
      split <;> omega

/-- **When `trip_pack_len` is enough.**  What is packed beside the strings is no more than
`trip_pack_len` gives if and only if the lengths of the strings find room in what it counts
too much. -/
theorem trip_pack_len_iff {sign : Bytes → Bytes → Bytes}
    (hsign : ∀ m k, (sign m k).length = tripSign) {fmt : List PackDir} {as : List PackArg}
    {ps : List PackPart} {all : Bool} (hparts : packParts fmt as = some (ps, all))
    (hopen : SignsOpen fmt) {cap : ℕ} (hcap : cap < 2 ^ 63) {buf mem : Buf} {r : ℕ}
    (hpack : tripPack sign cap buf fmt as = some (r, mem)) (hr : r ≠ NPOS) :
    (r : ℤ) - packPayload ps ≤ tripPackLen fmt ↔
      packStringHeads ps + 2 ^ 32 * (packMaxSum fmt / 2 ^ 32) ≤
        packUnused ps + tripSign * (fmt.count .s - fmt.count .S) + 2 ^ 32 * packLongs ps := by
  have hok : ∃ s', packFrom sign cap fmt (packStart buf) as = .ok s' ∧ s'.size = r := by
    unfold tripPack at hpack
    split at hpack
    · next s' hs' =>
      cases hpack
      exact ⟨s', hs', rfl⟩
    · cases hpack
      exact absurd rfl hr
    · cases hpack
  obtain ⟨s', hfrom, rfl⟩ := hok
  obtain ⟨rfl, hsize⟩ := packFrom_size hsign hcap hparts (Nat.zero_le cap) hfrom
  rw [show (packStart buf).size = 0 from rfl, Nat.zero_add] at hsize
  have hmax := packParts_max hparts
  have hcounted := packParts_counted hparts
  have hcount := hopen fmt [] (List.append_nil fmt).symm
  rw [tripPackLen_eq, hsize]
  have hsign64 : tripSign = 64 := rfl
  rw [hsign64] at hmax ⊢
  omega

/-- What is set aside for an encryption that is not done is enough for a length. -/
theorem trip_pack_len_spare :
    ((19 : ℕ) : ℤ) - packPayload [⟨.e, 0, 0⟩, ⟨.b, 2, 3⟩, ⟨.E, 0, 0⟩, ⟨.V, 3, 0⟩, ⟨.Q, 8, 0⟩,
      ⟨.b, 1, 0⟩, ⟨.h, 2, 0⟩] ≤ tripPackLen [.e, .b, .E, .V, .Q, .b, .h] := by
  have hparts : packParts [.e, .b, .E, .V, .Q, .b, .h] [.uint 3, .ptr (some [1, 2, 3]), .uint 300,
      .uint64 5, .uint 0, .ptr none, .int 4] =
        some ([⟨.e, 0, 0⟩, ⟨.b, 2, 3⟩, ⟨.E, 0, 0⟩, ⟨.V, 3, 0⟩,
        ⟨.Q, 8, 0⟩, ⟨.b, 1, 0⟩, ⟨.h, 2, 0⟩], true) := by decide
  have hopen : SignsOpen [.e, .b, .E, .V, .Q, .b, .h] := by
    intro xs ys h
    have hsub : xs.Sublist _ := h ▸ List.sublist_append_left xs ys
    exact (hsub.count_le .S).trans (Nat.zero_le _)
  have hpack : ∃ mem, tripPack (fun _ _ => List.replicate tripSign 0) 19 default
      [.e, .b, .E, .V, .Q, .b, .h] [.uint 3, .ptr (some [1, 2, 3]), .uint 300, .uint64 5, .uint 0,
        .ptr none, .int 4] = some (19, mem) := ⟨_, rfl⟩
  obtain ⟨mem, hpack⟩ := hpack
  exact (trip_pack_len_iff (fun _ _ => List.length_replicate) hparts hopen (by decide) hpack
    (by decide)).mpr (by decide)

/-- The length byte of an empty string is not counted. -/
theorem trip_pack_len_short :
    ¬ ∀ (sign : Bytes → Bytes → Bytes) (fmt : List PackDir) (as : List PackArg)
        (ps : List PackPart) (all : Bool) (cap r : ℕ) (buf mem : Buf),
      (∀ m k, (sign m k).length = tripSign) → packParts fmt as = some (ps, all) → SignsOpen fmt →
        cap < 2 ^ 63 → tripPack sign cap buf fmt as = some (r, mem) → r ≠ NPOS →
          (r : ℤ) - packPayload ps ≤ tripPackLen fmt := by
  intro hall
  have hopen : SignsOpen [.b] := by
    intro xs ys h
    have hsub : xs.Sublist [.b] := h ▸ List.sublist_append_left xs ys
    exact (hsub.count_le .S).trans (Nat.zero_le _)
  have h := hall (fun _ _ => List.replicate tripSign 0) [.b] [.uint 0, .ptr none] [⟨.b, 1, 0⟩] true
    1 1 default _ (fun _ _ => List.length_replicate) (by decide) hopen (by decide) rfl (by decide)
  exact absurd h (by decide)

end Libtrp
