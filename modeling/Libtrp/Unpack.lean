import Mathlib.Data.UInt
import Libtrp.Pack

/-!
# Where `trip_unpack` reads

The loop counts the length it has used and moves the buffer it reads from, each by
hand in every case.  The two go together but for `b`: the length counts the string,
and the buffer is left at the string's first byte.

## Main definitions

* `unpackLoop` — the loop with both, from anywhere in the buffer.
* `unpackPos` — where the loop reads next.
* `EmptyStrings` — the strings of a format are empty.
* `unpackReads` — the offsets that are read.

## Main results

* `trip_unpack_splits_iff` — **when a format can be unpacked in two parts.**
* `trip_unpack_bounds` — **what is read and given out is inside the buffer.**

## References

`src/pack.c` (`trip_unpack`).
-/

namespace Libtrp

open Lib

/-! ### The loop with its position -/

/-- The loop of `trip_unpack`: the length and the position behind the last directive, and
what was written. -/
def unpackLoop (blen : ℕ) (buf : Buf) :
    List PackDir → ℕ → ℕ → Option (ℕ × ℕ) × List UnpackOut
  | [], len, pos => (some (len, pos), [])
  | d :: fmt, len, pos =>
    match unpackDir blen buf d len pos with
    | (none, out) => (none, out)
    | (some (len, pos), out) =>
      let (r, outs) := unpackLoop blen buf fmt len pos
      (r, out ++ outs)

theorem unpackLoop_cons (blen : ℕ) (buf : Buf) (d : PackDir) (fmt : List PackDir) (len pos : ℕ) :
    unpackLoop blen buf (d :: fmt) len pos =
      match unpackDir blen buf d len pos with
      | (none, out) => (none, out)
      | (some (len, pos), out) =>
        ((unpackLoop blen buf fmt len pos).1, out ++ (unpackLoop blen buf fmt len pos).2) := rfl

/-- What `trip_unpack` returns of it. -/
theorem unpackFrom_eq (blen : ℕ) (buf : Buf) (fmt : List PackDir) (len pos : ℕ) :
    unpackFrom blen buf fmt len pos =
      (((unpackLoop blen buf fmt len pos).1.map Prod.fst).getD NPOS,
        (unpackLoop blen buf fmt len pos).2) := by
  induction fmt generalizing len pos with
  | nil => rfl
  | cons d fmt ih =>
    unfold unpackFrom
    rw [unpackLoop_cons]
    rcases unpackDir blen buf d len pos with ⟨_ | ⟨len', pos'⟩, out⟩
    · rfl
    · simp only [ih]

/-- Where `trip_unpack` reads next when it has unpacked a format. -/
def unpackPos (blen : ℕ) (buf : Buf) (fmt : List PackDir) : ℕ :=
  ((unpackLoop blen buf fmt 0 0).1.map Prod.snd).getD 0

/-- The loop on two formats in turn. -/
theorem unpackLoop_append (blen : ℕ) (buf : Buf) (f₁ f₂ : List PackDir) (len pos : ℕ) :
    unpackLoop blen buf (f₁ ++ f₂) len pos =
      match unpackLoop blen buf f₁ len pos with
      | (none, out) => (none, out)
      | (some (len, pos), out) =>
        ((unpackLoop blen buf f₂ len pos).1, out ++ (unpackLoop blen buf f₂ len pos).2) := by
  induction f₁ generalizing len pos with
  | nil => rfl
  | cons d f₁ ih =>
    rw [List.cons_append, unpackLoop_cons, unpackLoop_cons]
    rcases unpackDir blen buf d len pos with ⟨_ | ⟨l, p⟩, out⟩
    · rfl
    · simp only [ih]
      rcases unpackLoop blen buf f₁ l p with ⟨_ | ⟨l', p'⟩, out'⟩
      · rfl
      · simp only [List.append_assoc]

/-! ### One directive -/

namespace Buf

@[simp] theorem drop_drop (buf : Buf) (m n : ℕ) : (buf.drop m).drop n = buf.drop (m + n) := by
  funext i
  simp only [Buf.drop, Nat.add_assoc]

@[simp] theorem drop_apply (buf : Buf) (n i : ℕ) : buf.drop n i = buf (n + i) := rfl

end Buf

/-- The length byte of a directive. -/
def unpackByte (buf : Buf) (pos : ℕ) : ℕ := (buf pos).toNat

/-- The length that `b` finds for its string. -/
def unpackString (buf : Buf) (pos : ℕ) : ℕ :=
  (unpackVar32 (unpackByte buf pos) (buf.drop (pos + 1))).toNat

theorem unpackString_lt (buf : Buf) (pos : ℕ) : unpackString buf pos < 2 ^ 32 := UInt32.toNat_lt _

theorem unpackByte_lt (buf : Buf) (pos : ℕ) : unpackByte buf pos < 256 := UInt8.toNat_lt _

/-- The directives with a length byte in front, and the largest length of each. -/
def PackDir.maxVar? : PackDir → Option ℕ
  | .b | .V => some 4
  | .W => some 8
  | _ => none

/-- The bytes a directive reads, or moves over. -/
def unpackWidth (buf : Buf) (pos : ℕ) (d : PackDir) : ℕ :=
  if d.maxVar?.isSome then 1 + unpackByte buf pos else (d.fixed?.map Prod.fst).getD 0

/-- What such a directive writes, but for the string of `b`. -/
def unpackNumber (buf : Buf) (pos : ℕ) : PackDir → UnpackOut
  | .W => .uint64 (unpackVar64 (unpackByte buf pos) (buf.drop (pos + 1)))
  | _ => .uint32 (unpackVar32 (unpackByte buf pos) (buf.drop (pos + 1)))

/-- What is done behind the number: `b` gives out its string, which is not moved
over. -/
def unpackBehind (blen : ℕ) (buf : Buf) (pos : ℕ) (d : PackDir) (len : ℕ) :
    Option (ℕ × ℕ) × List UnpackOut :=
  let next := pos + 1 + unpackByte buf pos
  if d = .b then
    let len := (len + unpackString buf pos) % 2 ^ 64
    if blen < len then (none, [unpackNumber buf pos d])
    else (some (len, next), [unpackNumber buf pos d, .pointer next])
  else (some (len, next), [unpackNumber buf pos d])

/-- The three directives with a length byte do the same checks. -/
theorem unpackDir_eq_var {d : PackDir} {max : ℕ} (hd : d.maxVar? = some max) (blen : ℕ)
    (buf : Buf) (len pos : ℕ) :
    unpackDir blen buf d len pos =
      if blen < (len + 1) % 2 ^ 64 then (none, [])
      else if max < unpackByte buf pos ∨ blen < (len + 1 + unpackByte buf pos) % 2 ^ 64 then
        (none, [])
      else unpackBehind blen buf pos d ((len + 1 + unpackByte buf pos) % 2 ^ 64) := by
  have hmod : ((len + 1) % 2 ^ 64 + unpackByte buf pos) % 2 ^ 64 =
      (len + 1 + unpackByte buf pos) % 2 ^ 64 := Nat.mod_add_mod _ _ _
  cases d <;> simp only [PackDir.maxVar?, Option.some.injEq, reduceCtorEq] at hd <;> subst hd
  case b =>
    rw [← hmod]
    rfl
  case V =>
    rw [Nat.add_assoc len 1]
    rfl
  case W =>
    rw [← hmod]
    rfl

/-- The other directives are refused. -/
theorem unpackDir_eq_refused {d : PackDir} (hf : d.fixed? = none) (hv : d.maxVar? = none)
    (blen : ℕ) (buf : Buf) (len pos : ℕ) : unpackDir blen buf d len pos = (none, []) := by
  cases d
  case e | E | s | S | p | other => rfl
  case b | V | W => exact absurd hv (Option.some_ne_none _)
  all_goals exact absurd hf (Option.some_ne_none _)

theorem fixed_le {d : PackDir} {n : ℕ} {out : Buf → List UnpackOut}
    (hd : d.fixed? = some (n, out)) : n ≤ 48 := by
  cases d <;> simp only [PackDir.fixed?, Option.some.injEq, Prod.mk.injEq, reduceCtorEq] at hd <;>
    rw [← hd.1] <;> decide

theorem maxVar_le {d : PackDir} {max : ℕ} (hd : d.maxVar? = some max) : max ≤ 8 := by
  cases d <;> simp only [PackDir.maxVar?, Option.some.injEq, reduceCtorEq] at hd <;> omega

theorem fixed_of_maxVar {d : PackDir} {max : ℕ} (hd : d.maxVar? = some max) : d.fixed? = none := by
  cases d
  case b | V | W => rfl
  all_goals exact nomatch hd

/-- A directive of a fixed size, also where the length wraps. -/
theorem unpackDir_eq_fixed_mod {d : PackDir} {n : ℕ} {out : Buf → List UnpackOut}
    (hd : d.fixed? = some (n, out)) {blen : ℕ} (hblen : blen < 2 ^ 64) (buf : Buf) {len : ℕ}
    (hlen : len ≤ blen) (pos : ℕ) :
    unpackDir blen buf d len pos = if blen < (len + n) % 2 ^ 64 then (none, [])
      else (some ((len + n) % 2 ^ 64, pos + n), out (buf.drop pos)) := by
  cases d <;> simp only [PackDir.fixed?, Option.some.injEq, Prod.mk.injEq, reduceCtorEq] at hd <;>
    obtain ⟨rfl, rfl⟩ := hd
  case O =>
    rw [Nat.add_zero, Nat.mod_eq_of_lt (by omega), if_neg (Nat.not_lt.mpr hlen)]
    rfl
  all_goals rfl

/-- The string that is counted and not moved over. -/
def unpackBehindLen (buf : Buf) (pos : ℕ) (d : PackDir) : ℕ :=
  if d = .b then unpackString buf pos else 0

/-- **What a directive adds** to the position and to the length. -/
theorem unpackDir_some {blen : ℕ} (hblen : blen < 2 ^ 64) {buf : Buf} {d : PackDir} {len pos : ℕ}
    (hlen : len ≤ blen) {len' pos' : ℕ} {out : List UnpackOut}
    (h : unpackDir blen buf d len pos = (some (len', pos'), out)) :
    pos' = pos + unpackWidth buf pos d ∧ unpackWidth buf pos d ≤ 48 ∧ len' ≤ blen ∧
      len' = (len + unpackWidth buf pos d + unpackBehindLen buf pos d) % 2 ^ 64 := by
  cases hf : d.fixed? with
  | some f =>
    obtain ⟨n, o⟩ := f
    have hv : d.maxVar? = none := by
      cases hv : d.maxVar? with
      | none => rfl
      | some max => exact absurd (hf.symm.trans (fixed_of_maxVar hv)) (Option.some_ne_none _)
    have hwidth : unpackWidth buf pos d = n := by
      rw [unpackWidth, hv, hf]
      rfl
    have hb : d ≠ .b := by
      rintro rfl
      exact absurd hv (Option.some_ne_none _)
    rw [unpackDir_eq_fixed_mod hf hblen buf hlen] at h
    rw [hwidth, unpackBehindLen, if_neg hb]
    split at h
    · cases h
    · cases h
      exact ⟨rfl, fixed_le hf, by omega, rfl⟩
  | none =>
    cases hv : d.maxVar? with
    | none =>
      rw [unpackDir_eq_refused hf hv] at h
      cases h
    | some max =>
      have hwidth : unpackWidth buf pos d = 1 + unpackByte buf pos := by
        rw [unpackWidth, hv]
        rfl
      have hmax := maxVar_le hv
      rw [unpackDir_eq_var hv] at h
      rw [hwidth, unpackBehindLen]
      unfold unpackBehind at h
      dsimp only at h
      split_ifs at h with hone htwo hb hstring
      · cases h
      · cases h
      · cases h
      · cases h
        rw [if_pos hb]
        refine ⟨Nat.add_assoc _ _ _, by omega, by omega, ?_⟩
        rw [Nat.mod_add_mod, Nat.add_assoc len 1]
      · cases h
        rw [if_neg hb]
        refine ⟨Nat.add_assoc _ _ _, by omega, by omega, ?_⟩
        rw [Nat.add_assoc len 1, Nat.add_zero]

/-! ### Two parts of a buffer -/

/-- What a call at `buf + k` writes, from the beginning of the buffer. -/
def UnpackOut.shift (k : ℕ) : UnpackOut → UnpackOut
  | .pointer pos => .pointer (k + pos)
  | u => u

@[simp] theorem shift_pointer (k pos : ℕ) :
    (UnpackOut.pointer pos).shift k = .pointer (k + pos) := rfl

/-- The result of such a call, from the beginning of the buffer. -/
def unpackShift (k : ℕ) (r : Option (ℕ × ℕ) × List UnpackOut) :
    Option (ℕ × ℕ) × List UnpackOut :=
  (r.1.map fun p => (k + p.1, k + p.2), r.2.map (UnpackOut.shift k))

/-- No pointer is given out by a directive of a fixed size. -/
theorem fixed_shift {d : PackDir} {n : ℕ} {out : Buf → List UnpackOut}
    (hd : d.fixed? = some (n, out)) (k : ℕ) (b : Buf) :
    (out b).map (UnpackOut.shift k) = out b := by
  cases d <;> simp only [PackDir.fixed?, Option.some.injEq, Prod.mk.injEq, reduceCtorEq] at hd <;>
    obtain ⟨-, rfl⟩ := hd <;> rfl

section Shift

variable {blen k : ℕ} (hblen : blen < 2 ^ 63) (hk : k ≤ blen) (buf : Buf)
include hblen hk

/-- **A directive at `buf + k`** does what it does there in the whole buffer. -/
theorem unpackDir_shift (d : PackDir) {len : ℕ} (hlen : len ≤ blen - k) (pos : ℕ) :
    unpackDir blen buf d (k + len) (k + pos) =
      unpackShift k (unpackDir (blen - k) (buf.drop k) d len pos) := by
  cases hf : d.fixed? with
  | some f =>
    obtain ⟨n, out⟩ := f
    have hn := fixed_le hf
    rw [unpackDir_eq_fixed hf buf _ (by omega) (by omega),
      unpackDir_eq_fixed hf (buf.drop k) _ hlen (by omega), Buf.drop_drop]
    by_cases hle : len + n ≤ blen - k
    · rw [if_pos (by omega), if_pos hle, unpackShift, fixed_shift hf]
      simp only [Option.map_some, Nat.add_assoc]
    · rw [if_neg (by omega), if_neg hle]
      rfl
  | none =>
    cases hv : d.maxVar? with
    | none =>
      rw [unpackDir_eq_refused hf hv, unpackDir_eq_refused hf hv]
      rfl
    | some max =>
      have hmax := maxVar_le hv
      have hbyte : unpackByte (buf.drop k) pos = unpackByte buf (k + pos) := rfl
      have hb := unpackByte_lt buf (k + pos)
      have hs := unpackString_lt buf (k + pos)
      have hstring : unpackString (buf.drop k) pos = unpackString buf (k + pos) := by
        unfold unpackString
        rw [hbyte, Buf.drop_drop, Nat.add_assoc]
      have hnumber : unpackNumber (buf.drop k) pos d = unpackNumber buf (k + pos) d := by
        unfold unpackNumber
        rw [hbyte, Buf.drop_drop, ← Nat.add_assoc]
      have hshift : (unpackNumber buf (k + pos) d).shift k = unpackNumber buf (k + pos) d := by
        unfold unpackNumber
        split <;> rfl
      rw [unpackDir_eq_var hv, unpackDir_eq_var hv, hbyte]
      generalize hl : unpackByte buf (k + pos) = l at hb
      rw [Nat.mod_eq_of_lt (show k + len + 1 < 2 ^ 64 by omega),
        Nat.mod_eq_of_lt (show len + 1 < 2 ^ 64 by omega),
        Nat.mod_eq_of_lt (show k + len + 1 + l < 2 ^ 64 by omega),
        Nat.mod_eq_of_lt (show len + 1 + l < 2 ^ 64 by omega)]
      by_cases hone : blen - k < len + 1
      · rw [if_pos (by omega), if_pos hone]
        rfl
      · rw [if_neg (by omega), if_neg hone]
        by_cases htwo : max < l ∨ blen - k < len + 1 + l
        · rw [if_pos (by omega), if_pos htwo]
          rfl
        · rw [if_neg (by omega), if_neg htwo]
          -- the number is there, and the string of `b` may be
          unfold unpackBehind
          rw [hnumber, hstring, hbyte, hl,
            Nat.mod_eq_of_lt (show k + len + 1 + l + unpackString buf (k + pos) < 2 ^ 64 by omega),
            Nat.mod_eq_of_lt (show len + 1 + l + unpackString buf (k + pos) < 2 ^ 64 by omega)]
          dsimp only
          split
          · by_cases hstr : blen - k < len + 1 + l + unpackString buf (k + pos)
            · rw [if_pos (by omega), if_pos hstr, unpackShift, List.map_singleton, hshift]
              rfl
            · rw [if_neg (by omega), if_neg hstr]
              simp only [unpackShift, Option.map_some, List.map_cons, List.map_nil, hshift,
                shift_pointer, Nat.add_assoc]
          · simp only [unpackShift, Option.map_some, List.map_cons, List.map_nil, hshift,
              Nat.add_assoc]

/-- **A format at `buf + k`** does what it does there in the whole buffer. -/
theorem unpackLoop_shift (fmt : List PackDir) {len : ℕ} (hlen : len ≤ blen - k) (pos : ℕ) :
    unpackLoop blen buf fmt (k + len) (k + pos) =
      unpackShift k (unpackLoop (blen - k) (buf.drop k) fmt len pos) := by
  induction fmt generalizing len pos with
  | nil => rfl
  | cons d fmt ih =>
    rw [unpackLoop_cons, unpackLoop_cons, unpackDir_shift hblen hk buf d hlen]
    rcases hdir : unpackDir (blen - k) (buf.drop k) d len pos with ⟨_ | ⟨l, p⟩, out⟩
    · rfl
    · have hle := (unpackDir_some (by omega) hlen hdir).2.2.1
      simp only [unpackShift, Option.map_some, ih hle, List.map_append]

end Shift

/-! ### Strings that are empty -/

/-- The strings that a format finds are empty. -/
def EmptyStrings (buf : Buf) : List PackDir → ℕ → Prop
  | [], _ => True
  | d :: fmt, pos =>
    unpackBehindLen buf pos d = 0 ∧ EmptyStrings buf fmt (pos + unpackWidth buf pos d)

instance decidableEmptyStrings (buf : Buf) :
    ∀ (fmt : List PackDir) (pos : ℕ), Decidable (EmptyStrings buf fmt pos)
  | [], _ => .isTrue trivial
  | _ :: fmt, _ => @instDecidableAnd _ _ _ (decidableEmptyStrings buf fmt _)

/-- The position is behind the length by the strings that were found. -/
theorem unpackLoop_gap {blen : ℕ} (hblen : blen < 2 ^ 63) {buf : Buf} {fmt : List PackDir}
    {len pos : ℕ} (hlen : len ≤ blen) {len' pos' : ℕ}
    (h : (unpackLoop blen buf fmt len pos).1 = some (len', pos')) :
    len' ≤ blen ∧ pos' + len ≤ pos + len' ∧
      (pos' + len = pos + len' ↔ EmptyStrings buf fmt pos) := by
  induction fmt generalizing len pos with
  | nil =>
    obtain ⟨rfl, rfl⟩ := Prod.mk.inj (Option.some.inj h)
    exact ⟨hlen, le_rfl, iff_of_true rfl trivial⟩
  | cons d fmt ih =>
    rw [unpackLoop_cons] at h
    rcases hdir : unpackDir blen buf d len pos with ⟨_ | ⟨l, p⟩, out⟩
    · rw [hdir] at h
      exact nomatch h
    · rw [hdir] at h
      obtain ⟨hp, hwidth, hl, hsum⟩ := unpackDir_some (by omega) hlen hdir
      have hstring : unpackBehindLen buf pos d < 2 ^ 32 := by
        unfold unpackBehindLen
        split
        · exact unpackString_lt buf pos
        · exact Nat.two_pow_pos 32
      rw [Nat.mod_eq_of_lt (by omega)] at hsum
      obtain ⟨hlen', hle, hiff⟩ := ih hl h
      refine ⟨hlen', by omega, ?_⟩
      rw [EmptyStrings, ← hp, ← hiff]
      omega

/-! ### Chained calls -/

/-- A format behind another is unpacked from the whole buffer as it is from the rest of it,
and to the same effect. -/
structure Splits (blen : ℕ) (buf : Buf) (f₁ f₂ : List PackDir) : Prop where
  /-- The one succeeds when the other does. -/
  succeeds : (tripUnpack blen buf (f₁ ++ f₂)).1 ≠ NPOS ↔
    (tripUnpack (blen - (tripUnpack blen buf f₁).1) (buf.drop (tripUnpack blen buf f₁).1) f₂).1 ≠
      NPOS
  /-- The length is the sum. -/
  length : (tripUnpack blen buf (f₁ ++ f₂)).1 ≠ NPOS → (tripUnpack blen buf (f₁ ++ f₂)).1 =
    (tripUnpack blen buf f₁).1 +
      (tripUnpack (blen - (tripUnpack blen buf f₁).1) (buf.drop (tripUnpack blen buf f₁).1) f₂).1
  /-- The same is written. -/
  outs : (tripUnpack blen buf (f₁ ++ f₂)).2 = (tripUnpack blen buf f₁).2 ++
    (tripUnpack (blen - (tripUnpack blen buf f₁).1) (buf.drop (tripUnpack blen buf f₁).1) f₂).2.map
      (UnpackOut.shift (tripUnpack blen buf f₁).1)

/-- The loop behind a call that succeeded. -/
theorem unpackLoop_of_tripUnpack {blen : ℕ} {buf : Buf} {fmt : List PackDir}
    (h : (tripUnpack blen buf fmt).1 ≠ NPOS) :
    unpackLoop blen buf fmt 0 0 =
      (some ((tripUnpack blen buf fmt).1, unpackPos blen buf fmt),
        (tripUnpack blen buf fmt).2) := by
  rw [tripUnpack, unpackFrom_eq] at h ⊢
  unfold unpackPos
  revert h
  rcases unpackLoop blen buf fmt 0 0 with ⟨_ | ⟨len, pos⟩, out⟩
  · exact fun h => absurd rfl h
  · exact fun _ => rfl

/-- Where the position is the length, a format behind is unpacked as from the rest. -/
theorem splits_of_pos {blen : ℕ} (hblen : blen < 2 ^ 63) {buf : Buf} {f₁ : List PackDir}
    (h : (tripUnpack blen buf f₁).1 ≠ NPOS)
    (hpos : unpackPos blen buf f₁ = (tripUnpack blen buf f₁).1) (f₂ : List PackDir) :
    Splits blen buf f₁ f₂ := by
  have hloop := unpackLoop_of_tripUnpack h
  obtain ⟨hk, -, -⟩ := unpackLoop_gap hblen (Nat.zero_le blen) (congrArg Prod.fst hloop)
  have happend := unpackLoop_append blen buf f₁ f₂ 0 0
  rw [hloop, hpos] at happend
  generalize hk' : (tripUnpack blen buf f₁).1 = k at hk happend
  generalize hout : (tripUnpack blen buf f₁).2 = out at happend
  have hshift := unpackLoop_shift hblen hk buf f₂ (Nat.zero_le _) 0
  dsimp only at happend
  rw [Nat.add_zero] at hshift
  rw [hshift] at happend
  have hrest : ∀ p, (unpackLoop (blen - k) (buf.drop k) f₂ 0 0).1 = some p → p.1 ≤ blen - k :=
    fun p hp => (unpackLoop_gap (by omega) (Nat.zero_le _) hp).1
  have hnpos : NPOS = 2 ^ 64 - 1 := rfl
  constructor
  all_goals rw [hk']
  · rw [tripUnpack, tripUnpack, unpackFrom_eq, unpackFrom_eq, happend, unpackShift]
    rcases hp : (unpackLoop (blen - k) (buf.drop k) f₂ 0 0).1 with _ | p
    · simp
    · have hle := hrest p hp
      simp only [Option.map_some, Option.getD_some]
      omega
  · rw [tripUnpack, tripUnpack, unpackFrom_eq, unpackFrom_eq, happend, unpackShift]
    rcases (unpackLoop (blen - k) (buf.drop k) f₂ 0 0).1 with _ | p
    · simp
    · simp
  · rw [hout, tripUnpack, tripUnpack, unpackFrom_eq, unpackFrom_eq, happend, unpackShift]

/-- **When a format can be unpacked in two parts.**  Behind a format that was unpacked the
position is the length, and every format behind it is unpacked as from the rest of the
buffer, exactly when all its strings are empty. -/
theorem trip_unpack_splits_iff {blen : ℕ} (hblen : blen < 2 ^ 63) (buf : Buf) (f₁ : List PackDir)
    (h : (tripUnpack blen buf f₁).1 ≠ NPOS) :
    (unpackPos blen buf f₁ = (tripUnpack blen buf f₁).1 ∧ ∀ f₂, Splits blen buf f₁ f₂) ↔
      EmptyStrings buf f₁ 0 := by
  have hloop := congrArg Prod.fst (unpackLoop_of_tripUnpack h)
  obtain ⟨-, -, hiff⟩ := unpackLoop_gap hblen (Nat.zero_le blen) hloop
  rw [← hiff, Nat.add_zero, Nat.zero_add]
  exact ⟨fun hall => hall.1, fun hpos => ⟨hpos, splits_of_pos hblen h hpos⟩⟩

/-- A buffer of the given bytes. -/
def bufOf (bs : Bytes) : Buf := fun i => bs.getD i 0

/-- An empty string and a number. -/
theorem trip_unpack_splits_empty :
    unpackPos 3 (bufOf [0, 7, 9]) [.b, .C] = 2 ∧ ∀ f₂, Splits 3 (bufOf [0, 7, 9]) [.b, .C] f₂ :=
  (trip_unpack_splits_iff (by decide) (bufOf [0, 7, 9]) [.b, .C] (by decide)).mpr (by decide)

/-- A byte behind a string of one byte: in one call it is the string's. -/
theorem trip_unpack_rereads :
    ¬ ∀ (blen : ℕ) (buf : Buf) (f₁ f₂ : List PackDir), blen < 2 ^ 63 →
      (tripUnpack blen buf f₁).1 ≠ NPOS →
        unpackPos blen buf f₁ = (tripUnpack blen buf f₁).1 ∧ Splits blen buf f₁ f₂ := by
  intro hall
  have h := (hall 4 (bufOf [1, 1, 7, 9]) [.b] [.C] (by decide) (by decide)).2.outs
  exact absurd h (by decide)

/-! ### What is read -/

/-- The offsets that a directive with a length byte reads at. -/
def unpackVarReads (blen : ℕ) (buf : Buf) (max len pos : ℕ) : List ℕ :=
  if blen < (len + 1) % 2 ^ 64 then []
  else pos :: if max < unpackByte buf pos ∨ blen < (len + 1 + unpackByte buf pos) % 2 ^ 64 then []
    else List.range' (pos + 1) (unpackByte buf pos)

/-- The offsets that a directive reads at; `o` moves over its bytes. -/
def unpackDirReads (blen : ℕ) (buf : Buf) (d : PackDir) (len pos : ℕ) : List ℕ :=
  match d.maxVar?, d.fixed? with
  | some max, _ => unpackVarReads blen buf max len pos
  | none, some (n, _) =>
    if d = .o ∨ blen < (len + n) % 2 ^ 64 then [] else List.range' pos n
  | none, none => []

/-- The offsets that the loop reads at. -/
def unpackReads (blen : ℕ) (buf : Buf) : List PackDir → ℕ → ℕ → List ℕ
  | [], _, _ => []
  | d :: fmt, len, pos =>
    unpackDirReads blen buf d len pos ++
      match (unpackDir blen buf d len pos).1 with
      | none => []
      | some (len, pos) => unpackReads blen buf fmt len pos

/-- A directive of a fixed size depends on its bytes. -/
theorem fixed_congr {d : PackDir} {n : ℕ} {out : Buf → List UnpackOut}
    (hd : d.fixed? = some (n, out)) {b b' : Buf} (h : d ≠ .o → ∀ i < n, b' i = b i) :
    out b' = out b := by
  cases d <;> simp only [PackDir.fixed?, Option.some.injEq, Prod.mk.injEq, reduceCtorEq] at hd <;>
    obtain ⟨rfl, rfl⟩ := hd
  case o | O => rfl
  case n | k =>
    have hs : ∀ m ≤ 64, (∀ i < m, b' i = b i) → slice b' 0 m = slice b 0 m := by
      intro m _ hm
      refine slice_congr fun i hi => ?_
      rw [Nat.zero_add]
      exact hm i hi
    simp only [hs _ (by decide) (h (by decide))]
  case c | C => simp only [h (by decide) 0 (by decide)]
  case h | H =>
    have h := h (by decide)
    simp only [unpacki16, unpacku16, h 0 (by decide), h 1 (by decide)]
  case i | I =>
    have h := h (by decide)
    have hu : unpacku32 b' = unpacku32 b := by
      simp only [unpacku32, h 0 (by decide), h 1 (by decide), h 2 (by decide), h 3 (by decide)]
    simp only [unpacki32, hu]
  case q | Q =>
    have h := h (by decide)
    have hu : unpacku64 b' = unpacku64 b := by
      simp only [unpacku64, h 0 (by decide), h 1 (by decide), h 2 (by decide), h 3 (by decide),
        h 4 (by decide), h 5 (by decide), h 6 (by decide), h 7 (by decide)]
    simp only [unpacki64, hu]

/-- **A directive depends on what it reads.** -/
theorem unpackDir_congr {blen : ℕ} (hblen : blen < 2 ^ 64) {buf buf' : Buf} {d : PackDir}
    {len pos : ℕ} (hlen : len ≤ blen)
    (h : ∀ i ∈ unpackDirReads blen buf d len pos, buf' i = buf i) :
    unpackDir blen buf' d len pos = unpackDir blen buf d len pos := by
  cases hv : d.maxVar? with
  | some max =>
    rw [unpackDir_eq_var hv, unpackDir_eq_var hv]
    simp only [unpackDirReads, hv, unpackVarReads] at h
    by_cases hone : blen < (len + 1) % 2 ^ 64
    · rw [if_pos hone, if_pos hone]
    · rw [if_neg hone] at h
      have hbyte : unpackByte buf' pos = unpackByte buf pos :=
        congrArg UInt8.toNat (h pos List.mem_cons_self)
      rw [if_neg hone, if_neg hone, hbyte]
      by_cases htwo : max < unpackByte buf pos ∨ blen < (len + 1 + unpackByte buf pos) % 2 ^ 64
      · rw [if_pos htwo, if_pos htwo]
      · rw [if_neg htwo] at h
        -- the number is made of the bytes behind the length
        have hslice : slice (buf'.drop (pos + 1)) 0 (unpackByte buf pos) =
            slice (buf.drop (pos + 1)) 0 (unpackByte buf pos) := by
          refine slice_congr fun i hi => ?_
          rw [Nat.zero_add]
          refine h _ (List.mem_cons_of_mem _ (List.mem_range'_1.mpr ?_))
          omega
        have hstring : unpackString buf' pos = unpackString buf pos := by
          unfold unpackString unpackVar32
          rw [hbyte, hslice]
        have hnumber : unpackNumber buf' pos d = unpackNumber buf pos d := by
          unfold unpackNumber unpackVar32 unpackVar64
          rw [hbyte, hslice]
        rw [if_neg htwo, if_neg htwo]
        unfold unpackBehind
        rw [hnumber, hstring, hbyte]
  | none =>
    cases hf : d.fixed? with
    | none => rw [unpackDir_eq_refused hf hv, unpackDir_eq_refused hf hv]
    | some f =>
      obtain ⟨n, out⟩ := f
      rw [unpackDir_eq_fixed_mod hf hblen buf' hlen, unpackDir_eq_fixed_mod hf hblen buf hlen]
      simp only [unpackDirReads, hv, hf] at h
      split
      · rfl
      · next hroom =>
        suffices hout : out (buf'.drop pos) = out (buf.drop pos) by rw [hout]
        refine fixed_congr hf fun ho i hi => ?_
        refine h _ ?_
        rw [if_neg (by simp only [ho, hroom, or_self, not_false_eq_true]), List.mem_range'_1]
        omega

/-- **A format depends on what it reads.** -/
theorem unpackLoop_congr {blen : ℕ} (hblen : blen < 2 ^ 64) {buf buf' : Buf} {fmt : List PackDir}
    {len pos : ℕ} (hlen : len ≤ blen) (h : ∀ i ∈ unpackReads blen buf fmt len pos, buf' i = buf i) :
    unpackLoop blen buf' fmt len pos = unpackLoop blen buf fmt len pos := by
  induction fmt generalizing len pos with
  | nil => rfl
  | cons d fmt ih =>
    rw [unpackReads] at h
    rw [unpackLoop_cons, unpackLoop_cons,
      unpackDir_congr hblen hlen fun i hi => h i (List.mem_append_left _ hi)]
    rcases hdir : unpackDir blen buf d len pos with ⟨_ | ⟨l, p⟩, out⟩
    · rfl
    · rw [hdir] at h
      have hle := (unpackDir_some hblen hlen hdir).2.2.1
      simp only [ih hle fun i hi => h i (List.mem_append_right _ hi)]

/-! ### Bounds -/

/-- The strings that are given out end before `blen`, each behind its length. -/
def StringsIn (blen : ℕ) (outs : List UnpackOut) : Prop :=
  ∀ xs pos ys, outs = xs ++ .pointer pos :: ys →
    ∃ xs' n, xs = xs' ++ [.uint32 n] ∧ pos + n.toNat ≤ blen

namespace StringsIn

variable {blen : ℕ} {outs outs' : List UnpackOut}

theorem of_no_pointer (h : ∀ pos, .pointer pos ∉ outs) : StringsIn blen outs := by
  rintro xs pos ys rfl
  exact absurd (List.mem_append_right xs List.mem_cons_self) (h pos)

theorem append (h : StringsIn blen outs) (h' : StringsIn blen outs') :
    StringsIn blen (outs ++ outs') := by
  intro xs pos ys heq
  rcases List.append_eq_append_iff.mp heq with ⟨zs, rfl, hzs⟩ | ⟨zs, rfl, hzs⟩
  · obtain ⟨xs', n, rfl, hn⟩ := h' zs pos ys hzs
    exact ⟨outs ++ xs', n, (List.append_assoc _ _ _).symm, hn⟩
  · cases zs with
    | nil =>
      -- the pointer would be the first of the second part, with no length before it
      obtain ⟨xs', n, hxs, -⟩ := h' [] pos ys hzs.symm
      exact absurd hxs.symm (by simp)
    | cons z zs =>
      obtain ⟨rfl, rfl⟩ : z = .pointer pos ∧ _ := by simpa [eq_comm] using hzs
      exact h xs pos zs rfl

/-- A string and its length. -/
theorem pair {n : UInt32} {pos : ℕ} (h : pos + n.toNat ≤ blen) :
    StringsIn blen [.uint32 n, .pointer pos] := by
  intro xs pos' ys heq
  rcases xs with _ | ⟨x, _ | ⟨y, xs⟩⟩
  · exact absurd (List.cons.inj heq).1 (by simp)
  · simp only [List.cons_append, List.nil_append, List.cons.injEq, UnpackOut.pointer.injEq] at heq
    obtain ⟨rfl, rfl, -⟩ := heq
    exact ⟨[], n, rfl, h⟩
  · exact absurd heq (by simp)

end StringsIn

/-- There is room: the position is within the length, which does not wrap, or the
directives that are left cannot reach the end. -/
def UnpackRoom (blen len pos rest : ℕ) : Prop :=
  len ≤ blen ∧ (blen + 2 ^ 33 ≤ 2 ^ 64 ∧ pos ≤ len ∨ pos + 48 * rest + 2 ^ 33 ≤ blen)

section Bounds

variable {blen : ℕ} {buf : Buf} {d : PackDir} {len pos rest : ℕ}

/-- What a directive reads is within the bytes it moves over. -/
theorem unpackDirReads_lt (hblen : blen < 2 ^ 64) {i : ℕ}
    (hi : i ∈ unpackDirReads blen buf d len pos) :
    i < pos + 48 ∧ (blen + 2 ^ 33 ≤ 2 ^ 64 → len ≤ blen → i + len < pos + blen) := by
  cases hv : d.maxVar? with
  | some max =>
    have hmax := maxVar_le hv
    simp only [unpackDirReads, hv, unpackVarReads] at hi
    split at hi
    · exact absurd hi List.not_mem_nil
    · next hone =>
      rcases List.mem_cons.mp hi with rfl | hi
      · refine ⟨by omega, fun hwrap hlen => ?_⟩
        rw [Nat.mod_eq_of_lt (by omega)] at hone
        omega
      · split at hi
        · exact absurd hi List.not_mem_nil
        · next htwo =>
          have hi := List.mem_range'_1.mp hi
          refine ⟨by omega, fun hwrap hlen => ?_⟩
          rw [Nat.mod_eq_of_lt (by omega)] at htwo
          omega
  | none =>
    cases hf : d.fixed? with
    | none =>
      simp only [unpackDirReads, hv, hf] at hi
      exact absurd hi List.not_mem_nil
    | some f =>
      have hn := fixed_le hf
      simp only [unpackDirReads, hv, hf] at hi
      split at hi
      · exact absurd hi List.not_mem_nil
      · next hroom =>
        have hi := List.mem_range'_1.mp hi
        refine ⟨by omega, fun hwrap hlen => ?_⟩
        rw [not_or, Nat.mod_eq_of_lt (by omega)] at hroom
        omega

/-- What a directive gives out is in the buffer. -/
theorem unpackDir_strings (hroom : UnpackRoom blen len pos (rest + 1)) (hblen : blen < 2 ^ 64) :
    StringsIn blen (unpackDir blen buf d len pos).2 := by
  obtain ⟨hlen, hroom⟩ := hroom
  cases hv : d.maxVar? with
  | some max =>
    have hstring := unpackString_lt buf pos
    have hnumber : ∀ p, UnpackOut.pointer p ∉ [unpackNumber buf pos d] := by
      intro p hp
      have hp := List.mem_singleton.mp hp
      unfold unpackNumber at hp
      split at hp <;> exact nomatch hp
    rw [unpackDir_eq_var hv]
    split
    · exact .of_no_pointer fun _ => List.not_mem_nil
    · split
      · exact .of_no_pointer fun _ => List.not_mem_nil
      · next hone htwo =>
        have hmax := maxVar_le hv
        unfold unpackBehind
        dsimp only
        split
        · next hb =>
          subst hb
          split
          · exact .of_no_pointer hnumber
          · next hthree =>
            refine .pair (n := unpackVar32 (unpackByte buf pos) (buf.drop (pos + 1))) ?_
            show pos + 1 + unpackByte buf pos + unpackString buf pos ≤ blen
            rcases hroom with ⟨hwrap, hpos⟩ | hfar
            · rw [Nat.mod_eq_of_lt (a := len + 1 + unpackByte buf pos) (by omega),
                Nat.mod_eq_of_lt (by omega)] at hthree
              omega
            · omega
        · exact .of_no_pointer hnumber
  | none =>
    cases hf : d.fixed? with
    | none =>
      rw [unpackDir_eq_refused hf hv]
      exact .of_no_pointer fun _ => List.not_mem_nil
    | some f =>
      rw [unpackDir_eq_fixed_mod hf hblen buf hlen]
      refine .of_no_pointer fun p hp => ?_
      split at hp
      · exact absurd hp List.not_mem_nil
      · -- no pointer is among what such a directive writes
        rw [← fixed_shift hf (p + 1)] at hp
        obtain ⟨u, -, hu⟩ := List.mem_map.mp hp
        cases u with
        | pointer q =>
          rw [shift_pointer, UnpackOut.pointer.injEq] at hu
          omega
        | _ => exact nomatch hu

theorem UnpackRoom.step (hroom : UnpackRoom blen len pos (rest + 1)) (hblen : blen < 2 ^ 64)
    {len' pos' : ℕ} {out : List UnpackOut}
    (h : unpackDir blen buf d len pos = (some (len', pos'), out)) :
    UnpackRoom blen len' pos' rest := by
  obtain ⟨hlen, hroom⟩ := hroom
  obtain ⟨hp, hwidth, hl, hsum⟩ := unpackDir_some hblen hlen h
  have hstring : unpackBehindLen buf pos d < 2 ^ 32 := by
    unfold unpackBehindLen
    split
    · exact unpackString_lt buf pos
    · exact Nat.two_pow_pos 32
  refine ⟨hl, ?_⟩
  rcases hroom with ⟨hwrap, hpos⟩ | hfar
  · rw [Nat.mod_eq_of_lt (by omega)] at hsum
    exact Or.inl ⟨hwrap, by omega⟩
  · exact Or.inr (by omega)

/-- Where there is room, nothing is read or given out outside the buffer. -/
theorem UnpackRoom.loop (hblen : blen < 2 ^ 64) : ∀ {fmt : List PackDir} {len pos : ℕ},
    UnpackRoom blen len pos fmt.length →
      (∀ i ∈ unpackReads blen buf fmt len pos, i < blen) ∧
        StringsIn blen (unpackLoop blen buf fmt len pos).2 ∧
        ∀ p ∈ (unpackLoop blen buf fmt len pos).1, p.1 ≤ blen := by
  intro fmt
  induction fmt with
  | nil =>
    intro len pos hroom
    refine ⟨fun i hi => absurd hi List.not_mem_nil, .of_no_pointer fun _ => List.not_mem_nil, ?_⟩
    rintro p ⟨⟩
    exact hroom.1
  | cons d fmt ih =>
    intro len pos hroom
    have hreads : ∀ i ∈ unpackDirReads blen buf d len pos, i < blen := by
      intro i hi
      obtain ⟨hnear, hin⟩ := unpackDirReads_lt hblen hi
      rcases hroom.2 with ⟨hwrap, hpos⟩ | hfar
      · have hin := hin hwrap hroom.1
        omega
      · rw [List.length_cons] at hfar
        omega
    have hstrings : StringsIn blen (unpackDir blen buf d len pos).2 := unpackDir_strings hroom hblen
    rw [unpackLoop_cons, unpackReads]
    rcases hdir : unpackDir blen buf d len pos with ⟨_ | ⟨l, p⟩, out⟩
    · rw [hdir] at hstrings
      refine ⟨?_, hstrings, nofun⟩
      rwa [List.append_nil]
    · rw [hdir] at hstrings
      obtain ⟨hrest, hrests, hle⟩ := ih (hroom.step hblen hdir)
      refine ⟨fun i hi => ?_, hstrings.append hrests, hle⟩
      rcases List.mem_append.mp hi with hi | hi
      · exact hreads i hi
      · exact hrest i hi

end Bounds

/-- **What is read and given out is inside the buffer.**  The buffer and the format are in
one memory of 64-bit addresses. -/
theorem trip_unpack_bounds {blen : ℕ} {fmt : List PackDir} (hmem : blen + fmt.length < 2 ^ 64)
    (buf : Buf) :
    (∀ i ∈ unpackReads blen buf fmt 0 0, i < blen) ∧
      (∀ buf' : Buf, (∀ i ∈ unpackReads blen buf fmt 0 0, buf' i = buf i) →
        tripUnpack blen buf' fmt = tripUnpack blen buf fmt) ∧
      ((tripUnpack blen buf fmt).1 = NPOS ∨ (tripUnpack blen buf fmt).1 ≤ blen) ∧
      StringsIn blen (tripUnpack blen buf fmt).2 := by
  have hblen : blen < 2 ^ 64 := by omega
  have hroom : UnpackRoom blen 0 0 fmt.length := ⟨Nat.zero_le blen, by omega⟩
  obtain ⟨hreads, hstrings, hle⟩ := @UnpackRoom.loop blen buf hblen _ _ _ hroom
  rw [tripUnpack, unpackFrom_eq]
  refine ⟨hreads, fun buf' h => ?_, ?_, hstrings⟩
  · rw [tripUnpack, unpackFrom_eq, unpackLoop_congr hblen (Nat.zero_le blen) h]
  · rcases hp : (unpackLoop blen buf fmt 0 0).1 with _ | p
    · exact Or.inl rfl
    · exact Or.inr (hle p hp)

/-- A string that reaches to the end of the buffer, and one that does not fit. -/
theorem trip_unpack_bounds_two :
    StringsIn 4 (tripUnpack 4 (bufOf [1, 2, 7, 9]) [.b]).2 ∧
      StringsIn 4 (tripUnpack 4 (bufOf [1, 3, 7, 9]) [.b]).2 :=
  ⟨(trip_unpack_bounds (by decide) _).2.2.2, (trip_unpack_bounds (by decide) _).2.2.2⟩

end Libtrp
