import Mathlib.Data.UInt
import Libtrp.Core
import Libtrp.Lib.Bits

/-!
# Utilities

Two functions round up to a power of two.  `nearPwr2_64` smears the bits of `n - 1`, and
`nearPwr2` doubles one until it is there.

## Main definitions

* `nearPwr2_64`, `nearPwr2` — the two functions.
* `areZeros` — whether all bytes are zero.

## Main results

* `nearPwr2_least` — **both find the least power of two.**

## References

`src/util.c`, `src/util.h`.
-/

namespace Libtrp

open Lib

/-- `near_pwr2_64`, in 64-bit arithmetic. -/
def nearPwr2_64 (n : UInt64) : UInt64 :=
  let n := n - 1
  let n := n ||| (n >>> 1)
  let n := n ||| (n >>> 2)
  let n := n ||| (n >>> 4)
  let n := n ||| (n >>> 8)
  let n := n ||| (n >>> 16)
  let n := n ||| (n >>> 32)
  n + 1

/-- `MAX_SIZE` -/
def MAX_SIZE : Int32 := (1 : Int32) <<< 30

/-- The loop of `near_pwr2`, for at most `fuel` turns. -/
def nearPwr2Loop (n : Int32) : ℕ → Int32 → Option Int32
  | 0, _ => none
  | fuel + 1, p => if p < n then nearPwr2Loop n fuel (p <<< 1) else some p

/-- `near_pwr2`, when its loop has at most `fuel` turns. -/
def nearPwr2 (fuel : ℕ) (n : Int32) : Option Int32 :=
  if n < 1 then some 1
  else if n &&& (n - 1) = 0 then some n
  else if n > MAX_SIZE then some MAX_SIZE
  else nearPwr2Loop n fuel 1

/-- `are_zeros` -/
def areZeros (buf : Bytes) : Bool := buf.all (· == 0)

/-! ### Smearing -/

theorem toNat_smear (n s : UInt64) (hs : s.toNat < 64) :
    (n ||| (n >>> s)).toNat = smear s.toNat n.toNat := by
  rw [UInt64.toNat_or, UInt64.toNat_shiftRight, Nat.mod_eq_of_lt hs, smear]

/-- The result is the least power of two that is at least `n`. -/
theorem toNat_nearPwr2_64 {n : UInt64} (h0 : 0 < n.toNat) (h1 : n.toNat ≤ 2 ^ 63) :
    (nearPwr2_64 n).toNat = 2 ^ Nat.clog 2 n.toNat := by
  have hpred : (n - 1).toNat = n.toNat - 1 := by
    have hle : (1 : UInt64) ≤ n := by
      rw [UInt64.le_iff_toNat_le]
      exact h0
    rw [UInt64.toNat_sub_of_le n 1 hle]
    rfl
  have hclog : Nat.clog 2 n.toNat ≤ 63 := (Nat.clog_le_iff_le_pow Nat.one_lt_two).mpr h1
  have hpow : 2 ^ Nat.clog 2 n.toNat ≤ 2 ^ 63 := Nat.pow_le_pow_right Nat.two_pos hclog
  have hpos : 0 < 2 ^ Nat.clog 2 n.toNat := Nat.two_pow_pos _
  simp only [nearPwr2_64]
  rw [UInt64.toNat_add, toNat_smear _ 32 (by decide), toNat_smear _ 16 (by decide),
    toNat_smear _ 8 (by decide), toNat_smear _ 4 (by decide), toNat_smear _ 2 (by decide),
    toNat_smear _ 1 (by decide), hpred]
  change (smearAll (n.toNat - 1) + 1) % 2 ^ 64 = _
  rw [smearAll_eq (by omega), size_pred_eq_clog h0]
  omega

/-- A power of two is its own nearest. -/
theorem nearPwr2_64_of_pow {n : UInt64} {k : ℕ} (hk : k ≤ 63) (hn : n.toNat = 2 ^ k) :
    nearPwr2_64 n = n := by
  apply UInt64.toNat_inj.mp
  have hpow : 2 ^ k ≤ 2 ^ 63 := Nat.pow_le_pow_right Nat.two_pos hk
  rw [toNat_nearPwr2_64 (hn ▸ Nat.two_pow_pos k) (hn ▸ hpow), hn,
    Nat.clog_pow 2 k Nat.one_lt_two]

/-! ### The loop -/

/-- A power of two that is an `int`. -/
theorem toInt_pow {k : ℕ} (hk : k ≤ 30) : (Int32.ofNat (2 ^ k)).toInt = (2 ^ k : ℕ) := by
  apply Int32.toInt_ofNat_of_lt
  exact (Nat.pow_le_pow_right Nat.two_pos hk).trans_lt (by decide)

theorem pow_shiftLeft {k : ℕ} (hk : k < 30) :
    Int32.ofNat (2 ^ k) <<< 1 = Int32.ofNat (2 ^ (k + 1)) := by
  decide +revert

/-- From a power of two that is not above the result on, the loop ends in it. -/
theorem nearPwr2Loop_eq {n : ℕ} (hn : n ≤ 2 ^ 30) {k fuel : ℕ} (hk : k ≤ Nat.clog 2 n)
    (hfuel : Nat.clog 2 n < k + fuel) :
    nearPwr2Loop (Int32.ofNat n) fuel (Int32.ofNat (2 ^ k)) =
      some (Int32.ofNat (2 ^ Nat.clog 2 n)) := by
  have hclog : Nat.clog 2 n ≤ 30 := (Nat.clog_le_iff_le_pow Nat.one_lt_two).mpr hn
  have hnInt : (Int32.ofNat n).toInt = n := Int32.toInt_ofNat_of_lt (by omega)
  have hlt : Int32.ofNat (2 ^ k) < Int32.ofNat n ↔ k < Nat.clog 2 n := by
    rw [Int32.lt_iff_toInt_lt, toInt_pow (hk.trans hclog), hnInt, Nat.cast_lt,
      Nat.lt_clog_iff_pow_lt Nat.one_lt_two]
  induction fuel generalizing k with
  | zero => omega
  | succ fuel ih =>
    rw [nearPwr2Loop]
    by_cases hturn : k < Nat.clog 2 n
    · rw [if_pos (hlt.mpr hturn), pow_shiftLeft (hturn.trans_le hclog)]
      apply ih hturn (by omega)
      rw [Int32.lt_iff_toInt_lt, toInt_pow (by omega), hnInt, Nat.cast_lt,
        Nat.lt_clog_iff_pow_lt Nat.one_lt_two]
    · rw [if_neg fun h => hturn (hlt.mp h), Nat.le_antisymm hk (Nat.le_of_not_lt hturn)]

/-- What the test for a power of two finds. -/
theorem pow_of_and {n : ℕ} (h0 : 0 < n) (hn : n ≤ 2 ^ 30)
    (h : Int32.ofNat n &&& (Int32.ofNat n - 1) = 0) : n = 2 ^ Nat.clog 2 n := by
  have hone : (1 : Int32) = Int32.ofNat 1 := rfl
  rw [hone, ← Int32.ofNat_sub n 1 h0] at h
  have hbits := congrArg (fun x : Int32 => x.toBitVec.toNat) h
  simp only [Int32.toBitVec_and, Int32.toBitVec_ofNat', BitVec.toNat_and, BitVec.toNat_ofNat]
    at hbits
  rw [Nat.mod_eq_of_lt (by omega), Nat.mod_eq_of_lt (by omega)] at hbits
  obtain ⟨k, rfl⟩ := (Nat.and_sub_one_eq_zero_iff_isPowerOfTwo h0.ne').mp hbits
  rw [Nat.clog_pow 2 k Nat.one_lt_two]

/-- The loop version ends, in the least power of two. -/
theorem nearPwr2_eq {n fuel : ℕ} (h0 : 0 < n) (hn : n ≤ 2 ^ 30) (hfuel : 31 ≤ fuel) :
    nearPwr2 fuel (Int32.ofNat n) = some (Int32.ofNat (2 ^ Nat.clog 2 n)) := by
  have hclog : Nat.clog 2 n ≤ 30 := (Nat.clog_le_iff_le_pow Nat.one_lt_two).mpr hn
  have hnInt : (Int32.ofNat n).toInt = n := Int32.toInt_ofNat_of_lt (by omega)
  have hpos : ¬ Int32.ofNat n < 1 := by
    rw [Int32.lt_iff_toInt_lt, hnInt]
    have hone : (1 : Int32).toInt = 1 := rfl
    omega
  have hmax : ¬ Int32.ofNat n > MAX_SIZE := by
    rw [gt_iff_lt, Int32.lt_iff_toInt_lt, hnInt]
    have hsize : MAX_SIZE.toInt = 2 ^ 30 := by decide
    omega
  unfold nearPwr2
  rw [if_neg hpos]
  split_ifs with hpow
  · rw [← pow_of_and h0 hn hpow]
  · exact nearPwr2Loop_eq hn (Nat.zero_le _) (by omega)

/-- **Both round up to a power of two**, the least that is at least `n`; the loop ends. -/
theorem nearPwr2_least {n : ℕ} (h0 : 1 ≤ n) (hn : n ≤ 2 ^ 63) :
    ∃ p : ℕ, (nearPwr2_64 (UInt64.ofNat n)).toNat = p ∧ (∃ k, p = 2 ^ k) ∧ n ≤ p ∧ p < 2 * n ∧
      (∀ k, n ≤ 2 ^ k → p ≤ 2 ^ k) ∧
      (n ≤ 2 ^ 30 → ∃ turns, ∀ fuel ≥ turns, ∃ q, nearPwr2 fuel (Int32.ofNat n) = some q ∧
        q.toInt = p) := by
  have hn64 : (UInt64.ofNat n).toNat = n := UInt64.toNat_ofNat_of_lt (hn.trans_lt (by decide))
  have hp := toNat_nearPwr2_64 (n := UInt64.ofNat n) (by omega) (by omega)
  rw [hn64] at hp
  refine ⟨_, hp, ⟨_, rfl⟩, Nat.le_pow_clog Nat.one_lt_two n, ?_, ?_, ?_⟩
  · -- half of it is below `n`
    rcases Nat.lt_or_ge 1 n with hlt | hle
    · have hhalf := Nat.pow_pred_clog_lt_self Nat.one_lt_two hlt
      have hclog := Nat.clog_pos Nat.one_lt_two hlt
      rw [← Nat.succ_pred_eq_of_pos hclog, pow_succ]
      omega
    · obtain rfl : n = 1 := by omega
      decide
  · intro k hk
    exact Nat.pow_le_pow_right Nat.two_pos ((Nat.clog_le_iff_le_pow Nat.one_lt_two).mpr hk)
  · intro h30
    refine ⟨31, fun fuel hfuel => ⟨_, nearPwr2_eq h0 h30 hfuel, toInt_pow ?_⟩⟩
    exact (Nat.clog_le_iff_le_pow Nat.one_lt_two).mpr h30

/-- At five it is eight. -/
theorem nearPwr2_least_five :
    ∃ p : ℕ, (nearPwr2_64 (UInt64.ofNat 5)).toNat = p ∧ (∃ k, p = 2 ^ k) ∧ 5 ≤ p ∧ p < 2 * 5 ∧
      (∀ k, 5 ≤ 2 ^ k → p ≤ 2 ^ k) ∧
      (5 ≤ 2 ^ 30 → ∃ turns, ∀ fuel ≥ turns, ∃ q, nearPwr2 fuel (Int32.ofNat 5) = some q ∧
        q.toInt = p) :=
  nearPwr2_least (by decide) (by decide)

end Libtrp
