import Mathlib.Data.Nat.Size
import Mathlib.Data.Nat.Bitwise
import Mathlib.Data.Nat.Log

/-!
# Smearing bits to the right

`smear s x` is `x` or-ed with its shift by `s`.  Smearing by 1, 2, 4, … spreads
every set bit to all places below it, which turns a number into the largest one
of its length: `smearAll m = 2 ^ m.size - 1` for a number of at most 64 bits.
-/

namespace Lib

/-- `x` or-ed with its shift by `s` places. -/
def smear (s x : ℕ) : ℕ := x ||| (x >>> s)

/-- `x` is `m` with every set bit spread over the `w` places that end at it. -/
def Smeared (w m x : ℕ) : Prop := ∀ i, x.testBit i = true ↔ ∃ j < w, m.testBit (i + j) = true

theorem smeared_one (m : ℕ) : Smeared 1 m m := by
  intro i
  constructor
  · intro h; exact ⟨0, Nat.one_pos, h⟩
  · rintro ⟨j, hj, h⟩
    obtain rfl : j = 0 := by omega
    exact h

/-- Smearing by the width doubles it. -/
theorem Smeared.double {w m x : ℕ} (h : Smeared w m x) : Smeared (2 * w) m (smear w x) := by
  intro i
  rw [smear, Nat.testBit_or, Nat.testBit_shiftRight, Bool.or_eq_true, h, h]
  constructor
  · rintro (⟨j, hj, hb⟩ | ⟨j, hj, hb⟩)
    · exact ⟨j, by omega, hb⟩
    · exact ⟨w + j, by omega, by rwa [show i + (w + j) = w + i + j by omega]⟩
  · rintro ⟨j, hj, hb⟩
    rcases Nat.lt_or_ge j w with hjw | hjw
    · exact Or.inl ⟨j, hjw, hb⟩
    · exact Or.inr ⟨j - w, by omega, by rwa [show w + i + (j - w) = i + j by omega]⟩

/-- Six smears, which suffice for 64 bits. -/
def smearAll (m : ℕ) : ℕ :=
  smear 32 (smear 16 (smear 8 (smear 4 (smear 2 (smear 1 m)))))

theorem smeared_smearAll (m : ℕ) : Smeared 64 m (smearAll m) :=
  (smeared_one m).double.double.double.double.double.double

/-- Every place below the highest set bit is set. -/
theorem smearAll_eq {m : ℕ} (hm : m < 2 ^ 64) : smearAll m = 2 ^ m.size - 1 := by
  apply Nat.eq_of_testBit_eq
  intro i
  rw [Nat.testBit_two_pow_sub_one, Bool.eq_iff_iff, smeared_smearAll, decide_eq_true_eq,
    Nat.lt_size]
  constructor
  · rintro ⟨j, -, hb⟩
    exact (Nat.pow_le_pow_right Nat.two_pos (Nat.le_add_right i j)).trans
      (Nat.ge_two_pow_of_testBit hb)
  · intro h
    obtain ⟨k, hk, hb⟩ := Nat.exists_ge_and_testBit_of_ge_two_pow h
    have hk64 : k < 64 := by
      by_contra hlt
      have : 2 ^ 64 ≤ m :=
        (Nat.pow_le_pow_right Nat.two_pos (by omega)).trans (Nat.ge_two_pow_of_testBit hb)
      omega
    exact ⟨k - i, by omega, by rwa [show i + (k - i) = k by omega]⟩

/-- The number of bits of `n - 1` is the exponent of the least power of two that
is at least `n`. -/
theorem size_pred_eq_clog {n : ℕ} (hn : 0 < n) : (n - 1).size = Nat.clog 2 n := by
  apply le_antisymm
  · rw [Nat.size_le]
    have := Nat.le_pow_clog Nat.one_lt_two n
    omega
  · rw [Nat.clog_le_iff_le_pow Nat.one_lt_two]
    have := Nat.lt_size_self (n - 1)
    omega

/-! ### Joining a high and a low part -/

/-- Or-ing a number into the free low places of another adds it. -/
theorem mul_two_pow_or {i b : ℕ} (hb : b < 2 ^ i) (a : ℕ) : a * 2 ^ i ||| b = a * 2 ^ i + b := by
  rw [Nat.mul_comm, Nat.two_pow_add_eq_or_of_lt hb]

/-- Bytes shifted to consecutive places and or-ed are digits. -/
theorem byte_or (x : ℕ) {b : ℕ} (hb : b < 2 ^ 8) (k : ℕ) :
    x * 2 ^ (k + 8) ||| b * 2 ^ k = (x * 256 + b) * 2 ^ k := by
  have hlt : b * 2 ^ k < 2 ^ (k + 8) := by
    rw [Nat.pow_add, Nat.mul_comm]
    exact Nat.mul_lt_mul_of_pos_left hb (Nat.two_pow_pos k)
  rw [mul_two_pow_or hlt, Nat.add_mul, Nat.pow_add, Nat.mul_assoc, Nat.mul_comm 256]

/-- So does xor-ing it. -/
theorem mul_two_pow_xor {i b : ℕ} (hb : b < 2 ^ i) (a : ℕ) : a * 2 ^ i ^^^ b = a * 2 ^ i + b := by
  rw [Nat.mul_comm]
  refine Nat.eq_of_testBit_eq fun j => ?_
  rw [Nat.testBit_xor, Nat.testBit_two_pow_mul_add a hb, Nat.testBit_two_pow_mul]
  rcases Nat.lt_or_ge j i with hji | hij
  · rw [if_pos hji, decide_eq_false (Nat.not_le.mpr hji), Bool.false_and, Bool.false_xor]
  · have hbj : b.testBit j = false :=
      Nat.testBit_lt_two_pow (hb.trans_le (Nat.pow_le_pow_right Nat.two_pos hij))
    rw [if_neg (Nat.not_lt.mpr hij), decide_eq_true hij, Bool.true_and, hbj, Bool.xor_false]

end Lib
