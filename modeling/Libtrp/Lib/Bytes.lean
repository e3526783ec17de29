import Mathlib.Data.UInt
import Mathlib.Tactic.Ring

/-!
# Bytes of a number, and bytes in memory

A number below `256 ^ w` is `w` bytes, in one order or the other.  `beBytes` and
`leBytes` write them with the high byte first and last, and `beNat` reads the
former.  Memory is a function of the address; `slice` reads a run of it and
`overwrite` writes one.

## Main results

* `beNat_beBytes`, `beBytes_beNat` — the round trips.
* `slice_overwrite_self`, `slice_overwrite_of_le` — reading what was written, and
  reading beside it.
-/

namespace Lib

/-! ### Numbers as bytes -/

/-- The `w` low bytes of `n`, the high one first. -/
def beBytes : ℕ → ℕ → List UInt8
  | 0, _ => []
  | w + 1, n => beBytes w (n / 256) ++ [UInt8.ofNat n]

/-- The `w` low bytes of `n`, the low one first. -/
def leBytes : ℕ → ℕ → List UInt8
  | 0, _ => []
  | w + 1, n => UInt8.ofNat n :: leBytes w (n / 256)

/-- The number whose bytes are these, the high one first. -/
def beNat (bs : List UInt8) : ℕ := bs.foldl (fun n b => n * 256 + b.toNat) 0

@[simp] theorem length_beBytes (w n : ℕ) : (beBytes w n).length = w := by
  induction w generalizing n with
  | zero => rfl
  | succ w ih => rw [beBytes, List.length_append, ih, List.length_singleton]

@[simp] theorem length_leBytes (w n : ℕ) : (leBytes w n).length = w := by
  induction w generalizing n with
  | zero => rfl
  | succ w ih => rw [leBytes, List.length_cons, ih]

@[simp] theorem beNat_nil : beNat [] = 0 := rfl

theorem beNat_concat (bs : List UInt8) (b : UInt8) :
    beNat (bs ++ [b]) = beNat bs * 256 + b.toNat := by
  rw [beNat, List.foldl_append]
  rfl

theorem beNat_beBytes (w n : ℕ) : beNat (beBytes w n) = n % 256 ^ w := by
  induction w generalizing n with
  | zero => rw [pow_zero, Nat.mod_one]; rfl
  | succ w ih =>
    rw [beBytes, beNat_concat, ih, UInt8.toNat_ofNat', pow_succ' 256 w, Nat.mod_mul]
    omega

theorem beNat_beBytes_of_lt {w n : ℕ} (hn : n < 256 ^ w) : beNat (beBytes w n) = n := by
  rw [beNat_beBytes, Nat.mod_eq_of_lt hn]

theorem beBytes_beNat (bs : List UInt8) : beBytes bs.length (beNat bs) = bs := by
  induction bs using List.reverseRecOn with
  | nil => rfl
  | append_singleton bs b ih =>
    have hb := b.toNat_lt
    have hdiv : (beNat bs * 256 + b.toNat) / 256 = beNat bs := by omega
    have hlow : UInt8.ofNat (beNat bs * 256 + b.toNat) = b := by
      apply UInt8.toNat_inj.mp
      rw [UInt8.toNat_ofNat']
      omega
    rw [List.length_append, List.length_singleton, beBytes, beNat_concat, hdiv, hlow, ih]

/-- Only the low bytes matter. -/
theorem beBytes_mod (w n : ℕ) : beBytes w (n % 256 ^ w) = beBytes w n := by
  have h := beBytes_beNat (beBytes w n)
  rwa [length_beBytes, beNat_beBytes] at h

theorem beNat_lt (bs : List UInt8) : beNat bs < 256 ^ bs.length := by
  induction bs using List.reverseRecOn with
  | nil => exact Nat.one_pos
  | append_singleton bs b ih =>
    have hb := b.toNat_lt
    rw [beNat_concat, List.length_append, List.length_singleton, pow_succ]
    omega

/-- A number that fits has one string of bytes. -/
theorem beNat_eq_iff {bs : List UInt8} {n : ℕ} (hn : n < 256 ^ bs.length) :
    beNat bs = n ↔ bs = beBytes bs.length n := by
  constructor
  · rintro rfl
    exact (beBytes_beNat bs).symm
  · intro h
    rw [h, beNat_beBytes_of_lt hn]

/-- The bytes of a number determine it. -/
theorem eq_of_bytes {w m n : ℕ} (hm : m < 256 ^ w) (hn : n < 256 ^ w)
    (h : ∀ k < w, m / 256 ^ k % 256 = n / 256 ^ k % 256) : m = n := by
  induction w generalizing m n with
  | zero =>
    rw [pow_zero] at hm hn
    omega
  | succ w ih =>
    have hlow := h 0 (Nat.succ_pos w)
    rw [pow_zero, Nat.div_one, Nat.div_one] at hlow
    have hhigh : m / 256 = n / 256 := by
      rw [pow_succ] at hm hn
      apply ih (Nat.div_lt_of_lt_mul (by omega)) (Nat.div_lt_of_lt_mul (by omega))
      intro k hk
      rw [Nat.div_div_eq_div_mul, Nat.div_div_eq_div_mul, ← pow_succ']
      exact h (k + 1) (Nat.succ_lt_succ hk)
    omega

/-! ### Memory -/

variable {α : Type*}

/-- The `n` places of memory from `p` on. -/
def slice (mem : ℕ → α) (p n : ℕ) : List α := (List.range n).map fun i => mem (p + i)

/-- Memory with `xs` written from `p` on. -/
def overwrite (mem : ℕ → α) (p : ℕ) (xs : List α) : ℕ → α :=
  fun i => if p ≤ i then xs.getD (i - p) (mem i) else mem i

@[simp] theorem length_slice (mem : ℕ → α) (p n : ℕ) : (slice mem p n).length = n := by
  rw [slice, List.length_map, List.length_range]

@[simp] theorem slice_zero (mem : ℕ → α) (p : ℕ) : slice mem p 0 = [] := rfl

theorem slice_add (mem : ℕ → α) (p m n : ℕ) :
    slice mem p (m + n) = slice mem p m ++ slice mem (p + m) n := by
  rw [slice, List.range_add, List.map_append, List.map_map, slice, slice]
  simp [Function.comp_def, Nat.add_assoc]

theorem slice_succ (mem : ℕ → α) (p n : ℕ) :
    slice mem p (n + 1) = mem p :: slice mem (p + 1) n := by
  rw [Nat.add_comm n 1, slice_add]
  rfl

theorem slice_congr {mem mem' : ℕ → α} {p n : ℕ} (h : ∀ i < n, mem' (p + i) = mem (p + i)) :
    slice mem' p n = slice mem p n :=
  List.map_congr_left fun i hi => h i (List.mem_range.mp hi)

/-- Writing two runs in turn writes the one they make. -/
theorem overwrite_overwrite (mem : ℕ → α) (p : ℕ) (xs ys : List α) :
    overwrite (overwrite mem p xs) (p + xs.length) ys = overwrite mem p (xs ++ ys) := by
  funext i
  simp only [overwrite, List.getD_eq_getElem?_getD, List.getElem?_append]
  by_cases hp : p ≤ i
  · by_cases hx : i - p < xs.length
    · rw [if_neg (by omega), if_pos hp, if_pos hp, if_pos hx]
    · rw [if_pos (by omega), if_pos hp, if_pos hp, if_neg hx, Nat.sub_sub,
        List.getElem?_eq_none (Nat.le_of_not_lt hx)]
      rfl
  · rw [if_neg (by omega), if_neg hp, if_neg hp]

theorem slice_overwrite_self (mem : ℕ → α) (p : ℕ) (xs : List α) :
    slice (overwrite mem p xs) p xs.length = xs := by
  refine List.ext_getElem (length_slice _ _ _) fun i hi hi' => ?_
  simp [slice, overwrite, List.getD_eq_getElem?_getD, hi']

/-- What ends before the place written is kept. -/
theorem slice_overwrite_of_le (mem : ℕ → α) {p q n : ℕ} (xs : List α) (h : q + n ≤ p) :
    slice (overwrite mem p xs) q n = slice mem q n := by
  refine slice_congr fun i hi => ?_
  rw [overwrite, if_neg (by omega)]

/-- What begins behind the place written is kept. -/
theorem slice_overwrite_of_ge (mem : ℕ → α) {p q n : ℕ} {xs : List α} (h : p + xs.length ≤ q) :
    slice (overwrite mem p xs) q n = slice mem q n := by
  refine slice_congr fun i _ => ?_
  rw [overwrite, if_pos (by omega), List.getD_eq_getElem?_getD,
    List.getElem?_eq_none (by omega), Option.getD_none]

/-- The parts of a slice are what its contents are made of. -/
theorem slice_eq_append {mem : ℕ → α} {p : ℕ} {xs ys : List α}
    (h : slice mem p (xs.length + ys.length) = xs ++ ys) :
    slice mem p xs.length = xs ∧ slice mem (p + xs.length) ys.length = ys := by
  rw [slice_add] at h
  exact List.append_inj h (length_slice _ _ _)

end Lib
