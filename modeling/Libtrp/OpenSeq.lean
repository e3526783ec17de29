import Libtrp.Core
import Libtrp.Util
import Libtrp.Lib.Run

/-!
# The sequence numbers of `OPEN`

What keeps an `OPEN` from being taken twice is a floor: a number below it is
rejected, and an accepted number that is more than the window above it pulls it up.
The floor has 64 bits, the numbers and the window have 32.  Which numbers came is
not kept, so a number the floor has not passed is accepted as often as it comes.

## Main definitions

* `tripcCheckOpenSeq`, `tripcFlagOpenSeq` — the functions.
* `tripcOpenSeqs` — the peer after a history of numbers.
* `OpenOnce` — no number of a history is accepted twice.

## Main results

* `tripcOpenSeqs_floor` — **what the floor is**, after every history.
* `openOnce_iff` — **when no number is accepted twice.**

## References

`src/conn.c` (`_tripc_check_open_seq`, `_tripc_flag_open_seq`), `src/connpeer.h`.
-/

namespace Libtrp

open Lib

/-! ### The functions -/

/-- `_tripc_check_open_seq` -/
def tripcCheckOpenSeq (p : Connpeer) (seq : UInt32) : Errno :=
  if seq.toUInt64 < p.seqfloor then EINVAL else 0

/-- `seq - c->peer.seqfloor`, a difference of 64 bits of which 32 are kept. -/
def tripcOpenOffset (p : Connpeer) (seq : UInt32) : UInt32 := (seq.toUInt64 - p.seqfloor).toUInt32

/-- `_tripc_flag_open_seq` -/
def tripcFlagOpenSeq (p : Connpeer) (seq : UInt32) : Connpeer :=
  let offset := tripcOpenOffset p seq
  if offset > p.window then
    { p with seqfloor := p.seqfloor + (offset - p.window).toUInt64 }
  else p

/-- A number is checked, and flagged when it is accepted. -/
def tripcOpenSeq (seq : UInt32) (p : Connpeer) : Connpeer :=
  if tripcCheckOpenSeq p seq = 0 then tripcFlagOpenSeq p seq else p

/-- The peer after a history of numbers, the oldest first. -/
def tripcOpenSeqs (p : Connpeer) (ns : List UInt32) : Connpeer :=
  ns.foldl (fun p seq => tripcOpenSeq seq p) p

/-- The accepted numbers of a history. -/
def openAccepted (p : Connpeer) : List UInt32 → List UInt32
  | [] => []
  | seq :: ns =>
    (if tripcCheckOpenSeq p seq = 0 then [seq] else []) ++ openAccepted (tripcOpenSeq seq p) ns

/-- The largest accepted number, zero when there is none. -/
def openLargest (p : Connpeer) (ns : List UInt32) : ℕ :=
  ((openAccepted p ns).map UInt32.toNat).foldr max 0

/-! ### One number -/

section

variable {p : Connpeer} {seq : UInt32}

theorem tripcCheckOpenSeq_eq_zero :
    tripcCheckOpenSeq p seq = 0 ↔ p.seqfloor.toNat ≤ seq.toNat := by
  have hbelow : seq.toUInt64 < p.seqfloor ↔ seq.toNat < p.seqfloor.toNat := by
    rw [UInt64.lt_iff_toNat_lt, UInt32.toNat_toUInt64]
  unfold tripcCheckOpenSeq
  split
  · next hlt => exact iff_of_false (by decide) (Nat.not_le.mpr (hbelow.mp hlt))
  · next hge => exact iff_of_true rfl (Nat.not_lt.mp (mt hbelow.mpr hge))

/-- No difference wraps when an accepted number is flagged, and neither does the sum. -/
structure FlagExact (p : Connpeer) (seq : UInt32) : Prop where
  offset : (tripcOpenOffset p seq).toNat = seq.toNat - p.seqfloor.toNat
  above : p.seqfloor.toNat ≤ seq.toNat
  step : p.window < tripcOpenOffset p seq →
    (tripcOpenOffset p seq - p.window).toNat =
        (tripcOpenOffset p seq).toNat - p.window.toNat ∧
      (p.seqfloor + (tripcOpenOffset p seq - p.window).toUInt64).toNat =
        p.seqfloor.toNat + (tripcOpenOffset p seq - p.window).toNat

theorem flagExact (h : tripcCheckOpenSeq p seq = 0) : FlagExact p seq := by
  have hle := tripcCheckOpenSeq_eq_zero.mp h
  have hseq : seq.toNat < 2 ^ 32 := seq.toNat_lt
  have hoffset : (tripcOpenOffset p seq).toNat = seq.toNat - p.seqfloor.toNat := by
    have hle' : p.seqfloor ≤ seq.toUInt64 := by
      rw [UInt64.le_iff_toNat_le, UInt32.toNat_toUInt64]
      exact hle
    unfold tripcOpenOffset
    rw [UInt64.toNat_toUInt32, UInt64.toNat_sub_of_le _ _ hle', UInt32.toNat_toUInt64]
    exact Nat.mod_eq_of_lt (by omega)
  refine ⟨hoffset, hle, fun hlt => ?_⟩
  have hdiff : (tripcOpenOffset p seq - p.window).toNat =
      (tripcOpenOffset p seq).toNat - p.window.toNat :=
    UInt32.toNat_sub_of_le _ _ (UInt32.le_of_lt hlt)
  refine ⟨hdiff, ?_⟩
  rw [UInt64.toNat_add, UInt32.toNat_toUInt64]
  exact Nat.mod_eq_of_lt (by omega)

/-- The floor once an accepted number is flagged. -/
theorem seqfloor_tripcFlagOpenSeq (h : tripcCheckOpenSeq p seq = 0) :
    (tripcFlagOpenSeq p seq).seqfloor.toNat =
      max p.seqfloor.toNat (seq.toNat - p.window.toNat) := by
  obtain ⟨hoffset, hle, hstep⟩ := flagExact h
  unfold tripcFlagOpenSeq
  dsimp only
  split
  · next hgt =>
    obtain ⟨hdiff, hsum⟩ := hstep hgt
    have hgt' := UInt32.lt_iff_toNat_lt.mp hgt
    rw [hsum, hdiff, hoffset]
    omega
  · next hng =>
    have hng' : (tripcOpenOffset p seq).toNat ≤ p.window.toNat :=
      Nat.not_lt.mp fun hlt => hng (UInt32.lt_iff_toNat_lt.mpr hlt)
    omega

@[simp] theorem window_tripcOpenSeq : (tripcOpenSeq seq p).window = p.window := by
  unfold tripcOpenSeq tripcFlagOpenSeq
  dsimp only
  split
  · split <;> rfl
  · rfl

theorem seqfloor_tripcOpenSeq_le (seq : UInt32) (p : Connpeer) :
    p.seqfloor ≤ (tripcOpenSeq seq p).seqfloor := by
  unfold tripcOpenSeq
  split
  · next h =>
    rw [UInt64.le_iff_toNat_le, seqfloor_tripcFlagOpenSeq h]
    exact Nat.le_max_left _ _
  · exact UInt64.le_refl _

/-- **What one number does to the floor**: a number at most the window above `n` leaves
it at most `n`. -/
theorem seqfloor_tripcOpenSeq {n : ℕ} :
    (tripcOpenSeq seq p).seqfloor.toNat ≤ n ↔
      p.seqfloor.toNat ≤ n ∧ seq.toNat ≤ n + p.window.toNat := by
  unfold tripcOpenSeq
  split
  · next h =>
    rw [seqfloor_tripcFlagOpenSeq h]
    omega
  · next h =>
    -- a rejected number is below the floor
    have hlt := Nat.not_le.mp (mt tripcCheckOpenSeq_eq_zero.mpr h)
    omega

end

/-! ### Histories -/

@[simp] theorem tripcOpenSeqs_nil (p : Connpeer) : tripcOpenSeqs p [] = p := rfl

@[simp] theorem tripcOpenSeqs_cons (p : Connpeer) (seq : UInt32) (ns : List UInt32) :
    tripcOpenSeqs p (seq :: ns) = tripcOpenSeqs (tripcOpenSeq seq p) ns := rfl

/-- What a history does to the floor. -/
theorem seqfloor_tripcOpenSeqs {ns : List UInt32} {n : ℕ} {p : Connpeer} :
    (tripcOpenSeqs p ns).seqfloor.toNat ≤ n ↔
      p.seqfloor.toNat ≤ n ∧ ∀ seq ∈ ns, seq.toNat ≤ n + p.window.toNat := by
  induction ns generalizing p with
  | nil => simp
  | cons seq ns ih =>
    rw [tripcOpenSeqs_cons, ih, seqfloor_tripcOpenSeq, window_tripcOpenSeq, List.forall_mem_cons,
      and_assoc]

theorem openLargest_cons (p : Connpeer) (seq : UInt32) (ns : List UInt32) :
    openLargest p (seq :: ns) =
      max (if tripcCheckOpenSeq p seq = 0 then seq.toNat else 0)
        (openLargest (tripcOpenSeq seq p) ns) := by
  unfold openLargest
  rw [openAccepted]
  split
  · rfl
  · exact (Nat.zero_max _).symm

/-- The floor is set by the largest accepted number. -/
theorem seqfloor_eq_max (ns : List UInt32) (p : Connpeer) :
    (tripcOpenSeqs p ns).seqfloor.toNat =
      max p.seqfloor.toNat (openLargest p ns - p.window.toNat) := by
  induction ns generalizing p with
  | nil => simp [openLargest, openAccepted]
  | cons seq ns ih =>
    rw [tripcOpenSeqs_cons, ih, openLargest_cons, window_tripcOpenSeq]
    unfold tripcOpenSeq
    split
    · next h =>
      rw [seqfloor_tripcFlagOpenSeq h]
      omega
    · rw [Nat.zero_max]

/-- **What the floor is** after a history: it is the one the history began with or the
window below the largest accepted number, whichever is more.  It never falls, no
difference wraps on the way, and what is accepted next is what is not below it. -/
theorem tripcOpenSeqs_floor (p : Connpeer) (ns : List UInt32) :
    (tripcOpenSeqs p ns).seqfloor.toNat =
        max p.seqfloor.toNat (openLargest p ns - p.window.toNat) ∧
      (∀ seq, tripcCheckOpenSeq (tripcOpenSeqs p ns) seq = 0 ↔
        max p.seqfloor.toNat (openLargest p ns - p.window.toNat) ≤ seq.toNat) ∧
      Holds (fun _ => True)
        (fun q seq q' => q.seqfloor ≤ q'.seqfloor ∧
          (tripcCheckOpenSeq q seq = 0 → FlagExact q seq))
        p (trace tripcOpenSeq p ns) := by
  refine ⟨seqfloor_eq_max ns p, fun seq => ?_, ?_⟩
  · rw [tripcCheckOpenSeq_eq_zero, seqfloor_eq_max]
  · induction ns generalizing p with
    | nil => exact trivial
    | cons seq ns ih =>
      exact ⟨trivial, ⟨seqfloor_tripcOpenSeq_le seq p, flagExact⟩, ih _⟩

/-! ### Numbers that come twice -/

/-- A number of the history that was accepted once is rejected whenever it comes
again. -/
def OpenOnce (p : Connpeer) (ns : List UInt32) : Prop :=
  ∀ before seq between after, ns = before ++ seq :: between ++ seq :: after →
    tripcCheckOpenSeq (tripcOpenSeqs p before) seq = 0 →
      tripcCheckOpenSeq (tripcOpenSeqs p (before ++ seq :: between)) seq ≠ 0

/-- A number that comes twice and is not below the floor has another one before its
second time that is more than the window above it. -/
def OpenPassed (p : Connpeer) (ns : List UInt32) : Prop :=
  ∀ before seq between after, ns = before ++ seq :: between ++ seq :: after →
    p.seqfloor.toNat ≤ seq.toNat →
      ∃ n ∈ before ++ seq :: between, seq.toNat + p.window.toNat < n.toNat

/-- **When no number is accepted twice**: if and only if the floor has passed every
number before it comes again. -/
theorem openOnce_iff (p : Connpeer) (ns : List UInt32) : OpenOnce p ns ↔ OpenPassed p ns := by
  constructor
  · intro honce before seq between after hns hfloor
    by_contra hnone
    have hall : ∀ n ∈ before ++ seq :: between, n.toNat ≤ seq.toNat + p.window.toNat := by
      intro n hn
      exact Nat.not_lt.mp fun hlt => hnone ⟨n, hn, hlt⟩
    have hfirst : tripcCheckOpenSeq (tripcOpenSeqs p before) seq = 0 := by
      rw [tripcCheckOpenSeq_eq_zero, seqfloor_tripcOpenSeqs]
      exact ⟨hfloor, fun n hn => hall n (List.mem_append_left _ hn)⟩
    apply honce before seq between after hns hfirst
    rw [tripcCheckOpenSeq_eq_zero, seqfloor_tripcOpenSeqs]
    exact ⟨hfloor, hall⟩
  · intro hpassed before seq between after hns hfirst hsecond
    rw [tripcCheckOpenSeq_eq_zero, seqfloor_tripcOpenSeqs] at hfirst hsecond
    obtain ⟨n, hn, hlt⟩ := hpassed before seq between after hns hfirst.1
    exact absurd (hsecond.2 n hn) (Nat.not_le.mpr hlt)

/-- **A number is accepted twice**, with a window of 512 and a floor of zero. -/
theorem openSeq_twice : ¬ ∀ (p : Connpeer) (ns : List UInt32), OpenOnce p ns := by
  intro h
  refine h { (default : Connpeer) with window := 512 } [5, 5] [] 5 [] [] rfl ?_ ?_
  · decide
  · decide

end Libtrp
