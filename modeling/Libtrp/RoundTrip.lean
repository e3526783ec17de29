import Mathlib.Data.UInt
import Libtrp.Pack

/-!
# What is packed and what is unpacked

`trip_unpack` reads a number after its length byte with the high byte first, and
`trip_pack` writes it with the low byte first; and after a binary string
`trip_unpack` goes on with the string's own bytes instead of those behind it.
`Follows` says what must be there in spite of both for the values to come back,
and `trip_pack_unpack_iff` that they come back then and only then.

## Main definitions

* `PackItem` — a directive with an argument in range.
* `PackItem.header`, `PackItem.read`, `PackItem.payload` — the bytes an item is
  packed as, and those it is made from.
* `PackItem.Follows` — each item's bytes are where they are read.

## Main results

* `packFrom_items` — what is packed is the items' bytes in order.
* `unpackDir_item` — when one turn of the switch gets an item.
* `trip_pack_unpack_iff` — **when the round trip is exact.**

## References

`src/pack.c`, `src/pack.h`.
-/

namespace Libtrp

open Lib

/-! ### Integers of a fixed width -/

theorem slice_two (buf : Buf) : slice buf 0 2 = [buf 0, buf 1] := rfl

theorem slice_four (buf : Buf) : slice buf 0 4 = [buf 0, buf 1, buf 2, buf 3] := rfl

theorem slice_eight (buf : Buf) : slice buf 0 8 =
    [buf 0, buf 1, buf 2, buf 3, buf 4, buf 5, buf 6, buf 7] := rfl

/-- What is read is the number whose bytes are there. -/
theorem toNat_unpacku16 (buf : Buf) : (unpacku16 buf).toNat = beNat (slice buf 0 2) := by
  have h0 := (buf 0).toNat_lt
  have h1 := (buf 1).toNat_lt
  have e1 := fun x => byte_or x h1 0
  simp only [unpacku16, UInt16.toNat_or, UInt16.toNat_shiftLeft, UInt8.toNat_toUInt16, slice_two,
    Nat.shiftLeft_eq, UInt16.toNat_ofNat, Nat.reduceMod, Nat.reducePow, Nat.reduceAdd, Nat.mul_one]
    at e1 ⊢
  rw [Nat.mod_eq_of_lt (by omega), e1]
  simp [beNat]

theorem toNat_unpacku32 (buf : Buf) : (unpacku32 buf).toNat = beNat (slice buf 0 4) := by
  have h0 := (buf 0).toNat_lt
  have h1 := (buf 1).toNat_lt
  have h2 := (buf 2).toNat_lt
  have h3 := (buf 3).toNat_lt
  have e1 := fun x => byte_or x h1 16
  have e2 := fun x => byte_or x h2 8
  have e3 := fun x => byte_or x h3 0
  simp only [unpacku32, UInt32.toNat_or, UInt32.toNat_shiftLeft, UInt8.toNat_toUInt32, slice_four,
    Nat.shiftLeft_eq, UInt32.toNat_ofNat, Nat.reduceMod, Nat.reducePow, Nat.reduceAdd, Nat.mul_one]
    at e1 e2 e3 ⊢
  rw [Nat.mod_eq_of_lt (by omega), Nat.mod_eq_of_lt (by omega), Nat.mod_eq_of_lt (by omega),
    e1, e2, e3]
  simp [beNat]

theorem toNat_unpacku64 (buf : Buf) : (unpacku64 buf).toNat = beNat (slice buf 0 8) := by
  have h0 := (buf 0).toNat_lt
  have h1 := (buf 1).toNat_lt
  have h2 := (buf 2).toNat_lt
  have h3 := (buf 3).toNat_lt
  have h4 := (buf 4).toNat_lt
  have h5 := (buf 5).toNat_lt
  have h6 := (buf 6).toNat_lt
  have h7 := (buf 7).toNat_lt
  have e1 := fun x => byte_or x h1 48
  have e2 := fun x => byte_or x h2 40
  have e3 := fun x => byte_or x h3 32
  have e4 := fun x => byte_or x h4 24
  have e5 := fun x => byte_or x h5 16
  have e6 := fun x => byte_or x h6 8
  have e7 := fun x => byte_or x h7 0
  simp only [unpacku64, UInt64.toNat_or, UInt64.toNat_shiftLeft, UInt8.toNat_toUInt64, slice_eight,
    Nat.shiftLeft_eq, UInt64.toNat_ofNat, Nat.reduceMod, Nat.reducePow, Nat.reduceAdd, Nat.mul_one]
    at e1 e2 e3 e4 e5 e6 e7 ⊢
  rw [Nat.mod_eq_of_lt (by omega), Nat.mod_eq_of_lt (by omega), Nat.mod_eq_of_lt (by omega),
    Nat.mod_eq_of_lt (by omega), Nat.mod_eq_of_lt (by omega), Nat.mod_eq_of_lt (by omega),
    Nat.mod_eq_of_lt (by omega), e1, e2, e3, e4, e5, e6, e7]
  simp [beNat]

theorem packi16_eq (v : UInt32) : packi16 v = beBytes 2 v.toNat := by
  simp only [packi16, beBytes, List.nil_append, List.cons_append, List.cons.injEq, and_true]
  refine ⟨?_, ?_⟩
  all_goals
    apply UInt8.toNat_inj.mp
    simp [Nat.shiftRight_eq_div_pow]

theorem packi32_eq (v : UInt32) : packi32 v = beBytes 4 v.toNat := by
  simp only [packi32, beBytes, List.nil_append, List.cons_append, List.cons.injEq, and_true,
    Nat.div_div_eq_div_mul]
  refine ⟨?_, ?_, ?_, ?_⟩
  all_goals
    apply UInt8.toNat_inj.mp
    simp [Nat.shiftRight_eq_div_pow]

theorem packi64_eq (v : UInt64) : packi64 v = beBytes 8 v.toNat := by
  simp only [packi64, beBytes, List.nil_append, List.cons_append, List.cons.injEq, and_true,
    Nat.div_div_eq_div_mul]
  refine ⟨?_, ?_, ?_, ?_, ?_, ?_, ?_, ?_⟩
  all_goals
    apply UInt8.toNat_inj.mp
    simp [Nat.shiftRight_eq_div_pow]

theorem unpacki32_eq (buf : Buf) : unpacki32 buf = (unpacku32 buf).toInt32 := by
  simp only [unpacki32]
  split
  · rfl
  · generalize unpacku32 buf = x
    apply Int32.toBitVec_inj.mp
    simp

theorem unpacki64_eq (buf : Buf) : unpacki64 buf = (unpacku64 buf).toInt64 := by
  simp only [unpacki64]
  split
  · rfl
  · generalize unpacku64 buf = x
    apply Int64.toBitVec_inj.mp
    simp

theorem unpacki16_eq (buf : Buf) : unpacki16 buf = (unpacku16 buf).toInt16 := by
  have hx : ∀ x : UInt32, x.toInt32.toInt16 = x.toUInt16.toInt16 := by
    intro x
    apply Int16.toBitVec_inj.mp
    simp [BitVec.signExtend_eq_setWidth_of_le]
  have hsub : ∀ x : UInt32, (0 - 1 - (0xffff - x)).toUInt16 = x.toUInt16 := by
    intro x
    apply UInt16.toBitVec_inj.mp
    simp
  have hor : ((buf 0).toUInt32 <<< 8 ||| (buf 1).toUInt32).toUInt16 = unpacku16 buf := by
    apply UInt16.toNat_inj.mp
    simp [unpacku16]
  simp only [unpacki16]
  rw [hx]
  split
  · rw [hor]
  · rw [hsub, hor]

/-! ### Numbers behind their length -/

theorem packVar_eq (i : ℕ) (n : UInt64) : packVar i n = leBytes i n.toNat := by
  induction i generalizing n with
  | zero => rfl
  | succ i ih =>
    have hbyte : (0xFF &&& n).toUInt8 = UInt8.ofNat n.toNat := by
      apply UInt8.toNat_inj.mp
      rw [UInt64.toNat_toUInt8, UInt64.toNat_and, UInt8.toNat_ofNat', Nat.and_comm]
      change (n.toNat &&& (2 ^ 8 - 1)) % 2 ^ 8 = _
      rw [Nat.and_two_pow_sub_one_eq_mod, Nat.mod_mod]
    have hshift : (n >>> 8).toNat = n.toNat / 256 := by
      rw [UInt64.toNat_shiftRight, Nat.shiftRight_eq_div_pow]
      rfl
    rw [packVar, ih, hbyte, hshift, leBytes]

/-- The length is the least number of bytes the number fits in. -/
theorem tripUvarLoop_le {k : ℕ} : ∀ {n : UInt64} {l : ℕ}, n.toNat < 256 ^ k →
    (tripUvarLoop k n ≤ l ↔ n.toNat < 256 ^ l) := by
  induction k with
  | zero =>
    intro n l hn
    have h0 : n.toNat = 0 := by simpa using hn
    exact iff_of_true (Nat.zero_le l) (h0 ▸ Nat.pow_pos (by decide))
  | succ k ih =>
    intro n l hn
    have hshift : (n >>> 8).toNat = n.toNat / 256 := by
      rw [UInt64.toNat_shiftRight, Nat.shiftRight_eq_div_pow]
      rfl
    rw [tripUvarLoop]
    split
    · next h0 => exact iff_of_true (Nat.zero_le l) (h0 ▸ Nat.pow_pos (by decide))
    · next h0 =>
      have hpos : 0 < n.toNat := Nat.pos_of_ne_zero fun h => h0 (UInt64.toNat_inj.mp h)
      cases l with
      | zero =>
        rw [Nat.pow_zero]
        exact ⟨fun h => absurd h (Nat.not_succ_le_zero _), fun h => absurd h (by omega)⟩
      | succ l =>
        rw [pow_succ] at hn ⊢
        rw [Nat.succ_le_succ_iff, ih (by rw [hshift]; omega), hshift]
        omega

theorem tripUvarLen_le (n : UInt64) {l : ℕ} : tripUvarLen n ≤ l ↔ n.toNat < 256 ^ l :=
  tripUvarLoop_le n.toNat_lt

/-- Bytes xor-ed in behind a shift are digits. -/
theorem toNat_foldl_xor32 (bs : Bytes) (h : bs.length ≤ 4) :
    (bs.foldl (fun (n : UInt32) b => (n <<< 8) ^^^ b.toUInt32) 0).toNat = beNat bs := by
  induction bs using List.reverseRecOn with
  | nil => rfl
  | append_singleton bs b ih =>
    rw [List.length_append, List.length_singleton] at h
    have hlt : beNat bs < 2 ^ 24 := (beNat_lt bs).trans_le
      (Nat.pow_le_pow_right (by decide) (show bs.length ≤ 3 by omega))
    rw [List.foldl_append, List.foldl_cons, List.foldl_nil, UInt32.toNat_xor,
      UInt32.toNat_shiftLeft, ih (by omega), beNat_concat, Nat.shiftLeft_eq, UInt8.toNat_toUInt32]
    change beNat bs * 2 ^ 8 % 2 ^ 32 ^^^ b.toNat = _
    rw [Nat.mod_eq_of_lt (by omega), mul_two_pow_xor b.toNat_lt]
    rfl

theorem toNat_foldl_xor64 (bs : Bytes) (h : bs.length ≤ 8) :
    (bs.foldl (fun (n : UInt64) b => (n <<< 8) ^^^ b.toUInt64) 0).toNat = beNat bs := by
  induction bs using List.reverseRecOn with
  | nil => rfl
  | append_singleton bs b ih =>
    rw [List.length_append, List.length_singleton] at h
    have hlt : beNat bs < 2 ^ 56 := (beNat_lt bs).trans_le
      (Nat.pow_le_pow_right (by decide) (show bs.length ≤ 7 by omega))
    rw [List.foldl_append, List.foldl_cons, List.foldl_nil, UInt64.toNat_xor,
      UInt64.toNat_shiftLeft, ih (by omega), beNat_concat, Nat.shiftLeft_eq, UInt8.toNat_toUInt64]
    change beNat bs * 2 ^ 8 % 2 ^ 64 ^^^ b.toNat = _
    rw [Nat.mod_eq_of_lt (by omega), mul_two_pow_xor b.toNat_lt]
    rfl

/-! ### Items -/

/-- A directive with its argument in range: a signed or unsigned number of its
width, a nonce or a key that is there, or a binary string that is as long as it
says. -/
inductive PackItem
  | c (v : Int8)
  | C (v : UInt8)
  | h (v : Int16)
  | H (v : UInt16)
  | i (v : Int32)
  | I (v : UInt32)
  | q (v : Int64)
  | Q (v : UInt64)
  | n (v : {bs : Bytes // bs.length = tripNonce})
  | k (v : {bs : Bytes // bs.length = tripKeyPub})
  | b (v : {bs : Bytes // bs.length < 2 ^ 32})
  | V (v : UInt32)
  | W (v : UInt64)
  deriving DecidableEq

/-- A number behind its length, the low byte first. -/
def varLE (n : UInt64) : Bytes :=
  UInt8.ofNat (tripUvarLen n) :: leBytes (tripUvarLen n) n.toNat

/-- A number behind its length, the high byte first. -/
def varBE (n : UInt64) : Bytes :=
  UInt8.ofNat (tripUvarLen n) :: beBytes (tripUvarLen n) n.toNat

namespace PackItem

def dir : PackItem → PackDir
  | .c _ => .c
  | .C _ => .C
  | .h _ => .h
  | .H _ => .H
  | .i _ => .i
  | .I _ => .I
  | .q _ => .q
  | .Q _ => .Q
  | .n _ => .n
  | .k _ => .k
  | .b _ => .b
  | .V _ => .V
  | .W _ => .W

/-- The arguments passed for the directive. -/
def args : PackItem → List PackArg
  | .c v => [.int v.toInt32]
  | .C v => [.uint v.toUInt32]
  | .h v => [.int v.toInt32]
  | .H v => [.uint v.toUInt32]
  | .i v => [.int v]
  | .I v => [.uint v]
  | .q v => [.int64 v]
  | .Q v => [.uint64 v]
  | .n v => [.ptr (some v.1)]
  | .k v => [.ptr (some v.1)]
  | .b v => [.uint (UInt32.ofNat v.1.length), .ptr (some v.1)]
  | .V v => [.uint v]
  | .W v => [.uint64 v]

/-- The bytes the item is packed as, but for a binary string's own. -/
def header : PackItem → Bytes
  | .c v => [v.toUInt8]
  | .C v => [v]
  | .h v => beBytes 2 v.toUInt16.toNat
  | .H v => beBytes 2 v.toNat
  | .i v => beBytes 4 v.toUInt32.toNat
  | .I v => beBytes 4 v.toNat
  | .q v => beBytes 8 v.toUInt64.toNat
  | .Q v => beBytes 8 v.toNat
  | .n v => v.1
  | .k v => v.1
  | .b v => varLE (UInt32.ofNat v.1.length).toUInt64
  | .V v => varLE v.toUInt64
  | .W v => varLE v

/-- The bytes from which unpacking makes the item: those it is packed as, with
the high byte of a number behind its length first. -/
def read : PackItem → Bytes
  | .b v => varBE (UInt32.ofNat v.1.length).toUInt64
  | .V v => varBE v.toUInt64
  | .W v => varBE v
  | x => x.header

/-- A binary string's own bytes. -/
def payload : PackItem → Bytes
  | .b v => v.1
  | _ => []

/-- What packing counts for the item. -/
def room : PackItem → ℕ
  | .b v => (tripUvarLen (UInt32.ofNat v.1.length).toUInt64 + 1 + v.1.length) % 2 ^ 32
  | x => x.header.length

end PackItem

/-! ### Packing items -/

theorem PackState.put_put (s : PackState) (xs ys : Bytes) :
    (s.put xs).put ys = s.put (xs ++ ys) := by
  have hmem : overwrite (overwrite s.mem s.pos xs) (s.pos + xs.length) ys =
      overwrite s.mem s.pos (xs ++ ys) := overwrite_overwrite s.mem s.pos xs ys
  simp [PackState.put, hmem, Nat.add_assoc]

/-- The low half of a promoted 16-bit number is the number. -/
theorem toUInt16_toInt32 (v : Int16) : v.toInt32.toUInt32.toUInt16 = v.toUInt16 := by
  have hv : v.toInt32.toBitVec.signExtend 16 = v.toBitVec :=
    congrArg Int16.toBitVec (Int16.toInt16_toInt32 v)
  rw [BitVec.signExtend_eq_setWidth_of_le _ (by decide)] at hv
  apply UInt16.toBitVec_inj.mp
  exact hv

theorem packi16_toUInt16 (v : UInt32) : packi16 v = beBytes 2 v.toUInt16.toNat := by
  rw [packi16_eq, ← beBytes_mod, UInt32.toNat_toUInt16]
  rfl

/-- The `n` bytes behind a pointer to just as many. -/
theorem packCopy_of_length {bs : Bytes} {n : ℕ} (h : bs.length = n) :
    packCopy n (some bs) = .ok bs := by
  rw [packCopy, if_pos h.ge, ← h, List.take_length]

/-- One turn of `trip_pack`'s switch, on an item. -/
theorem packDir_item (sign : Bytes → Bytes → Bytes) (cap : ℕ) (x : PackItem) (s : PackState)
    (as : List PackArg) : packDir sign cap x.dir s (x.args ++ as) =
      (packRoom cap x.room s).map fun s => (s.put (x.header ++ x.payload), as) := by
  have hmap : ∀ (e : Except PackStop PackState) (bs : Bytes),
      (e.bind fun s => .ok (s.put bs, as)) = e.map fun s => (s.put bs, as) := by
    intro e bs
    cases e <;> rfl
  rw [← hmap]
  cases x with
  | c v =>
    change (packRoom cap 1 s).bind (fun s => .ok (s.put [v.toInt32.toInt8.toUInt8], as)) = _
    rw [Int8.toInt8_toInt32]
    rfl
  | C v =>
    change (packRoom cap 1 s).bind (fun s => .ok (s.put [v.toUInt32.toUInt8], as)) = _
    rw [UInt8.toUInt8_toUInt32]
    rfl
  | h v =>
    change (packRoom cap 2 s).bind (fun s => .ok (s.put (packi16 v.toInt32.toUInt32), as)) = _
    rw [packi16_toUInt16, toUInt16_toInt32]
    rfl
  | H v =>
    change (packRoom cap 2 s).bind (fun s => .ok (s.put (packi16 v.toUInt32), as)) = _
    rw [packi16_eq, UInt16.toNat_toUInt32]
    rfl
  | i v =>
    change (packRoom cap 4 s).bind (fun s => .ok (s.put (packi32 v.toUInt32), as)) = _
    rw [packi32_eq]
    rfl
  | I v =>
    change (packRoom cap 4 s).bind (fun s => .ok (s.put (packi32 v), as)) = _
    rw [packi32_eq]
    rfl
  | q v =>
    change (packRoom cap 8 s).bind (fun s => .ok (s.put (packi64 v.toUInt64), as)) = _
    rw [packi64_eq]
    rfl
  | Q v =>
    change (packRoom cap 8 s).bind (fun s => .ok (s.put (packi64 v), as)) = _
    rw [packi64_eq]
    rfl
  | n v =>
    have hv : packCopyOrZero tripNonce (some v.1) = .ok v.1 := packCopy_of_length v.2
    change (packRoom cap tripNonce s).bind (fun s =>
      (packCopyOrZero tripNonce (some v.1)).bind fun bs => .ok (s.put bs, as)) = _
    simp only [hv, PackItem.room, PackItem.header, PackItem.payload, v.2, List.append_nil]
    rfl
  | k v =>
    have hv : packCopyOrZero tripKeyPub (some v.1) = .ok v.1 := packCopy_of_length v.2
    change (packRoom cap tripKeyPub s).bind (fun s =>
      (packCopyOrZero tripKeyPub (some v.1)).bind fun bs => .ok (s.put bs, as)) = _
    simp only [hv, PackItem.room, PackItem.header, PackItem.payload, v.2, List.append_nil]
    rfl
  | b v =>
    have hlen : (UInt32.ofNat v.1.length).toNat = v.1.length := by
      rw [UInt32.toNat_ofNat']
      exact Nat.mod_eq_of_lt v.2
    have hroom : (UInt32.ofNat (tripUvarLen (UInt32.ofNat v.1.length).toUInt64 + 1) +
        UInt32.ofNat v.1.length).toNat = (PackItem.b v).room := by
      rw [UInt32.toNat_add, UInt32.toNat_ofNat', hlen, PackItem.room, Nat.mod_add_mod]
    change (packRoom cap _ s).bind (fun s => ite _ _ _) = _
    rw [hroom]
    refine congrArg _ (funext fun s => ?_)
    have hhead : UInt8.ofNat (tripUvarLen (UInt32.ofNat v.1.length).toUInt64) ::
        packVar (tripUvarLen (UInt32.ofNat v.1.length).toUInt64)
          (UInt32.ofNat v.1.length).toUInt64 = (PackItem.b v).header := by
      rw [packVar_eq]
      rfl
    rw [hhead]
    split
    · next h0 =>
      have hnil : v.1 = [] := by
        rw [← List.length_eq_zero_iff, ← hlen, h0]
        rfl
      rw [PackItem.payload, hnil, List.append_nil]
      rfl
    · rw [hlen, packCopy_of_length rfl, ← PackState.put_put]
      rfl
  | V v =>
    change (packRoom cap (tripUvarLen v.toUInt64 + 1) s).bind (fun s => .ok (s.put
      (UInt8.ofNat (tripUvarLen v.toUInt64) :: packVar (tripUvarLen v.toUInt64) v.toUInt64),
        as)) = _
    simp only [packVar_eq, PackItem.room, PackItem.header, PackItem.payload, varLE,
      List.length_cons, length_leBytes, List.append_nil]
  | W v =>
    change (packRoom cap (tripUvarLen v + 1) s).bind (fun s => .ok (s.put
      (UInt8.ofNat (tripUvarLen v) :: packVar (tripUvarLen v) v), as)) = _
    simp only [packVar_eq, PackItem.room, PackItem.header, PackItem.payload, varLE,
      List.length_cons, length_leBytes, List.append_nil]

/-! ### Packing a list of items -/

namespace PackItem

/-- The format of a list of items. -/
def fmt (xs : List PackItem) : List PackDir := xs.map dir

/-- The arguments of a list of items. -/
def argList (xs : List PackItem) : List PackArg := xs.flatMap args

/-- The bytes a list of items is packed as. -/
def encode (xs : List PackItem) : Bytes := xs.flatMap fun x => x.header ++ x.payload

/-- What packing counts for a list of items. -/
def rooms (xs : List PackItem) : ℕ := (xs.map room).sum

theorem encode_cons (x : PackItem) (xs : List PackItem) :
    encode (x :: xs) = x.header ++ x.payload ++ encode xs := List.flatMap_cons

theorem tripUvarLen_le_eight (n : UInt64) : tripUvarLen n ≤ 8 := (tripUvarLen_le n).mpr n.toNat_lt

theorem room_lt (x : PackItem) : x.room < 2 ^ 32 := by
  cases x with
  | n v =>
    change v.1.length < 2 ^ 32
    rw [v.2]
    decide
  | k v =>
    change v.1.length < 2 ^ 32
    rw [v.2]
    decide
  | b v => exact Nat.mod_lt _ (Nat.two_pow_pos 32)
  | V v =>
    have := tripUvarLen_le_eight v.toUInt64
    simp only [room, header, varLE, List.length_cons, length_leBytes]
    omega
  | W v =>
    have := tripUvarLen_le_eight v
    simp only [room, header, varLE, List.length_cons, length_leBytes]
    omega
  | _ => simp [room, header]

end PackItem

open PackItem

/-- What is packed: the items' bytes in order, counted as their rooms. -/
theorem packFrom_items {sign : Bytes → Bytes → Bytes} {cap : ℕ} (hcap : cap < 2 ^ 63) :
    ∀ {xs : List PackItem} {s s' : PackState}, s.size ≤ cap →
      packFrom sign cap (fmt xs) s (argList xs) = .ok s' →
      s'.size = s.size + rooms xs ∧ s'.size ≤ cap ∧
        slice s'.mem s.pos (encode xs).length = encode xs ∧
        ∀ i < s.pos, s'.mem i = s.mem i := by
  intro xs
  induction xs with
  | nil =>
    intro s s' hs h
    obtain rfl : s = s' := Except.ok.inj h
    exact ⟨rfl, hs, rfl, fun _ _ => rfl⟩
  | cons x xs ih =>
    intro s s' hs h
    have hstep := packDir_item sign cap x s (argList xs)
    simp only [fmt, List.map_cons, argList, List.flatMap_cons, packFrom] at h
    rw [show List.flatMap args xs = argList xs from rfl, hstep] at h
    have hroom := x.room_lt
    have hmod : (s.size + x.room) % 2 ^ 64 = s.size + x.room := Nat.mod_eq_of_lt (by omega)
    simp only [packRoom, hmod] at h
    split at h
    · cases h
    next hle =>
    change packFrom sign cap (fmt xs)
      ({ s with size := s.size + x.room }.put (x.header ++ x.payload)) (argList xs) = .ok s' at h
    obtain ⟨h₁, h₂, h₃, h₄⟩ := ih (Nat.le_of_not_lt hle) h
    refine ⟨?_, h₂, ?_, ?_⟩
    · rw [h₁, rooms, rooms, List.map_cons, List.sum_cons, PackState.put, Nat.add_assoc]
    · rw [encode_cons, List.length_append, slice_add]
      congr 1
      rw [← slice_overwrite_self s.mem s.pos (x.header ++ x.payload)]
      rw [length_slice]
      refine slice_congr fun i hi => h₄ _ ?_
      exact Nat.add_lt_add_left hi _
    · intro i hi
      rw [h₄ i (Nat.lt_of_lt_of_le hi (Nat.le_add_right _ _))]
      exact if_neg (Nat.not_le.mpr hi)

theorem tripPack_items {sign : Bytes → Bytes → Bytes} {cap : ℕ} (hcap : cap < 2 ^ 63)
    {buf buf' : Buf}
    {xs : List PackItem} {size : ℕ} (h : tripPack sign cap buf (fmt xs) (argList xs) =
      some (size, buf')) (hsize : size ≠ NPOS) :
    size = rooms xs ∧ size ≤ cap ∧ slice buf' 0 (encode xs).length = encode xs := by
  rw [tripPack] at h
  cases hp : packFrom sign cap (fmt xs) ⟨0, 0, buf, 0, 0⟩ (argList xs) with
  | error e =>
    rw [hp] at h
    cases e with
    | npos mem =>
      simp only [Option.some.injEq, Prod.mk.injEq] at h
      exact absurd h.1.symm hsize
    | undefined => cases h
  | ok s =>
    rw [hp] at h
    simp only [Option.some.injEq, Prod.mk.injEq] at h
    obtain ⟨rfl, rfl⟩ := h
    obtain ⟨h₁, h₂, h₃, -⟩ := packFrom_items hcap (Nat.zero_le cap) hp
    exact ⟨h₁.trans (Nat.zero_add _), h₂, h₃⟩

/-! ### Unpacking items -/

namespace PackItem

/-- What unpacking the item should write: its value, and for a binary string its
length and a pointer to its bytes. -/
def Yields (buf : Buf) : PackItem → List UnpackOut → Prop
  | .c v, outs => outs = [.int8 v]
  | .C v, outs => outs = [.uint8 v]
  | .h v, outs => outs = [.int16 v]
  | .H v, outs => outs = [.uint16 v]
  | .i v, outs => outs = [.int32 v]
  | .I v, outs => outs = [.uint32 v]
  | .q v, outs => outs = [.int64 v]
  | .Q v, outs => outs = [.uint64 v]
  | .n v, outs => outs = [.bytes v.1]
  | .k v, outs => outs = [.bytes v.1]
  | .b v, outs => ∃ pos, outs = [.uint32 (UInt32.ofNat v.1.length), .pointer pos] ∧
      slice buf pos v.1.length = v.1
  | .V v, outs => outs = [.uint32 v]
  | .W v, outs => outs = [.uint64 v]

/-- The number of an item that has it behind its length, with the most bytes the
length may be. -/
def num : PackItem → Option (ℕ × UInt64)
  | .b v => some (4, (UInt32.ofNat v.1.length).toUInt64)
  | .V v => some (4, v.toUInt64)
  | .W v => some (8, v)
  | _ => none

/-- The `r` bytes at `pos` are read as the item. -/
def Decodes (buf : Buf) (x : PackItem) (pos r : ℕ) : Prop :=
  match x.num with
  | some (max, m) => ∃ l ≤ max, r = l + 1 ∧ (buf pos).toNat = l ∧
      beNat (slice buf (pos + 1) l) = m.toNat
  | none => r = x.header.length ∧ slice buf pos r = x.header

theorem num_eq_some {x : PackItem} {max : ℕ} {n : UInt64} (h : x.num = some (max, n)) :
    x.header = varLE n ∧ x.read = varBE n ∧ tripUvarLen n ≤ max ∧ max ≤ 8 := by
  cases x with
  | b v =>
    cases h
    have hlt : (UInt32.ofNat v.1.length).toUInt64.toNat < 256 ^ 4 := by
      rw [UInt32.toNat_toUInt64]
      exact UInt32.toNat_lt _
    exact ⟨rfl, rfl, (tripUvarLen_le _).mpr hlt, by decide⟩
  | V v =>
    cases h
    have hlt : v.toUInt64.toNat < 256 ^ 4 := by
      rw [UInt32.toNat_toUInt64]
      exact UInt32.toNat_lt _
    exact ⟨rfl, rfl, (tripUvarLen_le _).mpr hlt, by decide⟩
  | W v =>
    cases h
    exact ⟨rfl, rfl, tripUvarLen_le_eight _, le_rfl⟩
  | _ => cases h

theorem num_eq_none {x : PackItem} (h : x.num = none) : x.read = x.header ∧ x.payload = [] := by
  cases x with
  | b v => cases h
  | V v => cases h
  | W v => cases h
  | _ => exact ⟨rfl, rfl⟩

/-- No reading of an item is shorter than what it is packed as. -/
theorem Decodes.le {buf : Buf} {x : PackItem} {pos r : ℕ} (h : x.Decodes buf pos r) :
    x.header.length ≤ r := by
  unfold Decodes at h
  split at h
  · next max n hnum =>
    obtain ⟨l, -, rfl, -, hn⟩ := h
    have hlt := beNat_lt (slice buf (pos + 1) l)
    rw [hn, length_slice, ← tripUvarLen_le] at hlt
    rw [(num_eq_some hnum).1, varLE, List.length_cons, length_leBytes]
    omega
  · exact h.1.ge

/-- A reading as long as what the item is packed as is of the bytes it should be
made from. -/
theorem decodes_header {buf : Buf} {x : PackItem} {pos : ℕ} :
    x.Decodes buf pos x.header.length ↔ slice buf pos x.header.length = x.read := by
  unfold Decodes
  split
  · next max n hnum =>
    obtain ⟨hhead, hread, hmax, hmax8⟩ := num_eq_some hnum
    have hk : tripUvarLen n < 256 := by omega
    have hbyte : (UInt8.ofNat (tripUvarLen n)).toNat = tripUvarLen n := by
      rw [UInt8.toNat_ofNat']
      exact Nat.mod_eq_of_lt hk
    have hlt : n.toNat < 256 ^ (slice buf (pos + 1) (tripUvarLen n)).length := by
      rw [length_slice, ← tripUvarLen_le]
    rw [hhead, hread, varLE, varBE, List.length_cons, length_leBytes, slice_succ,
      List.cons.injEq]
    have hsl := beNat_eq_iff hlt
    rw [length_slice] at hsl
    constructor
    · rintro ⟨l, -, hl, hpos, hn⟩
      obtain rfl : l = tripUvarLen n := by omega
      exact ⟨UInt8.toNat_inj.mp (hpos.trans hbyte.symm), hsl.mp hn⟩
    · rintro ⟨hpos, hn⟩
      exact ⟨_, hmax, rfl, by rw [hpos, hbyte], hsl.mpr hn⟩
  · next hnum =>
    rw [(num_eq_none hnum).1]
    exact and_iff_right rfl

end PackItem

theorem slice_drop (buf : Buf) (pos p n : ℕ) :
    slice (buf.drop pos) p n = slice buf (pos + p) n := by
  simp [slice, Buf.drop, Nat.add_assoc]

theorem unpacku16_iff {buf : Buf} {pos : ℕ} (v : UInt16) :
    unpacku16 (buf.drop pos) = v ↔ slice buf pos 2 = beBytes 2 v.toNat := by
  rw [← UInt16.toNat_inj, toNat_unpacku16, beNat_eq_iff (by rw [length_slice]; exact v.toNat_lt),
    length_slice, slice_drop, Nat.add_zero]

theorem unpacku32_iff {buf : Buf} {pos : ℕ} (v : UInt32) :
    unpacku32 (buf.drop pos) = v ↔ slice buf pos 4 = beBytes 4 v.toNat := by
  rw [← UInt32.toNat_inj, toNat_unpacku32, beNat_eq_iff (by rw [length_slice]; exact v.toNat_lt),
    length_slice, slice_drop, Nat.add_zero]

theorem unpacku64_iff {buf : Buf} {pos : ℕ} (v : UInt64) :
    unpacku64 (buf.drop pos) = v ↔ slice buf pos 8 = beBytes 8 v.toNat := by
  rw [← UInt64.toNat_inj, toNat_unpacku64, beNat_eq_iff (by rw [length_slice]; exact v.toNat_lt),
    length_slice, slice_drop, Nat.add_zero]

theorem slice_one (buf : Buf) (pos : ℕ) : slice buf pos 1 = [buf.drop pos 0] := rfl

/-- An item of a fixed width is what is read exactly when its bytes are there. -/
theorem unpackDir_fixed {x : PackItem} (hx : x.num = none) (blen : ℕ) (buf : Buf) :
    ∃ out, unpackDir blen buf x.dir = unpackFixed blen buf x.header.length out ∧
      ∀ pos, x.Yields buf (out (buf.drop pos)) ↔ slice buf pos x.header.length = x.header := by
  cases x with
  | c v =>
    refine ⟨fun b => [.int8 (b 0).toInt8], rfl, fun pos => ?_⟩
    have hv : (buf.drop pos 0).toInt8 = v ↔ buf.drop pos 0 = v.toUInt8 :=
      ⟨fun h => h ▸ rfl, fun h => h ▸ rfl⟩
    simp [Yields, header, slice_one, hv]
  | C v =>
    refine ⟨fun b => [.uint8 (b 0)], rfl, fun pos => ?_⟩
    simp [Yields, header, slice_one]
  | h v =>
    refine ⟨fun b => [.int16 (unpacki16 b)], rfl, fun pos => ?_⟩
    have hv : (unpacku16 (buf.drop pos)).toInt16 = v ↔ unpacku16 (buf.drop pos) = v.toUInt16 :=
      ⟨fun h => h ▸ rfl, fun h => h ▸ rfl⟩
    simp [Yields, header, unpacki16_eq, hv, unpacku16_iff]
  | H v =>
    refine ⟨fun b => [.uint16 (unpacku16 b)], rfl, fun pos => ?_⟩
    simp [Yields, header, unpacku16_iff]
  | i v =>
    refine ⟨fun b => [.int32 (unpacki32 b)], rfl, fun pos => ?_⟩
    have hv : (unpacku32 (buf.drop pos)).toInt32 = v ↔ unpacku32 (buf.drop pos) = v.toUInt32 :=
      ⟨fun h => h ▸ rfl, fun h => h ▸ rfl⟩
    simp [Yields, header, unpacki32_eq, hv, unpacku32_iff]
  | I v =>
    refine ⟨fun b => [.uint32 (unpacku32 b)], rfl, fun pos => ?_⟩
    simp [Yields, header, unpacku32_iff]
  | q v =>
    refine ⟨fun b => [.int64 (unpacki64 b)], rfl, fun pos => ?_⟩
    have hv : (unpacku64 (buf.drop pos)).toInt64 = v ↔ unpacku64 (buf.drop pos) = v.toUInt64 :=
      ⟨fun h => h ▸ rfl, fun h => h ▸ rfl⟩
    simp [Yields, header, unpacki64_eq, hv, unpacku64_iff]
  | Q v =>
    refine ⟨fun b => [.uint64 (unpacku64 b)], rfl, fun pos => ?_⟩
    simp [Yields, header, unpacku64_iff]
  | n v =>
    refine ⟨fun b => [.bytes (slice b 0 tripNonce)], by rw [header, v.2]; rfl, fun pos => ?_⟩
    simp [Yields, header, slice_drop, v.2]
  | k v =>
    refine ⟨fun b => [.bytes (slice b 0 tripKeyPub)], by rw [header, v.2]; rfl, fun pos => ?_⟩
    simp [Yields, header, slice_drop, v.2]
  | b v => cases hx
  | V v => cases hx
  | W v => cases hx

/-- The loops that read a number behind its length. -/
theorem unpackVar32_iff {buf : Buf} {l pos : ℕ} (hl : l ≤ 4) (v : UInt32) :
    unpackVar32 l (buf.drop (pos + 1)) = v ↔ beNat (slice buf (pos + 1) l) = v.toNat := by
  rw [← UInt32.toNat_inj, unpackVar32, toNat_foldl_xor32 _ (by rw [length_slice]; exact hl),
    slice_drop, Nat.add_zero]

theorem unpackVar64_iff {buf : Buf} {l pos : ℕ} (hl : l ≤ 8) (v : UInt64) :
    unpackVar64 l (buf.drop (pos + 1)) = v ↔ beNat (slice buf (pos + 1) l) = v.toNat := by
  rw [← UInt64.toNat_inj, unpackVar64, toNat_foldl_xor64 _ (by rw [length_slice]; exact hl),
    slice_drop, Nat.add_zero]

section
variable {blen : ℕ} (hblen : blen < 2 ^ 63) (buf : Buf) {len pos : ℕ} (hlen : len ≤ blen)
  (len' pos' : ℕ)
include hblen hlen

theorem unpackDir_item_fixed {x : PackItem} (hx : x.num = none) :
    (∃ outs, unpackDir blen buf x.dir len pos = (some (len', pos'), outs) ∧ x.Yields buf outs) ↔
      ∃ r, x.Decodes buf pos r ∧ slice buf (pos + r) x.payload.length = x.payload ∧
        len' = len + r + x.payload.length ∧ pos' = pos + r ∧ len' ≤ blen := by
  obtain ⟨out, hdir, hout⟩ := unpackDir_fixed hx blen buf
  have hroom : x.header.length < 2 ^ 32 := by
    have := x.room_lt
    cases x with
    | b v => cases hx
    | V v => cases hx
    | W v => cases hx
    | _ => exact this
  have hmod : (len + x.header.length) % 2 ^ 64 = len + x.header.length :=
    Nat.mod_eq_of_lt (by omega)
  simp only [hdir, unpackFixed, hmod, Decodes, hx, (num_eq_none hx).2, List.length_nil,
    Nat.add_zero, slice_zero, true_and]
  constructor
  · rintro ⟨outs, h, hy⟩
    split at h
    · cases h
    · cases h
      exact ⟨_, ⟨rfl, (hout pos).mp hy⟩, rfl, rfl, by omega⟩
  · rintro ⟨r, ⟨rfl, hs⟩, rfl, rfl, hle⟩
    exact ⟨_, if_neg (Nat.not_lt.mpr hle), (hout pos).mpr hs⟩

theorem unpackDir_item_b (v : {bs : Bytes // bs.length < 2 ^ 32}) :
    (∃ outs, unpackDir blen buf .b len pos = (some (len', pos'), outs) ∧ (b v).Yields buf outs) ↔
      ∃ r, (b v).Decodes buf pos r ∧ slice buf (pos + r) v.1.length = v.1 ∧
        len' = len + r + v.1.length ∧ pos' = pos + r ∧ len' ≤ blen := by
  have hbyte : (buf pos).toNat < 256 := (buf pos).toNat_lt
  have hv : (UInt32.ofNat v.1.length).toNat = v.1.length := by
    rw [UInt32.toNat_ofNat']
    exact Nat.mod_eq_of_lt v.2
  have hv32 := v.2
  have hmod₁ : (len + 1) % 2 ^ 64 = len + 1 := Nat.mod_eq_of_lt (by omega)
  have hmod₂ : (len + 1 + (buf pos).toNat) % 2 ^ 64 = len + 1 + (buf pos).toNat :=
    Nat.mod_eq_of_lt (by omega)
  have hmod₃ : (len + 1 + (buf pos).toNat + v.1.length) % 2 ^ 64 =
      len + 1 + (buf pos).toNat + v.1.length := Nat.mod_eq_of_lt (by omega)
  have hpos : pos + ((buf pos).toNat + 1) = pos + 1 + (buf pos).toNat := by omega
  simp only [unpackDir, Decodes, num, hmod₁, hmod₂, UInt32.toNat_toUInt64]
  constructor
  · rintro ⟨outs, h, pos'', rfl, hs⟩
    split at h
    · cases h
    split at h
    · cases h
    rename_i hle hl
    rw [not_or, Nat.not_lt, Nat.not_lt] at hl
    split at h
    · cases h
    rename_i hle'
    simp only [Prod.mk.injEq, Option.some.injEq, List.cons.injEq, UnpackOut.uint32.injEq,
      UnpackOut.pointer.injEq, and_true] at h
    obtain ⟨⟨rfl, rfl⟩, hn, rfl⟩ := h
    have hdec := ((unpackVar32_iff hl.1 _).mp hn).trans hv
    rw [hn, hv, hmod₃] at hle' ⊢
    refine ⟨(buf pos).toNat + 1, ⟨_, hl.1, rfl, rfl, hdec⟩, ?_, by omega, by omega, by omega⟩
    rwa [hpos]
  · rintro ⟨r, ⟨l, hl, rfl, rfl, hn⟩, hs, rfl, rfl, hle⟩
    have hn := (unpackVar32_iff hl _).mpr hn
    rw [if_neg (by omega), if_neg (by omega), hn, hv, hmod₃, if_neg (by omega)]
    refine ⟨_, ?_, pos + 1 + (buf pos).toNat, rfl, ?_⟩
    · congr 3 <;> omega
    · rwa [hpos] at hs

theorem unpackDir_item_V (v : UInt32) :
    (∃ outs, unpackDir blen buf .V len pos = (some (len', pos'), outs) ∧ (V v).Yields buf outs) ↔
      ∃ r, (V v).Decodes buf pos r ∧ len' = len + r ∧ pos' = pos + r ∧ len' ≤ blen := by
  have hbyte : (buf pos).toNat < 256 := (buf pos).toNat_lt
  have hmod₁ : (len + 1) % 2 ^ 64 = len + 1 := Nat.mod_eq_of_lt (by omega)
  have hmod₂ : (len + (1 + (buf pos).toNat)) % 2 ^ 64 = len + (1 + (buf pos).toNat) :=
    Nat.mod_eq_of_lt (by omega)
  simp only [unpackDir, Decodes, num, hmod₁, hmod₂, UInt32.toNat_toUInt64]
  constructor
  · rintro ⟨outs, h, hy⟩
    split at h
    · cases h
    split at h
    · cases h
    rename_i hle hl
    rw [not_or, Nat.not_lt, Nat.not_lt] at hl
    simp only [Prod.mk.injEq, Option.some.injEq] at h
    obtain ⟨⟨rfl, rfl⟩, rfl⟩ := h
    have hn : unpackVar32 (buf pos).toNat (buf.drop (pos + 1)) = v := by simpa [Yields] using hy
    exact ⟨_, ⟨_, hl.1, rfl, rfl, (unpackVar32_iff hl.1 _).mp hn⟩, by omega, by omega, by omega⟩
  · rintro ⟨r, ⟨l, hl, rfl, rfl, hn⟩, rfl, rfl, hle⟩
    have hn := (unpackVar32_iff hl _).mpr hn
    rw [if_neg (by omega), if_neg (by omega), hn]
    refine ⟨_, ?_, rfl⟩
    congr 3 <;> omega

theorem unpackDir_item_W (v : UInt64) :
    (∃ outs, unpackDir blen buf .W len pos = (some (len', pos'), outs) ∧ (W v).Yields buf outs) ↔
      ∃ r, (W v).Decodes buf pos r ∧ len' = len + r ∧ pos' = pos + r ∧ len' ≤ blen := by
  have hbyte : (buf pos).toNat < 256 := (buf pos).toNat_lt
  have hmod₁ : (len + 1) % 2 ^ 64 = len + 1 := Nat.mod_eq_of_lt (by omega)
  have hmod₂ : (len + 1 + (buf pos).toNat) % 2 ^ 64 = len + 1 + (buf pos).toNat :=
    Nat.mod_eq_of_lt (by omega)
  simp only [unpackDir, Decodes, num, hmod₁, hmod₂]
  constructor
  · rintro ⟨outs, h, hy⟩
    split at h
    · cases h
    split at h
    · cases h
    rename_i hle hl
    rw [not_or, Nat.not_lt, Nat.not_lt] at hl
    simp only [Prod.mk.injEq, Option.some.injEq] at h
    obtain ⟨⟨rfl, rfl⟩, rfl⟩ := h
    have hn : unpackVar64 (buf pos).toNat (buf.drop (pos + 1)) = v := by simpa [Yields] using hy
    exact ⟨_, ⟨_, hl.1, rfl, rfl, (unpackVar64_iff hl.1 _).mp hn⟩, by omega, by omega, by omega⟩
  · rintro ⟨r, ⟨l, hl, rfl, rfl, hn⟩, rfl, rfl, hle⟩
    have hn := (unpackVar64_iff hl _).mpr hn
    rw [if_neg (by omega), if_neg (by omega), hn]
    refine ⟨_, ?_, rfl⟩
    congr 3 <;> omega

/-- One turn of `trip_unpack`'s switch gets the item exactly when the bytes read
are the item's and those behind them its binary string. -/
theorem unpackDir_item (x : PackItem) :
    (∃ outs, unpackDir blen buf x.dir len pos = (some (len', pos'), outs) ∧ x.Yields buf outs) ↔
      ∃ r, x.Decodes buf pos r ∧ slice buf (pos + r) x.payload.length = x.payload ∧
        len' = len + r + x.payload.length ∧ pos' = pos + r ∧ len' ≤ blen := by
  cases x with
  | b v => exact unpackDir_item_b hblen buf hlen len' pos' v
  | V v =>
    simp only [payload, List.length_nil, Nat.add_zero, slice_zero, true_and]
    exact unpackDir_item_V hblen buf hlen len' pos' v
  | W v =>
    simp only [payload, List.length_nil, Nat.add_zero, slice_zero, true_and]
    exact unpackDir_item_W hblen buf hlen len' pos' v
  | _ => exact unpackDir_item_fixed hblen buf hlen len' pos' rfl

end

/-! ### Unpacking a list of items -/

namespace PackItem

/-- What unpacking a list of items should write. -/
def YieldsAll (buf : Buf) : List PackItem → List UnpackOut → Prop
  | [], outs => outs = []
  | x :: xs, outs => ∃ o os, outs = o ++ os ∧ x.Yields buf o ∧ YieldsAll buf xs os

/-- The length of what a list of items is packed as. -/
def sizes (xs : List PackItem) : ℕ := (encode xs).length

theorem sizes_cons (x : PackItem) (xs : List PackItem) :
    sizes (x :: xs) = x.header.length + x.payload.length + sizes xs := by
  rw [sizes, encode_cons, List.length_append, List.length_append, sizes]

/-- From `pos` on, each item's bytes are there to be read, and a binary string
behind its length.  The bytes of a binary string are not stepped over. -/
def Aligned (buf : Buf) : List PackItem → ℕ → Prop
  | [], _ => True
  | x :: xs, pos =>
    slice buf pos x.header.length = x.read ∧
      slice buf (pos + x.header.length) x.payload.length = x.payload ∧
      Aligned buf xs (pos + x.header.length)

end PackItem

/-- A turn of the switch that succeeds writes through each of its arguments. -/
theorem length_of_unpackDir {blen : ℕ} {buf : Buf} {x : PackItem} {len pos : ℕ} {p : ℕ × ℕ}
    {o : List UnpackOut} (h : unpackDir blen buf x.dir len pos = (some p, o)) :
    o.length = x.args.length := by
  cases x with
  | b v =>
    simp only [dir, unpackDir] at h
    split at h
    · cases h
    split at h
    · cases h
    split at h
    · cases h
    cases h
    rfl
  | V v =>
    simp only [dir, unpackDir] at h
    split at h
    · cases h
    split at h
    · cases h
    cases h
    rfl
  | W v =>
    simp only [dir, unpackDir] at h
    split at h
    · cases h
    split at h
    · cases h
    cases h
    rfl
  | _ =>
    simp only [dir, unpackDir, unpackFixed] at h
    split at h
    · cases h
    cases h
    rfl

theorem PackItem.Yields.length {buf : Buf} {x : PackItem} {o : List UnpackOut}
    (h : x.Yields buf o) : o.length = x.args.length := by
  cases x with
  | b v =>
    obtain ⟨pos, rfl, -⟩ := h
    rfl
  | _ =>
    obtain rfl := h
    rfl

theorem unpackFrom_cons (blen : ℕ) (buf : Buf) (d : PackDir) (f : List PackDir) (len pos : ℕ) :
    unpackFrom blen buf (d :: f) len pos =
      match unpackDir blen buf d len pos with
      | (none, out) => (NPOS, out)
      | (some (len, pos), out) =>
        ((unpackFrom blen buf f len pos).1, out ++ (unpackFrom blen buf f len pos).2) :=
  (unpackFrom.eq_def blen buf (d :: f) len pos).trans rfl

/-- What unpacks to the right items is no shorter than what they are packed as,
and as long only if each item's bytes are where they are read. -/
theorem aligned_of_unpackFrom {blen : ℕ} (hblen : blen < 2 ^ 63) (buf : Buf) :
    ∀ {xs : List PackItem} {len pos r : ℕ} {outs : List UnpackOut}, len ≤ blen →
      unpackFrom blen buf (fmt xs) len pos = (r, outs) → r ≠ NPOS → YieldsAll buf xs outs →
      len + sizes xs ≤ r ∧ (r = len + sizes xs → Aligned buf xs pos) := by
  intro xs
  induction xs with
  | nil =>
    intro len pos r outs _ h _ _
    cases h
    exact ⟨le_rfl, fun _ => trivial⟩
  | cons x xs ih =>
    intro len pos r outs hlen h hr hy
    obtain ⟨o, os, rfl, hx, hxs⟩ := hy
    rw [fmt, List.map_cons, ← fmt, unpackFrom_cons] at h
    cases hd : unpackDir blen buf x.dir len pos with
    | mk res o' =>
      rw [hd] at h
      cases res with
      | none =>
        cases h
        exact absurd rfl hr
      | some p =>
        obtain ⟨len', pos'⟩ := p
        simp only [Prod.mk.injEq] at h
        have hlen' : o'.length = o.length := (length_of_unpackDir hd).trans hx.length.symm
        obtain ⟨rfl, hos⟩ := List.append_inj h.2 hlen'
        obtain ⟨r', hdec, hpay, rfl, rfl, hle⟩ :=
          (unpackDir_item hblen buf hlen len' pos' x).mp ⟨o', hd, hx⟩
        obtain ⟨hsize, halign⟩ := ih hle (Prod.ext h.1 hos) hr hxs
        have hhead := hdec.le
        rw [sizes_cons]
        refine ⟨by omega, fun heq => ?_⟩
        obtain rfl : r' = x.header.length := by omega
        exact ⟨decodes_header.mp hdec, hpay, halign (by omega)⟩

/-- Conversely, what is aligned unpacks to the items. -/
theorem unpackFrom_of_aligned {blen : ℕ} (hblen : blen < 2 ^ 63) (buf : Buf) :
    ∀ {xs : List PackItem} {len pos : ℕ}, len + sizes xs ≤ blen → Aligned buf xs pos →
      ∃ outs, unpackFrom blen buf (fmt xs) len pos = (len + sizes xs, outs) ∧
        YieldsAll buf xs outs := by
  intro xs
  induction xs with
  | nil => intro len pos _ _; exact ⟨[], rfl, rfl⟩
  | cons x xs ih =>
    intro len pos hle h
    obtain ⟨hread, hpay, hrest⟩ := h
    rw [sizes_cons] at hle ⊢
    have hlen : len ≤ blen := by omega
    have hle' : len + x.header.length + x.payload.length + sizes xs ≤ blen := by omega
    obtain ⟨o, hd, hx⟩ := (unpackDir_item hblen buf hlen _ _ x).mpr
      ⟨x.header.length, decodes_header.mpr hread, hpay, rfl, rfl, by omega⟩
    obtain ⟨os, hos, hxs⟩ := ih hle' hrest
    refine ⟨o ++ os, ?_, o, os, rfl, hx, hxs⟩
    rw [fmt, List.map_cons, ← fmt, unpackFrom_cons, hd]
    simp only [hos]
    congr 1
    omega

/-! ### When the round trip is exact -/

namespace PackItem

/-- A binary string whose packed length fits in 32 bits. -/
def Short : PackItem → Prop
  | .b v => v.1.length + 5 < 2 ^ 32
  | _ => True

instance : DecidablePred Short := fun x => by
  cases x with
  | b v => exact inferInstanceAs (Decidable (v.1.length + 5 < 2 ^ 32))
  | _ => exact inferInstanceAs (Decidable True)

/-- The bytes to read each item from are there, where `lag` are the bytes that
were packed before the items and that unpacking has not stepped over: the bytes
of an item are read off the front of `lag` and what the item is packed as, and
those of a binary string stay. -/
def Follows : Bytes → List PackItem → Prop
  | _, [] => True
  | lag, x :: xs =>
    (lag ++ x.header).take x.header.length = x.read ∧
      ((lag ++ x.header).drop x.header.length ++ x.payload).take x.payload.length = x.payload ∧
      Follows ((lag ++ x.header).drop x.header.length ++ x.payload) xs

instance decidableFollows : ∀ (lag : Bytes) (xs : List PackItem), Decidable (Follows lag xs)
  | _, [] => inferInstanceAs (Decidable True)
  | lag, x :: xs =>
    have := decidableFollows ((lag ++ x.header).drop x.header.length ++ x.payload) xs
    inferInstanceAs (Decidable (_ ∧ _ ∧ _))

/-- Packing counts an item's bytes, unless their number does not fit. -/
theorem room_eq_iff (x : PackItem) :
    x.room ≤ x.header.length + x.payload.length ∧
      (x.room = x.header.length + x.payload.length ↔ x.Short) := by
  cases x with
  | b v =>
    have hv := v.2
    have hk := tripUvarLen_le (UInt32.ofNat v.1.length).toUInt64 (l := 3)
    have hk4 : tripUvarLen (UInt32.ofNat v.1.length).toUInt64 ≤ 4 := by
      rw [tripUvarLen_le, UInt32.toNat_toUInt64]
      exact UInt32.toNat_lt _
    rw [UInt32.toNat_toUInt64, UInt32.toNat_ofNat', Nat.mod_eq_of_lt hv] at hk
    simp only [room, header, payload, varLE, List.length_cons, length_leBytes, Short]
    generalize tripUvarLen (UInt32.ofNat v.1.length).toUInt64 = k at hk hk4 ⊢
    have hpow : (256 : ℕ) ^ 3 = 2 ^ 24 := by decide
    rw [hpow] at hk
    refine ⟨(Nat.mod_le _ _).trans (by omega), fun h => ?_, fun h => ?_⟩
    · omega
    · omega
  | _ => exact ⟨le_rfl, iff_of_true rfl trivial⟩

theorem rooms_eq_iff (xs : List PackItem) :
    rooms xs ≤ sizes xs ∧ (rooms xs = sizes xs ↔ ∀ x ∈ xs, x.Short) := by
  induction xs with
  | nil => exact ⟨le_rfl, iff_of_true rfl fun x hx => absurd hx List.not_mem_nil⟩
  | cons x xs ih =>
    obtain ⟨hle, heq⟩ := room_eq_iff x
    obtain ⟨hles, heqs⟩ := ih
    rw [sizes_cons, rooms, List.map_cons, List.sum_cons, ← rooms, List.forall_mem_cons, ← heq,
      ← heqs]
    omega

/-- What is aligned in memory is what the items alone say. -/
theorem aligned_iff_follows {buf : Buf} : ∀ {xs : List PackItem} {lag : Bytes} {pos : ℕ},
    slice buf pos (lag.length + sizes xs) = lag ++ encode xs →
      (Aligned buf xs pos ↔ Follows lag xs) := by
  intro xs
  induction xs with
  | nil => intro lag pos _; exact Iff.rfl
  | cons x xs ih =>
    intro lag pos h
    -- the bytes read are `front`, and `rest` is ahead of what is packed behind the item
    generalize hfront : (lag ++ x.header).take x.header.length = front
    generalize hrest : (lag ++ x.header).drop x.header.length ++ x.payload = rest
    have hlf : front.length = x.header.length := by
      rw [← hfront, List.length_take, List.length_append]
      omega
    have hall : lag ++ encode (x :: xs) = front ++ (rest ++ encode xs) := by
      rw [encode_cons, ← hfront, ← hrest]
      calc lag ++ (x.header ++ x.payload ++ encode xs)
          = (lag ++ x.header) ++ (x.payload ++ encode xs) := by simp only [List.append_assoc]
        _ = _ := by
          conv_lhs => rw [← List.take_append_drop x.header.length (lag ++ x.header)]
          simp only [List.append_assoc]
    have hlen : lag.length + sizes (x :: xs) = front.length + (rest ++ encode xs).length := by
      have := congrArg List.length hall
      rwa [List.length_append, List.length_append] at this
    rw [hlen, hall] at h
    obtain ⟨h₁, h₂⟩ := slice_eq_append h
    have h₃ : slice buf (pos + x.header.length) x.payload.length = rest.take x.payload.length := by
      have hle : x.payload.length ≤ rest.length := by
        rw [← hrest, List.length_append]
        omega
      have hp : (rest.take x.payload.length).length = x.payload.length := by
        rw [List.length_take]
        omega
      have hsplit : rest ++ encode xs =
          rest.take x.payload.length ++ (rest.drop x.payload.length ++ encode xs) := by
        rw [← List.append_assoc, List.take_append_drop]
      rw [hsplit, List.length_append] at h₂
      have h₃ := (slice_eq_append h₂).1
      rwa [hp, hlf] at h₃
    rw [hlf, List.length_append] at h₂
    have hih : Aligned buf xs (pos + x.header.length) ↔ Follows rest xs := ih h₂
    rw [hlf] at h₁
    simp only [Aligned, Follows, hfront, hrest, hih, h₁, h₃]

end PackItem

/-- What was packed as `size` bytes of `buf` unpacks to the same. -/
def RoundTrips (size : ℕ) (buf : Buf) (xs : List PackItem) : Prop :=
  ∃ outs, tripUnpack size buf (fmt xs) = (size, outs) ∧ YieldsAll buf xs outs

/-- **When the round trip is exact.**  What is packed unpacks to the same length
and the same values exactly when no binary string is so long that its packed
length does not fit in 32 bits, and every item's bytes are there where they are
read: high byte first behind a length, and without the binary strings stepped
over. -/
theorem trip_pack_unpack_iff (sign : Bytes → Bytes → Bytes) {cap : ℕ} (hcap : cap < 2 ^ 63)
    {buf buf' : Buf} {xs : List PackItem} {size : ℕ}
    (hpack : tripPack sign cap buf (fmt xs) (argList xs) = some (size, buf'))
      (hsize : size ≠ NPOS) :
    RoundTrips size buf' xs ↔ (∀ x ∈ xs, x.Short) ∧ Follows [] xs := by
  obtain ⟨hrooms, hle, hmem⟩ := tripPack_items hcap hpack hsize
  obtain ⟨hroomsle, hshort⟩ := rooms_eq_iff xs
  have hblen : size < 2 ^ 63 := by omega
  have hfollows : Aligned buf' xs 0 ↔ Follows [] xs := by
    refine aligned_iff_follows ?_
    rw [List.length_nil, Nat.zero_add]
    exact hmem
  rw [← hshort, ← hfollows, ← hrooms]
  constructor
  · rintro ⟨outs, hun, hy⟩
    obtain ⟨hsizes, halign⟩ := aligned_of_unpackFrom hblen buf' (Nat.zero_le size) hun hsize hy
    have heq : size = sizes xs := by omega
    exact ⟨heq, halign (by omega)⟩
  · rintro ⟨heq, halign⟩
    have hsizes : 0 + sizes xs ≤ size := by omega
    obtain ⟨outs, hun, hy⟩ := unpackFrom_of_aligned hblen buf' hsizes halign
    exact ⟨outs, by rw [tripUnpack, hun, ← heq, Nat.zero_add], hy⟩

/-- A negative number, a small one behind its length, and a string at the end. -/
theorem trip_pack_unpack_iff_three :
    ∃ buf', tripPack (fun _ _ => []) 8 (fun _ => 0) (fmt [.h (-2), .V 9, .b ⟨[7, 8], by decide⟩])
        (argList [.h (-2), .V 9, .b ⟨[7, 8], by decide⟩]) = some (8, buf') ∧
      RoundTrips 8 buf' [.h (-2), .V 9, .b ⟨[7, 8], by decide⟩] :=
  ⟨_, rfl, (trip_pack_unpack_iff (fun _ _ => []) (by decide : 8 < 2 ^ 63) rfl (by decide)).mpr
    (by decide)⟩

/-- The number 258 comes back as 513. -/
theorem trip_unpack_swaps :
    ¬ ∀ (sign : Bytes → Bytes → Bytes) (cap : ℕ) (buf buf' : Buf) (xs : List PackItem) (size : ℕ),
      cap < 2 ^ 63 → tripPack sign cap buf (fmt xs) (argList xs) = some (size, buf') →
        size ≠ NPOS → RoundTrips size buf' xs := by
  intro hall
  obtain ⟨outs, hun, o, os, rfl, hy, hys⟩ := hall (fun _ _ => []) 8 (fun _ => 0) _ [.V 258] 3
    (by decide) rfl (by decide)
  obtain rfl : o = [.uint32 258] := hy
  obtain rfl : os = [] := hys
  have h := (congrArg Prod.snd hun).symm
  exact absurd h (by decide)

end Libtrp
