import Mathlib.Data.UInt
import Libtrp.Core
import Libtrp.Lib.Bits
import Libtrp.Lib.Bytes

/-!
# Packing and unpacking

A format is a list of directives.  `tripPack` writes the argument of each into a
buffer, `tripUnpack` reads them back, and both stop with `NPOS` when the buffer
has no room left.

## Main definitions

* `tripPack`, `tripUnpack` — the two loops, over `packDir` and `unpackDir`, which
  are one turn of their switches.
* `tripUnsign` — the check of a signature behind a message.

## References

`src/pack.c`, `src/pack.h`.
-/

namespace Libtrp

open Lib

/-- A buffer: the byte at each offset from its start. -/
abbrev Buf := ℕ → UInt8

/-- `buf + n` -/
def Buf.drop (buf : Buf) (n : ℕ) : Buf := fun i => buf (n + i)

/-! ### Formats and arguments -/

/-- A character of a format. -/
inductive PackDir
  | o | O | e | E | s | S | n | k | b | c | C | h | H | i | I | q | Q | p | V | W
  | other
  deriving DecidableEq, Repr

/-- A variadic argument of `trip_pack`, after the promotions of C. -/
inductive PackArg
  | int (v : Int32)
  | uint (v : UInt32)
  | int64 (v : Int64)
  | uint64 (v : UInt64)
  | ptr (p : Option Bytes)
  deriving DecidableEq

/-- Why `trip_pack` stops early: it returns `NPOS`, or an argument is not of the
type its directive takes it at, which has no meaning in C. -/
inductive PackStop
  | npos (mem : Buf)
  | undefined

/-- The next argument, taken at a type. -/
def takeInt : List PackArg → Except PackStop (Int32 × List PackArg)
  | .int v :: as => .ok (v, as)
  | _ => .error .undefined

def takeUint : List PackArg → Except PackStop (UInt32 × List PackArg)
  | .uint v :: as => .ok (v, as)
  | _ => .error .undefined

def takeInt64 : List PackArg → Except PackStop (Int64 × List PackArg)
  | .int64 v :: as => .ok (v, as)
  | _ => .error .undefined

def takeUint64 : List PackArg → Except PackStop (UInt64 × List PackArg)
  | .uint64 v :: as => .ok (v, as)
  | _ => .error .undefined

def takePtr : List PackArg → Except PackStop (Option Bytes × List PackArg)
  | .ptr p :: as => .ok (p, as)
  | _ => .error .undefined

/-! ### Integers -/

/-- `packi16` -/
def packi16 (i : UInt32) : Bytes := [(i >>> 8).toUInt8, i.toUInt8]

/-- `packi32` -/
def packi32 (i : UInt32) : Bytes :=
  [(i >>> 24).toUInt8, (i >>> 16).toUInt8, (i >>> 8).toUInt8, i.toUInt8]

/-- `packi64` -/
def packi64 (i : UInt64) : Bytes :=
  [(i >>> 56).toUInt8, (i >>> 48).toUInt8, (i >>> 40).toUInt8, (i >>> 32).toUInt8,
    (i >>> 24).toUInt8, (i >>> 16).toUInt8, (i >>> 8).toUInt8, i.toUInt8]

/-- `unpacku16` -/
def unpacku16 (buf : Buf) : UInt16 := (buf 0).toUInt16 <<< 8 ||| (buf 1).toUInt16

/-- `unpacku32` -/
def unpacku32 (buf : Buf) : UInt32 :=
  (buf 0).toUInt32 <<< 24 ||| (buf 1).toUInt32 <<< 16 ||| (buf 2).toUInt32 <<< 8 |||
    (buf 3).toUInt32

/-- `unpacku64` -/
def unpacku64 (buf : Buf) : UInt64 :=
  (buf 0).toUInt64 <<< 56 ||| (buf 1).toUInt64 <<< 48 ||| (buf 2).toUInt64 <<< 40 |||
    (buf 3).toUInt64 <<< 32 ||| (buf 4).toUInt64 <<< 24 ||| (buf 5).toUInt64 <<< 16 |||
    (buf 6).toUInt64 <<< 8 ||| (buf 7).toUInt64

/-- `unpacki16`.  The sign is restored in 32-bit arithmetic. -/
def unpacki16 (buf : Buf) : Int16 :=
  let i2 : UInt32 := (buf 0).toUInt32 <<< 8 ||| (buf 1).toUInt32
  let i : UInt32 := if i2 ≤ 0x7fff then i2 else (0 - 1) - (0xffff - i2)
  i.toInt32.toInt16

/-- `unpacki32` -/
def unpacki32 (buf : Buf) : Int32 :=
  let i2 := unpacku32 buf
  if i2 ≤ 0x7fffffff then i2.toInt32 else -1 - (0xffffffff - i2).toInt32

/-- `unpacki64` -/
def unpacki64 (buf : Buf) : Int64 :=
  let i2 := unpacku64 buf
  if i2 ≤ 0x7fffffffffffffff then i2.toInt64 else -1 - (0xffffffffffffffff - i2).toInt64

/-- The loop of `_trip_uvar_len`; eight shifts leave nothing of 64 bits. -/
def tripUvarLoop : ℕ → UInt64 → ℕ
  | 0, _ => 0
  | k + 1, n => if n = 0 then 0 else tripUvarLoop k (n >>> 8) + 1

/-- `_trip_uvar_len` -/
def tripUvarLen (n : UInt64) : ℕ := tripUvarLoop 8 n

/-- The loop that packs `i` bytes of a length-prefixed number, the low one
first. -/
def packVar : ℕ → UInt64 → Bytes
  | 0, _ => []
  | i + 1, n => (0xFF &&& n).toUInt8 :: packVar i (n >>> 8)

/-- The loop that unpacks one of `l` bytes into 32 bits, the high one first. -/
def unpackVar32 (l : ℕ) (buf : Buf) : UInt32 :=
  (slice buf 0 l).foldl (fun n b => (n <<< 8) ^^^ b.toUInt32) 0

/-- The same loop into 64 bits. -/
def unpackVar64 (l : ℕ) (buf : Buf) : UInt64 :=
  (slice buf 0 l).foldl (fun n b => (n <<< 8) ^^^ b.toUInt64) 0

/-! ### Packing -/

/-- The variables of `trip_pack`: `pos` is the distance `buf` has moved. -/
structure PackState where
  size : ℕ
  pos : ℕ
  mem : Buf
  sigstart : ℕ
  cryptstart : ℕ

/-- Count `n` more bytes, if the buffer has them. -/
def packRoom (cap n : ℕ) (s : PackState) : Except PackStop PackState :=
  let size := (s.size + n) % 2 ^ 64
  if size > cap then .error (.npos s.mem) else .ok { s with size := size }

/-- Write bytes and move behind them. -/
def PackState.put (s : PackState) (bs : Bytes) : PackState :=
  { s with mem := overwrite s.mem s.pos bs, pos := s.pos + bs.length }

/-- The `n` bytes behind a pointer. -/
def packCopy (n : ℕ) : Option Bytes → Except PackStop Bytes
  | some bs => if n ≤ bs.length then .ok (bs.take n) else .error .undefined
  | none => .error .undefined

/-- The `n` bytes behind a pointer, or zeros when it is `NULL`. -/
def packCopyOrZero (n : ℕ) : Option Bytes → Except PackStop Bytes
  | some bs => packCopy n (some bs)
  | none => .ok (List.replicate n 0)

/-- One turn of the switch of `trip_pack`.  `sign` is `crypto_sign_detached`, of
a message and a key. -/
def packDir (sign : Bytes → Bytes → Bytes) (cap : ℕ) :
    PackDir → PackState → List PackArg → Except PackStop (PackState × List PackArg)
  | .o, s, as => do
    let s ← packRoom cap cryptoBoxSealBytes s
    let (_, as) ← takePtr as
    return ({ s with cryptstart := s.pos, pos := s.pos + cryptoBoxSealBytes }, as)
  | .O, s, as =>
    -- the source does the same with a key and without one
    let zeros := List.replicate cryptoBoxSealBytes 0
    return ({ s with mem := overwrite s.mem s.cryptstart zeros }, as)
  | .e, s, as => return ({ s with cryptstart := s.pos }, as)
  | .E, s, as => return (s, as)
  | .s, s, as => return ({ s with sigstart := s.pos }, as)
  | .S, s, as => do
    let s ← packRoom cap tripSign s
    let (sigkey, as) ← takePtr as
    match sigkey with
    | some key => return (s.put (sign (slice s.mem s.sigstart (s.pos - s.sigstart)) key), as)
    | none => return (s.put (List.replicate tripSign 0), as)
  | .n, s, as => do
    let s ← packRoom cap tripNonce s
    let (nonce, as) ← takePtr as
    let bs ← packCopyOrZero tripNonce nonce
    return (s.put bs, as)
  | .k, s, as => do
    let s ← packRoom cap tripKeyPub s
    let (key, as) ← takePtr as
    let bs ← packCopyOrZero tripKeyPub key
    return (s.put bs, as)
  | .b, s, as => do
    let (rlen, as) ← takeUint as
    let (raw, as) ← takePtr as
    let i := tripUvarLen rlen.toUInt64
    -- the sum is one of `uint32_t`
    let s ← packRoom cap (UInt32.ofNat (i + 1) + rlen).toNat s
    let s := s.put (UInt8.ofNat i :: packVar i rlen.toUInt64)
    if rlen = 0 then return (s, as)
    else
      let bs ← packCopy rlen.toNat raw
      return (s.put bs, as)
  | .c, s, as => do
    let s ← packRoom cap 1 s
    let (c, as) ← takeInt as
    return (s.put [c.toInt8.toUInt8], as)
  | .C, s, as => do
    let s ← packRoom cap 1 s
    let (C, as) ← takeUint as
    return (s.put [C.toUInt8], as)
  | .h, s, as => do
    let s ← packRoom cap 2 s
    let (h, as) ← takeInt as
    return (s.put (packi16 h.toUInt32), as)
  | .H, s, as => do
    let s ← packRoom cap 2 s
    let (H, as) ← takeUint as
    return (s.put (packi16 H), as)
  | .i, s, as => do
    let s ← packRoom cap 4 s
    let (i, as) ← takeInt as
    return (s.put (packi32 i.toUInt32), as)
  | .I, s, as => do
    let s ← packRoom cap 4 s
    let (I, as) ← takeUint as
    return (s.put (packi32 I), as)
  | .q, s, as => do
    let s ← packRoom cap 8 s
    let (q, as) ← takeInt64 as
    return (s.put (packi64 q.toUInt64), as)
  | .Q, s, as => do
    let s ← packRoom cap 8 s
    let (Q, as) ← takeUint64 as
    return (s.put (packi64 Q), as)
  | .p, s, _ => .error (.npos s.mem)
  | .V, s, as => do
    let (I, as) ← takeUint as
    let i := tripUvarLen I.toUInt64
    let s ← packRoom cap (i + 1) s
    return (s.put (UInt8.ofNat i :: packVar i I.toUInt64), as)
  | .W, s, as => do
    let (Q, as) ← takeUint64 as
    let i := tripUvarLen Q
    let s ← packRoom cap (i + 1) s
    return (s.put (UInt8.ofNat i :: packVar i Q), as)
  | .other, s, _ => .error (.npos s.mem)

/-- The loop of `trip_pack`. -/
def packFrom (sign : Bytes → Bytes → Bytes) (cap : ℕ) :
    List PackDir → PackState → List PackArg → Except PackStop PackState
  | [], s, _ => .ok s
  | d :: fmt, s, as => do
    let (s, as) ← packDir sign cap d s as
    packFrom sign cap fmt s as

/-- `trip_pack`: the size, or `NPOS`, and the buffer. -/
def tripPack (sign : Bytes → Bytes → Bytes) (cap : ℕ) (buf : Buf) (fmt : List PackDir)
    (as : List PackArg) : Option (ℕ × Buf) :=
  match packFrom sign cap fmt ⟨0, 0, buf, 0, 0⟩ as with
  | .ok s => some (s.size, s.mem)
  | .error (.npos mem) => some (NPOS, mem)
  | .error .undefined => none

/-! ### Unpacking -/

/-- What `trip_unpack` writes through its arguments; a pointer it gives out is
an offset into the buffer. -/
inductive UnpackOut
  | int8 (v : Int8)
  | uint8 (v : UInt8)
  | int16 (v : Int16)
  | uint16 (v : UInt16)
  | int32 (v : Int32)
  | uint32 (v : UInt32)
  | int64 (v : Int64)
  | uint64 (v : UInt64)
  | bytes (bs : Bytes)
  | pointer (pos : ℕ)
  deriving DecidableEq

/-- A directive of `n` bytes, from which `out` is made. -/
def unpackFixed (blen : ℕ) (buf : Buf) (n : ℕ) (out : Buf → List UnpackOut) (len pos : ℕ) :
    Option (ℕ × ℕ) × List UnpackOut :=
  let len := (len + n) % 2 ^ 64
  if len > blen then (none, []) else (some (len, pos + n), out (buf.drop pos))

/-- One turn of the switch of `trip_unpack`: the new `len` and the distance `buf`
has moved, or `none` where it stops with `NPOS`, and what is written. -/
def unpackDir (blen : ℕ) (buf : Buf) :
    PackDir → ℕ → ℕ → Option (ℕ × ℕ) × List UnpackOut
  | .o => unpackFixed blen buf cryptoBoxSealBytes fun _ => []
  | .O => fun len pos => (some (len, pos), [])
  | .n => unpackFixed blen buf tripNonce fun b => [.bytes (slice b 0 tripNonce)]
  | .k => unpackFixed blen buf tripKeyPub fun b => [.bytes (slice b 0 tripKeyPub)]
  | .b => fun len pos =>
    let len := (len + 1) % 2 ^ 64
    if len > blen then (none, [])
    else
      let l := (buf pos).toNat
      let len := (len + l) % 2 ^ 64
      if l > 4 ∨ len > blen then (none, [])
      else
        let n := unpackVar32 l (buf.drop (pos + 1))
        let pos := pos + 1 + l
        let len := (len + n.toNat) % 2 ^ 64
        if len > blen then (none, [.uint32 n])
        else (some (len, pos), [.uint32 n, .pointer pos])
  | .c => unpackFixed blen buf 1 fun b => [.int8 (b 0).toInt8]
  | .C => unpackFixed blen buf 1 fun b => [.uint8 (b 0)]
  | .h => unpackFixed blen buf 2 fun b => [.int16 (unpacki16 b)]
  | .H => unpackFixed blen buf 2 fun b => [.uint16 (unpacku16 b)]
  | .i => unpackFixed blen buf 4 fun b => [.int32 (unpacki32 b)]
  | .I => unpackFixed blen buf 4 fun b => [.uint32 (unpacku32 b)]
  | .q => unpackFixed blen buf 8 fun b => [.int64 (unpacki64 b)]
  | .Q => unpackFixed blen buf 8 fun b => [.uint64 (unpacku64 b)]
  | .V => fun len pos =>
    if (len + 1) % 2 ^ 64 > blen then (none, [])
    else
      let l := (buf pos).toNat
      let len := (len + (1 + l)) % 2 ^ 64
      if l > 4 ∨ len > blen then (none, [])
      else (some (len, pos + 1 + l), [.uint32 (unpackVar32 l (buf.drop (pos + 1)))])
  | .W => fun len pos =>
    let len := (len + 1) % 2 ^ 64
    if len > blen then (none, [])
    else
      let l := (buf pos).toNat
      let len := (len + l) % 2 ^ 64
      if l > 8 ∨ len > blen then (none, [])
      else (some (len, pos + 1 + l), [.uint64 (unpackVar64 l (buf.drop (pos + 1)))])
  | .e | .E | .s | .S | .p | .other => fun _ _ => (none, [])

/-- The loop of `trip_unpack`. -/
def unpackFrom (blen : ℕ) (buf : Buf) : List PackDir → ℕ → ℕ → ℕ × List UnpackOut
  | [], len, _ => (len, [])
  | d :: fmt, len, pos =>
    match unpackDir blen buf d len pos with
    | (none, out) => (NPOS, out)
    | (some (len, pos), out) =>
      let (r, outs) := unpackFrom blen buf fmt len pos
      (r, out ++ outs)

/-- `trip_unpack`: the length, or `NPOS`, and what it writes. -/
def tripUnpack (blen : ℕ) (buf : Buf) (fmt : List PackDir) : ℕ × List UnpackOut :=
  unpackFrom blen buf fmt 0 0

/-- `trip_unsign`.  `verify` is `crypto_sign_verify_detached`, of a signature, a
message and a key. -/
def tripUnsign (verify : Bytes → Bytes → Bytes → Bool) (len : ℕ) (buf : Buf)
    (pk : Option Bytes) : Errno :=
  match pk with
  | none => EINVAL
  | some pk =>
    if len ≤ tripSign then EINVAL
    else if verify (slice buf (len - tripSign) tripSign) (slice buf 0 (len - tripSign)) pk then 0
    else -1

/-! ### Formats of a fixed size -/

/-- The bytes of a directive that always takes as many, and what is made of them. -/
def PackDir.fixed? : PackDir → Option (ℕ × (Buf → List UnpackOut))
  | .o => some (cryptoBoxSealBytes, fun _ => [])
  | .O => some (0, fun _ => [])
  | .n => some (tripNonce, fun b => [.bytes (slice b 0 tripNonce)])
  | .k => some (tripKeyPub, fun b => [.bytes (slice b 0 tripKeyPub)])
  | .c => some (1, fun b => [.int8 (b 0).toInt8])
  | .C => some (1, fun b => [.uint8 (b 0)])
  | .h => some (2, fun b => [.int16 (unpacki16 b)])
  | .H => some (2, fun b => [.uint16 (unpacku16 b)])
  | .i => some (4, fun b => [.int32 (unpacki32 b)])
  | .I => some (4, fun b => [.uint32 (unpacku32 b)])
  | .q => some (8, fun b => [.int64 (unpacki64 b)])
  | .Q => some (8, fun b => [.uint64 (unpacku64 b)])
  | .e | .E | .s | .S | .p | .b | .V | .W | .other => none

/-- The bytes of such a format. -/
def fixedSize (fmt : List PackDir) : ℕ := (fmt.map fun d => (d.fixed?.map Prod.fst).getD 0).sum

/-- What such a format writes, from the bytes at `pos` on. -/
def fixedOuts (buf : Buf) : List PackDir → ℕ → List UnpackOut
  | [], _ => []
  | d :: fmt, pos =>
    match d.fixed? with
    | some (n, out) => out (buf.drop pos) ++ fixedOuts buf fmt (pos + n)
    | none => []

theorem unpackDir_eq_fixed {d : PackDir} {n : ℕ} {out : Buf → List UnpackOut}
    (hd : d.fixed? = some (n, out)) {blen : ℕ} (buf : Buf) {len : ℕ} (pos : ℕ)
    (hlen : len ≤ blen) (htotal : len + n < 2 ^ 64) :
    unpackDir blen buf d len pos =
      if len + n ≤ blen then (some (len + n, pos + n), out (buf.drop pos)) else (none, []) := by
  have hfixed : unpackFixed blen buf n out len pos =
      if len + n ≤ blen then (some (len + n, pos + n), out (buf.drop pos)) else (none, []) := by
    unfold unpackFixed
    rw [Nat.mod_eq_of_lt htotal]
    by_cases hle : len + n ≤ blen
    · rw [if_pos hle, if_neg (Nat.not_lt.mpr hle)]
    · rw [if_neg hle, if_pos (Nat.lt_of_not_le hle)]
  cases d <;> simp only [PackDir.fixed?, Option.some.injEq, Prod.mk.injEq, reduceCtorEq] at hd
  case O =>
    obtain ⟨rfl, rfl⟩ := hd
    rw [Nat.add_zero, if_pos hlen]
    rfl
  all_goals
    obtain ⟨rfl, rfl⟩ := hd
    exact hfixed

/-- **A format of a fixed size** is unpacked when its bytes are there. -/
theorem unpackFrom_fixed {blen : ℕ} (buf : Buf) : ∀ {fmt : List PackDir} {len : ℕ} (pos : ℕ),
    (∀ d ∈ fmt, d.fixed?.isSome) → len ≤ blen → len + fixedSize fmt < 2 ^ 64 →
      (len + fixedSize fmt ≤ blen →
        unpackFrom blen buf fmt len pos = (len + fixedSize fmt, fixedOuts buf fmt pos)) ∧
      (blen < len + fixedSize fmt → (unpackFrom blen buf fmt len pos).1 = NPOS) := by
  intro fmt
  induction fmt with
  | nil =>
    intro len pos _ hlen _
    exact ⟨fun _ => rfl, fun hlt => absurd hlen (Nat.not_le.mpr hlt)⟩
  | cons d fmt ih =>
    intro len pos hall hlen htotal
    obtain ⟨⟨n, out⟩, hd⟩ := Option.isSome_iff_exists.mp (hall d List.mem_cons_self)
    have hsize : fixedSize (d :: fmt) = n + fixedSize fmt := by simp [fixedSize, hd]
    rw [hsize] at htotal ⊢
    have hdir := unpackDir_eq_fixed hd buf pos hlen (by omega)
    unfold unpackFrom fixedOuts
    rw [hd, hdir]
    by_cases hle : len + n ≤ blen
    · rw [if_pos hle]
      obtain ⟨hfits, hshort⟩ := ih (pos + n) (fun d' hd' => hall d' (List.mem_cons_of_mem _ hd'))
        hle (by omega)
      rw [← Nat.add_assoc]
      exact ⟨fun h => by simp only [hfits h], fun h => hshort h⟩
    · rw [if_neg hle]
      exact ⟨fun h => by omega, fun _ => rfl⟩

/-- The same for `trip_unpack`. -/
theorem tripUnpack_fixed {fmt : List PackDir} (hall : ∀ d ∈ fmt, d.fixed?.isSome)
    (htotal : fixedSize fmt < 2 ^ 64) (blen : ℕ) (buf : Buf) :
    (fixedSize fmt ≤ blen → tripUnpack blen buf fmt = (fixedSize fmt, fixedOuts buf fmt 0)) ∧
      (blen < fixedSize fmt → (tripUnpack blen buf fmt).1 = NPOS) := by
  have h := unpackFrom_fixed buf 0 hall (Nat.zero_le blen) (by omega)
  rwa [Nat.zero_add] at h

end Libtrp
