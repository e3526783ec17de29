import Libtrp.ConnError

/-!
# The information in OPEN and CHAL

Both sides of a connection tell each other their identifier, a nonce, a key and
four limits: the peer that opens in the OPEN segment, the other one in the CHAL
segment, where it stands behind the room for a sealed box.  A nonce or a key of
zeros is none.

## Main definitions

* `infoId`, `infoNonce`, `infoKey`, `infoLim` — the information at an offset.
* `InfoFormat` — a format that unpacks it.

## Main results

* `exec_tripcParseInfo` — what the parsers return and write.

## References

`src/conn.c` (`_tripc_parse_open`, `_tripc_parse_chal`).
-/

namespace Libtrp

open Lib

/-! ### The information at an offset -/

def infoId (buf : Buf) (off : ℕ) : UInt64 := unpacku64 (buf.drop off)

def infoNonce (buf : Buf) (off : ℕ) : Bytes := slice (buf.drop (off + 8)) 0 tripNonce

def infoKey (buf : Buf) (off : ℕ) : Bytes := slice (buf.drop (off + 32)) 0 tripKeyPub

def infoLim (buf : Buf) (off : ℕ) : Connlim :=
  ⟨unpacku32 (buf.drop (off + 64)), unpacku32 (buf.drop (off + 68)),
    unpacku32 (buf.drop (off + 72)), unpacku32 (buf.drop (off + 76))⟩

/-- What unpacking it writes. -/
def infoOuts (buf : Buf) (off : ℕ) : List UnpackOut :=
  [.uint64 (infoId buf off), .bytes (infoNonce buf off), .bytes (infoKey buf off),
    .uint32 (infoLim buf off).credit, .uint32 (infoLim buf off).stream,
    .uint32 (infoLim buf off).messageSize, .uint32 (infoLim buf off).message]

/-- A format that takes `size` bytes and writes the information at `off`. -/
structure InfoFormat (fmt : List PackDir) (size off : ℕ) : Prop where
  fixed : ∀ d ∈ fmt, d.fixed?.isSome
  size_eq : fixedSize fmt = size
  size_lt : size < 2 ^ 64
  outs : ∀ buf, fixedOuts buf fmt 0 = infoOuts buf off

theorem infoFormat_open : InfoFormat [.Q, .n, .k, .I, .I, .I, .I] 80 0 where
  fixed := by decide
  size_eq := rfl
  size_lt := by decide
  outs := fun _ => rfl

theorem infoFormat_chal : InfoFormat [.o, .Q, .n, .k, .I, .I, .I, .I, .O] 128 48 where
  fixed := by decide
  size_eq := rfl
  size_lt := by decide
  outs := fun _ => rfl

/-- The peer tells no nonce or no key. -/
def infoBare (buf : Buf) (off : ℕ) : Bool :=
  areZeros (infoNonce buf off) || areZeros (infoKey buf off)

/-! ### The parsers -/

/-- What a parser writes first. -/
def Connection.setInfo (buf : Buf) (off : ℕ) (x : Connection) : Connection :=
  { x with peer := { x.peer with id := infoId buf off, lim := infoLim buf off } }

/-- What it writes when there is a nonce and a key. -/
def Connection.setKeys (buf : Buf) (off : ℕ) (x : Connection) : Connection :=
  { x with peer := { x.peer with nonce := some (infoNonce buf off), pk := some (infoKey buf off) } }

/-- **What the parsers do**: they refuse a length that is not exact, and copy nonce
and key when the peer tells both. -/
theorem exec_tripcParseInfo {fmt : List PackDir} {size off : ℕ} (hfmt : InfoFormat fmt size off)
    (c : Ptr) (len : ℕ) (buf : Buf) (s : Env) :
    (tripcParseInfo fmt c len buf).exec s =
      if len ≠ size then (some EINVAL, s)
      else
        let t := s.setRouter (s.router.setConn c (Connection.setInfo buf off))
        if infoBare buf off = true then (some 0, t)
        else if s.oracle.alloc.head && s.oracle.alloc.tail.head then
          (some 0, t.popAlloc.popAlloc.setRouter
            (t.router.setConn c (Connection.setKeys buf off)))
        else (none, t.popAlloc.popAlloc) := by
  obtain ⟨hfits, hshort⟩ := tripUnpack_fixed hfmt.fixed (hfmt.size_eq ▸ hfmt.size_lt) len buf
  rw [hfmt.size_eq] at hfits hshort
  have hlt := hfmt.size_lt
  unfold tripcParseInfo
  by_cases hlen : len = size
  swap
  · rw [if_pos hlen]
    have hne : (tripUnpack len buf fmt).1 ≠ len := by
      rcases Nat.lt_or_gt_of_ne hlen with hless | hmore
      · rw [hshort hless]
        unfold NPOS
        omega
      · rw [hfits hmore.le]
        exact fun h => hlen h.symm
    dsimp only
    rw [if_pos hne]
    rfl
  rw [if_neg (not_not.mpr hlen)]
  simp only [hfits hlen.ge, hfmt.outs, infoOuts]
  rw [if_neg (not_not.mpr hlen.symm), Prog.exec_bind_of (exec_setConn _ _ _)]
  by_cases hbare : infoBare buf off = true
  · rw [if_pos hbare]
    unfold infoBare at hbare
    rw [if_pos hbare]
    rfl
  · rw [if_neg hbare]
    unfold infoBare at hbare
    rw [if_neg hbare, Prog.exec_bind_of (exec_tripmAlloc _),
      Prog.exec_bind_of (exec_tripmAlloc _), Prog.exec_ite]
    rfl

end Libtrp
