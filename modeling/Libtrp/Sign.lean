import Mathlib.Data.UInt
import Libtrp.Lib.Bytes
import Libtrp.PackSize

/-!
# Signed messages

A message is signed by packing it between `s` and `S`.  `S` signs from the place that `s`
kept up to where the loop has come; `trip_unsign` is given the size alone, and takes the
last bytes for the signature and those before for what it signs.  The two agree when the
size that is counted is the distance the loop has come.

## Main definitions

* `packLeft` — the arguments that a format leaves.
* `PackSigned` — what a signed message is.

## Main results

* `packFrom_append` — **a format is packed part by part.**
* `trip_pack_signs_iff` — **when a message is signed as it is checked.**

## References

`src/pack.c` (`trip_pack`, `trip_unsign`).
-/

namespace Libtrp

open Lib

/-! ### Arguments -/

/-- The arguments that a format leaves. -/
def packLeft : List PackDir → List PackArg → Option (List PackArg)
  | [], as => some as
  | d :: fmt, as => do
    let (_, as) ← packTake d as
    packLeft fmt as

theorem packLeft_cons {d : PackDir} {fmt : List PackDir} {as rest : List PackArg}
    (h : packLeft (d :: fmt) as = some rest) :
    ∃ p as', packTake d as = some (p, as') ∧ packLeft fmt as' = some rest := by
  obtain ⟨⟨p, as'⟩, htake, hrest⟩ := Option.bind_eq_some_iff.mp h
  exact ⟨p, as', htake, hrest⟩

/-- A step that is taken in one program is taken in another that goes on the same way. -/
theorem bind_ok_of_imp {α β ε : Type} {x : Except ε α} {f g : α → Except ε β} {b c : β}
    (h : ∀ a, f a = .ok b → g a = .ok c) (hf : x.bind f = .ok b) : x.bind g = .ok c := by
  cases x with
  | error e => exact nomatch hf
  | ok a => exact h a hf

/-- It does the same whatever they are. -/
theorem packDir_append {sign : Bytes → Bytes → Bytes} {cap : ℕ} {d : PackDir} {s s' : PackState}
    {as as' : List PackArg} {p : PackPart} (h : packTake d as = some (p, as'))
    (hok : packDir sign cap d s as = .ok (s', as')) (xs : List PackArg) :
    packDir sign cap d s (as ++ xs) = .ok (s', as' ++ xs) := by
  unfold packTake at h
  split at h
  case h_2 | h_3 | h_4 | h_5 =>
    -- no room is needed and no argument taken
    cases h
    cases hok
    rfl
  case h_6 key as =>
    cases h
    apply bind_ok_of_imp _ hok
    intro t ht
    cases key <;> cases ht <;> rfl
  case h_7 bytes as | h_8 bytes as =>
    split at h
    · cases h
      apply bind_ok_of_imp _ hok
      intro t ht
      refine @bind_ok_of_imp _ _ _ (packCopyOrZero _ bytes) (fun bs => .ok (t.put bs, as')) _ _ _
        (fun bs hbs => ?_) ht
      cases hbs
      rfl
    · cases h
  case h_9 rlen raw as =>
    split at h
    · cases h
      apply bind_ok_of_imp _ hok
      intro t ht
      dsimp only at ht ⊢
      split at ht
      · next hzero =>
        cases ht
        exact if_pos hzero
      · next hzero =>
        refine (if_neg hzero).trans ?_
        apply bind_ok_of_imp _ ht
        intro bs hbs
        cases hbs
        rfl
    · cases h
  case h_20 => cases h
  all_goals
    cases h
    apply bind_ok_of_imp _ hok
    intro t ht
    cases ht
    rfl

/-- Only `S` signs. -/
theorem packDir_sign {d : PackDir} (hd : d ≠ .S) (sign sign' : Bytes → Bytes → Bytes) (cap : ℕ)
    (s : PackState) (as : List PackArg) :
    packDir sign cap d s as = packDir sign' cap d s as := by
  cases d <;> first | rfl | exact absurd rfl hd

theorem packFrom_sign (sign sign' : Bytes → Bytes → Bytes) (cap : ℕ) : ∀ {fmt : List PackDir}
    (s : PackState) (as : List PackArg), .S ∉ fmt →
      packFrom sign cap fmt s as = packFrom sign' cap fmt s as := by
  intro fmt
  induction fmt with
  | nil => exact fun _ _ _ => rfl
  | cons d fmt ih =>
    intro s as h
    obtain ⟨hd, hfmt⟩ := not_or.mp (mt List.mem_cons.mpr h)
    rw [packFrom_cons, packFrom_cons, packDir_sign (Ne.symm hd) sign sign']
    congr 1
    funext q
    exact ih q.1 q.2 hfmt

/-! ### A format in two parts -/

section Loop

variable {sign : Bytes → Bytes → Bytes} (hsign : ∀ m k, (sign m k).length = tripSign) {cap : ℕ}
  (hcap : cap < 2 ^ 64)
include hsign hcap

/-- What a format does that finds room. -/
theorem packFrom_room : ∀ {fmt : List PackDir} {as : List PackArg} {ps : List PackPart}
    {s : PackState}, packParts fmt as = some (ps, true) → s.size + packCounted ps ≤ cap →
      ∃ s', packFrom sign cap fmt s as = .ok s' ∧ s'.size = s.size + packCounted ps ∧
        s'.pos = s.pos + packLength ps ∧ (.s ∉ fmt → s'.sigstart = s.sigstart) := by
  intro fmt
  induction fmt with
  | nil =>
    rintro as ps s ⟨⟩ -
    exact ⟨s, rfl, rfl, rfl, fun _ => rfl⟩
  | cons d fmt ih =>
    intro as ps s hparts hroom
    rcases packParts_cons hparts with ⟨-, -, h⟩ | ⟨p, as', ps', htake, hrest, rfl⟩
    · exact absurd h (Bool.false_ne_true ∘ Eq.symm)
    · rw [packCounted_cons] at hroom ⊢
      obtain ⟨t, hdir, hstep⟩ := (packDir_step hsign htake (show s.size ≤ cap by omega)
        (by omega)).2 (by omega)
      have ht := hstep.size
      obtain ⟨s', hok, hsize, hpos, hsig⟩ := ih (s := t) hrest (by omega)
      rw [packFrom_cons, hdir, packLength_cons]
      refine ⟨s', hok, by omega, ?_, fun hs => ?_⟩
      · rw [hpos, hstep.pos, Nat.add_assoc]
      · obtain ⟨hd, hfmt⟩ := not_or.mp (mt List.mem_cons.mpr hs)
        rw [hsig hfmt, hstep.sig, (packTake_bounds htake).1, if_neg (Ne.symm hd)]

/-- **A format is packed part by part**: what is behind finds what the first part leaves. -/
theorem packFrom_append (g : List PackDir) (xs : List PackArg) : ∀ {fmt : List PackDir}
    {as rest : List PackArg} {ps : List PackPart} {s s' : PackState},
    packParts fmt as = some (ps, true) → packLeft fmt as = some rest →
      s.size + packCounted ps ≤ cap → packFrom sign cap fmt s as = .ok s' →
      packFrom sign cap (fmt ++ g) s (as ++ xs) = packFrom sign cap g s' (rest ++ xs) := by
  intro fmt
  induction fmt with
  | nil =>
    rintro as rest ps s s' - ⟨⟩ - ⟨⟩
    rfl
  | cons d fmt ih =>
    intro as rest ps s s' hparts hleft hroom hok
    rcases packParts_cons hparts with ⟨-, -, h⟩ | ⟨p, as', ps', htake, hrest, rfl⟩
    · exact absurd h (Bool.false_ne_true ∘ Eq.symm)
    · obtain ⟨p', as'', htake', hleft'⟩ := packLeft_cons hleft
      cases htake.symm.trans htake'
      rw [packCounted_cons] at hroom
      obtain ⟨t, hdir, hstep⟩ := (packDir_step hsign htake (show s.size ≤ cap by omega)
        (by omega)).2 (by omega)
      have ht := hstep.size
      rw [packFrom_cons, hdir] at hok
      rw [List.cons_append, packFrom_cons, packDir_append htake hdir xs]
      exact ih (s := t) hrest hleft' (by omega) hok

end Loop

/-! ### The signature -/

/-- The message `f` is signed: `s` `f` `S` packs it with a signature that `trip_unsign` takes,
of every byte before it, and these are the bytes that `f` packs alone. -/
def PackSigned (sign : Bytes → Bytes → Bytes) (verify : Bytes → Bytes → Bytes → Bool)
    (f : List PackDir) (as : List PackArg) (sk pk : Bytes) (cap : ℕ) (buf : Buf) : Prop :=
  ∃ r mem r' mem',
    tripPack sign cap buf (.s :: f ++ [.S]) (as ++ [.ptr (some sk)]) = some (r, mem) ∧ r ≤ cap ∧
      tripPack sign cap buf f as = some (r', mem') ∧
      tripUnsign verify r mem (some pk) = 0 ∧
      slice mem (r - tripSign) tripSign = sign (slice mem 0 (r - tripSign)) sk ∧
      slice mem 0 (r - tripSign) = slice mem' 0 r'

/-- A signature is long enough for `trip_unsign` to look for one. -/
theorem tripUnsign_of_lt {verify : Bytes → Bytes → Bytes → Bool} {r : ℕ} {mem : Buf} {pk : Bytes}
    (hr : tripSign < r) :
    tripUnsign verify r mem (some pk) = 0 ↔
      verify (slice mem (r - tripSign) tripSign) (slice mem 0 (r - tripSign)) pk = true := by
  unfold tripUnsign
  dsimp only
  rw [if_neg (Nat.not_le.mpr hr)]
  cases verify (slice mem (r - tripSign) tripSign) (slice mem 0 (r - tripSign)) pk with
  | false => exact iff_of_false (by decide) Bool.false_ne_true
  | true => exact iff_of_true rfl rfl

/-- A signature of the same bytes for every message. -/
def sameSign (b : UInt8) : Bytes → Bytes → Bytes := fun _ _ => List.replicate tripSign b

theorem length_sameSign (b : UInt8) (m k : Bytes) : (sameSign b m k).length = tripSign :=
  List.length_replicate

section Message

variable {f : List PackDir} {as : List PackArg} {ps : List PackPart} {cap : ℕ}
  (hs : .s ∉ f) (hparts : packParts f as = some (ps, true)) (hleft : packLeft f as = some [])
  (hroom : packLength ps + tripSign ≤ cap) (hcap : cap < 2 ^ 64)
include hs hparts hleft hroom hcap

/-- What is packed for a message: the bytes of `f`, and behind them what is signed with the
key.  The size is what is counted. -/
theorem tripPack_signed {sign : Bytes → Bytes → Bytes} (hsign : ∀ m k, (sign m k).length = tripSign)
    (sk : Bytes) (buf : Buf) :
    ∃ s', packFrom sign cap f (packStart buf) as = .ok s' ∧ s'.size = packCounted ps ∧
      s'.pos = packLength ps ∧ tripPack sign cap buf f as = some (packCounted ps, s'.mem) ∧
      tripPack sign cap buf (.s :: f ++ [.S]) (as ++ [.ptr (some sk)]) =
        some (packCounted ps + tripSign, overwrite s'.mem s'.pos
          (sign (slice s'.mem 0 s'.pos) sk)) := by
  have hle := packCounted_le ps
  obtain ⟨s', hok, hsize, hpos, hsig⟩ := packFrom_room hsign hcap (s := packStart buf) hparts
    (show 0 + packCounted ps ≤ cap by omega)
  rw [show (packStart buf).size = 0 from rfl, Nat.zero_add] at hsize
  rw [show (packStart buf).pos = 0 from rfl, Nat.zero_add] at hpos
  refine ⟨s', hok, hsize, hpos, ?_, ?_⟩
  · unfold tripPack
    rw [show packFrom sign cap f ⟨0, 0, buf, 0, 0⟩ as = .ok s' from hok]
    exact congrArg (fun n => some (n, s'.mem)) hsize
  · -- `s` keeps the place where the loop begins, which is the one kept already
    have hS : packFrom sign cap (.s :: f ++ [.S]) ⟨0, 0, buf, 0, 0⟩ (as ++ [.ptr (some sk)]) =
        packFrom sign cap [.S] s' [.ptr (some sk)] :=
      packFrom_append hsign hcap [.S] [.ptr (some sk)] (s := packStart buf) hparts hleft
        (show 0 + packCounted ps ≤ cap by omega) hok
    have hput : packDir sign cap .S s' [.ptr (some sk)] =
        (packRoom cap tripSign s').bind fun s =>
          .ok (s.put (sign (slice s.mem s.sigstart (s.pos - s.sigstart)) sk), []) := rfl
    have hfits : s'.size + tripSign ≤ cap := by omega
    unfold tripPack
    rw [hS, packFrom_cons, hput, packRoom_eq (Nat.lt_of_le_of_lt hfits hcap),
      if_neg (Nat.not_lt.mpr hfits)]
    have hzero : s'.sigstart = 0 := hsig hs
    dsimp only [Except.bind, packFrom, PackState.put]
    rw [hzero, hsize, Nat.sub_zero]

/-- **A message whose count is right is signed** as it is checked. -/
theorem packSigned_of_counted {sign : Bytes → Bytes → Bytes} {verify : Bytes → Bytes → Bytes → Bool}
    {sk pk : Bytes} (hsign : ∀ m k, (sign m k).length = tripSign)
    (hverify : ∀ m, verify (sign m sk) m pk = true) (hne : packLength ps ≠ 0)
    (hcount : packCounted ps = packLength ps) (buf : Buf) :
    PackSigned sign verify f as sk pk cap buf := by
  obtain ⟨s', -, hsize, hpos, halone, hpack⟩ :=
    tripPack_signed hs hparts hleft hroom hcap hsign sk buf
  have hlen := hsign (slice s'.mem 0 s'.pos) sk
  have hend : packCounted ps + tripSign - tripSign = s'.pos := by omega
  have hsig : slice (overwrite s'.mem s'.pos (sign (slice s'.mem 0 s'.pos) sk)) s'.pos tripSign =
      sign (slice s'.mem 0 s'.pos) sk := by
    conv_lhs => rw [← hlen]
    exact slice_overwrite_self _ _ _
  have hmsg : slice (overwrite s'.mem s'.pos (sign (slice s'.mem 0 s'.pos) sk)) 0 s'.pos =
      slice s'.mem 0 s'.pos := slice_overwrite_of_le _ _ (Nat.zero_add _).le
  refine ⟨_, _, _, _, hpack, by omega, halone, ?_, ?_, ?_⟩
  · rw [tripUnsign_of_lt (by omega), hend, hsig, hmsg]
    exact hverify _
  · rw [hend, hsig, hmsg]
  · rw [hend, hmsg, hcount, ← hpos]

/-- **A message that is counted short** is not: `trip_unsign` takes a byte of the message for
the first of the signature. -/
theorem not_packSigned_of_counted (hS : .S ∉ f) (hcount : packCounted ps < packLength ps)
    (sk pk : Bytes) (buf : Buf) :
    ∃ (sign : Bytes → Bytes → Bytes) (verify : Bytes → Bytes → Bytes → Bool),
      (∀ m k, (sign m k).length = tripSign) ∧ (∀ m, verify (sign m sk) m pk = true) ∧
        ¬ PackSigned sign verify f as sk pk cap buf := by
  have hlong := fun b : UInt8 =>
    tripPack_signed hs hparts hleft hroom hcap (length_sameSign b) sk buf
  -- the byte does not depend on how the message is signed
  obtain ⟨t, ht, -, -, -, -⟩ := hlong 0
  let b := t.mem (packCounted ps) + 1
  refine ⟨sameSign b, fun sig _ _ => sig == List.replicate tripSign b, length_sameSign b,
    fun _ => beq_self_eq_true _, ?_⟩
  rintro ⟨r, mem, -, -, hpacked, -, -, hunsign, -, -⟩
  obtain ⟨s', hs', -, hpos, -, hpack⟩ := hlong b
  have hsame : s' = t := by
    rw [packFrom_sign _ (sameSign 0) cap _ _ hS, ht] at hs'
    injection hs' with hs'
    exact hs'.symm
  cases hpacked.symm.trans hpack
  have hbyte : overwrite s'.mem s'.pos (sameSign b (slice s'.mem 0 s'.pos) sk) (packCounted ps) =
      t.mem (packCounted ps) := by
    rw [overwrite, if_neg (by omega), hsame]
  rcases Nat.eq_zero_or_pos (packCounted ps) with hzero | hpos'
  · rw [hzero] at hunsign
    exact absurd (show EINVAL = 0 from hunsign) (by decide)
  · rw [tripUnsign_of_lt (by omega), Nat.add_sub_cancel, beq_iff_eq] at hunsign
    have hfirst := congrArg List.head? hunsign
    rw [show tripSign = 63 + 1 from rfl, slice_succ, hbyte, List.replicate_succ] at hfirst
    have hne : ∀ x : UInt8, x ≠ x + 1 := by simp
    exact hne _ (Option.some.inj hfirst)

end Message

/-- **When a message is signed as it is checked.**  Its bytes go between `s` and `S` with a
signature of all of them that `trip_unsign` takes if and only if no string is so long that
its length wraps. -/
theorem trip_pack_signs_iff {f : List PackDir} {as : List PackArg} {ps : List PackPart}
    {sk pk : Bytes} {cap : ℕ} (hs : .s ∉ f) (hS : .S ∉ f)
    (hparts : packParts f as = some (ps, true)) (hleft : packLeft f as = some [])
    (hne : packLength ps ≠ 0) (hroom : packLength ps + tripSign ≤ cap) (hcap : cap < 2 ^ 64)
    (buf : Buf) :
    (∀ (sign : Bytes → Bytes → Bytes) (verify : Bytes → Bytes → Bytes → Bool),
      (∀ m k, (sign m k).length = tripSign) → (∀ m, verify (sign m sk) m pk = true) →
        PackSigned sign verify f as sk pk cap buf) ↔
      ∀ p ∈ ps, p.size < 2 ^ 32 := by
  rw [← packCounted_eq_iff]
  constructor
  · intro hall
    by_contra hcount
    obtain ⟨sign, verify, hsign, hverify, hnot⟩ := not_packSigned_of_counted hs hparts hleft hroom
      hcap hS (lt_of_le_of_ne (packCounted_le ps) hcount) sk pk buf
    exact hnot (hall sign verify hsign hverify)
  · intro hcount sign verify hsign hverify
    exact packSigned_of_counted hs hparts hleft hroom hcap hsign hverify hne hcount buf

/-- A sealed string. -/
theorem trip_pack_signs_sealed :
    PackSigned (sameSign 5) (fun sig _ _ => sig == List.replicate tripSign 5) [.o, .b, .O]
      [.ptr none, .uint 2, .ptr (some [7, 9])] [1] [2] 200 (fun _ => 0) :=
  (trip_pack_signs_iff (by decide) (by decide)
    (show packParts [.o, .b, .O] [.ptr none, .uint 2, .ptr (some [7, 9])] =
      some ([⟨.o, 48, 0⟩, ⟨.b, 2, 2⟩, ⟨.O, 0, 0⟩], true) by decide)
    (by decide) (by decide) (by decide) (by decide) (fun _ => 0)).mpr (by decide)
    (sameSign 5) _ (length_sameSign 5) fun _ => beq_self_eq_true _

/-- A string of 2^32 - 1 bytes is not signed. -/
theorem trip_pack_signs_short :
    ¬ ∀ (sign : Bytes → Bytes → Bytes) (verify : Bytes → Bytes → Bytes → Bool) (f : List PackDir)
        (as : List PackArg) (ps : List PackPart) (sk pk : Bytes) (cap : ℕ) (buf : Buf),
      (∀ m k, (sign m k).length = tripSign) → (∀ m, verify (sign m sk) m pk = true) →
        .s ∉ f → .S ∉ f → packParts f as = some (ps, true) → packLeft f as = some [] →
        packLength ps ≠ 0 → packLength ps + tripSign ≤ cap → cap < 2 ^ 64 →
        PackSigned sign verify f as sk pk cap buf := by
  intro hall
  have hlen : (4294967295 : UInt32).toNat ≤ (List.replicate 4294967295 (0 : UInt8)).length :=
    List.length_replicate.ge
  have htake := @packTake_b 4294967295 _ [] hlen
  have hparts := @packParts_of_take .b [] _ _ _ _ _ rfl htake rfl
  have hleft : packLeft [.b] [.uint 4294967295, .ptr (some (List.replicate 4294967295 0))] =
      some [] := by
    rw [packLeft, htake]
    rfl
  obtain ⟨sign, verify, hsign, hverify, hnot⟩ := not_packSigned_of_counted (by decide) hparts hleft
    (show _ ≤ 2 ^ 33 by decide) (by decide) (by decide) (by decide) [1] [2] (fun _ => 0)
  exact hnot (hall sign verify _ _ _ [1] [2] _ _ hsign hverify (by decide) (by decide) hparts hleft
    (by decide) (by decide) (by decide))

end Libtrp
