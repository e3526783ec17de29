import Libtrp.TripPacket

/-!
# The numbers of packets

The prefix of a segment carries a sequence number of its sender, from which the nonces of
encrypted segments are made, so that no number may be used twice.  A connection takes a
number only where the router packs, and only for a packet that it leaves in the buffer.  So
its packets are numbered one after the other from zero, whatever else goes on between two
of them, and no number comes again before all have been used.

How many packets a connection has packed is no part of the router; it is a history
variable of the run.

## Main definitions

* `Config.packs` — the connection that packs a packet in a step.
* `tally` — how many packets each connection has packed.

## Main results

* `trip_packets_numbered` — **packets are numbered one after the other.**

## References

`src/conn.c` (`_tripc_seq`, `_tripc_send`), `src/trip.c` (`_trip_listen`).
-/

namespace Libtrp

open Lib Relation

/-- The connection that packs a packet: it is on top, has not sent too much already, and
leaves a packet in the buffer. -/
def Config.packs (c c' : Config) : Option Ptr :=
  match c.todo with
  | .pack d connsent _ :: _ =>
    if connsent < c.router.maxConnectionSendCount ∧ c'.router.sendlen ≠ 0 ∧
      c'.router.sendlen ≠ NPOS then some d else none
  | _ => none

/-- How many packets each connection has packed. -/
def tally (c : Config) (_ : Input) (c' : Config) (n : Ptr → ℕ) : Ptr → ℕ :=
  match c.packs c' with
  | some d => Function.update n d (n d + 1)
  | none => n

/-! ### Numbers of segments -/

/-- A segment is never empty, and short. -/
theorem Standing.Numbered.bounds {sign : Bytes → Bytes → Bytes} {x : Standing} {seq : UInt64}
    {len : ℕ} {buf : Buf} (h : x.Numbered sign seq len buf) (hx : x.Lawful) :
    len ≠ 0 ∧ len ≠ NPOS := by
  have hl := PackItem.tripUvarLen_le_eight seq
  have hnpos : NPOS = 2 ^ 64 - 1 := rfl
  have hsign : tripSign = 64 := rfl
  have hhead : (x.head seq).length ≤ 21 := by
    cases hin : x.incoming with
    | false =>
      rw [Standing.head_out hin, List.length_append, length_prefixBytes]
      show _ + 3 ≤ 21
      omega
    | true =>
      rw [Standing.head_in hin, length_prefixBytes]
      omega
  have hlen := h.1
  unfold signedSize at hlen
  rw [length_infoBytes hx.sized, show cryptoBoxSealBytes = 48 from rfl] at hlen
  omega

/-- A step in which nothing is packed keeps the number. -/
theorem Standing.Step.sequence {sc : Scene} (hsc : ¬ sc.packs) {x y : Standing}
    (h : Standing.Step sc x y) : y.self.sequence = x.self.sequence := by
  cases h with
  | speaks hpacks _ => exact absurd hpacks hsc
  | starts _ _ _ | resolved _ _ | challenged _ _ _ _ | pinged _ _ _ _ _ | fails _ => rfl

/-- What is born has sent nothing. -/
theorem Standing.Born.sequence {sc : Scene} {x : Standing} (h : Standing.Born sc x) :
    x.self.sequence = 0 := by
  cases h <;> rfl

/-- The next number of each connection is how many packets it has packed. -/
structure Tallied (r : Router) (n : Ptr → ℕ) : Prop where
  old : ∀ d < r.heap.brk, (r.standing d).self.sequence = UInt64.ofNat (n d)
  new : ∀ d, r.heap.brk ≤ d → n d = 0

namespace Tallied

variable {r r' : Router} {n : Ptr → ℕ}

/-- Where nothing is packed nothing is counted. -/
theorem evolves (h : Tallied r n) {sc : Scene} (hsc : ¬ sc.packs) (hr : Evolves sc r r') :
    Tallied r' n := by
  have hkept : ∀ x y, Standing.Step sc x y → y.self.sequence = x.self.sequence :=
    fun _ _ hxy => hxy.sequence hsc
  constructor
  · intro d hd
    rcases Nat.lt_or_ge d r.heap.brk with hlt | hge
    · exact (hr.grows.kept hkept hlt).trans (h.old d hlt)
    · obtain ⟨x, hx, hsteps⟩ := hr.grows.new d hge hd
      rw [h.new d hge]
      have hzero : ∀ y, ReflTransGen (Standing.Step sc) x y → y.self.sequence = 0 := by
        intro y hy
        induction hy with
        | refl => exact hx.sequence
        | tail _ hstep ih => exact (hkept _ _ hstep).trans ih
      exact hzero _ hsteps
  · exact fun d hd => h.new d (hr.grows.le.trans hd)

/-- The connection that packs takes the next number. -/
theorem goesTo (h : Tallied r n) {c : Ptr} {y : Standing} (hr : GoesTo c y r r') {m : ℕ}
    (hc : c < r.heap.brk) (hy : y.self.sequence = UInt64.ofNat m) :
    Tallied r' (Function.update n c m) := by
  constructor
  · intro d hd
    rw [hr.brk] at hd
    rcases eq_or_ne d c with rfl | hdc
    · rw [hr.self, Function.update_self, hy]
    · rw [hr.other d hdc, Function.update_of_ne hdc, h.old d hd]
  · intro d hd
    rw [hr.brk] at hd
    rw [Function.update_of_ne (hc.trans_le hd).ne', h.new d hd]

end Tallied

/-! ### Packing -/

/-- **What packing does to a connection**: it leaves one more packet of it in the buffer, or
none and the number as it was. -/
theorem tripSendPack_packs {d : Ptr} {connsent sent : UInt32} {s t : Env} {ts : List Task}
    (hx : (s.router.standing d).Lawful) (hroom : s.router.buflen = 1200)
    (h : (tripSendPack d connsent sent).exec s = (some ts, t)) :
    ¬ (connsent < s.router.maxConnectionSendCount ∧ t.router.sendlen ≠ 0 ∧
        t.router.sendlen ≠ NPOS) ∧
      (∃ y : Standing, y.self = (s.router.standing d).self ∧ GoesTo d y s.router t.router) ∨
    connsent < s.router.maxConnectionSendCount ∧
      GoesTo d (s.router.standing d).speaks s.router t.router ∧
      (s.router.standing d).Numbered s.oracle.sign (s.router.standing d).self.sequence
        t.router.sendlen t.router.buf := by
  unfold tripSendPack at h
  rw [Prog.exec_bind_of (exec_fetch _ _)] at h
  split_ifs at h with hmax
  · rw [Prog.exec_bind_of (exec_fetch _ _)] at h
    obtain ⟨len, v, hsend, h⟩ := Prog.exec_bind_eq_some.mp h
    have hpacked := tripcSend_packs hx (by rw [hroom]; decide) (by rw [hroom]; decide) hsend
    rw [Prog.exec_bind_of (exec_store _ _)] at h
    cases h
    rcases hpacked with ⟨hlen, y, hself, hgoes⟩ | ⟨-, hgoes, hnumbered⟩
    · exact Or.inl ⟨fun hp => hlen.elim hp.2.1 hp.2.2, y, hself, hgoes.andThen (.of_eq rfl rfl rfl)⟩
    · exact Or.inr ⟨hmax, hgoes.andThen (.of_eq rfl rfl rfl), hnumbered⟩
  · -- it has sent too much, and is put back
    rw [Prog.exec_bind_of (exec_store _ _)] at h
    obtain ⟨rfl, -⟩ := exec_tripSendLimit h
    have hsame : SameStandings s.router
        (s.router.setSendq (sendqNq s.router.sendq s.router.heap d)) :=
      .setSendq s.router (SameStandings.sendqWrites.nq s.router.sendq s.router.heap d)
    exact Or.inl ⟨fun hp => hmax hp.1, _, rfl, hsame.goes d⟩

/-! ### Over the steps of the machine -/

theorem Config.packs_pack {c : Config} {d : Ptr} {connsent sent : UInt32} {rest : List Task}
    (h : c.todo = .pack d connsent sent :: rest) (c' : Config) :
    c.packs c' = if connsent < c.router.maxConnectionSendCount ∧ c'.router.sendlen ≠ 0 ∧
      c'.router.sendlen ≠ NPOS then some d else none := by
  unfold Config.packs
  rw [h]

/-- Only who is on top packs. -/
theorem Config.packs_none {c : Config} (h : ∀ d connsent sent rest,
    c.todo ≠ .pack d connsent sent :: rest) (c' : Config) : c.packs c' = none := by
  unfold Config.packs
  split
  · rename_i d connsent sent rest htodo
    exact absurd htodo (h d connsent sent rest)
  · rfl

/-- **A step** counts what it packs, and that has the next number. -/
theorem Tallied.step {c c' : Config} {i : Input} {n : Ptr → ℕ} (h : Tallied c.router n)
    (hc : Phased c) (hstep : c.Step i c') :
    (∀ d, c.packs c' = some d → d < c.router.heap.brk ∧
      (c'.router.standing d).Numbered i.oracle.sign (UInt64.ofNat (n d)) c'.router.sendlen
        c'.router.buf) ∧ Tallied c'.router (tally c i c' n) := by
  -- where nothing is packed nothing is counted
  have hnone : c.packs c' = none → Tallied c'.router n →
      (∀ d, c.packs c' = some d → d < c.router.heap.brk ∧
        (c'.router.standing d).Numbered i.oracle.sign (UInt64.ofNat (n d)) c'.router.sendlen
          c'.router.buf) ∧ Tallied c'.router (tally c i c' n) := by
    intro hpacks ht
    unfold tally
    rw [hpacks]
    exact ⟨fun d hd => absurd hd (Option.not_mem_none d), ht⟩
  by_cases hpack : ∀ d connsent sent rest, c.todo ≠ .pack d connsent sent :: rest
  · have hevolves : Evolves (i.sceneOf False) c.router c'.router :=
      hc.evolves_of hstep fun _ _ d connsent sent rest _ => hpack d connsent sent rest
    exact hnone (Config.packs_none hpack c') (h.evolves id hevolves)
  simp only [not_forall, not_not] at hpack
  obtain ⟨d, connsent, sent, rest, htodo⟩ := hpack
  have hd : d < c.router.heap.brk := by
    refine hc.sends.packing (.pack d connsent sent) ?_ d rfl
    rw [htodo]
    exact List.mem_cons_self
  have hlawful := hc.lawful d hd
  have hpacks := Config.packs_pack htodo c'
  rcases Config.step_cases hstep with ⟨api, o, ts, e, rfl, hw, -, -⟩ |
    ⟨code, o, u, rest', ts, e, rfl, htodo', hexec, rfl⟩
  · -- no call comes while a packet is packed
    unfold Config.waits at hw
    rw [htodo] at hw
    cases hw
  obtain ⟨rfl, rfl⟩ : u = .pack d connsent sent ∧ rest' = rest := by
    simpa using htodo'.symm.trans htodo
  rcases tripSendPack_packs hlawful hc.sends.room hexec with
    ⟨hquiet, y, hself, hgoes⟩ | ⟨hmax, hgoes, hnumbered⟩
  · refine hnone (hpacks.trans (if_neg hquiet)) ?_
    have hkept := h.goesTo (m := n d) hgoes hd (hself ▸ h.old d hd)
    rwa [Function.update_eq_self] at hkept
  · have hpacked := hpacks.trans (if_pos ⟨hmax, hnumbered.bounds hlawful⟩)
    have hspeaks : Standing.Speaks (c.router.standing d) (e.router.standing d) := by
      rw [hgoes.self]
      exact ⟨rfl, rfl, fun _ => rfl, fun _ => rfl, rfl, rfl⟩
    unfold tally
    rw [hpacked]
    constructor
    · intro d' hd'
      cases hd'
      rw [← h.old d hd]
      exact ⟨hd, hspeaks.numbered hnumbered⟩
    · refine h.goesTo hgoes hd ?_
      show (c.router.standing d).self.sequence + 1 = _
      rw [h.old d hd, UInt64.ofNat_add]
      rfl

/-! ### Runs -/

/-- **Packets are numbered one after the other**: in every run on a router whose signatures
are `sign`, whoever calls whom in between, the packet that a connection packs carries the
count of those that it has packed before, modulo `2 ^ 64`, and its next number is the count
of all that it has packed. -/
theorem trip_packets_numbered (sign : Bytes → Bytes → Bytes) (preset : TripPreset) (now : ℕ)
    (buf : Buf) {r : List (Input × Config)}
    (hr : IsRun Config.Step (.idle (tripNew preset now buf)) r)
    (hs : Meets (fun _ i => i.oracle.sign = sign) (.idle (tripNew preset now buf)) r) :
    Holds (fun p : Config × (Ptr → ℕ) => ∀ d < p.1.router.heap.brk,
        (p.1.router.standing d).self.sequence = UInt64.ofNat (p.2 d))
      (fun p _ q => ∀ d, p.1.packs q.1 = some d → d < p.1.router.heap.brk ∧
        (q.1.router.standing d).Numbered sign (UInt64.ofNat (p.2 d)) q.1.router.sendlen
          q.1.router.buf)
      (.idle (tripNew preset now buf), fun _ => 0)
      (recorded tally (.idle (tripNew preset now buf)) (fun _ => 0) r) := by
  have hinit : Phased (.idle (tripNew preset now buf)) ∧
      Tallied (Config.idle (tripNew preset now buf)).router fun _ => 0 :=
    ⟨phased_idle preset now buf, fun _ hd => absurd hd (Nat.not_lt_zero _), fun _ _ => rfl⟩
  have hstep : ∀ (p : Config × (Ptr → ℕ)) (i : Input) (q : Config × (Ptr → ℕ)),
      Phased p.1 ∧ Tallied p.1.router p.2 → i.oracle.sign = sign →
      p.1.Step i q.1 ∧ q.2 = tally p.1 i q.1 p.2 →
        (∀ d, p.1.packs q.1 = some d → d < p.1.router.heap.brk ∧
          (q.1.router.standing d).Numbered sign (UInt64.ofNat (p.2 d)) q.1.router.sendlen
            q.1.router.buf) ∧ Phased q.1 ∧ Tallied q.1.router q.2 := by
    rintro p i ⟨c', n'⟩ ⟨hc, hn⟩ hi ⟨hst, htally⟩
    dsimp only at hst htally ⊢
    subst htally
    obtain ⟨hpacked, hn'⟩ := hn.step hc hst
    exact ⟨hi ▸ hpacked, hc.step hst, hn'⟩
  have hinv := holds_of_meets hstep hinit hr.recorded hs.recorded
  exact hinv.mono (fun p hp => hp.2.old) fun _ _ _ _ hok => hok

/-- Two connections are opened, and send their segments. -/
theorem trip_packets_numbered_sent :
    Holds (fun p : Config × (Ptr → ℕ) => ∀ d < p.1.router.heap.brk,
        (p.1.router.standing d).self.sequence = UInt64.ofNat (p.2 d))
      (fun p _ q => ∀ d, p.1.packs q.1 = some d → d < p.1.router.heap.brk ∧
        (q.1.router.standing d).Numbered plainOracle.sign (UInt64.ofNat (p.2 d))
          q.1.router.sendlen q.1.router.buf)
      (.idle (tripNew .ROUTER 0 fun _ => 0), fun _ => 0)
      (recorded tally (.idle (tripNew .ROUTER 0 fun _ => 0)) (fun _ => 0) sentRun) :=
  trip_packets_numbered plainOracle.sign .ROUTER 0 (fun _ => 0) (isRun_trace (by decide))
    (meets_trace _ (by simp [blockInputs, listenInputs, startInputs, turn, blocked, Input.oracle,
      or_imp, forall_and]) _)

end Libtrp
