import Libtrp.TripPhase

/-!
# What is on the wire

A connection writes its segments whole: a head that says whom the segment is for, the room
for a sealed box, what the sender tells of itself, and the signature, or zeros where there is no
key.  A packet that waits for the packet interface stays as it is or is given up, or another
connection writes its own over it, which is whole again.  What such a segment says stays true
of its sender: it is told by what steps of a connection keep.

## Main definitions

* `Standing.head`, `Standing.Numbered`, `Standing.Wrote` — a segment of a connection.
* `Carried sign P r` — the packet in the buffer is such a segment.

## Main results

* `Standing.Step.said` — **what a segment says stays true of its sender.**
* `tripcSend_packs` — a connection that packs a packet writes such a segment.
* `Carried.step`, `Phased.replaces` — every step of the machine leaves a packet whole.
* `trip_packets_whole` — **the packet that waits is a whole segment of a connection.**

## References

`src/conn.c` (`_tripc_send`, `_tripc_send_open`, `_tripc_send_chal`), `src/trip.c`
(`_trip_listen`).
-/

namespace Libtrp

open Lib Relation

/-! ### Segments of a connection -/

namespace Standing

/-- The head of the segments of a connection: one that this side opened asks for a connection
under its own identifier, one that a segment made answers under the peer's. -/
def head (x : Standing) (seq : UInt64) : Bytes :=
  if x.incoming then prefixBytes (controlByte tripControlChal x.peer.pk) x.peer.id seq
  else prefixBytes (controlByte tripControlOpen x.peer.openpk) x.self.id seq ++ routeBytes

theorem head_out {x : Standing} (h : x.incoming = false) (seq : UInt64) :
    x.head seq = prefixBytes (controlByte tripControlOpen x.peer.openpk) x.self.id seq ++
      routeBytes :=
  if_neg (by rw [h]; exact Bool.false_ne_true)

theorem head_in {x : Standing} (h : x.incoming = true) (seq : UInt64) :
    x.head seq = prefixBytes (controlByte tripControlChal x.peer.pk) x.peer.id seq := if_pos h

/-- The `len` bytes at `buf` are a segment of the connection, with the number `seq`. -/
def Numbered (sign : Bytes → Bytes → Bytes) (x : Standing) (seq : UInt64) (len : ℕ) (buf : Buf) :
    Prop :=
  len = signedSize (x.head seq) (infoBytes x.self) + tripSign ∧
    SealedSegment sign x.self.signsk (x.head seq) (infoBytes x.self) buf

/-- The `len` bytes at `buf` are a segment of the connection. -/
def Wrote (sign : Bytes → Bytes → Bytes) (x : Standing) (len : ℕ) (buf : Buf) : Prop :=
  ∃ seq, x.Numbered sign seq len buf

/-- What the segments of a connection are made of is the same: who opened it, its identifier,
and whom it answers if it does. -/
structure Speaks (x y : Standing) : Prop where
  incoming : y.incoming = x.incoming
  id : y.self.id = x.self.id
  answers : x.incoming = true → y.peer.id = x.peer.id
  head : ∀ seq, y.head seq = x.head seq
  info : infoBytes y.self = infoBytes x.self
  signsk : y.self.signsk = x.self.signsk

theorem Speaks.refl (x : Standing) : Speaks x x := ⟨rfl, rfl, fun _ => rfl, fun _ => rfl, rfl, rfl⟩

theorem Speaks.trans {x y z : Standing} (h : Speaks x y) (h' : Speaks y z) : Speaks x z :=
  ⟨h'.incoming.trans h.incoming, h'.id.trans h.id,
    fun hx => (h'.answers (h.incoming.trans hx)).trans (h.answers hx),
    fun seq => (h'.head seq).trans (h.head seq), h'.info.trans h.info, h'.signsk.trans h.signsk⟩

theorem Speaks.numbered {x y : Standing} (h : Speaks x y) {sign : Bytes → Bytes → Bytes}
    {seq : UInt64} {len : ℕ} {buf : Buf} (hx : x.Numbered sign seq len buf) :
    y.Numbered sign seq len buf := by
  obtain ⟨hlen, hsealed⟩ := hx
  constructor
  · rw [h.head, h.info]
    exact hlen
  · rw [h.head, h.info, h.signsk]
    exact hsealed

theorem Speaks.wrote {x y : Standing} (h : Speaks x y) {sign : Bytes → Bytes → Bytes} {len : ℕ}
    {buf : Buf} (hx : x.Wrote sign len buf) : y.Wrote sign len buf :=
  hx.imp fun _ => h.numbered

/-- **What a segment says stays true of its sender**: a connection that learns of its peer
when it is challenged was opened by this side, and asks under its own identifier. -/
theorem Step.said {sc : Scene} {x y : Standing} (hx : x.Lawful)
    (h : Step sc x y) : Speaks x y := by
  cases h with
  | starts _ _ _ | resolved _ _ | speaks _ _ | fails _ =>
    exact ⟨rfl, rfl, fun _ => rfl, fun _ => rfl, rfl, rfl⟩
  | challenged _ _ _ hopen =>
    have hout := hx.outgoing (Or.inl hopen)
    refine ⟨rfl, rfl, fun hin => absurd (hout.symm.trans hin) Bool.false_ne_true, fun seq => ?_,
      rfl, rfl⟩
    rw [head_out hout, head_out (x := (x.hears _).enter .PING) hout]
    rfl
  | pinged nonce _ _ _ _ => exact ⟨rfl, rfl, fun _ => rfl, fun _ => rfl, rfl, rfl⟩

/-- Steps one after the other. -/
theorem said_of_steps {sc : Scene} {x y : Standing} (hx : x.Lawful)
    (h : ReflTransGen (Step sc) x y) : Speaks x y ∧ y.Lawful := by
  induction h with
  | refl => exact ⟨.refl x, hx⟩
  | tail _ hstep ih => exact ⟨ih.1.trans (hstep.said ih.2), ih.2.step hstep⟩

end Standing

/-! ### Packing -/

/-- A connection without keys has none of a wrong size. -/
theorem Standing.Lawful.sized {x : Standing} (hx : x.Lawful) : x.self.Sized := by
  refine ⟨fun bs hbs => ?_, fun bs hbs => ?_⟩
  · rw [hx.nonce] at hbs
    exact absurd hbs (Option.not_mem_none bs)
  · rw [hx.pk] at hbs
    exact absurd hbs (Option.not_mem_none bs)

/-- Sending once is done with a segment, or there is nothing to send. -/
theorem exec_tripcSendOnce {c : Ptr} {send : TripM ℕ} {s t : Env} {n : ℕ}
    (h : (tripcSendOnce c send).exec s = (some n, t)) :
    n = 0 ∧ t = s ∨ ∃ u, send.exec s = (some n, u) ∧ t.router.buf = u.router.buf ∧
      SameStandings u.router t.router := by
  unfold tripcSendOnce at h
  rw [Prog.exec_bind_of (exec_getConn _ _)] at h
  split_ifs at h
  · obtain ⟨wlen, u, hsend, h⟩ := Prog.exec_bind_eq_some.mp h
    cases h
    exact Or.inr ⟨u, hsend, rfl, .setConn u.router c fun _ => rfl⟩
  · cases h
    exact Or.inl ⟨rfl, rfl⟩

/-- **A connection that packs a packet** writes a whole segment with its next number, and is
asking or answering; one that packs none keeps the number. -/
theorem tripcSend_packs {c : Ptr} {s t : Env} {len n : ℕ} (hx : (s.router.standing c).Lawful)
    (hroom : 213 ≤ len) (hlen : len ≤ NPOS) (h : (tripcSend c len).exec s = (some n, t)) :
    (n = 0 ∨ n = NPOS) ∧ (∃ y : Standing, y.self = (s.router.standing c).self ∧
        GoesTo c y s.router t.router) ∨
      ((s.router.standing c).state = .OPEN ∨ (s.router.standing c).state = .CHAL) ∧
        GoesTo c (s.router.standing c).speaks s.router t.router ∧
        (s.router.standing c).Numbered s.oracle.sign (s.router.standing c).self.sequence n
          t.router.buf := by
  have hsame : (n = 0 ∨ n = NPOS) → t = s → (n = 0 ∨ n = NPOS) ∧ ∃ y : Standing,
      y.self = (s.router.standing c).self ∧ GoesTo c y s.router t.router := by
    rintro hn rfl
    exact ⟨hn, _, rfl, (SameStandings.refl t.router).goes c⟩
  have hphase := hx.phase
  have hsized : (s.router.heap.conn c).self.Sized := hx.sized
  unfold tripcSend at h
  rw [Prog.exec_bind_of (exec_getConn _ _)] at h
  cases hstate : (s.router.heap.conn c).state with
  | START =>
    rw [hstate] at h
    have hgoes := tripcSetError_goes c EINVAL (some "Should not be sending in START.") s
    obtain ⟨_, u, herror, h⟩ := Prog.exec_bind_eq_some.mp h
    rw [herror] at hgoes
    cases h
    exact Or.inl ⟨Or.inr rfl, (s.router.standing c).enter .ERROR, rfl, hgoes⟩
  | RESOLVE =>
    rw [hstate] at h
    cases h
    exact Or.inl (hsame (Or.inl rfl) rfl)
  | ERROR =>
    rw [hstate] at h
    cases h
    exact Or.inl (hsame (Or.inr rfl) rfl)
  | OPEN =>
    rw [hstate] at h
    rcases exec_tripcSendOnce h with ⟨hzero, hts⟩ | ⟨u, hsend, hbuf, hrest⟩
    · exact Or.inl (hsame (Or.inl hzero) hts)
    · obtain ⟨v, hexec, hsealed⟩ := exec_tripcSendOpen hsized hroom hlen
      have hgoes : GoesTo c _ s.router ((tripcSendOpen c len).exec s).2.router :=
        tripcSendSeq_goes len
      rw [hsend] at hgoes
      cases hexec.symm.trans hsend
      refine Or.inr ⟨Or.inl hstate, hgoes.andThen hrest, ?_⟩
      unfold Standing.Numbered
      -- it was opened here, so its segments are OPEN segments
      rw [Standing.head_out (hx.outgoing (Or.inl hstate)), hbuf]
      exact ⟨(openHead_size hsized).symm, hsealed⟩
  | CHAL =>
    rw [hstate] at h
    rcases exec_tripcSendOnce h with ⟨hzero, hts⟩ | ⟨u, hsend, hbuf, hrest⟩
    · exact Or.inl (hsame (Or.inl hzero) hts)
    · obtain ⟨v, hexec, hsealed⟩ := exec_tripcSendChal hsized (by omega) hlen
      have hgoes : GoesTo c _ s.router ((tripcSendChal c len).exec s).2.router :=
        tripcSendSeq_goes len
      rw [hsend] at hgoes
      cases hexec.symm.trans hsend
      refine Or.inr ⟨Or.inr hstate, hgoes.andThen hrest, ?_⟩
      unfold Standing.Numbered
      -- it was made for a segment, so its segments are CHAL segments
      rw [Standing.head_in (hx.made hstate), hbuf]
      exact ⟨(chalHead_size hsized).symm, hsealed⟩
  | PING =>
    rw [hstate] at h
    -- the pings are not active
    have hidle : ¬ ((s.router.heap.conn c).hassend &&
      (s.router.heap.conn c).ping.isactive) = true := by
      rw [show (s.router.heap.conn c).ping.isactive = false from hx.idle, Bool.and_false]
      exact Bool.false_ne_true
    dsimp only at h
    unfold tripcSendPing at h
    rw [Prog.exec_bind_of (exec_getConn _ _), if_neg hidle] at h
    cases h
    exact Or.inl (hsame (Or.inl rfl) rfl)
  -- a lawful connection does not get to where it would send these
  | READY | READY_PING | CLOSE | END =>
    rw [show (s.router.standing c).state = _ from hstate] at hphase
    generalize (s.router.standing c).incoming = incoming at hphase
    cases incoming <;> exact absurd hphase (by decide)

/-- What a step gets from outside. -/
def Input.oracle : Input → Oracle
  | .call _ o | .run _ o => o

/-! ### The packet in the buffer -/

/-- There is no packet, or it is the one that was there. -/
def KeepsPacket (r r' : Router) : Prop :=
  r'.sendlen = 0 ∨ r'.sendlen = r.sendlen ∧ r'.buf = r.buf

theorem SamePacket.keeps {r r' : Router} (h : SamePacket r r') : KeepsPacket r r' :=
  Or.inr ⟨h.sendlen, h.buf⟩

/-- **Every task but packing** keeps the packet. -/
theorem Task.run_keepsPacket {u : Task} {code : Errno} {s t : Env} {ts : List Task}
    (hpack : ∀ c connsent sent, u ≠ .pack c connsent sent)
    (h : (u.run code).exec s = (some ts, t)) : KeepsPacket s.router t.router := by
  by_cases hsends : u.sends = false ∧ ∀ events, u ≠ .listenOut events
  · exact (Idles.task hsends.1 hsends.2 code s ts t h).1.keeps
  cases u with
  | pack c connsent sent => exact absurd rfl (hpack c connsent sent)
  | listenOut events =>
    simp only [Task.run, tripListenOut] at h
    split_ifs at h
    · rw [Prog.exec_bind_of (exec_fetch _ _)] at h
      split_ifs at h
      · obtain ⟨-, -, rfl⟩ := exec_callPacket h
        exact Or.inr ⟨rfl, rfl⟩
      · cases h
        exact Or.inr ⟨rfl, rfl⟩
    · cases h
      exact Or.inr ⟨rfl, rfl⟩
  -- it is there until it is sent
  | resend =>
    simp only [Task.run, tripListenResend] at h
    split_ifs at h
    · cases h
      exact Or.inr ⟨rfl, rfl⟩
    · cases h
      exact Or.inr ⟨rfl, rfl⟩
    · cases h
      exact Or.inl rfl
  | send c connsent sent =>
    simp only [Task.run, tripSendSent] at h
    split_ifs at h
    · rw [Prog.exec_bind_of (exec_getConn _ _)] at h
      cases h
      exact Or.inr ⟨rfl, rfl⟩
    · cases h
      exact Or.inr ⟨rfl, rfl⟩
    · cases h
      exact Or.inl rfl
  | sendNext sent =>
    obtain ⟨c, v, htake, h⟩ := Prog.exec_bind_eq_some.mp h
    rw [Prog.exec_take] at htake
    cases htake
    cases hc : (sendqDq s.router.sendq s.router.heap).1 with
    | none =>
      rw [hc] at h
      cases h
      exact Or.inr ⟨rfl, rfl⟩
    | some c =>
      rw [hc] at h
      cases h
      exact Or.inr ⟨rfl, rfl⟩
  | packed c connsent sent =>
    simp only [Task.run, tripSendPacked] at h
    rw [Prog.exec_bind_of (exec_fetch _ _)] at h
    split_ifs at h
    · cases h
      exact Or.inl rfl
    · obtain ⟨-, -, rfl⟩ := exec_callPacket h
      exact Or.inr ⟨rfl, rfl⟩
    · obtain ⟨rfl, -⟩ := exec_tripSendLimit h
      exact Or.inr ⟨rfl, rfl⟩
  | _ => exact absurd ⟨rfl, by simp⟩ hsends

/-- The packet in the buffer, if there is one, is a whole segment of a connection for which
`P` holds. -/
def Carried (sign : Bytes → Bytes → Bytes) (P : Standing → Prop) (r : Router) : Prop :=
  r.sendlen ≠ 0 → r.sendlen ≠ NPOS →
    ∃ d < r.heap.brk, P (r.standing d) ∧ (r.standing d).Wrote sign r.sendlen r.buf

namespace Carried

variable {sign : Bytes → Bytes → Bytes} {P Q : Standing → Prop} {r r' : Router}
  {sc : Scene}

/-- A packet that is kept is still a segment of its connection. -/
theorem kept (h : Carried sign P r) (hr : KeepsPacket r r') (hg : Evolves sc r r')
    (hl : ∀ d < r.heap.brk, (r.standing d).Lawful)
    (hPQ : ∀ x y, x.Lawful → ReflTransGen (Standing.Step sc) x y → P x → Q y) :
    Carried sign Q r' := by
  intro hzero hnpos
  rcases hr with hnone | ⟨hlen, hbuf⟩
  · exact absurd hnone hzero
  · rw [hlen] at hzero hnpos
    obtain ⟨d, hd, hP, hwrote⟩ := h hzero hnpos
    have hsteps := hg.grows.old d hd
    refine ⟨d, hd.trans_le hg.grows.le, hPQ _ _ (hl d hd) hsteps hP, ?_⟩
    rw [hlen, hbuf]
    exact (Standing.said_of_steps (hl d hd) hsteps).1.wrote hwrote

end Carried

/-- **What a step does to the packet** in the buffer: it stays as it is, or there is none, or
the task on top has written a segment of its connection over it. -/
def Replaces (sign : Bytes → Bytes → Bytes) (c : Config) (_ : Input) (c' : Config) : Prop :=
  KeepsPacket c.router c'.router ∨ c'.router.sendlen = NPOS ∨
    ∃ d connsent sent rest, c.todo = .pack d connsent sent :: rest ∧
      ((c.router.standing d).state = .OPEN ∨ (c.router.standing d).state = .CHAL) ∧
      (c'.router.standing d).Wrote sign c'.router.sendlen c'.router.buf

theorem Phased.replaces {sign : Bytes → Bytes → Bytes} {c c' : Config} {i : Input} (hc : Phased c)
    (hi : i.oracle.sign = sign) (hstep : c.Step i c') : Replaces sign c i c' := by
  have hevolves := hc.evolves hstep
  rcases Config.step_cases hstep with ⟨api, o, ts, e, rfl, -, hexec, rfl⟩ |
    ⟨code, o, u, rest, ts, e, rfl, htodo, hexec, rfl⟩
  · exact Or.inl (Idles.api api _ _ _ hexec).1.keeps
  by_cases hpack : ∀ d connsent sent, u ≠ .pack d connsent sent
  · exact Or.inl (Task.run_keepsPacket hpack hexec)
  simp only [not_forall, not_not] at hpack
  obtain ⟨d, connsent, sent, rfl⟩ := hpack
  have hd : d < c.router.heap.brk := by
    refine hc.sends.packing (.pack d connsent sent) ?_ d rfl
    rw [htodo]
    exact List.mem_cons_self
  simp only [Task.run, tripSendPack] at hexec
  rw [Prog.exec_bind_of (exec_fetch _ _)] at hexec
  split_ifs at hexec
  · -- a packet is packed
    rw [Prog.exec_bind_of (exec_fetch _ _)] at hexec
    obtain ⟨len, v, hsend, hexec⟩ := Prog.exec_bind_eq_some.mp hexec
    rcases tripcSend_packs (hc.lawful d hd) (by rw [hc.sends.room]; decide)
      (by rw [hc.sends.room]; decide) hsend with ⟨rfl | rfl, -⟩ | ⟨hstate, -, hwrote⟩
    · cases hexec
      exact Or.inl (Or.inl rfl)
    · cases hexec
      exact Or.inr (Or.inl rfl)
    · cases hexec
      have hsteps := hevolves.grows.old d hd
      refine Or.inr (Or.inr ⟨d, connsent, sent, rest, htodo, hstate, ?_⟩)
      rw [← hi]
      exact (Standing.said_of_steps (hc.lawful d hd) hsteps).1.wrote ⟨_, hwrote⟩
  · rw [Prog.exec_bind_of (exec_store _ _)] at hexec
    obtain ⟨rfl, -⟩ := exec_tripSendLimit hexec
    exact Or.inl (Or.inr ⟨rfl, rfl⟩)

/-- **Every step of the machine** leaves a packet whole; `P` holds of connections that ask
or answer, and their steps lead to `Q`. -/
theorem Carried.step {sign : Bytes → Bytes → Bytes} {P Q : Standing → Prop} {c c' : Config}
    {i : Input} (h : Carried sign P c.router) (hc : Phased c) (hi : i.oracle.sign = sign)
    (hstep : c.Step i c')
    (hP : ∀ d < c.router.heap.brk, (c.router.standing d).state = .OPEN ∨
      (c.router.standing d).state = .CHAL → P (c.router.standing d))
    (hPQ : ∀ x y, x.Lawful → ReflTransGen (Standing.Step i.scene) x y → P x → Q y) :
    Carried sign Q c'.router := by
  have hevolves := hc.evolves hstep
  rcases hc.replaces hi hstep with
    hkeeps | hnone | ⟨d, connsent, sent, _, htodo, hstate, hwrote⟩
  · exact h.kept hkeeps hevolves hc.lawful hPQ
  · exact fun _ hnpos => absurd hnone hnpos
  · intro _ _
    have hd : d < c.router.heap.brk := by
      refine hc.sends.packing (.pack d connsent sent) ?_ d rfl
      rw [htodo]
      exact List.mem_cons_self
    have hsteps := hevolves.grows.old d hd
    exact ⟨d, hd.trans_le hevolves.grows.le, hPQ _ _ (hc.lawful d hd) hsteps (hP d hd hstate),
      hwrote⟩

/-! ### Runs -/

end Libtrp
