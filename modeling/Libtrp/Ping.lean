import Libtrp.Auth
import Libtrp.RoundTrip
import Libtrp.Lib.Run

/-!
# Pings

A ping is packed as `CQWenQIIIE` with an argument for each of `e` and `E`, which
take none in `trip_pack`: every argument behind the prefix is taken by the
directive before its own, and `Q` finds a pointer.  It would be unpacked as
`enQIIIE`, and `trip_unpack` has no `e`.

## Main definitions

* `PingInfo` — what a ping tells.
* `pingParsed` — what the parser of the peer gets of a segment.
* `PingDelivered` — the peer gets what the sender tells.
* `PingNonces` — the nonces the two peers keep for all their pings.

## Main results

* `exec_tripcSendPing` — a connection that is to send a ping cannot pack it.
* `tripcParsePing_accepts` — the parser accepts a segment by its wrapped length only.
* `tripcPing_undelivered` — **no ping is ever delivered.**
* `tripcPrepNonce_injective` — **no nonce is written twice** under one base.
* `tripcPing_nonces` — what a ping does to the nonces the two peers keep.
* `pingNonces_never` — **no nonce is ever derived for a ping.**

## References

`src/conn.c` (`_tripc_send_ping`, `_tripc_parse_ping`), `src/pack.c`, `src/trip.c`
(`_trip_segment`).
-/

namespace Libtrp

open Lib

/-! ### What a ping tells -/

/-- What `_tripc_send_ping` packs between `e` and `E`. -/
structure PingInfo where
  nonce : Bytes
  timestamp : UInt64
  rtt : UInt32
  sent : UInt32
  recv : UInt32
  deriving DecidableEq, Repr

/-- What the connection has to tell. -/
def Connection.pingInfo (x : Connection) : PingInfo :=
  ⟨x.ping.nonce, x.ping.timestamp, x.self.stat.rtt, x.self.stat.sent, x.self.stat.recv⟩

/-- What `_tripc_parse_ping` unpacks into its variables, when all of the segment is
unpacked. -/
def pingParsed (len : ℕ) (buf : Buf) : Option PingInfo :=
  match tripUnpack len buf [.e, .n, .Q, .I, .I, .I, .E] with
  | (plen, [.bytes rnonce, .uint64 time, .uint32 rtt, .uint32 sent, .uint32 recv]) =>
    if plen = len then some ⟨rnonce, time, rtt, sent, recv⟩ else none
  | _ => none

/-- The segment that `_tripc_send_ping` makes of `c` passes `trip_seg` at the peer,
where the connection of its identifier accepts it and gets what `c` tells. -/
def PingDelivered (s : Env) (c : Ptr) (blen : ℕ) (t : Env) (src : ℤ) : Prop :=
  ∃ wlen s', (tripcSendPing c blen).exec s = (some wlen, s') ∧
    (∃ t', (tripSeg src wlen s'.router.buf).exec t = (some (), t')) ∧
    ∃ en pre d, SegmentPasses wlen s'.router.buf en pre ∧
      CommPasses t wlen s'.router.buf pre d ∧
      let rest := sizeSub (sizeSub wlen tripSign) en
      ((tripcParsePing d rest (s'.router.buf.drop en) pre).exec t).1 = some 0 ∧
        pingParsed rest (s'.router.buf.drop en) = some (s.router.heap.conn c).pingInfo

/-! ### The sender -/

/-- A format that is packed: its first directive is, and then the others. -/
theorem packFrom_cons_ok {sign : Bytes → Bytes → Bytes} {cap : ℕ} {d : PackDir}
    {fmt : List PackDir} {s s' : PackState} {as : List PackArg}
    (h : packFrom sign cap (d :: fmt) s as = .ok s') :
    ∃ p, packDir sign cap d s as = .ok p ∧ packFrom sign cap fmt p.1 p.2 = .ok s' := by
  unfold packFrom at h
  cases hd : packDir sign cap d s as with
  | error e =>
    rw [hd] at h
    cases h
  | ok p =>
    rw [hd] at h
    exact ⟨p, rfl, h⟩

/-- An item leaves the arguments behind its own. -/
theorem packDir_item_ok {sign : Bytes → Bytes → Bytes} {cap : ℕ} (x : PackItem) {s : PackState}
    {as : List PackArg} {p : PackState × List PackArg}
    (h : packDir sign cap x.dir s (x.args ++ as) = .ok p) : p.2 = as := by
  rw [packDir_item] at h
  cases hroom : packRoom cap x.room s with
  | error e =>
    rw [hroom] at h
    cases h
  | ok s' =>
    rw [hroom] at h
    cases h
    rfl

/-- `n` takes an argument. -/
theorem packDir_n_ok {sign : Bytes → Bytes → Bytes} {cap : ℕ} {a : PackArg} {s : PackState}
    {as : List PackArg} {p : PackState × List PackArg}
    (h : packDir sign cap .n s (a :: as) = .ok p) : p.2 = as := by
  unfold packDir at h
  cases hroom : packRoom cap tripNonce s with
  | error e => simp [bind, Except.bind, hroom] at h
  | ok s' =>
    cases a with
    | ptr nonce =>
      cases hbs : packCopyOrZero tripNonce nonce with
      | error e => simp [takePtr, bind, Except.bind, hroom, hbs] at h
      | ok bs =>
        simp only [takePtr, bind, Except.bind, pure, Except.pure, hroom, hbs, Except.ok.injEq] at h
        rw [← h]
    | int v | uint v | int64 v | uint64 v => simp [takePtr, bind, Except.bind, hroom] at h

/-- `Q` takes no pointer. -/
theorem packDir_Q_ptr {sign : Bytes → Bytes → Bytes} {cap : ℕ} {key : Option Bytes}
    {s : PackState} {as : List PackArg} {p : PackState × List PackArg} :
    packDir sign cap .Q s (.ptr key :: as) ≠ .ok p := by
  unfold packDir
  cases hroom : packRoom cap 8 s <;> simp [takeUint64, bind, Except.bind, hroom]

/-- The argument of `e` is left to `n`, and the key of the peer to `Q`: the format
is not packed. -/
theorem packFrom_ping {sign : Bytes → Bytes → Bytes} {cap : ℕ} {control : UInt8}
    {id seq : UInt64} {key : Option Bytes} {as : List PackArg} {s s' : PackState} :
    packFrom sign cap [.C, .Q, .W, .e, .n, .Q, .I, .I, .I, .E] s
      (.uint control.toUInt32 :: .uint64 id :: .uint64 seq :: .ptr none :: .ptr key :: as) ≠
        .ok s' := by
  intro h
  obtain ⟨⟨s₁, as₁⟩, hC, h⟩ := packFrom_cons_ok h
  obtain rfl := packDir_item_ok (.C control) hC
  obtain ⟨⟨s₂, as₂⟩, hQ, h⟩ := packFrom_cons_ok h
  obtain rfl := packDir_item_ok (.Q id) hQ
  obtain ⟨⟨s₃, as₃⟩, hW, h⟩ := packFrom_cons_ok h
  obtain rfl := packDir_item_ok (.W seq) hW
  obtain ⟨⟨s₄, as₄⟩, he, h⟩ := packFrom_cons_ok h
  obtain ⟨rfl, rfl⟩ := he
  obtain ⟨⟨s₅, as₅⟩, hn, h⟩ := packFrom_cons_ok h
  obtain rfl := packDir_n_ok hn
  obtain ⟨p, hp, -⟩ := packFrom_cons_ok h
  exact packDir_Q_ptr hp

/-- **A connection that is to send a ping** does not get it packed: what is returned,
if anything, is `NPOS`. -/
theorem exec_tripcSendPing {s s' : Env} {c : Ptr} {blen wlen : ℕ}
    (hsend : (s.router.heap.conn c).hassend = true)
    (hactive : (s.router.heap.conn c).ping.isactive = true)
    (h : (tripcSendPing c blen).exec s = (some wlen, s')) : wlen = NPOS := by
  unfold tripcSendPing at h
  rw [Prog.exec_bind_of (exec_getConn _ _), hsend, hactive, Bool.and_self, if_pos rfl] at h
  obtain ⟨seq, t₁, -, h⟩ := Prog.exec_bind_eq_some.mp h
  obtain ⟨-, t₂, -, h⟩ := Prog.exec_bind_eq_some.mp h
  cases hnonce : (s.router.heap.conn c).self.nonce with
  | none =>
    rw [hnonce] at h
    cases h
  | some nonce =>
    rw [hnonce] at h
    obtain ⟨-, t₃, -, h⟩ := Prog.exec_bind_eq_some.mp h
    obtain ⟨-, t₄, -, h⟩ := Prog.exec_bind_eq_some.mp h
    obtain ⟨buf, hpack, -⟩ := exec_tripPackM h
    unfold tripPack at hpack
    split at hpack
    · next hok => exact absurd hok packFrom_ping
    · exact ((Prod.mk.inj (Option.some.inj hpack)).1).symm
    · cases hpack

/-! ### The peer -/

/-- `trip_unpack` has no `e`. -/
theorem tripUnpack_ping (len : ℕ) (buf : Buf) :
    tripUnpack len buf [.e, .n, .Q, .I, .I, .I, .E] = (NPOS, []) := rfl

theorem pingParsed_eq_none (len : ℕ) (buf : Buf) : pingParsed len buf = none := by
  unfold pingParsed
  rw [tripUnpack_ping]

/-- **The parser of pings** accepts a segment only when the length of what is behind
the prefix wraps to `NPOS`. -/
theorem tripcParsePing_accepts {d : Ptr} {len : ℕ} {buf : Buf} {pre : TripPrefix} {t : Env}
    (h : ((tripcParsePing d len buf pre).exec t).1 = some 0) : len = NPOS := by
  obtain ⟨t', ht⟩ : ∃ t', (tripcParsePing d len buf pre).exec t = (some 0, t') :=
    ⟨_, Prod.ext h rfl⟩
  unfold tripcParsePing at ht
  rw [Prog.exec_bind_of (exec_getConn _ _)] at ht
  split at ht
  swap
  · cases ht
  obtain ⟨-, t₁, -, ht⟩ := Prog.exec_bind_eq_some.mp ht
  cases hnonce : (t.router.heap.conn d).peer.nonce with
  | none =>
    rw [hnonce] at ht
    cases ht
  | some nonce =>
    rw [hnonce] at ht
    obtain ⟨-, t₂, -, ht⟩ := Prog.exec_bind_eq_some.mp ht
    obtain ⟨-, t₃, -, ht⟩ := Prog.exec_bind_eq_some.mp ht
    have hcode : some (if NPOS ≠ len then EINVAL else (0 : Errno)) = some 0 := congrArg Prod.fst ht
    by_contra hlen
    rw [if_pos (Ne.symm hlen)] at hcode
    cases hcode

/-- **No ping is ever delivered.** -/
theorem tripcPing_undelivered (s : Env) (c : Ptr) (blen : ℕ) (t : Env) (src : ℤ) :
    ¬ PingDelivered s c blen t src := by
  rintro ⟨wlen, s', -, -, en, pre, d, -, -, -, hparsed⟩
  rw [pingParsed_eq_none] at hparsed
  cases hparsed

/-- A router with one incoming connection, which expects a ping. -/
def pingPeer : Env :=
  ((do
    let _ ← tripNewConnection
    setConn 0 fun _ => tripcInit true 8
    let _ ← connmapAddM 0
    setConn 0 fun x =>
      { x with state := .CHAL, hassend := true, peer := { x.peer with nonce := some [] } } :
    TripM Unit).exec listenEnv).2

/-- A router with a connection to it, which has an active ping. -/
def pingSender : Env :=
  ((do
    let _ ← tripNewConnection
    setConn 0 fun _ => tripcInit false 8
    setConn 0 fun x =>
      { x with
        state := .PING
        hassend := true
        ping := { x.ping with isactive := true }
        self := { x.self with nonce := some (List.replicate tripNonce 1) }
        peer := { x.peer with
          id := (pingPeer.router.heap.conn 0).self.id
          pk := some (List.replicate tripKeyPub 1) } } :
    TripM Unit).exec listenEnv).2

/-- Its ping is not delivered. -/
theorem tripcPing_stuck :
    ¬ ∀ (s : Env) (c : Ptr) (blen : ℕ) (t : Env) (src : ℤ) (d : Ptr), 1200 ≤ blen →
      (s.router.heap.conn c).state = .PING → (s.router.heap.conn c).hassend = true →
        (s.router.heap.conn c).ping.isactive = true → t.router.state = .LISTEN →
          connmapGet t.router.conn t.router.heap (s.router.heap.conn c).peer.id = some d →
            (t.router.heap.conn d).hassend = true → (t.router.heap.conn d).incoming = true →
              PingDelivered s c blen t src := by
  intro hall
  obtain ⟨wlen, s', hsend, -⟩ := hall pingSender 0 1200 pingPeer 0 0 (by decide) (by decide)
    (by decide) (by decide) (by decide) (by decide) (by decide) (by decide)
  have hstuck : ((tripcSendPing 0 1200).exec pingSender).1 = none := by decide
  rw [hsend] at hstuck
  cases hstuck

/-! ### The nonce of a packet -/

/-- What `_tripc_prep_nonce` adds to a byte. -/
def nonceOffset (control : UInt8) (seq : UInt64) (k : ℕ) : UInt8 :=
  if k = 0 then control
  else if k ≤ 8 then (seq >>> UInt64.ofNat (8 * (k - 1))).toUInt8
  else 0

theorem getElem?_tripcPrepNonce (nonce : Bytes) (control : UInt8) (seq : UInt64) (k : ℕ) :
    (tripcPrepNonce nonce control seq)[k]? = nonce[k]?.map (· + nonceOffset control seq k) := by
  unfold tripcPrepNonce nonceOffset
  rw [List.getElem?_mapIdx]
  split_ifs
  · rfl
  · rfl
  · simp

/-- A byte of the sequence number. -/
theorem toNat_nonceOffset (control : UInt8) (seq : UInt64) {k : ℕ} (hk : k < 8) :
    (nonceOffset control seq (k + 1)).toNat = seq.toNat / 256 ^ k % 256 := by
  have hshift : (UInt64.ofNat (8 * k)).toNat % 64 = 8 * k := by
    rw [UInt64.toNat_ofNat', Nat.mod_eq_of_lt (by omega)]
    omega
  unfold nonceOffset
  rw [if_neg (Nat.succ_ne_zero k), if_pos (Nat.succ_le_of_lt hk), Nat.add_sub_cancel,
    UInt64.toNat_toUInt8, UInt64.toNat_shiftRight, hshift, Nat.shiftRight_eq_div_pow, pow_mul]
  norm_num

/-- The bytes that are written tell the control byte and the sequence number. -/
theorem tripcPrepNonce_eq_iff {nonce : Bytes} (hlen : nonce.length = tripNonce)
    {control control' : UInt8} {seq seq' : UInt64} :
    tripcPrepNonce nonce control seq = tripcPrepNonce nonce control' seq' ↔
      control = control' ∧ seq = seq' := by
  constructor
  · intro heq
    -- the base cancels at each of the first nine bytes
    have hbyte : ∀ k < 9, nonceOffset control seq k = nonceOffset control' seq' k := by
      intro k hk
      have hn : k < nonce.length := hk.trans (hlen ▸ by decide)
      have hget := congrArg (fun bs : Bytes => bs[k]?) heq
      simp only [getElem?_tripcPrepNonce, List.getElem?_eq_getElem hn, Option.map_some,
        Option.some.injEq] at hget
      exact (UInt8.add_right_inj _).mp hget
    refine ⟨hbyte 0 (by decide), ?_⟩
    apply UInt64.toNat_inj.mp
    apply eq_of_bytes (w := 8) seq.toNat_lt seq'.toNat_lt
    intro k hk
    rw [← toNat_nonceOffset control seq hk, ← toNat_nonceOffset control' seq' hk,
      hbyte (k + 1) (Nat.succ_lt_succ hk)]
  · rintro ⟨rfl, rfl⟩
    rfl

/-- **No nonce is written twice** under one base: packets that differ in their control byte or
sequence number get different ones. -/
theorem tripcPrepNonce_injective {nonce : Bytes} (hlen : nonce.length = tripNonce) :
    Function.Injective fun p : UInt8 × UInt64 => tripcPrepNonce nonce p.1 p.2 := by
  rintro ⟨control, seq⟩ ⟨control', seq'⟩ heq
  obtain ⟨hcontrol, hseq⟩ := (tripcPrepNonce_eq_iff hlen).mp heq
  exact Prod.ext hcontrol hseq

/-- A base of zeros. -/
theorem tripcPrepNonce_injective_zeros :
    Function.Injective fun p : UInt8 × UInt64 =>
      tripcPrepNonce (List.replicate tripNonce 0) p.1 p.2 :=
  tripcPrepNonce_injective (by decide)

/-! ### The nonces of pings

A ping is to be sealed with a nonce of its own, which is the stored one offset by the
control byte and the sequence number.  Both peers call `_tripc_prep_nonce` with the
stored nonce where its output goes and with a variable that was not set where it takes
the nonce from, the control byte and the sequence number the other way round; and what
it returns is `NULL`. -/

/-- `_tripc_prep_nonce`: what it leaves in `out`, and what it returns. -/
def tripcPrepNonceCall (nonce : Bytes) (control : UInt8) (seq : UInt64) : Bytes × Option Bytes :=
  (tripcPrepNonce nonce control seq, none)

/-- The call of `_tripc_send_ping`, whose `out` is the stored nonce and whose variable
holds `var`. -/
def tripcSendPingNonce (var : Bytes) (seq : UInt64) : Bytes × Option Bytes :=
  tripcPrepNonceCall var seq.toUInt8 tripControlPing.toUInt64

/-- The call of `_tripc_parse_ping`. -/
def tripcParsePingNonce (var : Bytes) (control : UInt8) (seq : UInt64) : Bytes × Option Bytes :=
  tripcPrepNonceCall var seq.toUInt8 control.toUInt64

/-- What a connection that is to send a ping keeps of its nonce. -/
theorem nonce_tripcSendPing {s : Env} {c : Ptr} (blen : ℕ)
    (hsend : (s.router.heap.conn c).hassend = true)
    (hactive : (s.router.heap.conn c).ping.isactive = true)
    (hnonce : (s.router.heap.conn c).self.nonce.isSome = true) :
    (((tripcSendPing c blen).exec s).2.router.heap.conn c).self.nonce =
      some (tripcSendPingNonce s.oracle.bytes.head (s.router.heap.conn c).self.sequence).1 := by
  obtain ⟨nonce, hnonce⟩ := Option.isSome_iff_exists.mp hnonce
  obtain ⟨t, hseq, horacle⟩ : ∃ t, (tripcSeq c).exec s =
      (some (s.router.heap.conn c).self.sequence, t) ∧ t.oracle = s.oracle := ⟨_, rfl, rfl⟩
  -- packing changes nothing but the buffer
  have hpack : ∀ (fmt : List PackDir) (as : List PackArg) (u : Env),
      ((tripPackM blen fmt as).exec u).2.router.heap = u.router.heap := by
    intro fmt as u
    unfold tripPackM
    rw [Prog.exec_bind_of (exec_consult _ _), Prog.exec_bind_of (exec_fetch _ _)]
    split <;> rfl
  unfold tripcSendPing
  rw [Prog.exec_bind_of (exec_getConn _ _), hsend, hactive, Bool.and_self, if_pos rfl,
    Prog.exec_bind_of hseq, Prog.exec_bind_of (exec_setConn _ _ _), hnonce]
  dsimp only
  rw [Prog.exec_bind_of (exec_randombytesBuf _), Prog.exec_bind_of (exec_setConn _ _ _), hpack]
  rw [Env.router_setRouter, ← horacle]
  unfold Router.setConn
  dsimp only
  rw [ConnHeap.conn_set_self]
  rfl

/-- What a connection that reads a ping keeps of the nonce of its peer. -/
theorem nonce_tripcParsePing {t : Env} {d : Ptr} (len : ℕ) (buf : Buf) (pre : TripPrefix)
    (hsend : (t.router.heap.conn d).hassend = true)
    (hping : ((t.router.heap.conn d).ping.isactive || (t.router.heap.conn d).incoming) = true)
    (hnonce : (t.router.heap.conn d).peer.nonce.isSome = true) :
    (((tripcParsePing d len buf pre).exec t).2.router.heap.conn d).peer.nonce =
      some (tripcParsePingNonce t.oracle.bytes.head pre.control pre.seq).1 := by
  obtain ⟨nonce, hnonce⟩ := Option.isSome_iff_exists.mp hnonce
  unfold tripcParsePing
  rw [Prog.exec_bind_of (exec_getConn _ _), hsend, hping, Bool.and_self, if_pos rfl,
    Prog.exec_bind_of (exec_setConn _ _ _), hnonce]
  dsimp only
  rw [Prog.exec_bind_of (exec_randombytesBuf _), Prog.exec_bind_of (exec_setConn _ _ _)]
  rw [Prog.exec_pure]
  dsimp only
  rw [Env.router_setRouter]
  unfold Router.setConn
  dsimp only
  rw [ConnHeap.conn_set_self]
  rfl

/-- A ping: its control byte and sequence number, and what the variables of the two
functions hold. -/
structure PingCall where
  control : UInt8
  seq : UInt64
  selfVar : Bytes
  peerVar : Bytes

/-- The nonce the sender keeps as its own, and the one the receiver keeps as that of its
peer. -/
structure PingNonces where
  self : Bytes
  peer : Bytes

/-- What one ping does to them. -/
def pingNonces (p : PingCall) (_ : PingNonces) : PingNonces :=
  ⟨(tripcSendPingNonce p.selfVar p.seq).1, (tripcParsePingNonce p.peerVar p.control p.seq).1⟩

/-- Over a sequence of pings both peers keep the nonce `base`, and both derive for each
ping the nonce that is offset by its control byte and sequence number. -/
def NoncesDerived (base : Bytes) : List PingCall → Prop := fun ps =>
  Holds (fun s => s.self = base ∧ s.peer = base)
    (fun _ p _ =>
      (tripcSendPingNonce p.selfVar p.seq).2 = some (tripcPrepNonce base p.control p.seq) ∧
        (tripcParsePingNonce p.peerVar p.control p.seq).2 =
          some (tripcPrepNonce base p.control p.seq))
    ⟨base, base⟩ (trace pingNonces ⟨base, base⟩ ps)

/-- **One ping of the two peers** does that: one packs it, and the other reads it, whatever of it
arrives. -/
theorem tripcPing_nonces {s t : Env} {c d : Ptr} (blen len : ℕ) (buf : Buf) (pre : TripPrefix)
    (hsend : (s.router.heap.conn c).hassend = true)
    (hactive : (s.router.heap.conn c).ping.isactive = true)
    (hnonce : (s.router.heap.conn c).self.nonce.isSome = true)
    (hseq : pre.seq = (s.router.heap.conn c).self.sequence)
    (hsend' : (t.router.heap.conn d).hassend = true)
    (hping : ((t.router.heap.conn d).ping.isactive || (t.router.heap.conn d).incoming) = true)
    (hnonce' : (t.router.heap.conn d).peer.nonce.isSome = true) (kept : PingNonces) :
    (((tripcSendPing c blen).exec s).2.router.heap.conn c).self.nonce =
        some (pingNonces ⟨pre.control, pre.seq, s.oracle.bytes.head, t.oracle.bytes.head⟩
          kept).self ∧
      (((tripcParsePing d len buf pre).exec t).2.router.heap.conn d).peer.nonce =
        some (pingNonces ⟨pre.control, pre.seq, s.oracle.bytes.head, t.oracle.bytes.head⟩
          kept).peer := by
  refine ⟨?_, nonce_tripcParsePing len buf pre hsend' hping hnonce'⟩
  rw [nonce_tripcSendPing blen hsend hactive hnonce, ← hseq]
  rfl

/-- **No nonce is ever derived for a ping**: the two functions get `NULL` for it, whatever
the stored nonce, the control byte and the sequence number are. -/
theorem pingNonces_never (base : Bytes) (p : PingCall) (ps : List PingCall) :
    ¬ NoncesDerived base (p :: ps) := by
  rintro ⟨-, ⟨hself, -⟩, -⟩
  cases hself

/-- **The first ping destroys the stored nonces**: here they become the one of a variable
that was zero. -/
theorem pingNonces_lost :
    ¬ ∀ (base : Bytes) (ps : List PingCall), base.length = tripNonce →
      (∀ p ∈ ps, p.selfVar.length = tripNonce ∧ p.peerVar.length = tripNonce) →
        NoncesDerived base ps := by
  intro h
  have hrun := h (List.replicate tripNonce 1)
    [⟨tripControlPing, 0, List.replicate tripNonce 0, List.replicate tripNonce 0⟩] (by decide)
    (by simp)
  have hkept := hrun.2.2.1
  revert hkept
  decide

end Libtrp
