import Libtrp.ConnInfo
import Libtrp.RoundTrip
import Libtrp.Segment

/-!
# OPEN and CHAL on the wire

Both segments are packed with one format and read in pieces: the prefix and the
routing information by the router, the information by the connection, and the
signature at the end by `trip_unsign`.  Between the first and the second is the
room for a sealed box, which is filled with zeros.

## Main definitions

* `PackField` — a directive with arguments for which it packs certain bytes.
* `prefixBytes`, `infoBytes` — the bytes of the pieces.
* `signedBytes`, `signatureBytes` — what is signed, and the end of a segment.
* `SealedSegment` — a segment that is made of its pieces.

## Main results

* `packFrom_sealed` — what the two formats pack is made of its pieces.
* `tripUnpackPrefix_of_head`, `tripUnpackRoute_of_head`, `infoBytes_read` — the
  pieces are read as what they were packed from.

## References

`src/conn.c` (`_tripc_send_open`, `_tripc_send_chal`), `src/pack.c`, `PROTOCOL.md`.
-/

namespace Libtrp

open Lib

/-! ### Fields -/

/-- What packing counts and writes when there is room for `bs`. -/
def PackState.grow (s : PackState) (bs : Bytes) : PackState :=
  { s with size := s.size + bs.length }.put bs

@[simp] theorem PackState.grow_nil (s : PackState) : s.grow [] = s := by
  have hmem : overwrite s.mem s.pos [] = s.mem := by
    funext i
    simp [overwrite]
  unfold grow put
  rw [hmem]
  rfl

theorem PackState.grow_grow (s : PackState) (xs ys : Bytes) :
    (s.grow xs).grow ys = s.grow (xs ++ ys) := by
  simp only [grow, put, overwrite_overwrite, List.length_append, Nat.add_assoc]

/-- A directive with arguments for which it packs `bytes`. -/
structure PackField where
  dir : PackDir
  args : List PackArg
  bytes : Bytes
  packs : ∀ (sign : Bytes → Bytes → Bytes) (cap : ℕ) (s : PackState) (as : List PackArg),
    packDir sign cap dir s (args ++ as) =
      (packRoom cap bytes.length s).map fun s => (s.put bytes, as)

namespace PackField

/-- An item whose bytes are counted as they are. -/
def ofItem (x : PackItem) (hpay : x.payload = []) (hroom : x.room = x.header.length) :
    PackField where
  dir := x.dir
  args := x.args
  bytes := x.header
  packs := fun sign cap s as => by
    rw [packDir_item, hpay, hroom, List.append_nil]

def uint8 (v : UInt8) : PackField := ofItem (.C v) rfl rfl

def uint16 (v : UInt16) : PackField := ofItem (.H v) rfl rfl

def uint32 (v : UInt32) : PackField := ofItem (.I v) rfl rfl

def uint64 (v : UInt64) : PackField := ofItem (.Q v) rfl rfl

def var64 (v : UInt64) : PackField := ofItem (.W v) rfl rfl

/-- No routing information. -/
def noRoute : PackField where
  dir := .b
  args := [.uint 0, .ptr none]
  bytes := [0]
  packs := fun sign cap s as => packDir_item sign cap (.b ⟨[], by decide⟩) s as

/-- The bytes behind a pointer of `n` bytes, zeros behind `NULL`. -/
def orZeros (n : ℕ) (p : Option Bytes) : Bytes := p.getD (List.replicate n 0)

/-- A nonce, or none. -/
def nonce (p : Option Bytes) (hp : ∀ bs ∈ p, bs.length = tripNonce) : PackField where
  dir := .n
  args := [.ptr p]
  bytes := orZeros tripNonce p
  packs := fun sign cap s as => by
    cases p with
    | some bs => exact (ofItem (.n ⟨bs, hp bs rfl⟩) rfl rfl).packs sign cap s as
    | none => exact packDir_item sign cap (.n ⟨List.replicate tripNonce 0, rfl⟩) s as

/-- A key, or none. -/
def key (p : Option Bytes) (hp : ∀ bs ∈ p, bs.length = tripKeyPub) : PackField where
  dir := .k
  args := [.ptr p]
  bytes := orZeros tripKeyPub p
  packs := fun sign cap s as => by
    cases p with
    | some bs => exact (ofItem (.k ⟨bs, hp bs rfl⟩) rfl rfl).packs sign cap s as
    | none => exact packDir_item sign cap (.k ⟨List.replicate tripKeyPub 0, rfl⟩) s as

/-- The bytes of a list of fields. -/
def encode (fs : List PackField) : Bytes := fs.flatMap bytes

end PackField

theorem packRoom_of_le {cap n : ℕ} {s : PackState} (hcap : cap ≤ NPOS) (hn : s.size + n ≤ cap) :
    packRoom cap n s = .ok { s with size := s.size + n } := by
  unfold NPOS at hcap
  unfold packRoom
  dsimp only
  rw [Nat.mod_eq_of_lt (by omega), if_neg (Nat.not_lt.mpr hn)]

/-- A directive that is packed leaves the rest of the format. -/
theorem packFrom_of_ok {sign : Bytes → Bytes → Bytes} {cap : ℕ} {d : PackDir}
    {fmt : List PackDir} {s s' : PackState} {as as' : List PackArg}
    (h : packDir sign cap d s as = .ok (s', as')) :
    packFrom sign cap (d :: fmt) s as = packFrom sign cap fmt s' as' := by
  rw [packFrom, h]
  rfl

/-- A field is packed when there is room for its bytes. -/
theorem PackField.packs_of_le (f : PackField) {sign : Bytes → Bytes → Bytes} {cap : ℕ}
    (hcap : cap ≤ NPOS) {s : PackState} (hroom : s.size + f.bytes.length ≤ cap)
    (as : List PackArg) : packDir sign cap f.dir s (f.args ++ as) = .ok (s.grow f.bytes, as) := by
  rw [f.packs, packRoom_of_le hcap hroom]
  rfl

/-- **Fields are packed in order** when there is room for their bytes. -/
theorem packFrom_fields {sign : Bytes → Bytes → Bytes} {cap : ℕ} (hcap : cap ≤ NPOS)
    {fmt : List PackDir} {as : List PackArg} : ∀ {fs : List PackField} {s : PackState},
      s.size + (PackField.encode fs).length ≤ cap →
        packFrom sign cap (fs.map PackField.dir ++ fmt) s (fs.flatMap PackField.args ++ as) =
          packFrom sign cap fmt (s.grow (PackField.encode fs)) as := by
  intro fs
  induction fs with
  | nil =>
    intro s _
    show _ = packFrom sign cap fmt (s.grow []) as
    rw [PackState.grow_nil]
    rfl
  | cons f fs ih =>
    intro s hroom
    have hsplit : PackField.encode (f :: fs) = f.bytes ++ PackField.encode fs := rfl
    rw [hsplit, List.length_append] at hroom
    rw [List.map_cons, List.cons_append, List.flatMap_cons, List.append_assoc, hsplit,
      ← PackState.grow_grow, packFrom_of_ok (f.packs_of_le hcap (by omega) _)]
    apply ih
    show s.size + f.bytes.length + _ ≤ cap
    omega

/-! ### A segment of its pieces -/

/-- The head, the room for a sealed box and the information. -/
def signedSize (head info : Bytes) : ℕ := head.length + cryptoBoxSealBytes + info.length

/-- What is signed of a segment. -/
def signedBytes (head info : Bytes) : Bytes :=
  head ++ (List.replicate cryptoBoxSealBytes 0 ++ info)

/-- The bytes at the end: a signature of what is in front, or zeros. -/
def signatureBytes (sign : Bytes → Bytes → Bytes) (signsk : Option Bytes) (msg : Bytes) : Bytes :=
  match signsk with
  | some sk => sign msg sk
  | none => List.replicate tripSign 0

/-- A segment that is made of a head and information, byte for byte: the room for a sealed box
is zeros, and at the end is the signature of all in front of it, or zeros where there is no key
to sign with. -/
structure SealedSegment (sign : Bytes → Bytes → Bytes) (signsk : Option Bytes)
    (head info : Bytes) (buf : Buf) : Prop where
  content : slice buf 0 (signedSize head info) = signedBytes head info
  /-- A signature has its size. -/
  signature : (signatureBytes sign signsk (signedBytes head info)).length = tripSign →
    slice buf (signedSize head info) tripSign = signatureBytes sign signsk (signedBytes head info)

namespace SealedSegment

variable {sign : Bytes → Bytes → Bytes} {signsk : Option Bytes} {head info : Bytes} {buf m : Buf}

theorem head_eq (h : SealedSegment sign signsk head info buf) :
    slice buf 0 head.length = head := by
  have hcontent := h.content
  rw [signedSize, Nat.add_assoc, slice_add] at hcontent
  exact (List.append_inj hcontent (length_slice _ _ _)).1

theorem info_eq (h : SealedSegment sign signsk head info buf) :
    slice buf (head.length + cryptoBoxSealBytes) info.length = info := by
  have hcontent := h.content
  rw [signedSize, signedBytes, slice_add, ← List.append_assoc, Nat.zero_add] at hcontent
  refine (List.append_inj hcontent ?_).2
  rw [length_slice, List.length_append, List.length_replicate]

/-- The signature is that of all in front of it. -/
theorem signed (h : SealedSegment sign signsk head info buf) {sk : Bytes} (hsk : signsk = some sk)
    (hlen : ∀ msg, (sign msg sk).length = tripSign) :
    slice buf (signedSize head info) tripSign = sign (slice buf 0 (signedSize head info)) sk := by
  subst hsk
  rw [h.content]
  exact h.signature (hlen _)

/-- Without a key there are zeros. -/
theorem unsigned (h : SealedSegment sign none head info buf) :
    slice buf (signedSize head info) tripSign = List.replicate tripSign 0 :=
  h.signature List.length_replicate

/-- Memory that holds the same bytes holds the segment. -/
theorem congr (h : SealedSegment sign signsk head info m)
    (hbuf : ∀ i < signedSize head info + tripSign, buf i = m i) :
    SealedSegment sign signsk head info buf := by
  have hslice : ∀ p n, p + n ≤ signedSize head info + tripSign → slice buf p n = slice m p n :=
    fun p n hle => slice_congr fun i hi => hbuf _ (by omega)
  refine ⟨?_, fun hlen => ?_⟩
  · rw [hslice _ _ (by omega)]
    exact h.content
  · rw [hslice _ _ le_rfl]
    exact h.signature hlen

end SealedSegment

/-- The memory when head and information are there and the box is sealed. -/
def boxedMem (buf : Buf) (head info : Bytes) : Buf :=
  overwrite (overwrite (overwrite buf 0 head) (head.length + cryptoBoxSealBytes) info) head.length
    (List.replicate cryptoBoxSealBytes 0)

/-- The seal is written when the information is there already: neither touches the other. -/
theorem slice_boxedMem (buf : Buf) (head info : Bytes) :
    slice (boxedMem buf head info) 0 (signedSize head info) = signedBytes head info := by
  have hseal : (List.replicate cryptoBoxSealBytes (0 : UInt8)).length = cryptoBoxSealBytes :=
    List.length_replicate
  unfold signedSize signedBytes boxedMem
  rw [slice_add, slice_add, Nat.zero_add, List.append_assoc]
  congr 1
  · rw [slice_overwrite_of_le _ _ (by omega), slice_overwrite_of_le _ _ (by omega),
      slice_overwrite_self]
  congr 1
  · have hbox := slice_overwrite_self (overwrite (overwrite buf 0 head)
      (head.length + cryptoBoxSealBytes) info) head.length (List.replicate cryptoBoxSealBytes 0)
    rwa [hseal] at hbox
  · rw [Nat.zero_add, slice_overwrite_of_ge _ (by rw [hseal]), slice_overwrite_self]

/-- The signature is written behind it. -/
theorem sealedSegment_boxedMem (sign : Bytes → Bytes → Bytes) (signsk : Option Bytes)
    (head info : Bytes) (buf : Buf) :
    SealedSegment sign signsk head info
      (overwrite (boxedMem buf head info) (signedSize head info)
        (signatureBytes sign signsk (slice (boxedMem buf head info) 0
          (signedSize head info)))) := by
  rw [slice_boxedMem]
  refine ⟨?_, fun hlen => ?_⟩
  · rw [slice_overwrite_of_le _ _ (Nat.zero_add _).le, slice_boxedMem]
  · have hsig := slice_overwrite_self (boxedMem buf head info) (signedSize head info)
      (signatureBytes sign signsk (signedBytes head info))
    rwa [hlen] at hsig

theorem packDir_o {sign : Bytes → Bytes → Bytes} {cap : ℕ} (hcap : cap ≤ NPOS) {s : PackState}
    (hroom : s.size + cryptoBoxSealBytes ≤ cap) (key : Option Bytes) (as : List PackArg) :
    packDir sign cap .o s (.ptr key :: as) =
      .ok (⟨s.size + cryptoBoxSealBytes, s.pos + cryptoBoxSealBytes, s.mem, s.sigstart, s.pos⟩,
        as) := by
  show (packRoom cap cryptoBoxSealBytes s >>= _) = _
  rw [packRoom_of_le hcap hroom]
  rfl

theorem packDir_S {sign : Bytes → Bytes → Bytes} {cap : ℕ} (hcap : cap ≤ NPOS) {s : PackState}
    (hroom : s.size + tripSign ≤ cap) (signsk : Option Bytes) (as : List PackArg) :
    packDir sign cap .S s (.ptr signsk :: as) =
      .ok ({ s with size := s.size + tripSign }.put
        (signatureBytes sign signsk (slice s.mem s.sigstart (s.pos - s.sigstart))), as) := by
  show (packRoom cap tripSign s >>= _) = _
  rw [packRoom_of_le hcap hroom]
  cases signsk <;> rfl

/-- **What the two formats pack**: fields, the room for a sealed box, fields again and
a signature. -/
theorem tripPack_sealed {sign : Bytes → Bytes → Bytes} {cap : ℕ} (hcap : cap ≤ NPOS) (buf : Buf)
    (key signsk : Option Bytes) (hs is : List PackField)
    (hroom : signedSize (PackField.encode hs) (PackField.encode is) + tripSign ≤ cap) :
    ∃ buf', tripPack sign cap buf
        (.s :: (hs.map PackField.dir ++ .o :: (is.map PackField.dir ++ [.O, .S])))
        (hs.flatMap PackField.args ++ .ptr key :: (is.flatMap PackField.args ++ [.ptr signsk])) =
          some (signedSize (PackField.encode hs) (PackField.encode is) + tripSign, buf') ∧
      SealedSegment sign signsk (PackField.encode hs) (PackField.encode is) buf' := by
  refine ⟨_, ?_, sealedSegment_boxedMem sign signsk _ _ buf⟩
  generalize hhead : PackField.encode hs = head at *
  generalize hinfo : PackField.encode is = info at *
  have hsize : signedSize head info = head.length + cryptoBoxSealBytes + info.length := rfl
  unfold tripPack
  rw [packFrom_of_ok (d := .s) rfl, packFrom_fields hcap (by rw [hhead]; dsimp only; omega), hhead]
  generalize hs₁ : PackState.grow _ head = s₁
  have hsize₁ : s₁.size = head.length := by rw [← hs₁]; exact Nat.zero_add _
  rw [packFrom_of_ok (packDir_o hcap (by omega) key _),
    packFrom_fields hcap (by rw [hinfo]; dsimp only; omega), hinfo, packFrom_of_ok (d := .O) rfl,
    packFrom_of_ok (packDir_S hcap ?_ signsk _)]
  · -- the last state has the memory that was written in four steps
    simp only [packFrom, PackState.grow, PackState.put, ← hs₁, Nat.zero_add, Nat.sub_zero]
    rfl
  · simp only [PackState.grow, PackState.put, hsize₁]
    omega

/-! ### The two segments -/

/-- The nonce and the key are of their sizes. -/
structure Connself.Sized (x : Connself) : Prop where
  nonce : ∀ bs ∈ x.nonce, bs.length = tripNonce
  pk : ∀ bs ∈ x.pk, bs.length = tripKeyPub

/-- The prefix of a segment. -/
def prefixFields (control : UInt8) (id seq : UInt64) : List PackField :=
  [.uint8 control, .uint64 id, .var64 seq]

def prefixBytes (control : UInt8) (id seq : UInt64) : Bytes :=
  control :: (beBytes 8 id.toNat ++ varLE seq)

/-- The version and the routing information behind the prefix of an OPEN segment. -/
def routeFields : List PackField := [.uint16 tripVersionMajor, .noRoute]

def routeBytes : Bytes := [0, 0, 0]

/-- The limits that are sent. -/
def sentLim : Connlim := ⟨128000, 8, 65536, 128⟩

/-- The information of both segments. -/
def infoFields (self : Connself) (hself : self.Sized) : List PackField :=
  [.uint64 self.id, .nonce self.nonce hself.nonce, .key self.pk hself.pk,
    .uint32 sentLim.credit, .uint32 sentLim.stream, .uint32 sentLim.messageSize,
    .uint32 sentLim.message]

def infoBytes (self : Connself) : Bytes :=
  beBytes 8 self.id.toNat ++ (PackField.orZeros tripNonce self.nonce ++
    (PackField.orZeros tripKeyPub self.pk ++ (beBytes 4 sentLim.credit.toNat ++
      (beBytes 4 sentLim.stream.toNat ++ (beBytes 4 sentLim.messageSize.toNat ++
        beBytes 4 sentLim.message.toNat)))))

theorem encode_prefixFields (control : UInt8) (id seq : UInt64) :
    PackField.encode (prefixFields control id seq) = prefixBytes control id seq := by
  show [control] ++ (beBytes 8 id.toNat ++ (varLE seq ++ [])) = _
  rw [List.append_nil]
  rfl

theorem encode_openFields (control : UInt8) (id seq : UInt64) :
    PackField.encode (prefixFields control id seq ++ routeFields) =
      prefixBytes control id seq ++ routeBytes := by
  unfold PackField.encode
  rw [List.flatMap_append]
  congr 1
  exact encode_prefixFields control id seq

theorem encode_infoFields (self : Connself) (hself : self.Sized) :
    PackField.encode (infoFields self hself) = infoBytes self := by
  unfold PackField.encode infoFields infoBytes
  simp only [List.flatMap_cons, List.flatMap_nil, List.append_nil]
  rfl

theorem length_prefixBytes (control : UInt8) (id seq : UInt64) :
    (prefixBytes control id seq).length = 10 + tripUvarLen seq := by
  simp only [prefixBytes, varLE, List.length_cons, List.length_append, length_beBytes,
    length_leBytes]
  omega

theorem PackField.length_orZeros {n : ℕ} {p : Option Bytes} (hp : ∀ bs ∈ p, bs.length = n) :
    (orZeros n p).length = n := by
  cases p with
  | none => exact List.length_replicate
  | some bs => exact hp bs rfl

theorem length_infoBytes {self : Connself} (hself : self.Sized) :
    (infoBytes self).length = 80 := by
  simp only [infoBytes, List.length_append, length_beBytes,
    PackField.length_orZeros hself.nonce, PackField.length_orZeros hself.pk]
  rfl

/-- The connection when it has taken its next sequence number. -/
def Connection.nextSeq (x : Connection) : Connection :=
  { x with self := { x.self with sequence := x.self.sequence + 1 } }

theorem exec_tripcSeq (c : Ptr) (s : Env) :
    ∃ t, (tripcSeq c).exec s = (some (s.router.heap.conn c).self.sequence, t) ∧
      t.oracle = s.oracle ∧ t.router.heap.conn c = (s.router.heap.conn c).nextSeq :=
  ⟨s.setRouter (s.router.setConn c Connection.nextSeq), rfl, rfl,
    ConnHeap.conn_set_self s.router.heap c Connection.nextSeq⟩

/-- Packing with the two formats. -/
theorem exec_tripPackM_sealed {cap : ℕ} (hcap : cap ≤ NPOS) (key signsk : Option Bytes)
    (hs is : List PackField)
    (hroom : signedSize (PackField.encode hs) (PackField.encode is) + tripSign ≤ cap) (s : Env) :
    ∃ s', (tripPackM cap (.s :: (hs.map PackField.dir ++ .o :: (is.map PackField.dir ++ [.O, .S])))
        (hs.flatMap PackField.args ++ .ptr key ::
          (is.flatMap PackField.args ++ [.ptr signsk]))).exec s =
          (some (signedSize (PackField.encode hs) (PackField.encode is) + tripSign), s') ∧
      SealedSegment s.oracle.sign signsk (PackField.encode hs) (PackField.encode is)
        s'.router.buf := by
  obtain ⟨buf', hpack, hseg⟩ := @tripPack_sealed s.oracle.sign _ hcap s.router.buf key signsk
    hs is hroom
  refine ⟨s.setRouter { s.router with buf := buf' }, ?_, hseg⟩
  unfold tripPackM
  rw [Prog.exec_bind_of (exec_consult _ _), Prog.exec_bind_of (exec_fetch _ _), hpack]
  rfl

/-- The control of the segments of a connection that knows a key of its peer, or
knows none. -/
def controlByte (control : UInt8) (key : Option Bytes) : UInt8 :=
  control ||| if key.isSome then tripPrefixEmask else 0

/-- The head of the OPEN segment of a connection. -/
def openHead (x : Connection) : Bytes :=
  prefixBytes (controlByte tripControlOpen x.peer.openpk) x.self.id x.self.sequence ++ routeBytes

/-- The head of the CHAL segment of a connection. -/
def chalHead (x : Connection) : Bytes :=
  prefixBytes (controlByte tripControlChal x.peer.pk) x.peer.id x.self.sequence

theorem openHead_size {x : Connection} (hself : x.self.Sized) :
    signedSize (openHead x) (infoBytes x.self) + tripSign = 205 + tripUvarLen x.self.sequence := by
  unfold signedSize openHead
  rw [List.length_append, length_prefixBytes, length_infoBytes hself]
  show 10 + _ + 3 + 48 + 80 + 64 = _
  omega

theorem chalHead_size {x : Connection} (hself : x.self.Sized) :
    signedSize (chalHead x) (infoBytes x.self) + tripSign = 202 + tripUvarLen x.self.sequence := by
  unfold signedSize chalHead
  rw [length_prefixBytes, length_infoBytes hself]
  show 10 + _ + 48 + 80 + 64 = _
  omega

/-- **What `_tripc_send_open` writes.** -/
theorem exec_tripcSendOpen {c : Ptr} {s : Env} (hself : (s.router.heap.conn c).self.Sized)
    {blen : ℕ} (hblen : 213 ≤ blen) (hcap : blen ≤ NPOS) :
    ∃ s', (tripcSendOpen c blen).exec s =
        (some (205 + tripUvarLen (s.router.heap.conn c).self.sequence), s') ∧
      SealedSegment s.oracle.sign (s.router.heap.conn c).self.signsk
        (openHead (s.router.heap.conn c)) (infoBytes (s.router.heap.conn c).self)
          s'.router.buf := by
  obtain ⟨t, hseq, horacle, hconn⟩ := exec_tripcSeq c s
  unfold tripcSendOpen
  rw [Prog.exec_bind_of hseq, Prog.exec_bind_of (exec_getConn _ _), hconn]
  generalize s.router.heap.conn c = x at *
  have hsized : x.nextSeq.self.Sized := ⟨hself.nonce, hself.pk⟩
  have hfields := encode_openFields (controlByte tripControlOpen x.peer.openpk) x.self.id
    x.self.sequence
  have hinfo := encode_infoFields _ hsized
  have hl := PackItem.tripUvarLen_le_eight x.self.sequence
  have hsize := openHead_size hself
  obtain ⟨s', hexec, hseg⟩ := exec_tripPackM_sealed hcap x.peer.openpk x.self.signsk
    (prefixFields (controlByte tripControlOpen x.peer.openpk) x.self.id x.self.sequence ++
      routeFields) (infoFields _ hsized)
    (by
      rw [hfields, hinfo]
      show signedSize (openHead x) (infoBytes x.self) + tripSign ≤ blen
      omega) t
  rw [hfields, hinfo] at hexec hseg
  refine ⟨s', ?_, ?_⟩
  · rw [← hsize]
    exact hexec
  · rw [← horacle]
    exact hseg

/-- **What `_tripc_send_chal` writes.** -/
theorem exec_tripcSendChal {c : Ptr} {s : Env} (hself : (s.router.heap.conn c).self.Sized)
    {blen : ℕ} (hblen : 210 ≤ blen) (hcap : blen ≤ NPOS) :
    ∃ s', (tripcSendChal c blen).exec s =
        (some (202 + tripUvarLen (s.router.heap.conn c).self.sequence), s') ∧
      SealedSegment s.oracle.sign (s.router.heap.conn c).self.signsk
        (chalHead (s.router.heap.conn c)) (infoBytes (s.router.heap.conn c).self)
          s'.router.buf := by
  obtain ⟨t, hseq, horacle, hconn⟩ := exec_tripcSeq c s
  unfold tripcSendChal
  rw [Prog.exec_bind_of hseq, Prog.exec_bind_of (exec_getConn _ _), hconn]
  generalize s.router.heap.conn c = x at *
  have hsized : x.nextSeq.self.Sized := ⟨hself.nonce, hself.pk⟩
  have hfields := encode_prefixFields (controlByte tripControlChal x.peer.pk) x.peer.id
    x.self.sequence
  have hinfo := encode_infoFields _ hsized
  have hl := PackItem.tripUvarLen_le_eight x.self.sequence
  have hsize := chalHead_size hself
  obtain ⟨s', hexec, hseg⟩ := exec_tripPackM_sealed hcap x.peer.openpk x.self.signsk
    (prefixFields (controlByte tripControlChal x.peer.pk) x.peer.id x.self.sequence)
    (infoFields _ hsized)
    (by
      rw [hfields, hinfo]
      show signedSize (chalHead x) (infoBytes x.self) + tripSign ≤ blen
      omega) t
  rw [hfields, hinfo] at hexec hseg
  refine ⟨s', ?_, ?_⟩
  · rw [← hsize]
    exact hexec
  · rw [← horacle]
    exact hseg

/-! ### How the pieces are read -/

/-- Bytes that are there are there part by part. -/
theorem slice_parts {buf : Buf} {p : ℕ} {xs ys : Bytes}
    (h : slice buf p (xs ++ ys).length = xs ++ ys) :
    slice buf p xs.length = xs ∧ slice buf (p + xs.length) ys.length = ys :=
  slice_eq_append (by rwa [← List.length_append])

/-- A number behind its length is unpacked as some number. -/
theorem unpackDir_W {len pos n l : ℕ} {buf : Buf} (hl : (buf pos).toNat = l) (hl8 : l ≤ 8)
    (hn : n + 1 + l ≤ len) (hlen : len ≤ NPOS) :
    unpackDir len buf .W n pos =
      (some (n + 1 + l, pos + 1 + l), [.uint64 (unpackVar64 l (buf.drop (pos + 1)))]) := by
  unfold NPOS at hlen
  simp only [unpackDir, hl]
  rw [Nat.mod_eq_of_lt (by omega), if_neg (by omega), Nat.mod_eq_of_lt (by omega),
    if_neg (by omega)]

/-- **The prefix is read** but for the sequence number, whose bytes come in the other
order. -/
theorem tripUnpackPrefix_of_head {len : ℕ} {buf : Buf} {control : UInt8} {id seq : UInt64}
    (h : slice buf 0 (prefixBytes control id seq).length = prefixBytes control id seq)
    (hlen : 10 + tripUvarLen seq ≤ len) (hmax : len ≤ NPOS) :
    ∃ seq', tripUnpackPrefix len buf = some (10 + tripUvarLen seq,
      ⟨control &&& tripPrefixEmask != 0, control &&& ~~~tripPrefixEmask, id, seq'⟩) := by
  have hl := PackItem.tripUvarLen_le_eight seq
  obtain ⟨hctl, hrest⟩ := @slice_parts buf 0 [control] (beBytes 8 id.toNat ++ varLE seq) h
  obtain ⟨hid, hvar⟩ := slice_parts hrest
  obtain ⟨hbyte, -⟩ := @slice_parts buf _ [UInt8.ofNat (tripUvarLen seq)] _ hvar
  rw [length_beBytes] at hid hbyte
  have hcontrol : buf 0 = control := (List.cons.inj hctl).1
  have hnum : unpacku64 (buf.drop 1) = id := (unpacku64_iff id).mpr hid
  have hlbyte : buf 9 = UInt8.ofNat (tripUvarLen seq) := (List.cons.inj hbyte).1
  have hC : unpackDir len buf .C 0 0 = (some (1, 1), [.uint8 control]) := by
    rw [unpackDir_eq_fixed rfl buf 0 (by omega) (by omega), if_pos (by omega), ← hcontrol]
    rfl
  have hQ : unpackDir len buf .Q 1 1 = (some (9, 9), [.uint64 id]) := by
    rw [unpackDir_eq_fixed rfl buf 1 (by omega) (by omega), if_pos (by omega), hnum]
  have hlen9 : (buf 9).toNat = tripUvarLen seq := by
    rw [hlbyte, UInt8.toNat_ofNat']
    omega
  have hW := @unpackDir_W len 9 9 _ buf hlen9 hl hlen hmax
  have hunpack : tripUnpack len buf [.C, .Q, .W] = (10 + tripUvarLen seq,
      [.uint8 control, .uint64 id, .uint64 (unpackVar64 (tripUvarLen seq) (buf.drop 10))]) := by
    simp only [tripUnpack, unpackFrom, hC, hQ, hW, List.cons_append, List.nil_append]
  refine ⟨unpackVar64 (tripUvarLen seq) (buf.drop 10), ?_⟩
  unfold tripUnpackPrefix
  rw [hunpack]
  refine if_neg ?_
  unfold NPOS
  omega

/-- **No routing information is read** from zeros. -/
theorem tripUnpackRoute_of_zeros {len : ℕ} {buf : Buf} (h : slice buf 0 3 = routeBytes)
    (hlen : 3 ≤ len) (hmax : len ≤ NPOS) :
    tripUnpackRoute len buf = some (3, ⟨false, tripVersionMajor, 0, 3, none, none, none⟩) := by
  have hmax' := hmax
  unfold NPOS at hmax'
  have hzero : buf 0 = 0 ∧ buf 1 = 0 ∧ buf 2 = 0 := by
    simpa [slice, routeBytes, List.range_succ] using h
  have hH : unpackDir len buf .H 0 0 = (some (2, 2), [.uint16 0]) := by
    rw [unpackDir_eq_fixed rfl buf 0 (by omega) (by omega), if_pos (by omega)]
    have hnum : unpacku16 (buf.drop 0) = 0 := by
      simp [unpacku16, Buf.drop, hzero.1, hzero.2.1]
    rw [hnum]
  have hb : unpackDir len buf .b 2 2 = (some (3, 3), [.uint32 0, .pointer 3]) := by
    have hvar : unpackVar32 (UInt8.toNat 0) (buf.drop (2 + 1)) = 0 := rfl
    have hl : UInt8.toNat 0 = 0 := rfl
    have hn : UInt32.toNat 0 = 0 := rfl
    simp only [unpackDir, hzero.2.2, hvar]
    rw [hl, hn, if_neg (by omega), if_neg (by omega), if_neg (by omega)]
    rfl
  have hunpack : tripUnpack len buf [.H, .b] = (3, [.uint16 0, .uint32 0, .pointer 3]) := by
    simp only [tripUnpack, unpackFrom, hH, hb, List.cons_append, List.nil_append]
  unfold tripUnpackRoute
  rw [hunpack]
  rfl

/-- **The information is read** as what it was written from. -/
theorem infoBytes_read {buf : Buf} {self : Connself} (hself : self.Sized) {en off : ℕ}
    (h : slice buf (en + off) (infoBytes self).length = infoBytes self) :
    infoId (buf.drop en) off = self.id ∧ infoLim (buf.drop en) off = sentLim ∧
      infoNonce (buf.drop en) off = PackField.orZeros tripNonce self.nonce ∧
      infoKey (buf.drop en) off = PackField.orZeros tripKeyPub self.pk := by
  obtain ⟨hid, h⟩ := slice_parts h
  obtain ⟨hnonce, h⟩ := slice_parts h
  obtain ⟨hkey, h⟩ := slice_parts h
  obtain ⟨hcredit, h⟩ := slice_parts h
  obtain ⟨hstream, h⟩ := slice_parts h
  obtain ⟨hsize, hmessage⟩ := slice_parts h
  rw [PackField.length_orZeros hself.nonce] at *
  rw [PackField.length_orZeros hself.pk] at *
  simp only [length_beBytes] at *
  have hdrop : ∀ k, (buf.drop en).drop k = buf.drop (en + k) := by
    intro k
    funext i
    simp only [Buf.drop, Nat.add_assoc]
  refine ⟨?_, ?_, ?_, ?_⟩
  · rw [infoId, hdrop]
    exact (unpacku64_iff _).mpr hid
  · simp only [infoLim, hdrop, ← Nat.add_assoc]
    have h₁ : unpacku32 (buf.drop (en + off + 64)) = sentLim.credit := (unpacku32_iff _).mpr hcredit
    have h₂ : unpacku32 (buf.drop (en + off + 68)) = sentLim.stream := (unpacku32_iff _).mpr hstream
    have h₃ : unpacku32 (buf.drop (en + off + 72)) = sentLim.messageSize :=
      (unpacku32_iff _).mpr hsize
    have h₄ : unpacku32 (buf.drop (en + off + 76)) = sentLim.message :=
      (unpacku32_iff _).mpr hmessage
    rw [h₁, h₂, h₃, h₄]
  · rw [infoNonce, hdrop, slice_drop]
    exact hnonce
  · rw [infoKey, hdrop, slice_drop]
    exact hkey

end Libtrp
