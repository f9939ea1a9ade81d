import TuyaOpen.Ai.Reject
import TuyaOpen.Ai.Version2
import TuyaOpen.Lib.Mealy

/-!
# Nonces and sequence numbers of a connection

A connection is what happens between two calls of `__ai_basic_proto_init`: packets are
written and packets arrive, under one key.  A run logs the AES-GCM calls behind the
packets that were written and the packets that were accepted.
-/

namespace TuyaOpen.Ai

open Bytes ChunkStream

inductive AiVersion where
  | v1
  | v2
  deriving DecidableEq

/-! ## Steps -/

/-- One call of `__ai_packet_write` by any of the senders.  A packet can have a writer of
its own, which says whether it has an update function; `rand` and `rsa` are for a
CLIENT_HELLO of the second version. -/
structure WriteReq where
  type : UInt8
  attrs : List AiAttribute
  data : List UInt8
  frag : FragFlag
  originLen : ℕ
  env : WriteEnv
  writer : Option Bool
  rand : ℕ
  rsa : Except OperateRet (List UInt8)

/-- The arguments of an AES-GCM call. -/
structure Encryption where
  nonce : List UInt8
  plain : List UInt8
  deriving DecidableEq

/-- What is encrypted for a packet, if anything. -/
def WriteReq.plaintext (v : AiVersion) (req : WriteReq) : Option (List UInt8) :=
  match v with
  | .v1 =>
      if aiGetSl req.type false = aiPacketSl4 then
        match aiPlainPayload req.type req.attrs req.data req.frag req.originLen with
        | .ok plain => some (aiEncryptAddPkcs plain)
        | .error _ => none
      else none
  | .v2 => (aiPlainPayloadV2 req.type req.attrs req.data req.frag).toOption

def WriteReq.nonce (v : AiVersion) (p : AiProtoOut) (req : WriteReq) : List UInt8 :=
  match v with
  | .v1 => p.encryptIv
  | .v2 => packetNonceV2 p req.type req.rand

def WriteReq.build (cfg : AiConfig) (c : AiCipher) (v : AiVersion) (p : AiProtoOut)
    (req : WriteReq) : Except Fault (List UInt8) :=
  match v with
  | .v1 => aiPacketBuild cfg c req.env p req.type req.attrs req.data req.frag req.originLen
  | .v2 => aiPacketBuildV2 cfg c req.env req.rand req.rsa p req.type req.attrs req.data req.frag

/-- The encryption in a packet that was produced.  A packet with a writer is not
encrypted. -/
def WriteReq.encryption (cfg : AiConfig) (c : AiCipher) (v : AiVersion) (p : AiProtoOut)
    (req : WriteReq) : Option Encryption :=
  if req.writer = none then
    match req.build cfg c v p with
    | .ok _ => (req.plaintext v).map (⟨req.nonce v p, ·⟩)
    | .error _ => none
  else none

/-- The sequence number is taken from the connection unless the writer has its own. -/
def WriteReq.numbered (req : WriteReq) : Bool := req.writer ≠ some true

inductive ConnStep where
  | write (req : WriteReq)
  | recv (mem : Bool) (es : List Event)

def ConnStep.numbered : ConnStep → Bool
  | write req => req.numbered
  | recv _ _ => false

structure StepLog where
  encrypted : Option Encryption
  accepted : Option (List UInt8)
  deriving DecidableEq

structure AiConn where
  out : AiProtoOut
  inn : AiProtoIn

/-- What `__ai_basic_proto_init` draws at random. -/
structure ConnKeys where
  cryptKey : List UInt8
  signKey : List UInt8
  encryptIv : List UInt8
  key_length : cryptKey.length = aiKeyLen
  iv_length : encryptIv.length = aiIvLen

def ConnKeys.start (keys : ConnKeys) : AiConn where
  out := ⟨keys.cryptKey, keys.signKey, keys.encryptIv, 1, true, keys.iv_length,
    Nat.one_pos, firstSequence_lt⟩
  inn := ⟨keys.cryptKey, keys.signKey, List.replicate aiIvLen 0, 0⟩

def AiVersion.readHead : AiVersion → List Event → HeadRead
  | v1 => aiBaiscReadPktHead
  | v2 => aiBaiscReadPktHeadV2

def AiVersion.recvPacket : AiVersion → AiConfig → AiCipher → Bool → AiProtoIn → List Event →
    AiProtoIn × List Event × Recv
  | v1 => Ai.recvPacket
  | v2 => recvPacketV2

/-- What is in `recv_buf` when the packet at the front of the events was read. -/
def AiVersion.recvBuf (v : AiVersion) (es : List Event) : Option (List UInt8) :=
  match v.readHead es with
  | .lost _ _ => none
  | .head buf rest =>
      let total :=
        match v with
        | v1 => u32 (aiGetPacketLen buf + aiGetHeadLen buf)
        | v2 => aiGetPacketLenV2 buf + aiGetHeadLenV2
      match gather notReady rest 1 (total - buf.length) [] buf.length with
      | .failed _ _ _ => none
      | .done body _ _ => some (buf ++ body)

def connStep (cfg : AiConfig) (c : AiCipher) (v : AiVersion) (conn : AiConn) :
    ConnStep → AiConn × StepLog
  | .write req =>
      ({ conn with out := if req.numbered then conn.out.advance else conn.out },
        ⟨req.encryption cfg c v conn.out, none⟩)
  | .recv mem es =>
      match v.recvPacket cfg c mem conn.inn es with
      | (p, _, .packet _) => ({ conn with inn := p }, ⟨none, v.recvBuf es⟩)
      | (p, _, _) => ({ conn with inn := p }, ⟨none, none⟩)

def connMachine (cfg : AiConfig) (c : AiCipher) (v : AiVersion) :
    Mealy AiConn ConnStep StepLog where
  step := connStep cfg c v

def connLog (cfg : AiConfig) (c : AiCipher) (v : AiVersion) (keys : ConnKeys)
    (steps : List ConnStep) : List StepLog :=
  (connMachine cfg c v).outputs keys.start steps

def encryptedAt (log : List StepLog) (i : ℕ) : Option Encryption := log[i]?.bind (·.encrypted)

def acceptedAt (log : List StepLog) (i : ℕ) : Option (List UInt8) := log[i]?.bind (·.accepted)

/-! ## What a run should keep -/

/-- No two packets with different plaintexts have one nonce. -/
def NoncesFresh (log : List StepLog) : Prop :=
  ∀ i j ei ej, i < j → encryptedAt log i = some ei → encryptedAt log j = some ej →
    ei.plain ≠ ej.plain → ei.nonce ≠ ej.nonce

/-- No packet is accepted twice. -/
def AcceptsOnce (log : List StepLog) : Prop :=
  ∀ i j pkt, i < j → acceptedAt log i = some pkt → acceptedAt log j ≠ some pkt

/-! ## When it does -/

/-- The number that goes into the nonce of the packet that is written at a position: the
connection has 65535 sequence numbers, and a CLIENT_HELLO has a random number. -/
def nonceNumber (steps : List ConnStep) (i : ℕ) (req : WriteReq) : ℕ :=
  if req.type = aiPtClientHello then req.rand % 255 + 1
  else ((steps.take i).countP ConnStep.numbered) % 65535 + 1

/-- The packets with different plaintexts have different numbers in the second version, and
there are none in the first. -/
def NumbersFresh (v : AiVersion) (steps : List ConnStep) : Prop :=
  ∀ (i j : ℕ) (ri rj : WriteReq), i < j → steps[i]? = some (.write ri) →
    steps[j]? = some (.write rj) → ri.writer = none → rj.writer = none →
    (ri.plaintext v).isSome → (rj.plaintext v).isSome → ri.plaintext v ≠ rj.plaintext v →
      v = .v2 ∧ nonceNumber steps i ri ≠ nonceNumber steps j rj

/-- The same, among the packets that were produced. -/
def ProducedFresh (v : AiVersion) (steps : List ConnStep) (log : List StepLog) : Prop :=
  ∀ (i j : ℕ) (ri rj : WriteReq) (ei ej : Encryption), i < j → steps[i]? = some (.write ri) →
    steps[j]? = some (.write rj) → encryptedAt log i = some ei → encryptedAt log j = some ej →
    ei.plain ≠ ej.plain → v = .v2 ∧ nonceNumber steps i ri ≠ nonceNumber steps j rj

/-- A packet with the last sequence number arrives. -/
def ConnStep.Wraps (v : AiVersion) : ConnStep → Prop
  | write _ => False
  | recv _ es => ∃ buf rest, v.readHead es = .head buf rest ∧ headSequence buf = 0xffff

def ConnStep.Brings (v : AiVersion) (pkt : List UInt8) : ConnStep → Prop
  | write _ => False
  | recv _ es => v.recvBuf es = some pkt

/-- No packet arrives again after the sequence numbers started over. -/
def NotAfterWrap (v : AiVersion) (steps : List ConnStep) : Prop :=
  ∀ (i k j : ℕ) (si sk sj : ConnStep) (pkt : List UInt8), i ≤ k → k < j → steps[i]? = some si →
    steps[k]? = some sk → steps[j]? = some sj → si.Brings v pkt → sj.Brings v pkt → ¬sk.Wraps v

/-! ## The nonces -/

theorem zipWith_xor_injective {mask as bs : List UInt8} (ha : as.length = mask.length)
    (hb : bs.length = mask.length)
    (h : List.zipWith (· ^^^ ·) mask as = List.zipWith (· ^^^ ·) mask bs) : as = bs := by
  induction mask generalizing as bs with
  | nil =>
      rw [List.length_eq_zero_iff.mp ha, List.length_eq_zero_iff.mp hb]
  | cons m mask ih =>
      cases as with
      | nil => cases ha
      | cons a as =>
          cases bs with
          | nil => cases hb
          | cons b bs =>
              simp only [List.zipWith_cons_cons, List.cons.injEq] at h
              obtain ⟨hhead, htail⟩ := h
              have hab : a = b := (UInt8.xor_right_inj m).mp hhead
              rw [hab, ih (Nat.succ.inj ha) (Nat.succ.inj hb) htail]

theorem xorIvmaskWithSequence_injective {mask : List UInt8} (hmask : mask.length = aiIvLen)
    {m n : ℕ} (hm : m < 2 ^ 16) (hn : n < 2 ^ 16)
    (h : xorIvmaskWithSequence mask m = xorIvmaskWithSequence mask n) : m = n := by
  have hlen : ∀ k, (List.replicate 14 (0 : UInt8) ++ encodeBE 2 k).length = mask.length := by
    intro k
    rw [hmask, List.length_append, List.length_replicate, length_encodeBE, aiIvLen]
  have hwords := List.append_cancel_left (zipWith_xor_injective (hlen m) (hlen n) h)
  rw [← decodeBE_encodeBE (k := 2) hm, hwords, decodeBE_encodeBE (k := 2) hn]

section Run

variable (cfg : AiConfig) (c : AiCipher) (v : AiVersion) {keys : ConnKeys} {steps : List ConnStep}

/-- After `n` packets with sequence numbers of the connection. -/
structure Counted (keys : ConnKeys) (n : ℕ) (conn : AiConn) : Prop where
  cryptKey : conn.out.cryptKey = keys.cryptKey
  encryptIv : conn.out.encryptIv = keys.encryptIv
  sequence : conn.out.sequenceOut = n % 65535 + 1

theorem nextSequence_count (n : ℕ) : nextSequence (n % 65535 + 1) = (n + 1) % 65535 + 1 := by
  rw [nextSequence]
  split_ifs <;> omega

theorem Counted.step {n : ℕ} {conn : AiConn} (h : Counted keys n conn) (x : ConnStep) :
    Counted keys (if x.numbered then n + 1 else n) (connStep cfg c v conn x).1 := by
  cases x with
  | recv mem es =>
      have hout : (connStep cfg c v conn (.recv mem es)).1.out = conn.out := by
        simp only [connStep]
        split <;> rfl
      rw [ConnStep.numbered, if_neg Bool.false_ne_true]
      exact ⟨by rw [hout, h.cryptKey], by rw [hout, h.encryptIv], by rw [hout, h.sequence]⟩
  | write req =>
      have hnumbered : (ConnStep.write req).numbered = req.numbered := rfl
      rw [hnumbered]
      cases hreq : req.numbered with
      | false =>
          simp only [connStep, hreq, Bool.false_eq_true, if_false]
          exact ⟨h.cryptKey, h.encryptIv, h.sequence⟩
      | true =>
          simp only [connStep, hreq, if_true]
          refine ⟨h.cryptKey, h.encryptIv, ?_⟩
          rw [← nextSequence_count, ← h.sequence]
          rfl

theorem counted_final (steps : List ConnStep) {n : ℕ} {conn : AiConn} (h : Counted keys n conn) :
    Counted keys (n + steps.countP ConnStep.numbered)
      ((connMachine cfg c v).final conn steps) := by
  induction steps generalizing n conn with
  | nil => exact h
  | cons x steps ih =>
      have hstep := ih (h.step cfg c v x)
      have hsum : (if x.numbered then n + 1 else n) + steps.countP ConnStep.numbered =
          n + (x :: steps).countP ConnStep.numbered := by
        rw [List.countP_cons]
        split_ifs <;> omega
      rwa [hsum] at hstep

theorem counted_start (keys : ConnKeys) : Counted keys 0 keys.start := ⟨rfl, rfl, rfl⟩

/-- The nonce of the packet that is written at a position. -/
def nonceAt (keys : ConnKeys) (steps : List ConnStep) (i : ℕ) (req : WriteReq) : List UInt8 :=
  match v with
  | .v1 => keys.encryptIv
  | .v2 => xorIvmaskWithSequence (ivMask keys.cryptKey) (nonceNumber steps i req)

variable {cfg c v}

theorem WriteReq.encryption_eq_some {req : WriteReq} {p : AiProtoOut} {e : Encryption}
    (h : req.encryption cfg c v p = some e) :
    req.writer = none ∧ (∃ pkt, req.build cfg c v p = .ok pkt) ∧ req.plaintext v = some e.plain ∧
      e.nonce = req.nonce v p := by
  rw [encryption] at h
  split_ifs at h with hwriter
  split at h
  · rename_i pkt hbuild
    obtain ⟨plain, hplain, rfl⟩ := Option.map_eq_some_iff.mp h
    exact ⟨hwriter, ⟨pkt, hbuild⟩, hplain, rfl⟩
  · cases h

/-- A packet that was produced carries what AES-GCM made of the logged arguments. -/
theorem WriteReq.encryption_sound {req : WriteReq} {p : AiProtoOut} {e : Encryption}
    (h : req.encryption cfg c v p = some e) :
    ∃ front ct tag back, c.encrypt p.cryptKey e.nonce e.plain = .ok (ct, tag) ∧
      req.build cfg c v p = .ok (front ++ (ct ++ tag) ++ back) := by
  obtain ⟨-, ⟨pkt, hbuild⟩, hplain, hnonce⟩ := encryption_eq_some h
  rw [hbuild, hnonce]
  cases v with
  | v1 =>
      simp only [plaintext] at hplain
      split_ifs at hplain with hsl
      simp only [build, aiPacketBuild, hsl] at hbuild
      split_ifs at hbuild
      split at hbuild
      · cases hbuild
      rename_i plain hpack
      rw [hpack] at hplain
      rw [← Option.some.inj hplain]
      rw [aiEncryptPacket, if_pos rfl] at hbuild
      cases henc : c.encrypt p.cryptKey p.encryptIv (aiEncryptAddPkcs plain) with
      | error err => simp [henc] at hbuild
      | ok res =>
          simp only [henc] at hbuild
          split_ifs at hbuild
          obtain rfl := Except.ok.inj hbuild
          exact ⟨_, res.1, res.2, _, henc, rfl⟩
  | v2 =>
      simp only [plaintext] at hplain
      simp only [build, aiPacketBuildV2] at hbuild
      split_ifs at hbuild
      split at hbuild
      · cases hbuild
      rename_i plain hpack
      rw [hpack] at hplain
      rw [← Option.some.inj hplain]
      split at hbuild
      · cases hbuild
      rename_i payload henc
      split_ifs at hbuild
      obtain ⟨front, ct, tag, hgcm, rfl⟩ := aiEncryptPacketV2_ok henc
      obtain rfl := Except.ok.inj hbuild
      refine ⟨packetHeadV2 p.sequenceOut req.frag ++ encodeBE 2 (front ++ (ct ++ tag)).length ++
        front, ct, tag, [], hgcm, ?_⟩
      simp only [List.append_assoc, List.append_nil]

theorem WriteReq.nonce_eq {req : WriteReq} {conn : AiConn} {i : ℕ}
    (h : Counted keys ((steps.take i).countP ConnStep.numbered) conn) :
    req.nonce v conn.out = nonceAt v keys steps i req := by
  cases v with
  | v1 => exact h.encryptIv
  | v2 =>
      dsimp only [nonceAt, nonce]
      rw [packetNonceV2, h.cryptKey, h.sequence, nonceNumber]

theorem encryptedAt_connLog (i : ℕ) :
    encryptedAt (connLog cfg c v keys steps) i = steps[i]?.bind fun x ↦
      (connStep cfg c v ((connMachine cfg c v).final keys.start (steps.take i)) x).2.encrypted := by
  rw [encryptedAt, connLog, Mealy.outputs_getElem?, Option.bind_map]
  rfl

theorem connLog_encrypted {i : ℕ} {e : Encryption}
    (h : encryptedAt (connLog cfg c v keys steps) i = some e) :
    ∃ req, steps[i]? = some (.write req) ∧ req.writer = none ∧ req.plaintext v = some e.plain ∧
      e.nonce = nonceAt v keys steps i req := by
  rw [encryptedAt_connLog] at h
  obtain ⟨x, hx, he⟩ := Option.bind_eq_some_iff.mp h
  cases x with
  | recv mem es =>
      simp only [connStep] at he
      split at he <;> cases he
  | write req =>
      have hcount := counted_final cfg c v (steps.take i) (counted_start keys)
      rw [Nat.zero_add] at hcount
      obtain ⟨hwriter, -, hplain, hnonce⟩ := WriteReq.encryption_eq_some he
      exact ⟨req, hx, hwriter, hplain, hnonce.trans (WriteReq.nonce_eq hcount)⟩

theorem nonceNumber_lt (i : ℕ) (req : WriteReq) : nonceNumber steps i req < 2 ^ 16 := by
  rw [nonceNumber]
  split_ifs <;> omega

theorem noncesFresh_iff :
    NoncesFresh (connLog cfg c v keys steps) ↔
      ProducedFresh v steps (connLog cfg c v keys steps) := by
  constructor
  · intro hfresh i j ri rj ei ej hij hi hj hei hej hplain
    have hnonce := hfresh i j ei ej hij hei hej hplain
    obtain ⟨ri', hi', -, -, hni⟩ := connLog_encrypted hei
    obtain ⟨rj', hj', -, -, hnj⟩ := connLog_encrypted hej
    cases hi.symm.trans hi'
    cases hj.symm.trans hj'
    cases v with
    | v1 => exact absurd (hni.trans hnj.symm) hnonce
    | v2 =>
        refine ⟨rfl, fun hsame ↦ hnonce ?_⟩
        rw [hni, hnj, nonceAt, nonceAt, hsame]
  · intro hfresh i j ei ej hij hei hej hplain hsame
    obtain ⟨ri, hi, -, -, hni⟩ := connLog_encrypted hei
    obtain ⟨rj, hj, -, -, hnj⟩ := connLog_encrypted hej
    obtain ⟨rfl, hnumber⟩ := hfresh i j ri rj ei ej hij hi hj hei hej hplain
    have hmask : (ivMask keys.cryptKey).length = aiIvLen := by
      rw [ivMask, List.length_take, keys.key_length]
      rfl
    apply hnumber
    apply xorIvmaskWithSequence_injective hmask (nonceNumber_lt i ri) (nonceNumber_lt j rj)
    exact hni.symm.trans (hsame.trans hnj)

theorem producedFresh_of_numbersFresh (h : NumbersFresh v steps) :
    ProducedFresh v steps (connLog cfg c v keys steps) := by
  intro i j ri rj ei ej hij hi hj hei hej hplain
  obtain ⟨ri', hi', hwi, hpi, -⟩ := connLog_encrypted hei
  obtain ⟨rj', hj', hwj, hpj, -⟩ := connLog_encrypted hej
  cases hi.symm.trans hi'
  cases hj.symm.trans hj'
  apply h i j ri rj hij hi hj hwi hwj (Option.isSome_of_eq_some hpi) (Option.isSome_of_eq_some hpj)
  rw [hpi, hpj]
  exact fun hsame ↦ hplain (Option.some.inj hsame)

end Run

/-! ## The sequence numbers that arrive -/

section Receive

variable {cfg : AiConfig} {c : AiCipher} {v : AiVersion} {mem : Bool} {p p' : AiProtoIn}
  {es es' : List Event} {out : Recv}

theorem aiBaiscReadPktHeadV2_length {buf : List UInt8} {rest : List Event}
    (h : aiBaiscReadPktHeadV2 es = .head buf rest) : buf.length = aiPacketHeadLen + 4 := by
  simp only [aiBaiscReadPktHeadV2] at h
  split at h
  · cases h
  rename_i front _ _ hfront
  split at h
  · cases h
  rename_i more _ _ hmore
  cases h
  rw [List.length_append, gather_length hfront, gather_length hmore]
  rfl

theorem AiVersion.recvPacket_sequence (h : v.recvPacket cfg c mem p es = (p', es', out)) :
    (p'.sequenceIn = p.sequenceIn ∧ ∀ a, out ≠ .packet a) ∨
    ∃ buf rest, v.readHead es = .head buf rest ∧ p.sequenceIn < headSequence buf ∧
      p'.sequenceIn = (if 0xffff ≤ headSequence buf then 0 else headSequence buf) ∧
      ∀ a, out = .packet a →
        ∃ body, v.recvBuf es = some (buf ++ body) := by
  cases v with
  | v1 =>
      simp only [recvPacket, Ai.recvPacket] at h
      split at h
      · cases h
        exact .inl ⟨rfl, by simp⟩
      rename_i buf rest hhead
      have hstore : (storeIv p buf).sequenceIn = p.sequenceIn := by
        rw [storeIv]
        split_ifs <;> rfl
      have hlen := aiBaiscReadPktHead_length hhead
      simp only [recvBody] at h
      split_ifs at h with hlong hold
      · cases h
        exact .inl ⟨hstore, by simp⟩
      · cases h
        exact .inl ⟨hstore, by simp⟩
      rw [hstore] at hold
      refine .inr ⟨buf, rest, hhead, Nat.not_le.mp hold, ?_⟩
      split at h
      · cases h
        exact ⟨rfl, by simp⟩
      · rename_i body last rest' hbody
        cases h
        refine ⟨rfl, fun a _ ↦ ⟨body, ?_⟩⟩
        simp only [recvBuf, readHead, hhead, hlen, hbody]
  | v2 =>
      simp only [recvPacket, recvPacketV2] at h
      split at h
      · cases h
        exact .inl ⟨rfl, by simp⟩
      rename_i buf rest hhead
      have hlen := aiBaiscReadPktHeadV2_length hhead
      split_ifs at h with hlong hold
      · cases h
        exact .inl ⟨rfl, by simp⟩
      · cases h
        exact .inl ⟨rfl, by simp⟩
      refine .inr ⟨buf, rest, hhead, Nat.not_le.mp hold, ?_⟩
      split at h
      · cases h
        exact ⟨rfl, by simp⟩
      · rename_i body last rest' hbody
        cases h
        refine ⟨rfl, fun a _ ↦ ⟨body, ?_⟩⟩
        simp only [recvBuf, readHead, hhead, hlen, hbody]

theorem AiVersion.readHead_le {buf : List UInt8} {rest : List Event}
    (h : v.readHead es = .head buf rest) : 3 ≤ buf.length := by
  cases v with
  | v1 =>
      rw [aiBaiscReadPktHead_length h, aiGetHeadLen, aiHeadLen, aiPacketHeadLen]
      omega
  | v2 =>
      rw [aiBaiscReadPktHeadV2_length h, aiPacketHeadLen]
      omega

theorem connStep_sequence_le (cfg : AiConfig) (c : AiCipher) (conn : AiConn) {x : ConnStep}
    (h : ¬x.Wraps v) :
    conn.inn.sequenceIn ≤ (connStep cfg c v conn x).1.inn.sequenceIn := by
  cases x with
  | write req => exact le_rfl
  | recv mem es =>
      rcases hrecv : v.recvPacket cfg c mem conn.inn es with ⟨p', es', out⟩
      have hproto : (connStep cfg c v conn (.recv mem es)).1.inn = p' := by
        simp only [connStep, hrecv]
        split <;> rename_i heq <;> cases heq <;> rfl
      rw [hproto]
      rcases AiVersion.recvPacket_sequence hrecv with
        ⟨hsame, -⟩ | ⟨buf, rest, hhead, hnew, hstored, -⟩
      · exact hsame.ge
      · have hlast : headSequence buf ≠ 0xffff := fun hlast ↦ h ⟨buf, rest, hhead, hlast⟩
        have hlt := headSequence_lt buf
        rw [hstored, if_neg (by omega)]
        exact hnew.le

theorem connStep_accepted {conn : AiConn} {x : ConnStep} {pkt : List UInt8}
    (h : (connStep cfg c v conn x).2.accepted = some pkt) :
    x.Brings v pkt ∧ conn.inn.sequenceIn < headSequence pkt ∧
      (¬x.Wraps v → (connStep cfg c v conn x).1.inn.sequenceIn = headSequence pkt) := by
  cases x with
  | write req => cases h
  | recv mem es =>
      rcases hrecv : v.recvPacket cfg c mem conn.inn es with ⟨p', es', out⟩
      cases out with
      | packet a =>
          simp only [connStep, hrecv] at h ⊢
          rcases AiVersion.recvPacket_sequence hrecv with
            ⟨-, hnone⟩ | ⟨buf, rest, hhead, hnew, hstored, hbuf⟩
          · exact absurd rfl (hnone a)
          obtain ⟨body, hbody⟩ := hbuf a rfl
          obtain rfl := Option.some.inj (h.symm.trans hbody)
          have hseq : headSequence (buf ++ body) = headSequence buf :=
            getBE_append_left (AiVersion.readHead_le hhead) body
          rw [hseq]
          refine ⟨hbody, hnew, fun hwraps ↦ ?_⟩
          have hlast : headSequence buf ≠ 0xffff := fun hlast ↦ hwraps ⟨buf, rest, hhead, hlast⟩
          have hlt := headSequence_lt buf
          rw [hstored, if_neg (by omega)]
      | lost rc => simp [connStep, hrecv] at h
      | rejected why rc => simp [connStep, hrecv] at h
      | noMemory => simp [connStep, hrecv] at h
      | undefined => simp [connStep, hrecv] at h

end Receive

section Replay

variable {cfg : AiConfig} {c : AiCipher} {v : AiVersion} {keys : ConnKeys} {steps : List ConnStep}

theorem acceptedAt_connLog (i : ℕ) :
    acceptedAt (connLog cfg c v keys steps) i = steps[i]?.bind fun x ↦
      (connStep cfg c v ((connMachine cfg c v).final keys.start (steps.take i)) x).2.accepted := by
  rw [acceptedAt, connLog, Mealy.outputs_getElem?, Option.bind_map]
  rfl

theorem final_sequence_le (cfg : AiConfig) (c : AiCipher) (keys : ConnKeys) {i j : ℕ} (hij : i ≤ j)
    (hj : j ≤ steps.length)
    (h : ∀ (k : ℕ) (x : ConnStep), i ≤ k → k < j → steps[k]? = some x → ¬x.Wraps v) :
    ((connMachine cfg c v).final keys.start (steps.take i)).inn.sequenceIn ≤
      ((connMachine cfg c v).final keys.start (steps.take j)).inn.sequenceIn := by
  induction j, hij using Nat.le_induction with
  | base => exact le_rfl
  | succ j hij ih =>
      have hx : steps[j]? = some steps[j] := List.getElem?_eq_getElem hj
      have hle := ih (Nat.le_of_succ_le hj) fun k x hik hkj ↦ h k x hik (Nat.lt_succ_of_lt hkj)
      have hstep := connStep_sequence_le cfg c
        ((connMachine cfg c v).final keys.start (steps.take j))
        (h j _ hij (Nat.lt_succ_self j) hx)
      rw [Mealy.final_take_succ _ _ hx]
      exact hle.trans hstep

theorem acceptsOnce_of_notAfterWrap (h : NotAfterWrap v steps) :
    AcceptsOnce (connLog cfg c v keys steps) := by
  intro i j pkt hij hi hj
  rw [acceptedAt_connLog] at hi hj
  obtain ⟨x, hx, hxacc⟩ := Option.bind_eq_some_iff.mp hi
  obtain ⟨y, hy, hyacc⟩ := Option.bind_eq_some_iff.mp hj
  obtain ⟨hxbrings, -, hstored⟩ := connStep_accepted hxacc
  obtain ⟨hybrings, hnewer, -⟩ := connStep_accepted hyacc
  have hnowrap : ∀ (k : ℕ) (z : ConnStep), i ≤ k → k < j → steps[k]? = some z → ¬z.Wraps v :=
    fun k z hik hkj hz ↦ h i k j x z y pkt hik hkj hx hz hy hxbrings hybrings
  have hlen : j ≤ steps.length := (List.getElem?_eq_some_iff.mp hy).1.le
  have hmono := final_sequence_le cfg c keys hij hlen
    fun k z hik hkj ↦ hnowrap k z (Nat.le_of_succ_le hik) hkj
  rw [Mealy.final_take_succ _ _ hx] at hmono
  have hseq := hstored (hnowrap i x le_rfl hij hx)
  simp only [connMachine] at hmono hseq hnewer
  omega

/-- In a connection the nonces are fresh and every packet is accepted once, when the packets
with different plaintexts have different numbers (the first version has none) and no
packet arrives again after a wrap.  For the nonces this is exact, among the packets that
are produced. -/
theorem connection_nonces_and_replay {steps : List ConnStep} (hsend : NumbersFresh v steps)
    (hrecv : NotAfterWrap v steps) (cfg : AiConfig) (c : AiCipher) (keys : ConnKeys) :
    NoncesFresh (connLog cfg c v keys steps) ∧ AcceptsOnce (connLog cfg c v keys steps) :=
  ⟨noncesFresh_iff.mpr (producedFresh_of_numbersFresh hsend), acceptsOnce_of_notAfterWrap hrecv⟩

end Replay

/-! ## Two connections -/

def sampleKeys : ConnKeys := ⟨sampleCryptKey, sampleSignKey, sampleIv, by decide, sampleIv_length⟩

/-- A PING packet with one attribute. -/
def pingReq (data : List UInt8) : WriteReq where
  type := 4
  attrs := [⟨11, .u8 1, pingAttr_lt⟩]
  data := data
  frag := .noFrag
  originLen := data.length
  env := ⟨true, true, none⟩
  writer := none
  rand := 0
  rsa := .error oprtComError

/-- The values for a second PING packet, with another byte of data. -/
def secondValues : CipherValues where
  key := sampleCryptKey
  nonce := sampleIv
  data := [9, 0, 0, 0, 8, 0, 11, 1, 0, 0, 0, 1, 1, 0, 0, 0, 3, 1, 2, 4] ++ List.replicate 12 12
  ct :=
    [194, 204, 164, 230, 20, 129, 18, 238, 190, 3, 14, 170, 4, 51, 254, 158, 159, 204, 96, 226,
      220, 232, 28, 200, 105, 45, 136, 56, 51, 182, 248, 227]
  tag := [156, 95, 174, 23, 108, 89, 132, 77, 43, 89, 127, 132, 144, 114, 74, 169]
  signKey := sampleSignKey
  macs :=
    sampleValues.macs ++ forgedValues.macs ++
      [([1, 0, 2, 9, 0] ++ sampleIv ++ [0, 0, 0, 80, 194, 204, 164, 230, 20, 129, 18, 159, 204,
          96, 226, 220, 232, 28, 200, 105, 45, 136, 56, 51, 182, 248, 227, 156, 95, 174, 23, 108,
          89, 132, 77, 43, 89, 127, 132, 144, 114, 74, 169],
        [128, 168, 242, 107, 67, 71, 121, 134, 235, 142, 216, 71, 253, 63, 104, 29, 127, 81, 227,
          109, 134, 178, 133, 120, 176, 215, 101, 122, 184, 220, 8, 65])]

/-- The cipher library by the values of both packets. -/
def twoValues : AiCipher where
  encrypt key nonce data :=
    if data = sampleValues.data then sampleValues.cipher.encrypt key nonce data
    else secondValues.cipher.encrypt key nonce data
  decrypt key nonce data tag :=
    if data = sampleValues.ct then sampleValues.cipher.decrypt key nonce data tag
    else secondValues.cipher.decrypt key nonce data tag
  sha256Mac := secondValues.cipher.sha256Mac

/-- The PING packet as the peer sends it. -/
def pingPacket : List UInt8 :=
  packetBytes twoValues sampleSignKey ⟨1, 1, true, 4, .noFrag, 0⟩ sampleIv
    (sampleValues.ct ++ sampleValues.tag)

def arrives (pkt : List UInt8) : ConnStep := .recv true [.chunk pkt]

/-- One packet is sent, and one arrives twice. -/
def quietSteps : List ConnStep :=
  [.write (pingReq [1, 2, 3]), arrives pingPacket, arrives pingPacket]

theorem pingPacket_not_wraps : ¬(arrives pingPacket).Wraps .v1 := by
  rintro ⟨buf, rest, hhead, hlast⟩
  have hread : aiBaiscReadPktHead [.chunk pingPacket] =
      .head (pingPacket.take (aiGetHeadLen pingPacket))
        [.chunk (pingPacket.drop (aiGetHeadLen pingPacket))] := by
    decide +kernel
  cases hread.symm.trans hhead
  exact absurd hlast (by decide)

/-- The packet is accepted once. -/
theorem connection_nonces_and_replay_quiet :
    acceptedAt (connLog sampleConfig twoValues .v1 sampleKeys quietSteps) 1 = some pingPacket ∧
    NoncesFresh (connLog sampleConfig twoValues .v1 sampleKeys quietSteps) ∧
    AcceptsOnce (connLog sampleConfig twoValues .v1 sampleKeys quietSteps) := by
  refine ⟨by decide +kernel, connection_nonces_and_replay ?_ ?_ sampleConfig twoValues sampleKeys⟩
  · intro i j ri rj hij hi hj
    rcases j with _ | _ | _ | j
    · exact absurd hij (Nat.not_lt_zero i)
    · cases hj
    · cases hj
    · cases hj
  · intro i k j si sk sj pkt hik hkj hi hk hj _ _
    rcases k with _ | _ | _ | k
    · cases hk
      exact not_false
    · cases hk
      exact pingPacket_not_wraps
    · cases hk
      exact pingPacket_not_wraps
    · cases hk

/-- Two packets are sent, and one arrives again behind a forged one. -/
def busySteps : List ConnStep :=
  [.write (pingReq [1, 2, 3]), .write (pingReq [1, 2, 4]), arrives pingPacket,
    arrives (forgedPacket 0xffff), arrives pingPacket]

/-- The two packets have one nonce, and the third is accepted twice. -/
theorem nonce_reused_and_packet_replayed :
    ¬NoncesFresh (connLog sampleConfig twoValues .v1 sampleKeys busySteps) ∧
    ¬AcceptsOnce (connLog sampleConfig twoValues .v1 sampleKeys busySteps) := by
  constructor
  · intro h
    have hfirst : encryptedAt (connLog sampleConfig twoValues .v1 sampleKeys busySteps) 0 =
        some ⟨sampleIv, sampleValues.data⟩ := by decide +kernel
    have hsecond : encryptedAt (connLog sampleConfig twoValues .v1 sampleKeys busySteps) 1 =
        some ⟨sampleIv, secondValues.data⟩ := by decide +kernel
    exact h 0 1 _ _ Nat.one_pos hfirst hsecond (by decide) rfl
  · intro h
    have hfirst : acceptedAt (connLog sampleConfig twoValues .v1 sampleKeys busySteps) 2 =
        some pingPacket := by decide +kernel
    have hsecond : acceptedAt (connLog sampleConfig twoValues .v1 sampleKeys busySteps) 4 =
        some pingPacket := by decide +kernel
    exact h 2 4 _ (by decide) hfirst hsecond

end TuyaOpen.Ai
