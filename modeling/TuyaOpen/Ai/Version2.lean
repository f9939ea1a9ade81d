import TuyaOpen.Ai.Recv

/-!
# Packets of `AI_VERSION` 0x02

A packet of this version has a shorter head, no signature and no IV: the nonce is the
start of the key with the sequence number in its last two bytes.  A CLIENT_HELLO has the
key in front, under RSA, and a nonce with a random number.
-/

namespace TuyaOpen.Ai

open Bytes ChunkStream

def aiPacketRsa : ℕ := 6
def aiRsaPktLen : ℕ := 256
def aiPacketHeadLenV2 : ℕ := 3

/-- The mask is xored with the number in its last two bytes. -/
def xorIvmaskWithSequence (ivmask : List UInt8) (sequence : ℕ) : List UInt8 :=
  List.zipWith (· ^^^ ·) ivmask (List.replicate 14 0 ++ encodeBE 2 sequence)

/-- `iv_mask` is filled when the key is generated. -/
def ivMask (cryptKey : List UInt8) : List UInt8 := cryptKey.take aiIvLen

/-! ## Lengths and payload -/

def aiGetSlV2 (type : UInt8) (writer : Bool) : ℕ :=
  if writer then aiPacketSl0 else if type = aiPtClientHello then aiPacketRsa else aiPacketSl4

def aiGetSendAttrLenV2 (attrs : List AiAttribute) : ℕ :=
  if attrs = [] then 0 else u32 (4 + (attrs.map fun a ↦ 4 + a.value.length).sum)

def aiGetSendPayloadLenV2 (attrs : List AiAttribute) (len : ℕ) (frag : FragFlag) : ℕ :=
  if tuyaAiIsNeedAttr frag then u32 (1 + aiGetSendAttrLenV2 attrs + len) else u32 len

def aiGetSendPktLenV2 (type : UInt8) (writer : Bool) (attrs : List AiAttribute) (len : ℕ)
    (frag : FragFlag) : ℕ :=
  let payloadLen := aiGetSendPayloadLenV2 attrs len frag
  let sl := aiGetSlV2 type writer
  u32 (aiPacketHeadLenV2 + 2 +
    (if sl = aiPacketRsa then aiRsaPktLen + aiIvLen + payloadLen + aiGcmTagLen else payloadLen) +
    (if sl = aiPacketSl0 then aiSignLen else 0) +
    (if sl ≠ aiPacketSl0 ∧ sl ≠ aiPacketRsa then aiAddPktLen else 0))

/-- An attribute has no payload type in this version, and 16 bits of its length. -/
def AiAttribute.headV2 (a : AiAttribute) : List UInt8 :=
  encodeBE 2 a.type.toNat ++ encodeBE 2 a.value.length

def packAttrsV2 (cap : ℕ) : List AiAttribute → List UInt8 → Except Fault (List UInt8)
  | [], buf => .ok buf
  | a :: rest, buf =>
      match a.value.wire with
      | none =>
          if cap < buf.length + 4 then .error .undefined else .error (.ret oprtComError)
      | some v =>
          if cap < buf.length + 4 + v.length then .error .undefined
          else packAttrsV2 cap rest (buf ++ a.headV2 ++ v)

def payloadStartV2 (type : UInt8) (attrs : List AiAttribute) : List UInt8 :=
  payloadHead type attrs ::
    (if attrs = [] then [] else encodeBE 4 (aiGetSendAttrLenV2 attrs + (2 ^ 32 - 4)))

def aiPlainPayloadV2 (type : UInt8) (attrs : List AiAttribute) (data : List UInt8)
    (frag : FragFlag) : Except Fault (List UInt8) :=
  let packetLen := aiGetSendPayloadLenV2 attrs data.length frag
  if tuyaAiIsNeedAttr frag then
    match packAttrsV2 packetLen attrs (payloadStartV2 type attrs) with
    | .error e => .error e
    | .ok buf =>
        if packetLen < buf.length + data.length then .error .undefined else .ok (buf ++ data)
  else .ok data

/-! ## Writing a packet -/

/-- The nonce of a packet; `rand` is what `rand()` returned for a CLIENT_HELLO. -/
def packetNonceV2 (p : AiProtoOut) (type : UInt8) (rand : ℕ) : List UInt8 :=
  xorIvmaskWithSequence (ivMask p.cryptKey)
    (if type = aiPtClientHello then rand % 255 + 1 else p.sequenceOut)

/-- `__ai_encrypt_packet` without a writer.  `rsa` is the key under RSA. -/
def aiEncryptPacketV2 (c : AiCipher) (rsa : Except OperateRet (List UInt8)) (key nonce : List UInt8)
    (sl : ℕ) (data : List UInt8) : Except OperateRet (List UInt8) :=
  if sl = aiPacketRsa then
    match rsa with
    | .error _ => .error oprtComError
    | .ok sealedKey =>
        match c.encrypt key nonce data with
        | .error e => .error e
        | .ok (ct, tag) => .ok (sealedKey ++ nonce ++ (ct ++ tag))
  else
    match c.encrypt key nonce data with
    | .error e => .error e
    | .ok (ct, tag) => .ok (ct ++ tag)

theorem aiEncryptPacketV2_ok {c : AiCipher} {rsa : Except OperateRet (List UInt8)}
    {key nonce data payload : List UInt8} {sl : ℕ}
    (h : aiEncryptPacketV2 c rsa key nonce sl data = .ok payload) :
    ∃ front ct tag, c.encrypt key nonce data = .ok (ct, tag) ∧ payload = front ++ (ct ++ tag) := by
  simp only [aiEncryptPacketV2] at h
  split_ifs at h
  · split at h
    · cases h
    split at h
    · cases h
    rename_i sealedKey _ ct tag henc
    exact ⟨sealedKey ++ nonce, ct, tag, henc, (Except.ok.inj h).symm⟩
  · split at h
    · cases h
    rename_i ct tag henc
    exact ⟨[], ct, tag, henc, (Except.ok.inj h).symm⟩

def packetHeadV2 (sequence : ℕ) (frag : FragFlag) : List UInt8 :=
  UInt8.ofNat (2 + frag.toNat * 64) :: encodeBE 2 sequence

/-- The packet of a fragment, with the default writer. -/
def aiPacketBuildV2 (cfg : AiConfig) (c : AiCipher) (env : WriteEnv) (rand : ℕ)
    (rsa : Except OperateRet (List UInt8)) (p : AiProtoOut) (type : UInt8)
    (attrs : List AiAttribute) (data : List UInt8) (frag : FragFlag) :
    Except Fault (List UInt8) :=
  let uncryptLen := aiGetSendPktLenV2 type false attrs data.length frag
  if cfg.maxFragmentLength < uncryptLen then .error (.ret oprtComError)
  else if env.packetMem = false then .error (.ret oprtMallocFailed)
  else if env.payloadMem = false then .error (.ret oprtMallocFailed)
  else
    match aiPlainPayloadV2 type attrs data frag with
    | .error e => .error e
    | .ok plain =>
        match aiEncryptPacketV2 c rsa p.cryptKey (packetNonceV2 p type rand)
          (aiGetSlV2 type false) plain with
        | .error e => .error (.ret e)
        | .ok payload =>
            let pkt := packetHeadV2 p.sequenceOut frag ++ encodeBE 2 payload.length ++ payload
            if uncryptLen < pkt.length then .error .undefined else .ok pkt

/-! ## Receiving a packet -/

/-- The head is read with the length of the other version, and so are four bytes of the
payload. -/
def aiBaiscReadPktHeadV2 (es : List Event) : HeadRead :=
  match gather notReady es 0 aiPacketHeadLen [] 0 with
  | .failed got code rest => .lost (if got = 0 then -code else oprtComError) rest
  | .done buf _ rest =>
      match gather notReady rest 0 4 [] 0 with
      | .failed _ _ rest => .lost oprtComError rest
      | .done more _ rest => .head (buf ++ more) rest

def headFragFlagV2 (buf : List UInt8) : FragFlag := .decode ((buf.getD 0 0).toNat / 64)

def aiGetHeadLenV2 : ℕ := aiPacketHeadLenV2 + 2

def aiGetPacketLenV2 (buf : List UInt8) : ℕ := getBE buf aiPacketHeadLenV2 2

def aiOpenPacketV2 (c : AiCipher) (mem : Bool) (p : AiProtoIn) (buf : List UInt8) (recvLen : ℕ) :
    Recv :=
  let payloadLen := aiGetPacketLenV2 buf
  let payload := (buf.drop aiGetHeadLenV2).take payloadLen
  if mem = false then .noMemory
  else if payloadLen < aiGcmTagLen then .undefined
  else
    match c.decrypt p.cryptKey (xorIvmaskWithSequence (ivMask p.cryptKey) (headSequence buf))
      (payload.take (payloadLen - aiGcmTagLen)) (payload.drop (payloadLen - aiGcmTagLen)) with
    | .error _ => .rejected .decryption recvLen
    | .ok plain =>
        .packet
          { fragFlag := headFragFlagV2 buf
            plain := plain
            decryptLen := plain.length
            bufLen := payloadLen + aiGetHeadLenV2 + aiAddPktLen
            recvLen := recvLen }

def recvPacketV2 (cfg : AiConfig) (c : AiCipher) (mem : Bool) (p : AiProtoIn) (es : List Event) :
    AiProtoIn × List Event × Recv :=
  match aiBaiscReadPktHeadV2 es with
  | .lost rc rest => (p, rest, .lost rc)
  | .head buf rest =>
      let total := aiGetPacketLenV2 buf + aiGetHeadLenV2
      if cfg.maxFragmentLength + aiAddPktLen < total then
        (p, rest, .rejected .length oprtResourceNotReady)
      else if headSequence buf ≤ p.sequenceIn then
        (p, rest, .rejected .sequence (aiPacketHeadLen + 4))
      else
        let p := storeSequence p buf
        match gather notReady rest 1 (total - (aiPacketHeadLen + 4)) [] (aiPacketHeadLen + 4) with
        | .failed _ _ rest => (p, rest, .lost oprtComError)
        | .done body last rest => (p, rest, aiOpenPacketV2 c mem p (buf ++ body) last)

end TuyaOpen.Ai
