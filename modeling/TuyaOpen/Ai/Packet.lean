import TuyaOpen.Common.ErrorCode
import TuyaOpen.Lib.Bytes

/-!
# Packets of `tuya_ai_protocol.c`

A packet of `AI_VERSION` 0x01 is a head, an IV unless the flags say otherwise, a
length, the encrypted payload and a signature.  The payload starts with its type,
the attributes and the length of the whole message, which only the first of
several fragments has.  AES-GCM and HMAC-SHA256 belong to the cipher library and
are parameters.
-/

namespace TuyaOpen.Ai

open Bytes

def aiKeyLen : ℕ := 32
def aiIvLen : ℕ := 16
def aiSignLen : ℕ := 32
def aiGcmTagLen : ℕ := 16
def aiAddPktLen : ℕ := 128
def aiMaxAttrNum : ℕ := 10
def aiPacketHeadLen : ℕ := 5
def aiPtClientHello : UInt8 := 1
def aiPtAuthResp : UInt8 := 3
def aiPtPong : UInt8 := 5
def aiPtConnClose : UInt8 := 6
def aiPtConnRefreshResp : UInt8 := 10
def aiPtDelayDisconnect : UInt8 := 12

def aiPacketSl0 : ℕ := 0
def aiPacketSl4 : ℕ := 4

def u32 (n : ℕ) : ℕ := n % 2 ^ 32

theorem u32_of_lt {n : ℕ} (h : n < 2 ^ 32) : u32 n = n := Nat.mod_eq_of_lt h

/-- The fragment length of a build.  `Kconfig` gives the range. -/
structure AiConfig where
  maxFragmentLength : ℕ
  le_max : 1024 ≤ maxFragmentLength
  max_le : maxFragmentLength ≤ 512000

/-- AES-256-GCM without additional data, and HMAC-SHA256. -/
structure AiCipher where
  encrypt (key nonce data : List UInt8) : Except OperateRet (List UInt8 × List UInt8)
  decrypt (key nonce data tag : List UInt8) : Except OperateRet (List UInt8)
  sha256Mac (key data : List UInt8) : List UInt8

/-- AES-GCM keeps lengths and decryption undoes encryption; a MAC has 32 bytes. -/
structure AiCipher.Lawful (c : AiCipher) : Prop where
  decrypt_encrypt {key nonce data ct tag} :
    c.encrypt key nonce data = .ok (ct, tag) → c.decrypt key nonce ct tag = .ok data
  length_encrypt {key nonce data ct tag} :
    c.encrypt key nonce data = .ok (ct, tag) → ct.length = data.length
  length_tag {key nonce data ct tag} :
    c.encrypt key nonce data = .ok (ct, tag) → tag.length = aiGcmTagLen
  length_decrypt {key nonce ct tag data} :
    c.decrypt key nonce ct tag = .ok data → data.length = ct.length
  length_mac (key data) : (c.sha256Mac key data).length = aiSignLen

/-- A call that does not succeed returned a code, or did what C leaves undefined. -/
inductive Fault where
  | ret (rc : OperateRet)
  | undefined
  deriving DecidableEq

inductive FragFlag where
  | noFrag
  | start
  | ing
  | stop
  deriving DecidableEq

def FragFlag.toNat : FragFlag → ℕ
  | noFrag => 0
  | start => 1
  | ing => 2
  | stop => 3

def FragFlag.decode (n : ℕ) : FragFlag :=
  if n = 0 then noFrag else if n = 1 then start else if n = 2 then ing else stop

/-! ## Attributes -/

/-- A value under its payload type.  `other` is a type the packer does not know. -/
inductive AttrValue where
  | u8 (v : UInt8)
  | u16 (v : UInt16)
  | u32 (v : UInt32)
  | u64 (v : UInt64)
  | bytes (v : List UInt8)
  | str (v : List UInt8)
  | other (payloadType : UInt8) (length : ℕ)
  deriving DecidableEq

def AttrValue.payloadType : AttrValue → UInt8
  | u8 _ => 1
  | u16 _ => 2
  | u32 _ => 3
  | u64 _ => 4
  | bytes _ => 5
  | str _ => 6
  | other payloadType _ => payloadType

def AttrValue.wire : AttrValue → Option (List UInt8)
  | u8 v => some [v]
  | u16 v => some (encodeBE 2 v.toNat)
  | u32 v => some (encodeBE 4 v.toNat)
  | u64 v => some (encodeBE 8 v.toNat)
  | bytes v => some v
  | str v => some v
  | other _ _ => none

def AttrValue.length : AttrValue → ℕ
  | u8 _ => 1
  | u16 _ => 2
  | u32 _ => 4
  | u64 _ => 8
  | bytes v => v.length
  | str v => v.length
  | other _ length => length

structure AiAttribute where
  type : UInt16
  value : AttrValue
  length_lt : value.length < 2 ^ 32

def AiAttribute.head (a : AiAttribute) : List UInt8 :=
  encodeBE 2 a.type.toNat ++ a.value.payloadType :: encodeBE 4 a.value.length

structure AiSendPacket where
  type : UInt8
  attrs : List AiAttribute
  data : List UInt8
  attrs_le : attrs.length ≤ aiMaxAttrNum
  data_lt : data.length < 2 ^ 32

/-! ## Lengths -/

def aiGetSendAttrLen (attrs : List AiAttribute) : ℕ :=
  if attrs = [] then 0 else u32 (4 + (attrs.map fun a ↦ 7 + a.value.length).sum)

def tuyaAiIsNeedAttr (frag : FragFlag) : Bool := frag = .noFrag ∨ frag = .start

def aiGetSendPayloadLen (attrs : List AiAttribute) (len : ℕ) (frag : FragFlag) : ℕ :=
  if tuyaAiIsNeedAttr frag then u32 (1 + aiGetSendAttrLen attrs + 4 + len) else u32 len

/-- `writer` says whether the packet has a writer of its own. -/
def aiGetSl (type : UInt8) (writer : Bool) : ℕ :=
  if writer then aiPacketSl0 else if type = aiPtClientHello then aiPacketSl0 else aiPacketSl4

def aiIsNeedIv (type : UInt8) (writer : Bool) (frag : FragFlag) : Bool :=
  if writer then false
  else if type = aiPtClientHello ∨ frag = .ing ∨ frag = .stop then false else true

def aiHeadLen (iv : Bool) : ℕ := aiPacketHeadLen + (if iv then aiIvLen else 0) + 4

def aiGetSendPktLen (type : UInt8) (writer : Bool) (attrs : List AiAttribute) (len : ℕ)
    (frag : FragFlag) : ℕ :=
  u32 (aiHeadLen (aiIsNeedIv type writer frag) + aiGetSendPayloadLen attrs len frag + aiSignLen +
    (if aiGetSl type writer = aiPacketSl0 then 0 else aiAddPktLen))

/-! ## The payload -/

def payloadHead (type : UInt8) (attrs : List AiAttribute) : UInt8 :=
  UInt8.ofNat ((if attrs = [] then 0 else 1) + type.toNat % 128 * 2)

/-- The loop over the attributes, appending to a buffer of `cap` bytes. -/
def packAttrs (cap : ℕ) : List AiAttribute → List UInt8 → Except Fault (List UInt8)
  | [], buf => .ok buf
  | a :: rest, buf =>
      match a.value.wire with
      | none =>
          if cap < buf.length + 7 then .error .undefined else .error (.ret oprtComError)
      | some v =>
          if cap < buf.length + 7 + v.length then .error .undefined
          else packAttrs cap rest (buf ++ a.head ++ v)

/-- The start of a payload: its head and the length of the attributes. -/
def payloadStart (type : UInt8) (attrs : List AiAttribute) : List UInt8 :=
  payloadHead type attrs ::
    (if attrs = [] then [] else encodeBE 4 (aiGetSendAttrLen attrs + (2 ^ 32 - 4)))

/-- The payload before encryption, in a buffer of the announced length. -/
def aiPlainPayload (type : UInt8) (attrs : List AiAttribute) (data : List UInt8) (frag : FragFlag)
    (originLen : ℕ) : Except Fault (List UInt8) :=
  let packetLen := aiGetSendPayloadLen attrs data.length frag
  if tuyaAiIsNeedAttr frag then
    match packAttrs packetLen attrs (payloadStart type attrs) with
    | .error e => .error e
    | .ok buf =>
        if packetLen < buf.length + 4 + data.length then .error .undefined
        else .ok (buf ++ encodeBE 4 originLen ++ data)
  else .ok data

def aiEncryptAddPkcs (data : List UInt8) : List UInt8 :=
  data ++ List.replicate (16 - data.length % 16) (UInt8.ofNat (16 - data.length % 16))

def aiEncryptPacket (c : AiCipher) (key iv : List UInt8) (sl : ℕ) (data : List UInt8) :
    Except OperateRet (List UInt8) :=
  if sl = aiPacketSl4 then
    match c.encrypt key iv (aiEncryptAddPkcs data) with
    | .error e => .error e
    | .ok (ct, tag) => .ok (ct ++ tag)
  else .ok data

/-! ## The signature -/

/-- What is signed: all of a short packet, else its first 32 bytes and the last 32
bytes of its payload. -/
def aiSignData (pkt : List UInt8) (headLen payloadLen : ℕ) : List UInt8 :=
  if headLen + payloadLen ≤ 64 then pkt.take (headLen + payloadLen)
  else
    let offset := if 32 < payloadLen then payloadLen - 32 else 0
    let copyLen := if 32 < payloadLen then 32 else payloadLen
    pkt.take 32 ++ (pkt.drop (headLen + offset)).take copyLen ++ List.replicate (32 - copyLen) 0

/-! ## Writing a packet -/

structure AiPacketHead where
  version : UInt8
  sequence : ℕ
  ivFlag : Bool
  securityLevel : ℕ
  fragFlag : FragFlag
  reserve : UInt8

def AiPacketHead.bytes (h : AiPacketHead) : List UInt8 :=
  h.version :: encodeBE 2 h.sequence ++
    [UInt8.ofNat ((if h.ivFlag then 1 else 0) + h.securityLevel * 2 + h.fragFlag.toNat * 64),
      h.reserve]

/-- A packet up to its signature. -/
def unsignedPacket (h : AiPacketHead) (iv payload : List UInt8) : List UInt8 :=
  h.bytes ++ (if h.ivFlag then iv else []) ++ encodeBE 4 (payload.length + aiSignLen) ++ payload

def packetBytes (c : AiCipher) (signKey : List UInt8) (h : AiPacketHead) (iv payload : List UInt8) :
    List UInt8 :=
  let pkt := unsignedPacket h iv payload
  pkt ++ c.sha256Mac signKey (aiSignData pkt (aiHeadLen h.ivFlag) payload.length)

theorem firstSequence_lt : 1 < 2 ^ 16 := by decide

/-- The fields of `AI_BASIC_PROTO_T` that sending uses.  The sequence number is never
zero: it starts at one, and the counter skips zero when it wraps. -/
structure AiProtoOut where
  cryptKey : List UInt8
  signKey : List UInt8
  encryptIv : List UInt8
  sequenceOut : ℕ
  connected : Bool
  iv_length : encryptIv.length = aiIvLen
  sequence_pos : 0 < sequenceOut
  sequence_lt : sequenceOut < 2 ^ 16

def nextSequence (n : ℕ) : ℕ := if (n + 1) % 2 ^ 16 = 0 then 1 else (n + 1) % 2 ^ 16

theorem nextSequence_pos (n : ℕ) : 0 < nextSequence n := by
  rw [nextSequence]
  split_ifs with h
  · exact Nat.one_pos
  · exact Nat.pos_of_ne_zero h

theorem nextSequence_lt (n : ℕ) : nextSequence n < 2 ^ 16 := by
  rw [nextSequence]
  split_ifs
  · norm_num
  · exact Nat.mod_lt _ (by norm_num)

def AiProtoOut.advance (p : AiProtoOut) : AiProtoOut :=
  { p with
    sequenceOut := nextSequence p.sequenceOut
    sequence_pos := nextSequence_pos _
    sequence_lt := nextSequence_lt _ }

def writeHead (p : AiProtoOut) (type : UInt8) (frag : FragFlag) : AiPacketHead where
  version := 1
  sequence := p.sequenceOut
  ivFlag := aiIsNeedIv type false frag
  securityLevel := aiGetSl type false
  fragFlag := frag
  reserve := 0

/-- What one packet meets on its way: memory for the packet and for the payload,
and whether the transporter fails after some bytes. -/
structure WriteEnv where
  packetMem : Bool
  payloadMem : Bool
  failAfter : Option ℕ

/-- One call of `__ai_packet_write`: the packet or why there is none, and the bytes
that reached the transporter. -/
structure WriteResult where
  proto : AiProtoOut
  ret : Except Fault Unit
  sent : List UInt8

/-- The packet of a fragment, with the default writer. -/
def aiPacketBuild (cfg : AiConfig) (c : AiCipher) (env : WriteEnv) (p : AiProtoOut) (type : UInt8)
    (attrs : List AiAttribute) (data : List UInt8) (frag : FragFlag) (originLen : ℕ) :
    Except Fault (List UInt8) :=
  let uncryptLen := aiGetSendPktLen type false attrs data.length frag
  if cfg.maxFragmentLength < uncryptLen then .error (.ret oprtComError)
  else if env.packetMem = false then .error (.ret oprtMallocFailed)
  else if env.payloadMem = false then .error (.ret oprtMallocFailed)
  else
    match aiPlainPayload type attrs data frag originLen with
    | .error e => .error e
    | .ok plain =>
        match aiEncryptPacket c p.cryptKey p.encryptIv (aiGetSl type false) plain with
        | .error e => .error (.ret e)
        | .ok payload =>
            let pkt := packetBytes c p.signKey (writeHead p type frag) p.encryptIv payload
            if uncryptLen < pkt.length then .error .undefined else .ok pkt

def aiPacketWrite (cfg : AiConfig) (c : AiCipher) (env : WriteEnv) (p : AiProtoOut) (type : UInt8)
    (attrs : List AiAttribute) (data : List UInt8) (frag : FragFlag) (originLen : ℕ) :
    WriteResult :=
  match aiPacketBuild cfg c env p type attrs data frag originLen with
  | .error e => ⟨p.advance, .error e, []⟩
  | .ok pkt =>
      match env.failAfter with
      | some n => ⟨p.advance, .error (.ret oprtComError), pkt.take n⟩
      | none => ⟨p.advance, .ok (), pkt⟩

end TuyaOpen.Ai
