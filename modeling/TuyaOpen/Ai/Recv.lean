import TuyaOpen.Ai.Packet
import TuyaOpen.Lib.ChunkStream

/-!
# Receiving one packet

The first half of `tuya_ai_basic_pkt_read`: head, length and sequence checks, the
body, signature and decryption.  The IV and the sequence number are stored as they
are read.
-/

namespace TuyaOpen.Ai

open Bytes ChunkStream

/-- The fields of `AI_BASIC_PROTO_T` that receiving a packet uses. -/
structure AiProtoIn where
  cryptKey : List UInt8
  signKey : List UInt8
  decryptIv : List UInt8
  sequenceIn : ℕ
  deriving DecidableEq

/-- The code of `OPRT_RESOURCE_NOT_READY`, which a read that times out returns. -/
def notReady : ℕ := 23

/-! ## The fields of a head -/

def headSequence (buf : List UInt8) : ℕ := getBE buf 1 2
def headFlags (buf : List UInt8) : ℕ := (buf.getD 3 0).toNat
def headIvFlag (buf : List UInt8) : Bool := headFlags buf % 2 = 1
def headFragFlag (buf : List UInt8) : FragFlag := .decode (headFlags buf / 64)
def aiGetHeadLen (buf : List UInt8) : ℕ := aiHeadLen (headIvFlag buf)

def aiGetPacketLen (buf : List UInt8) : ℕ := getBE buf (aiGetHeadLen buf - 4) 4

/-! ## One packet -/

/-- A packet that passed signature and decryption: `plain` is what the decryption left in
`decrypt_buf`, which has `bufLen` bytes, and `recvLen` what the last read returned. -/
structure AuthPacket where
  fragFlag : FragFlag
  plain : List UInt8
  decryptLen : ℕ
  bufLen : ℕ
  recvLen : ℕ
  deriving DecidableEq

inductive Reject where
  | length
  | sequence
  | signature
  | decryption
  deriving DecidableEq

/-- How the first half of a read ends.  All but `packet` and `noMemory` go to `EXIT`, with
the code that is returned there. -/
inductive Recv where
  | packet (pkt : AuthPacket)
  | lost (rc : OperateRet)
  | rejected (why : Reject) (rc : OperateRet)
  | noMemory
  | undefined
  deriving DecidableEq

inductive HeadRead where
  | head (buf : List UInt8) (rest : List Event)
  | lost (rc : OperateRet) (rest : List Event)
  deriving DecidableEq

/-- `__ai_baisc_read_pkt_head`; the IV is stored by the caller. -/
def aiBaiscReadPktHead (es : List Event) : HeadRead :=
  match gather notReady es 0 aiPacketHeadLen [] 0 with
  | .failed got code rest => .lost (if got = 0 then -code else oprtComError) rest
  | .done buf _ rest =>
      match gather notReady rest 0 (aiGetHeadLen buf - aiPacketHeadLen) [] 0 with
      | .failed _ _ rest => .lost oprtComError rest
      | .done more _ rest => .head (buf ++ more) rest

def storeIv (p : AiProtoIn) (buf : List UInt8) : AiProtoIn :=
  if headIvFlag buf then { p with decryptIv := (buf.drop aiPacketHeadLen).take aiIvLen } else p

def storeSequence (p : AiProtoIn) (buf : List UInt8) : AiProtoIn :=
  { p with sequenceIn := if 0xffff ≤ headSequence buf then 0 else headSequence buf }

/-- Signature and decryption of a whole packet in `recv_buf`.  A payload that is too short
makes its length wrap around, and the code then reads outside of its buffer. -/
def aiOpenPacket (c : AiCipher) (mem : Bool) (p : AiProtoIn) (buf : List UInt8) (recvLen : ℕ) :
    Recv :=
  let headLen := aiGetHeadLen buf
  let packetLen := aiGetPacketLen buf
  if packetLen < aiSignLen ∨ 2 ^ 32 ≤ packetLen + headLen then .undefined
  else
    let payloadLen := packetLen - aiSignLen
    let payload := (buf.drop headLen).take payloadLen
    if c.sha256Mac p.signKey (aiSignData buf headLen payloadLen) ≠
        (buf.drop (headLen + payloadLen)).take aiSignLen then
      .rejected .signature oprtResourceNotReady
    else if mem = false then .noMemory
    else if payloadLen < aiGcmTagLen then .undefined
    else
      match c.decrypt p.cryptKey p.decryptIv (payload.take (payloadLen - aiGcmTagLen))
        (payload.drop (payloadLen - aiGcmTagLen)) with
      | .error _ => .rejected .decryption recvLen
      | .ok plain =>
          if plain = [] then .undefined
          else
            .packet
              { fragFlag := headFragFlag buf
                plain := plain
                decryptLen := u32 (plain.length + (2 ^ 32 - (plain.getLastD 0).toNat))
                bufLen := packetLen + headLen + aiAddPktLen
                recvLen := recvLen }

/-- The checks of a head, the body and the whole packet. -/
def recvBody (cfg : AiConfig) (c : AiCipher) (mem : Bool) (p : AiProtoIn) (buf : List UInt8)
    (es : List Event) : AiProtoIn × List Event × Recv :=
  let total := u32 (aiGetPacketLen buf + aiGetHeadLen buf)
  if cfg.maxFragmentLength + aiAddPktLen < total then
    (p, es, .rejected .length oprtResourceNotReady)
  else if headSequence buf ≤ p.sequenceIn then
    (p, es, .rejected .sequence (aiGetHeadLen buf))
  else
    let p := storeSequence p buf
    match gather notReady es 1 (total - aiGetHeadLen buf) [] (aiGetHeadLen buf) with
    | .failed _ _ rest => (p, rest, .lost oprtComError)
    | .done body last rest => (p, rest, aiOpenPacket c mem p (buf ++ body) last)

def recvPacket (cfg : AiConfig) (c : AiCipher) (mem : Bool) (p : AiProtoIn) (es : List Event) :
    AiProtoIn × List Event × Recv :=
  match aiBaiscReadPktHead es with
  | .lost rc rest => (p, rest, .lost rc)
  | .head buf rest => recvBody cfg c mem (storeIv p buf) buf rest

/-! ## Packets that arrive as a whole -/

section Fields

variable {bytes : List UInt8} {n : ℕ}

theorem headFlags_take (hn : 4 ≤ n) : headFlags (bytes.take n) = headFlags bytes := by
  rw [headFlags, headFlags, List.getD_eq_getElem?_getD, List.getD_eq_getElem?_getD,
    List.getElem?_take_of_lt (by omega)]

theorem headIvFlag_take (hn : 4 ≤ n) : headIvFlag (bytes.take n) = headIvFlag bytes := by
  rw [headIvFlag, headIvFlag, headFlags_take hn]

theorem headSequence_take (hn : 3 ≤ n) : headSequence (bytes.take n) = headSequence bytes :=
  getBE_take hn

theorem aiGetHeadLen_take (hn : 4 ≤ n) : aiGetHeadLen (bytes.take n) = aiGetHeadLen bytes := by
  rw [aiGetHeadLen, aiGetHeadLen, headIvFlag_take hn]

theorem aiGetHeadLen_pos (bytes : List UInt8) : 9 ≤ aiGetHeadLen bytes := by
  rw [aiGetHeadLen, aiHeadLen, aiPacketHeadLen]
  omega

theorem aiGetHeadLen_le (bytes : List UInt8) : aiGetHeadLen bytes ≤ 25 := by
  rw [aiGetHeadLen, aiHeadLen, aiPacketHeadLen, aiIvLen]
  split_ifs <;> omega

theorem aiGetPacketLen_take (hn : aiGetHeadLen bytes ≤ n) :
    aiGetPacketLen (bytes.take n) = aiGetPacketLen bytes := by
  have hpos := aiGetHeadLen_pos bytes
  rw [aiGetPacketLen, aiGetPacketLen, aiGetHeadLen_take (by omega), getBE_take (by omega)]

theorem aiGetPacketLen_lt (bytes : List UInt8) : aiGetPacketLen bytes < 2 ^ 32 :=
  getBE_lt _ _ 4

theorem headSequence_lt (bytes : List UInt8) : headSequence bytes < 2 ^ 16 := getBE_lt _ _ 2

theorem storeIv_take (p : AiProtoIn) (hn : aiGetHeadLen bytes ≤ n) :
    storeIv p (bytes.take n) = storeIv p bytes := by
  have hpos := aiGetHeadLen_pos bytes
  rw [storeIv, storeIv, headIvFlag_take (by omega)]
  split_ifs with hiv
  · have hlen : aiGetHeadLen bytes = 25 := by rw [aiGetHeadLen, hiv]; rfl
    rw [List.drop_take, List.take_take, aiIvLen, aiPacketHeadLen, Nat.min_eq_left (by omega)]
  · rfl

theorem storeSequence_take (p : AiProtoIn) (hn : 3 ≤ n) :
    storeSequence p (bytes.take n) = storeSequence p bytes := by
  rw [storeSequence, storeSequence, headSequence_take hn]

end Fields

theorem aiBaiscReadPktHead_delivers {es : List Event} {bytes : List UInt8}
    (h : Delivers es bytes) (behind : List Event) (hlen : aiGetHeadLen bytes ≤ bytes.length) :
    ∃ es', aiBaiscReadPktHead (es ++ behind) =
        .head (bytes.take (aiGetHeadLen bytes)) (es' ++ behind) ∧
      Delivers es' (bytes.drop (aiGetHeadLen bytes)) := by
  have hpos := aiGetHeadLen_pos bytes
  have hfive : aiPacketHeadLen = 5 := rfl
  have hhead : aiPacketHeadLen ≤ bytes.length := by omega
  obtain ⟨_, es₁, hrun₁, hdel₁, -⟩ := gather_delivers h notReady behind hhead 0 [] 0
  have hmore : aiGetHeadLen bytes - aiPacketHeadLen ≤ (bytes.drop aiPacketHeadLen).length := by
    rw [List.length_drop]
    omega
  obtain ⟨_, es₂, hrun₂, hdel₂, -⟩ := gather_delivers hdel₁ notReady behind hmore 0 [] 0
  refine ⟨es₂, ?_, ?_⟩
  · simp only [aiBaiscReadPktHead, hrun₁, List.nil_append]
    rw [aiGetHeadLen_take (by omega)]
    simp only [hrun₂, List.nil_append]
    rw [← List.take_add, Nat.add_sub_of_le (by omega)]
  · rwa [List.drop_drop, Nat.add_sub_of_le (by omega)] at hdel₂

theorem headIvFlag_append {buf : List UInt8} (h : 5 ≤ buf.length) (more : List UInt8) :
    headIvFlag (buf ++ more) = headIvFlag buf := by
  have htake := @headIvFlag_take (buf ++ more) buf.length (by omega)
  rw [List.take_left] at htake
  exact htake.symm

theorem aiBaiscReadPktHead_length {es rest : List Event} {buf : List UInt8}
    (h : aiBaiscReadPktHead es = .head buf rest) : buf.length = aiGetHeadLen buf := by
  have hfive : aiPacketHeadLen = 5 := rfl
  rw [aiBaiscReadPktHead] at h
  split at h
  · cases h
  · next first last rest' hfirst =>
      split at h
      · cases h
      · next more last' rest'' hmore =>
          cases h
          have hlen := gather_length hfirst
          have hlen' := gather_length hmore
          have hpos := aiGetHeadLen_pos first
          rw [List.length_nil, Nat.zero_add] at hlen hlen'
          rw [aiGetHeadLen, headIvFlag_append (by omega), ← aiGetHeadLen, List.length_append]
          omega

theorem recvPacket_delivers (cfg : AiConfig) (c : AiCipher) (mem : Bool) (p : AiProtoIn)
    {es : List Event} {bytes : List UInt8} (h : Delivers es bytes) (behind : List Event)
    (hlen : aiGetHeadLen bytes ≤ bytes.length) :
    ∃ es', recvPacket cfg c mem p (es ++ behind) =
        recvBody cfg c mem (storeIv p bytes) (bytes.take (aiGetHeadLen bytes)) (es' ++ behind) ∧
      Delivers es' (bytes.drop (aiGetHeadLen bytes)) := by
  obtain ⟨es', hhead, hdel⟩ := aiBaiscReadPktHead_delivers h behind hlen
  refine ⟨es', ?_, hdel⟩
  rw [recvPacket, hhead]
  dsimp only
  rw [storeIv_take p le_rfl]

/-- Where the packet at the front of a stream ends. -/
def packetEnd (bytes : List UInt8) : ℕ := aiGetHeadLen bytes + aiGetPacketLen bytes

/-- The length check of `recv_buf`. -/
def TooLong (cfg : AiConfig) (bytes : List UInt8) : Prop :=
  cfg.maxFragmentLength + aiAddPktLen < u32 (packetEnd bytes)

instance (cfg : AiConfig) (bytes : List UInt8) : Decidable (TooLong cfg bytes) :=
  inferInstanceAs (Decidable (_ < _))

section Delivered

variable (cfg : AiConfig) (c : AiCipher) (mem : Bool) (p : AiProtoIn) {es : List Event}
  {bytes : List UInt8}

theorem storeIv_sequenceIn (p : AiProtoIn) (buf : List UInt8) :
    (storeIv p buf).sequenceIn = p.sequenceIn := by
  rw [storeIv]
  split_ifs <;> rfl

theorem recvPacket_tooLong (h : Delivers es bytes) (behind : List Event)
    (hlen : aiGetHeadLen bytes ≤ bytes.length) (hlong : TooLong cfg bytes) :
    ∃ es', recvPacket cfg c mem p (es ++ behind) =
        (storeIv p bytes, es' ++ behind, .rejected .length oprtResourceNotReady) ∧
      Delivers es' (bytes.drop (aiGetHeadLen bytes)) := by
  obtain ⟨es', hrecv, hdel⟩ := recvPacket_delivers cfg c mem p h behind hlen
  have hpos := aiGetHeadLen_pos bytes
  refine ⟨es', ?_, hdel⟩
  rw [TooLong, packetEnd, Nat.add_comm (aiGetHeadLen bytes)] at hlong
  rw [hrecv, recvBody, aiGetPacketLen_take le_rfl, aiGetHeadLen_take (by omega)]
  exact if_pos hlong

theorem recvPacket_stale (h : Delivers es bytes) (behind : List Event)
    (hlen : aiGetHeadLen bytes ≤ bytes.length) (hlong : ¬TooLong cfg bytes)
    (hseq : headSequence bytes ≤ p.sequenceIn) :
    ∃ es', recvPacket cfg c mem p (es ++ behind) =
        (storeIv p bytes, es' ++ behind, .rejected .sequence (aiGetHeadLen bytes)) ∧
      Delivers es' (bytes.drop (aiGetHeadLen bytes)) := by
  obtain ⟨es', hrecv, hdel⟩ := recvPacket_delivers cfg c mem p h behind hlen
  have hpos := aiGetHeadLen_pos bytes
  refine ⟨es', ?_, hdel⟩
  rw [TooLong, packetEnd, Nat.add_comm (aiGetHeadLen bytes)] at hlong
  rw [hrecv, recvBody, aiGetPacketLen_take le_rfl, aiGetHeadLen_take (by omega),
    headSequence_take (by omega), storeIv_sequenceIn]
  dsimp only
  rw [if_neg hlong, if_pos hseq]

theorem recvPacket_whole (h : Delivers es bytes) (behind : List Event)
    (hlen : packetEnd bytes ≤ bytes.length) (hlong : ¬TooLong cfg bytes)
    (hseq : p.sequenceIn < headSequence bytes) (hwrap : packetEnd bytes < 2 ^ 32) :
    ∃ es' last, recvPacket cfg c mem p (es ++ behind) =
        (storeSequence (storeIv p bytes) bytes, es' ++ behind,
          aiOpenPacket c mem (storeSequence (storeIv p bytes) bytes)
            (bytes.take (packetEnd bytes)) last) ∧
      Delivers es' (bytes.drop (packetEnd bytes)) ∧ 0 < last := by
  have hpos := aiGetHeadLen_pos bytes
  have hend : packetEnd bytes = aiGetHeadLen bytes + aiGetPacketLen bytes := rfl
  obtain ⟨es₁, hrecv, hdel₁⟩ := recvPacket_delivers cfg c mem p h behind (by omega)
  have hbody : packetEnd bytes - aiGetHeadLen bytes ≤
      (bytes.drop (aiGetHeadLen bytes)).length := by
    rw [List.length_drop]
    omega
  obtain ⟨last, es₂, hrun, hdel₂, hlast⟩ := gather_delivers hdel₁ notReady behind hbody 1 []
    (aiGetHeadLen bytes)
  have hsplit : aiGetHeadLen bytes + (packetEnd bytes - aiGetHeadLen bytes) = packetEnd bytes := by
    omega
  rw [List.drop_drop, hsplit] at hdel₂
  refine ⟨es₂, last, ?_, hdel₂, hlast (.inl (by omega))⟩
  rw [TooLong, u32_of_lt hwrap] at hlong
  rw [hrecv, recvBody, aiGetPacketLen_take le_rfl, aiGetHeadLen_take (by omega),
    headSequence_take (by omega), storeIv_sequenceIn, storeSequence_take _ (by omega),
    Nat.add_comm (aiGetPacketLen bytes), ← hend, u32_of_lt hwrap]
  dsimp only
  rw [if_neg hlong, if_neg (Nat.not_le.mpr hseq), hrun]
  dsimp only
  rw [List.nil_append, ← List.take_add, hsplit]

/-- A length that wraps around passes the check, and the code reads outside of its buffer. -/
theorem recvPacket_wrap (h : Delivers es bytes) (behind : List Event)
    (hlen : aiGetHeadLen bytes ≤ bytes.length) (hlong : ¬TooLong cfg bytes)
    (hseq : p.sequenceIn < headSequence bytes) (hwrap : 2 ^ 32 ≤ packetEnd bytes) :
    ∃ p' es', recvPacket cfg c mem p (es ++ behind) = (p', es', .undefined) := by
  have hpos := aiGetHeadLen_pos bytes
  have hhead := aiGetHeadLen_le bytes
  have hpkt := aiGetPacketLen_lt bytes
  obtain ⟨es₁, hrecv, -⟩ := recvPacket_delivers cfg c mem p h behind hlen
  have hend : packetEnd bytes = aiGetHeadLen bytes + aiGetPacketLen bytes := rfl
  have hnone : u32 (aiGetPacketLen bytes + aiGetHeadLen bytes) - aiGetHeadLen bytes = 0 := by
    rw [u32]
    omega
  have hwild : aiGetPacketLen bytes < aiSignLen ∨
      2 ^ 32 ≤ aiGetPacketLen bytes + aiGetHeadLen bytes := by omega
  rw [TooLong, hend, Nat.add_comm (aiGetHeadLen bytes)] at hlong
  refine ⟨storeSequence (storeIv p bytes) bytes, es₁ ++ behind, ?_⟩
  rw [hrecv, recvBody, aiGetPacketLen_take le_rfl, aiGetHeadLen_take (by omega),
    headSequence_take (by omega), storeIv_sequenceIn, storeSequence_take _ (by omega)]
  dsimp only
  rw [if_neg hlong, if_neg (Nat.not_le.mpr hseq), hnone, gather_zero]
  dsimp only
  rw [List.append_nil, aiOpenPacket, aiGetPacketLen_take le_rfl, aiGetHeadLen_take (by omega)]
  dsimp only
  rw [if_pos hwild]

end Delivered

end TuyaOpen.Ai
