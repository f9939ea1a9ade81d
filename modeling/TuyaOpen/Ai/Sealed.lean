import TuyaOpen.Ai.Recv
import TuyaOpen.Lib.Pkcs7

/-!
# A packet is read as it was written

The fields of a written packet, and what a receiver with the same keys makes of it.
-/

namespace TuyaOpen.Ai

open Bytes ChunkStream

/-! ## The fields of a written packet -/

theorem FragFlag.decode_toNat (f : FragFlag) : FragFlag.decode f.toNat = f := by
  cases f <;> rfl

theorem FragFlag.toNat_lt (f : FragFlag) : f.toNat < 4 := by
  cases f <;> decide

section Written

variable {h : AiPacketHead} {rest : List UInt8}

theorem headFlags_bytes (hsl : h.securityLevel < 32) :
    headFlags (h.bytes ++ rest) =
      (if h.ivFlag then 1 else 0) + h.securityLevel * 2 + h.fragFlag.toNat * 64 := by
  have hfrag := h.fragFlag.toNat_lt
  have hiv : (if h.ivFlag = true then 1 else 0) < 2 := by split_ifs <;> omega
  have hbyte : (h.bytes ++ rest).getD 3 0 =
      UInt8.ofNat ((if h.ivFlag then 1 else 0) + h.securityLevel * 2 + h.fragFlag.toNat * 64) :=
    rfl
  rw [headFlags, hbyte, UInt8.toNat_ofNat']
  exact Nat.mod_eq_of_lt (by omega)

theorem headIvFlag_bytes (hsl : h.securityLevel < 32) :
    headIvFlag (h.bytes ++ rest) = h.ivFlag := by
  rw [headIvFlag, headFlags_bytes hsl]
  cases h.ivFlag with
  | false =>
      have hmod : (0 + h.securityLevel * 2 + h.fragFlag.toNat * 64) % 2 ≠ 1 := by omega
      simpa using hmod
  | true =>
      have hmod : (1 + h.securityLevel * 2 + h.fragFlag.toNat * 64) % 2 = 1 := by omega
      simpa using hmod

theorem headFragFlag_bytes (hsl : h.securityLevel < 32) :
    headFragFlag (h.bytes ++ rest) = h.fragFlag := by
  have hiv : (if h.ivFlag = true then 1 else 0) < 2 := by split_ifs <;> omega
  have hdiv : ((if h.ivFlag = true then 1 else 0) + h.securityLevel * 2 + h.fragFlag.toNat * 64) /
      64 = h.fragFlag.toNat := by omega
  rw [headFragFlag, headFlags_bytes hsl, hdiv, FragFlag.decode_toNat]

theorem headSequence_bytes (hseq : h.sequence < 2 ^ 16) :
    headSequence (h.bytes ++ rest) = h.sequence := by
  have hparts : h.bytes ++ rest = [h.version] ++ (encodeBE 2 h.sequence ++
      ([UInt8.ofNat ((if h.ivFlag then 1 else 0) + h.securityLevel * 2 + h.fragFlag.toNat * 64),
        h.reserve] ++ rest)) := by
    simp [AiPacketHead.bytes]
  rw [headSequence, hparts]
  exact getBE_append (k := 2) hseq [h.version] _

theorem length_headBytes (h : AiPacketHead) : h.bytes.length = aiPacketHeadLen := by
  simp [AiPacketHead.bytes, aiPacketHeadLen]

end Written

section Packet

variable {c : AiCipher} {signKey : List UInt8} {h : AiPacketHead} {iv payload : List UInt8}

/-- Head, IV and length of a packet. -/
def packetFront (h : AiPacketHead) (iv : List UInt8) (len : ℕ) : List UInt8 :=
  h.bytes ++ (if h.ivFlag then iv else []) ++ encodeBE 4 len

theorem unsignedPacket_eq (h : AiPacketHead) (iv payload : List UInt8) :
    unsignedPacket h iv payload = packetFront h iv (payload.length + aiSignLen) ++ payload := rfl

theorem length_packetFront (h : AiPacketHead) {iv : List UInt8} (hiv : iv.length = aiIvLen)
    (len : ℕ) : (packetFront h iv len).length = aiHeadLen h.ivFlag := by
  rw [packetFront, aiHeadLen, List.length_append, List.length_append, length_headBytes,
    length_encodeBE]
  cases h.ivFlag <;> simp [hiv]

theorem aiGetHeadLen_front (hsl : h.securityLevel < 32) (len : ℕ) (rest : List UInt8) :
    aiGetHeadLen (packetFront h iv len ++ rest) = aiHeadLen h.ivFlag := by
  rw [aiGetHeadLen, packetFront, List.append_assoc, List.append_assoc, headIvFlag_bytes hsl]

theorem aiGetPacketLen_front (hsl : h.securityLevel < 32) (hiv : iv.length = aiIvLen) {len : ℕ}
    (hlen : len < 2 ^ 32) (rest : List UInt8) :
    aiGetPacketLen (packetFront h iv len ++ rest) = len := by
  have hfront : (h.bytes ++ if h.ivFlag then iv else []).length = aiHeadLen h.ivFlag - 4 := by
    rw [List.length_append, length_headBytes, aiHeadLen]
    cases h.ivFlag <;> simp [hiv]
  rw [aiGetPacketLen, aiGetHeadLen_front hsl, ← hfront, packetFront, List.append_assoc]
  exact getBE_append (k := 4) hlen _ rest

theorem storeIv_front (p : AiProtoIn) (hsl : h.securityLevel < 32) (hiv : iv.length = aiIvLen)
    (len : ℕ) (rest : List UInt8) :
    storeIv p (packetFront h iv len ++ rest) =
      if h.ivFlag then { p with decryptIv := iv } else p := by
  rw [storeIv, packetFront, List.append_assoc, List.append_assoc, headIvFlag_bytes hsl]
  cases h.ivFlag with
  | false => rfl
  | true => simp only [if_true, take_drop_append (length_headBytes h) hiv]

end Packet

/-! ## Padding and signature -/

theorem aiEncryptAddPkcs_eq (data : List UInt8) : aiEncryptAddPkcs data = Pkcs7.pad 16 data := rfl

theorem getLastD_aiEncryptAddPkcs (data : List UInt8) :
    ((aiEncryptAddPkcs data).getLastD 0).toNat = 16 - data.length % 16 := by
  rw [aiEncryptAddPkcs_eq, Pkcs7.getLastD_pad (by decide) (by decide), Pkcs7.padLen]

theorem length_aiEncryptAddPkcs (data : List UInt8) :
    (aiEncryptAddPkcs data).length = data.length + (16 - data.length % 16) := by
  rw [aiEncryptAddPkcs_eq, Pkcs7.length_pad, Pkcs7.padLen]

theorem aiEncryptAddPkcs_ne_nil (data : List UInt8) : aiEncryptAddPkcs data ≠ [] := by
  apply List.ne_nil_of_length_pos
  rw [aiEncryptAddPkcs_eq]
  exact Nat.zero_lt_of_lt (Pkcs7.length_lt_length_pad (by decide) data)

theorem decryptLen_aiEncryptAddPkcs {data : List UInt8} (h : data.length < 2 ^ 32) :
    u32 ((aiEncryptAddPkcs data).length +
      (2 ^ 32 - ((aiEncryptAddPkcs data).getLastD 0).toNat)) = data.length := by
  rw [getLastD_aiEncryptAddPkcs, length_aiEncryptAddPkcs, u32]
  omega

theorem aiSignData_append {pkt : List UInt8} {headLen payloadLen : ℕ}
    (h : pkt.length = headLen + payloadLen) (rest : List UInt8) :
    aiSignData (pkt ++ rest) headLen payloadLen = aiSignData pkt headLen payloadLen := by
  rw [aiSignData, aiSignData]
  by_cases hshort : headLen + payloadLen ≤ 64
  · rw [if_pos hshort, if_pos hshort, List.take_append_of_le_length h.ge]
  · have hhead : 32 ≤ pkt.length := by omega
    have hoff : headLen + (if 32 < payloadLen then payloadLen - 32 else 0) ≤ pkt.length := by
      split_ifs <;> omega
    have hcopy : (if 32 < payloadLen then 32 else payloadLen) ≤
        (pkt.drop (headLen + if 32 < payloadLen then payloadLen - 32 else 0)).length := by
      rw [List.length_drop]
      split_ifs <;> omega
    rw [if_neg hshort, if_neg hshort]
    dsimp only
    rw [List.take_append_of_le_length hhead, List.drop_append_of_le_length hoff,
      List.take_append_of_le_length hcopy]

/-! ## Opening a written packet -/

section Whole

variable {c : AiCipher} {signKey : List UInt8} {h : AiPacketHead} {iv payload : List UInt8}

def packetMac (c : AiCipher) (signKey : List UInt8) (h : AiPacketHead) (iv payload : List UInt8) :
    List UInt8 :=
  c.sha256Mac signKey (aiSignData (unsignedPacket h iv payload) (aiHeadLen h.ivFlag) payload.length)

theorem packetBytes_eq (c : AiCipher) (signKey : List UInt8) (h : AiPacketHead)
    (iv payload : List UInt8) :
    packetBytes c signKey h iv payload =
      packetFront h iv (payload.length + aiSignLen) ++
        (payload ++ packetMac c signKey h iv payload) := by
  rw [packetBytes, unsignedPacket_eq, packetMac, unsignedPacket_eq, List.append_assoc]

theorem length_packetBytes (hc : c.Lawful) (hiv : iv.length = aiIvLen) :
    (packetBytes c signKey h iv payload).length =
      aiHeadLen h.ivFlag + (payload.length + aiSignLen) := by
  rw [packetBytes_eq, List.length_append, List.length_append, length_packetFront h hiv, packetMac,
    hc.length_mac]

theorem headFragFlag_packetBytes (hsl : h.securityLevel < 32) :
    headFragFlag (packetBytes c signKey h iv payload) = h.fragFlag := by
  rw [packetBytes_eq, packetFront, List.append_assoc, List.append_assoc]
  exact headFragFlag_bytes hsl

theorem aiSignData_packetBytes (hiv : iv.length = aiIvLen) :
    c.sha256Mac signKey (aiSignData (packetBytes c signKey h iv payload) (aiHeadLen h.ivFlag)
      payload.length) = packetMac c signKey h iv payload := by
  have hlen : (unsignedPacket h iv payload).length = aiHeadLen h.ivFlag + payload.length := by
    rw [unsignedPacket_eq, List.length_append, length_packetFront h hiv]
  rw [packetMac, packetBytes, aiSignData_append hlen]

theorem payload_packetBytes (hiv : iv.length = aiIvLen) :
    ((packetBytes c signKey h iv payload).drop (aiHeadLen h.ivFlag)).take payload.length =
      payload := by
  rw [packetBytes_eq]
  exact take_drop_append (length_packetFront h hiv _) rfl _

theorem mac_packetBytes (hc : c.Lawful) (hiv : iv.length = aiIvLen) :
    ((packetBytes c signKey h iv payload).drop (aiHeadLen h.ivFlag + payload.length)).take
      aiSignLen = packetMac c signKey h iv payload := by
  have hlen : (packetMac c signKey h iv payload).length = aiSignLen := hc.length_mac _ _
  rw [packetBytes_eq, ← List.append_assoc,
    List.drop_left' (by rw [List.length_append, length_packetFront h hiv])]
  exact List.take_of_length_le hlen.le

end Whole

theorem aiOpenPacket_packetBytes {c : AiCipher} (hc : c.Lawful) {h : AiPacketHead}
    {iv plain ct tag : List UInt8} {p : AiProtoIn} (hsl : h.securityLevel < 32)
    (hiv : iv.length = aiIvLen)
    (henc : c.encrypt p.cryptKey iv (aiEncryptAddPkcs plain) = .ok (ct, tag))
    (hfit : (packetBytes c p.signKey h iv (ct ++ tag)).length < 2 ^ 32)
    (hkey : p.decryptIv = iv) (recvLen : ℕ) :
    aiOpenPacket c true p (packetBytes c p.signKey h iv (ct ++ tag)) recvLen =
      .packet
        { fragFlag := h.fragFlag
          plain := aiEncryptAddPkcs plain
          decryptLen := plain.length
          bufLen := (packetBytes c p.signKey h iv (ct ++ tag)).length + aiAddPktLen
          recvLen := recvLen } := by
  have htag : tag.length = 16 := hc.length_tag henc
  have hct : ct.length = plain.length + (16 - plain.length % 16) :=
    (hc.length_encrypt henc).trans (length_aiEncryptAddPkcs plain)
  have hplen : (ct ++ tag).length = ct.length + 16 := by rw [List.length_append, htag]
  have hdec : c.decrypt p.cryptKey p.decryptIv ((ct ++ tag).take ct.length)
      ((ct ++ tag).drop ct.length) = .ok (aiEncryptAddPkcs plain) := by
    rw [List.take_left, List.drop_left, hkey]
    exact hc.decrypt_encrypt henc
  generalize ct ++ tag = payload at hplen hdec hfit ⊢
  have htotal : (packetBytes c p.signKey h iv payload).length =
      aiHeadLen h.ivFlag + (payload.length + aiSignLen) := length_packetBytes hc hiv
  have hsign : aiSignLen = 32 := rfl
  have hheadLen : aiGetHeadLen (packetBytes c p.signKey h iv payload) = aiHeadLen h.ivFlag := by
    rw [packetBytes_eq]
    exact aiGetHeadLen_front hsl _ _
  have hpacketLen : aiGetPacketLen (packetBytes c p.signKey h iv payload) =
      payload.length + aiSignLen := by
    rw [packetBytes_eq]
    exact aiGetPacketLen_front hsl hiv (by omega) _
  have hfrag : headFragFlag (packetBytes c p.signKey h iv payload) = h.fragFlag :=
    headFragFlag_packetBytes hsl
  have hwrap : ¬(payload.length + aiSignLen < aiSignLen ∨
      2 ^ 32 ≤ payload.length + aiSignLen + aiHeadLen h.ivFlag) := by omega
  have htaglen : payload.length - aiGcmTagLen = ct.length := by rw [aiGcmTagLen]; omega
  have hlong : ¬payload.length < aiGcmTagLen := by rw [aiGcmTagLen]; omega
  simp only [aiOpenPacket, hheadLen, hpacketLen, if_neg hwrap, Nat.add_sub_cancel,
    aiSignData_packetBytes hiv, mac_packetBytes hc hiv, payload_packetBytes hiv, ne_eq,
    not_true_eq_false, if_false, Bool.true_eq_false, if_neg hlong, htaglen, hdec,
    if_neg (aiEncryptAddPkcs_ne_nil plain), hfrag,
    decryptLen_aiEncryptAddPkcs (show plain.length < 2 ^ 32 by omega)]
  rw [htotal, Nat.add_comm (payload.length + aiSignLen)]

/-- The state after a packet was taken. -/
def AiProtoIn.taken (p : AiProtoIn) (iv : List UInt8) (sequence : ℕ) : AiProtoIn :=
  { p with decryptIv := iv, sequenceIn := if 0xffff ≤ sequence then 0 else sequence }

theorem recvPacket_stream {c : AiCipher} (hc : c.Lawful) (cfg : AiConfig) (mem : Bool)
    {h : AiPacketHead} {signKey iv payload rest : List UInt8} {p : AiProtoIn} {es : List Event}
    (hsl : h.securityLevel < 32) (hiv : iv.length = aiIvLen)
    (hfit : (packetBytes c signKey h iv payload).length ≤ cfg.maxFragmentLength + aiAddPktLen)
    (hseq : h.sequence < 2 ^ 16) (hnew : p.sequenceIn < h.sequence)
    (hes : Delivers es (packetBytes c signKey h iv payload ++ rest)) (behind : List Event) :
    ∃ es' last, recvPacket cfg c mem p (es ++ behind) =
        (p.taken (if h.ivFlag then iv else p.decryptIv) h.sequence, es' ++ behind,
          aiOpenPacket c mem (p.taken (if h.ivFlag then iv else p.decryptIv) h.sequence)
            (packetBytes c signKey h iv payload) last) ∧
      Delivers es' rest ∧ 0 < last := by
  have hmax := cfg.max_le
  have hadd : aiAddPktLen = 128 := rfl
  have htotal : (packetBytes c signKey h iv payload).length =
      aiHeadLen h.ivFlag + (payload.length + aiSignLen) := length_packetBytes hc hiv
  set pkt := packetBytes c signKey h iv payload with hpkt
  have hbytes : pkt ++ rest = packetFront h iv (payload.length + aiSignLen) ++
      ((payload ++ packetMac c signKey h iv payload) ++ rest) := by
    rw [hpkt, packetBytes_eq, List.append_assoc]
  have hsequence : headSequence (pkt ++ rest) = h.sequence := by
    rw [hbytes, packetFront, List.append_assoc, List.append_assoc]
    exact headSequence_bytes hseq
  have hend : packetEnd (pkt ++ rest) = pkt.length := by
    rw [packetEnd, hbytes, aiGetHeadLen_front hsl, aiGetPacketLen_front hsl hiv (by omega), htotal]
  have hstore : storeSequence (storeIv p (pkt ++ rest)) (pkt ++ rest) =
      p.taken (if h.ivFlag then iv else p.decryptIv) h.sequence := by
    rw [storeSequence, hsequence, hbytes, storeIv_front p hsl hiv, AiProtoIn.taken]
    split_ifs <;> rfl
  have hlong : ¬TooLong cfg (pkt ++ rest) := by
    rw [TooLong, hend, u32_of_lt (by omega)]
    omega
  have hle : packetEnd (pkt ++ rest) ≤ (pkt ++ rest).length := by
    rw [hend, List.length_append]
    omega
  obtain ⟨es', last, hrecv, hdel, hlast⟩ := recvPacket_whole cfg c mem p hes behind hle hlong
    (by rw [hsequence]; exact hnew) (by rw [hend]; omega)
  rw [hend, List.drop_left] at hdel
  rw [hstore, hend, List.take_left] at hrecv
  exact ⟨es', last, hrecv, hdel, hlast⟩

theorem recvPacket_packetBytes {c : AiCipher} (hc : c.Lawful) (cfg : AiConfig) {h : AiPacketHead}
    {iv plain ct tag rest : List UInt8} {p : AiProtoIn} {es : List Event}
    (hsl : h.securityLevel < 32) (hiv : iv.length = aiIvLen)
    (henc : c.encrypt p.cryptKey iv (aiEncryptAddPkcs plain) = .ok (ct, tag))
    (hfit : (packetBytes c p.signKey h iv (ct ++ tag)).length ≤
      cfg.maxFragmentLength + aiAddPktLen)
    (hseq : h.sequence < 2 ^ 16) (hnew : p.sequenceIn < h.sequence)
    (hkey : h.ivFlag = true ∨ p.decryptIv = iv)
    (hes : Delivers es (packetBytes c p.signKey h iv (ct ++ tag) ++ rest)) (behind : List Event) :
    ∃ es' last, recvPacket cfg c true p (es ++ behind) =
        (p.taken iv h.sequence, es' ++ behind,
          .packet
            { fragFlag := h.fragFlag
              plain := aiEncryptAddPkcs plain
              decryptLen := plain.length
              bufLen := (packetBytes c p.signKey h iv (ct ++ tag)).length + aiAddPktLen
              recvLen := last }) ∧
      Delivers es' rest ∧ 0 < last := by
  have hused : (if h.ivFlag then iv else p.decryptIv) = iv := by
    rcases hkey with hflag | hold
    · rw [if_pos hflag]
    · rw [hold, ite_self]
  obtain ⟨es', last, hrecv, hdel, hlast⟩ :=
    recvPacket_stream hc cfg true hsl hiv hfit hseq hnew hes behind
  rw [hused] at hrecv
  refine ⟨es', last, ?_, hdel, hlast⟩
  have hmax := cfg.max_le
  have hadd : aiAddPktLen = 128 := rfl
  have hsmall : (packetBytes c p.signKey h iv (ct ++ tag)).length < 2 ^ 32 := by omega
  rw [hrecv]
  exact congrArg (fun out ↦ (p.taken iv h.sequence, es' ++ behind, out))
    (aiOpenPacket_packetBytes (p := p.taken iv h.sequence) hc hsl hiv henc hsmall rfl last)

/-! ## The cipher library by its values -/

/-- One value of AES-256-GCM, and values of HMAC-SHA256 under one key. -/
structure CipherValues where
  key : List UInt8
  nonce : List UInt8
  data : List UInt8
  ct : List UInt8
  tag : List UInt8
  signKey : List UInt8
  macs : List (List UInt8 × List UInt8)

def CipherValues.cipher (v : CipherValues) : AiCipher where
  encrypt key nonce data :=
    if key = v.key ∧ nonce = v.nonce ∧ data = v.data then .ok (v.ct, v.tag)
    else .error oprtComError
  decrypt key nonce ct tag :=
    if key = v.key ∧ nonce = v.nonce ∧ ct = v.ct ∧ tag = v.tag then .ok v.data
    else .error oprtComError
  sha256Mac key data :=
    match v.macs.find? fun m ↦ key = v.signKey ∧ m.1 = data with
    | some m => m.2
    | none => List.replicate aiSignLen 0

theorem CipherValues.lawful (v : CipherValues) (hct : v.ct.length = v.data.length)
    (htag : v.tag.length = aiGcmTagLen) (hmacs : ∀ m ∈ v.macs, m.2.length = aiSignLen) :
    v.cipher.Lawful := by
  have henc : ∀ {key nonce data ct tag}, v.cipher.encrypt key nonce data = .ok (ct, tag) →
      key = v.key ∧ nonce = v.nonce ∧ data = v.data ∧ ct = v.ct ∧ tag = v.tag := by
    intro key nonce data ct tag h
    simp only [cipher] at h
    split_ifs at h with hval
    obtain ⟨rfl, rfl⟩ := Prod.mk.inj (Except.ok.inj h)
    exact ⟨hval.1, hval.2.1, hval.2.2, rfl, rfl⟩
  constructor
  · intro key nonce data ct tag h
    obtain ⟨rfl, rfl, rfl, rfl, rfl⟩ := henc h
    simp [cipher]
  · intro key nonce data ct tag h
    obtain ⟨rfl, rfl, rfl, rfl, rfl⟩ := henc h
    exact hct
  · intro key nonce data ct tag h
    obtain ⟨rfl, rfl, rfl, rfl, rfl⟩ := henc h
    exact htag
  · intro key nonce ct tag data h
    simp only [cipher] at h
    split_ifs at h with hval
    obtain ⟨-, -, rfl, -⟩ := hval
    rw [← Except.ok.inj h, hct]
  · intro key data
    simp only [cipher]
    split
    · rename_i m hfind
      exact hmacs m (List.mem_of_find?_eq_some hfind)
    · exact List.length_replicate

def sampleCryptKey : List UInt8 := (List.range 32).map UInt8.ofNat
def sampleSignKey : List UInt8 := (List.range 32).map fun n ↦ UInt8.ofNat (0x40 + n)
def sampleIv : List UInt8 := (List.range 16).map fun n ↦ UInt8.ofNat (0x20 + n)

theorem sampleIv_length : sampleIv.length = aiIvLen := by decide

/-- A connection before its first packet. -/
def readyProto : AiProtoOut :=
  ⟨sampleCryptKey, sampleSignKey, sampleIv, 1, true, sampleIv_length, Nat.one_pos, firstSequence_lt⟩

theorem pingAttr_lt : (AttrValue.u8 1).length < 2 ^ 32 := by decide

/-- The values for a PING packet with one attribute and three bytes. -/
def sampleValues : CipherValues where
  key := sampleCryptKey
  nonce := sampleIv
  data := [9, 0, 0, 0, 8, 0, 11, 1, 0, 0, 0, 1, 1, 0, 0, 0, 3, 1, 2, 3] ++ List.replicate 12 12
  ct :=
    [194, 204, 164, 230, 20, 129, 18, 238, 190, 3, 14, 170, 4, 51, 254, 158, 159, 204, 96, 229,
      220, 232, 28, 200, 105, 45, 136, 56, 51, 182, 248, 227]
  tag := [219, 226, 56, 0, 223, 145, 252, 81, 173, 125, 240, 74, 11, 179, 101, 26]
  signKey := sampleSignKey
  macs :=
    [([1, 0, 1, 9, 0] ++ sampleIv ++ [0, 0, 0, 80, 194, 204, 164, 230, 20, 129, 18, 159, 204, 96,
        229, 220, 232, 28, 200, 105, 45, 136, 56, 51, 182, 248, 227, 219, 226, 56, 0, 223, 145,
        252, 81, 173, 125, 240, 74, 11, 179, 101, 26],
      [43, 85, 137, 127, 48, 175, 189, 214, 27, 247, 48, 106, 166, 110, 140, 35, 2, 13, 212, 78,
        202, 222, 17, 210, 76, 175, 186, 116, 206, 1, 126, 145])]

end TuyaOpen.Ai
