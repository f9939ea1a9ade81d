import TuyaOpen.Ai.Reassembly
import TuyaOpen.Ai.Sealed

/-!
# Rejected packets

What a packet that is rejected leaves behind.  Its IV is stored with the head and its
sequence number before the signature is checked, and when the length or the sequence
number is refused the body stays in the stream.
-/

namespace TuyaOpen.Ai

open Bytes ChunkStream

/-- A packet that the peer wrote for the state `p`. -/
def Genuine (cfg : AiConfig) (c : AiCipher) (p : AiProtoIn) (pkt : List UInt8) : Prop :=
  ∃ h iv plain ct tag, h.securityLevel < 32 ∧ iv.length = aiIvLen ∧
    c.encrypt p.cryptKey iv (aiEncryptAddPkcs plain) = .ok (ct, tag) ∧
    pkt = packetBytes c p.signKey h iv (ct ++ tag) ∧
    pkt.length ≤ cfg.maxFragmentLength + aiAddPktLen ∧ h.sequence < 2 ^ 16 ∧
    p.sequenceIn < h.sequence ∧ (h.ivFlag = true ∨ p.decryptIv = iv)

/-- The first packet of a call is refused. -/
def Rejects (cfg : AiConfig) (c : AiCipher) (env : ℕ → RecvEnv) (r : AiReader)
    (es : List Event) : Prop :=
  ∃ p rest why rc, recvPacket cfg c (env 0).decryptMem r.proto es = (p, rest, .rejected why rc)

/-- From `p` a call that took the packet at the front of `bytes` came to `p'` with the
events `es'`, and it is as if the packet had not been there. -/
structure LeftAlone (cfg : AiConfig) (c : AiCipher) (p p' : AiProtoIn) (es' behind : List Event)
    (bytes : List UInt8) : Prop where
  sequenceIn : p'.sequenceIn = p.sequenceIn
  decryptIv : p'.decryptIv = p.decryptIv
  aligned : ∃ es, es' = es ++ behind ∧ Delivers es (bytes.drop (packetEnd bytes))
  accepts : ∀ pkt rest, Genuine cfg c p pkt → bytes.drop (packetEnd bytes) = pkt ++ rest →
    ∃ p'' es'' a, recvPacket cfg c true p' es' = (p'', es'' ++ behind, .packet a) ∧
      Delivers es'' rest

/-- The packet has no IV, or the IV that is stored. -/
def KeepsIv (p : AiProtoIn) (bytes : List UInt8) : Prop :=
  headIvFlag bytes = true → (bytes.drop aiPacketHeadLen).take aiIvLen = p.decryptIv

/-- The packets that can be refused without harm: those with an old sequence number and
nothing behind the head, and those with the last sequence number when the stored one is
zero. -/
def Harmless (cfg : AiConfig) (p : AiProtoIn) (bytes : List UInt8) : Prop :=
  KeepsIv p bytes ∧ ¬TooLong cfg bytes ∧
    if headSequence bytes ≤ p.sequenceIn then aiGetPacketLen bytes = 0
    else headSequence bytes = 0xffff ∧ p.sequenceIn = 0

theorem Genuine.accepted {cfg : AiConfig} {c : AiCipher} (hc : c.Lawful) {p : AiProtoIn}
    {pkt rest : List UInt8} (h : Genuine cfg c p pkt) {es : List Event}
    (hes : Delivers es (pkt ++ rest)) (behind : List Event) :
    ∃ p'' es'' a, recvPacket cfg c true p (es ++ behind) = (p'', es'' ++ behind, .packet a) ∧
      Delivers es'' rest := by
  obtain ⟨h, iv, plain, ct, tag, hsl, hiv, henc, rfl, hfit, hseq, hnew, hkey⟩ := h
  obtain ⟨es', last, hrecv, hdel, -⟩ :=
    recvPacket_packetBytes hc cfg hsl hiv henc hfit hseq hnew hkey hes behind
  exact ⟨_, es', _, hrecv, hdel⟩

/-! ## What each refusal changes -/

section Changes

variable {p : AiProtoIn} {bytes : List UInt8}

theorem storeIv_decryptIv_iff : (storeIv p bytes).decryptIv = p.decryptIv ↔ KeepsIv p bytes := by
  rw [storeIv, KeepsIv]
  split_ifs with hiv
  · simp [hiv]
  · simp [hiv]

theorem storeIv_of_keepsIv (h : KeepsIv p bytes) : storeIv p bytes = p := by
  rw [storeIv]
  split_ifs with hiv
  · rw [h hiv]
  · rfl

theorem storeSequence_sequenceIn_iff (hnew : p.sequenceIn < headSequence bytes) :
    (storeSequence (storeIv p bytes) bytes).sequenceIn = p.sequenceIn ↔
      headSequence bytes = 0xffff ∧ p.sequenceIn = 0 := by
  have hlt := headSequence_lt bytes
  rw [storeSequence]
  dsimp only
  split_ifs <;> omega

end Changes

theorem recvPacket_rejected {cfg : AiConfig} {c : AiCipher} {mem : Bool} {p p' : AiProtoIn}
    {es es' : List Event} {bytes : List UInt8} (hes : Delivers es bytes) (behind : List Event)
    (hlen : packetEnd bytes ≤ bytes.length) {why : Reject} {rc : OperateRet}
    (hrecv : recvPacket cfg c mem p (es ++ behind) = (p', es', .rejected why rc)) :
    ((TooLong cfg bytes ∨ headSequence bytes ≤ p.sequenceIn) ∧ p' = storeIv p bytes ∧
      ∃ es₁, es' = es₁ ++ behind ∧ Delivers es₁ (bytes.drop (aiGetHeadLen bytes))) ∨
    (¬TooLong cfg bytes ∧ p.sequenceIn < headSequence bytes ∧
      p' = storeSequence (storeIv p bytes) bytes ∧
      ∃ es₁, es' = es₁ ++ behind ∧ Delivers es₁ (bytes.drop (packetEnd bytes))) := by
  have hend : packetEnd bytes = aiGetHeadLen bytes + aiGetPacketLen bytes := rfl
  have hhead : aiGetHeadLen bytes ≤ bytes.length := by omega
  by_cases hlong : TooLong cfg bytes
  · obtain ⟨es₁, hrun, hdel⟩ := recvPacket_tooLong cfg c mem p hes behind hhead hlong
    obtain ⟨rfl, rfl, -⟩ := Prod.mk.inj (hrecv.symm.trans hrun) |>.imp_right Prod.mk.inj
    exact .inl ⟨.inl hlong, rfl, es₁, rfl, hdel⟩
  by_cases hold : headSequence bytes ≤ p.sequenceIn
  · obtain ⟨es₁, hrun, hdel⟩ := recvPacket_stale cfg c mem p hes behind hhead hlong hold
    obtain ⟨rfl, rfl, -⟩ := Prod.mk.inj (hrecv.symm.trans hrun) |>.imp_right Prod.mk.inj
    exact .inl ⟨.inr hold, rfl, es₁, rfl, hdel⟩
  · have hnew : p.sequenceIn < headSequence bytes := Nat.lt_of_not_le hold
    refine .inr ⟨hlong, hnew, ?_⟩
    by_cases hwrap : packetEnd bytes < 2 ^ 32
    · obtain ⟨es₁, last, hrun, hdel, -⟩ :=
        recvPacket_whole cfg c mem p hes behind hlen hlong hnew hwrap
      obtain ⟨rfl, rfl, -⟩ := Prod.mk.inj (hrecv.symm.trans hrun) |>.imp_right Prod.mk.inj
      exact ⟨rfl, es₁, rfl, hdel⟩
    · obtain ⟨p₁, es₁, hrun⟩ :=
        recvPacket_wrap cfg c mem p hes behind hhead hlong hnew (Nat.not_lt.mp hwrap)
      cases hrecv.symm.trans hrun

theorem LeftAlone.of_same {cfg : AiConfig} {c : AiCipher} (hc : c.Lawful) {p : AiProtoIn}
    {es behind : List Event} {bytes : List UInt8}
    (hdel : Delivers es (bytes.drop (packetEnd bytes))) :
    LeftAlone cfg c p p (es ++ behind) behind bytes where
  sequenceIn := rfl
  decryptIv := rfl
  aligned := ⟨es, rfl, hdel⟩
  accepts _ _ hgenuine hrest := hgenuine.accepted hc (hrest ▸ hdel) behind

theorem no_body_of_aligned {es behind : List Event} {bytes : List UInt8}
    (hlen : packetEnd bytes ≤ bytes.length)
    (hdel : Delivers es (bytes.drop (aiGetHeadLen bytes)))
    (haligned : ∃ es₁, es ++ behind = es₁ ++ behind ∧
      Delivers es₁ (bytes.drop (packetEnd bytes))) :
    aiGetPacketLen bytes = 0 := by
  obtain ⟨es₁, heq, hdel₁⟩ := haligned
  obtain rfl := List.append_cancel_right heq
  have hlength := congrArg List.length (hdel.unique hdel₁)
  rw [List.length_drop, List.length_drop] at hlength
  rw [packetEnd] at hlen hlength
  omega

theorem not_tooLong_of_no_body (cfg : AiConfig) {bytes : List UInt8}
    (h : aiGetPacketLen bytes = 0) : ¬TooLong cfg bytes := by
  have hhead := aiGetHeadLen_le bytes
  have hmin := cfg.le_max
  rw [TooLong, packetEnd, h, Nat.add_zero, u32_of_lt (by omega)]
  omega

theorem Rejects.read {cfg : AiConfig} {c : AiCipher} {env : ℕ → RecvEnv} {r r' : AiReader}
    {es es' : List Event} {ret : ReadRet} (h : Rejects cfg c env r es)
    (hread : tuyaAiBasicPktRead cfg c env r es = some (r', es', ret)) :
    ∃ why rc, recvPacket cfg c (env 0).decryptMem r.proto es =
      (r'.proto, es', .rejected why rc) := by
  obtain ⟨p, rest, why, rc, hrecv⟩ := h
  refine ⟨why, rc, ?_⟩
  simp only [tuyaAiBasicPktRead, pktReadLoop, hrecv, readExit] at hread
  obtain ⟨s, -, hs⟩ := Option.map_eq_some_iff.mp hread
  obtain ⟨rfl, rfl, -⟩ := Prod.mk.inj hs |>.imp_right Prod.mk.inj
  exact hrecv

/-- A refused packet leaves the receive state and the stream alone only when nothing of it
was stored and nothing of it is left in the stream. -/
theorem rejected_left_alone_iff (cfg : AiConfig) {c : AiCipher} (hc : c.Lawful)
    (env : ℕ → RecvEnv) {r r' : AiReader} {es es' : List Event} {bytes : List UInt8}
    (hes : Delivers es bytes) (behind : List Event) (hlen : packetEnd bytes ≤ bytes.length)
    {ret : ReadRet} (hread : tuyaAiBasicPktRead cfg c env r (es ++ behind) = some (r', es', ret))
    (hrejects : Rejects cfg c env r (es ++ behind)) :
    LeftAlone cfg c r.proto r'.proto es' behind bytes ↔ Harmless cfg r.proto bytes := by
  obtain ⟨why, rc, hrecv⟩ := hrejects.read hread
  have hend : packetEnd bytes = aiGetHeadLen bytes + aiGetPacketLen bytes := rfl
  rcases recvPacket_rejected hes behind hlen hrecv with
    ⟨hcheck, hproto, es₁, rfl, hdel⟩ | ⟨hlong, hnew, hproto, es₁, rfl, hdel⟩
  · rw [hproto]
    constructor
    · intro h
      have hnobody := no_body_of_aligned hlen hdel h.aligned
      have hlong := not_tooLong_of_no_body cfg hnobody
      refine ⟨storeIv_decryptIv_iff.mp h.decryptIv, hlong, ?_⟩
      rw [if_pos (hcheck.resolve_left hlong)]
      exact hnobody
    · rintro ⟨hiv, hlong, hbody⟩
      rw [if_pos (hcheck.resolve_left hlong)] at hbody
      rw [storeIv_of_keepsIv hiv]
      rw [← Nat.add_zero (aiGetHeadLen bytes), ← hbody] at hdel
      exact .of_same hc hdel
  · rw [hproto]
    constructor
    · intro h
      refine ⟨storeIv_decryptIv_iff.mp h.decryptIv, hlong, ?_⟩
      rw [if_neg (Nat.not_le.mpr hnew)]
      exact (storeSequence_sequenceIn_iff hnew).mp h.sequenceIn
    · rintro ⟨hiv, -, hlast⟩
      rw [if_neg (Nat.not_le.mpr hnew)] at hlast
      have hsame : storeSequence (storeIv r.proto bytes) bytes = r.proto := by
        rw [storeIv_of_keepsIv hiv, storeSequence, if_pos hlast.1.ge, ← hlast.2]
      rw [hsame]
      exact .of_same hc hdel

theorem Rejects.returns {cfg : AiConfig} {c : AiCipher} {env : ℕ → RecvEnv} {r : AiReader}
    {es : List Event} (h : Rejects cfg c env r es) (hdata : r.frag.mng.data = none) :
    ∃ r' es' ret, tuyaAiBasicPktRead cfg c env r es = some (r', es', ret) := by
  obtain ⟨p, rest, why, rc, hrecv⟩ := h
  simp [tuyaAiBasicPktRead, pktReadLoop, hrecv, readExit, fragExit, hdata]

/-! ## A forged packet -/

/-- A packet with this sequence number, without IV, and with zeros for payload and
signature. -/
def forgedPacket (sequence : ℕ) : List UInt8 :=
  [1] ++ encodeBE 2 sequence ++ [8, 0] ++ encodeBE 4 64 ++ List.replicate 64 0

/-- HMAC-SHA256 on the head and the payload of two forged packets. -/
def forgedValues : CipherValues :=
  { sampleValues with
    macs :=
      [((forgedPacket 7).take 41,
        [41, 124, 101, 108, 132, 26, 230, 251, 79, 151, 49, 155, 184, 30, 129, 2, 49, 234, 33,
          103, 30, 26, 128, 251, 134, 57, 205, 190, 160, 20, 126, 173]),
      ((forgedPacket 0xffff).take 41,
        [35, 71, 35, 15, 207, 104, 191, 185, 220, 53, 101, 225, 247, 153, 205, 119, 117, 215, 82,
          206, 97, 115, 32, 164, 255, 151, 168, 236, 57, 252, 126, 100])] }

def sampleConfig : AiConfig := ⟨10240, by decide, by decide⟩

def freshReader : AiReader where
  proto := ⟨sampleCryptKey, sampleSignKey, List.replicate 16 0, 0⟩
  frag := ⟨.zero, ⟨0, fun _ ↦ none⟩⟩
  fragFlag := false

theorem forged_rejects {sequence : ℕ} (h : sequence = 7 ∨ sequence = 0xffff) :
    Rejects sampleConfig forgedValues.cipher plentyEnv freshReader
      ([.chunk (forgedPacket sequence)] ++ []) := by
  rcases h with rfl | rfl
  · exact ⟨{ freshReader.proto with sequenceIn := 7 }, [], .signature, oprtResourceNotReady,
      by decide +kernel⟩
  · exact ⟨freshReader.proto, [], .signature, oprtResourceNotReady, by decide +kernel⟩

theorem forged_delivers (sequence : ℕ) :
    Delivers [.chunk (forgedPacket sequence)] (forgedPacket sequence) := by
  rw [← List.append_nil (forgedPacket sequence)]
  exact .cons (by simp [forgedPacket]) .nil

/-- A forged packet with the last sequence number does no harm to a fresh connection. -/
theorem rejected_left_alone_last : ∃ (r' : AiReader) (es' : List Event),
    LeftAlone sampleConfig forgedValues.cipher freshReader.proto r'.proto es' []
      (forgedPacket 0xffff) := by
  have hrejects := forged_rejects (.inr rfl)
  obtain ⟨r', es', ret, hread⟩ := hrejects.returns rfl
  have hlawful : forgedValues.cipher.Lawful := forgedValues.lawful rfl rfl (by decide)
  have hharmless : Harmless sampleConfig freshReader.proto (forgedPacket 0xffff) := by
    refine ⟨fun h ↦ ?_, by decide +kernel, by decide +kernel⟩
    exact absurd h (by decide +kernel)
  exact ⟨r', es', (rejected_left_alone_iff sampleConfig hlawful plentyEnv
    (forged_delivers 0xffff) [] (by decide +kernel) hread hrejects).mpr hharmless⟩

/-- A forged packet with the sequence number seven: it is refused, and from then on
everything up to that number is refused too. -/
theorem forged_packet_moves_sequence : ∃ r' es' ret,
    tuyaAiBasicPktRead sampleConfig forgedValues.cipher plentyEnv freshReader
        ([.chunk (forgedPacket 7)] ++ []) = some (r', es', ret) ∧
      Rejects sampleConfig forgedValues.cipher plentyEnv freshReader
        ([.chunk (forgedPacket 7)] ++ []) ∧
      packetEnd (forgedPacket 7) ≤ (forgedPacket 7).length ∧
      ¬LeftAlone sampleConfig forgedValues.cipher freshReader.proto r'.proto es' []
        (forgedPacket 7) := by
  have hrejects := forged_rejects (.inl rfl)
  obtain ⟨r', es', ret, hread⟩ := hrejects.returns rfl
  refine ⟨r', es', ret, hread, hrejects, by decide +kernel, fun h ↦ ?_⟩
  obtain ⟨why, rc, hrecv⟩ := hrejects.read hread
  have hseven : (recvPacket sampleConfig forgedValues.cipher true freshReader.proto
      ([.chunk (forgedPacket 7)] ++ [])).1.sequenceIn = 7 := by decide +kernel
  have hmoved : r'.proto.sequenceIn = 7 := by
    rw [← hseven]
    exact congrArg (fun x ↦ x.1.sequenceIn) hrecv.symm
  have hkept : r'.proto.sequenceIn = 0 := h.sequenceIn
  omega

end TuyaOpen.Ai
