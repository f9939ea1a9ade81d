import TuyaOpen.Ble.DpQuery
import TuyaOpen.Ble.Fragment

/-!
# Payloads that `tuya_ble_send` can send

`__dp_data_report_data` limits a payload by a constant, and `ble_packet_encode`
limits the frame around it with its padding to whole blocks.  The frame is
copied into its buffer before that check, and the length of a packet has 16
bits where `tuya_ble_send` takes 32.
-/

namespace TuyaOpen.Ble

def frmQryDevInfoReq : UInt16 := 0x0000

/-- The packet that a paired device hands on to `ble_packet_encode`. -/
def tuyaBleSendPacket (isBound : Bool) (packet : BlePacket) : BlePacket :=
  { packet with encryptMode :=
      if packet.type = frmQryDevInfoReq then
        if isBound then encryptionModeKey14 else encryptionModeKey11
      else if isBound then encryptionModeSessionKey15 else encryptionModeKey12 }

def tuyaBleSend (isBound : Bool) (type : UInt16) (ackSn : UInt32) (data : List UInt8) :
    BlePacket :=
  tuyaBleSendPacket isBound ⟨ackSn, type, data.take (data.length % 2 ^ 16), 0⟩

/-- The check of `ble_packet_encode`. -/
def SizeCheck (frame : List UInt8) : Prop :=
  frame.length + (if frame.length % 16 = 0 then 17 else 17 + (16 - frame.length % 16)) ≤
    tuyaBleAirFrameMax

/-- A payload that the report admits passes the check, the frame is written
inside `ble_frame`, and a frame that passes is padded inside `enc_buf` behind
the mode byte and the IV. -/
structure Sendable (c : Crypto) (st : CryptStatic) (p : BleCryptoParam) (sendSn : UInt32)
    (packet : BlePacket) (iv data : List UInt8) : Prop where
  passes : dpDataReportData data = some data → SizeCheck (packetFrame sendSn packet)
  bleFrame : (blePacketEncode c st p sendSn packet iv).isSome
  encBuf : SizeCheck (packetFrame sendSn packet) →
    17 + (bleAddPkcs (packetFrame sendSn packet)).length ≤ tuyaBleAirFrameMax

variable {c : Crypto} {st : CryptStatic} {p : BleCryptoParam} {sendSn : UInt32}
  {packet : BlePacket} {iv : List UInt8}

theorem dpDataReportData_eq_some_iff (data : List UInt8) :
    dpDataReportData data = some data ↔ 0 < data.length ∧ data.length ≤ 995 := by
  have hmax : tuyaBleTransmissionMaxDataLen = 995 := rfl
  rw [dpDataReportData, hmax]
  split_ifs with h
  · simp only [false_iff]
    omega
  · simp only [true_iff]
    omega

theorem length_data_tuyaBleSend (isBound : Bool) (type : UInt16) (ackSn : UInt32)
    (data : List UInt8) :
    (tuyaBleSend isBound type ackSn data).data.length = data.length % 2 ^ 16 := by
  apply List.length_take_of_le
  exact Nat.mod_le _ _

theorem sizeCheck_iff (sendSn : UInt32) (packet : BlePacket) :
    SizeCheck (packetFrame sendSn packet) ↔ packet.data.length ≤ 978 := by
  have hair : tuyaBleAirFrameMax = 1024 := rfl
  have hmin : blePacketMinLen = 14 := rfl
  rw [SizeCheck, length_packetFrame, hair, hmin]
  split_ifs <;> omega

theorem padded_of_sizeCheck {frame : List UInt8} (h : SizeCheck frame) :
    17 + (bleAddPkcs frame).length ≤ tuyaBleAirFrameMax := by
  rw [length_bleAddPkcs]
  rw [SizeCheck] at h
  split_ifs at h ⊢ <;> omega

theorem blePacketEncode_isSome_iff :
    (blePacketEncode c st p sendSn packet iv).isSome ↔ packet.data.length ≤ 1010 := by
  have hair : tuyaBleAirFrameMax = 1024 := rfl
  have hmin : blePacketMinLen = 14 := rfl
  simp only [blePacketEncode, length_packetFrame, hair, hmin]
  by_cases hlong : 1024 < 14 + packet.data.length
  · rw [if_pos hlong]
    simp only [Option.isSome_none, Bool.false_eq_true, false_iff]
    omega
  · rw [if_neg hlong]
    have hsome : packet.data.length ≤ 1010 := by omega
    simp only [hsome, iff_true]
    -- refused, or whatever the cipher answers
    split_ifs
    · rfl
    · split <;> rfl
    · rfl
    · split <;> rfl

/-- Payloads from `979` bytes on are admitted and refused, and longer ones leave
the buffer except where the 16 bits of the length cut them short enough. -/
theorem dp_payload_sendable_iff (c : Crypto) (st : CryptStatic) (p : BleCryptoParam)
    (sendSn : UInt32) (isBound : Bool) (type : UInt16) (ackSn : UInt32) (iv data : List UInt8) :
    Sendable c st p sendSn (tuyaBleSend isBound type ackSn data) iv data ↔
      data.length ≤ 978 ∨ 995 < data.length ∧ data.length % 2 ^ 16 ≤ 1010 := by
  have hlen := length_data_tuyaBleSend isBound type ackSn data
  constructor
  · rintro ⟨hpasses, hframe, -⟩
    rw [dpDataReportData_eq_some_iff, sizeCheck_iff, hlen] at hpasses
    rw [blePacketEncode_isSome_iff, hlen] at hframe
    omega
  · intro hcond
    refine ⟨?_, ?_, padded_of_sizeCheck⟩
    · rw [dpDataReportData_eq_some_iff, sizeCheck_iff, hlen]
      omega
    · rw [blePacketEncode_isSome_iff, hlen]
      omega

theorem dp_payload_not_sendable :
    ¬ ∀ (c : Crypto) (st : CryptStatic) (p : BleCryptoParam) (sendSn : UInt32) (isBound : Bool)
      (type : UInt16) (ackSn : UInt32) (iv data : List UInt8),
      Sendable c st p sendSn (tuyaBleSend isBound type ackSn data) iv data := by
  intro h
  have hlen : (List.replicate 979 (0 : UInt8)).length = 979 := List.length_replicate
  have hsend := h sampleCrypto .init sampleParam 1 true 0x8006 0 sampleIv (List.replicate 979 0)
  have hpasses := hsend.passes ((dpDataReportData_eq_some_iff _).mpr (by omega))
  rw [sizeCheck_iff, length_data_tuyaBleSend, hlen] at hpasses
  omega

end TuyaOpen.Ble

/-!
## The packet length of the peer in `ble_packet_resp`

The device query of the peer chooses the length of the packets, and the encoder
writes the header of a subpacket before it looks at that length.  The loop ends
after one packet, so the header of subpacket `0` decides whether a frame is sent
inside the two buffers.
-/

namespace TuyaOpen.Ble

/-- The header of subpacket `0` of a frame of `len` bytes. -/
def firstHeaderLen (len : ℕ) : ℕ :=
  if len < 128 then 3 else if len < 128 ^ 2 then 4 else if len < 128 ^ 3 then 5 else 6

/-- The loop ends, and no call of the encoder leaves `subpkg` or `pbuf`. -/
def RespSafe (packetLen version frameSeq : ℕ) (outbuf : List UInt8) (sends : ℕ → OperateRet) :
    Prop :=
  ∃ fuel r, blePacketRespSend packetLen version outbuf sends fuel frameSeq = some r

variable {packetLen version frameSeq : ℕ} {outbuf : List UInt8} {sends : ℕ → OperateRet}

theorem firstHeaderLen_eq {len : ℕ} (hlen : len < 2 ^ 28) :
    2 + (Leb128.encode 4 len).length = firstHeaderLen len := by
  simp only [Leb128.encode, firstHeaderLen]
  split_ifs <;> simp only [List.length_cons, List.length_nil] <;> omega

theorem length_sendHeader_start (packetLen version frameSeq : ℕ)
    (hlen : outbuf.length < 2 ^ 28) :
    (sendHeader (sendStart packetLen frameSeq version outbuf) outbuf.length).length =
      firstHeaderLen outbuf.length := by
  have hone : (Leb128.encode 4 0).length = 1 := by decide
  have hnum : (sendStart packetLen frameSeq version outbuf).subpkgNum = 0 := rfl
  rw [← firstHeaderLen_eq hlen]
  simp only [sendHeader, hnum, if_true, encodeDigits_eq, List.length_append, hone,
    List.length_singleton]
  omega

theorem respSafe_of_long (hlen : 2 ^ 28 ≤ outbuf.length) :
    RespSafe packetLen version frameSeq outbuf sends := by
  refine ⟨1, ([], oprtComError), ?_⟩
  have hlong : 0x10000000 ≤ outbuf.length := hlen
  have hencode : bleFrameTrsmitrSendPkgEncode packetLen frameSeq (bleFrameTrsmitrCreate packetLen)
      version outbuf = some ((bleFrameSeqGet frameSeq).2,
        sendStart packetLen frameSeq version outbuf, oprtComError) := by
    simp only [bleFrameTrsmitrSendPkgEncode, bleFrameTrsmitrCreate, if_true, hlong, or_true,
      sendStart]
  rw [blePacketRespSend, respLoop, hencode]
  rfl

/-- The code of the transport takes the place of the encoder's, so the loop ends
whatever the transport answers. -/
theorem respSafe_of_header (hpl : packetLen < 2 ^ 16) (hlen : outbuf.length < 2 ^ 28)
    (hheader : firstHeaderLen outbuf.length ≤ packetLen) :
    RespSafe packetLen version frameSeq outbuf sends := by
  have hhead := length_sendHeader_start packetLen version frameSeq hlen
  have hsend : Sending packetLen (sendStart packetLen frameSeq version outbuf) outbuf :=
    ⟨rfl, Nat.zero_le _, by simp [sendStart, bleFrameTrsmitrCreate], Nat.two_pow_pos 28, by omega⟩
  obtain ⟨t', hencode, -, hlen', -⟩ := sendSubpkg_eq hsend hpl hlen
  have hle : ¬ packetLen < t'.subpkgLen := by
    have := hsend.header_le
    rw [hlen', length_sendPacket, sendLen]
    omega
  refine ⟨1, ([t'.subpkg.take t'.subpkgLen], sends 0), ?_⟩
  rw [blePacketRespSend, respLoop, encode_start hlen, hencode]
  simp only [Option.map_some, if_neg hle]
  rw [if_neg]
  · by_cases hsent : sends 0 = oprtOk
    · rw [if_neg (not_not.mpr hsent), if_neg]
      rw [hsent]
      decide
    · rw [if_pos hsent]
  · split_ifs <;> simp

theorem sendSubpkg_overflow {t : BleFrameTrsmitr} (hsubpkg : t.subpkg.length = packetLen)
    (hheader : packetLen < (sendHeader t outbuf.length).length) :
    sendSubpkg packetLen t outbuf = none := by
  simp only [sendSubpkg]
  rw [if_pos]
  right
  omega

theorem not_respSafe (hlen : outbuf.length < 2 ^ 28)
    (hheader : packetLen < firstHeaderLen outbuf.length) :
    ¬ RespSafe packetLen version frameSeq outbuf sends := by
  rintro ⟨fuel, r, hrun⟩
  have hhead := length_sendHeader_start packetLen version frameSeq hlen
  have hover : sendSubpkg packetLen (sendStart packetLen frameSeq version outbuf) outbuf = none :=
    sendSubpkg_overflow (by simp [sendStart, bleFrameTrsmitrCreate]) (by omega)
  cases fuel with
  | zero => cases hrun
  | succ fuel =>
      rw [blePacketRespSend, respLoop, encode_start hlen, hover] at hrun
      cases hrun

/-- A frame is sent inside the buffers exactly when it is refused for its length
or the header of subpacket `0` fits the packet length of the peer. -/
theorem resp_send_safe_iff (hpl : packetLen < 2 ^ 16) (version frameSeq : ℕ)
    (outbuf : List UInt8) (sends : ℕ → OperateRet) :
    RespSafe packetLen version frameSeq outbuf sends ↔
      2 ^ 28 ≤ outbuf.length ∨ firstHeaderLen outbuf.length ≤ packetLen := by
  constructor
  · intro hsafe
    by_contra hcond
    obtain ⟨hlen, hheader⟩ := not_or.mp hcond
    exact not_respSafe (Nat.lt_of_not_le hlen) (Nat.lt_of_not_le hheader) hsafe
  · rintro (hlen | hheader)
    · exact respSafe_of_long hlen
    · rcases Nat.lt_or_ge outbuf.length (2 ^ 28) with hlen | hlen
      · exact respSafe_of_header hpl hlen hheader
      · exact respSafe_of_long hlen

theorem resp_send_safe_iff_twenty :
    20 < 2 ^ 16 ∧ (RespSafe 20 4 0 [1, 2, 3] (fun _ ↦ oprtOk) ↔
      2 ^ 28 ≤ [(1 : UInt8), 2, 3].length ∨ firstHeaderLen [(1 : UInt8), 2, 3].length ≤ 20) :=
  ⟨by decide, resp_send_safe_iff (by decide) 4 0 [1, 2, 3] fun _ ↦ oprtOk⟩

theorem resp_send_not_safe :
    ¬ ∀ packetLen < 2 ^ 16, ∀ (version frameSeq : ℕ) (outbuf : List UInt8)
      (sends : ℕ → OperateRet), RespSafe packetLen version frameSeq outbuf sends := by
  intro h
  exact not_respSafe (by decide) (by decide) (h 1 (by decide) 4 0 [1, 2, 3] fun _ ↦ oprtOk)

end TuyaOpen.Ble
