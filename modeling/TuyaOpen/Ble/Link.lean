import TuyaOpen.Ble.Fragment
import TuyaOpen.Ble.Session

/-!
# Messages between two sides with the same keys

One side encodes messages and cuts them into subpackets, the other reassembles and decrypts them.
Whole messages may be lost on the way, repeated or overtaken.  The sequence number, which is under
the encryption, decides which of them the receiver hands out.
-/

namespace TuyaOpen.Ble

/-- A message that has been encoded and cut, in a mode whose key both sides have. -/
structure LinkMessage (c : Crypto) (st : CryptStatic) (p : BleCryptoParam) (packetLen : ℕ) where
  sn : UInt32
  packet : BlePacket
  iv : List UInt8
  frame : List UInt8
  version : ℕ
  frameSeq : ℕ
  subpkgs : List RawPacket
  sn_pos : 0 < sn
  mode : SharedKeyMode packet.encryptMode
  length_iv : iv.length = 16
  encoded : ∃ st₁ sn₁, blePacketEncode c st p sn packet iv = some (oprtOk, frame, st₁, sn₁)
  version_ge : 2 ≤ version
  version_lt : version < 16
  fragmented : encodeAll packetLen version frame (frame.length + 1) frameSeq
    (bleFrameTrsmitrCreate packetLen) = some (subpkgs.map Subtype.val)

variable {c : Crypto} {st : CryptStatic} {p : BleCryptoParam} {packetLen : ℕ}

def LinkMessage.received (m : LinkMessage c st p packetLen) : BlePacket :=
  ⟨m.sn, m.packet.type, m.packet.data, m.packet.encryptMode⟩

/-- The messages that are newer than all before them. -/
def newer : UInt32 → List (LinkMessage c st p packetLen) → List (LinkMessage c st p packetLen)
  | _, [] => []
  | recvSn, m :: ms => if recvSn < m.sn then m :: newer m.sn ms else newer recvSn ms

theorem parsePacket_stale {st' : CryptStatic} {last recvSn : UInt32} {mode : UInt8}
    {dec : List UInt8} {packet : BlePacket} {static : CryptStatic}
    (h : parsePacket st' last mode dec true = ⟨oprtOk, some packet, static, packet.sn, false⟩)
    (hstale : ¬recvSn < packet.sn) :
    parsePacket st' recvSn mode dec true = ⟨oprtInvalidParm, none, st', recvSn, true⟩ := by
  rw [parsePacket] at h ⊢
  split_ifs at h with hlong hcrc hsn
  · cases h
  · cases h
  · cases h
  · cases h
  · have hpacket := congrArg RecvResult.packet h
    have hsn' := congrArg BlePacket.sn (Option.some.inj hpacket)
    dsimp only at hsn'
    rw [← hsn'] at hstale
    rw [if_neg hlong, if_neg hcrc, if_pos (UInt32.not_lt.mp hstale)]

theorem LinkMessage.decode (hc : c.Lawful) (m : LinkMessage c st p packetLen) {st' : CryptStatic}
    (hst : st'.keyOutKey11 = st.keyOutKey11) (recvSn : UInt32) :
    m.frame.length ≤ tuyaBleAirFrameMax ∧
      blePacketRecvDecode c st' p recvSn m.version m.frame true =
        if recvSn < m.sn then ⟨oprtOk, some m.received, st', m.sn, false⟩
        else ⟨oprtInvalidParm, none, st', recvSn, true⟩ := by
  obtain ⟨st₁, sn₁, hencoded⟩ := m.encoded
  obtain ⟨hfit, hzero, hframe⟩ := encode_ok hencoded
  obtain ⟨hlen, hdec⟩ := decryption_encryption hc m.mode m.length_iv hzero hst
  obtain ⟨pad, hpad⟩ := bleAddPkcs_eq_append (packetFrame m.sn m.packet)
  have hroom : m.packet.data.length + blePacketMinLen ≤ tuyaBleAirFrameMax := by
    have h := length_packetFrame m.sn m.packet
    rw [hpad, List.length_append] at hfit
    omega
  have hlength : m.frame.length ≤ tuyaBleAirFrameMax := by
    rw [hframe, List.length_append, List.length_cons, m.length_iv, hlen]
    omega
  have hparsed : ∀ rest last, last < m.sn →
      parsePacket st' last m.packet.encryptMode (packetFrame m.sn m.packet ++ rest) true =
        ⟨oprtOk, some m.received, st', m.received.sn, false⟩ :=
    fun rest last hlast ↦ parsePacket_frame hlast m.packet.encryptMode rest hroom
  refine ⟨hlength, ?_⟩
  rw [blePacketRecvDecode, if_neg (Nat.not_lt.mpr hlength), if_neg (Nat.not_lt.mpr m.version_ge),
    hframe, hdec, hpad]
  simp only [decBuf, List.append_assoc, List.cons_append, List.headD_cons]
  split_ifs with hnew
  · exact hparsed _ _ hnew
  · exact parsePacket_stale (hparsed _ 0 m.sn_pos) hnew

/-! ## The subpackets of one frame -/

variable {s : BlePacketRecv × Option Frame}

end TuyaOpen.Ble
