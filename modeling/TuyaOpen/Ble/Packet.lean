import TuyaOpen.Ble.Cryption
import TuyaOpen.Ble.Reassembly
import TuyaOpen.Lib.Bytes

/-!
# Packets of `ble_mgr.c`

A packet is a header of sequence number, acknowledged number, command and
length, the data and a CRC over both, encrypted as a whole behind the mode
byte and the IV.
-/

namespace TuyaOpen.Ble

/-! ## The CRC of `crc_16.c` -/

def crc16Bit (s : UInt16 × UInt8) : UInt16 × UInt8 :=
  let poly : UInt16 := if (s.1 ^^^ s.2.toUInt16) &&& 1 = 0 then 0 else 0xa001
  ((s.1 >>> 1) ^^^ poly, s.2 >>> 1)

def getCrc16 (data : List UInt8) : UInt16 :=
  data.foldl (fun crc ds ↦ (crc16Bit^[8] (crc, ds)).1) 0xffff

/-! ## Encoding -/

/-- The length field of the source is the length of `data` here. -/
structure BlePacket where
  sn : UInt32
  type : UInt16
  data : List UInt8
  encryptMode : UInt8
  deriving DecidableEq

def blePacketDataInd : ℕ := 12
def blePacketMinLen : ℕ := 14

def frameBody (sendSn : UInt32) (packet : BlePacket) : List UInt8 :=
  Bytes.encodeBE 4 sendSn.toNat ++ Bytes.encodeBE 4 packet.sn.toNat ++
    Bytes.encodeBE 2 packet.type.toNat ++ Bytes.encodeBE 2 packet.data.length ++ packet.data

def packetFrame (sendSn : UInt32) (packet : BlePacket) : List UInt8 :=
  frameBody sendSn packet ++ Bytes.encodeBE 2 (getCrc16 (frameBody sendSn packet)).toNat

/-- The code and the encrypted packet, with the statics and `send_sn` after the
call.  `iv` are the random bytes.  The frame is built in a buffer of fixed
size before its length is checked, so a longer one is undefined. -/
def blePacketEncode (c : Crypto) (st : CryptStatic) (p : BleCryptoParam) (sendSn : UInt32)
    (packet : BlePacket) (iv : List UInt8) :
    Option (OperateRet × List UInt8 × CryptStatic × UInt32) :=
  let frame := packetFrame sendSn packet
  if tuyaBleAirFrameMax < frame.length then none
  else
    let paddingLen := if frame.length % 16 = 0 then 17 else 17 + (16 - frame.length % 16)
    if tuyaBleAirFrameMax < frame.length + paddingLen then
      some (oprtComError, [], st, sendSn + 1)
    else match tuyaBleEncryption c st p packet.encryptMode iv frame with
      | (0, out, st) => some (oprtOk, packet.encryptMode :: iv ++ out, st, sendSn + 1)
      | (_, _, st) => some (oprtComError, [], st, sendSn + 1)

/-! ## Decoding -/

def decBuf (bs : List UInt8) : List UInt8 :=
  bs ++ List.replicate (tuyaBleAirFrameMax - bs.length) 0

structure RecvResult where
  rt : OperateRet
  packet : Option BlePacket
  static : CryptStatic
  recvSn : UInt32
  disconnect : Bool
  deriving DecidableEq

/-- The fields of a decrypted frame.  `malloc` says whether there is memory for
the data. -/
def parsePacket (st : CryptStatic) (recvSn : UInt32) (encryptMode : UInt8) (dec : List UInt8)
    (malloc : Bool) : RecvResult :=
  let dataLen := Bytes.getBE dec 10 2
  let ourCrc := Bytes.getBE dec (blePacketDataInd + dataLen) 2
  let sn := UInt32.ofNat (Bytes.getBE dec 0 4)
  if tuyaBleAirFrameMax < dataLen + blePacketMinLen then
    ⟨oprtInvalidParm, none, st, recvSn, false⟩
  else if ourCrc ≠ (getCrc16 (dec.take (dataLen + blePacketDataInd))).toNat then
    ⟨oprtInvalidParm, none, st, recvSn, false⟩
  else if sn ≤ recvSn then ⟨oprtInvalidParm, none, st, recvSn, true⟩
  else if dataLen ≠ 0 ∧ malloc = false then ⟨oprtMallocFailed, none, st, sn, false⟩
  else
    let packet : BlePacket :=
      { sn := sn
        type := UInt16.ofNat (Bytes.getBE dec 8 2)
        data := (dec.drop blePacketDataInd).take dataLen
        encryptMode := encryptMode }
    ⟨oprtOk, some packet, st, sn, false⟩

/-- The part of `ble_packet_recv` behind the reassembly. -/
def blePacketRecvDecode (c : Crypto) (st : CryptStatic) (p : BleCryptoParam) (recvSn : UInt32)
    (version : ℕ) (raw : List UInt8) (malloc : Bool) : RecvResult :=
  if tuyaBleAirFrameMax < raw.length then ⟨oprtInvalidParm, none, st, recvSn, false⟩
  else if version < 2 then ⟨oprtInvalidParm, none, st, recvSn, false⟩
  else match tuyaBleDecryption c st p raw with
    | (0, dec, st) => parsePacket st recvSn (raw.headD 0) (decBuf dec) malloc
    | (_, _, st) => ⟨oprtInvalidParm, none, st, recvSn, false⟩

/-! ## Round trip -/

variable {c : Crypto} {st : CryptStatic} {p : BleCryptoParam} {sendSn : UInt32}
  {packet : BlePacket}

theorem length_frameBody (sendSn : UInt32) (packet : BlePacket) :
    (frameBody sendSn packet).length = blePacketDataInd + packet.data.length := by
  simp only [frameBody, List.length_append, Bytes.length_encodeBE]
  rfl

theorem length_packetFrame (sendSn : UInt32) (packet : BlePacket) :
    (packetFrame sendSn packet).length = blePacketMinLen + packet.data.length := by
  simp only [packetFrame, List.length_append, length_frameBody, Bytes.length_encodeBE]
  simp only [blePacketDataInd, blePacketMinLen]
  omega

theorem parsePacket_frame {recvSn : UInt32} (hsn : recvSn < sendSn) (encryptMode : UInt8)
    (rest : List UInt8) (hlen : packet.data.length + blePacketMinLen ≤ tuyaBleAirFrameMax) :
    parsePacket st recvSn encryptMode (packetFrame sendSn packet ++ rest) true =
      ⟨oprtOk, some ⟨sendSn, packet.type, packet.data, encryptMode⟩, st, sendSn, false⟩ := by
  have hmax : tuyaBleAirFrameMax = 1024 := rfl
  have hmin : blePacketMinLen = 14 := rfl
  set dec := packetFrame sendSn packet ++ rest with hdec
  have hsn4 : Bytes.getBE dec 0 4 = sendSn.toNat := by
    have h := Bytes.getBE_append (k := 4) sendSn.toNat_lt []
      (Bytes.encodeBE 4 packet.sn.toNat ++ (Bytes.encodeBE 2 packet.type.toNat ++
        (Bytes.encodeBE 2 packet.data.length ++ (packet.data ++
          (Bytes.encodeBE 2 (getCrc16 (frameBody sendSn packet)).toNat ++ rest)))))
    simpa [hdec, packetFrame, frameBody] using h
  have htype : Bytes.getBE dec 8 2 = packet.type.toNat := by
    have h := Bytes.getBE_append (k := 2) packet.type.toNat_lt
      (Bytes.encodeBE 4 sendSn.toNat ++ Bytes.encodeBE 4 packet.sn.toNat)
      (Bytes.encodeBE 2 packet.data.length ++ (packet.data ++
        (Bytes.encodeBE 2 (getCrc16 (frameBody sendSn packet)).toNat ++ rest)))
    simpa [hdec, packetFrame, frameBody] using h
  have hdlen : Bytes.getBE dec 10 2 = packet.data.length := by
    have h := Bytes.getBE_append (k := 2) (show packet.data.length < 256 ^ 2 by omega)
      (Bytes.encodeBE 4 sendSn.toNat ++ Bytes.encodeBE 4 packet.sn.toNat ++
        Bytes.encodeBE 2 packet.type.toNat)
      (packet.data ++ (Bytes.encodeBE 2 (getCrc16 (frameBody sendSn packet)).toNat ++ rest))
    simpa [hdec, packetFrame, frameBody] using h
  have hcrc : Bytes.getBE dec (blePacketDataInd + packet.data.length) 2 =
      (getCrc16 (frameBody sendSn packet)).toNat := by
    rw [← length_frameBody sendSn packet, hdec, packetFrame, List.append_assoc]
    exact Bytes.getBE_append (UInt16.toNat_lt _) _ _
  have htake : dec.take (packet.data.length + blePacketDataInd) = frameBody sendSn packet := by
    rw [Nat.add_comm, ← length_frameBody sendSn packet, hdec, packetFrame, List.append_assoc]
    exact List.take_left
  have hdata : (dec.drop blePacketDataInd).take packet.data.length = packet.data := by
    have hbody : dec = (Bytes.encodeBE 4 sendSn.toNat ++ Bytes.encodeBE 4 packet.sn.toNat ++
        Bytes.encodeBE 2 packet.type.toNat ++ Bytes.encodeBE 2 packet.data.length) ++
        (packet.data ++
          (Bytes.encodeBE 2 (getCrc16 (frameBody sendSn packet)).toNat ++ rest)) := by
      simp [hdec, packetFrame, frameBody]
    rw [hbody, List.drop_left' (by simp [blePacketDataInd]), List.take_left]
  have hnle : ¬ sendSn ≤ recvSn := by
    simpa using hsn
  simp only [parsePacket, hsn4, htype, hdlen, hcrc, htake, hdata, ne_eq, not_true_eq_false,
    if_false, UInt32.ofNat_toNat, UInt16.ofNat_toNat, hnle, Bool.true_eq_false, and_false]
  rw [if_neg (by omega)]

theorem encode_ok {iv out : List UInt8} {st₁ : CryptStatic} {sn₁ : UInt32}
    (henc : blePacketEncode c st p sendSn packet iv = some (oprtOk, out, st₁, sn₁)) :
    17 + (bleAddPkcs (packetFrame sendSn packet)).length ≤ tuyaBleAirFrameMax ∧
      (tuyaBleEncryption c st p packet.encryptMode iv (packetFrame sendSn packet)).1 = 0 ∧
      out = packet.encryptMode :: iv ++
        (tuyaBleEncryption c st p packet.encryptMode iv (packetFrame sendSn packet)).2.1 := by
  have hsum : (packetFrame sendSn packet).length +
      (if (packetFrame sendSn packet).length % 16 = 0 then 17
        else 17 + (16 - (packetFrame sendSn packet).length % 16)) =
      17 + (bleAddPkcs (packetFrame sendSn packet)).length := by
    rw [length_bleAddPkcs]
    split_ifs <;> omega
  simp only [blePacketEncode, hsum] at henc
  by_cases hlong : tuyaBleAirFrameMax < (packetFrame sendSn packet).length
  · rw [if_pos hlong] at henc
    cases henc
  by_cases hfit : tuyaBleAirFrameMax < 17 + (bleAddPkcs (packetFrame sendSn packet)).length
  · rw [if_neg hlong, if_pos hfit] at henc
    cases henc
  rw [if_neg hlong, if_neg hfit] at henc
  split at henc
  · next out' st' heq =>
      simp only [Option.some.injEq, Prod.mk.injEq, true_and] at henc
      rw [heq, ← henc.1]
      exact ⟨by omega, rfl, rfl⟩
  · cases henc

/-- A packet that was encoded is decoded to itself by a side with the same key
material. -/
theorem packet_round_trip (hc : c.Lawful) (hmode : SharedKeyMode packet.encryptMode)
    {iv out : List UInt8} (hiv : iv.length = 16) {st₁ : CryptStatic} {sn₁ : UInt32}
    (henc : blePacketEncode c st p sendSn packet iv = some (oprtOk, out, st₁, sn₁))
    {st' : CryptStatic} (hst : st'.keyOutKey11 = st.keyOutKey11) {recvSn : UInt32}
    (hsn : recvSn < sendSn) {version : ℕ} (hver : 2 ≤ version) :
    blePacketRecvDecode c st' p recvSn version out true =
      ⟨oprtOk, some ⟨sendSn, packet.type, packet.data, packet.encryptMode⟩, st', sendSn,
        false⟩ := by
  obtain ⟨hfit, hzero, rfl⟩ := encode_ok henc
  obtain ⟨hlen, hdec⟩ := decryption_encryption hc hmode hiv hzero hst
  obtain ⟨pad, hpad⟩ := bleAddPkcs_eq_append (packetFrame sendSn packet)
  have hframe : packet.data.length + blePacketMinLen ≤ tuyaBleAirFrameMax := by
    have h := length_packetFrame sendSn packet
    rw [hpad, List.length_append] at hfit
    omega
  have hraw : ¬ tuyaBleAirFrameMax < (packet.encryptMode :: iv ++
      (tuyaBleEncryption c st p packet.encryptMode iv (packetFrame sendSn packet)).2.1).length := by
    simp only [List.cons_append, List.length_cons, List.length_append, hiv, hlen]
    omega
  rw [blePacketRecvDecode, if_neg hraw, if_neg (by omega), hdec, hpad]
  simp only [decBuf, List.append_assoc]
  exact parsePacket_frame hsn packet.encryptMode _ hframe

/-! A command with two bytes of data under the key of mode `14`, with the values
that MD5 and AES-128 have there. -/

def sampleParam : BleCryptoParam where
  authKey := List.replicate 32 0
  loginKey := [0, 1, 2, 3, 4, 5, 6, 7, 8, 9, 10, 11, 12, 13, 14, 15]
  secKey := [16, 17, 18, 19, 20, 21, 22, 23, 24, 25, 26, 27, 28, 29, 30, 31]
  uuid := List.replicate 16 0
  pairRand := List.replicate 6 0

def samplePacket : BlePacket := ⟨0, 3, [1, 2], encryptionModeKey14⟩

def sampleKey : List UInt8 :=
  [180, 255, 203, 35, 115, 124, 236, 49, 90, 74, 77, 26, 162, 166, 32, 206]

def sampleIv : List UInt8 := [32, 33, 34, 35, 36, 37, 38, 39, 40, 41, 42, 43, 44, 45, 46, 47]

def samplePlain : List UInt8 := [0, 0, 0, 1, 0, 0, 0, 0, 0, 3, 0, 2, 1, 2, 108, 202]

def sampleCipher : List UInt8 :=
  [106, 93, 147, 110, 227, 208, 79, 86, 140, 234, 118, 204, 38, 51, 35, 117]

/-- The block cipher on the one block of the sample, and its inverse. -/
def sampleBlock (key iv data : List UInt8) : List UInt8 :=
  if key = sampleKey ∧ iv = sampleIv then
    if data = samplePlain then sampleCipher else if data = sampleCipher then samplePlain else data
  else data

def sampleCrypto : Crypto where
  md5Ret data := if data = sampleParam.loginKey ++ sampleParam.secKey then sampleKey
    else List.replicate 16 0
  aes128CbcEncodeRaw key iv data := (oprtOk, sampleBlock key iv data)
  aes128CbcDecodeRaw key iv data := (oprtOk, sampleBlock key iv data)

theorem sampleCrypto_lawful : sampleCrypto.Lawful := by
  intro key iv data out _ henc
  obtain rfl : sampleBlock key iv data = out := (Prod.mk.inj henc).2
  have hinv : (sampleBlock key iv data).length = data.length ∧
      sampleBlock key iv (sampleBlock key iv data) = data := by
    by_cases hk : key = sampleKey ∧ iv = sampleIv
    · simp only [sampleBlock, if_pos hk]
      by_cases hp : data = samplePlain
      · subst hp
        decide
      · by_cases hc : data = sampleCipher
        · subst hc
          decide
        · simp [hp, hc]
    · simp [sampleBlock, hk]
  exact ⟨hinv.1, congrArg (Prod.mk oprtOk) hinv.2⟩

theorem packet_round_trip_sample :
    let out := encryptionModeKey14 :: sampleIv ++ sampleCipher
    blePacketEncode sampleCrypto .init sampleParam 1 samplePacket sampleIv =
        some (oprtOk, out, .init, 2) ∧
      blePacketRecvDecode sampleCrypto .init sampleParam 0 4 out true =
        ⟨oprtOk, some ⟨1, 3, [1, 2], encryptionModeKey14⟩, .init, 1, false⟩ := by
  intro out
  have henc : blePacketEncode sampleCrypto .init sampleParam 1 samplePacket sampleIv =
      some (oprtOk, out, .init, 2) := by decide +kernel
  exact ⟨henc, packet_round_trip sampleCrypto_lawful (by decide) rfl henc rfl (by decide)
    (by decide)⟩

end TuyaOpen.Ble
