import TuyaOpen.Ble.Session

/-!
# Packets behind the end of a frame

`ble_packet_recv` takes the length of the data from the frame, compares it with
the size of the buffer only, and the buffer is zero behind the frame.  The CRC
register keeps the value zero over zeros, so a frame whose bytes leave it at
zero may announce more data than it brings.
-/

namespace TuyaOpen.Ble

/-- The `dec_len` of `tuya_ble_decryption`. -/
def decLen (raw : List UInt8) : ℕ :=
  if raw.headD 0 = encryptionModeNone then raw.length - 1 else raw.length - 17

/-- The length that a frame announces. -/
def announcedLen (dec : List UInt8) : ℕ := Bytes.getBE (decBuf dec) 10 2

/-- Header, data and CRC of an accepted packet come from the frame. -/
def LiesInside (raw : List UInt8) (res : RecvResult) : Prop :=
  ∀ packet, res.packet = some packet → blePacketMinLen + packet.data.length ≤ decLen raw

/-- The CRC check by the place of the CRC: behind the bytes of the frame, across
their end, or inside. -/
def CrcMatches (dec : List UInt8) : Prop :=
  if dec.length ≤ blePacketDataInd + announcedLen dec then getCrc16 dec = 0
  else if dec.length = blePacketDataInd + announcedLen dec + 1 then
    (getCrc16 dec.dropLast).toNat = (dec.getLastD 0).toNat * 256
  else Bytes.getBE dec (blePacketDataInd + announcedLen dec) 2 =
    (getCrc16 (dec.take (blePacketDataInd + announcedLen dec))).toNat

/-- A frame that announces more than it brings, and is right in everything else
that is checked. -/
structure Overlong (recvSn : UInt32) (version : ℕ) (raw dec : List UInt8)
    (malloc : Bool) : Prop where
  raw_le : raw.length ≤ tuyaBleAirFrameMax
  version_ge : 2 ≤ version
  beyond : decLen raw < blePacketMinLen + announcedLen dec
  announced_le : blePacketMinLen + announcedLen dec ≤ tuyaBleAirFrameMax
  crc : CrcMatches dec
  sn_gt : recvSn < UInt32.ofNat (Bytes.getBE (decBuf dec) 0 4)
  memory : announcedLen dec = 0 ∨ malloc = true

/-! ## The CRC over zeros -/

theorem crc16Bit_snd (crc : UInt16) : (crc16Bit (crc, 0)).2 = 0 := by
  have hshift : (0 : UInt8) >>> 1 = 0 := by decide
  exact hshift

theorem crc16Bit_fst_eq_zero_iff (crc : UInt16) : (crc16Bit (crc, 0)).1 = 0 ↔ crc = 0 := by
  constructor
  · intro h
    have hlt := crc.toNat_lt
    have hshift : (crc >>> 1).toNat = crc.toNat / 2 := by
      rw [UInt16.toNat_shiftRight]
      exact Nat.shiftRight_one crc.toNat
    have hlow : (crc &&& 1).toNat = crc.toNat % 2 := by
      rw [UInt16.toNat_and]
      exact Nat.and_one_is_mod crc.toNat
    have hbyte : crc ^^^ (0 : UInt8).toUInt16 = crc := UInt16.xor_zero
    rw [crc16Bit, UInt16.xor_eq_zero_iff, hbyte] at h
    rw [h] at hshift
    apply UInt16.toNat_inj.mp
    split_ifs at hshift with hbit
    · rw [hbit] at hlow
      have hzero : (0 : UInt16).toNat = 0 := rfl
      omega
    · have hpoly : (0xa001 : UInt16).toNat = 40961 := rfl
      omega
  · rintro rfl
    decide

theorem crc16Bit_iterate (n : ℕ) (crc : UInt16) :
    (crc16Bit^[n] (crc, 0)).2 = 0 ∧ ((crc16Bit^[n] (crc, 0)).1 = 0 ↔ crc = 0) := by
  induction n with
  | zero => exact ⟨rfl, Iff.rfl⟩
  | succ n ih =>
      rw [Function.iterate_succ_apply']
      generalize crc16Bit^[n] (crc, 0) = s at ih
      obtain ⟨crc', ds⟩ := s
      obtain ⟨rfl, hfst⟩ := ih
      exact ⟨crc16Bit_snd crc', (crc16Bit_fst_eq_zero_iff crc').trans hfst⟩

theorem getCrc16_zeros (data : List UInt8) (n : ℕ) :
    getCrc16 (data ++ List.replicate n 0) = 0 ↔ getCrc16 data = 0 := by
  induction n with
  | zero => rw [List.replicate_zero, List.append_nil]
  | succ n ih =>
      rw [List.replicate_succ', ← List.append_assoc, getCrc16, List.foldl_append]
      exact (crc16Bit_iterate 8 _).2.trans ih

/-! ## The CRC behind the end -/

variable {dec : List UInt8}

theorem decBuf_take {n : ℕ} (hle : dec.length ≤ n) (hmax : n ≤ tuyaBleAirFrameMax) :
    (decBuf dec).take n = dec ++ List.replicate (n - dec.length) 0 := by
  rw [decBuf, List.take_append, List.take_of_length_le hle, List.take_replicate,
    Nat.min_eq_left (by omega)]

theorem decBuf_drop {n : ℕ} (hle : dec.length ≤ n) :
    (decBuf dec).drop n = List.replicate
    (tuyaBleAirFrameMax - dec.length - (n - dec.length)) 0 := by
  rw [decBuf, List.drop_append, List.drop_of_length_le hle, List.nil_append, List.drop_replicate]

theorem crc_behind {n : ℕ} (hle : dec.length ≤ n) (hmax : n ≤ tuyaBleAirFrameMax) :
    getCrc16 dec = 0 ↔
      Bytes.getBE (decBuf dec) n 2 = (getCrc16 ((decBuf dec).take n)).toNat := by
  rw [decBuf_take hle hmax, Bytes.getBE, decBuf_drop hle, List.take_replicate, Bytes.decodeBE_zeros,
    ← getCrc16_zeros dec (n - dec.length)]
  constructor
  · intro h
    rw [h]
    rfl
  · intro h
    exact UInt16.toNat_inj.mp h.symm

theorem crc_across {init : List UInt8} {b : UInt8} (hmax : init.length + 2 ≤ tuyaBleAirFrameMax) :
    (getCrc16 init).toNat = b.toNat * 256 ↔
      Bytes.getBE (decBuf (init ++ [b])) init.length 2 =
        (getCrc16 ((decBuf (init ++ [b])).take init.length)).toNat := by
  obtain ⟨k, hk⟩ : ∃ k, tuyaBleAirFrameMax - (init ++ [b]).length = k + 1 := by
    refine ⟨tuyaBleAirFrameMax - (init ++ [b]).length - 1, ?_⟩
    rw [List.length_append, List.length_singleton]
    omega
  have hbuf : decBuf (init ++ [b]) = init ++ ([b, 0] ++ List.replicate k 0) := by
    rw [decBuf, hk, List.replicate_succ, List.append_assoc]
    rfl
  have hword : Bytes.decodeBE [b, 0] = b.toNat * 256 := by
    simp [Bytes.decodeBE, Nat.shiftLeft_eq]
  have hlen : [b, 0].length = 2 := rfl
  rw [hbuf, List.take_left, Bytes.getBE, Bytes.take_drop_append rfl hlen, hword]
  exact eq_comm

theorem crcMatches_iff (hmax : blePacketMinLen + announcedLen dec ≤ tuyaBleAirFrameMax) :
    CrcMatches dec ↔ Bytes.getBE (decBuf dec) (blePacketDataInd + announcedLen dec) 2 =
      (getCrc16 ((decBuf dec).take (blePacketDataInd + announcedLen dec))).toNat := by
  have hmin : blePacketMinLen = blePacketDataInd + 2 := rfl
  rw [CrcMatches]
  generalize announcedLen dec = len at hmax
  split_ifs with hbehind hacross
  · apply crc_behind hbehind
    omega
  · rcases dec.eq_nil_or_concat' with rfl | ⟨init, b, rfl⟩
    · simp at hacross
    · rw [List.length_append, List.length_singleton, Nat.add_right_cancel_iff] at hacross
      rw [List.dropLast_concat, List.getLastD_concat, ← hacross]
      apply crc_across
      omega
  · rw [decBuf, Bytes.getBE_append_left (by omega), List.take_append_of_le_length (by omega)]

/-! ## Accepted packets -/

variable {c : Crypto} {st : CryptStatic} {p : BleCryptoParam} {recvSn : UInt32} {version : ℕ}
  {raw : List UInt8} {malloc : Bool}

theorem parsePacket_isSome_iff (st : CryptStatic) (mode : UInt8) :
    (parsePacket st recvSn mode (decBuf dec) malloc).packet.isSome ↔
      blePacketMinLen + announcedLen dec ≤ tuyaBleAirFrameMax ∧ CrcMatches dec ∧
        recvSn < UInt32.ofNat (Bytes.getBE (decBuf dec) 0 4) ∧
        (announcedLen dec = 0 ∨ malloc = true) := by
  have hlen : Bytes.getBE (decBuf dec) 10 2 = announcedLen dec := rfl
  by_cases hmax : blePacketMinLen + announcedLen dec ≤ tuyaBleAirFrameMax
  · have hfits : ¬ tuyaBleAirFrameMax < announcedLen dec + blePacketMinLen := by omega
    rw [crcMatches_iff hmax, Nat.add_comm blePacketDataInd (announcedLen dec)]
    simp only [parsePacket, hlen, Nat.add_comm blePacketDataInd (announcedLen dec), if_neg hfits]
    split_ifs with hcrc hsn hmem
    · simp [hcrc]
    · simp [hsn]
    · simp [hmem.1, hmem.2]
    · have hsn' : recvSn < UInt32.ofNat (Bytes.getBE (decBuf dec) 0 4) := by simpa using hsn
      have hmem' : announcedLen dec = 0 ∨ malloc = true := by
        rcases malloc with - | -
        · left
          by_contra hne
          exact hmem ⟨hne, rfl⟩
        · exact .inr rfl
      simp [hmax, not_not.mp hcrc, hsn', hmem']
  · have hlong : tuyaBleAirFrameMax < announcedLen dec + blePacketMinLen := by omega
    simp only [parsePacket, hlen, if_pos hlong, hmax, false_and, Option.isSome_none,
      Bool.false_eq_true]

theorem parsePacket_announced {mode : UInt8} {packet : BlePacket}
    (h : (parsePacket st recvSn mode (decBuf dec) malloc).packet = some packet) :
    packet.data.length = announcedLen dec := by
  have hbuf := length_decBuf dec
  have hmin : blePacketMinLen = 14 := rfl
  have hind : blePacketDataInd = 12 := rfl
  simp only [parsePacket] at h
  split_ifs at h with hlong
  cases h
  rw [List.length_take, List.length_drop]
  apply Nat.min_eq_left
  omega

theorem blePacketRecvDecode_packet_iff (packet : BlePacket) :
    (blePacketRecvDecode c st p recvSn version raw malloc).packet = some packet ↔
      raw.length ≤ tuyaBleAirFrameMax ∧ 2 ≤ version ∧
        ∃ dec st', tuyaBleDecryption c st p raw = (0, dec, st') ∧
          (parsePacket st' recvSn (raw.headD 0) (decBuf dec) malloc).packet = some packet := by
  rw [blePacketRecvDecode]
  split_ifs with hlong hver
  · simp only [false_iff]
    intro hall
    exact hall.1.not_gt hlong
  · simp only [false_iff]
    intro hall
    exact hall.2.1.not_gt hver
  · rcases hdec : tuyaBleDecryption c st p raw with ⟨code, dec, st'⟩
    cases code with
    | zero =>
        constructor
        · exact fun h ↦ ⟨Nat.le_of_not_lt hlong, Nat.le_of_not_lt hver, dec, st', rfl, h⟩
        · rintro ⟨-, -, dec', st'', heq, h⟩
          cases heq
          exact h
    | succ code =>
        constructor
        · intro h
          cases h
        · rintro ⟨-, -, dec', st'', heq, -⟩
          cases heq

/-- An accepted packet lies inside its frame unless the frame is overlong and
right in everything else. -/
theorem packet_lies_inside_iff (c : Crypto) (st : CryptStatic) (p : BleCryptoParam)
    (recvSn : UInt32) (version : ℕ) (raw : List UInt8) (malloc : Bool) :
    LiesInside raw (blePacketRecvDecode c st p recvSn version raw malloc) ↔
      ∀ dec st', tuyaBleDecryption c st p raw = (0, dec, st') →
        ¬ Overlong recvSn version raw dec malloc := by
  constructor
  · intro hinside dec st' hdec hover
    have hsome := (parsePacket_isSome_iff st' (raw.headD 0)).mpr
      ⟨hover.announced_le, hover.crc, hover.sn_gt, hover.memory⟩
    obtain ⟨packet, hpacket⟩ := Option.isSome_iff_exists.mp hsome
    have hle := hinside packet ((blePacketRecvDecode_packet_iff packet).mpr
      ⟨hover.raw_le, hover.version_ge, dec, st', hdec, hpacket⟩)
    rw [parsePacket_announced hpacket] at hle
    exact hle.not_gt hover.beyond
  · intro hnone packet hpacket
    obtain ⟨hraw, hver, dec, st', hdec, hparse⟩ :=
      (blePacketRecvDecode_packet_iff packet).mp hpacket
    obtain ⟨hmax, hcrc, hsn, hmem⟩ :=
      (parsePacket_isSome_iff st' (raw.headD 0)).mp (Option.isSome_iff_exists.mpr ⟨packet, hparse⟩)
    rw [parsePacket_announced hparse]
    by_contra hbeyond
    exact hnone dec st' hdec ⟨hraw, hver, Nat.lt_of_not_le hbeyond, hmax, hcrc, hsn, hmem⟩

/-- A frame in plaintext with two bytes of data and their CRC, low byte first,
that announces four. -/
def overlongFrame : List UInt8 := [0, 0, 0, 0, 1, 0, 0, 0, 0, 0, 5, 0, 4, 1, 2, 162, 109]

theorem packet_not_lies_inside :
    ¬ ∀ (c : Crypto) (st : CryptStatic) (p : BleCryptoParam) (recvSn : UInt32) (version : ℕ)
      (raw : List UInt8) (malloc : Bool),
      LiesInside raw (blePacketRecvDecode c st p recvSn version raw malloc) := by
  intro h
  have hrecv : (blePacketRecvDecode sampleCrypto .init sampleParam 0 4 overlongFrame true).packet =
      some ⟨1, 5, [1, 2, 162, 109], encryptionModeNone⟩ := by decide +kernel
  exact absurd (h sampleCrypto .init sampleParam 0 4 overlongFrame true _ hrecv) (by decide)

end TuyaOpen.Ble
