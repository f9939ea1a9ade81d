import TuyaOpen.Ble.Reassembly

/-!
# Sending a frame in subpackets

The encoder of `ble_trsmitr.c` is called until it stops asking to continue,
and the receiver then holds the frame that was sent.  The loop of
`ble_packet_resp` overwrites the encoder's code with the code of the
transport, so it sends the first subpacket only.
-/

namespace TuyaOpen.Ble

def bleFrameSeqGet (frameSeq : ℕ) : ℕ × ℕ :=
  if 16 ≤ frameSeq then (0, frameSeq) else (frameSeq, frameSeq + 1)

def sendHeader (trsmitr : BleFrameTrsmitr) (len : ℕ) : List UInt8 :=
  encodeDigits 4 trsmitr.subpkgNum ++
    if trsmitr.subpkgNum = 0 then
      encodeDigits 4 len ++ [UInt8.ofNat (trsmitr.version <<< 4 ||| (trsmitr.seq &&& 0x0f))]
    else []

def sendSubpkg (packetLen : ℕ) (trsmitr : BleFrameTrsmitr) (buf : List UInt8) :
    Option (BleFrameTrsmitr × OperateRet) :=
  let header := sendHeader trsmitr buf.length
  let sendData := usub 16 packetLen header.length
  let left := usub 32 buf.length trsmitr.pkgTrsmitrCnt
  let sendData := if left < sendData then left else sendData
  if buf.length < trsmitr.pkgTrsmitrCnt + sendData ∨
      trsmitr.subpkg.length < header.length + sendData then none
  else
    let trsmitr := { trsmitr with
      subpkg := trsmitr.subpkg.splice 0
        (header ++ (buf.drop trsmitr.pkgTrsmitrCnt).take sendData)
      subpkgLen := header.length + sendData
      pkgTrsmitrCnt := (trsmitr.pkgTrsmitrCnt + sendData) % 2 ^ 32
      pkgDesc := if trsmitr.subpkgNum = 0 then .pkgFirst else .pkgMiddle }
    if trsmitr.pkgTrsmitrCnt < trsmitr.total then
      some ({ trsmitr with subpkgNum := trsmitr.subpkgNum + 1 }, oprtSvcBtApiTrsmitrContinue)
    else some ({ trsmitr with pkgDesc := .pkgEnd }, oprtOk)

/-- `frameSeq` is the static counter of the module. -/
def bleFrameTrsmitrSendPkgEncode (packetLen frameSeq : ℕ) (trsmitr : BleFrameTrsmitr)
    (version : ℕ) (buf : List UInt8) : Option (ℕ × BleFrameTrsmitr × OperateRet) :=
  let seq := bleFrameSeqGet frameSeq
  let frameSeq := if trsmitr.pkgDesc = .pkgInit then seq.2 else frameSeq
  let trsmitr := if trsmitr.pkgDesc = .pkgInit then
      { trsmitr with
        total := buf.length
        version := version
        seq := seq.1
        subpkgNum := 0
        pkgTrsmitrCnt := 0 }
    else trsmitr
  if 0x10000000 ≤ trsmitr.subpkgNum ∨ 0x10000000 ≤ buf.length then
    some (frameSeq, trsmitr, oprtComError)
  else (sendSubpkg packetLen trsmitr buf).map fun r ↦ (frameSeq, r)

/-- The loop of `ble_packet_resp` with a bound on its rounds; `sends` gives the
code of the transport in each round.  The packets handed to the transport
come back with the code the function returns. -/
def respLoop (packetLen version : ℕ) (outbuf : List UInt8) (sends : ℕ → OperateRet) :
    ℕ → ℕ → ℕ → BleFrameTrsmitr → Option (List (List UInt8) × OperateRet)
  | 0, _, _, _ => none
  | fuel + 1, i, frameSeq, trsmitr =>
    match bleFrameTrsmitrSendPkgEncode packetLen frameSeq trsmitr version outbuf with
    | none => none
    | some (frameSeq, trsmitr, rt) =>
      if rt ≠ oprtOk ∧ rt ≠ oprtSvcBtApiTrsmitrContinue then some ([], rt)
      else if packetLen < trsmitr.subpkgLen then none
      else
        let pbuf := trsmitr.subpkg.take trsmitr.subpkgLen
        let rt := sends i
        if rt ≠ oprtOk then some ([pbuf], rt)
        else if rt = oprtSvcBtApiTrsmitrContinue then
          (respLoop packetLen version outbuf sends fuel (i + 1) frameSeq trsmitr).map
            fun r ↦ (pbuf :: r.1, r.2)
        else some ([pbuf], rt)

def blePacketRespSend (packetLen version : ℕ) (outbuf : List UInt8) (sends : ℕ → OperateRet)
    (fuel frameSeq : ℕ) : Option (List (List UInt8) × OperateRet) :=
  respLoop packetLen version outbuf sends fuel 0 frameSeq (bleFrameTrsmitrCreate packetLen)

/-- Call the encoder until it no longer asks to continue. -/
def encodeAll (packetLen version : ℕ) (buf : List UInt8) :
    ℕ → ℕ → BleFrameTrsmitr → Option (List (List UInt8))
  | 0, _, _ => none
  | fuel + 1, frameSeq, trsmitr =>
    match bleFrameTrsmitrSendPkgEncode packetLen frameSeq trsmitr version buf with
    | none => none
    | some (frameSeq, trsmitr, rt) =>
      if rt = oprtSvcBtApiTrsmitrContinue then
        (encodeAll packetLen version buf fuel frameSeq trsmitr).map
          fun r ↦ trsmitr.subpkg.take trsmitr.subpkgLen :: r
      else if rt = oprtOk then some [trsmitr.subpkg.take trsmitr.subpkgLen]
      else none

/-! ## One subpacket -/

def sendLen (packetLen : ℕ) (t : BleFrameTrsmitr) (buf : List UInt8) : ℕ :=
  min (packetLen - (sendHeader t buf.length).length) (buf.length - t.pkgTrsmitrCnt)

def sendPacket (packetLen : ℕ) (t : BleFrameTrsmitr) (buf : List UInt8) : List UInt8 :=
  sendHeader t buf.length ++ (buf.drop t.pkgTrsmitrCnt).take (sendLen packetLen t buf)

/-- A sender in the middle of the frame `buf`. -/
structure Sending (packetLen : ℕ) (t : BleFrameTrsmitr) (buf : List UInt8) : Prop where
  total_eq : t.total = buf.length
  cnt_le : t.pkgTrsmitrCnt ≤ buf.length
  subpkg_length : t.subpkg.length = packetLen
  num_lt : t.subpkgNum < 2 ^ 28
  header_le : (sendHeader t buf.length).length ≤ packetLen

variable {packetLen : ℕ} {t : BleFrameTrsmitr} {buf : List UInt8}

theorem length_sendPacket (packetLen : ℕ) (t : BleFrameTrsmitr) (buf : List UInt8) :
    (sendPacket packetLen t buf).length =
      (sendHeader t buf.length).length + sendLen packetLen t buf := by
  rw [sendPacket, List.length_append, List.length_take, List.length_drop, sendLen]
  omega

theorem sendSubpkg_eq (h : Sending packetLen t buf) (hpl : packetLen < 2 ^ 16)
    (hbuf : buf.length < 2 ^ 28) :
    ∃ t', sendSubpkg packetLen t buf =
        some (t', if t.pkgTrsmitrCnt + sendLen packetLen t buf < buf.length
          then oprtSvcBtApiTrsmitrContinue else oprtOk) ∧
      t'.subpkg.take t'.subpkgLen = sendPacket packetLen t buf ∧
      t'.subpkgLen = (sendPacket packetLen t buf).length ∧
      t'.pkgTrsmitrCnt = t.pkgTrsmitrCnt + sendLen packetLen t buf ∧
      t'.total = t.total ∧ t'.subpkg.length = packetLen ∧ t'.pkgDesc ≠ .pkgInit ∧
      (t.pkgTrsmitrCnt + sendLen packetLen t buf < buf.length →
        t'.subpkgNum = t.subpkgNum + 1) := by
  have hmin : (if buf.length - t.pkgTrsmitrCnt < packetLen - (sendHeader t buf.length).length then
      buf.length - t.pkgTrsmitrCnt else packetLen - (sendHeader t buf.length).length) =
      sendLen packetLen t buf := by
    rw [sendLen]
    split_ifs <;> omega
  have hlen := length_sendPacket packetLen t buf
  have hcap : (sendPacket packetLen t buf).length ≤ t.subpkg.length := by
    have := h.header_le
    rw [hlen, h.subpkg_length, sendLen]
    omega
  have hfit : ¬ (buf.length < t.pkgTrsmitrCnt + sendLen packetLen t buf ∨
      t.subpkg.length < (sendHeader t buf.length).length + sendLen packetLen t buf) := by
    have := h.cnt_le
    rw [← hlen]
    simp only [sendLen] at *
    omega
  have hmod : (t.pkgTrsmitrCnt + sendLen packetLen t buf) % 2 ^ 32 =
      t.pkgTrsmitrCnt + sendLen packetLen t buf := by
    have := h.cnt_le
    apply Nat.mod_eq_of_lt
    simp only [sendLen]
    omega
  have htake := List.take_splice (Nat.zero_le t.subpkg.length) (sendPacket packetLen t buf)
  have hsplice := List.length_splice (show 0 + (sendPacket packetLen t buf).length ≤
    t.subpkg.length by omega)
  rw [zero_add, List.take_zero, List.nil_append] at htake
  simp only [sendSubpkg, usub_of_le h.header_le hpl,
    usub_of_le h.cnt_le (show buf.length < 2 ^ 32 by omega), hmin, if_neg hfit, hmod, h.total_eq]
  by_cases hlt : t.pkgTrsmitrCnt + sendLen packetLen t buf < buf.length
  · rw [if_pos hlt, if_pos hlt]
    refine ⟨_, rfl, ?_, hlen.symm, rfl, rfl, ?_, ?_, fun _ ↦ rfl⟩
    · simp only [← hlen]
      exact htake
    · exact hsplice.trans h.subpkg_length
    · simp only
      split_ifs <;> simp
  · rw [if_neg hlt, if_neg hlt]
    refine ⟨_, rfl, ?_, hlen.symm, rfl, rfl, ?_, by simp, fun h ↦ (hlt h).elim⟩
    · simp only [← hlen]
      exact htake
    · exact hsplice.trans h.subpkg_length

theorem parse_sendHeader (hnum : t.subpkgNum = 0) (hbuf : buf.length < 2 ^ 28)
    (data : List UInt8) :
    parseSubpkg (sendHeader t buf.length ++ data) =
      some ⟨0, buf.length, UInt8.ofNat (t.version <<< 4 ||| (t.seq &&& 0x0f)), data⟩ := by
  simp only [sendHeader, hnum, if_true, encodeDigits_eq, List.append_assoc]
  simp only [parseSubpkg, Leb128.decode_encode (show 0 < 128 ^ 4 by decide),
    Leb128.decode_encode (show buf.length < 128 ^ 4 by omega), ne_eq, not_true_eq_false, if_false,
    List.cons_append, List.nil_append]

theorem parse_sendPacket_first (hnum : t.subpkgNum = 0) (hbuf : buf.length < 2 ^ 28) :
    parseSubpkg (sendPacket packetLen t buf) =
      some ⟨0, buf.length, UInt8.ofNat (t.version <<< 4 ||| (t.seq &&& 0x0f)),
        (buf.drop t.pkgTrsmitrCnt).take (sendLen packetLen t buf)⟩ := by
  rw [sendPacket]
  exact parse_sendHeader hnum hbuf _

theorem version_unpack {version : ℕ} (h : version < 16) (seq : ℕ) :
    (UInt8.ofNat (version <<< 4 ||| (seq &&& 0x0f)) &&& 0xf0).toNat >>> 4 = version := by
  have hall : ∀ v < 16, ∀ q < 16, (UInt8.ofNat (v <<< 4 ||| q) &&& 0xf0).toNat >>> 4 = v := by
    decide +kernel
  have hseq : seq &&& 0x0f < 16 := by
    rw [show (0x0f : ℕ) = 2 ^ 4 - 1 by rfl, Nat.and_two_pow_sub_one_eq_mod]
    exact Nat.mod_lt _ (by decide)
  exact hall version h _ hseq

/-! ## The receiver on the packets of one frame -/

/-- A receiver that has the frame `f` and will take subpackets of the given
size. -/
structure Holds (s : BlePacketRecv × Option Frame) (f : Frame) (version cap : ℕ) : Prop where
  inv : RecvInv s
  frame_eq : s.2 = some f
  version_eq : s.1.trsmitr.version = version
  cap_le : cap ≤ s.1.trsmitr.subpkg.length

def contOrOk (f : Frame) : OperateRet :=
  if f.bytes.length < f.total then oprtSvcBtApiTrsmitrContinue else oprtOk

theorem length_taken_subpkg {payload : List UInt8} (hcap : takeLen t payload ≤ t.subpkg.length) :
    (taken t payload).subpkg.length = t.subpkg.length := by
  simp only [taken]
  rw [List.length_splice]
  simp only [length_take_takeLen]
  omega

theorem appended_fits {r : BlePacketRecv} {src : List UInt8}
    (h : r.rawLen + src.length ≤ tuyaBleAirFrameMax) (rt : OperateRet) :
    (appended r src rt).2 = rt := by
  rw [appended, if_pos h]

variable {s : BlePacketRecv × Option Frame} {raw : RawPacket} {p : Subpkg} {f : Frame}
  {version cap : ℕ}

theorem holds_first (hinv : RecvInv s) (hcap : cap ≤ s.1.trsmitr.subpkg.length)
    (hp : parseSubpkg raw = some p) (hnum : p.num = 0) (hpay : p.payload.length ≤ cap)
    (hle : p.payload.length ≤ p.total) (htotal : p.total ≤ tuyaBleAirFrameMax) :
    Holds (recvMachine.step s raw).1 ⟨0, p.total, p.payload⟩
        ((p.verSeq &&& 0xf0).toNat >>> 4) cap ∧
      (recvMachine.step s raw).2 = some (contOrOk ⟨0, p.total, p.payload⟩) := by
  have hmin : min p.payload.length p.total = p.payload.length := Nat.min_eq_left hle
  have hfit : min p.payload.length p.total ≤ s.1.trsmitr.subpkg.length := by omega
  have hstep := stepOk_first hinv hp hnum hfit
  have heq := step_first hinv hp hnum hfit
  rw [heq] at hstep ⊢
  refine ⟨⟨hstep.inv, rfl, ?_, ?_⟩, ?_⟩
  · simp [taken, startFrame]
  · simp only [appended_trsmitr]
    rw [length_taken_subpkg (by exact hfit)]
    exact hcap
  · rw [appended_fits]
    · simp only [takenRet, takeLen_startFrame, hmin, contOrOk]
      simp only [startFrame, zero_add]
    · simp only [takeLen_startFrame, hmin, clearRaw, List.take_length]
      omega

theorem holds_complete (h : Holds s f version cap) (hlen : f.bytes.length = f.total)
    (htotal : f.total ≤ tuyaBleAirFrameMax) :
    s.1.rawLen = f.bytes.length ∧ s.1.rawBuf.take s.1.rawLen = f.bytes := by
  have hsync := h.inv.in_sync f h.frame_eq
  have hraw : s.1.rawLen = f.bytes.length := by
    rw [hsync.len_eq, hsync.cnt_eq]
    omega
  refine ⟨hraw, ?_⟩
  rw [hsync.buf_eq (by omega)]
  exact List.take_of_length_le (le_of_eq hlen)

/-! ## Whole frames -/

def sendStart (packetLen frameSeq version : ℕ) (buf : List UInt8) : BleFrameTrsmitr :=
  { bleFrameTrsmitrCreate packetLen with
    total := buf.length
    version := version
    seq := (bleFrameSeqGet frameSeq).1 }

theorem length_sendHeader_le (t : BleFrameTrsmitr) (len : ℕ) :
    (sendHeader t len).length ≤ 6 := by
  have hnum := Leb128.length_encode_le 4 t.subpkgNum
  have hlen := Leb128.length_encode_le 4 len
  by_cases h : t.subpkgNum = 0
  · have hone : (Leb128.encode 4 0).length = 1 := by decide
    simp only [sendHeader, h, if_true, encodeDigits_eq, List.length_append, hone,
      List.length_singleton]
    omega
  · simp only [sendHeader, h, if_false, encodeDigits_eq, List.append_nil]
    omega

theorem sending_of_counters (hpl : 7 ≤ packetLen) (htotal : t.total = buf.length)
    (hcnt : t.pkgTrsmitrCnt ≤ buf.length) (hsubpkg : t.subpkg.length = packetLen)
    (hnum : t.subpkgNum < 2 ^ 28) : Sending packetLen t buf :=
  ⟨htotal, hcnt, hsubpkg, hnum, (length_sendHeader_le t buf.length).trans (by omega)⟩

theorem sending_start {frameSeq : ℕ} (hpl : 7 ≤ packetLen) :
    Sending packetLen (sendStart packetLen frameSeq version buf) buf :=
  sending_of_counters hpl rfl (Nat.zero_le _) (by simp [sendStart, bleFrameTrsmitrCreate])
    (Nat.two_pow_pos 28)

theorem encode_start {frameSeq : ℕ} (hbuf : buf.length < 2 ^ 28) :
    bleFrameTrsmitrSendPkgEncode packetLen frameSeq (bleFrameTrsmitrCreate packetLen) version buf =
      (sendSubpkg packetLen (sendStart packetLen frameSeq version buf) buf).map
        fun r ↦ ((bleFrameSeqGet frameSeq).2, r) := by
  have hsmall : ¬ ((0x10000000 : ℕ) ≤ 0 ∨ 0x10000000 ≤ buf.length) := by omega
  simp only [bleFrameTrsmitrSendPkgEncode, bleFrameTrsmitrCreate, if_true, if_neg hsmall]
  rfl

/-- Every packet but the last asks to continue, and the last completes. -/
def Delivers (s : BlePacketRecv × Option Frame) (pkts : List RawPacket) : Prop :=
  recvMachine.outputs s pkts =
    List.replicate (pkts.length - 1) (some oprtSvcBtApiTrsmitrContinue) ++ [some oprtOk]

theorem delivers_single {pkt : RawPacket} (hout : (recvMachine.step s pkt).2 = some oprtOk) :
    Delivers s [pkt] := by
  simp only [Delivers, Mealy.outputs_cons, hout]
  rfl

theorem contOrOk_take {num n : ℕ} (h : n < buf.length) :
    contOrOk ⟨num, buf.length, buf.take n⟩ = oprtSvcBtApiTrsmitrContinue := by
  simp only [contOrOk, List.length_take]
  rw [if_pos (by omega)]

theorem contOrOk_whole (num : ℕ) (buf : List UInt8) :
    contOrOk ⟨num, buf.length, buf⟩ = oprtOk := by
  rw [contOrOk, if_neg (lt_irrefl _)]

theorem sendPacket_lt (h : Sending packetLen t buf) (hpl : packetLen < 2 ^ 16) :
    (sendPacket packetLen t buf).length < 2 ^ 16 := by
  have hle := h.header_le
  rw [length_sendPacket, sendLen]
  omega

theorem holds_begin (hpl' : packetLen < 2 ^ 16) (hver : version < 16)
    (hbuf : buf.length ≤ tuyaBleAirFrameMax) (hinv : RecvInv s)
    (hcap : packetLen ≤ s.1.trsmitr.subpkg.length) (frameSeq : ℕ) {pkt : RawPacket}
    (hpkt : pkt.1 = sendPacket packetLen (sendStart packetLen frameSeq version buf) buf) :
    let n := sendLen packetLen (sendStart packetLen frameSeq version buf) buf
    Holds (recvMachine.step s pkt).1 ⟨0, buf.length, buf.take n⟩ version packetLen ∧
      (recvMachine.step s pkt).2 = some (contOrOk ⟨0, buf.length, buf.take n⟩) := by
  intro n
  have hmax : buf.length < 2 ^ 28 := lt_of_le_of_lt hbuf (by decide)
  have hp : parseSubpkg pkt.1 = _ := hpkt ▸ parse_sendPacket_first rfl hmax
  have hn : n ≤ packetLen := by
    simp only [n, sendLen]
    omega
  have hdrop : buf.drop (sendStart packetLen frameSeq version buf).pkgTrsmitrCnt = buf := rfl
  rw [hdrop] at hp
  have hstart := holds_first hinv hcap hp rfl
    (by simp only [List.length_take]; omega) (by simp only [List.length_take]; omega) hbuf
  simp only at hstart
  rw [show (sendStart packetLen frameSeq version buf).version = version from rfl,
    version_unpack hver] at hstart
  exact hstart

theorem FreshRecv.cap_le {r : BlePacketRecv} (hfresh : FreshRecv packetLen r) :
    packetLen ≤ r.trsmitr.subpkg.length := by
  simp [hfresh.1, bleFrameTrsmitrCreate]

theorem holds_start (hpl' : packetLen < 2 ^ 16) (hver : version < 16)
    (hbuf : buf.length ≤ tuyaBleAirFrameMax) {r : BlePacketRecv} (hfresh : FreshRecv packetLen r)
    (frameSeq : ℕ) {pkt : RawPacket}
    (hpkt : pkt.1 = sendPacket packetLen (sendStart packetLen frameSeq version buf) buf) :
    let n := sendLen packetLen (sendStart packetLen frameSeq version buf) buf
    Holds (recvMachine.step (r, none) pkt).1 ⟨0, buf.length, buf.take n⟩ version packetLen ∧
      (recvMachine.step (r, none) pkt).2 = some (contOrOk ⟨0, buf.length, buf.take n⟩) :=
  holds_begin hpl' hver hbuf (recvInv_fresh hfresh) hfresh.cap_le frameSeq hpkt

theorem blePacketRespSend_eq (hpl : 7 ≤ packetLen) (hpl' : packetLen < 2 ^ 16)
    (hbuf : buf.length ≤ tuyaBleAirFrameMax) (fuel frameSeq : ℕ) :
    blePacketRespSend packetLen version buf (fun _ ↦ oprtOk) (fuel + 1) frameSeq =
      some ([sendPacket packetLen (sendStart packetLen frameSeq version buf) buf], oprtOk) := by
  have hmax : buf.length < 2 ^ 28 := lt_of_le_of_lt hbuf (by decide)
  have hsend : Sending packetLen (sendStart packetLen frameSeq version buf) buf :=
    sending_start hpl
  obtain ⟨t', hencode, hpacket, hlen', -⟩ := sendSubpkg_eq hsend hpl' hmax
  have hle : ¬ packetLen < t'.subpkgLen := by
    have := hsend.header_le
    rw [hlen', length_sendPacket, sendLen]
    omega
  rw [blePacketRespSend, respLoop, encode_start hmax, hencode]
  simp only [Option.map_some, if_neg hle, hpacket]
  rw [if_neg]
  · rfl
  · split_ifs <;> simp

def FitsFirst (packetLen : ℕ) (payload : List UInt8) : Prop :=
  payload.length + (if payload.length < 128 then 3 else 4) ≤ packetLen

instance (packetLen : ℕ) (payload : List UInt8) : Decidable (FitsFirst packetLen payload) :=
  inferInstanceAs (Decidable (_ ≤ _))

/-- What `ble_packet_resp` is to achieve: its loop ends, every packet but the
last is answered with a request to continue and the last with `OPRT_OK`, and
the receiver then has the payload and the version. -/
def RespRoundTrip (packetLen version frameSeq : ℕ) (payload : List UInt8) (r : BlePacketRecv) :
    Prop :=
  ∃ (fuel : ℕ) (pkts : List RawPacket) (rt : OperateRet),
    blePacketRespSend packetLen version payload (fun _ ↦ oprtOk) fuel frameSeq =
      some (pkts.map Subtype.val, rt) ∧
    Delivers (r, none) pkts ∧
    (recvMachine.final (r, none) pkts).1.rawLen = payload.length ∧
    (recvMachine.final (r, none) pkts).1.rawBuf.take payload.length = payload ∧
    (recvMachine.final (r, none) pkts).1.trsmitr.version = version

theorem fitsFirst_iff (version frameSeq : ℕ) (hpl : 7 ≤ packetLen)
    (hbuf : buf.length ≤ tuyaBleAirFrameMax) :
    FitsFirst packetLen buf ↔
      buf.length ≤ sendLen packetLen (sendStart packetLen frameSeq version buf) buf := by
  have hhead : (sendHeader (sendStart packetLen frameSeq version buf) buf.length).length =
      if buf.length < 128 then 3 else 4 := by
    have hone : (Leb128.encode 4 0).length = 1 := by decide
    have hmax : tuyaBleAirFrameMax = 1024 := rfl
    simp only [sendHeader, show (sendStart packetLen frameSeq version buf).subpkgNum = 0 from rfl,
      if_true, encodeDigits_eq, List.length_append, hone, List.length_singleton]
    by_cases h : buf.length < 128
    · simp [Leb128.encode, h]
    · have h2 : buf.length / 128 < 128 := by omega
      simp [Leb128.encode, h, h2]
  have hcnt0 : (sendStart packetLen frameSeq version buf).pkgTrsmitrCnt = 0 := rfl
  rw [FitsFirst, sendLen, hhead, hcnt0]
  split_ifs <;> omega

section

variable {payload : List UInt8} {r : BlePacketRecv}

theorem fits_of_respRoundTrip (hpl : 7 ≤ packetLen) (hpl' : packetLen < 2 ^ 16)
    (hver : version < 16) (hlen : payload.length ≤ tuyaBleAirFrameMax) {frameSeq : ℕ}
    (hfresh : FreshRecv packetLen r) (h : RespRoundTrip packetLen version frameSeq payload r) :
    FitsFirst packetLen payload := by
  obtain ⟨fuel, pkts, rt, hsent, hdel, -⟩ := h
  cases fuel with
  | zero => cases hsent
  | succ fuel =>
      rw [blePacketRespSend_eq hpl hpl' hlen] at hsent
      obtain ⟨hpkts, -⟩ := Prod.mk.inj (Option.some.inj hsent)
      obtain ⟨pkt, rest, rfl, hpkt, hrest⟩ := List.map_eq_cons_iff.mp hpkts.symm
      obtain rfl : rest = [] := List.map_eq_nil_iff.mp hrest
      obtain ⟨-, hout⟩ := holds_start hpl' hver hlen hfresh frameSeq hpkt
      have hok : (recvMachine.step (r, none) pkt).2 = some oprtOk := by
        simpa [Delivers] using hdel
      rw [hok] at hout
      rw [fitsFirst_iff version frameSeq hpl hlen]
      -- an incomplete frame would have been answered with a request to continue
      by_contra hlt
      rw [contOrOk_take (Nat.lt_of_not_le hlt)] at hout
      simp [oprtOk, oprtSvcBtApiTrsmitrContinue] at hout

theorem respRoundTrip_of_fits (hpl : 7 ≤ packetLen) (hpl' : packetLen < 2 ^ 16)
    (hver : version < 16) (hlen : payload.length ≤ tuyaBleAirFrameMax) (frameSeq : ℕ)
    (hfresh : FreshRecv packetLen r) (hfits : FitsFirst packetLen payload) :
    RespRoundTrip packetLen version frameSeq payload r := by
  rw [fitsFirst_iff version frameSeq hpl hlen] at hfits
  have hsend : Sending packetLen (sendStart packetLen frameSeq version payload) payload :=
    sending_start hpl
  let pkt : RawPacket := ⟨_, sendPacket_lt hsend hpl'⟩
  obtain ⟨hholds, hout⟩ := holds_start hpl' hver hlen hfresh frameSeq
    (show pkt.1 = sendPacket packetLen (sendStart packetLen frameSeq version payload) payload
      from rfl)
  rw [List.take_of_length_le hfits] at hholds hout
  rw [contOrOk_whole] at hout
  obtain ⟨hraw, htake⟩ := holds_complete hholds rfl hlen
  refine ⟨1, [pkt], oprtOk, blePacketRespSend_eq hpl hpl' hlen 0 frameSeq, delivers_single hout,
    hraw, ?_, hholds.version_eq⟩
  rw [← hraw]
  exact htake

/-- `ble_packet_resp` delivers exactly the frames that fit one subpacket. -/
theorem resp_round_trip_iff (hpl : 7 ≤ packetLen) (hpl' : packetLen < 2 ^ 16)
    (hver : version < 16) (hlen : payload.length ≤ tuyaBleAirFrameMax) (frameSeq : ℕ)
    (hfresh : FreshRecv packetLen r) :
    RespRoundTrip packetLen version frameSeq payload r ↔ FitsFirst packetLen payload :=
  ⟨fits_of_respRoundTrip hpl hpl' hver hlen hfresh,
    respRoundTrip_of_fits hpl hpl' hver hlen frameSeq hfresh⟩

end

def twentyRecv : BlePacketRecv :=
  ⟨bleFrameTrsmitrCreate 20, 0, List.replicate tuyaBleAirFrameMax 0⟩

theorem twentyRecv_fresh : FreshRecv 20 twentyRecv := ⟨rfl, by simp [twentyRecv]⟩

theorem resp_round_trip_iff_three :
    FitsFirst 20 [1, 2, 3] ∧ RespRoundTrip 20 4 0 [1, 2, 3] twentyRecv :=
  ⟨by decide, (resp_round_trip_iff (by decide) (by decide) (by decide) (by decide) 0
    twentyRecv_fresh).mpr (by decide)⟩

/-- A frame of thirty bytes does not arrive in packets of twenty. -/
theorem resp_drops_thirty :
    ¬ RespRoundTrip 20 4 0 (List.replicate 30 7) twentyRecv := by
  intro h
  exact absurd (fits_of_respRoundTrip (by decide) (by decide) (by decide) (by decide)
    twentyRecv_fresh h) (by decide)

end TuyaOpen.Ble
