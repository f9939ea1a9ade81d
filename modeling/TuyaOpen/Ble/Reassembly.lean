import TuyaOpen.Ble.Trsmitr
import TuyaOpen.Lib.Mealy

/-!
# Reassembly of frames in `ble_mgr.c`

`blePacketTrsmitr` feeds one packet to the subpacket decoder and appends what
the decoder left in `subpkg` to the raw buffer.  The two layers keep their
own counters, `pkgTrsmitrCnt` and `rawLen`.  They stay in step when no
subpacket number is repeated after it brought bytes, and when no later
subpacket is taken without its subpacket `0`; under that condition a frame
that is reported complete is the frame that was sent.
-/

namespace TuyaOpen.Ble

def tuyaBleAirFrameMax : ℕ := 1024

/-- A packet as the stack delivers it; its length is a `uint16_t`. -/
abbrev RawPacket := { raw : List UInt8 // raw.length < 2 ^ 16 }

structure BlePacketRecv where
  trsmitr : BleFrameTrsmitr
  rawLen : ℕ
  rawBuf : List UInt8
  deriving DecidableEq

def clearRaw (r : BlePacketRecv) : BlePacketRecv :=
  { r with rawLen := 0, rawBuf := List.replicate tuyaBleAirFrameMax 0 }

def appendSubpkg (r : BlePacketRecv) (rt : OperateRet) : Option (BlePacketRecv × OperateRet) :=
  let subpkgLen := r.trsmitr.subpkgLen
  let newLen := (r.rawLen + subpkgLen) % 2 ^ 32
  if newLen ≤ tuyaBleAirFrameMax then
    if r.rawBuf.length < r.rawLen + subpkgLen ∨ r.trsmitr.subpkg.length < subpkgLen then none
    else some
      ({ r with
          rawBuf := r.rawBuf.splice r.rawLen (r.trsmitr.subpkg.take subpkgLen)
          rawLen := newLen }, rt)
  else some ({ r with rawLen := newLen }, oprtInvalidParm)

def blePacketTrsmitr (r : BlePacketRecv) (buf : List UInt8) :
    Option (BlePacketRecv × OperateRet) :=
  match bleFrameTrsmitrRecvPkgDecode r.trsmitr buf with
  | none => none
  | some (trsmitr, rt) =>
    let r := { r with trsmitr := trsmitr }
    if rt ≠ oprtOk ∧ rt ≠ oprtSvcBtApiTrsmitrContinue then some (clearRaw r, rt)
    else if trsmitr.pkgDesc = .pkgFirst ∨ (trsmitr.pkgDesc = .pkgEnd ∧ trsmitr.subpkgNum = 0) then
      appendSubpkg (clearRaw r) rt
    else appendSubpkg r rt

/-! ## The frame that was sent -/

/-- The subpackets `0, ..., num` seen since the latest subpacket `0`: the
announced length and all their payload in order. -/
structure Frame where
  num : ℕ
  total : ℕ
  bytes : List UInt8
  deriving DecidableEq

/-- A subpacket `0` starts a frame, the next number extends it, the same
number changes nothing, and any other number loses the frame. -/
def track (frame : Option Frame) (raw : List UInt8) : Option Frame :=
  match parseSubpkg raw with
  | none => none
  | some p =>
    if p.num = 0 then some ⟨0, p.total, p.payload⟩
    else match frame with
      | none => none
      | some f =>
        if p.num = f.num then some f
        else if p.num = f.num + 1 then some ⟨p.num, f.total, f.bytes ++ p.payload⟩
        else none

def assemble (raws : List RawPacket) : Option Frame :=
  raws.foldl (fun frame (raw : RawPacket) ↦ track frame raw) none

/-- The receiver with the frame that was sent so far beside it. -/
def recvMachine : Mealy (BlePacketRecv × Option Frame) RawPacket (Option OperateRet) where
  step s raw :=
    match blePacketTrsmitr s.1 raw with
    | none => (s, none)
    | some (r, rt) => ((r, track s.2 raw), some rt)

/-- A receiver as `tuya_ble_init` makes it; the raw buffer is not initialised. -/
def FreshRecv (packetLen : ℕ) (r : BlePacketRecv) : Prop :=
  r.trsmitr = bleFrameTrsmitrCreate packetLen ∧ r.rawBuf.length = tuyaBleAirFrameMax

/-- The subpackets that do not meet the defects of the receiver.  The payload
fits `subpkg`, a repeated number finds `subpkgLen` zero, and without a
subpacket `0` the next number does not complete the frame. -/
structure Acceptable (s : BlePacketRecv × Option Frame) (p : Subpkg) : Prop where
  fits_first : p.num = 0 → min p.payload.length p.total ≤ s.1.trsmitr.subpkg.length
  fits_next : p.num = s.1.trsmitr.subpkgNum + 1 →
    takeLen s.1.trsmitr p.payload ≤ s.1.trsmitr.subpkg.length
  repeated : p.num ≠ 0 → p.num = s.1.trsmitr.subpkgNum → s.1.trsmitr.subpkgLen = 0
  synced : p.num = s.1.trsmitr.subpkgNum + 1 → s.2 = none →
    s.1.trsmitr.pkgTrsmitrCnt + p.payload.length < s.1.trsmitr.total

/-- The packet is also not shorter than its own header. -/
def Deliverable (s : BlePacketRecv × Option Frame) (raw : RawPacket) : Prop :=
  ∃ p, parseSubpkg raw = some p ∧ Acceptable s p

/-! ## The invariant -/

structure InSync (r : BlePacketRecv) (f : Frame) : Prop where
  num_eq : f.num = r.trsmitr.subpkgNum
  total_eq : f.total = r.trsmitr.total
  cnt_eq : r.trsmitr.pkgTrsmitrCnt = min f.total f.bytes.length
  len_eq : r.rawLen = r.trsmitr.pkgTrsmitrCnt
  buf_eq : r.rawLen ≤ tuyaBleAirFrameMax → r.rawBuf.take r.rawLen = f.bytes.take f.total

structure RecvInv (s : BlePacketRecv × Option Frame) : Prop where
  ok : TrsmitrOk s.1.trsmitr
  buf_length : s.1.rawBuf.length = tuyaBleAirFrameMax
  in_sync : ∀ f, s.2 = some f → InSync s.1 f
  out_of_sync : s.2 = none → s.1.rawLen ≤ s.1.trsmitr.pkgTrsmitrCnt ∨
    (s.1.trsmitr.total = 0 ∧ s.1.trsmitr.subpkgNum = 0)

theorem recvInv_fresh {packetLen : ℕ} {r : BlePacketRecv} (h : FreshRecv packetLen r) :
    RecvInv (r, none) := by
  obtain ⟨htrsmitr, hbuf⟩ := h
  refine ⟨?_, hbuf, by simp, ?_⟩
  · simp only [htrsmitr]
    exact trsmitrOk_create packetLen
  · intro _
    right
    simp only [htrsmitr]
    exact ⟨rfl, rfl⟩

def appended (r : BlePacketRecv) (src : List UInt8) (rt : OperateRet) :
    BlePacketRecv × OperateRet :=
  if r.rawLen + src.length ≤ tuyaBleAirFrameMax then
    ({ r with rawBuf := r.rawBuf.splice r.rawLen src, rawLen := r.rawLen + src.length }, rt)
  else ({ r with rawLen := r.rawLen + src.length }, oprtInvalidParm)

theorem appendSubpkg_eq {r : BlePacketRecv} (hbuf : r.rawBuf.length = tuyaBleAirFrameMax)
    (hlen : r.trsmitr.subpkgLen ≤ r.trsmitr.subpkg.length)
    (hlt : r.rawLen + r.trsmitr.subpkgLen < 2 ^ 32) (rt : OperateRet) :
    appendSubpkg r rt = some (appended r (r.trsmitr.subpkg.take r.trsmitr.subpkgLen) rt) := by
  have hsrc : (r.trsmitr.subpkg.take r.trsmitr.subpkgLen).length = r.trsmitr.subpkgLen := by
    rw [List.length_take]
    omega
  simp only [appendSubpkg, appended, Nat.mod_eq_of_lt hlt, hbuf, hsrc]
  by_cases hle : r.rawLen + r.trsmitr.subpkgLen ≤ tuyaBleAirFrameMax
  · rw [if_pos hle, if_pos hle, if_neg (by omega)]
  · rw [if_neg hle, if_neg hle]

theorem length_take_takeLen (t : BleFrameTrsmitr) (payload : List UInt8) :
    (payload.take (takeLen t payload)).length = takeLen t payload := by
  rw [List.length_take, takeLen]
  omega

theorem take_subpkg_taken (t : BleFrameTrsmitr) (payload : List UInt8) :
    (taken t payload).subpkg.take (taken t payload).subpkgLen =
      payload.take (takeLen t payload) := by
  have htake := List.take_splice (Nat.zero_le t.subpkg.length) (payload.take (takeLen t payload))
  rw [length_take_takeLen, zero_add] at htake
  simpa [taken] using htake

@[simp] theorem appended_trsmitr (r : BlePacketRecv) (src : List UInt8) (rt : OperateRet) :
    (appended r src rt).1.trsmitr = r.trsmitr := by
  unfold appended
  split_ifs <;> rfl

@[simp] theorem appended_rawLen (r : BlePacketRecv) (src : List UInt8) (rt : OperateRet) :
    (appended r src rt).1.rawLen = r.rawLen + src.length := by
  unfold appended
  split_ifs <;> rfl

theorem appended_rawBuf_length {r : BlePacketRecv} (hbuf : r.rawBuf.length = tuyaBleAirFrameMax)
    (src : List UInt8) (rt : OperateRet) :
    (appended r src rt).1.rawBuf.length = tuyaBleAirFrameMax := by
  unfold appended
  split_ifs with hle
  · simp only
    rw [List.length_splice (by omega), hbuf]
  · exact hbuf

theorem appended_take {r : BlePacketRecv} (hbuf : r.rawBuf.length = tuyaBleAirFrameMax)
    {src : List UInt8} (hle : r.rawLen + src.length ≤ tuyaBleAirFrameMax) (rt : OperateRet) :
    (appended r src rt).1.rawBuf.take (r.rawLen + src.length) = r.rawBuf.take r.rawLen ++ src := by
  rw [appended, if_pos hle]
  exact List.take_splice (by omega) src

theorem appended_ok {r : BlePacketRecv} {src : List UInt8} {rt : OperateRet}
    (h : (appended r src rt).2 = oprtOk) :
    rt = oprtOk ∧ r.rawLen + src.length ≤ tuyaBleAirFrameMax := by
  unfold appended at h
  split_ifs at h with hle
  · exact ⟨h, hle⟩
  · simp [oprtInvalidParm, oprtOk] at h

theorem inSync_appended {r : BlePacketRecv} {f : Frame} (hsync : InSync r f)
    (hbuf : r.rawBuf.length = tuyaBleAirFrameMax) (num : ℕ) (desc : PkgDesc)
    (payload : List UInt8) (rt : OperateRet) :
    InSync (appended { r with trsmitr := taken (renum r.trsmitr desc num) payload }
      (payload.take (takeLen r.trsmitr payload)) rt).1 ⟨num, f.total, f.bytes ++ payload⟩ := by
  have hcnt := hsync.cnt_eq
  have hlen : takeLen r.trsmitr payload = min payload.length (f.total - f.bytes.length) := by
    rw [takeLen, ← hsync.total_eq]
    omega
  refine ⟨?_, ?_, ?_, ?_, ?_⟩
  · simp [taken, renum]
  · simp [taken, renum, hsync.total_eq]
  · simp only [appended_trsmitr, taken, takeLen_renum, List.length_append, hlen]
    simp only [renum, hcnt]
    omega
  · simp only [appended_trsmitr, appended_rawLen, length_take_takeLen, taken, hsync.len_eq]
    rfl
  · intro hle
    simp only [appended_rawLen] at hle ⊢
    rw [appended_take (r := { r with trsmitr := taken (renum r.trsmitr desc num) payload })
      hbuf hle]
    simp only
    rw [hsync.buf_eq (by omega), List.take_append, hlen]
    congr 1
    rw [Nat.min_comm, ← List.take_take, List.take_length]

/-! ## One packet -/

structure StepOk (s : BlePacketRecv × Option Frame) (out : Option OperateRet) : Prop where
  inv : RecvInv s
  isSome : out.isSome
  complete : out = some oprtOk → ∃ f, s.2 = some f ∧ f.total ≤ f.bytes.length ∧
    s.1.rawLen ≤ tuyaBleAirFrameMax

variable {s : BlePacketRecv × Option Frame} {raw : RawPacket} {p : Subpkg}

theorem takenRet_ok {t : BleFrameTrsmitr} {payload : List UInt8}
    (h : takenRet t payload = oprtOk) : t.total ≤ t.pkgTrsmitrCnt + takeLen t payload := by
  unfold takenRet at h
  split_ifs at h with hlt
  · simp [oprtSvcBtApiTrsmitrContinue, oprtOk] at h
  · omega

theorem takenRet_not_error (t : BleFrameTrsmitr) (payload : List UInt8) :
    ¬ (takenRet t payload ≠ oprtOk ∧ takenRet t payload ≠ oprtSvcBtApiTrsmitrContinue) := by
  unfold takenRet
  split_ifs <;> simp

theorem blePacketTrsmitr_taken {r : BlePacketRecv} {buf payload : List UInt8} {t : BleFrameTrsmitr}
    (hdec : bleFrameTrsmitrRecvPkgDecode r.trsmitr buf = takePayload t payload)
    (hok : TrsmitrOk t) (hdesc : t.pkgDesc = if t.subpkgNum = 0 then .pkgFirst else .pkgMiddle)
    (hcap : takeLen t payload ≤ t.subpkg.length)
    (hbuf : r.rawBuf.length = tuyaBleAirFrameMax) (hlt : t.subpkgNum ≠ 0 → r.rawLen < 2 ^ 28) :
    blePacketTrsmitr r buf =
      some (appended { (if t.subpkgNum = 0 then clearRaw r else r) with trsmitr := taken t payload }
        (payload.take (takeLen t payload)) (takenRet t payload)) := by
  have hinit : t.pkgDesc ≠ .pkgInit := by
    rw [hdesc]
    split_ifs <;> simp
  have htaken := taken_ok hok hinit hcap
  have hlen : (taken t payload).subpkgLen ≤ t.total := by
    simp only [taken, takeLen]
    omega
  have htotal := hok.total_lt
  simp only [blePacketTrsmitr, hdec, takePayload, if_neg (not_lt.mpr hcap),
    if_neg (takenRet_not_error t payload)]
  by_cases hnum : t.subpkgNum = 0
  · have hclear : (taken t payload).pkgDesc = .pkgFirst ∨
        ((taken t payload).pkgDesc = .pkgEnd ∧ (taken t payload).subpkgNum = 0) := by
      simp only [taken, hdesc, hnum, if_true]
      split_ifs <;> simp
    rw [if_pos hclear, if_pos hnum, ← take_subpkg_taken]
    apply appendSubpkg_eq
    · simp [clearRaw]
    · exact htaken.len_le
    · simp only [clearRaw]
      omega
  · have hclear : ¬ ((taken t payload).pkgDesc = .pkgFirst ∨
        ((taken t payload).pkgDesc = .pkgEnd ∧ (taken t payload).subpkgNum = 0)) := by
      simp only [taken, hdesc, hnum, if_false]
      split_ifs <;> simp
    have hraw := hlt hnum
    rw [if_neg hclear, if_neg hnum, ← take_subpkg_taken]
    apply appendSubpkg_eq
    · exact hbuf
    · exact htaken.len_le
    · simp only
      omega

theorem stepOk_appended {r : BlePacketRecv} {f : Frame} (hsync : InSync r f)
    (hbuf : r.rawBuf.length = tuyaBleAirFrameMax) {num : ℕ} {desc : PkgDesc}
    (hok : TrsmitrOk (renum r.trsmitr desc num)) (hdesc : desc ≠ .pkgInit) (payload : List UInt8)
    (hcap : takeLen r.trsmitr payload ≤ r.trsmitr.subpkg.length) :
    let r' := appended { r with trsmitr := taken (renum r.trsmitr desc num) payload }
      (payload.take (takeLen r.trsmitr payload)) (takenRet (renum r.trsmitr desc num) payload)
    StepOk (r'.1, some ⟨num, f.total, f.bytes ++ payload⟩) (some r'.2) := by
  intro r'
  have hsync' : InSync r'.1 ⟨num, f.total, f.bytes ++ payload⟩ :=
    inSync_appended hsync hbuf num desc payload _
  refine ⟨⟨?_, ?_, ?_, by simp⟩, rfl, ?_⟩
  · simp only [r', appended_trsmitr]
    exact taken_ok hok hdesc hcap
  · exact appended_rawBuf_length (by exact hbuf) _ _
  · intro f' hf'
    cases hf'
    exact hsync'
  · intro hout
    obtain ⟨hret, hle⟩ := appended_ok (Option.some.inj hout)
    have hcomplete := takenRet_ok hret
    have hcnt := hsync'.cnt_eq
    have htotal := hsync.total_eq
    simp only [r', appended_trsmitr, taken] at hcnt
    refine ⟨_, rfl, ?_, ?_⟩
    · simp only [renum] at hcomplete hcnt ⊢
      omega
    · simpa only [r', appended_rawLen] using hle

theorem step_first (hinv : RecvInv s) (hp : parseSubpkg raw = some p) (hnum : p.num = 0)
    (hfits : min p.payload.length p.total ≤ s.1.trsmitr.subpkg.length) :
    let t := startFrame s.1.trsmitr p
    let r' := appended { clearRaw s.1 with trsmitr := taken t p.payload }
      (p.payload.take (takeLen t p.payload)) (takenRet t p.payload)
    recvMachine.step s raw = ((r'.1, some ⟨0, p.total, p.payload⟩), some r'.2) := by
  obtain ⟨hok, hdec⟩ := recv_first hinv.ok raw.2 hp hnum
  have heq := blePacketTrsmitr_taken hdec hok rfl hfits hinv.buf_length (fun h ↦ (h rfl).elim)
  have htrack : track s.2 raw = some ⟨0, p.total, p.payload⟩ := by
    simp [track, hp, hnum]
  simp only [recvMachine, heq, htrack]
  rfl

theorem stepOk_first (hinv : RecvInv s) (hp : parseSubpkg raw = some p) (hnum : p.num = 0)
    (hfits : min p.payload.length p.total ≤ s.1.trsmitr.subpkg.length) :
    StepOk (recvMachine.step s raw).1 (recvMachine.step s raw).2 := by
  have hok := (recv_first hinv.ok raw.2 hp hnum).1
  -- a cleared receiver is in step with the frame that has no payload yet
  have hsync : InSync { clearRaw s.1 with trsmitr := startFrame s.1.trsmitr p }
      ⟨0, p.total, []⟩ := ⟨rfl, rfl, by simp [startFrame], rfl, by simp [clearRaw]⟩
  rw [step_first hinv hp hnum hfits]
  exact stepOk_appended hsync (by simp [clearRaw]) hok (show PkgDesc.pkgFirst ≠ .pkgInit by simp)
    p.payload hfits

theorem step_next (hinv : RecvInv s) (hp : parseSubpkg raw = some p)
    (hnext : p.num = s.1.trsmitr.subpkgNum + 1) (hraw : s.1.rawLen < 2 ^ 28)
    (hcap : takeLen s.1.trsmitr p.payload ≤ s.1.trsmitr.subpkg.length) :
    let t := renum s.1.trsmitr .pkgMiddle p.num
    let r' := appended { s.1 with trsmitr := taken t p.payload }
      (p.payload.take (takeLen s.1.trsmitr p.payload)) (takenRet t p.payload)
    recvMachine.step s raw = ((r'.1, track s.2 raw), some r'.2) := by
  have hnum : p.num ≠ 0 := by omega
  obtain ⟨hok, hdec⟩ := recv_other hinv.ok raw.2 hp hnum
  have hne : p.num ≠ s.1.trsmitr.subpkgNum := by omega
  rw [if_neg hne, if_pos hnext] at hdec
  have heq := blePacketTrsmitr_taken hdec hok (by simp [renum, hnum]) hcap hinv.buf_length
    (fun _ ↦ hraw)
  rw [if_neg (by exact hnum)] at heq
  simp only [recvMachine, heq, takeLen_renum]

theorem rawLen_lt (hinv : RecvInv s)
    (h : s.2 = none → s.1.trsmitr.total ≠ 0 ∨ s.1.trsmitr.subpkgNum ≠ 0) :
    s.1.rawLen < 2 ^ 28 := by
  have hcnt := hinv.ok.cnt_le
  have htotal := hinv.ok.total_lt
  cases hs : s.2 with
  | none =>
      rcases hinv.out_of_sync hs with hle | ⟨hzero, hnum⟩
      · omega
      · rcases h hs with h | h
        · exact (h hzero).elim
        · exact (h hnum).elim
  | some f =>
      have := (hinv.in_sync f hs).len_eq
      omega

theorem track_next (hinv : RecvInv s) {f : Frame} (hs : s.2 = some f)
    (hp : parseSubpkg raw = some p) (hnext : p.num = s.1.trsmitr.subpkgNum + 1) :
    track s.2 raw = some ⟨p.num, f.total, f.bytes ++ p.payload⟩ := by
  have hnum : p.num = f.num + 1 := by rw [hnext, (hinv.in_sync f hs).num_eq]
  simp [track, hp, hs, hnum]

theorem stepOk_next (hinv : RecvInv s) (hacc : Acceptable s p) (hp : parseSubpkg raw = some p)
    (hnext : p.num = s.1.trsmitr.subpkgNum + 1) :
    StepOk (recvMachine.step s raw).1 (recvMachine.step s raw).2 := by
  have hcap := hacc.fits_next hnext
  have hnum : p.num ≠ 0 := by omega
  have hok := (recv_other hinv.ok raw.2 hp hnum).1
  have hraw : s.1.rawLen < 2 ^ 28 := by
    apply rawLen_lt hinv
    intro hs
    have := hacc.synced hnext hs
    omega
  rw [step_next hinv hp hnext hraw hcap]
  cases hs : s.2 with
  | some f =>
      rw [← hs, track_next hinv hs hp hnext]
      exact stepOk_appended (hinv.in_sync f hs) hinv.buf_length hok (by simp) p.payload hcap
  | none =>
      have hincomplete := hacc.synced hnext hs
      have htrack : track none raw = none := by
        simp [track, hp, hnum]
      have hbuf := hinv.buf_length
      rw [htrack]
      refine ⟨⟨?_, ?_, by simp, ?_⟩, rfl, ?_⟩
      · simp only [appended_trsmitr]
        exact taken_ok hok (by simp [renum]) hcap
      · exact appended_rawBuf_length (by exact hbuf) _ _
      · intro _
        left
        have hle : s.1.rawLen ≤ s.1.trsmitr.pkgTrsmitrCnt := by
          rcases hinv.out_of_sync hs with hle | ⟨hzero, _⟩
          · exact hle
          · omega
        simp only [appended_rawLen, appended_trsmitr, length_take_takeLen, taken, takeLen_renum]
        simp only [renum]
        omega
      · intro hout
        have hcomplete := takenRet_ok (appended_ok (Option.some.inj hout)).1
        simp only [takeLen, renum] at hcomplete
        omega

theorem stepOk_repeated (hinv : RecvInv s) (hp : parseSubpkg raw = some p) (hnum : p.num ≠ 0)
    (hdup : p.num = s.1.trsmitr.subpkgNum) (hzero : s.1.trsmitr.subpkgLen = 0) :
    StepOk (recvMachine.step s raw).1 (recvMachine.step s raw).2 ∧
      (recvMachine.step s raw).1.1.rawLen = s.1.rawLen ∧
      (recvMachine.step s raw).1.1.rawBuf = s.1.rawBuf := by
  obtain ⟨_, hdec⟩ := recv_other hinv.ok raw.2 hp hnum
  rw [if_pos hdup] at hdec
  have hraw : s.1.rawLen < 2 ^ 28 := rawLen_lt hinv fun _ ↦ Or.inr (hdup ▸ hnum)
  have heq : blePacketTrsmitr s.1 raw = some (appended
      { s.1 with trsmitr := renum s.1.trsmitr .pkgMiddle s.1.trsmitr.subpkgNum } []
      oprtSvcBtApiTrsmitrContinue) := by
    simp only [blePacketTrsmitr, hdec, ne_eq, not_true_eq_false, and_false, if_false]
    rw [if_neg (by simp [renum]), appendSubpkg_eq]
    · simp [renum, hzero]
    · exact hinv.buf_length
    · exact hinv.ok.len_le
    · simp only [renum, hzero]
      omega
  have htrack : track s.2 raw = s.2 := by
    cases hs : s.2 with
    | none => simp [track, hp, hnum]
    | some f =>
        have hf : p.num = f.num := hdup.trans (hinv.in_sync f hs).num_eq.symm
        simp only [track, hp, if_neg hnum, if_pos hf]
  have hbuf : (appended
      { s.1 with trsmitr := renum s.1.trsmitr .pkgMiddle s.1.trsmitr.subpkgNum } []
      oprtSvcBtApiTrsmitrContinue).1.rawBuf = s.1.rawBuf := by
    unfold appended
    split_ifs <;> simp
  simp only [recvMachine, heq, htrack]
  refine ⟨⟨⟨?_, ?_, ?_, ?_⟩, rfl, ?_⟩, by simp, hbuf⟩
  · simp only [appended_trsmitr]
    exact ⟨hinv.ok.cnt_le, hinv.ok.total_lt, hinv.ok.num_lt, hinv.ok.len_le, by simp [renum]⟩
  · rw [hbuf]
    exact hinv.buf_length
  · intro f hf
    have hsync := hinv.in_sync f hf
    refine ⟨?_, ?_, ?_, ?_, ?_⟩
    · simpa [renum] using hsync.num_eq
    · simpa [renum] using hsync.total_eq
    · simpa [renum] using hsync.cnt_eq
    · simpa [renum] using hsync.len_eq
    · rw [hbuf]
      simpa using hsync.buf_eq
  · intro hs
    simpa [renum] using hinv.out_of_sync hs
  · intro hout
    have := (appended_ok (Option.some.inj hout)).1
    simp [oprtSvcBtApiTrsmitrContinue, oprtOk] at this

theorem stepOk_error (hinv : RecvInv s) (hp : parseSubpkg raw = some p) (hnum : p.num ≠ 0)
    (hdup : p.num ≠ s.1.trsmitr.subpkgNum) (hnext : p.num ≠ s.1.trsmitr.subpkgNum + 1) :
    StepOk (recvMachine.step s raw).1 (recvMachine.step s raw).2 := by
  obtain ⟨_, hdec⟩ := recv_other hinv.ok raw.2 hp hnum
  rw [if_neg hdup, if_neg hnext] at hdec
  have heq : blePacketTrsmitr s.1 raw = some (clearRaw
      { s.1 with trsmitr := renum s.1.trsmitr .pkgMiddle s.1.trsmitr.subpkgNum },
      oprtSvcBtApiTrsmitrError) := by
    simp only [blePacketTrsmitr, hdec]
    rw [if_pos (by decide)]
  have htrack : track s.2 raw = none := by
    cases hs : s.2 with
    | none => simp [track, hp, hnum]
    | some f =>
        have hf := (hinv.in_sync f hs).num_eq
        simp [track, hp, hnum, hf, hdup, hnext]
  simp only [recvMachine, heq, htrack]
  refine ⟨⟨?_, by simp [clearRaw], by simp, ?_⟩, rfl, by simp [oprtSvcBtApiTrsmitrError, oprtOk]⟩
  · exact ⟨hinv.ok.cnt_le, hinv.ok.total_lt, hinv.ok.num_lt,
      hinv.ok.len_le, by simp [clearRaw, renum]⟩
  · intro _
    left
    exact Nat.zero_le _

theorem step_ok (hinv : RecvInv s) (hdel : Deliverable s raw) :
    StepOk (recvMachine.step s raw).1 (recvMachine.step s raw).2 := by
  obtain ⟨p, hp, hacc⟩ := hdel
  by_cases hnum : p.num = 0
  · exact stepOk_first hinv hp hnum (hacc.fits_first hnum)
  · by_cases hnext : p.num = s.1.trsmitr.subpkgNum + 1
    · exact stepOk_next hinv hacc hp hnext
    · by_cases hdup : p.num = s.1.trsmitr.subpkgNum
      · exact (stepOk_repeated hinv hp hnum hdup (hacc.repeated hnum hdup)).1
      · exact stepOk_error hinv hp hnum hdup hnext

/-! ## Whole runs -/

theorem recvInv_run {packetLen : ℕ} {r : BlePacketRecv} (hfresh : FreshRecv packetLen r)
    {raws : List RawPacket} (h : recvMachine.Guarded Deliverable (r, none) raws) :
    RecvInv (recvMachine.final (r, none) raws) :=
  recvMachine.inv_final (G := Deliverable) (I := RecvInv)
    (fun _ _ hinv hdel ↦ (step_ok hinv hdel).inv) (recvInv_fresh hfresh) h

theorem frame_run (hinv : RecvInv s) {raws : List RawPacket}
    (h : recvMachine.Guarded Deliverable s raws) :
    (recvMachine.final s raws).2 =
    raws.foldl (fun frame (raw : RawPacket) ↦ track frame raw) s.2 := by
  induction raws generalizing s with
  | nil => rfl
  | cons raw raws ih =>
      have hstep := step_ok hinv h.1
      rw [Mealy.final_cons, ih hstep.inv h.2, List.foldl_cons]
      congr 1
      have hsome := hstep.isSome
      simp only [recvMachine] at hsome ⊢
      cases hr : blePacketTrsmitr s.1 raw with
      | none => simp [hr] at hsome
      | some r => rfl

/-- In a run of deliverable packets from a fresh receiver no packet meets
undefined behaviour; whenever the last packet is answered `OPRT_OK`, the raw
buffer holds exactly the announced frame; and a repeated number leaves the
raw buffer as it was. -/
theorem reassembly_sound {packetLen : ℕ} {r : BlePacketRecv} (hfresh : FreshRecv packetLen r)
    {raws : List RawPacket} {raw : RawPacket}
    (h : recvMachine.Guarded Deliverable (r, none) (raws ++ [raw])) :
    let s := recvMachine.final (r, none) raws
    let s' := recvMachine.step s raw
    s'.2.isSome ∧
    (s'.2 = some oprtOk → ∃ f, assemble (raws ++ [raw]) = some f ∧
      s'.1.1.rawLen = s'.1.1.trsmitr.total ∧ f.total = s'.1.1.trsmitr.total ∧
      f.total ≤ f.bytes.length ∧ s'.1.1.rawBuf.take s'.1.1.rawLen = f.bytes.take f.total) ∧
    (∀ p, parseSubpkg raw = some p → p.num ≠ 0 → p.num = s.1.trsmitr.subpkgNum →
      s'.1.1.rawLen = s.1.rawLen ∧ s'.1.1.rawBuf = s.1.rawBuf) := by
  intro s s'
  obtain ⟨hraws, hraw⟩ := (recvMachine.guarded_append _ _ _ _).mp h
  have hinv : RecvInv s := recvInv_run hfresh hraws
  have hdel : Deliverable s raw := hraw.1
  have hstep := step_ok hinv hdel
  refine ⟨hstep.isSome, ?_, ?_⟩
  · intro hout
    obtain ⟨f, hf, htotal, hle⟩ := hstep.complete hout
    have hsync := hstep.inv.in_sync f hf
    have hframe : assemble (raws ++ [raw]) = some f := by
      rw [assemble, ← frame_run (recvInv_fresh hfresh) h, Mealy.final_append]
      exact hf
    have hlen : s'.1.1.rawLen = s'.1.1.trsmitr.total := by
      rw [hsync.len_eq, hsync.cnt_eq, ← hsync.total_eq]
      exact Nat.min_eq_left htotal
    exact ⟨f, hframe, hlen, hsync.total_eq, htotal, hsync.buf_eq hle⟩
  · intro p hp hnum hdup
    obtain ⟨p', hp', hacc⟩ := hdel
    obtain rfl : p' = p := Option.some.inj (hp'.symm.trans hp)
    exact (stepOk_repeated hinv hp hnum hdup (hacc.repeated hnum hdup)).2

def smallRecv : BlePacketRecv :=
  ⟨bleFrameTrsmitrCreate 8, 0, List.replicate tuyaBleAirFrameMax 0⟩

theorem smallRecv_fresh : FreshRecv 8 smallRecv := ⟨rfl, by simp [smallRecv]⟩

theorem reassembly_sound_two :
    let raws : List RawPacket := [⟨[0, 3, 0x40, 10, 11], by decide⟩]
    let raw : RawPacket := ⟨[1, 12], by decide⟩
    recvMachine.Guarded Deliverable (smallRecv, none) (raws ++ [raw]) ∧
      (recvMachine.step (recvMachine.final (smallRecv, none) raws) raw).2.isSome := by
  intro raws raw
  have h : recvMachine.Guarded Deliverable (smallRecv, none) (raws ++ [raw]) := by
    refine ⟨⟨⟨0, 3, 0x40, [10, 11]⟩, by decide, ?_⟩, ⟨⟨1, 0, 0, [12]⟩, by decide, ?_⟩, trivial⟩
    · exact ⟨by decide, by decide, by decide, by decide⟩
    · exact ⟨by decide, by decide +kernel, by decide +kernel, by decide +kernel⟩
  exact ⟨h, (reassembly_sound smallRecv_fresh h).1⟩

/-- Subpacket `1` delivered twice: the frame of six bytes is reported complete
with eight bytes in the raw buffer. -/
theorem repeated_subpacket_counted_twice :
    let raws : List RawPacket :=
      [⟨[0, 6, 0x40, 10, 11], by decide⟩, ⟨[1, 12, 13], by decide⟩, ⟨[1, 12, 13], by decide⟩]
    let raw : RawPacket := ⟨[2, 14, 15], by decide⟩
    let s' := recvMachine.step (recvMachine.final (smallRecv, none) raws) raw
    FreshRecv 8 smallRecv ∧ s'.2 = some oprtOk ∧ s'.1.1.trsmitr.total = 6 ∧
      s'.1.1.rawLen = 8 ∧ s'.1.1.rawBuf.take 8 = [10, 11, 12, 13, 12, 13, 14, 15] ∧
      assemble (raws ++ [raw]) = some ⟨2, 6, [10, 11, 12, 13, 14, 15]⟩ := by
  refine ⟨smallRecv_fresh, ?_⟩
  decide +kernel

end TuyaOpen.Ble
