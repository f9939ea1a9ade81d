import TuyaOpen.Ble.Session

/-!
# Bounds of the subpacket decoder

The decoder checks neither that a packet holds its own header nor that the
payload fits `subpkg`, and the device query of the peer makes `subpkg` as small
as the peer likes.  The counters of the receiver stay sound whatever comes, so
what a packet does is decided by its fields and the size of the buffer.
-/

namespace TuyaOpen.Ble

/-- The payload that is taken fits the buffer; any other number is not taken. -/
structure FitsSubpkg (t : BleFrameTrsmitr) (p : Subpkg) : Prop where
  first : p.num = 0 → min p.payload.length p.total ≤ t.subpkg.length
  next : p.num = t.subpkgNum + 1 → takeLen t p.payload ≤ t.subpkg.length

variable {t : BleFrameTrsmitr} {rawData : List UInt8} {p : Subpkg}

theorem takePayload_isSome_iff (t : BleFrameTrsmitr) (payload : List UInt8) :
    (takePayload t payload).isSome ↔ takeLen t payload ≤ t.subpkg.length := by
  rw [takePayload]
  split_ifs with hcap
  · simpa using hcap
  · simpa using hcap

theorem decode_short_first (hs : TrsmitrSound t) {rest : List UInt8}
    (hdec : Leb128.decode 4 rawData = some (0, rest))
    (hshort : ∀ total verSeq payload, Leb128.decode 4 rest ≠ some (total, verSeq :: payload)) :
    bleFrameTrsmitrRecvPkgDecode t rawData = none := by
  have hnumlt : ¬ 0x10000000 ≤ t.subpkgNum := by
    have := hs.num_lt
    omega
  obtain ⟨hrest, hdrop⟩ := Leb128.decode_drop hdec
  simp only at hrest hdrop
  have htotal : decodeDigits rawData 4 1 0 (rawData.length - rest.length) =
      (Leb128.decode 4 rest).map fun r ↦
        (r.1, rawData.length - rest.length + (rest.length - r.2.length)) := by
    rw [decodeDigits_eq, hdrop]
    simp only [zero_add, mul_one]
  simp only [bleFrameTrsmitrRecvPkgDecode, decodeDigits_zero hdec, reset_of_sound hs]
  simp only [recvDesc, if_true, recvNumCheck, recvReset, hnumlt, if_false, recvHead, htotal]
  cases hlen : Leb128.decode 4 rest with
  | none => rfl
  | some r =>
      obtain ⟨total, after⟩ := r
      have hlt : total < 2 ^ 28 := Leb128.decode_lt hlen
      cases after with
      | cons verSeq payload => exact (hshort total verSeq payload hlen).elim
      | nil =>
          have hend : rawData[rawData.length - rest.length + (rest.length - 0)]? = none := by
            rw [List.getElem?_eq_none_iff]
            omega
          simp only [Option.map_some, List.length_nil, hend, show ¬ 0x10000000 ≤ total by omega,
            if_false]

theorem decode_short (hs : TrsmitrSound t) (hp : parseSubpkg rawData = none) :
    bleFrameTrsmitrRecvPkgDecode t rawData = none := by
  unfold parseSubpkg at hp
  split at hp
  · next hdec =>
      have hdigits : decodeDigits rawData 4 1 0 0 = none := by
        rw [decodeDigits_eq, List.drop_zero, hdec]
        rfl
      simp only [bleFrameTrsmitrRecvPkgDecode, hdigits]
  · next num rest hdec =>
      by_cases hnum : num ≠ 0
      · rw [if_pos hnum] at hp
        cases hp
      · obtain rfl := not_not.mp hnum
        apply decode_short_first hs hdec
        intro total verSeq payload hlen
        simp only [ne_eq, not_true_eq_false, if_false, hlen] at hp
        cases hp

theorem decode_isSome_iff (hs : TrsmitrSound t) (hlen : rawData.length < 2 ^ 16) :
    (bleFrameTrsmitrRecvPkgDecode t rawData).isSome ↔
      ∃ p, parseSubpkg rawData = some p ∧ FitsSubpkg t p := by
  cases hp : parseSubpkg rawData with
  | none => simp [decode_short hs hp]
  | some p =>
      have hone : (∃ q, some p = some q ∧ FitsSubpkg t q) ↔ FitsSubpkg t p := by simp
      rw [hone]
      by_cases hnum : p.num = 0
      · rw [decode_first hs hlen hp hnum, takePayload_isSome_iff]
        refine ⟨fun h ↦ ⟨fun _ ↦ h, fun hnext ↦ ?_⟩, fun h ↦ h.first hnum⟩
        omega
      · rw [decode_other hs hlen hp hnum]
        split_ifs with hdup hnext
        · refine ⟨fun _ ↦ ⟨fun h ↦ (hnum h).elim, fun hnext ↦ ?_⟩, fun _ ↦ rfl⟩
          omega
        · rw [takePayload_isSome_iff]
          exact ⟨fun h ↦ ⟨fun hz ↦ (hnum hz).elim, fun _ ↦ h⟩, fun h ↦ h.next hnext⟩
        · exact ⟨fun _ ↦ ⟨fun h ↦ (hnum h).elim, fun h ↦ (hnext h).elim⟩, fun _ ↦ rfl⟩

/-! ## The receiver over a run -/

theorem taken_sound (hs : TrsmitrSound t) (hinit : t.pkgDesc ≠ .pkgInit) (payload : List UInt8) :
    TrsmitrSound (taken t payload) := by
  have hcnt := hs.cnt_le
  refine ⟨?_, hs.total_lt, hs.num_lt, ?_⟩
  · simp only [taken, takeLen]
    omega
  · intro hdesc
    simp only [taken] at hdesc
    split_ifs at hdesc
    exact (hinit hdesc).elim

theorem takePayload_sound (hs : TrsmitrSound t) (hinit : t.pkgDesc ≠ .pkgInit)
    {payload : List UInt8} {r : BleFrameTrsmitr × OperateRet}
    (h : takePayload t payload = some r) : TrsmitrSound r.1 := by
  rw [takePayload] at h
  split_ifs at h
  cases h
  exact taken_sound hs hinit payload

theorem decode_sound (hs : TrsmitrSound t) (hlen : rawData.length < 2 ^ 16)
    {r : BleFrameTrsmitr × OperateRet} (h : bleFrameTrsmitrRecvPkgDecode t rawData = some r) :
    TrsmitrSound r.1 := by
  cases hp : parseSubpkg rawData with
  | none =>
      rw [decode_short hs hp] at h
      cases h
  | some p =>
      have hmiddle : ∀ num < 2 ^ 28, TrsmitrSound (renum t .pkgMiddle num) := fun num hnum ↦
        ⟨hs.cnt_le, hs.total_lt, hnum, by simp [renum]⟩
      by_cases hnum : p.num = 0
      · rw [decode_first hs hlen hp hnum] at h
        apply takePayload_sound ?_ (by simp [startFrame]) h
        exact ⟨Nat.zero_le _, parse_total_lt hp hnum, Nat.two_pow_pos 28, by simp [startFrame]⟩
      · rw [decode_other hs hlen hp hnum] at h
        split_ifs at h
        · cases h
          exact hmiddle t.subpkgNum hs.num_lt
        · exact takePayload_sound (hmiddle p.num (parse_num_lt hp)) (by simp [renum]) h
        · cases h
          exact hmiddle t.subpkgNum hs.num_lt

theorem appendSubpkg_trsmitr {r r' : BlePacketRecv} {rt rt' : OperateRet}
    (h : appendSubpkg r rt = some (r', rt')) : r'.trsmitr = r.trsmitr := by
  simp only [appendSubpkg] at h
  split_ifs at h <;> cases h <;> rfl

theorem blePacketTrsmitr_sound {r r' : BlePacketRecv} {rt : OperateRet}
    (hs : TrsmitrSound r.trsmitr) (hlen : rawData.length < 2 ^ 16)
    (h : blePacketTrsmitr r rawData = some (r', rt)) : TrsmitrSound r'.trsmitr := by
  unfold blePacketTrsmitr at h
  split at h
  · cases h
  · next t rt' hdec =>
      have ht : TrsmitrSound t := decode_sound hs hlen hdec
      simp only at h
      split_ifs at h
      · cases h
        exact ht
      · rw [appendSubpkg_trsmitr h]
        exact ht
      · rw [appendSubpkg_trsmitr h]
        exact ht

variable {c : Crypto} {ble : TuyaBleMgr}

theorem blePacketRecv_sound {malloc : Bool} {ble' : TuyaBleMgr} {res : Option BlePacket}
    (hs : TrsmitrSound ble.packetRecv.trsmitr) (hlen : rawData.length < 2 ^ 16)
    (h : blePacketRecv c ble rawData malloc = some (ble', res)) :
    TrsmitrSound ble'.packetRecv.trsmitr := by
  unfold blePacketRecv at h
  split at h
  · cases h
  · next r rt htrsmitr =>
      have hr := blePacketTrsmitr_sound hs hlen htrsmitr
      simp only at h
      split_ifs at h <;> cases h <;> exact hr

theorem runCommand_sound (env : HandlerEnv) (packet : BlePacket) (cmd : Command)
    (hs : TrsmitrSound ble.packetRecv.trsmitr) :
    TrsmitrSound (runCommand env packet ble cmd).packetRecv.trsmitr := by
  cases cmd with
  | bleDevInfoReq =>
      refine ⟨hs.cnt_le, hs.total_lt, hs.num_lt, fun hinit ↦ ?_⟩
      have hreset := hs.init_eq hinit
      simp only [runCommand]
      rw [← hreset]
      rfl
  | blePairReq =>
      simp only [runCommand]
      split_ifs <;> exact hs
  | _ => exact hs

theorem commands_sound (env : HandlerEnv) (packet : BlePacket) (cmds : List Command)
    (hs : TrsmitrSound ble.packetRecv.trsmitr) :
    TrsmitrSound (cmds.foldl (runCommand env packet) ble).packetRecv.trsmitr := by
  induction cmds generalizing ble with
  | nil => exact hs
  | cons cmd cmds ih => exact ih (runCommand_sound env packet cmd hs)

theorem step_sound (ev : BleEvent) (hs : TrsmitrSound ble.packetRecv.trsmitr) :
    TrsmitrSound ((bleMachine c).step ble ev).1.packetRecv.trsmitr := by
  cases ev with
  | write charHandle raw env =>
      simp only [bleMachine]
      split_ifs
      · exact hs
      · split
        · exact hs
        · next ble' heq => exact blePacketRecv_sound hs raw.2 heq
        · next ble' packet heq =>
            exact commands_sound env packet _ (blePacketRecv_sound hs raw.2 heq)
  | _ => exact hs

theorem trsmitrSound_final {packetLen : ℕ} (hfresh : FreshMgr packetLen ble)
    (evs : List BleEvent) :
    TrsmitrSound ((bleMachine c).final ble evs).packetRecv.trsmitr := by
  have hinit : TrsmitrSound ble.packetRecv.trsmitr := by
    rw [hfresh.2.1]
    exact (trsmitrOk_create packetLen).sound
  apply (bleMachine c).inv_final (I := fun b ↦ TrsmitrSound b.packetRecv.trsmitr) ?_ hinit
    ((bleMachine c).guarded_true ble evs)
  intro s ev hs _
  exact step_sound ev hs

/-- Whatever the peer sent before, the decoder stays inside the packet and
inside `subpkg` exactly for a packet that holds its header and whose payload
fits. -/
theorem recv_pkg_decode_in_bounds {packetLen : ℕ} (hfresh : FreshMgr packetLen ble)
    (evs : List BleEvent) (raw : RawPacket) :
    (bleFrameTrsmitrRecvPkgDecode
        ((bleMachine c).final ble evs).packetRecv.trsmitr raw).isSome ↔
      ∃ p, parseSubpkg raw = some p ∧
        FitsSubpkg ((bleMachine c).final ble evs).packetRecv.trsmitr p :=
  decode_isSome_iff (trsmitrSound_final hfresh evs) raw.2

/-- A device query in plaintext that asks for packets of one byte. -/
def plainDevInfo : RawPacket :=
  ⟨[0, 17, 0x40, 0, 0, 0, 0, 1, 0, 0, 0, 0, 0, 0, 0, 2, 0, 1, 253, 207], by decide⟩

def fiveBytes : RawPacket := ⟨[0, 5, 0x40, 1, 2, 3, 4, 5], by decide⟩

def devInfoEvents : List BleEvent := [.connect 7, .write 7 plainDevInfo sampleEnv]

theorem sampleMgr_fresh : FreshMgr 64 sampleMgr := ⟨rfl, rfl, by simp [sampleMgr]⟩

theorem recv_pkg_decode_in_bounds_connected :
    FreshMgr 64 sampleMgr ∧
      ((bleFrameTrsmitrRecvPkgDecode
          ((bleMachine sampleCrypto).final sampleMgr [.connect 7]).packetRecv.trsmitr
          fiveBytes).isSome ↔
        ∃ p, parseSubpkg fiveBytes = some p ∧ FitsSubpkg
          ((bleMachine sampleCrypto).final sampleMgr [.connect 7]).packetRecv.trsmitr p) :=
  ⟨sampleMgr_fresh, recv_pkg_decode_in_bounds sampleMgr_fresh [.connect 7] fiveBytes⟩

theorem recv_pkg_decode_out_of_bounds :
    ¬ ∀ (c : Crypto) (packetLen : ℕ) (ble : TuyaBleMgr), FreshMgr packetLen ble →
      ∀ (evs : List BleEvent) (raw : RawPacket), (bleFrameTrsmitrRecvPkgDecode
        ((bleMachine c).final ble evs).packetRecv.trsmitr raw).isSome := by
  intro h
  have hover := h sampleCrypto 64 sampleMgr sampleMgr_fresh devInfoEvents fiveBytes
  have hnone : (bleFrameTrsmitrRecvPkgDecode
      ((bleMachine sampleCrypto).final sampleMgr devInfoEvents).packetRecv.trsmitr
      fiveBytes).isSome = false := by decide +kernel
  rw [hnone] at hover
  cases hover

end TuyaOpen.Ble
