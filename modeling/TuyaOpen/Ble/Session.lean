import TuyaOpen.Ble.Packet

/-!
# Connections and session handlers of `ble_mgr.c`

The stack reports connects, disconnects and writes of the peer.  A write may
complete a frame, and a frame that passes decryption, CRC and sequence check
is handed to every session.  The mode byte is the peer's choice, and mode `0`
stands for no encryption.
-/

namespace TuyaOpen.Ble

inductive Command
  | bleDevInfoReq
  | blePairReq
  | bleUnbindReq
  | bleDpReq
  | bleDpQuery
  | channel
  deriving DecidableEq

def bleSessionSystemProcess (type : UInt16) : List Command :=
  if type = 0x0000 then [.bleDevInfoReq]
  else if type = 0x0001 then [.blePairReq]
  else if type = 0x0005 ∨ type = 0x0006 then [.bleUnbindReq]
  else []

def bleSessionDpProcess (type : UInt16) : List Command :=
  if type = 0x0027 then [.bleDpReq] else if type = 0x0003 then [.bleDpQuery] else []

def bleSessionChannelProcess (type : UInt16) : List Command :=
  if type = 0x801b ∨ type = 0x801e ∨ type = 0x801c ∨ type = 0x801f then [.channel] else []

def sessions (type : UInt16) : List Command :=
  bleSessionSystemProcess type ++ bleSessionDpProcess type ++ bleSessionChannelProcess type

structure TuyaBleMgr where
  cryptoParam : BleCryptoParam
  static : CryptStatic
  recvSn : UInt32
  isPaired : Bool
  isBound : Bool
  charHandle : ℕ
  packetRecv : BlePacketRecv

/-- What the handlers of one packet find: memory for the packet and for a new
subpacket buffer, the random bytes of a device query, and what lies in memory
behind the data of the packet, whose length no handler checks. -/
structure HandlerEnv where
  dataMalloc : Bool
  subpkgMalloc : Bool
  pairRand : List UInt8
  behind : List UInt8

inductive BleEvent
  | connect (charHandle : ℕ)
  | connectFailed
  | disconnect
  | write (charHandle : ℕ) (raw : RawPacket) (env : HandlerEnv)
  /-- The client is activated or removed, which changes the keys. -/
  | activate (loginKey secKey : List UInt8) (bound : Bool)

/-- What a command changes in the manager.  The device query takes the size of
the subpacket buffer from the packet. -/
def runCommand (env : HandlerEnv) (packet : BlePacket) (ble : TuyaBleMgr) : Command → TuyaBleMgr
  | .bleDevInfoReq =>
    let size := Bytes.getBE (packet.data ++ env.behind) 0 2
    let subpkg := if env.subpkgMalloc then List.replicate size 0 else []
    { ble with
      cryptoParam := { ble.cryptoParam with pairRand := env.pairRand }
      packetRecv := { ble.packetRecv with
        trsmitr := { ble.packetRecv.trsmitr with subpkg := subpkg } } }
  | .blePairReq =>
    if (packet.data ++ env.behind).take 16 = ble.cryptoParam.uuid.take 16 then
      { ble with isPaired := true }
    else ble
  | .bleUnbindReq => { ble with isBound := false }
  | .bleDpReq => ble
  | .bleDpQuery => ble
  | .channel => ble

/-- `ble_packet_recv`: the manager after the call, and the packet on success.
`none` is undefined behaviour in the reassembly. -/
def blePacketRecv (c : Crypto) (ble : TuyaBleMgr) (buf : List UInt8) (malloc : Bool) :
    Option (TuyaBleMgr × Option BlePacket) :=
  match blePacketTrsmitr ble.packetRecv buf with
  | none => none
  | some (r, rt) =>
    let ble := { ble with packetRecv := r }
    if rt ≠ oprtOk ∨ tuyaBleAirFrameMax < r.rawLen then some (ble, none)
    else
      let res := blePacketRecvDecode c ble.static ble.cryptoParam ble.recvSn r.trsmitr.version
        (r.rawBuf.take r.rawLen) malloc
      some ({ ble with static := res.static, recvSn := res.recvSn }, res.packet)

/-- `tal_ble_event_callback`: the commands it runs, each with its packet. -/
def bleMachine (c : Crypto) : Mealy TuyaBleMgr BleEvent (List (Command × BlePacket)) where
  step ble
    | .connect charHandle => ({ ble with charHandle := charHandle, recvSn := 0 }, [])
    | .connectFailed => ({ ble with charHandle := 0 }, [])
    | .disconnect =>
      ({ ble with
          charHandle := 0
          cryptoParam := { ble.cryptoParam with pairRand := List.replicate 6 0 }
          isPaired := false }, [])
    | .activate loginKey secKey bound =>
      ({ ble with
          cryptoParam := { ble.cryptoParam with loginKey := loginKey, secKey := secKey }
          isBound := bound }, [])
    | .write charHandle raw env =>
      if charHandle ≠ ble.charHandle then (ble, [])
      else match blePacketRecv c ble raw env.dataMalloc with
        | none => (ble, [])
        | some (ble, none) => (ble, [])
        | some (ble, some packet) =>
          ((sessions packet.type).foldl (runCommand env packet) ble,
            (sessions packet.type).map fun cmd ↦ (cmd, packet))

/-- A write in whose reassembly nothing undefined happens. -/
def Defined (c : Crypto) (ble : TuyaBleMgr) : BleEvent → Prop
  | .write charHandle raw env => charHandle = ble.charHandle →
      ∃ res, blePacketRecv c ble raw env.dataMalloc = some res
  | _ => True

/-! ## What a dispatched frame is -/

/-- `dec` is the content of the frame: what follows the mode byte of a frame
in plaintext, else what decrypts under the key of the mode. -/
def Opens (c : Crypto) (st : CryptStatic) (p : BleCryptoParam) (raw dec : List UInt8) : Prop :=
  (raw.headD 0 = encryptionModeNone ∧ dec = raw.drop 1) ∨
    ∃ keyIn, keyInBuffer c (serviceRandSet st raw) p (raw.headD 0) = some keyIn ∧
      c.aes128CbcDecodeRaw (c.md5Ret keyIn) ((raw.drop 1).take 16) (raw.drop 17) = (oprtOk, dec)

/-- The frame `raw` carries `packet` for a manager with the given keys and last
sequence number. -/
structure Carries (c : Crypto) (ble : TuyaBleMgr) (version : ℕ) (raw : List UInt8)
    (packet : BlePacket) : Prop where
  version_ge : 2 ≤ version
  length_ge : 17 ≤ raw.length
  mode_eq : packet.encryptMode = raw.headD 0
  sn_gt : ble.recvSn < packet.sn
  opens : ∃ dec, Opens c ble.static ble.cryptoParam raw dec ∧
    Bytes.getBE (decBuf dec) (blePacketDataInd + packet.data.length) 2 =
      (getCrc16 ((decBuf dec).take (packet.data.length + blePacketDataInd))).toNat

/-- The key that mode `12` builds on comes from the authentication key, except
before the first frame of mode `11`. -/
def Key11Derived (c : Crypto) (st : CryptStatic) (p : BleCryptoParam) : Prop :=
  st.keyOutKey11 = CryptStatic.init.keyOutKey11 ∨
    ∃ rand, st.keyOutKey11 = c.md5Ret (p.authKey.take 32 ++ p.uuid.take 16 ++ rand)

variable {c : Crypto} {st : CryptStatic} {p : BleCryptoParam} {ble : TuyaBleMgr}
  {raw : List UInt8}

theorem bleKeyGenerate_some {mode : UInt8} (hmode : mode ≠ encryptionModeNone)
    {key : List UInt8} {st' : CryptStatic} (h : bleKeyGenerate c st p mode = some (key, st')) :
    ∃ keyIn, keyInBuffer c st p mode = some keyIn ∧ key = c.md5Ret keyIn ∧
      st' = if mode = encryptionModeKey11 then { st with keyOutKey11 := c.md5Ret keyIn }
        else st := by
  unfold bleKeyGenerate at h
  by_cases hmax : encryptionModeMax ≤ mode
  · rw [if_pos hmax] at h
    cases h
  rw [if_neg hmax, if_neg hmode] at h
  split at h
  · cases h
  · next keyIn hkeyIn =>
      cases h
      exact ⟨keyIn, hkeyIn, rfl, rfl⟩

theorem key11Derived_generate {mode : UInt8} (hmode : mode ≠ encryptionModeNone)
    (h11 : Key11Derived c st p) {key : List UInt8} {st' : CryptStatic}
    (h : bleKeyGenerate c st p mode = some (key, st')) : Key11Derived c st' p := by
  obtain ⟨keyIn, hkeyIn, -, rfl⟩ := bleKeyGenerate_some hmode h
  split_ifs with hm
  · rw [keyInBuffer, if_pos hm] at hkeyIn
    cases hkeyIn
    exact Or.inr ⟨st.serviceRand, rfl⟩
  · exact h11

theorem key11Derived_serviceRandSet (h11 : Key11Derived c st p) :
    Key11Derived c (serviceRandSet st raw) p := by
  unfold serviceRandSet
  split_ifs
  · exact h11
  · exact h11

theorem decryption_opens (raw : List UInt8) (h11 : Key11Derived c st p) :
    Key11Derived c (tuyaBleDecryption c st p raw).2.2 p ∧
      ((tuyaBleDecryption c st p raw).1 = 0 → 17 ≤ raw.length ∧
        Opens c st p raw (tuyaBleDecryption c st p raw).2.1) := by
  by_cases hlen : raw.length < 17
  · rw [tuyaBleDecryption, if_pos hlen]
    exact ⟨h11, by simp⟩
  by_cases hmax : encryptionModeMax ≤ raw.headD 0
  · simp only [tuyaBleDecryption, if_neg hlen, if_pos hmax]
    exact ⟨h11, by simp⟩
  by_cases hnone : raw.headD 0 = encryptionModeNone
  · simp only [tuyaBleDecryption, if_neg hlen, if_neg hmax, if_pos hnone]
    exact ⟨h11, fun _ ↦ ⟨by omega, Or.inl ⟨hnone, rfl⟩⟩⟩
  simp only [tuyaBleDecryption, if_neg hlen, if_neg hmax, if_neg hnone]
  have h11' : Key11Derived c (serviceRandSet st raw) p := key11Derived_serviceRandSet h11
  cases hkey : bleKeyGenerate c (serviceRandSet st raw) p (raw.headD 0) with
  | none => exact ⟨h11', by simp⟩
  | some r =>
      obtain ⟨key, st'⟩ := r
      obtain ⟨keyIn, hkeyIn, rfl, -⟩ := bleKeyGenerate_some hnone hkey
      refine ⟨key11Derived_generate hnone h11' hkey, ?_⟩
      intro hzero
      refine ⟨by omega, Or.inr ⟨keyIn, hkeyIn, ?_⟩⟩
      refine Prod.ext ?_ rfl
      by_contra hne
      simp only [if_neg hne] at hzero
      omega

theorem length_decBuf (dec : List UInt8) : tuyaBleAirFrameMax ≤ (decBuf dec).length := by
  rw [decBuf, List.length_append, List.length_replicate]
  omega

theorem parsePacket_some {recvSn : UInt32} {mode : UInt8} {dec : List UInt8} {malloc : Bool}
    {packet : BlePacket} (hdec : tuyaBleAirFrameMax ≤ dec.length)
    (h : (parsePacket st recvSn mode dec malloc).packet = some packet) :
    packet.encryptMode = mode ∧ recvSn < packet.sn ∧
      Bytes.getBE dec (blePacketDataInd + packet.data.length) 2 =
        (getCrc16 (dec.take (packet.data.length + blePacketDataInd))).toNat := by
  simp only [parsePacket] at h
  split_ifs at h with hlong hcrc hsn hmem
  simp only [Option.some.injEq] at h
  have hdata : packet.data.length = Bytes.getBE dec 10 2 := by
    rw [← h]
    simp only [List.length_take, List.length_drop]
    simp only [blePacketMinLen, blePacketDataInd] at *
    omega
  rw [hdata]
  refine ⟨?_, ?_, not_not.mp hcrc⟩
  · rw [← h]
  · rw [← h]
    simpa using hsn

theorem recvDecode_carries (ble : TuyaBleMgr) (version : ℕ) (raw : List UInt8) (malloc : Bool)
    (h11 : Key11Derived c ble.static ble.cryptoParam) :
    let res := blePacketRecvDecode c ble.static ble.cryptoParam ble.recvSn version raw malloc
    Key11Derived c res.static ble.cryptoParam ∧
      ∀ packet, res.packet = some packet → Carries c ble version raw packet := by
  obtain ⟨hstatic, hopens⟩ := decryption_opens raw h11
  intro res
  simp only [res, blePacketRecvDecode]
  split_ifs with hlong hver
  · exact ⟨h11, by simp⟩
  · exact ⟨h11, by simp⟩
  · split
    · next dec st' heq =>
        rw [heq] at hstatic hopens
        obtain ⟨hlen, hopen⟩ := hopens rfl
        refine ⟨?_, ?_⟩
        · simp only [parsePacket]
          split_ifs <;> exact hstatic
        · intro packet hpacket
          obtain ⟨hmode, hsn, hcrc⟩ := parsePacket_some (length_decBuf dec) hpacket
          exact ⟨by omega, hlen, hmode, hsn, dec, hopen, hcrc⟩
    · next heq =>
        rw [heq] at hstatic
        exact ⟨hstatic, by simp⟩

/-! ## Whole runs -/

def FreshMgr (packetLen : ℕ) (ble : TuyaBleMgr) : Prop :=
  ble.static = CryptStatic.init ∧ FreshRecv packetLen ble.packetRecv

theorem runCommand_static (env : HandlerEnv) (packet : BlePacket) (ble : TuyaBleMgr)
    (cmd : Command) :
    (runCommand env packet ble cmd).static = ble.static ∧
      (runCommand env packet ble cmd).cryptoParam.authKey = ble.cryptoParam.authKey ∧
      (runCommand env packet ble cmd).cryptoParam.uuid = ble.cryptoParam.uuid := by
  cases cmd with
  | blePairReq =>
      simp only [runCommand]
      split_ifs <;> exact ⟨rfl, rfl, rfl⟩
  | _ => exact ⟨rfl, rfl, rfl⟩

theorem key11Derived_congr {p' : BleCryptoParam} (h : Key11Derived c st p)
    (hauth : p'.authKey = p.authKey) (huuid : p'.uuid = p.uuid) : Key11Derived c st p' := by
  unfold Key11Derived at h ⊢
  rwa [hauth, huuid]

theorem key11Derived_commands (env : HandlerEnv) (packet : BlePacket) (cmds : List Command)
    (h : Key11Derived c ble.static ble.cryptoParam) :
    Key11Derived c (cmds.foldl (runCommand env packet) ble).static
      (cmds.foldl (runCommand env packet) ble).cryptoParam := by
  induction cmds generalizing ble with
  | nil => exact h
  | cons cmd cmds ih =>
      obtain ⟨hstatic, hauth, huuid⟩ := runCommand_static env packet ble cmd
      apply ih
      rw [hstatic]
      exact key11Derived_congr h hauth huuid

theorem blePacketRecv_carries (h11 : Key11Derived c ble.static ble.cryptoParam) {malloc : Bool}
    {ble' : TuyaBleMgr} {res : Option BlePacket}
    (h : blePacketRecv c ble raw malloc = some (ble', res)) :
    Key11Derived c ble'.static ble'.cryptoParam ∧
      ∀ packet, res = some packet → ∃ r, blePacketTrsmitr ble.packetRecv raw = some (r, oprtOk) ∧
        Carries c ble r.trsmitr.version (r.rawBuf.take r.rawLen) packet := by
  unfold blePacketRecv at h
  split at h
  · cases h
  · next r rt htrsmitr =>
      simp only at h
      split_ifs at h with hrt
      · cases h
        exact ⟨h11, by simp⟩
      · cases h
        obtain ⟨hstatic, hcarries⟩ := recvDecode_carries ble r.trsmitr.version
          (r.rawBuf.take r.rawLen) malloc h11
        obtain ⟨hok, -⟩ := not_or.mp hrt
        refine ⟨hstatic, fun packet hpacket ↦ ⟨r, ?_, hcarries packet hpacket⟩⟩
        rw [htrsmitr, not_not.mp hok]

theorem step_key11 (ev : BleEvent) (h11 : Key11Derived c ble.static ble.cryptoParam) :
    Key11Derived c ((bleMachine c).step ble ev).1.static
      ((bleMachine c).step ble ev).1.cryptoParam := by
  cases ev with
  | connect charHandle => exact h11
  | connectFailed => exact h11
  | disconnect => exact key11Derived_congr h11 rfl rfl
  | activate loginKey secKey bound => exact key11Derived_congr h11 rfl rfl
  | write charHandle raw env =>
      simp only [bleMachine]
      split_ifs
      · exact h11
      · split
        · exact h11
        · next ble' heq => exact (blePacketRecv_carries h11 heq).1
        · next ble' packet heq =>
            exact key11Derived_commands env packet _ (blePacketRecv_carries h11 heq).1

theorem step_carries (ev : BleEvent) (h11 : Key11Derived c ble.static ble.cryptoParam)
    {cmd : Command} {packet : BlePacket} (h : (cmd, packet) ∈ ((bleMachine c).step ble ev).2) :
    ∃ charHandle raw env r, ev = .write charHandle raw env ∧
      blePacketTrsmitr ble.packetRecv raw = some (r, oprtOk) ∧
      Carries c ble r.trsmitr.version (r.rawBuf.take r.rawLen) packet := by
  cases ev with
  | connect charHandle => simp [bleMachine] at h
  | connectFailed => simp [bleMachine] at h
  | disconnect => simp [bleMachine] at h
  | activate loginKey secKey bound => simp [bleMachine] at h
  | write charHandle raw env =>
      simp only [bleMachine] at h
      split_ifs at h
      · simp at h
      · split at h
        · simp at h
        · simp at h
        · next ble' packet' heq =>
            obtain ⟨cmd', -, hpair⟩ := List.mem_map.mp h
            obtain ⟨-, rfl⟩ := Prod.mk.inj hpair
            obtain ⟨r, hr, hcarries⟩ := (blePacketRecv_carries h11 heq).2 packet' rfl
            exact ⟨charHandle, raw, env, r, rfl, hr, hcarries⟩

/-- In every run, a command is only run for a frame that was reassembled by a
write and opens, as plaintext or under a key of the device, to a packet with
a matching CRC and a new sequence number. -/
theorem commands_carried {packetLen : ℕ} (hfresh : FreshMgr packetLen ble) {evs : List BleEvent}
    {ev : BleEvent} (h : (bleMachine c).Guarded (Defined c) ble (evs ++ [ev])) :
    let s := (bleMachine c).final ble evs
    Key11Derived c s.static s.cryptoParam ∧
      ∀ cmd packet, (cmd, packet) ∈ ((bleMachine c).step s ev).2 →
        ∃ charHandle raw env r, ev = .write charHandle raw env ∧
          blePacketTrsmitr s.packetRecv raw = some (r, oprtOk) ∧
          Carries c s r.trsmitr.version (r.rawBuf.take r.rawLen) packet := by
  intro s
  have hinit : Key11Derived c ble.static ble.cryptoParam := Or.inl (by rw [hfresh.1])
  have hs : Key11Derived c s.static s.cryptoParam :=
    (bleMachine c).inv_final (I := fun b ↦ Key11Derived c b.static b.cryptoParam)
      (fun _ ev h11 _ ↦ step_key11 ev h11) hinit ((bleMachine c).guarded_append _ _ _ _ |>.mp h).1
  exact ⟨hs, fun cmd packet hmem ↦ step_carries ev hs hmem⟩

def sampleMgr : TuyaBleMgr where
  cryptoParam := sampleParam
  static := CryptStatic.init
  recvSn := 0
  isPaired := false
  isBound := true
  charHandle := 0
  packetRecv := ⟨bleFrameTrsmitrCreate 64, 0, List.replicate tuyaBleAirFrameMax 0⟩

def sampleEnv : HandlerEnv := ⟨true, true, List.replicate 6 0, []⟩

def keyedWrite : RawPacket :=
  ⟨[0, 33, 0x40] ++ encryptionModeKey14 :: sampleIv ++ sampleCipher, by decide⟩

theorem commands_carried_keyed :
    let evs : List BleEvent := [.connect 7]
    let ev : BleEvent := .write 7 keyedWrite sampleEnv
    (bleMachine sampleCrypto).Guarded (Defined sampleCrypto) sampleMgr (evs ++ [ev]) ∧
      Key11Derived sampleCrypto ((bleMachine sampleCrypto).final sampleMgr evs).static
        ((bleMachine sampleCrypto).final sampleMgr evs).cryptoParam := by
  intro evs ev
  have h : (bleMachine sampleCrypto).Guarded (Defined sampleCrypto) sampleMgr (evs ++ [ev]) := by
    refine ⟨trivial, ?_, trivial⟩
    intro _
    have hrecv : (blePacketRecv sampleCrypto ((bleMachine sampleCrypto).final sampleMgr evs)
        keyedWrite.1 true).map Prod.snd = some (some ⟨1, 3, [1, 2], encryptionModeKey14⟩) := by
      decide +kernel
    obtain ⟨res, hres, -⟩ := Option.map_eq_some_iff.mp hrecv
    exact ⟨res, hres⟩
  have hfresh : FreshMgr 64 sampleMgr := ⟨rfl, rfl, by simp [sampleMgr]⟩
  exact ⟨h, (commands_carried hfresh h).1⟩

/-- An unbind request in plaintext: mode `0`, number `1`, command `5`, two bytes
of data and the CRC. -/
def plainUnbind : RawPacket :=
  ⟨[0, 17, 0x40, 0, 0, 0, 0, 1, 0, 0, 0, 0, 0, 5, 0, 2, 0, 0, 61, 194], by decide⟩

/-- The peer writes one frame in plaintext, made without any key, and the
device is unbound. -/
theorem plaintext_unbinds :
    let s := (bleMachine sampleCrypto).final sampleMgr [.connect 7]
    let s' := (bleMachine sampleCrypto).step s (.write 7 plainUnbind sampleEnv)
    s.isBound = true ∧ s'.2 = [(.bleUnbindReq, ⟨1, 5, [0, 0], encryptionModeNone⟩)] ∧
      s'.1.isBound = false := by
  decide +kernel

end TuyaOpen.Ble
