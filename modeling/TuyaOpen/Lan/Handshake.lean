import TuyaOpen.Lan.System

/-!
# What the handshake is for

The frames TYPE3 and TYPE5 give a session its key, and from then on the session
should use it for whatever it receives and sends.  Whether a session has a key is
read off the first byte of the key, so the answer depends on the key.
-/

namespace TuyaOpen.Lan

open Bytes

def staysOpen (crypto : LanCrypto) (i : ℕ) (sys : LanSystem) (event : LanEvent) : Prop :=
  ((sys.step crypto event).lan.session i).active = true

/-- As long as the session is open, frames beyond the handshake are taken with `key`, and
what is sent is sent with `key`. -/
def KeyTakesEffect (crypto : LanCrypto) (sys : LanSystem) (i : ℕ) (key : List UInt8) : Prop :=
  ∀ events, (lanSystem crypto).Guarded (staysOpen crypto i) sys events →
    let lan := ((lanSystem crypto).final sys events).lan
    (∀ env buffer len, lan.isActivated = true → isSecurity (frameType buffer) = false →
      processFrame crypto env lan i buffer len = answerFrame crypto env lan i key buffer len) ∧
    ∀ env frType retCode data fd key' bytes,
      .sent fd key' bytes ∈ (lanSend crypto env lan i frType retCode data).2.1 → key' = key

/-- The header of a heartbeat; its data is never looked at. -/
def heartbeatHead : List UInt8 :=
  lpv35FrameHead ++ lpv35AdditionalData 1 frmTpHb 28 ++ List.replicate 32 0

/-! ## The key stays -/

def LoopNext.lan : LoopNext → LanMgr
  | .next s => s.lan
  | .left s => s.lan
  | .owned s _ => s.lan

def KeyKept (i : ℕ) (key : List UInt8) (lan : LanMgr) : Prop :=
  (lan.session i).active = true → (lan.session i).secretKey = key

section Kept

variable {crypto : LanCrypto} {i : ℕ} {key : List UInt8} {lan lan' : LanMgr}

theorem KeyKept.same (h : KeyKept i key lan) (hsame : lan'.session i = lan.session i) :
    KeyKept i key lan' := by
  rw [KeyKept, hsame]
  exact h

theorem KeyKept.wiped (h : KeyKept i key lan) (hlan : Wiped lan lan') : KeyKept i key lan' := by
  rcases hlan.session i with hsame | hfreed
  · exact h.same hsame
  · intro hactive
    rw [hfreed] at hactive
    cases hactive

theorem KeyKept.steady {j : ℕ} (h : KeyKept i key lan) (hlan : Steady j lan lan') :
    KeyKept i key lan' := by
  rcases eq_or_ne i j with rfl | hne
  · intro hactive
    rw [hlan.secretKey]
    exact h (hlan.active ▸ hactive)
  · exact h.same (hlan.others i hne)

theorem answerFrame_steady {env : FrameEnv} {buffer : List UInt8}
    (h : isSecurity (frameType buffer) = false) (len : ℕ) :
    Steady i lan (answerFrame crypto env lan i key buffer len).1 := by
  simp only [answerFrame]
  split_ifs
  · exact (lanSend_steady crypto env.send lan i _ _ _).trans
      (lanSessionTimeUpdate_steady _ i env.now)
  · split
    · exact Steady.refl i lan
    · rename_i frame hparse
      refine (lanSessionTimeUpdate_steady lan i env.now).trans (lanProtocolProcess_steady env ?_)
      -- a frame of this type is not a TYPE5 frame
      have htype : frame.type ≠ frmSecurityType5 := by
        rw [(parse_fields hparse).2]
        rintro htype
        simp [isSecurity, htype] at h
      simp [type5Verified, htype]

variable (hkeyed : key.headD 0 ≠ 0)

include hkeyed

theorem processFrame_kept {j : ℕ} (env : FrameEnv) (buffer : List UInt8) (len : ℕ)
    (h : KeyKept i key lan) : KeyKept i key (processFrame crypto env lan j buffer len).1 := by
  have hallow : ∀ n, KeyKept i key (lan.setAllowNoSessionKeyNum n) := fun n ↦
    h.steady (setAllowNoSessionKeyNum_steady lan j n)
  simp only [processFrame]
  split_ifs with hact hsec hkey hkey' hnum
  · exact h.wiped (lanSessionClose_wiped lan j)
  · exact (hallow _).wiped (lanSessionClose_wiped _ j)
  · have hrekeyed := answerFrame_rekeyed crypto env (lan.setAllowNoSessionKeyNum allowNoKeyNum) j
      lan.localkey buffer len
    rcases eq_or_ne i j with rfl | hne
    · -- the session has no key yet, so it is not one that has to keep its key
      intro hactive
      have hsecret := hallow allowNoKeyNum (hrekeyed.active ▸ hactive)
      rw [LanSession.keyed, hsecret] at hkey
      exact absurd (bne_iff_ne.mpr hkeyed) hkey
    · exact (hallow _).same (hrekeyed.others i hne)
  · exact hallow _
  · exact (h.wiped (lanSessionClose_wiped lan j)).steady
      (setAllowNoSessionKeyNum_steady _ j allowNoKeyNum)
  · exact h.steady (answerFrame_steady (by simpa using hsec) len)

theorem frameStep_kept (env : ReadEnv) {j : ℕ} (nd : List UInt8) {s : LoopState}
    (h : KeyKept i key s.lan) : KeyKept i key (frameStep crypto env j nd s).lan := by
  have hnumber : ∀ n, KeyKept i key (s.lan.setSequenceIn j n) := by
    intro n
    rcases eq_or_ne i j with rfl | hne
    · simpa [KeyKept, LanMgr.setSequenceIn] using h
    · exact h.same (setSession_of_ne s.lan _ hne)
  simp only [frameStep]
  split_ifs
  · exact h
  · exact h
  · exact h.wiped (lanSessionClose_wiped s.lan j)
  · exact h
  · exact hnumber _
  · exact hnumber _
  · exact processFrame_kept hkeyed _ _ _ (hnumber _)
  · exact processFrame_kept hkeyed _ _ _ (hnumber _)
  · exact processFrame_kept hkeyed _ _ _ (hnumber _)

theorem frameLoop_kept {env : ReadEnv} {j : ℕ} {nd : List UInt8} {fuel : ℕ} {s : LoopState}
    {r : PassResult} (h : KeyKept i key s.lan)
    (hloop : frameLoop crypto env j nd fuel s = some r) : KeyKept i key r.lan := by
  induction fuel generalizing s with
  | zero => cases hloop
  | succ fuel ih =>
      have hstep : KeyKept i key (frameStep crypto env j nd s).lan :=
        frameStep_kept hkeyed env nd h
      rw [frameLoop] at hloop
      cases hnext : frameStep crypto env j nd s with
      | next s' =>
          rw [hnext] at hloop hstep
          exact ih hstep hloop
      | left s' =>
          rw [hnext] at hloop hstep
          obtain rfl := Option.some.inj hloop
          exact hstep
      | owned s' used =>
          rw [hnext] at hloop hstep
          obtain rfl := Option.some.inj hloop
          exact hstep

theorem recvPass_kept (env : ReadEnv) {j : ℕ} (leftover bytes nd : List UInt8)
    (h : KeyKept i key lan) :
    KeyKept i key (recvPass crypto env lan j leftover bytes nd).lan := by
  simp only [recvPass]
  split_ifs
  · exact h.steady (lanSessionFaultSet_steady lan j)
  · exact h
  · exact frameLoop_kept (s := ⟨lan, [], _⟩) hkeyed h (Option.some_get _).symm

theorem step_kept {sys : LanSystem} (h : KeyKept i key sys.lan)
    (hactive : (sys.lan.session i).active = true) (event : LanEvent) :
    KeyKept i key (sys.step crypto event).lan := by
  cases event with
  | accept cfd time sequenceOut =>
      simp only [LanSystem.step, lanTcpServSockRead]
      split_ifs with hfull
      · exact h
      · rw [lanSesisonAdd, if_neg hfull]
        cases hslot : freeSlot sys.lan with
        | none => exact h
        | some j =>
            have hfree := List.find?_some hslot
            have hne : i ≠ j := by
              rintro rfl
              rw [hactive] at hfree
              cases hfree
            exact h.same (setSession_of_ne sys.lan _ hne)
  | readable fd =>
      simp only [LanSystem.step]
      split
      · split_ifs <;> exact h
      · exact h
  | recv env bytes nd =>
      simp only [LanSystem.step]
      cases sys.call with
      | none => exact h
      | some call => exact recvPass_kept hkeyed env call.leftover bytes nd h
  | close slot => exact h.wiped (lanSessionClose_wiped sys.lan slot)
  | closeAll => exact h.wiped (lanSessionCloseAll_wiped sys.lan)
  | timeCheck time => exact h.wiped (lanSessionTimeCheck_wiped sys.lan time)
  | sockErr fd =>
      simp only [LanSystem.step, lanTcpClientSockErr]
      split
      · exact h
      · split_ifs
        · exact h.steady (lanSessionFaultSet_steady sys.lan _)
        · exact h

theorem run_kept {sys : LanSystem} (hsecret : (sys.lan.session i).secretKey = key)
    (hactive : (sys.lan.session i).active = true) {events : List LanEvent}
    (hopen : (lanSystem crypto).Guarded (staysOpen crypto i) sys events) :
    (((lanSystem crypto).final sys events).lan.session i).secretKey = key := by
  have hinv := (lanSystem crypto).inv_final
    (I := fun sys ↦ KeyKept i key sys.lan ∧ (sys.lan.session i).active = true)
    (fun sys event h hstay ↦ ⟨step_kept hkeyed h.1 h.2 event, hstay⟩)
    ⟨fun _ ↦ hsecret, hactive⟩ hopen
  exact hinv.1 hinv.2

end Kept

/-! ## The handshake -/

theorem lanSessionFaultSet_session (lan : LanMgr) (i : ℕ) :
    (lanSessionFaultSet lan i).session i = lan.session i ∨
      (lanSessionFaultSet lan i).session i = { lan.session i with fault := true } := by
  rw [lanSessionFaultSet]
  split_ifs
  · exact Or.inl rfl
  · exact Or.inr (setSession_self lan i _)

theorem lanSend_rands (crypto : LanCrypto) (env : SendEnv) (lan : LanMgr) (i frType retCode : ℕ)
    (data : List UInt8) :
    ((lanSend crypto env lan i frType retCode data).1.session i).randA = (lan.session i).randA ∧
      ((lanSend crypto env lan i frType retCode data).1.session i).randB =
        (lan.session i).randB := by
  simp only [lanSend]
  split_ifs
  · exact ⟨rfl, rfl⟩
  · exact ⟨rfl, rfl⟩
  · exact ⟨rfl, rfl⟩
  · exact ⟨rfl, rfl⟩
  · simp
  · split <;> simp
  · split
    · simp
    · rcases lanSessionFaultSet_session (lan.setSession i
        { lan.session i with sequenceOut := ((lan.session i).sequenceOut + 1) % 2 ^ 32 }) i with
        h | h <;> rw [h] <;> simp

theorem type3_rands {crypto : LanCrypto} {env : FrameEnv} {lan : LanMgr} {i : ℕ}
    {frame : Lpv35FrameObject} (htype : frame.type = frmSecurityType3)
    (hlen : randLen ≤ frame.data.length) :
    ((lanProtocolProcess crypto env lan i frame).1.session i).randA = frame.data.take randLen ∧
      ((lanProtocolProcess crypto env lan i frame).1.session i).randB = env.randB := by
  have hother : ¬ (frame.type = frmTpCmd ∨ frame.type = frmTpNewCmd) := by
    rw [htype]
    decide
  rw [lanProtocolProcess, if_neg hother, if_pos htype, processType3, if_neg (not_lt.mpr hlen)]
  dsimp only
  split_ifs
  · simp
  · obtain ⟨hA, hB⟩ := lanSend_rands crypto env.send (lan.setSession i { lan.session i with
        randA := frame.data.take randLen
        hmac := crypto.sha256Mac lan.localkey (frame.data.take randLen)
        randB := env.randB }) i frmSecurityType4 0
      (env.randB ++ crypto.sha256Mac lan.localkey (frame.data.take randLen))
    rw [hA, hB]
    simp

theorem type5_secret {crypto : LanCrypto} {env : FrameEnv} {lan : LanMgr} {i : ℕ}
    {frame : Lpv35FrameObject} {key : List UInt8} (tag : List UInt8)
    (hver : type5Verified crypto lan.localkey (lan.session i) frame = true)
    (henc : crypto.gcm.encrypt lan.localkey ((lan.session i).randA.take lpv35FrameNonceSize) []
      (List.zipWith (· ^^^ ·) (lan.session i).randA (lan.session i).randB) = .ok (key, tag)) :
    ((lanProtocolProcess crypto env lan i frame).1.session i).secretKey = key := by
  obtain ⟨⟨htype, hlen⟩, -⟩ : (frame.type = frmSecurityType5 ∧ hmacLen ≤ frame.data.length) ∧
      crypto.sha256Mac lan.localkey (lan.session i).randB = frame.data.take hmacLen := by
    simpa [type5Verified] using hver
  have hother : ¬ (frame.type = frmTpCmd ∨ frame.type = frmTpNewCmd) := by
    rw [htype]
    decide
  have hthree : frame.type ≠ frmSecurityType3 := by
    rw [htype]
    decide
  rw [lanProtocolProcess, if_neg hother, if_neg hthree, if_pos htype, processType5,
    if_neg (not_lt.mpr hlen)]
  have hver' : ¬ type5Verified crypto (lan.setSession i { lan.session i with
      hmac := crypto.sha256Mac lan.localkey (lan.session i).randB }).localkey (lan.session i)
      frame = false := by
    simpa [LanMgr.setSession] using hver
  dsimp only
  rw [if_neg hver']
  have henc' : crypto.gcm.encrypt (lan.setSession i { lan.session i with
      hmac := crypto.sha256Mac lan.localkey (lan.session i).randB }).localkey
      ((lan.session i).randA.take lpv35FrameNonceSize) []
      (List.zipWith (· ^^^ ·) (lan.session i).randA (lan.session i).randB) = .ok (key, tag) := henc
  rw [henc']
  simp

/-- What happens between the two frames leaves the session open, with its random strings. -/
structure SameHandshake (i : ℕ) (lan lan' : LanMgr) : Prop where
  active : (lan'.session i).active = (lan.session i).active
  randA : (lan'.session i).randA = (lan.session i).randA
  randB : (lan'.session i).randB = (lan.session i).randB
  localkey : lan'.localkey = lan.localkey
  isActivated : lan'.isActivated = lan.isActivated

theorem keyTakesEffect_of_keyed {crypto : LanCrypto} {sys : LanSystem} {i : ℕ} {key : List UInt8}
    (hsecret : (sys.lan.session i).secretKey = key) (hactive : (sys.lan.session i).active = true)
    (hkeyed : key.headD 0 ≠ 0) : KeyTakesEffect crypto sys i key := by
  intro events hopen
  have hkept := run_kept hkeyed hsecret hactive hopen
  generalize ((lanSystem crypto).final sys events).lan = lan at hkept
  have hlan : (lan.session i).keyed = true := by
    rw [LanSession.keyed, hkept]
    exact bne_iff_ne.mpr hkeyed
  refine ⟨fun env buffer len hactivated hsec ↦ ?_, ?_⟩
  · rw [processFrame, if_neg (by simp [hactivated]), if_neg (by simp [hsec]),
      if_neg (by simp [hlan]), hkept]
  · intro env frType retCode data fd key' bytes hsent
    have hkey : ∀ lan', lanSendKey lan' (lan.session i) = key := by
      intro lan'
      rw [lanSendKey, if_pos hlan, hkept]
    simp only [lanSend, hkey] at hsent
    split_ifs at hsent
    · simp at hsent
    · simp at hsent
    · simp at hsent
    · simp at hsent
    · simp at hsent
    · split at hsent
      · simp at hsent
      · simp only [List.mem_singleton, LanOutput.sent.injEq] at hsent
        exact hsent.2.1
    · split at hsent <;> simp at hsent

theorem not_keyTakesEffect {crypto : LanCrypto} {sys : LanSystem} {i : ℕ} {key : List UInt8}
    (hsecret : (sys.lan.session i).secretKey = key) (hactivated : sys.lan.isActivated = true)
    (hzero : key.headD 0 = 0) : ¬ KeyTakesEffect crypto sys i key := by
  intro h
  have hunkeyed : (sys.lan.session i).keyed = false := by
    rw [LanSession.keyed, hsecret, hzero]
    rfl
  have hbeat := (h [] trivial).1 (sampleReadEnv.frame 0) heartbeatHead 50 hactivated (by decide)
  have htype : frameType heartbeatHead = frmTpHb := by decide
  have hnot : isSecurity (frameType heartbeatHead) = false := by decide
  have hflag := congrArg (fun r ↦ r.2.2) hbeat
  simp only [Mealy.final_nil] at hflag
  rw [processFrame, if_neg (by simp [hactivated]), if_neg (by simp [hnot]), if_pos hunkeyed,
    answerFrame, if_pos htype] at hflag
  split_ifs at hflag

/-- The negotiated key is used for all later frames, received and sent, if and only if its
first byte is not zero. -/
theorem handshake_takes_effect_iff (crypto : LanCrypto) (env₃ env₅ : FrameEnv) (lan lan' : LanMgr)
    (i : ℕ) (frame₃ frame₅ : Lpv35FrameObject) (call : Option ReadCall) (log : List LanOutput)
    (key tag : List UInt8) (hactive : (lan.session i).active = true)
    (hactivated : lan.isActivated = true)
    (htype₃ : frame₃.type = frmSecurityType3) (hlen₃ : randLen ≤ frame₃.data.length)
    (hbetween : SameHandshake i (lanProtocolProcess crypto env₃ lan i frame₃).1 lan')
    (hver₅ : type5Verified crypto lan'.localkey (lan'.session i) frame₅ = true)
    (henc : crypto.gcm.encrypt lan.localkey
      ((frame₃.data.take randLen).take lpv35FrameNonceSize) []
      (List.zipWith (· ^^^ ·) (frame₃.data.take randLen) env₃.randB) = .ok (key, tag)) :
    KeyTakesEffect crypto ⟨(lanProtocolProcess crypto env₅ lan' i frame₅).1, call, log⟩ i key ↔
      key.headD 0 ≠ 0 := by
  obtain ⟨hA, hB⟩ : ((lanProtocolProcess crypto env₃ lan i frame₃).1.session i).randA =
        frame₃.data.take randLen ∧
      ((lanProtocolProcess crypto env₃ lan i frame₃).1.session i).randB = env₃.randB :=
    type3_rands htype₃ hlen₃
  have h3 := lanProtocolProcess_rekeyed crypto env₃ lan i frame₃
  have h5 := lanProtocolProcess_rekeyed crypto env₅ lan' i frame₅
  have hsecret : ((lanProtocolProcess crypto env₅ lan' i frame₅).1.session i).secretKey = key := by
    refine type5_secret tag hver₅ ?_
    rw [hbetween.randA, hbetween.randB, hA, hB, hbetween.localkey, h3.localkey]
    exact henc
  constructor
  · intro h hzero
    refine not_keyTakesEffect hsecret ?_ hzero h
    rw [h5.isActivated, hbetween.isActivated, h3.isActivated, hactivated]
  · refine keyTakesEffect_of_keyed hsecret ?_
    rw [h5.active, hbetween.active, h3.active, hactive]

/-! ## Two handshakes -/

def appRand : List UInt8 := [65, 108, 67, 68, 69, 70, 71, 72, 73, 74, 75, 76, 77, 78, 79, 80]

/-- A random string of the device, of the characters `0` to `9` and `a` to `f`: fifteen `1`
behind the first.  With `5` in front, the key derived from it has a zero in front. -/
def deviceRand (first : UInt8) : List UInt8 := first :: List.replicate 15 49

def derivedKey (first : UInt8) : List UInt8 :=
  [first, 152, 2, 24, 8, 156, 166, 23, 212, 250, 142, 65, 45, 99, 182, 156]

def appMac : List UInt8 :=
  [25, 171, 102, 54, 72, 77, 14, 55, 60, 86, 110, 84, 120, 122, 154, 69, 62, 170, 208, 34, 113, 21,
    63, 46, 143, 32, 34, 11, 102, 164, 174, 94]

def oneMac : List UInt8 :=
  [208, 155, 71, 187, 141, 199, 247, 80, 219, 253, 188, 9, 101, 115, 166, 219, 233, 11, 246, 150,
    142, 18, 63, 136, 39, 3, 21, 248, 95, 163, 235, 183]

def fiveMac : List UInt8 :=
  [25, 203, 201, 130, 141, 148, 175, 233, 222, 171, 120, 140, 120, 250, 223, 49, 80, 208, 223, 223,
    44, 130, 169, 116, 91, 215, 167, 233, 201, 45, 162, 181]

/-- The session keys of the two handshakes. -/
def keyTable : List GcmEntry :=
  [⟨[], List.zipWith (· ^^^ ·) appRand (deviceRand 49), derivedKey 4,
      [200, 84, 234, 205, 177, 125, 47, 79, 194, 69, 155, 139, 107, 87, 168, 140]⟩,
    ⟨[], List.zipWith (· ^^^ ·) appRand (deviceRand 53), derivedKey 0,
      [107, 41, 0, 227, 17, 128, 154, 48, 71, 139, 202, 144, 233, 218, 213, 42]⟩]

def type4Cipher (first : UInt8) : List UInt8 :=
  [112, 35, 20, 222, first, 190, 108, 59, 61, 217, 88, 27, 9, 157, 20, 130, 33, 127, 243, 3, 164,
    180, 68, 172, 247, 233, 98, 193, 253, 158, 113, 109, 207, 104, 178, 109, 159, 170, 41, 194, 105,
    7, 75, 61, 98, 242, 237, 80, 151, 104, 196, 139]

/-- The TYPE4 frames that answer. -/
def type4Table : List GcmEntry :=
  [⟨lpv35AdditionalData 0 4 80, [0, 0, 0, 0] ++ deviceRand 49 ++ appMac, type4Cipher 40,
      [15, 34, 164, 141, 243, 100, 124, 57, 117, 244, 200, 82, 61, 212, 159, 95]⟩,
    ⟨lpv35AdditionalData 0 4 80, [0, 0, 0, 0] ++ deviceRand 53 ++ appMac, type4Cipher 44,
      [98, 224, 47, 130, 80, 147, 27, 13, 123, 170, 86, 60, 217, 4, 236, 187]⟩]

def handshakeCrypto : LanCrypto where
  gcm :=
    { encrypt := fun key nonce ad data ↦
        if nonce = sampleNonce then
          (tableGcm sampleKey sampleNonce type4Table).encrypt key nonce ad data
        else (tableGcm sampleKey (appRand.take 12) keyTable).encrypt key nonce ad data
      decrypt := (tableGcm sampleKey sampleNonce type4Table).decrypt }
  sha256Mac _ data :=
    if data = appRand then appMac else if data = deviceRand 49 then oneMac else fiveMac

def acceptedLan : LanMgr := lanSesisonAdd (tuyaLanInit sLanCfg true sampleKey) 5 0 0

def handshakeEnv (first : UInt8) :
    FrameEnv := { sampleReadEnv.frame 0 with randB := deviceRand first }

def type3Lan (first : UInt8) : LanMgr :=
  (lanProtocolProcess handshakeCrypto (handshakeEnv first) acceptedLan 0 ⟨1, 3, appRand⟩).1

def type5Lan (first : UInt8) (mac : List UInt8) : LanMgr :=
  (lanProtocolProcess handshakeCrypto (handshakeEnv first) (type3Lan first) 0 ⟨2, 5, mac⟩).1

theorem handshake_takes_effect_iff_one :
    (handshakeCrypto.gcm.encrypt sampleKey (appRand.take 12) []
      (List.zipWith (· ^^^ ·) appRand (deviceRand 49))).isOk = true ∧
    (KeyTakesEffect handshakeCrypto ⟨type5Lan 49 oneMac, none, []⟩ 0 (derivedKey 4) ↔
      (derivedKey 4).headD 0 ≠ 0) :=
  ⟨by decide +kernel,
    handshake_takes_effect_iff handshakeCrypto (handshakeEnv 49) (handshakeEnv 49) acceptedLan
      (type3Lan 49) 0 ⟨1, 3, appRand⟩ ⟨2, 5, oneMac⟩ none [] (derivedKey 4)
      [200, 84, 234, 205, 177, 125, 47, 79, 194, 69, 155, 139, 107, 87, 168, 140]
      (by decide +kernel) (by decide +kernel) rfl (by decide +kernel) ⟨rfl, rfl, rfl, rfl, rfl⟩
      (by decide +kernel) (by decide +kernel)⟩

/-- The device draws `5` first, both frames are right, and the key is not used. -/
theorem zero_byte_disables_key :
    type5Verified handshakeCrypto sampleKey ((type3Lan 53).session 0) ⟨2, 5, fiveMac⟩ = true ∧
    ((type5Lan 53 fiveMac).session 0).secretKey = derivedKey 0 ∧
    ((type5Lan 53 fiveMac).session 0).fault = false ∧
    ¬ KeyTakesEffect handshakeCrypto ⟨type5Lan 53 fiveMac, none, []⟩ 0 (derivedKey 0) := by
  have hsecret : ((type5Lan 53 fiveMac).session 0).secretKey = derivedKey 0 := by decide +kernel
  refine ⟨by decide +kernel, hsecret, by decide +kernel, ?_⟩
  exact not_keyTakesEffect hsecret (by decide +kernel) rfl

end TuyaOpen.Lan
