import TuyaOpen.Lan.Session

/-!
# The receive loop, `lan_tcp_client_sock_read`

A call receives into one buffer and takes the frames out of it.  A frame that is
longer than what was received is completed in a buffer of its own, and the call
ends with it; bytes that the loop leaves behind are moved to the front and the
call receives again.  `recvPass` is the code from one `recv_again` to the next,
or to the return.
-/

namespace TuyaOpen.Lan

open Bytes

/-- What one receive finds: the frames by their sequence numbers, and whether there
is memory for a frame of its own. -/
structure ReadEnv where
  frame : ℕ → FrameEnv
  tmpRecvBuf : Bool

def LanMgr.setAllowNoSessionKeyNum (lan : LanMgr) (n : ℕ) : LanMgr :=
  { lan with cfg := { lan.cfg with allowNoSessionKeyNum := n } }

def LanMgr.setSequenceIn (lan : LanMgr) (i sequence : ℕ) : LanMgr :=
  lan.setSession i { lan.session i with sequenceIn := sequence }

/-- The end of the loop's body, when the key is known.  The flag says that the frame
was consumed.  A heartbeat is answered without a look at its data. -/
def answerFrame (crypto : LanCrypto) (env : FrameEnv) (lan : LanMgr) (i : ℕ)
    (key buffer : List UInt8) (frameLen : ℕ) : LanMgr × List LanOutput × Bool :=
  if frameType buffer = frmTpHb then
    let r := lanSend crypto env.send lan i frmTpHb 0 []
    (lanSessionTimeUpdate r.1 i env.now, r.2.1, true)
  else match lpv35FrameParse crypto.gcm env.parse key buffer frameLen with
    | .error _ => (lan, [], false)
    | .ok frame =>
      let lan := lanSessionTimeUpdate lan i env.now
      let r := lanProtocolProcess crypto env lan i frame
      (r.1, .dispatched i (lan.session i) frame :: r.2, true)

def processFrame (crypto : LanCrypto) (env : FrameEnv) (lan : LanMgr) (i : ℕ)
    (buffer : List UInt8) (frameLen : ℕ) : LanMgr × List LanOutput × Bool :=
  if lan.isActivated = false then (lanSessionClose lan i, [], false)
  else if isSecurity (frameType buffer) then
    let lan := lan.setAllowNoSessionKeyNum allowNoKeyNum
    if (lan.session i).keyed then (lanSessionClose lan i, [], false)
    else answerFrame crypto env lan i lan.localkey buffer frameLen
  else if (lan.session i).keyed = false then
    if 0 < lan.cfg.allowNoSessionKeyNum then
      (lan.setAllowNoSessionKeyNum (lan.cfg.allowNoSessionKeyNum - 1), [], false)
    else ((lanSessionClose lan i).setAllowNoSessionKeyNum allowNoKeyNum, [], false)
  else answerFrame crypto env lan i (lan.session i).secretKey buffer frameLen

structure LoopState where
  lan : LanMgr
  outs : List LanOutput
  rest : List UInt8

/-- How an iteration ends: with the next one, behind the loop with the bytes that are
left, or behind the loop with a frame of its own, for which `used` bytes were read. -/
inductive LoopNext
  | next (s : LoopState)
  | left (s : LoopState)
  | owned (s : LoopState) (used : ℕ)

def frameLen (input : List UInt8) : ℕ := (22 + frameLength input) % 2 ^ 32

/-- One iteration.  `nd` is what `tal_net_recv_nd_size` can get from the socket. -/
def frameStep (crypto : LanCrypto) (env : ReadEnv) (i : ℕ) (nd : List UInt8) (s : LoopState) :
    LoopNext :=
  if s.rest.length < lpv35FrameMiniSize then .left s
  else if s.rest.take 4 ≠ lpv35FrameHead then .next { s with rest := s.rest.tail }
  else
    let session := s.lan.session i
    let sequence := frameSequence s.rest
    if sequence ≤ session.sequenceIn then
      if s.lan.cfg.sequenceErrThreshold ≤ session.sequenceIn - sequence then
        .left { s with lan := lanSessionClose s.lan i }
      else .left s
    else
      let lan := s.lan.setSequenceIn i sequence
      let len := frameLen s.rest
      if s.rest.length < len then
        if lanFrameMaxLen ≤ len ∨ env.tmpRecvBuf = false then .left { s with lan := lan }
        else if session.fd < 0 ∨ nd.length < len - s.rest.length then
          .owned { s with lan := lan } nd.length
        else
          let r := processFrame crypto (env.frame sequence) lan i
            (s.rest ++ nd.take (len - s.rest.length)) len
          .owned ⟨r.1, s.outs ++ r.2.1, s.rest⟩ (len - s.rest.length)
      else
        let r := processFrame crypto (env.frame sequence) lan i s.rest len
        if r.2.2 then .next ⟨r.1, s.outs ++ r.2.1, s.rest.drop len⟩
        else .left ⟨r.1, s.outs ++ r.2.1, s.rest⟩

/-- The outcome of a receive.  With `again` the call goes on, with these bytes at the
front of its buffer. -/
structure PassResult where
  lan : LanMgr
  outs : List LanOutput
  again : Option (List UInt8)
  used : ℕ

def frameLoop (crypto : LanCrypto) (env : ReadEnv) (i : ℕ) (nd : List UInt8) :
    ℕ → LoopState → Option PassResult
  | 0, _ => none
  | fuel + 1, s =>
    match frameStep crypto env i nd s with
    | .next s => frameLoop crypto env i nd fuel s
    | .left s => some ⟨s.lan, s.outs, if s.rest = [] then none else some s.rest, 0⟩
    | .owned s used => some ⟨s.lan, s.outs, none, used⟩

/-! ## What an operation on a session leaves as it is -/

/-- At most the key, the time, the fault flag and the handshake of the session `i` are changed. -/
structure Rekeyed (i : ℕ) (lan lan' : LanMgr) : Prop where
  others : ∀ j, j ≠ i → lan'.session j = lan.session j
  active : (lan'.session i).active = (lan.session i).active
  fd : (lan'.session i).fd = (lan.session i).fd
  sequenceIn : (lan'.session i).sequenceIn = (lan.session i).sequenceIn
  fdNum : lan'.fdNum = lan.fdNum
  clientNum : lan'.cfg.clientNum = lan.cfg.clientNum
  bufsize : lan'.cfg.bufsize = lan.cfg.bufsize
  isActivated : lan'.isActivated = lan.isActivated
  localkey : lan'.localkey = lan.localkey

structure Steady (i : ℕ) (lan lan' : LanMgr) : Prop extends Rekeyed i lan lan' where
  secretKey : (lan'.session i).secretKey = (lan.session i).secretKey

theorem Rekeyed.refl (i : ℕ) (lan : LanMgr) : Rekeyed i lan lan :=
  ⟨fun _ _ ↦ rfl, rfl, rfl, rfl, rfl, rfl, rfl, rfl, rfl⟩

theorem Rekeyed.trans {i : ℕ} {lan lan' lan'' : LanMgr} (h : Rekeyed i lan lan')
    (h' : Rekeyed i lan' lan'') : Rekeyed i lan lan'' where
  others j hj := (h'.others j hj).trans (h.others j hj)
  active := h'.active.trans h.active
  fd := h'.fd.trans h.fd
  sequenceIn := h'.sequenceIn.trans h.sequenceIn
  fdNum := h'.fdNum.trans h.fdNum
  clientNum := h'.clientNum.trans h.clientNum
  bufsize := h'.bufsize.trans h.bufsize
  isActivated := h'.isActivated.trans h.isActivated
  localkey := h'.localkey.trans h.localkey

theorem Steady.refl (i : ℕ) (lan : LanMgr) : Steady i lan lan := ⟨Rekeyed.refl i lan, rfl⟩

theorem Steady.trans {i : ℕ} {lan lan' lan'' : LanMgr} (h : Steady i lan lan')
    (h' : Steady i lan' lan'') : Steady i lan lan'' :=
  ⟨h.toRekeyed.trans h'.toRekeyed, h'.secretKey.trans h.secretKey⟩

@[simp] theorem setSession_self (lan : LanMgr) (i : ℕ) (s : LanSession) :
    (lan.setSession i s).session i = s := by simp [LanMgr.setSession]

theorem setSession_of_ne (lan : LanMgr) {i j : ℕ} (s : LanSession) (h : j ≠ i) :
    (lan.setSession i s).session j = lan.session j := Function.update_of_ne h _ _

theorem setSession_rekeyed {lan : LanMgr} {i : ℕ} {s : LanSession}
    (hactive : s.active = (lan.session i).active) (hfd : s.fd = (lan.session i).fd)
    (hseq : s.sequenceIn = (lan.session i).sequenceIn) : Rekeyed i lan (lan.setSession i s) where
  others j hj := setSession_of_ne lan s hj
  active := by simpa [LanMgr.setSession] using hactive
  fd := by simpa [LanMgr.setSession] using hfd
  sequenceIn := by simpa [LanMgr.setSession] using hseq
  fdNum := rfl
  clientNum := rfl
  bufsize := rfl
  isActivated := rfl
  localkey := rfl

theorem setSession_steady {lan : LanMgr} {i : ℕ} {s : LanSession}
    (hactive : s.active = (lan.session i).active) (hfd : s.fd = (lan.session i).fd)
    (hseq : s.sequenceIn = (lan.session i).sequenceIn)
    (hkey : s.secretKey = (lan.session i).secretKey) : Steady i lan (lan.setSession i s) :=
  ⟨setSession_rekeyed hactive hfd hseq, by simpa [LanMgr.setSession] using hkey⟩

theorem lanSessionFaultSet_steady (lan : LanMgr) (i : ℕ) :
    Steady i lan (lanSessionFaultSet lan i) := by
  rw [lanSessionFaultSet]
  split_ifs
  · exact Steady.refl i lan
  · exact setSession_steady rfl rfl rfl rfl

theorem lanSessionTimeUpdate_steady (lan : LanMgr) (i time : ℕ) :
    Steady i lan (lanSessionTimeUpdate lan i time) := by
  rw [lanSessionTimeUpdate]
  split_ifs
  · exact Steady.refl i lan
  · exact setSession_steady rfl rfl rfl rfl

theorem setAllowNoSessionKeyNum_steady (lan : LanMgr) (i n : ℕ) :
    Steady i lan (lan.setAllowNoSessionKeyNum n) :=
  ⟨⟨fun _ _ ↦ rfl, rfl, rfl, rfl, rfl, rfl, rfl, rfl, rfl⟩, rfl⟩

theorem lanSend_steady (crypto : LanCrypto) (env : SendEnv) (lan : LanMgr)
    (i frType retCode : ℕ) (data : List UInt8) :
    Steady i lan (lanSend crypto env lan i frType retCode data).1 := by
  have hsent : Steady i lan (lan.setSession i
      { lan.session i with sequenceOut := ((lan.session i).sequenceOut + 1) % 2 ^ 32 }) :=
    setSession_steady rfl rfl rfl rfl
  simp only [lanSend]
  split_ifs
  · exact Steady.refl i lan
  · exact Steady.refl i lan
  · exact Steady.refl i lan
  · exact Steady.refl i lan
  · exact hsent
  · split
    · exact hsent
    · exact hsent
  · split
    · exact hsent
    · exact hsent.trans (lanSessionFaultSet_steady _ i)

theorem processType3_steady (crypto : LanCrypto) (env : FrameEnv) (lan : LanMgr) (i : ℕ)
    (frame : Lpv35FrameObject) : Steady i lan (processType3 crypto env lan i frame).1 := by
  simp only [processType3]
  split_ifs
  · exact Steady.refl i lan
  · exact setSession_steady rfl rfl rfl rfl
  · refine Steady.trans ?_ (lanSend_steady crypto env.send _ i _ 0 _)
    exact setSession_steady rfl rfl rfl rfl

theorem processType5_rekeyed (crypto : LanCrypto) (lan : LanMgr) (i : ℕ)
    (frame : Lpv35FrameObject) : Rekeyed i lan (processType5 crypto lan i frame) := by
  have hhmac : ∀ hmac, Rekeyed i lan (lan.setSession i { lan.session i with hmac := hmac }) :=
    fun _ ↦ setSession_rekeyed rfl rfl rfl
  simp only [processType5]
  split_ifs
  · exact Rekeyed.refl i lan
  · exact (hhmac _).trans (lanSessionFaultSet_steady _ i).toRekeyed
  · split
    · exact (hhmac _).trans (setSession_rekeyed rfl rfl rfl)
    · refine Rekeyed.trans ?_ (lanSessionFaultSet_steady _ i).toRekeyed
      exact (hhmac _).trans (setSession_rekeyed rfl rfl rfl)

theorem processType5_steady {crypto : LanCrypto} {lan : LanMgr} {i : ℕ}
    {frame : Lpv35FrameObject}
    (h : type5Verified crypto lan.localkey (lan.session i) frame = false) :
    Steady i lan (processType5 crypto lan i frame) := by
  simp only [processType5]
  split_ifs with hlen hver
  · exact Steady.refl i lan
  · refine Steady.trans ?_ (lanSessionFaultSet_steady _ i)
    exact setSession_steady rfl rfl rfl rfl
  · exact absurd h hver

theorem lanProtocolProcess_rekeyed (crypto : LanCrypto) (env : FrameEnv) (lan : LanMgr) (i : ℕ)
    (frame : Lpv35FrameObject) : Rekeyed i lan (lanProtocolProcess crypto env lan i frame).1 := by
  simp only [lanProtocolProcess]
  split_ifs
  · exact (lanSend_steady crypto env.send lan i _ _ _).toRekeyed
  · exact (processType3_steady crypto env lan i frame).toRekeyed
  · exact processType5_rekeyed crypto lan i frame
  · exact (lanSend_steady crypto env.send lan i _ _ _).toRekeyed
  · exact Rekeyed.refl i lan

theorem lanProtocolProcess_steady {crypto : LanCrypto} (env : FrameEnv) {lan : LanMgr} {i : ℕ}
    {frame : Lpv35FrameObject}
    (h : type5Verified crypto lan.localkey (lan.session i) frame = false) :
    Steady i lan (lanProtocolProcess crypto env lan i frame).1 := by
  simp only [lanProtocolProcess]
  split_ifs
  · exact lanSend_steady crypto env.send lan i _ _ _
  · exact processType3_steady crypto env lan i frame
  · exact processType5_steady h
  · exact lanSend_steady crypto env.send lan i _ _ _
  · exact Steady.refl i lan

theorem answerFrame_rekeyed (crypto : LanCrypto) (env : FrameEnv) (lan : LanMgr) (i : ℕ)
    (key buffer : List UInt8) (len : ℕ) :
    Rekeyed i lan (answerFrame crypto env lan i key buffer len).1 := by
  simp only [answerFrame]
  split_ifs
  · exact ((lanSend_steady crypto env.send lan i _ _ _).trans
      (lanSessionTimeUpdate_steady _ i env.now)).toRekeyed
  · split
    · exact Rekeyed.refl i lan
    · exact (lanSessionTimeUpdate_steady lan i env.now).toRekeyed.trans
        (lanProtocolProcess_rekeyed crypto env _ i _)

theorem processFrame_rekeyed {crypto : LanCrypto} {env : FrameEnv} {lan : LanMgr} {i : ℕ}
    {buffer : List UInt8} {len : ℕ} (h : (processFrame crypto env lan i buffer len).2.2 = true) :
    Rekeyed i lan (processFrame crypto env lan i buffer len).1 := by
  simp only [processFrame] at h ⊢
  split_ifs at h ⊢
  · exact (setAllowNoSessionKeyNum_steady lan i _).toRekeyed.trans
      (answerFrame_rekeyed crypto env _ i _ buffer len)
  · exact answerFrame_rekeyed crypto env lan i _ buffer len

/-! ## The loop ends -/

/-- Each iteration drops bytes, or has no bytes to drop and makes the sequence number
of the frame at hand an old one. -/
def loopMeasure (i : ℕ) (s : LoopState) : ℕ :=
  2 * s.rest.length + if frameSequence s.rest ≤ (s.lan.session i).sequenceIn then 0 else 1

theorem loopMeasure_le (i : ℕ) (s : LoopState) : loopMeasure i s ≤ 2 * s.rest.length + 1 := by
  rw [loopMeasure]
  split_ifs <;> omega

theorem frameStep_measure {crypto : LanCrypto} {env : ReadEnv} {i : ℕ} {nd : List UInt8}
    {s s' : LoopState} (h : frameStep crypto env i nd s = .next s') :
    loopMeasure i s' < loopMeasure i s := by
  simp only [frameStep] at h
  split_ifs at h with hmini hhead hseq hthr hlen hmax hnd hdone
  · obtain rfl := LoopNext.next.inj h
    have hle := loopMeasure_le i { s with rest := s.rest.tail }
    have hmin : 50 ≤ s.rest.length := Nat.le_of_not_lt hmini
    simp only [List.length_tail] at hle
    calc loopMeasure i { s with rest := s.rest.tail } < 2 * s.rest.length := by omega
      _ ≤ loopMeasure i s := Nat.le_add_right _ _
  · obtain rfl := LoopNext.next.inj h
    have hold : loopMeasure i s = 2 * s.rest.length + 1 := by rw [loopMeasure, if_neg hseq]
    have hmin : 50 ≤ s.rest.length := Nat.le_of_not_lt hmini
    have hkept := (processFrame_rekeyed hdone).sequenceIn
    rw [LanMgr.setSequenceIn, setSession_self, ← LanMgr.setSequenceIn] at hkept
    rcases Nat.eq_zero_or_pos (frameLen s.rest) with hzero | hpos
    · -- nothing is dropped, but the session has the sequence number of the frame now
      rw [hold, loopMeasure]
      simp only [hzero, List.drop_zero] at hkept ⊢
      rw [hkept, if_pos le_rfl]
      omega
    · refine (loopMeasure_le i _).trans_lt ?_
      simp only [List.length_drop]
      omega

theorem frameLoop_isSome (crypto : LanCrypto) (env : ReadEnv) (i : ℕ) (nd : List UInt8)
    {fuel : ℕ} {s : LoopState} (h : loopMeasure i s < fuel) :
    (frameLoop crypto env i nd fuel s).isSome := by
  induction fuel generalizing s with
  | zero => omega
  | succ fuel ih =>
      rw [frameLoop]
      cases hstep : frameStep crypto env i nd s with
      | next s' =>
          have hless := frameStep_measure hstep
          exact ih (by omega)
      | left s' => rfl
      | owned s' used => rfl

/-- A receive: `bytes` is what the socket has, and no bytes are a failure. -/
def recvPass (crypto : LanCrypto) (env : ReadEnv) (lan : LanMgr) (i : ℕ)
    (leftover bytes nd : List UInt8) : PassResult :=
  let buffer := leftover ++ bytes.take (lan.cfg.bufsize - leftover.length)
  if bytes.take (lan.cfg.bufsize - leftover.length) = [] then
    ⟨lanSessionFaultSet lan i, [], none, 0⟩
  else if buffer.length < lpv35FrameMiniSize then ⟨lan, [], none, 0⟩
  else
    (frameLoop crypto env i nd (2 * buffer.length + 2) ⟨lan, [], buffer⟩).get
      (frameLoop_isSome crypto env i nd
        (Nat.lt_succ_of_le (loopMeasure_le i ⟨lan, [], buffer⟩)))

/-! ## Values for examples -/

def sampleReadEnv : ReadEnv where
  frame _ :=
    { now := 0
      randB := List.replicate 16 1
      frameBuffer := true
      reply := (0, [])
      parse := ⟨true, .error oprtComError⟩
      send := ⟨true, true, sampleNonce, true⟩ }
  tmpRecvBuf := true

end TuyaOpen.Lan
