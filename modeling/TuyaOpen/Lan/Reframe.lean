import TuyaOpen.Lan.Codec
import TuyaOpen.Lan.Read
import TuyaOpen.Lan.System

/-!
# Streams of frames on a keyed session

The application sends serialized frames one after the other.  The header of the
first frame is read from any piece of the stream that has the shortest frame in it,
and parsing gives back what was serialized, whatever follows in the buffer.
-/

namespace TuyaOpen.Lan

open Bytes

/-- A frame under the session key.  The frames of the handshake are under the local key. -/
structure SessionFrame (gcm : Gcm) (key : List UInt8) where
  object : Lpv35FrameObject
  nonce : List UInt8
  bytes : List UInt8
  serialized : lpv35FrameSerialize gcm key nonce object = .ok bytes
  nonce_length : nonce.length = lpv35FrameNonceSize
  sequence_lt : object.sequence < 2 ^ 32
  type_lt : object.type < 2 ^ 32
  not_security : isSecurity object.type = false
  short : bytes.length < lanFrameMaxLen

def stream {gcm : Gcm} {key : List UInt8} (frames : List (SessionFrame gcm key)) : List UInt8 :=
  (frames.map SessionFrame.bytes).flatten

namespace SessionFrame

variable {gcm : Gcm} {key : List UInt8} (frame : SessionFrame gcm key)

variable (hgcm : gcm.Lawful)

include hgcm

theorem data_short : 28 + frame.object.data.length < 2 ^ 32 := by
  have hser := frame.serialized
  have hshort := frame.short
  simp only [lpv35FrameSerialize] at hser
  split_ifs at hser
  split at hser
  · cases hser
  · rename_i ct tag henc
    obtain ⟨hct, -⟩ := hgcm _ _ _ _ _ _ henc
    rw [← Except.ok.inj hser] at hshort
    simp only [List.length_append, hct, lanFrameMaxLen] at hshort
    omega

def sent : SentFrame gcm key where
  object := frame.object
  nonce := frame.nonce
  bytes := frame.bytes
  serialized := frame.serialized
  nonce_length := frame.nonce_length
  sequence_lt := frame.sequence_lt
  type_lt := frame.type_lt
  data_lt := frame.data_short hgcm

theorem length_bytes : frame.bytes.length = 50 + frame.object.data.length :=
  (frame.sent hgcm).length_bytes hgcm

theorem take_head (more : List UInt8) : (frame.bytes ++ more).take 4 = lpv35FrameHead :=
  (frame.sent hgcm).take_head hgcm more

theorem frameSequence_bytes (more : List UInt8) :
    frameSequence (frame.bytes ++ more) = frame.object.sequence :=
  (frame.sent hgcm).frameSequence_bytes hgcm more

theorem frameType_bytes (more : List UInt8) :
    frameType (frame.bytes ++ more) = frame.object.type :=
  (frame.sent hgcm).frameType_bytes hgcm more

theorem frameLen_bytes (more : List UInt8) :
    frameLen (frame.bytes ++ more) = frame.bytes.length := by
  have hlen := frame.length_bytes hgcm
  have hshort : frame.bytes.length < 4096 := frame.short
  have hlength : frameLength (frame.bytes ++ more) = 28 + frame.object.data.length :=
    (frame.sent hgcm).frameLength_bytes hgcm more
  rw [frameLen, hlength]
  omega

theorem parse_bytes {env : ParseEnv} (hmalloc : env.malloc = true) (more : List UInt8) :
    lpv35FrameParse gcm env key (frame.bytes ++ more) frame.bytes.length = .ok frame.object :=
  (frame.sent hgcm).parse_bytes hgcm hmalloc more

end SessionFrame

/-!
## Taking frames out of a TCP stream

The stream is cut into reads as the network likes.  The loop finishes a frame of
which it has at least 50 bytes, by waiting for the rest of it.  With fewer bytes of
a frame at hand it depends on more bytes being there at once: the bytes of a first
read are dropped, and bytes left over from a read end in a fault of the session.
-/

/-! ## Calls against a stream -/

/-- A read call from one `tal_net_recv` to its return, against what is still to come
of the stream.  The list says how many bytes have arrived at each `tal_net_recv`;
when it is used up, none have.  `tal_net_recv_nd_size` waits for what it needs. -/
def readLoop (crypto : LanCrypto) (env : ReadEnv) (i : ℕ) :
    LanMgr → List UInt8 → List UInt8 → List ℕ → LanMgr × List LanOutput × List UInt8
  | lan, leftover, input, [] =>
    let r := recvPass crypto env lan i leftover [] input
    (r.lan, r.outs, input)
  | lan, leftover, input, avail :: avails =>
    let got := min (min avail (lan.cfg.bufsize - leftover.length)) input.length
    let r := recvPass crypto env lan i leftover (input.take got) (input.drop got)
    match r.again with
    | none => (r.lan, r.outs, input.drop (got + r.used))
    | some leftover =>
      let t := readLoop crypto env i r.lan leftover (input.drop (got + r.used)) avails
      (t.1, r.outs ++ t.2.1, t.2.2)

def lanTcpClientSockRead (crypto : LanCrypto) (env : ReadEnv) (fd : ℤ) (lan : LanMgr)
    (input : List UInt8) (avails : List ℕ) : LanMgr × List LanOutput × List UInt8 :=
  match lanSessionGetByFd lan fd with
  | none => (lan, [], input)
  | some i =>
    if (lan.session i).active then readLoop crypto env i lan [] input avails
    else (lan, [], input)

def readEvents (crypto : LanCrypto) (env : ReadEnv) (fd : ℤ) :
    LanMgr → List UInt8 → List (List ℕ) → LanMgr × List LanOutput × List UInt8
  | lan, input, [] => (lan, [], input)
  | lan, input, avails :: events =>
    let r := lanTcpClientSockRead crypto env fd lan input avails
    let t := readEvents crypto env fd r.1 r.2.2 events
    (t.1, r.2.1 ++ t.2.1, t.2.2)

theorem readLoop_run (crypto : LanCrypto) (env : ReadEnv) (i : ℕ) (avails : List ℕ) (lan : LanMgr)
    (leftover input : List UInt8) (log : List LanOutput) :
    ∃ events, (lanSystem crypto).final ⟨lan, some ⟨i, leftover⟩, log⟩ events =
      ⟨(readLoop crypto env i lan leftover input avails).1, none,
        log ++ (readLoop crypto env i lan leftover input avails).2.1⟩ := by
  induction avails generalizing lan leftover input log with
  | nil =>
      refine ⟨[.recv env [] input], ?_⟩
      simp [lanSystem, LanSystem.step, readLoop, recvPass_nil]
  | cons avail avails ih =>
      simp only [readLoop]
      generalize min (min avail (lan.cfg.bufsize - leftover.length)) input.length = got
      have hfirst : (lanSystem crypto).step ⟨lan, some ⟨i, leftover⟩, log⟩
          (.recv env (input.take got) (input.drop got)) =
          (⟨(recvPass crypto env lan i leftover (input.take got) (input.drop got)).lan,
            (recvPass crypto env lan i leftover (input.take got) (input.drop got)).again.map
              (fun leftover ↦ ⟨i, leftover⟩),
            log ++ (recvPass crypto env lan i leftover (input.take got) (input.drop got)).outs⟩,
            ()) := rfl
      generalize recvPass crypto env lan i leftover (input.take got) (input.drop got) = r at *
      cases hagain : r.again with
      | none =>
          refine ⟨[.recv env (input.take got) (input.drop got)], ?_⟩
          rw [Mealy.final_cons, hfirst, hagain]
          rfl
      | some leftover' =>
          obtain ⟨events, hevents⟩ := ih r.lan leftover' (input.drop (got + r.used))
            (log ++ r.outs)
          refine ⟨.recv env (input.take got) (input.drop got) :: events, ?_⟩
          rw [Mealy.final_cons, hfirst, hagain]
          simp only [Option.map_some, hevents, List.append_assoc]

theorem lanTcpClientSockRead_run (crypto : LanCrypto) (env : ReadEnv) (fd : ℤ) (lan : LanMgr)
    (input : List UInt8) (avails : List ℕ) (log : List LanOutput) :
    ∃ events, (lanSystem crypto).final ⟨lan, none, log⟩ events =
      ⟨(lanTcpClientSockRead crypto env fd lan input avails).1, none,
        log ++ (lanTcpClientSockRead crypto env fd lan input avails).2.1⟩ := by
  have hidle : ∃ events, (lanSystem crypto).final ⟨lan, none, log⟩ events =
      ⟨lan, none, log ++ []⟩ :=
    ⟨[], by simp⟩
  rw [lanTcpClientSockRead]
  cases hfound : lanSessionGetByFd lan fd with
  | none => exact hidle
  | some i =>
      dsimp only
      split_ifs with hactive
      · obtain ⟨events, hevents⟩ := readLoop_run crypto env i avails lan [] input log
        refine ⟨.readable fd :: events, ?_⟩
        rw [Mealy.final_cons, ← hevents]
        simp [lanSystem, LanSystem.step, hfound, hactive]
      · exact hidle

theorem readEvents_run (crypto : LanCrypto) (env : ReadEnv) (fd : ℤ) (calls : List (List ℕ))
    (lan : LanMgr) (input : List UInt8) (log : List LanOutput) :
    ∃ events, (lanSystem crypto).final ⟨lan, none, log⟩ events =
      ⟨(readEvents crypto env fd lan input calls).1, none,
        log ++ (readEvents crypto env fd lan input calls).2.1⟩ := by
  induction calls generalizing lan input log with
  | nil => exact ⟨[], by simp [readEvents]⟩
  | cons avails calls ih =>
      obtain ⟨events, hfirst⟩ := lanTcpClientSockRead_run crypto env fd lan input avails log
      obtain ⟨events', hothers⟩ := ih (lanTcpClientSockRead crypto env fd lan input avails).1
        (lanTcpClientSockRead crypto env fd lan input avails).2.2
        (log ++ (lanTcpClientSockRead crypto env fd lan input avails).2.1)
      refine ⟨events ++ events', ?_⟩
      rw [Mealy.final_append, hfirst, hothers, readEvents]
      simp only [List.append_assoc]

/-- The frames that were handed to `lan_protocol_process`, with their slots. -/
def processed (outs : List LanOutput) : List (ℕ × Lpv35FrameObject) :=
  outs.filterMap fun
    | .dispatched slot _ frame => some (slot, frame)
    | _ => none

@[simp] theorem processed_append (outs outs' : List LanOutput) :
    processed (outs ++ outs') = processed outs ++ processed outs' := List.filterMap_append

/-- The frames that should be processed: heartbeats are answered at once. -/
def expected {gcm : Gcm} {key : List UInt8} (i : ℕ) (frames : List (SessionFrame gcm key)) :
    List (ℕ × Lpv35FrameObject) :=
  (frames.filter fun frame ↦ frame.object.type ≠ frmTpHb).map fun frame ↦ (i, frame.object)

@[simp] theorem expected_append {gcm : Gcm} {key : List UInt8} (i : ℕ)
    (frames frames' : List (SessionFrame gcm key)) :
    expected i (frames ++ frames') = expected i frames ++ expected i frames' := by
  simp [expected]

/-! ## Cuts -/

section Cut

variable {α : Type*} (len : α → ℕ)

/-- With `m` bytes at hand: the frames that are still to come when the loop is left, and
how many bytes of the first of them are at hand then.  A frame of which there are 50
bytes is finished. -/
def passCut : List α → ℕ → List α × ℕ
  | [], _ => ([], 0)
  | frame :: frames, m =>
    if len frame ≤ m then passCut frames (m - len frame)
    else if lpv35FrameMiniSize ≤ m then (frames, 0)
    else (frame :: frames, m)

/-- The reads of one call with `k` bytes at hand: each read gives the loop 50 bytes to look
at, and bytes that are left over are followed by more. -/
def callCut (bufsize : ℕ) : List α → ℕ → List ℕ → Option (List α)
  | _, _, [] => none
  | frames, k, avail :: avails =>
    let got := min (min avail (bufsize - k)) ((frames.map len).sum - k)
    if got = 0 ∨ k + got < lpv35FrameMiniSize then none
    else
      let p := passCut len frames (k + got)
      if p.2 = 0 then some p.1 else callCut bufsize p.1 p.2 avails

/-- The frames that are still to come after the calls, if all their reads are of this kind. -/
def readsCut (bufsize : ℕ) : List α → List (List ℕ) → Option (List α)
  | frames, [] => some frames
  | frames, avails :: events =>
    match callCut len bufsize frames 0 avails with
    | none => none
    | some frames => readsCut bufsize frames events

end Cut

/-! ## A session that is ready for the frames to come -/

structure Ready {gcm : Gcm} {key : List UInt8} (fd : ℤ) (i bufsize : ℕ)
    (frames : List (SessionFrame gcm key)) (lan : LanMgr) : Prop where
  found : lanSessionGetByFd lan fd = some i
  fd_nonneg : 0 ≤ (lan.session i).fd
  active : (lan.session i).active = true
  healthy : (lan.session i).fault = false
  secretKey : (lan.session i).secretKey = key
  keyed : (lan.session i).keyed = true
  isActivated : lan.isActivated = true
  bufsize : lan.cfg.bufsize = bufsize
  newer : ∀ frame ∈ frames, (lan.session i).sequenceIn < frame.object.sequence
  increasing : frames.Pairwise fun frame frame' ↦ frame.object.sequence < frame'.object.sequence

/-- There is memory for the frames, and their answers can be sent. -/
structure ReadEnv.Serves (env : ReadEnv) : Prop where
  tmpRecvBuf : env.tmpRecvBuf = true
  parse : ∀ sequence, (env.frame sequence).parse.malloc = true
  send : ∀ sequence, (env.frame sequence).send.sent = true

section Fault

variable {crypto : LanCrypto} {lan : LanMgr} {i : ℕ}

theorem lanSend_fault {env : SendEnv} (hsent : env.sent = true) (frType retCode : ℕ)
    (data : List UInt8) :
    ((lanSend crypto env lan i frType retCode data).1.session i).fault =
      (lan.session i).fault := by
  simp only [lanSend]
  split_ifs
  · rfl
  · rfl
  · rfl
  · rfl
  · rw [setSession_self]
  · split <;> rw [setSession_self]

theorem lanSessionTimeUpdate_fault (time : ℕ) :
    ((lanSessionTimeUpdate lan i time).session i).fault = (lan.session i).fault := by
  rw [lanSessionTimeUpdate]
  split_ifs
  · rfl
  · rw [setSession_self]

theorem type_of_not_security {type : ℕ} (h : isSecurity type = false) :
    type ≠ frmSecurityType3 ∧ type ≠ frmSecurityType5 := by
  simp only [isSecurity, Bool.or_eq_false_iff, decide_eq_false_iff_not] at h
  exact ⟨h.1.1, h.2⟩

theorem lanProtocolProcess_fault {env : FrameEnv} (hsent : env.send.sent = true)
    {frame : Lpv35FrameObject} (hsec : isSecurity frame.type = false) :
    ((lanProtocolProcess crypto env lan i frame).1.session i).fault = (lan.session i).fault := by
  obtain ⟨h3, h5⟩ := type_of_not_security hsec
  simp only [lanProtocolProcess, if_neg h3, if_neg h5]
  split_ifs
  · exact lanSend_fault hsent _ _ _
  · exact lanSend_fault hsent _ _ _
  · rfl

end Fault

section Ready

variable {gcm : Gcm} {key : List UInt8} {fd : ℤ} {i bufsize : ℕ}
  {frames : List (SessionFrame gcm key)} {lan lan' : LanMgr}

theorem lanSessionGetByFd_congr (hnum : lan'.cfg.clientNum = lan.cfg.clientNum)
    (hfd : ∀ j, (lan'.session j).fd = (lan.session j).fd) (fd : ℤ) :
    lanSessionGetByFd lan' fd = lanSessionGetByFd lan fd := by
  simp only [lanSessionGetByFd, hnum, hfd]

theorem Ready.steady (h : Ready fd i bufsize frames lan) (hlan : Steady i lan lan')
    (hfault : (lan'.session i).fault = (lan.session i).fault) :
    Ready fd i bufsize frames lan' where
  found := by
    refine (lanSessionGetByFd_congr hlan.clientNum (fun j ↦ ?_) fd).trans h.found
    by_cases hji : j = i
    · rw [hji, hlan.fd]
    · rw [hlan.others j hji]
  fd_nonneg := hlan.fd ▸ h.fd_nonneg
  active := hlan.active.trans h.active
  healthy := hfault.trans h.healthy
  secretKey := hlan.secretKey.trans h.secretKey
  keyed := by
    rw [LanSession.keyed, hlan.secretKey, ← LanSession.keyed]
    exact h.keyed
  isActivated := hlan.isActivated.trans h.isActivated
  bufsize := hlan.bufsize.trans h.bufsize
  newer frame hframe := hlan.sequenceIn ▸ h.newer frame hframe
  increasing := h.increasing

theorem Ready.setSequenceIn {frame : SessionFrame gcm key}
    (h : Ready fd i bufsize (frame :: frames) lan) :
    Ready fd i bufsize frames (lan.setSequenceIn i frame.object.sequence) where
  found := by
    have hfd : ∀ j, ((lan.setSequenceIn i frame.object.sequence).session j).fd =
        (lan.session j).fd := by
      intro j
      by_cases hji : j = i
      · rw [hji, LanMgr.setSequenceIn, setSession_self]
      · rw [LanMgr.setSequenceIn, setSession_of_ne lan _ hji]
    have hnum : (lan.setSequenceIn i frame.object.sequence).cfg.clientNum =
        lan.cfg.clientNum := rfl
    rw [lanSessionGetByFd_congr hnum hfd]
    exact h.found
  fd_nonneg := by simpa [LanMgr.setSequenceIn] using h.fd_nonneg
  active := by simpa [LanMgr.setSequenceIn] using h.active
  healthy := by simpa [LanMgr.setSequenceIn] using h.healthy
  secretKey := by simpa [LanMgr.setSequenceIn] using h.secretKey
  keyed := by simpa [LanMgr.setSequenceIn, LanSession.keyed] using h.keyed
  isActivated := h.isActivated
  bufsize := h.bufsize
  newer frame' hframe' := by
    rw [LanMgr.setSequenceIn, setSession_self]
    exact List.rel_of_pairwise_cons h.increasing hframe'
  increasing := h.increasing.of_cons

end Ready

/-! ## One frame of the stream -/

section Frame

variable {crypto : LanCrypto} {key : List UInt8} {fd : ℤ} {i bufsize : ℕ}
  {frame : SessionFrame crypto.gcm key} {frames : List (SessionFrame crypto.gcm key)}

theorem lanSend_processed (env : SendEnv) (lan : LanMgr) (frType retCode : ℕ)
    (data : List UInt8) : processed (lanSend crypto env lan i frType retCode data).2.1 = [] := by
  simp only [lanSend]
  split_ifs
  · rfl
  · rfl
  · rfl
  · rfl
  · rfl
  · split <;> rfl
  · split <;> rfl

theorem lanProtocolProcess_processed (env : FrameEnv) (lan : LanMgr)
    {object : Lpv35FrameObject} (hsec : isSecurity object.type = false) :
    processed (lanProtocolProcess crypto env lan i object).2 = [] := by
  obtain ⟨h3, h5⟩ := type_of_not_security hsec
  simp only [lanProtocolProcess, if_neg h3, if_neg h5]
  split_ifs
  · exact lanSend_processed env.send lan _ _ _
  · exact lanSend_processed env.send lan _ _ _
  · rfl

theorem processFrame_ready (frame : SessionFrame crypto.gcm key) (hgcm : crypto.gcm.Lawful)
    {env : FrameEnv}
    (hmalloc : env.parse.malloc = true) (hsent : env.send.sent = true) {lan : LanMgr}
    (h : Ready fd i bufsize frames lan) (more : List UInt8) :
    (processFrame crypto env lan i (frame.bytes ++ more) frame.bytes.length).2.2 = true ∧
    Ready fd i bufsize frames
      (processFrame crypto env lan i (frame.bytes ++ more) frame.bytes.length).1 ∧
    processed (processFrame crypto env lan i (frame.bytes ++ more) frame.bytes.length).2.1 =
      expected i [frame] := by
  have hchoice : processFrame crypto env lan i (frame.bytes ++ more) frame.bytes.length =
      answerFrame crypto env lan i key (frame.bytes ++ more) frame.bytes.length := by
    simp only [processFrame, frame.frameType_bytes hgcm more, h.isActivated, frame.not_security,
      h.keyed, h.secretKey, Bool.true_eq_false, Bool.false_eq_true, if_false]
  rw [hchoice]
  by_cases hhb : frame.object.type = frmTpHb
  · -- a heartbeat is answered
    simp only [answerFrame, frame.frameType_bytes hgcm more, if_pos hhb, true_and]
    constructor
    · refine (h.steady (lanSend_steady crypto env.send lan i _ _ _)
        (lanSend_fault hsent _ _ _)).steady
        (lanSessionTimeUpdate_steady _ i env.now) (lanSessionTimeUpdate_fault env.now)
    · rw [lanSend_processed]
      simp [expected, hhb]
  · simp only [answerFrame, frame.frameType_bytes hgcm more, if_neg hhb,
      frame.parse_bytes hgcm hmalloc more, true_and]
    have htime := h.steady (lanSessionTimeUpdate_steady lan i env.now)
      (lanSessionTimeUpdate_fault env.now)
    have hver : type5Verified crypto (lanSessionTimeUpdate lan i env.now).localkey
        ((lanSessionTimeUpdate lan i env.now).session i) frame.object = false := by
      have h5 := (type_of_not_security frame.not_security).2
      simp [type5Verified, h5]
    constructor
    · exact htime.steady (lanProtocolProcess_steady env hver)
        (lanProtocolProcess_fault hsent frame.not_security)
    · have hsilent : processed (lanProtocolProcess crypto env
          (lanSessionTimeUpdate lan i env.now) i frame.object).2 = [] :=
        lanProtocolProcess_processed env _ frame.not_security
      simp only [processed, List.filterMap_cons] at hsilent ⊢
      rw [hsilent]
      simp [expected, hhb]

theorem header_of_piece (hgcm : crypto.gcm.Lawful) {rest x y : List UInt8}
    (hpiece : rest ++ x = frame.bytes ++ y) (hmini : 50 ≤ rest.length) :
    rest.take 4 = lpv35FrameHead ∧ frameSequence rest = frame.object.sequence ∧
      frameLen rest = frame.bytes.length := by
  have hlength : frameLength rest = frameLength (rest ++ x) :=
    (getBE_append_left (by omega) x).symm
  refine ⟨?_, ?_, ?_⟩
  · rw [← frame.take_head hgcm y, ← hpiece, List.take_append_of_le_length (by omega)]
  · rw [← frame.frameSequence_bytes hgcm y, ← hpiece]
    exact (getBE_append_left (by omega) x).symm
  · rw [← frame.frameLen_bytes hgcm y, ← hpiece, frameLen, hlength, ← frameLen]

theorem frameStep_whole (hgcm : crypto.gcm.Lawful) {env : ReadEnv} (henv : env.Serves)
    (nd : List UInt8) {s : LoopState} {more : List UInt8} (hrest : s.rest = frame.bytes ++ more)
    (h : Ready fd i bufsize (frame :: frames) s.lan) :
    ∃ lan outs, frameStep crypto env i nd s = .next ⟨lan, s.outs ++ outs, more⟩ ∧
      Ready fd i bufsize frames lan ∧ processed outs = expected i [frame] := by
  have hlen := frame.length_bytes hgcm
  have hmini : ¬ s.rest.length < lpv35FrameMiniSize := by
    rw [hrest, List.length_append, lpv35FrameMiniSize]
    omega
  obtain ⟨hhead, hseq, hframeLen⟩ := header_of_piece (x := []) hgcm
    ((List.append_nil _).trans hrest) (Nat.le_of_not_lt hmini)
  have hnewer := h.newer frame List.mem_cons_self
  have hfits : ¬ s.rest.length < frame.bytes.length := by
    rw [hrest, List.length_append]
    omega
  obtain ⟨hdone, hready, hout⟩ := processFrame_ready frame hgcm
    (henv.parse frame.object.sequence) (henv.send frame.object.sequence) h.setSequenceIn more
  refine ⟨_, _, ?_, hready, hout⟩
  simp only [frameStep, if_neg hmini, hhead, ne_eq, not_true_eq_false, if_false, hseq,
    if_neg (Nat.not_le_of_lt hnewer), hframeLen, if_neg hfits]
  simp only [hrest, hdone, if_true, List.drop_left]

theorem frameStep_part (hgcm : crypto.gcm.Lawful) {env : ReadEnv} (henv : env.Serves)
    {nd : List UInt8} {s : LoopState} {more : List UInt8}
    (hrest : s.rest ++ nd = frame.bytes ++ more) (hmini : 50 ≤ s.rest.length)
    (hpart : s.rest.length < frame.bytes.length)
    (h : Ready fd i bufsize (frame :: frames) s.lan) :
    ∃ lan outs, frameStep crypto env i nd s =
        .owned ⟨lan, s.outs ++ outs, s.rest⟩ (frame.bytes.length - s.rest.length) ∧
      Ready fd i bufsize frames lan ∧ processed outs = expected i [frame] := by
  obtain ⟨hhead, hseq, hframeLen⟩ := header_of_piece hgcm hrest hmini
  have hnewer := h.newer frame List.mem_cons_self
  have hshort : ¬ lanFrameMaxLen ≤ frame.bytes.length := Nat.not_le_of_lt frame.short
  have henough : ¬ nd.length < frame.bytes.length - s.rest.length := by
    have hlengths := congrArg List.length hrest
    simp only [List.length_append] at hlengths
    omega
  have hwhole : s.rest ++ nd.take (frame.bytes.length - s.rest.length) = frame.bytes ++ [] := by
    have htake := congrArg (List.take frame.bytes.length) hrest
    rw [List.append_nil]
    rwa [List.take_append, List.take_of_length_le hpart.le, List.take_left] at htake
  obtain ⟨-, hready, hout⟩ := processFrame_ready frame hgcm
    (henv.parse frame.object.sequence) (henv.send frame.object.sequence) h.setSequenceIn []
  have hfd : ¬ (s.lan.session i).fd < 0 := not_lt.mpr h.fd_nonneg
  refine ⟨_, _, ?_, hready, hout⟩
  simp only [frameStep, lpv35FrameMiniSize, if_neg (Nat.not_lt_of_le hmini), hhead, ne_eq,
    not_true_eq_false, if_false, hseq, if_neg (Nat.not_le_of_lt hnewer), hframeLen, if_pos hpart,
    hshort, henv.tmpRecvBuf, Bool.true_eq_false, or_self, hfd, henough, hwhole]

end Frame

/-! ## One receive from the stream -/

section Pass

variable {crypto : LanCrypto} {key : List UInt8} {fd : ℤ} {i bufsize : ℕ}
  {frames : List (SessionFrame crypto.gcm key)}

abbrev frameSize (frame : SessionFrame crypto.gcm key) : ℕ := frame.bytes.length

theorem stream_cons (frame : SessionFrame crypto.gcm key)
    (frames : List (SessionFrame crypto.gcm key)) :
    stream (frame :: frames) = frame.bytes ++ stream frames := by
  simp [stream]

theorem length_stream (frames : List (SessionFrame crypto.gcm key)) :
    (stream frames).length = (frames.map frameSize).sum := by
  simp [stream, List.length_flatten, List.map_map, Function.comp_def]

/-- What a receive comes to that had `m` bytes of the stream in its buffer: the frames
before `p.1` are processed, and `p.2` bytes of these are left over. -/
structure Passed (fd : ℤ) (i bufsize : ℕ) (frames : List (SessionFrame crypto.gcm key)) (m : ℕ)
    (before : List (ℕ × Lpv35FrameObject)) (p : List (SessionFrame crypto.gcm key) × ℕ)
    (r : PassResult) : Prop where
  done : ∃ done, frames = done ++ p.1 ∧ processed r.outs = before ++ expected i done
  ready : Ready fd i bufsize p.1 r.lan
  again : r.again = if p.2 = 0 then none else some ((stream p.1).take p.2)
  input : (stream frames).drop (m + r.used) = (stream p.1).drop p.2
  left_le : p.2 ≤ (stream p.1).length

theorem Passed.cons {frame : SessionFrame crypto.gcm key} {m : ℕ}
    {before : List (ℕ × Lpv35FrameObject)} {p : List (SessionFrame crypto.gcm key) × ℕ}
    {r : PassResult} (hwhole : frame.bytes.length ≤ m)
    (h : Passed fd i bufsize frames (m - frame.bytes.length) (before ++ expected i [frame]) p r) :
    Passed fd i bufsize (frame :: frames) m before p r where
  done := by
    obtain ⟨done, hsplit, hproc⟩ := h.done
    refine ⟨frame :: done, congrArg (List.cons frame) hsplit, ?_⟩
    rw [hproc, List.append_assoc, ← expected_append]
    rfl
  ready := h.ready
  again := h.again
  input := by
    have hshift : m + r.used - frame.bytes.length = m - frame.bytes.length + r.used := by omega
    rw [← h.input, stream_cons, List.drop_append, List.drop_of_length_le (by omega),
      List.nil_append, hshift]
  left_le := h.left_le

theorem Passed.short {env : ReadEnv} {nd : List UInt8} {fuel m : ℕ} {s : LoopState}
    {r : PassResult} (h : Ready fd i bufsize frames s.lan)
    (hrest : s.rest = (stream frames).take m) (hm : m ≤ (stream frames).length)
    (hshort : m < lpv35FrameMiniSize) (hloop : frameLoop crypto env i nd fuel s = some r) :
    Passed fd i bufsize frames m (processed s.outs) (frames, m) r := by
  have hrestLen : s.rest.length = m := by rw [hrest, List.length_take, min_eq_left hm]
  have hstep : frameStep crypto env i nd s = .left s := by
    rw [frameStep, if_pos (hrestLen.trans_lt hshort)]
  cases fuel with
  | zero => cases hloop
  | succ fuel =>
      rw [frameLoop, hstep] at hloop
      obtain rfl := Option.some.inj hloop
      have hnil : s.rest = [] ↔ m = 0 := by rw [← List.length_eq_zero_iff, hrestLen]
      refine ⟨⟨[], rfl, by simp [expected]⟩, h, ?_, rfl, hm⟩
      show _ = if m = 0 then none else some ((stream frames).take m)
      rw [← hrest, if_congr hnil rfl rfl]

/-- By induction on the frames: the loop is at the start of a frame in every iteration. -/
theorem frameLoop_stream (hgcm : crypto.gcm.Lawful) {env : ReadEnv} (henv : env.Serves)
    {nd : List UInt8} {fuel m : ℕ} {s : LoopState} {r : PassResult}
    (h : Ready fd i bufsize frames s.lan) (hrest : s.rest = (stream frames).take m)
    (hm : m ≤ (stream frames).length) (hnd : nd = (stream frames).drop m)
    (hloop : frameLoop crypto env i nd fuel s = some r) :
    Passed fd i bufsize frames m (processed s.outs) (passCut frameSize frames m) r := by
  induction frames generalizing fuel m s with
  | nil =>
      obtain rfl : m = 0 := by simpa [stream] using hm
      exact Passed.short h hrest hm (by decide) hloop
  | cons frame frames ih =>
      have hlen := frame.length_bytes hgcm
      have hrestLen : s.rest.length = m := by rw [hrest, List.length_take, min_eq_left hm]
      by_cases hwhole : frame.bytes.length ≤ m
      · -- the frame is in the buffer
        rw [passCut, if_pos hwhole]
        have hmore : s.rest = frame.bytes ++ (stream frames).take (m - frame.bytes.length) := by
          rw [hrest, stream_cons, List.take_append, List.take_of_length_le hwhole]
        have hm' : m - frame.bytes.length ≤ (stream frames).length := by
          rw [stream_cons, List.length_append] at hm
          omega
        have hnd' : nd = (stream frames).drop (m - frame.bytes.length) := by
          rw [hnd, stream_cons, List.drop_append, List.drop_of_length_le hwhole, List.nil_append]
        obtain ⟨lan, outs, hstep, hready, hout⟩ := frameStep_whole hgcm henv nd hmore h
        cases fuel with
        | zero => cases hloop
        | succ fuel =>
            rw [frameLoop, hstep] at hloop
            have hpassed := ih hready rfl hm' hnd' hloop
            rw [processed_append, hout] at hpassed
            exact hpassed.cons hwhole
      · rw [passCut, if_neg hwhole]
        by_cases hmini : lpv35FrameMiniSize ≤ m
        · -- the frame is finished in a buffer of its own
          rw [if_pos hmini]
          have hpiece : s.rest ++ nd = frame.bytes ++ stream frames := by
            rw [hrest, hnd, List.take_append_drop, stream_cons]
          obtain ⟨lan, outs, hstep, hready, hout⟩ := frameStep_part hgcm henv hpiece
            (hrestLen ▸ hmini) (by omega) h
          cases fuel with
          | zero => cases hloop
          | succ fuel =>
              rw [frameLoop, hstep] at hloop
              obtain rfl := Option.some.inj hloop
              refine ⟨⟨[frame], rfl, ?_⟩, hready, rfl, ?_, Nat.zero_le _⟩
              · rw [processed_append, hout]
              · rw [hrestLen, Nat.add_sub_cancel' (Nat.le_of_not_le hwhole), stream_cons,
                  List.drop_left, List.drop_zero]
        · rw [if_neg hmini]
          exact Passed.short h hrest hm (Nat.lt_of_not_le hmini) hloop

theorem recvPass_stream (hgcm : crypto.gcm.Lawful) {env : ReadEnv} (henv : env.Serves)
    {lan : LanMgr} {k got : ℕ} (h : Ready fd i bufsize frames lan) (hgot : 0 < got)
    (hroom : got ≤ bufsize - k) (hm : k + got ≤ (stream frames).length)
    (hmini : lpv35FrameMiniSize ≤ k + got) :
    Passed fd i bufsize frames (k + got) [] (passCut frameSize frames (k + got))
      (recvPass crypto env lan i ((stream frames).take k)
        (((stream frames).drop k).take got) (((stream frames).drop k).drop got)) := by
  have hk : ((stream frames).take k).length = k := by
    rw [List.length_take, min_eq_left (by omega)]
  have hbytes : (((stream frames).drop k).take got).take (lan.cfg.bufsize -
      ((stream frames).take k).length) = ((stream frames).drop k).take got := by
    rw [hk, h.bufsize, List.take_take, min_eq_right hroom]
  have hsome : ((stream frames).drop k).take got ≠ [] := by
    rw [← List.length_pos_iff, List.length_take, List.length_drop]
    omega
  have hbuffer : (stream frames).take k ++ ((stream frames).drop k).take got =
      (stream frames).take (k + got) := List.take_add.symm
  have hlength : ¬ ((stream frames).take (k + got)).length < lpv35FrameMiniSize := by
    rw [List.length_take, min_eq_left hm]
    exact Nat.not_lt_of_le hmini
  simp only [recvPass, hbytes, if_neg hsome, hbuffer, if_neg hlength]
  exact frameLoop_stream (s := ⟨lan, [], (stream frames).take (k + got)⟩) hgcm henv h rfl hm
    List.drop_drop (Option.some_get _).symm

end Pass

/-! ## Calls and events -/

section Events

variable {crypto : LanCrypto} {key : List UInt8} {fd : ℤ} {i bufsize : ℕ}
  {frames frames' frames'' : List (SessionFrame crypto.gcm key)}

structure Received (fd : ℤ) (i bufsize : ℕ) (frames frames' : List (SessionFrame crypto.gcm key))
    (r : LanMgr × List LanOutput × List UInt8) : Prop where
  done : ∃ done, frames = done ++ frames' ∧ processed r.2.1 = expected i done
  ready : Ready fd i bufsize frames' r.1
  input : r.2.2 = stream frames'

theorem done_trans {outs outs' : List LanOutput}
    (h : ∃ done, frames = done ++ frames' ∧ processed outs = expected i done)
    (h' : ∃ done, frames' = done ++ frames'' ∧ processed outs' = expected i done) :
    ∃ done, frames = done ++ frames'' ∧ processed (outs ++ outs') = expected i done := by
  obtain ⟨done, rfl, hdone⟩ := h
  obtain ⟨done', rfl, hdone'⟩ := h'
  exact ⟨done ++ done', (List.append_assoc _ _ _).symm, by simp [hdone, hdone']⟩

theorem readLoop_received (hgcm : crypto.gcm.Lawful) {env : ReadEnv} (henv : env.Serves)
    {avails : List ℕ} {k : ℕ} {lan : LanMgr} (h : Ready fd i bufsize frames lan)
    (hk : k ≤ (stream frames).length)
    (hcut : callCut frameSize bufsize frames k avails = some frames') :
    Received fd i bufsize frames frames'
      (readLoop crypto env i lan ((stream frames).take k) ((stream frames).drop k) avails) := by
  induction avails generalizing frames k lan with
  | nil => cases hcut
  | cons avail avails ih =>
      have hlength : ((stream frames).take k).length = k := by
        rw [List.length_take, min_eq_left hk]
      simp only [callCut, ← length_stream] at hcut
      simp only [readLoop, hlength, h.bufsize, List.length_drop]
      generalize hgot : min (min avail (bufsize - k)) ((stream frames).length - k) = got at hcut ⊢
      by_cases hbad : got = 0 ∨ k + got < lpv35FrameMiniSize
      · rw [if_pos hbad] at hcut
        cases hcut
      rw [if_neg hbad] at hcut
      obtain ⟨hzero, hmini⟩ := not_or.mp hbad
      have hpass := recvPass_stream hgcm henv h (Nat.pos_of_ne_zero hzero) (by omega) (by omega)
        (Nat.le_of_not_lt hmini)
      generalize recvPass crypto env lan i _ _ _ = r at hpass ⊢
      have hinput : ((stream frames).drop k).drop (got + r.used) =
          (stream (passCut frameSize frames (k + got)).1).drop
            (passCut frameSize frames (k + got)).2 := by
        rw [List.drop_drop, ← Nat.add_assoc, hpass.input]
      have hdone : ∃ done, frames = done ++ (passCut frameSize frames (k + got)).1 ∧
          processed r.outs = expected i done := hpass.done
      rw [hpass.again, hinput]
      by_cases hleft : (passCut frameSize frames (k + got)).2 = 0
      · -- the call returns
        rw [if_pos hleft] at hcut ⊢
        obtain rfl := Option.some.inj hcut
        exact ⟨hdone, hpass.ready, by rw [hleft, List.drop_zero]⟩
      · -- the call receives again
        rw [if_neg hleft] at hcut ⊢
        have hothers := ih hpass.ready hpass.left_le hcut
        exact ⟨done_trans hdone hothers.done, hothers.ready, hothers.input⟩

theorem lanTcpClientSockRead_received (hgcm : crypto.gcm.Lawful) {env : ReadEnv}
    (henv : env.Serves) {avails : List ℕ} {lan : LanMgr} (h : Ready fd i bufsize frames lan)
    (hcut : callCut frameSize bufsize frames 0 avails = some frames') :
    Received fd i bufsize frames frames'
      (lanTcpClientSockRead crypto env fd lan (stream frames) avails) := by
  have hcall : lanTcpClientSockRead crypto env fd lan (stream frames) avails =
      readLoop crypto env i lan ((stream frames).take 0) ((stream frames).drop 0) avails := by
    simp [lanTcpClientSockRead, h.found, h.active]
  rw [hcall]
  exact readLoop_received hgcm henv h (Nat.zero_le _) hcut

theorem readEvents_received (hgcm : crypto.gcm.Lawful) {env : ReadEnv} (henv : env.Serves)
    {events : List (List ℕ)} {lan : LanMgr} (h : Ready fd i bufsize frames lan)
    (hcut : readsCut frameSize bufsize frames events = some frames') :
    Received fd i bufsize frames frames' (readEvents crypto env fd lan (stream frames) events) := by
  induction events generalizing frames lan with
  | nil =>
      obtain rfl := Option.some.inj hcut
      exact ⟨⟨[], rfl, rfl⟩, h, rfl⟩
  | cons avails events ih =>
      rw [readsCut] at hcut
      cases hcall : callCut frameSize bufsize frames 0 avails with
      | none =>
          rw [hcall] at hcut
          cases hcut
      | some frames₁ =>
          rw [hcall] at hcut
          have hfirst := lanTcpClientSockRead_received hgcm henv h hcall
          have hothers := ih hfirst.ready hcut
          rw [← hfirst.input] at hothers
          exact ⟨done_trans hfirst.done hothers.done, hothers.ready, hothers.input⟩

end Events

/-- Every frame that is not a heartbeat was processed once, in order, and the session is
open and without fault. -/
structure Reframed {gcm : Gcm} {key : List UInt8} (i : ℕ) (frames : List (SessionFrame gcm key))
    (r : LanMgr × List LanOutput × List UInt8) : Prop where
  processed : processed r.2.1 = expected i frames
  active : (r.1.session i).active = true
  healthy : (r.1.session i).fault = false

/-- The calls against a stream are a run of the service.  Whenever the reads give the loop 50 bytes
to look at and bytes that are left over are followed by more, the frames that have come are taken
out of the stream. -/
theorem stream_reframed {crypto : LanCrypto} (hgcm : crypto.gcm.Lawful) {env : ReadEnv}
    (henv : env.Serves) {key : List UInt8} {fd : ℤ} {i bufsize : ℕ}
    {frames rest : List (SessionFrame crypto.gcm key)} {lan : LanMgr}
    (h : Ready fd i bufsize frames lan) {events : List (List ℕ)}
    (hcut : readsCut (fun frame ↦ frame.bytes.length) bufsize frames events = some rest) :
    (∃ run, (lanSystem crypto).final ⟨lan, none, []⟩ run =
      ⟨(readEvents crypto env fd lan (stream frames) events).1, none,
        (readEvents crypto env fd lan (stream frames) events).2.1⟩) ∧
    ∃ done, frames = done ++ rest ∧
      Reframed i done (readEvents crypto env fd lan (stream frames) events) := by
  have hreceived := readEvents_received hgcm henv h hcut
  obtain ⟨done, hsplit, hproc⟩ := hreceived.done
  refine ⟨?_, done, hsplit, hproc, hreceived.ready.active, hreceived.ready.healthy⟩
  simpa using readEvents_run crypto env fd events lan (stream frames) []

/-! ## A query, a heartbeat and a query -/

def queryTable : List GcmEntry :=
  [⟨lpv35AdditionalData 1 16 30, [123, 125], [11, 94],
      [57, 18, 13, 55, 50, 79, 95, 99, 123, 124, 77, 28, 186, 122, 137, 18]⟩,
    ⟨lpv35AdditionalData 2 9 28, [], [],
      [164, 106, 103, 98, 207, 7, 232, 177, 140, 104, 218, 55, 180, 214, 188, 82]⟩,
    ⟨lpv35AdditionalData 3 16 30, [123, 125], [11, 94],
      [253, 208, 58, 99, 41, 176, 204, 30, 204, 228, 97, 163, 158, 11, 17, 182]⟩,
    ⟨lpv35AdditionalData 0 16 32, [0, 0, 0, 0], [112, 35, 20, 222],
      [226, 114, 129, 166, 28, 4, 190, 53, 103, 157, 28, 14, 152, 122, 116, 210]⟩,
    ⟨lpv35AdditionalData 1 9 32, [0, 0, 0, 0], [112, 35, 20, 222],
      [184, 4, 186, 53, 2, 131, 11, 209, 1, 172, 21, 244, 179, 47, 121, 218]⟩,
    ⟨lpv35AdditionalData 2 16 32, [0, 0, 0, 0], [112, 35, 20, 222],
      [38, 176, 182, 242, 7, 251, 45, 72, 208, 5, 48, 177, 188, 11, 236, 118]⟩]

def queryCrypto : LanCrypto where
  gcm := tableGcm sampleKey sampleNonce queryTable
  sha256Mac _ _ := List.replicate 32 0

theorem queryCrypto_lawful : queryCrypto.gcm.Lawful :=
  tableGcm_lawful (by decide +kernel) (by decide +kernel)

def frameBytes (e : GcmEntry) : List UInt8 :=
  lpv35FrameHead ++ e.ad ++ sampleNonce ++ e.ct ++ e.tag ++ lpv35FrameTail

def firstQuery : SessionFrame queryCrypto.gcm sampleKey where
  object := ⟨1, frmQueryStatNew, [123, 125]⟩
  nonce := sampleNonce
  bytes := frameBytes (queryTable.headD ⟨[], [], [], []⟩)
  serialized := rfl
  nonce_length := sampleNonce_length
  sequence_lt := by decide
  type_lt := by decide
  not_security := rfl
  short := by decide +kernel

def heartbeat : SessionFrame queryCrypto.gcm sampleKey where
  object := ⟨2, frmTpHb, []⟩
  nonce := sampleNonce
  bytes := frameBytes (queryTable.getD 1 ⟨[], [], [], []⟩)
  serialized := rfl
  nonce_length := rfl
  sequence_lt := by decide
  type_lt := by decide
  not_security := rfl
  short := by decide +kernel

def secondQuery : SessionFrame queryCrypto.gcm sampleKey where
  object := ⟨3, frmQueryStatNew, [123, 125]⟩
  nonce := sampleNonce
  bytes := frameBytes (queryTable.getD 2 ⟨[], [], [], []⟩)
  serialized := rfl
  nonce_length := rfl
  sequence_lt := by decide
  type_lt := by decide
  not_security := rfl
  short := by decide +kernel

def keyedLan : LanMgr :=
  { (tuyaLanInit sLanCfg true sampleKey).setSession 0
      { freedSession with active := true, fd := 5, secretKey := sampleKey } with
    fdNum := 1 }

theorem ready_keyedLan : Ready 5 0 512 [firstQuery, heartbeat, secondQuery] keyedLan where
  found := by decide +kernel
  fd_nonneg := by decide
  active := rfl
  healthy := rfl
  secretKey := rfl
  keyed := rfl
  isActivated := rfl
  bufsize := rfl
  newer := by simp [firstQuery, heartbeat, secondQuery, keyedLan, LanMgr.setSession, freedSession]
  increasing := by simp [firstQuery, heartbeat, secondQuery]

theorem stream_reframed_queries :
    readsCut (fun frame ↦ frame.bytes.length) 512 [firstQuery, heartbeat, secondQuery]
      [[50], [60, 42]] = some [] ∧
    Reframed 0 [firstQuery, heartbeat, secondQuery]
      (readEvents queryCrypto sampleReadEnv 5 keyedLan
        (stream [firstQuery, heartbeat, secondQuery]) [[50], [60, 42]]) := by
  have hcut : readsCut (fun frame ↦ frame.bytes.length) 512 [firstQuery, heartbeat, secondQuery]
      [[50], [60, 42]] = some [] := rfl
  have henv : sampleReadEnv.Serves := ⟨rfl, fun _ ↦ rfl, fun _ ↦ rfl⟩
  obtain ⟨-, done, hdone, hreframed⟩ := stream_reframed queryCrypto_lawful henv ready_keyedLan hcut
  rw [List.append_nil] at hdone
  subst hdone
  exact ⟨hcut, hreframed⟩

/-- A query that comes in two short reads is dropped, and a session whose next frame has
begun to arrive is faulted. -/
theorem short_reads_lose_frames :
    ¬ Reframed 0 [firstQuery]
      (readEvents queryCrypto sampleReadEnv 5 keyedLan (stream [firstQuery]) [[20], [32]]) ∧
    ¬ Reframed 0 [firstQuery, heartbeat]
      (readEvents queryCrypto sampleReadEnv 5 keyedLan (stream [firstQuery, heartbeat])
        [[62], [40]]) := by
  constructor
  · intro h
    have hnone : processed (readEvents queryCrypto sampleReadEnv 5 keyedLan (stream [firstQuery])
        [[20], [32]]).2.1 = [] := by decide +kernel
    rw [h.processed] at hnone
    simp [expected, firstQuery, frmQueryStatNew, frmTpHb] at hnone
  · intro h
    have hfault : ((readEvents queryCrypto sampleReadEnv 5 keyedLan
        (stream [firstQuery, heartbeat]) [[62], [40]]).1.session 0).fault = true := by
      decide +kernel
    rw [h.healthy] at hfault
    cases hfault

end TuyaOpen.Lan
