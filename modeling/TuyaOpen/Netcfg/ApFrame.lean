import TuyaOpen.Lan.Codec
import TuyaOpen.Lib.Mealy
import TuyaOpen.Lib.Splice

/-!
# Frames in AP mode

`ap_netcfg.c`: the phone is one TLS client, and each `ap_frame_recv` reads into the same buffer.
The bytes of a client are a stream, that the TLS layer gives to the reads in parts of any length.
-/

namespace TuyaOpen.Netcfg

open Lan

def apMaxBufsize : ℕ := 4096

/-- The cipher, `app_key`, and what is in `ap_netcfg_t` behind `recv_buf`. -/
structure ApConfig where
  gcm : Gcm
  appKey : List UInt8
  behind : List UInt8
  small : apMaxBufsize + behind.length < 2 ^ 31

/-- `ap_netcfg_t`, and the bytes of the client that are still to be read. -/
structure ApNetcfg where
  recvBuf : List UInt8
  connected : Bool
  stream : List UInt8

/-- A read gives so many bytes at most; when there is none, `again` is whether the error is
`UNW_EINTR` or `UNW_EAGAIN`. -/
structure TlsRead where
  count : ℕ
  again : Bool

/-- The reads of a call, and whether there is memory for the data. -/
structure ApEnv where
  first : TlsRead
  more : List TlsRead
  malloc : Bool

/-- `wild` is a parser that reads behind the memory; the frame of a return is the one that was
filled. -/
inductive ApEvent where
  | accepted
  | received (bytes : List UInt8)
  | answered (type : ℕ)
  | closed
  | wild
  | returned (result : Except OperateRet (Option Lpv35FrameObject))

/-- `tuya_tls_read`. -/
def tlsRead (stream : List UInt8) (size : ℕ) (read : TlsRead) : List UInt8 :=
  stream.take (min read.count size)

/-- The search for `LPV35_FRAME_HEAD` with the room of a frame. -/
def headAt : List UInt8 → Option ℕ
  | [] => none
  | b :: rest =>
      if (b :: rest).length < lpv35FrameMiniSize then none
      else if (b :: rest).take 4 = lpv35FrameHead then some 0
      else (headAt rest).map (· + 1)

/-- `frame_len`. -/
def apFrameLen (frame : List UInt8) : ℕ := (22 + frameLength frame) % 2 ^ 32

/-- The loop for the rest of a frame: what it read, and whether that is all. -/
def readRest (stream : List UInt8) : ℕ → List TlsRead → List UInt8 × Bool
  | 0, _ => ([], true)
  | _ + 1, [] => ([], false)
  | nd + 1, read :: more =>
      let bytes := tlsRead stream (nd + 1) read
      if bytes = [] then if read.again = true then readRest stream (nd + 1) more else ([], false)
      else
        let (rest, whole) := readRest (stream.drop bytes.length) (nd + 1 - bytes.length) more
        (bytes ++ rest, whole)

namespace ApNetcfg

variable (ap : ApNetcfg)

/-- Bytes of the stream go to the buffer. -/
def receive (pos : ℕ) (bytes : List UInt8) : ApNetcfg :=
  { ap with recvBuf := ap.recvBuf.splice pos bytes, stream := ap.stream.drop bytes.length }

/-- `__err_exit`. -/
def close : ApNetcfg := { ap with connected := false, stream := [] }

/-- The end of the loop: `pos` is where `frame_buffer` points to, and `offset` where the head
was. -/
def parse (config : ApConfig) (malloc : Bool) (offset pos frameLen : ℕ) : List ApEvent :=
  match lpv35FrameParseAt config.gcm malloc config.appKey (ap.recvBuf.drop pos ++ config.behind)
    frameLen with
  | none => [.wild]
  | some (.error e) => [.answered (frameType (ap.recvBuf.drop offset)), .returned (.error e)]
  | some (.ok frame) => [.returned (.ok (some frame))]

/-- The frame at a head, in a first read of some length. -/
def recvFrame (config : ApConfig) (env : ApEnv) (readLen offset : ℕ) : ApNetcfg × List ApEvent :=
  let frameLen := apFrameLen ((ap.recvBuf.take readLen).drop offset)
  let here := readLen - offset
  if here < frameLen then
    if apMaxBufsize < frameLen then (ap, [.returned (.error oprtBufferNotEnough)])
    else
      let ap := { ap with recvBuf := ap.recvBuf.splice 0 ((ap.recvBuf.take readLen).drop offset) }
      let (bytes, whole) := readRest ap.stream (frameLen - here) env.more
      let ap := ap.receive here bytes
      -- `ret` is still `OPRT_OK` here, and `frame_buffer` points behind the first part.
      if whole = true then (ap, .received bytes :: ap.parse config env.malloc offset here frameLen)
      else (ap.close, [.received bytes, .closed, .returned (.ok none)])
  else (ap, ap.parse config env.malloc offset offset frameLen)

/-- `ap_frame_recv`. -/
def frameRecv (config : ApConfig) (env : ApEnv) : ApNetcfg × List ApEvent :=
  let read := tlsRead ap.stream apMaxBufsize env.first
  let ap := ap.receive 0 read
  if read = [] then (ap.close, [.closed, .returned (.error oprtRecvErr)])
  else if read.length < lpv35FrameMiniSize then (ap,
    [.received read, .returned (.error oprtComError)])
  else match headAt read with
    | none => (ap, [.received read, .returned (.ok none)])
    | some offset =>
        let (ap, events) := ap.recvFrame config env read.length offset
        (ap, .received read :: events)

/-- The new client closes the one before. -/
def accept (stream : List UInt8) : ApNetcfg := { ap with connected := true, stream }

end ApNetcfg

/-- What `ap_netcfg_thread` does: it accepts a client that sends some bytes, or receives from the
client. -/
inductive ApStep where
  | accept (stream : List UInt8)
  | recv (env : ApEnv)

def apStep (config : ApConfig) (ap : ApNetcfg) : ApStep → ApNetcfg × List ApEvent
  | .accept stream => (ap.accept stream, [.accepted])
  | .recv env => if ap.connected = true then ap.frameRecv config env else (ap, [])

/-!
## What an AP client's frames come to

A call returns a frame that was parsed, unless it finds no head or loses the client within a frame;
and each frame is returned when each first read gives one whole frame, and not otherwise: what is
behind a frame is lost, and a frame in parts is parsed from where its second part begins.
-/

/-- What was received of the client, the frames that were returned, and how many calls have
returned. -/
structure ApLog where
  received : List UInt8
  frames : List Lpv35FrameObject
  calls : ℕ

namespace ApLog

def record (log : ApLog) : ApEvent → ApLog
  | .accepted => ⟨[], [], 0⟩
  | .received bytes => { log with received := log.received ++ bytes }
  | .returned (.ok (some frame)) =>
    { log with frames := log.frames ++ [frame], calls := log.calls + 1 }
  | .returned _ => { log with calls := log.calls + 1 }
  | _ => log

end ApLog

abbrev LoggedAp := ApNetcfg × ApLog

def apMachine (config : ApConfig) : Mealy LoggedAp ApStep (List ApEvent) where
  step s x := (((apStep config s.1 x).1, (apStep config s.1 x).2.foldl ApLog.record s.2),
    (apStep config s.1 x).2)

/-- A call stays in the memory, and what it returns is parsed from bytes of this client. -/
structure ApSound (config : ApConfig) (s : LoggedAp) (x : ApStep) : Prop where
  inside : .wild ∉ ((apMachine config).step s x).2
  filled : ∀ out, .returned (.ok out) ∈ ((apMachine config).step s x).2 → ∃ frame malloc seg,
    out = some frame ∧ seg <:+: ((apMachine config).step s x).1.2.received ∧
      lpv35FrameParseAt config.gcm malloc config.appKey seg seg.length = some (.ok frame)

/-- The frames are returned in their order, and each by one call. -/
structure ApDelivered {config : ApConfig} (frames : List (SentFrame config.gcm config.appKey))
    (s : LoggedAp) : Prop where
  order : s.2.frames <+: frames.map SentFrame.object
  whole : frames.length ≤ s.2.calls → s.1.stream = [] → s.2.frames = frames.map SentFrame.object

/-- The frame at a head ends in the read, and the parser stays in the memory; or it is too long for
the buffer. -/
def FrameFits (config : ApConfig) (ap : ApNetcfg) (malloc : Bool) (read : List UInt8) (offset : ℕ) :
    Prop :=
  if apFrameLen (read.drop offset) ≤ read.length - offset then
    lpv35FrameParseAt config.gcm malloc config.appKey
      (read.drop offset ++ (ap.recvBuf.drop read.length ++ config.behind))
      (apFrameLen (read.drop offset)) ≠ none
  else apMaxBufsize < apFrameLen (read.drop offset)

/-- A read of the length of a frame has a head, and the frame at it fits. -/
def ApSafe (config : ApConfig) (s : LoggedAp) : ApStep → Prop
  | .accept _ => True
  | .recv env => s.1.connected = true →
      lpv35FrameMiniSize ≤ (tlsRead s.1.stream apMaxBufsize env.first).length →
        ∃ offset ∈ headAt (tlsRead s.1.stream apMaxBufsize env.first),
          FrameFits config s.1 env.malloc (tlsRead s.1.stream apMaxBufsize env.first) offset

/-- As long as there are bytes, the first read of a call is one whole frame, and there is memory for
its data. -/
def ApWhole (s : LoggedAp) : ApStep → Prop
  | .accept _ => False
  | .recv env => s.1.stream ≠ [] →
      headAt (tlsRead s.1.stream apMaxBufsize env.first) = some 0 ∧
        apFrameLen (tlsRead s.1.stream apMaxBufsize env.first) =
          (tlsRead s.1.stream apMaxBufsize env.first).length ∧ env.malloc = true

instance (s : LoggedAp) : (x : ApStep) → Decidable (ApWhole s x)
  | .accept _ => isFalse id
  | .recv _ => inferInstanceAs (Decidable (_ → _ ∧ _))

theorem headAt_room {bytes : List UInt8} {offset : ℕ} (h : headAt bytes = some offset) :
    offset + lpv35FrameMiniSize ≤ bytes.length := by
  induction bytes generalizing offset with
  | nil => cases h
  | cons b rest ih =>
      rw [headAt] at h
      split_ifs at h with hshort hhead
      · obtain rfl := Option.some.inj h
        omega
      · obtain ⟨o, ho, rfl⟩ := Option.map_eq_some_iff.mp h
        have hroom := ih ho
        rw [List.length_cons]
        omega

theorem length_tlsRead_le (stream : List UInt8) (size : ℕ) (read : TlsRead) :
    (tlsRead stream size read).length ≤ size := by
  rw [tlsRead, List.length_take]
  omega

section Receive

variable {ap : ApNetcfg} {read : List UInt8}

theorem recvBuf_receive : (ap.receive 0 read).recvBuf = read ++ ap.recvBuf.drop read.length := by
  rw [ApNetcfg.receive, List.splice, Nat.zero_add]
  rfl

theorem take_recvBuf_receive : (ap.receive 0 read).recvBuf.take read.length = read := by
  rw [recvBuf_receive, List.take_left]

theorem drop_recvBuf_receive {offset : ℕ} (h : offset ≤ read.length) :
    (ap.receive 0 read).recvBuf.drop offset = read.drop offset ++ ap.recvBuf.drop read.length := by
  rw [recvBuf_receive, List.drop_append_of_le_length h]

end Receive

/-! ## What a call returns -/

section Call

variable {config : ApConfig} {ap : ApNetcfg} {malloc : Bool} {offset pos frameLen : ℕ}

theorem parse_returned {out : Option Lpv35FrameObject}
    (h : .returned (.ok out) ∈ ap.parse config malloc offset pos frameLen) :
    ∃ frame, out = some frame ∧
      lpv35FrameParseAt config.gcm malloc config.appKey (ap.recvBuf.drop pos ++ config.behind)
        frameLen = some (.ok frame) := by
  rw [ApNetcfg.parse] at h
  split at h
  · simp at h
  · simp at h
  case h_3 frame hparse =>
    rw [List.mem_singleton] at h
    cases h
    exact ⟨frame, rfl, hparse⟩

theorem parse_inside (h : lpv35FrameParseAt config.gcm malloc config.appKey
    (ap.recvBuf.drop pos ++ config.behind) frameLen ≠ none) :
    .wild ∉ ap.parse config malloc offset pos frameLen := by
  rw [ApNetcfg.parse]
  split
  case h_1 hwild => exact absurd hwild h
  · simp
  · simp

theorem recvFrame_here {env : ApEnv} {read : List UInt8}
    (h : apFrameLen (read.drop offset) ≤ read.length - offset) :
    (ap.receive 0 read).recvFrame config env read.length offset = (ap.receive 0 read,
      (ap.receive 0 read).parse config env.malloc offset offset
      (apFrameLen (read.drop offset))) := by
  rw [ApNetcfg.recvFrame]
  dsimp only
  rw [take_recvBuf_receive, if_neg (by omega)]

theorem recvFrame_tooLong {env : ApEnv} {read : List UInt8}
    (hcut : read.length - offset < apFrameLen (read.drop offset))
    (hlong : apMaxBufsize < apFrameLen (read.drop offset)) :
    (ap.receive 0 read).recvFrame config env read.length offset =
      (ap.receive 0 read, [.returned (.error oprtBufferNotEnough)]) := by
  rw [ApNetcfg.recvFrame]
  dsimp only
  rw [take_recvBuf_receive, if_pos hcut, if_pos hlong]

theorem memory_frame {read : List UInt8} (hoffset : offset ≤ read.length) :
    (ap.receive 0 read).recvBuf.drop offset ++ config.behind =
      (read.drop offset).take frameLen ++
        ((read.drop offset).drop frameLen ++ (ap.recvBuf.drop read.length ++ config.behind)) := by
  rw [drop_recvBuf_receive hoffset, List.append_assoc,
    ← List.append_assoc ((read.drop offset).take frameLen), List.take_append_drop]

theorem recvFrame_fits {env : ApEnv} {read : List UInt8} (hbuf : ap.recvBuf.length = apMaxBufsize)
    (hread : read.length ≤ apMaxBufsize) (hoffset : offset ≤ read.length)
    (hfits : FrameFits config ap env.malloc read offset) :
    .wild ∉ ((ap.receive 0 read).recvFrame config env read.length offset).2 ∧
    ∀ out, .returned (.ok out) ∈ ((ap.receive 0 read).recvFrame config env read.length offset).2 →
      ∃ frame seg, out = some frame ∧ seg <:+: read ∧
        lpv35FrameParseAt config.gcm env.malloc config.appKey seg seg.length =
          some (.ok frame) := by
  rw [FrameFits] at hfits
  by_cases hhere : apFrameLen (read.drop offset) ≤ read.length - offset
  · rw [if_pos hhere] at hfits
    rw [recvFrame_here hhere]
    refine ⟨parse_inside ?_, fun out hout ↦ ?_⟩
    · rw [drop_recvBuf_receive hoffset, List.append_assoc]
      exact hfits
    · obtain ⟨frame, hframe, hparse⟩ := parse_returned hout
      have hseg : ((read.drop offset).take (apFrameLen (read.drop offset))).length =
          apFrameLen (read.drop offset) := by
        rw [List.length_take, List.length_drop]
        omega
      rw [memory_frame hoffset] at hparse
      refine ⟨frame, (read.drop offset).take (apFrameLen (read.drop offset)), hframe, ?_, ?_⟩
      · exact (List.take_prefix _ _).isInfix.trans (List.drop_suffix _ _).isInfix
      · rw [← hseg] at hparse
        refine parseAt_within ?_ hparse
        have hsmall := config.small
        rw [← memory_frame hoffset, drop_recvBuf_receive hoffset]
        simp only [List.length_append, List.length_drop]
        omega
  · rw [if_neg hhere] at hfits
    rw [recvFrame_tooLong (by omega) hfits]
    exact ⟨by simp, by simp⟩

end Call

section Step

variable {config : ApConfig} {s : LoggedAp}

theorem step_recv {env : ApEnv} (hconnected : s.1.connected = true) :
    (apMachine config).step s (.recv env) = (((s.1.frameRecv config env).1,
      (s.1.frameRecv config env).2.foldl ApLog.record s.2), (s.1.frameRecv config env).2) := by
  rw [apMachine]
  dsimp only
  rw [apStep, if_pos hconnected]

theorem received_foldl (log : ApLog) (events : List ApEvent) (h : .accepted ∉ events) :
    log.received <+: (events.foldl ApLog.record log).received := by
  induction events generalizing log with
  | nil => exact List.prefix_refl _
  | cons event events ih =>
      rw [List.mem_cons, not_or] at h
      refine List.IsPrefix.trans ?_ (ih (log.record event) h.2)
      rcases event with _ | bytes | type | _ | _ | (e | _ | frame)
      · exact absurd rfl h.1
      · exact List.prefix_append _ _
      all_goals exact List.prefix_refl _

theorem frameRecv_found {ap : ApNetcfg} {env : ApEnv} {read : List UInt8} {offset : ℕ}
    (hread : tlsRead ap.stream apMaxBufsize env.first = read) (hhead : headAt read = some offset) :
    ap.frameRecv config env = (((ap.receive 0 read).recvFrame config env read.length offset).1,
      .received read :: ((ap.receive 0 read).recvFrame config env read.length offset).2) := by
  have hroom := headAt_room hhead
  rw [lpv35FrameMiniSize] at hroom
  have hbytes : read ≠ [] := by
    rintro rfl
    cases hhead
  have hlong : ¬read.length < lpv35FrameMiniSize := by
    rw [lpv35FrameMiniSize]
    omega
  rw [ApNetcfg.frameRecv]
  dsimp only
  rw [hread, if_neg hbytes, if_neg hlong, hhead]

theorem recvFrame_accepts_none {ap : ApNetcfg} {env : ApEnv} {readLen offset : ℕ} :
    .accepted ∉ (ap.recvFrame config env readLen offset).2 := by
  have hparse : ∀ (ap : ApNetcfg) (offset pos frameLen : ℕ),
      .accepted ∉ ap.parse config env.malloc offset pos frameLen := by
    intro ap offset pos frameLen
    rw [ApNetcfg.parse]
    split <;> simp
  rw [ApNetcfg.recvFrame]
  dsimp only
  split_ifs
  · simp
  · simpa using hparse _ _ _ _
  · simp
  · exact hparse _ _ _ _

theorem ApSafe.sound {x : ApStep} (hbuf : s.1.recvBuf.length = apMaxBufsize)
    (hsafe : ApSafe config s x) :
    ApSound config s x := by
  rcases x with stream | env
  · exact ⟨by simp [apMachine, apStep], by simp [apMachine, apStep]⟩
  by_cases hconnected : s.1.connected = true
  swap
  · exact ⟨by simp [apMachine, apStep, hconnected], by simp [apMachine, apStep, hconnected]⟩
  generalize hread : tlsRead s.1.stream apMaxBufsize env.first = read
  by_cases hlong : lpv35FrameMiniSize ≤ read.length
  · obtain ⟨offset, hhead, hfits⟩ := hsafe hconnected (by rw [hread]; exact hlong)
    rw [hread] at hhead hfits
    have hroom := headAt_room hhead
    have hlen : read.length ≤ apMaxBufsize := by
      rw [← hread]
      exact length_tlsRead_le _ _ _
    obtain ⟨hinside, hfilled⟩ := recvFrame_fits hbuf hlen (by omega) hfits
    have hstep : (apMachine config).step s (.recv env) = _ := step_recv hconnected
    rw [frameRecv_found hread hhead] at hstep
    refine ⟨?_, fun out hout ↦ ?_⟩
    · rw [hstep]
      simpa using hinside
    · rw [hstep] at hout ⊢
      obtain ⟨frame, seg, rfl, hseg, hparse⟩ := hfilled out (by simpa using hout)
      refine ⟨frame, env.malloc, seg, rfl, hseg.trans ?_, hparse⟩
      have haccepts : .accepted ∉
          ((s.1.receive 0 read).recvFrame config env read.length offset).2 :=
        recvFrame_accepts_none
      have hlogged := received_foldl (s.2.record (.received read)) _ haccepts
      exact (List.suffix_append _ _).isInfix.trans hlogged.isInfix
  · have hevents : (s.1.frameRecv config env).2 = [.closed, .returned (.error oprtRecvErr)] ∨
        (s.1.frameRecv config env).2 = [.received read, .returned (.error oprtComError)] := by
      rw [ApNetcfg.frameRecv]
      dsimp only
      rw [hread]
      by_cases hnone : read = []
      · rw [if_pos hnone]
        exact .inl rfl
      · rw [if_neg hnone, if_pos (by omega)]
        exact .inr rfl
    constructor
    · rw [step_recv hconnected]
      rcases hevents with hevents | hevents <;> simp [hevents]
    · intro out hout
      rw [step_recv hconnected] at hout
      rcases hevents with hevents | hevents <;> simp [hevents] at hout

/-! ## The buffer -/

theorem length_readRest_le (stream : List UInt8) (nd : ℕ) (reads : List TlsRead) :
    (readRest stream nd reads).1.length ≤ nd := by
  induction reads generalizing stream nd with
  | nil =>
      cases nd with
      | zero => exact Nat.le_refl _
      | succ nd => exact Nat.zero_le _
  | cons read more ih =>
      cases nd with
      | zero => exact Nat.le_refl _
      | succ nd =>
          have hread := length_tlsRead_le stream (nd + 1) read
          rw [readRest]
          dsimp only
          split_ifs
          · exact ih _ _
          · exact Nat.zero_le _
          · have hrest := ih (stream.drop (tlsRead stream (nd + 1) read).length)
              (nd + 1 - (tlsRead stream (nd + 1) read).length)
            rw [List.length_append]
            omega

theorem length_receive {ap : ApNetcfg} (hbuf : ap.recvBuf.length = apMaxBufsize) {pos : ℕ}
    {bytes : List UInt8} (h : pos + bytes.length ≤ apMaxBufsize) :
    (ap.receive pos bytes).recvBuf.length = apMaxBufsize := by
  rw [ApNetcfg.receive]
  dsimp only
  rw [List.length_splice (by omega), hbuf]

theorem length_recvFrame {ap : ApNetcfg} {env : ApEnv} {readLen offset : ℕ}
    (hbuf : ap.recvBuf.length = apMaxBufsize) (hread : readLen ≤ apMaxBufsize) :
    (ap.recvFrame config env readLen offset).1.recvBuf.length = apMaxBufsize := by
  rw [ApNetcfg.recvFrame]
  dsimp only
  have hfirst : ((ap.recvBuf.take readLen).drop offset).length ≤ apMaxBufsize := by
    rw [List.length_drop, List.length_take]
    omega
  have hmoved : (ap.recvBuf.splice 0 ((ap.recvBuf.take readLen).drop offset)).length =
      apMaxBufsize := by
    rw [List.length_splice (by omega), hbuf]
  have hrest := length_readRest_le ap.stream (apFrameLen ((ap.recvBuf.take readLen).drop offset) -
    (readLen - offset)) env.more
  split_ifs
  · exact hbuf
  · exact length_receive hmoved (by omega)
  · exact length_receive hmoved (by omega)
  · exact hbuf

theorem length_frameRecv {ap : ApNetcfg} {env : ApEnv} (hbuf : ap.recvBuf.length = apMaxBufsize) :
    (ap.frameRecv config env).1.recvBuf.length = apMaxBufsize := by
  have hread := length_tlsRead_le ap.stream apMaxBufsize env.first
  have hfirst : (ap.receive 0 (tlsRead ap.stream apMaxBufsize env.first)).recvBuf.length =
      apMaxBufsize :=
    length_receive hbuf (by omega)
  rw [ApNetcfg.frameRecv]
  dsimp only
  split_ifs
  · exact hfirst
  · exact hfirst
  · split
    · exact hfirst
    · exact length_recvFrame hfirst hread

theorem length_step {x : ApStep} (hbuf : s.1.recvBuf.length = apMaxBufsize) :
    ((apMachine config).step s x).1.1.recvBuf.length = apMaxBufsize := by
  rcases x with stream | env
  · exact hbuf
  by_cases hconnected : s.1.connected = true
  · rw [step_recv hconnected]
    exact length_frameRecv hbuf
  · simpa [apMachine, apStep, hconnected] using hbuf

/-! ## Whole frames -/

section Delivery

variable {frames : List (SentFrame config.gcm config.appKey)}

/-- The first frames are returned, and the bytes of the others are to come. -/
def DeliverInv (frames : List (SentFrame config.gcm config.appKey)) (s : LoggedAp) : Prop :=
  ∃ sent rest, frames = sent ++ rest ∧ s.2.frames = sent.map SentFrame.object ∧
    s.1.stream = rest.flatMap SentFrame.bytes

theorem read_eq_frame (hgcm : config.gcm.Lawful) {frame : SentFrame config.gcm config.appKey}
    {more : List UInt8} (hframe : frame.bytes.length ≤ apMaxBufsize) {read : TlsRead}
    (hhead : headAt (tlsRead (frame.bytes ++ more) apMaxBufsize read) = some 0)
    (hlen : apFrameLen (tlsRead (frame.bytes ++ more) apMaxBufsize read) =
      (tlsRead (frame.bytes ++ more) apMaxBufsize read).length) :
    tlsRead (frame.bytes ++ more) apMaxBufsize read = frame.bytes := by
  have hroom := headAt_room hhead
  have hbytes := frame.length_bytes hgcm
  rw [lpv35FrameMiniSize, tlsRead, List.length_take] at hroom
  have hfield : frameLength (tlsRead (frame.bytes ++ more) apMaxBufsize read) =
      28 + frame.object.data.length := by
    rw [frameLength, tlsRead, Bytes.getBE_take (by omega)]
    exact frame.frameLength_bytes hgcm more
  rw [apMaxBufsize] at hframe
  rw [apFrameLen, hfield, Nat.mod_eq_of_lt (by omega)] at hlen
  have hsame : (tlsRead (frame.bytes ++ more) apMaxBufsize read).length =
    frame.bytes.length := by omega
  have hprefix : tlsRead (frame.bytes ++ more) apMaxBufsize read <+: frame.bytes ++ more :=
    List.take_prefix _ _
  exact (List.prefix_of_prefix_length_le hprefix (List.prefix_append _ _)
    (Nat.le_of_eq hsame)).eq_of_length hsame

theorem frameRecv_whole (hgcm : config.gcm.Lawful) {frame : SentFrame config.gcm config.appKey}
    {ap : ApNetcfg} {env : ApEnv} (hframe : frame.bytes.length ≤ apMaxBufsize)
    (hread : tlsRead ap.stream apMaxBufsize env.first = frame.bytes)
    (hhead : headAt frame.bytes = some 0) (hmalloc : env.malloc = true) :
    ap.frameRecv config env =
      (ap.receive 0 frame.bytes, [.received frame.bytes, .returned (.ok (some frame.object))]) := by
  have hbytes := frame.length_bytes hgcm
  rw [apMaxBufsize] at hframe
  have hlen : apFrameLen (frame.bytes.drop 0) = frame.bytes.length := by
    have hfield := frame.frameLength_bytes hgcm []
    rw [List.append_nil] at hfield
    rw [List.drop_zero, apFrameLen, hfield, Nat.mod_eq_of_lt (by omega), hbytes]
    omega
  have hparse : (ap.receive 0 frame.bytes).parse config env.malloc 0 0 frame.bytes.length =
      [.returned (.ok (some frame.object))] := by
    rw [ApNetcfg.parse, List.drop_zero, recvBuf_receive, List.append_assoc, hmalloc,
      parseAt_bytes hgcm frame (by omega)]
  rw [frameRecv_found hread hhead, recvFrame_here (by omega), hlen, hparse]

theorem DeliverInv.step (hgcm : config.gcm.Lawful)
    (hframes : ∀ frame ∈ frames, frame.bytes.length ≤ apMaxBufsize)
    {x : ApStep} (h : DeliverInv frames s) (hx : ApWhole s x) :
    DeliverInv frames ((apMachine config).step s x).1 := by
  obtain ⟨sent, rest, hsplit, hreturned, hstream⟩ := h
  rcases x with stream | env
  · exact hx.elim
  by_cases hconnected : s.1.connected = true
  swap
  · exact ⟨sent, rest, hsplit, by simpa [apMachine, apStep, hconnected] using hreturned,
      by simpa [apMachine, apStep, hconnected] using hstream⟩
  rw [step_recv hconnected]
  cases rest with
  | nil =>
      rw [List.flatMap_nil] at hstream
      have hnone : tlsRead s.1.stream apMaxBufsize env.first = [] := by
        rw [hstream, tlsRead, List.take_nil]
      refine ⟨sent, [], hsplit, ?_, ?_⟩
      · simpa [ApNetcfg.frameRecv, hnone, ApLog.record] using hreturned
      · simp [ApNetcfg.frameRecv, hnone, ApNetcfg.close]
  | cons frame rest =>
      rw [List.flatMap_cons] at hstream
      have hframe := hframes frame (by rw [hsplit]; simp)
      have hbytes := frame.length_bytes hgcm
      have hmore : s.1.stream ≠ [] := by
        rw [hstream]
        intro hnil
        have hlen := congrArg List.length hnil
        rw [List.length_append, List.length_nil] at hlen
        omega
      obtain ⟨hhead, hlen, hmalloc⟩ := hx hmore
      have hread : tlsRead s.1.stream apMaxBufsize env.first = frame.bytes := by
        rw [hstream] at hhead hlen ⊢
        exact read_eq_frame hgcm hframe hhead hlen
      rw [hread] at hhead
      rw [frameRecv_whole hgcm hframe hread hhead hmalloc]
      refine ⟨sent ++ [frame], rest, ?_, ?_, ?_⟩
      · rw [hsplit, List.append_assoc]
        rfl
      · simp [ApLog.record, hreturned]
      · rw [ApNetcfg.receive]
        dsimp only
        rw [hstream, List.drop_left]

theorem DeliverInv.delivered (hgcm : config.gcm.Lawful) (h : DeliverInv frames s) :
    ApDelivered frames s := by
  obtain ⟨sent, rest, rfl, hreturned, hstream⟩ := h
  constructor
  · rw [hreturned, List.map_append]
    exact List.prefix_append _ _
  · intro _ hnone
    rw [hstream, List.flatMap_eq_nil_iff] at hnone
    cases rest with
    | nil => rw [hreturned, List.append_nil]
    | cons frame rest =>
        have hbytes := frame.length_bytes hgcm
        rw [hnone frame List.mem_cons_self, List.length_nil] at hbytes
        omega

end Delivery

end Step

/-! ## Runs -/

/-- The phone's frames, behind the acceptance of its connection. -/
def apStart {config : ApConfig} (ap : ApNetcfg)
    (frames : List (SentFrame config.gcm config.appKey)) : LoggedAp :=
  (ap.accept (frames.flatMap SentFrame.bytes), ⟨[], [], 0⟩)

theorem ap_frames_received {config : ApConfig} (hgcm : config.gcm.Lawful) {ap : ApNetcfg}
    (hbuf : ap.recvBuf.length = apMaxBufsize) :
    (∀ frames : List (SentFrame config.gcm config.appKey),
    (∀ frame ∈ frames, frame.bytes.length ≤ apMaxBufsize) →
      ∀ xs, (apMachine config).Guarded ApWhole (apStart ap frames) xs →
        ApDelivered frames ((apMachine config).final (apStart ap frames) xs)) ∧
    ∀ (log : ApLog) (xs : List ApStep) (k : ℕ) (x : ApStep), xs[k]? = some x →
      ApSafe config ((apMachine config).final (ap, log) (xs.take k)) x →
      ApSound config ((apMachine config).final (ap, log) (xs.take k)) x := by
  constructor
  · intro frames hframes xs hwhole
    have hstart : DeliverInv frames (apStart ap frames) := ⟨[], frames, rfl, rfl, rfl⟩
    exact (Mealy.inv_final _ (fun _ _ h hx ↦ h.step hgcm hframes hx) hstart hwhole).delivered hgcm
  · intro log xs k x hx hsafe
    have hstep : ∀ (s : LoggedAp) (x : ApStep), s.1.recvBuf.length = apMaxBufsize → True →
        ((apMachine config).step s x).1.1.recvBuf.length = apMaxBufsize := fun s x h _ ↦
          length_step h
    exact hsafe.sound (Mealy.inv_final _ hstep hbuf (Mealy.guarded_true _ _ _))

/-- A query with the data `{}`. -/
def statTable : List GcmEntry :=
  [⟨lpv35AdditionalData 1 0x10 30, [123, 125], [11, 94],
    [57, 18, 13, 55, 50, 79, 95, 99, 123, 124, 77, 28, 186, 122, 137, 18]⟩]

def someApConfig : ApConfig := ⟨tableGcm sampleKey sampleNonce statTable, sampleKey, [], by decide⟩

/-- A query with the data `{}`. -/
def queryFrame : SentFrame someApConfig.gcm someApConfig.appKey where
  object := ⟨1, 0x10, [123, 125]⟩
  nonce := sampleNonce
  bytes := lpv35FrameHead ++ lpv35AdditionalData 1 0x10 30 ++ sampleNonce ++ [11, 94] ++
    [57, 18, 13, 55, 50, 79, 95, 99, 123, 124, 77, 28, 186, 122, 137, 18] ++ lpv35FrameTail
  serialized := rfl
  nonce_length := sampleNonce_length
  sequence_lt := by decide
  type_lt := by decide
  data_lt := by decide

def someAp : ApNetcfg := ⟨List.replicate apMaxBufsize 0, false, []⟩

/-- A call whose reads give so many bytes at most. -/
def someRecv (first : ℕ) (more : List ℕ) :
    ApStep := .recv ⟨⟨first, false⟩, more.map (⟨·, false⟩), true⟩

theorem ap_frames_received_queryFrame :
    ApDelivered [queryFrame, queryFrame] ((apMachine someApConfig).final
      (apStart someAp [queryFrame, queryFrame]) [someRecv 52 [], someRecv 52 []]) :=
  (ap_frames_received (tableGcm_lawful (by decide) (by decide)) List.length_replicate).1
    [queryFrame, queryFrame] (by decide) [someRecv 52 [], someRecv 52 []] (by decide +kernel)

/-- Two frames in one read; a frame in two reads; 50 bytes without a head; and a client lost within
a frame. -/
theorem ap_frames_not_received :
    ¬ApDelivered [queryFrame, queryFrame] ((apMachine someApConfig).final
      (apStart someAp [queryFrame, queryFrame]) [someRecv 104 [], someRecv 104 []]) ∧
    ¬ApDelivered [queryFrame] ((apMachine someApConfig).final
      (apStart someAp [queryFrame]) [someRecv 50 [2]]) ∧
    ¬ApSound someApConfig (someAp.accept (List.replicate 50 0), ⟨[], [], 0⟩) (someRecv 50 []) ∧
    ¬ApSound someApConfig (someAp.accept queryFrame.bytes, ⟨[], [], 0⟩) (someRecv 50 []) := by
  refine ⟨fun h ↦ ?_, fun h ↦ ?_, fun h ↦ ?_, fun h ↦ ?_⟩
  · exact absurd (h.whole (by decide +kernel) (by decide +kernel)) (by decide +kernel)
  · exact absurd (h.whole (by decide +kernel) (by decide +kernel)) (by decide +kernel)
  · have hevents : ((apMachine someApConfig).step (someAp.accept (List.replicate 50 0), ⟨[], [], 0⟩)
        (someRecv 50 [])).2 = [.received (List.replicate 50 0), .returned (.ok none)] := rfl
    obtain ⟨frame, malloc, seg, hframe, -⟩ := h.filled none (by rw [hevents]; simp)
    cases hframe
  · have hevents : ((apMachine someApConfig).step (someAp.accept queryFrame.bytes, ⟨[], [], 0⟩)
        (someRecv 50 [])).2 =
        [.received (queryFrame.bytes.take 50), .received [], .closed, .returned (.ok none)] := rfl
    obtain ⟨frame, malloc, seg, hframe, -⟩ := h.filled none (by rw [hevents]; simp)
    cases hframe

end TuyaOpen.Netcfg
