import TuyaOpen.Lan.Read
import TuyaOpen.Netcfg.ApFrame
import Mathlib.Data.List.TakeDrop

/-!
# Where `lpv35_frame_parse` reads

The parser trusts the length that its caller takes from the header, and its own
check compares that length with itself.  Each of the three callers compares it
with what was received in another way, and none with the shortest frame.
-/

namespace TuyaOpen.Lan

open Bytes Netcfg

def frmTypeAppUdpBoardcast : ℕ := 0x25

/-- A call of the parser: the 16 bytes at its key, what was received from `input` on,
and the frame length as the `uint32_t` of the caller. -/
structure ParseCall where
  key : List UInt8
  key_length : key.length = 16
  received : List UInt8
  ilen : ℕ

/-- A call with the array of a key, whatever of it is filled. -/
def parseCall (key received : List UInt8) (ilen : ℕ) : ParseCall :=
  ⟨key.takeD 16 0, List.takeD_length 16 key 0, received, ilen⟩

theorem ParseCall.key_ne_nil (call : ParseCall) : call.key ≠ [] :=
  List.ne_nil_of_length_pos (by rw [call.key_length]; decide)

/-- The checks in front of `data_len` are passed. -/
def DataLenReached (input : List UInt8) (ilen : ℤ) : Prop :=
  ilen ≠ 0 ∧ input.take 4 = lpv35FrameHead ∧
    (input.drop (ilen.toNat - 4)).take 4 = lpv35FrameTail ∧ frameLength input = u32 (ilen - 22)

structure ParseCall.Inside (gcm : Gcm) (malloc : Bool) (call : ParseCall) : Prop where
  received : call.ilen ≤ call.received.length
  reads : (lpv35FrameParseAt gcm malloc call.key (call.received.take call.ilen)
    (i32 call.ilen)).isSome
  dataLen : DataLenReached call.received (i32 call.ilen) →
    28 ≤ frameLength call.received ∧ u32 (frameLength call.received - 28) ≤ call.ilen

/-- `wild` is a caller that reads outside of its own buffer before the call. -/
inductive CallerOutcome
  | noCall
  | wild
  | call (c : ParseCall)

def CallerOutcome.Inside (gcm : Gcm) (malloc : Bool) : CallerOutcome → Prop
  | noCall => True
  | wild => False
  | call c => c.Inside gcm malloc

/-! ## The three callers -/

/-- The key that `lan_tcp_client_sock_read` finds for a frame, if it goes on. -/
def frameKey (lan : LanMgr) (i : ℕ) (buffer : List UInt8) : Option (List UInt8) :=
  if lan.isActivated = false then none
  else if isSecurity (frameType buffer) then
    if (lan.session i).keyed then none else some lan.localkey
  else if (lan.session i).keyed = false then none
  else some (lan.session i).secretKey

/-- The parse of `processFrame`; a heartbeat is answered without one. -/
def processCall (lan : LanMgr) (i : ℕ) (buffer : List UInt8) (len : ℕ) : CallerOutcome :=
  match frameKey lan i buffer with
  | none => .noCall
  | some key => if frameType buffer = frmTpHb then .noCall else .call (parseCall key buffer len)

/-- The parse in an iteration of `lan_tcp_client_sock_read`. -/
def tcpCall (env : ReadEnv) (i : ℕ) (nd : List UInt8) (s : LoopState) : CallerOutcome :=
  if s.rest.length < lpv35FrameMiniSize then .noCall
  else if s.rest.take 4 ≠ lpv35FrameHead then .noCall
  else if frameSequence s.rest ≤ (s.lan.session i).sequenceIn then .noCall
  else
    let lan := s.lan.setSequenceIn i (frameSequence s.rest)
    let len := frameLen s.rest
    if s.rest.length < len then
      if lanFrameMaxLen ≤ len ∨ env.tmpRecvBuf = false then .noCall
      else if (s.lan.session i).fd < 0 ∨ nd.length < len - s.rest.length then .noCall
      else processCall lan i (s.rest ++ nd.take (len - s.rest.length)) len
    else processCall lan i s.rest len

/-- A datagram in the `recv_buf` of the manager, which is cleared before. -/
structure UdpRead where
  bufsize : ℕ
  datagram : List UInt8
  fits : datagram.length ≤ bufsize
  bufsize_lt : bufsize < 2 ^ 31

def UdpRead.recvBuf (r : UdpRead) : List UInt8 :=
  r.datagram ++ List.replicate (r.bufsize - r.datagram.length) 0

/-- `__udp_serv_is_in_packet_vaild`; `none` where it compares the tail outside of
the buffer. -/
def udpServIsInPacketVaild (r : UdpRead) : Option Bool :=
  if r.datagram.length < lpv35FrameMiniSize then some false
  else if r.recvBuf.take 4 ≠ lpv35FrameHead then some false
  else if r.bufsize < 18 + frameLength r.recvBuf + 4 then none
  else if (r.recvBuf.drop (18 + frameLength r.recvBuf)).take 4 ≠ lpv35FrameTail then some false
  else if frameType r.recvBuf ≠ frmTypeAppUdpBoardcast then some false
  else some true

/-- The parse of `lan_udp_serv_sock_read`. -/
def udpCall (appKey2 : List UInt8) (r : UdpRead) : CallerOutcome :=
  match udpServIsInPacketVaild r with
  | none => .wild
  | some false => .noCall
  | some true => .call (parseCall appKey2 r.datagram (frameLen r.recvBuf))

/-- The parse of `ap_frame_recv`.  A frame in two parts is parsed from its second
part on. -/
def apCall (config : ApConfig) (env : ApEnv) (ap : ApNetcfg) : CallerOutcome :=
  let read := tlsRead ap.stream apMaxBufsize env.first
  match headAt read with
  | none => .noCall
  | some offset =>
    let frame := read.drop offset
    let len := frameLen frame
    if frame.length < len then
      if apMaxBufsize < len then .noCall
      else
        let rest := readRest (ap.stream.drop read.length) (len - frame.length) env.more
        if rest.2 = true then .call (parseCall config.appKey rest.1 len) else .noCall
    else .call (parseCall config.appKey frame len)

/-- A caller with all that it meets.  What a socket gives is counted in an `int`. -/
inductive Caller
  | tcp (env : ReadEnv) (i : ℕ) (nd : List UInt8) (s : LoopState) (h : s.rest.length < 2 ^ 31)
  | udp (appKey2 : List UInt8) (r : UdpRead)
  | ap (config : ApConfig) (env : ApEnv) (netcfg : ApNetcfg)

def Caller.outcome : Caller → CallerOutcome
  | tcp env i nd s _ => tcpCall env i nd s
  | udp appKey2 r => udpCall appKey2 r
  | ap config env netcfg => apCall config env netcfg

/-! ## When they stay inside -/

/-- The length field gives a whole frame, none at all, or one without a tail at
its end. -/
def FitsInPlace (frame : List UInt8) : Prop :=
  frameLen frame = 0 ∨ lpv35FrameMiniSize ≤ frameLen frame ∨
    4 ≤ frameLen frame ∧ (frame.drop (frameLen frame - 4)).take 4 ≠ lpv35FrameTail

def Caller.Fits : Caller → Prop
  | tcp _ i _ s _ =>
      lpv35FrameMiniSize ≤ s.rest.length → s.rest.take 4 = lpv35FrameHead →
      (s.lan.session i).sequenceIn < frameSequence s.rest → frameLen s.rest ≤ s.rest.length →
      (frameKey s.lan i s.rest).isSome → frameType s.rest ≠ frmTpHb → FitsInPlace s.rest
  | udp _ r =>
      lpv35FrameMiniSize ≤ r.datagram.length → r.recvBuf.take 4 = lpv35FrameHead →
      22 + frameLength r.recvBuf ≤ r.bufsize ∧
        ((r.recvBuf.drop (18 + frameLength r.recvBuf)).take 4 = lpv35FrameTail →
          frameType r.recvBuf = frmTypeAppUdpBoardcast → 28 ≤ frameLength r.recvBuf)
  | ap _ env netcfg =>
      let read := tlsRead netcfg.stream apMaxBufsize env.first
      ∀ offset ∈ headAt read,
        let frame := read.drop offset
        if frameLen frame ≤ frame.length then FitsInPlace frame
        else apMaxBufsize < frameLen frame ∨
          (readRest (netcfg.stream.drop read.length) (frameLen frame - frame.length) env.more).2 =
            false

/-! ## A frame at its head -/

variable {gcm : Gcm} {malloc : Bool}

theorem frameLength_lt (input : List UInt8) : frameLength input < 2 ^ 32 := getBE_lt input 14 4

theorem frameLen_append {input : List UInt8} (h : 18 ≤ input.length) (more : List UInt8) :
    frameLen (input ++ more) = frameLen input := by
  rw [frameLen, frameLen, frameLength, frameLength, getBE_append_left h]

theorem take_head_append {input : List UInt8} (h : 4 ≤ input.length) (more : List UInt8) :
    (input ++ more).take 4 = input.take 4 := List.take_append_of_le_length h

theorem frameLength_eq_u32 (input : List UInt8) :
    frameLength input = u32 ((frameLen input : ℤ) - 22) := by
  have hlt := frameLength_lt input
  rw [frameLen, u32]
  omega

theorem take_four_take {input : List UInt8} {n : ℕ} (h : 4 ≤ n) :
    (input.take n).take 4 = input.take 4 := by
  rw [List.take_take, Nat.min_eq_left h]

theorem tail_take {input : List UInt8} {n : ℕ} (h : 4 ≤ n) :
    ((input.take n).drop (n - 4)).take 4 = (input.drop (n - 4)).take 4 := by
  rw [List.drop_take, List.take_take]
  congr 1
  omega

section Frame

variable {call : ParseCall} (hhead : call.received.take 4 = lpv35FrameHead)
  (hlen : call.ilen = frameLen call.received) (hle : call.ilen ≤ call.received.length)
  (hint : call.ilen < 2 ^ 31)

include hhead hlen hle hint

theorem inside_of_fits (h : FitsInPlace call.received) : call.Inside gcm malloc := by
  have hi32 : i32 call.ilen = call.ilen := i32_of_lt hint
  have hseg : (call.received.take call.ilen).length = call.ilen := List.length_take_of_le hle
  rw [FitsInPlace, ← hlen] at h
  rcases h with hzero | hmini | ⟨hfour, htail⟩
  · refine ⟨hle, ?_, fun hreached ↦ ?_⟩
    · rw [lpv35FrameParseAt, hi32, if_pos (.inr (by omega))]
      rfl
    · exact absurd (by rw [hi32]; omega) hreached.1
  · rw [lpv35FrameMiniSize] at hmini
    refine ⟨hle, ?_, fun _ ↦ ?_⟩
    · rw [hi32, parseAt_eq gcm ⟨malloc, .error oprtComError⟩ call.key _ hmini (by omega) hint]
      rfl
    · have hfield := frameLength_lt call.received
      rw [frameLen] at hlen
      rw [u32]
      omega
  · refine ⟨hle, ?_, fun hreached ↦ ?_⟩
    · rw [lpv35FrameParseAt, hi32, if_neg (not_or.mpr ⟨call.key_ne_nil, by omega⟩),
        if_neg (by omega), take_four_take hfour, if_neg (by simpa using hhead), if_neg (by omega),
        Int.toNat_natCast, tail_take hfour, if_pos htail]
      rfl
    · have htail' := hreached.2.2.1
      rw [hi32, Int.toNat_natCast] at htail'
      exact absurd htail' htail

theorem fits_of_inside (h : call.Inside gcm malloc) : FitsInPlace call.received := by
  have hi32 : i32 call.ilen = call.ilen := i32_of_lt hint
  have hseg : (call.received.take call.ilen).length = call.ilen := List.length_take_of_le hle
  have hreads := h.reads
  have hdata := h.dataLen
  rw [FitsInPlace, ← hlen, lpv35FrameMiniSize]
  by_contra hnot
  push Not at hnot
  obtain ⟨hzero, hmini, htail⟩ := hnot
  by_cases hfour : 4 ≤ call.ilen
  · -- the check of the length passes, and the length of the data wraps around
    have hfield : frameLength call.received = u32 ((call.ilen : ℤ) - 22) := by
      rw [hlen]
      exact frameLength_eq_u32 _
    have hreached : DataLenReached call.received (i32 call.ilen) := by
      rw [hi32]
      refine ⟨by omega, hhead, ?_, hfield⟩
      rw [Int.toNat_natCast]
      exact htail hfour
    obtain ⟨hlong, hshort⟩ := hdata hreached
    rw [wrap_twice hfield, u32] at hshort
    rw [hfield, u32] at hlong
    omega
  · rw [lpv35FrameParseAt, hi32, if_neg (not_or.mpr ⟨call.key_ne_nil, by omega⟩),
      if_pos (by omega)] at hreads
    cases hreads

theorem inside_iff_fits : call.Inside gcm malloc ↔ FitsInPlace call.received :=
  ⟨fits_of_inside hhead hlen hle hint, inside_of_fits hhead hlen hle hint⟩

end Frame

/-! ## The TCP connection -/

/-- `processFrame` parses as `processCall` says, and not otherwise. -/
theorem processFrame_key (crypto : LanCrypto) (env : FrameEnv) (lan : LanMgr) (i : ℕ)
    (buffer : List UInt8) (len : ℕ) :
    ∃ lan', processFrame crypto env lan i buffer len =
      match frameKey lan i buffer with
      | none => (lan', [], false)
      | some key => answerFrame crypto env lan' i key buffer len := by
  have hkeyed : ((lan.setAllowNoSessionKeyNum allowNoKeyNum).session i).keyed =
      (lan.session i).keyed := rfl
  simp only [processFrame, frameKey, hkeyed]
  split_ifs
  all_goals exact ⟨_, rfl⟩

theorem frameKey_setSequenceIn (lan : LanMgr) (i sequence : ℕ) (buffer : List UInt8) :
    frameKey (lan.setSequenceIn i sequence) i buffer = frameKey lan i buffer := by
  have hsession : (lan.setSequenceIn i sequence).session i =
      { lan.session i with sequenceIn := sequence } := setSession_self lan i _
  rw [frameKey, frameKey, hsession]
  rfl

theorem processCall_inside_iff {lan : LanMgr} {i : ℕ} {buffer : List UInt8} {len : ℕ} :
    (processCall lan i buffer len).Inside gcm malloc ↔
      ∀ key, frameKey lan i buffer = some key → frameType buffer ≠ frmTpHb →
        (parseCall key buffer len).Inside gcm malloc := by
  rw [processCall]
  cases frameKey lan i buffer with
  | none =>
      refine iff_of_true trivial fun key hkey ↦ ?_
      cases hkey
  | some key =>
      dsimp only
      by_cases hhb : frameType buffer = frmTpHb
      · rw [if_pos hhb]
        exact iff_of_true trivial fun _ _ hne ↦ absurd hhb hne
      · rw [if_neg hhb]
        refine ⟨fun h key' hkey _ ↦ ?_, fun h ↦ h key rfl hhb⟩
        cases hkey
        exact h

theorem owned_inside {key rest more : List UInt8} (hmini : lpv35FrameMiniSize ≤ rest.length)
    (hhead : rest.take 4 = lpv35FrameHead) (hmore : rest.length < frameLen rest)
    (hmax : frameLen rest < lanFrameMaxLen) (hlen : frameLen rest ≤ (rest ++ more).length) :
    (parseCall key (rest ++ more) (frameLen rest)).Inside gcm malloc := by
  rw [parseCall]
  rw [lpv35FrameMiniSize] at hmini
  rw [lanFrameMaxLen] at hmax
  have happend : frameLen (rest ++ more) = frameLen rest := frameLen_append (by omega) more
  refine inside_of_fits ?_ happend.symm hlen (by dsimp only; omega) ?_
  · rw [take_head_append (by omega), hhead]
  · refine .inr (.inl ?_)
    rw [happend, lpv35FrameMiniSize]
    omega

theorem tcpCall_inside_iff (env : ReadEnv) (i : ℕ) (nd : List UInt8) (s : LoopState)
    (h : s.rest.length < 2 ^ 31) :
    (tcpCall env i nd s).Inside gcm malloc ↔ (Caller.tcp env i nd s h).Fits := by
  rw [tcpCall, Caller.Fits]
  by_cases hmini : s.rest.length < lpv35FrameMiniSize
  · rw [if_pos hmini]
    exact iff_of_true trivial fun hlong ↦ absurd hmini (Nat.not_lt_of_le hlong)
  rw [if_neg hmini]
  by_cases hhead : s.rest.take 4 = lpv35FrameHead
  case neg =>
    rw [if_pos hhead]
    exact iff_of_true trivial fun _ hh ↦ absurd hh hhead
  rw [if_neg (not_not_intro hhead)]
  by_cases hseq : frameSequence s.rest ≤ (s.lan.session i).sequenceIn
  · rw [if_pos hseq]
    exact iff_of_true trivial fun _ _ hlt ↦ absurd hseq (Nat.not_le_of_lt hlt)
  rw [if_neg hseq]
  dsimp only
  by_cases hcut : s.rest.length < frameLen s.rest
  · rw [if_pos hcut]
    refine iff_of_true ?_ fun _ _ _ hle ↦ absurd hcut (Nat.not_lt_of_le hle)
    by_cases hmax : lanFrameMaxLen ≤ frameLen s.rest ∨ env.tmpRecvBuf = false
    · rw [if_pos hmax]
      trivial
    rw [if_neg hmax]
    by_cases hnd : (s.lan.session i).fd < 0 ∨ nd.length < frameLen s.rest - s.rest.length
    · rw [if_pos hnd]
      trivial
    rw [if_neg hnd, processCall_inside_iff]
    intro key _ _
    refine owned_inside (Nat.le_of_not_lt hmini) hhead hcut (by omega) ?_
    rw [List.length_append, List.length_take]
    omega
  · rw [if_neg hcut, processCall_inside_iff, frameKey_setSequenceIn]
    have hle := Nat.le_of_not_lt hcut
    have hiff : ∀ key, (parseCall key s.rest (frameLen s.rest)).Inside gcm malloc ↔
        FitsInPlace s.rest := fun key ↦ inside_iff_fits hhead rfl hle (hle.trans_lt h)
    constructor
    · intro hin _ _ _ _ hkey hhb
      obtain ⟨key, hkey⟩ := Option.isSome_iff_exists.mp hkey
      exact (hiff key).mp (hin key hkey hhb)
    · intro hfits key hkey hhb
      refine (hiff key).mpr ?_
      exact hfits (Nat.le_of_not_lt hmini) hhead (Nat.lt_of_not_le hseq) hle
        (Option.isSome_iff_exists.mpr ⟨key, hkey⟩) hhb

/-! ## Datagrams -/

section Udp

variable {r : UdpRead}

theorem UdpRead.length_recvBuf (r : UdpRead) : r.recvBuf.length = r.bufsize := by
  have hfits := r.fits
  rw [recvBuf, List.length_append, List.length_replicate]
  omega

theorem UdpRead.tail_inside {off : ℕ} (h : (r.recvBuf.drop off).take 4 = lpv35FrameTail) :
    off + 4 ≤ r.datagram.length := by
  by_contra hout
  have hlast : r.recvBuf[off + 3]? = some 0x66 := by
    have hget : ((r.recvBuf.drop off).take 4)[3]? = some 0x66 := by
      rw [h]
      rfl
    rwa [List.getElem?_take_of_lt (by omega), List.getElem?_drop] at hget
  have hlt := (List.getElem?_eq_some_iff.mp hlast).1
  rw [UdpRead.length_recvBuf] at hlt
  rw [recvBuf, List.getElem?_append_right (by omega),
    List.getElem?_replicate_of_lt (by omega)] at hlast
  cases hlast

theorem UdpRead.take_recvBuf {off k : ℕ} (h : off + k ≤ r.datagram.length) :
    (r.recvBuf.drop off).take k = (r.datagram.drop off).take k := by
  rw [recvBuf, List.drop_append_of_le_length (by omega), List.take_append_of_le_length]
  rw [List.length_drop]
  omega

theorem udpCall_inside_iff (appKey2 : List UInt8) (r : UdpRead) :
    (udpCall appKey2 r).Inside gcm malloc ↔ (Caller.udp appKey2 r).Fits := by
  rw [udpCall, udpServIsInPacketVaild, Caller.Fits]
  by_cases hmini : r.datagram.length < lpv35FrameMiniSize
  · rw [if_pos hmini]
    exact iff_of_true trivial fun hlong ↦ absurd hmini (Nat.not_lt_of_le hlong)
  have hmini' := Nat.le_of_not_lt hmini
  rw [if_neg hmini]
  by_cases hhead : r.recvBuf.take 4 = lpv35FrameHead
  case neg =>
    rw [if_pos hhead]
    exact iff_of_true trivial fun _ hh ↦ absurd hh hhead
  simp only [hhead, hmini', ne_eq, not_true_eq_false, if_false, forall_const]
  by_cases hout : r.bufsize < 18 + frameLength r.recvBuf + 4
  · rw [if_pos hout]
    refine iff_of_false id fun hfits ↦ ?_
    omega
  rw [if_neg hout]
  have hroom : 22 + frameLength r.recvBuf ≤ r.bufsize := by omega
  simp only [hroom, true_and]
  by_cases htail : (r.recvBuf.drop (18 + frameLength r.recvBuf)).take 4 = lpv35FrameTail
  case neg =>
    rw [if_pos htail]
    exact iff_of_true trivial fun h ↦ absurd h htail
  simp only [htail, not_true_eq_false, if_false, forall_const]
  by_cases htype : frameType r.recvBuf = frmTypeAppUdpBoardcast
  case neg =>
    rw [if_pos htype]
    exact iff_of_true trivial fun h ↦ absurd h htype
  simp only [htype, not_true_eq_false, if_false, forall_const]
  have hinside := r.tail_inside htail
  have hbuf := r.bufsize_lt
  have hfits := r.fits
  have hfour : 4 ≤ r.datagram.length := by
    rw [lpv35FrameMiniSize] at hmini'
    omega
  have hlen : frameLen r.recvBuf = 22 + frameLength r.recvBuf := by
    rw [frameLen]
    omega
  have hlen' : frameLen r.recvBuf = frameLen r.datagram := by
    rw [lpv35FrameMiniSize] at hmini'
    exact frameLen_append (by omega) _
  have hhead' : r.datagram.take 4 = lpv35FrameHead := by
    rw [← hhead]
    exact (take_head_append hfour _).symm
  rw [parseCall]
  refine (inside_iff_fits hhead' hlen' (by dsimp only; omega) (by dsimp only; omega)).trans ?_
  -- the tail is where the field says, so nothing but a whole frame is left
  have htail' : (r.datagram.drop (frameLen r.datagram - 4)).take 4 = lpv35FrameTail := by
    rw [← htail, ← hlen', hlen, Nat.add_comm 22, Nat.add_comm 18]
    exact (UdpRead.take_recvBuf (by omega)).symm
  rw [FitsInPlace, ← hlen', hlen, lpv35FrameMiniSize]
  rw [← hlen', hlen] at htail'
  simp only [htail', ne_eq, not_true_eq_false, and_false, or_false]
  omega

end Udp

/-! ## The access point -/

theorem headAt_head {bytes : List UInt8} {offset : ℕ} (h : headAt bytes = some offset) :
    (bytes.drop offset).take 4 = lpv35FrameHead := by
  induction bytes generalizing offset with
  | nil => cases h
  | cons b rest ih =>
      rw [headAt] at h
      split_ifs at h with hshort hhead
      · cases h
        exact hhead
      · obtain ⟨o, ho, rfl⟩ := Option.map_eq_some_iff.mp h
        exact ih ho

theorem length_readRest_le (stream : List UInt8) (nd : ℕ) (reads : List TlsRead) :
    (readRest stream nd reads).1.length ≤ nd := by
  induction reads generalizing stream nd with
  | nil =>
      cases nd with
      | zero => exact Nat.le_refl 0
      | succ nd => exact Nat.zero_le _
  | cons read more ih =>
      cases nd with
      | zero => exact Nat.le_refl 0
      | succ nd =>
          have hle := length_tlsRead_le stream (nd + 1) read
          rw [readRest]
          dsimp only
          split_ifs
          · exact ih stream (nd + 1)
          · exact Nat.zero_le _
          · have hrest := ih (stream.drop (tlsRead stream (nd + 1) read).length)
              (nd + 1 - (tlsRead stream (nd + 1) read).length)
            rw [List.length_append]
            omega

/-- The parse is the last thing `ap_frame_recv` does, on the memory from there. -/
theorem frameRecv_parse {config : ApConfig} {env : ApEnv} {netcfg : ApNetcfg} {call : ParseCall}
    (hbuf : netcfg.recvBuf.length = apMaxBufsize) (h : apCall config env netcfg = .call call) :
    ∃ (after : ApNetcfg) (offset pos : ℕ),
      after.parse config env.malloc offset pos call.ilen <:+ (netcfg.frameRecv config env).2 ∧
      call.received <+: after.recvBuf.drop pos ∧ call.key = config.appKey.takeD 16 0 := by
  have hread := length_tlsRead_le netcfg.stream apMaxBufsize env.first
  rw [apCall] at h
  dsimp only at h
  cases hfound : headAt (tlsRead netcfg.stream apMaxBufsize env.first) with
  | none =>
      rw [hfound] at h
      cases h
  | some offset =>
      rw [frameRecv_found rfl hfound]
      rw [hfound] at h
      generalize tlsRead netcfg.stream apMaxBufsize env.first = read at *
      have hroom := headAt_room hfound
      have hdrop : (read.drop offset).length = read.length - offset := List.length_drop
      have hlen : apFrameLen (read.drop offset) = frameLen (read.drop offset) := rfl
      dsimp only at h ⊢
      by_cases hcut : (read.drop offset).length < frameLen (read.drop offset)
      · rw [if_pos hcut] at h
        by_cases hmax : apMaxBufsize < frameLen (read.drop offset)
        · rw [if_pos hmax] at h
          cases h
        rw [if_neg hmax] at h
        split_ifs at h with hwhole
        cases h
        rw [hdrop] at hwhole hcut ⊢
        rw [ApNetcfg.recvFrame]
        dsimp only
        rw [take_recvBuf_receive, hlen, if_pos hcut, if_neg hmax]
        have hstream : (netcfg.receive 0 read).stream = netcfg.stream.drop read.length := rfl
        rw [hstream, if_pos hwhole]
        refine ⟨_, offset, read.length - offset,
          (List.suffix_cons _ _).trans (List.suffix_cons _ _), ?_, rfl⟩
        rw [ApNetcfg.receive, List.splice, List.append_assoc, List.drop_left']
        · exact List.prefix_append _ _
        · -- the first part was moved to the front
          rw [List.length_take, List.length_splice]
          · rw [recvBuf_receive, List.length_append, List.length_drop]
            omega
          · rw [recvBuf_receive, List.length_append, List.length_drop]
            omega
      · rw [if_neg hcut] at h
        cases h
        rw [recvFrame_here (by omega)]
        refine ⟨_, offset, offset, List.suffix_cons _ _, ?_, rfl⟩
        rw [drop_recvBuf_receive (by omega)]
        exact List.prefix_append _ _

theorem apCall_inside_iff (config : ApConfig) (env : ApEnv) (netcfg : ApNetcfg) :
    (apCall config env netcfg).Inside gcm malloc ↔ (Caller.ap config env netcfg).Fits := by
  rw [apCall, Caller.Fits]
  dsimp only
  have hsize : apMaxBufsize = 4096 := rfl
  have hread := length_tlsRead_le netcfg.stream apMaxBufsize env.first
  cases hfound : headAt (tlsRead netcfg.stream apMaxBufsize env.first) with
  | none => exact iff_of_true trivial fun offset h ↦ by cases h
  | some offset =>
      generalize hr : tlsRead netcfg.stream apMaxBufsize env.first = read at *
      have hhead := headAt_head hfound
      have hroom := headAt_room hfound
      rw [lpv35FrameMiniSize] at hroom
      have hdrop : (read.drop offset).length = read.length - offset := List.length_drop
      simp only [Option.mem_some_iff, forall_eq']
      by_cases hcut : (read.drop offset).length < frameLen (read.drop offset)
      · rw [if_pos hcut, if_neg (Nat.not_le_of_lt hcut)]
        by_cases hmax : apMaxBufsize < frameLen (read.drop offset)
        · rw [if_pos hmax]
          exact iff_of_true trivial (.inl hmax)
        rw [if_neg hmax]
        cases hwhole : (readRest (netcfg.stream.drop read.length)
            (frameLen (read.drop offset) - (read.drop offset).length) env.more).2 with
        | false =>
            rw [if_neg (by simp)]
            exact iff_of_true trivial (.inr rfl)
        | true =>
            -- the second part is shorter than the frame
            rw [if_pos rfl, parseCall]
            refine iff_of_false (fun hin ↦ ?_) (by simp [hmax])
            have hle := length_readRest_le (netcfg.stream.drop read.length)
              (frameLen (read.drop offset) - (read.drop offset).length) env.more
            have hlong := hin.received
            dsimp only at hlong
            omega
      · have hle := Nat.le_of_not_lt hcut
        rw [if_neg hcut, if_pos hle, parseCall]
        exact inside_iff_fits hhead rfl hle (by dsimp only; omega)

/-- Each caller keeps the parser in the bytes it received exactly when its frame
fits. -/
theorem lan_parse_inside_iff (gcm : Gcm) (malloc : Bool) (caller : Caller) :
    caller.outcome.Inside gcm malloc ↔ caller.Fits := by
  cases caller with
  | tcp env i nd s h => exact tcpCall_inside_iff env i nd s h
  | udp appKey2 r => exact udpCall_inside_iff appKey2 r
  | ap config env netcfg => exact apCall_inside_iff config env netcfg

/-- A frame with a zero length field and its tail at the end of that. -/
def zeroLengthDatagram : List UInt8 :=
  lpv35FrameHead ++ [0, 0] ++ [0, 0, 0, 1] ++ [0, 0, 0, 0x25] ++ [0, 0, 0, 0] ++ lpv35FrameTail ++
    List.replicate 28 0

/-- The MD5 of `yGAdlopoPVldABfn`. -/
def appKey2 : List UInt8 :=
  [108, 30, 200, 226, 187, 155, 181, 154, 181, 11, 13, 175, 100, 155, 65, 10]

theorem lan_parse_outside :
    ¬ ∀ (gcm : Gcm) (malloc : Bool) (caller : Caller), caller.outcome.Inside gcm malloc := by
  intro h
  have hin := h aesGcm true
    (.udp appKey2 ⟨sLanCfg.bufsize, zeroLengthDatagram, by decide, by decide⟩)
  rw [Caller.outcome, udpCall_inside_iff] at hin
  exact absurd ((hin (by decide) (by decide)).2 (by decide) (by decide)) (by decide)

end TuyaOpen.Lan
