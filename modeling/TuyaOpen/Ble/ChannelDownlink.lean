import TuyaOpen.Ble.Channel

/-!
# Commands that come in subpackets

Nothing in the source compares the number of a subpacket with the one before
or its length with the room that is left, and the buffer stays in place when a
command is complete.  A record of what the subpackets say, kept beside the
state, tells when the buffer that is dispatched is the command that was sent.
-/

namespace TuyaOpen.Ble.Channel

/-- A packet of the downlink that says it is a subpacket. -/
def isSubpacket (req : ChannelReq) : Bool :=
  isDownlink req.type && (req.data.1[1]?.any fun flag ↦ flag &&& 0x02 ≠ 0)

/-- What the subpackets said since the latest first one, and how many commands
were dispatched since. -/
abbrev Record := Option Gathered × ℕ

def note (h : Record) (_ : ChannelState) (req : ChannelReq) (_ : ChannelState)
    (out : Option ChannelOut) : Record :=
  if isSubpacket req then
    (gather h.1 req.data,
      (if req.data.1[2]? = some 0 then 0 else h.2) +
        if (out.bind ChannelOut.command).isSome then 1 else 0)
  else h

def trackedMachine : Mealy (ChannelState × Record) ChannelReq (Option ChannelOut) :=
  channelMachine.observed note

def TrackedInit : ChannelState × Record := (ChannelState.init, none, 0)

/-- The subpackets that do not meet the defects of the receiver.  A first one is
not longer than it announces.  A later one, while there is a buffer, brings
the next number, comes before the command is complete, and fits. -/
structure Orderly (s : ChannelState × Record) (req : ChannelReq) : Prop where
  flags : isDownlink req.type → 2 ≤ req.data.1.length
  first : isSubpacket req → req.data.1[2]? = some 0 →
    (Leb128.decode 4 (req.data.1.drop 3)).isSome ∧
      (req.bufferMalloc = true → ∃ p, parseFirst req.data = some p ∧ p.2.length ≤ p.1)
  later : isSubpacket req → req.data.1[2]? ≠ some 0 →
    3 ≤ req.data.1.length ∧ (s.1.down.buffer.isSome → ∃ g p, s.2.1 = some g ∧
      parseLater req.data = some p ∧ p.1 = g.next ∧ s.1.down.receivedLen < s.1.down.totalLen ∧
      s.1.down.receivedLen + p.2.length ≤ s.1.down.totalLen)

/-! ## One subpacket -/

variable {d : Downlink} {rawData : List UInt8} {offset : ℕ}

theorem extractPacketLen_some {n : ℕ} {rest : List UInt8}
    (h : Leb128.decode 4 (rawData.drop offset) = some (n, rest)) :
    ∃ offset', extractPacketLen rawData offset = some (n, offset') ∧
      offset' + rest.length = rawData.length ∧ rawData.drop offset' = rest := by
  obtain ⟨hlt, hdrop⟩ := Leb128.decode_drop h
  have hrun : extractPacketLen rawData offset =
      some (n, offset + ((rawData.drop offset).length - rest.length)) := by
    rw [extractPacketLen, decodeDigits_eq, h]
    simp
  refine ⟨_, hrun, ?_, ?_⟩
  · simp only [List.length_drop] at hlt ⊢
    omega
  · rw [← List.drop_drop]
    exact hdrop

theorem copySubpacket_eq {buffer payload : List UInt8} (hraw : rawData.length < 2 ^ 16)
    (hoff : offset + payload.length = rawData.length) (hdrop : rawData.drop offset = payload)
    (hfit : d.receivedLen + payload.length ≤ buffer.length) (hbuf : buffer.length < 2 ^ 32) :
    copySubpacket d buffer rawData offset =
      some (⟨d.totalLen, some (buffer.splice d.receivedLen payload),
        d.receivedLen + payload.length⟩, payload.length) := by
  have hlen : usub 32 rawData.length offset = payload.length := by
    rw [usub_of_le (by omega) (by omega)]
    omega
  have hmod : (d.receivedLen + payload.length) % 2 ^ 32 = d.receivedLen + payload.length := by
    apply Nat.mod_eq_of_lt
    omega
  simp only [copySubpacket, hlen, hdrop, hmod, List.take_length]
  rw [if_neg (by omega)]

theorem recvSubpacket_first {total : ℕ} {payload : List UInt8} (hraw : rawData.length < 2 ^ 16)
    (hfirst : rawData[2]? = some 0) (hparse : parseFirst rawData = some (total, payload))
    (hfit : payload.length ≤ total) (flag : ℕ) (ackMalloc : Bool) :
    recvSubpacket d rawData flag true ackMalloc =
      some (ackSubpacket ⟨total, some ((List.replicate total 0).splice 0 payload),
        payload.length⟩ flag 0 payload.length ackMalloc) := by
  unfold parseFirst at hparse
  split at hparse
  · next total' ver payload' hdec =>
      cases hparse
      obtain ⟨offset, hoff, hlen, hdrop⟩ := extractPacketLen_some hdec
      have htotal := Leb128.decode_lt hdec
      rw [List.length_cons] at hlen
      have hdrop' : rawData.drop (offset + 1) = payload := by
        rw [← List.drop_drop, hdrop, List.drop_one, List.tail_cons]
      have hroom : (List.replicate total (0 : UInt8)).length = total := List.length_replicate
      have hcopy := copySubpacket_eq (d := ⟨total, some (List.replicate total 0), 0⟩) hraw
        (show offset + 1 + payload.length = rawData.length by omega) hdrop'
        (by rw [hroom]; simpa using hfit) (by omega)
      simp only [recvSubpacket, hfirst, if_true, hoff, Bool.true_eq_false, if_false, hcopy,
        Nat.zero_add, Option.map_some]
  · cases hparse

theorem recvSubpacket_later {buffer payload : List UInt8} {no : ℕ} (hraw : rawData.length < 2 ^ 16)
    {b : UInt8} (hb : rawData[2]? = some b) (hlater : b ≠ 0) (hbuffer : d.buffer = some buffer)
    (hparse : parseLater rawData = some (no, payload))
    (hfit : d.receivedLen + payload.length ≤ buffer.length) (hbuf : buffer.length < 2 ^ 32)
    (flag : ℕ) (bufferMalloc ackMalloc : Bool) :
    recvSubpacket d rawData flag bufferMalloc ackMalloc =
      some (ackSubpacket ⟨d.totalLen, some (buffer.splice d.receivedLen payload),
        d.receivedLen + payload.length⟩ flag no payload.length ackMalloc) := by
  obtain ⟨offset, hoff, hlen, hdrop⟩ := extractPacketLen_some hparse
  have hcopy := copySubpacket_eq hraw hlen hdrop hfit hbuf
  simp only [recvSubpacket, hb, if_neg hlater, hbuffer, hoff, hcopy, Option.map_some]

theorem process_subpacket (s : ChannelState) {req : ChannelReq} (h : isSubpacket req = true) :
    ∃ flag, bleSessionChannelProcess s req =
      (recvSubpacket s.down req.data flag req.bufferMalloc req.ackMalloc).map
        fun r ↦ ({ s with down := r.1 }, r.2) := by
  obtain ⟨hdown, hflag⟩ := Bool.and_eq_true_iff.mp h
  rw [bleSessionChannelProcess, if_pos hdown]
  match hraw : req.data.1, hflag with
  | [], hflag => simp at hflag
  | [_], hflag => simp at hflag
  | flag0 :: flag1 :: rest, hflag =>
      have hbit : flag1 &&& 0x02 ≠ 0 := by simpa using hflag
      refine ⟨flag1.toNat * 256 + flag0.toNat, ?_⟩
      simp only [if_pos hbit]

theorem process_other {s : ChannelState} {req : ChannelReq} (h : isSubpacket req = false) :
    (isDownlink req.type = true → 2 ≤ req.data.1.length →
      (bleSessionChannelProcess s req).isSome) ∧
    ∀ s' out, bleSessionChannelProcess s req = some (s', out) →
      s'.down = s.down ∧ out.command = none := by
  rw [bleSessionChannelProcess]
  by_cases hdown : isDownlink req.type = true
  · rw [if_pos hdown]
    match hraw : req.data.1 with
    | [] =>
        refine ⟨fun _ hlen ↦ absurd hlen (by simp), ?_⟩
        exact fun _ _ hrun ↦ nomatch hrun
    | [_] =>
        refine ⟨fun _ hlen ↦ absurd hlen (by simp), ?_⟩
        exact fun _ _ hrun ↦ nomatch hrun
    | flag0 :: flag1 :: rest =>
        have hbit : ¬ flag1 &&& 0x02 ≠ 0 := by
          rw [isSubpacket, hdown, hraw] at h
          simpa using h
        simp only [if_neg hbit]
        refine ⟨fun _ _ ↦ rfl, fun s' out hrun ↦ ?_⟩
        cases hrun
        exact ⟨rfl, rfl⟩
  · rw [if_neg hdown]
    refine ⟨fun h' ↦ (hdown h').elim, fun s' out hrun ↦ ?_⟩
    split_ifs at hrun
    · split at hrun
      · cases hrun
      · obtain ⟨r, -, hr⟩ := Option.map_eq_some_iff.mp hrun
        cases hr
        exact ⟨rfl, rfl⟩
    · cases hrun
      exact ⟨rfl, rfl⟩

/-! ## The invariant -/

structure ChannelInv (s : ChannelState × Record) : Prop where
  received_le : s.1.down.receivedLen ≤ s.1.down.totalLen
  total_lt : s.1.down.totalLen < 2 ^ 28
  commands_le : s.2.2 ≤ 1
  buffer : ∀ b, s.1.down.buffer = some b → b.length = s.1.down.totalLen ∧
    ∃ g, s.2.1 = some g ∧ g.total = s.1.down.totalLen ∧
      g.bytes.length = s.1.down.receivedLen ∧ b.take s.1.down.receivedLen = g.bytes ∧
      (s.1.down.receivedLen < s.1.down.totalLen → s.2.2 = 0)

theorem channelInv_init : ChannelInv TrackedInit :=
  ⟨le_rfl, Nat.two_pow_pos 28, Nat.zero_le 1, fun _ h ↦ nomatch h⟩

/-- The buffer that is dispatched is what was gathered, all of it. -/
structure Dispatched (s : ChannelState × Record) (buf : List UInt8) : Prop where
  total : s.1.down.totalLen = buf.length
  gathered : ∃ g, s.2.1 = some g ∧ g.total = buf.length ∧ g.bytes = buf

theorem acked_inv {d : Downlink} {b : List UInt8} {g : Gathered} (hbuffer : d.buffer = some b)
    (hlen : b.length = d.totalLen) (htotal : g.total = d.totalLen)
    (hbytes : g.bytes.length = d.receivedLen) (htake : b.take d.receivedLen = g.bytes)
    (hle : d.receivedLen ≤ d.totalLen) (hlt : d.totalLen < 2 ^ 28) (up : BleChannelMgr)
    (flag no len : ℕ) (malloc : Bool) :
    let r := ackSubpacket d flag no len malloc
    let s : ChannelState × Record := (⟨r.1, up⟩, some g, if r.2.command.isSome then 1 else 0)
    ChannelInv s ∧ ∀ buf, r.2.command = some buf → Dispatched s buf := by
  cases malloc with
  | false => exact ⟨⟨hle, hlt, Nat.zero_le 1, fun _ h ↦ nomatch h⟩, fun _ h ↦ nomatch h⟩
  | true =>
      by_cases hmore : d.receivedLen < d.totalLen
      · simp only [ackSubpacket, hmore, if_true, Bool.true_eq_false, if_false, Option.isSome_none,
          Bool.false_eq_true]
        refine ⟨⟨hle, hlt, Nat.zero_le 1, ?_⟩, fun _ h ↦ nomatch h⟩
        intro b' hb'
        obtain rfl := Option.some.inj (hbuffer.symm.trans hb')
        exact ⟨hlen, g, rfl, htotal, hbytes, htake, fun _ ↦ rfl⟩
      · have hall : d.receivedLen = d.totalLen := by omega
        simp only [ackSubpacket, hmore, Bool.true_eq_false, if_false, hbuffer, Option.isSome_some,
          if_true]
        refine ⟨⟨hle, hlt, le_rfl, ?_⟩, ?_⟩
        · intro b' hb'
          obtain rfl := Option.some.inj (hbuffer.symm.trans hb')
          exact ⟨hlen, g, rfl, htotal, hbytes, htake, fun h ↦ (hmore h).elim⟩
        · intro buf hbuf
          obtain rfl := Option.some.inj hbuf
          refine ⟨hlen.symm, g, rfl, htotal.trans hlen.symm, ?_⟩
          rw [← htake, hall, ← hlen, List.take_length]

/-! ## A step and a run -/

/-- What every step is to keep. -/
structure StepGood (s : ChannelState × Record) (req : ChannelReq) : Prop where
  inv : ChannelInv (trackedMachine.step s req).1
  defined : isDownlink req.type → (trackedMachine.step s req).2.isSome
  command : ∀ out buf, (trackedMachine.step s req).2 = some out → out.command = some buf →
    Dispatched (trackedMachine.step s req).1 buf

variable {s : ChannelState × Record} {req : ChannelReq}

theorem step_other (hinv : ChannelInv s) (hord : Orderly s req) (h : isSubpacket req = false) :
    StepGood s req := by
  obtain ⟨hdefined, hkeeps⟩ := process_other (s := s.1) h
  have hnote : ∀ s' out, note s.2 s.1 req s' out = s.2 := fun s' out ↦ by
    rw [note, h, if_neg Bool.false_ne_true]
  cases hrun : bleSessionChannelProcess s.1 req with
  | none =>
      have hstep : trackedMachine.step s req = ((s.1, s.2), none) := by
        simp only [trackedMachine, Mealy.observed, channelMachine, hrun, hnote]
      refine ⟨?_, fun hdown ↦ ?_, ?_⟩
      · rw [hstep]
        exact hinv
      · have hsome := hdefined hdown (hord.flags hdown)
        rw [hrun] at hsome
        cases hsome
      · rw [hstep]
        exact fun _ _ hout ↦ nomatch hout
  | some r =>
      obtain ⟨s', out⟩ := r
      obtain ⟨hdown, hcommand⟩ := hkeeps s' out hrun
      have hstep : trackedMachine.step s req = ((s', s.2), some out) := by
        simp only [trackedMachine, Mealy.observed, channelMachine, hrun, hnote]
      refine ⟨?_, ?_, ?_⟩
      · rw [hstep]
        refine ⟨?_, ?_, hinv.commands_le, ?_⟩
        · simpa only [hdown] using hinv.received_le
        · simpa only [hdown] using hinv.total_lt
        · simpa only [hdown] using hinv.buffer
      · rw [hstep]
        exact fun _ ↦ rfl
      · rw [hstep]
        intro out' buf hout hbuf
        obtain rfl := Option.some.inj hout
        rw [hcommand] at hbuf
        cases hbuf

/-- The record after a subpacket, with `count` commands before it. -/
def recordAfter (s : ChannelState × Record) (req : ChannelReq) (r : Downlink × ChannelOut)
    (count : ℕ) : ChannelState × Record :=
  (⟨r.1, s.1.up⟩, gather s.2.1 req.data, count + if r.2.command.isSome then 1 else 0)

theorem step_subpacket (h : isSubpacket req = true)
    (hrun : ∀ flag, ∃ r, recvSubpacket s.1.down req.data flag req.bufferMalloc req.ackMalloc =
        some r ∧
      ChannelInv (recordAfter s req r (if req.data.1[2]? = some 0 then 0 else s.2.2)) ∧
      ∀ buf, r.2.command = some buf →
        Dispatched (recordAfter s req r (if req.data.1[2]? = some 0 then 0 else s.2.2)) buf) :
    StepGood s req := by
  obtain ⟨flag, hprocess⟩ := process_subpacket s.1 h
  obtain ⟨r, hrecv, hinv, hcommand⟩ := hrun flag
  rw [hrecv, Option.map_some] at hprocess
  have hstep : trackedMachine.step s req =
      (recordAfter s req r (if req.data.1[2]? = some 0 then 0 else s.2.2), some r.2) := by
    simp only [trackedMachine, Mealy.observed, channelMachine, hprocess, note, h, if_true,
      Option.bind_some, recordAfter]
  refine ⟨?_, ?_, ?_⟩
  · rw [hstep]
    exact hinv
  · rw [hstep]
    exact fun _ ↦ rfl
  · rw [hstep]
    intro out buf hout hbuf
    obtain rfl := Option.some.inj hout
    exact hcommand buf hbuf

theorem step_first (hord : Orderly s req) (h : isSubpacket req = true)
    (hfirst : req.data.1[2]? = some 0) : StepGood s req := by
  obtain ⟨hnum, hparse⟩ := hord.first h hfirst
  apply step_subpacket h
  intro flag
  rw [if_pos hfirst]
  cases hmalloc : req.bufferMalloc with
  | false =>
      obtain ⟨⟨total, rest⟩, hdec⟩ := Option.isSome_iff_exists.mp hnum
      obtain ⟨offset, hoff, -, -⟩ := extractPacketLen_some hdec
      refine ⟨(⟨total, none, 0⟩, .nothing), ?_, ?_, fun _ hbuf ↦ nomatch hbuf⟩
      · simp only [recvSubpacket, hfirst, if_true, hoff]
      · exact ⟨Nat.zero_le _, Leb128.decode_lt hdec, Nat.zero_le 1, fun _ hb ↦ nomatch hb⟩
  | true =>
      obtain ⟨⟨total, payload⟩, hparse, hfit⟩ := hparse hmalloc
      refine ⟨_, recvSubpacket_first req.data.2 hfirst hparse hfit flag req.ackMalloc, ?_⟩
      have htotal : total < 2 ^ 28 := by
        unfold parseFirst at hparse
        split at hparse
        · next hdec =>
            cases hparse
            exact Leb128.decode_lt hdec
        · cases hparse
      have hlen : ((List.replicate total (0 : UInt8)).splice 0 payload).length = total := by
        rw [List.length_splice (by simpa using hfit), List.length_replicate]
      have htake : ((List.replicate total (0 : UInt8)).splice 0 payload).take payload.length =
          payload := by
        have hsplice := List.take_splice (Nat.zero_le (List.replicate total (0 : UInt8)).length)
          payload
        rwa [Nat.zero_add, List.take_zero, List.nil_append] at hsplice
      have hgather : gather s.2.1 req.data = some ⟨1, total, payload⟩ := by
        unfold gather
        rw [if_pos hfirst, hparse]
        rfl
      have hacked := acked_inv (d := ⟨total, some _, payload.length⟩) (g := ⟨1, total, payload⟩) rfl
        hlen rfl rfl htake hfit htotal s.1.up flag 0 payload.length req.ackMalloc
      simpa only [recordAfter, hgather, Nat.zero_add] using hacked

theorem step_later (hinv : ChannelInv s) (hord : Orderly s req) (h : isSubpacket req = true)
    (hlater : req.data.1[2]? ≠ some 0) : StepGood s req := by
  obtain ⟨hlong, hnext⟩ := hord.later h hlater
  obtain ⟨b, hb⟩ : ∃ b, req.data.1[2]? = some b := ⟨_, List.getElem?_eq_getElem hlong⟩
  have hne : b ≠ 0 := by
    rintro rfl
    exact hlater hb
  apply step_subpacket h
  intro flag
  rw [if_neg hlater]
  cases hbuffer : s.1.down.buffer with
  | none =>
      refine ⟨(s.1.down, .nothing), ?_, ?_, fun _ hbuf ↦ nomatch hbuf⟩
      · simp only [recvSubpacket, hb, if_neg hne, hbuffer]
      · refine ⟨hinv.received_le, hinv.total_lt, hinv.commands_le, fun b' hb' ↦ ?_⟩
        exact nomatch hbuffer.symm.trans hb'
  | some buffer =>
      obtain ⟨g, ⟨no, payload⟩, hg, hparse, hno, hmore, hfit⟩ := hnext (by rw [hbuffer]; rfl)
      obtain ⟨hlen, g', hg', htotal, hbytes, htake, hcount⟩ := hinv.buffer buffer hbuffer
      obtain rfl := Option.some.inj (hg.symm.trans hg')
      simp only at hno hfit
      have htl := hinv.total_lt
      refine ⟨_, recvSubpacket_later req.data.2 hb hne hbuffer hparse (by omega) (by omega) flag
        req.bufferMalloc req.ackMalloc, ?_⟩
      have hgather : gather s.2.1 req.data =
          some ⟨g.next + 1, g.total, g.bytes ++ payload⟩ := by
        simp only [gather, if_neg hlater, hg, hparse, if_pos hno]
      have hlen' : (buffer.splice s.1.down.receivedLen payload).length = s.1.down.totalLen := by
        rw [List.length_splice (by omega), hlen]
      have htake' : (buffer.splice s.1.down.receivedLen payload).take
          (s.1.down.receivedLen + payload.length) = g.bytes ++ payload := by
        rw [List.take_splice (by omega), htake]
      have hacked := acked_inv (d := ⟨s.1.down.totalLen, some _, _⟩)
        (g := ⟨g.next + 1, g.total, g.bytes ++ payload⟩) rfl hlen' htotal
        (by rw [List.length_append, hbytes]) htake' hfit htl s.1.up flag no payload.length
        req.ackMalloc
      simpa only [recordAfter, hgather, hcount hmore, Nat.zero_add] using hacked

theorem step_good (hinv : ChannelInv s) (hord : Orderly s req) : StepGood s req := by
  cases h : isSubpacket req with
  | false => exact step_other hinv hord h
  | true =>
      by_cases hfirst : req.data.1[2]? = some 0
      · exact step_first hord h hfirst
      · exact step_later hinv hord h hfirst

/-- What a packet does in a state: the lengths stay in order, every byte is
written inside the buffer, no second command follows the same first subpacket,
and a command is the whole buffer, gathered in order. -/
structure InOrder (s : ChannelState × Record) (req : ChannelReq) : Prop where
  received_le : (trackedMachine.step s req).1.1.down.receivedLen ≤
    (trackedMachine.step s req).1.1.down.totalLen
  defined : isDownlink req.type → (trackedMachine.step s req).2.isSome
  once : (trackedMachine.step s req).1.2.2 ≤ 1
  command : ∀ out buf, (trackedMachine.step s req).2 = some out → out.command = some buf →
    Dispatched (trackedMachine.step s req).1 buf

theorem StepGood.inOrder (h : StepGood s req) : InOrder s req :=
  ⟨h.inv.received_le, h.defined, h.inv.commands_le, h.command⟩

theorem channelInv_final {reqs : List ChannelReq}
    (h : trackedMachine.Guarded Orderly TrackedInit reqs) :
    ChannelInv (trackedMachine.final TrackedInit reqs) := by
  apply Mealy.inv_final trackedMachine ?_ channelInv_init h
  intro s req hinv hord
  exact (step_good hinv hord).inv

theorem channel_reassembles_in_order {reqs : List ChannelReq} {req : ChannelReq}
    (h : trackedMachine.Guarded Orderly TrackedInit (reqs ++ [req])) :
    InOrder (trackedMachine.final TrackedInit reqs) req := by
  obtain ⟨hrun, hlast⟩ := (trackedMachine.guarded_append Orderly TrackedInit reqs [req]).mp h
  apply StepGood.inOrder
  exact step_good (channelInv_final hrun) hlast.1

/-- A packet of the downlink, with memory for everything. -/
def downlinkReq (data : RawPacket) : ChannelReq :=
  ⟨frmDownlinkTransparentReq, data, true, true, true⟩

/-- A command of three bytes begins with two of them. -/
def firstOfTwo : ChannelReq := downlinkReq ⟨[0, 2, 0, 3, 0x40, 7, 8], by decide⟩

def secondOfTwo : ChannelReq := downlinkReq ⟨[0, 2, 1, 9], by decide⟩

theorem channel_reassembles_in_order_two :
    trackedMachine.Guarded Orderly TrackedInit ([firstOfTwo] ++ [secondOfTwo]) ∧
      (trackedMachine.step (trackedMachine.final TrackedInit [firstOfTwo]) secondOfTwo).2.bind
        ChannelOut.command = some [7, 8, 9] ∧
      InOrder (trackedMachine.final TrackedInit [firstOfTwo]) secondOfTwo := by
  have hrun : trackedMachine.Guarded Orderly TrackedInit ([firstOfTwo] ++ [secondOfTwo]) := by
    refine ⟨⟨fun _ ↦ by decide, fun _ _ ↦ ⟨by decide, fun _ ↦ ⟨(3, [7, 8]), by decide⟩⟩, ?_⟩,
      ⟨fun _ ↦ by decide, ?_, ?_⟩, trivial⟩
    · exact fun _ hlater ↦ absurd (show firstOfTwo.data.1[2]? = some 0 by decide) hlater
    · exact fun _ hfirst ↦ absurd hfirst (by decide)
    · exact fun _ _ ↦ ⟨by decide, fun _ ↦ ⟨⟨1, 3, [7, 8]⟩, (1, [9]), by decide⟩⟩
  exact ⟨hrun, by decide, channel_reassembles_in_order hrun⟩

/-- The number `2` follows the number `0`, and the command is dispatched. -/
theorem channel_not_reassembles_in_order :
    ¬ ∀ (reqs : List ChannelReq) (req : ChannelReq),
      InOrder (trackedMachine.final TrackedInit reqs) req := by
  intro h
  have hjump := h [firstOfTwo] (downlinkReq ⟨[0, 2, 2, 9], by decide⟩)
  have hlost : (trackedMachine.step (trackedMachine.final TrackedInit [firstOfTwo])
      (downlinkReq ⟨[0, 2, 2, 9], by decide⟩)).1.2.1 = none := by decide
  obtain ⟨-, g, hg, -⟩ := hjump.command _ [7, 8, 9] rfl (by decide)
  exact nomatch hlost.symm.trans hg

end TuyaOpen.Ble.Channel
