import TuyaOpen.Ai.ClientHello
import TuyaOpen.Ai.Reject

/-!
# Send and read

The messages that arrive at a peer as they were sent.  The loop of
`tuya_ai_basic_pkt_send` writes nothing for a message without data, and its START packet
is refused when the message has fewer bytes of data than the packet has payload.
-/

namespace TuyaOpen.Ai

open Bytes ChunkStream

/-- NO_FRAG, or START, ING*, END. -/
def FlagsInOrder (flags : List FragFlag) : Prop :=
  flags = [.noFrag] ∨ ∃ n, flags = .start :: (List.replicate n .ing ++ [.stop])

/-- The packets written for a message are its packets, and any peer reads it from them. -/
structure RoundTrips (cfg : AiConfig) (c : AiCipher) (p : AiProtoOut) (info : AiSendPacket)
    (written : List (List UInt8)) : Prop where
  nonempty : written ≠ []
  small : ∀ pkt ∈ written, pkt.length ≤ cfg.maxFragmentLength
  flags : FlagsInOrder (written.map headFragFlag)
  received : ∀ r, Peer p r → ∀ es behind rest, Delivers es (written.flatten ++ rest) →
    ∃ r' es' ret, tuyaAiBasicPktRead cfg c plentyEnv r (es ++ behind) =
        some (r', es' ++ behind, ret) ∧
      ret.rc = oprtOk ∧ HandsOut r'.frag ret (message info) ∧ Delivers es' rest

section Tail

variable {cfg : AiConfig} {c : AiCipher} {type : UInt8} {p : AiProtoOut} {data : List UInt8}
  {pkts : List (List UInt8)}

theorem SealsTail.flags (h : SealsTail cfg c type p data pkts) :
    ∃ n, pkts.map headFragFlag = List.replicate n .ing ++ [.stop] := by
  induction h with
  | last hseals => exact ⟨0, by simp [hseals.fragFlag]⟩
  | more hseals _ ih =>
      obtain ⟨n, hn⟩ := ih
      exact ⟨n + 1, by rw [List.map_cons, hseals.fragFlag, hn, List.replicate_succ]; rfl⟩

theorem SealsTail.small (h : SealsTail cfg c type p data pkts) :
    ∀ pkt ∈ pkts, pkt.length ≤ cfg.maxFragmentLength := by
  induction h with
  | last hseals =>
      obtain ⟨_, -, -, hmax⟩ := hseals
      simpa using hmax
  | more hseals _ ih =>
      obtain ⟨_, -, -, hmax⟩ := hseals
      exact List.forall_mem_cons.mpr ⟨hmax, ih⟩

theorem Seals.length_pos (hc : c.Lawful) {frag : FragFlag} {plain pkt : List UInt8}
    (h : Seals cfg c p type frag plain pkt) : 0 < pkt.length := by
  obtain ⟨payload, -, rfl, -⟩ := h
  rw [length_packetBytes hc p.iv_length, aiSignLen]
  omega

theorem SealsTail.length_le (hc : c.Lawful) (h : SealsTail cfg c type p data pkts) :
    pkts.length ≤ pkts.flatten.length := by
  induction h with
  | last hseals =>
      rw [List.flatten_singleton]
      exact hseals.length_pos hc
  | more hseals _ ih =>
      have hpos := hseals.length_pos hc
      rw [List.length_cons, List.flatten_cons, List.length_append]
      omega

end Tail

section Message

variable {cfg : AiConfig} {c : AiCipher} {p : AiProtoOut} {info : AiSendPacket}

theorem Seals.roundTrips (hc : c.Lawful) (htype : info.type ≠ aiPtClientHello) {pkt : List UInt8}
    (h : Seals cfg c p info.type .noFrag (message info) pkt) :
    RoundTrips cfg c p info [pkt] where
  nonempty := List.cons_ne_nil _ _
  small := by
    obtain ⟨_, -, -, hmax⟩ := h
    simpa using hmax
  flags := .inl (by rw [List.map_singleton, h.fragFlag])
  received := by
    intro r hr es behind rest hes
    rw [List.flatten_singleton] at hes
    exact h.receives hc htype hr hes behind

theorem Fragmented.roundTrips (hc : c.Lawful) (htype : info.type ≠ aiPtClientHello) {n : ℕ}
    {pkt : List UInt8} {pkts : List (List UInt8)} (h : Fragmented cfg c p info n pkt pkts)
    (hlong : cfg.maxFragmentLength < info.data.length + 256) :
    RoundTrips cfg c p info (pkt :: pkts) where
  nonempty := List.cons_ne_nil _ _
  small := by
    obtain ⟨_, -, -, hmax⟩ := h.start
    exact List.forall_mem_cons.mpr ⟨hmax, h.tail.small⟩
  flags := by
    obtain ⟨k, hk⟩ := h.tail.flags
    exact .inr ⟨k, by rw [List.map_cons, h.start.fragFlag, hk]⟩
  received := by
    intro r hr es behind rest hes
    have hfuel : pkts.length ≤ ((es ++ behind).map Event.weight).sum := by
      have hbytes := hes.length_le
      have hpkts := h.tail.length_le hc
      rw [List.map_append, List.sum_append]
      rw [List.flatten_cons, List.length_append, List.length_append] at hbytes
      omega
    rw [List.flatten_cons, List.append_assoc] at hes
    exact h.receives hc htype hlong hr hfuel hes behind

/-- A peer that has just connected. -/
def AiProtoOut.peer (p : AiProtoOut) : AiReader where
  proto := ⟨p.cryptKey, p.signKey, p.encryptIv, 0⟩
  frag := ⟨.zero, ⟨0, fun _ ↦ none⟩⟩
  fragFlag := false

theorem AiProtoOut.peer_ok (p : AiProtoOut) : Peer p p.peer :=
  ⟨rfl, ⟨rfl, rfl, p.sequence_pos⟩, idle_zero _⟩

theorem RoundTrips.receives {written : List (List UInt8)} (h : RoundTrips cfg c p info written)
    (hwritten : written.flatten ≠ []) :
    ∃ fuel, Receives cfg c (fuel + 1) p.peer [.chunk written.flatten] [] (message info) [] := by
  have hes : Delivers [.chunk written.flatten] (written.flatten ++ []) := .cons hwritten .nil
  exact ⟨_, h.received _ p.peer_ok [.chunk written.flatten] [] [] hes⟩

/-- A message that was sent arrives exactly when it is not a CLIENT_HELLO and either fits
one packet or has more data than the first packet has payload. -/
theorem send_round_trips_iff (hc : c.Lawful) {env : ℕ → WriteEnv} {fuel : ℕ} {r : SendResult}
    (h : tuyaAiBasicPktSend cfg c env fuel p info = some r) (hok : r.ret = .ok ()) :
    RoundTrips cfg c p info r.written ↔
      info.type ≠ aiPtClientHello ∧
        (190 + aiGetSendAttrLen info.attrs + info.data.length ≤ cfg.maxFragmentLength ∨
          cfg.maxFragmentLength < info.data.length + 256) := by
  have hmin := cfg.le_max
  have hover : info.type ≠ aiPtClientHello → overhead info.type = 190 := fun h ↦ if_neg h
  rcases tuyaAiBasicPktSend_ok hc h hok with ⟨pkt, hwritten, hseals, -, hfit⟩ |
    ⟨hwritten, hdata, hlong⟩ | ⟨n, pkt, pkts, hwritten, hfrags⟩
  · rw [hwritten]
    constructor
    · intro htrip
      have htype : info.type ≠ aiPtClientHello := by
        intro htype
        have hpos := hseals.length_pos hc
        obtain ⟨fuel', hreceives⟩ := htrip.receives (by
          rw [List.flatten_singleton]
          exact List.ne_nil_of_length_pos hpos)
        rw [htype] at hseals
        exact hseals.hello_lost hc p.peer_ok (.cons (List.ne_nil_of_length_pos hpos) .nil)
          (by simpa using hreceives)
      rw [hover htype] at hfit
      exact ⟨htype, .inl hfit⟩
    · rintro ⟨htype, -⟩
      exact hseals.roundTrips hc htype
  · constructor
    · intro htrip
      exact absurd hwritten htrip.nonempty
    · rintro ⟨htype, hcond⟩
      rw [hover htype] at hlong
      rw [hdata, List.length_nil] at hcond
      omega
  · have hlong := hfrags.long
    rw [hwritten]
    constructor
    · intro htrip
      have hpos := hfrags.start.length_pos hc
      have hne : (pkt :: pkts).flatten ≠ [] := by
        rw [List.flatten_cons]
        exact List.append_ne_nil_of_left_ne_nil (List.ne_nil_of_length_pos hpos) _
      have hes : Delivers [.chunk (pkt :: pkts).flatten] (pkt ++ (pkts.flatten ++ [])) := by
        rw [List.append_nil]
        simpa using Delivers.cons hne .nil
      obtain ⟨fuel', hreceives⟩ := htrip.receives hne
      have htype : info.type ≠ aiPtClientHello := fun htype ↦
        hfrags.hello_lost hc htype p.peer_ok hes hreceives
      refine ⟨htype, .inr ?_⟩
      by_contra hshort
      exact hfrags.refused hc htype (Nat.not_lt.mp hshort) p.peer_ok hes [] hreceives
    · rintro ⟨htype, hcond⟩
      rw [hover htype] at hlong
      exact hfrags.roundTrips hc htype (by omega)

end Message

/-! ## Two messages -/

def pingMessage : AiSendPacket :=
  ⟨4, [⟨11, .u8 1, pingAttr_lt⟩], [1, 2, 3], by decide, by decide⟩

def plentyWrite : ℕ → WriteEnv := fun _ ↦ ⟨true, true, none⟩

/-- A PING packet arrives. -/
theorem send_round_trips_ping : ∃ r : SendResult,
    tuyaAiBasicPktSend sampleConfig sampleValues.cipher plentyWrite 1 readyProto pingMessage =
      some r ∧
    r.ret = .ok () ∧
    RoundTrips sampleConfig sampleValues.cipher readyProto pingMessage r.written := by
  have hlawful : sampleValues.cipher.Lawful := sampleValues.lawful rfl rfl (by decide)
  have hret : (tuyaAiBasicPktSend sampleConfig sampleValues.cipher plentyWrite 1 readyProto
      pingMessage).map (fun r ↦ decide (r.ret = .ok ())) = some true := by decide +kernel
  obtain ⟨r, hsend, hok⟩ := Option.map_eq_some_iff.mp hret
  have hok := of_decide_eq_true hok
  exact ⟨r, hsend, hok, (send_round_trips_iff hlawful hsend hok).mpr
    ⟨by decide, .inl (by decide)⟩⟩

def longAttr : AiAttribute where
  type := 11
  value := .bytes (List.replicate 10100 0)
  length_lt := by
    rw [AttrValue.length, List.length_replicate]
    decide

/-- A message without data whose attributes fill the packet. -/
def attrMessage : AiSendPacket := ⟨4, [longAttr], [], by decide, by decide⟩

/-- It is sent with success, and nothing is written. -/
theorem empty_data_not_written : ∃ r : SendResult,
    tuyaAiBasicPktSend sampleConfig sampleValues.cipher plentyWrite 1 readyProto attrMessage =
      some r ∧
    r.ret = .ok () ∧ r.written = [] ∧
    ¬RoundTrips sampleConfig sampleValues.cipher readyProto attrMessage r.written := by
  have hattr : longAttr.value.length = 10100 := List.length_replicate
  have hlen : aiGetSendAttrLen attrMessage.attrs = 10111 := by
    simp [aiGetSendAttrLen, attrMessage, hattr, u32]
  have hlong : ¬aiGetSendPktLen attrMessage.type false attrMessage.attrs attrMessage.data.length
      .noFrag ≤ sampleConfig.maxFragmentLength := by
    rw [aiGetSendPktLen_attr rfl, aiGetSendPayloadLen, hlen]
    decide
  refine ⟨⟨readyProto, .ok (), []⟩, ?_, rfl, rfl, fun h ↦ h.nonempty rfl⟩
  rw [tuyaAiBasicPktSend, if_neg (by decide), if_neg hlong, sendLoop, if_neg (by decide)]

end TuyaOpen.Ai
