import TuyaOpen.Ai.Send

/-!
# Sending a message in chunks

`tuya_ai_basic_pkt_frag_send`: the caller cuts its message into chunks, each with the
business head in front, and the code finds out from an offset which fragment a chunk is.
There is one offset for each packet type; a writer has offsets of its own, but the
pointer to its offset is overwritten.
-/

namespace TuyaOpen.Ai

open Bytes

def aiPtVideo : UInt8 := 30
def aiPtAudio : UInt8 := 31
def aiPtImage : UInt8 := 32
def aiPtFile : UInt8 := 33
def aiPtText : UInt8 := 34

/-- The length of the business head of a type. -/
def bizHeadLen (type : UInt8) : ℕ :=
  if type = aiPtVideo then 23
  else if type = aiPtAudio then 23
  else if type = aiPtImage then 15
  else if type = aiPtFile then 7
  else if type = aiPtText then 7
  else 0

/-- `AI_SEND_PACKET_T` of a chunk.  Without a writer it goes to the cloud. -/
structure FragPacket where
  type : UInt8
  attrs : List AiAttribute
  data : List UInt8
  totalLen : ℕ
  writer : Option ℕ

/-- The connection, the offsets and the sequence numbers of the writers. -/
structure FragSender where
  proto : AiProtoOut
  sendFragMng : ℕ → ℕ
  writerSequence : ℕ → ℕ

def sendFragIdx (type : UInt8) : ℕ := (type - aiPtVideo).toNat

/-- There are five offsets; a type without one is written to outside of them. -/
def aiBasicResetSendFrag (s : FragSender) (type : UInt8) : Option FragSender :=
  if sendFragIdx type < 5 then
    some { s with sendFragMng := Function.update s.sendFragMng (sendFragIdx type) 0 }
  else none

/-- The offsets, the fragment flag and what is left of the data.  The index is checked
against the size of the offsets in bytes, and an index past the fifth reads outside of
them.  A chunk that overruns its total keeps the flag of a whole packet. -/
def aiBasicGetSendFrag (mng : ℕ → ℕ) (info : FragPacket) :
    Option ((ℕ → ℕ) × FragFlag × List UInt8) :=
  let idx := sendFragIdx info.type
  let headLen := bizHeadLen info.type
  let actualLen := u32 (info.data.length + (2 ^ 32 - headLen))
  let actualTotalLen := u32 (info.totalLen + (2 ^ 32 - headLen))
  if 20 ≤ idx then some (mng, .noFrag, info.data)
  else if 5 ≤ idx then none
  else if mng idx = 0 then some (Function.update mng idx actualLen, .start, info.data)
  else if u32 (mng idx + actualLen) ≤ actualTotalLen ∧ info.data.length < headLen then none
  else if u32 (mng idx + actualLen) = actualTotalLen then
    some (Function.update mng idx 0, .stop, info.data.drop headLen)
  else if u32 (mng idx + actualLen) < actualTotalLen then
    some (Function.update mng idx (u32 (mng idx + actualLen)), .ing, info.data.drop headLen)
  else some (Function.update mng idx 0, .noFrag, info.data)

/-! ## Packets with a writer -/

/-- What a chunk meets: whether the connection is up and the writer takes the bytes it has
in front of a packet, and what the packet meets. -/
structure FragEnv where
  connected : Bool
  preWrite : Bool
  write : WriteEnv

def writerHead (sequence : ℕ) (type : UInt8) (frag : FragFlag) : AiPacketHead where
  version := 1
  sequence := sequence
  ivFlag := aiIsNeedIv type true frag
  securityLevel := aiGetSl type true
  fragFlag := frag
  reserve := 0

/-- The packet of a fragment for a writer, which is not encrypted. -/
def aiWriterBuild (cfg : AiConfig) (c : AiCipher) (env : WriteEnv) (p : AiProtoOut) (sequence : ℕ)
    (type : UInt8) (attrs : List AiAttribute) (data : List UInt8) (frag : FragFlag)
    (originLen : ℕ) : Except Fault (List UInt8) :=
  let uncryptLen := aiGetSendPktLen type true attrs data.length frag
  if cfg.maxFragmentLength < uncryptLen then .error (.ret oprtComError)
  else if env.packetMem = false then .error (.ret oprtMallocFailed)
  else if env.payloadMem = false then .error (.ret oprtMallocFailed)
  else
    match aiPlainPayload type attrs data frag originLen with
    | .error e => .error e
    | .ok plain =>
        match aiEncryptPacket c p.cryptKey p.encryptIv (aiGetSl type true) plain with
        | .error e => .error (.ret e)
        | .ok payload =>
            let pkt := packetBytes c p.signKey (writerHead sequence type frag) p.encryptIv payload
            if uncryptLen < pkt.length then .error .undefined else .ok pkt

/-- `__ai_packet_write` to the cloud or to a writer: the packet, and the bytes that got
through. -/
def aiPacketWriteTo (cfg : AiConfig) (c : AiCipher) (env : FragEnv) (s : FragSender)
    (info : FragPacket) (data : List UInt8) (frag : FragFlag) :
    FragSender × Except Fault Unit × List UInt8 :=
  match info.writer with
  | none =>
      let r := aiPacketWrite cfg c env.write s.proto info.type info.attrs data frag info.totalLen
      ({ s with proto := r.proto }, r.ret, r.sent)
  | some w =>
      if env.preWrite = false then (s, .error (.ret oprtComError), [])
      else
        let s' := { s with
          writerSequence := Function.update s.writerSequence w (nextSequence (s.writerSequence w)) }
        match aiWriterBuild cfg c env.write s.proto (s.writerSequence w) info.type info.attrs data
          frag info.totalLen with
        | .error e => (s', .error e, [])
        | .ok pkt =>
            match env.write.failAfter with
            | some n => (s', .error (.ret oprtComError), pkt.take n)
            | none => (s', .ok (), pkt)

/-- How a call ends: the code, the data of the packet and the bytes that got through. -/
structure FragSent where
  ret : Except Fault Unit
  data : List UInt8
  sent : List UInt8

/-- The fragment flag and the data of the packet that was transmitted. -/
def FragSent.packet (r : FragSent) : Option (FragFlag × List UInt8) :=
  match r.ret with
  | .ok () => some (headFragFlag r.sent, r.data)
  | .error _ => none

def tuyaAiBasicPktFragSend (cfg : AiConfig) (c : AiCipher) (env : FragEnv) (s : FragSender)
    (info : FragPacket) : Option (FragSender × FragSent) :=
  if cfg.maxFragmentLength < info.data.length then
    some (s, ⟨.error (.ret oprtComError), [], []⟩)
  else if env.connected = false then
    (aiBasicResetSendFrag s info.type).map (·, ⟨.error (.ret oprtComError), [], []⟩)
  else
    match aiBasicGetSendFrag s.sendFragMng info with
    | none => none
    | some (mng, frag, data) =>
        match aiPacketWriteTo cfg c env { s with sendFragMng := mng } info data frag with
        | (s', .ok (), sent) => some (s', ⟨.ok (), data, sent⟩)
        | (s', .error e, sent) =>
            (aiBasicResetSendFrag s' info.type).map (·, ⟨.error e, data, sent⟩)

/-! ## Chunks that are sent -/

/-- The length of the attributes, which does not wrap around. -/
def attrSize (attrs : List AiAttribute) : ℕ :=
  if attrs = [] then 0 else 4 + (attrs.map fun a ↦ 7 + a.value.length).sum

theorem packAttrs_of_known {cap : ℕ} {attrs : List AiAttribute} {buf : List UInt8}
    (hknown : ∀ a ∈ attrs, a.value.wire ≠ none)
    (hcap : buf.length + (attrs.map fun a ↦ 7 + a.value.length).sum ≤ cap) :
    packAttrs cap attrs buf = .ok (buf ++ attrWire attrs) := by
  induction attrs generalizing buf with
  | nil => simp [packAttrs, attrWire]
  | cons a attrs ih =>
      obtain ⟨v, hv⟩ := Option.ne_none_iff_exists'.mp (hknown a List.mem_cons_self)
      have hlen := length_wire hv
      rw [List.map_cons, List.sum_cons] at hcap
      have hroom : ¬cap < buf.length + 7 + v.length := by omega
      have hnext : (buf ++ a.head ++ v).length + (attrs.map fun a ↦ 7 + a.value.length).sum ≤
          cap := by
        rw [List.length_append, List.length_append, length_head_attr]
        omega
      simp only [packAttrs, hv, if_neg hroom]
      rw [ih (fun b hb ↦ hknown b (List.mem_cons_of_mem a hb)) hnext]
      simp [attrWire, hv]

theorem aiPlainPayload_of_fits (type : UInt8) {attrs : List AiAttribute} {data : List UInt8}
    (frag : FragFlag) (len : ℕ) (hknown : ∀ a ∈ attrs, a.value.wire ≠ none)
    (hfits : 5 + attrSize attrs + data.length < 2 ^ 32) :
    ∃ plain, aiPlainPayload type attrs data frag len = .ok plain ∧
      plain.length = aiGetSendPayloadLen attrs data.length frag ∧
      plain.length ≤ 5 + attrSize attrs + data.length := by
  by_cases hfrag : tuyaAiIsNeedAttr frag = true
  · have hattr : aiGetSendAttrLen attrs = attrSize attrs := by
      rw [aiGetSendAttrLen, attrSize] at *
      split_ifs at * with hnil
      · rfl
      · exact u32_of_lt (by omega)
    have hpay : aiGetSendPayloadLen attrs data.length frag = 5 + attrSize attrs + data.length := by
      rw [aiGetSendPayloadLen, if_pos hfrag, hattr, u32_of_lt (by omega)]
      omega
    have hstart := length_payloadStart type attrs
    have hsize : (payloadStart type attrs).length +
        (attrs.map fun a ↦ 7 + a.value.length).sum = 1 + attrSize attrs := by
      rw [hstart, attrSize]
      split_ifs with hnil
      · simp [hnil]
      · omega
    have hpack : packAttrs (5 + attrSize attrs + data.length) attrs (payloadStart type attrs) =
        .ok (payloadStart type attrs ++ attrWire attrs) :=
      packAttrs_of_known hknown (by omega)
    obtain ⟨-, hwire⟩ := packAttrs_ok hpack
    have hlen : (payloadStart type attrs ++ attrWire attrs).length = 1 + attrSize attrs := by
      rw [List.length_append, hwire]
      exact hsize
    have hroom : ¬5 + attrSize attrs + data.length <
        (payloadStart type attrs ++ attrWire attrs).length + 4 + data.length := by omega
    refine ⟨payloadStart type attrs ++ attrWire attrs ++ encodeBE 4 len ++ data, ?_, ?_, ?_⟩
    · simp only [aiPlainPayload, hfrag, if_true, hpay, hpack, if_neg hroom]
    · rw [hpay, List.length_append, List.length_append, hlen, length_encodeBE]
      omega
    · rw [List.length_append, List.length_append, hlen, length_encodeBE]
      omega
  · have hoff : tuyaAiIsNeedAttr frag = false := by simpa using hfrag
    refine ⟨data, aiPlainPayload_tail hoff, ?_, by omega⟩
    rw [aiGetSendPayloadLen, if_neg hfrag, u32_of_lt (by omega)]

/-- Nothing stands in the way of a chunk: the connection is up, there is memory, the
transport takes the packet, and the packet is not too long. -/
structure Sendable (cfg : AiConfig) (env : FragEnv) (info : FragPacket) : Prop where
  connected : env.connected = true
  preWrite : env.preWrite = true
  packetMem : env.write.packetMem = true
  payloadMem : env.write.payloadMem = true
  transport : env.write.failAfter = none
  known : ∀ a ∈ info.attrs, a.value.wire ≠ none
  fits : 190 + attrSize info.attrs + info.data.length ≤ cfg.maxFragmentLength

/-- AES-GCM does not fail with the keys of the connection. -/
def Encrypts (c : AiCipher) (p : AiProtoOut) : Prop :=
  ∀ data, ∃ ct tag, c.encrypt p.cryptKey p.encryptIv data = .ok (ct, tag)

theorem aiHeadLen_le (iv : Bool) : aiHeadLen iv ≤ 25 := by
  cases iv <;> decide

theorem aiEncryptPacket_of_encrypts {c : AiCipher} (hc : c.Lawful) {p : AiProtoOut}
    (h : Encrypts c p) (sl : ℕ) (plain : List UInt8) :
    ∃ payload, aiEncryptPacket c p.cryptKey p.encryptIv sl plain = .ok payload ∧
      payload.length ≤ plain.length + if sl = aiPacketSl0 then 0 else 128 := by
  by_cases hsl : sl = aiPacketSl4
  · obtain ⟨ct, tag, hgcm⟩ := h (aiEncryptAddPkcs plain)
    have hct := hc.length_encrypt hgcm
    have htag := hc.length_tag hgcm
    rw [length_aiEncryptAddPkcs] at hct
    rw [aiGcmTagLen] at htag
    refine ⟨ct ++ tag, ?_, ?_⟩
    · rw [aiEncryptPacket, if_pos hsl, hgcm]
    · rw [List.length_append, hsl, if_neg (by decide)]
      omega
  · exact ⟨plain, by rw [aiEncryptPacket, if_neg hsl], Nat.le_add_right _ _⟩

theorem aiGetSendPktLen_of_fits {cfg : AiConfig} (type : UInt8) (writer : Bool)
    {attrs : List AiAttribute} {len : ℕ} {frag : FragFlag}
    (hfits : 190 + attrSize attrs + len ≤ cfg.maxFragmentLength)
    (hpay : aiGetSendPayloadLen attrs len frag ≤ 5 + attrSize attrs + len) :
    aiGetSendPktLen type writer attrs len frag =
      aiHeadLen (aiIsNeedIv type writer frag) + aiGetSendPayloadLen attrs len frag + 32 +
        (if aiGetSl type writer = aiPacketSl0 then 0 else 128) ∧
    aiGetSendPktLen type writer attrs len frag ≤ cfg.maxFragmentLength := by
  have hmax := cfg.max_le
  have hhead := aiHeadLen_le (aiIsNeedIv type writer frag)
  have hadd : (if aiGetSl type writer = aiPacketSl0 then 0 else aiAddPktLen) ≤ 128 := by
    split_ifs <;> simp [aiAddPktLen]
  have heq : aiGetSendPktLen type writer attrs len frag =
      aiHeadLen (aiIsNeedIv type writer frag) + aiGetSendPayloadLen attrs len frag + 32 +
        (if aiGetSl type writer = aiPacketSl0 then 0 else aiAddPktLen) := by
    rw [aiGetSendPktLen, aiSignLen]
    exact u32_of_lt (by omega)
  refine ⟨heq, ?_⟩
  rw [heq]
  omega

section Write

variable {cfg : AiConfig} {c : AiCipher} {env : FragEnv} {info : FragPacket} {p : AiProtoOut}
  {data : List UInt8}

theorem Sendable.encrypted (hc : c.Lawful) (h : Sendable cfg env info) (henc : Encrypts c p)
    (hdata : data.length ≤ info.data.length) (frag : FragFlag) (writer : Bool) :
    ∃ plain payload, aiPlainPayload info.type info.attrs data frag info.totalLen = .ok plain ∧
      aiEncryptPacket c p.cryptKey p.encryptIv (aiGetSl info.type writer) plain = .ok payload ∧
      aiGetSendPktLen info.type writer info.attrs data.length frag ≤ cfg.maxFragmentLength ∧
      aiHeadLen (aiIsNeedIv info.type writer frag) + (payload.length + aiSignLen) ≤
        aiGetSendPktLen info.type writer info.attrs data.length frag := by
  have hmax := cfg.max_le
  have hfits := h.fits
  have hsmall : 5 + attrSize info.attrs + data.length < 2 ^ 32 := by omega
  have hfit : 190 + attrSize info.attrs + data.length ≤ cfg.maxFragmentLength := by omega
  obtain ⟨plain, hplain, hlen, hle⟩ :=
    aiPlainPayload_of_fits info.type frag info.totalLen h.known hsmall
  obtain ⟨hpkt, hroom⟩ := aiGetSendPktLen_of_fits info.type writer hfit (hlen ▸ hle)
  obtain ⟨payload, hpayload, hsize⟩ :=
    aiEncryptPacket_of_encrypts hc henc (aiGetSl info.type writer) plain
  refine ⟨plain, payload, hplain, hpayload, hroom, ?_⟩
  rw [aiSignLen]
  omega

theorem Sendable.build (hc : c.Lawful) (h : Sendable cfg env info) (henc : Encrypts c p)
    (hdata : data.length ≤ info.data.length) (frag : FragFlag) :
    ∃ payload, aiPacketBuild cfg c env.write p info.type info.attrs data frag info.totalLen =
      .ok (packetBytes c p.signKey (writeHead p info.type frag) p.encryptIv payload) := by
  obtain ⟨plain, payload, hplain, hpayload, hroom, hsize⟩ := h.encrypted hc henc hdata frag false
  have hbytes : (packetBytes c p.signKey (writeHead p info.type frag) p.encryptIv payload).length =
      aiHeadLen (aiIsNeedIv info.type false frag) + (payload.length + aiSignLen) :=
    length_packetBytes hc p.iv_length
  refine ⟨payload, ?_⟩
  simp only [aiPacketBuild, if_neg (Nat.not_lt.mpr hroom), h.packetMem, h.payloadMem,
    Bool.true_eq_false, if_false, hplain, hpayload]
  rw [if_neg (by omega)]

theorem Sendable.writerBuild (hc : c.Lawful) (h : Sendable cfg env info) (henc : Encrypts c p)
    (hdata : data.length ≤ info.data.length) (frag : FragFlag) (sequence : ℕ) :
    ∃ payload, aiWriterBuild cfg c env.write p sequence info.type info.attrs data frag
        info.totalLen =
      .ok (packetBytes c p.signKey (writerHead sequence info.type frag) p.encryptIv payload) := by
  obtain ⟨plain, payload, hplain, hpayload, hroom, hsize⟩ := h.encrypted hc henc hdata frag true
  have hbytes : (packetBytes c p.signKey (writerHead sequence info.type frag) p.encryptIv
      payload).length = aiHeadLen (aiIsNeedIv info.type true frag) + (payload.length + aiSignLen) :=
    length_packetBytes hc p.iv_length
  refine ⟨payload, ?_⟩
  simp only [aiWriterBuild, if_neg (Nat.not_lt.mpr hroom), h.packetMem, h.payloadMem,
    Bool.true_eq_false, if_false, hplain, hpayload]
  rw [if_neg (by omega)]

theorem Sendable.write (hc : c.Lawful) (h : Sendable cfg env info) {s : FragSender}
    (henc : Encrypts c s.proto) (hdata : data.length ≤ info.data.length) (frag : FragFlag) :
    ∃ s' sent, aiPacketWriteTo cfg c env s info data frag = (s', .ok (), sent) ∧
      headFragFlag sent = frag ∧ s'.sendFragMng = s.sendFragMng ∧ Encrypts c s'.proto := by
  cases hwriter : info.writer with
  | none =>
      obtain ⟨payload, hbuild⟩ := h.build hc henc hdata frag
      refine ⟨{ s with proto := s.proto.advance },
        packetBytes c s.proto.signKey (writeHead s.proto info.type frag) s.proto.encryptIv payload,
        ?_, headFragFlag_packetBytes (writeHead_securityLevel_lt s.proto info.type frag), rfl,
        henc⟩
      simp only [aiPacketWriteTo, hwriter, aiPacketWrite, hbuild, h.transport]
  | some w =>
      obtain ⟨payload, hbuild⟩ := h.writerBuild hc henc hdata frag (s.writerSequence w)
      have hlevel : (writerHead (s.writerSequence w) info.type frag).securityLevel < 32 := by
        simp [writerHead, aiGetSl, aiPacketSl0]
      refine ⟨{ s with writerSequence :=
        Function.update s.writerSequence w (nextSequence (s.writerSequence w)) },
        packetBytes c s.proto.signKey (writerHead (s.writerSequence w) info.type frag)
          s.proto.encryptIv payload, ?_, headFragFlag_packetBytes hlevel, rfl, henc⟩
      simp only [aiPacketWriteTo, hwriter, h.preWrite, Bool.true_eq_false, if_false, hbuild,
        h.transport]

theorem Sendable.send (hc : c.Lawful) (h : Sendable cfg env info) {s : FragSender}
    (henc : Encrypts c s.proto) {mng : ℕ → ℕ} {frag : FragFlag}
    (hfrag : aiBasicGetSendFrag s.sendFragMng info = some (mng, frag, data))
    (hdata : data.length ≤ info.data.length) :
    ∃ s' r, tuyaAiBasicPktFragSend cfg c env s info = some (s', r) ∧
      r.packet = some (frag, data) ∧ s'.sendFragMng = mng ∧ Encrypts c s'.proto := by
  have hfits := h.fits
  have hshort : ¬cfg.maxFragmentLength < info.data.length := by omega
  obtain ⟨s', sent, hwrite, hflag, hmng, henc'⟩ :=
    h.write (s := { s with sendFragMng := mng }) hc henc hdata frag
  refine ⟨s', ⟨.ok (), data, sent⟩, ?_, ?_, hmng, henc'⟩
  · simp only [tuyaAiBasicPktFragSend, if_neg hshort, h.connected, Bool.true_eq_false, if_false,
      hfrag, hwrite]
  · rw [FragSent.packet, hflag]

end Write

end TuyaOpen.Ai
