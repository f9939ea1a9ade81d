import TuyaOpen.Ai.Sealed

/-!
# Sending a message

`tuya_ai_basic_pkt_send`: a message that fits one packet is sent in one, else a START
packet with the attributes, ING packets and an END packet.  The room for data in a
fragment is computed from other constants than the length of a packet.
-/

namespace TuyaOpen.Ai

open Bytes

structure SendResult where
  proto : AiProtoOut
  ret : Except Fault Unit
  written : List (List UInt8)

def minPktLen : ℕ := aiPacketHeadLen + 2 * aiAddPktLen

/-- The room for data at an offset; with too many attributes it wraps around. -/
def onePacketLen (cfg : AiConfig) (attrs : List AiAttribute) (offset : ℕ) : ℕ :=
  if offset = 0 then
    u32 (cfg.maxFragmentLength - minPktLen + (2 ^ 32 - aiGetSendAttrLen attrs))
  else cfg.maxFragmentLength - minPktLen

def fragLen (cfg : AiConfig) (info : AiSendPacket) (offset : ℕ) : ℕ :=
  if onePacketLen cfg info.attrs offset < info.data.length - offset then
    onePacketLen cfg info.attrs offset
  else info.data.length - offset

def sendFrag (cfg : AiConfig) (info : AiSendPacket) (offset : ℕ) : FragFlag :=
  if offset = 0 then .start
  else if offset + fragLen cfg info offset = info.data.length then .stop else .ing

/-- The loop over the fragments.  `k` counts the packets, and without a result it went on
for longer than `fuel`. -/
@[grind =] def sendLoop (cfg : AiConfig) (c : AiCipher) (env : ℕ → WriteEnv) (info : AiSendPacket) :
    ℕ → AiProtoOut → ℕ → ℕ → List (List UInt8) → Option SendResult
  | 0, _, _, _, _ => none
  | fuel + 1, p, offset, k, written =>
    if offset < info.data.length then
      let r := aiPacketWrite cfg c (env k) p info.type info.attrs
        ((info.data.drop offset).take (fragLen cfg info offset)) (sendFrag cfg info offset)
        info.data.length
      match r.ret with
      | .error e => some ⟨r.proto, .error e, written ++ [r.sent]⟩
      | .ok () =>
          sendLoop cfg c env info fuel r.proto (offset + fragLen cfg info offset) (k + 1)
            (written ++ [r.sent])
    else some ⟨p, .ok (), written⟩

def tuyaAiBasicPktSend (cfg : AiConfig) (c : AiCipher) (env : ℕ → WriteEnv) (fuel : ℕ)
    (p : AiProtoOut) (info : AiSendPacket) : Option SendResult :=
  if p.connected = false then some ⟨p, .error (.ret oprtComError), []⟩
  else if aiGetSendPktLen info.type false info.attrs info.data.length .noFrag ≤
      cfg.maxFragmentLength then
    let r := aiPacketWrite cfg c (env 0) p info.type info.attrs info.data .noFrag info.data.length
    some ⟨r.proto, r.ret, [r.sent]⟩
  else sendLoop cfg c env info fuel p 0 0 []

/-! ## What is written -/

def attrWire (attrs : List AiAttribute) : List UInt8 :=
  attrs.flatMap fun a ↦ a.head ++ a.value.wire.getD []

/-- Payload head, attribute block and length of a message. -/
def messageHead (type : UInt8) (attrs : List AiAttribute) (len : ℕ) : List UInt8 :=
  payloadStart type attrs ++ attrWire attrs ++ encodeBE 4 len

def message (info : AiSendPacket) : List UInt8 :=
  messageHead info.type info.attrs info.data.length ++ info.data

/-- `pkt` carries `plain` in the state `p`. -/
def Seals (cfg : AiConfig) (c : AiCipher) (p : AiProtoOut) (type : UInt8) (frag : FragFlag)
    (plain pkt : List UInt8) : Prop :=
  ∃ payload, aiEncryptPacket c p.cryptKey p.encryptIv (aiGetSl type false) plain = .ok payload ∧
    pkt = packetBytes c p.signKey (writeHead p type frag) p.encryptIv payload ∧
    pkt.length ≤ cfg.maxFragmentLength

/-- The packets behind a START packet carry these data. -/
inductive SealsTail (cfg : AiConfig) (c : AiCipher) (type : UInt8) :
    AiProtoOut → List UInt8 → List (List UInt8) → Prop where
  | last {p : AiProtoOut} {data pkt : List UInt8} :
      Seals cfg c p type .stop data pkt → SealsTail cfg c type p data [pkt]
  | more {p : AiProtoOut} {data rest pkt : List UInt8} {pkts : List (List UInt8)} :
      Seals cfg c p type .ing data pkt → SealsTail cfg c type p.advance rest pkts →
      SealsTail cfg c type p (data ++ rest) (pkt :: pkts)

theorem length_head_attr (a : AiAttribute) : a.head.length = 7 := by
  simp [AiAttribute.head]

theorem length_wire {v : AttrValue} {bs : List UInt8} (h : v.wire = some bs) :
    bs.length = v.length := by
  cases v with
  | other payloadType length => cases h
  | _ =>
      cases h
      simp [AttrValue.length]

theorem packAttrs_ok {cap : ℕ} {attrs : List AiAttribute} {buf out : List UInt8}
    (h : packAttrs cap attrs buf = .ok out) :
    out = buf ++ attrWire attrs ∧
      (attrWire attrs).length = (attrs.map fun a ↦ 7 + a.value.length).sum := by
  induction attrs generalizing buf with
  | nil =>
      cases h
      simp [attrWire]
  | cons a attrs ih =>
      rw [packAttrs] at h
      cases hwire : a.value.wire with
      | none =>
          simp only [hwire] at h
          split_ifs at h
      | some v =>
          simp only [hwire] at h
          split_ifs at h
          obtain ⟨hout, hlen⟩ := ih h
          have hcons : attrWire (a :: attrs) = a.head ++ v ++ attrWire attrs := by
            simp [attrWire, hwire]
          refine ⟨by rw [hout, hcons]; simp, ?_⟩
          rw [hcons, List.length_append, List.length_append, length_head_attr, length_wire hwire,
            hlen, List.map_cons, List.sum_cons]

theorem length_payloadStart (type : UInt8) (attrs : List AiAttribute) :
    (payloadStart type attrs).length = 1 + if attrs = [] then 0 else 4 := by
  rw [payloadStart]
  split_ifs <;> simp

theorem aiPlainPayload_ok {type : UInt8} {attrs : List AiAttribute} {data plain : List UInt8}
    {frag : FragFlag} {len : ℕ} (hfrag : tuyaAiIsNeedAttr frag = true)
    (h : aiPlainPayload type attrs data frag len = .ok plain) :
    plain = messageHead type attrs len ++ data ∧
      (messageHead type attrs len).length = 5 + aiGetSendAttrLen attrs ∧
      aiGetSendPayloadLen attrs data.length frag = 5 + aiGetSendAttrLen attrs + data.length ∧
      5 + aiGetSendAttrLen attrs + data.length < 2 ^ 32 := by
  simp only [aiPlainPayload, hfrag, if_true] at h
  split at h
  · cases h
  rename_i buf hpack
  split_ifs at h with hroom
  obtain ⟨rfl, hwire⟩ := packAttrs_ok hpack
  have hstart := length_payloadStart type attrs
  have hbuf : (payloadStart type attrs ++ attrWire attrs).length =
      (payloadStart type attrs).length + (attrWire attrs).length := List.length_append
  have hhead : (messageHead type attrs len).length =
      (payloadStart type attrs).length + (attrWire attrs).length + 4 := by
    rw [messageHead, List.length_append, hbuf, length_encodeBE]
  have hattr : aiGetSendAttrLen attrs ≤
      (if attrs = [] then 0 else 4) + (attrWire attrs).length := by
    rw [aiGetSendAttrLen, hwire]
    split_ifs
    · exact Nat.zero_le _
    · exact Nat.mod_le _ _
  have hlen : aiGetSendPayloadLen attrs data.length frag =
      u32 (1 + aiGetSendAttrLen attrs + 4 + data.length) := by
    rw [aiGetSendPayloadLen, if_pos hfrag]
  have hle : u32 (1 + aiGetSendAttrLen attrs + 4 + data.length) ≤
      1 + aiGetSendAttrLen attrs + 4 + data.length := Nat.mod_le _ _
  have hlt : u32 (1 + aiGetSendAttrLen attrs + 4 + data.length) < 2 ^ 32 :=
    Nat.mod_lt _ (by norm_num)
  rw [hlen] at hroom ⊢
  refine ⟨?_, by omega, by omega, by omega⟩
  rw [← Except.ok.inj h, messageHead]

section Write

variable {cfg : AiConfig} {c : AiCipher} {env : WriteEnv} {p : AiProtoOut} {type : UInt8}
  {attrs : List AiAttribute} {data : List UInt8} {frag : FragFlag} {len : ℕ}

theorem aiPacketWrite_proto :
    (aiPacketWrite cfg c env p type attrs data frag len).proto = p.advance := by
  rw [aiPacketWrite]
  split
  · rfl
  · split <;> rfl

theorem aiPacketWrite_ok (h : (aiPacketWrite cfg c env p type attrs data frag len).ret = .ok ()) :
    ∃ plain, aiPlainPayload type attrs data frag len = .ok plain ∧
      Seals cfg c p type frag plain (aiPacketWrite cfg c env p type attrs data frag len).sent ∧
      (aiPacketWrite cfg c env p type attrs data frag len).sent.length ≤
        aiGetSendPktLen type false attrs data.length frag ∧
      aiGetSendPktLen type false attrs data.length frag ≤ cfg.maxFragmentLength := by
  cases hbuild : aiPacketBuild cfg c env p type attrs data frag len with
  | error e =>
      simp only [aiPacketWrite, hbuild] at h
      cases h
  | ok pkt =>
      cases hfail : env.failAfter with
      | some n =>
          simp only [aiPacketWrite, hbuild, hfail] at h
          cases h
      | none =>
          have hsent : (aiPacketWrite cfg c env p type attrs data frag len).sent = pkt := by
            simp only [aiPacketWrite, hbuild, hfail]
          rw [hsent]
          simp only [aiPacketBuild] at hbuild
          split_ifs at hbuild with hlong hmem hmem'
          split at hbuild
          · cases hbuild
          rename_i plain hplain
          split at hbuild
          · cases hbuild
          rename_i payload henc
          split_ifs at hbuild with hroom
          obtain rfl := Except.ok.inj hbuild
          exact ⟨plain, hplain, ⟨payload, henc, rfl, by omega⟩, by omega, by omega⟩

end Write

theorem length_aiEncryptPacket {c : AiCipher} (hc : c.Lawful) {key iv plain payload : List UInt8}
    {sl : ℕ} (h : aiEncryptPacket c key iv sl plain = .ok payload) :
    plain.length ≤ payload.length := by
  rw [aiEncryptPacket] at h
  split_ifs at h
  · split at h
    · cases h
    · rename_i ct tag henc
      have hct := hc.length_encrypt henc
      rw [length_aiEncryptAddPkcs] at hct
      rw [← Except.ok.inj h, List.length_append]
      omega
  · rw [← Except.ok.inj h]

theorem writeHead_securityLevel_lt (p : AiProtoOut) (type : UInt8) (frag : FragFlag) :
    (writeHead p type frag).securityLevel < 32 := by
  simp only [writeHead, aiGetSl]
  split_ifs <;> decide

theorem Seals.fragFlag {cfg : AiConfig} {c : AiCipher} {p : AiProtoOut} {type : UInt8}
    {frag : FragFlag} {plain pkt : List UInt8} (h : Seals cfg c p type frag plain pkt) :
    headFragFlag pkt = frag := by
  obtain ⟨payload, -, rfl, -⟩ := h
  exact headFragFlag_packetBytes (writeHead_securityLevel_lt p type frag)

theorem Seals.length_le {cfg : AiConfig} {c : AiCipher} (hc : c.Lawful) {p : AiProtoOut}
    {type : UInt8} {frag : FragFlag} {plain pkt : List UInt8}
    (h : Seals cfg c p type frag plain pkt) : plain.length ≤ pkt.length := by
  obtain ⟨payload, henc, rfl, -⟩ := h
  have hlen := length_aiEncryptPacket hc henc
  rw [length_packetBytes hc p.iv_length]
  omega

/-- What a packet with attributes takes besides attributes and data, as the code computes
it. -/
def overhead (type : UInt8) : ℕ := if type = aiPtClientHello then 46 else 190

theorem aiGetSendPktLen_attr {frag : FragFlag} (hfrag : tuyaAiIsNeedAttr frag = true)
    (type : UInt8) (attrs : List AiAttribute) (len : ℕ) :
    aiGetSendPktLen type false attrs len frag =
      u32 (overhead type - 5 + aiGetSendPayloadLen attrs len frag) := by
  have hflag : ¬(frag = .ing ∨ frag = .stop) := by
    cases frag <;> first | decide | exact absurd hfrag (by decide)
  rw [aiGetSendPktLen, overhead]
  by_cases htype : type = aiPtClientHello
  · simp [aiIsNeedIv, aiGetSl, htype, aiHeadLen, aiPacketHeadLen, aiSignLen]
    congr 1
    omega
  · simp [aiIsNeedIv, aiGetSl, htype, hflag, aiHeadLen, aiPacketHeadLen, aiSignLen, aiIvLen,
      aiAddPktLen, aiPacketSl0, aiPacketSl4]
    congr 1
    omega

theorem overhead_le_of_write {cfg : AiConfig} {c : AiCipher} (hc : c.Lawful) {env : WriteEnv}
    {p : AiProtoOut} {type : UInt8} {attrs : List AiAttribute} {data : List UInt8}
    {frag : FragFlag} {len : ℕ} (hfrag : tuyaAiIsNeedAttr frag = true)
    (h : (aiPacketWrite cfg c env p type attrs data frag len).ret = .ok ()) :
    overhead type + aiGetSendAttrLen attrs + data.length ≤ cfg.maxFragmentLength := by
  obtain ⟨plain, hplain, hseals, hroom, hmax⟩ := aiPacketWrite_ok h
  obtain ⟨rfl, hhead, hpay, hlt⟩ := aiPlainPayload_ok hfrag hplain
  have hlen := hseals.length_le hc
  have hover : 46 ≤ overhead type ∧ overhead type ≤ 190 := by
    rw [overhead]
    split_ifs <;> omega
  rw [aiGetSendPktLen_attr hfrag, hpay, u32] at hroom hmax
  rw [List.length_append] at hlen
  omega

/-! ## The fragments -/

section Fragments

variable {cfg : AiConfig} {c : AiCipher} {env : ℕ → WriteEnv} {info : AiSendPacket}

theorem sendLoop_succ {fuel offset k : ℕ} {p : AiProtoOut} {written : List (List UInt8)}
    {r : SendResult} (hoff : offset < info.data.length)
    (h : sendLoop cfg c env info (fuel + 1) p offset k written = some r) (hok : r.ret = .ok ()) :
    ∃ env' pkt, pkt = (aiPacketWrite cfg c env' p info.type info.attrs
        ((info.data.drop offset).take (fragLen cfg info offset)) (sendFrag cfg info offset)
        info.data.length).sent ∧
      (aiPacketWrite cfg c env' p info.type info.attrs
        ((info.data.drop offset).take (fragLen cfg info offset)) (sendFrag cfg info offset)
        info.data.length).ret = .ok () ∧
      sendLoop cfg c env info fuel p.advance (offset + fragLen cfg info offset) (k + 1)
        (written ++ [pkt]) = some r := by
  simp only [sendLoop, if_pos hoff, aiPacketWrite_proto] at h
  split at h
  · rw [← Option.some.inj h] at hok
    cases hok
  · rename_i hret
    exact ⟨env k, _, rfl, hret, h⟩

theorem fragLen_pos {offset : ℕ} (hpos : 0 < offset) (hoff : offset < info.data.length) :
    0 < fragLen cfg info offset ∧ offset + fragLen cfg info offset ≤ info.data.length := by
  have hmin := cfg.le_max
  rw [fragLen, onePacketLen, if_neg (Nat.pos_iff_ne_zero.mp hpos), minPktLen, aiPacketHeadLen,
    aiAddPktLen]
  split_ifs <;> omega

theorem aiPlainPayload_tail {type : UInt8} {attrs : List AiAttribute} {data : List UInt8}
    {frag : FragFlag} {len : ℕ} (hfrag : tuyaAiIsNeedAttr frag = false) :
    aiPlainPayload type attrs data frag len = .ok data := by
  simp [aiPlainPayload, hfrag]

theorem sendLoop_tail {fuel offset k : ℕ} {p : AiProtoOut} {written : List (List UInt8)}
    {r : SendResult} (hpos : 0 < offset) (hoff : offset < info.data.length)
    (h : sendLoop cfg c env info fuel p offset k written = some r) (hok : r.ret = .ok ()) :
    ∃ pkts, r.written = written ++ pkts ∧
      SealsTail cfg c info.type p (info.data.drop offset) pkts := by
  induction fuel generalizing p offset k written with
  | zero => cases h
  | succ fuel ih =>
      obtain ⟨env', pkt, hpkt, hwrite, hrest⟩ := sendLoop_succ hoff h hok
      obtain ⟨hlen, hle⟩ : 0 < fragLen cfg info offset ∧
        offset + fragLen cfg info offset ≤ info.data.length := fragLen_pos hpos hoff
      set n := fragLen cfg info offset with hn
      obtain ⟨plain, hplain, hseals, -⟩ := aiPacketWrite_ok hwrite
      rw [← hpkt] at hseals
      by_cases hend : offset + n = info.data.length
      · have hfrag : sendFrag cfg info offset = .stop := by
          rw [sendFrag, if_neg (Nat.pos_iff_ne_zero.mp hpos), ← hn, if_pos hend]
        rw [hfrag] at hplain hseals
        rw [aiPlainPayload_tail rfl] at hplain
        obtain rfl := Except.ok.inj hplain
        refine ⟨[pkt], ?_, ?_⟩
        · cases fuel with
          | zero => cases hrest
          | succ fuel =>
              rw [sendLoop, if_neg (by omega)] at hrest
              rw [← Option.some.inj hrest]
        · have hall : (info.data.drop offset).take n = info.data.drop offset := by
            apply List.take_of_length_le
            rw [List.length_drop]
            omega
          rw [hall] at hseals
          exact .last hseals
      · have hfrag : sendFrag cfg info offset = .ing := by
          rw [sendFrag, if_neg (Nat.pos_iff_ne_zero.mp hpos), ← hn, if_neg hend]
        rw [hfrag] at hplain hseals
        rw [aiPlainPayload_tail rfl] at hplain
        obtain rfl := Except.ok.inj hplain
        obtain ⟨pkts, hwritten, htail⟩ := ih (by omega) (by omega) hrest
        refine ⟨pkt :: pkts, by rw [hwritten, List.append_assoc, List.singleton_append], ?_⟩
        rw [← List.take_append_drop n (info.data.drop offset), List.drop_drop]
        exact .more hseals htail

theorem start_room (hdata : 0 < info.data.length)
    (hlong : cfg.maxFragmentLength <
      aiGetSendPktLen info.type false info.attrs info.data.length .noFrag)
    (hfit : overhead info.type + aiGetSendAttrLen info.attrs +
      ((info.data.drop 0).take (fragLen cfg info 0)).length ≤ cfg.maxFragmentLength) :
    aiGetSendAttrLen info.attrs ≤ cfg.maxFragmentLength - 261 ∧
      fragLen cfg info 0 = cfg.maxFragmentLength - 261 - aiGetSendAttrLen info.attrs ∧
      fragLen cfg info 0 < info.data.length ∧
      overhead info.type + aiGetSendAttrLen info.attrs + info.data.length < 2 ^ 32 ∧
      cfg.maxFragmentLength <
        overhead info.type + aiGetSendAttrLen info.attrs + info.data.length := by
  have hmin := cfg.le_max
  have hmax := cfg.max_le
  have hlt := info.data_lt
  have hover : 46 ≤ overhead info.type ∧ overhead info.type ≤ 190 := by
    rw [overhead]
    split_ifs <;> omega
  have hneed : tuyaAiIsNeedAttr .noFrag = true := rfl
  rw [aiGetSendPktLen_attr hneed, aiGetSendPayloadLen, if_pos hneed, u32, u32] at hlong
  rw [List.drop_zero, List.length_take] at hfit
  have hroom : fragLen cfg info 0 = min (onePacketLen cfg info.attrs 0) info.data.length := by
    rw [fragLen, Nat.sub_zero]
    split_ifs <;> omega
  have hone : onePacketLen cfg info.attrs 0 =
      (cfg.maxFragmentLength - 261 + (2 ^ 32 - aiGetSendAttrLen info.attrs)) % 2 ^ 32 := by
    rw [onePacketLen, if_pos rfl, u32, minPktLen, aiPacketHeadLen, aiAddPktLen]
  generalize fragLen cfg info 0 = n at *
  generalize onePacketLen cfg info.attrs 0 = m at *
  subst hone
  omega

/-- The fragments of a message: a START packet that is not the last, and the rest. -/
structure Fragmented (cfg : AiConfig) (c : AiCipher) (p : AiProtoOut) (info : AiSendPacket)
    (n : ℕ) (pkt : List UInt8) (pkts : List (List UInt8)) : Prop where
  room : n + aiGetSendAttrLen info.attrs + 261 = cfg.maxFragmentLength
  pos : 0 < n
  lt : n < info.data.length
  small : overhead info.type + aiGetSendAttrLen info.attrs + info.data.length < 2 ^ 32
  long : cfg.maxFragmentLength <
    overhead info.type + aiGetSendAttrLen info.attrs + info.data.length
  head : (messageHead info.type info.attrs info.data.length).length =
    5 + aiGetSendAttrLen info.attrs
  start : Seals cfg c p info.type .start
    (messageHead info.type info.attrs info.data.length ++ info.data.take n) pkt
  tail : SealsTail cfg c info.type p.advance (info.data.drop n) pkts

theorem sendLoop_stuck (hdata : 0 < info.data.length) (hnone : fragLen cfg info 0 = 0)
    {fuel k : ℕ} {p : AiProtoOut} {written : List (List UInt8)} {r : SendResult}
    (h : sendLoop cfg c env info fuel p 0 k written = some r) : r.ret ≠ .ok () := by
  intro hok
  induction fuel generalizing p k written with
  | zero => cases h
  | succ fuel ih =>
      obtain ⟨_, _, -, -, hrest⟩ := sendLoop_succ hdata h hok
      rw [hnone, Nat.add_zero] at hrest
      exact ih hrest

theorem sendLoop_start (hc : c.Lawful) (hdata : 0 < info.data.length)
    (hlong : cfg.maxFragmentLength <
      aiGetSendPktLen info.type false info.attrs info.data.length .noFrag)
    {fuel k : ℕ} {p : AiProtoOut} {written : List (List UInt8)} {r : SendResult}
    (h : sendLoop cfg c env info fuel p 0 k written = some r) (hok : r.ret = .ok ()) :
    ∃ n pkt pkts, r.written = written ++ pkt :: pkts ∧ Fragmented cfg c p info n pkt pkts := by
  cases fuel with
  | zero => cases h
  | succ fuel =>
      have hpos : 0 < fragLen cfg info 0 := by
        apply Nat.pos_of_ne_zero
        intro hnone
        exact sendLoop_stuck hdata hnone h hok
      obtain ⟨env', pkt, hpkt, hwrite, hrest⟩ := sendLoop_succ hdata h hok
      have hfrag : sendFrag cfg info 0 = .start := if_pos rfl
      rw [hfrag] at hpkt hwrite
      have hneed : tuyaAiIsNeedAttr .start = true := rfl
      obtain ⟨hattr, hn, hlt, hsmall, hover⟩ :=
        start_room hdata hlong (overhead_le_of_write hc hneed hwrite)
      obtain ⟨plain, hplain, hseals, -⟩ := aiPacketWrite_ok hwrite
      obtain ⟨rfl, hhead, -⟩ := aiPlainPayload_ok hneed hplain
      rw [← hpkt] at hseals
      rw [Nat.zero_add] at hrest
      obtain ⟨pkts, hwritten, htail⟩ := sendLoop_tail hpos hlt hrest hok
      refine ⟨fragLen cfg info 0, pkt, pkts, ?_, by omega, hpos, hlt, hsmall, hover, hhead,
        hseals, htail⟩
      rw [hwritten, List.append_assoc, List.singleton_append]

theorem tuyaAiBasicPktSend_ok (hc : c.Lawful) {fuel : ℕ} {p : AiProtoOut} {r : SendResult}
    (h : tuyaAiBasicPktSend cfg c env fuel p info = some r) (hok : r.ret = .ok ()) :
    (∃ pkt, r.written = [pkt] ∧ Seals cfg c p info.type .noFrag (message info) pkt ∧
      (messageHead info.type info.attrs info.data.length).length =
        5 + aiGetSendAttrLen info.attrs ∧
      overhead info.type + aiGetSendAttrLen info.attrs + info.data.length ≤
        cfg.maxFragmentLength) ∨
    (r.written = [] ∧ info.data = [] ∧
      cfg.maxFragmentLength < overhead info.type + aiGetSendAttrLen info.attrs) ∨
    ∃ n pkt pkts, r.written = pkt :: pkts ∧ Fragmented cfg c p info n pkt pkts := by
  have hneed : tuyaAiIsNeedAttr .noFrag = true := rfl
  rw [tuyaAiBasicPktSend] at h
  split_ifs at h with hconn hone
  · rw [← Option.some.inj h] at hok
    cases hok
  · obtain rfl := Option.some.inj h
    obtain ⟨plain, hplain, hseals, -⟩ := aiPacketWrite_ok hok
    obtain ⟨rfl, hhead, -⟩ := aiPlainPayload_ok hneed hplain
    exact .inl ⟨_, rfl, hseals, hhead, overhead_le_of_write hc hneed hok⟩
  · rcases Nat.eq_zero_or_pos info.data.length with hnil | hdata
    · cases fuel with
      | zero => cases h
      | succ fuel =>
          rw [sendLoop, if_neg (by omega)] at h
          refine .inr (.inl ⟨by rw [← Option.some.inj h], List.length_eq_zero_iff.mp hnil, ?_⟩)
          rw [hnil, aiGetSendPktLen_attr hneed, aiGetSendPayloadLen, if_pos hneed] at hone
          have hle : u32 (overhead info.type - 5 +
              u32 (1 + aiGetSendAttrLen info.attrs + 4 + 0)) ≤
                overhead info.type - 5 + (1 + aiGetSendAttrLen info.attrs + 4 + 0) :=
            (Nat.mod_le _ _).trans (Nat.add_le_add_left (Nat.mod_le _ _) _)
          have hover : 46 ≤ overhead info.type := by
            rw [overhead]
            split_ifs <;> omega
          omega
    · obtain ⟨n, pkt, pkts, hwritten, hfrags⟩ :=
        sendLoop_start hc hdata (Nat.not_le.mp hone) h hok
      exact .inr (.inr ⟨n, pkt, pkts, hwritten, hfrags⟩)

end Fragments

end TuyaOpen.Ai
