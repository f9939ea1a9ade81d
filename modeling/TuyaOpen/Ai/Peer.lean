import TuyaOpen.Ai.FragRun
import TuyaOpen.Ai.Send

/-!
# The packets of a message at the peer

`tuya_ai_basic_pkt_read` of a peer with the same keys, on what `tuya_ai_basic_pkt_send`
wrote.  The peer refuses a START packet whose announced length is not more than what
the packet itself decrypts to, and this includes head and attributes.
-/

namespace TuyaOpen.Ai

open Bytes ChunkStream

/-! ## One packet at the peer -/

/-- The peer has the keys, and has not seen the next sequence number. -/
structure Follows (p : AiProtoOut) (q : AiProtoIn) : Prop where
  cryptKey : q.cryptKey = p.cryptKey
  signKey : q.signKey = p.signKey
  sequence : q.sequenceIn < p.sequenceOut

theorem Follows.taken {p : AiProtoOut} {q : AiProtoIn} (h : Follows p q) :
    Follows p.advance (q.taken p.encryptIv p.sequenceOut) where
  cryptKey := h.cryptKey
  signKey := h.signKey
  sequence := by
    have hlt := p.sequence_lt
    change (if 0xffff ≤ p.sequenceOut then 0 else p.sequenceOut) < nextSequence p.sequenceOut
    rw [nextSequence]
    split_ifs <;> omega

/-- The packet that a peer makes of `plain`. -/
structure Carries (a : AuthPacket) (frag : FragFlag) (plain : List UInt8) : Prop where
  fragFlag : a.fragFlag = frag
  decrypted : a.plain = aiEncryptAddPkcs plain
  decryptLen : a.decryptLen = plain.length
  valid : a.Valid

section Carries

variable {a : AuthPacket} {frag : FragFlag} {plain : List UInt8}

theorem Carries.padded (h : Carries a frag plain) : a.Padded := by
  rw [AuthPacket.Padded, h.decryptLen, h.decrypted, length_aiEncryptAddPkcs]
  omega

theorem Carries.payload (h : Carries a frag plain) : a.payload = plain := by
  rw [AuthPacket.payload, h.decryptLen, h.decrypted, aiEncryptAddPkcs_eq, Pkcs7.take_pad]

end Carries

theorem Seals.recv {cfg : AiConfig} {c : AiCipher} (hc : c.Lawful) {p : AiProtoOut} {type : UInt8}
    (htype : type ≠ aiPtClientHello) {frag : FragFlag} {plain pkt rest : List UInt8}
    (h : Seals cfg c p type frag plain pkt) {q : AiProtoIn} (hq : Follows p q)
    (hiv : aiIsNeedIv type false frag = true ∨ q.decryptIv = p.encryptIv) {es : List Event}
    (hes : Delivers es (pkt ++ rest)) (behind : List Event) :
    ∃ es' a, recvPacket cfg c true q (es ++ behind) =
        (q.taken p.encryptIv p.sequenceOut, es' ++ behind, .packet a) ∧
      Delivers es' rest ∧ Carries a frag plain := by
  obtain ⟨payload, henc, rfl, hmax⟩ := h
  have hsl : aiGetSl type false = aiPacketSl4 := by simp [aiGetSl, htype]
  rw [aiEncryptPacket, hsl, if_pos rfl] at henc
  split at henc
  · cases henc
  rename_i ct tag hgcm
  obtain rfl := Except.ok.inj henc
  rw [← hq.cryptKey] at hgcm
  rw [← hq.signKey] at hes hmax
  have hlevel := writeHead_securityLevel_lt p type frag
  have hfit : (packetBytes c q.signKey (writeHead p type frag) p.encryptIv (ct ++ tag)).length ≤
      cfg.maxFragmentLength + aiAddPktLen := hmax.trans (Nat.le_add_right _ _)
  obtain ⟨es', last, hrecv, hdel, -⟩ := recvPacket_packetBytes hc cfg hlevel p.iv_length hgcm
    hfit p.sequence_lt hq.sequence hiv hes behind
  exact ⟨es', _, hrecv, hdel, rfl, rfl, rfl, recvPacket_valid hc hrecv⟩

/-! ## The packets behind a START packet -/

section Tail

variable {cfg : AiConfig} {c : AiCipher} {type : UInt8}

theorem pktReadLoop_again {r : AiReader} (hr : r.fragFlag = false) {p : AiProtoIn}
    {es es' es'' : List Event} {a : AuthPacket} {s : FragState} {fuel : ℕ} {r' : AiReader}
    {ret : ReadRet} (hrecv : recvPacket cfg c true r.proto es = (p, es', .packet a))
    (hstep : fragStep true r.frag a = .again s)
    (hrest : pktReadLoop cfg c fuel plentyEnv ⟨p, s, false⟩ es' = some (r', es'', ret))
    (hok : ret.rc = oprtOk) :
    pktReadLoop cfg c (fuel + 1) plentyEnv r es = some (r', es'', ret) := by
  have hmem : (plentyEnv 0).decryptMem = true := rfl
  have hnext : (fun n ↦ plentyEnv (n + 1)) = plentyEnv := rfl
  simp only [pktReadLoop, hmem, hrecv, hr, Bool.false_eq_true, if_false, hnext]
  rw [show (plentyEnv 0).fragMem = true from rfl, hstep]
  simp only [hrest, if_pos hok]

theorem pktReadLoop_ret {r : AiReader} (hr : r.fragFlag = false) {p : AiProtoIn}
    {es es' : List Event} {a : AuthPacket} {s : FragState} {fuel : ℕ} {ret : ReadRet}
    (hrecv : recvPacket cfg c true r.proto es = (p, es', .packet a))
    (hstep : fragStep true r.frag a = .ret s ret) :
    pktReadLoop cfg c (fuel + 1) plentyEnv r es = some (⟨p, s, false⟩, es', ret) := by
  have hmem : (plentyEnv 0).decryptMem = true := rfl
  simp only [pktReadLoop, hmem, hrecv, hr, Bool.false_eq_true, if_false]
  rw [show (plentyEnv 0).fragMem = true from rfl, hstep]

theorem SealsTail.read (hc : c.Lawful) (htype : type ≠ aiPtClientHello) {p : AiProtoOut}
    {data : List UInt8} {pkts : List (List UInt8)} (h : SealsTail cfg c type p data pkts)
    {r : AiReader} (hr : r.fragFlag = false) (hfollows : Follows p r.proto)
    (hiv : r.proto.decryptIv = p.encryptIv) {a total : ℕ} {acc : List UInt8}
    (hopen : r.frag.Open a acc total) (hroom : acc.length + data.length ≤ total) {fuel : ℕ}
    (hfuel : pkts.length ≤ fuel) {es : List Event} {rest : List UInt8}
    (hes : Delivers es (pkts.flatten ++ rest)) (behind : List Event) :
    ∃ r' es' ret, pktReadLoop cfg c fuel plentyEnv r (es ++ behind) =
        some (r', es' ++ behind, ret) ∧
      ret.rc = oprtOk ∧ HandsOut r'.frag ret (acc ++ data) ∧ Delivers es' rest := by
  induction h generalizing r acc fuel es with
  | @last p data pkt hseals =>
      obtain ⟨fuel, rfl⟩ : ∃ n, fuel = n + 1 := ⟨fuel - 1, by simp at hfuel; omega⟩
      rw [List.flatten_singleton] at hes
      obtain ⟨es', x, hrecv, hdel, hx⟩ := hseals.recv hc htype hfollows (.inr hiv) hes behind
      have hfit : acc.length + x.decryptLen ≤ total := by rw [hx.decryptLen]; exact hroom
      obtain ⟨s, ret, hstep, -, -, hok, hout, -⟩ :=
        hopen.stop (x := ⟨x, true⟩) hx.fragFlag hx.valid hx.padded hfit
      rw [hx.payload] at hout
      exact ⟨_, es', ret, pktReadLoop_ret hr hrecv hstep, hok, hout, hdel⟩
  | @more p data more pkt pkts hseals _ ih =>
      obtain ⟨fuel, rfl⟩ : ∃ n, fuel = n + 1 := ⟨fuel - 1, by simp at hfuel; omega⟩
      rw [List.flatten_cons, List.append_assoc] at hes
      rw [List.length_append] at hroom
      obtain ⟨es', x, hrecv, hdel, hx⟩ := hseals.recv hc htype hfollows (.inr hiv) hes behind
      have hfit : acc.length + x.decryptLen ≤ total := by rw [hx.decryptLen]; omega
      obtain ⟨s, hstep, hopen', -⟩ :=
        hopen.ing (x := ⟨x, true⟩) hx.fragFlag hx.valid hx.padded hfit
      rw [hx.payload] at hopen'
      obtain ⟨r', es'', ret, hread, hok, hout, hdel'⟩ :=
        ih (r := ⟨r.proto.taken p.encryptIv p.sequenceOut, s, false⟩) rfl hfollows.taken rfl hopen'
          (by rw [List.length_append]; omega) (by simp at hfuel; omega) hdel
      refine ⟨r', es'', ret, pktReadLoop_again hr hrecv hstep hread hok, hok, ?_, hdel'⟩
      rwa [← List.append_assoc]

end Tail

/-! ## The START packet -/

section Start

variable {a : AuthPacket} {type : UInt8} {attrs : List AiAttribute} {len : ℕ} {data : List UInt8}

theorem payloadHead_mod_two (type : UInt8) (attrs : List AiAttribute) :
    (payloadHead type attrs).toNat % 2 = if attrs = [] then 0 else 1 := by
  rw [payloadHead, UInt8.toNat_ofNat']
  split_ifs <;> omega

theorem Carries.buf_eq (h : Carries a .start (messageHead type attrs len ++ data)) :
    ∃ rest, a.buf = payloadHead type attrs ::
      ((if attrs = [] then [] else encodeBE 4 (aiGetSendAttrLen attrs + (2 ^ 32 - 4))) ++
        (attrWire attrs ++ (encodeBE 4 len ++ rest))) := by
  refine ⟨data ++ List.replicate (16 - (messageHead type attrs len ++ data).length % 16)
    (UInt8.ofNat (16 - (messageHead type attrs len ++ data).length % 16)) ++
      List.replicate (a.bufLen - a.plain.length) 0, ?_⟩
  rw [AuthPacket.buf, h.decrypted, aiEncryptAddPkcs, messageHead, payloadStart]
  simp only [List.append_assoc, List.cons_append]

theorem Carries.hasAttr (h : Carries a .start (messageHead type attrs len ++ data)) :
    a.hasAttr = decide (attrs ≠ []) := by
  obtain ⟨rest, hbuf⟩ := h.buf_eq
  have hhead : a.buf.getD 0 0 = payloadHead type attrs := by rw [hbuf]; rfl
  rw [AuthPacket.hasAttr, hhead, payloadHead_mod_two]
  split_ifs with hnil <;> simp [hnil]

theorem Carries.fragOffset (h : Carries a .start (messageHead type attrs len ++ data))
    (hhead : (messageHead type attrs len).length = 5 + aiGetSendAttrLen attrs)
    (hsmall : 5 + aiGetSendAttrLen attrs < 2 ^ 32) :
    a.fragOffset = if attrs = [] then 0 else 1 + aiGetSendAttrLen attrs := by
  rw [AuthPacket.fragOffset, h.hasAttr]
  by_cases hnil : attrs = []
  · simp [hnil]
  · obtain ⟨rest, hbuf⟩ := h.buf_eq
    have hstart := length_payloadStart type attrs
    rw [messageHead, List.length_append, List.length_append, length_encodeBE] at hhead
    rw [if_neg hnil] at hstart
    have hfield : encodeBE 4 (aiGetSendAttrLen attrs + (2 ^ 32 - 4)) =
        encodeBE 4 (aiGetSendAttrLen attrs - 4) := by
      have hsplit : aiGetSendAttrLen attrs + (2 ^ 32 - 4) =
          1 * 256 ^ 4 + (aiGetSendAttrLen attrs - 4) := by omega
      rw [hsplit, encodeBE_add le_rfl]
    have hget : getBE a.buf 1 4 = aiGetSendAttrLen attrs - 4 := by
      rw [hbuf, if_neg hnil, hfield]
      exact getBE_append (k := 4) (by omega) [payloadHead type attrs] _
    simp only [ne_eq, hnil, not_false_eq_true, decide_true, if_true, if_false, hget]
    rw [u32_of_lt (by omega)]
    omega

theorem Carries.originAt (h : Carries a .start (messageHead type attrs len ++ data))
    (hhead : (messageHead type attrs len).length = 5 + aiGetSendAttrLen attrs)
    (hsmall : 5 + aiGetSendAttrLen attrs < 2 ^ 32) :
    a.originAt = 1 + aiGetSendAttrLen attrs := by
  rw [AuthPacket.originAt, h.hasAttr, h.fragOffset hhead hsmall]
  by_cases hnil : attrs = []
  · simp [hnil, aiGetSendAttrLen]
  · simp [hnil]

theorem Carries.originLen (h : Carries a .start (messageHead type attrs len ++ data))
    (hhead : (messageHead type attrs len).length = 5 + aiGetSendAttrLen attrs)
    (hsmall : 5 + aiGetSendAttrLen attrs < 2 ^ 32) (hlen : len < 2 ^ 32) : a.originLen = len := by
  obtain ⟨rest, hbuf⟩ := h.buf_eq
  have hfront : (payloadStart type attrs ++ attrWire attrs).length =
      1 + aiGetSendAttrLen attrs := by
    rw [messageHead, List.length_append, length_encodeBE] at hhead
    omega
  have hparts : a.buf = payloadStart type attrs ++ attrWire attrs ++ (encodeBE 4 len ++ rest) := by
    rw [hbuf, payloadStart]
    simp only [List.append_assoc, List.cons_append]
  rw [AuthPacket.originLen, h.originAt hhead hsmall, hparts, ← hfront]
  exact getBE_append (k := 4) hlen _ _

end Start

/-! ## Whole messages -/

/-- A peer between two calls, with reassembly. -/
structure Peer (p : AiProtoOut) (r : AiReader) : Prop where
  fragFlag : r.fragFlag = false
  follows : Follows p r.proto
  idle : r.frag.Idle

/-- A call at the peer hands out these bytes and takes the packets from its stream. -/
def Receives (cfg : AiConfig) (c : AiCipher) (fuel : ℕ) (r : AiReader) (es behind : List Event)
    (bytes rest : List UInt8) : Prop :=
  ∃ r' es' ret, pktReadLoop cfg c fuel plentyEnv r (es ++ behind) = some (r', es' ++ behind, ret) ∧
    ret.rc = oprtOk ∧ HandsOut r'.frag ret bytes ∧ Delivers es' rest

section Whole

variable {cfg : AiConfig} {c : AiCipher} {p : AiProtoOut} {info : AiSendPacket} {r : AiReader}
  {es : List Event} {rest pkt : List UInt8} {fuel : ℕ}

theorem aiIsNeedIv_of_attr {type : UInt8} (htype : type ≠ aiPtClientHello) {frag : FragFlag}
    (hfrag : frag = .noFrag ∨ frag = .start) : aiIsNeedIv type false frag = true := by
  rcases hfrag with rfl | rfl <;> simp [aiIsNeedIv, htype]

theorem Seals.receives (hc : c.Lawful) {type : UInt8} (htype : type ≠ aiPtClientHello)
    {plain : List UInt8} (h : Seals cfg c p type .noFrag plain pkt) (hr : Peer p r)
    (hes : Delivers es (pkt ++ rest)) (behind : List Event) :
    Receives cfg c (fuel + 1) r es behind plain rest := by
  obtain ⟨es', x, hrecv, hdel, hx⟩ :=
    h.recv hc htype hr.follows (.inl (aiIsNeedIv_of_attr htype (.inl rfl))) hes behind
  obtain ⟨s, ret, hstep, -, hok, hout, -⟩ :=
    noFrag_ret (x := ⟨x, true⟩) hr.idle hx.fragFlag hx.padded
  rw [hx.payload] at hout
  exact ⟨_, es', ret, pktReadLoop_ret hr.fragFlag hrecv hstep, hok, hout, hdel⟩

theorem Fragmented.recv (hc : c.Lawful) (htype : info.type ≠ aiPtClientHello) {n : ℕ}
    {pkts : List (List UInt8)} (h : Fragmented cfg c p info n pkt pkts) (hr : Peer p r)
    (hes : Delivers es (pkt ++ (pkts.flatten ++ rest))) (behind : List Event) :
    ∃ es' x, recvPacket cfg c true r.proto (es ++ behind) =
        (r.proto.taken p.encryptIv p.sequenceOut, es' ++ behind, .packet x) ∧
      Delivers es' (pkts.flatten ++ rest) ∧
      Carries x .start
        (messageHead info.type info.attrs info.data.length ++ info.data.take n) ∧
      x.decryptLen + 256 = cfg.maxFragmentLength ∧ x.originLen = info.data.length ∧
      x.originAt + 4 ≤ x.bufLen ∧
      5 + aiGetSendAttrLen info.attrs + info.data.length ≤ x.fragTotalLen := by
  obtain ⟨es', x, hrecv, hdel, hx⟩ :=
    h.start.recv hc htype hr.follows (.inl (aiIsNeedIv_of_attr htype (.inr rfl))) hes behind
  have hroom := h.room
  have hlt := h.lt
  have hsmall := h.small
  rw [overhead, if_neg htype] at hsmall
  have hattr : 5 + aiGetSendAttrLen info.attrs < 2 ^ 32 := by omega
  have hlen : x.decryptLen = 5 + aiGetSendAttrLen info.attrs + n := by
    rw [hx.decryptLen, List.length_append, h.head, List.length_take]
    omega
  have hbuf : x.decryptLen ≤ x.bufLen := hx.padded.trans hx.valid.plain_le
  have horigin := hx.originLen h.head hattr info.data_lt
  refine ⟨es', x, hrecv, hdel, hx, by omega, horigin, ?_, ?_⟩
  · rw [hx.originAt h.head hattr]
    omega
  · rw [AuthPacket.fragTotalLen, horigin, hx.fragOffset h.head hattr, aiAddPktLen]
    by_cases hnil : info.attrs = []
    · have hzero : aiGetSendAttrLen info.attrs = 0 := if_pos hnil
      rw [if_pos hnil, u32_of_lt (by omega)]
      omega
    · rw [if_neg hnil, u32_of_lt (by omega)]
      omega

theorem Fragmented.receives (hc : c.Lawful) (htype : info.type ≠ aiPtClientHello) {n : ℕ}
    {pkts : List (List UInt8)} (h : Fragmented cfg c p info n pkt pkts)
    (hlong : cfg.maxFragmentLength < info.data.length + 256) (hr : Peer p r)
    (hfuel : pkts.length ≤ fuel) (hes : Delivers es (pkt ++ (pkts.flatten ++ rest)))
    (behind : List Event) : Receives cfg c (fuel + 1) r es behind (message info) rest := by
  obtain ⟨es', x, hrecv, hdel, hx, hlen, horigin, hat, htotal⟩ := h.recv hc htype hr hes behind
  have hlt := h.lt
  have hroom := h.room
  have hmore : x.decryptLen < x.originLen := by omega
  have hfit : x.decryptLen ≤ x.fragTotalLen := by omega
  obtain ⟨s, hstep, hopen, -⟩ := start_open (x := ⟨x, true⟩) hr.idle hx.valid hx.fragFlag hat
    hmore rfl hx.padded hfit
  rw [hx.payload] at hopen
  have hacc : (messageHead info.type info.attrs info.data.length ++ info.data.take n).length +
      (info.data.drop n).length ≤ x.fragTotalLen := by
    rw [List.length_append, h.head, List.length_take, List.length_drop]
    omega
  obtain ⟨r', es'', ret, hread, hok, hout, hdel'⟩ := h.tail.read hc htype
    (r := ⟨r.proto.taken p.encryptIv p.sequenceOut, s, false⟩) rfl hr.follows.taken rfl hopen hacc
    hfuel hdel behind
  refine ⟨r', es'', ret, pktReadLoop_again hr.fragFlag hrecv hstep hread hok, hok, ?_, hdel'⟩
  rwa [List.append_assoc, List.take_append_drop] at hout

theorem Fragmented.refused (hc : c.Lawful) (htype : info.type ≠ aiPtClientHello) {n : ℕ}
    {pkts : List (List UInt8)} (h : Fragmented cfg c p info n pkt pkts)
    (hshort : info.data.length + 256 ≤ cfg.maxFragmentLength) (hr : Peer p r)
    (hes : Delivers es (pkt ++ (pkts.flatten ++ rest))) (behind : List Event)
    {bytes rest' : List UInt8} : ¬Receives cfg c (fuel + 1) r es behind bytes rest' := by
  obtain ⟨es', x, hrecv, -, hx, hlen, horigin, hat, -⟩ := h.recv hc htype hr hes behind
  have hstep : fragStep true r.frag x = .exit r.frag := by
    rw [fragStep, if_neg (hr.idle.passes _), hx.fragFlag]
    dsimp only
    rw [if_neg (by omega), if_pos (by omega)]
  rintro ⟨r', es'', ret, hread, hok, -⟩
  have hmem : (plentyEnv 0).decryptMem = true := rfl
  simp only [pktReadLoop, hmem, hrecv, hr.fragFlag, Bool.false_eq_true, if_false] at hread
  rw [show (plentyEnv 0).fragMem = true from rfl, hstep] at hread
  obtain ⟨s, -, hret⟩ := Option.map_eq_some_iff.mp hread
  have hrc : (x.recvLen : OperateRet) = ret.rc := congrArg (fun y ↦ y.2.2.rc) hret
  exact hx.valid.recvLen_ne_ok (hrc.trans hok)

end Whole

end TuyaOpen.Ai
