import TuyaOpen.Ai.Peer

/-!
# CLIENT_HELLO packets at a peer

The hello packet is sent without encryption, but a receiver decrypts every packet with
its own security level.  Whatever the decryption makes of the payload, sixteen bytes of
it are taken as a tag, so no hello packet is read as it was sent.
-/

namespace TuyaOpen.Ai

open Bytes ChunkStream

/-- What a receiver makes of `plain` that was sent without encryption: no success without a
packet, and a packet that is too short or longer than its buffer. -/
def Garbled (frag : FragFlag) (plain : List UInt8) : Recv → Prop
  | .packet a => a.fragFlag = frag ∧ plain.length ≤ a.bufLen ∧ 0 < a.recvLen ∧
      (a.decryptLen + 16 ≤ plain.length ∨ a.bufLen < a.decryptLen)
  | .lost rc => rc ≠ oprtOk
  | .rejected _ rc => rc ≠ oprtOk
  | .noMemory => True
  | .undefined => True

theorem aiOpenPacket_garbled {c : AiCipher} (hc : c.Lawful) {mem : Bool} {p : AiProtoIn}
    {buf plain : List UInt8} {recvLen : ℕ} (hrecv : 0 < recvLen)
    (hlen : aiGetPacketLen buf = plain.length + aiSignLen) (hsmall : plain.length < 2 ^ 31)
    {out : Recv} (hout : aiOpenPacket c mem p buf recvLen = out) :
    Garbled (headFragFlag buf) plain out := by
  subst hout
  have hsign : aiSignLen = 32 := rfl
  have htag : aiGcmTagLen = 16 := rfl
  have hadd : aiAddPktLen = 128 := rfl
  have hhead := aiGetHeadLen_le buf
  simp only [aiOpenPacket]
  split_ifs with hwrap hmac hmem hshort
  · trivial
  · exact (by decide : oprtResourceNotReady ≠ oprtOk)
  · trivial
  · trivial
  · split
    · exact Int.natCast_ne_zero.mpr (Nat.pos_iff_ne_zero.mp hrecv)
    · rename_i data hdec
      split_ifs
      · trivial
      · have hdata := hc.length_decrypt hdec
        have hlast := (data.getLastD 0).toNat_lt
        simp only [List.length_take] at hdata
        refine ⟨rfl, by dsimp only; omega, hrecv, ?_⟩
        dsimp only
        rw [u32]
        omega

theorem Seals.recv_hello {cfg : AiConfig} {c : AiCipher} (hc : c.Lawful) {p : AiProtoOut}
    {frag : FragFlag} {plain pkt rest : List UInt8}
    (h : Seals cfg c p aiPtClientHello frag plain pkt) {q : AiProtoIn} (hq : Follows p q)
    {es : List Event} (hes : Delivers es (pkt ++ rest)) (behind : List Event) :
    ∃ q' es' out, recvPacket cfg c true q (es ++ behind) = (q', es' ++ behind, out) ∧
      Follows p.advance q' ∧ Delivers es' rest ∧ Garbled frag plain out := by
  have hfrag := h.fragFlag
  obtain ⟨payload, henc, rfl, hmax⟩ := h
  have hpayload : payload = plain := by
    rw [aiEncryptPacket, aiGetSl] at henc
    exact (Except.ok.inj henc).symm
  subst hpayload
  have hlevel := writeHead_securityLevel_lt p aiPtClientHello frag
  have hmax' := cfg.max_le
  have hfit := hmax.trans (Nat.le_add_right _ aiAddPktLen)
  obtain ⟨es', last, hrecv, hdel, hlast⟩ := recvPacket_stream hc cfg true hlevel p.iv_length hfit
    p.sequence_lt hq.sequence hes behind
  -- the result stays a name: `Garbled` would be evaluated on it
  generalize hout : aiOpenPacket c true _ _ last = out at hrecv
  refine ⟨_, es', out, hrecv, ⟨hq.cryptKey, hq.signKey, hq.taken.sequence⟩, hdel, ?_⟩
  have hlen : (packetBytes c p.signKey (writeHead p aiPtClientHello frag) p.encryptIv
      payload).length = _ := length_packetBytes hc p.iv_length
  have hpacket : aiGetPacketLen (packetBytes c p.signKey (writeHead p aiPtClientHello frag)
      p.encryptIv payload) = payload.length + aiSignLen := by
    rw [packetBytes_eq]
    exact aiGetPacketLen_front hlevel p.iv_length (by omega) _
  have hgarbled := aiOpenPacket_garbled hc hlast hpacket (by omega) hout
  rw [hfrag] at hgarbled
  exact hgarbled

/-! ## Whole messages -/

section Read

variable {cfg : AiConfig} {c : AiCipher} {p : AiProtoOut} {r r' : AiReader} {ret : ReadRet}
  {es es' es'' behind : List Event}

theorem pktReadLoop_garbled (hr : r.fragFlag = false) {frag : FragFlag} {plain : List UInt8}
    {q : AiProtoIn} {out : Recv} {fuel : ℕ}
    (hrecv : recvPacket cfg c true r.proto es = (q, es', out)) (hout : Garbled frag plain out)
    (h : pktReadLoop cfg c (fuel + 1) plentyEnv r es = some (r', es'', ret))
    (hok : ret.rc = oprtOk) :
    ∃ a, Garbled frag plain (.packet a) ∧
      (fragStep true r.frag a = .ret r'.frag ret ∨
        ∃ s, fragStep true r.frag a = .again s ∧
          pktReadLoop cfg c fuel plentyEnv ⟨q, s, false⟩ es' = some (r', es'', ret)) := by
  have hmem : (plentyEnv 0).decryptMem = true := rfl
  have hnext : (fun n ↦ plentyEnv (n + 1)) = plentyEnv := rfl
  have hexit : ∀ {s : AiReader} {fs : List Event} {rc : OperateRet}, rc ≠ oprtOk →
      readExit s fs rc ≠ some (r', es'', ret) := by
    intro s fs rc hrc hread
    obtain ⟨_, -, heq⟩ := Option.map_eq_some_iff.mp hread
    exact hrc ((congrArg (fun y ↦ y.2.2.rc) heq).trans hok)
  simp only [pktReadLoop, hmem, hrecv, hr, Bool.false_eq_true, if_false, hnext] at h
  cases out with
  | undefined => cases h
  | noMemory =>
      have hrc : (oprtMallocFailed : OperateRet) = ret.rc :=
        congrArg (fun y ↦ y.2.2.rc) (Option.some.inj h)
      exact absurd (hrc.trans hok) (by decide)
  | lost rc => exact absurd h (hexit hout)
  | rejected why rc => exact absurd h (hexit hout)
  | packet a =>
      have hpos : (a.recvLen : OperateRet) ≠ oprtOk :=
        Int.natCast_ne_zero.mpr (Nat.pos_iff_ne_zero.mp hout.2.2.1)
      refine ⟨a, hout, ?_⟩
      dsimp only at h
      rw [show (plentyEnv 0).fragMem = true from rfl] at h
      cases hstep : fragStep true r.frag a with
      | undefined => simp [hstep] at h
      | exit s =>
          rw [hstep] at h
          exact absurd h (hexit hpos)
      | ret s ret' =>
          rw [hstep] at h
          cases h
          exact .inl rfl
      | again s =>
          rw [hstep] at h
          dsimp only at h
          split at h
          · cases h
          · rename_i hloop
            split_ifs at h
            · cases h
              exact .inr ⟨s, rfl, hloop⟩
            · exact absurd h (hexit hpos)

theorem appendFragment_offset {s s' : FragState} {a : AuthPacket}
    (h : appendFragment s a = some s') :
    a.decryptLen ≤ a.bufLen ∧ s'.mng.offset = s.mng.offset + a.decryptLen := by
  rw [appendFragment] at h
  split at h
  · cases h
  rename_i hlong
  refine ⟨Nat.not_lt.mp hlong, ?_⟩
  split at h
  · split_ifs at h with hnone
    cases h
    simp [hnone]
  · obtain ⟨heap, -, rfl⟩ := Option.map_eq_some_iff.mp h
    rfl

theorem SealsTail.hello_short (hc : c.Lawful) {data : List UInt8} {pkts : List (List UInt8)}
    (h : SealsTail cfg c aiPtClientHello p data pkts) (hr : r.fragFlag = false)
    (hfollows : Follows p r.proto) {rest : List UInt8} (hes : Delivers es (pkts.flatten ++ rest))
    {fuel : ℕ} (hread : pktReadLoop cfg c fuel plentyEnv r (es ++ behind) = some (r', es'', ret))
    (hok : ret.rc = oprtOk) {a : Option ℕ} {len : ℕ} {f : FragFlag}
    (hout : ret.out = some (a, len, f)) : len < r.frag.mng.offset + data.length := by
  induction h generalizing r fuel es with
  | @last p data pkt hseals =>
      cases fuel with
      | zero => cases hread
      | succ fuel =>
          rw [List.flatten_singleton] at hes
          obtain ⟨q', es', out, hrecv, -, -, hgarbled⟩ := hseals.recv_hello hc hfollows hes behind
          obtain ⟨x, ⟨hflag, hbuf, -, hlen⟩, hstep⟩ :=
            pktReadLoop_garbled hr hrecv hgarbled hread hok
          rw [fragStep, hflag] at hstep
          simp only [ne_eq, reduceCtorEq, not_false_eq_true, not_true_eq_false, and_false, if_false]
            at hstep
          cases happ : appendFragment r.frag x with
          | none => simp [happ] at hstep
          | some s =>
              obtain ⟨hfit, hoffset⟩ := appendFragment_offset happ
              rw [happ] at hstep
              rcases hstep with hstep | ⟨s, hstep, -⟩
              · cases hstep
                cases hout
                omega
              · cases hstep
  | @more p data more pkt pkts hseals _ ih =>
      cases fuel with
      | zero => cases hread
      | succ fuel =>
          rw [List.flatten_cons, List.append_assoc] at hes
          obtain ⟨q', es', out, hrecv, hnext, hdel, hgarbled⟩ :=
            hseals.recv_hello hc hfollows hes behind
          obtain ⟨x, ⟨hflag, hbuf, -, hlen⟩, hstep⟩ :=
            pktReadLoop_garbled hr hrecv hgarbled hread hok
          rw [fragStep, hflag] at hstep
          simp only [ne_eq, reduceCtorEq, not_false_eq_true, not_true_eq_false, and_false, if_false,
            false_and] at hstep
          cases happ : appendFragment r.frag x with
          | none => simp [happ] at hstep
          | some s =>
              obtain ⟨hfit, hoffset⟩ := appendFragment_offset happ
              rw [happ] at hstep
              rcases hstep with hstep | ⟨s', hstep, hread'⟩
              · cases hstep
              · cases hstep
                have hshort := ih (r := ⟨q', s, false⟩) rfl hnext hdel hread'
                dsimp only at hshort
                rw [List.length_append]
                omega

theorem Seals.hello_lost (hc : c.Lawful) {plain pkt rest rest' : List UInt8}
    (h : Seals cfg c p aiPtClientHello .noFrag plain pkt) (hr : Peer p r)
    (hes : Delivers es (pkt ++ rest)) {fuel : ℕ} :
    ¬Receives cfg c (fuel + 1) r es behind plain rest' := by
  rintro ⟨r', es'', ret, hread, hok, ⟨a, content, hout, -⟩, -⟩
  obtain ⟨q', es', out, hrecv, -, -, hgarbled⟩ := h.recv_hello hc hr.follows hes behind
  obtain ⟨x, ⟨hflag, hbuf, -, hlen⟩, hstep⟩ :=
    pktReadLoop_garbled hr.fragFlag hrecv hgarbled hread hok
  rw [fragStep, if_neg (hr.idle.passes _), hflag] at hstep
  rcases hstep with hstep | ⟨s, hstep, -⟩
  · obtain ⟨-, rfl⟩ := FragNext.ret.inj hstep
    obtain ⟨-, hsame⟩ := Prod.mk.inj (Option.some.inj hout)
    obtain ⟨hsame, -⟩ := Prod.mk.inj hsame
    omega
  · cases hstep

theorem Fragmented.hello_lost (hc : c.Lawful) {info : AiSendPacket}
    (htype : info.type = aiPtClientHello) {n : ℕ} {pkt rest rest' : List UInt8}
    {pkts : List (List UInt8)} (h : Fragmented cfg c p info n pkt pkts) (hr : Peer p r)
    (hes : Delivers es (pkt ++ (pkts.flatten ++ rest))) {fuel : ℕ} :
    ¬Receives cfg c (fuel + 1) r es behind (message info) rest' := by
  rintro ⟨r', es'', ret, hread, hok, ⟨a, content, hout, -⟩, -⟩
  have hstart := h.start
  have htail := h.tail
  rw [htype] at hstart htail
  obtain ⟨q', es', out, hrecv, hnext, hdel, hgarbled⟩ :=
    hstart.recv_hello hc hr.follows hes behind
  obtain ⟨x, ⟨hflag, hbuf, -, hlen⟩, hstep⟩ :=
    pktReadLoop_garbled hr.fragFlag hrecv hgarbled hread hok
  rw [fragStep, if_neg (hr.idle.passes _), hflag] at hstep
  dsimp only at hstep
  split_ifs at hstep with hat hshort hmem hlong
  all_goals rcases hstep with hstep | ⟨s, hstep, hread'⟩ <;> cases hstep
  have hshort := htail.hello_short hc (r := ⟨q', _, false⟩) rfl hnext hdel hread' hok hout
  have hsum : (message info).length =
      (messageHead aiPtClientHello info.attrs info.data.length ++ info.data.take n).length +
        (info.data.drop n).length := by
    rw [message, htype]
    simp only [List.length_append, List.length_take, List.length_drop]
    omega
  dsimp only at hshort
  omega

end Read

end TuyaOpen.Ai
