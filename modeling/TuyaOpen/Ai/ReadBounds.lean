import TuyaOpen.Ai.Attrs
import TuyaOpen.Ai.Sealed

/-!
# What reading a packet touches

`tuya_ai_basic_pkt_read` with the memory around `recv_buf`, so that a length that
wraps around reads where the code would read.  A call is told by its accesses to the
memory and by the sums and differences of lengths that it relies on.
-/

namespace TuyaOpen.Ai

open Bytes ByteMem ChunkStream

/-- A sum of two `uint32_t`, or a difference of one and what may be a `char`. -/
inductive Arith where
  | add (a b : ℕ)
  | sub (a : ℕ) (b : ℤ)
  deriving DecidableEq

def Arith.Exact : Arith → Prop
  | add a b => a + b < 2 ^ 32
  | sub a b => b ≤ a ∧ a < 2 ^ 32 + b

def sub32 (a b : ℕ) : ℕ := u32 (a + (2 ^ 32 - b))

/-- How many bytes came for the packet, what was read of the memory that has them, and
the arithmetic of the lengths. -/
structure ReadTrace where
  received : ℕ
  reads : List Read
  arith : List Arith

def ReadTrace.add (t : ReadTrace) (reads : List Read) (arith : List Arith) : ReadTrace :=
  { t with reads := t.reads ++ reads, arith := t.arith ++ arith }

/-- The read takes nothing but the `n` bytes from `a` on. -/
def Read.Within (a n : ℕ) (r : Read) : Prop := r.len = 0 ∨ a ≤ r.start ∧ r.start + r.len ≤ a + n

/-- In a buffer of `cap` bytes at `a`, only what was received is read, and no length wraps
around. -/
structure ReadTrace.Safe (a cap : ℕ) (t : ReadTrace) : Prop where
  fits : t.received ≤ cap
  reads : ∀ r ∈ t.reads, r.Within a t.received
  arith : ∀ s ∈ t.arith, s.Exact

/-! ## The call -/

def recvBufLen (cfg : AiConfig) : ℕ := cfg.maxFragmentLength + aiAddPktLen

/-- Sequence, flags, IV and length of a head at `a`. -/
def headReads (a : ℕ) (iv : Bool) : List Read :=
  [⟨a + 1, 2⟩, ⟨a + 3, 1⟩, ⟨a + aiPacketHeadLen, if iv then aiIvLen else 0⟩,
    ⟨a + (aiHeadLen iv - 4), 4⟩]

/-- The copies of `__ai_packet_sign` out of the packet at `a`. -/
def signReads (a headLen payloadLen : ℕ) : List Read :=
  if u32 (headLen + payloadLen) ≤ 64 then [⟨a, u32 (headLen + payloadLen)⟩]
  else if 32 < payloadLen then [⟨a, 32⟩, ⟨a + headLen + (payloadLen - 32), 32⟩]
  else [⟨a, 32⟩, ⟨a + headLen, payloadLen⟩]

def aiPacketSignData (m : Mem) (a headLen payloadLen : ℕ) : List UInt8 :=
  if u32 (headLen + payloadLen) ≤ 64 then slice m a (u32 (headLen + payloadLen))
  else if 32 < payloadLen then slice m a 32 ++ slice m (a + headLen + (payloadLen - 32)) 32
  else slice m a 32 ++ slice m (a + headLen) payloadLen ++ List.replicate (32 - payloadLen) 0

/-- `__ai_decrypt_packet` of `len` bytes at `data`; `out` is the memory of its output. -/
def aiDecryptTrace (charSigned : Bool) (c : AiCipher) (p : AiProtoIn) (m out : Mem)
    (data len : ℕ) (t : ReadTrace) : ReadTrace :=
  let dataLen := sub32 len aiGcmTagLen
  let tag := data + len - aiGcmTagLen
  let t := t.add [⟨data, dataLen⟩, ⟨tag, aiGcmTagLen⟩] [.sub len aiGcmTagLen]
  match c.decrypt p.cryptKey p.decryptIv (slice m data dataLen) (slice m tag aiGcmTagLen) with
  | .error _ => t
  | .ok plain =>
      let pad := charValue charSigned (fill out 0 plain (sub32 plain.length 1))
      t.add [] [.sub plain.length 1, .sub plain.length pad]

/-- Signature and decryption of the packet at `a`. -/
def aiOpenTrace (charSigned : Bool) (c : AiCipher) (mem : Bool) (p : AiProtoIn) (m out : Mem)
    (a headLen packetLen : ℕ) (t : ReadTrace) : ReadTrace :=
  let payloadLen := sub32 packetLen aiSignLen
  let sign := a + headLen + payloadLen
  let t := t.add (signReads a headLen payloadLen ++ [⟨sign, aiSignLen⟩]) [.sub packetLen aiSignLen]
  if c.sha256Mac p.signKey (aiPacketSignData m a headLen payloadLen) ≠ slice m sign aiSignLen then t
  else if mem = false then t
  else aiDecryptTrace charSigned c p m out (a + headLen) payloadLen t

/-- From the size check on.  The memory is `m` before the packet is received, and the sum
that passes the check is relied upon. -/
def pktBodyTrace (charSigned : Bool) (cfg : AiConfig) (c : AiCipher) (mem : Bool) (p : AiProtoIn)
    (m out : Mem) (a : ℕ) (buf : List UInt8) (es : List Event) : ReadTrace :=
  let headLen := aiGetHeadLen buf
  let packetLen := aiGetPacketLen buf
  let total := u32 (packetLen + headLen)
  let heads := headReads a (headIvFlag buf)
  if recvBufLen cfg < total then ⟨headLen, heads, []⟩
  else if headSequence buf ≤ p.sequenceIn then ⟨headLen, heads, [.add packetLen headLen]⟩
  else
    match gather notReady es 1 (total - headLen) [] headLen with
    | .failed got _ _ => ⟨headLen + got, heads, [.add packetLen headLen]⟩
    | .done body _ _ =>
        aiOpenTrace charSigned c mem (storeSequence p buf) (fill m a (buf ++ body)) out a headLen
          packetLen ⟨headLen + body.length, heads, [.add packetLen headLen]⟩

def tuyaAiBasicPktReadTrace (charSigned : Bool) (cfg : AiConfig) (c : AiCipher) (mem : Bool)
    (p : AiProtoIn) (m out : Mem) (a : ℕ) (es : List Event) : ReadTrace :=
  match gather notReady es 0 aiPacketHeadLen [] 0 with
  | .failed got _ _ => ⟨got, [], []⟩
  | .done buf _ rest =>
      match gather notReady rest 0 (aiGetHeadLen buf - aiPacketHeadLen) [] 0 with
      | .failed got _ _ => ⟨aiPacketHeadLen + got, [⟨a + 3, 1⟩], []⟩
      | .done more _ rest =>
          pktBodyTrace charSigned cfg c mem (storeIv p (buf ++ more)) m out a (buf ++ more) rest

/-! ## Packets whose lengths agree -/

/-- There is a tag, and what decrypts has a padding that is no longer than itself. -/
def TagAndPadding (charSigned : Bool) (c : AiCipher) (p : AiProtoIn) (payload : List UInt8)
    (payloadLen : ℕ) : Prop :=
  aiGcmTagLen ≤ payloadLen ∧
    ∀ plain, c.decrypt p.cryptKey p.decryptIv (payload.take (payloadLen - aiGcmTagLen))
        (payload.drop (payloadLen - aiGcmTagLen)) = .ok plain →
      plain ≠ [] ∧ charValue charSigned (plain.getLastD 0) ≤ plain.length

/-- A packet has a signature, and behind a right one tag and padding. -/
def PacketOpens (charSigned : Bool) (c : AiCipher) (mem : Bool) (p : AiProtoIn) (pkt : List UInt8)
    (headLen packetLen : ℕ) : Prop :=
  let payloadLen := packetLen - aiSignLen
  aiSignLen ≤ packetLen ∧
    (c.sha256Mac p.signKey (aiSignData pkt headLen payloadLen) =
        (pkt.drop (headLen + payloadLen)).take aiSignLen → mem = true →
      TagAndPadding charSigned c p ((pkt.drop headLen).take payloadLen) payloadLen)

/-- The packet that comes next, if its head does, has such lengths as far as it is looked
at. -/
def LengthsAgree (charSigned : Bool) (cfg : AiConfig) (c : AiCipher) (mem : Bool) (p : AiProtoIn)
    (es : List Event) : Prop :=
  ∀ buf rest, aiBaiscReadPktHead es = .head buf rest →
    aiGetPacketLen buf + aiGetHeadLen buf < 2 ^ 32 ∧
      (aiGetPacketLen buf + aiGetHeadLen buf ≤ recvBufLen cfg → p.sequenceIn < headSequence buf →
        ∀ body last behind,
          gather notReady rest 1 (aiGetPacketLen buf) [] (aiGetHeadLen buf) =
              .done body last behind →
            PacketOpens charSigned c mem (storeSequence (storeIv p buf) buf) (buf ++ body)
              (aiGetHeadLen buf) (aiGetPacketLen buf))

variable {charSigned : Bool} {cfg : AiConfig} {c : AiCipher} {mem : Bool} {p : AiProtoIn}
  {m out : Mem} {a cap : ℕ} {t : ReadTrace}

theorem ReadTrace.add_safe {reads : List Read} {arith : List Arith} :
    (t.add reads arith).Safe a cap ↔
      t.Safe a cap ∧ (∀ r ∈ reads, r.Within a t.received) ∧ ∀ s ∈ arith, s.Exact := by
  constructor
  · rintro ⟨hfits, hreads, harith⟩
    obtain ⟨hreads, hreads'⟩ := List.forall_mem_append.mp hreads
    obtain ⟨harith, harith'⟩ := List.forall_mem_append.mp harith
    exact ⟨⟨hfits, hreads, harith⟩, hreads', harith'⟩
  · rintro ⟨⟨hfits, hreads, harith⟩, hreads', harith'⟩
    exact ⟨hfits, List.forall_mem_append.mpr ⟨hreads, hreads'⟩,
      List.forall_mem_append.mpr ⟨harith, harith'⟩⟩

theorem Arith.exact_sub {x y : ℕ} (hx : x < 2 ^ 32) : (Arith.sub x y).Exact ↔ y ≤ x := by
  rw [Arith.Exact]
  omega

theorem le_charValue (v : UInt8) : -128 ≤ charValue charSigned v := by
  unfold charValue
  split_ifs with h
  · have hhigh := UInt8.le_iff_toNat_le.mp h.2
    change 128 ≤ v.toNat at hhigh
    omega
  · omega

theorem ReadTrace.add_subs_safe {x : ℕ} {v : UInt8} (hx : x < 2 ^ 32 - 128) :
    (t.add [] [.sub x 1, .sub x (charValue charSigned v)]).Safe a cap ↔
      t.Safe a cap ∧ 1 ≤ x ∧ charValue charSigned v ≤ x := by
  have hlow := @le_charValue charSigned v
  simp only [ReadTrace.add_safe, List.forall_mem_cons, Arith.Exact]
  refine and_congr_right fun _ ↦ ⟨fun h ↦ ?_, fun h ↦ ?_⟩
  · obtain ⟨-, hone, hpad, -⟩ := h
    omega
  · refine ⟨List.forall_mem_nil _, ?_, ?_, List.forall_mem_nil _⟩ <;> omega

theorem sub32_of_le {x y : ℕ} (h : y ≤ x) (hx : x < 2 ^ 32) : sub32 x y = x - y := by
  rw [sub32, u32]
  omega

section Open

variable {pkt : List UInt8} {headLen packetLen : ℕ}

theorem headReads_within {iv : Bool} {n : ℕ} (h : aiHeadLen iv ≤ n) :
    ∀ r ∈ headReads a iv, r.Within a n := by
  cases iv <;> simp [headReads, Read.Within, aiHeadLen, aiPacketHeadLen, aiIvLen] at h ⊢ <;> omega

theorem signReads_within {payloadLen n : ℕ} (hroom : headLen + payloadLen ≤ n) (hn : 32 ≤ n) :
    ∀ r ∈ signReads a headLen payloadLen, r.Within a n := by
  have hwrap : u32 (headLen + payloadLen) ≤ headLen + payloadLen := Nat.mod_le _ _
  rw [signReads]
  split_ifs with hshort hlong
  · refine List.forall_mem_singleton.mpr (.inr ⟨le_rfl, ?_⟩)
    dsimp only
    omega
  · simp only [List.forall_mem_cons, Read.Within]
    refine ⟨.inr ⟨le_rfl, by omega⟩, .inr ⟨by omega, by omega⟩, List.forall_mem_nil _⟩
  · simp only [List.forall_mem_cons, Read.Within]
    refine ⟨.inr ⟨le_rfl, by omega⟩, .inr ⟨by omega, by omega⟩, List.forall_mem_nil _⟩

theorem aiPacketSignData_fill {payloadLen : ℕ} (hroom : headLen + payloadLen + 32 ≤ pkt.length)
    (hwrap : headLen + payloadLen < 2 ^ 32) :
    aiPacketSignData (fill m a pkt) a headLen payloadLen = aiSignData pkt headLen payloadLen := by
  have hfront : ∀ n ≤ pkt.length, slice (fill m a pkt) a n = pkt.take n := by
    intro n hn
    have hzero : 0 + n ≤ pkt.length := by omega
    exact slice_fill m a hzero
  rw [aiPacketSignData, aiSignData, u32_of_lt hwrap]
  split_ifs with hshort hlong
  · exact hfront _ (by omega)
  · have hend : headLen + (payloadLen - 32) + 32 ≤ pkt.length := by omega
    rw [hfront 32 (by omega), Nat.add_assoc, slice_fill m a hend]
    simp
  · have hend : headLen + payloadLen ≤ pkt.length := by omega
    rw [hfront 32 (by omega), slice_fill m a hend]
    rfl

theorem padding_of_plain {plain : List UInt8} (hne : plain ≠ []) (hlt : plain.length < 2 ^ 32) :
    fill out 0 plain (sub32 plain.length 1) = plain.getLastD 0 := by
  have hpos := List.length_pos_of_ne_nil hne
  have hin : plain.length - 1 < plain.length := by omega
  have hread := fill_apply out 0 hin
  rw [Nat.zero_add] at hread
  rw [sub32_of_le hpos hlt, hread, List.getLastD_eq_getLast?,
    List.getLast?_eq_getLast_of_ne_nil hne, Option.getD_some, List.getLast_eq_getElem]

theorem payload_slices {payloadLen : ℕ} (hend : headLen + payloadLen ≤ pkt.length)
    (htag : aiGcmTagLen ≤ payloadLen) :
    slice (fill m a pkt) (a + headLen) (payloadLen - aiGcmTagLen) =
        ((pkt.drop headLen).take payloadLen).take (payloadLen - aiGcmTagLen) ∧
      slice (fill m a pkt) (a + headLen + payloadLen - aiGcmTagLen) aiGcmTagLen =
        ((pkt.drop headLen).take payloadLen).drop (payloadLen - aiGcmTagLen) := by
  have hdata : headLen + (payloadLen - aiGcmTagLen) ≤ pkt.length := by omega
  have hlast : headLen + (payloadLen - aiGcmTagLen) + aiGcmTagLen ≤ pkt.length := by omega
  have hat : a + headLen + payloadLen - aiGcmTagLen =
      a + (headLen + (payloadLen - aiGcmTagLen)) := by
    omega
  have hrest : payloadLen - (payloadLen - aiGcmTagLen) = aiGcmTagLen := by omega
  constructor
  · rw [slice_fill m a hdata, List.take_take, Nat.min_eq_left (Nat.sub_le _ _)]
  · rw [hat, slice_fill m a hlast, List.drop_take, List.drop_drop, hrest]

theorem aiDecryptTrace_safe (hc : c.Lawful) {payloadLen : ℕ}
    (hend : headLen + payloadLen ≤ pkt.length) (hlt : payloadLen < 2 ^ 31)
    (ht : t.received = pkt.length) :
    (aiDecryptTrace charSigned c p (fill m a pkt) out (a + headLen) payloadLen t).Safe a cap ↔
      t.Safe a cap ∧
        TagAndPadding charSigned c p ((pkt.drop headLen).take payloadLen) payloadLen := by
  have hgcm : aiGcmTagLen = 16 := rfl
  by_cases htag : aiGcmTagLen ≤ payloadLen
  · have hlen : sub32 payloadLen aiGcmTagLen = payloadLen - aiGcmTagLen := 
      sub32_of_le htag (by omega)
    obtain ⟨hdata, hlast⟩ := @payload_slices m a pkt headLen payloadLen hend htag
    have hreads : (t.add [⟨a + headLen, payloadLen - aiGcmTagLen⟩,
        ⟨a + headLen + payloadLen - aiGcmTagLen, aiGcmTagLen⟩]
        [.sub payloadLen aiGcmTagLen]).Safe a cap ↔ t.Safe a cap := by
      rw [ReadTrace.add_safe, ht]
      refine and_iff_left ⟨?_, List.forall_mem_singleton.mpr
        ((Arith.exact_sub (by omega)).mpr htag)⟩
      simp only [List.forall_mem_cons, Read.Within]
      refine ⟨.inr ⟨by omega, by omega⟩, .inr ⟨by omega, by omega⟩, List.forall_mem_nil _⟩
    simp only [aiDecryptTrace, hlen, hdata, hlast]
    cases hdec : c.decrypt p.cryptKey p.decryptIv
        (((pkt.drop headLen).take payloadLen).take (payloadLen - aiGcmTagLen))
        (((pkt.drop headLen).take payloadLen).drop (payloadLen - aiGcmTagLen)) with
    | error e =>
        simp only [hreads]
        refine (and_iff_left ⟨htag, fun plain h ↦ ?_⟩).symm
        rw [hdec] at h
        cases h
    | ok plain =>
        have hplain := hc.length_decrypt hdec
        have hcut : plain.length < 2 ^ 31 := by
          rw [hplain, List.length_take]
          omega
        have hpad :
            TagAndPadding charSigned c p ((pkt.drop headLen).take payloadLen) payloadLen ↔
              plain ≠ [] ∧ charValue charSigned (plain.getLastD 0) ≤ plain.length := by
          refine ⟨fun h ↦ h.2 plain hdec, fun h ↦ ⟨htag, fun plain' h' ↦ ?_⟩⟩
          cases hdec.symm.trans h'
          exact h
        simp only [ReadTrace.add_subs_safe (Nat.lt_of_lt_of_le hcut (by decide)), hreads, hpad]
        refine and_congr_right fun _ ↦ ?_
        rw [Nat.one_le_iff_ne_zero, Ne, List.length_eq_zero_iff]
        exact and_congr_right fun hne ↦ by rw [padding_of_plain hne (by omega)]
  · refine iff_of_false (fun h ↦ ?_) fun h ↦ htag h.2.1
    have hexact : (Arith.sub payloadLen aiGcmTagLen).Exact := by
      simp only [aiDecryptTrace] at h
      split at h
      · exact (ReadTrace.add_safe.mp h).2.2 _ List.mem_cons_self
      · exact (ReadTrace.add_safe.mp (ReadTrace.add_safe.mp h).1).2.2 _ List.mem_cons_self
    exact htag (Int.ofNat_le.mp hexact.1)

theorem aiDecryptTrace_prefix {payloadLen : ℕ}
    (h : (aiDecryptTrace charSigned c p m out (a + headLen) payloadLen t).Safe a cap) :
    t.Safe a cap := by
  simp only [aiDecryptTrace] at h
  split at h
  · exact (ReadTrace.add_safe.mp h).1
  · exact (ReadTrace.add_safe.mp (ReadTrace.add_safe.mp h).1).1

theorem aiOpenTrace_signed
    (h : (aiOpenTrace charSigned c mem p m out a headLen packetLen t).Safe a cap) :
    t.Safe a cap ∧ aiSignLen ≤ packetLen := by
  have hadd : (t.add (signReads a headLen (sub32 packetLen aiSignLen) ++
      [⟨a + headLen + sub32 packetLen aiSignLen, aiSignLen⟩])
      [.sub packetLen aiSignLen]).Safe a cap := by
    simp only [aiOpenTrace] at h
    split_ifs at h
    · exact h
    · exact h
    · exact aiDecryptTrace_prefix h
  obtain ⟨ht, -, harith⟩ := ReadTrace.add_safe.mp hadd
  exact ⟨ht, Int.ofNat_le.mp (harith _ List.mem_cons_self).1⟩

theorem aiOpenTrace_safe (hc : c.Lawful) (hpkt : pkt.length = headLen + packetLen)
    (hlt : headLen + packetLen < 2 ^ 31) (ht : t.received = pkt.length) :
    (aiOpenTrace charSigned c mem p (fill m a pkt) out a headLen packetLen t).Safe a cap ↔
      t.Safe a cap ∧ PacketOpens charSigned c mem p pkt headLen packetLen := by
  have hsign : aiSignLen = 32 := rfl
  by_cases hlen : aiSignLen ≤ packetLen
  · have hsub : sub32 packetLen aiSignLen = packetLen - aiSignLen := by
      apply sub32_of_le hlen
      omega
    have hroom : headLen + (packetLen - aiSignLen) + 32 ≤ pkt.length := by omega
    have hdata := @aiPacketSignData_fill m a pkt headLen _ hroom (by omega)
    have hslice : slice (fill m a pkt) (a + headLen + (packetLen - aiSignLen)) aiSignLen =
        (pkt.drop (headLen + (packetLen - aiSignLen))).take aiSignLen := by
      rw [Nat.add_assoc]
      exact slice_fill m a hroom
    have hreads : ∀ t' : ReadTrace, t' = t.add (signReads a headLen (packetLen - aiSignLen) ++
        [⟨a + headLen + (packetLen - aiSignLen), aiSignLen⟩]) [.sub packetLen aiSignLen] →
        (t'.Safe a cap ↔ t.Safe a cap) := by
      rintro t' rfl
      rw [ReadTrace.add_safe, ht]
      refine and_iff_left ⟨List.forall_mem_append.mpr ⟨?_, ?_⟩,
        List.forall_mem_singleton.mpr ((Arith.exact_sub (by omega)).mpr hlen)⟩
      · exact signReads_within (by omega) (by omega)
      · refine List.forall_mem_singleton.mpr (.inr ⟨?_, ?_⟩)
        · dsimp only
          omega
        · dsimp only
          omega
    rw [aiOpenTrace]
    rw [hsub, hdata, hslice]
    simp only [PacketOpens, hlen, true_and]
    split_ifs with hright hmem
    · rw [hreads _ rfl]
      exact (and_iff_left fun h ↦ (hright h).elim).symm
    · rw [hreads _ rfl]
      refine (and_iff_left fun _ h ↦ ?_).symm
      rw [hmem] at h
      cases h
    · have hmem : mem = true := Bool.eq_true_of_not_eq_false hmem
      have hend : headLen + (packetLen - aiSignLen) ≤ pkt.length := by omega
      have ht' : (t.add (signReads a headLen (packetLen - aiSignLen) ++
          [⟨a + headLen + (packetLen - aiSignLen), aiSignLen⟩])
          [.sub packetLen aiSignLen]).received = pkt.length := ht
      rw [aiDecryptTrace_safe hc hend (by omega) ht', hreads _ rfl]
      refine and_congr_right fun _ ↦ ?_
      exact ⟨fun h _ _ ↦ h, fun h ↦ h (not_not.mp hright) hmem⟩
  · exact iff_of_false (fun h ↦ hlen (aiOpenTrace_signed h).2) fun h ↦ hlen h.2.1

end Open

/-! ## From the head on -/

theorem le_recvBufLen (cfg : AiConfig) (buf : List UInt8) : aiGetHeadLen buf ≤ recvBufLen cfg := by
  have hhead := aiGetHeadLen_le buf
  have hmax := cfg.le_max
  rw [recvBufLen, aiAddPktLen]
  omega

theorem pktBodyTrace_wrap {buf : List UInt8} {es : List Event}
    (hwrap : 2 ^ 32 ≤ aiGetPacketLen buf + aiGetHeadLen buf) :
    ¬(pktBodyTrace charSigned cfg c mem p m out a buf es).Safe a (recvBufLen cfg) := by
  intro h
  have hlen := aiGetPacketLen_lt buf
  have hhead := aiGetHeadLen_le buf
  have hcap : 25 ≤ recvBufLen cfg := by
    have hmax := cfg.le_max
    rw [recvBufLen]
    omega
  have hpass : ¬recvBufLen cfg < u32 (aiGetPacketLen buf + aiGetHeadLen buf) := by
    rw [u32]
    omega
  have hexact : (Arith.add (aiGetPacketLen buf) (aiGetHeadLen buf)).Exact := by
    simp only [pktBodyTrace, if_neg hpass] at h
    split_ifs at h
    · exact h.arith _ List.mem_cons_self
    · split at h
      · exact h.arith _ List.mem_cons_self
      · exact (aiOpenTrace_signed h).1.arith _ List.mem_cons_self
  exact Nat.not_lt.mpr hwrap hexact

theorem pktBodyTrace_safe (hc : c.Lawful) {buf : List UInt8} {es : List Event}
    (hbuf : buf.length = aiGetHeadLen buf) :
    (pktBodyTrace charSigned cfg c mem p m out a buf es).Safe a (recvBufLen cfg) ↔
      aiGetPacketLen buf + aiGetHeadLen buf < 2 ^ 32 ∧
        (aiGetPacketLen buf + aiGetHeadLen buf ≤ recvBufLen cfg →
          p.sequenceIn < headSequence buf → ∀ body last behind,
            gather notReady es 1 (aiGetPacketLen buf) [] (aiGetHeadLen buf) =
                .done body last behind →
              PacketOpens charSigned c mem (storeSequence p buf) (buf ++ body) (aiGetHeadLen buf)
                (aiGetPacketLen buf)) := by
  have hcap := le_recvBufLen cfg buf
  have hheads : ∀ n, aiGetHeadLen buf ≤ n →
      ∀ r ∈ headReads a (headIvFlag buf), r.Within a n := fun n hn ↦ headReads_within hn
  by_cases hwrap : aiGetPacketLen buf + aiGetHeadLen buf < 2 ^ 32
  · have hneed : aiGetPacketLen buf + aiGetHeadLen buf - aiGetHeadLen buf = aiGetPacketLen buf := by
      omega
    have harith : ∀ s ∈ [Arith.add (aiGetPacketLen buf) (aiGetHeadLen buf)], s.Exact :=
      List.forall_mem_singleton.mpr hwrap
    simp only [pktBodyTrace, u32_of_lt hwrap, hneed, hwrap, true_and]
    split_ifs with hlong hstale
    · exact iff_of_true ⟨hcap, hheads _ le_rfl, List.forall_mem_nil _⟩ fun h ↦
        absurd hlong (by omega)
    · exact iff_of_true ⟨hcap, hheads _ le_rfl, harith⟩ fun _ h ↦ absurd hstale (by omega)
    · cases hgather : gather notReady es 1 (aiGetPacketLen buf) [] (aiGetHeadLen buf) with
      | failed got code rest =>
          have hgot := gather_failed_le hgather
          rw [List.length_nil, Nat.zero_add] at hgot
          refine iff_of_true ⟨?_, hheads _ (Nat.le_add_right _ _), harith⟩ ?_
          · dsimp only
            omega
          · intro _ _ body last behind h
            cases h
      | done body last rest =>
          have hbody := gather_length hgather
          rw [List.length_nil, Nat.zero_add] at hbody
          have hpkt : (buf ++ body).length = aiGetHeadLen buf + aiGetPacketLen buf := by
            rw [List.length_append, hbuf, hbody]
          have ht : aiGetHeadLen buf + body.length = (buf ++ body).length := by
            rw [hpkt, hbody]
          dsimp only
          have hroom : recvBufLen cfg < 2 ^ 31 := by
            have hmax := cfg.max_le
            rw [recvBufLen, aiAddPktLen]
            omega
          rw [aiOpenTrace_safe hc hpkt (by omega) ht]
          have hstart : (⟨aiGetHeadLen buf + body.length, headReads a (headIvFlag buf),
              [.add (aiGetPacketLen buf) (aiGetHeadLen buf)]⟩ : ReadTrace).Safe a
              (recvBufLen cfg) := by
            refine ⟨?_, hheads _ (Nat.le_add_right _ _), harith⟩
            dsimp only
            omega
          constructor
          · rintro ⟨-, hopens⟩ _ _ body' last' behind h
            cases h
            exact hopens
          · intro h
            exact ⟨hstart, h (by omega) (by omega) body last rest rfl⟩
  · exact iff_of_false (pktBodyTrace_wrap (Nat.not_lt.mp hwrap)) fun h ↦ hwrap h.1

/-- A read of a packet stays inside exactly when the lengths of the packet that comes
agree, as far as they are looked at. -/
theorem pkt_read_safe_iff (charSigned : Bool) (cfg : AiConfig) {c : AiCipher} (hc : c.Lawful)
    (mem : Bool) (p : AiProtoIn) (m out : Mem) (a : ℕ) (es : List Event) :
    (tuyaAiBasicPktReadTrace charSigned cfg c mem p m out a es).Safe a (recvBufLen cfg) ↔
      LengthsAgree charSigned cfg c mem p es := by
  have hfive : aiPacketHeadLen = 5 := rfl
  rw [tuyaAiBasicPktReadTrace, LengthsAgree, aiBaiscReadPktHead]
  cases hfirst : gather notReady es 0 aiPacketHeadLen [] 0 with
  | failed got code rest =>
      have hgot := gather_failed_le hfirst
      have hcap := le_recvBufLen cfg []
      have hhead := aiGetHeadLen_pos []
      rw [List.length_nil] at hgot
      refine iff_of_true ⟨?_, List.forall_mem_nil _, List.forall_mem_nil _⟩ ?_
      · dsimp only
        omega
      · intro buf rest' h
        cases h
  | done buf last rest =>
      have hlen := gather_length hfirst
      rw [List.length_nil, Nat.zero_add] at hlen
      have hcap := le_recvBufLen cfg buf
      have hpos := aiGetHeadLen_pos buf
      dsimp only
      cases hmore : gather notReady rest 0 (aiGetHeadLen buf - aiPacketHeadLen) [] 0 with
      | failed got code rest' =>
          have hgot := gather_failed_le hmore
          rw [List.length_nil] at hgot
          refine iff_of_true ⟨?_, ?_, List.forall_mem_nil _⟩ ?_
          · dsimp only
            omega
          · refine List.forall_mem_singleton.mpr (.inr ⟨Nat.le_add_right _ _, ?_⟩)
            dsimp only
            omega
          · intro buf' rest'' h
            cases h
      | done more last' rest' =>
          have hlen' := gather_length hmore
          rw [List.length_nil, Nat.zero_add] at hlen'
          have hhead : aiGetHeadLen (buf ++ more) = aiGetHeadLen buf := by
            rw [aiGetHeadLen, aiGetHeadLen, headIvFlag_append (by omega)]
          have hbuf : (buf ++ more).length = aiGetHeadLen (buf ++ more) := by
            rw [hhead, List.length_append]
            omega
          dsimp only
          rw [pktBodyTrace_safe hc hbuf, storeIv_sequenceIn]
          constructor
          · rintro h buf' rest'' hread
            cases hread
            exact h
          · intro h
            exact h _ _ rfl

/-- A PING packet as it was sent. -/
theorem pkt_read_safe_iff_ping :
    let cfg : AiConfig := ⟨10240, by decide, by decide⟩
    let p : AiProtoIn := ⟨sampleCryptKey, sampleSignKey, sampleIv, 0⟩
    let es := [Event.chunk (packetBytes sampleValues.cipher sampleSignKey
      (writeHead readyProto 4 .noFrag) sampleIv (sampleValues.ct ++ sampleValues.tag))]
    (tuyaAiBasicPktReadTrace true cfg sampleValues.cipher true p (fun _ ↦ 0) (fun _ ↦ 0) 4096
        es).Safe 4096 (recvBufLen cfg) ↔
      LengthsAgree true cfg sampleValues.cipher true p es :=
  pkt_read_safe_iff true _ (sampleValues.lawful rfl rfl (by decide)) true _ _ _ 4096 _

/-- A head with the largest length passes the size check. -/
theorem largest_length_unsafe :
    ∃ es : List Event, ∀ charSigned cfg c mem p m out a,
      ¬(tuyaAiBasicPktReadTrace charSigned cfg c mem p m out a es).Safe a (recvBufLen cfg) := by
  refine ⟨[.chunk [1, 0, 1, 8, 0, 0xff, 0xff, 0xff, 0xff]], fun _ cfg c mem p m out a ↦ ?_⟩
  have hwrap : 2 ^ 32 ≤ aiGetPacketLen [1, 0, 1, 8, 0, 0xff, 0xff, 0xff, 0xff] +
      aiGetHeadLen [1, 0, 1, 8, 0, 0xff, 0xff, 0xff, 0xff] := by decide
  have hfirst : gather notReady [.chunk [1, 0, 1, 8, 0, 0xff, 0xff, 0xff, 0xff]] 0 aiPacketHeadLen
      [] 0 = .done [1, 0, 1, 8, 0] 5 [.chunk [0xff, 0xff, 0xff, 0xff]] := by decide
  have hmore : gather notReady [.chunk [0xff, 0xff, 0xff, 0xff]] 0
      (aiGetHeadLen [1, 0, 1, 8, 0] - aiPacketHeadLen) [] 0 =
        .done [0xff, 0xff, 0xff, 0xff] 4 [] := by decide
  simp only [tuyaAiBasicPktReadTrace, hfirst, hmore]
  exact pktBodyTrace_wrap hwrap

/-! ## The reader of lists -/

theorem aiOpenPacket_ne_undefined {pkt : List UInt8} {recvLen : ℕ}
    (hwrap : aiGetPacketLen pkt + aiGetHeadLen pkt < 2 ^ 32)
    (h : PacketOpens charSigned c mem p pkt (aiGetHeadLen pkt) (aiGetPacketLen pkt)) :
    aiOpenPacket c mem p pkt recvLen ≠ .undefined := by
  obtain ⟨hsign, hopens⟩ := h
  have hlen : ¬(aiGetPacketLen pkt < aiSignLen ∨
      2 ^ 32 ≤ aiGetPacketLen pkt + aiGetHeadLen pkt) := by omega
  rw [aiOpenPacket]
  dsimp only
  rw [if_neg hlen]
  split_ifs with hright hmem htag
  · exact fun h ↦ by cases h
  · exact fun h ↦ by cases h
  · exact absurd htag (Nat.not_lt.mpr
      (hopens (not_not.mp hright) (Bool.eq_true_of_not_eq_false hmem)).1)
  · split
    · exact fun h ↦ by cases h
    · next plain hdec =>
        have hplain := (hopens (not_not.mp hright) (Bool.eq_true_of_not_eq_false hmem)).2 _ hdec
        rw [if_neg hplain.1]
        exact fun h ↦ by cases h

/-- Where the lengths agree, reading a packet from a list of bytes does nothing undefined. -/
theorem LengthsAgree.recvPacket_ne_undefined {es : List Event}
    (h : LengthsAgree charSigned cfg c mem p es) :
    (recvPacket cfg c mem p es).2.2 ≠ .undefined := by
  rw [recvPacket]
  cases hread : aiBaiscReadPktHead es with
  | lost rc rest => exact fun h ↦ by cases h
  | head buf rest =>
      obtain ⟨hwrap, hagree⟩ := h buf rest hread
      have hbuf := aiBaiscReadPktHead_length hread
      have hpos := aiGetHeadLen_pos buf
      have hneed : aiGetPacketLen buf + aiGetHeadLen buf - aiGetHeadLen buf =
          aiGetPacketLen buf := by omega
      dsimp only
      rw [recvBody]
      dsimp only
      rw [u32_of_lt hwrap, hneed]
      split_ifs with hlong hstale
      · exact fun h ↦ by cases h
      · exact fun h ↦ by cases h
      · split
        · exact fun h ↦ by cases h
        · next body last behind hbody =>
            have htake : (buf ++ body).take buf.length = buf := List.take_left
            have hhead : aiGetHeadLen (buf ++ body) = aiGetHeadLen buf := by
              rw [aiGetHeadLen, headIvFlag_append (by omega), ← aiGetHeadLen]
            have hpacket : aiGetPacketLen (buf ++ body) = aiGetPacketLen buf := by
              have hcut := @aiGetPacketLen_take (buf ++ body) buf.length (by omega)
              rw [htake] at hcut
              exact hcut.symm
            rw [storeIv_sequenceIn] at hstale
            have hopens := hagree (Nat.not_lt.mp hlong) (Nat.not_le.mp hstale) body last behind
              hbody
            apply aiOpenPacket_ne_undefined
            · rw [hhead, hpacket]
              exact hwrap
            · rw [hhead, hpacket]
              exact hopens

end TuyaOpen.Ai
