import Mathlib.Algebra.Order.BigOperators.Group.List
import TuyaOpen.Ai.FragSend
import TuyaOpen.Ai.Reject
import TuyaOpen.Lib.Mealy

/-!
# Uploads side by side

Messages that are uploaded in chunks with `tuya_ai_basic_pkt_frag_send`, to the cloud and to
writers, in any interleaving.  A stream is what goes to one destination in one packet
type.
-/

namespace TuyaOpen.Ai

open Bytes

/-- A chunk of a message with `total` bytes, with the business head in front of it, and what
its call meets. -/
structure Chunk where
  type : UInt8
  attrs : List AiAttribute
  head : List UInt8
  body : List UInt8
  total : ℕ
  writer : Option ℕ
  env : FragEnv
  head_length : head.length = bizHeadLen type
  type_idx : sendFragIdx type < 5
  total_lt : bizHeadLen type + total < 2 ^ 32

def Chunk.info (ch : Chunk) : FragPacket :=
  ⟨ch.type, ch.attrs, ch.head ++ ch.body, ch.head.length + ch.total, ch.writer⟩

abbrev Stream := Option ℕ × UInt8

def Chunk.stream (ch : Chunk) : Stream := (ch.writer, ch.type)

/-- A packet by its fragment flag and its data. -/
abbrev FragData := FragFlag × List UInt8

/-- One call for each chunk; the output is the packet that was transmitted. -/
def uploadMachine (cfg : AiConfig) (c : AiCipher) : Mealy FragSender Chunk (Option FragData) where
  step s ch :=
    match tuyaAiBasicPktFragSend cfg c ch.env s ch.info with
    | some (s', r) => (s', r.packet)
    | none => (s, none)

/-! ## What every stream should look like -/

/-- The chunks of one message. -/
structure IsUpload (chunks : List Chunk) : Prop where
  two_le : 2 ≤ chunks.length
  nonempty : ∀ ch ∈ chunks, ch.body ≠ []
  total : ∀ ch ∈ chunks, ch.total = (chunks.map (·.body.length)).sum

def tailPackets : List Chunk → List FragData
  | [] => []
  | [last] => [(.stop, last.body)]
  | ch :: next :: chunks => (.ing, ch.body) :: tailPackets (next :: chunks)

/-- START with the business head, ING*, END. -/
def messagePackets : List Chunk → List FragData
  | [] => []
  | first :: chunks => (.start, first.head ++ first.body) :: tailPackets chunks

/-- The packets of a stream in a run. -/
def streamOutputs (chunks : List Chunk) (outs : List (Option FragData)) (k : Stream) :
    List (Option FragData) :=
  ((chunks.zip outs).filter fun x ↦ x.1.stream = k).map Prod.snd

/-- The messages of every stream go out in order, up to one that is not complete. -/
def InOrder (chunks : List Chunk) (outs : List (Option FragData)) : Prop :=
  ∀ (k : Stream) (msgs : List (List Chunk)) (full part : List Chunk), (∀ m ∈ msgs, IsUpload m) →
    IsUpload full → part <+: full →
    chunks.filter (fun ch ↦ ch.stream = k) = msgs.flatten ++ part →
    streamOutputs chunks outs k =
      ((msgs.map messagePackets).flatten ++ (messagePackets full).take part.length).map some

/-! ## How far the streams are -/

/-- The bytes of the message before and after a chunk. -/
def Chunk.advance (ch : Chunk) (sent : ℕ) : ℕ :=
  if sent + ch.body.length < ch.total then sent + ch.body.length else 0

def bump (progress : Stream → ℕ) (ch : Chunk) : Stream → ℕ :=
  Function.update progress ch.stream (ch.advance (progress ch.stream))

theorem bump_of_ne (progress : Stream → ℕ) {ch : Chunk} {k : Stream} (h : k ≠ ch.stream) :
    bump progress ch k = progress k :=
  Function.update_of_ne h ..

/-- A chunk that overruns its total is not transmitted. -/
def OverrunsDropped : (Stream → ℕ) → List Chunk → List (Option FragData) → Prop
  | progress, ch :: chunks, out :: outs =>
      (ch.total < progress ch.stream + ch.body.length → out = none) ∧
        OverrunsDropped (bump progress ch) chunks outs
  | _, _, _ => True

/-- Nothing stands in the way of the chunk, it is inside of its total and less than a whole
message, and no other stream of its type is inside of a message. -/
structure Quiet (cfg : AiConfig) (progress : Stream → ℕ) (ch : Chunk) : Prop where
  sendable : Sendable cfg ch.env ch.info
  inside : progress ch.stream + ch.body.length ≤ ch.total
  part : progress ch.stream = 0 → ch.body.length < ch.total
  alone : ∀ k : Stream, k.2 = ch.type → k ≠ ch.stream → progress k = 0

def AllQuiet (cfg : AiConfig) : (Stream → ℕ) → List Chunk → Prop
  | _, [] => True
  | progress, ch :: chunks => Quiet cfg progress ch ∧ AllQuiet cfg (bump progress ch) chunks

/-! ## One chunk -/

/-- The packet of a chunk when so many bytes of its message are sent. -/
def Chunk.packet (ch : Chunk) (sent : ℕ) : FragData :=
  if sent = 0 then (.start, ch.head ++ ch.body)
  else if sent + ch.body.length = ch.total then (.stop, ch.body)
  else (.ing, ch.body)

/-- The offsets are those of the streams that are inside of a message. -/
structure Tracks (s : FragSender) (progress : Stream → ℕ) : Prop where
  open_eq : ∀ k : Stream, sendFragIdx k.2 < 5 → progress k ≠ 0 →
    s.sendFragMng (sendFragIdx k.2) = progress k
  closed_eq : ∀ type : UInt8, sendFragIdx type < 5 → (∀ k : Stream, k.2 = type → progress k = 0) →
    s.sendFragMng (sendFragIdx type) = 0

theorem sendFragIdx_injective {a b : UInt8} (h : sendFragIdx a = sendFragIdx b) : a = b := by
  have hsub : a - aiPtVideo = b - aiPtVideo := UInt8.toNat_inj.mp h
  have hadd := congrArg (· + aiPtVideo) hsub
  simpa using hadd

theorem Chunk.actualLen (ch : Chunk) (n : ℕ) (hn : bizHeadLen ch.type + n < 2 ^ 32) :
    u32 (ch.head.length + n + (2 ^ 32 - bizHeadLen ch.type)) = n := by
  rw [u32, ch.head_length]
  omega

section Step

variable {cfg : AiConfig} {progress : Stream → ℕ} {ch : Chunk} {s : FragSender}

theorem Tracks.offset (h : Tracks s progress) (hq : Quiet cfg progress ch) :
    s.sendFragMng (sendFragIdx ch.type) = progress ch.stream := by
  by_cases hzero : progress ch.stream = 0
  · rw [hzero]
    apply h.closed_eq ch.type ch.type_idx
    intro k hk
    by_cases hsame : k = ch.stream
    · rw [hsame, hzero]
    · exact hq.alone k hk hsame
  · exact h.open_eq ch.stream ch.type_idx hzero

theorem Tracks.getSendFrag (h : Tracks s progress) (hq : Quiet cfg progress ch) :
    aiBasicGetSendFrag s.sendFragMng ch.info =
      some (Function.update s.sendFragMng (sendFragIdx ch.type) (ch.advance (progress ch.stream)),
        ch.packet (progress ch.stream)) := by
  have hoffset := h.offset hq
  have hinside := hq.inside
  have htotal := ch.total_lt
  have hidx := ch.type_idx
  have hlen : u32 (ch.info.data.length + (2 ^ 32 - bizHeadLen ch.type)) = ch.body.length := by
    rw [Chunk.info, List.length_append]
    exact ch.actualLen _ (by omega)
  have hall : u32 (ch.info.totalLen + (2 ^ 32 - bizHeadLen ch.type)) = ch.total :=
    ch.actualLen _ htotal
  have hsum : u32 (progress ch.stream + ch.body.length) = progress ch.stream + ch.body.length :=
    u32_of_lt (by omega)
  have hlong : ¬ch.info.data.length < bizHeadLen ch.type := by
    rw [Chunk.info, List.length_append, ch.head_length]
    omega
  have hdrop : ch.info.data.drop (bizHeadLen ch.type) = ch.body := by
    rw [Chunk.info, ← ch.head_length, List.drop_left]
  have htype : ch.info.type = ch.type := rfl
  simp only [aiBasicGetSendFrag, htype, hlen, hall, hoffset, hsum, hdrop]
  rw [if_neg (by omega), if_neg (by omega)]
  by_cases hzero : progress ch.stream = 0
  · have hpart := hq.part hzero
    rw [if_pos hzero, Chunk.advance, Chunk.packet, if_pos hzero, hzero, Nat.zero_add,
      if_pos hpart]
    rfl
  · rw [if_neg hzero, if_neg (fun hshort ↦ hlong hshort.2), Chunk.advance, Chunk.packet,
      if_neg hzero]
    by_cases hend : progress ch.stream + ch.body.length = ch.total
    · rw [if_pos hend, if_pos hend, if_neg (by omega)]
    · have hlt : progress ch.stream + ch.body.length < ch.total := by omega
      rw [if_neg hend, if_neg hend, if_pos hlt, if_pos hlt]

theorem Tracks.bump (h : Tracks s progress) (hq : Quiet cfg progress ch) {s' : FragSender}
    (hmng : s'.sendFragMng =
      Function.update s.sendFragMng (sendFragIdx ch.type) (ch.advance (progress ch.stream))) :
    Tracks s' (Ai.bump progress ch) := by
  have hother : ∀ {type : UInt8}, type ≠ ch.type →
      s'.sendFragMng (sendFragIdx type) = s.sendFragMng (sendFragIdx type) := by
    intro type htype
    rw [hmng, Function.update_of_ne fun hidx ↦ htype (sendFragIdx_injective hidx)]
  constructor
  · intro k hk hne
    by_cases hsame : k = ch.stream
    · rw [hsame, hmng, Ai.bump, Function.update_self]
      exact Function.update_self ..
    · rw [bump_of_ne progress hsame] at hne ⊢
      have htype : k.2 ≠ ch.type := fun htype ↦ hne (hq.alone k htype hsame)
      rw [hother htype]
      exact h.open_eq k hk hne
  · intro type htype hzero
    by_cases hsame : type = ch.type
    · have hself := hzero ch.stream hsame.symm
      rw [Ai.bump, Function.update_self] at hself
      rw [hsame, hmng, Function.update_self, hself]
    · rw [hother hsame]
      apply h.closed_eq type htype
      intro k hk
      have hk' : k ≠ ch.stream := by
        rintro rfl
        exact hsame hk.symm
      have hbump := hzero k hk
      rwa [bump_of_ne progress hk'] at hbump

end Step

/-! ## Runs -/

section Run

variable {cfg : AiConfig} {c : AiCipher} {progress : Stream → ℕ} {s : FragSender}

theorem Quiet.step (hc : c.Lawful) {ch : Chunk} (hq : Quiet cfg progress ch)
    (h : Tracks s progress) (henc : Encrypts c s.proto) :
    ∃ s', (uploadMachine cfg c).step s ch = (s', some (ch.packet (progress ch.stream))) ∧
      Tracks s' (bump progress ch) ∧ Encrypts c s'.proto := by
  have hdata : (ch.packet (progress ch.stream)).2.length ≤ ch.info.data.length := by
    simp only [Chunk.packet, Chunk.info]
    split_ifs <;> simp
  have hfrag := h.getSendFrag hq
  rcases hpacket : ch.packet (progress ch.stream) with ⟨frag, data⟩
  rw [hpacket] at hfrag hdata
  obtain ⟨s', r, hsend, hsent, hmng, henc'⟩ := hq.sendable.send hc henc hfrag hdata
  refine ⟨s', ?_, h.bump hq hmng, henc'⟩
  simp only [uploadMachine, hsend, hsent]

/-- What a run should transmit, chunk by chunk. -/
def expected : (Stream → ℕ) → List Chunk → List (Option FragData)
  | _, [] => []
  | progress, ch :: chunks =>
      some (ch.packet (progress ch.stream)) :: expected (bump progress ch) chunks

theorem outputs_eq_expected (hc : c.Lawful) {chunks : List Chunk}
    (hq : AllQuiet cfg progress chunks) (h : Tracks s progress) (henc : Encrypts c s.proto) :
    (uploadMachine cfg c).outputs s chunks = expected progress chunks := by
  induction chunks generalizing progress s with
  | nil => rfl
  | cons ch chunks ih =>
      obtain ⟨hch, hrest⟩ := hq
      obtain ⟨s', hstep, htracks, henc'⟩ := hch.step hc h henc
      rw [Mealy.outputs_cons, hstep, expected, ih hrest htracks henc']

theorem overrunsDropped_of_quiet {chunks : List Chunk} (hq : AllQuiet cfg progress chunks)
    (outs : List (Option FragData)) : OverrunsDropped progress chunks outs := by
  induction chunks generalizing progress outs with
  | nil => trivial
  | cons ch chunks ih =>
      cases outs with
      | nil => trivial
      | cons out outs =>
          obtain ⟨hch, hrest⟩ := hq
          refine ⟨fun hover ↦ ?_, ih hrest outs⟩
          exact absurd hch.inside (Nat.not_le.mpr hover)

end Run

/-! ## One stream -/

/-- The packets of one stream, when so many bytes of a message are sent. -/
@[grind =] def streamPackets : ℕ → List Chunk → List FragData
  | _, [] => []
  | sent, ch :: chunks => ch.packet sent :: streamPackets (ch.advance sent) chunks

theorem streamOutputs_expected (progress : Stream → ℕ) (chunks : List Chunk) (k : Stream) :
    streamOutputs chunks (expected progress chunks) k =
      (streamPackets (progress k) (chunks.filter fun ch ↦ ch.stream = k)).map some := by
  induction chunks generalizing progress with
  | nil => rfl
  | cons ch chunks ih =>
      have hrest := ih (bump progress ch)
      by_cases hk : ch.stream = k
      · rw [bump, hk, Function.update_self] at hrest
        rw [List.filter_cons_of_pos (by simpa using hk), streamPackets, List.map_cons, ← hrest,
          streamOutputs, expected, List.zip_cons_cons, List.filter_cons_of_pos (by simpa using hk),
          List.map_cons, hk]
        rw [streamOutputs, bump, hk]
      · rw [bump_of_ne progress (Ne.symm hk)] at hrest
        rw [List.filter_cons_of_neg (by simpa using hk), ← hrest, streamOutputs, expected,
          List.zip_cons_cons, List.filter_cons_of_neg (by simpa using hk)]
        rfl

theorem streamPackets_take (sent n : ℕ) (chunks : List Chunk) :
    streamPackets sent (chunks.take n) = (streamPackets sent chunks).take n := by
  induction chunks generalizing sent n with
  | nil => simp [streamPackets]
  | cons ch chunks ih =>
      cases n with
      | zero => rfl
      | succ n =>
          rw [List.take_succ_cons, streamPackets, streamPackets, ih, List.take_succ_cons]

theorem streamPackets_tail (total : ℕ) {sent : ℕ} {chunks : List Chunk} (hsent : 0 < sent)
    (hne : chunks ≠ []) (hbody : ∀ ch ∈ chunks, ch.body ≠ [])
    (htotal : ∀ ch ∈ chunks, ch.total = total)
    (hsum : sent + (chunks.map (·.body.length)).sum = total) (rest : List Chunk) :
    streamPackets sent (chunks ++ rest) = tailPackets chunks ++ streamPackets 0 rest := by
  induction chunks generalizing sent with
  | nil => exact absurd rfl hne
  | cons ch chunks ih =>
      have hpos := List.length_pos_of_ne_nil (hbody ch List.mem_cons_self)
      have htot := htotal ch List.mem_cons_self
      rw [List.map_cons, List.sum_cons] at hsum
      rw [List.cons_append, streamPackets, Chunk.packet, if_neg (by omega), Chunk.advance]
      cases chunks with
      | nil =>
          rw [List.map_nil, List.sum_nil] at hsum
          rw [if_pos (by omega), if_neg (by omega)]
          rfl
      | cons next chunks =>
          have hnext := List.length_pos_of_ne_nil
            (hbody next (List.mem_cons_of_mem ch List.mem_cons_self))
          have hmore : sent + ch.body.length < ch.total := by
            rw [List.map_cons, List.sum_cons] at hsum
            omega
          rw [if_neg (by omega), if_pos hmore,
            ih (by omega) (List.cons_ne_nil _ _) (fun x hx ↦ hbody x (List.mem_cons_of_mem ch hx))
              (fun x hx ↦ htotal x (List.mem_cons_of_mem ch hx)) (by omega)]
          rfl

theorem IsUpload.streamPackets {chunks : List Chunk} (h : IsUpload chunks) (rest : List Chunk) :
    streamPackets 0 (chunks ++ rest) = messagePackets chunks ++ Ai.streamPackets 0 rest := by
  cases chunks with
  | nil => exact absurd h.two_le (by simp)
  | cons first chunks =>
      have hne : chunks ≠ [] := by
        rintro rfl
        exact absurd h.two_le (by simp)
      obtain ⟨next, hnext⟩ := List.exists_mem_of_ne_nil chunks hne
      have hfirst := List.length_pos_of_ne_nil (h.nonempty first List.mem_cons_self)
      have hbody := List.length_pos_of_ne_nil (h.nonempty next (List.mem_cons_of_mem first hnext))
      have hle : next.body.length ≤ (chunks.map (·.body.length)).sum :=
        List.le_sum_of_mem (List.mem_map_of_mem hnext)
      have htotal := h.total first List.mem_cons_self
      rw [List.map_cons, List.sum_cons] at htotal
      rw [List.cons_append, Ai.streamPackets, Chunk.packet, if_pos rfl, Chunk.advance,
        if_pos (by omega), streamPackets_tail first.total (by omega) hne
          (fun x hx ↦ h.nonempty x (List.mem_cons_of_mem first hx)) ?_ (by omega)]
      · rfl
      · intro x hx
        rw [h.total x (List.mem_cons_of_mem first hx), h.total first List.mem_cons_self]

theorem streamPackets_messages {msgs : List (List Chunk)} (h : ∀ m ∈ msgs, IsUpload m)
    (rest : List Chunk) :
    streamPackets 0 (msgs.flatten ++ rest) =
      (msgs.map messagePackets).flatten ++ streamPackets 0 rest := by
  induction msgs with
  | nil => rfl
  | cons m msgs ih =>
      rw [List.flatten_cons, List.append_assoc, (h m List.mem_cons_self).streamPackets,
        ih fun x hx ↦ h x (List.mem_cons_of_mem m hx), List.map_cons, List.flatten_cons,
        List.append_assoc]

/-- Uploads that do not meet in one packet type, and whose chunks all get through, are in
order. -/
theorem uploads_in_order {cfg : AiConfig} {c : AiCipher} (hc : c.Lawful) {p : AiProtoOut}
    (henc : Encrypts c p) (writerSequence : ℕ → ℕ) {chunks : List Chunk}
    (hq : AllQuiet cfg (fun _ ↦ 0) chunks) :
    InOrder chunks ((uploadMachine cfg c).outputs ⟨p, fun _ ↦ 0, writerSequence⟩ chunks) ∧
      OverrunsDropped (fun _ ↦ 0) chunks
        ((uploadMachine cfg c).outputs ⟨p, fun _ ↦ 0, writerSequence⟩ chunks) := by
  have htracks : Tracks ⟨p, fun _ ↦ 0, writerSequence⟩ fun _ ↦ 0 :=
    ⟨fun _ _ hne ↦ absurd rfl hne, fun _ _ _ ↦ rfl⟩
  refine ⟨?_, overrunsDropped_of_quiet hq _⟩
  intro k msgs full part hmsgs hfull hpart hstream
  have hwhole : streamPackets 0 full = messagePackets full := by
    simpa [streamPackets] using hfull.streamPackets []
  have htail : streamPackets 0 part = (messagePackets full).take part.length := by
    rw [← hwhole, ← streamPackets_take, ← List.prefix_iff_eq_take.mp hpart]
  rw [outputs_eq_expected hc hq htracks henc, streamOutputs_expected, hstream,
    streamPackets_messages hmsgs, htail]

/-! ## Two runs -/

/-- The cipher library by one value, and with other data as they are. -/
def CipherValues.total (v : CipherValues) : AiCipher where
  encrypt key nonce data :=
    if key = v.key ∧ nonce = v.nonce ∧ data = v.data then .ok (v.ct, v.tag)
    else .ok (data, List.replicate aiGcmTagLen 0)
  decrypt key nonce ct tag :=
    if key = v.key ∧ nonce = v.nonce ∧ ct = v.ct ∧ tag = v.tag then .ok v.data else .ok ct
  sha256Mac := v.cipher.sha256Mac

theorem CipherValues.total_lawful (v : CipherValues) (hct : v.ct.length = v.data.length)
    (htag : v.tag.length = aiGcmTagLen) (hzero : v.tag ≠ List.replicate aiGcmTagLen 0)
    (hmacs : ∀ m ∈ v.macs, m.2.length = aiSignLen) : v.total.Lawful := by
  constructor
  · intro key nonce data ct tag h
    simp only [total] at h ⊢
    split_ifs at h with hval
    · obtain ⟨rfl, rfl⟩ := Prod.mk.inj (Except.ok.inj h)
      rw [if_pos ⟨hval.1, hval.2.1, rfl, rfl⟩, hval.2.2]
    · obtain ⟨rfl, rfl⟩ := Prod.mk.inj (Except.ok.inj h)
      rw [if_neg fun hall ↦ hzero hall.2.2.2.symm]
  · intro key nonce data ct tag h
    simp only [total] at h
    split_ifs at h with hval
    · obtain ⟨rfl, rfl⟩ := Prod.mk.inj (Except.ok.inj h)
      rw [hct, hval.2.2]
    · obtain ⟨rfl, rfl⟩ := Prod.mk.inj (Except.ok.inj h)
      rfl
  · intro key nonce data ct tag h
    simp only [total] at h
    split_ifs at h
    · obtain ⟨rfl, rfl⟩ := Prod.mk.inj (Except.ok.inj h)
      exact htag
    · obtain ⟨rfl, rfl⟩ := Prod.mk.inj (Except.ok.inj h)
      exact List.length_replicate
  · intro key nonce ct tag data h
    simp only [total] at h
    split_ifs at h with hval
    · rw [← Except.ok.inj h, hval.2.2.1, hct]
    · rw [Except.ok.inj h]
  · exact (v.lawful hct htag hmacs).length_mac

theorem CipherValues.total_encrypts (v : CipherValues) (p : AiProtoOut) : Encrypts v.total p := by
  intro data
  simp only [total]
  split_ifs
  · exact ⟨v.ct, v.tag, rfl⟩
  · exact ⟨data, List.replicate aiGcmTagLen 0, rfl⟩

/-- A chunk without attributes, of a message of two bytes. -/
def imageChunk (writer : Option ℕ) (body : List UInt8) : Chunk where
  type := aiPtImage
  attrs := []
  head := List.replicate 15 0
  body := body
  total := 2
  writer := writer
  env := ⟨true, true, ⟨true, true, none⟩⟩
  head_length := rfl
  type_idx := by decide
  total_lt := by decide

def textChunk (body : List UInt8) : Chunk where
  type := aiPtText
  attrs := []
  head := List.replicate 7 0
  body := body
  total := 2
  writer := none
  env := ⟨true, true, ⟨true, true, none⟩⟩
  head_length := rfl
  type_idx := by decide
  total_lt := by decide

/-- The values for the first chunk of a text to the cloud and two chunks of an image to a
writer. -/
def textValues : CipherValues where
  key := sampleCryptKey
  nonce := sampleIv
  data := [68, 0, 0, 0, 9, 0, 0, 0, 0, 0, 0, 0, 7, 3, 3, 3]
  ct := [143, 204, 164, 230, 21, 129, 25, 239, 190, 3, 14, 171, 2, 48, 253, 157]
  tag := [125, 84, 50, 115, 134, 167, 92, 106, 96, 139, 219, 17, 205, 32, 59, 248]
  signKey := sampleSignKey
  macs :=
    [([1, 0, 1, 73, 0] ++ sampleIv ++ [0, 0, 0, 64, 143, 204, 164, 230, 21, 129, 25, 239, 190, 3,
        14, 171, 2, 48, 253, 157, 125, 84, 50, 115, 134, 167, 92, 106, 96, 139, 219, 17, 205, 32,
        59, 248],
      [56, 100, 133, 29, 134, 178, 153, 196, 200, 102, 242, 160, 138, 252, 71, 24, 202, 151, 231,
        105, 116, 22, 88, 6, 69, 31, 30, 179, 224, 4, 32, 37]),
    ([1, 0, 1, 64, 0, 0, 0, 0, 53, 64, 0, 0, 0, 17] ++ List.replicate 15 0 ++ [5],
      [135, 86, 92, 121, 141, 82, 248, 209, 156, 97, 225, 239, 69, 41, 93, 134, 253, 52, 86, 210,
        26, 255, 252, 133, 13, 182, 20, 22, 217, 255, 181, 138]),
    ([1, 0, 2, 192, 0, 0, 0, 0, 33, 6],
      [156, 95, 127, 228, 78, 148, 173, 120, 105, 254, 9, 144, 79, 229, 18, 244, 92, 194, 197, 49,
        172, 182, 204, 81, 170, 164, 58, 75, 3, 101, 113, 54])]

/-- A text to the cloud and an image to a writer do not meet. -/
def apartChunks : List Chunk :=
  [textChunk [7], imageChunk (some 0) [5], imageChunk (some 0) [6]]

theorem apartChunks_quiet : AllQuiet sampleConfig (fun _ ↦ 0) apartChunks := by
  have htext : Sendable sampleConfig (textChunk [7]).env (textChunk [7]).info :=
    ⟨rfl, rfl, rfl, rfl, rfl, by simp [textChunk, Chunk.info], by decide⟩
  have himage : ∀ b, Sendable sampleConfig (imageChunk (some 0) [b]).env
      (imageChunk (some 0) [b]).info :=
    fun b ↦ ⟨rfl, rfl, rfl, rfl, rfl, by simp [imageChunk, Chunk.info],
      (by decide : 190 + 0 + 16 ≤ 10240)⟩
  have hother : ∀ k : Stream, k.2 = aiPtImage → k ≠ (textChunk [7]).stream := by
    rintro k hk rfl
    exact absurd hk (by decide)
  refine ⟨⟨htext, by decide, fun _ ↦ by decide, fun _ _ _ ↦ rfl⟩,
    ⟨himage 5, by decide, fun _ ↦ by decide, ?_⟩, ⟨himage 6, by decide, ?_, ?_⟩, trivial⟩
  · intro k hk _
    rw [bump_of_ne _ (hother k hk)]
  · intro _
    decide
  · intro k hk hne
    have hfirst : k ≠ (imageChunk (some 0) [5]).stream := hne
    rw [bump_of_ne _ hfirst, bump_of_ne _ (hother k hk)]

/-- They go out in order. -/
theorem uploads_in_order_apart :
    InOrder apartChunks ((uploadMachine sampleConfig textValues.total).outputs
      ⟨readyProto, fun _ ↦ 0, fun _ ↦ 1⟩ apartChunks) ∧
    OverrunsDropped (fun _ ↦ 0) apartChunks ((uploadMachine sampleConfig textValues.total).outputs
      ⟨readyProto, fun _ ↦ 0, fun _ ↦ 1⟩ apartChunks) :=
  uploads_in_order (textValues.total_lawful rfl rfl (by decide) (by decide))
    (textValues.total_encrypts readyProto) (fun _ ↦ 1) apartChunks_quiet

/-- The values for the first chunk of an image to the cloud, two chunks of an image to a
writer, and a chunk that overruns. -/
def imageValues : CipherValues where
  key := sampleCryptKey
  nonce := sampleIv
  data := [64, 0, 0, 0, 17] ++ List.replicate 15 0 ++ [7] ++ List.replicate 11 11
  ct :=
    [139, 204, 164, 230, 13, 129, 25, 239, 190, 3, 14, 171, 5, 51, 254, 158, 156, 205, 98, 230,
      215, 239, 27, 207, 110, 42, 143, 63, 52, 177, 255, 228]
  tag := [36, 37, 213, 205, 241, 94, 38, 154, 17, 224, 144, 36, 241, 16, 16, 174]
  signKey := sampleSignKey
  macs :=
    [([1, 0, 1, 73, 0] ++ sampleIv ++ [0, 0, 0, 80, 139, 204, 164, 230, 13, 129, 25, 156, 205, 98,
        230, 215, 239, 27, 207, 110, 42, 143, 63, 52, 177, 255, 228, 36, 37, 213, 205, 241, 94, 38,
        154, 17, 224, 144, 36, 241, 16, 16, 174],
      [240, 216, 193, 103, 118, 217, 6, 190, 217, 158, 44, 46, 54, 216, 20, 34, 128, 110, 228, 58,
        196, 78, 205, 246, 184, 91, 98, 61, 139, 60, 35, 197]),
    ([1, 0, 1, 192, 0, 0, 0, 0, 33, 5],
      [168, 91, 45, 151, 204, 212, 160, 128, 92, 97, 208, 165, 19, 178, 21, 166, 144, 243, 101,
        238, 15, 121, 200, 58, 137, 115, 21, 11, 156, 238, 53, 11]),
    ([1, 0, 2, 64, 0, 0, 0, 0, 53, 64, 0, 0, 0, 17] ++ List.replicate 15 0 ++ [6],
      [194, 1, 87, 99, 63, 159, 81, 145, 95, 47, 180, 198, 241, 143, 219, 49, 55, 215, 62, 152,
        211, 209, 254, 64, 193, 103, 205, 205, 0, 129, 81, 73]),
    ([1, 0, 1, 64, 0, 0, 0, 0, 53, 64, 0, 0, 0, 17] ++ List.replicate 15 0 ++ [5],
      [135, 86, 92, 121, 141, 82, 248, 209, 156, 97, 225, 239, 69, 41, 93, 134, 253, 52, 86, 210,
        26, 255, 252, 133, 13, 182, 20, 22, 217, 255, 181, 138]),
    ([1, 0, 2, 0, 0, 0, 0, 0, 54, 64, 0, 0, 0, 17] ++ List.replicate 15 0 ++ [6, 6],
      [233, 92, 221, 104, 169, 191, 223, 162, 83, 114, 200, 3, 186, 42, 52, 147, 251, 143, 143,
        148, 163, 79, 152, 161, 228, 235, 195, 63, 202, 33, 21, 132])]

/-- An image goes to a writer while another one goes to the cloud. -/
def meetingChunks : List Chunk :=
  [imageChunk none [7], imageChunk (some 0) [5], imageChunk (some 0) [6]]

/-- The second chunk has a byte too many. -/
def overrunChunks : List Chunk := [imageChunk (some 0) [5], imageChunk (some 0) [6, 6]]

/-- The image of the writer goes out as END, START; and the chunk that overruns goes out. -/
theorem uploads_disturbed :
    ¬InOrder meetingChunks ((uploadMachine sampleConfig imageValues.total).outputs
      ⟨readyProto, fun _ ↦ 0, fun _ ↦ 1⟩ meetingChunks) ∧
    ¬OverrunsDropped (fun _ ↦ 0) overrunChunks ((uploadMachine sampleConfig
      imageValues.total).outputs ⟨readyProto, fun _ ↦ 0, fun _ ↦ 1⟩ overrunChunks) := by
  constructor
  · intro h
    have hupload : IsUpload [imageChunk (some 0) [5], imageChunk (some 0) [6]] :=
      ⟨le_rfl, by simp [imageChunk], by simp [imageChunk]⟩
    have horder := h (some 0, aiPtImage) [[imageChunk (some 0) [5], imageChunk (some 0) [6]]]
      [imageChunk (some 0) [5], imageChunk (some 0) [6]] [] (by simpa using hupload) hupload
      (List.nil_prefix) rfl
    have hflag : (streamOutputs meetingChunks ((uploadMachine sampleConfig
        imageValues.total).outputs ⟨readyProto, fun _ ↦ 0, fun _ ↦ 1⟩ meetingChunks)
          (some 0, aiPtImage)).head? = some (some (.stop, [5])) := by decide +kernel
    rw [horder] at hflag
    exact absurd hflag (by decide)
  · intro h
    have hsent : ((uploadMachine sampleConfig imageValues.total).outputs
        ⟨readyProto, fun _ ↦ 0, fun _ ↦ 1⟩ overrunChunks)[1]? =
          some (some (.noFrag, List.replicate 15 0 ++ [6, 6])) := by decide +kernel
    have hdropped := h.2.1 (by decide)
    rw [overrunChunks, Mealy.outputs_getElem?] at hsent
    have hnone : some (some (FragFlag.noFrag, List.replicate 15 0 ++ [6, 6])) =
        some (none : Option FragData) := by
      rw [← hsent, ← hdropped]
      rfl
    cases hnone

end TuyaOpen.Ai
