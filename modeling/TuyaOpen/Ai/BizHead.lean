import TuyaOpen.Ai.Biz

/-!
# The head of a business message

`tuya_ai_send_biz_pkt_custom` puts a head in front of the data, in a layout of its own for
every type, and `__ai_parse_biz_head` reads it.  The length of an event has two bytes, and is
swapped as if it had four on both sides.
-/

namespace TuyaOpen.Ai

open Bytes ByteMem

/-- `AI_BIZ_HEAD_INFO_T`, with the values of all types in one: a video or an audio has a
`pts`, and an image a timestamp without one. -/
structure BizHeadInfo where
  streamFlag : UInt8
  timestamp : UInt64
  pts : UInt64
  totalLen : UInt32
  len : UInt32
  deriving DecidableEq

/-- A message without a total length is sent in one piece. -/
def BizHeadInfo.total (head : BizHeadInfo) : ℕ :=
  if head.totalLen = 0 then head.len.toNat else head.totalLen.toNat

/-- `reserve` is below the two bits of the flag. -/
def streamFlagByte (flag : UInt8) : UInt8 := flag % 4 * 64

def mediaHead (id : UInt16) (head : BizHeadInfo) : List UInt8 :=
  encodeBE 2 id.toNat ++ ([streamFlagByte head.streamFlag] ++ (encodeBE 8 head.timestamp.toNat ++
    (encodeBE 8 head.pts.toNat ++ encodeBE 4 head.total)))

def imageHead (id : UInt16) (head : BizHeadInfo) : List UInt8 :=
  encodeBE 2 id.toNat ++ ([streamFlagByte head.streamFlag] ++ (encodeBE 8 head.timestamp.toNat ++
    encodeBE 4 head.total))

def fileHead (id : UInt16) (head : BizHeadInfo) : List UInt8 :=
  encodeBE 2 id.toNat ++ ([streamFlagByte head.streamFlag] ++ encodeBE 4 head.total)

/-- The low half of the swapped length is stored. -/
def eventHead (id : UInt16) (head : BizHeadInfo) : List UInt8 :=
  encodeBE 2 id.toNat ++ (encodeBE 4 head.total).take 2

def bizHeadBytes (type : UInt8) (id : UInt16) (head : BizHeadInfo) : Option (List UInt8) :=
  if type = aiPtVideo then some (mediaHead id head)
  else if type = aiPtAudio then some (mediaHead id head)
  else if type = aiPtImage then some (imageHead id head)
  else if type = aiPtFile then some (fileHead id head)
  else if type = aiPtText then some (fileHead id head)
  else if type = aiPtEvent then some (eventHead id head)
  else none

/-- Whether the business layer is up, and which sizes there is memory for. -/
structure BizSendEnv where
  up : Bool
  malloc : ℕ → Bool

/-- `AI_BIZ_ATTR_INFO_T`. -/
structure BizAttrInfo (α : Type) where
  hasAttr : Bool
  value : α

/-- What is given to `tuya_ai_basic_video` and its siblings. -/
structure BizSend (α : Type) where
  type : UInt8
  attr : Option α
  data : List UInt8
  totalLen : ℕ
  writer : Option ℕ

def bizBody (payload : Option Mem) (len : ℕ) : List UInt8 :=
  match payload with
  | some m => slice m 0 len
  | none => List.replicate len 0

/-- The memory has the size of the head and the data, which wraps around: a head that does not
fit is written behind it. -/
def tuyaAiSendBizPktCustom {α : Type} (env : BizSendEnv) (id : UInt16)
    (attr : Option (BizAttrInfo α)) (type : UInt8) (head : BizHeadInfo) (payload : Option Mem)
    (writer : Option ℕ) : Except Fault (BizSend α) :=
  if env.up = false then .error (.ret oprtComError)
  else
    match bizHeadBytes type id head with
    | none => .error (.ret oprtComError)
    | some bytes =>
        let payloadLen := u32 (bytes.length + head.len.toNat)
        if env.malloc payloadLen = false then .error (.ret oprtMallocFailed)
        else if payloadLen < bytes.length then .error .undefined
        else
          .ok
            { type := type
              attr := (attr.filter BizAttrInfo.hasAttr).map BizAttrInfo.value
              data := bytes ++ bizBody payload head.len.toNat
              totalLen := u32 (bytes.length + head.total)
              writer := writer }

/-! ## Reading it back -/

def bizTypes : List UInt8 := [aiPtVideo, aiPtAudio, aiPtImage, aiPtFile, aiPtText, aiPtEvent]

def bizHeadSize (type : UInt8) : ℕ := if type = aiPtEvent then 4 else bizHeadLen type

def headHasFlag (type : UInt8) : Bool := type ≠ aiPtEvent

def headHasTimestamp (type : UInt8) : Bool := type = aiPtVideo ∨ type = aiPtAudio ∨ type = aiPtImage

def headHasPts (type : UInt8) : Bool := type = aiPtVideo ∨ type = aiPtAudio

/-- The fields that the layout of the type has are read as they were sent, and this length. -/
structure ReadsBack (type : UInt8) (id : UInt16) (head : BizHeadInfo) (m : Mem) (payload len : ℕ)
    (r : BizHead) : Prop where
  id : word m payload 2 = id.toNat
  streamFlag : headHasFlag type → r.streamFlag = head.streamFlag.toNat
  timestamp : headHasTimestamp type → r.timestamp = head.timestamp.toNat
  pts : headHasPts type → r.pts = head.pts.toNat
  len : r.len = len

/-- A message that is sent arrives anywhere in the memory of the receiver. -/
def HeadRoundTrips {α : Type} (env : BizSendEnv) (id : UInt16) (attr : Option (BizAttrInfo α))
    (type : UInt8) (head : BizHeadInfo) (payload : Option Mem) (writer : Option ℕ) : Prop :=
  match tuyaAiSendBizPktCustom env id attr type head payload writer with
  | .error (.ret _) => True
  | .error .undefined => False
  | .ok out => ∀ (m : Mem) (start : ℕ), slice m start out.data.length = out.data →
      ∃ r size, aiParseBizHead type m start = some (r, size) ∧
        ReadsBack type id head m start head.total r

section Read

variable {m : Mem} {start off k n : ℕ} {bs mid : List UInt8}

theorem slice_middle (front back : List UInt8) (h : slice m start bs.length = bs)
    (hbs : bs = front ++ (mid ++ back)) (hoff : front.length = off) (hn : mid.length = n) :
    slice m (start + off) n = mid := by
  subst hbs hoff hn
  rw [List.length_append] at h
  have hrest := (slice_of_append h).2
  rw [List.length_append] at hrest
  exact (slice_of_append hrest).1

theorem word_middle (front back : List UInt8) (h : slice m start bs.length = bs)
    (hbs : bs = front ++ (encodeBE k n ++ back)) (hoff : front.length = off) (hn : n < 256 ^ k) :
    word m (start + off) k = n := by
  rw [word, slice_middle front back h hbs hoff (length_encodeBE k n), decodeBE_encodeBE hn]

theorem byte_middle {b : UInt8} (front back : List UInt8) (h : slice m start bs.length = bs)
    (hbs : bs = front ++ ([b] ++ back)) (hoff : front.length = off) : m (start + off) = b := by
  have hslice : slice m (start + off) 1 = [b] := slice_middle front back h hbs hoff rfl
  exact (List.cons.inj hslice).1

variable {id : UInt16} {head : BizHeadInfo}

theorem streamFlagByte_div {flag : UInt8} (h : flag < 4) :
    (streamFlagByte flag).toNat / 64 = flag.toNat := by
  have hlt : flag.toNat < 4 := h
  simp only [streamFlagByte, UInt8.toNat_mul, UInt8.toNat_mod, UInt8.toNat_ofNat, Nat.reducePow,
    Nat.reduceMod]
  omega

theorem BizHeadInfo.total_lt (head : BizHeadInfo) : head.total < 256 ^ 4 := by
  have hlen := head.len.toNat_lt
  have htotal := head.totalLen.toNat_lt
  rw [BizHeadInfo.total]
  split_ifs <;> omega

theorem id_of_slice (back : List UInt8) (h : slice m start bs.length = bs)
    (hbs : bs = encodeBE 2 id.toNat ++ back) : word m start 2 = id.toNat := by
  have hid : id.toNat < 256 ^ 2 := id.toNat_lt
  have hfront : bs = [] ++ (encodeBE 2 id.toNat ++ back) := hbs
  have hword : word m (start + 0) 2 = id.toNat := word_middle [] back h hfront rfl hid
  rwa [Nat.add_zero] at hword

theorem flag_of_slice (hflag : head.streamFlag < 4) (back : List UInt8)
    (h : slice m start bs.length = bs)
    (hbs : bs = encodeBE 2 id.toNat ++ ([streamFlagByte head.streamFlag] ++ back)) :
    (m (start + 2)).toNat / 64 = head.streamFlag.toNat := by
  have hbyte : m (start + 2) = streamFlagByte head.streamFlag :=
    byte_middle (encodeBE 2 id.toNat) back h hbs (length_encodeBE 2 id.toNat)
  rw [hbyte, streamFlagByte_div hflag]

theorem mediaHead_read {type : UInt8} (htype : type = aiPtVideo ∨ type = aiPtAudio)
    (hflag : head.streamFlag < 4)
    (h : slice m start (mediaHead id head).length = mediaHead id head) :
    ∃ r, aiParseBizHead type m start = some (r, 23) ∧
      ReadsBack type id head m start head.total r := by
  refine ⟨_, if_pos htype, id_of_slice _ h rfl, fun _ ↦ flag_of_slice hflag _ h rfl, fun _ ↦ ?_,
    fun _ ↦ ?_, ?_⟩
  · exact word_middle (encodeBE 2 id.toNat ++ [streamFlagByte head.streamFlag]) _ h rfl rfl
      head.timestamp.toNat_lt
  · exact word_middle (encodeBE 2 id.toNat ++ [streamFlagByte head.streamFlag] ++
      encodeBE 8 head.timestamp.toNat) _ h rfl rfl head.pts.toNat_lt
  · exact word_middle (encodeBE 2 id.toNat ++ [streamFlagByte head.streamFlag] ++
      encodeBE 8 head.timestamp.toNat ++ encodeBE 8 head.pts.toNat) [] h rfl rfl head.total_lt

theorem imageHead_read (hflag : head.streamFlag < 4)
    (h : slice m start (imageHead id head).length = imageHead id head) :
    ∃ r, aiParseBizHead aiPtImage m start = some (r, 15) ∧
      ReadsBack aiPtImage id head m start head.total r := by
  refine ⟨_, rfl, id_of_slice _ h rfl, fun _ ↦ flag_of_slice hflag _ h rfl, fun _ ↦ ?_,
    fun hpts ↦ ?_, ?_⟩
  · exact word_middle (encodeBE 2 id.toNat ++ [streamFlagByte head.streamFlag]) _ h rfl rfl
      head.timestamp.toNat_lt
  · exact absurd hpts (by decide)
  · exact word_middle (encodeBE 2 id.toNat ++ [streamFlagByte head.streamFlag] ++
      encodeBE 8 head.timestamp.toNat) [] h rfl rfl head.total_lt

theorem fileHead_read {type : UInt8} (htype : type = aiPtFile ∨ type = aiPtText)
    (hflag : head.streamFlag < 4)
    (h : slice m start (fileHead id head).length = fileHead id head) :
    ∃ r, aiParseBizHead type m start = some (r, 7) ∧
      ReadsBack type id head m start head.total r := by
  have hlen : word m (start + 3) 4 = head.total :=
    word_middle (encodeBE 2 id.toNat ++ [streamFlagByte head.streamFlag]) [] h rfl rfl head.total_lt
  have hid : word m start 2 = id.toNat := id_of_slice _ h rfl
  have hstream := flag_of_slice hflag _ h rfl
  rcases htype with rfl | rfl
  · exact ⟨_, rfl, hid, fun _ ↦ hstream, fun ht ↦ absurd ht (by decide),
      fun hp ↦ absurd hp (by decide), hlen⟩
  · exact ⟨_, rfl, hid, fun _ ↦ hstream, fun ht ↦ absurd ht (by decide),
      fun hp ↦ absurd hp (by decide), hlen⟩

theorem eventHead_read (h : slice m start (eventHead id head).length = eventHead id head) :
    ∃ r, aiParseBizHead aiPtEvent m start = some (r, 4) ∧
      ReadsBack aiPtEvent id head m start (head.total / 2 ^ 16 * 2 ^ 16) r := by
  have hhalf : (encodeBE 4 head.total).take 2 = encodeBE 2 (head.total / 2 ^ 16) := by
    simp only [encodeBE, Nat.shiftRight_eq_div_pow, Nat.div_div_eq_div_mul, List.take]
    rfl
  have htotal := head.total_lt
  have hlen : word m (start + 2) 2 = head.total / 2 ^ 16 := by
    refine word_middle (encodeBE 2 id.toNat) [] h ?_ rfl (by omega)
    rw [eventHead, hhalf]
    rfl
  refine ⟨_, rfl, id_of_slice _ h rfl, fun hs ↦ absurd hs (by decide),
    fun ht ↦ absurd ht (by decide), fun hp ↦ absurd hp (by decide), ?_⟩
  dsimp only
  rw [hlen]

/-- The length that is read for one that was sent. -/
def lenRead (type : UInt8) (len : ℕ) : ℕ :=
  if type = aiPtEvent then len / 2 ^ 16 * 2 ^ 16 else len

theorem bizHead_read {type : UInt8} (htype : type ∈ bizTypes) (hflag : head.streamFlag < 4)
    (id : UInt16) :
    ∃ bytes, bizHeadBytes type id head = some bytes ∧ bytes.length = bizHeadSize type ∧
      ∀ (m : Mem) (start : ℕ), slice m start bytes.length = bytes →
        ∃ r size, aiParseBizHead type m start = some (r, size) ∧
          ReadsBack type id head m start (lenRead type head.total) r := by
  simp only [bizTypes, List.mem_cons, List.not_mem_nil, or_false] at htype
  rcases htype with rfl | rfl | rfl | rfl | rfl | rfl
  · exact ⟨mediaHead id head, rfl, rfl, fun m start h ↦
      let ⟨r, hr, hread⟩ := mediaHead_read (.inl rfl) hflag h
      ⟨r, _, hr, hread⟩⟩
  · exact ⟨mediaHead id head, rfl, rfl, fun m start h ↦
      let ⟨r, hr, hread⟩ := mediaHead_read (.inr rfl) hflag h
      ⟨r, _, hr, hread⟩⟩
  · exact ⟨imageHead id head, rfl, rfl, fun m start h ↦
      let ⟨r, hr, hread⟩ := imageHead_read hflag h
      ⟨r, _, hr, hread⟩⟩
  · exact ⟨fileHead id head, rfl, rfl, fun m start h ↦
      let ⟨r, hr, hread⟩ := fileHead_read (.inl rfl) hflag h
      ⟨r, _, hr, hread⟩⟩
  · exact ⟨fileHead id head, rfl, rfl, fun m start h ↦
      let ⟨r, hr, hread⟩ := fileHead_read (.inr rfl) hflag h
      ⟨r, _, hr, hread⟩⟩
  · exact ⟨eventHead id head, rfl, rfl, fun m start h ↦
      let ⟨r, hr, hread⟩ := eventHead_read h
      ⟨r, _, hr, hread⟩⟩

end Read

/-! ## The messages that arrive -/

variable {α : Type} {env : BizSendEnv} {type : UInt8} {head : BizHeadInfo}

theorem lenRead_eq_iff (type : UInt8) (len : ℕ) :
    lenRead type len = len ↔ (type = aiPtEvent → len % 2 ^ 16 = 0) := by
  rw [lenRead]
  split_ifs with hevent
  · refine ⟨fun h _ ↦ ?_, fun h ↦ ?_⟩
    · omega
    · have hmod := h hevent
      omega
  · exact iff_of_true rfl fun h ↦ absurd h hevent

/-- A type whose length is swapped with its own width arrives; an event arrives when the two
bytes that are not sent are the zeros that are read instead. -/
theorem biz_head_round_trips_iff (hup : env.up = true)
    (hmalloc : env.malloc (u32 (bizHeadSize type + head.len.toNat)) = true)
    (htype : type ∈ bizTypes) (hflag : head.streamFlag < 4) (id : UInt16)
    (attr : Option (BizAttrInfo α)) (payload : Option Mem) (writer : Option ℕ) :
    HeadRoundTrips env id attr type head payload writer ↔
      bizHeadSize type + head.len.toNat < 2 ^ 32 ∧
        (type = aiPtEvent → head.total % 2 ^ 16 = 0) := by
  obtain ⟨bytes, hbytes, hlength, hread⟩ := bizHead_read htype hflag id
  have hlt := head.len.toNat_lt
  have hsmall : bizHeadSize type < 2 ^ 32 := by
    rw [bizHeadSize, bizHeadLen]
    split_ifs <;> decide
  rw [← lenRead_eq_iff, HeadRoundTrips, tuyaAiSendBizPktCustom,
    if_neg (by rw [hup]; decide), hbytes]
  dsimp only
  rw [hlength, if_neg (by rw [hmalloc]; decide)]
  by_cases hfits : bizHeadSize type + head.len.toNat < 2 ^ 32
  case neg =>
    have hwrap : u32 (bizHeadSize type + head.len.toNat) < bizHeadSize type := by
      rw [u32]
      omega
    rw [if_pos hwrap]
    exact iff_of_false (fun h ↦ h) fun h ↦ hfits h.1
  rw [u32_of_lt hfits, if_neg (Nat.not_lt_of_le (Nat.le_add_right _ _))]
  constructor
  · intro h
    have hslice := slice_fill (fun _ ↦ 0) 0 (Nat.le_of_eq (Nat.zero_add
      (bytes ++ bizBody payload head.len.toNat).length))
    rw [List.drop_zero, List.take_length] at hslice
    obtain ⟨r, size, hr, hback⟩ := h _ 0 hslice
    rw [List.length_append] at hslice
    obtain ⟨r', size', hr', hback'⟩ := hread _ 0 (slice_of_append hslice).1
    rw [hr, Option.some_inj, Prod.mk.injEq] at hr'
    exact ⟨hfits, by rw [← hback'.len, ← hr'.1, hback.len]⟩
  · rintro ⟨-, hlen⟩ m start hslice
    rw [List.length_append] at hslice
    obtain ⟨r, size, hr, hback⟩ := hread m start (slice_of_append hslice).1
    exact ⟨r, size, hr, hlen ▸ hback⟩

/-- A video with a timestamp and a `pts` that fill all of their bytes. -/
theorem biz_head_round_trips_iff_video :
    HeadRoundTrips ⟨true, fun _ ↦ true⟩ 0xBEEF (none : Option (BizAttrInfo Unit)) aiPtVideo
        ⟨3, 0x0102030405060708, 0xF1F2F3F4F5F6F7F8, 0, 2⟩ none none ↔
      bizHeadSize aiPtVideo + 2 < 2 ^ 32 ∧ (aiPtVideo = aiPtEvent → 2 % 2 ^ 16 = 0) :=
  biz_head_round_trips_iff rfl rfl (by decide) (by decide) 0xBEEF none none none

/-- An event of five bytes arrives as one without any. -/
theorem event_len_lost :
    ¬HeadRoundTrips ⟨true, fun _ ↦ true⟩ 1 (none : Option (BizAttrInfo Unit)) aiPtEvent
      ⟨0, 0, 0, 0, 5⟩ (some fun _ ↦ 65) none := by
  intro h
  obtain ⟨r, size, hr, hback⟩ :=
    h (fill (fun _ ↦ 0) 0 [0, 1, 0, 0, 65, 65, 65, 65, 65]) 0 (by decide)
  have hzero : r.len = 0 := by
    have hsome := congrArg (Option.map fun x ↦ x.1.len) hr
    exact (Option.some.inj hsome).symm
  rw [hback.len] at hzero
  exact absurd hzero (by decide)

end TuyaOpen.Ai
