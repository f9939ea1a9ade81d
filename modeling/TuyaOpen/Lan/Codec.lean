import TuyaOpen.Lan.Frame

/-!
# Frames written and read

`SentFrame` is a frame that was serialized, of any type and of any length that the
length field can say.  Its bytes are read back by the offsets of the parser, whatever
follows in the buffer.
-/

namespace TuyaOpen.Lan

open Bytes

structure SentFrame (gcm : Gcm) (key : List UInt8) where
  object : Lpv35FrameObject
  nonce : List UInt8
  bytes : List UInt8
  serialized : lpv35FrameSerialize gcm key nonce object = .ok bytes
  nonce_length : nonce.length = lpv35FrameNonceSize
  sequence_lt : object.sequence < 2 ^ 32
  type_lt : object.type < 2 ^ 32
  data_lt : 28 + object.data.length < 2 ^ 32

namespace SentFrame

variable {gcm : Gcm} {key : List UInt8} (frame : SentFrame gcm key)

def header : List UInt8 :=
  lpv35AdditionalData frame.object.sequence frame.object.type (28 + frame.object.data.length)

theorem length_header : frame.header.length = 14 := by
  simp [header, lpv35AdditionalData]

include frame in
theorem key_ne_nil : key ≠ [] := by
  intro hkey
  have hser := frame.serialized
  rw [lpv35FrameSerialize, if_pos hkey] at hser
  cases hser

theorem layout (hgcm : gcm.Lawful) : ∃ ct tag,
    frame.bytes = lpv35FrameHead ++ (frame.header ++ (frame.nonce ++ (ct ++ (tag ++
      lpv35FrameTail)))) ∧
    ct.length = frame.object.data.length ∧ tag.length = 16 ∧
    gcm.decrypt key frame.nonce frame.header ct tag = .ok frame.object.data := by
  have hser := frame.serialized
  have hdata := frame.data_lt
  simp only [lpv35FrameSerialize] at hser
  split_ifs at hser
  split at hser
  · cases hser
  · rename_i ct tag henc
    obtain ⟨hct, htag, hdec⟩ := hgcm _ _ _ _ _ _ henc
    have hbytes := (Except.ok.inj hser).symm
    have hlength : (lpv35FrameNonceSize + frame.object.data.length + lpv35FrameTagSize) % 2 ^ 32 =
        28 + frame.object.data.length := by
      simp only [lpv35FrameNonceSize, lpv35FrameTagSize]
      omega
    rw [hlength] at hbytes hdec
    refine ⟨ct, tag, ?_, hct, htag, hdec⟩
    rw [hbytes, header]
    simp only [List.append_assoc]

variable (hgcm : gcm.Lawful)

include hgcm

theorem length_bytes : frame.bytes.length = 50 + frame.object.data.length := by
  obtain ⟨ct, tag, hbytes, hct, htag, -⟩ := frame.layout hgcm
  have hn : frame.nonce.length = 12 := frame.nonce_length
  rw [hbytes]
  simp only [List.length_append, length_header, hct, htag, hn, lpv35FrameHead, lpv35FrameTail,
    List.length_cons, List.length_nil]
  omega

theorem take_head (more : List UInt8) : (frame.bytes ++ more).take 4 = lpv35FrameHead := by
  obtain ⟨ct, tag, hbytes, -⟩ := frame.layout hgcm
  rw [hbytes, List.append_assoc]
  exact List.take_left' rfl

theorem header_layout (more : List UInt8) : ∃ rest, frame.bytes ++ more =
    lpv35FrameHead ++ ([0, 0] ++ (encodeBE 4 frame.object.sequence ++
      (encodeBE 4 frame.object.type ++
        (encodeBE 4 (28 + frame.object.data.length) ++ rest)))) := by
  obtain ⟨ct, tag, hbytes, -⟩ := frame.layout hgcm
  rw [hbytes, header, lpv35AdditionalData]
  simp only [List.append_assoc]
  exact ⟨_, rfl⟩

theorem frameSequence_bytes (more : List UInt8) :
    frameSequence (frame.bytes ++ more) = frame.object.sequence := by
  obtain ⟨rest, hrest⟩ := frame.header_layout hgcm more
  rw [hrest, ← List.append_assoc]
  exact getBE_append frame.sequence_lt (lpv35FrameHead ++ [0, 0]) _

theorem frameType_bytes (more : List UInt8) :
    frameType (frame.bytes ++ more) = frame.object.type := by
  obtain ⟨rest, hrest⟩ := frame.header_layout hgcm more
  rw [hrest, ← List.append_assoc, ← List.append_assoc]
  exact getBE_append frame.type_lt
    (lpv35FrameHead ++ [0, 0] ++ encodeBE 4 frame.object.sequence) _

theorem frameLength_bytes (more : List UInt8) :
    frameLength (frame.bytes ++ more) = 28 + frame.object.data.length := by
  obtain ⟨rest, hrest⟩ := frame.header_layout hgcm more
  rw [hrest, ← List.append_assoc, ← List.append_assoc, ← List.append_assoc]
  exact getBE_append (frame.data_lt)
    (lpv35FrameHead ++ [0, 0] ++ encodeBE 4 frame.object.sequence ++
      encodeBE 4 frame.object.type) rest

theorem parts (more : List UInt8) : ∃ ct tag,
    ((frame.bytes ++ more).drop (frame.bytes.length - 4)).take 4 = lpv35FrameTail ∧
    ((frame.bytes ++ more).drop 4).take 14 = frame.header ∧
    ((frame.bytes ++ more).drop 18).take lpv35FrameNonceSize = frame.nonce ∧
    ((frame.bytes ++ more).drop 30).take frame.object.data.length = ct ∧
    ((frame.bytes ++ more).drop (30 + frame.object.data.length)).take lpv35FrameTagSize = tag ∧
    gcm.decrypt key frame.nonce frame.header ct tag = .ok frame.object.data := by
  obtain ⟨ct, tag, hbytes, hct, htag, hdec⟩ := frame.layout hgcm
  have hlen := frame.length_bytes hgcm
  have hn : frame.nonce.length = 12 := frame.nonce_length
  have hhead : lpv35FrameHead.length = 4 := rfl
  have htail : lpv35FrameTail.length = 4 := rfl
  have hheader := frame.length_header
  refine ⟨ct, tag, ?_, ?_, ?_, ?_, ?_, hdec⟩
  · have hsplit : frame.bytes ++ more = (lpv35FrameHead ++ (frame.header ++ (frame.nonce ++
        (ct ++ tag)))) ++ (lpv35FrameTail ++ more) := by simp only [hbytes, List.append_assoc]
    rw [hsplit]
    refine take_drop_append ?_ htail more
    simp only [List.length_append, hhead, hheader, hn, hct, htag]
    omega
  · rw [hbytes]
    simp only [List.append_assoc]
    exact take_drop_append hhead hheader _
  · have hsplit : frame.bytes ++ more = (lpv35FrameHead ++ frame.header) ++ (frame.nonce ++
        (ct ++ (tag ++ (lpv35FrameTail ++ more)))) := by simp only [hbytes, List.append_assoc]
    rw [hsplit]
    exact take_drop_append (by simp only [List.length_append, hhead, hheader]) hn _
  · have hsplit : frame.bytes ++ more = (lpv35FrameHead ++ (frame.header ++ frame.nonce)) ++
        (ct ++ (tag ++ (lpv35FrameTail ++ more))) := by simp only [hbytes, List.append_assoc]
    rw [hsplit]
    exact take_drop_append (by simp only [List.length_append, hhead, hheader, hn]) hct _
  · have hsplit : frame.bytes ++ more = (lpv35FrameHead ++ (frame.header ++ (frame.nonce ++ ct))) ++
        (tag ++ (lpv35FrameTail ++ more)) := by simp only [hbytes, List.append_assoc]
    rw [hsplit]
    refine take_drop_append ?_ htag _
    simp only [List.length_append, hhead, hheader, hn, hct]
    omega

theorem parse_bytes {env : ParseEnv} (hmalloc : env.malloc = true) (more : List UInt8) :
    lpv35FrameParse gcm env key (frame.bytes ++ more) frame.bytes.length = .ok frame.object := by
  obtain ⟨ct, tag, htail, had, hnonce, hdata, htag, hdec⟩ := frame.parts hgcm more
  have hlen := frame.length_bytes hgcm
  have hmini : ¬ frame.bytes.length < lpv35FrameMiniSize := by
    rw [lpv35FrameMiniSize]
    omega
  have hlength : 28 + frame.object.data.length = frame.bytes.length - 22 := by omega
  have hdataLen : 28 + frame.object.data.length - lpv35FrameNonceSize - lpv35FrameTagSize =
      frame.object.data.length := by
    simp only [lpv35FrameNonceSize, lpv35FrameTagSize]
    omega
  rw [lpv35FrameParse, if_neg (not_or.mpr ⟨frame.key_ne_nil, by omega⟩),
    if_neg (not_not.mpr (frame.take_head hgcm more)),
    if_neg hmini, if_neg (not_not.mpr htail), frame.frameLength_bytes hgcm more,
    if_neg (not_not.mpr hlength), if_neg (by simp [hmalloc])]
  simp only [hdataLen, had, hnonce, hdata, htag, hdec, Except.map,
    frame.frameSequence_bytes hgcm more, frame.frameType_bytes hgcm more]

end SentFrame

/-! ## The parser by its reads -/

/-- The values of a `uint32_t` and of an `int`. -/
def u32 (x : ℤ) : ℕ := (x % 2 ^ 32).toNat
def i32 (x : ℤ) : ℤ := Int.bmod x (2 ^ 32)

/-- `lpv35_frame_parse` with its machine arithmetic, on a buffer that ends where nothing
more may be read; `none` when the code reads beyond. -/
def lpv35FrameParseAt (gcm : Gcm) (malloc : Bool) (key input : List UInt8) (ilen : ℤ) :
    Option (Except OperateRet Lpv35FrameObject) :=
  let dataLen := u32 (frameLength input - 28)
  let tagAt := i32 (30 + dataLen)
  if key = [] ∨ ilen = 0 then some (.error oprtInvalidParm)
  else if input.length < 4 then none
  else if input.take 4 ≠ lpv35FrameHead then some (.error oprtVersionFmtErr)
  else if ilen < 4 ∨ (input.length : ℤ) < ilen then none
  else if (input.drop (ilen.toNat - 4)).take 4 ≠ lpv35FrameTail then some (.error oprtVersionFmtErr)
  else if input.length < 18 then none
  else if frameLength input ≠ u32 (ilen - 22) then some (.error oprtComError)
  else if input.length < 30 ∨ tagAt < 0 ∨ (input.length : ℤ) < tagAt + 16 then none
  else if malloc = false then some (.error oprtMallocFailed)
  else if input.length < 30 + dataLen then none
  else
    let nonce := (input.drop 18).take lpv35FrameNonceSize
    let data := (input.drop 30).take dataLen
    let tag := (input.drop tagAt.toNat).take lpv35FrameTagSize
    some ((gcm.decrypt key nonce ((input.drop 4).take 14) data tag).map fun data ↦
      ⟨frameSequence input, frameType input, data⟩)

theorem u32_of_lt {n : ℕ} (h : n < 2 ^ 32) : u32 n = n := by
  rw [u32, Int.emod_eq_of_lt (by omega) (by omega)]
  omega

theorem i32_of_lt {n : ℕ} (h : n < 2 ^ 31) : i32 n = n := by
  rw [i32, Int.bmod_eq_of_le] <;> omega

theorem parseAt_eq (gcm : Gcm) (env : ParseEnv) (key input : List UInt8) {ilen : ℕ}
    (hmini : 50 ≤ ilen) (hlen : ilen ≤ input.length) (hint : ilen < 2 ^ 31) :
    lpv35FrameParseAt gcm env.malloc key input ilen =
      some (lpv35FrameParse gcm env key input ilen) := by
  have hlength : u32 ((ilen : ℤ) - 22) = ilen - 22 := by
    have hcast : (ilen : ℤ) - 22 = ((ilen - 22 : ℕ) : ℤ) := by omega
    rw [hcast, u32_of_lt (by omega)]
  have hshort : ¬ ilen < lpv35FrameMiniSize := by
    rw [lpv35FrameMiniSize]
    omega
  have hparm : (key = [] ∨ (ilen : ℤ) = 0) ↔ (key = [] ∨ ilen = 0) := by
    rw [Int.natCast_eq_zero]
  have hfour : ¬ input.length < 4 := by omega
  have hend : ¬ ((ilen : ℤ) < 4 ∨ (input.length : ℤ) < ilen) := by omega
  have hfixed : ¬ input.length < 18 := by omega
  rw [lpv35FrameParseAt, lpv35FrameParse]
  by_cases hempty : key = [] ∨ ilen = 0
  · rw [if_pos hempty, if_pos (hparm.mpr hempty)]
  rw [if_neg hempty, if_neg (mt hparm.mp hempty), if_neg hfour]
  by_cases hhead : input.take 4 ≠ lpv35FrameHead
  · rw [if_pos hhead, if_pos hhead]
  rw [if_neg hhead, if_neg hhead, if_neg hend, if_neg hshort, Int.toNat_natCast]
  by_cases htail : (input.drop (ilen - 4)).take 4 ≠ lpv35FrameTail
  · rw [if_pos htail, if_pos htail]
  rw [if_neg htail, if_neg htail, if_neg hfixed, hlength]
  by_cases hfield : frameLength input ≠ ilen - 22
  · rw [if_pos hfield, if_pos hfield]
  rw [if_neg hfield, if_neg hfield]
  have hdataLen : u32 ((frameLength input : ℤ) - 28) = ilen - 50 := by
    have hcast : (frameLength input : ℤ) - 28 = ((ilen - 50 : ℕ) : ℤ) := by omega
    rw [hcast, u32_of_lt (by omega)]
  have htag : i32 (30 + ((ilen - 50 : ℕ) : ℤ)) = ((ilen - 20 : ℕ) : ℤ) := by
    have hcast : (30 : ℤ) + ((ilen - 50 : ℕ) : ℤ) = ((ilen - 20 : ℕ) : ℤ) := by omega
    rw [hcast, i32_of_lt (by omega)]
  have hdataLen' : frameLength input - lpv35FrameNonceSize - lpv35FrameTagSize = ilen - 50 := by
    rw [not_not.mp hfield, lpv35FrameNonceSize, lpv35FrameTagSize]
    omega
  have htagIn : ¬ (input.length < 30 ∨ ((ilen - 20 : ℕ) : ℤ) < 0 ∨
      (input.length : ℤ) < ((ilen - 20 : ℕ) : ℤ) + 16) := by omega
  have hdataIn : ¬ input.length < 30 + (ilen - 50) := by omega
  rw [hdataLen, htag, if_neg htagIn]
  by_cases hmalloc : env.malloc = false
  · rw [if_pos hmalloc, if_pos hmalloc]
  rw [if_neg hmalloc, if_neg hmalloc, if_neg hdataIn, hdataLen', Int.toNat_natCast]
  have hsum : 30 + (ilen - 50) = ilen - 20 := by omega
  dsimp only
  rw [hsum]

theorem wrap_twice {n : ℕ} {ilen : ℤ} (hn : n = u32 (ilen - 22)) :
    u32 (n - 28) = u32 (ilen - 50) := by
  subst hn
  rw [u32, u32, u32, Int.toNat_of_nonneg (Int.emod_nonneg _ (by norm_num)), Int.emod_sub_emod]
  congr 2
  ring

theorem check_passed {α : Type*} {c : Prop} [Decidable c] {x y z : α} (hne : x ≠ z)
    (h : (if c then x else y) = z) : ¬c ∧ y = z := by
  by_cases hc : c
  · rw [if_pos hc] at h
    exact absurd h hne
  · rw [if_neg hc] at h
    exact ⟨hc, h⟩

/-- What was checked when a frame is accepted, and where it comes from. -/
structure ParsePassed (gcm : Gcm) (key input : List UInt8) (ilen : ℤ) (frame : Lpv35FrameObject) :
    Prop where
  inside : 4 ≤ ilen ∧ ilen ≤ input.length
  fixed : 18 ≤ input.length
  length : frameLength input = u32 (ilen - 22)
  data : 30 + u32 (ilen - 50) ≤ input.length
  decrypted : (gcm.decrypt key ((input.drop 18).take lpv35FrameNonceSize) ((input.drop 4).take 14)
      ((input.drop 30).take (u32 (ilen - 50)))
      ((input.drop (i32 (30 + u32 (frameLength input - 28))).toNat).take lpv35FrameTagSize)).map
    (fun data ↦ ⟨frameSequence input, frameType input, data⟩) = .ok frame

theorem parseAt_passed {gcm : Gcm} {malloc : Bool} {key input : List UInt8} {ilen : ℤ}
    {frame : Lpv35FrameObject}
    (h : lpv35FrameParseAt gcm malloc key input ilen = some (.ok frame)) :
    ParsePassed gcm key input ilen frame := by
  have hreads : (none : Option (Except OperateRet Lpv35FrameObject)) ≠ some (.ok frame) :=
    (Option.some_ne_none _).symm
  have hfails : ∀ rc : OperateRet, some (Except.error rc) ≠ some (Except.ok frame) := by
    intro rc heq
    cases heq
  rw [lpv35FrameParseAt] at h
  obtain ⟨-, h⟩ := check_passed (hfails _) h
  obtain ⟨-, h⟩ := check_passed hreads h
  obtain ⟨-, h⟩ := check_passed (hfails _) h
  obtain ⟨hend, h⟩ := check_passed hreads h
  obtain ⟨-, h⟩ := check_passed (hfails _) h
  obtain ⟨hfixed, h⟩ := check_passed hreads h
  obtain ⟨hlength, h⟩ := check_passed (hfails _) h
  obtain ⟨-, h⟩ := check_passed hreads h
  obtain ⟨-, h⟩ := check_passed (hfails _) h
  obtain ⟨hdata, h⟩ := check_passed hreads h
  have hlength' := not_not.mp hlength
  rw [wrap_twice hlength'] at hdata
  have hres := Option.some.inj h
  refine ⟨⟨by omega, by omega⟩, by omega, hlength', by omega, ?_⟩
  rw [← wrap_twice hlength']
  exact hres

theorem take_drop_append_left {seg : List UInt8} {off k : ℕ} (h : off + k ≤ seg.length)
    (more : List UInt8) :
    ((seg ++ more).drop off).take k = (seg.drop off).take k := by
  have hk : k ≤ (seg.drop off).length := by
    rw [List.length_drop]
    omega
  rw [List.drop_append_of_le_length (by omega), List.take_append_of_le_length hk]

theorem parse_append (gcm : Gcm) (env : ParseEnv) (key : List UInt8) {seg : List UInt8}
    (hmini : 50 ≤ seg.length) (more : List UInt8) :
    lpv35FrameParse gcm env key (seg ++ more) seg.length =
      lpv35FrameParse gcm env key seg seg.length := by
  have hshort : ¬ seg.length < lpv35FrameMiniSize := by
    rw [lpv35FrameMiniSize]
    omega
  have hhead : (seg ++ more).take 4 = seg.take 4 := List.take_append_of_le_length (by omega)
  have htail : ((seg ++ more).drop (seg.length - 4)).take 4 = (seg.drop (seg.length - 4)).take 4 :=
    take_drop_append_left (by omega) more
  have hsequence : frameSequence (seg ++ more) = frameSequence seg := by
    rw [frameSequence, frameSequence]
    exact getBE_append_left (by omega) more
  have htype : frameType (seg ++ more) = frameType seg := by
    rw [frameType, frameType]
    exact getBE_append_left (by omega) more
  have hlength : frameLength (seg ++ more) = frameLength seg := by
    rw [frameLength, frameLength]
    exact getBE_append_left (by omega) more
  rw [lpv35FrameParse, lpv35FrameParse, hhead, htail, hsequence, htype, hlength, if_neg hshort,
    if_neg hshort]
  by_cases hfield : frameLength seg ≠ seg.length - 22
  · rw [if_pos hfield, if_pos hfield]
  have hdataLen : frameLength seg - lpv35FrameNonceSize - lpv35FrameTagSize = seg.length - 50 := by
    rw [not_not.mp hfield, lpv35FrameNonceSize, lpv35FrameTagSize]
    omega
  have had : ((seg ++ more).drop 4).take 14 = (seg.drop 4).take 14 :=
    take_drop_append_left (by omega) more
  have hnonce : ((seg ++ more).drop 18).take lpv35FrameNonceSize =
      (seg.drop 18).take lpv35FrameNonceSize :=
    take_drop_append_left (by rw [lpv35FrameNonceSize]; omega) more
  have hdata : ((seg ++ more).drop 30).take (seg.length - 50) =
      (seg.drop 30).take (seg.length - 50) :=
    take_drop_append_left (by omega) more
  have htag : ((seg ++ more).drop (30 + (seg.length - 50))).take lpv35FrameTagSize =
      (seg.drop (30 + (seg.length - 50))).take lpv35FrameTagSize :=
    take_drop_append_left (by rw [lpv35FrameTagSize]; omega) more
  rw [hdataLen]
  dsimp only
  rw [had, hnonce, hdata, htag]

theorem parseAt_mini {gcm : Gcm} {malloc : Bool} {key input : List UInt8} {ilen : ℤ}
    (hmemory : input.length < 2 ^ 31) {frame : Lpv35FrameObject}
    (h : lpv35FrameParseAt gcm malloc key input ilen = some (.ok frame)) : 50 ≤ ilen := by
  have hpassed := parseAt_passed h
  have hinside := hpassed.inside
  have hdata := hpassed.data
  rw [u32] at hdata
  omega

theorem parseAt_within {gcm : Gcm} {malloc : Bool} {key seg more : List UInt8}
    (hmemory : (seg ++ more).length < 2 ^ 31) {frame : Lpv35FrameObject}
    (h : lpv35FrameParseAt gcm malloc key (seg ++ more) seg.length = some (.ok frame)) :
    lpv35FrameParseAt gcm malloc key seg seg.length = some (.ok frame) := by
  have hmini : 50 ≤ seg.length := by
    have hlen := parseAt_mini hmemory h
    omega
  rw [List.length_append] at hmemory
  have hsame := parse_append gcm ⟨malloc, .error oprtComError⟩ key hmini more
  have hboth := parseAt_eq gcm ⟨malloc, .error oprtComError⟩ key (seg ++ more) hmini
    (by rw [List.length_append]; omega) (by omega)
  have hseg := parseAt_eq gcm ⟨malloc, .error oprtComError⟩ key seg hmini (Nat.le_refl _) (by omega)
  dsimp only at hboth hseg
  rw [hseg, ← hsame, ← hboth, h]

theorem parseAt_bytes {gcm : Gcm} (hgcm : gcm.Lawful) {key : List UInt8} (frame : SentFrame gcm key)
    (hint : 50 + frame.object.data.length < 2 ^ 31) (more : List UInt8) :
    lpv35FrameParseAt gcm true key (frame.bytes ++ more) frame.bytes.length =
      some (.ok frame.object) := by
  have hlen := frame.length_bytes hgcm
  have hparse : lpv35FrameParse gcm ⟨true, .error oprtComError⟩ key (frame.bytes ++ more)
      frame.bytes.length = .ok frame.object := frame.parse_bytes hgcm rfl more
  rw [← hparse]
  refine parseAt_eq gcm ⟨true, .error oprtComError⟩ key _ (by omega) ?_ (by omega)
  rw [List.length_append]
  omega

theorem tableGcm_authentic {key nonce : List UInt8} {table : List GcmEntry}
    (hdistinct : (table.map GcmEntry.ad).Nodup) : (tableGcm key nonce table).Authentic := by
  intro key' nonce' ad data ct tag hdec
  simp only [tableGcm] at hdec ⊢
  split at hdec
  · rename_i e hfind
    have hentry := List.find?_some hfind
    obtain ⟨hkey, hnonce, had, hct, htag⟩ := of_decide_eq_true hentry
    obtain rfl := Except.ok.inj hdec
    split
    · rename_i e' hfind'
      have hentry' := List.find?_some hfind'
      obtain ⟨-, -, had', -⟩ := of_decide_eq_true hentry'
      have hsame := List.inj_on_of_nodup_map hdistinct (List.mem_of_find?_eq_some hfind')
        (List.mem_of_find?_eq_some hfind) (had'.trans had.symm)
      rw [hsame, hct, htag]
    · rename_i hnone
      have hnot := List.find?_eq_none.mp hnone e (List.mem_of_find?_eq_some hfind)
      simp [hkey, hnonce, had] at hnot
  · cases hdec

end TuyaOpen.Lan
