import TuyaOpen.Common.ErrorCode
import TuyaOpen.Lib.Fifo
import TuyaOpen.Lib.Splice
import Mathlib.Data.List.Range

/-!
# The ring buffer of `tuya_ringbuf.c`

One byte of the buffer is never used, which tells a full buffer from an empty
one.  Every operation is split where the indices pass the end of the buffer;
the proofs undo the split with `advance`, the index `n` places further on.
-/

namespace TuyaOpen.RingBuf

/-- The two behaviours of a full buffer; the PSRAM names are aliases. -/
inductive RingbuffType
  | overflowStopType
  | overflowCoverageType
  deriving DecidableEq

structure RingBuff where
  type : RingbuffType
  /-- position of input, `in` in the source -/
  inPos : ℕ
  /-- position of output, `out` in the source -/
  outPos : ℕ
  len : ℕ
  buff : List UInt8
  deriving DecidableEq

/-! ## The operations -/

def ringbuffInit (r : RingBuff) (len : ℕ) : RingBuff :=
  { r with inPos := 0, outPos := 0, len := len }

/-- The allocation either fails or returns memory with arbitrary content. -/
def tuyaRingBuffCreate (len : ℕ) (type : RingbuffType) (malloc : Option (ℕ → UInt8)) :
    Except OperateRet RingBuff :=
  if type = .overflowCoverageType then .error oprtNotSupported else
  if len = 0 then .error oprtInvalidParm else
  match malloc with
  | none => .error oprtMallocFailed
  | some fill => .ok (ringbuffInit ⟨type, 0, 0, 0, (List.range len).map fill⟩ len)

def tuyaRingBuffReset (r : RingBuff) : RingBuff :=
  ringbuffInit r r.len

def tuyaRingBuffFreeSizeGet (r : RingBuff) : ℕ :=
  let size :=
    if r.inPos = r.outPos then r.len
    else if r.inPos < r.outPos then r.outPos - r.inPos
    else r.len - (r.inPos - r.outPos)
  size - 1

def tuyaRingBuffUsedSizeGet (r : RingBuff) : ℕ :=
  if r.inPos = r.outPos then 0
  else if r.outPos < r.inPos then r.inPos - r.outPos
  else r.len - (r.outPos - r.inPos)

/-- `data` is `none` for a null pointer, else the caller's array. -/
def tuyaRingBuffWrite (r : RingBuff) (data : Option (List UInt8)) (len : ℕ) :
    RingBuff × ℕ :=
  match data with
  | none => (r, 0)
  | some pdata =>
    if len = 0 then (r, 0) else
    -- overwriting unread parts is not supported when the write is full
    let len := min (tuyaRingBuffFreeSizeGet r) len
    if len = 0 then (r, 0) else
    let tmpLen := min (r.len - r.inPos) len
    let r := { r with
      buff := r.buff.splice r.inPos (pdata.take tmpLen), inPos := r.inPos + tmpLen }
    let len := len - tmpLen
    let r := if 0 < len then
      { r with buff := r.buff.splice 0 ((pdata.drop tmpLen).take len), inPos := len }
      else r
    let r := if r.len ≤ r.inPos then { r with inPos := 0 } else r
    (r, tmpLen + len)

def copyOut (r : RingBuff) (tmpLen len : ℕ) : List UInt8 :=
  (r.buff.drop r.outPos).take tmpLen ++ r.buff.take len

/-- `data` says whether the caller's pointer is non-null.  Returns the bytes
written to it and the count. -/
def tuyaRingBuffRead (r : RingBuff) (data : Bool) (len : ℕ) :
    RingBuff × List UInt8 × ℕ :=
  if data = false ∨ len = 0 then (r, [], 0) else
  let len := min (tuyaRingBuffUsedSizeGet r) len
  if len = 0 then (r, [], 0) else
  let tmpLen := min (r.len - r.outPos) len
  let bytes := copyOut r tmpLen (len - tmpLen)
  let r := { r with outPos := r.outPos + tmpLen }
  let len := len - tmpLen
  let r := if 0 < len then { r with outPos := len } else r
  let r := if r.len ≤ r.outPos then { r with outPos := 0 } else r
  (r, bytes, tmpLen + len)

def tuyaRingBuffDiscard (r : RingBuff) (len : ℕ) : RingBuff × ℕ :=
  if len = 0 then (r, 0) else
  let len := min (tuyaRingBuffUsedSizeGet r) len
  if len = 0 then (r, 0) else
  let tmpLen := min (r.len - r.outPos) len
  let r := { r with outPos := r.outPos + tmpLen }
  let len := len - tmpLen
  let r := if 0 < len then { r with outPos := len } else r
  let r := if r.len ≤ r.outPos then { r with outPos := 0 } else r
  (r, tmpLen + len)

def tuyaRingBuffPeek (r : RingBuff) (data : Bool) (len : ℕ) : List UInt8 × ℕ :=
  if data = false ∨ len = 0 then ([], 0) else
  let len := min len (tuyaRingBuffUsedSizeGet r)
  if len = 0 then ([], 0) else
  let tmpLen := min (r.len - r.outPos) len
  (copyOut r tmpLen (len - tmpLen), tmpLen + (len - tmpLen))

/-! ## Positions and content -/

/-- What every buffer made by `tuyaRingBuffCreate` and the operations keeps. -/
structure Wf (r : RingBuff) : Prop where
  in_lt : r.inPos < r.len
  out_lt : r.outPos < r.len
  length_buff : r.buff.length = r.len

def advance (len pos n : ℕ) : ℕ :=
  if pos + n < len then pos + n else pos + n - len

theorem advance_eq_mod {len pos n : ℕ} (hpos : pos < len) (hn : n ≤ len) :
    advance len pos n = (pos + n) % len := by
  unfold advance
  split
  · next h => exact (Nat.mod_eq_of_lt h).symm
  · next h =>
      rw [Nat.mod_eq_sub_mod (by omega), Nat.mod_eq_of_lt (by omega)]

/-- The unread bytes: from `out` to `in`, indices taken modulo the length. -/
def content (r : RingBuff) : List UInt8 :=
  (List.range (tuyaRingBuffUsedSizeGet r)).map
    fun i ↦ r.buff.getD ((r.outPos + i) % r.len) 0

@[simp] theorem length_content (r : RingBuff) :
    (content r).length = tuyaRingBuffUsedSizeGet r := by
  simp [content]

variable {r : RingBuff}

theorem used_lt (h : Wf r) : tuyaRingBuffUsedSizeGet r < r.len := by
  have := h.in_lt
  have := h.out_lt
  unfold tuyaRingBuffUsedSizeGet
  split_ifs <;> omega

theorem free_add_used (h : Wf r) :
    tuyaRingBuffFreeSizeGet r + tuyaRingBuffUsedSizeGet r = r.len - 1 := by
  have := h.in_lt
  have := h.out_lt
  simp only [tuyaRingBuffFreeSizeGet, tuyaRingBuffUsedSizeGet]
  split_ifs <;> omega

theorem inPos_eq_advance (h : Wf r) :
    r.inPos = advance r.len r.outPos (tuyaRingBuffUsedSizeGet r) := by
  have := h.in_lt
  have := h.out_lt
  unfold advance tuyaRingBuffUsedSizeGet
  split_ifs <;> omega

theorem content_eq_advance (h : Wf r) :
    content r = (List.range (tuyaRingBuffUsedSizeGet r)).map
      fun i ↦ r.buff.getD (advance r.len r.outPos i) 0 := by
  apply List.map_congr_left
  intro i hi
  have hused := used_lt h
  rw [advance_eq_mod h.out_lt (by have := List.mem_range.mp hi; omega)]

/-! ## Writing -/

theorem getD_write_copies (h : Wf r) {pdata : List UInt8} {n : ℕ} (hn : n ≤ pdata.length)
    (hlen : n ≤ r.len) (k : ℕ) :
    ((r.buff.splice r.inPos (pdata.take (min (r.len - r.inPos) n))).splice 0
      ((pdata.drop (min (r.len - r.inPos) n)).take (n - min (r.len - r.inPos) n))).getD k 0 =
      if r.inPos ≤ k ∧ k < r.inPos + n ∧ k < r.len then pdata.getD (k - r.inPos) 0
      else if k + r.len < r.inPos + n then pdata.getD (k + r.len - r.inPos) 0
      else r.buff.getD k 0 := by
  have hin := h.in_lt
  have hbuff := h.length_buff
  have hfirst : (pdata.take (min (r.len - r.inPos) n)).length = min (r.len - r.inPos) n := by
    simp
    omega
  have hsecond : ((pdata.drop (min (r.len - r.inPos) n)).take
      (n - min (r.len - r.inPos) n)).length = n - min (r.len - r.inPos) n := by
    simp
    omega
  have hfit : r.inPos + (pdata.take (min (r.len - r.inPos) n)).length ≤ r.buff.length := by
    omega
  rw [List.getD_splice (by rw [List.length_splice hfit]; omega), List.getD_splice hfit,
    hfirst, hsecond]
  simp only [List.getD_eq_getElem?_getD, List.getElem?_take, List.getElem?_drop]
  split_ifs <;> first | rfl | omega | (congr 2; omega)

theorem write_eq (h : Wf r) (pdata : List UInt8) :
    ∃ buff : List UInt8,
      tuyaRingBuffWrite r (some pdata) pdata.length =
        ({ r with
            buff := buff
            inPos := advance r.len r.inPos (min (tuyaRingBuffFreeSizeGet r) pdata.length) },
          min (tuyaRingBuffFreeSizeGet r) pdata.length) ∧
      buff.length = r.len ∧
      ∀ k, buff.getD k 0 =
        if r.inPos ≤ k ∧ k < r.inPos + min (tuyaRingBuffFreeSizeGet r) pdata.length ∧
            k < r.len then
          pdata.getD (k - r.inPos) 0
        else if k + r.len < r.inPos + min (tuyaRingBuffFreeSizeGet r) pdata.length then
          pdata.getD (k + r.len - r.inPos) 0
        else r.buff.getD k 0 := by
  have hin := h.in_lt
  have hfree := free_add_used h
  have hused := used_lt h
  generalize hn : min (tuyaRingBuffFreeSizeGet r) pdata.length = n
  by_cases hzero : n = 0
  · refine ⟨r.buff, ?_, h.length_buff, ?_⟩
    · have hadv : advance r.len r.inPos 0 = r.inPos := by simp [advance, hin]
      simp [tuyaRingBuffWrite, hn, hzero, hadv]
    · intro k
      rw [if_neg (by omega), if_neg (by omega)]
  · refine ⟨_, ?_, ?_, getD_write_copies h (by omega : n ≤ pdata.length) (by omega)⟩
    · have hlen : pdata.length ≠ 0 := by omega
      simp only [tuyaRingBuffWrite, hn, hzero, hlen, if_false, Prod.mk.injEq]
      refine ⟨?_, by omega⟩
      unfold advance
      by_cases hwrap : 0 < n - min (r.len - r.inPos) n
      · rw [if_pos hwrap, if_neg (by simp; omega), if_neg (by omega)]
        congr 1
        omega
      · have hnil : n - min (r.len - r.inPos) n = 0 := by omega
        rw [if_neg hwrap, hnil, List.take_zero, List.splice_nil]
        by_cases hend : r.inPos + n < r.len
        · rw [if_neg (by simp; omega), if_pos hend]
          congr 1
          omega
        · rw [if_pos (by simp; omega), if_neg hend]
          congr 1
          omega
    · have hfit : r.inPos + (pdata.take (min (r.len - r.inPos) n)).length ≤ r.buff.length := by
        rw [h.length_buff]
        simp
        omega
      rw [List.length_splice, List.length_splice hfit, h.length_buff]
      rw [List.length_splice hfit, h.length_buff]
      simp
      omega

theorem used_advance_in (h : Wf r) {n : ℕ} (hn : n ≤ tuyaRingBuffFreeSizeGet r)
    (buff : List UInt8) :
    tuyaRingBuffUsedSizeGet { r with buff := buff, inPos := advance r.len r.inPos n } =
      tuyaRingBuffUsedSizeGet r + n := by
  have := h.in_lt
  have := h.out_lt
  simp only [tuyaRingBuffFreeSizeGet] at hn
  simp only [tuyaRingBuffUsedSizeGet, advance]
  split_ifs at hn ⊢ <;> omega

theorem used_advance_out (h : Wf r) {n : ℕ} (hn : n ≤ tuyaRingBuffUsedSizeGet r) :
    tuyaRingBuffUsedSizeGet { r with outPos := advance r.len r.outPos n } =
      tuyaRingBuffUsedSizeGet r - n := by
  have := h.in_lt
  have := h.out_lt
  simp only [tuyaRingBuffUsedSizeGet, advance] at hn ⊢
  split_ifs at hn ⊢ <;> omega

theorem advance_lt {len pos n : ℕ} (hpos : pos < len) (hn : n ≤ len) :
    advance len pos n < len := by
  unfold advance
  split_ifs <;> omega

theorem map_getD_range (xs : List UInt8) {n : ℕ} (hn : n ≤ xs.length) :
    (List.range n).map (fun i ↦ xs.getD i 0) = xs.take n := by
  apply List.ext_getElem
  · simp [hn]
  · intro i h1 h2
    have hi : i < xs.length := by simp at h2; omega
    simp [List.getElem?_eq_getElem hi]

theorem write_spec (h : Wf r) (pdata : List UInt8) :
    Wf (tuyaRingBuffWrite r (some pdata) pdata.length).1 ∧
      (tuyaRingBuffWrite r (some pdata) pdata.length).1.len = r.len ∧
      content (tuyaRingBuffWrite r (some pdata) pdata.length).1 =
        content r ++ pdata.take (tuyaRingBuffFreeSizeGet r) ∧
      (tuyaRingBuffWrite r (some pdata) pdata.length).2 =
        min (tuyaRingBuffFreeSizeGet r) pdata.length := by
  obtain ⟨buff, heq, hlen, hget⟩ := write_eq h pdata
  have hin := h.in_lt
  have hout := h.out_lt
  have hfree := free_add_used h
  generalize hn : min (tuyaRingBuffFreeSizeGet r) pdata.length = n at heq hget
  have hwf : Wf { r with buff := buff, inPos := advance r.len r.inPos n } :=
    ⟨advance_lt hin (by omega), hout, hlen⟩
  rw [heq]
  refine ⟨hwf, rfl, ?_, rfl⟩
  rw [content_eq_advance hwf, content_eq_advance h, used_advance_in h (by omega),
    List.range_add, List.map_append, List.map_map]
  congr 1
  · apply List.map_congr_left
    intro i hi
    have hi' := List.mem_range.mp hi
    have hpos := inPos_eq_advance h
    simp only [hget, advance] at hpos ⊢
    split_ifs at hpos ⊢ <;> first | rfl | omega
  · rw [show pdata.take (tuyaRingBuffFreeSizeGet r) = pdata.take n by
      rw [← hn, List.take_eq_take_min], ← map_getD_range pdata (by omega)]
    apply List.map_congr_left
    intro j hj
    have hj' := List.mem_range.mp hj
    have hpos := inPos_eq_advance h
    simp only [Function.comp, hget, advance] at hpos ⊢
    split_ifs at hpos ⊢ <;> first | omega | (congr 1; omega)

/-! ## Reading, discarding and peeking -/

theorem copyOut_eq (h : Wf r) {n : ℕ} (hn : n ≤ tuyaRingBuffUsedSizeGet r) :
    copyOut r (min (r.len - r.outPos) n) (n - min (r.len - r.outPos) n) =
      (content r).take n := by
  have hout := h.out_lt
  have hused := used_lt h
  have hbuff := h.length_buff
  rw [content_eq_advance h, ← List.map_take, List.take_range, min_eq_left hn]
  apply List.ext_getElem
  · simp only [copyOut, List.length_append, List.length_take, List.length_drop,
      List.length_map, List.length_range]
    omega
  · intro i h1 h2
    have hi : i < n := by simpa using h2
    rw [List.getElem_map, List.getElem_range]
    simp only [copyOut, advance, List.getElem_append, List.getElem_take, List.getElem_drop,
      List.length_take, List.length_drop, List.getD_eq_getElem?_getD]
    split_ifs with h3 h4 h4
    · rw [List.getElem?_eq_getElem (by omega), Option.getD_some]
    · omega
    · omega
    · rw [List.getElem?_eq_getElem (by omega), Option.getD_some]
      congr 1
      omega

theorem read_eq (h : Wf r) (n : ℕ) :
    tuyaRingBuffRead r true n =
      ({ r with outPos := advance r.len r.outPos (min (tuyaRingBuffUsedSizeGet r) n) },
        (content r).take n, min (tuyaRingBuffUsedSizeGet r) n) := by
  have hout := h.out_lt
  have hused := used_lt h
  have htake : (content r).take n = (content r).take (min (tuyaRingBuffUsedSizeGet r) n) := by
    rw [List.take_eq_take_min, length_content, min_comm]
  rw [htake, ← copyOut_eq h (min_le_left _ _)]
  generalize hm : min (tuyaRingBuffUsedSizeGet r) n = m
  by_cases hzero : m = 0
  · have hadv : advance r.len r.outPos 0 = r.outPos := by simp [advance, hout]
    simp [tuyaRingBuffRead, hm, hzero, hadv, copyOut]
  · have hn : n ≠ 0 := by omega
    simp only [tuyaRingBuffRead, hm, hzero, hn, or_self, Bool.true_eq_false, if_false,
      Prod.mk.injEq, true_and]
    refine ⟨?_, by omega⟩
    unfold advance
    by_cases hwrap : 0 < m - min (r.len - r.outPos) m
    · rw [if_pos hwrap, if_neg (by simp; omega), if_neg (by omega)]
      congr 1
      omega
    · rw [if_neg hwrap]
      by_cases hend : r.outPos + m < r.len
      · rw [if_neg (by simp; omega), if_pos hend]
        congr 1
        omega
      · rw [if_pos (by simp; omega), if_neg hend]
        congr 1
        omega

theorem peek_eq_read (r : RingBuff) (n : ℕ) :
    tuyaRingBuffPeek r true n = (tuyaRingBuffRead r true n).2 := by
  simp only [tuyaRingBuffPeek, tuyaRingBuffRead, Bool.true_eq_false, false_or,
    min_comm n (tuyaRingBuffUsedSizeGet r)]
  split_ifs <;> rfl

theorem wf_advance_out (h : Wf r) {n : ℕ} (hn : n ≤ tuyaRingBuffUsedSizeGet r) :
    Wf { r with outPos := advance r.len r.outPos n } :=
  ⟨h.in_lt, advance_lt h.out_lt (by have := used_lt h; omega), h.length_buff⟩

theorem content_advance_out (h : Wf r) {n : ℕ} (hn : n ≤ tuyaRingBuffUsedSizeGet r) :
    content { r with outPos := advance r.len r.outPos n } = (content r).drop n := by
  have hout := h.out_lt
  have hused := used_lt h
  rw [content_eq_advance (wf_advance_out h hn), content_eq_advance h, used_advance_out h hn,
    ← List.map_drop]
  apply List.ext_getElem
  · simp
  · intro i h1 h2
    have hi : i < tuyaRingBuffUsedSizeGet r - n := by simpa using h1
    simp only [List.getElem_map, List.getElem_range, List.getElem_drop, advance]
    congr 1
    split_ifs <;> omega

/-! ## Refinement of a bounded queue -/

def machine : Mealy RingBuff (FifoOp UInt8) (List UInt8 × ℕ) where
  step r
    | .write data =>
        ((tuyaRingBuffWrite r (some data) data.length).1, [],
          (tuyaRingBuffWrite r (some data) data.length).2)
    | .read n => tuyaRingBuffRead r true n
    | .peek n => (r, tuyaRingBuffPeek r true n)
    | .discard n => ((tuyaRingBuffDiscard r n).1, [], (tuyaRingBuffDiscard r n).2)
    | .reset => (tuyaRingBuffReset r, [], 0)

/-- A well-formed ring of `len` bytes whose unread bytes are those of `q`. -/
structure Refines {len : ℕ} (r : RingBuff) (q : Fifo UInt8 (len - 1)) : Prop where
  wf : Wf r
  len_eq : r.len = len
  content_eq : content r = q.items

theorem refines_create {len : ℕ} {type : RingbuffType} {malloc : Option (ℕ → UInt8)}
    (h : tuyaRingBuffCreate len type malloc = .ok r) :
    Refines r (Fifo.empty : Fifo UInt8 (len - 1)) := by
  unfold tuyaRingBuffCreate at h
  split_ifs at h with htype hlen
  cases malloc with
  | none => simp at h
  | some fill =>
      simp only [ringbuffInit, Except.ok.injEq] at h
      subst h
      have hpos : 0 < len := Nat.pos_of_ne_zero hlen
      exact ⟨⟨hpos, hpos, by simp⟩, rfl, by simp [content, tuyaRingBuffUsedSizeGet, Fifo.empty]⟩

end TuyaOpen.RingBuf
