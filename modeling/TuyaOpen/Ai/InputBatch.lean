import TuyaOpen.Ai.Input
import TuyaOpen.Lib.Batch

/-!
# Batches of the input ring

No record is lost, doubled or torn between the writes and the reads.  The head that comes with
a batch is that of a record in it, unless the next record was too long for what was left of
the buffer.
-/

namespace TuyaOpen.Ai

open Bytes ByteMem RingBuf Batch

/-- What is in the ring for one write that was accepted. -/
structure InputRecord where
  head : RingbufHead
  data : List UInt8
  length_data : data.length = head.len
  pos : 0 < head.len
  le : head.len ≤ aiInputBufSize

namespace InputRecord

@[grind =] def size (r : InputRecord) : ℕ := r.head.len

def frame (r : InputRecord) : List UInt8 := r.head.bytes ++ r.data

/-- The record of a write, unless the write has nothing to store. -/
def of? (head : RingbufHead) : Option Mem → Option InputRecord
  | none => none
  | some m =>
      if h : 0 < head.len ∧ head.len ≤ aiInputBufSize then
        some ⟨head, slice m 0 head.len, length_slice .., h.1, h.2⟩
      else none

end InputRecord

def payload (rs : List InputRecord) : List UInt8 := rs.flatMap InputRecord.data

def SameHead (head head' : RingbufHead) : Prop := head.type = head'.type ∧ head.biz = head'.biz

/-! ## What a call should do -/

/-- The records that were accepted, and the bytes that were handed out since. -/
structure InputNotes where
  accepted : List InputRecord
  returned : List UInt8

@[grind =] def noteInput (notes : InputNotes) (_ : AiInputCtx) (call : InputCall) (_ : AiInputCtx)
    (out : Option InputOut) : InputNotes :=
  match call, out with
  | .write head data, some (.wrote rt) =>
      if rt = oprtOk then
        { notes with accepted := notes.accepted ++ (InputRecord.of? head data).toList }
      else notes
  | .read _, some (.read r) => { notes with returned := notes.returned ++ r.bytes }
  | _, _ => notes

def inputRun : Mealy (AiInputCtx × InputNotes) InputCall (Option InputOut) :=
  inputMachine.observed noteInput

def unread (ctx : AiInputCtx) : List UInt8 :=
  match ctx.ringbuf with
  | none => []
  | some ring => content ring

/-- Whole records that fit the buffer come after those handed out before, and with bytes in the
ring the head is that of one of them. -/
def Batched (s : AiInputCtx × InputNotes) (r : InputRead) : Prop :=
  ∃ done batch rest, s.2.accepted = done ++ (batch ++ rest) ∧ payload done = s.2.returned ∧
    payload batch = r.bytes ∧ r.bytes.length ≤ aiInputBufSize ∧ r.head.len = r.bytes.length ∧
    (unread s.1 ≠ [] → ∃ x ∈ batch, SameHead r.head x.head)

def InputOk (s : AiInputCtx × InputNotes) (call : InputCall) : Prop :=
  let s' := inputRun.step s call
  s'.1.2.returned <+: payload s'.1.2.accepted ∧
    match call, s'.2 with
    | .write _ _, _ => True
    | .read _, some (.read r) => Batched s r
    | .read _, _ => False

/-- The first record that does not go into the batch has the head of one in it, or there is no
room left that it could be compared with. -/
def RefusedShared (pending : List InputRecord) : Prop :=
  ∀ next ∈ (refused InputRecord.size aiInputBufSize pending).head?,
    total InputRecord.size (fit InputRecord.size aiInputBufSize pending) = aiInputBufSize ∨
      ∃ x ∈ fit InputRecord.size aiInputBufSize pending, SameHead next.head x.head

def HeadShared (s : AiInputCtx × InputNotes) : InputCall → Prop
  | .write _ _ => True
  | .read _ => ∀ done pending, s.2.accepted = done ++ pending → payload done = s.2.returned →
      RefusedShared pending

/-! ## Records and heads -/

section Records

variable {rs : List InputRecord}

theorem length_payload (rs : List InputRecord) :
    (payload rs).length = total InputRecord.size rs := by
  induction rs with
  | nil => rfl
  | cons r rs ih =>
      rw [payload, List.flatMap_cons, List.length_append, r.length_data, total_cons, ← ih]
      rfl

theorem payload_append (rs rs' : List InputRecord) :
    payload (rs ++ rs') = payload rs ++ payload rs' := List.flatMap_append

theorem length_frame (r : InputRecord) : r.frame.length = ringbufHeadSize + r.head.len := by
  rw [InputRecord.frame, List.length_append, r.head.length_bytes, r.length_data]

theorem cut_unique {done done' rest rest' : List InputRecord} (heq : done ++ rest = done' ++ rest')
    (hbytes : payload done = payload done') : done = done' ∧ rest = rest' := by
  have htotal : total InputRecord.size done = total InputRecord.size done' := by
    rw [← length_payload, ← length_payload, hbytes]
  exact append_inj_of_total (fun r _ ↦ r.pos) heq htotal

theorem overwrite_bytes (head head' : RingbufHead) : head.overwrite head'.bytes = head' := by
  obtain ⟨bytes, hlen⟩ := head'
  have hnil : head.bytes.drop bytes.length = [] :=
    List.drop_eq_nil_of_le (by rw [head.length_bytes, hlen])
  simp only [RingbufHead.overwrite, hnil, List.append_nil, ← hlen, List.take_length]

theorem setLens_type (head : RingbufHead) (n : ℕ) : (head.setLens n).type = head.type := by
  have hlen := head.length_bytes
  rw [ringbufHeadSize] at hlen
  simp only [RingbufHead.type, RingbufHead.setLens, List.getD_eq_getElem?_getD]
  rw [List.getElem?_append_left (by rw [List.length_take]; omega),
    List.getElem?_take_of_lt (by omega)]

theorem setLens_biz (head : RingbufHead) (n : ℕ) : (head.setLens n).biz = head.biz := by
  have hlen := head.length_bytes
  rw [ringbufHeadSize] at hlen
  simp only [RingbufHead.biz, RingbufHead.setLens]
  rw [List.drop_append_of_le_length (by rw [List.length_take]; omega),
    List.take_append_of_le_length (by rw [List.length_drop, List.length_take]; omega),
    List.drop_take, List.take_take]
  rfl

theorem setLens_len (head : RingbufHead) {n : ℕ} (h : n < 256 ^ 4) : (head.setLens n).len = n := by
  have hfront : (head.bytes.take 24).length = 24 := by
    rw [List.length_take, head.length_bytes]
    rfl
  rw [RingbufHead.len, RingbufHead.setLens]
  dsimp only
  rw [take_drop_append hfront (by rw [List.length_reverse, length_encodeBE]), List.reverse_reverse,
    decodeBE_encodeBE h]

end Records

/-! ## The ring -/

/-- The ring holds these records, and nothing else. -/
structure Stores (ring : RingBuff) (pending : List InputRecord) : Prop where
  wf : Wf ring
  len_eq : ring.len = aiInputRingbufSize
  content_eq : content ring = pending.flatMap InputRecord.frame

section Ring

variable {ring : RingBuff}

theorem read_front (h : Wf ring) {xs ys : List UInt8} (hcontent : content ring = xs ++ ys) :
    ∃ ring', tuyaRingBuffRead ring true xs.length = (ring', xs, xs.length) ∧ Wf ring' ∧
      ring'.len = ring.len ∧ content ring' = ys := by
  have hused : tuyaRingBuffUsedSizeGet ring = xs.length + ys.length := by
    rw [← length_content, hcontent, List.length_append]
  have hmin : min (tuyaRingBuffUsedSizeGet ring) xs.length = xs.length := by omega
  have hle : xs.length ≤ tuyaRingBuffUsedSizeGet ring := by omega
  refine ⟨{ ring with outPos := advance ring.len ring.outPos xs.length }, ?_,
    wf_advance_out h hle, rfl, ?_⟩
  · rw [read_eq h, hmin, hcontent, List.take_left]
  · rw [content_advance_out h hle, hcontent, List.drop_left]

theorem peek_front (h : Wf ring) {xs ys : List UInt8} (hcontent : content ring = xs ++ ys) :
    tuyaRingBuffPeek ring true xs.length = (xs, xs.length) := by
  obtain ⟨ring', hread, -⟩ := read_front h hcontent
  rw [peek_eq_read, hread]

theorem peek_empty (h : Wf ring) (hcontent : content ring = []) (n : ℕ) :
    tuyaRingBuffPeek ring true n = ([], 0) := by
  rw [peek_eq_read, read_eq h, hcontent, ← length_content, hcontent]
  simp

theorem write_back (h : Wf ring) {xs : List UInt8}
    (hfree : xs.length ≤ tuyaRingBuffFreeSizeGet ring) :
    ∃ ring', tuyaRingBuffWrite ring (some xs) xs.length = (ring', xs.length) ∧ Wf ring' ∧
      ring'.len = ring.len ∧ content ring' = content ring ++ xs := by
  obtain ⟨hwf, hlen, hcontent, hret⟩ := write_spec h xs
  rw [min_eq_right hfree] at hret
  rw [List.take_of_length_le hfree] at hcontent
  exact ⟨_, Prod.ext rfl hret, hwf, hlen, hcontent⟩

end Ring

/-! ## One read -/

/-- The head that the loop leaves: the last one that was peeked. -/
def shown (room : ℕ) (head : RingbufHead) : List InputRecord → RingbufHead
  | [] => head
  | r :: rest =>
      if room = 0 then head
      else if r.size ≤ room then shown (room - r.size) r.head rest
      else r.head

theorem inputReadLoop_fits {state : AiInputState} (hstate : state ≠ .stop) {fuel : ℕ}
    {ring : RingBuff} {head : RingbufHead} {out : List UInt8} {r : InputRecord}
    {rest : List InputRecord} (hring : Stores ring (r :: rest))
    (hfits : out.length + r.size ≤ aiInputBufSize) :
    ∃ ring', Stores ring' rest ∧ inputReadLoop state (fuel + 1) ring head out =
      inputReadLoop state fuel ring' r.head (out ++ r.data) := by
  have hpos := r.pos
  have hcontent : content ring = r.head.bytes ++ (r.data ++ rest.flatMap InputRecord.frame) := by
    rw [hring.content_eq, List.flatMap_cons, InputRecord.frame, List.append_assoc]
  have hpeek := peek_front hring.wf hcontent
  obtain ⟨ring₁, hread, hwf₁, hlen₁, hcontent₁⟩ := read_front hring.wf hcontent
  obtain ⟨ring₂, hdata, hwf₂, hlen₂, hcontent₂⟩ := read_front hwf₁ hcontent₁
  rw [r.head.length_bytes] at hpeek hread
  rw [r.length_data] at hdata
  have hsum : (r.head.len + out.length) % 2 ^ 32 = r.head.len + out.length := by
    apply Nat.mod_eq_of_lt
    rw [InputRecord.size, aiInputBufSize] at hfits
    omega
  rw [InputRecord.size] at hfits
  refine ⟨ring₂, ⟨hwf₂, (hlen₂.trans hlen₁).trans hring.len_eq, hcontent₂⟩, ?_⟩
  rw [inputReadLoop, if_neg (by omega), if_neg hstate, hpeek]
  dsimp only
  rw [overwrite_bytes, if_neg (not_not_intro rfl), hsum, if_neg (by omega), hread]
  dsimp only
  rw [overwrite_bytes, if_neg (not_not_intro rfl), hdata]
  dsimp only
  rw [if_neg (not_not_intro rfl)]

theorem inputReadLoop_stops {state : AiInputState} (hstate : state ≠ .stop) {fuel : ℕ}
    {ring : RingBuff} {head : RingbufHead} {out : List UInt8} {pending : List InputRecord}
    (hring : Stores ring pending)
    (hstops : ∀ r ∈ pending.head?, aiInputBufSize < out.length + r.size) :
    inputReadLoop state (fuel + 1) ring head out =
      some ⟨ring, shown (aiInputBufSize - out.length) head pending, out, oprtOk⟩ := by
  rw [inputReadLoop]
  by_cases hfull : aiInputBufSize ≤ out.length
  · rw [if_pos hfull, Nat.sub_eq_zero_of_le hfull]
    cases pending <;> rfl
  rw [if_neg hfull, if_neg hstate]
  cases pending with
  | nil =>
      rw [peek_empty hring.wf hring.content_eq]
      rfl
  | cons r rest =>
      have hlt := hstops r rfl
      have hcontent : content ring =
          r.head.bytes ++ (r.data ++ rest.flatMap InputRecord.frame) := by
        rw [hring.content_eq, List.flatMap_cons, InputRecord.frame, List.append_assoc]
      have hpeek := peek_front hring.wf hcontent
      rw [r.head.length_bytes] at hpeek
      have hle := r.le
      rw [InputRecord.size] at hlt
      have hsum : (r.head.len + out.length) % 2 ^ 32 = r.head.len + out.length := by
        apply Nat.mod_eq_of_lt
        rw [aiInputBufSize] at hfull hle
        omega
      rw [hpeek]
      dsimp only
      rw [overwrite_bytes, if_neg (not_not_intro rfl), hsum, if_pos (by omega), shown,
        if_neg (by omega), if_neg (by rw [InputRecord.size]; omega)]

theorem inputReadLoop_spec {state : AiInputState} (hstate : state ≠ .stop)
    {pending : List InputRecord} {fuel : ℕ} {ring : RingBuff} (head : RingbufHead)
    {out : List UInt8} (hring : Stores ring pending) (hout : out.length ≤ aiInputBufSize)
    (hfuel : pending.length < fuel) :
    ∃ ring', Stores ring' (refused InputRecord.size (aiInputBufSize - out.length) pending) ∧
      inputReadLoop state fuel ring head out =
        some ⟨ring', shown (aiInputBufSize - out.length) head pending,
          out ++ payload (fit InputRecord.size (aiInputBufSize - out.length) pending), oprtOk⟩ := by
  induction pending generalizing fuel ring head out with
  | nil =>
      cases fuel with
      | zero => cases hfuel
      | succ fuel =>
          have hstop := @inputReadLoop_stops _ hstate fuel _ head out _ hring fun _ hr ↦ by cases hr
          refine ⟨ring, hring, hstop.trans ?_⟩
          rw [fit, payload, List.flatMap_nil, List.append_nil]
  | cons r rest ih =>
      cases fuel with
      | zero => cases hfuel
      | succ fuel =>
          rcases Nat.lt_or_ge (aiInputBufSize - out.length) r.size with hlt | hle
          · have hstop := @inputReadLoop_stops _ hstate fuel _ head out _ hring fun x hx ↦ by
              cases hx
              omega
            rw [fit_cons_of_lt hlt, refused_cons_of_lt hlt]
            refine ⟨ring, hring, hstop.trans ?_⟩
            rw [payload, List.flatMap_nil, List.append_nil]
          · have hpos : 0 < r.size := r.pos
            obtain ⟨ring₁, hring₁, hstep⟩ :=
              @inputReadLoop_fits _ hstate fuel _ head out _ _ hring (by omega)
            have hlen : (out ++ r.data).length = out.length + r.size := by
              rw [List.length_append, r.length_data]
              rfl
            have hroom : aiInputBufSize - out.length - r.size =
                aiInputBufSize - (out ++ r.data).length := by omega
            obtain ⟨ring', hring', hrest⟩ :=
              @ih _ _ r.head (out ++ r.data) hring₁ (by omega) (Nat.lt_of_succ_lt_succ hfuel)
            rw [fit_cons_of_le hle, refused_cons_of_le hle, hroom]
            refine ⟨ring', hring', hstep.trans (hrest.trans ?_)⟩
            rw [shown, if_neg (by omega), if_pos hle, hroom, payload, payload, List.flatMap_cons,
              List.append_assoc]

theorem shown_refused {room : ℕ} {pending : List InputRecord} {next : InputRecord}
    (hnext : (refused InputRecord.size room pending).head? = some next) (head : RingbufHead)
    (hroom : total InputRecord.size (fit InputRecord.size room pending) < room) :
    shown room head pending = next.head := by
  induction pending generalizing room head with
  | nil => cases hnext
  | cons r rest ih =>
      have hzero : room ≠ 0 := by omega
      rw [shown, if_neg hzero]
      rcases Nat.lt_or_ge room r.size with hlt | hle
      · rw [refused_cons_of_lt hlt] at hnext
        cases hnext
        rw [if_neg (by omega)]
      · rw [refused_cons_of_le hle] at hnext
        rw [fit_cons_of_le hle, total_cons] at hroom
        rw [if_pos hle]
        exact ih hnext r.head (by omega)

theorem shown_last {room : ℕ} {pending : List InputRecord} (head : RingbufHead)
    (h : refused InputRecord.size room pending = [] ∨
      total InputRecord.size (fit InputRecord.size room pending) = room) :
    shown room head pending =
      ((fit InputRecord.size room pending).map InputRecord.head).getLastD head := by
  induction pending generalizing room head with
  | nil => rfl
  | cons r rest ih =>
      have hpos : 0 < r.size := r.pos
      rcases Nat.lt_or_ge room r.size with hlt | hle
      · rw [fit_cons_of_lt hlt, refused_cons_of_lt hlt] at h
        rw [fit_cons_of_lt hlt, shown, if_pos]
        · rfl
        · exact h.elim (fun hnil ↦ by cases hnil) fun htotal ↦ htotal.symm
      · rw [fit_cons_of_le hle, refused_cons_of_le hle, total_cons] at h
        rw [fit_cons_of_le hle, shown, if_neg (by omega), if_pos hle, List.map_cons,
          List.getLastD_cons]
        exact ih r.head (h.imp_right fun htotal ↦ by omega)

theorem shown_in_batch_iff {pending : List InputRecord} (hne : pending ≠ []) (head : RingbufHead) :
    (∃ x ∈ fit InputRecord.size aiInputBufSize pending,
        SameHead (shown aiInputBufSize head pending) x.head) ↔ RefusedShared pending := by
  have hle := total_fit_le InputRecord.size aiInputBufSize pending
  have hlast : (refused InputRecord.size aiInputBufSize pending = [] ∨
      total InputRecord.size (fit InputRecord.size aiInputBufSize pending) = aiInputBufSize) →
      ∃ x ∈ fit InputRecord.size aiInputBufSize pending,
        SameHead (shown aiInputBufSize head pending) x.head := by
    intro h
    rw [shown_last head h]
    cases pending with
    | nil => exact absurd rfl hne
    | cons r rest =>
        have hfits : r.size ≤ aiInputBufSize := r.le
        rw [fit_cons_of_le hfits, List.map_cons, List.getLastD_cons]
        have hmem := @List.getLastD_mem_cons _
          ((fit InputRecord.size (aiInputBufSize - r.size) rest).map InputRecord.head) r.head
        rw [← List.map_cons] at hmem
        obtain ⟨x, hx, heq⟩ := List.mem_map.mp hmem
        exact ⟨x, hx, heq ▸ ⟨rfl, rfl⟩⟩
  cases hrefused : refused InputRecord.size aiInputBufSize pending with
  | nil =>
      refine iff_of_true (hlast (.inl hrefused)) fun next hnext ↦ ?_
      rw [hrefused] at hnext
      cases hnext
  | cons next rest =>
      have hnext : (refused InputRecord.size aiInputBufSize pending).head? = some next := by
        rw [hrefused]
        rfl
      rcases Nat.lt_or_ge (total InputRecord.size (fit InputRecord.size aiInputBufSize pending))
        aiInputBufSize with hroom | hfull
      · rw [shown_refused hnext head hroom, RefusedShared, hnext]
        constructor
        · intro hx x hx'
          cases hx'
          exact .inr hx
        · exact fun h ↦ (h next rfl).resolve_left (Nat.ne_of_lt hroom)
      · have heq := Nat.le_antisymm hle hfull
        exact iff_of_true (hlast (.inr heq)) fun _ _ ↦ .inl heq

/-! ## Runs -/

/-- What is pending is in the ring, and the rest was handed out. -/
structure InputInv (s : AiInputCtx × InputNotes) : Prop where
  state : s.1.state ≠ .stop
  stored : ∃ ring done pending, s.1.ringbuf = some ring ∧ Stores ring pending ∧
    s.2.accepted = done ++ pending ∧ payload done = s.2.returned

section Run

variable {s : AiInputCtx × InputNotes}

theorem InputInv.handed_out (h : InputInv s) : s.2.returned <+: payload s.2.accepted := by
  obtain ⟨ring, done, pending, -, -, haccepted, hreturned⟩ := h.stored
  rw [haccepted, payload_append, hreturned]
  exact List.prefix_append _ _

theorem of?_head {head : RingbufHead} {data : Option Mem} {r : InputRecord}
    (h : InputRecord.of? head data = some r) : r.head = head := by
  cases data with
  | none => cases h
  | some m =>
      rw [InputRecord.of?] at h
      split_ifs at h
      cases h
      rfl

theorem tuyaAiInputWrite_cases {ctx : AiInputCtx} {ring : RingBuff} {pending : List InputRecord}
    (hctx : ctx.ringbuf = some ring) (hring : Stores ring pending) (head : RingbufHead)
    (data : Option Mem) :
    (∃ rt, tuyaAiInputWrite ctx head data = (ctx, rt) ∧
        (rt = oprtOk → InputRecord.of? head data = none) ∧
        ∀ r, InputRecord.of? head data = some r → tuyaRingBuffFreeSizeGet ring < r.frame.length) ∨
      ∃ ring' r, tuyaAiInputWrite ctx head data = ({ ctx with ringbuf := some ring' }, oprtOk) ∧
        InputRecord.of? head data = some r ∧ Stores ring' (pending ++ [r]) := by
  cases data with
  | none => exact .inl ⟨oprtOk, rfl, fun _ ↦ rfl, fun r hr ↦ by cases hr⟩
  | some m =>
      have hnone : ¬(0 < head.len ∧ head.len ≤ aiInputBufSize) →
          InputRecord.of? head (some m) = none := fun h ↦ dif_neg h
      rw [tuyaAiInputWrite]
      dsimp only
      by_cases hzero : head.len = 0
      · have hrecord := hnone fun hlen ↦ by omega
        refine .inl ⟨oprtOk, if_pos hzero, fun _ ↦ hrecord, fun r hr ↦ ?_⟩
        cases hrecord.symm.trans hr
      rw [if_neg hzero]
      by_cases hlong : aiInputBufSize < head.len
      · have hrecord := hnone fun hlen ↦ by omega
        refine .inl ⟨oprtInvalidParm, if_pos hlong, fun _ ↦ hrecord, fun r hr ↦ ?_⟩
        cases hrecord.symm.trans hr
      rw [if_neg hlong, hctx]
      dsimp only
      by_cases hfree : tuyaRingBuffFreeSizeGet ring < ringbufHeadSize + head.len
      · refine .inl ⟨oprtResourceNotReady, if_pos hfree, fun hrt ↦ absurd hrt (by decide),
          fun r hr ↦ ?_⟩
        rw [length_frame, of?_head hr]
        exact hfree
      rw [if_neg hfree]
      have hlen : 0 < head.len ∧ head.len ≤ aiInputBufSize := by omega
      have hwrite := @write_back _ hring.wf head.bytes (by rw [head.length_bytes]; omega)
      rw [head.length_bytes] at hwrite
      obtain ⟨ring₁, hhead, hwf₁, hlen₁, hcontent₁⟩ := hwrite
      have hroom : head.len ≤ tuyaRingBuffFreeSizeGet ring₁ := by
        have hsum := free_add_used hring.wf
        have hsum₁ := free_add_used hwf₁
        have hused : tuyaRingBuffUsedSizeGet ring₁ =
            tuyaRingBuffUsedSizeGet ring + ringbufHeadSize := by
          rw [← length_content, hcontent₁, List.length_append, length_content, head.length_bytes]
        omega
      have hwrite := @write_back _ hwf₁ (slice m 0 head.len) (by rw [length_slice]; exact hroom)
      rw [length_slice] at hwrite
      obtain ⟨ring₂, hdata, hwf₂, hlen₂, hcontent₂⟩ := hwrite
      rw [hhead]
      dsimp only
      rw [if_neg (not_not_intro rfl), hdata]
      dsimp only
      rw [if_neg (not_not_intro rfl)]
      refine .inr ⟨ring₂, _, rfl, dif_pos hlen, hwf₂, (hlen₂.trans hlen₁).trans hring.len_eq, ?_⟩
      rw [hcontent₂, hcontent₁, hring.content_eq, List.flatMap_append, List.flatMap_singleton,
        InputRecord.frame, List.append_assoc]

theorem of_write_nothing {head : RingbufHead} {data : Option Mem} {rt : OperateRet}
    (hnone : rt = oprtOk → InputRecord.of? head data = none) :
    noteInput s.2 s.1 (.write head data) s.1 (some (.wrote rt)) = s.2 := by
  rw [noteInput]
  split_ifs with hrt
  · rw [hnone hrt, Option.toList_none, List.append_nil]
  · rfl

theorem InputInv.write (h : InputInv s) (head : RingbufHead) (data : Option Mem) :
    InputInv (inputRun.step s (.write head data)).1 := by
  obtain ⟨ring, done, pending, hctx, hring, haccepted, hreturned⟩ := h.stored
  have hstep : (inputRun.step s (.write head data)).1 =
      ((tuyaAiInputWrite s.1 head data).1, noteInput s.2 s.1 (.write head data)
        (tuyaAiInputWrite s.1 head data).1 (some (.wrote (tuyaAiInputWrite s.1 head data).2))) :=
          rfl
  rw [hstep]
  rcases tuyaAiInputWrite_cases hctx hring head data with
    ⟨rt, hwrite, hnone, -⟩ | ⟨ring', r, hwrite, hrecord, hring'⟩
  · rw [hwrite]
    dsimp only
    rw [of_write_nothing hnone]
    exact h
  · rw [hwrite]
    dsimp only
    rw [noteInput, if_pos rfl, hrecord, Option.toList_some]
    refine ⟨h.state, ring', done, pending ++ [r], rfl, hring', ?_, hreturned⟩
    dsimp only
    rw [haccepted, List.append_assoc]

theorem length_le_frames (rs : List InputRecord) :
    rs.length ≤ (rs.flatMap InputRecord.frame).length := by
  induction rs with
  | nil => exact Nat.le_refl 0
  | cons r rs ih =>
      rw [List.flatMap_cons, List.length_append, length_frame, List.length_cons, ringbufHeadSize]
      omega

theorem unread_eq_nil_iff {ring : RingBuff} {pending : List InputRecord}
    (hctx : s.1.ringbuf = some ring) (hring : Stores ring pending) :
    unread s.1 = [] ↔ pending = [] := by
  rw [unread, hctx]
  dsimp only
  rw [hring.content_eq]
  constructor
  · intro hnil
    have hle := length_le_frames pending
    rw [hnil] at hle
    exact List.eq_nil_of_length_eq_zero (Nat.le_zero.mp hle)
  · rintro rfl
    rfl

theorem tuyaAiInputRead_spec {ctx : AiInputCtx} (hstate : ctx.state ≠ .stop) {ring : RingBuff}
    {pending : List InputRecord} (hctx : ctx.ringbuf = some ring) (hring : Stores ring pending)
    (head : RingbufHead) :
    ∃ ring', Stores ring' (refused InputRecord.size aiInputBufSize pending) ∧
      tuyaAiInputRead ctx head = some ({ ctx with ringbuf := some ring' },
        ⟨oprtOk, (shown aiInputBufSize head pending).setLens
            (payload (fit InputRecord.size aiInputBufSize pending)).length,
          payload (fit InputRecord.size aiInputBufSize pending)⟩) := by
  have hfuel : pending.length < tuyaRingBuffUsedSizeGet ring + 1 := by
    have hle := length_le_frames pending
    rw [← hring.content_eq, length_content] at hle
    omega
  obtain ⟨ring', hring', hloop⟩ :=
    @inputReadLoop_spec _ hstate _ _ _ head [] hring (Nat.zero_le _) hfuel
  rw [List.length_nil, Nat.sub_zero] at hring' hloop
  refine ⟨ring', hring', ?_⟩
  rw [tuyaAiInputRead, hctx]
  dsimp only
  rw [hloop]
  rfl

theorem sameHead_setLens (head head' : RingbufHead) (n : ℕ) :
    SameHead (head.setLens n) head' ↔ SameHead head head' := by
  rw [SameHead, SameHead, setLens_type, setLens_biz]

/-- What a read hands out is a batch, with the head of a record in it exactly when the first
record that is refused shares it. -/
theorem batched_iff {ring : RingBuff} {done pending : List InputRecord}
    (hctx : s.1.ringbuf = some ring) (hring : Stores ring pending)
    (haccepted : s.2.accepted = done ++ pending) (hreturned : payload done = s.2.returned)
    (head : RingbufHead) :
    Batched s ⟨oprtOk, (shown aiInputBufSize head pending).setLens
          (payload (fit InputRecord.size aiInputBufSize pending)).length,
        payload (fit InputRecord.size aiInputBufSize pending)⟩ ↔
      HeadShared s (.read head) := by
  have hsplit := fit_append_refused InputRecord.size aiInputBufSize pending
  have hle := total_fit_le InputRecord.size aiInputBufSize pending
  rw [← length_payload] at hle
  constructor
  · rintro ⟨done', batch, rest, haccepted', hreturned', hbatch, -, -, hhead⟩ done₂ pending₂
      heq hdone
    obtain ⟨-, rfl⟩ := cut_unique (heq.symm.trans haccepted) (hdone.trans hreturned.symm)
    obtain ⟨-, hpending⟩ := cut_unique (haccepted'.symm.trans haccepted)
      (hreturned'.trans hreturned.symm)
    obtain ⟨rfl, -⟩ := cut_unique (hpending.trans hsplit.symm) hbatch
    by_cases hnil : pending₂ = []
    · subst hnil
      intro next hnext
      cases hnext
    · obtain ⟨x, hx, hsame⟩ := hhead (mt (unread_eq_nil_iff hctx hring).mp hnil)
      exact (shown_in_batch_iff hnil head).mp ⟨x, hx, (sameHead_setLens _ _ _).mp hsame⟩
  · intro hshared
    refine ⟨done, _, _, hsplit.symm ▸ haccepted, hreturned, rfl, hle, setLens_len _ ?_,
      fun hunread ↦ ?_⟩
    · apply hle.trans_lt
      decide
    · have hnil := mt (unread_eq_nil_iff hctx hring).mpr hunread
      obtain ⟨x, hx, hsame⟩ :=
        (shown_in_batch_iff hnil head).mpr (hshared done pending haccepted hreturned)
      exact ⟨x, hx, (sameHead_setLens _ _ _).mpr hsame⟩

theorem inputCall_spec (h : InputInv s) (call : InputCall) :
    (InputOk s call ↔ HeadShared s call) ∧ InputInv (inputRun.step s call).1 := by
  cases call with
  | write head data =>
      have hinv := h.write head data
      exact ⟨iff_of_true ⟨hinv.handed_out, trivial⟩ trivial, hinv⟩
  | read head =>
      obtain ⟨ring, done, pending, hctx, hring, haccepted, hreturned⟩ := h.stored
      obtain ⟨ring', hring', hread⟩ := tuyaAiInputRead_spec h.state hctx hring head
      have hiff := batched_iff hctx hring haccepted hreturned head
      generalize hr : (⟨oprtOk, (shown aiInputBufSize head pending).setLens _, _⟩ : InputRead) = r
        at hread hiff
      have hbytes : r.bytes = payload (fit InputRecord.size aiInputBufSize pending) := by rw [← hr]
      have hstep : inputRun.step s (.read head) =
          (({ s.1 with ringbuf := some ring' },
            { s.2 with returned := s.2.returned ++ r.bytes }), some (.read r)) := by
        simp only [inputRun, Mealy.observed, inputMachine, hread]
        rfl
      have hinv : InputInv (inputRun.step s (.read head)).1 := by
        rw [hstep]
        refine ⟨h.state, ring', done ++ fit InputRecord.size aiInputBufSize pending, _, rfl, hring',
          ?_, ?_⟩
        · rw [List.append_assoc, fit_append_refused]
          exact haccepted
        · rw [payload_append, hreturned, hbytes]
      refine ⟨?_, hinv⟩
      have hout := hinv.handed_out
      rw [hstep] at hout
      simp only [InputOk, hstep]
      exact (and_iff_right hout).trans hiff

/-- Records are handed out in order, whole and once, as many as fit; and over a run the head of
every batch is that of a record in it exactly when every first record refused shares its head with
one that was taken. -/
theorem input_batches_iff {type : RingbuffType} {malloc : Option (ℕ → UInt8)} {ring : RingBuff}
    (hring : tuyaRingBuffCreate aiInputRingbufSize type malloc = .ok ring) {state : AiInputState}
    (hstate : state ≠ .stop) (calls : List InputCall) :
    inputRun.Guarded InputOk (⟨state, some ring⟩, ⟨[], []⟩) calls ↔
      inputRun.Guarded HeadShared (⟨state, some ring⟩, ⟨[], []⟩) calls := by
  have hrefines := refines_create hring
  have hinit : InputInv (⟨state, some ring⟩, ⟨[], []⟩) :=
    ⟨hstate, ring, [], [], rfl, ⟨hrefines.wf, hrefines.len_eq, hrefines.content_eq⟩, rfl, rfl⟩
  have hiff : ∀ s call, InputInv s → True → (InputOk s call ↔ HeadShared s call) :=
    fun s call h _ ↦ (inputCall_spec h call).1
  have hstep : ∀ s call, InputInv s → True → HeadShared s call →
      InputInv (inputRun.step s call).1 := fun s call h _ _ ↦ (inputCall_spec h call).2
  exact inputRun.guarded_congr hiff hstep hinit (inputRun.guarded_true _ calls)

def inputHead (type : UInt8) (n : ℕ) : RingbufHead :=
  RingbufHead.setLens ⟨type :: List.replicate 31 0, rfl⟩ n

theorem create_stop {len : ℕ} (hlen : len ≠ 0) (fill : ℕ → UInt8) :
    tuyaRingBuffCreate len .overflowStopType (some fill) =
      .ok (ringbuffInit ⟨.overflowStopType, 0, 0, 0, (List.range len).map fill⟩ len) := by
  rw [tuyaRingBuffCreate, if_neg (by decide), if_neg hlen]

def inputRing : RingBuff :=
  ringbuffInit ⟨.overflowStopType, 0, 0, 0, (List.range aiInputRingbufSize).map fun _ ↦ 0⟩
    aiInputRingbufSize

theorem inputRing_created :
    tuyaRingBuffCreate aiInputRingbufSize .overflowStopType (some fun _ ↦ 0) =
    .ok inputRing := create_stop (by decide) _

theorem write_accepted {state : AiInputState} {ring : RingBuff}
    {pending accepted : List InputRecord}
    {returned : List UInt8} (hring : Stores ring pending) {head : RingbufHead} {data : Option Mem}
    {r : InputRecord} (hr : InputRecord.of? head data = some r)
    (hroom : (pending.flatMap InputRecord.frame).length + r.frame.length < aiInputRingbufSize) :
    ∃ ring', Stores ring' (pending ++ [r]) ∧
      (inputRun.step (⟨state, some ring⟩, ⟨accepted, returned⟩) (.write head data)).1 =
        (⟨state, some ring'⟩, ⟨accepted ++ [r], returned⟩) := by
  have hstep : (inputRun.step (⟨state, some ring⟩, ⟨accepted, returned⟩) (.write head data)).1 =
      ((tuyaAiInputWrite ⟨state, some ring⟩ head data).1,
        noteInput ⟨accepted, returned⟩ ⟨state, some ring⟩ (.write head data)
          (tuyaAiInputWrite ⟨state, some ring⟩ head data).1
          (some (.wrote (tuyaAiInputWrite ⟨state, some ring⟩ head data).2))) := rfl
  rcases @tuyaAiInputWrite_cases ⟨state, some ring⟩ ring pending rfl hring head data with
    ⟨rt, -, -, hfull⟩ | ⟨ring', r', hwrite, hrecord, hring'⟩
  · have hlt := hfull r hr
    have hsum := free_add_used hring.wf
    rw [← length_content, hring.content_eq, hring.len_eq] at hsum
    omega
  · cases hrecord.symm.trans hr
    refine ⟨ring', hring', ?_⟩
    rw [hstep, hwrite]
    dsimp only
    rw [noteInput, if_pos rfl, hr]
    rfl

theorem two_accepted {a b : InputRecord} {heada headb : RingbufHead} {dataa datab : Option Mem}
    (ha : InputRecord.of? heada dataa = some a) (hb : InputRecord.of? headb datab = some b)
    (hroom : 2 * ringbufHeadSize + a.size + b.size < aiInputRingbufSize) :
    ∃ ring, Stores ring [a, b] ∧
      (inputRun.step (inputRun.step (⟨.proc, some inputRing⟩, ⟨[], []⟩) (.write heada dataa)).1
        (.write headb datab)).1 = (⟨.proc, some ring⟩, ⟨[a, b], []⟩) := by
  rw [InputRecord.size, InputRecord.size] at hroom
  have hrefines := refines_create inputRing_created
  have hstart : Stores inputRing [] := ⟨hrefines.wf, hrefines.len_eq, hrefines.content_eq⟩
  obtain ⟨ring₁, hring₁, hstep₁⟩ := write_accepted hstart ha (by
    rw [length_frame, List.flatMap_nil, List.length_nil]
    omega)
  obtain ⟨ring₂, hring₂, hstep₂⟩ := write_accepted hring₁ hb (by
    rw [List.nil_append, List.flatMap_singleton, length_frame, length_frame]
    omega)
  exact ⟨ring₂, hring₂, by rw [hstep₁, hstep₂]; rfl⟩

theorem inputHead_record (type : UInt8) {n : ℕ} (m : Mem) (hpos : 0 < n)
    (hle : n ≤ aiInputBufSize) :
    ∃ r, InputRecord.of? (inputHead type n) (some m) = some r ∧ r.head = inputHead type n ∧
      r.size = n := by
  have hlen : (inputHead type n).len = n := setLens_len _ (hle.trans_lt (by decide))
  have hrange : 0 < (inputHead type n).len ∧ (inputHead type n).len ≤ aiInputBufSize := by
    rw [hlen]
    exact ⟨hpos, hle⟩
  exact ⟨_, dif_pos hrange, rfl, hlen⟩

/-- Two records come in one batch, and the third of the same kind is too long for it. -/
theorem input_batches_iff_three :
    inputRun.Guarded InputOk (⟨.proc, some inputRing⟩, ⟨[], []⟩)
      [.write (inputHead 31 1) (some (ofList [7])), .write (inputHead 31 2) (some (ofList [8, 9])),
        .write (inputHead 31 6144) (some (ofList [])), .read (inputHead 0 0)] := by
  obtain ⟨a, ha, hahead, hasize⟩ :=
    inputHead_record 31 (ofList [7]) Nat.one_pos (by decide : 1 ≤ aiInputBufSize)
  obtain ⟨b, hb, -, hbsize⟩ :=
    inputHead_record 31 (ofList [8, 9]) Nat.two_pos (by decide : 2 ≤ aiInputBufSize)
  obtain ⟨c, hc, hchead, hcsize⟩ :=
    inputHead_record 31 (ofList []) (by decide : 0 < 6144) (by decide)
  obtain ⟨ring, hring, htwo⟩ := two_accepted ha hb (by
    rw [hasize, hbsize]
    decide)
  obtain ⟨ring', -, hthree⟩ := write_accepted hring hc (by
    simp only [List.flatMap_cons, List.flatMap_nil, List.append_nil, List.length_append,
      length_frame]
    rw [← InputRecord.size, ← InputRecord.size, ← InputRecord.size, hasize, hbsize, hcsize]
    decide)
  refine (input_batches_iff inputRing_created (by decide) _).mpr
    ⟨trivial, trivial, trivial, ?_, trivial⟩
  rw [htwo, hthree]
  intro done pending heq hdone
  obtain ⟨-, rfl⟩ := @cut_unique done [] pending [a, b, c] heq.symm hdone
  have hfirst : a.size ≤ aiInputBufSize := a.le
  have hfits : b.size ≤ aiInputBufSize - a.size := by
    rw [hasize, hbsize]
    decide
  have hlong : aiInputBufSize - a.size - b.size < c.size := by
    rw [hasize, hbsize, hcsize]
    decide
  intro next hnext
  rw [refused_cons_of_le hfirst, refused_cons_of_le hfits, refused_cons_of_lt hlong] at hnext
  obtain rfl : c = next := Option.some.inj hnext
  refine .inr ⟨a, ?_, ?_⟩
  · rw [fit_cons_of_le hfirst]
    exact List.mem_cons_self
  · rw [hchead, hahead, SameHead, inputHead, inputHead, setLens_type, setLens_type, setLens_biz,
      setLens_biz]
    exact ⟨rfl, rfl⟩

/-- A record of one byte comes back with the head of the long one behind it. -/
theorem head_of_refused :
    ¬inputRun.Guarded InputOk (⟨.proc, some inputRing⟩, ⟨[], []⟩)
      [.write (inputHead 31 1) (some (ofList [7])), .write (inputHead 33 6144) (some (ofList [])),
        .read (inputHead 0 0)] := by
  obtain ⟨a, ha, hahead, hasize⟩ :=
    inputHead_record 31 (ofList [7]) Nat.one_pos (by decide : 1 ≤ aiInputBufSize)
  obtain ⟨b, hb, hbhead, hbsize⟩ :=
    inputHead_record 33 (ofList []) (by decide : 0 < 6144) (by decide)
  obtain ⟨ring, hring, htwo⟩ := two_accepted ha hb (by
    rw [hasize, hbsize]
    decide)
  rintro ⟨-, -, hread, -⟩
  rw [htwo] at hread
  have hinv : InputInv (⟨.proc, some ring⟩, ⟨[a, b], []⟩) :=
    ⟨(by decide : AiInputState.proc ≠ .stop), ring, [], [a, b], rfl, hring, rfl, rfl⟩
  have hshared := (inputCall_spec hinv (.read (inputHead 0 0))).1.mp hread [] [a, b] rfl rfl
  have hfirst : a.size ≤ aiInputBufSize := a.le
  have hlong : aiInputBufSize - a.size < b.size := by
    rw [hasize, hbsize]
    decide
  rw [RefusedShared, refused_cons_of_le hfirst, refused_cons_of_lt hlong, fit_cons_of_le hfirst,
    fit_cons_of_lt hlong, total_cons, total_nil, hasize] at hshared
  rcases hshared b rfl with hfull | ⟨x, hx, hsame, -⟩
  · revert hfull
    decide
  · cases List.mem_singleton.mp hx
    rw [hahead, hbhead, inputHead, inputHead, setLens_type, setLens_type] at hsame
    revert hsame
    decide

end Run

end TuyaOpen.Ai
