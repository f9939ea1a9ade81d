import TuyaOpen.Ai.Attrs
import TuyaOpen.Lib.Orbit

/-!
# Where the attribute parser reads

The lengths of the records come from the peer, and the caller does not compare the
length of the attributes with the payload.  The first pass of the parser follows the
lengths alone, in 32-bit arithmetic; only the second one checks the records.
-/

namespace TuyaOpen.Ai

open Bytes ByteMem Orbit

/-! ## Staying inside -/

/-- Bytes and strings point to as many bytes as their length says. -/
def ParsedAttr.ValueInside (lim : ℕ) (a : ParsedAttr) : Prop :=
  match a.value with
  | .bytes start => start + a.length ≤ lim
  | .str start => start + a.length ≤ lim
  | _ => True

structure DecodeRun.Bounded (lim : ℕ) (d : DecodeRun) : Prop where
  reads : ∀ r ∈ d.reads, r.Inside lim
  values : ∀ attrs, d.result = .ok attrs → ∀ a ∈ attrs, a.ValueInside lim

structure ParseRun.Bounded (lim : ℕ) (run : ParseRun) : Prop where
  reads : ∀ r ∈ run.reads, r.Inside lim
  filled : run.filled ≤ run.num
  values : ∀ attrs, run.result = .ok attrs → ∀ a ∈ attrs, a.ValueInside lim

/-- Both functions come to an end inside of those of the `attrLen` bytes that belong to
the `n` bytes of the payload. -/
structure AttrsBounded (m : Mem) (n attrLen : ℕ) (mem : Bool) : Prop where
  count : ∃ fuel num reads, tuyaAiGetAttrNum m attrLen fuel = some (num, reads) ∧
    ∀ r ∈ reads, r.Inside (min attrLen n)
  parse : ∃ fuel run, tuyaParseUserAttrs m attrLen mem fuel = some run ∧
    run.Bounded (min attrLen n)

/-! ## The records of the input -/

/-- The lengths lead from `offset` to the end, and each lies in the first `lim` bytes. -/
inductive LengthsInside (m : Mem) (attrLen lim : ℕ) : ℕ → Prop
  | done {offset} : attrLen ≤ offset → LengthsInside m attrLen lim offset
  | step {offset} : offset < attrLen → u32 (offset + 3) + 4 ≤ lim →
      LengthsInside m attrLen lim (nextRecord m offset) → LengthsInside m attrLen lim offset

def knownPts : List UInt8 :=
  [attrPtU8, attrPtU16, attrPtU32, attrPtU64, attrPtBytes, attrPtStr]

/-- The checks of the parser for one record. -/
structure AcceptedRecord (m : Mem) (offset : ℕ) : Prop where
  known : recordPt m offset ∈ knownPts
  noWrap : recordStart offset ≤ nextRecord m offset
  valid : aiCheckAttrVaild (recordType m offset) (recordPt m offset) (recordLength m offset) = true

/-- How many bytes an integer of this payload type has. -/
@[grind =] def intSize (pt : UInt8) : ℕ :=
  if pt = attrPtU8 then 1 else if pt = attrPtU16 then 2 else if pt = attrPtU32 then 4
  else if pt = attrPtU64 then 8 else 0

/-- Accepted records fill the bytes from `offset` to the end. -/
inductive Tiled (m : Mem) (attrLen : ℕ) : ℕ → Prop
  | done : Tiled m attrLen attrLen
  | step {offset} : AcceptedRecord m offset →
      Tiled m attrLen (offset + 7 + recordLength m offset) → Tiled m attrLen offset

/-- Behind accepted records lies one that is not, and what is looked at of them lies in
the first `lim` bytes. -/
inductive RefusedInside (m : Mem) (lim : ℕ) : ℕ → Prop
  | here {offset} : ¬AcceptedRecord m offset →
      offset + 7 + min (recordLength m offset) (intSize (recordPt m offset)) ≤ lim →
      RefusedInside m lim offset
  | step {offset} : AcceptedRecord m offset → offset + 7 ≤ lim →
      RefusedInside m lim (nextRecord m offset) → RefusedInside m lim offset

variable {m : Mem} {n attrLen lim offset idx fuel : ℕ}

/-! ## Counting -/

theorem lengthsInside_of_count {num : ℕ} {reads : List Read}
    (h : tuyaAiGetAttrNumLoop m attrLen fuel offset idx = some (num, reads))
    (hin : ∀ r ∈ reads, r.Inside lim) : LengthsInside m attrLen lim offset := by
  induction fuel generalizing offset idx num reads with
  | zero => cases h
  | succ fuel ih =>
      rw [tuyaAiGetAttrNumLoop] at h
      split_ifs at h with hlt
      · split at h
        · cases h
        · next num' reads' hloop =>
            cases h
            have hread : u32 (offset + 3) + 4 ≤ lim :=
              (hin _ List.mem_cons_self).resolve_left (Nat.succ_ne_zero 3)
            apply LengthsInside.step hlt hread
            exact ih hloop fun r hr ↦ hin r (List.mem_cons_of_mem _ hr)
      · exact .done (Nat.not_lt.mp hlt)

theorem LengthsInside.count (h : LengthsInside m attrLen lim offset) (idx : ℕ) :
    ∃ fuel num reads, tuyaAiGetAttrNumLoop m attrLen fuel offset idx = some (num, reads) ∧
      ∀ r ∈ reads, r.Inside lim := by
  induction h generalizing idx with
  | done hend => exact ⟨1, idx, [], if_neg (Nat.not_lt.mpr hend), List.forall_mem_nil _⟩
  | @step offset hlt hread _ ih =>
      obtain ⟨fuel, num, reads, hloop, hin⟩ := ih (u32 (idx + 1))
      refine ⟨fuel + 1, num, ⟨u32 (offset + 3), 4⟩ :: reads, ?_, ?_⟩
      · rw [tuyaAiGetAttrNumLoop, if_pos hlt, hloop]
      · intro r hr
        rcases List.mem_cons.mp hr with rfl | hr
        · exact .inr hread
        · exact hin r hr

theorem count_eq {num : ℕ} {reads : List Read} (hidx : idx < 2 ^ 32)
    (h : tuyaAiGetAttrNumLoop m attrLen fuel offset idx = some (num, reads)) :
    ∃ k, Leaves (· < attrLen) (nextRecord m) k offset ∧ num = u32 (idx + k) := by
  induction fuel generalizing offset idx num reads with
  | zero => cases h
  | succ fuel ih =>
      rw [tuyaAiGetAttrNumLoop] at h
      split_ifs at h with hlt
      · split at h
        · cases h
        · next num' reads' hloop =>
            cases h
            obtain ⟨k, hk, hnum⟩ := ih (Nat.mod_lt _ (by norm_num)) hloop
            refine ⟨k + 1, leaves_succ.mpr ⟨hlt, hk⟩, ?_⟩
            calc
              num = u32 (u32 (idx + 1) + k) := hnum
              _ = u32 (idx + 1 + k) := Nat.mod_add_mod _ _ _
              _ = u32 (idx + (k + 1)) := congrArg u32 (by omega)
      · cases h
        exact ⟨0, leaves_zero.mpr hlt, (u32_of_lt hidx).symm⟩

theorem count_exact {num : ℕ} {reads : List Read} (hattrLen : attrLen < 2 ^ 32)
    (h : tuyaAiGetAttrNum m attrLen fuel = some (num, reads)) :
    Leaves (· < attrLen) (nextRecord m) num 0 := by
  obtain ⟨k, hk, hnum⟩ := count_eq (by norm_num) h
  have hcard := hk.le_card (t := Finset.range attrLen) fun s hs ↦ Finset.mem_range.mpr hs
  rw [Finset.card_range] at hcard
  have hexact : num = k := by
    rw [hnum, Nat.zero_add, u32_of_lt (by omega)]
  exact hexact ▸ hk

theorem count_mono {r : ℕ × List Read}
    (h : tuyaAiGetAttrNumLoop m attrLen fuel offset idx = some r) {fuel' : ℕ}
    (hle : fuel ≤ fuel') : tuyaAiGetAttrNumLoop m attrLen fuel' offset idx = some r := by
  induction fuel generalizing fuel' offset idx r with
  | zero => cases h
  | succ fuel ih =>
      obtain _ | fuel' := fuel'
      · exact absurd hle (Nat.not_succ_le_zero _)
      rw [tuyaAiGetAttrNumLoop] at h ⊢
      split_ifs at h ⊢ with hlt
      · split at h
        · cases h
        · next num reads hloop =>
            rw [ih hloop (Nat.le_of_succ_le_succ hle)]
            exact h
      · exact h

/-! ## One record -/

theorem recordLength_lt (m : Mem) (offset : ℕ) : recordLength m offset < 2 ^ 32 := by
  have hlt := decodeBE_lt (slice m (u32 (offset + 3)) 4)
  rw [length_slice] at hlt
  exact hlt

/-- What is looked at of a record. -/
def recordReads (m : Mem) (offset : ℕ) : List Read :=
  recordHeadReads offset ++
    [⟨recordStart offset, min (recordLength m offset) (intSize (recordPt m offset))⟩]

/-- The decoded value is an integer, or points behind the head of the record. -/
def AttrRef.At (start : ℕ) (pt : UInt8) : AttrRef → Prop
  | bytes s | str s => s = start ∧ intSize pt = 0
  | _ => 0 < intSize pt

theorem recordValue_known {pt : UInt8} (h : pt ∈ knownPts) (m : Mem) (start length : ℕ) :
    ∃ ref, recordValue m pt start length = some (ref, ⟨start, min length (intSize pt)⟩) ∧
      ref.At start pt := by
  simp only [knownPts, List.mem_cons, List.not_mem_nil, or_false] at h
  rcases h with rfl | rfl | rfl | rfl | rfl | rfl
  · exact ⟨_, rfl, Nat.succ_pos 0⟩
  · exact ⟨_, rfl, Nat.succ_pos 1⟩
  · exact ⟨_, rfl, Nat.succ_pos 3⟩
  · exact ⟨_, rfl, Nat.succ_pos 7⟩
  · exact ⟨_, congrArg some (Prod.ext rfl (congrArg (Read.mk start) (Nat.min_zero _).symm)),
      rfl, rfl⟩
  · exact ⟨_, congrArg some (Prod.ext rfl (congrArg (Read.mk start) (Nat.min_zero _).symm)),
      rfl, rfl⟩

theorem recordValue_unknown {pt : UInt8} (h : pt ∉ knownPts) (m : Mem) (start length : ℕ) :
    recordValue m pt start length = none ∧ intSize pt = 0 := by
  simp only [knownPts, List.mem_cons, List.not_mem_nil, or_false, not_or] at h
  obtain ⟨h1, h2, h3, h4, h5, h6⟩ := h
  constructor
  · rw [recordValue, if_neg h1, if_neg h2, if_neg h3, if_neg h4, if_neg h5, if_neg h6]
  · rw [intSize, if_neg h1, if_neg h2, if_neg h3, if_neg h4]

theorem AcceptedRecord.value (h : AcceptedRecord m offset) :
    ∃ ref : AttrRef, tuyaAiGetAttrValue m offset =
        (recordReads m offset, .ok (recordAttr m offset ref, nextRecord m offset)) ∧
      ref.At (recordStart offset) (recordPt m offset) := by
  obtain ⟨ref, hvalue, hat⟩ := recordValue_known h.known m (recordStart offset)
    (recordLength m offset)
  have hwrap : ¬u32 (recordStart offset + recordLength m offset) < recordStart offset :=
    Nat.not_lt.mpr h.noWrap
  refine ⟨ref, ?_, hat⟩
  simp only [tuyaAiGetAttrValue, hvalue, if_neg hwrap, h.valid, if_true, recordReads]

theorem refused_value (h : ¬AcceptedRecord m offset) :
    ∃ reads, tuyaAiGetAttrValue m offset = (reads, .error oprtComError) ∧
      ∀ lim, (∀ r ∈ reads, r.Inside lim) ↔ ∀ r ∈ recordReads m offset, r.Inside lim := by
  by_cases hknown : recordPt m offset ∈ knownPts
  · obtain ⟨ref, hvalue, -⟩ := recordValue_known hknown m (recordStart offset)
      (recordLength m offset)
    refine ⟨recordReads m offset, ?_, fun lim ↦ Iff.rfl⟩
    simp only [tuyaAiGetAttrValue, hvalue]
    split_ifs with hwrap hvalid
    · rfl
    · exact (h ⟨hknown, Nat.not_lt.mp hwrap, hvalid⟩).elim
    · rfl
  · obtain ⟨hvalue, hsize⟩ := recordValue_unknown hknown m (recordStart offset)
      (recordLength m offset)
    refine ⟨recordHeadReads offset, by simp only [tuyaAiGetAttrValue, hvalue], fun lim ↦ ?_⟩
    rw [recordReads, hsize, Nat.min_zero, List.forall_mem_append]
    refine (and_iff_left ?_).symm
    intro r hr
    rw [List.mem_singleton.mp hr]
    exact .inl rfl

theorem recordReads_inside (hlim : lim < 2 ^ 32) :
    (∀ r ∈ recordReads m offset, r.Inside lim) ↔
      offset + 7 + min (recordLength m offset) (intSize (recordPt m offset)) ≤ lim := by
  simp only [recordReads, recordHeadReads, List.cons_append, List.nil_append, List.mem_cons,
    List.not_mem_nil, or_false, forall_eq_or_imp, forall_eq, Read.Inside]
  constructor
  · rintro ⟨htype, hpt, hlength, hvalue⟩
    have htype : offset + 2 ≤ lim := by omega
    have hpt : offset + 3 ≤ lim := by
      rw [u32_of_lt (by omega)] at hpt
      omega
    have hlength : offset + 7 ≤ lim := by
      rw [u32_of_lt (by omega)] at hlength
      omega
    rw [recordStart, u32_of_lt (by omega)] at hvalue
    omega
  · intro h
    rw [recordStart, u32_of_lt (by omega), u32_of_lt (by omega), u32_of_lt (by omega)]
    omega

theorem AcceptedRecord.next (h : AcceptedRecord m offset) (hoff : offset + 7 < 2 ^ 32) :
    nextRecord m offset = offset + 7 + recordLength m offset := by
  have hstart : recordStart offset = offset + 7 := u32_of_lt hoff
  have hlength := recordLength_lt m offset
  have hwrap := h.noWrap
  rw [nextRecord, hstart, u32] at hwrap ⊢
  omega

theorem AcceptedRecord.length_eq (h : AcceptedRecord m offset)
    (hint : 0 < intSize (recordPt m offset)) :
    recordLength m offset = intSize (recordPt m offset) := by
  have hvalid := h.valid
  rw [aiCheckAttrVaild] at hvalid
  rw [intSize] at hint ⊢
  split_ifs at hvalid hint ⊢ <;> first | exact of_decide_eq_true hvalid | omega

theorem recordAttr_valueInside {ref : AttrRef} (hoff : offset + 7 < 2 ^ 32)
    (hat : ref.At (recordStart offset) (recordPt m offset)) (h : AcceptedRecord m offset)
    (hreads : ∀ r ∈ recordReads m offset, r.Inside lim) (hlim : lim < 2 ^ 32) :
    (recordAttr m offset ref).ValueInside lim ↔ offset + 7 + recordLength m offset ≤ lim := by
  have hhead := (recordReads_inside hlim).mp hreads
  have hstart : recordStart offset = offset + 7 := u32_of_lt hoff
  cases ref with
  | bytes s | str s =>
      obtain ⟨rfl, -⟩ := hat
      change recordStart offset + recordLength m offset ≤ lim ↔ _
      rw [hstart]
  | _ =>
      have hlength := h.length_eq hat
      rw [hlength, Nat.min_self] at hhead
      rw [hlength]
      exact ⟨fun _ ↦ hhead, fun _ ↦ trivial⟩

/-! ## Decoding -/

theorem decodeLoop_accepted (hlt : offset < attrLen) (h : AcceptedRecord m offset) :
    ∃ ref : AttrRef, ref.At (recordStart offset) (recordPt m offset) ∧
      decodeLoop m attrLen (fuel + 1) offset =
        (decodeLoop m attrLen fuel (nextRecord m offset)).map
          (DecodeRun.behind (recordReads m offset) (recordAttr m offset ref)) := by
  obtain ⟨ref, hvalue, hat⟩ := h.value
  refine ⟨ref, hat, ?_⟩
  rw [decodeLoop, if_pos hlt, hvalue]
  cases hloop : decodeLoop m attrLen fuel (nextRecord m offset) <;> simp only [hloop] <;> rfl

theorem decodeLoop_refused (hlt : offset < attrLen) (h : ¬AcceptedRecord m offset) :
    ∃ reads, (∀ lim, (∀ r ∈ reads, r.Inside lim) ↔ ∀ r ∈ recordReads m offset, r.Inside lim) ∧
      ∀ fuel, decodeLoop m attrLen (fuel + 1) offset = some ⟨reads, 1, .error oprtComError⟩ := by
  obtain ⟨reads, hvalue, hin⟩ := refused_value h
  refine ⟨reads, hin, fun fuel ↦ ?_⟩
  rw [decodeLoop, if_pos hlt, hvalue]

theorem decodeLoop_end (hend : attrLen ≤ offset) :
    decodeLoop m attrLen (fuel + 1) offset = some ⟨[], 0, .ok []⟩ := by
  rw [decodeLoop, if_neg (Nat.not_lt.mpr hend)]

theorem decodeLoop_filled_le {d : DecodeRun} {k : ℕ}
    (h : decodeLoop m attrLen fuel offset = some d)
    (hk : Leaves (· < attrLen) (nextRecord m) k offset) : d.filled ≤ k := by
  induction fuel generalizing offset d k with
  | zero => cases h
  | succ fuel ih =>
      by_cases hlt : offset < attrLen
      · obtain _ | k := k
        · exact (leaves_zero.mp hk hlt).elim
        by_cases hacc : AcceptedRecord m offset
        · obtain ⟨ref, -, hloop⟩ := @decodeLoop_accepted m attrLen offset fuel hlt hacc
          obtain ⟨d', hd', rfl⟩ := Option.map_eq_some_iff.mp (hloop ▸ h)
          exact Nat.succ_le_succ (ih hd' (leaves_succ.mp hk).2)
        · obtain ⟨reads, -, hloop⟩ := decodeLoop_refused hlt hacc
          cases (hloop fuel).symm.trans h
          exact Nat.succ_pos k
      · rw [decodeLoop_end (Nat.not_lt.mp hlt)] at h
        cases h
        exact Nat.zero_le k

theorem DecodeRun.behind_ok {reads : List Read} {a : ParsedAttr} {d : DecodeRun}
    {attrs : List ParsedAttr} (h : (d.behind reads a).result = .ok attrs) :
    ∃ rest, d.result = .ok rest ∧ attrs = a :: rest := by
  rw [DecodeRun.behind] at h
  cases hd : d.result with
  | error e => simp [hd] at h
  | ok rest =>
      simp only [hd] at h
      exact ⟨rest, rfl, (Except.ok.inj h).symm⟩

theorem DecodeRun.bounded_behind {reads : List Read} {a : ParsedAttr} {d : DecodeRun} :
    (d.behind reads a).Bounded lim ↔ (∀ r ∈ reads, r.Inside lim) ∧ d.Bounded lim ∧
      ∀ rest, d.result = .ok rest → a.ValueInside lim := by
  constructor
  · rintro ⟨hreads, hvalues⟩
    obtain ⟨hhead, htail⟩ := List.forall_mem_append.mp hreads
    have hok : ∀ rest, d.result = .ok rest → ∀ b ∈ a :: rest, b.ValueInside lim := by
      intro rest hrest
      apply hvalues
      rw [DecodeRun.behind, hrest]
    refine ⟨hhead, ⟨htail, fun rest hrest b hb ↦ ?_⟩, fun rest hrest ↦ ?_⟩
    · exact hok rest hrest b (List.mem_cons_of_mem a hb)
    · exact hok rest hrest a List.mem_cons_self
  · rintro ⟨hhead, hd, ha⟩
    refine ⟨List.forall_mem_append.mpr ⟨hhead, hd.reads⟩, fun attrs hattrs ↦ ?_⟩
    obtain ⟨rest, hrest, rfl⟩ := DecodeRun.behind_ok hattrs
    exact List.forall_mem_cons.mpr ⟨ha rest hrest, hd.values rest hrest⟩

theorem refusedInside_of_decode {d : DecodeRun} {e : OperateRet} (hlim : lim < 2 ^ 32)
    (h : decodeLoop m attrLen fuel offset = some d) (hresult : d.result = .error e)
    (hb : d.Bounded lim) : RefusedInside m lim offset := by
  induction fuel generalizing offset d with
  | zero => cases h
  | succ fuel ih =>
      by_cases hlt : offset < attrLen
      · by_cases hacc : AcceptedRecord m offset
        · obtain ⟨ref, -, hloop⟩ := @decodeLoop_accepted m attrLen offset fuel hlt hacc
          obtain ⟨d', hd', rfl⟩ := Option.map_eq_some_iff.mp (hloop ▸ h)
          obtain ⟨hreads, hb', -⟩ := DecodeRun.bounded_behind.mp hb
          have hhead := (recordReads_inside hlim).mp hreads
          have herror : d'.result = .error e := by
            cases hr : d'.result with
            | error e' => simpa [DecodeRun.behind, hr] using hresult
            | ok rest => simp [DecodeRun.behind, hr] at hresult
          apply RefusedInside.step hacc (by omega)
          exact ih hd' herror hb'
        · obtain ⟨reads, hin, hloop⟩ := decodeLoop_refused hlt hacc
          cases (hloop fuel).symm.trans h
          apply RefusedInside.here hacc
          exact (recordReads_inside hlim).mp ((hin lim).mp hb.reads)
      · rw [decodeLoop_end (Nat.not_lt.mp hlt)] at h
        cases h
        cases hresult

theorem tiled_of_decode {d : DecodeRun} {attrs : List ParsedAttr} (hlim : lim < 2 ^ 32)
    (hle : lim ≤ attrLen) (hoff : offset ≤ lim)
    (h : decodeLoop m attrLen fuel offset = some d) (hresult : d.result = .ok attrs)
    (hb : d.Bounded lim) : attrLen ≤ lim ∧ Tiled m attrLen offset := by
  induction fuel generalizing offset d attrs with
  | zero => cases h
  | succ fuel ih =>
      by_cases hlt : offset < attrLen
      · by_cases hacc : AcceptedRecord m offset
        · obtain ⟨ref, hat, hloop⟩ := @decodeLoop_accepted m attrLen offset fuel hlt hacc
          obtain ⟨d', hd', rfl⟩ := Option.map_eq_some_iff.mp (hloop ▸ h)
          obtain ⟨rest, hrest, -⟩ := DecodeRun.behind_ok hresult
          obtain ⟨hreads, hb', hvalue⟩ := DecodeRun.bounded_behind.mp hb
          have hhead := (recordReads_inside hlim).mp hreads
          have hfit : offset + 7 < 2 ^ 32 := by omega
          have hend := (recordAttr_valueInside hfit hat hacc hreads hlim).mp (hvalue rest hrest)
          rw [← hacc.next hfit] at hend
          obtain ⟨hall, htail⟩ := ih hend hd' hrest hb'
          rw [hacc.next hfit] at htail
          exact ⟨hall, .step hacc htail⟩
        · obtain ⟨reads, -, hloop⟩ := decodeLoop_refused hlt hacc
          cases (hloop fuel).symm.trans h
          cases hresult
      · have hend : offset = attrLen := by omega
        subst hend
        exact ⟨hoff, .done⟩

theorem Tiled.le (h : Tiled m attrLen offset) : offset ≤ attrLen := by
  induction h with
  | done => exact le_rfl
  | step _ _ ih => omega

theorem RefusedInside.le (h : RefusedInside m lim offset) : offset + 7 ≤ lim := by
  cases h with
  | here _ hle => omega
  | step _ hle _ => exact hle

theorem Tiled.decode (h : Tiled m attrLen offset) (hattrLen : attrLen < 2 ^ 32) :
    ∃ fuel d, decodeLoop m attrLen fuel offset = some d ∧ (∃ attrs, d.result = .ok attrs) ∧
      d.Bounded attrLen := by
  induction h with
  | done =>
      refine ⟨1, _, decodeLoop_end le_rfl, ⟨[], rfl⟩, List.forall_mem_nil _, fun attrs h ↦ ?_⟩
      cases h
      exact List.forall_mem_nil _
  | @step offset hacc htail ih =>
      obtain ⟨fuel, d, hd, ⟨attrs, hattrs⟩, hb⟩ := ih
      have hle := htail.le
      have hlt : offset < attrLen := by omega
      have hfit : offset + 7 < 2 ^ 32 := by omega
      have hreads : ∀ r ∈ recordReads m offset, r.Inside attrLen :=
        (recordReads_inside hattrLen).mpr (by omega)
      obtain ⟨ref, hat, hloop⟩ := @decodeLoop_accepted m attrLen offset fuel hlt hacc
      rw [hacc.next hfit, hd, Option.map_some] at hloop
      refine ⟨fuel + 1, _, hloop, ⟨recordAttr m offset ref :: attrs, ?_⟩, ?_⟩
      · rw [DecodeRun.behind, hattrs]
      · apply DecodeRun.bounded_behind.mpr
        exact ⟨hreads, hb, fun _ _ ↦ (recordAttr_valueInside hfit hat hacc hreads hattrLen).mpr hle⟩

theorem RefusedInside.decode (h : RefusedInside m lim offset) (hlim : lim < 2 ^ 32)
    (hle : lim ≤ attrLen) :
    ∃ fuel d, decodeLoop m attrLen fuel offset = some d ∧ d.result = .error oprtComError ∧
      d.Bounded lim := by
  induction h with
  | @here offset hacc hin =>
      have hlt : offset < attrLen := by omega
      obtain ⟨reads, hreads, hloop⟩ := decodeLoop_refused hlt hacc
      refine ⟨1, _, hloop 0, rfl, ?_, fun attrs h ↦ by cases h⟩
      exact (hreads lim).mpr ((recordReads_inside hlim).mpr hin)
  | @step offset hacc hin htail ih =>
      obtain ⟨fuel, d, hd, herror, hb⟩ := ih
      have hnext := htail.le
      have hlt : offset < attrLen := by omega
      obtain ⟨ref, -, hloop⟩ := @decodeLoop_accepted m attrLen offset fuel hlt hacc
      rw [hd, Option.map_some] at hloop
      refine ⟨fuel + 1, _, hloop, ?_, ?_⟩
      · rw [DecodeRun.behind, herror]
      · rw [hacc.next (by omega)] at hnext
        apply DecodeRun.bounded_behind.mpr
        refine ⟨(recordReads_inside hlim).mpr (by omega), hb, fun rest hrest ↦ ?_⟩
        rw [herror] at hrest
        cases hrest

theorem decode_bounded_iff (hlim : lim < 2 ^ 32) (hle : lim ≤ attrLen) :
    (∃ fuel d, decodeLoop m attrLen fuel 0 = some d ∧ d.Bounded lim) ↔
      (attrLen ≤ lim ∧ Tiled m attrLen 0) ∨ RefusedInside m lim 0 := by
  constructor
  · rintro ⟨fuel, d, hd, hb⟩
    cases hresult : d.result with
    | error e => exact .inr (refusedInside_of_decode hlim hd hresult hb)
    | ok attrs => exact .inl (tiled_of_decode hlim hle (Nat.zero_le lim) hd hresult hb)
  · rintro (⟨hall, htiled⟩ | hrefused)
    · obtain rfl : lim = attrLen := Nat.le_antisymm hle hall
      obtain ⟨fuel, d, hd, -, hb⟩ := htiled.decode hlim
      exact ⟨fuel, d, hd, hb⟩
    · obtain ⟨fuel, d, hd, -, hb⟩ := hrefused.decode hlim hle
      exact ⟨fuel, d, hd, hb⟩

theorem decode_mono {d : DecodeRun} (h : decodeLoop m attrLen fuel offset = some d) {fuel' : ℕ}
    (hle : fuel ≤ fuel') : decodeLoop m attrLen fuel' offset = some d := by
  induction fuel generalizing fuel' offset d with
  | zero => cases h
  | succ fuel ih =>
      obtain _ | fuel' := fuel'
      · exact absurd hle (Nat.not_succ_le_zero _)
      rw [decodeLoop] at h ⊢
      split_ifs at h ⊢ with hlt
      · split at h
        · exact h
        · split at h
          · cases h
          · next hloop =>
              rw [ih hloop (Nat.le_of_succ_le_succ hle)]
              exact h
      · exact h

/-! ## Both passes -/

theorem parse_bounded_iff {mem : Bool} (hattrLen : attrLen < 2 ^ 32)
    (hlengths : LengthsInside m attrLen lim 0) :
    (∃ fuel run, tuyaParseUserAttrs m attrLen mem fuel = some run ∧ run.Bounded lim) ↔
      (mem = true → ∃ fuel d, decodeLoop m attrLen fuel 0 = some d ∧ d.Bounded lim) := by
  obtain ⟨fuel₁, num, reads, hcount, hreads⟩ := hlengths.count 0
  have hnum : tuyaAiGetAttrNum m attrLen fuel₁ = some (num, reads) := hcount
  constructor
  · rintro ⟨fuel, run, hrun, hb⟩ rfl
    rw [tuyaParseUserAttrs] at hrun
    split at hrun
    · cases hrun
    · rw [if_neg Bool.true_eq_false_eq_False] at hrun
      split at hrun
      · cases hrun
      · next d hd =>
          cases hrun
          exact ⟨fuel, d, hd, (List.forall_mem_append.mp hb.reads).2, hb.values⟩
  · intro h
    cases mem with
    | false =>
        refine ⟨fuel₁, ⟨num, reads, 0, .error oprtMallocFailed⟩, ?_, hreads, Nat.zero_le num,
          fun attrs h ↦ by cases h⟩
        simp only [tuyaParseUserAttrs, hnum, if_true]
    | true =>
        obtain ⟨fuel₂, d, hd, hb⟩ := h rfl
        have hnum' : tuyaAiGetAttrNum m attrLen (max fuel₁ fuel₂) = some (num, reads) :=
          count_mono hcount (Nat.le_max_left _ _)
        have hd' := decode_mono hd (Nat.le_max_right fuel₁ fuel₂)
        refine ⟨max fuel₁ fuel₂, ⟨num, reads ++ d.reads, d.filled, d.result⟩, ?_,
          List.forall_mem_append.mpr ⟨hreads, hb.reads⟩, ?_, hb.values⟩
        · simp only [tuyaParseUserAttrs, hnum', hd', Bool.true_eq_false, if_false]
        · exact decodeLoop_filled_le hd' (count_exact hattrLen hnum')

/-- The parser stays inside exactly when the lengths of the records do and lead to the end,
and the second pass finds the bytes of the attributes complete and well formed, or meets a
record that it refuses before it comes to anything outside. -/
theorem attrs_bounded_iff (m : Mem) (n attrLen : ℕ) (mem : Bool) (hattrLen : attrLen < 2 ^ 32) :
    AttrsBounded m n attrLen mem ↔
      LengthsInside m attrLen (min attrLen n) 0 ∧
        (mem = true → (attrLen ≤ n ∧ Tiled m attrLen 0) ∨
          RefusedInside m (min attrLen n) 0) := by
  have hle : min attrLen n ≤ attrLen := Nat.min_le_left _ _
  have hall : attrLen ≤ min attrLen n ↔ attrLen ≤ n := by omega
  rw [← hall, ← decode_bounded_iff (Nat.lt_of_le_of_lt hle hattrLen) hle]
  constructor
  · rintro ⟨⟨fuel, num, reads, hcount, hreads⟩, hparse⟩
    have hlengths := lengthsInside_of_count hcount hreads
    exact ⟨hlengths, (parse_bounded_iff hattrLen hlengths).mp hparse⟩
  · rintro ⟨hlengths, hdecode⟩
    exact ⟨hlengths.count 0, (parse_bounded_iff hattrLen hlengths).mpr hdecode⟩

/-- One text of two bytes. -/
theorem attrs_bounded_iff_nine :
    AttrsBounded (ofList [0, 7, 6, 0, 0, 0, 2, 0x61, 0x62]) 9 9 true ↔
      LengthsInside (ofList [0, 7, 6, 0, 0, 0, 2, 0x61, 0x62]) 9 (min 9 9) 0 ∧
        (true = true → (9 ≤ 9 ∧ Tiled (ofList [0, 7, 6, 0, 0, 0, 2, 0x61, 0x62]) 9 0) ∨
          RefusedInside (ofList [0, 7, 6, 0, 0, 0, 2, 0x61, 0x62]) (min 9 9) 0) :=
  attrs_bounded_iff _ 9 9 true (by decide)

/-! ## The caller -/

/-- A call of `tuya_parse_user_attrs`: the memory from its address on, how much of it
belongs to the payload, and the length it is given. -/
structure AttrCall where
  mem : Mem
  inside : ℕ
  attrLen : ℕ

/-- The call that `tuya_ai_auth_resp` makes for a payload of `deLen` bytes at the start
of the memory. -/
def tuyaAiAuthRespCall (m : Mem) (deLen : ℕ) : Option AttrCall :=
  if m 0 % 2 ≠ 1 then none
  else if m 0 / 2 = aiPtAuthResp ∨ m 0 / 2 = aiPtConnClose then
    some ⟨fun x ↦ m (5 + x), deLen - 5, decodeBE (slice m 1 4)⟩
  else none

theorem count_none (hlt : offset < attrLen) (hback : nextRecord m offset = offset) :
    tuyaAiGetAttrNumLoop m attrLen fuel offset idx = none := by
  induction fuel generalizing idx with
  | zero => rfl
  | succ fuel ih => rw [tuyaAiGetAttrNumLoop, if_pos hlt, hback, ih]

/-- A payload with all its bytes, on which the parser does not end. -/
theorem auth_resp_endless :
    ∃ payload call, tuyaAiAuthRespCall (ofList payload) payload.length = some call ∧
      call.attrLen ≤ call.inside ∧
      ∀ mem, ¬AttrsBounded call.mem call.inside call.attrLen mem := by
  refine ⟨[7, 0, 0, 0, 7, 0, 24, 2, 0xff, 0xff, 0xff, 0xf9], _, rfl, by decide, fun mem h ↦ ?_⟩
  obtain ⟨fuel, num, reads, hcount, -⟩ := h.count
  rw [tuyaAiGetAttrNum, count_none (by decide) (by decide)] at hcount
  cases hcount

end TuyaOpen.Ai
