import TuyaOpen.Lib.JsonText

/-!
# Splitting a schema into its elements, `dp_schema.c`

`dp_node_pos_decode` counts braces and knows nothing of strings, the positions
have 16 bits, and `dp_node_parse` copies an element into a buffer of fixed size
without a look at its length.
-/

namespace TuyaOpen.Schema

open JsonText

def maxItemLen : ℕ := 1024

/-- The field `end` is `stop` here. -/
structure DpNodePos where
  start : ℕ
  stop : ℕ
  deriving DecidableEq

/-- The statics of the loop: `pos` are the complete entries, `start` is what
`pos[n].start` holds once it is written. -/
structure PosScan where
  brace : ℤ
  start : ℕ
  pos : List DpNodePos
  deriving DecidableEq

def posChar (i : ℕ) (s : PosScan) (c : UInt8) : PosScan :=
  if c = lbrace then
    { s with
      brace := s.brace + 1
      start := if s.brace = 0 then i % 2 ^ 16 else s.start }
  else if c = rbrace then
    { s with
      brace := s.brace - 1
      pos := if s.brace - 1 = 0 then s.pos ++ [⟨s.start, i % 2 ^ 16⟩] else s.pos }
  else s

/-- The index where the loop ends, with the state there. -/
def posLoop (posNum : ℕ) : List UInt8 → ℕ → PosScan → ℕ × PosScan
  | [], i, s => (i, s)
  | c :: schemaJson, i, s =>
    if c = 0 then (i, s)
    else
      let s := posChar i s c
      if c = rbrace ∧ posNum ≤ s.pos.length then (i, s)
      else posLoop posNum schemaJson (i + 1) s

/-- The entries that were written, as many as the result says.  The index is an
`int`, and `none` is its overflow. -/
def dpNodePosDecode (schemaJson : Option (List UInt8)) (posNum : ℕ) : Option (List DpNodePos) :=
  match schemaJson with
  | none => some []
  | some schemaJson =>
    let r := posLoop posNum schemaJson 0 ⟨0, 0, []⟩
    if 2 ^ 31 ≤ r.1 then none else some r.2.pos

/-- The copy of an element; `none` is a copy that leaves the text or the buffer,
or leaves no zero behind it. -/
def nodeCopy (schemaJson : List UInt8) (pos : DpNodePos) : Option (List UInt8) :=
  let len : ℤ := (pos.stop : ℤ) - pos.start + 1
  if len < 0 ∨ maxItemLen ≤ len ∨ (schemaJson.length : ℤ) + 1 < pos.start + len then none
  else some ((schemaJson.drop pos.start).take len.toNat)

/-- The elements that `dp_node_parse` copies.  `goesOn` says for a position and
an element whether its fields are found, as the loop ends with the first element
where they are not. -/
def dpNodeParse (schemaJson : List UInt8) (goesOn : ℕ → List UInt8 → Bool) :
    ℕ → List DpNodePos → Option (List (List UInt8))
  | _, [] => some []
  | i, pos :: nodepos =>
    match nodeCopy schemaJson pos with
    | none => none
    | some item =>
      if goesOn i item then
        (dpNodeParse schemaJson goesOn (i + 1) nodepos).map fun items ↦ item :: items
      else some [item]

/-! ## What the split is to be -/

/-- Where the objects begin and end when the first gap begins at `off`. -/
@[grind =] def delimiters (off : ℕ) : List (List UInt8 × List UInt8) → List DpNodePos
  | [] => []
  | it :: items =>
    ⟨off + it.1.length, off + it.1.length + it.2.length - 1⟩ ::
      delimiters (off + it.1.length + it.2.length) items

/-- The entries are the objects of the array, and whatever element is copied
fits the buffer with its terminator. -/
structure SplitsExactly (goesOn : ℕ → List UInt8 → Bool)
    (items : List (List UInt8 × List UInt8)) (tail : List UInt8) : Prop where
  decode : dpNodePosDecode (some (arrayText items tail)) 255 = some (delimiters 0 items)
  parse : (dpNodeParse (arrayText items tail) goesOn 0 (delimiters 0 items)).isSome

/-- The objects fit the buffer, as far as they are reached. -/
def ReachedFit (goesOn : ℕ → List UInt8 → Bool) : ℕ → List (List UInt8 × List UInt8) → Prop
  | _, [] => True
  | i, it :: items =>
    it.2.length < maxItemLen ∧ (goesOn i it.2 = true → ReachedFit goesOn (i + 1) items)

structure Splittable (goesOn : ℕ → List UInt8 → Bool)
    (items : List (List UInt8 × List UInt8)) (tail : List UInt8) : Prop where
  text_lt : (arrayText items tail).length < 2 ^ 31
  objects_le : (elementsText items).length ≤ 2 ^ 16
  closes : ∀ it ∈ items, ClosesAtEnd it.2
  fit : ReachedFit goesOn 0 items

/-! ## The run over a text -/

/-- The loop without its end. -/
@[grind =] def posRun : List UInt8 → ℕ → PosScan → PosScan
  | [], _, s => s
  | c :: w, i, s => posRun w (i + 1) (posChar i s c)

variable {w : List UInt8} {i : ℕ} {s : PosScan}

theorem posChar_lbrace (i : ℕ) (s : PosScan) : posChar i s lbrace =
    { s with
      brace := s.brace + 1
      start := if s.brace = 0 then i % 2 ^ 16 else s.start } := if_pos rfl

theorem posChar_rbrace (i : ℕ) (s : PosScan) : posChar i s rbrace =
    { s with
      brace := s.brace - 1
      pos := if s.brace - 1 = 0 then s.pos ++ [⟨s.start, i % 2 ^ 16⟩] else s.pos } := by
  rw [posChar, if_neg (by decide), if_pos rfl]

theorem posChar_other {c : UInt8} (hl : c ≠ lbrace) (hr : c ≠ rbrace) (i : ℕ) (s : PosScan) :
    posChar i s c = s := by
  rw [posChar, if_neg hl, if_neg hr]

theorem posRun_append (u v : List UInt8) (i : ℕ) (s : PosScan) :
    posRun (u ++ v) i s = posRun v (i + u.length) (posRun u i s) := by
  induction u generalizing i s with
  | nil => rfl
  | cons c u ih =>
      rw [List.cons_append, posRun, posRun, ih, List.length_cons]
      congr 1
      omega

theorem posRun_braceless (h : Braceless w) (i : ℕ) (s : PosScan) : posRun w i s = s := by
  induction w generalizing i with
  | nil => rfl
  | cons c w ih =>
      obtain ⟨hl, hr⟩ := h
      rw [List.mem_cons, not_or] at hl hr
      rw [posRun, posChar_other (Ne.symm hl.1) (Ne.symm hr.1)]
      exact ih ⟨hl.2, hr.2⟩ (i + 1)

theorem posRun_above (h : Above s.brace w) (i : ℕ) :
    posRun w i s = { s with brace := s.brace + depth w } := by
  induction w generalizing i s with
  | nil => simp [posRun]
  | cons c w ih =>
      obtain ⟨hpos, habove⟩ := above_cons_iff.mp h
      have hchar : posChar i s c = { s with brace := s.brace + depth [c] } := by
        by_cases hl : c = lbrace
        · rw [hl, posChar_lbrace, depth_lbrace, if_neg hpos.ne']
        · by_cases hr : c = rbrace
          · have hopen := habove.pos
            rw [hr, depth_rbrace] at hopen
            rw [hr, posChar_rbrace, depth_rbrace, if_neg (by omega)]
            rfl
          · rw [posChar_other hl hr, depth_singleton hl hr, add_zero]
      rw [posRun, hchar, ih habove (i + 1), depth_cons c w]
      simp only [add_assoc]

theorem posRun_added (w : List UInt8) (i : ℕ) (s : PosScan) :
    ∃ added, (posRun w i s).pos = s.pos ++ added ∧
      ∀ p ∈ added, ∃ j, i ≤ j ∧ j < i + w.length ∧ p.stop = j % 2 ^ 16 := by
  induction w generalizing i s with
  | nil => exact ⟨[], by simp [posRun], by simp⟩
  | cons c w ih =>
      obtain ⟨added, hpos, hadded⟩ := ih (i + 1) (posChar i s c)
      have hlater : ∀ p ∈ added, ∃ j, i ≤ j ∧ j < i + (c :: w).length ∧ p.stop = j % 2 ^ 16 := by
        intro p hp
        obtain ⟨j, hle, hlt, hstop⟩ := hadded p hp
        rw [List.length_cons]
        exact ⟨j, by omega, by omega, hstop⟩
      rw [posRun, hpos]
      by_cases hclose : c = rbrace ∧ s.brace - 1 = 0
      · refine ⟨⟨s.start, i % 2 ^ 16⟩ :: added, ?_, ?_⟩
        · rw [hclose.1, posChar_rbrace, if_pos hclose.2, List.append_assoc, List.singleton_append]
        · intro p hp
          rcases List.mem_cons.mp hp with rfl | hp
          · exact ⟨i, le_rfl, by rw [List.length_cons]; omega, rfl⟩
          · exact hlater p hp
      · refine ⟨added, ?_, hlater⟩
        have hkeep : (posChar i s c).pos = s.pos := by
          by_cases hl : c = lbrace
          · rw [hl, posChar_lbrace]
          · by_cases hr : c = rbrace
            · rw [hr, posChar_rbrace, if_neg fun hz ↦ hclose ⟨hr, hz⟩]
            · rw [posChar_other hl hr]
        rw [hkeep]

/-- The loop runs to the end of the text, or ends with as many entries as there
is room for. -/
theorem posLoop_or (hzero : 0 ∉ w) {posNum : ℕ} (hroom : s.pos.length < posNum) :
    posLoop posNum w i s = (i + w.length, posRun w i s) ∨
      posNum ≤ (posLoop posNum w i s).2.pos.length ∧ posNum ≤ (posRun w i s).pos.length := by
  induction w generalizing i s with
  | nil => exact .inl rfl
  | cons c w ih =>
      rw [List.mem_cons, not_or] at hzero
      by_cases hfull : c = rbrace ∧ posNum ≤ (posChar i s c).pos.length
      · right
        obtain ⟨added, hpos, -⟩ := posRun_added w (i + 1) (posChar i s c)
        simp only [posLoop, if_neg (Ne.symm hzero.1), if_pos hfull]
        refine ⟨hfull.2, ?_⟩
        rw [posRun, hpos, List.length_append]
        exact hfull.2.trans (Nat.le_add_right _ _)
      · have hroom' : (posChar i s c).pos.length < posNum := by
          by_cases hr : c = rbrace
          · exact Nat.lt_of_not_le fun h ↦ hfull ⟨hr, h⟩
          · by_cases hl : c = lbrace
            · rw [hl, posChar_lbrace]
              exact hroom
            · rw [posChar_other hl hr]
              exact hroom
        simp only [posLoop, if_neg (Ne.symm hzero.1), if_neg hfull]
        rcases @ih (i + 1) (posChar i s c) hzero.2 hroom' with hrun | hfull
        · left
          rw [hrun, posRun, List.length_cons]
          congr 1
          omega
        · right
          rw [posRun]
          exact hfull

/-! ## Objects that close at their end -/

variable {items : List (List UInt8 × List UInt8)} {tail : List UInt8}

theorem posRun_object {obj : List UInt8} (hclose : ClosesAtEnd (lbrace :: obj)) (i start : ℕ)
    (pos : List DpNodePos) :
    posRun (lbrace :: obj) i ⟨0, start, pos⟩ =
      ⟨0, i % 2 ^ 16, pos ++ [⟨i % 2 ^ 16, (i + (lbrace :: obj).length - 1) % 2 ^ 16⟩]⟩ := by
  obtain ⟨u, rfl, habove, hdepth⟩ := closesAtEnd_iff.mp hclose
  have hlen : i + (lbrace :: (u ++ [rbrace])).length - 1 = i + 1 + u.length := by
    rw [List.length_cons, List.length_append, List.length_singleton]
    omega
  have hopen := posRun_above (s := ⟨1, i % 2 ^ 16, pos⟩) habove (i + 1)
  rw [posRun, posChar_lbrace, posRun_append, hlen]
  simp only [if_true, zero_add]
  rw [hopen, posRun, posRun, posChar_rbrace]
  simp only [hdepth, add_zero, sub_self, if_true]

theorem posRun_item {it : List UInt8 × List UInt8} (hgap : Braceless it.1)
    (hshape : ∃ w, it.2 = lbrace :: w) (hclose : ClosesAtEnd it.2) (i start : ℕ)
    (pos : List DpNodePos) :
    ∃ start', posRun (it.1 ++ it.2) i ⟨0, start, pos⟩ =
      ⟨0, start', pos ++ [⟨(i + it.1.length) % 2 ^ 16,
        (i + it.1.length + it.2.length - 1) % 2 ^ 16⟩]⟩ := by
  obtain ⟨w, hw⟩ := hshape
  rw [hw] at hclose ⊢
  refine ⟨(i + it.1.length) % 2 ^ 16, ?_⟩
  rw [posRun_append, posRun_braceless hgap, posRun_object hclose]

theorem delimiters_lt (hshape : ∀ it ∈ items, ∃ w, it.2 = lbrace :: w) (off : ℕ) :
    ∀ p ∈ delimiters off items, p.start ≤ p.stop ∧ p.stop < off + (elementsText items).length := by
  induction items generalizing off with
  | nil => simp [delimiters]
  | cons it items ih =>
      obtain ⟨w, hw⟩ := hshape it List.mem_cons_self
      have hlen : it.2.length = w.length + 1 := by rw [hw, List.length_cons]
      intro p hp
      rw [elementsText_cons, List.length_append, List.length_append]
      rcases List.mem_cons.mp hp with rfl | hp
      · simp only
        omega
      · have := ih (fun it' h ↦ hshape it' (List.mem_cons_of_mem it h)) _ p hp
        omega

theorem posRun_elements (hgap : ∀ it ∈ items, Braceless it.1)
    (hshape : ∀ it ∈ items, ∃ w, it.2 = lbrace :: w) (hclose : ∀ it ∈ items, ClosesAtEnd it.2)
    (off start : ℕ) (pos : List DpNodePos) :
    ∃ start', posRun (elementsText items) off ⟨0, start, pos⟩ =
      ⟨0, start', pos ++ (delimiters off items).map fun p ↦
        ⟨p.start % 2 ^ 16, p.stop % 2 ^ 16⟩⟩ := by
  induction items generalizing off start pos with
  | nil => exact ⟨start, by simp [posRun, delimiters]⟩
  | cons it items ih =>
      rw [List.forall_mem_cons] at hgap hshape hclose
      obtain ⟨start₁, hitem⟩ := posRun_item hgap.1 hshape.1 hclose.1 off start pos
      obtain ⟨start₂, hrest⟩ := ih hgap.2 hshape.2 hclose.2 (off + (it.1 ++ it.2).length) start₁
        (pos ++ [⟨(off + it.1.length) % 2 ^ 16, (off + it.1.length + it.2.length - 1) % 2 ^ 16⟩])
      refine ⟨start₂, ?_⟩
      rw [elementsText_cons, posRun_append, hitem, hrest, List.length_append, delimiters,
        List.map_cons, List.append_assoc, List.singleton_append, Nat.add_assoc off]

theorem posRun_array (h : ObjectArray items tail) (hclose : ∀ it ∈ items, ClosesAtEnd it.2)
    (hnear : (elementsText items).length ≤ 2 ^ 16) :
    (posRun (arrayText items tail) 0 ⟨0, 0, []⟩).pos = delimiters 0 items := by
  obtain ⟨start, hrun⟩ := posRun_elements h.gap_braceless h.shape hclose 0 0 []
  rw [arrayText, posRun_append, hrun, posRun_braceless h.tail_braceless]
  simp only [List.nil_append]
  apply List.map_congr_left (g := id) ?_ |>.trans (List.map_id _)
  intro p hp
  have hlt := delimiters_lt h.shape 0 p hp
  rw [Nat.mod_eq_of_lt (by omega), Nat.mod_eq_of_lt (by omega)]
  rfl

/-! ## Entries that are right -/

/-- An entry that is written before its object ends has too small an end, and one
that is not written inside its object has too large an end. -/
theorem return_of_run {rest : List UInt8} {k start : ℕ} {pos : List DpNodePos} {d : DpNodePos}
    {ds : List DpNodePos} (hk : 0 < k) (hnear : k + w.length + rest.length ≤ 2 ^ 16)
    (hstop : d.stop = k + w.length - 1)
    (hrun : (posRun rest (k + w.length) (posRun w k ⟨1, start, pos⟩)).pos = pos ++ d :: ds) :
    ClosesAtEnd (lbrace :: w) := by
  rw [closesAtEnd_iff]
  rcases above_or_return one_pos w with habove | ⟨u, v, rfl, hu, hreturn⟩
  · have hopen := posRun_above (s := ⟨1, start, pos⟩) habove k
    obtain ⟨added, hpos, hadded⟩ := posRun_added rest (k + w.length) (posRun w k ⟨1, start, pos⟩)
    rw [hpos, hopen] at hrun
    obtain rfl : added = d :: ds := List.append_cancel_left hrun
    obtain ⟨j, hle, hlt, hj⟩ := hadded d List.mem_cons_self
    rw [Nat.mod_eq_of_lt (by omega)] at hj
    omega
  · have hopen := posRun_above (s := ⟨1, start, pos⟩) hu k
    have hclosed : posRun (u ++ rbrace :: v) k ⟨1, start, pos⟩ =
        posRun v (k + u.length + 1) ⟨0, start, pos ++ [⟨start, (k + u.length) % 2 ^ 16⟩]⟩ := by
      rw [posRun_append, hopen, posRun, posChar_rbrace]
      simp only [hreturn, sub_self, if_true]
    obtain ⟨added, hpos, -⟩ := posRun_added (v ++ rest) (k + u.length + 1)
      ⟨0, start, pos ++ [⟨start, (k + u.length) % 2 ^ 16⟩]⟩
    have hlen : k + (u ++ rbrace :: v).length = k + u.length + 1 + v.length := by
      rw [List.length_append, List.length_cons]
      omega
    rw [hlen] at hnear hstop hrun
    rw [hclosed, ← posRun_append, hpos, List.append_assoc] at hrun
    obtain ⟨rfl, -⟩ := List.cons_eq_cons.mp (List.append_cancel_left hrun)
    simp only at hstop
    rw [Nat.mod_eq_of_lt (by omega)] at hstop
    obtain rfl : v = [] := List.eq_nil_of_length_eq_zero (by omega)
    exact ⟨u, rfl, hu, by omega⟩

theorem closes_of_run (hgap : ∀ it ∈ items, Braceless it.1)
    (hshape : ∀ it ∈ items, ∃ w, it.2 = lbrace :: w) {off start : ℕ} {pos : List DpNodePos}
    (hnear : off + (elementsText items).length ≤ 2 ^ 16)
    (hrun : (posRun (elementsText items) off ⟨0, start, pos⟩).pos = pos ++ delimiters off items) :
    ∀ it ∈ items, ClosesAtEnd it.2 := by
  induction items generalizing off start pos with
  | nil => simp
  | cons it items ih =>
      rw [List.forall_mem_cons] at hgap hshape
      rw [elementsText_cons, List.length_append, List.length_append] at hnear
      rw [elementsText_cons, posRun_append, List.length_append, ← Nat.add_assoc] at hrun
      have hfirst : ClosesAtEnd it.2 := by
        obtain ⟨w, hw⟩ := hshape.1
        have hlen : it.2.length = w.length + 1 := by rw [hw, List.length_cons]
        have hoff : off + it.1.length + it.2.length = off + it.1.length + 1 + w.length := by omega
        rw [posRun_append, posRun_braceless hgap.1, hw, posRun, posChar_lbrace, ← hw, hoff] at hrun
        simp only [if_true, zero_add] at hrun
        rw [hw]
        apply return_of_run (Nat.succ_pos _) ?_ ?_ hrun
        · omega
        · simp only
          omega
      obtain ⟨start', hitem⟩ := posRun_item hgap.1 hshape.1 hfirst off start pos
      have hrest : (posRun (elementsText items) (off + it.1.length + it.2.length) ⟨0, start',
          pos ++ [⟨off + it.1.length, off + it.1.length + it.2.length - 1⟩]⟩).pos =
          pos ++ [⟨off + it.1.length, off + it.1.length + it.2.length - 1⟩] ++
            delimiters (off + it.1.length + it.2.length) items := by
        obtain ⟨w, hw⟩ := hshape.1
        have hlen : it.2.length = w.length + 1 := by rw [hw, List.length_cons]
        rw [hitem, Nat.mod_eq_of_lt (by omega), Nat.mod_eq_of_lt (by omega)] at hrun
        rw [hrun, delimiters, List.append_assoc, List.singleton_append]
      rw [List.forall_mem_cons]
      exact ⟨hfirst, ih hgap.2 hshape.2 (by omega) hrest⟩

/-! ## The copies -/

theorem nodeCopy_eq (front gap rest : List UInt8) {obj : List UInt8} (hobj : 0 < obj.length) :
    nodeCopy (front ++ (gap ++ obj ++ rest))
        ⟨front.length + gap.length, front.length + gap.length + obj.length - 1⟩ =
      if obj.length < maxItemLen then some obj else none := by
  have hlen : ((front.length + gap.length + obj.length - 1 : ℕ) : ℤ) -
      (front.length + gap.length : ℕ) + 1 = obj.length := by omega
  have htext : ((front ++ (gap ++ obj ++ rest)).length : ℤ) =
      front.length + gap.length + obj.length + rest.length := by
    simp only [List.length_append, Nat.cast_add]
    ring
  have hdrop : (front ++ (gap ++ obj ++ rest)).drop (front.length + gap.length) = obj ++ rest := by
    rw [← List.append_assoc, ← List.append_assoc, List.append_assoc, ← List.length_append]
    exact List.drop_left
  simp only [nodeCopy, hlen, htext, hdrop, Int.toNat_natCast, List.take_left]
  by_cases hfit : obj.length < maxItemLen
  · rw [if_pos hfit, if_neg]
    omega
  · rw [if_neg hfit, if_pos]
    omega

theorem dpNodeParse_isSome_iff (goesOn : ℕ → List UInt8 → Bool)
    (hobj : ∀ it ∈ items, 0 < it.2.length) (front tail : List UInt8) (i : ℕ) :
    (dpNodeParse (front ++ (elementsText items ++ tail)) goesOn i
        (delimiters front.length items)).isSome ↔ ReachedFit goesOn i items := by
  induction items generalizing front i with
  | nil => simp [dpNodeParse, delimiters, ReachedFit]
  | cons it items ih =>
      rw [List.forall_mem_cons] at hobj
      have hcopy := nodeCopy_eq front it.1 (elementsText items ++ tail) hobj.1
      have htext : elementsText (it :: items) ++ tail =
          it.1 ++ it.2 ++ (elementsText items ++ tail) := by
        rw [elementsText_cons, List.append_assoc (it.1 ++ it.2)]
      have hnext := ih hobj.2 (front ++ (it.1 ++ it.2)) (i + 1)
      rw [List.append_assoc, List.length_append, List.length_append, ← Nat.add_assoc] at hnext
      rw [htext, delimiters, dpNodeParse, hcopy, ReachedFit]
      by_cases hfit : it.2.length < maxItemLen
      · simp only [hfit, if_true, true_and]
        by_cases hgo : goesOn i it.2 = true
        · simp only [hgo, if_true, Option.isSome_map, true_imp_iff]
          exact hnext
        · simp [hgo]
      · simp [hfit]

/-! ## The split -/

theorem length_delimiters (off : ℕ) : (delimiters off items).length = items.length := by
  induction items generalizing off with
  | nil => rfl
  | cons it items ih => rw [delimiters, List.length_cons, List.length_cons, ih]

theorem exists_last_delimiter (hobj : ∀ it ∈ items, 0 < it.2.length) (hne : items ≠ [])
    (off : ℕ) : ∃ p ∈ delimiters off items, p.stop + 1 = off + (elementsText items).length := by
  induction items generalizing off with
  | nil => exact (hne rfl).elim
  | cons it items ih =>
      rw [List.forall_mem_cons] at hobj
      rw [elementsText_cons, List.length_append, List.length_append]
      by_cases hlast : items = []
      · subst hlast
        refine ⟨_, List.mem_cons_self, ?_⟩
        simp only [elementsText_nil, List.length_nil]
        omega
      · obtain ⟨p, hp, hstop⟩ := ih hobj.2 hlast (off + it.1.length + it.2.length)
        exact ⟨p, List.mem_cons_of_mem _ hp, by omega⟩

theorem dpNodePosDecode_eq_some_iff (h : ObjectArray items tail) (hnum : items.length ≤ 254) :
    dpNodePosDecode (some (arrayText items tail)) 255 = some (delimiters 0 items) ↔
      (arrayText items tail).length < 2 ^ 31 ∧
        (posRun (arrayText items tail) 0 ⟨0, 0, []⟩).pos = delimiters 0 items := by
  have hlen : (delimiters 0 items).length ≤ 254 := by rwa [length_delimiters]
  have hroom : (⟨0, 0, []⟩ : PosScan).pos.length < 255 := by decide
  simp only [dpNodePosDecode]
  rcases posLoop_or (i := 0) h.zero_notMem hroom with hrun | ⟨hloop, hrun⟩
  · rw [hrun]
    simp only [zero_add]
    split_ifs with hlong
    · simp only [false_iff]
      omega
    · simp only [Option.some.injEq, Nat.lt_of_not_le hlong, true_and]
  · constructor
    · intro heq
      split_ifs at heq
      rw [Option.some.inj heq] at hloop
      omega
    · rintro ⟨-, heq⟩
      rw [heq] at hrun
      omega

theorem parse_isSome_iff (goesOn : ℕ → List UInt8 → Bool) (h : ObjectArray items tail) :
    (dpNodeParse (arrayText items tail) goesOn 0 (delimiters 0 items)).isSome ↔
      ReachedFit goesOn 0 items :=
  dpNodeParse_isSome_iff goesOn h.length_pos [] tail 0

/-- The split is exact for the arrays of which every object closes where the
count of braces closes, which end in reach of the positions, and whose objects
fit the buffer.  Objects without braces in their strings close so. -/
theorem dp_node_pos_decode_exact_iff {items : List (List UInt8 × List UInt8)} {tail : List UInt8}
    (h : ObjectArray items tail) (hpos : 1 ≤ items.length) (hnum : items.length ≤ 254)
    (goesOn : ℕ → List UInt8 → Bool) :
    (SplitsExactly goesOn items tail ↔ Splittable goesOn items tail) ∧
      ∀ it ∈ items, (∃ ss, Text .object ss it.2 ∧ ∀ s ∈ ss, Braceless s) → ClosesAtEnd it.2 := by
  refine ⟨?_, fun it _ ⟨ss, htext, hss⟩ ↦ htext.closesAtEnd hss⟩
  constructor
  · rintro ⟨hdecode, hparse⟩
    obtain ⟨hlt, hrun⟩ := (dpNodePosDecode_eq_some_iff h hnum).mp hdecode
    have hne : items ≠ [] := List.ne_nil_of_length_pos hpos
    obtain ⟨added, hadded, hstops⟩ := posRun_added (arrayText items tail) 0 ⟨0, 0, []⟩
    have hnear : (elementsText items).length ≤ 2 ^ 16 := by
      obtain ⟨p, hp, hstop⟩ := exists_last_delimiter h.length_pos hne 0
      rw [← hrun, hadded, List.nil_append] at hp
      obtain ⟨j, -, -, hj⟩ := hstops p hp
      have := Nat.mod_lt j (Nat.two_pow_pos 16)
      omega
    rw [arrayText, posRun_append, posRun_braceless h.tail_braceless] at hrun
    refine ⟨hlt, hnear, ?_, (parse_isSome_iff goesOn h).mp hparse⟩
    apply closes_of_run h.gap_braceless h.shape ?_ hrun
    rwa [zero_add]
  · rintro ⟨hlt, hnear, hclose, hfit⟩
    refine ⟨?_, (parse_isSome_iff goesOn h).mpr hfit⟩
    exact (dpNodePosDecode_eq_some_iff h hnum).mpr ⟨hlt, posRun_array h hclose hnear⟩

/-- The empty object twice. -/
def twoEmpty : List (List UInt8 × List UInt8) :=
  [([lbracket], [lbrace, rbrace]), ([comma], [lbrace, rbrace])]

theorem twoEmpty_array : ObjectArray twoEmpty [rbracket] := by
  have hblank : Blank [] := by simp [Blank]
  refine ⟨?_, ?_, ⟨[], [], hblank, hblank, rfl⟩⟩
  · intro k it hk
    match k with
    | 0 =>
        cases hk
        exact ⟨[], [], hblank, hblank, rfl⟩
    | 1 =>
        cases hk
        exact ⟨[], [], hblank, hblank, rfl⟩
    | k + 2 => cases hk
  · intro it hit
    have hobj : it.2 = lbrace :: [] ++ [rbrace] := by
      rcases List.mem_cons.mp hit with rfl | hit
      · rfl
      · rw [List.mem_singleton.mp hit]
        rfl
    rw [hobj]
    exact ⟨[], .emptyObject hblank⟩

theorem dp_node_pos_decode_exact_iff_two :
    ObjectArray twoEmpty [rbracket] ∧
      (SplitsExactly (fun _ _ ↦ true) twoEmpty [rbracket] ↔
        Splittable (fun _ _ ↦ true) twoEmpty [rbracket]) :=
  ⟨twoEmpty_array,
    (dp_node_pos_decode_exact_iff twoEmpty_array (by decide) (by decide) fun _ _ ↦ true).1⟩

/-- An object with a closing brace in its only string. -/
def braceInString : List (List UInt8 × List UInt8) :=
  [([lbracket], [lbrace, quote, 0x61, quote, colon, quote, rbrace, quote, rbrace])]

theorem braceInString_array : ObjectArray braceInString [rbracket] := by
  have hblank : Blank [] := by simp [Blank]
  refine ⟨?_, ?_, ⟨[], [], hblank, hblank, rfl⟩⟩
  · intro k it hk
    match k with
    | 0 =>
        cases hk
        exact ⟨[], [], hblank, hblank, rfl⟩
    | k + 1 => cases hk
  · intro it hit
    rw [List.mem_singleton.mp hit]
    have hkey : StringBody [0x61] := .plain (by decide) (by decide) (by decide) .nil
    have hval : StringBody [rbrace] := .plain (by decide) (by decide) (by decide) .nil
    exact ⟨_, .object (.one (.member hblank hkey hblank
      (.element hblank (.string hval) hblank)))⟩

theorem dp_node_pos_decode_not_exact :
    ¬ ∀ (items : List (List UInt8 × List UInt8)) (tail : List UInt8), ObjectArray items tail →
      1 ≤ items.length → items.length ≤ 254 →
      ∀ goesOn : ℕ → List UInt8 → Bool, SplitsExactly goesOn items tail := by
  intro h
  have hsplit := h braceInString [rbracket] braceInString_array (by decide) (by decide)
    fun _ _ ↦ true
  exact absurd hsplit.decode (by decide)

end TuyaOpen.Schema
