import Mathlib.Data.List.Basic
import Mathlib.Data.Int.Notation
import Mathlib.Tactic.Ring

/-!
# JSON texts and the braces in them

The grammar of JSON over bytes, with the strings of a text beside it, and the
count of braces that a reader keeps who does not know about strings.  Where no
string holds a brace the count says where an object ends.
-/

namespace JsonText

abbrev quote : UInt8 := 0x22
abbrev comma : UInt8 := 0x2c
abbrev colon : UInt8 := 0x3a
abbrev lbracket : UInt8 := 0x5b
abbrev backslash : UInt8 := 0x5c
abbrev rbracket : UInt8 := 0x5d
abbrev lbrace : UInt8 := 0x7b
abbrev rbrace : UInt8 := 0x7d

/-! ## The grammar -/

def Blank (w : List UInt8) : Prop := ∀ b ∈ w, b = 0x20 ∨ b = 0x09 ∨ b = 0x0a ∨ b = 0x0d

def IsDigit (b : UInt8) : Prop := 0x30 ≤ b ∧ b ≤ 0x39

def IsHex (b : UInt8) : Prop := IsDigit b ∨ (0x41 ≤ b ∧ b ≤ 0x46) ∨ (0x61 ≤ b ∧ b ≤ 0x66)

def Digits (w : List UInt8) : Prop := w ≠ [] ∧ ∀ b ∈ w, IsDigit b

/-- A number; a leading zero stands alone. -/
def Number (w : List UInt8) : Prop :=
  ∃ sign int frac exp, (sign = [] ∨ sign = [0x2d]) ∧
    (Digits int ∧ (int.head? = some 0x30 → int.length = 1)) ∧
    (frac = [] ∨ ∃ ds, Digits ds ∧ frac = 0x2e :: ds) ∧
    (exp = [] ∨ ∃ e s ds, (e = 0x65 ∨ e = 0x45) ∧ (s = [] ∨ s = [0x2b] ∨ s = [0x2d]) ∧
      Digits ds ∧ exp = e :: s ++ ds) ∧
    w = sign ++ int ++ frac ++ exp

/-- The words `true`, `false` and `null`. -/
def literals : List (List UInt8) :=
  [[0x74, 0x72, 0x75, 0x65], [0x66, 0x61, 0x6c, 0x73, 0x65], [0x6e, 0x75, 0x6c, 0x6c]]

/-- What a backslash may stand before, besides `u`. -/
def escapes : List UInt8 := [quote, backslash, 0x2f, 0x62, 0x66, 0x6e, 0x72, 0x74]

inductive StringBody : List UInt8 → Prop
  | nil : StringBody []
  | plain {b : UInt8} {w : List UInt8} : 0x20 ≤ b → b ≠ quote → b ≠ backslash → StringBody w →
      StringBody (b :: w)
  | escape {b : UInt8} {w : List UInt8} : b ∈ escapes → StringBody w →
      StringBody (backslash :: b :: w)
  | unicode {hex w : List UInt8} : hex.length = 4 → (∀ b ∈ hex, IsHex b) → StringBody w →
      StringBody (backslash :: 0x75 :: hex ++ w)

/-- An item is an element of an array, or a member of an object. -/
inductive Kind
  | value
  | object
  | item (member : Bool)
  | items (member : Bool)
  deriving DecidableEq

/-- The texts of a kind, with the bodies of their strings in order. -/
inductive Text : Kind → List (List UInt8) → List UInt8 → Prop
  | string {s : List UInt8} : StringBody s → Text .value [s] (quote :: s ++ [quote])
  | number {w : List UInt8} : Number w → Text .value [] w
  | literal {w : List UInt8} : w ∈ literals → Text .value [] w
  | emptyArray {w : List UInt8} : Blank w → Text .value [] (lbracket :: w ++ [rbracket])
  | array {ss : List (List UInt8)} {w : List UInt8} : Text (.items false) ss w →
      Text .value ss (lbracket :: w ++ [rbracket])
  | ofObject {ss : List (List UInt8)} {w : List UInt8} : Text .object ss w → Text .value ss w
  | emptyObject {w : List UInt8} : Blank w → Text .object [] (lbrace :: w ++ [rbrace])
  | object {ss : List (List UInt8)} {w : List UInt8} : Text (.items true) ss w →
      Text .object ss (lbrace :: w ++ [rbrace])
  | element {ss : List (List UInt8)} {a v b : List UInt8} : Blank a → Text .value ss v →
      Blank b → Text (.item false) ss (a ++ v ++ b)
  | member {ss : List (List UInt8)} {a k b w : List UInt8} : Blank a → StringBody k → Blank b →
      Text (.item false) ss w →
      Text (.item true) (k :: ss) (a ++ quote :: k ++ quote :: b ++ colon :: w)
  | one {m : Bool} {ss : List (List UInt8)} {w : List UInt8} : Text (.item m) ss w →
      Text (.items m) ss w
  | more {m : Bool} {ss ss' : List (List UInt8)} {w w' : List UInt8} : Text (.item m) ss w →
      Text (.items m) ss' w' → Text (.items m) (ss ++ ss') (w ++ comma :: w')

theorem Text.object_shape {ss : List (List UInt8)} {w : List UInt8} (h : Text .object ss w) :
    ∃ u, w = lbrace :: u ++ [rbrace] := by
  cases h with
  | emptyObject _ => exact ⟨_, rfl⟩
  | object _ => exact ⟨_, rfl⟩

/-! ## Counting braces -/

def depth (w : List UInt8) : ℤ := w.count lbrace - w.count rbrace

@[simp] theorem depth_nil : depth [] = 0 := rfl

theorem depth_append (u v : List UInt8) : depth (u ++ v) = depth u + depth v := by
  simp only [depth, List.count_append, Nat.cast_add]
  ring

theorem depth_cons (b : UInt8) (w : List UInt8) : depth (b :: w) = depth [b] + depth w :=
  depth_append [b] w

@[simp] theorem depth_lbrace : depth [lbrace] = 1 := by decide

@[simp] theorem depth_rbrace : depth [rbrace] = -1 := by decide

theorem depth_singleton {b : UInt8} (hl : b ≠ lbrace) (hr : b ≠ rbrace) : depth [b] = 0 := by
  simp [depth, hl, hr]

/-- No brace stands in the text. -/
def Braceless (w : List UInt8) : Prop := lbrace ∉ w ∧ rbrace ∉ w

instance (w : List UInt8) : Decidable (Braceless w) := inferInstanceAs (Decidable (_ ∧ _))

/-- The count never falls below zero and ends there. -/
def Balanced (w : List UInt8) : Prop := depth w = 0 ∧ ∀ n, 0 ≤ depth (w.take n)

/-- The count comes to zero at the end of the text and not before. -/
def ClosesAtEnd (w : List UInt8) : Prop :=
  depth w = 0 ∧ ∀ n, 0 < n → n < w.length → depth (w.take n) ≠ 0

theorem Braceless.depth {w : List UInt8} (h : Braceless w) : depth w = 0 := by
  rw [JsonText.depth, List.count_eq_zero_of_not_mem h.1, List.count_eq_zero_of_not_mem h.2]
  rfl

theorem Braceless.take {w : List UInt8} (h : Braceless w) (n : ℕ) : Braceless (w.take n) :=
  ⟨fun hmem ↦ h.1 (List.mem_of_mem_take hmem), fun hmem ↦ h.2 (List.mem_of_mem_take hmem)⟩

theorem Braceless.balanced {w : List UInt8} (h : Braceless w) : Balanced w :=
  ⟨h.depth, fun n ↦ (h.take n).depth.ge⟩

theorem Braceless.append {u v : List UInt8} (hu : Braceless u) (hv : Braceless v) :
    Braceless (u ++ v) := by
  simp only [Braceless, List.mem_append, not_or]
  exact ⟨⟨hu.1, hv.1⟩, hu.2, hv.2⟩

theorem Balanced.append {u v : List UInt8} (hu : Balanced u) (hv : Balanced v) :
    Balanced (u ++ v) := by
  refine ⟨?_, fun n ↦ ?_⟩
  · rw [depth_append, hu.1, hv.1, zero_add]
  · rw [List.take_append, depth_append]
    exact add_nonneg (hu.2 n) (hv.2 _)

/-- The prefixes of a balanced text in braces count one more. -/
theorem depth_take_wrap {w : List UInt8} (h : Balanced w) {n : ℕ} (hn : 0 < n)
    (hlt : n < w.length + 2) : 0 < depth ((lbrace :: w ++ [rbrace]).take n) := by
  obtain ⟨n, rfl⟩ : ∃ m, n = m + 1 := ⟨n - 1, by omega⟩
  have htake : (lbrace :: w ++ [rbrace]).take (n + 1) = lbrace :: w.take n := by
    rw [List.cons_append, List.take_succ_cons, List.take_append_of_le_length (by omega)]
  have hpos := h.2 n
  rw [htake, depth_cons, depth_lbrace]
  omega

theorem depth_wrap {w : List UInt8} (h : Balanced w) : depth (lbrace :: w ++ [rbrace]) = 0 := by
  rw [List.cons_append, depth_cons, depth_append, h.1, depth_lbrace, depth_rbrace]
  rfl

theorem Balanced.wrap {w : List UInt8} (h : Balanced w) :
    Balanced (lbrace :: w ++ [rbrace]) := by
  refine ⟨depth_wrap h, fun n ↦ ?_⟩
  rcases Nat.eq_zero_or_pos n with rfl | hn
  · simp
  · by_cases hlt : n < w.length + 2
    · exact (depth_take_wrap h hn hlt).le
    · rw [List.take_of_length_le, depth_wrap h]
      rw [List.length_append, List.length_cons, List.length_singleton]
      omega

theorem Balanced.closesAtEnd {w : List UInt8} (h : Balanced w) :
    ClosesAtEnd (lbrace :: w ++ [rbrace]) := by
  refine ⟨depth_wrap h, fun n hn hlt ↦ ?_⟩
  apply (depth_take_wrap h hn ?_).ne'
  rw [List.length_append, List.length_cons, List.length_singleton] at hlt
  omega

/-! ## The first return to zero -/

/-- With `b` open braces before it, some brace stays open all through the text. -/
def Above (b : ℤ) (w : List UInt8) : Prop := ∀ n, 0 < b + depth (w.take n)

theorem Above.pos {b : ℤ} {w : List UInt8} (h : Above b w) : 0 < b := by
  simpa using h 0

theorem Above.last {b : ℤ} {w : List UInt8} (h : Above b w) : 0 < b + depth w := by
  simpa using h w.length

theorem above_nil {b : ℤ} (h : 0 < b) : Above b [] := fun n ↦ by simpa using h

theorem above_cons_iff {b : ℤ} {c : UInt8} {w : List UInt8} :
    Above b (c :: w) ↔ 0 < b ∧ Above (b + depth [c]) w := by
  constructor
  · intro h
    refine ⟨h.pos, fun n ↦ ?_⟩
    have hn := h (n + 1)
    rw [List.take_succ_cons, depth_cons] at hn
    omega
  · rintro ⟨hb, h⟩ n
    cases n with
    | zero => simpa using hb
    | succ n =>
        have hn := h n
        rw [List.take_succ_cons, depth_cons]
        omega

/-- Either some brace stays open, or the last one is closed for the first time
at some place. -/
theorem above_or_return {b : ℤ} (hb : 0 < b) (w : List UInt8) :
    Above b w ∨ ∃ u v, w = u ++ rbrace :: v ∧ Above b u ∧ b + depth u = 1 := by
  induction w generalizing b with
  | nil => exact .inl (above_nil hb)
  | cons c w ih =>
      by_cases hnext : 0 < b + depth [c]
      · rcases ih hnext with habove | ⟨u, v, rfl, hu, hreturn⟩
        · exact .inl (above_cons_iff.mpr ⟨hb, habove⟩)
        · refine .inr ⟨c :: u, v, rfl, above_cons_iff.mpr ⟨hb, hu⟩, ?_⟩
          rw [depth_cons]
          omega
      · obtain rfl : c = rbrace := by
          by_contra hr
          by_cases hl : c = lbrace
          · rw [hl, depth_lbrace] at hnext
            omega
          · rw [depth_singleton hl hr] at hnext
            omega
        rw [depth_rbrace] at hnext
        exact .inr ⟨[], w, rfl, above_nil hb, by rw [depth_nil]; omega⟩

theorem closesAtEnd_iff {w : List UInt8} :
    ClosesAtEnd (lbrace :: w) ↔ ∃ u, w = u ++ [rbrace] ∧ Above 1 u ∧ depth u = 0 := by
  constructor
  · rintro ⟨hzero, hnot⟩
    rcases above_or_return one_pos w with habove | ⟨u, v, rfl, hu, hreturn⟩
    · have hlast := habove.last
      rw [depth_cons, depth_lbrace] at hzero
      omega
    · obtain rfl : v = [] := by
        by_contra hv
        have hlen := List.length_pos_of_ne_nil hv
        apply hnot (u.length + 2) (by omega)
        · rw [List.length_cons, List.length_append, List.length_cons]
          omega
        · rw [List.take_succ_cons, List.take_append, List.take_of_length_le (by omega),
            show u.length + 1 - u.length = 1 by omega, List.take_succ_cons, List.take_zero,
            depth_cons, depth_append, depth_lbrace, depth_rbrace]
          omega
      exact ⟨u, rfl, hu, by omega⟩
  · rintro ⟨u, rfl, hu, hzero⟩
    refine ⟨?_, fun n hn hlt ↦ ?_⟩
    · rw [depth_cons, depth_append, hzero, depth_lbrace, depth_rbrace]
      rfl
    · obtain ⟨n, rfl⟩ : ∃ m, n = m + 1 := ⟨n - 1, by omega⟩
      rw [List.length_cons, List.length_append, List.length_singleton] at hlt
      have hpos := hu n
      rw [List.take_succ_cons, List.take_append_of_le_length (by omega), depth_cons, depth_lbrace]
      exact hpos.ne'

/-! ## Texts without braces in their strings -/

theorem Blank.braceless {w : List UInt8} (h : Blank w) : Braceless w := by
  refine ⟨fun hmem ↦ ?_, fun hmem ↦ ?_⟩
  · exact absurd (h _ hmem) (by decide)
  · exact absurd (h _ hmem) (by decide)

theorem Number.range {w : List UInt8} (h : Number w) : ∀ b ∈ w, 0x2b ≤ b ∧ b ≤ 0x65 := by
  obtain ⟨sign, int, frac, exp, hsign, ⟨hint, -⟩, hfrac, hexp, rfl⟩ := h
  have hdigits : ∀ ds, Digits ds → ∀ b ∈ ds, (0x2b : UInt8) ≤ b ∧ b ≤ 0x65 := fun ds hds b hb ↦
    ⟨UInt8.le_trans (show (0x2b : UInt8) ≤ 0x30 by decide) (hds.2 b hb).1,
      UInt8.le_trans (hds.2 b hb).2 (show (0x39 : UInt8) ≤ 0x65 by decide)⟩
  intro b hb
  rcases List.mem_append.mp hb with hb | hb
  · rcases List.mem_append.mp hb with hb | hb
    · rcases List.mem_append.mp hb with hb | hb
      · rcases hsign with rfl | rfl
        · cases hb
        · rw [List.mem_singleton.mp hb]
          decide
      · exact hdigits int hint b hb
    · rcases hfrac with rfl | ⟨ds, hds, rfl⟩
      · cases hb
      · rcases List.mem_cons.mp hb with rfl | hb
        · decide
        · exact hdigits ds hds b hb
  · rcases hexp with rfl | ⟨e, sgn, ds, he, hsgn, hds, rfl⟩
    · cases hb
    · rcases List.mem_append.mp hb with hb | hb
      · rcases List.mem_cons.mp hb with rfl | hb
        · rcases he with rfl | rfl <;> decide
        · rcases hsgn with rfl | rfl | rfl
          · cases hb
          · rw [List.mem_singleton.mp hb]
            decide
          · rw [List.mem_singleton.mp hb]
            decide
      · exact hdigits ds hds b hb

theorem Number.braceless {w : List UInt8} (h : Number w) : Braceless w :=
  ⟨fun hmem ↦ absurd (h.range _ hmem) (by decide), fun hmem ↦ absurd (h.range _ hmem) (by decide)⟩

theorem literals_braceless {w : List UInt8} (h : w ∈ literals) : Braceless w := by
  have hall : ∀ w ∈ literals, Braceless w := by decide
  exact hall w h

theorem Text.balanced {k : Kind} {ss : List (List UInt8)} {w : List UInt8} (h : Text k ss w)
    (hss : ∀ s ∈ ss, Braceless s) : Balanced w := by
  induction h with
  | @string s _ =>
      have hs : Braceless s := hss s (List.mem_singleton_self s)
      have hquote : Braceless [quote] := by decide
      exact ((hquote.append hs).append hquote).balanced
  | number hnum => exact hnum.braceless.balanced
  | literal hmem => exact (literals_braceless hmem).balanced
  | emptyArray hblank =>
      have hl : Braceless [lbracket] := by decide
      have hr : Braceless [rbracket] := by decide
      exact ((hl.append hblank.braceless).append hr).balanced
  | array _ ih =>
      have hl : Braceless [lbracket] := by decide
      have hr : Braceless [rbracket] := by decide
      exact (hl.balanced.append (ih hss)).append hr.balanced
  | ofObject _ ih => exact ih hss
  | emptyObject hblank => exact hblank.braceless.balanced.wrap
  | object _ ih => exact (ih hss).wrap
  | element ha _ hb ih => exact (ha.braceless.balanced.append (ih hss)).append hb.braceless.balanced
  | @member ss a k b w ha _ hb _ ih =>
      have hquote : Braceless [quote] := by decide
      have hcolon : Braceless [colon] := by decide
      have hkey : Braceless k := hss k List.mem_cons_self
      have hval := ih fun s hs ↦ hss s (List.mem_cons_of_mem k hs)
      have hfront := ((ha.braceless.append hquote).append (hkey.append hquote)).append
        (hb.braceless.append hcolon)
      have hall := hfront.balanced.append hval
      simpa using hall
  | one _ ih => exact ih hss
  | more _ _ ih ih' =>
      have hcomma : Braceless [comma] := by decide
      have hfirst := ih fun s hs ↦ hss s (List.mem_append_left _ hs)
      have hrest := ih' fun s hs ↦ hss s (List.mem_append_right _ hs)
      exact hfirst.append (hcomma.balanced.append hrest)

/-- Where no string holds a brace, the count comes to zero where the object
ends. -/
theorem Text.closesAtEnd {ss : List (List UInt8)} {w : List UInt8} (h : Text .object ss w)
    (hss : ∀ s ∈ ss, Braceless s) : ClosesAtEnd w := by
  cases h with
  | emptyObject hblank => exact hblank.braceless.balanced.closesAtEnd
  | object hitems => exact (hitems.balanced hss).closesAtEnd

/-! ## No byte of a text is zero -/

theorem Blank.zero_notMem {w : List UInt8} (h : Blank w) : 0 ∉ w := by
  intro hmem
  exact absurd (h 0 hmem) (by decide)

theorem StringBody.zero_notMem {w : List UInt8} (h : StringBody w) : 0 ∉ w := by
  induction h with
  | nil => exact List.not_mem_nil
  | @plain b w hb _ _ _ ih =>
      rw [List.mem_cons, not_or]
      refine ⟨?_, ih⟩
      rintro rfl
      exact absurd hb (by decide)
  | @escape b w hb _ ih =>
      rw [List.mem_cons, List.mem_cons, not_or, not_or]
      refine ⟨by decide, ?_, ih⟩
      rintro rfl
      exact absurd hb (by decide)
  | @unicode hex w _ hhex _ ih =>
      rw [List.cons_append, List.cons_append, List.mem_cons, List.mem_cons, List.mem_append]
      rintro (h | h | h | h)
      · exact absurd h (by decide)
      · exact absurd h (by decide)
      · exact absurd (hhex 0 h) (by unfold IsHex IsDigit; decide)
      · exact ih h

theorem zero_ne_marks : (0 : UInt8) ≠ quote ∧ (0 : UInt8) ≠ comma ∧ (0 : UInt8) ≠ colon ∧
    (0 : UInt8) ≠ lbracket ∧ (0 : UInt8) ≠ rbracket ∧ (0 : UInt8) ≠ lbrace ∧
    (0 : UInt8) ≠ rbrace := by
  decide

theorem Text.zero_notMem {k : Kind} {ss : List (List UInt8)} {w : List UInt8} (h : Text k ss w) :
    0 ∉ w := by
  induction h with
  | string hs => simpa [zero_ne_marks] using hs.zero_notMem
  | number hnum =>
      intro hmem
      exact absurd (hnum.range 0 hmem) (by decide)
  | @literal w hmem =>
      have hall : ∀ w ∈ literals, 0 ∉ w := by decide
      exact hall w hmem
  | emptyArray hblank => simpa [zero_ne_marks] using hblank.zero_notMem
  | array _ ih => simpa [zero_ne_marks] using ih
  | ofObject _ ih => exact ih
  | emptyObject hblank => simpa [zero_ne_marks] using hblank.zero_notMem
  | object _ ih => simpa [zero_ne_marks] using ih
  | element ha _ hb ih =>
      have hza := ha.zero_notMem
      have hzb := hb.zero_notMem
      simp [hza, ih, hzb]
  | member ha hk hb _ ih =>
      have hza := ha.zero_notMem
      have hzk := hk.zero_notMem
      have hzb := hb.zero_notMem
      simp [hza, hzk, hzb, ih, zero_ne_marks]
  | one _ ih => exact ih
  | more _ _ ih ih' => simp [ih, ih', zero_ne_marks]

/-! ## Arrays of objects -/

/-- Blanks and a mark between them. -/
def Gap (mark : UInt8) (w : List UInt8) : Prop :=
  ∃ a b, Blank a ∧ Blank b ∧ w = a ++ mark :: b

/-- The objects of an array, each with what stands before it, and what stands
behind the last. -/
structure ObjectArray (items : List (List UInt8 × List UInt8)) (tail : List UInt8) : Prop where
  gaps : ∀ k it, items[k]? = some it → Gap (if k = 0 then lbracket else comma) it.1
  objects : ∀ it ∈ items, ∃ ss, Text .object ss it.2
  tail : Gap rbracket tail

def elementsText (items : List (List UInt8 × List UInt8)) : List UInt8 :=
  items.flatMap fun it ↦ it.1 ++ it.2

def arrayText (items : List (List UInt8 × List UInt8)) (tail : List UInt8) : List UInt8 :=
  elementsText items ++ tail

@[simp] theorem elementsText_nil : elementsText [] = [] := rfl

theorem elementsText_cons (it : List UInt8 × List UInt8) (items : List (List UInt8 × List UInt8)) :
    elementsText (it :: items) = it.1 ++ it.2 ++ elementsText items := rfl

theorem Gap.braceless {mark : UInt8} {w : List UInt8} (h : Gap mark w) (hl : lbrace ≠ mark)
    (hr : rbrace ≠ mark) : Braceless w := by
  obtain ⟨a, b, ha, hb, rfl⟩ := h
  have hmark : Braceless [mark] :=
    ⟨fun h ↦ hl (List.mem_singleton.mp h), fun h ↦ hr (List.mem_singleton.mp h)⟩
  exact ha.braceless.append (hmark.append hb.braceless)

theorem Gap.zero_notMem {mark : UInt8} {w : List UInt8} (h : Gap mark w) (hmark : 0 ≠ mark) :
    0 ∉ w := by
  obtain ⟨a, b, ha, hb, rfl⟩ := h
  have hza := ha.zero_notMem
  have hzb := hb.zero_notMem
  simp [hza, hzb, hmark]

namespace ObjectArray

variable {items : List (List UInt8 × List UInt8)} {tail : List UInt8}

theorem gap_braceless (h : ObjectArray items tail) : ∀ it ∈ items, Braceless it.1 := by
  intro it hit
  obtain ⟨k, hk⟩ := List.mem_iff_getElem?.mp hit
  have hgap := h.gaps k it hk
  split_ifs at hgap
  · exact hgap.braceless (by decide) (by decide)
  · exact hgap.braceless (by decide) (by decide)

theorem tail_braceless (h : ObjectArray items tail) : Braceless tail :=
  h.tail.braceless (by decide) (by decide)

theorem shape (h : ObjectArray items tail) :
    ∀ it ∈ items, ∃ w, it.2 = lbrace :: w := by
  intro it hit
  obtain ⟨ss, htext⟩ := h.objects it hit
  obtain ⟨u, hu⟩ := htext.object_shape
  exact ⟨u ++ [rbrace], hu⟩

theorem length_pos (h : ObjectArray items tail) : ∀ it ∈ items, 0 < it.2.length := by
  intro it hit
  obtain ⟨w, hw⟩ := h.shape it hit
  rw [hw, List.length_cons]
  exact Nat.succ_pos _

theorem zero_notMem (h : ObjectArray items tail) : 0 ∉ arrayText items tail := by
  rw [arrayText, List.mem_append, not_or]
  refine ⟨?_, h.tail.zero_notMem (by decide)⟩
  intro hmem
  obtain ⟨it, hit, hmem⟩ := List.mem_flatMap.mp hmem
  rcases List.mem_append.mp hmem with hmem | hmem
  · obtain ⟨k, hk⟩ := List.mem_iff_getElem?.mp hit
    have hgap := h.gaps k it hk
    split_ifs at hgap
    · exact hgap.zero_notMem (by decide) hmem
    · exact hgap.zero_notMem (by decide) hmem
  · obtain ⟨ss, htext⟩ := h.objects it hit
    exact htext.zero_notMem hmem

end ObjectArray

end JsonText
