import Mathlib.Data.Bool.AllAny
import Mathlib.Data.List.TakeWhile
import TuyaOpen.Lib.Printf

/-!
# The filter for formats of log lines

`tal_log.c` refuses a format with a conversion that would write to memory.
-/

namespace TuyaOpen.Tal

open Printf

def isLogFlag (c : Char) : Bool :=
  c = ' ' || c = '#' || c = '+' || c = '-' || c = '0' || c = '\'' || c = 'I'

def isLogLength (c : Char) : Bool :=
  c = 'h' || c = 'l' || c = 'j' || c = 'z' || c = 't' || c = 'L'

/-- What is passed over behind a percent sign. -/
def logFmtSkip (fmt : List Char) : List Char :=
  let fmt := fmt.dropWhile isLogFlag
  let fmt := fmt.dropWhile Char.isDigit
  let fmt :=
    match fmt with
    | '.' :: fmt => fmt.dropWhile Char.isDigit
    | _ => fmt
  fmt.dropWhile isLogLength

/-- What can be passed over: a width and a precision in digits, and any flags and lengths that are
known. -/
structure Skipped where
  flags : List Char
  width : List Char
  precision : Option (List Char)
  length : List Char
  flags_log : ∀ c ∈ flags, isLogFlag c = true
  width_digits : ∀ c ∈ width, c.isDigit = true
  precision_digits : ∀ ds, precision = some ds → ∀ c ∈ ds, c.isDigit = true
  length_log : ∀ c ∈ length, isLogLength c = true

namespace Skipped

def precisionText : Option (List Char) → List Char
  | none => []
  | some ds => '.' :: ds

def text (x : Skipped) : List Char :=
  x.flags ++ (x.width ++ (precisionText x.precision ++ x.length))

end Skipped

theorem exists_skipped (fmt : List Char) : ∃ x : Skipped, x.text ++ logFmtSkip fmt = fmt := by
  have htake : ∀ (p : Char → Bool) (l : List Char), ∀ c ∈ l.takeWhile p, p c = true :=
    fun p l c hc ↦ List.mem_takeWhile_imp hc
  obtain ⟨behind, hbehind⟩ : ∃ l, l = (fmt.dropWhile isLogFlag).dropWhile Char.isDigit := ⟨_, rfl⟩
  have hfront : fmt.takeWhile isLogFlag ++
      ((fmt.dropWhile isLogFlag).takeWhile Char.isDigit ++ behind) = fmt := by
    rw [hbehind, List.takeWhile_append_dropWhile, List.takeWhile_append_dropWhile]
  by_cases hdot : ∃ rest, behind = '.' :: rest
  · obtain ⟨rest, hrest⟩ := hdot
    refine ⟨⟨fmt.takeWhile isLogFlag, (fmt.dropWhile isLogFlag).takeWhile Char.isDigit,
      some (rest.takeWhile Char.isDigit), (rest.dropWhile Char.isDigit).takeWhile isLogLength,
      htake _ _, htake _ _, ?_, htake _ _⟩, ?_⟩
    · rintro ds ⟨⟩
      exact htake _ _
    · have hskip : logFmtSkip fmt = (rest.dropWhile Char.isDigit).dropWhile isLogLength := by
        unfold logFmtSkip
        dsimp only
        rw [← hbehind, hrest]
        rfl
      conv_rhs => rw [← hfront, hrest]
      simp only [Skipped.text, Skipped.precisionText, hskip, List.append_assoc, List.cons_append,
        List.takeWhile_append_dropWhile]
  · refine ⟨⟨fmt.takeWhile isLogFlag, (fmt.dropWhile isLogFlag).takeWhile Char.isDigit, none,
      behind.takeWhile isLogLength, htake _ _, htake _ _, ?_, htake _ _⟩, ?_⟩
    · rintro ds ⟨⟩
    · have hskip : logFmtSkip fmt = behind.dropWhile isLogLength := by
        unfold logFmtSkip
        dsimp only
        rw [← hbehind]
        split
        · exact (hdot ⟨_, rfl⟩).elim
        · rfl
      conv_rhs => rw [← hfront]
      simp only [Skipped.text, Skipped.precisionText, hskip, List.append_assoc, List.nil_append,
        List.takeWhile_append_dropWhile]

theorem length_logFmtSkip_le (fmt : List Char) : (logFmtSkip fmt).length ≤ fmt.length := by
  obtain ⟨x, hx⟩ := exists_skipped fmt
  conv_rhs => rw [← hx]
  rw [List.length_append]
  omega

/-- Nothing of a kind that is passed over. -/
structure Stops (c : Char) : Prop where
  flag : isLogFlag c = false
  digit : c.isDigit = false
  dot : c ≠ '.'
  length : isLogLength c = false

theorem exists_cons_of_length {length : List Char} (hlength : ∀ a ∈ length, isLogLength a = true)
    {c : Char} (hc : Stops c) (rest : List Char) :
    ∃ a r, length ++ c :: rest = a :: r ∧ isLogFlag a = false ∧ a.isDigit = false ∧ a ≠ '.' := by
  cases length with
  | nil => exact ⟨c, rest, rfl, hc.flag, hc.digit, hc.dot⟩
  | cons a length =>
      have ha : isLogLength a = true := hlength a List.mem_cons_self
      simp only [isLogLength, Bool.or_eq_true, decide_eq_true_eq] at ha
      refine ⟨a, length ++ c :: rest, rfl, ?_⟩
      rcases ha with ((((rfl | rfl) | rfl) | rfl) | rfl) | rfl <;> decide

theorem logFmtSkip_text (x : Skipped) {c : Char} (hc : Stops c) (rest : List Char) :
    logFmtSkip (x.text ++ c :: rest) = c :: rest := by
  obtain ⟨flags, width, precision, length, hflags, hwidth, hprecision, hlength⟩ := x
  have hlast : (length ++ c :: rest).dropWhile isLogLength = c :: rest := by
    rw [dropWhile_append hlength, List.dropWhile_cons_of_neg (by rw [hc.length]; decide)]
  obtain ⟨a, r, hcons, hflag, hdigit, hdot⟩ := exists_cons_of_length hlength hc rest
  unfold logFmtSkip Skipped.text
  dsimp only
  cases precision with
  | none =>
      have hassoc : flags ++ (width ++ (Skipped.precisionText none ++ length)) ++ c :: rest =
          flags ++ (width ++ a :: r) := by
        rw [← hcons]
        simp only [Skipped.precisionText, List.append_assoc, List.nil_append]
      rw [hassoc, dropWhile_dropWhile_append hflags hwidth hflag hdigit]
      split
      · rename_i heq
        exact (hdot (List.cons.inj heq).1).elim
      · rw [← hcons, hlast]
  | some ds =>
      have hassoc : flags ++ (width ++ (Skipped.precisionText (some ds) ++ length)) ++ c :: rest =
          flags ++ (width ++ '.' :: (ds ++ (length ++ c :: rest))) := by
        simp only [Skipped.precisionText, List.append_assoc, List.cons_append]
      rw [hassoc, dropWhile_dropWhile_append hflags hwidth (by decide) (by decide)]
      change ((ds ++ (length ++ c :: rest)).dropWhile Char.isDigit).dropWhile isLogLength =
        c :: rest
      rw [dropWhile_append (hprecision ds rfl), hcons,
        List.dropWhile_cons_of_neg (by rw [hdigit]; decide), ← hcons, hlast]

/-- The loop of `__log_fmt_has_forbidden_spec`. -/
def logFmtScan : List Char → Bool
  | [] => false
  | c :: fmt =>
      if c = '%' then
        if fmt.head? = some '%' then logFmtScan fmt.tail
        else if (logFmtSkip fmt).head? = some 'n' then true
        else logFmtScan (logFmtSkip fmt)
      else logFmtScan fmt
termination_by fmt => fmt.length
decreasing_by
  · simp only [List.length_cons, List.length_tail]
    omega
  · have := length_logFmtSkip_le fmt
    simp only [List.length_cons]
    omega
  · simp only [List.length_cons]
    omega

/-- `__log_fmt_has_forbidden_spec`; without a format it is NULL. -/
def logFmtHasForbiddenSpec (fmt : Option (List Char)) : Bool :=
  match fmt with
  | none => false
  | some fmt => logFmtScan fmt

/-! ## One specification -/

/-- What is passed over up to an `n`. -/
def LooseN (t : List Char) : Prop := ∃ (x : Skipped) (rest : List Char), t = x.text ++ 'n' :: rest

theorem looseN_iff (t : List Char) : LooseN t ↔ (logFmtSkip t).head? = some 'n' := by
  constructor
  · rintro ⟨x, rest, rfl⟩
    rw [logFmtSkip_text x ⟨by decide, by decide, by decide, by decide⟩]
    rfl
  · intro h
    obtain ⟨rest, hrest⟩ := List.head?_eq_some_iff.mp h
    obtain ⟨x, hx⟩ := exists_skipped t
    exact ⟨x, rest, by rw [← hrest, hx]⟩

theorem stops_of_conversion {c : Char} (hc : c ∈ conversionChars) : Stops c := by
  have hall : ∀ c ∈ conversionChars, isLogFlag c = false ∧ c.isDigit = false ∧ c ≠ '.' ∧
      isLogLength c = false := List.all_iff_forall_prop.mp rfl
  obtain ⟨hflag, hdigit, hdot, hlength⟩ := hall c hc
  exact ⟨hflag, hdigit, hdot, hlength⟩

theorem stops_star : Stops '*' := ⟨by decide, by decide, by decide, by decide⟩

theorem isLogFlag_of_mem {c : Char} (hc : c ∈ flagChars) : isLogFlag c = true := by
  have hall : flagChars.all isLogFlag = true := rfl
  exact List.all_eq_true.mp hall c hc

theorem isLogLength_of_mem {l : List Char} (hl : l ∈ lengthModifiers) :
    ∀ c ∈ l, isLogLength c = true := by
  have hall : ∀ l ∈ lengthModifiers, l.all isLogLength = true := by decide
  exact List.all_eq_true.mp (hall l hl)

theorem head_skip_star (x : Skipped) (rest : List Char) :
    (logFmtSkip (x.text ++ '*' :: rest)).head? ≠ some 'n' := by
  rw [logFmtSkip_text x stops_star]
  exact fun h ↦ absurd (Option.some.inj h) (by decide)

theorem logFmtSkip_spec (x : Spec) (s : List Char) :
    (logFmtSkip (x.text ++ s)).head? = some 'n' ↔ x.conversion = 'n' ∧ ¬x.HasStar := by
  obtain ⟨flags, width, precision, length, conversion, hflags, hlength, hconversion⟩ := x
  have hflags' : ∀ c ∈ flags, isLogFlag c = true := fun c hc ↦ isLogFlag_of_mem (hflags c hc)
  have hnone : ∀ c ∈ ([] : List Char), isLogLength c = true := fun c hc ↦ (List.not_mem_nil hc).elim
  cases width with
  | star =>
      have hstop := head_skip_star ⟨flags, [], none, [], hflags', by simp, by simp, hnone⟩
        (Spec.precisionText precision ++ (length ++ conversion :: s))
      simp only [Spec.text, Amount.text, Skipped.text, Skipped.precisionText, List.append_assoc,
        List.append_nil, List.nil_append, List.cons_append] at hstop ⊢
      exact iff_of_false hstop fun h ↦ h.2 (Or.inl rfl)
  | digits ds hds =>
      rcases precision with _ | (⟨ps, hps⟩ | _)
      · have hskip := logFmtSkip_text ⟨flags, ds, none, length, hflags', hds, by simp,
          isLogLength_of_mem hlength⟩ (stops_of_conversion hconversion) s
        simp only [Spec.text, Amount.text, Skipped.text, Skipped.precisionText, Spec.precisionText,
          List.append_assoc, List.nil_append, List.cons_append] at hskip ⊢
        rw [hskip]
        simp [Spec.HasStar]
      · have hskip := logFmtSkip_text
          ⟨flags, ds, some ps, length, hflags', hds, by rintro _ ⟨⟩; exact hps,
          isLogLength_of_mem hlength⟩ (stops_of_conversion hconversion) s
        simp only [Spec.text, Amount.text, Skipped.text, Skipped.precisionText, Spec.precisionText,
          List.append_assoc, List.nil_append, List.cons_append] at hskip ⊢
        rw [hskip]
        simp [Spec.HasStar]
      · have hstop := head_skip_star ⟨flags, ds, some [], [], hflags', hds, by simp, hnone⟩
          (length ++ conversion :: s)
        simp only [Spec.text, Amount.text, Skipped.text, Skipped.precisionText, Spec.precisionText,
          List.append_assoc, List.append_nil, List.nil_append, List.cons_append] at hstop ⊢
        exact iff_of_false hstop fun h ↦ h.2 (Or.inr rfl)

/-! ## The whole format -/

theorem percent_notMem_skipped (x : Skipped) : '%' ∉ x.text := by
  have hprecision : '%' ∉ Skipped.precisionText x.precision := by
    cases h : x.precision with
    | none => exact List.not_mem_nil
    | some ds =>
        exact List.not_mem_cons_of_ne_of_not_mem (by decide)
          fun hmem ↦ absurd (x.precision_digits ds h _ hmem) (by decide)
  unfold Skipped.text
  simp only [List.mem_append, not_or]
  exact ⟨fun hmem ↦ absurd (x.flags_log _ hmem) (by decide),
    fun hmem ↦ absurd (x.width_digits _ hmem) (by decide), hprecision,
    fun hmem ↦ absurd (x.length_log _ hmem) (by decide)⟩

theorem logFmtScan_append {l : List Char} (hl : '%' ∉ l) (s : List Char) :
    logFmtScan (l ++ s) = logFmtScan s := by
  induction l with
  | nil => rfl
  | cons c l ih =>
      obtain ⟨hc, hrest⟩ := not_or.mp (mt List.mem_cons.mpr hl)
      rw [List.cons_append, logFmtScan, if_neg (Ne.symm hc), ih hrest]

theorem logFmtScan_percent {s : List Char} (hs : s.head? ≠ some '%') :
    logFmtScan ('%' :: s) = true ↔
      (logFmtSkip s).head? = some 'n' ∨ logFmtScan s = true := by
  obtain ⟨x, hx⟩ := exists_skipped s
  have hscan : logFmtScan s = logFmtScan (logFmtSkip s) := by
    conv_lhs => rw [← hx]
    exact logFmtScan_append (percent_notMem_skipped x) _
  rw [logFmtScan, if_pos rfl, if_neg hs, hscan]
  split_ifs with hn
  · exact iff_of_true rfl (Or.inl hn)
  · exact (or_iff_right hn).symm

/-- The format has a specification whose conversion is an `n`. -/
def HasN (items : List Item) : Prop := ∃ x, .spec x ∈ items ∧ x.conversion = 'n'

/-- One of them has no asterisk. -/
def HasPlainN (items : List Item) : Prop :=
  ∃ x, .spec x ∈ items ∧ x.conversion = 'n' ∧ ¬x.HasStar

/-- One of them has an asterisk. -/
def HasStarN (items : List Item) : Prop :=
  ∃ x, .spec x ∈ items ∧ x.conversion = 'n' ∧ x.HasStar

/-- Behind a percent sign at which no specification begins there is an `n`, with only what is
passed over before it. -/
def HasLooseN (items : List Item) : Prop := ∃ t, .stray t ∈ items ∧ LooseN t

theorem hasN_iff (items : List Item) : HasN items ↔ HasPlainN items ∨ HasStarN items := by
  constructor
  · rintro ⟨x, hx, hn⟩
    by_cases hstar : x.HasStar
    · exact Or.inr ⟨x, hx, hn, hstar⟩
    · exact Or.inl ⟨x, hx, hn, hstar⟩
  · rintro (⟨x, hx, hn, -⟩ | ⟨x, hx, hn, -⟩)
    · exact ⟨x, hx, hn⟩
    · exact ⟨x, hx, hn⟩

/-- What an item adds to the search. -/
def Found : Item → Prop
  | .spec x => x.conversion = 'n' ∧ ¬x.HasStar
  | .stray t => LooseN t
  | _ => False

theorem exists_found_iff (items : List Item) :
    (∃ item ∈ items, Found item) ↔ HasPlainN items ∨ HasLooseN items := by
  constructor
  · rintro ⟨item, hmem, hfound⟩
    cases item with
    | ordinary c => exact hfound.elim
    | percent => exact hfound.elim
    | spec x => exact Or.inl ⟨x, hmem, hfound⟩
    | stray t => exact Or.inr ⟨t, hmem, hfound⟩
  · rintro (⟨x, hmem, hfound⟩ | ⟨t, hmem, hfound⟩)
    · exact ⟨_, hmem, hfound⟩
    · exact ⟨_, hmem, hfound⟩

theorem logFmtScan_iff {fmt : List Char} {items : List Item} (h : Reads fmt items) :
    logFmtScan fmt = true ↔ ∃ item ∈ items, Found item := by
  induction h with
  | nil => exact iff_of_false (by rw [logFmtScan]; decide) fun ⟨_, hmem, _⟩ ↦ List.not_mem_nil hmem
  | ordinary hc h ih =>
      rw [logFmtScan, if_neg hc, ih, List.exists_mem_cons_iff]
      exact (or_iff_right id).symm
  | percent h ih =>
      rw [logFmtScan, if_pos rfl, if_pos List.head?_cons, List.tail_cons, ih,
        List.exists_mem_cons_iff]
      exact (or_iff_right id).symm
  | @spec x s items h ih =>
      rw [logFmtScan_percent (head_text_append x s), logFmtSkip_spec,
        logFmtScan_append (percent_notMem_text x), ih, List.exists_mem_cons_iff]
      rfl
  | stray hpercent hspec h ih =>
      rw [logFmtScan_percent hpercent, ← looseN_iff, ih, List.exists_mem_cons_iff]
      rfl

/-- Every format can be read, and by every reading of it the filter finds the `n` conversions if
and only if one of them has no asterisk, or there are some with an asterisk and some that C99 does
not have, or none of both. -/
theorem log_fmt_filter_iff (fmt : List Char) :
    (∃ items, Reads fmt items) ∧ ∀ items, Reads fmt items →
      ((logFmtHasForbiddenSpec (some fmt) = true ↔ HasN items) ↔
        (HasPlainN items ∨ (HasStarN items ↔ HasLooseN items))) := by
  refine ⟨exists_reads fmt, fun items h ↦ ?_⟩
  have hscan : logFmtHasForbiddenSpec (some fmt) = true ↔ HasPlainN items ∨ HasLooseN items :=
    (logFmtScan_iff h).trans (exists_found_iff items)
  rw [hscan, hasN_iff]
  by_cases hplain : HasPlainN items
  · exact iff_of_true (iff_of_true (Or.inl hplain) (Or.inl hplain)) (Or.inl hplain)
  · rw [or_iff_right hplain, or_iff_right hplain, or_iff_right hplain]
    exact iff_comm

/-- `%-5.3lln`. -/
def widthSpec : Spec where
  flags := ['-']
  width := .digits ['5'] (List.all_iff_forall_prop.mp rfl)
  precision := some (.digits ['3'] (List.all_iff_forall_prop.mp rfl))
  length := ['l', 'l']
  conversion := 'n'
  flags_mem := List.all_iff_forall_prop.mp rfl
  length_mem := by decide
  conversion_mem := by decide

theorem log_fmt_filter_iff_width :
    logFmtHasForbiddenSpec (some ('%' :: (widthSpec.text ++ []))) = true ↔ HasN [.spec widthSpec] :=
  ((log_fmt_filter_iff ('%' :: (widthSpec.text ++ []))).2 _ (.spec widthSpec .nil)).mpr
    (Or.inl ⟨widthSpec, List.mem_singleton_self _, rfl, by rintro (h | h) <;> cases h⟩)

/-- `%*n`. -/
def starSpec : Spec where
  flags := []
  width := .star
  precision := none
  length := []
  conversion := 'n'
  flags_mem := List.all_iff_forall_prop.mp rfl
  length_mem := by decide
  conversion_mem := by decide

theorem star_passes_filter :
    logFmtHasForbiddenSpec (some ['%', '*', 'n']) = false ∧
      Reads ['%', '*', 'n'] [.spec starSpec] ∧ HasN [.spec starSpec] :=
  ⟨by decide +kernel, .spec starSpec .nil, starSpec, List.mem_singleton_self _, rfl⟩

end TuyaOpen.Tal
