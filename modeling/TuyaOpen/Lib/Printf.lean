import Mathlib.Data.List.Basic

/-!
# Formats of `printf`

The conversion specifications of C99, and how a format is read.
-/

namespace Printf

def flagChars : List Char := ['-', '+', ' ', '#', '0']

def lengthModifiers : List (List Char) :=
  [[], ['h', 'h'], ['h'], ['l'], ['l', 'l'], ['j'], ['z'], ['t'], ['L']]

def conversionChars : List Char :=
  ['d', 'i', 'o', 'u', 'x', 'X', 'f', 'F', 'e', 'E', 'g', 'G', 'a', 'A', 'c', 's', 'p', 'n']

/-- A width or a precision; no digits are for one that is left out. -/
inductive Amount where
  | digits (ds : List Char) (h : ∀ d ∈ ds, d.isDigit = true)
  | star

def Amount.text : Amount → List Char
  | .digits ds _ => ds
  | .star => ['*']

/-- A conversion specification but `%%`. -/
structure Spec where
  flags : List Char
  width : Amount
  precision : Option Amount
  length : List Char
  conversion : Char
  flags_mem : ∀ c ∈ flags, c ∈ flagChars
  length_mem : length ∈ lengthModifiers
  conversion_mem : conversion ∈ conversionChars

namespace Spec

def precisionText : Option Amount → List Char
  | none => []
  | some amount => '.' :: amount.text

/-- What stands behind the percent sign. -/
def text (x : Spec) : List Char :=
  x.flags ++ (x.width.text ++ (precisionText x.precision ++ (x.length ++ [x.conversion])))

/-- The width or the precision is taken from the arguments. -/
def HasStar (x : Spec) : Prop := x.width = .star ∨ x.precision = some .star

end Spec

inductive Item where
  | ordinary (c : Char)
  | percent
  | spec (x : Spec)
  /-- A percent sign at which nothing begins, with what stands behind it. -/
  | stray (rest : List Char)

/-- A format is read from its beginning, and on behind each item. -/
inductive Reads : List Char → List Item → Prop where
  | nil : Reads [] []
  | ordinary {c : Char} {s : List Char} {items : List Item} (hc : c ≠ '%') (h : Reads s items) :
      Reads (c :: s) (.ordinary c :: items)
  | percent {s : List Char} {items : List Item} (h : Reads s items) :
      Reads ('%' :: '%' :: s) (.percent :: items)
  | spec (x : Spec) {s : List Char} {items : List Item} (h : Reads s items) :
      Reads ('%' :: (x.text ++ s)) (.spec x :: items)
  | stray {s : List Char} {items : List Item} (hpercent : s.head? ≠ some '%')
      (hspec : ∀ x : Spec, ¬x.text <+: s) (h : Reads s items) :
      Reads ('%' :: s) (.stray s :: items)

theorem exists_reads (s : List Char) : ∃ items, Reads s items := by
  induction hlength : s.length using Nat.strongRecOn generalizing s with
  | _ n ih =>
      subst hlength
      cases s with
      | nil => exact ⟨[], .nil⟩
      | cons c s =>
          by_cases hc : c = '%'
          · subst hc
            by_cases hpercent : s.head? = some '%'
            · obtain ⟨rest, rfl⟩ := List.head?_eq_some_iff.mp hpercent
              obtain ⟨items, h⟩ := ih rest.length (by simp only [List.length_cons]; omega) rest rfl
              exact ⟨_, .percent h⟩
            · by_cases hspec : ∃ x : Spec, x.text <+: s
              · obtain ⟨x, rest, rfl⟩ := hspec
                obtain ⟨items, h⟩ := ih rest.length
                  (by simp only [List.length_cons, List.length_append]; omega) rest rfl
                exact ⟨_, .spec x h⟩
              · obtain ⟨items, h⟩ := ih s.length (by simp only [List.length_cons]; omega) s rfl
                exact ⟨_, .stray hpercent (not_exists.mp hspec) h⟩
          · obtain ⟨items, h⟩ := ih s.length (by simp only [List.length_cons]; omega) s rfl
            exact ⟨_, .ordinary hc h⟩

theorem percent_notMem_text (x : Spec) : '%' ∉ x.text := by
  have hamount : ∀ amount : Amount, '%' ∉ amount.text := by
    rintro (⟨ds, hds⟩ | _)
    · exact fun hmem ↦ absurd (hds _ hmem) (by decide)
    · decide
  have hprecision : '%' ∉ Spec.precisionText x.precision := by
    cases x.precision with
    | none => exact List.not_mem_nil
    | some amount => exact List.not_mem_cons_of_ne_of_not_mem (by decide) (hamount amount)
  have hlength : '%' ∉ x.length := by
    have hall : ∀ l ∈ lengthModifiers, '%' ∉ l := by decide
    exact hall _ x.length_mem
  have hconversion : '%' ≠ x.conversion := by
    intro heq
    exact absurd (heq ▸ x.conversion_mem) (by decide)
  unfold Spec.text
  simp only [List.mem_append, List.mem_singleton, not_or]
  exact ⟨fun hmem ↦ absurd (x.flags_mem _ hmem) (by decide), hamount _, hprecision, hlength,
    hconversion⟩

theorem text_ne_nil (x : Spec) : x.text ≠ [] := by
  intro h
  have hmem : x.conversion ∈ x.text := by simp [Spec.text]
  rw [h] at hmem
  exact List.not_mem_nil hmem

theorem head_text_append (x : Spec) (s : List Char) : (x.text ++ s).head? ≠ some '%' := by
  rw [List.head?_append_of_ne_nil _ (text_ne_nil x)]
  exact fun h ↦ percent_notMem_text x (List.mem_of_head? h)

/-! ## Runs of characters -/

section Runs

variable {α : Type*} {p q : α → Bool}

theorem dropWhile_append {l : List α} (hl : ∀ a ∈ l, p a = true) (r : List α) :
    (l ++ r).dropWhile p = r.dropWhile p := by
  induction l with
  | nil => rfl
  | cons a l ih =>
      obtain ⟨ha, hrest⟩ := List.forall_mem_cons.mp hl
      rw [List.cons_append, List.dropWhile_cons_of_pos ha, ih hrest]

/-- Characters of a first run, then of a second, up to one that is of neither; the first run may
go on into the second. -/
theorem dropWhile_dropWhile_append {l m : List α} (hl : ∀ a ∈ l, p a = true)
    (hm : ∀ a ∈ m, q a = true) {a : α} (hp : p a = false) (hq : q a = false) (r : List α) :
    ((l ++ (m ++ a :: r)).dropWhile p).dropWhile q = a :: r := by
  rw [dropWhile_append hl]
  induction m with
  | nil =>
      rw [List.nil_append, List.dropWhile_cons_of_neg (by rw [hp]; decide),
        List.dropWhile_cons_of_neg (by rw [hq]; decide)]
  | cons b m ih =>
      obtain ⟨hb, hrest⟩ := List.forall_mem_cons.mp hm
      by_cases hpb : p b = true
      · rw [List.cons_append, List.dropWhile_cons_of_pos hpb]
        exact ih hrest
      · rw [List.cons_append, List.dropWhile_cons_of_neg hpb, List.dropWhile_cons_of_pos hb,
          dropWhile_append hrest, List.dropWhile_cons_of_neg (by rw [hq]; decide)]

end Runs

end Printf
