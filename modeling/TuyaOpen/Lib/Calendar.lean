import Mathlib.Algebra.BigOperators.Group.Finset.Basic
import Mathlib.Algebra.Order.BigOperators.Group.Finset
import Mathlib.Algebra.Order.Group.Nat
import Mathlib.Logic.Function.Iterate
import Mathlib.Tactic.IntervalCases

/-!
# The Gregorian calendar

Years and months are segments of days.  The rule of leap years is taken back before its
introduction, too.  A date is one of the days its month has; each but the first is the day after
another, and so has a number.
-/

/-!
## Segments

Segments of given lengths are laid out one behind another.  A number has one place in them: a
segment, and an offset below its length.
-/

namespace Segments

variable (len : ℕ → ℕ)

/-- Where the segment `i` begins. -/
def start (i : ℕ) : ℕ := ∑ j ∈ Finset.range i, len j

@[simp] theorem start_zero : start len 0 = 0 := rfl

theorem start_succ (i : ℕ) : start len (i + 1) = start len i + len i :=
  Finset.sum_range_succ len i

variable {len}

theorem start_mono {i j : ℕ} (hij : i ≤ j) : start len i ≤ start len j :=
  Finset.sum_le_sum_of_subset (Finset.range_mono hij)

/-- What lies in a segment lies before the segments behind it. -/
theorem add_lt_start {i j r : ℕ} (hr : r < len i) (hij : i < j) :
    start len i + r < start len j := by
  have hle : start len (i + 1) ≤ start len j := start_mono hij
  rw [start_succ] at hle
  omega

theorem place_unique {i j r s : ℕ} (hr : r < len i) (hs : s < len j)
    (h : start len i + r = start len j + s) : i = j ∧ r = s := by
  rcases lt_trichotomy i j with hij | rfl | hji
  · have hlt : start len i + r < start len j := add_lt_start hr hij
    omega
  · exact ⟨rfl, by omega⟩
  · have hlt : start len j + s < start len i := add_lt_start hs hji
    omega

end Segments

/-! ## Leap years and dates -/

namespace Calendar

open Segments

def IsLeap (year : ℕ) : Prop := year % 4 = 0 ∧ (year % 100 = 0 → year % 400 = 0)

instance (year : ℕ) : Decidable (IsLeap year) :=
  inferInstanceAs (Decidable (_ ∧ _))

/-- The months are counted from 0. -/
def daysInMonth (year month : ℕ) : ℕ :=
  if month = 1 then if IsLeap year then 29 else 28
  else if month = 3 ∨ month = 5 ∨ month = 8 ∨ month = 10 then 30 else 31

def daysInYear (year : ℕ) : ℕ := start (daysInMonth year) 12

theorem daysInYear_eq (year : ℕ) : daysInYear year = if IsLeap year then 366 else 365 := by
  by_cases hleap : IsLeap year
  · simp [daysInYear, start, Finset.sum_range_succ, daysInMonth, hleap]
  · simp [daysInYear, start, Finset.sum_range_succ, daysInMonth, hleap]

theorem daysInMonth_pos (year month : ℕ) : 0 < daysInMonth year month := by
  unfold daysInMonth
  split_ifs <;> omega

theorem daysInMonth_le (year month : ℕ) : daysInMonth year month ≤ 31 := by
  unfold daysInMonth
  split_ifs <;> omega

@[ext] structure Date where
  year : ℕ
  month : ℕ
  /-- Counted from 1. -/
  day : ℕ
  month_lt : month < 12
  day_pos : 0 < day
  day_le : day ≤ daysInMonth year month

namespace Date

/-- The day after. -/
def next (d : Date) : Date :=
  if hday : d.day < daysInMonth d.year d.month then
    { d with day := d.day + 1, day_pos := d.day.succ_pos, day_le := hday }
  else if hmonth : d.month + 1 < 12 then
    ⟨d.year, d.month + 1, 1, hmonth, one_pos, daysInMonth_pos _ _⟩
  else ⟨d.year + 1, 0, 1, by omega, one_pos, daysInMonth_pos _ _⟩

/-- How many days of its year are before a date. -/
def dayOfYear (d : Date) : ℕ := start (daysInMonth d.year) d.month + (d.day - 1)

/-- How many days are before a date, from the beginning of the year 0. -/
def number (d : Date) : ℕ := start daysInYear d.year + d.dayOfYear

theorem number_of_first {d : Date} (hmonth : d.month = 0) (hday : d.day = 1) :
    d.number = start daysInYear d.year := by
  rw [number, dayOfYear, hmonth, hday, start_zero]
  rfl

theorem dayOfYear_lt (d : Date) : d.dayOfYear < daysInYear d.year := by
  have hday : d.day - 1 < daysInMonth d.year d.month := by
    have := d.day_pos
    have := d.day_le
    omega
  exact add_lt_start hday d.month_lt

theorem number_injective : Function.Injective number := by
  intro d e h
  obtain ⟨hyear, hrest⟩ := place_unique d.dayOfYear_lt e.dayOfYear_lt h
  obtain ⟨hmonth, hday⟩ : d.month = e.month ∧ d.day - 1 = e.day - 1 := by
    have hd := d.day_pos
    have hd' := d.day_le
    have he := e.day_pos
    have he' := e.day_le
    rw [← hyear] at he'
    unfold dayOfYear at hrest
    rw [← hyear] at hrest
    exact place_unique (by omega) (by omega) hrest
  have hd := d.day_pos
  have he := e.day_pos
  exact Date.ext hyear hmonth (by omega)

theorem number_next (d : Date) : d.next.number = d.number + 1 := by
  have hpos := d.day_pos
  have hle := d.day_le
  unfold next
  split_ifs with hday hmonth
  · simp only [number, dayOfYear]
    omega
  · have hsucc := start_succ (daysInMonth d.year) d.month
    simp only [number, dayOfYear]
    omega
  · have hlast : d.month + 1 = 12 := by
      have := d.month_lt
      omega
    have hmonths := start_succ (daysInMonth d.year) d.month
    have hyears := start_succ daysInYear d.year
    rw [hlast] at hmonths
    simp only [number, dayOfYear, daysInYear, start_zero] at hyears ⊢
    omega

theorem number_iterate_next (d : Date) (n : ℕ) : (next^[n] d).number = d.number + n := by
  induction n with
  | zero => rfl
  | succ n ih =>
      rw [Function.iterate_succ_apply', number_next, ih]
      rfl

/-- A date is known by its number. -/
theorem eq_iterate_next {d e : Date} {n : ℕ} (h : e.number = d.number + n) : e = next^[n] d :=
  number_injective (h.trans (number_iterate_next d n).symm)

end Date

/-! ## Weekdays -/

/-- The leap years behind the year 0, up to a year. -/
def leapsUpTo (year : ℕ) : ℕ := year / 4 - year / 100 + year / 400

theorem leapsUpTo_succ (year : ℕ) :
    leapsUpTo (year + 1) = leapsUpTo year + if IsLeap (year + 1) then 1 else 0 := by
  have hle : year / 100 ≤ year / 4 := by omega
  unfold leapsUpTo IsLeap
  rw [Nat.succ_div, Nat.succ_div, Nat.succ_div]
  simp only [Nat.dvd_iff_mod_eq_zero]
  by_cases h4 : (year + 1) % 4 = 0
  · by_cases h100 : (year + 1) % 100 = 0
    · by_cases h400 : (year + 1) % 400 = 0
      · simp only [h4, h100, h400, imp_self, and_self, if_true]
        omega
      · simp only [h4, h100, h400, true_implies, and_false, if_true, if_false]
        omega
    · have h400 : ¬(year + 1) % 400 = 0 := by omega
      simp only [h4, h100, h400, false_implies, and_self, if_true, if_false]
      omega
  · have h100 : ¬(year + 1) % 100 = 0 := by omega
    have h400 : ¬(year + 1) % 400 = 0 := by omega
    simp only [h4, h100, h400, false_and, if_false, add_zero]

theorem start_daysInYear (year : ℕ) :
    start daysInYear (year + 1) = 365 * (year + 1) + leapsUpTo year + 1 := by
  induction year with
  | zero => decide
  | succ year ih =>
      rw [start_succ, ih, daysInYear_eq, leapsUpTo_succ]
      split_ifs
      · omega
      · omega

/-- What the months before one come to in a week, when January and February are put to the year
before. -/
def monthShift (month : ℕ) : ℕ := [0, 3, 2, 5, 0, 3, 5, 1, 4, 6, 2, 4].getD month 0

theorem start_daysInMonth_mod (year : ℕ) {month : ℕ} (hmonth : month < 12) :
    start (daysInMonth year) month % 7 =
      (monthShift month + if month < 2 then 0 else if IsLeap year then 2 else 1) % 7 := by
  by_cases hleap : IsLeap year
  · interval_cases month <;> simp [start, Finset.sum_range_succ, daysInMonth, monthShift, hleap]
  · interval_cases month <;> simp [start, Finset.sum_range_succ, daysInMonth, monthShift, hleap]

/-- The weekday of a date, with 0 for a Sunday. -/
def Date.weekday (d : Date) : ℕ := (d.number + 6) % 7

theorem Date.weekday_iterate_next (d : Date) (n : ℕ) :
    (next^[n] d).weekday = (d.weekday + n) % 7 := by
  unfold weekday
  rw [number_iterate_next]
  omega

/-- The congruence for the weekday, with `y` the year to which the month is put. -/
theorem Date.weekday_eq (d : Date) (hyear : 0 < d.year) {y : ℕ}
    (hy : y = if d.month < 2 then d.year - 1 else d.year) :
    d.weekday = (y + leapsUpTo y + monthShift d.month + d.day) % 7 := by
  obtain ⟨year, hsucc⟩ : ∃ before, d.year = before + 1 := ⟨d.year - 1, by omega⟩
  have hmonths := start_daysInMonth_mod d.year d.month_lt
  have hleaps := leapsUpTo_succ year
  have hday := d.day_pos
  simp only [weekday, number, dayOfYear]
  rw [hsucc] at hmonths hy ⊢
  rw [start_daysInYear]
  split_ifs at hy hmonths hleaps <;> subst hy <;> omega

end Calendar
