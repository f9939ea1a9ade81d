import Mathlib.Algebra.Order.Ring.Int
import Mathlib.Data.Nat.Notation
import Mathlib.Tactic.SplitIfs
import TuyaOpen.Lib.Calendar

/-!
# Times and dates

`tal_time_serivce.c`: a `TIME_T` counts the seconds from 1970 on in 32 bits without a sign.  A
`POSIX_TM_S` is a date with its time of day, in fields with a sign.
-/

namespace TuyaOpen.Tal

/-- `POSIX_TM_S`. -/
structure PosixTm where
  sec : ℤ
  min : ℤ
  hour : ℤ
  mday : ℤ
  mon : ℤ
  /-- The number of years since 1900. -/
  year : ℤ
  /-- From 0 for a Sunday. -/
  wday : ℤ
  deriving DecidableEq

def secPerDay : ℕ := 86400

def secPerHour : ℕ := 3600

/-- `__is_leap`. -/
def isLeap (yr : ℤ) : Bool :=
  if yr % 100 = 0 then decide (yr % 400 = 0) else decide (yr % 4 = 0)

/-- `SEC_PER_YR`, at the result of `__is_leap`. -/
def secPerYr (leapyr : Bool) : ℕ := if leapyr then 31622400 else 31536000

/-- `SEC_PER_MT`, at the result of `__is_leap`. -/
def secPerMt (leapyr : Bool) : List ℕ :=
  if leapyr then
    [2678400, 2505600, 2678400, 2592000, 2678400, 2592000, 2678400, 2678400, 2592000, 2678400,
      2592000, 2678400]
  else
    [2678400, 2419200, 2678400, 2592000, 2678400, 2592000, 2678400, 2678400, 2592000, 2678400,
      2592000, 2678400]

theorem secPerYr_pos (leapyr : Bool) : 0 < secPerYr leapyr := by
  unfold secPerYr
  split_ifs
  · decide
  · decide

@[simp] theorem length_secPerMt (leapyr : Bool) : (secPerMt leapyr).length = 12 := by
  cases leapyr <;> rfl

/-- `__is_valid_date_time`, with `true` for 0 and `false` for -1. -/
def isValidDateTime (tm : PosixTm) : Bool :=
  if tm.sec > 59 then false
  else if tm.min > 59 then false
  else if tm.hour > 23 then false
  else if tm.year + 1900 < 1970 ∨ tm.year + 1900 > 2111 then false
  else if tm.mon ≥ 12 then false
  else if tm.mon = 1 ∧ tm.mday > (if isLeap (tm.year + 1900) then 29 else 28) then false
  else if (tm.mon = 3 ∨ tm.mon = 5 ∨ tm.mon = 8 ∨ tm.mon = 10) ∧ tm.mday > 30 then false
  else if tm.mday < 1 ∨ tm.mday > 31 then false
  else true

/-- `__get_day_of_week`, with parameters of 8, 8 and 16 bits. -/
def getDayOfWeek (month day year : ℕ) : ℕ :=
  let month := month % 2 ^ 8
  let day := day % 2 ^ 8
  let year := (year % 2 ^ 16 + 2 ^ 16 - if month < 3 then 1 else 0) % 2 ^ 16
  (year + year / 4 - year / 100 + year / 400 +
    [0, 3, 2, 5, 0, 3, 5, 1, 4, 6, 2, 4].getD (month - 1) 0 + day) % 7

/-! ## `tal_time_mktime` -/

/-- What an expression is in a `TIME_T`. -/
def timeT (x : ℤ) : ℕ := (x % 2 ^ 32).toNat

/-- The loop from 1970 on, over `years` of them. -/
def mktimeYears (years : ℕ) : ℕ :=
  (List.range years).foldl (fun (time i : ℕ) ↦ timeT (time + secPerYr (isLeap (1970 + i)))) 0

/-- The loop over months; `none` is a read behind the table. -/
def mktimeMonths (leapyr : Bool) (time months : ℕ) : Option ℕ :=
  (List.range months).foldlM (fun (time i : ℕ) ↦
    (secPerMt leapyr)[i]?.map fun (s : ℕ) ↦ timeT (time + s)) time

/-- `tal_time_mktime`. -/
def mktime (tm : PosixTm) : Option ℕ := do
  let time := mktimeYears (tm.year + 1900 - 1970).toNat
  let time ← mktimeMonths (isLeap (tm.year + 1900)) time tm.mon.toNat
  let time := timeT (time + (tm.mday - 1) * secPerDay)
  let time := timeT (time + tm.hour * secPerHour)
  let time := timeT (time + tm.min * 60)
  return timeT (time + tm.sec)

/-! ## `tal_time_gmtime_r` -/

/-- The loop over years. -/
def gmtimeYears (ltm year : ℕ) : ℕ × ℕ :=
  if ltm < secPerYr (isLeap year) then (ltm, year)
  else gmtimeYears (ltm - secPerYr (isLeap year)) (year + 1)
termination_by ltm
decreasing_by
  have := secPerYr_pos (isLeap year)
  omega

/-- The loop over months; `none` is a read behind the table. -/
def gmtimeMonths (leapyr : Bool) (ltm mon : ℕ) : Option (ℕ × ℕ) :=
  if h : mon < (secPerMt leapyr).length then
    if ltm < (secPerMt leapyr)[mon] then some (ltm, mon)
    else gmtimeMonths leapyr (ltm - (secPerMt leapyr)[mon]) (mon + 1)
  else none
termination_by 12 - mon
decreasing_by
  rw [length_secPerMt] at h
  omega

/-- `tal_time_gmtime_r`. -/
def gmtime (tm : ℕ) : Option PosixTm := do
  let (ltm, year) := gmtimeYears tm 1970
  let (ltm, mon) ← gmtimeMonths (isLeap year) ltm 0
  let mday := ltm / secPerDay + 1
  let ltm := ltm % secPerDay
  let hour := ltm / secPerHour
  let ltm := ltm % secPerHour
  return {
    sec := (ltm % 60 : ℕ)
    min := (ltm / 60 : ℕ)
    hour := hour
    mday := mday
    mon := mon
    year := (year : ℤ) - 1900
    wday := getDayOfWeek (mon + 1) mday year }

/-!
## Times in the calendar

`tal_time_gmtime_r` and `tal_time_mktime` take away and add up the lengths of years and months,
and so count the days of the Gregorian calendar.
-/

open Calendar Segments

/-- Thursday, the first of January 1970. -/
def epoch : Date := ⟨1970, 0, 1, by decide, Nat.one_pos, by decide⟩

theorem start_1970 : start daysInYear 1970 = 719528 := by
  have hyears : start daysInYear 1970 = 365 * 1970 + leapsUpTo 1969 + 1 := start_daysInYear 1969
  have hleaps : leapsUpTo 1969 = 477 := by decide
  omega

theorem epoch_number : epoch.number = 719528 :=
  (Date.number_of_first rfl rfl).trans start_1970

theorem epoch_weekday : epoch.weekday = 4 := by
  rw [Date.weekday, epoch_number]

/-- The fields of a second of a day. -/
def PosixTm.ofDate (d : Date) (second : ℕ) : PosixTm where
  sec := (second % 60 : ℕ)
  min := (second / 60 % 60 : ℕ)
  hour := (second / 3600 : ℕ)
  mday := d.day
  mon := d.month
  year := (d.year : ℤ) - 1900
  wday := d.weekday

/-- The date, the time and the weekday in UTC: the days since the epoch are counted on from it. -/
def utc (t : ℕ) : PosixTm := .ofDate (Date.next^[t / 86400] epoch) (t % 86400)

theorem utc_wday (t : ℕ) : (utc t).wday = ((4 + t / 86400) % 7 : ℕ) := by
  unfold utc PosixTm.ofDate
  rw [Date.weekday_iterate_next, epoch_weekday]

/-! ## The tables -/

theorem isLeap_natCast (year : ℕ) : isLeap year = decide (IsLeap year) := by
  rw [Bool.eq_iff_iff, decide_eq_true_iff]
  unfold isLeap IsLeap
  by_cases h100 : year % 100 = 0
  · have h100' : (year : ℤ) % 100 = 0 := by omega
    have h4 : year % 4 = 0 := by omega
    rw [if_pos h100', decide_eq_true_iff]
    simp only [h4, h100, true_implies, true_and]
    omega
  · have h100' : ¬(year : ℤ) % 100 = 0 := by omega
    rw [if_neg h100', decide_eq_true_iff]
    simp only [h100, false_implies, and_true]
    omega

theorem secPerYr_isLeap (year : ℕ) : secPerYr (isLeap year) = 86400 * daysInYear year := by
  rw [isLeap_natCast, secPerYr, daysInYear_eq]
  by_cases hleap : IsLeap year
  · simp only [hleap, decide_true, if_true]
  · simp only [hleap, decide_false, Bool.false_eq_true, if_false]

theorem getElem_secPerMt (year : ℕ) {month : ℕ} (hmonth : month < (secPerMt (isLeap year)).length) :
    (secPerMt (isLeap year))[month] = 86400 * daysInMonth year month := by
  have hlt : month < 12 := by rwa [length_secPerMt] at hmonth
  have hleap : isLeap year = decide (IsLeap year) := isLeap_natCast year
  simp only [hleap]
  by_cases hyear : IsLeap year
  · interval_cases month <;> simp [secPerMt, daysInMonth, hyear]
  · interval_cases month <;> simp [secPerMt, daysInMonth, hyear]

/-! ## From the seconds to the date -/

theorem gmtimeYears_spec (ltm year : ℕ) :
    86400 * start daysInYear year + ltm =
        86400 * start daysInYear (gmtimeYears ltm year).2 + (gmtimeYears ltm year).1 ∧
      (gmtimeYears ltm year).1 < 86400 * daysInYear (gmtimeYears ltm year).2 ∧
      year ≤ (gmtimeYears ltm year).2 := by
  fun_induction gmtimeYears ltm year with
  | case1 ltm year h =>
      rw [secPerYr_isLeap] at h
      exact ⟨rfl, h, le_rfl⟩
  | case2 ltm year h ih =>
      obtain ⟨hsum, hlt, hle⟩ := ih
      rw [secPerYr_isLeap] at h
      rw [start_succ, secPerYr_isLeap] at hsum
      refine ⟨?_, ?_, by omega⟩
      · rw [secPerYr_isLeap]
        omega
      · rw [secPerYr_isLeap]
        rwa [secPerYr_isLeap] at hlt

theorem gmtimeMonths_spec (year ltm month : ℕ)
    (h : 86400 * start (daysInMonth year) month + ltm < 86400 * daysInYear year) :
    ∃ ltm' month', gmtimeMonths (isLeap year) ltm month = some (ltm', month') ∧
      86400 * start (daysInMonth year) month + ltm =
        86400 * start (daysInMonth year) month' + ltm' ∧
      ltm' < 86400 * daysInMonth year month' ∧ month' < 12 := by
  fun_induction gmtimeMonths (isLeap year) ltm month with
  | case1 ltm month hmonth hlt =>
      rw [getElem_secPerMt] at hlt
      rw [length_secPerMt] at hmonth
      exact ⟨ltm, month, rfl, rfl, hlt, hmonth⟩
  | case2 ltm month hmonth hge ih =>
      rw [getElem_secPerMt] at hge ih
      rw [start_succ] at ih
      obtain ⟨ltm', month', hloop, hsum, hlt⟩ := ih (by omega)
      rw [getElem_secPerMt]
      exact ⟨ltm', month', hloop, by omega, hlt⟩
  | case3 ltm month hmonth =>
      rw [length_secPerMt] at hmonth
      have hle : start (daysInMonth year) 12 ≤ start (daysInMonth year) month :=
        start_mono (by omega)
      unfold daysInYear at h
      omega

theorem getDayOfWeek_eq (d : Date) (hpos : 0 < d.year) (hlt : d.year < 2 ^ 16) :
    getDayOfWeek (d.month + 1) d.day d.year = d.weekday := by
  have hmonth := d.month_lt
  have hday := d.day_le.trans (daysInMonth_le _ _)
  obtain ⟨y, hy⟩ : ∃ y, y = if d.month < 2 then d.year - 1 else d.year := ⟨_, rfl⟩
  have hshift : (d.year % 2 ^ 16 + 2 ^ 16 - if (d.month + 1) % 2 ^ 8 < 3 then 1 else 0) % 2 ^ 16 =
      y := by
    split_ifs at hy ⊢
    · omega
    · omega
    · omega
    · omega
  have hmod : (d.month + 1) % 2 ^ 8 - 1 = d.month := by omega
  have hdays : d.day % 2 ^ 8 = d.day := by omega
  rw [d.weekday_eq hpos hy]
  have hle : y / 100 ≤ y / 4 := by omega
  simp only [getDayOfWeek, hshift, hmod, hdays, leapsUpTo, monthShift]
  congr 1
  omega

theorem gmtime_eq {t : ℕ} (ht : t < 2 ^ 32) : gmtime t = some (utc t) := by
  obtain ⟨hyears, hinYear, hfirst⟩ := gmtimeYears_spec t 1970
  rcases hloop : gmtimeYears t 1970 with ⟨ltm, year⟩
  simp only [hloop] at hyears hinYear hfirst
  obtain ⟨ltm', month, hmonths, hsum, hinMonth, hlt⟩ :=
    gmtimeMonths_spec year ltm 0 (by simpa using hinYear)
  have hday : ltm' / 86400 < daysInMonth year month := by omega
  obtain ⟨d, hd⟩ : ∃ d : Date, d = ⟨year, month, ltm' / 86400 + 1, hlt, by omega, hday⟩ := ⟨_, rfl⟩
  have hnumber : d.number = epoch.number + t / 86400 := by
    rw [start_zero] at hsum
    rw [epoch_number, ← start_1970, hd]
    simp only [Date.number, Date.dayOfYear]
    omega
  have hdate : d = Date.next^[t / 86400] epoch := Date.eq_iterate_next hnumber
  have hsecond : ltm' % 86400 = t % 86400 := by omega
  have hyear : year < 2 ^ 16 := by
    by_contra hlate
    have hmono : start daysInYear 2107 ≤ start daysInYear year := start_mono (by omega)
    have hstart : start daysInYear 2107 = 365 * 2107 + leapsUpTo 2106 + 1 := start_daysInYear 2106
    have hleaps : leapsUpTo 2106 = 510 := by decide
    have h1970 := start_1970
    omega
  have hweekday : getDayOfWeek (month + 1) (ltm' / 86400 + 1) year = d.weekday := by
    have heq := getDayOfWeek_eq d (by rw [hd]; exact (by omega : 0 < year))
      (by rw [hd]; exact hyear)
    rwa [hd] at heq ⊢
  unfold gmtime
  rw [hloop]
  simp only [hmonths, secPerDay, secPerHour, Option.bind_eq_bind, Option.bind_some, hweekday]
  rw [utc, ← hdate, ← hsecond, PosixTm.ofDate, hd]
  have hmin : ltm' % 86400 % 3600 / 60 = ltm' % 86400 / 60 % 60 := by omega
  have hsec : ltm' % 86400 % 3600 % 60 = ltm' % 86400 % 60 := by omega
  rw [hmin, hsec]
  rfl

/-! ## From the date to the seconds -/

theorem timeT_add (a b : ℤ) : timeT (timeT a + b) = timeT (a + b) := by
  unfold timeT
  omega

theorem timeT_of_lt {t : ℕ} (ht : t < 2 ^ 32) : timeT t = t := by
  unfold timeT
  omega

theorem timeT_lt (x : ℤ) : timeT x < 2 ^ 32 := by
  unfold timeT
  omega

theorem mktime_lt {tm : PosixTm} {t : ℕ} (h : mktime tm = some t) : t < 2 ^ 32 := by
  unfold mktime at h
  obtain ⟨months, -, hlast⟩ := Option.bind_eq_some_iff.mp h
  rw [← Option.some.inj hlast]
  exact timeT_lt _

theorem mktimeYears_eq (years : ℕ) :
    mktimeYears years = timeT
      (86400 * (start daysInYear (1970 + years) - start daysInYear 1970)) := by
  induction years with
  | zero =>
      rw [add_zero, sub_self, mul_zero]
      rfl
  | succ years ih =>
      have hcast : (1970 : ℤ) + years = (1970 + years : ℕ) := by omega
      have hsum : start daysInYear (1970 + (years + 1)) =
          start daysInYear (1970 + years) + daysInYear (1970 + years) := start_succ daysInYear _
      have hseconds : 86400 * ((start daysInYear (1970 + years) : ℤ) - start daysInYear 1970) +
          (86400 * daysInYear (1970 + years) : ℕ) =
            86400 * ((start daysInYear (1970 + (years + 1)) : ℤ) - start daysInYear 1970) := by
              omega
      unfold mktimeYears at ih ⊢
      rw [List.range_succ, List.foldl_append, ih, List.foldl_cons, List.foldl_nil, timeT_add, hcast,
        secPerYr_isLeap, hseconds]

theorem mktimeMonths_eq (year : ℕ) (time : ℤ) {months : ℕ} (hmonths : months ≤ 12) :
    mktimeMonths (isLeap year) (timeT time) months =
      some (timeT (time + 86400 * start (daysInMonth year) months)) := by
  induction months with
  | zero =>
      rw [start_zero, Nat.cast_zero, mul_zero, add_zero]
      rfl
  | succ months ih =>
      have hget : (secPerMt (isLeap year))[months]? = some (86400 * daysInMonth year months) := by
        have hlt : months < (secPerMt (isLeap year)).length := by
          rw [length_secPerMt]
          omega
        rw [List.getElem?_eq_getElem hlt, getElem_secPerMt]
      unfold mktimeMonths at ih ⊢
      rw [List.range_succ, List.foldlM_append, ih (by omega), start_succ]
      simp only [Option.bind_eq_bind, Option.bind_some, List.foldlM_cons, List.foldlM_nil, hget,
        Option.map_some, timeT_add]
      congr 2
      push_cast
      omega

theorem mktime_eq {tm : PosixTm} {year month : ℕ} (hyear : tm.year + 1900 = year)
    (hfirst : 1970 ≤ year) (hmonth : tm.mon = month) (hle : month ≤ 12) :
    mktime tm = some (timeT (86400 * (start daysInYear year + start (daysInMonth year) month +
      tm.mday - 1 - 719528) + tm.hour * 3600 + tm.min * 60 + tm.sec)) := by
  have hyears : (tm.year + 1900 - 1970).toNat = year - 1970 := by omega
  have hmonths : tm.mon.toNat = month := by omega
  have hstart : 1970 + (year - 1970) = year := by omega
  unfold mktime
  have hseconds : 86400 * ((start daysInYear year : ℤ) - 719528) +
      86400 * start (daysInMonth year) month + (tm.mday - 1) * 86400 =
        86400 * (start daysInYear year + start (daysInMonth year) month +
          tm.mday - 1 - 719528) := by
    omega
  rw [hyears, hmonths, mktimeYears_eq, hstart, start_1970, hyear]
  simp only [mktimeMonths_eq year _ hle, Option.bind_eq_bind, Option.bind_some, Option.pure_def,
    secPerDay, secPerHour, Nat.cast_ofNat]
  rw [timeT_add (_ + 86400 * _), hseconds, timeT_add (86400 * _), timeT_add (_ + tm.hour * 3600),
    timeT_add (_ + tm.min * 60)]

theorem mktime_ofDate (d : Date) (hfirst : 1970 ≤ d.year) (second : ℕ) :
    mktime (.ofDate d second) = some (timeT (86400 * (d.number - 719528) + second)) := by
  have hpos := d.day_pos
  have hlt := d.month_lt
  have hyear : (PosixTm.ofDate d second).year + 1900 = d.year := by
    simp only [PosixTm.ofDate]
    omega
  rw [mktime_eq hyear hfirst rfl hlt.le]
  simp only [PosixTm.ofDate, Date.number, Date.dayOfYear]
  congr 2
  omega

theorem epoch_le_iterate_next (days : ℕ) : 1970 ≤ (Date.next^[days] epoch).year := by
  by_contra hbefore
  have hnumber := Date.number_iterate_next epoch days
  have hlt := (Date.next^[days] epoch).dayOfYear_lt
  have hstart := add_lt_start hlt (not_le.mp hbefore)
  rw [start_1970] at hstart
  rw [epoch_number] at hnumber
  unfold Date.number at hnumber
  omega

theorem mktime_utc {t : ℕ} (ht : t < 2 ^ 32) : mktime (utc t) = some t := by
  have hnumber := Date.number_iterate_next epoch (t / 86400)
  rw [epoch_number] at hnumber
  have htime : (86400 * (((Date.next^[t / 86400] epoch).number : ℤ) - 719528) +
      (t % 86400 : ℕ)) = t := by omega
  rw [utc, mktime_ofDate _ (epoch_le_iterate_next _), htime, timeT_of_lt ht]

theorem gmtime_injective {t t' : ℕ} (ht : t < 2 ^ 32) (ht' : t' < 2 ^ 32)
    (h : gmtime t = gmtime t') : t = t' := by
  rw [gmtime_eq ht, gmtime_eq ht', Option.some.injEq] at h
  have hback := mktime_utc ht
  rw [h, mktime_utc ht', Option.some.injEq] at hback
  exact hback.symm

/-! ## Accepted dates -/

theorem isValidDateTime_iff (tm : PosixTm) :
    isValidDateTime tm = true ↔
      tm.sec ≤ 59 ∧ tm.min ≤ 59 ∧ tm.hour ≤ 23 ∧ 1970 ≤ tm.year + 1900 ∧ tm.year + 1900 ≤ 2111 ∧
        tm.mon < 12 ∧ (tm.mon = 1 → tm.mday ≤ if isLeap (tm.year + 1900) then 29 else 28) ∧
        (tm.mon = 3 ∨ tm.mon = 5 ∨ tm.mon = 8 ∨ tm.mon = 10 → tm.mday ≤ 30) ∧
        1 ≤ tm.mday ∧ tm.mday ≤ 31 := by
  unfold isValidDateTime
  generalize (if isLeap (tm.year + 1900) then 29 else 28 : ℤ) = february
  split_ifs
  all_goals
    simp only [false_iff, true_iff]
    omega

/-- Both have the same date and time. -/
structure PosixTm.SameTime (a b : PosixTm) : Prop where
  year : a.year = b.year
  mon : a.mon = b.mon
  mday : a.mday = b.mday
  hour : a.hour = b.hour
  min : a.min = b.min
  sec : a.sec = b.sec

/-- A date with a time of day. -/
structure PosixTm.Proper (tm : PosixTm) : Prop where
  mon : 0 ≤ tm.mon
  hour : 0 ≤ tm.hour
  min : 0 ≤ tm.min
  sec : 0 ≤ tm.sec

theorem ofDate_proper (d : Date) (second : ℕ) : (PosixTm.ofDate d second).Proper :=
  ⟨Int.natCast_nonneg _, Int.natCast_nonneg _, Int.natCast_nonneg _, Int.natCast_nonneg _⟩

theorem exists_date {tm : PosixTm} (hvalid : isValidDateTime tm = true) (hproper : tm.Proper) :
    ∃ (d : Date) (second : ℕ), second < 86400 ∧ (d.year : ℤ) = tm.year + 1900 ∧
      (PosixTm.ofDate d second).SameTime tm := by
  obtain ⟨hsec, hmin, hhour, hfirst, -, hmon, hfeb, hshort, hday, hlast⟩ :=
    (isValidDateTime_iff tm).mp hvalid
  obtain ⟨hmon', hhour', hmin', hsec'⟩ := hproper
  obtain ⟨year, hyear⟩ := Int.eq_ofNat_of_zero_le (show 0 ≤ tm.year + 1900 by omega)
  obtain ⟨month, hmonth⟩ := Int.eq_ofNat_of_zero_le hmon'
  obtain ⟨day, hmday⟩ := Int.eq_ofNat_of_zero_le (show 0 ≤ tm.mday by omega)
  obtain ⟨hour, hh⟩ := Int.eq_ofNat_of_zero_le hhour'
  obtain ⟨min, hm⟩ := Int.eq_ofNat_of_zero_le hmin'
  obtain ⟨sec, hs⟩ := Int.eq_ofNat_of_zero_le hsec'
  have hle : day ≤ daysInMonth year month := by
    rw [hyear, isLeap_natCast] at hfeb
    simp only [decide_eq_true_eq] at hfeb
    unfold daysInMonth
    split_ifs at hfeb ⊢ <;> omega
  refine ⟨⟨year, month, day, by omega, by omega, hle⟩, hour * 3600 + min * 60 + sec, by omega,
    hyear.symm, ?_⟩
  constructor
  all_goals
    simp only [PosixTm.ofDate]
    omega

theorem exists_utc_of_year {d : Date} (hfirst : 1970 ≤ d.year) (hlast : d.year ≤ 2105) {second : ℕ}
    (hsecond : second < 86400) :
    ∃ t < 2 ^ 32, mktime (.ofDate d second) = some t ∧ utc t = .ofDate d second := by
  have hyears : start daysInYear 1970 ≤ start daysInYear d.year := start_mono hfirst
  have hinYear : d.number < start daysInYear 2106 :=
    add_lt_start d.dayOfYear_lt (by omega)
  have h2106 : start daysInYear 2106 = 365 * 2106 + leapsUpTo 2105 + 1 := start_daysInYear 2105
  have hleaps : leapsUpTo 2105 = 510 := by decide
  rw [start_1970] at hyears
  have hnumber : 719528 ≤ d.number := by
    unfold Date.number
    omega
  obtain ⟨days, hdays⟩ : ∃ days, d.number = 719528 + days := ⟨d.number - 719528, by omega⟩
  have hlt : 86400 * days + second < 2 ^ 32 := by omega
  have htime : 86400 * ((d.number : ℤ) - 719528) + second = (86400 * days + second : ℕ) := by omega
  have hdate : d = Date.next^[days] epoch := Date.eq_iterate_next (by rw [hdays, epoch_number])
  have hdiv : (86400 * days + second) / 86400 = days := by omega
  have hmod : (86400 * days + second) % 86400 = second := by omega
  refine ⟨86400 * days + second, hlt, ?_, ?_⟩
  · rw [mktime_ofDate d hfirst, htime, timeT_of_lt hlt]
  · rw [utc, hdiv, hmod, ← hdate]

/-- A time on `mktime` and back. -/
def RoundTrips (tm : PosixTm) : Prop :=
  ∃ t tm', mktime tm = some t ∧ gmtime t = some tm' ∧ tm'.SameTime tm

theorem mktime_congr {a b : PosixTm} (h : a.SameTime b) : mktime a = mktime b := by
  unfold mktime
  rw [h.year, h.mon, h.mday, h.hour, h.min, h.sec]

theorem roundTrips_iff {tm : PosixTm} (hvalid : isValidDateTime tm = true)
    (hlast : tm.year + 1900 ≤ 2105) : RoundTrips tm ↔ tm.Proper := by
  constructor
  · rintro ⟨t, tm', hmktime, hgmtime, hsame⟩
    have ht : t < 2 ^ 32 := mktime_lt hmktime
    rw [gmtime_eq ht, Option.some.injEq] at hgmtime
    subst hgmtime
    obtain ⟨hmon, hhour, hmin, hsec⟩ := ofDate_proper (Date.next^[t / 86400] epoch) (t % 86400)
    exact ⟨hsame.mon ▸ hmon, hsame.hour ▸ hhour, hsame.min ▸ hmin, hsame.sec ▸ hsec⟩
  · intro hproper
    obtain ⟨d, second, hsecond, hyear, hsame⟩ := exists_date hvalid hproper
    have hfirst := (isValidDateTime_iff tm).mp hvalid |>.2.2.2.1
    obtain ⟨t, ht, hmktime, hutc⟩ :=
      exists_utc_of_year (d := d) (by omega) (by omega) hsecond
    refine ⟨t, utc t, ?_, gmtime_eq ht, ?_⟩
    · rw [← mktime_congr hsame, hmktime]
    · rwa [hutc]

/-- A time in 32 bits is turned into its date, and back into itself.  An accepted date up to 2105
comes back if and only if month, hour, minute and second are not below zero. -/
theorem calendar_round_trips_iff {t : ℕ} (ht : t < 2 ^ 32) {tm : PosixTm}
    (hvalid : isValidDateTime tm = true) (hlast : tm.year + 1900 ≤ 2105) :
    (∃ date, gmtime t = some date ∧ date = utc t ∧ date.mon < 12 ∧
      date.wday = ((4 + t / 86400) % 7 : ℕ) ∧ mktime date = some t) ∧
      (RoundTrips tm ↔ tm.Proper) := by
  refine ⟨?_, roundTrips_iff hvalid hlast⟩
  refine ⟨utc t, gmtime_eq ht, rfl, ?_, utc_wday t, mktime_utc ht⟩
  exact Int.ofNat_lt.mpr (Date.month_lt _)

/-- The leap day of 2000 at noon, which was a Tuesday. -/
theorem calendar_round_trips_iff_leap_day :
    gmtime 951825600 = some ⟨0, 0, 12, 29, 1, 100, 2⟩ ∧ RoundTrips ⟨0, 0, 12, 29, 1, 100, 2⟩ :=
  ⟨by decide +kernel,
    (calendar_round_trips_iff (t := 951825600) (by decide) (by decide) (by decide)).2.mpr
      ⟨by decide, by decide, by decide, by decide⟩⟩

/-- A second below zero is accepted, and is one of the year before. -/
theorem second_before_new_year :
    isValidDateTime ⟨-1, 0, 0, 1, 0, 100, 6⟩ = true ∧
      mktime ⟨-1, 0, 0, 1, 0, 100, 6⟩ = some 946684799 ∧
        gmtime 946684799 = some ⟨59, 59, 23, 31, 11, 99, 5⟩ ∧
          ¬RoundTrips ⟨-1, 0, 0, 1, 0, 100, 6⟩ := by
  have hmktime : mktime ⟨-1, 0, 0, 1, 0, 100, 6⟩ = some 946684799 := by decide +kernel
  have hgmtime : gmtime 946684799 = some ⟨59, 59, 23, 31, 11, 99, 5⟩ := by decide +kernel
  refine ⟨by decide, hmktime, hgmtime, ?_⟩
  rintro ⟨t, tm, ht, htm, hsame⟩
  rw [hmktime, Option.some.injEq] at ht
  rw [← ht, hgmtime, Option.some.injEq] at htm
  rw [← htm] at hsame
  exact absurd hsame.sec (by decide)

end TuyaOpen.Tal
