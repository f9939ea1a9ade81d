import TuyaOpen.Tal.Clock
import TuyaOpen.Tal.Time

/-!
# Local time

`tal_time_get_local_time_custom`: to a time the offset of the time zone is added, and an hour in
summer.
-/

namespace TuyaOpen.Tal

/-- `SUM_ZONE_S`. -/
structure SumZone where
  posixMin : ℕ
  posixMax : ℕ
  deriving DecidableEq

/-- `SUM_ZONE_TAB_LMT`. -/
def sumZoneTabLmt : ℕ := 6

/-- The statics of the clock, `s_time_tz` and the first `cnt` entries of `s_time_sz_tbl`. -/
structure LocalTime where
  clock : TimeSystem
  tz : ℤ
  zone : List SumZone
  zone_le : zone.length ≤ sumZoneTabLmt

namespace LocalTime

/-- `tal_time_set_sum_zone_tbl`. -/
def setSumZoneTbl (s : LocalTime) (zone : List SumZone) : LocalTime where
  clock := s.clock
  tz := s.tz
  zone := zone.take sumZoneTabLmt
  zone_le := List.length_take_le _ _

/-- `tal_time_is_in_sum_zone`. -/
def isInSumZone (s : LocalTime) (time : ℕ) : Bool :=
  s.zone.any fun zone ↦ decide (zone.posixMin ≤ time) && decide (time ≤ zone.posixMax)

/-- `__is_in_sum_zone`, which reads the clock twice. -/
def isInSumZoneNow (s : LocalTime) (wait again : ℕ) : Bool :=
  let read := (s.clock.wait wait).getPosix
  if read.2 > (read.1.wait again).getPosix.2 then false else s.isInSumZone read.2

/-- `tal_time_get_local_time_custom`, with the milliseconds before each reading of the clock. -/
def getLocalTimeCustom (s : LocalTime) (inTime first wait again : ℕ) : Option PosixTm :=
  let (s, localTime) :=
    if inTime = 0 then
      let (clock, time) := (s.clock.wait first).getPosix
      ({ s with clock := clock }, timeT (time + s.tz))
    else (s, timeT (inTime + s.tz))
  let localTime := if s.isInSumZoneNow wait again then timeT (localTime + secPerHour) else localTime
  gmtime localTime

/-- The local time of an instant. -/
def localAt (s : LocalTime) (inTime : ℕ) : Option PosixTm :=
  gmtime (timeT (inTime + s.tz + if s.isInSumZone inTime then (secPerHour : ℤ) else 0))

/-- The clock is in summer: it was when it was read, and had not gone back when it was read
again. -/
def SummerNow (s : LocalTime) (wait again : ℕ) : Prop :=
  s.isInSumZone (s.clock.wait wait).getPosix.2 = true ∧
    (s.clock.wait wait).getPosix.2 ≤ ((s.clock.wait wait).getPosix.1.wait again).getPosix.2

theorem isInSumZoneNow_iff (s : LocalTime) (wait again : ℕ) :
    s.isInSumZoneNow wait again = true ↔ s.SummerNow wait again := by
  unfold isInSumZoneNow SummerNow
  dsimp only
  split_ifs with hback
  · exact iff_of_false (by decide) fun h ↦ absurd h.2 (not_le.mpr hback)
  · exact (and_iff_left (not_lt.mp hback)).symm

theorem getLocalTimeCustom_eq (s : LocalTime) {inTime : ℕ} (htime : inTime ≠ 0)
    (first wait again : ℕ) :
    s.getLocalTimeCustom inTime first wait again =
      gmtime (timeT (inTime + s.tz +
        if s.isInSumZoneNow wait again then (secPerHour : ℤ) else 0)) := by
  unfold getLocalTimeCustom
  rw [if_neg htime]
  dsimp only
  cases s.isInSumZoneNow wait again with
  | false => rw [if_neg Bool.false_ne_true, if_neg Bool.false_ne_true, add_zero]
  | true => rw [if_pos rfl, if_pos rfl, timeT_add]

theorem gmtime_hour_iff (x : ℤ) (a b : Bool) :
    gmtime (timeT (x + if a then (secPerHour : ℤ) else 0)) =
        gmtime (timeT (x + if b then (secPerHour : ℤ) else 0)) ↔ a = b := by
  refine ⟨fun h ↦ ?_, fun h ↦ by rw [h]⟩
  have htime := gmtime_injective (timeT_lt _) (timeT_lt _) h
  have hhour : timeT (x + (secPerHour : ℤ)) ≠ timeT (x + 0) := by
    unfold timeT secPerHour
    omega
  cases a with
  | false =>
      cases b with
      | false => rfl
      | true => exact (hhour htime.symm).elim
  | true =>
      cases b with
      | false => exact (hhour htime).elim
      | true => rfl

/-- The local time is that of the instant if and only if the clock and the instant are both in
summer or both not; and two clocks give the same if and only if both or none is in summer. -/
theorem local_time_iff (s : LocalTime) {inTime : ℕ} (htime : inTime ≠ 0) (first wait again : ℕ) :
    (s.getLocalTimeCustom inTime first wait again = s.localAt inTime ↔
        (s.SummerNow wait again ↔ s.isInSumZone inTime = true)) ∧
      ∀ (clock : TimeSystem) (first' wait' again' : ℕ),
        (s.getLocalTimeCustom inTime first wait again =
            { s with clock := clock }.getLocalTimeCustom inTime first' wait' again' ↔
          (s.SummerNow wait again ↔ { s with clock := clock }.SummerNow wait' again')) := by
  refine ⟨?_, fun clock first' wait' again' ↦ ?_⟩
  · rw [getLocalTimeCustom_eq s htime, localAt, gmtime_hour_iff, Bool.eq_iff_iff,
      isInSumZoneNow_iff]
  · rw [getLocalTimeCustom_eq s htime, getLocalTimeCustom_eq _ htime, gmtime_hour_iff,
      Bool.eq_iff_iff, isInSumZoneNow_iff, isInSumZoneNow_iff]

/-- Central Europe in the summer of 2024; the clock is set to a second. -/
def centralEurope (now : ℕ) : LocalTime where
  clock := (TimeSystem.init 0).setPosix now 1
  tz := 3600
  zone := [⟨1711846800, 1729990800⟩]
  zone_le := by decide

/-- In January, noon of New Year's Day is one o'clock. -/
theorem local_time_iff_january :
    (centralEurope 1705000000).getLocalTimeCustom 1704110400 0 0 0 =
      (centralEurope 1705000000).localAt 1704110400 :=
  (local_time_iff (centralEurope 1705000000) (by decide) 0 0 0).1.mpr
    (iff_of_false (fun h ↦ absurd h.1 (by decide)) (by decide))

/-- In July it is two o'clock. -/
theorem new_year_in_summer :
    (centralEurope 1719792000).localAt 1704110400 = some ⟨0, 0, 13, 1, 0, 124, 1⟩ ∧
      (centralEurope 1719792000).getLocalTimeCustom 1704110400 0 0 0 =
        some ⟨0, 0, 14, 1, 0, 124, 1⟩ ∧
      (centralEurope 1705000000).getLocalTimeCustom 1704110400 0 0 0 =
        some ⟨0, 0, 13, 1, 0, 124, 1⟩ := by
  refine ⟨?_, ?_, ?_⟩
  · decide +kernel
  · decide +kernel
  · decide +kernel

end LocalTime

end TuyaOpen.Tal
