import Mathlib.Algebra.Order.Group.Nat
import Mathlib.Data.Int.Notation
import Mathlib.Data.Nat.Notation
import TuyaOpen.Lib.Mealy

/-!
# The wall clock

`tal_time_serivce.c`: the time that was set is kept in seconds, with the value that the counter of
milliseconds had.  The counter has 32 bits.  A reader that finds it below the kept value takes it
for wrapped around once.
-/

namespace TuyaOpen.Tal

/-- The statics of the source, and the count of which the counter has the lower 32 bits. -/
structure TimeSystem where
  now : ℕ
  /-- `s_time_last_ms`. -/
  lastMs : ℕ
  /-- `s_time_cloud_posix`. -/
  cloudPosix : ℕ
  /-- `s_time_cloud_sync`. -/
  cloudSync : Bool
  /-- `s_time_disable_update`. -/
  disableUpdate : Bool
  /-- `last_ms` of `tal_time_get_system_time`. -/
  sysLastMs : ℕ
  /-- `roll_ms` of `tal_time_get_system_time`. -/
  rollMs : ℕ
  deriving DecidableEq

namespace TimeSystem

/-- `tal_system_get_millisecond`. -/
def millisecond (s : TimeSystem) : ℕ := s.now % 2 ^ 32

def wait (s : TimeSystem) (elapsed : ℕ) : TimeSystem := { s with now := s.now + elapsed }

/-- `tal_time_service_init`, of statics that are zero. -/
def init (now : ℕ) : TimeSystem where
  now := now
  lastMs := now % 2 ^ 32
  cloudPosix := 0
  cloudSync := false
  disableUpdate := false
  sysLastMs := 0
  rollMs := 0

/-- `tal_time_config_update`. -/
def configUpdate (s : TimeSystem) (disable : Bool) : TimeSystem :=
  { s with disableUpdate := disable }

/-- `tal_time_set_posix`. -/
def setPosix (s : TimeSystem) (time : ℕ) (updateSource : ℤ) : TimeSystem :=
  if s.disableUpdate then s
  else { s with
    cloudPosix := time
    lastMs := s.millisecond
    cloudSync := if updateSource = 1 then true else s.cloudSync }

/-- What both readers begin with. -/
def recycle (s : TimeSystem) : TimeSystem :=
  if s.lastMs > s.millisecond then { s with
    cloudPosix := (s.cloudPosix + (2 ^ 32 - s.lastMs) / 1000) % 2 ^ 32
    lastMs := 0 }
  else s

/-- `tal_time_get_posix`. -/
def getPosix (s : TimeSystem) : TimeSystem × ℕ :=
  let s := s.recycle
  (s, (s.cloudPosix + (s.millisecond - s.lastMs) / 1000) % 2 ^ 32)

/-- `tal_time_get_posix_ms`. -/
def getPosixMs (s : TimeSystem) : TimeSystem × ℕ :=
  let s := s.recycle
  (s, (s.cloudPosix * 1000 + (s.millisecond - s.lastMs)) % 2 ^ 64)

/-- `tal_time_get_system_time`, with the seconds and the milliseconds; `bits` are those of an
`unsigned long`. -/
def getSystemTime (bits : ℕ) (s : TimeSystem) : TimeSystem × ℕ × ℕ :=
  let rollMs := if s.sysLastMs > s.millisecond then (s.rollMs + 2 ^ 32) % 2 ^ 64 else s.rollMs
  let time := (s.millisecond + rollMs) % 2 ^ 64
  ({ s with rollMs := rollMs, sysLastMs := s.millisecond }, time / 1000 % 2 ^ bits, time % 1000)

end TimeSystem

inductive TimeRead where
  | posix
  | posixMs
  | systemTime
  deriving DecidableEq

/-- A value, with the count at which it was read. -/
inductive TimeReading where
  | posix (now value : ℕ)
  | posixMs (now value : ℕ)
  | systemTime (now sec ms : ℕ)
  deriving DecidableEq

/-- A reader is called, some milliseconds behind the last call. -/
def timeRead (bits : ℕ) (s : TimeSystem) (call : ℕ × TimeRead) : TimeSystem × TimeReading :=
  let s := s.wait call.1
  match call.2 with
  | .posix => (s.getPosix.1, .posix s.now s.getPosix.2)
  | .posixMs => (s.getPosixMs.1, .posixMs s.now s.getPosixMs.2)
  | .systemTime =>
      let (s', sec, ms) := s.getSystemTime bits
      (s', .systemTime s.now sec ms)

/-- The statics after any calls. -/
inductive TimeReachable (bits : ℕ) : TimeSystem → Prop where
  | init (now : ℕ) : TimeReachable bits (.init now)
  | wait {s : TimeSystem} (h : TimeReachable bits s) (elapsed : ℕ) :
      TimeReachable bits (s.wait elapsed)
  | configUpdate {s : TimeSystem} (h : TimeReachable bits s) (disable : Bool) :
      TimeReachable bits (s.configUpdate disable)
  | setPosix {s : TimeSystem} (h : TimeReachable bits s) (time : ℕ) (updateSource : ℤ) :
      TimeReachable bits (s.setPosix time updateSource)
  | read {s : TimeSystem} (h : TimeReachable bits s) (call : ℕ × TimeRead) :
      TimeReachable bits (timeRead bits s call).1

/-!
## The wall clock over wraps of the counter

What the readers return from the time on that was set, however far apart their calls are.
-/

def clockMachine (bits : ℕ) : Mealy TimeSystem (ℕ × TimeRead) TimeReading where
  step := timeRead bits

namespace TimeReading

def posixValue? : TimeReading → Option ℕ
  | posix _ value => some value
  | _ => none

def posixMsValue? : TimeReading → Option ℕ
  | posixMs _ value => some value
  | _ => none

/-- The seconds and the milliseconds, as one number. -/
def systemValue? : TimeReading → Option ℕ
  | systemTime _ sec ms => some (sec * 1000 + ms)
  | _ => none

/-- Milliseconds are those since `time` was set, at the count `setAt`. -/
def Exact (time setAt : ℕ) : TimeReading → Prop
  | posixMs now value => value = time * 1000 + (now - setAt)
  | _ => True

end TimeReading

/-- The values of each reader are in order, and no millisecond is lost. -/
structure WallClock (time setAt : ℕ) (out : List TimeReading) : Prop where
  posix : (out.filterMap TimeReading.posixValue?).Pairwise (· ≤ ·)
  posixMs : (out.filterMap TimeReading.posixMsValue?).Pairwise (· ≤ ·)
  systemTime : (out.filterMap TimeReading.systemValue?).Pairwise (· ≤ ·)
  exact : ∀ reading ∈ out, reading.Exact time setAt

/-- The counter wraps around once at most between two calls. -/
def WrapsOnce (s : TimeSystem) (call : ℕ × TimeRead) : Prop :=
  (s.now + call.1) / 2 ^ 32 ≤ s.now / 2 ^ 32 + 1

instance (s : TimeSystem) (call : ℕ × TimeRead) : Decidable (WrapsOnce s call) :=
  inferInstanceAs (Decidable (_ ≤ _))

namespace TimeSystem

variable (time setAt : ℕ) (s : TimeSystem)

/-- A reader has taken note of a wrap since the time was set, or does so now. -/
def Noted : Prop := s.lastMs ≠ setAt % 2 ^ 32 ∨ s.millisecond < s.lastMs

/-- The counter wrapped around once since the time was set, with notice taken. -/
def WrapSeen : Prop := s.now / 2 ^ 32 = setAt / 2 ^ 32 + 1 ∧ s.Noted setAt

/-- The seconds up to the first wrap, without the part of a second that is over. -/
def secondsToWrap : ℕ := (2 ^ 32 - setAt % 2 ^ 32) / 1000

/-- `tal_time_get_posix` gives seconds that are in order: the counter did not wrap around, or once
with notice taken, and the seconds have 32 bits. -/
def PosixRight : Prop :=
  s.now / 2 ^ 32 = setAt / 2 ^ 32 ∧ time + (s.now - setAt) / 1000 < 2 ^ 32 ∨
    s.WrapSeen setAt ∧ time + secondsToWrap setAt + s.millisecond / 1000 < 2 ^ 32

/-- `tal_time_get_posix_ms` is exact: the wrap was whole seconds behind the setting of the time. -/
def MsRight : Prop :=
  s.now / 2 ^ 32 = setAt / 2 ^ 32 ∨
    s.WrapSeen setAt ∧ (2 ^ 32 - setAt % 2 ^ 32) % 1000 = 0 ∧ time + secondsToWrap setAt < 2 ^ 32

/-- The milliseconds have 64 bits, and the seconds those of an `unsigned long`. -/
def SystemRight (bits : ℕ) : Prop :=
  let time := s.millisecond + s.rollMs + if s.sysLastMs > s.millisecond then 2 ^ 32 else 0
  time < 2 ^ 64 ∧ time / 1000 < 2 ^ bits

instance : Decidable (s.Noted setAt) := inferInstanceAs (Decidable (_ ∨ _))

instance : Decidable (s.WrapSeen setAt) := inferInstanceAs (Decidable (_ ∧ _))

instance : Decidable (s.PosixRight time setAt) := inferInstanceAs (Decidable (_ ∨ _))

instance : Decidable (s.MsRight time setAt) := inferInstanceAs (Decidable (_ ∨ _))

instance (bits : ℕ) : Decidable (s.SystemRight bits) := inferInstanceAs (Decidable (_ ∧ _))

end TimeSystem

/-- What a call meets, in the state in which it is made. -/
def ClockRight (bits time setAt : ℕ) (s : TimeSystem) (call : ℕ × TimeRead) : Prop :=
  match call.2 with
  | .posix => (s.wait call.1).PosixRight time setAt
  | .posixMs => (s.wait call.1).MsRight time setAt
  | .systemTime => (s.wait call.1).SystemRight bits

instance (bits time setAt : ℕ) (s : TimeSystem) :
    (call : ℕ × TimeRead) → Decidable (ClockRight bits time setAt s call)
  | (elapsed, .posix) => inferInstanceAs (Decidable ((s.wait elapsed).PosixRight time setAt))
  | (elapsed, .posixMs) => inferInstanceAs (Decidable ((s.wait elapsed).MsRight time setAt))
  | (elapsed, .systemTime) => inferInstanceAs (Decidable ((s.wait elapsed).SystemRight bits))

/-! ## The time that was set, over a run -/

/-- The time is kept as it was set, or its first wrap was folded into the seconds. -/
inductive Reference (time setAt : ℕ) (s : TimeSystem) : Prop where
  | set (hlast : s.lastMs = setAt % 2 ^ 32) (hposix : s.cloudPosix = time)
  | folded (hlast : s.lastMs = 0) (hset : setAt % 2 ^ 32 ≠ 0)
      (hposix : s.cloudPosix = (time + TimeSystem.secondsToWrap setAt) % 2 ^ 32)
      (hwrap : setAt / 2 ^ 32 < s.now / 2 ^ 32)

structure SetAt (time setAt : ℕ) (s : TimeSystem) : Prop where
  le : setAt ≤ s.now
  reference : Reference time setAt s
  sysLast : s.sysLastMs < 2 ^ 32

section Run

variable {bits time setAt : ℕ} {s : TimeSystem}

theorem SetAt.wait (h : SetAt time setAt s) (elapsed : ℕ) : SetAt time setAt (s.wait elapsed) := by
  obtain ⟨hle, href, hsys⟩ := h
  refine ⟨hle.trans (Nat.le_add_right _ _), ?_, hsys⟩
  cases href with
  | set hlast hposix => exact .set hlast hposix
  | folded hlast hset hposix hwrap =>
      exact .folded hlast hset hposix
        (hwrap.trans_le (Nat.div_le_div_right (Nat.le_add_right _ _)))

theorem SetAt.recycle (h : SetAt time setAt s) : SetAt time setAt s.recycle := by
  obtain ⟨hle, href, hsys⟩ := h
  unfold TimeSystem.recycle
  split_ifs with hwrapped
  · cases href with
    | set hlast hposix =>
        unfold TimeSystem.millisecond at hwrapped
        have hset : setAt % 2 ^ 32 ≠ 0 := by omega
        have hwrap : setAt / 2 ^ 32 < s.now / 2 ^ 32 := by omega
        refine ⟨hle, .folded rfl hset ?_ hwrap, hsys⟩
        rw [hlast, hposix]
        rfl
    | folded hlast => omega
  · exact ⟨hle, href, hsys⟩

theorem SetAt.timeRead (h : SetAt time setAt s) (call : ℕ × TimeRead) :
    SetAt time setAt (timeRead bits s call).1 := by
  obtain ⟨elapsed, read⟩ := call
  have hwait := h.wait elapsed
  cases read with
  | posix => exact hwait.recycle
  | posixMs => exact hwait.recycle
  | systemTime =>
      obtain ⟨hle, href, -⟩ := hwait
      refine ⟨hle, ?_, Nat.mod_lt _ (by decide)⟩
      cases href with
      | set hlast hposix => exact .set hlast hposix
      | folded hlast hset hposix hwrap => exact .folded hlast hset hposix hwrap

/-! ## What the readers return -/

/-- The seconds that `tal_time_get_posix` counts up to the second wrap. -/
def posixAt (time setAt now : ℕ) : ℕ :=
  if now / 2 ^ 32 = setAt / 2 ^ 32 then time + (now - setAt) / 1000
  else time + TimeSystem.secondsToWrap setAt + (now - 2 ^ 32 * (setAt / 2 ^ 32 + 1)) / 1000

theorem posixAt_mono {now now' : ℕ} (hset : setAt ≤ now) (hle : now ≤ now') :
    posixAt time setAt now ≤ posixAt time setAt now' := by
  unfold posixAt TimeSystem.secondsToWrap
  split_ifs
  · omega
  · omega
  · omega
  · omega

theorem SetAt.recycle_cases (h : SetAt time setAt s) :
    (¬s.Noted setAt ∧ setAt % 2 ^ 32 ≤ s.millisecond ∧ s.recycle.lastMs = setAt % 2 ^ 32 ∧
        s.recycle.cloudPosix = time) ∨
      (s.Noted setAt ∧ setAt / 2 ^ 32 < s.now / 2 ^ 32 ∧ s.recycle.lastMs = 0 ∧
        s.recycle.cloudPosix = (time + TimeSystem.secondsToWrap setAt) % 2 ^ 32) := by
  obtain ⟨hle, href, -⟩ := h
  unfold TimeSystem.Noted TimeSystem.recycle
  cases href with
  | set hlast hposix =>
      by_cases hwrapped : s.lastMs > s.millisecond
      · have hwrap : setAt / 2 ^ 32 < s.now / 2 ^ 32 := by
          unfold TimeSystem.millisecond at hwrapped
          omega
        rw [if_pos hwrapped]
        refine Or.inr ⟨Or.inr hwrapped, hwrap, rfl, ?_⟩
        rw [hlast, hposix]
        rfl
      · rw [if_neg hwrapped]
        exact Or.inl ⟨by omega, by omega, hlast, hposix⟩
  | folded hlast hset hposix hwrap =>
      rw [if_neg (by omega)]
      exact Or.inr ⟨Or.inl (by omega), hwrap, hlast, hposix⟩

@[simp] theorem recycle_millisecond : s.recycle.millisecond = s.millisecond := by
  unfold TimeSystem.recycle
  split_ifs
  · rfl
  · rfl

theorem getPosix_eq (h : SetAt time setAt s) (hright : s.PosixRight time setAt) :
    s.getPosix.2 = posixAt time setAt s.now := by
  have hle := h.le
  simp only [TimeSystem.getPosix, recycle_millisecond]
  rcases h.recycle_cases with ⟨hnoted, hge, hlast, hposix⟩ | ⟨hnoted, hwrap, hlast, hposix⟩
  · obtain ⟨hwrap, hfits⟩ : s.now / 2 ^ 32 = setAt / 2 ^ 32 ∧ time + (s.now - setAt) / 1000 <
      2 ^ 32 :=
      hright.resolve_right fun hseen ↦ hnoted hseen.1.2
    have hdiff : s.millisecond - setAt % 2 ^ 32 = s.now - setAt := by
      unfold TimeSystem.millisecond
      omega
    rw [hlast, hposix, posixAt, if_pos hwrap, hdiff, Nat.mod_eq_of_lt hfits]
  · obtain ⟨⟨hwrap', -⟩, hfits⟩ := hright.resolve_left fun hnone ↦ by omega
    have hms : s.millisecond = s.now - 2 ^ 32 * (setAt / 2 ^ 32 + 1) := by
      unfold TimeSystem.millisecond
      omega
    rw [hlast, hposix, posixAt, if_neg (by omega), ← hms, Nat.sub_zero, Nat.mod_add_mod,
      Nat.mod_eq_of_lt hfits]

theorem getPosixMs_iff (htime : time < 2 ^ 32) (h : SetAt time setAt s) :
    s.getPosixMs.2 = time * 1000 + (s.now - setAt) ↔ s.MsRight time setAt := by
  have hle := h.le
  have hlt : s.millisecond < 2 ^ 32 := Nat.mod_lt _ (by decide)
  simp only [TimeSystem.getPosixMs, recycle_millisecond]
  rcases h.recycle_cases with ⟨hnoted, hge, hlast, hposix⟩ | ⟨hnoted, hwrap, hlast, hposix⟩
  · have hiff : s.MsRight time setAt ↔ s.now / 2 ^ 32 = setAt / 2 ^ 32 :=
      or_iff_left fun hseen ↦ hnoted hseen.1.2
    rw [hlast, hposix, hiff]
    unfold TimeSystem.millisecond at hge ⊢
    omega
  · have hiff : s.MsRight time setAt ↔ s.now / 2 ^ 32 = setAt / 2 ^ 32 + 1 ∧
        (2 ^ 32 - setAt % 2 ^ 32) % 1000 = 0 ∧ time + TimeSystem.secondsToWrap setAt < 2 ^ 32 := by
      unfold TimeSystem.MsRight TimeSystem.WrapSeen
      rw [or_iff_right (by omega), and_iff_left hnoted]
    have hseconds : (2 ^ 32 - setAt % 2 ^ 32) / 1000 = TimeSystem.secondsToWrap setAt := rfl
    generalize TimeSystem.secondsToWrap setAt = seconds at hposix hseconds hiff ⊢
    have hbits : (time + seconds) % 2 ^ 32 * 1000 + s.millisecond < 2 ^ 64 := by omega
    have hcount : s.now = 2 ^ 32 * (s.now / 2 ^ 32) + s.millisecond := (Nat.div_add_mod _ _).symm
    rw [hlast, hposix, hiff, Nat.sub_zero, Nat.mod_eq_of_lt hbits]
    by_cases hfits : time + seconds < 2 ^ 32
    · rw [Nat.mod_eq_of_lt hfits]
      omega
    · omega

theorem getSystemTime_eq (hright : s.SystemRight bits) :
    (s.getSystemTime bits).2.1 * 1000 + (s.getSystemTime bits).2.2 =
        (s.getSystemTime bits).1.sysLastMs + (s.getSystemTime bits).1.rollMs ∧
      (s.sysLastMs < 2 ^ 32 → s.sysLastMs + s.rollMs ≤
        (s.getSystemTime bits).1.sysLastMs + (s.getSystemTime bits).1.rollMs) := by
  obtain ⟨hlong, hsec⟩ := hright
  simp only [TimeSystem.getSystemTime]
  split_ifs at hlong hsec ⊢ with hwrapped
  · have hroll : s.rollMs + 2 ^ 32 < 2 ^ 64 := by omega
    rw [Nat.mod_eq_of_lt hroll, ← add_assoc, Nat.mod_eq_of_lt hlong, Nat.mod_eq_of_lt hsec]
    exact ⟨Nat.div_add_mod' _ _, fun hlt ↦ by omega⟩
  · rw [add_zero] at hlong hsec
    rw [Nat.mod_eq_of_lt hlong, Nat.mod_eq_of_lt hsec]
    exact ⟨Nat.div_add_mod' _ _, fun hlt ↦ by omega⟩

/-! ## Runs -/

theorem recycle_sysLastMs (s : TimeSystem) : s.recycle.sysLastMs = s.sysLastMs := by
  unfold TimeSystem.recycle
  split_ifs
  · rfl
  · rfl

theorem recycle_rollMs (s : TimeSystem) : s.recycle.rollMs = s.rollMs := by
  unfold TimeSystem.recycle
  split_ifs
  · rfl
  · rfl

theorem timeRead_now (bits : ℕ) (s : TimeSystem) (call : ℕ × TimeRead) :
    (timeRead bits s call).1.now = s.now + call.1 := by
  obtain ⟨elapsed, read⟩ := call
  have hrecycle : (s.wait elapsed).recycle.now = s.now + elapsed := by
    unfold TimeSystem.recycle
    split_ifs
    · rfl
    · rfl
  cases read with
  | posix => exact hrecycle
  | posixMs => exact hrecycle
  | systemTime => rfl

/-- A call of `tal_time_get_posix_ms` is one that is exact. -/
def MsGuard (time setAt : ℕ) (s : TimeSystem) (call : ℕ × TimeRead) : Prop :=
  call.2 = .posixMs → (s.wait call.1).MsRight time setAt

theorem exact_timeRead_iff (htime : time < 2 ^ 32) (hs : SetAt time setAt s)
    (call : ℕ × TimeRead) :
    (timeRead bits s call).2.Exact time setAt ↔ MsGuard time setAt s call := by
  obtain ⟨elapsed, read⟩ := call
  cases read with
  | posix => exact iff_of_true trivial fun h ↦ by cases h
  | posixMs =>
      have hread := getPosixMs_iff htime (hs.wait elapsed)
      exact hread.trans ⟨fun h _ ↦ h, fun h ↦ h rfl⟩
  | systemTime => exact iff_of_true trivial fun h ↦ by cases h

theorem exact_iff (htime : time < 2 ^ 32) (hs : SetAt time setAt s) (xs : List (ℕ × TimeRead)) :
    (∀ reading ∈ (clockMachine bits).outputs s xs, reading.Exact time setAt) ↔
      (clockMachine bits).Guarded (MsGuard time setAt) s xs := by
  induction xs generalizing s with
  | nil => exact iff_of_true (fun reading hmem ↦ (List.not_mem_nil hmem).elim) trivial
  | cons call xs ih =>
      rw [Mealy.guarded_cons, Mealy.outputs_cons, List.forall_mem_cons]
      exact and_congr (exact_timeRead_iff htime hs call) (ih (hs.timeRead call))

theorem wallClock_of_right (htime : time < 2 ^ 32) (hs : SetAt time setAt s)
    {xs : List (ℕ × TimeRead)}
    (hxs : (clockMachine bits).Guarded (ClockRight bits time setAt) s xs) :
    WallClock time setAt ((clockMachine bits).outputs s xs) := by
  have hstep : ∀ t call, SetAt time setAt t → ClockRight bits time setAt t call →
      SetAt time setAt ((clockMachine bits).step t call).1 :=
    fun t call ht _ ↦ ht.timeRead call
  have hnow : ∀ (t : TimeSystem) call, t.now ≤ ((clockMachine bits).step t call).1.now :=
    fun t call ↦ (timeRead_now bits t call).symm ▸ Nat.le_add_right _ _
  have hms : (clockMachine bits).Guarded (MsGuard time setAt) s xs := by
    refine Mealy.Guarded.imp ?_ hxs
    rintro t ⟨elapsed, read⟩ hright hread
    cases hread
    exact hright
  constructor
  · refine Mealy.outputs_pairwise_le (clockMachine bits) (f := fun t ↦ posixAt time setAt t.now)
      hstep (fun t call ht _ ↦ posixAt_mono ht.le (hnow t call)) ?_ hs hxs
    rintro t ⟨elapsed, read⟩ v ht hright hv
    cases read with
    | posix =>
        have hnext : ((clockMachine bits).step t (elapsed, .posix)).1.now = t.now + elapsed :=
          timeRead_now bits t (elapsed, .posix)
        rw [hnext, ← Option.some.inj hv]
        exact getPosix_eq (ht.wait elapsed) hright
    | posixMs => cases hv
    | systemTime => cases hv
  · refine Mealy.outputs_pairwise_le (clockMachine bits)
      (f := fun t ↦ time * 1000 + (t.now - setAt)) hstep
      (fun t call _ _ ↦ Nat.add_le_add_left (Nat.sub_le_sub_right (hnow t call) setAt) _) ?_ hs hxs
    rintro t ⟨elapsed, read⟩ v ht hright hv
    cases read with
    | posix => cases hv
    | posixMs =>
        have hnext : ((clockMachine bits).step t (elapsed, .posixMs)).1.now = t.now + elapsed :=
          timeRead_now bits t (elapsed, .posixMs)
        rw [hnext, ← Option.some.inj hv]
        exact (getPosixMs_iff htime (ht.wait elapsed)).mpr hright
    | systemTime => cases hv
  · refine Mealy.outputs_pairwise_le (clockMachine bits) (f := fun t ↦ t.sysLastMs + t.rollMs)
      hstep ?_ ?_ hs hxs
    · rintro t ⟨elapsed, read⟩ ht hright
      have hrecycle : (t.wait elapsed).recycle.sysLastMs + (t.wait elapsed).recycle.rollMs =
          t.sysLastMs + t.rollMs := by
        rw [recycle_sysLastMs, recycle_rollMs]
        rfl
      cases read with
      | posix => exact hrecycle.ge
      | posixMs => exact hrecycle.ge
      | systemTime => exact (getSystemTime_eq hright).2 ht.sysLast
    · rintro t ⟨elapsed, read⟩ v ht hright hv
      cases read with
      | posix => cases hv
      | posixMs => cases hv
      | systemTime =>
          rw [← Option.some.inj hv]
          exact (getSystemTime_eq hright).1
  · exact (exact_iff htime hs xs).mpr hms

theorem TimeReachable.sysLast_lt (h : TimeReachable bits s) : s.sysLastMs < 2 ^ 32 := by
  induction h with
  | init now => exact Nat.two_pow_pos 32
  | wait h elapsed ih => exact ih
  | configUpdate h disable ih => exact ih
  | @setPosix t h time updateSource ih =>
      unfold TimeSystem.setPosix
      by_cases hdisable : t.disableUpdate
      · rw [if_pos hdisable]
        exact ih
      · rw [if_neg hdisable]
        exact ih
  | read h call ih =>
      obtain ⟨elapsed, read⟩ := call
      cases read with
      | posix => exact (recycle_sysLastMs _).trans_lt ih
      | posixMs => exact (recycle_sysLastMs _).trans_lt ih
      | systemTime => exact Nat.mod_lt _ (Nat.two_pow_pos 32)

theorem setAt_setPosix (hs : TimeReachable bits s) (hupdate : s.disableUpdate = false)
    (updateSource : ℤ) : SetAt time s.now (s.setPosix time updateSource) := by
  have hset : s.setPosix time updateSource = { s with
      cloudPosix := time
      lastMs := s.millisecond
      cloudSync := if updateSource = 1 then true else s.cloudSync } := by
    rw [TimeSystem.setPosix, hupdate]
    rfl
  rw [hset]
  exact ⟨le_rfl, .set rfl rfl, hs.sysLast_lt⟩

end Run

/-- From any setting of the time on, the readers keep it over every run of calls that each meet
their condition; and milliseconds are exact if and only if theirs is met. -/
theorem wall_clock_kept {bits : ℕ} {s : TimeSystem} (hs : TimeReachable bits s)
    (hupdate : s.disableUpdate = false) {time : ℕ} (htime : time < 2 ^ 32) (updateSource : ℤ)
    (xs : List (ℕ × TimeRead)) :
    ((clockMachine bits).Guarded (ClockRight bits time s.now) (s.setPosix time updateSource) xs →
        WallClock time s.now ((clockMachine bits).outputs (s.setPosix time updateSource) xs)) ∧
      ((∀ reading ∈ (clockMachine bits).outputs (s.setPosix time updateSource) xs,
          reading.Exact time s.now) ↔
        (clockMachine bits).Guarded (MsGuard time s.now) (s.setPosix time updateSource) xs) :=
  ⟨wallClock_of_right htime (setAt_setPosix hs hupdate updateSource),
    exact_iff htime (setAt_setPosix hs hupdate updateSource) xs⟩

/-- A wrap 296 milliseconds behind the setting of the time, with 4294967000 up to it. -/
theorem wall_clock_kept_wrap :
    ((clockMachine 32).outputs ((TimeSystem.init 296).setPosix 7 1)
        [(4294966999, .posixMs), (1, .posixMs), (0, .posix), (0, .systemTime)] =
      [.posixMs 4294967295 4294973999, .posixMs 4294967296 4294974000,
        .posix 4294967296 4294974, .systemTime 4294967296 0 0]) ∧
      WallClock 7 296 ((clockMachine 32).outputs ((TimeSystem.init 296).setPosix 7 1)
        [(4294966999, .posixMs), (1, .posixMs), (0, .posix), (0, .systemTime)]) := by
  exact ⟨by decide, (wall_clock_kept (.init 296) rfl (by decide) 1 _).1 (by decide)⟩

/-- At a wrap the milliseconds go back, by the 296 of a second that was not over. -/
theorem wrap_drops_milliseconds :
    (clockMachine 32).Guarded WrapsOnce ((TimeSystem.init 1000).setPosix 0 1)
        [(4294966295, .posixMs), (1, .posixMs)] ∧
      (clockMachine 32).outputs ((TimeSystem.init 1000).setPosix 0 1)
          [(4294966295, .posixMs), (1, .posixMs)] =
        [.posixMs 4294967295 4294966295, .posixMs 4294967296 4294966000] ∧
      ¬WallClock 0 1000 ((clockMachine 32).outputs ((TimeSystem.init 1000).setPosix 0 1)
        [(4294966295, .posixMs), (1, .posixMs)]) := by
  refine ⟨by decide, by decide, fun h ↦ ?_⟩
  exact absurd h.posixMs (by decide)

end TuyaOpen.Tal
