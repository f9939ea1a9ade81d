import TuyaOpen.Lib.Mealy

/-!
# Buttons

`tdl_button_manage.c`: a scan of a button reads its level, debounces it, and runs a state machine
that recognises presses, clicks and long presses.  A callback that is not registered is one that
does nothing.
-/

namespace TuyaOpen.Peripherals

/-- `TDL_BUTTON_TOUCH_EVENT_E`. -/
inductive TouchEvent where
  | pressDown
  | pressUp
  | pressSingleClick
  | pressDoubleClick
  | pressRepeat
  | longPressStart
  | longPressHold
  | recoverPressUp
  | pressNone
deriving DecidableEq

/-- `TDL_BUTTON_CFG_T`, with times in milliseconds. -/
structure ButtonCfg where
  longStartValidTime : UInt16
  longKeepTimer : UInt16
  buttonDebounceTime : UInt16
  buttonRepeatValidCount : UInt8
  buttonRepeatValidTime : UInt16

/-- `TDL_BUTTON_MODE_E`. -/
inductive ButtonMode where
  | timerScan
  | irq
deriving DecidableEq

/-- What stays the same of a button, and the scan time.  `tdl_button_set_scan_time` refuses less
than 10. -/
structure Button where
  cfg : ButtonCfg
  mode : ButtonMode
  scanTime : UInt8
  scanTime_le : 10 ≤ scanTime.toNat

/-- The values 0, 1, 2, 3, 5 and 6 of `flag`. -/
inductive ButtonFlag where
  | idle
  | press
  | release
  | again
  | long
  | recover
deriving DecidableEq

/-- `BUTTON_DRIVER_DATA_T`, and `irq_scan_cnt`. -/
structure ButtonData where
  preEvent : TouchEvent
  nowEvent : TouchEvent
  flag : ButtonFlag
  debounceCnt : ℕ
  ticks : ℕ
  status : UInt8
  repeatCnt : ℕ
  ready : Bool
  initFlag : Bool
  irqScanCnt : ℕ

/-- A callback with its last argument. -/
structure Callback where
  event : TouchEvent
  argc : ℕ
deriving DecidableEq

namespace ButtonData

/-- The event of this scan. -/
def put (d : ButtonData) (event : TouchEvent) : ButtonData :=
  { d with preEvent := d.nowEvent, nowEvent := event }

/-- The event of the scan before. -/
def keep (d : ButtonData) : ButtonData := { d with preEvent := d.nowEvent }

end ButtonData

namespace Button

variable (b : Button)

/-- A time as a number of scans. -/
def scans (time : UInt16) : ℕ := time.toNat / b.scanTime.toNat

/-- A pressed button keeps the scans of the interrupt mode going. -/
def seen (d : ButtonData) : ButtonData :=
  if b.mode = .irq then { d with irqScanCnt := 0 } else d

/-- The click that `repeat` presses are, once no other press follows. -/
def clicked (d : ButtonData) : ButtonData × Option Callback :=
  if d.repeatCnt = 1 then (d.put .pressSingleClick, some ⟨.pressSingleClick, d.repeatCnt⟩)
  else if d.repeatCnt = 2 then (d.put .pressDoubleClick, some ⟨.pressDoubleClick, d.repeatCnt⟩)
  else if d.repeatCnt = b.cfg.buttonRepeatValidCount.toNat ∧
      2 < b.cfg.buttonRepeatValidCount.toNat then
    (d.put .pressRepeat, some ⟨.pressRepeat, d.repeatCnt⟩)
  else (d, none)

/-- `hold_tick`. -/
def holdTick : ℕ :=
  if b.scans b.cfg.longKeepTimer = 0 then 1 else b.scans b.cfg.longKeepTimer

/-- `__tdl_button_state_handle`. -/
def tdlButtonStateHandle (d : ButtonData) : ButtonData × Option Callback :=
  match d.flag with
  | .idle =>
      if d.status ≠ 0 then
        ({ (b.seen d).put .pressDown with ticks := 0, repeatCnt := 1, flag := .press },
          some ⟨.pressDown, 1⟩)
      else (d.put .pressNone, none)
  | .press =>
      if d.status ≠ 0 then
        if b.cfg.longStartValidTime = 0 then ((b.seen d).keep, none)
        else if b.scans b.cfg.longStartValidTime < d.ticks then
          ({ (b.seen d).put .longPressStart with flag := .long },
            some ⟨.longPressStart, d.ticks * b.scanTime.toNat⟩)
        else ((b.seen d).keep, none)
      else ({ d.put .pressUp with flag := .release, ticks := 0 }, some ⟨.pressUp, d.repeatCnt⟩)
  | .release =>
      if d.status ≠ 0 then
        let repeatCnt := (d.repeatCnt + 1) % 256
        ({ (b.seen d).put .pressDown with repeatCnt := repeatCnt, flag := .again },
          some ⟨.pressDown, repeatCnt⟩)
      else if b.scans b.cfg.buttonRepeatValidTime ≤ d.ticks then
        ({ (b.clicked d).1 with flag := .idle }, (b.clicked d).2)
      else (d.keep, none)
  | .again =>
      if d.status = 0 then
        if b.scans b.cfg.buttonRepeatValidTime ≤ d.ticks then
          ({ d.put .pressUp with flag := .idle }, some ⟨.pressUp, d.repeatCnt⟩)
        else
          ({ d.put .pressUp with flag := .release, ticks := 0 }, some ⟨.pressUp, d.repeatCnt⟩)
      else (d.keep, none)
  | .long =>
      if d.status ≠ 0 then
        if b.holdTick ≤ d.ticks then
          ((b.seen d).put .longPressHold,
            if d.ticks % b.holdTick = 0 then
              some ⟨.longPressHold, d.ticks * b.scanTime.toNat⟩
            else none)
        else (b.seen d, none)
      else
        ({ d.put .pressUp with ticks := 0, flag := .idle },
          some ⟨.pressUp, d.ticks * b.scanTime.toNat⟩)
  | .recover => ({ d with ticks := 0, flag := .idle }, some ⟨.recoverPressUp, 0⟩)

/-- A button that is scanned by a timer waits for a first release. -/
def Waiting (d : ButtonData) : Prop := b.mode = .timerScan ∧ d.ready = false

instance (d : ButtonData) : Decidable (b.Waiting d) := inferInstanceAs (Decidable (_ ∧ _))

/-- A button that was released counts the scans outside of the idle state. -/
def count (d : ButtonData) : ButtonData :=
  if d.flag ≠ .idle then { d with ticks := (d.ticks + 1) % 65536 } else d

/-- The debouncing in `__tdl_button_handle`. -/
def debounce (d : ButtonData) (level : UInt8) : ButtonData :=
  if level ≠ d.status then
    let debounceCnt := (d.debounceCnt + 1) % 256
    if b.scans b.cfg.buttonDebounceTime ≤ debounceCnt then
      { d with debounceCnt := debounceCnt, status := level }
    else { d with debounceCnt := debounceCnt }
  else { d with debounceCnt := 0 }

/-- `__tdl_button_handle`, with the level that is read. -/
def tdlButtonHandle (d : ButtonData) (level : UInt8) : ButtonData × Option Callback :=
  if d.initFlag = false then (d, none)
  else if b.Waiting d then
    if level ≠ 0 then (d, none)
    else b.tdlButtonStateHandle
      (b.debounce (count { d with flag := .recover, ready := true }) level)
  else b.tdlButtonStateHandle (b.debounce (count d) level)

/-- A button, scan by scan. -/
def scanned : Mealy ButtonData UInt8 (Option Callback) := ⟨b.tdlButtonHandle⟩

/-- A button after `tdl_button_create`; its ready flag may have been set. -/
def created (ready : Bool) : ButtonData where
  preEvent := .pressNone
  nowEvent := .pressNone
  flag := .idle
  debounceCnt := 0
  ticks := 0
  status := 0
  repeatCnt := 0
  ready := ready
  initFlag := true
  irqScanCnt := 10000 / b.scanTime.toNat

end Button

/-!
## Gestures of a button

A record is kept of what can be seen of a button from outside: the readings of another level, the
press that goes on, and the presses since the button was idle.  The callbacks are stated against
it.  The 8-bit and 16-bit counters follow the record as long as they do not run over, and the
debounce counter as long as no scan reads the old level right behind a change.
-/

/-- A press: the scans for which it has been held, how often its long press was started, and the
durations its callbacks gave. -/
structure Press where
  held : ℕ
  starts : ℕ
  holds : List ℕ

/-- One more scan of a press. -/
def Press.note (p : Press) (call : Option Callback) : Press where
  held := p.held + 1
  starts := if call.map Callback.event = some .longPressStart then p.starts + 1 else p.starts
  holds :=
    match call with
    | some ⟨.longPressHold, duration⟩ => duration :: p.holds
    | _ => p.holds

/-- What was seen of a button: how many scans up to now read a level that is not the status, the
press that goes on, the complete presses since the idle state with the last one first, and the
last callback that is a press or a release. -/
structure Record where
  run : ℕ
  current : Option Press
  complete : List Press
  turn : Option TouchEvent

namespace Record

def start : Record := ⟨0, none, [], none⟩

/-- The scans that read a level that is not the status, with this one. -/
def others (r : Record) (before : ButtonData) (level : UInt8) : ℕ :=
  if level ≠ before.status then r.run + 1 else 0

def sinceIdle (r : Record) (before : ButtonData) : List Press :=
  if before.flag = .idle then [] else r.complete

/-- The record after a scan, with the status and the callback that it led to. -/
def note (r : Record) (before : ButtonData) (level status : UInt8) (call : Option Callback) :
    Record where
  run := if status ≠ before.status then 0 else r.others before level
  current :=
    if status = 0 then none
    else if before.status = 0 then some ⟨0, 0, []⟩
    else r.current.map fun p ↦ p.note call
  complete :=
    if before.status ≠ 0 ∧ status = 0 then r.current.toList ++ r.sinceIdle before
    else r.sinceIdle before
  turn :=
    match call with
    | some ⟨.pressDown, _⟩ => some .pressDown
    | some ⟨.pressUp, _⟩ => some .pressUp
    | _ => r.turn

end Record

namespace Button

variable (b : Button)

/-- The number of readings that change the status. -/
def debounceScans : ℕ := max 1 (b.scans b.cfg.buttonDebounceTime)

/-- The presses that a click stands for. -/
def clicks : TouchEvent → Option ℕ
  | .pressSingleClick => some 1
  | .pressDoubleClick => some 2
  | .pressRepeat => some b.cfg.buttonRepeatValidCount.toNat
  | _ => none

/-- No press was a long press; in particular the first one was not held for longer. -/
def Short (complete : List Press) : Prop :=
  (∀ p ∈ complete, p.starts = 0) ∧
    ∀ p, complete.getLast? = some p → b.cfg.longStartValidTime ≠ 0 →
      p.held * b.scanTime.toNat ≤ b.cfg.longStartValidTime.toNat

/-- What the callback of a scan says about the record. -/
structure CallLaw (d : ButtonData) (r : Record) (status : UInt8) (call : Option Callback) :
    Prop where
  down : call.map Callback.event = some .pressDown ↔ d.status = 0 ∧ status ≠ 0
  up : call.map Callback.event = some .pressUp ↔ d.status ≠ 0 ∧ status = 0
  turns : (call.map Callback.event = some .pressDown → r.turn ≠ some .pressDown) ∧
    (call.map Callback.event = some .pressUp → r.turn = some .pressDown)
  longStart : call.map Callback.event = some .longPressStart →
    status ≠ 0 ∧ ∃ p, r.current = some p ∧ p.starts = 0 ∧
      b.cfg.longStartValidTime.toNat < (p.held + 1) * b.scanTime.toNat
  longHold : ∀ duration, call = some ⟨.longPressHold, duration⟩ →
    status ≠ 0 ∧ ∃ p, r.current = some p ∧ p.starts = 1 ∧ ∀ held ∈ p.holds, held < duration
  click : ∀ n, (call.map Callback.event).bind b.clicks = some n →
    r.current = none ∧ (r.sinceIdle d).length = n ∧ b.Short (r.sinceIdle d)
  again : call.map Callback.event = some .pressRepeat → 2 < b.cfg.buttonRepeatValidCount.toNat

/-- What a scan does, as the record of the scans before shows it. -/
structure GestureLaw (d : ButtonData) (r : Record) (level : UInt8)
    (out : ButtonData × Option Callback) : Prop where
  changes : out.1.status ≠ d.status ↔ b.debounceScans ≤ r.others d level
  calls : b.CallLaw d r out.1.status out.2

/-- What a scan needs: the power-on filter does not drop as many readings as change the status, the
debounce count is neither left over from a change nor runs over, the ticks of a long press do not
run over, and the count of the presses has not run over. -/
structure GestureGuard (d : ButtonData) (r : Record) (level : UInt8) : Prop where
  filter : b.Waiting d → r.others d level < b.debounceScans
  fresh : level ≠ d.status → 2 ≤ b.scans b.cfg.buttonDebounceTime →
    d.debounceCnt < b.scans b.cfg.buttonDebounceTime
  debounceCnt : level ≠ d.status → b.scans b.cfg.buttonDebounceTime ≠ 0 → d.debounceCnt < 255
  ticks : d.flag = .long → d.ticks < 65535
  repeatCnt : d.flag = .release → d.repeatCnt ≠ 0

instance (d : ButtonData) (r : Record) (level : UInt8) : Decidable (b.GestureGuard d r level) :=
  decidable_of_iff
    ((b.Waiting d → r.others d level < b.debounceScans) ∧
      (level ≠ d.status → 2 ≤ b.scans b.cfg.buttonDebounceTime →
        d.debounceCnt < b.scans b.cfg.buttonDebounceTime) ∧
      (level ≠ d.status → b.scans b.cfg.buttonDebounceTime ≠ 0 → d.debounceCnt < 255) ∧
      (d.flag = .long → d.ticks < 65535) ∧ (d.flag = .release → d.repeatCnt ≠ 0))
    ⟨fun ⟨hfilter, hfresh, hcount, hticks, hrepeat⟩ ↦ ⟨hfilter, hfresh, hcount, hticks, hrepeat⟩,
      fun h ↦ ⟨h.filter, h.fresh, h.debounceCnt, h.ticks, h.repeatCnt⟩⟩

/-- How the record and the counters belong together in each state. -/
def Phase (d : ButtonData) (r : Record) : Prop :=
  match d.flag with
  | .idle => d.status = 0 ∧ r.current = none ∧ r.turn ≠ some .pressDown
  | .press =>
      d.status ≠ 0 ∧ d.repeatCnt = 1 ∧ r.complete = [] ∧ r.turn = some .pressDown ∧
        ∃ held, r.current = some ⟨held, 0, []⟩ ∧
          (b.cfg.longStartValidTime ≠ 0 →
            d.ticks = held ∧ held ≤ b.scans b.cfg.longStartValidTime)
  | .release =>
      d.status = 0 ∧ d.repeatCnt = r.complete.length % 256 ∧ r.turn ≠ some .pressDown ∧
        r.current = none ∧ 0 < r.complete.length ∧ r.complete.length ≤ 256 ∧ b.Short r.complete
  | .again =>
      d.status ≠ 0 ∧ d.repeatCnt = (r.complete.length + 1) % 256 ∧ r.turn = some .pressDown ∧
        (∃ held, r.current = some ⟨held, 0, []⟩) ∧ 0 < r.complete.length ∧
          r.complete.length < 256 ∧ b.Short r.complete
  | .long =>
      d.status ≠ 0 ∧ r.turn = some .pressDown ∧
        ∃ held holds, r.current = some ⟨held, 1, holds⟩ ∧ d.ticks = held ∧
          ∀ duration ∈ holds, duration ≤ held * b.scanTime.toNat
  | .recover => False

theorem scans_lt_iff (time : UInt16) (n : ℕ) :
    b.scans time < n ↔ time.toNat < n * b.scanTime.toNat := by
  apply Nat.div_lt_iff_lt_mul
  exact Nat.lt_of_lt_of_le (by decide) b.scanTime_le

theorem scans_le (time : UInt16) : b.scans time ≤ 6553 := by
  apply Nat.le_of_lt_succ
  apply (b.scans_lt_iff time _).mpr
  have htime := time.toNat_lt
  have hscan := b.scanTime_le
  omega

theorem le_scans_iff (n : ℕ) (time : UInt16) :
    n ≤ b.scans time ↔ n * b.scanTime.toNat ≤ time.toNat := by
  rw [← Nat.not_lt, b.scans_lt_iff, Nat.not_lt]

theorem Short.cons {b : Button} {complete : List Press} (h : b.Short complete) {p : Press}
    (hp : p.starts = 0) (hpos : 0 < complete.length) : b.Short (p :: complete) := by
  obtain ⟨q, rest, rfl⟩ := List.exists_cons_of_length_pos hpos
  constructor
  · intro p' hmem
    rcases List.mem_cons.mp hmem with rfl | hmem
    · exact hp
    · exact h.1 p' hmem
  · rw [List.getLast?_cons_cons]
    exact h.2

section Seen

variable (d : ButtonData)

@[simp] theorem seen_flag : (b.seen d).flag = d.flag := by unfold seen; split <;> rfl
@[simp] theorem seen_status : (b.seen d).status = d.status := by unfold seen; split <;> rfl
@[simp] theorem seen_ticks : (b.seen d).ticks = d.ticks := by unfold seen; split <;> rfl
@[simp] theorem seen_repeatCnt : (b.seen d).repeatCnt = d.repeatCnt := by unfold seen; split <;> rfl

end Seen

/-- The callback is one that the record allows, and the state belongs to the next record. -/
structure Lawful (d : ButtonData) (r : Record) (level status : UInt8)
    (out : ButtonData × Option Callback) : Prop where
  calls : b.CallLaw d r status out.2
  phase : b.Phase out.1 (r.note d level status out.2)

namespace Phase

variable {b : Button} {d d' : ButtonData} {r : Record} {level : UInt8}

theorem idle (h : b.Phase d r) (hflag : d.flag = .idle) (hflag' : d'.flag = .idle) :
    b.Lawful d r level d'.status (b.tdlButtonStateHandle d') := by
  simp only [Phase, hflag] at h
  obtain ⟨hstatus, hcurrent, hturn⟩ := h
  simp only [tdlButtonStateHandle, hflag']
  by_cases hzero : d'.status = 0
  · rw [if_neg (not_not_intro hzero)]
    constructor
    · constructor <;> simp [hstatus, hzero]
    · simp [Phase, ButtonData.put, hflag', hzero, hstatus, Record.note, hturn]
  · rw [if_pos hzero]
    constructor
    · constructor <;> simp [hstatus, hzero, hturn, clicks]
    · simp [Phase, hzero, hstatus, Record.note, Record.sinceIdle, hflag, ButtonData.put]

theorem press (h : b.Phase d r) (hflag : d.flag = .press) (hflag' : d'.flag = .press)
    (hticks : d'.ticks = (d.ticks + 1) % 65536) (hrepeat : d'.repeatCnt = d.repeatCnt) :
    b.Lawful d r level d'.status (b.tdlButtonStateHandle d') := by
  simp only [Phase, hflag] at h
  obtain ⟨hstatus, hone, hcomplete, hturn, held, hcurrent, hheld⟩ := h
  simp only [tdlButtonStateHandle, hflag']
  by_cases hzero : d'.status = 0
  · rw [if_neg (not_not_intro hzero)]
    have hshort : b.Short [⟨held, 0, []⟩] := by
      refine ⟨by simp, ?_⟩
      rintro p hp hlong
      obtain rfl : (⟨held, 0, []⟩ : Press) = p := Option.some.inj hp
      exact (b.le_scans_iff held _).mp (hheld hlong).2
    constructor
    · constructor <;> simp [hstatus, hzero, hturn, clicks]
    · simp [Phase, ButtonData.put, hzero, hstatus, Record.note, Record.sinceIdle, hflag, hrepeat,
        hone, hcomplete, hcurrent, hshort]
  rw [if_pos hzero]
  -- without a long press, and before it, the press only gets longer
  have hkept (hlong : b.cfg.longStartValidTime ≠ 0 →
      d'.ticks = held + 1 ∧ held + 1 ≤ b.scans b.cfg.longStartValidTime) :
      b.Lawful d r level d'.status ((b.seen d').keep, none) := by
    constructor
    · constructor <;> simp [hstatus, hzero]
    · simpa [Phase, hflag', ButtonData.keep, hzero, hstatus, Record.note, Record.sinceIdle, hflag,
        hrepeat, hone, hcomplete, hcurrent, Press.note, hturn] using hlong
  by_cases hlong : b.cfg.longStartValidTime = 0
  · rw [if_pos hlong]
    exact hkept fun hne ↦ absurd hlong hne
  obtain ⟨hheldTicks, hle⟩ := hheld hlong
  have hnew : d'.ticks = held + 1 := by
    have hscans := b.scans_le b.cfg.longStartValidTime
    rw [hticks, hheldTicks]
    omega
  rw [if_neg hlong]
  by_cases hstart : b.scans b.cfg.longStartValidTime < d'.ticks
  · rw [if_pos hstart]
    have htime : b.cfg.longStartValidTime.toNat < (held + 1) * b.scanTime.toNat := by
      rw [← hnew]
      exact (b.scans_lt_iff _ _).mp hstart
    constructor
    · constructor <;> simp [hstatus, hzero, hcurrent, htime, clicks]
    · simp [Phase, ButtonData.put, hzero, hstatus, Record.note, hcurrent, Press.note, hturn, hnew]
  · rw [if_neg hstart]
    apply hkept
    intro
    exact ⟨hnew, by omega⟩

theorem timeout (h : b.Phase d r) (hflag : d.flag = .release) {out : ButtonData × Option Callback}
    (hidle : out.1.flag = .idle) (hzero : out.1.status = 0)
    (hcall : ∀ event ∈ out.2.map Callback.event, b.clicks event = some r.complete.length)
    (hagain : out.2.map Callback.event = some .pressRepeat →
      2 < b.cfg.buttonRepeatValidCount.toNat) :
    b.Lawful d r level 0 out := by
  simp only [Phase, hflag] at h
  obtain ⟨hstatus, -, hturn, hcurrent, -, -, hshort⟩ := h
  have hno : ∀ event, b.clicks event = none → out.2.map Callback.event ≠ some event := by
    intro event hnone hevent
    rw [hcall event hevent] at hnone
    cases hnone
  have hsince : r.sinceIdle d = r.complete := by simp [Record.sinceIdle, hflag]
  constructor
  · constructor
    · simp [hno .pressDown rfl]
    · simp [hno .pressUp rfl, hstatus]
    · simp [hno .pressDown rfl, hno .pressUp rfl]
    · simp [hno .longPressStart rfl]
    · intro duration hhold
      apply absurd _ (hno .longPressHold rfl)
      rw [hhold]
      rfl
    · intro n hn
      obtain ⟨event, hevent, hclicks⟩ := Option.bind_eq_some_iff.mp hn
      rw [hcall event hevent] at hclicks
      rw [hsince]
      exact ⟨hcurrent, Option.some.inj hclicks, hshort⟩
    · exact hagain
  · simp only [Phase, hidle]
    refine ⟨hzero, by simp [Record.note], ?_⟩
    simp only [Record.note]
    split
    · rename_i hdown
      apply absurd _ (hno .pressDown rfl)
      rw [hdown]
      rfl
    · simp
    · exact hturn

theorem release (h : b.Phase d r) (hflag : d.flag = .release) (hflag' : d'.flag = .release)
    (hrepeat : d'.repeatCnt = d.repeatCnt) (hguard : d.repeatCnt ≠ 0) :
    b.Lawful d r level d'.status (b.tdlButtonStateHandle d') := by
  have hphase := h
  simp only [Phase, hflag] at hphase
  obtain ⟨hstatus, hcount, hturn, hcurrent, hpos, hle, hshort⟩ := hphase
  have hlt : r.complete.length < 256 := by
    rw [hcount] at hguard
    omega
  have hexact : d'.repeatCnt = r.complete.length := by
    rw [hrepeat, hcount]
    exact Nat.mod_eq_of_lt hlt
  simp only [tdlButtonStateHandle, hflag']
  by_cases hzero : d'.status = 0
  · rw [if_neg (not_not_intro hzero)]
    have hkept : b.Phase d'.keep (r.note d level d'.status none) := by
      simp [Phase, hflag', ButtonData.keep, hzero, hstatus, Record.note, Record.sinceIdle, hflag,
        hexact, Nat.mod_eq_of_lt hlt, hturn, hpos, hle, hshort]
    by_cases htimeout : b.scans b.cfg.buttonRepeatValidTime ≤ d'.ticks
    · rw [if_pos htimeout]
      rw [hzero]
      unfold clicked
      split_ifs with hone htwo hmany
      · apply h.timeout hflag rfl hzero
        · simp [clicks, ← hexact, hone]
        · simp
      · apply h.timeout hflag rfl hzero
        · simp [clicks, ← hexact, htwo]
        · simp
      · apply h.timeout hflag rfl hzero
        · simp [clicks, ← hexact, hmany.1]
        · simp [hmany.2]
      · apply h.timeout hflag rfl hzero <;> simp
    · rw [if_neg htimeout]
      refine ⟨?_, hkept⟩
      constructor <;> simp [hstatus, hzero]
  · rw [if_pos hzero]
    constructor
    · constructor <;> simp [hstatus, hzero, hturn, clicks]
    · simp [Phase, ButtonData.put, hzero, hstatus, Record.note, Record.sinceIdle, hflag, hexact,
        hpos, hlt, hshort]

theorem again (h : b.Phase d r) (hflag : d.flag = .again) (hflag' : d'.flag = .again)
    (hrepeat : d'.repeatCnt = d.repeatCnt) :
    b.Lawful d r level d'.status (b.tdlButtonStateHandle d') := by
  simp only [Phase, hflag] at h
  obtain ⟨hstatus, hcount, hturn, ⟨held, hcurrent⟩, hpos, hlt, hshort⟩ := h
  simp only [tdlButtonStateHandle, hflag']
  by_cases hzero : d'.status = 0
  · rw [if_pos hzero]
    have hlaw : b.CallLaw d r d'.status (some ⟨.pressUp, d'.repeatCnt⟩) := by
      constructor <;> simp [hstatus, hzero, hturn, clicks]
    by_cases htimeout : b.scans b.cfg.buttonRepeatValidTime ≤ d'.ticks
    · rw [if_pos htimeout]
      refine ⟨hlaw, ?_⟩
      simp [Phase, ButtonData.put, hzero, Record.note]
    · rw [if_neg htimeout]
      refine ⟨hlaw, ?_⟩
      have hadded : b.Short (⟨held, 0, []⟩ :: r.complete) := hshort.cons rfl hpos
      simp [Phase, ButtonData.put, hzero, hstatus, Record.note, Record.sinceIdle, hflag, hcurrent,
        hrepeat, hcount, hadded]
      omega
  · rw [if_neg hzero]
    constructor
    · constructor <;> simp [hstatus, hzero]
    · simp [Phase, hflag', ButtonData.keep, hzero, hstatus, Record.note, Record.sinceIdle, hflag,
        hrepeat, hcount, hturn, hcurrent, Press.note, hpos, hlt, hshort]

theorem long (h : b.Phase d r) (hflag : d.flag = .long) (hflag' : d'.flag = .long)
    (hticks : d'.ticks = (d.ticks + 1) % 65536) (hguard : d.ticks < 65535) :
    b.Lawful d r level d'.status (b.tdlButtonStateHandle d') := by
  simp only [Phase, hflag] at h
  obtain ⟨hstatus, hturn, held, holds, hcurrent, hheld, hholds⟩ := h
  have hnew : d'.ticks = held + 1 := by
    rw [hticks, hheld]
    omega
  simp only [tdlButtonStateHandle, hflag']
  by_cases hzero : d'.status = 0
  · rw [if_neg (not_not_intro hzero)]
    constructor
    · constructor <;> simp [hstatus, hzero, hturn, clicks]
    · simp [Phase, ButtonData.put, hzero, Record.note]
  rw [if_pos hzero]
  have hscan := b.scanTime_le
  have hbefore : ∀ duration ∈ holds, duration < (held + 1) * b.scanTime.toNat := by
    intro duration hmem
    have hold := hholds duration hmem
    rw [Nat.succ_mul]
    omega
  have hquiet (d'' : ButtonData) (hd : d''.flag = .long) (hs : d''.status = d'.status)
      (ht : d''.ticks = d'.ticks) :
      b.Lawful d r level d'.status (d'', none) := by
    constructor
    · constructor <;> simp [hstatus, hzero]
    · simp only [Phase, hd]
      simp [hs, ht, hzero, hstatus, Record.note, hcurrent, Press.note, hturn, hnew]
      intro duration hmem
      exact Nat.le_of_lt (hbefore duration hmem)
  by_cases hdue : b.holdTick ≤ d'.ticks
  · rw [if_pos hdue]
    by_cases hmultiple : d'.ticks % b.holdTick = 0
    · rw [if_pos hmultiple, hnew]
      constructor
      · constructor <;> simp [hstatus, hzero, hcurrent, clicks]
        exact hbefore
      · simp [Phase, hflag', ButtonData.put, hzero, hstatus, Record.note, hcurrent, Press.note,
          hturn, hnew]
        intro duration hmem
        exact Nat.le_of_lt (hbefore duration hmem)
    · rw [if_neg hmultiple]
      exact hquiet _ (by simp [ButtonData.put, hflag']) (by simp [ButtonData.put])
        (by simp [ButtonData.put])
  · rw [if_neg hdue]
    exact hquiet _ (by simp [hflag']) (by simp) (by simp)

end Phase

/-- What the state machine leaves alone. -/
def input (d : ButtonData) : UInt8 × ℕ × Bool × Bool :=
  (d.status, d.debounceCnt, d.ready, d.initFlag)

theorem input_seen (d : ButtonData) : input (b.seen d) = input d := by
  unfold seen
  split <;> rfl

theorem input_clicked (d : ButtonData) : input (b.clicked d).1 = input d := by
  unfold clicked
  split_ifs <;> rfl

theorem input_tdlButtonStateHandle (d : ButtonData) :
    input (b.tdlButtonStateHandle d).1 = input d := by
  rw [tdlButtonStateHandle]
  split <;> try split_ifs
  all_goals first | rfl | exact b.input_seen d | exact b.input_clicked d

/-- The debounce count follows the record, or is left over from a change. -/
def Counted (d : ButtonData) (r : Record) : Prop :=
  d.debounceCnt = r.run ∨ r.run = 0 ∧ b.scans b.cfg.buttonDebounceTime ≤ d.debounceCnt

section Debounce

variable {b : Button} {d : ButtonData} {r : Record} {level : UInt8}

theorem debounce_cases (hcounted : b.Counted d r) (hguard : b.GestureGuard d r level) :
    (r.others d level = 0 ∧ b.debounce d level = { d with debounceCnt := 0 }) ∨
      (b.debounceScans ≤ r.others d level ∧ level ≠ d.status ∧
        ∃ count, b.scans b.cfg.buttonDebounceTime ≤ count ∧
          b.debounce d level = { d with debounceCnt := count, status := level }) ∨
      (r.others d level < b.debounceScans ∧
        b.debounce d level = { d with debounceCnt := r.others d level }) := by
  rw [Record.others, debounce]
  by_cases hother : level ≠ d.status
  · rw [if_pos hother, if_pos hother]
    right
    have hfresh := hguard.fresh hother
    have hsmall := hguard.debounceCnt hother
    simp only [debounceScans]
    by_cases hdue : b.scans b.cfg.buttonDebounceTime ≤ (d.debounceCnt + 1) % 256
    · left
      refine ⟨?_, hother, _, hdue, if_pos hdue⟩
      rcases hcounted with hcount | ⟨hrun, hold⟩ <;> omega
    · right
      have hcount : (d.debounceCnt + 1) % 256 = r.run + 1 := by
        rcases hcounted with hcount | ⟨hrun, hold⟩ <;> omega
      rw [if_neg hdue, hcount]
      exact ⟨by omega, rfl⟩
  · rw [if_neg hother, if_neg hother]
    exact Or.inl ⟨rfl, rfl⟩

theorem debounceScans_pos (b : Button) : 0 < b.debounceScans :=
  Nat.lt_of_lt_of_le Nat.one_pos (Nat.le_max_left _ _)

theorem debounce_status (hcounted : b.Counted d r) (hguard : b.GestureGuard d r level) :
    (b.debounce d level).status ≠ d.status ↔ b.debounceScans ≤ r.others d level := by
  have hpos := b.debounceScans_pos
  rcases debounce_cases hcounted hguard with ⟨hnone, h⟩ | ⟨hdue, hother, count, -, h⟩ | ⟨hearly, h⟩
  · rw [h, hnone]
    simp
    omega
  · rw [h]
    exact iff_of_true hother hdue
  · rw [h]
    simpa using hearly

theorem debounce_counted (hcounted : b.Counted d r) (hguard : b.GestureGuard d r level)
    (call : Option Callback) :
    b.Counted (b.debounce d level) (r.note d level (b.debounce d level).status call) := by
  rcases debounce_cases hcounted hguard with ⟨hnone, h⟩ | ⟨hdue, hother, count, hcount, h⟩ |
    ⟨hearly, h⟩
  · rw [h]
    left
    simp [Record.note, hnone]
  · rw [h]
    right
    exact ⟨if_pos hother, hcount⟩
  · rw [h]
    left
    simp [Record.note]

end Debounce

/-- What holds between two scans. -/
structure ButtonInv (d : ButtonData) (r : Record) : Prop where
  init : d.initFlag = true
  waiting : b.Waiting d → d.flag = .idle
  counted : ¬ b.Waiting d → b.Counted d r
  phase : b.Phase d r

/-- A scan obeys the law, and keeps what holds between scans. -/
structure Scanned (d : ButtonData) (r : Record) (level : UInt8)
    (out : ButtonData × Option Callback) : Prop where
  law : b.GestureLaw d r level out
  inv : b.ButtonInv out.1 (r.note d level out.1.status out.2)

section Handle

variable {b : Button} {d : ButtonData} {r : Record} {level : UInt8}

theorem debounce_count (b : Button) (d : ButtonData) (level : UInt8) :
    b.debounce (count d) level = count (b.debounce d level) := by
  unfold debounce count
  simp only
  split_ifs <;> rfl

theorem input_count (d : ButtonData) : input (count d) = input d := by
  unfold count
  split <;> rfl

theorem debounce_frame (b : Button) (d : ButtonData) (level : UInt8) :
    ∃ debounceCnt status,
      b.debounce d level = { d with debounceCnt := debounceCnt, status := status } := by
  unfold debounce
  simp only
  split_ifs
  · exact ⟨_, _, rfl⟩
  · exact ⟨_, _, rfl⟩
  · exact ⟨_, _, rfl⟩

theorem Phase.lawful (h : b.Phase d r) (hguard : b.GestureGuard d r level)
    {d' : ButtonData} (hflag : d'.flag = d.flag) (hrepeat : d'.repeatCnt = d.repeatCnt)
    (hticks : d'.ticks = d.ticks) :
    b.Lawful d r level d'.status (b.tdlButtonStateHandle (count d')) := by
  have hstatus : (count d').status = d'.status := by
    unfold count
    split <;> rfl
  have hflag' : (count d').flag = d.flag := by
    rw [← hflag]
    unfold count
    split <;> rfl
  have hrepeat' : (count d').repeatCnt = d.repeatCnt := by
    rw [← hrepeat]
    unfold count
    split <;> rfl
  have hticks' (hbusy : d.flag ≠ .idle) : (count d').ticks = (d.ticks + 1) % 65536 := by
    rw [← hticks, count, if_pos (hflag ▸ hbusy)]
  rw [← hstatus]
  cases hcase : d.flag with
  | idle => exact h.idle hcase (hflag'.trans hcase)
  | press => exact h.press hcase (hflag'.trans hcase) (hticks' (by simp [hcase])) hrepeat'
  | release => exact h.release hcase (hflag'.trans hcase) hrepeat' (hguard.repeatCnt hcase)
  | again => exact h.again hcase (hflag'.trans hcase) hrepeat'
  | long =>
      exact h.long hcase (hflag'.trans hcase) (hticks' (by simp [hcase])) (hguard.ticks hcase)
  | recover =>
      simp only [Phase, hcase] at h

theorem scanned_recover (h : b.ButtonInv d r) (hwaiting : b.Waiting d) :
    b.Scanned d r 0 (b.tdlButtonStateHandle
      (b.debounce (count { d with flag := .recover, ready := true }) 0)) := by
  have hflag := h.waiting hwaiting
  have hphase := h.phase
  simp only [Phase, hflag] at hphase
  obtain ⟨hstatus, -, hturn⟩ := hphase
  have hothers : r.others d 0 = 0 := if_neg (not_not_intro hstatus.symm)
  have hpos := b.debounceScans_pos
  have hdebounce : b.debounce (count { d with flag := .recover, ready := true }) 0 =
      { d with
        flag := .recover, ready := true, ticks := (d.ticks + 1) % 65536, debounceCnt := 0 } :=
    if_neg (not_not_intro hstatus.symm)
  rw [hdebounce]
  constructor
  · constructor
    · simp [tdlButtonStateHandle, hothers]
      omega
    · constructor <;> simp [tdlButtonStateHandle, hstatus, clicks]
  · have hready : ¬ (b.mode = .timerScan ∧ true = false) := by simp
    refine ⟨h.init, fun hstill ↦ absurd hstill hready, fun _ ↦ Or.inl ?_, ?_⟩
    · simp [tdlButtonStateHandle, Record.note, hothers]
    · simp [Phase, tdlButtonStateHandle, hstatus, Record.note, hturn]

theorem scanned_dropped (h : b.ButtonInv d r) (hwaiting : b.Waiting d)
    (hguard : b.GestureGuard d r level) : b.Scanned d r level (d, none) := by
  have hflag := h.waiting hwaiting
  have hphase := h.phase
  simp only [Phase, hflag] at hphase
  obtain ⟨hstatus, hcurrent, hturn⟩ := hphase
  have hfilter := hguard.filter hwaiting
  constructor
  · constructor
    · simpa using hfilter
    · constructor <;> simp [hstatus]
  · refine ⟨h.init, h.waiting, fun hnot ↦ absurd hwaiting hnot, ?_⟩
    simp [Phase, hflag, hstatus, Record.note, hturn]

theorem scanned_of_inv (h : b.ButtonInv d r) (hguard : b.GestureGuard d r level) :
    b.Scanned d r level (b.tdlButtonHandle d level) := by
  rw [tdlButtonHandle, if_neg (by simp [h.init])]
  by_cases hwaiting : b.Waiting d
  · rw [if_pos hwaiting]
    by_cases hlevel : level = 0
    · rw [if_neg (not_not_intro hlevel), hlevel]
      exact scanned_recover h hwaiting
    · rw [if_pos hlevel]
      exact scanned_dropped h hwaiting hguard
  rw [if_neg hwaiting, debounce_count]
  have hchanges := debounce_status (h.counted hwaiting) hguard
  have hcounted := debounce_counted (h.counted hwaiting) hguard
  have hinput := b.input_tdlButtonStateHandle (count (b.debounce d level))
  have hlawful : b.Lawful d r level (b.debounce d level).status
      (b.tdlButtonStateHandle (count (b.debounce d level))) := by
    obtain ⟨debounceCnt, status, hframe⟩ := debounce_frame b d level
    apply h.phase.lawful hguard
    · rw [hframe]
    · rw [hframe]
    · rw [hframe]
  rw [input_count] at hinput
  generalize b.tdlButtonStateHandle (count (b.debounce d level)) = out at hinput hlawful ⊢
  simp only [input, Prod.mk.injEq] at hinput
  obtain ⟨hstatus, hcount, hready, hinit⟩ := hinput
  obtain ⟨debounceCnt, status, hframe⟩ := debounce_frame b d level
  have hstill : ¬ b.Waiting out.1 := by
    rw [Waiting, hready, hframe]
    exact hwaiting
  rw [← hstatus] at hlawful hchanges
  refine ⟨⟨hchanges, hlawful.calls⟩, ?_, fun hw ↦ absurd hw hstill, fun _ ↦ ?_, hlawful.phase⟩
  · rw [hinit, hframe]
    exact h.init
  · have hkept := hcounted out.2
    rw [← hstatus] at hkept
    rw [Counted, hcount]
    exact hkept

end Handle

theorem inv_created (ready : Bool) : b.ButtonInv (b.created ready) Record.start where
  init := rfl
  waiting _ := rfl
  counted _ := Or.inl rfl
  phase := by simp [Phase, created, Record.start]

/-- A button with the record that is kept of it. -/
def watched : Mealy (ButtonData × Record) UInt8 (Option Callback) :=
  b.scanned.observed fun r before level after call ↦ r.note before level after.status call

def record (ready : Bool) (levels : List UInt8) : Record :=
  (b.watched.final (b.created ready, Record.start) levels).2

/-- While each scan meets the guard, every scan obeys the law. -/
theorem button_gestures (ready : Bool) (levels : List UInt8) (level : UInt8)
    (hguard : b.watched.Guarded (fun s level ↦ b.GestureGuard s.1 s.2 level)
      (b.created ready, Record.start) (levels ++ [level])) :
    b.GestureLaw (b.scanned.final (b.created ready) levels) (b.record ready levels) level
      (b.tdlButtonHandle (b.scanned.final (b.created ready) levels) level) := by
  obtain ⟨hbefore, hscan, -⟩ := (b.watched.guarded_append _ _ _ _).mp hguard
  have hinv : b.ButtonInv (b.watched.final (b.created ready, Record.start) levels).1
      (b.watched.final (b.created ready, Record.start) levels).2 := by
    apply Mealy.inv_final _ (I := fun s ↦ b.ButtonInv s.1 s.2) _ (b.inv_created ready) hbefore
    intro s level hs hg
    exact (scanned_of_inv hs hg).inv
  have hlaw := (scanned_of_inv hinv hscan).law
  have hstate : (b.watched.final (b.created ready, Record.start) levels).1 =
      b.scanned.final (b.created ready) levels :=
    b.scanned.observed_final_fst _ _ _
  rw [hstate] at hlaw
  exact hlaw

end Button

/-- A button that two readings debounce, scanned every 10 ms. -/
def twoReadings : Button where
  cfg := ⟨1500, 100, 20, 3, 100⟩
  mode := .timerScan
  scanTime := 10
  scanTime_le := by decide

/-- A button for which the debounce count would have to reach 256. -/
def manyReadings : Button where
  cfg := ⟨1500, 100, 2560, 3, 100⟩
  mode := .timerScan
  scanTime := 10
  scanTime_le := by decide

/-- Two presses, and the releases up to the double click. -/
def twoPresses : List UInt8 := [0, 1, 1, 1, 0, 0, 0, 1, 1, 1, 0, 0] ++ List.replicate 9 0

theorem button_gestures_double_click :
    twoReadings.watched.Guarded (fun s level ↦ twoReadings.GestureGuard s.1 s.2 level)
        (twoReadings.created false, Record.start) (twoPresses ++ [0]) ∧
      (twoReadings.tdlButtonHandle
        (twoReadings.scanned.final (twoReadings.created false) twoPresses) 0).2 =
          some ⟨.pressDoubleClick, 2⟩ ∧
        (twoReadings.record false twoPresses).complete.length = 2 := by
  have hguard : twoReadings.watched.Guarded
      (fun s level ↦ twoReadings.GestureGuard s.1 s.2 level)
      (twoReadings.created false, Record.start) (twoPresses ++ [0]) := by
    decide +kernel
  have hcall : (twoReadings.tdlButtonHandle
      (twoReadings.scanned.final (twoReadings.created false) twoPresses) 0).2 =
        some ⟨.pressDoubleClick, 2⟩ := by
    decide +kernel
  have hlaw := twoReadings.button_gestures false twoPresses 0 hguard
  have hclick := hlaw.calls.click 2 (by rw [hcall]; rfl)
  exact ⟨hguard, hcall, hclick.2.1⟩

/-- One reading of the old level behind a change is enough to change back; and a debounce count
that runs over never changes the status. -/
theorem button_not_gestures :
    ¬ twoReadings.GestureLaw (twoReadings.scanned.final (twoReadings.created true) [1, 1])
        (twoReadings.record true [1, 1]) 0
        (twoReadings.tdlButtonHandle
          (twoReadings.scanned.final (twoReadings.created true) [1, 1]) 0) ∧
      ¬ manyReadings.GestureLaw
        (manyReadings.scanned.final (manyReadings.created true) (List.replicate 255 1))
        (manyReadings.record true (List.replicate 255 1)) 1
        (manyReadings.tdlButtonHandle
          (manyReadings.scanned.final (manyReadings.created true) (List.replicate 255 1)) 1) := by
  constructor
  · intro h
    exact absurd (h.changes.mp (by decide)) (by decide)
  · intro h
    exact absurd (h.changes.mpr (by decide +kernel)) (by decide +kernel)

end TuyaOpen.Peripherals
