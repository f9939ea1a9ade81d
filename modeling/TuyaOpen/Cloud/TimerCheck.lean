import TuyaOpen.Cloud.DeviceTimer
import TuyaOpen.Lib.Latch
import TuyaOpen.Tal.Time

/-!
# Due timers

`tuya_device_timer.c`: a software timer polls the list, and the commands of the items that are due
are handed over to the data points.  The clock is read once for the whole list, and again behind an
item that is executed.
-/

namespace TuyaOpen.Cloud

open Tal (PosixTm epoch gmtime gmtime_eq utc)

/-- `%0*d` of a number that has no more digits. -/
def zeroPadded : ℕ → ℕ → CString
  | 0, _ => []
  | width + 1, n => zeroPadded width (n / 10) ++ [(48 + n % 10).toUInt8]

/-- `now_date`. -/
def nowDate (tm : PosixTm) : CString :=
  zeroPadded 4 ((tm.year + 1900) % 10000).toNat ++ zeroPadded 2 ((tm.mon + 1) % 100).toNat ++
    zeroPadded 2 (tm.mday % 100).toNat

/-- `now_time`. -/
def nowTime (tm : PosixTm) : CString :=
  zeroPadded 2 tm.hour.toNat ++ 0x3a :: zeroPadded 2 tm.min.toNat

/-- `__check_timer_item`. -/
def checkTimerItem (item : TimerItem) (currentTime : PosixTm) : Bool :=
  if item.isDeleted ≠ 0 ∨ item.isExecuted ≠ 0 then false
  else if ¬StrncmpEq item.date (nowDate currentTime) timerDateLen ∧
      ¬StrncmpEq item.date (bytesOf "00000000") timerDateLen then false
  else if ¬StrncmpEq item.time (nowTime currentTime) timerTimeLen then false
  -- bit 6 is for a Sunday
  else if item.loops = 0 then true
  else item.loops.toNat.testBit (6 - currentTime.wday).toNat

/-- `cmd_js`, each member if there is memory for it. -/
structure TimerCommand where
  devId : Option CString
  dps : Option CString
  deriving DecidableEq

/-- An item's turn: whether there is memory for `cmd_js` and its members, what `tuya_iot_dp_parse`
returns, and what the clock reads then. -/
structure CheckEnv where
  object : Bool
  devId : Bool
  dps : Bool
  parse : OperateRet
  time : UInt32

/-- The flag is cleared in another minute than the item's. -/
def clearExecuted (time : UInt32) (item : TimerItem) : Option TimerItem :=
  if item.isExecuted ≠ 0 ∧ item.isDeleted = 0 then do
    let posixTm ← gmtime time.toNat
    return if ¬StrncmpEq item.time (nowTime posixTm) timerTimeLen then { item with isExecuted := 0 }
      else item
  else some item

/-- An item's turn in `__timer_check_timer_cb`, with what `tuya_iot_dp_parse` is called with. -/
def timerCheckItem (devId : CString) (currentTime : PosixTm) (env : CheckEnv) (item : TimerItem) :
    Option (TimerItem × Option TimerCommand) :=
  if checkTimerItem item currentTime then
    let item := { item with isExecuted := 1 }
    if env.object = false then some (item, none)
    else
      let cmdJs : TimerCommand :=
        ⟨if env.devId then some devId else none, if env.dps then item.dps else none⟩
      if env.parse ≠ oprtOk then some (item, some cmdJs)
      else (clearExecuted env.time item).map fun item ↦ (item, some cmdJs)
  else (clearExecuted env.time item).map fun item ↦ (item, none)

/-- The loop of `__timer_check_timer_cb`, from an item on. -/
def timerCheckItems (devId : CString) (currentTime : PosixTm) (envs : ℕ → CheckEnv) :
    ℕ → List TimerItem → Option (List (TimerItem × Option TimerCommand))
  | _, [] => some []
  | k, item :: rest => do
      let turn ← timerCheckItem devId currentTime (envs k) item
      let turns ← timerCheckItems devId currentTime envs (k + 1) rest
      return turn :: turns

/-- A call of `__timer_check_timer_cb`: whether the timers are set up and the time is synchronised,
what the clock reads first, and the turns of the items. -/
structure CheckCall where
  inited : Bool
  timeSync : Bool
  current : UInt32
  items : ℕ → CheckEnv

/-- `__timer_check_timer_cb`, with the commands by the places of their items. -/
def timerCheckTimerCb (devId : CString) (call : CheckCall) (items : List TimerItem) :
    Option (List TimerItem × List (Option TimerCommand)) :=
  if call.inited = false then some (items, [])
  else if call.timeSync = false then some (items, [])
  else if items = [] then some (items, [])
  else do
    let currentTime ← gmtime call.current.toNat
    let turns ← timerCheckItems devId currentTime call.items 0 items
    return (turns.map Prod.fst, turns.map Prod.snd)

/-- The calls one after another, with the commands of each. -/
def timerCheckRun (devId : CString) :
    List TimerItem → List CheckCall → Option (List (CheckCall × List (Option TimerCommand)))
  | _, [] => some []
  | items, call :: rest => do
      let (items, commands) ← timerCheckTimerCb devId call items
      let log ← timerCheckRun devId items rest
      return (call, commands) :: log

/-! ## What is promised -/

/-- The minute of a reading, from 1970 on. -/
def minuteOf (time : UInt32) : ℕ := time.toNat / 60

/-- The item's time is that of the minute. -/
def TimerItem.HasTime (item : TimerItem) (minute : ℕ) : Prop :=
  StrncmpEq item.time (nowTime (utc (60 * minute))) timerTimeLen

instance (item : TimerItem) (minute : ℕ) : Decidable (item.HasTime minute) :=
  inferInstanceAs (Decidable (StrncmpEq _ _ _))

/-- The date, the time and the weekday match the minute. -/
def TimerItem.DueIn (item : TimerItem) (minute : ℕ) : Prop :=
  item.isDeleted = 0 ∧ (StrncmpEq item.date (nowDate (utc (60 * minute))) timerDateLen ∨
    StrncmpEq item.date (bytesOf "00000000") timerDateLen) ∧ item.HasTime minute ∧
    (item.loops = 0 ∨ item.loops.toNat.testBit (6 - (utc (60 * minute)).wday).toNat = true)

instance (item : TimerItem) (minute : ℕ) : Decidable (item.DueIn minute) :=
  inferInstanceAs (Decidable (_ ∧ _))

/-- A call that reads the clock. -/
def CheckCall.ready (call : CheckCall) : Bool := call.inited && call.timeSync

/-- Less than a minute lies between the first readings, and the second readings lie between them. -/
def CheckCall.Follows (a b : CheckCall) : Prop :=
  (∀ i, a.current.toNat ≤ (a.items i).time.toNat ∧ (a.items i).time.toNat ≤ b.current.toNat) ∧
    b.current.toNat < a.current.toNat + 60

/-- What the clock reads in a call, where it is read behind each of the items. -/
def CheckCall.readings (items : ℕ) (call : CheckCall) : List ℕ :=
  call.current.toNat :: (List.range items).map fun i ↦ (call.items i).time.toNat

/-- How often an item's command is handed over in a minute, which is that of the first reading. -/
def commandsIn (log : List (CheckCall × List (Option TimerCommand))) (i minute : ℕ) : ℕ :=
  log.countP fun entry ↦ decide (minuteOf entry.1.current = minute) && (entry.2[i]?.join).isSome

/-! ## Minutes -/

theorem zeroPadded_mod {width a b : ℕ} (h : zeroPadded width a = zeroPadded width b) :
    a % 10 ^ width = b % 10 ^ width := by
  induction width generalizing a b with
  | zero => rw [pow_zero, Nat.mod_one, Nat.mod_one]
  | succ width ih =>
      obtain ⟨hfront, hlast⟩ := List.append_inj' h rfl
      have hdigit : a % 10 = b % 10 := by
        have hbytes := congrArg UInt8.toNat (List.cons.inj hlast).1
        simp only [Nat.toUInt8, UInt8.toNat_ofNat'] at hbytes
        omega
      rw [pow_succ', Nat.mod_mul, Nat.mod_mul, ih hfront, hdigit]

@[simp] theorem length_zeroPadded (width n : ℕ) : (zeroPadded width n).length = width := by
  induction width generalizing n with
  | zero => rfl
  | succ width ih => simp [zeroPadded, ih]

theorem nowTime_inj {a b : ℕ} (h : nowTime (utc (60 * a)) = nowTime (utc (60 * b))) :
    a % 1440 = b % 1440 := by
  obtain ⟨hhour, hrest⟩ := List.append_inj h (by simp)
  have hmin := zeroPadded_mod (List.cons.inj hrest).2
  have hhour := zeroPadded_mod hhour
  simp only [utc, PosixTm.ofDate, Int.toNat_natCast] at hhour hmin
  have hday : ∀ n, 60 * n % 86400 / 60 = n % 1440 := fun n ↦ by
    rw [Nat.mul_mod_mul_left 60 n 1440, Nat.mul_div_cancel_left _ (by decide)]
  have hsplit : ∀ n, n / 3600 = n / 60 / 60 := fun n ↦ (Nat.div_div_eq_div_mul n 60 60).symm
  rw [hsplit, hsplit, hday, hday] at hhour
  rw [hday, hday] at hmin
  have ha : a % 1440 < 1440 := Nat.mod_lt a (by decide)
  have hb : b % 1440 < 1440 := Nat.mod_lt b (by decide)
  generalize a % 1440 = m, b % 1440 = n at *
  omega

theorem now_minute (time : UInt32) :
    nowDate (utc time.toNat) = nowDate (utc (60 * minuteOf time)) ∧
    nowTime (utc time.toNat) = nowTime (utc (60 * minuteOf time)) ∧
    (utc time.toNat).wday = (utc (60 * minuteOf time)).wday := by
  have hday : 60 * (time.toNat / 60) / 86400 = time.toNat / 86400 := by omega
  have hhour : 60 * (time.toNat / 60) % 86400 / 3600 = time.toNat % 86400 / 3600 := by omega
  have hmin : 60 * (time.toNat / 60) % 86400 / 60 % 60 = time.toNat % 86400 / 60 % 60 := by omega
  simp only [utc, PosixTm.ofDate, nowDate, nowTime, minuteOf, hday, hhour, hmin, and_self]

theorem hasTime_rare (item : TimerItem) : Latch.Rare item.HasTime := by
  have hdiffer : ∀ a b, item.HasTime a → item.HasTime b → a % 1440 = b % 1440 := by
    intro a b ha hb
    have htext := ha.symm.trans hb
    rw [List.take_of_length_le (by simp [nowTime, timerTimeLen]),
      List.take_of_length_le (by simp [nowTime, timerTimeLen])] at htext
    exact nowTime_inj htext
  refine fun k hk ↦ ⟨fun h ↦ ?_, fun h ↦ ?_⟩
  · have := hdiffer _ _ hk h
    omega
  · have := hdiffer _ _ hk h
    omega

/-! ## An item's turn -/

/-- The turn of the item at a place, as a poll of its alarm. -/
def CheckCall.poll (i : ℕ) (call : CheckCall) : Latch.Poll where
  first := minuteOf call.current
  later := minuteOf (call.items i).time
  skips := !(call.items i).object || decide ((call.items i).parse ≠ oprtOk)

/-- The flag of an item that is not deleted says whether its alarm is closed. -/
def TimerItem.Tracks (item : TimerItem) (closed : Bool) : Prop :=
  item.isDeleted = 0 → closed = decide (item.isExecuted ≠ 0)

theorem gmtime_reading (time : UInt32) : gmtime time.toNat = some (utc time.toNat) :=
  gmtime_eq time.toNat_lt

theorem checkTimerItem_eq_true (item : TimerItem) (time : UInt32) :
    checkTimerItem item (utc time.toNat) = true ↔
      item.isExecuted = 0 ∧ item.DueIn (minuteOf time) := by
  obtain ⟨hdate, htime, hwday⟩ := now_minute time
  unfold checkTimerItem TimerItem.DueIn TimerItem.HasTime
  rw [hdate, htime, hwday]
  by_cases hflags : item.isDeleted ≠ 0 ∨ item.isExecuted ≠ 0
  · rw [if_pos hflags]
    refine iff_of_false Bool.false_ne_true fun h ↦ ?_
    exact hflags.elim (fun hdeleted ↦ hdeleted h.2.1) fun hexecuted ↦ hexecuted h.1
  rw [if_neg hflags]
  by_cases hdates : ¬StrncmpEq item.date (nowDate (utc (60 * minuteOf time))) timerDateLen ∧
      ¬StrncmpEq item.date (bytesOf "00000000") timerDateLen
  · rw [if_pos hdates]
    exact iff_of_false Bool.false_ne_true fun h ↦ h.2.2.1.elim hdates.1 hdates.2
  rw [if_neg hdates]
  by_cases htime : StrncmpEq item.time (nowTime (utc (60 * minuteOf time))) timerTimeLen
  · rw [if_neg (not_not_intro htime)]
    obtain ⟨hdeleted, hexecuted⟩ : item.isDeleted = 0 ∧ item.isExecuted = 0 := by simpa using hflags
    have hmatch : StrncmpEq item.date (nowDate (utc (60 * minuteOf time))) timerDateLen ∨
        StrncmpEq item.date (bytesOf "00000000") timerDateLen := by tauto
    by_cases hloops : item.loops = 0
    · rw [if_pos hloops]
      exact iff_of_true rfl ⟨hexecuted, hdeleted, hmatch, htime, Or.inl hloops⟩
    · rw [if_neg hloops]
      refine ⟨fun h ↦ ⟨hexecuted, hdeleted, hmatch, htime, Or.inr h⟩, fun h ↦ ?_⟩
      exact h.2.2.2.2.resolve_left hloops
  · rw [if_pos htime]
    exact iff_of_false Bool.false_ne_true fun h ↦ htime h.2.2.2.1

theorem clearExecuted_eq (time : UInt32) (item : TimerItem) :
    ∃ item', clearExecuted time item = some item' ∧
      (∃ flag, item' = { item with isExecuted := flag }) ∧
      (item.isDeleted = 0 → (item'.isExecuted ≠ 0 ↔
        item.isExecuted ≠ 0 ∧ item.HasTime (minuteOf time))) := by
  have hclear : clearExecuted time item = if item.isExecuted ≠ 0 ∧ item.isDeleted = 0 then
      some (if ¬item.HasTime (minuteOf time) then { item with isExecuted := 0 } else item)
      else some item := by
    have htext : StrncmpEq item.time (nowTime (utc time.toNat)) timerTimeLen ↔
        item.HasTime (minuteOf time) := by rw [(now_minute time).2.1, TimerItem.HasTime]
    simp only [clearExecuted, gmtime_reading, Option.bind_eq_bind, Option.bind_some, htext]
    rfl
  rw [hclear]
  by_cases hflags : item.isExecuted ≠ 0 ∧ item.isDeleted = 0
  · by_cases htime : item.HasTime (minuteOf time)
    · rw [if_pos hflags, if_neg (not_not_intro htime)]
      exact ⟨item, rfl, ⟨item.isExecuted, rfl⟩, fun _ ↦ (and_iff_left htime).symm⟩
    · rw [if_pos hflags, if_pos htime]
      exact ⟨{ item with isExecuted := 0 }, rfl, ⟨0, rfl⟩, fun _ ↦ by simp [htime]⟩
  · refine ⟨item, if_neg hflags, ⟨item.isExecuted, rfl⟩, fun hdeleted ↦ ?_⟩
    have hexecuted : ¬item.isExecuted ≠ 0 := fun h ↦ hflags ⟨h, hdeleted⟩
    simp [hexecuted]

/-- A turn changes the flag alone, as the alarm's poll does, and hands a command over where the
alarm fires and there is memory. -/
structure Turn (call : CheckCall) (i : ℕ) (item item' : TimerItem) (command : Option TimerCommand) :
    Prop where
  same : ∃ flag, item' = { item with isExecuted := flag }
  tracks : ∀ closed, item.Tracks closed →
    item'.Tracks (Latch.closes item.DueIn item.HasTime closed (call.poll i))
  sent : ∀ closed, item.Tracks closed → (command.isSome = true ↔
    (call.items i).object = true ∧ closed = false ∧ item.DueIn (minuteOf call.current))

theorem TimerItem.Tracks.fires_iff {item : TimerItem} {closed : Bool} (h : item.Tracks closed)
    (minute : ℕ) : closed = false ∧ item.DueIn minute ↔
    item.isExecuted = 0 ∧ item.DueIn minute := by
  refine and_congr_left fun hdue ↦ ?_
  rw [h hdue.1]
  simp

theorem turn_due {call : CheckCall} {i : ℕ} {item : TimerItem} (devId : CString)
    (hcheck : checkTimerItem item (utc call.current.toNat) = true) :
    ∃ item' command, timerCheckItem devId (utc call.current.toNat) (call.items i) item =
      some (item', command) ∧ Turn call i item item' command := by
  obtain ⟨hexecuted, hdue⟩ := (checkTimerItem_eq_true _ _).mp hcheck
  have hfires : ∀ closed, item.Tracks closed → closed = false ∧ item.DueIn (call.poll i).first :=
    fun closed h ↦ (h.fires_iff _).mpr ⟨hexecuted, hdue⟩
  have hcloses : ∀ closed, item.Tracks closed →
      Latch.closes item.DueIn item.HasTime closed (call.poll i) =
        ((call.poll i).skips || decide (item.HasTime (call.poll i).later)) :=
    fun closed h ↦ if_pos (hfires closed h)
  unfold timerCheckItem
  rw [if_pos hcheck]
  by_cases hobject : (call.items i).object = false
  · rw [if_pos hobject]
    refine ⟨_, _, rfl, ⟨1, rfl⟩, fun closed h _ ↦ ?_, fun closed h ↦ by simp [hobject]⟩
    rw [hcloses closed h]
    simp [CheckCall.poll, hobject]
  rw [if_neg hobject]
  have hsent : ∀ (command : TimerCommand) closed, item.Tracks closed →
    ((some command).isSome = true ↔
      (call.items i).object = true ∧ closed = false ∧ item.DueIn (minuteOf call.current)) :=
    fun command closed h ↦ iff_of_true rfl ⟨by simpa using hobject, hfires closed h⟩
  by_cases hparse : (call.items i).parse ≠ oprtOk
  · rw [if_pos hparse]
    refine ⟨_, _, rfl, ⟨1, rfl⟩, fun closed h _ ↦ ?_, hsent _⟩
    rw [hcloses closed h]
    simp [CheckCall.poll, hparse]
  · rw [if_neg hparse]
    obtain ⟨item', hclear, ⟨flag, hsame⟩, hflag⟩ :=
      clearExecuted_eq (call.items i).time { item with isExecuted := 1 }
    refine ⟨item', _, by rw [hclear]; rfl, ⟨flag, hsame⟩, fun closed h hdeleted ↦ ?_, hsent _⟩
    rw [hsame] at hdeleted
    have hkept : item'.isExecuted ≠ 0 ↔ item.HasTime (minuteOf (call.items i).time) :=
      (hflag hdeleted).trans (and_iff_right (show (1 : UInt8) ≠ 0 by decide))
    rw [hcloses closed h, Bool.eq_iff_iff, decide_eq_true_iff, hkept]
    simp [CheckCall.poll, hparse, hobject]

theorem turn_idle {call : CheckCall} {i : ℕ} {item : TimerItem} (devId : CString)
    (hcheck : ¬checkTimerItem item (utc call.current.toNat) = true) :
    ∃ item' command, timerCheckItem devId (utc call.current.toNat) (call.items i) item =
      some (item', command) ∧ Turn call i item item' command := by
  have hfires : ∀ closed, item.Tracks closed → ¬(closed = false ∧ item.DueIn (call.poll i).first) :=
    fun closed h hfires ↦ hcheck ((checkTimerItem_eq_true _ _).mpr ((h.fires_iff _).mp hfires))
  unfold timerCheckItem
  rw [if_neg hcheck]
  obtain ⟨item', hclear, ⟨flag, hsame⟩, hflag⟩ := clearExecuted_eq (call.items i).time item
  refine ⟨item', none, by rw [hclear]; rfl, ⟨flag, hsame⟩, fun closed h hdeleted ↦ ?_,
    fun closed h ↦ ?_⟩
  · have hdeleted' : item.isDeleted = 0 := by rw [hsame] at hdeleted; exact hdeleted
    rw [Latch.closes, if_neg (hfires closed h), h hdeleted', decide_eq_decide.mpr (hflag hdeleted'),
      Bool.decide_and]
    rfl
  · exact iff_of_false Bool.false_ne_true fun hsent ↦ hfires closed h hsent.2

theorem turn_exists (devId : CString) (call : CheckCall) (i : ℕ) (item : TimerItem) :
    ∃ item' command, timerCheckItem devId (utc call.current.toNat) (call.items i) item =
      some (item', command) ∧ Turn call i item item' command := by
  by_cases hcheck : checkTimerItem item (utc call.current.toNat) = true
  · exact turn_due devId hcheck
  · exact turn_idle devId hcheck

/-! ## A call -/

theorem timerCheckItems_spec (devId : CString) (call : CheckCall) (k : ℕ) (items : List TimerItem) :
    ∃ turns, timerCheckItems devId (utc call.current.toNat) call.items k items = some turns ∧
      ∀ (i : ℕ) item, items[i]? = some item → ∃ item' command,
        turns[i]? = some (item', command) ∧ Turn call (k + i) item item' command := by
  induction items generalizing k with
  | nil => exact ⟨[], rfl, fun i item hi ↦ by simp at hi⟩
  | cons head rest ih =>
      obtain ⟨head', command, hhead, hturn⟩ := turn_exists devId call k head
      obtain ⟨turns, hrest, hturns⟩ := ih (k + 1)
      refine
        ⟨(head', command) :: turns, by simp [timerCheckItems, hhead, hrest], fun i item hi ↦ ?_⟩
      cases i with
      | zero =>
          obtain rfl := Option.some.inj hi
          exact ⟨head', command, rfl, hturn⟩
      | succ i =>
          have hplace : k + (i + 1) = k + 1 + i := by omega
          rw [hplace]
          exact hturns i item hi

theorem timerCheckTimerCb_ready (devId : CString) {call : CheckCall} (hready : call.ready = true)
    (items : List TimerItem) :
    ∃ items' commands, timerCheckTimerCb devId call items = some (items', commands) ∧
      ∀ (i : ℕ) item, items[i]? = some item → ∃ item',
        items'[i]? = some item' ∧ Turn call i item item' (commands[i]?.join) := by
  obtain ⟨hinited, htime⟩ : call.inited = true ∧ call.timeSync = true := by
    simpa [CheckCall.ready] using hready
  cases items with
  | nil => exact ⟨[], [], by simp [timerCheckTimerCb], fun i item hi ↦ by simp at hi⟩
  | cons head rest =>
      obtain ⟨turns, hturns, hspec⟩ := timerCheckItems_spec devId call 0 (head :: rest)
      refine ⟨turns.map Prod.fst, turns.map Prod.snd, ?_, fun i item hi ↦ ?_⟩
      · simp [timerCheckTimerCb, hinited, htime, gmtime_reading, hturns]
      · obtain ⟨item', command, hi', hturn⟩ := hspec i item hi
        rw [Nat.zero_add] at hturn
        exact ⟨item', by simp [hi'], by simpa [hi'] using hturn⟩

theorem timerCheckTimerCb_idle (devId : CString) {call : CheckCall} (hready : ¬call.ready = true)
    (items : List TimerItem) : timerCheckTimerCb devId call items = some (items, []) := by
  unfold timerCheckTimerCb
  cases hinited : call.inited with
  | false => rfl
  | true =>
      cases htime : call.timeSync with
      | false => rfl
      | true => simp [CheckCall.ready, hinited, htime] at hready

theorem commandsIn_cons (call : CheckCall) (commands : List (Option TimerCommand))
    (log : List (CheckCall × List (Option TimerCommand))) (i minute : ℕ) :
    commandsIn ((call, commands) :: log) i minute = commandsIn log i minute +
      if minuteOf call.current = minute ∧ (commands[i]?.join).isSome = true then 1 else 0 := by
  simp only [commandsIn, List.countP_cons, Bool.and_eq_true, decide_eq_true_eq]

theorem timerCheckRun_fires (devId : CString) (items : List TimerItem) (calls : List CheckCall) :
    ∃ log, timerCheckRun devId items calls = some log ∧
      ∀ (i : ℕ) item, items[i]? = some item → ∀ closed, item.Tracks closed → ∀ minute,
        (∀ call ∈ calls, minuteOf call.current = minute → (call.items i).object = true) →
        commandsIn log i minute = (Latch.fires item.DueIn item.HasTime closed
          ((calls.filter CheckCall.ready).map (CheckCall.poll i))).count minute := by
  induction calls generalizing items with
  | nil => exact ⟨[], rfl, fun i item hi closed h minute hobject ↦ rfl⟩
  | cons call calls ih =>
      by_cases hready : call.ready = true
      · obtain ⟨items', commands, hcall, hturns⟩ := timerCheckTimerCb_ready devId hready items
        obtain ⟨log, hrun, hlog⟩ := ih items'
        refine ⟨(call, commands) :: log, by simp [timerCheckRun, hcall, hrun],
          fun i item hi closed htracks minute hobject ↦ ?_⟩
        obtain ⟨hnow, hlater⟩ := List.forall_mem_cons.mp hobject
        obtain ⟨item', hi', hturn⟩ := hturns i item hi
        obtain ⟨flag, hsame⟩ := hturn.same
        have hrest := hlog i item' hi' _ (hturn.tracks closed htracks) minute hlater
        subst hsame
        rw [commandsIn_cons, List.filter_cons_of_pos hready, List.map_cons, Latch.count_fires_cons]
        refine congrArg₂ (· + ·) hrest (if_congr ?_ rfl rfl)
        rw [hturn.sent closed htracks]
        constructor
        · rintro ⟨hminute, -, hopen, hdue⟩
          exact ⟨hopen, hdue, hminute⟩
        · rintro ⟨hopen, hdue, hminute⟩
          exact ⟨hminute, hnow hminute, hopen, hdue⟩
      · obtain ⟨log, hrun, hlog⟩ := ih items
        have hcall := timerCheckTimerCb_idle devId hready items
        refine ⟨(call, []) :: log, by simp [timerCheckRun, hcall, hrun],
          fun i item hi closed htracks minute hobject ↦ ?_⟩
        rw [commandsIn_cons, List.filter_cons_of_neg hready, hlog i item hi closed htracks minute
          (List.forall_mem_cons.mp hobject).2]
        simp

theorem CheckCall.Follows.poll {a b : CheckCall} (h : a.Follows b) (i : ℕ) :
    Latch.Follows (a.poll i) (b.poll i) := by
  obtain ⟨hreadings, hgap⟩ := h
  obtain ⟨hfirst, hlater⟩ := hreadings i
  refine ⟨Nat.div_le_div_right hfirst, Nat.div_le_div_right hlater, ?_⟩
  simp only [CheckCall.poll, minuteOf]
  omega

/-- The command of an item is handed over once in each minute it is due in, from the first reading
to the last, if there is memory for it then, and in no other minute. -/
theorem commands_once (devId : CString) (items : List TimerItem) (calls : List CheckCall)
    (first last : CheckCall) (hfirst : (calls.filter CheckCall.ready).head? = some first)
    (hlast : (calls.filter CheckCall.ready).getLast? = some last)
    (hfollows : (calls.filter CheckCall.ready).IsChain CheckCall.Follows)
    (hflags : ∀ item ∈ items, item.isExecuted ≠ 0 → ∃ k, item.HasTime k ∧
      (minuteOf first.current = k ∨ minuteOf first.current = k + 1)) :
    ∃ log, timerCheckRun devId items calls = some log ∧
      ∀ (i : ℕ) item, items[i]? = some item → ∀ minute,
        (∀ call ∈ calls, minuteOf call.current = minute → (call.items i).object = true) →
        commandsIn log i minute =
          if item.DueIn minute ∧ minuteOf first.current ≤ minute ∧ minute ≤ minuteOf last.current ∧
            ¬(item.isExecuted ≠ 0 ∧ minute = minuteOf first.current) then 1 else 0 := by
  obtain ⟨log, hrun, hlog⟩ := timerCheckRun_fires devId items calls
  refine ⟨log, hrun, fun i item hi minute hobject ↦ ?_⟩
  rw [hlog i item hi (decide (item.isExecuted ≠ 0)) (fun _ ↦ rfl) minute hobject]
  obtain ⟨rest, hcalls⟩ := List.head?_eq_some_iff.mp hfirst
  have hchain : ((first :: rest).map (CheckCall.poll i)).IsChain Latch.Follows :=
    List.isChain_map_of_isChain _ (fun a b h ↦ h.poll i) (hcalls ▸ hfollows)
  have hsettled : Latch.Settled item.HasTime (decide (item.isExecuted ≠ 0))
      (first.poll i).first := by
    intro hexecuted
    obtain ⟨k, htime, heq | hnext⟩ :=
      hflags item (List.mem_of_getElem? hi) (of_decide_eq_true hexecuted)
    · exact Or.inl (show item.HasTime (minuteOf first.current) from heq.symm ▸ htime)
    · exact Or.inr ⟨k, hnext, htime⟩
  rw [hcalls, List.map_cons,
    Latch.count_fires (fun k h ↦ h.2.2.1) (hasTime_rare item) minute hchain hsettled]
  have hend : (((first :: rest).map (CheckCall.poll i)).getLast (by simp)).first =
      minuteOf last.current := by
    rw [hcalls, List.getLast?_eq_getLast_of_ne_nil (by simp), Option.some.injEq] at hlast
    rw [List.getLast_map, hlast]
    rfl
  refine if_congr (and_congr_right fun _ ↦ and_congr_right fun _ ↦ ?_) rfl rfl
  rw [← hend, decide_eq_true_iff]
  rfl

/-! ## A sample -/

/-- A timer for each day. -/
def sampleDaily (time : String) : TimerItem :=
  ⟨bytesOf "1", bytesOf "00000000", bytesOf time, 0x7f, 0, 0, some (bytesOf "\x7b\x7d"), 0⟩

def sampleCheck (object : Bool) (current time : UInt32) : CheckCall :=
  ⟨true, true, current, fun _ ↦ ⟨object, true, true, oprtOk, time⟩⟩

/-- Ten o'clock on the first of January 2025. -/
def sampleTen : UInt32 := 1735725600

theorem sampleDaily_due : (sampleDaily "10:00").DueIn (minuteOf sampleTen) := by
  have hcheck : (gmtime sampleTen.toNat).map (checkTimerItem (sampleDaily "10:00")) =
      some true := by
    decide +kernel
  rw [gmtime_reading] at hcheck
  exact ((checkTimerItem_eq_true _ _).mp (Option.some.inj hcheck)).2

/-- Readings within the minute and the next one, with memory or without it in the first call. -/
def sampleChecks (object : Bool) : List CheckCall :=
  [sampleCheck object (sampleTen + 10) (sampleTen + 11),
    sampleCheck true (sampleTen + 40) (sampleTen + 41),
    sampleCheck true (sampleTen + 70) (sampleTen + 71)]

/-- No first reading within the minute, in which the other timer's turn ends. -/
def skippingChecks : List CheckCall :=
  [sampleCheck true (sampleTen - 10) (sampleTen + 30),
    sampleCheck true (sampleTen + 80) (sampleTen + 81)]

theorem sampleChecks_follow : (sampleChecks true).IsChain CheckCall.Follows := by
  refine List.isChain_cons_cons.mpr ⟨⟨fun _ ↦ ?_, by decide⟩,
    List.isChain_cons_cons.mpr ⟨⟨fun _ ↦ ?_, by decide⟩, List.isChain_singleton _⟩⟩
  · exact show (sampleTen + 10).toNat ≤ (sampleTen + 11).toNat ∧
      (sampleTen + 11).toNat ≤ (sampleTen + 40).toNat by decide
  · exact show (sampleTen + 40).toNat ≤ (sampleTen + 41).toNat ∧
      (sampleTen + 41).toNat ≤ (sampleTen + 70).toNat by decide

theorem commands_once_daily : ∃ log, timerCheckRun [] [sampleDaily "10:00"] (sampleChecks true) =
    some log ∧ commandsIn log 0 (minuteOf sampleTen) = 1 := by
  obtain ⟨log, hrun, hlog⟩ := commands_once [] [sampleDaily "10:00"] (sampleChecks true) _ _ rfl rfl
    sampleChecks_follow (by simp [sampleDaily])
  refine ⟨log, hrun, ?_⟩
  rw [hlog 0 _ rfl _ (by simp [sampleChecks, sampleCheck]), if_pos]
  exact ⟨sampleDaily_due, by decide, by decide, fun h ↦ h.1 rfl⟩

/-- A minute between two readings is missed, and one without memory at its first reading. -/
theorem minute_missed : (sampleDaily "10:00").DueIn (minuteOf sampleTen) ∧
    ((skippingChecks.flatMap (CheckCall.readings 2)).IsChain (fun a b ↦ a ≤ b ∧ b < a + 60) ∧
      (timerCheckRun [] [sampleDaily "09:59", sampleDaily "10:00"] skippingChecks).map
        (fun log ↦ commandsIn log 1 (minuteOf sampleTen)) = some 0) ∧
    (((sampleChecks false).flatMap (CheckCall.readings 1)).IsChain (fun a b ↦ a ≤ b ∧ b < a + 60) ∧
      (timerCheckRun [] [sampleDaily "10:00"] (sampleChecks false)).map
        (fun log ↦ commandsIn log 0 (minuteOf sampleTen)) = some 0) :=
  ⟨sampleDaily_due, ⟨by decide, by decide +kernel⟩, by decide, by decide +kernel⟩

end TuyaOpen.Cloud
