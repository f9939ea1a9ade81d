import Mathlib.Algebra.Ring.Nat
import TuyaOpen.Cloud.TimerList
import TuyaOpen.Lib.Mealy

/-!
# The items of the timer list

`__apply_timer_updates` over many messages.  Each item is kept with the id that the cloud gave it,
which the item itself has only 31 bytes of.
-/

namespace TuyaOpen.Cloud

/-- An item and the id of the element that it was made from. -/
structure CloudItem where
  cloudId : CString
  item : TimerItem
  deriving DecidableEq

/-- `tuya_timer_task_list_t` with these ids. -/
structure TrackedList where
  items : List CloudItem
  timerItemsCount : UInt16
  lastTaskId : CString
  deriving DecidableEq

def trackedFind (items : List CloudItem) (id : CString) : Option CloudItem :=
  items.find? fun x ↦ StrncmpEq x.item.id id reqIdLen

def trackedReplace (id : CString) (item : TimerItem) : List CloudItem → List CloudItem
  | [] => []
  | x :: rest =>
      if StrncmpEq x.item.id id reqIdLen then { x with item := item } :: rest
      else x :: trackedReplace id item rest

/-- What an element makes of the item that it finds. -/
def TimerItem.updated (item : TimerItem) (obj : TimerJson) (alloc : Bool) :
    TimerItem × OperateRet :=
  let (item, rt) := timerItemPartialUpdateFromJson item obj alloc
  if rt ≠ oprtOk then (item, rt) else ({ item with isExecuted := 0 }, rt)

namespace TrackedList

variable (t : TrackedList)

/-- The list of the program. -/
def list : TimerTaskList := ⟨t.items.map CloudItem.item, t.timerItemsCount, t.lastTaskId⟩

/-- An element, in the first loop of `__apply_timer_updates`. -/
def update (alloc : TimerAlloc) (obj : TimerJson) : TrackedList × OperateRet :=
  match obj.id with
  | none => (t, oprtOk)
  | some id =>
      match trackedFind t.items id with
      | some x =>
          let (item, rt) := x.item.updated obj alloc.dps
          ({ t with items := trackedReplace id item t.items }, rt)
      | none =>
          if obj.deletes then (t, oprtOk)
          else match timerItemFromJson obj alloc with
            | (_, none) => (t, oprtOk)
            | (rt, some item) =>
                if rt ≠ oprtOk then (t, oprtOk)
                else ({ t with
                  items := t.items ++ [⟨id, item⟩]
                  timerItemsCount := t.timerItemsCount + 1 }, oprtOk)

/-- `__timer_item_del`. -/
def del (id : CString) : TrackedList :=
  match trackedFind t.items id with
  | none => t
  | some _ => { t with
      items := t.items.eraseP fun x ↦ StrncmpEq x.item.id id reqIdLen
      timerItemsCount := t.timerItemsCount - 1 }

def removeDeleted : TrackedList :=
  t.items.foldl (fun t x ↦ if x.item.isDeleted ≠ 0 then t.del x.item.id else t) t

/-- `__timer_list_clear`. -/
def clear : TrackedList := { t with items := [], timerItemsCount := 0 }

end TrackedList

/-- An element of a message, the second loop behind the elements, and a clear of the list. -/
inductive TimerListStep where
  | update (alloc : TimerAlloc) (obj : TimerJson)
  | finish
  | clear

def timerListMachine : Mealy TrackedList TimerListStep OperateRet where
  step t
    | .update alloc obj => t.update alloc obj
    | .finish => (t.removeDeleted, oprtOk)
    | .clear => (t.clear, oprtOk)

inductive TimerListCall where
  | sync (timers : List TimerJson) (allocs : ℕ → TimerAlloc)
  | clear

def TimerTaskList.call (list : TimerTaskList) : TimerListCall → TimerTaskList
  | .sync timers allocs => (applyTimerUpdates allocs 0 list timers).1
  | .clear => list.clear

/-- The steps of a message from the element at a position; one that ends well ends with `finish`. -/
@[grind =] def syncSteps (allocs : ℕ → TimerAlloc) :
    ℕ → TrackedList → List TimerJson → List TimerListStep
  | _, _, [] => [.finish]
  | i, t, obj :: rest =>
      let (t', rt) := t.update (allocs i) obj
      .update (allocs i) obj :: if rt ≠ oprtOk then [] else syncSteps allocs (i + 1) t' rest

def TimerListCall.steps (t : TrackedList) : TimerListCall → List TimerListStep
  | .sync timers allocs => syncSteps allocs 0 t timers
  | .clear => [.clear]

def callsSteps : TrackedList → List TimerListCall → List TimerListStep
  | _, [] => []
  | t, call :: rest =>
      call.steps t ++ callsSteps (timerListMachine.final t (call.steps t)) rest

/-! ## What is promised -/

/-- Behind a step the count is that of the items and their ids differ; an element leaves the items
of other ids as they were, and the second loop leaves those that are not deleted. -/
structure StepSound (t : TrackedList) (step : TimerListStep) : Prop where
  count : (timerListMachine.step t step).1.timerItemsCount.toNat =
    (timerListMachine.step t step).1.items.length
  distinct : ((timerListMachine.step t step).1.items.map (·.item.id)).Nodup
  others : ∀ alloc obj, step = .update alloc obj →
    (timerListMachine.step t step).1.items.filter (some ·.cloudId ≠ obj.id) =
      t.items.filter (some ·.cloudId ≠ obj.id)
  finished : step = .finish →
    (timerListMachine.step t step).1.items = t.items.filter (·.item.isDeleted = 0)

/-- The element says of an item what the item is. -/
structure NothingNew (item : TimerItem) (obj : TimerJson) (alloc : Bool) : Prop where
  date : ∀ date, obj.date = some date → strncpy timerDateLen date = item.date
  time : ∀ time, obj.time = some time → strncpy timerTimeLen time = item.time
  loops : ∀ loops, obj.loops = some loops → uint8 loops = item.loops
  isDeleted : ∀ isDeleted, obj.isDeleted = some isDeleted → uint8 isDeleted = item.isDeleted
  t : ∀ t, obj.t = some t → t = item.modifyTime
  dps : ∀ dps, obj.dps = some dps → (if alloc then some dps else none) = item.dps
  isExecuted : (obj.dps.isSome → alloc = true) → item.isExecuted = 0

/-- An element with all that an item needs, and memory for it. -/
structure Creates (obj : TimerJson) (alloc : TimerAlloc) : Prop where
  deletes : obj.deletes = false
  fields : obj.toItem.isSome
  item : alloc.item = true
  dps : obj.dps.isSome → alloc.dps = true

/-- The item whose 31 bytes are the id of an element has no longer id, or nothing changes; and a new
item has 31 bytes that no item has, and finds room in the count. -/
def StepSafe (t : TrackedList) : TimerListStep → Prop
  | .update alloc obj => ∀ id, obj.id = some id →
      (∀ x ∈ t.items, x.item.id = id → x.cloudId = id ∨ NothingNew x.item obj alloc.dps) ∧
      ((∀ x ∈ t.items, x.item.id ≠ id) → Creates obj alloc →
        (∀ x ∈ t.items, x.item.id ≠ strncpy reqIdLen id) ∧ t.items.length < 2 ^ 16 - 1)
  | .finish => True
  | .clear => True

/-- The list between the steps. -/
structure TrackedOk (t : TrackedList) : Prop where
  count : t.timerItemsCount.toNat = t.items.length
  distinct : Keyed.Distinct (·.item.id) t.items
  cut : ∀ x ∈ t.items, x.item.id = strncpy reqIdLen x.cloudId

/-! ## The list of the program -/

theorem trackedFind_item (items : List CloudItem) (id : CString) :
    timerItemFind (items.map CloudItem.item) id = (trackedFind items id).map CloudItem.item := by
  rw [timerItemFind, trackedFind, List.find?_map]
  rfl

theorem trackedReplace_item (id : CString) (item : TimerItem) (items : List CloudItem) :
    (trackedReplace id item items).map CloudItem.item =
      timerItemReplace id item (items.map CloudItem.item) := by
  induction items with
  | nil => rfl
  | cons x rest ih =>
      simp only [trackedReplace, List.map_cons, timerItemReplace]
      split
      · rfl
      · rw [List.map_cons, ih]

section

variable (t : TrackedList)

theorem list_del (id : CString) : (t.del id).list = t.list.timerItemDel id := by
  simp only [TrackedList.del, TimerTaskList.timerItemDel, TrackedList.list, trackedFind_item]
  cases trackedFind t.items id with
  | none => rfl
  | some x =>
      simp only [Option.map_some, TimerTaskList.mk.injEq, and_true]
      rw [List.eraseP_map]
      rfl

theorem list_removeDeleted : t.removeDeleted.list = t.list.removeDeleted := by
  have hfold : ∀ (rest : List CloudItem) (t : TrackedList),
      (rest.foldl (fun t x ↦ if x.item.isDeleted ≠ 0 then t.del x.item.id else t) t).list =
        (rest.map CloudItem.item).foldl (fun list item ↦
          if item.isDeleted ≠ 0 then list.timerItemDel item.id else list) t.list := by
    intro rest
    induction rest with
    | nil => exact fun _ ↦ rfl
    | cons x rest ih =>
        intro t
        simp only [List.foldl_cons, List.map_cons]
        rw [ih]
        split
        · rw [list_del]
        · rfl
  exact hfold t.items t

theorem applyTimerUpdates_cons (allocs : ℕ → TimerAlloc) (i : ℕ) (obj : TimerJson)
    (rest : List TimerJson) :
    applyTimerUpdates allocs i t.list (obj :: rest) =
      if (t.update (allocs i) obj).2 ≠ oprtOk then
        ((t.update (allocs i) obj).1.list, (t.update (allocs i) obj).2)
      else applyTimerUpdates allocs (i + 1) (t.update (allocs i) obj).1.list rest := by
  rw [applyTimerUpdates, TrackedList.update]
  cases hid : obj.id with
  | none => rfl
  | some id =>
      have hfind : timerItemFind t.list.items id = (trackedFind t.items id).map CloudItem.item :=
        trackedFind_item t.items id
      simp only [hfind]
      cases trackedFind t.items id with
      | some x =>
          simp only [Option.map_some, TimerItem.updated]
          split <;> simp [TrackedList.list, trackedReplace_item]
      | none =>
          simp only [Option.map_none]
          split
          · rfl
          · obtain ⟨rt, made⟩ := timerItemFromJson obj (allocs i)
            cases made with
            | none => rfl
            | some item =>
                by_cases hrt : rt = oprtOk
                · simp [hrt, TrackedList.list, TimerTaskList.addTail]
                · simp only [ne_eq, hrt, not_false_eq_true, if_true, not_true_eq_false, if_false]

theorem syncSteps_list (allocs : ℕ → TimerAlloc) (i : ℕ) (timers : List TimerJson) :
    (timerListMachine.final t (syncSteps allocs i t timers)).list =
      (applyTimerUpdates allocs i t.list timers).1 := by
  induction timers generalizing i t with
  | nil => exact list_removeDeleted t
  | cons obj rest ih =>
      rw [applyTimerUpdates_cons, syncSteps]
      split
      · rename_i t' rt hupdate
        simp only [hupdate, Mealy.final_cons]
        have hstep : (timerListMachine.step t (.update (allocs i) obj)).1 = t' := by
          simp [timerListMachine, hupdate]
        rw [hstep]
        split
        · rfl
        · exact ih _ _

theorem syncSteps_finish (allocs : ℕ → TimerAlloc) (i : ℕ) (timers : List TimerJson) :
    .finish ∈ syncSteps allocs i t timers ↔
      (applyTimerUpdates allocs i t.list timers).2 = oprtOk := by
  induction timers generalizing i t with
  | nil => simp [syncSteps, applyTimerUpdates]
  | cons obj rest ih =>
      rw [applyTimerUpdates_cons, syncSteps]
      split
      · rename_i t' rt hupdate
        simp only [hupdate, List.mem_cons, reduceCtorEq, false_or]
        split
        · rename_i hrt
          simpa using hrt
        · exact ih _ _

theorem callsSteps_list (calls : List TimerListCall) :
    (timerListMachine.final t (callsSteps t calls)).list =
      calls.foldl TimerTaskList.call t.list := by
  induction calls generalizing t with
  | nil => rfl
  | cons call rest ih =>
      have hcall : (timerListMachine.final t (call.steps t)).list = t.list.call call := by
        cases call with
        | sync timers allocs => exact syncSteps_list t allocs 0 timers
        | clear => rfl
      rw [callsSteps, Mealy.final_append, ih, hcall, List.foldl_cons]

end

/-! ## One element -/

@[simp] theorem updated_id (item : TimerItem) (obj : TimerJson) (alloc : Bool) :
    (item.updated obj alloc).1.id = item.id := by
  unfold TimerItem.updated
  dsimp only
  split <;> exact timerItemPartialUpdate_id item obj alloc

theorem updated_eq_iff {item : TimerItem} {obj : TimerJson} {alloc : Bool} :
    (item.updated obj alloc).1 = item ↔ NothingNew item obj alloc := by
  have hfield : ∀ {α β : Type} (new : Option α) (f : α → β) (old : β),
      (new.map f).getD old = old ↔ ∀ v, new = some v → f v = old := by
    intro α β new f old
    cases new <;> simp
  have hnew : ∀ (isExecuted : UInt8) (dps : Option CString),
      ({ item with
        date := (obj.date.map (strncpy timerDateLen)).getD item.date
        time := (obj.time.map (strncpy timerTimeLen)).getD item.time
        loops := (obj.loops.map uint8).getD item.loops
        isDeleted := (obj.isDeleted.map uint8).getD item.isDeleted
        modifyTime := obj.t.getD item.modifyTime
        dps := dps
        isExecuted := isExecuted } : TimerItem) = item ↔
      (∀ date, obj.date = some date → strncpy timerDateLen date = item.date) ∧
      (∀ time, obj.time = some time → strncpy timerTimeLen time = item.time) ∧
      (∀ loops, obj.loops = some loops → uint8 loops = item.loops) ∧
      (∀ t, obj.t = some t → t = item.modifyTime) ∧
      (∀ isDeleted, obj.isDeleted = some isDeleted → uint8 isDeleted = item.isDeleted) ∧
      dps = item.dps ∧ isExecuted = item.isExecuted := by
    intro isExecuted dps
    have ht := hfield obj.t id item.modifyTime
    simp only [Option.map_id, id_eq] at ht
    rw [← hfield obj.date, ← hfield obj.time, ← hfield obj.loops, ← hfield obj.isDeleted, ← ht]
    obtain ⟨⟩ := item
    simp only [TimerItem.mk.injEq, true_and]
  unfold TimerItem.updated timerItemPartialUpdateFromJson
  cases hdps : obj.dps with
  | none =>
      simp only [ne_eq, not_true_eq_false, if_false, hnew]
      constructor
      · rintro ⟨hdate, htime, hloops, ht, hdel, -, hexec⟩
        exact ⟨hdate, htime, hloops, hdel, ht, by simp [hdps], fun _ ↦ hexec.symm⟩
      · intro h
        exact ⟨h.date, h.time, h.loops, h.t, h.isDeleted, trivial,
          (h.isExecuted (by simp [hdps])).symm⟩
  | some dps =>
      cases alloc with
      | false =>
          have hfail : oprtMallocFailed ≠ oprtOk := by decide
          simp only [if_true, ne_eq, hfail, not_false_eq_true, hnew]
          constructor
          · rintro ⟨hdate, htime, hloops, ht, hdel, hcopy, -⟩
            exact ⟨hdate, htime, hloops, hdel, ht, by simpa [hdps] using hcopy, by simp [hdps]⟩
          · intro h
            exact ⟨h.date, h.time, h.loops, h.t,
              h.isDeleted, by simpa using h.dps dps hdps, trivial⟩
      | true =>
          simp only [Bool.true_eq_false, if_false, ne_eq, not_true_eq_false, hnew]
          constructor
          · rintro ⟨hdate, htime, hloops, ht, hdel, hcopy, hexec⟩
            exact ⟨hdate, htime, hloops, hdel, ht, by simpa [hdps] using hcopy, fun _ ↦ hexec.symm⟩
          · intro h
            exact ⟨h.date, h.time, h.loops, h.t, h.isDeleted, by simpa using h.dps dps hdps,
              (h.isExecuted fun _ ↦ rfl).symm⟩

theorem timerItemFromJson_cases {obj : TimerJson} (hdel : obj.deletes = false) {id : CString}
    (hid : obj.id = some id) (alloc : TimerAlloc) :
    (Creates obj alloc ∧ ∃ item, timerItemFromJson obj alloc = (oprtOk, some item) ∧
      item.id = strncpy reqIdLen id) ∨
    (¬Creates obj alloc ∧ (timerItemFromJson obj alloc).2 = none) := by
  unfold timerItemFromJson
  cases hmem : alloc.item with
  | false => exact .inr ⟨fun h ↦ absurd h.item (by simp [hmem]), by simp⟩
  | true =>
      cases hitem : obj.toItem with
      | none => exact .inr ⟨fun h ↦ absurd h.fields (by simp [hitem]), by simp⟩
      | some item =>
          have hitemId : item.id = strncpy reqIdLen id := by
            simp only [TimerJson.toItem, hid, Option.bind_eq_bind, Option.bind_some,
              Option.bind_eq_some_iff] at hitem
            obtain ⟨date, -, time, -, loops, -, isDeleted, -, t, -, hmade⟩ := hitem
            simp only [Option.pure_def, Option.some.injEq] at hmade
            exact congrArg TimerItem.id hmade.symm
          cases hdps : obj.dps with
          | none =>
              exact .inl ⟨⟨hdel, by simp [hitem], hmem, by simp [hdps]⟩, item, by simp, hitemId⟩
          | some dps =>
              cases hcopy : alloc.dps with
              | false =>
                  have hdpsSome : obj.dps.isSome := by simp [hdps]
                  exact .inr ⟨fun h ↦ absurd (h.dps hdpsSome) (by simp [hcopy]), by simp⟩
              | true =>
                  exact .inl ⟨⟨hdel, by simp [hitem], hmem, fun _ ↦ hcopy⟩,
                    { item with dps := some dps }, by simp, hitemId⟩

theorem TrackedList.update_cases (t : TrackedList) (alloc : TimerAlloc) (obj : TimerJson) :
    (obj.id = none ∧ (t.update alloc obj).1 = t) ∨
    (∃ id x, obj.id = some id ∧ trackedFind t.items id = some x ∧
      (t.update alloc obj).1 =
        { t with items := trackedReplace id (x.item.updated obj alloc.dps).1 t.items }) ∨
    (∃ id, obj.id = some id ∧ trackedFind t.items id = none ∧ ¬Creates obj alloc ∧
      (t.update alloc obj).1 = t) ∨
    (∃ id item, obj.id = some id ∧ trackedFind t.items id = none ∧ Creates obj alloc ∧
      item.id = strncpy reqIdLen id ∧ (t.update alloc obj).1 = { t with
        items := t.items ++ [⟨id, item⟩]
        timerItemsCount := t.timerItemsCount + 1 }) := by
  unfold TrackedList.update
  cases hid : obj.id with
  | none => exact .inl ⟨rfl, rfl⟩
  | some id =>
      dsimp only
      cases hfind : trackedFind t.items id with
      | some x => exact .inr (.inl ⟨id, x, rfl, hfind, rfl⟩)
      | none =>
          cases hdel : obj.deletes with
          | true =>
              have hcreates : ¬Creates obj alloc := fun h ↦ absurd h.deletes (by simp [hdel])
              exact .inr (.inr (.inl ⟨id, rfl, hfind, hcreates, by simp⟩))
          | false =>
              rcases timerItemFromJson_cases hdel hid alloc with
                ⟨hcreates, item, hmade, hitemId⟩ | ⟨hcreates, hmade⟩
              · exact .inr (.inr (.inr ⟨id, item, rfl, hfind, hcreates, hitemId, by simp [hmade]⟩))
              · refine .inr (.inr (.inl ⟨id, rfl, hfind, hcreates, ?_⟩))
                cases hjson : timerItemFromJson obj alloc with
                | mk rt made =>
                    obtain rfl : made = none := by simpa [hjson] using hmade
                    simp

/-! ## One step -/

namespace TrackedOk

variable {t : TrackedList}

theorem short (h : TrackedOk t) {x : CloudItem} (hx : x ∈ t.items) :
    x.item.id.length < reqIdLen := by
  rw [h.cut x hx, strncpy, List.length_take, reqIdLen]
  omega

theorem strncmp (h : TrackedOk t) {x : CloudItem} (hx : x ∈ t.items) (id : CString) :
    StrncmpEq x.item.id id reqIdLen ↔ x.item.id = id :=
  strncmpEq_iff (h.short hx)

theorem find (h : TrackedOk t) (id : CString) :
    trackedFind t.items id = Keyed.lookup (·.item.id) t.items id := by
  apply List.find?_congr
  intro x hx
  exact decide_eq_decide.mpr (h.strncmp hx id)

theorem replace (h : TrackedOk t) (id : CString) (item : TimerItem) :
    trackedReplace id item t.items =
      Keyed.modify (·.item.id) id (fun x ↦ { x with item := item }) t.items := by
  have hshort : ∀ x ∈ t.items, StrncmpEq x.item.id id reqIdLen ↔ x.item.id = id :=
    fun x hx ↦ h.strncmp hx id
  generalize t.items = items at hshort
  induction items with
  | nil => rfl
  | cons x rest ih =>
      have hrest := ih fun y hy ↦ hshort y (List.mem_cons_of_mem x hy)
      simp only [trackedReplace, Keyed.modify, hshort x List.mem_cons_self, hrest]

theorem erase (h : TrackedOk t) (id : CString) :
    (t.del id).items = Keyed.erase (·.item.id) id t.items := by
  unfold TrackedList.del
  cases hfind : trackedFind t.items id with
  | none =>
      rw [h.find] at hfind
      exact (Keyed.erase_of_lookup_eq_none hfind).symm
  | some x =>
      apply Keyed.eraseP_eq_erase
      intro y hy
      exact decide_eq_decide.mpr (h.strncmp hy id)

theorem sublist (h : TrackedOk t) {t' : TrackedList} (hsub : t'.items.Sublist t.items)
    (hcount : t'.timerItemsCount.toNat = t'.items.length) : TrackedOk t' :=
  ⟨hcount, h.distinct.sublist (hsub.map _), fun x hx ↦ h.cut x (hsub.subset hx)⟩

theorem del (h : TrackedOk t) (id : CString) : TrackedOk (t.del id) := by
  unfold TrackedList.del
  cases hfind : trackedFind t.items id with
  | none => exact h
  | some x =>
      have hx : x ∈ t.items := List.mem_of_find?_eq_some hfind
      have hmatch := List.find?_some hfind
      refine h.sublist List.eraseP_sublist ?_
      have hpos : 0 < t.items.length := List.length_pos_of_mem hx
      have hone : (1 : UInt16).toNat = 1 := rfl
      have hle : (1 : UInt16) ≤ t.timerItemsCount := by
        rw [UInt16.le_iff_toNat_le, h.count, hone]
        omega
      rw [UInt16.toNat_sub_of_le _ _ hle, h.count, List.length_eraseP_of_mem hx hmatch, hone]

theorem removeDeleted (h : TrackedOk t) :
    TrackedOk t.removeDeleted ∧ t.removeDeleted.items = t.items.filter (·.item.isDeleted = 0) := by
  have hwalk : ∀ (rest : List CloudItem) (t : TrackedList), TrackedOk t →
      TrackedOk (rest.foldl
        (fun t x ↦ if x.item.isDeleted ≠ 0 then t.del x.item.id else t) t) ∧
      (rest.foldl (fun t x ↦ if x.item.isDeleted ≠ 0 then t.del x.item.id else t) t).items =
        rest.foldl (fun items x ↦ if decide (x.item.isDeleted ≠ 0) then
          Keyed.erase (·.item.id) x.item.id items else items) t.items := by
    intro rest
    induction rest with
    | nil => exact fun _ h ↦ ⟨h, rfl⟩
    | cons x rest ih =>
        intro t h
        simp only [List.foldl_cons]
        by_cases hdel : x.item.isDeleted = 0
        · simpa [hdel] using ih t h
        · simpa [hdel, h.erase] using ih (t.del x.item.id) (h.del _)
  obtain ⟨hok, hitems⟩ := hwalk t.items t h
  have hall := Keyed.foldl_erase (fun x : CloudItem ↦ decide (x.item.isDeleted ≠ 0)) []
    t.items h.distinct
  refine ⟨hok, ?_⟩
  rw [TrackedList.removeDeleted, hitems]
  simpa using hall

theorem clear : TrackedOk t.clear :=
  ⟨rfl, List.nodup_nil, fun _ hx ↦ (List.not_mem_nil hx).elim⟩

theorem sound_found (h : TrackedOk t) {alloc : TimerAlloc} {obj : TimerJson} {id : CString}
    (hid : obj.id = some id) {x : CloudItem} (hfind : trackedFind t.items id = some x)
    (hupdate : (t.update alloc obj).1 =
      { t with items := trackedReplace id (x.item.updated obj alloc.dps).1 t.items }) :
    TrackedOk (t.update alloc obj).1 ∧
      (StepSound t (.update alloc obj) ↔ x.cloudId = id ∨ NothingNew x.item obj alloc.dps) := by
  have hlookup : Keyed.lookup (·.item.id) t.items id = some x := (h.find id).symm.trans hfind
  have hx := Keyed.mem_of_lookup hlookup
  have hkeep : ∀ {β : Type} (g : CloudItem → β),
      (∀ item, item.id = x.item.id → g { x with item := item } = g x) →
      (trackedReplace id (x.item.updated obj alloc.dps).1 t.items).map g = t.items.map g := by
    intro β g hg
    rw [h.replace]
    apply Keyed.map_modify
    intro y hy
    obtain rfl : x = y := Option.some.inj (hlookup.symm.trans hy)
    exact hg _ (updated_id _ _ _)
  have hids := hkeep (·.item.id) fun item hitem ↦ hitem
  have hlength : (trackedReplace id (x.item.updated obj alloc.dps).1 t.items).length =
      t.items.length := by
    simpa using congrArg List.length hids
  have hcount : t.timerItemsCount.toNat =
      (trackedReplace id (x.item.updated obj alloc.dps).1 t.items).length := by
    rw [hlength, h.count]
  have hothers : (trackedReplace id (x.item.updated obj alloc.dps).1 t.items).filter
      (some ·.cloudId ≠ obj.id) = t.items.filter (some ·.cloudId ≠ obj.id) ↔
      x.cloudId = id ∨ NothingNew x.item obj alloc.dps := by
    rw [h.replace, Keyed.filter_modify_iff (fun y hy ↦ by
      obtain rfl : x = y := Option.some.inj (hlookup.symm.trans hy)
      rfl)]
    have hsame : ({ x with item := (x.item.updated obj alloc.dps).1 } : CloudItem) = x ↔
        NothingNew x.item obj alloc.dps := by
      rw [← updated_eq_iff]
      obtain ⟨cloudId, item⟩ := x
      simp
    simp only [hlookup, Option.some.injEq, forall_eq', hsame, hid, ne_eq, decide_not,
      Bool.not_eq_true', decide_eq_false_iff_not]
    exact or_iff_not_imp_left.symm
  refine ⟨?_, fun hsound ↦ ?_, fun hown ↦ ?_⟩
  · rw [hupdate]
    refine ⟨hcount, ?_, ?_⟩
    · unfold Keyed.Distinct
      rw [hids]
      exact h.distinct
    · have hcut := hkeep (fun y ↦ (y.item.id, y.cloudId)) fun item hitem ↦ by rw [hitem]
      intro y hy
      have hmem := List.mem_map_of_mem (f := fun y : CloudItem ↦ (y.item.id, y.cloudId)) hy
      rw [hcut] at hmem
      obtain ⟨z, hz, heq⟩ := List.mem_map.mp hmem
      obtain ⟨hitem, hcloud⟩ := Prod.mk.inj heq
      rw [← hitem, ← hcloud, h.cut z hz]
  · have hfilter := hsound.others alloc obj rfl
    simp only [timerListMachine, hupdate] at hfilter
    exact hothers.mp hfilter
  · have hfilter := hothers.mpr hown
    refine ⟨?_, ?_, ?_, fun hstep ↦ by cases hstep⟩
    · simpa only [timerListMachine, hupdate] using hcount
    · simp only [timerListMachine, hupdate, hids]
      exact h.distinct
    · rintro alloc' obj' ⟨⟩
      simpa only [timerListMachine, hupdate] using hfilter

theorem sound_same (h : TrackedOk t) {alloc : TimerAlloc} {obj : TimerJson}
    (hupdate : (t.update alloc obj).1 = t) : StepSound t (.update alloc obj) := by
  refine ⟨?_, ?_, ?_, fun hstep ↦ by cases hstep⟩
  · simpa only [timerListMachine, hupdate] using h.count
  · simp only [timerListMachine, hupdate]
    exact h.distinct
  · rintro alloc' obj' ⟨⟩
    simp only [timerListMachine, hupdate]

theorem sound_created (h : TrackedOk t) {alloc : TimerAlloc} {obj : TimerJson} {id : CString}
    (hid : obj.id = some id) {item : TimerItem} (hitem : item.id = strncpy reqIdLen id)
    (hupdate : (t.update alloc obj).1 = { t with
      items := t.items ++ [⟨id, item⟩]
      timerItemsCount := t.timerItemsCount + 1 }) :
    (StepSound t (.update alloc obj) ↔ (∀ x ∈ t.items, x.item.id ≠ strncpy reqIdLen id) ∧
        t.items.length < 2 ^ 16 - 1) ∧
      (StepSound t (.update alloc obj) → TrackedOk (t.update alloc obj).1) := by
  have hcount : (t.timerItemsCount + 1).toNat = (t.items ++ [(⟨id, item⟩ : CloudItem)]).length ↔
      t.items.length < 2 ^ 16 - 1 := by
    have hone : (1 : UInt16).toNat = 1 := rfl
    have hlt := t.timerItemsCount.toNat_lt
    rw [UInt16.toNat_add, h.count, hone, List.length_append, List.length_singleton]
    rw [h.count] at hlt
    omega
  have hids : ((t.items ++ [(⟨id, item⟩ : CloudItem)]).map (·.item.id)).Nodup ↔
      ∀ x ∈ t.items, x.item.id ≠ strncpy reqIdLen id := by
    rw [List.map_append, List.map_singleton, List.nodup_append, hitem]
    constructor
    · rintro ⟨-, -, hnew⟩ x hx
      exact hnew _ (List.mem_map_of_mem hx) _ (List.mem_singleton_self _)
    · intro hnew
      refine ⟨h.distinct, List.nodup_singleton _, fun a ha b hb ↦ ?_⟩
      obtain ⟨x, hx, rfl⟩ := List.mem_map.mp ha
      rw [List.mem_singleton.mp hb]
      exact hnew x hx
  refine ⟨⟨fun hsound ↦ ⟨?_, ?_⟩, fun ⟨hnew, hroom⟩ ↦ ⟨?_, ?_, ?_, fun hstep ↦ by cases hstep⟩⟩,
    fun hsound ↦ ?_⟩
  · have hdistinct := hsound.distinct
    simp only [timerListMachine, hupdate] at hdistinct
    exact hids.mp hdistinct
  · have hlength := hsound.count
    simp only [timerListMachine, hupdate] at hlength
    exact hcount.mp hlength
  · simpa only [timerListMachine, hupdate] using hcount.mpr hroom
  · simpa only [timerListMachine, hupdate] using hids.mpr hnew
  · rintro alloc' obj' ⟨⟩
    simp [timerListMachine, hupdate, hid]
  · have hlength := hsound.count
    have hdistinct := hsound.distinct
    simp only [timerListMachine, hupdate] at hlength hdistinct
    rw [hupdate]
    refine ⟨hlength, hdistinct, fun x hx ↦ ?_⟩
    rcases List.mem_append.mp hx with hx | hx
    · exact h.cut x hx
    · rw [List.mem_singleton.mp hx]
      exact hitem

end TrackedOk

theorem TrackedOk.step {t : TrackedList} (h : TrackedOk t) (step : TimerListStep) :
    (StepSound t step ↔ StepSafe t step) ∧
      (StepSafe t step → TrackedOk (timerListMachine.step t step).1) := by
  cases step with
  | finish =>
      obtain ⟨hok, hitems⟩ := h.removeDeleted
      refine ⟨⟨fun _ ↦ trivial, fun _ ↦ ⟨hok.count, hok.distinct, ?_, fun _ ↦ hitems⟩⟩, fun _ ↦ hok⟩
      exact fun alloc obj hstep ↦ by cases hstep
  | clear =>
      have hok : TrackedOk t.clear := TrackedOk.clear
      refine ⟨⟨fun _ ↦ trivial, fun _ ↦ ⟨hok.count, hok.distinct, ?_, ?_⟩⟩, fun _ ↦ hok⟩
      · exact fun alloc obj hstep ↦ by cases hstep
      · exact fun hstep ↦ by cases hstep
  | update alloc obj =>
      have hnone : ∀ id, trackedFind t.items id = none → ∀ x ∈ t.items, x.item.id ≠ id := by
        intro id hfind
        rw [h.find] at hfind
        exact Keyed.lookup_eq_none.mp hfind
      rcases t.update_cases alloc obj with ⟨hid, hupdate⟩ | ⟨id, x, hid, hfind, hupdate⟩ |
        ⟨id, hid, hfind, hcreates, hupdate⟩ | ⟨id, item, hid, hfind, hcreates, hitem, hupdate⟩
      · refine ⟨⟨fun _ id hid' ↦ ?_, fun _ ↦ h.sound_same hupdate⟩, fun _ ↦ ?_⟩
        · cases hid.symm.trans hid'
        · simpa only [timerListMachine, hupdate] using h
      · obtain ⟨hok, hsound⟩ := h.sound_found hid hfind hupdate
        have hlookup := (h.find id).symm.trans hfind
        obtain ⟨hx, hxid⟩ := Keyed.mem_of_lookup hlookup
        refine ⟨hsound.trans ⟨fun hown id' hid' ↦ ?_, fun hsafe ↦ (hsafe id hid).1 x hx hxid⟩,
          fun _ ↦ hok⟩
        obtain rfl : id = id' := Option.some.inj (hid.symm.trans hid')
        refine ⟨fun y hy hyid ↦ ?_, fun hnew ↦ absurd hxid (hnew x hx)⟩
        obtain rfl : y = x := List.inj_on_of_nodup_map h.distinct hy hx (hyid.trans hxid.symm)
        exact hown
      · refine ⟨⟨fun _ id' hid' ↦ ?_, fun _ ↦ h.sound_same hupdate⟩, fun _ ↦ ?_⟩
        · obtain rfl : id = id' := Option.some.inj (hid.symm.trans hid')
          exact ⟨fun x hx hxid ↦ absurd hxid (hnone id hfind x hx),
            fun _ hmade ↦ absurd hmade hcreates⟩
        · simpa only [timerListMachine, hupdate] using h
      · obtain ⟨hsound, hok⟩ := h.sound_created hid hitem hupdate
        have hsafe : StepSound t (.update alloc obj) ↔ StepSafe t (.update alloc obj) := by
          refine hsound.trans ⟨fun hroom id' hid' ↦ ?_, fun hsafe ↦ ?_⟩
          · obtain rfl : id = id' := Option.some.inj (hid.symm.trans hid')
            exact ⟨fun x hx hxid ↦ absurd hxid (hnone id hfind x hx), fun _ _ ↦ hroom⟩
          · exact (hsafe id hid).2 (hnone id hfind) hcreates
        exact ⟨hsafe, fun h ↦ hok (hsafe.mpr h)⟩

def emptyTracked (lastTaskId : CString) : TrackedList := ⟨[], 0, lastTaskId⟩

/-- The list goes through the messages as the program does, with the second loop where a message
ends well; and each step is sound as long as each meets its condition, and no longer. -/
theorem timer_list_iff (lastTaskId : CString) (calls : List TimerListCall) :
    (timerListMachine.final (emptyTracked lastTaskId)
        (callsSteps (emptyTracked lastTaskId) calls)).list =
      calls.foldl TimerTaskList.call ⟨[], 0, lastTaskId⟩ ∧
    (∀ t timers allocs, .finish ∈ syncSteps allocs 0 t timers ↔
      (applyTimerUpdates allocs 0 t.list timers).2 = oprtOk) ∧
    (timerListMachine.Guarded StepSound (emptyTracked lastTaskId)
        (callsSteps (emptyTracked lastTaskId) calls) ↔
      timerListMachine.Guarded StepSafe (emptyTracked lastTaskId)
        (callsSteps (emptyTracked lastTaskId) calls)) := by
  have hempty : TrackedOk (emptyTracked lastTaskId) :=
    TrackedOk.clear (t := emptyTracked lastTaskId)
  refine ⟨callsSteps_list _ calls, fun t timers allocs ↦ syncSteps_finish t allocs 0 timers, ?_⟩
  exact timerListMachine.guarded_congr (fun t step h _ ↦ (h.step step).1)
    (fun t step h _ hsafe ↦ (h.step step).2 hsafe) hempty (timerListMachine.guarded_true _ _)

/-- A timer with an id of 32 bytes. -/
def longTimer : TimerJson :=
  ⟨some (List.replicate 32 0x61), some [], some [], some 0, some 0, some 0, none⟩

/-- A message brings it and another one changes it: there are two of it. -/
theorem long_id_twice :
    ¬(([.sync [longTimer] fun _ ↦ ⟨true, true⟩, .sync [longTimer] fun _ ↦ ⟨true, true⟩] :
      List TimerListCall).foldl TimerTaskList.call ⟨[], 0, []⟩).items.Pairwise
        (·.id ≠ ·.id) := by
  decide

end TuyaOpen.Cloud
