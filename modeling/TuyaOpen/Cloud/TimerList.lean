import TuyaOpen.Cloud.DeviceTimer
import TuyaOpen.Lib.Keyed

/-!
# The list of timers as a map

What the updates of a message mean, on timers by their ids, and when `applyTimerUpdates` does that.
It leaves out an update that it cannot make, and cuts what is too long for its arrays.
-/

namespace TuyaOpen.Cloud

/-- A timer, whatever its place and its id. -/
structure Timer where
  date : CString
  time : CString
  loops : ℤ
  isDeleted : ℤ
  t : UInt32
  dps : Option CString

abbrev TimerMap := CString → Option Timer

/-- The fields that are there replace those of the timer. -/
def TimerJson.merge (obj : TimerJson) (timer : Timer) : Timer where
  date := obj.date.getD timer.date
  time := obj.time.getD timer.time
  loops := obj.loops.getD timer.loops
  isDeleted := obj.isDeleted.getD timer.isDeleted
  t := obj.t.getD timer.t
  dps := obj.dps.or timer.dps

/-- The timer of an object with all the required fields. -/
def TimerJson.toTimer (obj : TimerJson) : Option Timer := do
  let date ← obj.date
  let time ← obj.time
  let loops ← obj.loops
  let isDeleted ← obj.isDeleted
  let t ← obj.t
  return ⟨date, time, loops, isDeleted, t, obj.dps⟩

namespace TimerMap

variable (map : TimerMap)

/-- An update of a timer that is there, the deletion of one that is not, or a new timer. -/
def update (obj : TimerJson) : Option TimerMap := do
  let id ← obj.id
  match map id with
  | some timer => return Function.update map id (some (obj.merge timer))
  | none =>
      if obj.deletes then return map
      else
        let timer ← obj.toTimer
        return Function.update map id (some timer)

/-- Deleted timers go at the end of a message. -/
def prune : TimerMap := fun id ↦ (map id).filter fun timer ↦ timer.isDeleted = 0

/-- The updates of a message, if each of them can be made. -/
def updates : TimerMap → List TimerJson → Option TimerMap
  | map, [] => some map.prune
  | map, obj :: rest => (map.update obj).bind fun map ↦ updates map rest

end TimerMap

section Update

variable {map : TimerMap} {obj : TimerJson} {id : CString}

theorem TimerMap.update_of_some (hid : obj.id = some id) {timer : Timer}
    (hmap : map id = some timer) :
    map.update obj = some (Function.update map id (some (obj.merge timer))) := by
  rw [TimerMap.update, hid, Option.bind_eq_bind, Option.bind_some, hmap]
  rfl

theorem TimerMap.update_of_none (hid : obj.id = some id) (hmap : map id = none) :
    map.update obj = if obj.deletes then some map
      else obj.toTimer.map fun timer ↦ Function.update map id (some timer) := by
  rw [TimerMap.update, hid, Option.bind_eq_bind, Option.bind_some, hmap]
  cases obj.deletes <;> cases obj.toTimer <;> rfl

end Update

/-- What a message has fits the arrays and bytes of an item. -/
structure TimerJson.Fits (obj : TimerJson) : Prop where
  id : ∀ id, obj.id = some id → id.length < reqIdLen
  date : ∀ date, obj.date = some date → date.length < timerDateLen
  time : ∀ time, obj.time = some time → time.length < timerTimeLen
  loops : ∀ v, obj.loops = some v → 0 ≤ v ∧ v < 256
  isDeleted : ∀ v, obj.isDeleted = some v → 0 ≤ v ∧ v < 256

/-- The timer is there, and there is no memory for a copy of its new `dps`. -/
def CopyFails (map : TimerMap) (obj : TimerJson) (alloc : TimerAlloc) : Prop :=
  (∃ id, obj.id = some id ∧ (map id).isSome) ∧ obj.dps.isSome ∧ alloc.dps = false

/-- There is memory for a timer that is new. -/
def MemoryFor (map : TimerMap) (obj : TimerJson) (alloc : TimerAlloc) : Prop :=
  (∀ id, obj.id = some id → map id = none) → obj.deletes = false →
    alloc.item = true ∧ (obj.dps.isSome → alloc.dps = true)

/-- The updates of a message fit and can be made, up to a copy that fails. -/
def Applicable (allocs : ℕ → TimerAlloc) : ℕ → TimerMap → List TimerJson → Prop
  | _, _, [] => True
  | i, map, obj :: rest => obj.Fits ∧ (CopyFails map obj (allocs i) ∨
      MemoryFor map obj (allocs i) ∧
        ∃ map', map.update obj = some map' ∧ Applicable allocs (i + 1) map' rest)

def TimerItem.toTimer (item : TimerItem) : Timer :=
  ⟨item.date, item.time, item.loops.toNat, item.isDeleted.toNat, item.modifyTime, item.dps⟩

/-- The map behind a list of timers. -/
def timerMap (items : List TimerItem) : TimerMap := fun id ↦
  (timerItemFind items id).map TimerItem.toTimer

/-- No two timers have one id, and each id is whole. -/
structure ListOk (items : List TimerItem) : Prop where
  distinct : Keyed.Distinct TimerItem.id items
  short : ∀ item ∈ items, item.id.length < reqIdLen

/-! ## Ids -/

theorem strncmpEq_iff {a b : CString} {n : ℕ} (ha : a.length < n) : StrncmpEq a b n ↔ a = b := by
  rw [StrncmpEq, List.take_of_length_le (Nat.le_of_lt ha)]
  constructor
  · intro h
    have hlen : (b.take n).length < n := h ▸ ha
    rw [List.length_take] at hlen
    rw [h, List.take_of_length_le (by omega)]
  · rintro rfl
    exact (List.take_of_length_le (Nat.le_of_lt ha)).symm

theorem strncpy_of_lt {s : CString} {n : ℕ} (h : s.length < n) : strncpy n s = s :=
  List.take_of_length_le (by omega)

theorem toNat_uint8 {v : ℤ} (h : 0 ≤ v ∧ v < 256) : ((uint8 v).toNat : ℤ) = v := by
  rw [uint8, Nat.toUInt8, UInt8.toNat_ofNat']
  omega

section Lists

variable {items : List TimerItem} {id : CString}

theorem ListOk.find (h : ListOk items) (id : CString) :
    timerItemFind items id = Keyed.lookup TimerItem.id items id := by
  rw [timerItemFind, Keyed.lookup]
  apply List.find?_congr
  intro item hitem
  exact decide_eq_decide.mpr (strncmpEq_iff (h.short item hitem))

theorem ListOk.map_eq (h : ListOk items) :
    timerMap items = fun id ↦ (Keyed.lookup TimerItem.id items id).map TimerItem.toTimer := by
  funext id
  rw [timerMap, h.find]

theorem ListOk.replace_eq (h : ListOk items) (id : CString) (item : TimerItem) :
    timerItemReplace id item items = Keyed.replace TimerItem.id id item items := by
  induction items with
  | nil => rfl
  | cons head rest ih =>
      have hrest : ListOk rest :=
        ⟨(List.nodup_cons.mp h.distinct).2, fun x hx ↦ h.short x (List.mem_cons_of_mem _ hx)⟩
      have hhead := strncmpEq_iff (b := id) (h.short head List.mem_cons_self)
      rw [timerItemReplace, Keyed.replace, ih hrest]
      by_cases hid : head.id = id
      · rw [if_pos (hhead.mpr hid), if_pos hid]
      · rw [if_neg (fun heq ↦ hid (hhead.mp heq)), if_neg hid]

theorem ListOk.replace (h : ListOk items) {item : TimerItem} (hid : item.id = id) :
    ListOk (timerItemReplace id item items) := by
  have hkeys : (timerItemReplace id item items).map TimerItem.id = items.map TimerItem.id := by
    rw [h.replace_eq, Keyed.map_key_replace hid]
  refine ⟨?_, ?_⟩
  · rw [Keyed.Distinct, hkeys]
    exact h.distinct
  · intro x hx
    have hmem : x.id ∈ items.map TimerItem.id := hkeys ▸ List.mem_map_of_mem hx
    obtain ⟨y, hy, heq⟩ := List.mem_map.mp hmem
    rw [← heq]
    exact h.short y hy

theorem ListOk.timerMap_replace (h : ListOk items) (item : TimerItem) (hid : item.id = id)
    (hfind : (timerItemFind items id).isSome) :
    timerMap (timerItemReplace id item items) =
      Function.update (timerMap items) id (some item.toTimer) := by
  rw [(h.replace hid).map_eq, h.map_eq, h.replace_eq,
    Keyed.lookup_replace hid (h.find id ▸ hfind)]
  funext k
  by_cases hk : k = id
  · rw [hk, Function.update_self, Function.update_self, Option.map_some]
  · rw [Function.update_of_ne hk, Function.update_of_ne hk]

theorem ListOk.append (h : ListOk items) {item : TimerItem} (hshort : item.id.length < reqIdLen)
    (hfind : timerItemFind items item.id = none) : ListOk (items ++ [item]) := by
  refine ⟨h.distinct.append_singleton (h.find _ ▸ hfind), ?_⟩
  intro x hx
  rcases List.mem_append.mp hx with hx | hx
  · exact h.short x hx
  · rw [List.mem_singleton.mp hx]
    exact hshort

theorem ListOk.timerMap_append (h : ListOk items) {item : TimerItem}
    (hshort : item.id.length < reqIdLen) (hfind : timerItemFind items item.id = none) :
    timerMap (items ++ [item]) =
      Function.update (timerMap items) item.id (some item.toTimer) := by
  rw [(h.append hshort hfind).map_eq, h.map_eq,
    Keyed.lookup_append_singleton (h.find _ ▸ hfind)]
  funext k
  by_cases hk : k = item.id
  · rw [hk, Function.update_self, Function.update_self, Option.map_some]
  · rw [Function.update_of_ne hk, Function.update_of_ne hk]

theorem ListOk.filter (h : ListOk items) (p : TimerItem → Bool) : ListOk (items.filter p) :=
  ⟨h.distinct.filter p, fun item hitem ↦ h.short item (List.mem_of_mem_filter hitem)⟩

theorem ListOk.sublist {items' : List TimerItem} (h : ListOk items) (hsub : items'.Sublist items) :
    ListOk items' :=
  ⟨h.distinct.sublist (hsub.map _), fun item hitem ↦ h.short item (hsub.subset hitem)⟩

theorem ListOk.timerItemDel {list : TimerTaskList} (h : ListOk list.items) (id : CString) :
    (list.timerItemDel id).items = Keyed.erase TimerItem.id id list.items := by
  have herase : list.items.eraseP (fun item ↦ StrncmpEq item.id id reqIdLen) =
      Keyed.erase TimerItem.id id list.items := by
    apply Keyed.eraseP_eq_erase
    intro item hitem
    exact decide_eq_decide.mpr (strncmpEq_iff (h.short item hitem))
  rw [TimerTaskList.timerItemDel]
  cases hfind : timerItemFind list.items id with
  | none =>
      rw [h.find] at hfind
      rw [Keyed.erase_of_lookup_eq_none hfind]
  | some item => exact herase

theorem ListOk.removeDeleted {list : TimerTaskList} (h : ListOk list.items) :
    list.removeDeleted.items = list.items.filter fun item ↦ item.isDeleted = 0 := by
  have hwalk : ∀ (rest : List TimerItem) (list : TimerTaskList), ListOk list.items →
      (rest.foldl (fun list item ↦
        if item.isDeleted ≠ 0 then list.timerItemDel item.id else list) list).items =
      rest.foldl (fun items item ↦ if decide (item.isDeleted ≠ 0) then
        Keyed.erase TimerItem.id item.id items else items) list.items := by
    intro rest
    induction rest with
    | nil => exact fun _ _ ↦ rfl
    | cons item rest ih =>
        intro list h
        rw [List.foldl_cons, List.foldl_cons]
        by_cases hdel : item.isDeleted = 0
        · rw [if_neg (not_not.mpr hdel), if_neg (by simp [hdel])]
          exact ih list h
        · rw [if_pos hdel, if_pos (by simp [hdel]), ← h.timerItemDel]
          apply ih
          rw [h.timerItemDel]
          exact h.sublist List.eraseP_sublist
  have hall := Keyed.foldl_erase (fun item : TimerItem ↦ decide (item.isDeleted ≠ 0)) []
    list.items h.distinct
  rw [TimerTaskList.removeDeleted, hwalk _ _ h]
  simpa using hall

theorem ListOk.timerMap_filter (h : ListOk items) :
    timerMap (items.filter fun item ↦ item.isDeleted = 0) = (timerMap items).prune := by
  rw [(h.filter _).map_eq, h.map_eq]
  funext id
  rw [TimerMap.prune, Keyed.lookup_filter h.distinct]
  cases Keyed.lookup TimerItem.id items id with
  | none => rfl
  | some item =>
      rw [Option.map_some, Option.filter_some, Option.filter_some]
      have hzero : item.toTimer.isDeleted = 0 ↔ item.isDeleted = 0 := by
        have hnat : item.isDeleted = 0 ↔ item.isDeleted.toNat = 0 := UInt8.toNat_inj.symm
        rw [hnat]
        exact Int.natCast_eq_zero
      by_cases hdel : item.isDeleted = 0
      · rw [if_pos (by simp [hdel]), if_pos (by simp [hzero.mpr hdel]), Option.map_some]
      · rw [if_neg (by simp [hdel]), if_neg (by simp [hzero, hdel]), Option.map_none]

end Lists

/-! ## Updates -/

section Updates

variable {obj : TimerJson}

@[simp] theorem timerItemPartialUpdate_id (item : TimerItem) (obj : TimerJson) (alloc : Bool) :
    (timerItemPartialUpdateFromJson item obj alloc).1.id = item.id := by
  rw [timerItemPartialUpdateFromJson]
  cases obj.dps <;> cases alloc <;> rfl

theorem timerItemPartialUpdate_code (item : TimerItem) (obj : TimerJson) (alloc : Bool) :
    (timerItemPartialUpdateFromJson item obj alloc).2 = oprtOk ↔
      ¬(obj.dps.isSome ∧ alloc = false) := by
  rw [timerItemPartialUpdateFromJson]
  cases obj.dps with
  | none => simp
  | some dps => cases alloc <;> simp [oprtMallocFailed, oprtOk]

/-- All fields are there, and each of them fits. -/
theorem TimerJson.fits_of_some {id date time : CString} {loops isDeleted : ℤ}
    {t : Option UInt32} {dps : Option CString} (hid : id.length < reqIdLen)
    (hdate : date.length < timerDateLen) (htime : time.length < timerTimeLen)
    (hloops : 0 ≤ loops ∧ loops < 256) (hdeleted : 0 ≤ isDeleted ∧ isDeleted < 256) :
    TimerJson.Fits ⟨some id, some date, some time, some loops, some isDeleted, t, dps⟩ where
  id _ h := Option.some.inj h ▸ hid
  date _ h := Option.some.inj h ▸ hdate
  time _ h := Option.some.inj h ▸ htime
  loops _ h := Option.some.inj h ▸ hloops
  isDeleted _ h := Option.some.inj h ▸ hdeleted

theorem TimerJson.Fits.merge (h : obj.Fits) (item : TimerItem) (alloc : Bool)
    (hok : (timerItemPartialUpdateFromJson item obj alloc).2 = oprtOk) :
    (timerItemPartialUpdateFromJson item obj alloc).1.toTimer = obj.merge item.toTimer := by
  have hdate : (obj.date.map (strncpy timerDateLen)).getD item.date = obj.date.getD item.date := by
    cases hobj : obj.date with
    | none => rfl
    | some date => exact strncpy_of_lt (h.date date hobj)
  have htime : (obj.time.map (strncpy timerTimeLen)).getD item.time = obj.time.getD item.time := by
    cases hobj : obj.time with
    | none => rfl
    | some time => exact strncpy_of_lt (h.time time hobj)
  have hloops : (((obj.loops.map uint8).getD item.loops).toNat : ℤ) =
      obj.loops.getD item.loops.toNat := by
    cases hobj : obj.loops with
    | none => rfl
    | some loops => exact toNat_uint8 (h.loops loops hobj)
  have hdel : (((obj.isDeleted.map uint8).getD item.isDeleted).toNat : ℤ) =
      obj.isDeleted.getD item.isDeleted.toNat := by
    cases hobj : obj.isDeleted with
    | none => rfl
    | some isDeleted => exact toNat_uint8 (h.isDeleted isDeleted hobj)
  have hcopy := (timerItemPartialUpdate_code item obj alloc).mp hok
  rw [timerItemPartialUpdateFromJson]
  cases hdps : obj.dps with
  | none => simp [TimerItem.toTimer, TimerJson.merge, hdate, htime, hloops, hdel, hdps]
  | some dps =>
      have halloc : alloc = true := by simpa [hdps] using hcopy
      simp [TimerItem.toTimer, TimerJson.merge, hdate, htime, hloops, hdel, hdps, halloc]

theorem TimerJson.Fits.create (h : obj.Fits) {id : CString} (hid : obj.id = some id)
    {timer : Timer} (htimer : obj.toTimer = some timer) {alloc : TimerAlloc}
    (halloc : alloc.item = true ∧ (obj.dps.isSome → alloc.dps = true)) :
    ∃ item, timerItemFromJson obj alloc = (oprtOk, some item) ∧ item.id = id ∧
      item.toTimer = timer := by
  obtain ⟨date, hdate, htimer⟩ := Option.bind_eq_some_iff.mp htimer
  obtain ⟨time, htime, htimer⟩ := Option.bind_eq_some_iff.mp htimer
  obtain ⟨loops, hloops, htimer⟩ := Option.bind_eq_some_iff.mp htimer
  obtain ⟨isDeleted, hdel, htimer⟩ := Option.bind_eq_some_iff.mp htimer
  obtain ⟨t, ht, htimer⟩ := Option.bind_eq_some_iff.mp htimer
  obtain rfl := Option.some.inj htimer
  have hitem : obj.toItem = some ⟨id, date, time, uint8 loops, t, uint8 isDeleted, none, 0⟩ := by
    rw [TimerJson.toItem, hid, hdate, htime, hloops, hdel, ht]
    change some _ = some _
    rw [strncpy_of_lt (h.id id hid), strncpy_of_lt (h.date date hdate),
      strncpy_of_lt (h.time time htime)]
  have hcast := toNat_uint8 (h.loops loops hloops)
  have hcast' := toNat_uint8 (h.isDeleted isDeleted hdel)
  rw [timerItemFromJson, if_neg (by simp [halloc.1]), hitem]
  cases hdps : obj.dps with
  | none => exact ⟨_, rfl, rfl, by simp [TimerItem.toTimer, hcast, hcast']⟩
  | some dps =>
      have hcopy := halloc.2 (by simp [hdps])
      dsimp only
      rw [if_neg (by simp [hcopy])]
      exact ⟨_, rfl, rfl, by simp [TimerItem.toTimer, hcast, hcast']⟩

theorem ListOk.update_known {list : TimerTaskList} (h : ListOk list.items) (hfits : obj.Fits)
    {id : CString} (hid : obj.id = some id) {item : TimerItem}
    (hfind : timerItemFind list.items id = some item) {alloc : Bool}
    (hok : (timerItemPartialUpdateFromJson item obj alloc).2 = oprtOk) :
    (timerMap list.items).update obj = some (timerMap (timerItemReplace id
      { (timerItemPartialUpdateFromJson item obj alloc).1 with isExecuted := 0 } list.items)) := by
  have hmapId : timerMap list.items id = some item.toTimer := by
    rw [timerMap, hfind, Option.map_some]
  have hitemId : item.id = id := (Keyed.mem_of_lookup (h.find id ▸ hfind)).2
  have hreplace := h.timerMap_replace
    { (timerItemPartialUpdateFromJson item obj alloc).1 with isExecuted := 0 }
    ((timerItemPartialUpdate_id item obj alloc).trans hitemId) (by rw [hfind]; rfl)
  rw [TimerMap.update_of_some hid hmapId, hreplace, ← hfits.merge item alloc hok]
  rfl

theorem ListOk.update_new {list : TimerTaskList} (h : ListOk list.items) (hfits : obj.Fits)
    {id : CString} (hid : obj.id = some id) (hfind : timerItemFind list.items id = none)
    (hdel : ¬obj.deletes = true) {map' : TimerMap}
    (hmap : (timerMap list.items).update obj = some map') {alloc : TimerAlloc}
    (halloc : alloc.item = true ∧ (obj.dps.isSome → alloc.dps = true)) :
    ∃ item, timerItemFromJson obj alloc = (oprtOk, some item) ∧ ListOk (list.addTail item).items ∧
      map' = timerMap (list.addTail item).items := by
  have hmapId : timerMap list.items id = none := by
    rw [timerMap, hfind, Option.map_none]
  rw [TimerMap.update_of_none hid hmapId, if_neg hdel] at hmap
  obtain ⟨timer, htimer, rfl⟩ := Option.map_eq_some_iff.mp hmap
  obtain ⟨item, hjson, rfl, rfl⟩ := hfits.create hid htimer halloc
  have hshort := hfits.id item.id hid
  exact ⟨item, hjson, h.append hshort hfind, (h.timerMap_append hshort hfind).symm⟩

theorem applyTimerUpdates_spec (allocs : ℕ → TimerAlloc) {i : ℕ} {list : TimerTaskList}
    {timers : List TimerJson} (h : ListOk list.items)
    (happ : Applicable allocs i (timerMap list.items) timers) :
    ListOk (applyTimerUpdates allocs i list timers).1.items ∧
      ((applyTimerUpdates allocs i list timers).2 = oprtOk →
        (timerMap list.items).updates timers =
          some (timerMap (applyTimerUpdates allocs i list timers).1.items)) := by
  induction timers generalizing i list with
  | nil =>
      rw [applyTimerUpdates, h.removeDeleted]
      refine ⟨h.filter _, fun _ ↦ ?_⟩
      rw [TimerMap.updates, h.timerMap_filter]
  | cons obj rest ih =>
      obtain ⟨hfits, happ⟩ := happ
      cases hid : obj.id with
      | none =>
          -- An update without an id can neither be made nor fail.
          exfalso
          rcases happ with ⟨⟨id, hsome, _⟩, _⟩ | ⟨_, map', hmap, _⟩
          · cases hid.symm.trans hsome
          · rw [TimerMap.update, hid] at hmap
            cases hmap
      | some id =>
          rw [applyTimerUpdates, hid]
          dsimp only
          cases hfind : timerItemFind list.items id with
          | some item =>
              dsimp only
              have hitemId : item.id = id := (Keyed.mem_of_lookup (h.find id ▸ hfind)).2
              have hkeep := (timerItemPartialUpdate_id item obj (allocs i).dps).trans hitemId
              by_cases hrt : (timerItemPartialUpdateFromJson item obj (allocs i).dps).2 = oprtOk
              · have hcopy := (timerItemPartialUpdate_code item obj (allocs i).dps).mp hrt
                obtain ⟨_, map', hmap, happ⟩ := happ.resolve_left fun hfail ↦ hcopy hfail.2
                obtain rfl := Option.some.inj (hmap.symm.trans (h.update_known hfits hid hfind hrt))
                rw [if_neg (not_not.mpr hrt), TimerMap.updates, hmap, Option.bind_some]
                exact ih (h.replace hkeep) happ
              · rw [if_pos hrt]
                exact ⟨h.replace hkeep, fun hok ↦ absurd hok hrt⟩
          | none =>
              dsimp only
              have hmapId : timerMap list.items id = none := by
                rw [timerMap, hfind, Option.map_none]
              have hnew : ∀ id', obj.id = some id' → timerMap list.items id' = none :=
                fun id' hid' ↦ Option.some.inj (hid.symm.trans hid') ▸ hmapId
              obtain ⟨hmemory, map', hmap, happ⟩ := happ.resolve_left fun hfail ↦ by
                obtain ⟨⟨id', hid', hsome⟩, _⟩ := hfail
                rw [hnew id' hid'] at hsome
                cases hsome
              rw [TimerMap.updates, hmap, Option.bind_some]
              by_cases hdel : obj.deletes = true
              · rw [TimerMap.update_of_none hid hmapId, if_pos hdel] at hmap
                obtain rfl := Option.some.inj hmap
                rw [if_pos hdel]
                exact ih h happ
              · have halloc := hmemory hnew (by simpa using hdel)
                obtain ⟨item, hjson, hlist, rfl⟩ := h.update_new hfits hid hfind hdel hmap halloc
                rw [if_neg hdel, hjson]
                dsimp only
                rw [if_neg (not_not.mpr rfl)]
                exact ih hlist happ

end Updates

end TuyaOpen.Cloud
