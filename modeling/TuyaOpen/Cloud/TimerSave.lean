import Mathlib.Data.FinEnum
import Mathlib.Data.Fintype.Pigeonhole
import Mathlib.Data.Fintype.Vector
import TuyaOpen.Cloud.AtopRequest
import TuyaOpen.Cloud.TimerItems
import TuyaOpen.Kv.Serialize

/-!
# The timer list in the store

`__timer_list_serialize` prints the list as JSON, with the SHA-256 of what it prints, and
`__timer_list_deserialize` reads it back after a restart.
-/

namespace TuyaOpen.Cloud

open JsonRead (Json intText)
open Kv (lower)

/-- The functions of cJSON that are called, over its values. -/
structure TimerCjson (V : Type) where
  parse : CString → Option V
  /-- `cJSON_PrintUnformatted`. -/
  print : V → CString
  getObjectItem : V → CString → Option V
  /-- The text, the `valueint`, or the `valuedouble` as a `TIME_T`, of a value of its type. -/
  valuestring : V → Option CString
  valueint : V → Option ℤ
  time : V → Option UInt32
  isObject : V → Bool
  /-- The elements of an array. -/
  elements : V → Option (List V)
  string : CString → V
  number : ℕ → V
  object : List (CString × V) → V
  array : List V → V

/-- What is built is read. -/
structure TimerCjson.Standard {V : Type} (c : TimerCjson V) : Prop where
  valuestring_string : ∀ s, c.valuestring (c.string s) = some s
  valueint_number : ∀ n < 2 ^ 31, c.valueint (c.number n) = some (n : ℤ)
  time_number : ∀ n < 2 ^ 32, c.time (c.number n) = some (UInt32.ofNat n)
  isObject_object : ∀ members, c.isObject (c.object members) = true
  elements_array : ∀ items, c.elements (c.array items) = some items
  getObjectItem_object : ∀ members key, c.getObjectItem (c.object members) key =
    (members.find? fun member ↦ lower member.1 = lower key).map Prod.snd

abbrev Digest := {digest : List UInt8 // digest.length = 32}

inductive TimerField where
  | id | date | time | loops | isDeleted | t | dps
  | lastTaskId | timerItemsCount | timers
  | sha256 | data
  deriving DecidableEq

def TimerField.key : TimerField → CString
  | .id => bytesOf "id"
  | .date => bytesOf "date"
  | .time => bytesOf "time"
  | .loops => bytesOf "loops"
  | .isDeleted => bytesOf "isDeleted"
  | .t => bytesOf "t"
  | .dps => bytesOf "dps"
  | .lastTaskId => bytesOf "last_task_id"
  | .timerItemsCount => bytesOf "timer_items_count"
  | .timers => bytesOf "timers"
  | .sha256 => bytesOf "sha256"
  | .data => bytesOf "data"

/-- The allocations that are checked. -/
inductive SavePlace where
  | data | timers
  | item (i : ℕ)
  | dps (i : ℕ)
  | dataStr | root | result | out

/-- Nobody looks at what `cJSON_AddItemToObject` and its like return; `adds` says whether they had
memory, for the fields of the item at a position or for those around the items. -/
structure SaveEnv where
  mem : SavePlace → Bool
  sha : OperateRet
  adds : Option ℕ → TimerField → Bool

/-- For the restart: the print of the data, the result of its SHA-256, and the items. -/
structure RestoreEnv where
  print : Bool
  sha : OperateRet
  allocs : ℕ → TimerAlloc

/-- `__sha256_hex`. -/
def sha256Hex (digest : Digest) : CString := digest.1.flatMap hexLower

section

variable {V : Type} (c : TimerCjson V) (sha : CString → Digest)

/-- The fields of an object that the program looks at. -/
def timerJson (obj : V) : TimerJson where
  id := (c.getObjectItem obj TimerField.id.key).bind c.valuestring
  date := (c.getObjectItem obj TimerField.date.key).bind c.valuestring
  time := (c.getObjectItem obj TimerField.time.key).bind c.valuestring
  loops := (c.getObjectItem obj TimerField.loops.key).bind c.valueint
  isDeleted := (c.getObjectItem obj TimerField.isDeleted.key).bind c.valueint
  t := (c.getObjectItem obj TimerField.t.key).bind c.time
  dps := (c.getObjectItem obj TimerField.dps.key).map c.print

/-- The members of an object that were added. -/
def added (adds : TimerField → Bool) (fields : List (TimerField × V)) : List (CString × V) :=
  (fields.filter fun field ↦ adds field.1).map fun field ↦ (field.1.key, field.2)

/-- `__timer_item_to_json`, of the item at a position. -/
def timerItemToJson (env : SaveEnv) (i : ℕ) (item : TimerItem) : Option V :=
  if env.mem (.item i) = false then none
  else
    let dps := match item.dps with
      | none => some (c.object [])
      | some dps => if env.mem (.dps i) then c.parse dps else none
    dps.map fun dps ↦ c.object (added (env.adds (some i))
      [(.id, c.string item.id), (.date, c.string item.date), (.time, c.string item.time),
        (.loops, c.number item.loops.toNat), (.isDeleted, c.number item.isDeleted.toNat),
        (.t, c.number item.modifyTime.toNat), (.dps, dps)])

def timerItemsToJson (env : SaveEnv) : ℕ → List TimerItem → Option (List V)
  | _, [] => some []
  | i, item :: rest => do
      let v ← timerItemToJson c env i item
      let vs ← timerItemsToJson env (i + 1) rest
      return v :: vs

/-- `data`. -/
def timerListData (env : SaveEnv) (list : TimerTaskList) (items : List V) : V :=
  c.object (added (env.adds none)
    [(.lastTaskId, c.string list.lastTaskId),
      (.timerItemsCount, c.number list.timerItemsCount.toNat), (.timers, c.array items)])

/-- `root`. -/
def timerListRoot (env : SaveEnv) (list : TimerTaskList) (items : List V) : V :=
  let data := timerListData c env list items
  c.object (added (env.adds none)
    [(.sha256, c.string (sha256Hex (sha (c.print data)))), (.data, data)])

/-- `__timer_list_serialize`. -/
def timerListSerialize (env : SaveEnv) (list : TimerTaskList) : Except OperateRet CString :=
  if env.mem .data = false ∨ env.mem .timers = false then .error oprtMallocFailed
  else
    match timerItemsToJson c env 0 list.items with
    | none => .error oprtComError
    | some items =>
        if env.mem .dataStr = false then .error oprtMallocFailed
        else if env.sha ≠ oprtOk then .error env.sha
        else if env.mem .root = false ∨ env.mem .result = false ∨ env.mem .out = false then
          .error oprtMallocFailed
        else .ok (c.print (timerListRoot c sha env list items))

/-- The loop of `__timer_list_deserialize`, from the item at a position. -/
def timerListRead (allocs : ℕ → TimerAlloc) :
    ℕ → TimerTaskList → List V → OperateRet × TimerTaskList
  | _, list, [] => (oprtOk, list)
  | i, list, jitem :: rest =>
      match timerItemFromJson (timerJson c jitem) (allocs i) with
      | (rt, none) => (rt, list)
      | (_, some item) => timerListRead allocs (i + 1) (list.addTail item) rest

/-- `__timer_list_deserialize`. -/
def timerListDeserialize (env : RestoreEnv) (text : CString) (list : TimerTaskList) :
    OperateRet × TimerTaskList :=
  match c.parse text with
  | none => (oprtInvalidParm, list)
  | some root =>
      match (c.getObjectItem root TimerField.sha256.key).bind c.valuestring,
        (c.getObjectItem root TimerField.data.key).filter c.isObject with
      | some jsha256, some jdata =>
          if env.print = false then (oprtMallocFailed, list)
          else if env.sha ≠ oprtOk then (env.sha, list)
          else if ¬StrncmpEq (sha256Hex (sha (c.print jdata))) jsha256 64 then (oprtComError, list)
          else
            let list := match (c.getObjectItem jdata TimerField.lastTaskId.key).bind
              c.valuestring with
              | none => list
              | some id => { list with lastTaskId := strncpy reqIdLen id }
            match (c.getObjectItem jdata TimerField.timers.key).bind c.elements with
            | none => (oprtInvalidParm, list)
            | some timers => timerListRead c env.allocs 0 list timers
      | _, _ => (oprtInvalidParm, list)

end

/-! ## What is promised -/

/-- A change of the list by a message, or by a clear, or the task id of a message. -/
inductive TimerListChange where
  | call (call : TimerListCall)
  | taskId (taskId : CString)

def TimerTaskList.change (list : TimerTaskList) : TimerListChange → TimerTaskList
  | .call call => list.call call
  | .taskId taskId => { list with lastTaskId := strncpy reqIdLen taskId }

/-- The fields fit their arrays, and the count is that of the items. -/
structure ListStored (list : TimerTaskList) : Prop where
  items : ∀ item ∈ list.items, item.id.length < reqIdLen ∧ item.date.length < timerDateLen ∧
    item.time.length < timerTimeLen
  count : list.timerItemsCount = UInt16.ofNat list.items.length
  lastTaskId : list.lastTaskId.length < reqIdLen

section

variable {V : Type} (c : TimerCjson V) (sha : CString → Digest)

/-- An item as the restart finds it. -/
def TimerItem.restored (item : TimerItem) : TimerItem :=
  { item with dps := some (item.dps.getD (c.print (c.object []))), isExecuted := 0 }

/-- The values that are built can be parsed from their print. -/
structure PrintsBack (env : SaveEnv) (list : TimerTaskList) : Prop where
  dps : ∀ item ∈ list.items, ∀ dps, item.dps = some dps →
    ∃ v, c.parse dps = some v ∧ c.print v = dps
  root : ∀ items, timerItemsToJson c env 0 list.items = some items →
    c.parse (c.print (timerListRoot c sha env list items)) =
      some (timerListRoot c sha env list items)

def RestoreEnv.Ok (env : RestoreEnv) : Prop :=
  env.print = true ∧ env.sha = oprtOk ∧ ∀ i, (env.allocs i).item = true ∧ (env.allocs i).dps = true

/-- What was serialized is read back into a list without items. -/
def ReadBack (senv : SaveEnv) (renv : RestoreEnv) (list : TimerTaskList) : Prop :=
  ∀ text lastTaskId, timerListSerialize c sha senv list = .ok text →
    timerListDeserialize c sha renv text ⟨[], 0, lastTaskId⟩ =
      (oprtOk, { list with items := list.items.map (TimerItem.restored c) })

/-- The data part of the text is not what was signed, by its digest. -/
def Tampered (text signed : CString) : Prop :=
  ∃ root data, c.parse text = some root ∧
    (c.getObjectItem root TimerField.sha256.key).bind c.valuestring =
      some (sha256Hex (sha signed)) ∧
    c.getObjectItem root TimerField.data.key = some data ∧ sha (c.print data) ≠ sha signed

/-- It is not read, and the list stays as it is. -/
def Rejected (text : CString) : Prop :=
  ∀ env list, (timerListDeserialize c sha env text list).1 ≠ oprtOk ∧
    (timerListDeserialize c sha env text list).2 = list

end

/-! ## The list between the messages -/

section

variable {list : TimerTaskList}

theorem strncpy_lt {len : ℕ} (hlen : 0 < len) (s : CString) : (strncpy len s).length < len := by
  unfold strncpy
  rw [List.length_take]
  omega

theorem count_succ (n : ℕ) : UInt16.ofNat n + 1 = UInt16.ofNat (n + 1) := by
  rw [UInt16.ofNat_add]
  rfl

theorem made_fits {obj : TimerJson} {alloc : TimerAlloc} {rt : OperateRet} {item : TimerItem}
    (h : timerItemFromJson obj alloc = (rt, some item)) :
    item.id.length < reqIdLen ∧ item.date.length < timerDateLen ∧
      item.time.length < timerTimeLen := by
  have hitem : ∀ item, obj.toItem = some item → item.id.length < reqIdLen ∧
      item.date.length < timerDateLen ∧ item.time.length < timerTimeLen := by
    intro item hitem
    simp only [TimerJson.toItem, Option.bind_eq_bind, Option.bind_eq_some_iff] at hitem
    obtain ⟨id, -, date, -, time, -, loops, -, isDeleted, -, t, -, hmade⟩ := hitem
    simp only [Option.pure_def, Option.some.injEq] at hmade
    rw [← hmade]
    exact ⟨strncpy_lt (by decide) id, strncpy_lt (by decide) date, strncpy_lt (by decide) time⟩
  unfold timerItemFromJson at h
  split at h
  · simp at h
  · split at h
    · simp at h
    · rename_i made hmade _
      obtain ⟨-, rfl⟩ : oprtOk = rt ∧ made = item := by simpa using h
      exact hitem made hmade
    · rename_i made dps hmade _
      split at h
      · simp at h
      · obtain ⟨-, rfl⟩ : oprtOk = rt ∧ { made with dps := some dps } = item := by simpa using h
        exact hitem made hmade

namespace ListStored

theorem addTail (h : ListStored list) {item : TimerItem} (hid : item.id.length < reqIdLen)
    (hdate : item.date.length < timerDateLen) (htime : item.time.length < timerTimeLen) :
    ListStored (list.addTail item) := by
  refine ⟨fun x hx ↦ ?_, ?_, h.lastTaskId⟩
  · rcases List.mem_append.mp hx with hx | hx
    · exact h.items x hx
    · rw [List.mem_singleton.mp hx]
      exact ⟨hid, hdate, htime⟩
  · simp only [TimerTaskList.addTail, h.count, List.length_append, List.length_singleton]
    exact count_succ _

theorem replace (h : ListStored list) (id : CString) {item : TimerItem}
    (hid : item.id.length < reqIdLen) (hdate : item.date.length < timerDateLen)
    (htime : item.time.length < timerTimeLen) :
    ListStored { list with items := timerItemReplace id item list.items } := by
  have hreplace : ∀ items : List TimerItem, (timerItemReplace id item items).length = items.length ∧
      ∀ x ∈ timerItemReplace id item items, x = item ∨ x ∈ items := by
    intro items
    induction items with
    | nil => simp [timerItemReplace]
    | cons head rest ih =>
        rw [timerItemReplace]
        split
        · refine ⟨rfl, fun x hx ↦ ?_⟩
          exact (List.mem_cons.mp hx).imp_right (List.mem_cons_of_mem _)
        · refine ⟨by simpa using ih.1, fun x hx ↦ ?_⟩
          rcases List.mem_cons.mp hx with rfl | hx
          · exact .inr List.mem_cons_self
          · exact (ih.2 x hx).imp_right (List.mem_cons_of_mem _)
  obtain ⟨hlength, hmem⟩ := hreplace list.items
  refine ⟨fun x hx ↦ ?_, by rw [hlength]; exact h.count, h.lastTaskId⟩
  rcases hmem x hx with rfl | hx
  · exact ⟨hid, hdate, htime⟩
  · exact h.items x hx

theorem timerItemDel (h : ListStored list) (id : CString) : ListStored (list.timerItemDel id) := by
  unfold TimerTaskList.timerItemDel
  cases hfind : timerItemFind list.items id with
  | none => exact h
  | some item =>
      refine ⟨fun x hx ↦ h.items x (List.mem_of_mem_eraseP hx), ?_, h.lastTaskId⟩
      have hmem := List.mem_of_find?_eq_some hfind
      have hmatch := List.find?_some hfind
      have hpos : 0 < list.items.length := List.length_pos_of_mem hmem
      obtain ⟨n, hn⟩ : ∃ n, list.items.length = n + 1 := ⟨list.items.length - 1, by omega⟩
      dsimp only
      rw [List.length_eraseP_of_mem hmem hmatch, h.count, hn, ← count_succ]
      simp

theorem removeDeleted (h : ListStored list) : ListStored list.removeDeleted := by
  have hfold : ∀ (rest : List TimerItem) (list : TimerTaskList), ListStored list →
      ListStored (rest.foldl
        (fun list item ↦ if item.isDeleted ≠ 0 then list.timerItemDel item.id else list) list) := by
    intro rest
    induction rest with
    | nil => exact fun _ h ↦ h
    | cons item rest ih =>
        intro list h
        rw [List.foldl_cons]
        split
        · exact ih _ (h.timerItemDel item.id)
        · exact ih _ h
  exact hfold list.items list h

theorem partialUpdate {item : TimerItem} (obj : TimerJson) (alloc : Bool)
    (h : item.id.length < reqIdLen ∧ item.date.length < timerDateLen ∧
      item.time.length < timerTimeLen) :
    (timerItemPartialUpdateFromJson item obj alloc).1.id.length < reqIdLen ∧
      (timerItemPartialUpdateFromJson item obj alloc).1.date.length < timerDateLen ∧
      (timerItemPartialUpdateFromJson item obj alloc).1.time.length < timerTimeLen := by
  have hcut : ∀ (len : ℕ) (new : Option CString) (old : CString), 0 < len → old.length < len →
      ((new.map (strncpy len)).getD old).length < len := by
    intro len new old hlen hold
    cases new with
    | none => exact hold
    | some text => exact strncpy_lt hlen text
  have hdate := hcut timerDateLen obj.date item.date (by decide) h.2.1
  have htime := hcut timerTimeLen obj.time item.time (by decide) h.2.2
  unfold timerItemPartialUpdateFromJson
  cases obj.dps with
  | none => exact ⟨h.1, hdate, htime⟩
  | some dps =>
      dsimp only
      split <;> exact ⟨h.1, hdate, htime⟩

theorem updates (h : ListStored list) (allocs : ℕ → TimerAlloc) (i : ℕ) (timers : List TimerJson) :
    ListStored (applyTimerUpdates allocs i list timers).1 := by
  induction timers generalizing i list with
  | nil => exact h.removeDeleted
  | cons obj rest ih =>
      rw [applyTimerUpdates]
      cases hid : obj.id with
      | none => exact ih h _
      | some id =>
          dsimp only
          cases hfind : timerItemFind list.items id with
          | some item =>
              have hitem := h.items item (List.mem_of_find?_eq_some hfind)
              obtain ⟨hid', hdate, htime⟩ := partialUpdate obj (allocs i).dps hitem
              dsimp only
              split
              · exact h.replace id hid' hdate htime
              · refine ih ?_ _
                exact h.replace id hid' hdate htime
          | none =>
              dsimp only
              split
              · exact ih h _
              · split
                · exact ih h _
                · rename_i rt item hmade
                  split
                  · exact ih h _
                  · obtain ⟨hid', hdate, htime⟩ := made_fits hmade
                    exact ih (h.addTail hid' hdate htime) _

end ListStored

end

/-! ## What is read back -/

theorem hexLower_injective : Function.Injective hexLower := by
  have hback : ∀ n < 256, ((hexLower (UInt8.ofNat n)).map fun b ↦
      if b < 0x3a then b - 0x30 else b - 0x57) = [UInt8.ofNat n / 16, UInt8.ofNat n % 16] := by
    decide +kernel
  have hbytes : ∀ b : UInt8, ((hexLower b).map fun b ↦
      if b < 0x3a then b - 0x30 else b - 0x57) = [b / 16, b % 16] := by
    intro b
    simpa using hback b.toNat b.toNat_lt
  intro a b h
  have heq := (hbytes a).symm.trans ((congrArg _ h).trans (hbytes b))
  simp only [List.cons.injEq, and_true] at heq
  obtain ⟨hhigh, hlow⟩ := heq
  apply UInt8.toNat_inj.mp
  have hhigh' := congrArg UInt8.toNat hhigh
  have hlow' := congrArg UInt8.toNat hlow
  simp only [UInt8.toNat_div, UInt8.toNat_mod, UInt8.toNat_ofNat, Nat.reducePow, Nat.reduceMod]
    at hhigh' hlow'
  omega

theorem sha256Hex_injective : Function.Injective sha256Hex := by
  have hflat : ∀ a b : List UInt8, a.length = b.length → a.flatMap hexLower = b.flatMap hexLower →
      a = b := by
    intro a b hlength h
    induction a generalizing b with
    | nil => exact (List.eq_nil_of_length_eq_zero hlength.symm).symm
    | cons x a ih =>
        cases b with
        | nil => cases hlength
        | cons y b =>
            rw [List.flatMap_cons, List.flatMap_cons] at h
            obtain ⟨hhead, htail⟩ := List.append_inj h rfl
            rw [hexLower_injective hhead, ih b (by simpa using hlength) htail]
  intro a b h
  exact Subtype.ext (hflat a.1 b.1 (a.2.trans b.2.symm) h)

theorem length_sha256Hex (digest : Digest) : (sha256Hex digest).length = 64 := by
  unfold sha256Hex hexLower
  rw [length_hexText, digest.2]

theorem TimerField.lower_key {a b : TimerField} : lower a.key = lower b.key ↔ a = b := by
  refine ⟨fun h ↦ ?_, fun h ↦ h ▸ rfl⟩
  cases a <;> cases b <;> first | rfl | exact absurd h (by decide)

section

variable {V : Type} {c : TimerCjson V} {sha : CString → Digest}

theorem TimerCjson.Standard.getObjectItem_added (hc : c.Standard) (adds : TimerField → Bool)
    (fields : List (TimerField × V)) (field : TimerField) :
    c.getObjectItem (c.object (added adds fields)) field.key =
      ((fields.filter fun f ↦ adds f.1).find? fun f ↦ f.1 = field).map Prod.snd := by
  rw [hc.getObjectItem_object, added, List.find?_map, Option.map_map]
  congr 1
  apply List.find?_congr
  intro f _
  exact decide_eq_decide.mpr TimerField.lower_key

/-- All additions had memory; nobody reads the count. -/
def SaveEnv.AddsOk (env : SaveEnv) :
    Prop := ∀ i field, field ≠ .timerItemsCount → env.adds i field = true

theorem timerJson_toJson (hc : c.Standard) {env : SaveEnv} (hadds : env.AddsOk) {i : ℕ}
    {item : TimerItem} {v : V} (hv : timerItemToJson c env i item = some v)
    (hdps : ∀ dps, item.dps = some dps → ∃ v, c.parse dps = some v ∧ c.print v = dps) :
    timerJson c v = ⟨some item.id, some item.date, some item.time, some item.loops.toNat,
      some item.isDeleted.toNat, some item.modifyTime,
      some (item.dps.getD (c.print (c.object [])))⟩ := by
  unfold timerItemToJson at hv
  simp only [Option.ite_none_left_eq_some] at hv
  obtain ⟨dps, hvalue, rfl⟩ := Option.map_eq_some_iff.mp hv.2
  have hprint : c.print dps = item.dps.getD (c.print (c.object [])) := by
    cases htext : item.dps with
    | none =>
        obtain rfl : c.object [] = dps := by simpa [htext] using hvalue
        rfl
    | some text =>
        obtain ⟨w, hparse, hback⟩ := hdps text htext
        simp only [htext, hparse, Option.ite_none_right_eq_some, Option.some.injEq] at hvalue
        rw [← hvalue.2, hback]
        rfl
  have hloops := hc.valueint_number item.loops.toNat (by have := item.loops.toNat_lt; omega)
  have hdel := hc.valueint_number item.isDeleted.toNat (by have := item.isDeleted.toNat_lt; omega)
  have ht := hc.time_number item.modifyTime.toNat item.modifyTime.toNat_lt
  rw [UInt32.ofNat_toNat] at ht
  have hadd : ∀ field, field ≠ TimerField.timerItemsCount → env.adds (some i) field = true :=
    fun field hfield ↦ hadds (some i) field hfield
  simp only [timerJson, hc.getObjectItem_added]
  simp [hadd, hc.valuestring_string, hloops, hdel, ht, hprint]

theorem fromJson_restored {item : TimerItem} (hfit : item.id.length < reqIdLen ∧
      item.date.length < timerDateLen ∧ item.time.length < timerTimeLen)
    {alloc : TimerAlloc} (halloc : alloc.item = true ∧ alloc.dps = true) :
    timerItemFromJson ⟨some item.id, some item.date, some item.time, some item.loops.toNat,
      some item.isDeleted.toNat, some item.modifyTime,
      some (item.dps.getD (c.print (c.object [])))⟩ alloc = (oprtOk, some (item.restored c)) := by
  have hbyte : ∀ b : UInt8, uint8 (b.toNat : ℤ) = b := by
    intro b
    have hcast := toNat_uint8 (v := (b.toNat : ℤ)) ⟨by omega, by have := b.toNat_lt; omega⟩
    exact UInt8.toNat_inj.mp (by exact_mod_cast hcast)
  simp [timerItemFromJson, TimerJson.toItem, halloc, strncpy_of_lt hfit.1, strncpy_of_lt hfit.2.1,
    strncpy_of_lt hfit.2.2, hbyte, TimerItem.restored]

theorem timerListRead_toJson (hc : c.Standard) {env : SaveEnv} (hadds : env.AddsOk)
    {allocs : ℕ → TimerAlloc} (hallocs : ∀ i, (allocs i).item = true ∧ (allocs i).dps = true)
    {items : List TimerItem} (hfit : ∀ item ∈ items, item.id.length < reqIdLen ∧
      item.date.length < timerDateLen ∧ item.time.length < timerTimeLen)
    (hdps : ∀ item ∈ items, ∀ dps, item.dps = some dps →
      ∃ v, c.parse dps = some v ∧ c.print v = dps) {i : ℕ} {values : List V}
    (hvalues : timerItemsToJson c env i items = some values) (j : ℕ) (list : TimerTaskList) :
    timerListRead c allocs j list values = (oprtOk, { list with
      items := list.items ++ items.map (TimerItem.restored c)
      timerItemsCount := list.timerItemsCount + UInt16.ofNat items.length }) := by
  induction items generalizing i values j list with
  | nil =>
      obtain rfl : values = [] := (Option.some.inj hvalues).symm
      simp [timerListRead]
  | cons item rest ih =>
      simp only [timerItemsToJson, Option.bind_eq_bind, Option.bind_eq_some_iff, Option.pure_def,
        Option.some.injEq] at hvalues
      obtain ⟨v, hv, vs, hvs, rfl⟩ := hvalues
      have hrest := ih (fun x hx ↦ hfit x (List.mem_cons_of_mem _ hx))
        (fun x hx ↦ hdps x (List.mem_cons_of_mem _ hx)) hvs (j + 1)
      have hjson := timerJson_toJson hc hadds hv (hdps item List.mem_cons_self)
      rw [timerListRead, hjson, fromJson_restored (hfit item List.mem_cons_self) (hallocs j)]
      simp only [hrest, TimerTaskList.addTail, List.map_cons, List.append_assoc,
        List.singleton_append, List.length_cons, ← count_succ]
      rw [UInt16.add_assoc, UInt16.add_comm 1]

theorem getObjectItem_data (hc : c.Standard) {env : SaveEnv} (hadds : env.AddsOk)
    (list : TimerTaskList) (items : List V) :
    c.getObjectItem (timerListData c env list items) TimerField.lastTaskId.key =
        some (c.string list.lastTaskId) ∧
      c.getObjectItem (timerListData c env list items) TimerField.timers.key =
        some (c.array items) := by
  have hadd : ∀ field, field ≠ TimerField.timerItemsCount → env.adds none field = true :=
    fun field hfield ↦ hadds none field hfield
  unfold timerListData
  rw [hc.getObjectItem_added, hc.getObjectItem_added]
  cases hcount : env.adds none .timerItemsCount <;> simp [hadd, hcount]

theorem readBack_of_stored (hc : c.Standard) {senv : SaveEnv} (hadds : senv.AddsOk)
    {renv : RestoreEnv} (hrenv : renv.Ok) {list : TimerTaskList} (hlist : ListStored list)
    (hback : PrintsBack c sha senv list) : ReadBack c sha senv renv list := by
  intro text lastTaskId htext
  unfold timerListSerialize at htext
  cases hitems : timerItemsToJson c senv 0 list.items with
  | none =>
      simp only [hitems] at htext
      split_ifs at htext
  | some items =>
      simp only [hitems] at htext
      split_ifs at htext with hmem hdata hsha hroot
      obtain rfl := Except.ok.inj htext
      obtain ⟨hprint, hsha', hallocs⟩ := hrenv
      have hadd : ∀ field, field ≠ TimerField.timerItemsCount → senv.adds none field = true :=
        fun field hfield ↦ hadds none field hfield
      have hdigest : c.getObjectItem (timerListRoot c sha senv list items) TimerField.sha256.key =
          some (c.string (sha256Hex (sha (c.print (timerListData c senv list items))))) := by
        unfold timerListRoot
        rw [hc.getObjectItem_added]
        simp [hadd]
      have hpart : c.getObjectItem (timerListRoot c sha senv list items) TimerField.data.key =
          some (timerListData c senv list items) := by
        unfold timerListRoot
        rw [hc.getObjectItem_added]
        simp [hadd]
      have hobject : c.isObject (timerListData c senv list items) = true := hc.isObject_object _
      obtain ⟨htask, htimers⟩ := getObjectItem_data hc hadds list items
      have hread := timerListRead_toJson hc hadds hallocs hlist.items hback.dps hitems 0
        ⟨[], 0, list.lastTaskId⟩
      unfold timerListDeserialize
      simp only [hback.root items hitems, hdigest, hpart, Option.bind_some, hc.valuestring_string,
        Option.filter_some, hobject, if_true, hprint, hsha', htask, htimers, hc.elements_array]
      simp [StrncmpEq, strncpy_of_lt hlist.lastTaskId, hread, hlist.count]

theorem rejected_of_tampered {text signed : CString} (h : Tampered c sha text signed) :
    Rejected c sha text := by
  obtain ⟨root, data, hparse, hdigest, hdata, hne⟩ := h
  intro env list
  have hhex : ¬StrncmpEq (sha256Hex (sha (c.print data))) (sha256Hex (sha signed)) 64 := by
    intro heq
    unfold StrncmpEq at heq
    rw [List.take_of_length_le (length_sha256Hex _).le,
      List.take_of_length_le (length_sha256Hex _).le] at heq
    exact hne (sha256Hex_injective heq)
  have hfail : oprtInvalidParm ≠ oprtOk ∧ oprtMallocFailed ≠ oprtOk ∧ oprtComError ≠ oprtOk := by
    decide
  unfold timerListDeserialize
  simp only [hparse, hdigest, hdata, Option.filter_some]
  cases hobject : c.isObject data with
  | false => exact ⟨hfail.1, rfl⟩
  | true =>
      simp only [if_true, hhex, not_false_eq_true]
      split_ifs with hprint hsha
      · exact ⟨hfail.2.1, rfl⟩
      · exact ⟨hsha, rfl⟩
      · exact ⟨hfail.2.2, rfl⟩

end

theorem listStored_empty : ListStored ⟨[], 0, []⟩ :=
  ⟨fun item hitem ↦ (List.not_mem_nil hitem).elim, rfl, by decide⟩

theorem ListStored.changes {list : TimerTaskList} (h : ListStored list)
    (changes : List TimerListChange) : ListStored (changes.foldl TimerTaskList.change list) := by
  induction changes generalizing list with
  | nil => exact h
  | cons change rest ih =>
      rw [List.foldl_cons]
      apply ih
      cases change with
      | taskId taskId => exact ⟨h.items, h.count, strncpy_lt (by decide) taskId⟩
      | call call =>
          cases call with
          | sync timers allocs => exact h.updates allocs 0 timers
          | clear => exact ⟨fun item hitem ↦ (List.not_mem_nil hitem).elim, rfl, h.lastTaskId⟩

/-- The list is read back after any changes, of an empty list or of one that was read back; and a
text whose data part has another digest than the signed one is not read. -/
theorem timer_list_survives {V : Type} (c : TimerCjson V) (hc : c.Standard)
    (sha : CString → Digest) :
    ListStored ⟨[], 0, []⟩ ∧
    (∀ list, ListStored list →
      ListStored { list with items := list.items.map (TimerItem.restored c) }) ∧
    (∀ list, ∀ changes : List TimerListChange, ListStored list →
      ListStored (changes.foldl TimerTaskList.change list) ∧
      ∀ senv renv, senv.AddsOk → renv.Ok →
        PrintsBack c sha senv (changes.foldl TimerTaskList.change list) →
        ReadBack c sha senv renv (changes.foldl TimerTaskList.change list)) ∧
    ∀ text signed, Tampered c sha text signed → Rejected c sha text := by
  refine ⟨listStored_empty, fun list h ↦ ⟨fun item hitem ↦ ?_, ?_, h.lastTaskId⟩,
    fun list changes h ↦ ⟨h.changes changes, fun senv renv hadds hrenv hback ↦ ?_⟩,
    fun text signed ↦ rejected_of_tampered⟩
  · obtain ⟨old, hold, rfl⟩ := List.mem_map.mp hitem
    exact h.items old hold
  · rw [List.length_map]
    exact h.count
  · exact readBack_of_stored hc hadds hrenv (h.changes changes) hback

/-! ## A sample -/

mutual

/-- The print of a value whose strings need no escapes. -/
def printJson : Json → CString
  | .null => bytesOf "null"
  | .bool b => if b then bytesOf "true" else bytesOf "false"
  | .number n => intText n
  | .string s => 0x22 :: (s ++ [0x22])
  | .array items => 0x5b :: (printItems items ++ [0x5d])
  | .object members => 0x7b :: (printMembers members ++ [0x7d])

def printItems : List Json → CString
  | [] => []
  | [v] => printJson v
  | v :: rest => printJson v ++ 0x2c :: printItems rest

def printMembers : List (CString × Json) → CString
  | [] => []
  | [(key, v)] => 0x22 :: (key ++ 0x22 :: 0x3a :: printJson v)
  | (key, v) :: rest => 0x22 :: (key ++ 0x22 :: 0x3a :: printJson v) ++ 0x2c :: printMembers rest

end

def dataJson (taskId : CString) (items : List Json) : Json :=
  .object [(TimerField.lastTaskId.key, .string taskId),
    (TimerField.timerItemsCount.key, .number items.length), (TimerField.timers.key, .array items)]

def rootJson (hex : CString) (data : Json) : Json :=
  .object [(TimerField.sha256.key, .string hex), (TimerField.data.key, data)]

def sampleDps : Json := .object [(bytesOf "1", .bool true)]

def sampleItem : Json :=
  .object [(TimerField.id.key, .string (bytesOf "a")),
    (TimerField.date.key, .string (bytesOf "20250101")),
    (TimerField.time.key, .string (bytesOf "08:00")), (TimerField.loops.key, .number 0),
    (TimerField.isDeleted.key, .number 0), (TimerField.t.key, .number 5),
    (TimerField.dps.key, sampleDps)]

/-- The values that are read here: a list without items, the sample and its `dps`, and a data part
without an array.  The length of the text says how long the task id is. -/
def sampleValues (s : CString) : List Json :=
  let hex := (s.drop 11).take 64
  [rootJson hex (dataJson (List.replicate (s.length - 138) 0x61) []), sampleDps,
    rootJson hex (dataJson [] [sampleItem]),
    rootJson hex (.object [(TimerField.lastTaskId.key, .string []),
      (TimerField.timerItemsCount.key, .number 0)])]

def sampleTimerCjson : TimerCjson Json where
  parse s := (sampleValues s).find? fun v ↦ printJson v = s
  print := printJson
  getObjectItem
    | .object members, key => (members.find? fun member ↦ lower member.1 = lower key).map Prod.snd
    | _, _ => none
  valuestring
    | .string s => some s
    | _ => none
  valueint
    | .number n => some n
    | _ => none
  time
    | .number n => some (UInt32.ofNat n.toNat)
    | _ => none
  isObject
    | .object _ => true
    | _ => false
  elements
    | .array items => some items
    | _ => none
  string := .string
  number n := .number n
  object := .object
  array := .array

theorem sampleTimerCjson_standard : sampleTimerCjson.Standard where
  valuestring_string _ := rfl
  valueint_number _ _ := rfl
  time_number _ _ := rfl
  isObject_object _ := rfl
  elements_array _ := rfl
  getObjectItem_object _ _ := rfl

/-- The SHA-256 of the sample's data. -/
def sampleSha (_ : CString) : Digest :=
  ⟨[0xdf, 0x96, 0x1e, 0x05, 0x5e, 0xc4, 0xcc, 0x27, 0x56, 0x76, 0xd7, 0xdb, 0x25, 0xc6, 0xb4, 0x73,
    0x66, 0xaa, 0x0e, 0xc6, 0x06, 0xea, 0xbd, 0x71, 0xa6, 0xca, 0x52, 0x84, 0x63, 0xf9, 0xde,
    0xf5], rfl⟩

def sampleSaveEnv : SaveEnv := ⟨fun _ ↦ true, oprtOk, fun _ _ ↦ true⟩

def sampleRestoreEnv : RestoreEnv := ⟨true, oprtOk, fun _ ↦ ⟨true, true⟩⟩

/-- A message with one timer. -/
def sampleChanges : List TimerListChange :=
  [.call (.sync
    [⟨some (bytesOf "a"), some (bytesOf "20250101"), some (bytesOf "08:00"), some 0, some 0,
    some 5, some (printJson sampleDps)⟩] fun _ ↦ ⟨true, true⟩)]

set_option maxRecDepth 4000 in
theorem sample_survives :
    sampleTimerCjson.Standard ∧
    ReadBack sampleTimerCjson sampleSha sampleSaveEnv sampleRestoreEnv
      (sampleChanges.foldl TimerTaskList.change ⟨[], 0, []⟩) := by
  have hlist : sampleChanges.foldl TimerTaskList.change ⟨[], 0, []⟩ =
      ⟨[⟨bytesOf "a", bytesOf "20250101", bytesOf "08:00", 0, 5, 0, some (printJson sampleDps), 0⟩],
        1, []⟩ := by
    decide +kernel
  have hback : PrintsBack sampleTimerCjson sampleSha sampleSaveEnv
      (sampleChanges.foldl TimerTaskList.change ⟨[], 0, []⟩) := by
    rw [hlist]
    refine ⟨fun item hitem dps hdps ↦ ⟨sampleDps, ?_, ?_⟩, fun items hitems ↦ ?_⟩
    · obtain rfl := List.mem_singleton.mp hitem
      obtain rfl := Option.some.inj hdps
      rfl
    · obtain rfl := List.mem_singleton.mp hitem
      exact Option.some.inj hdps
    · have hvalues : timerItemsToJson sampleTimerCjson sampleSaveEnv 0
          [⟨bytesOf "a", bytesOf "20250101", bytesOf "08:00", 0, 5, 0,
            some (printJson sampleDps), 0⟩] =
            some [sampleItem] := rfl
      obtain rfl := Option.some.inj (hvalues.symm.trans hitems)
      rfl
  have h := timer_list_survives sampleTimerCjson sampleTimerCjson_standard sampleSha
  exact ⟨sampleTimerCjson_standard, (h.2.2.1 _ sampleChanges h.1).2 sampleSaveEnv sampleRestoreEnv
    (fun _ _ _ ↦ rfl) ⟨rfl, rfl, fun _ ↦ ⟨rfl, rfl⟩⟩ hback⟩

/-- The text of a list without items, whose task id is `n` bytes long. -/
def idText (hex : CString) (n : ℕ) : CString :=
  printJson (rootJson hex (dataJson (List.replicate n 0x61) []))

theorem printJson_data (n : ℕ) : printJson (dataJson (List.replicate n 0x61) []) =
    ([0x7b, 0x22] ++ TimerField.lastTaskId.key ++ [0x22, 0x3a, 0x22]) ++ (List.replicate n 0x61 ++
      ([0x22, 0x2c, 0x22] ++ TimerField.timerItemsCount.key ++ [0x22, 0x3a] ++ intText 0 ++
        [0x2c, 0x22] ++ TimerField.timers.key ++ [0x22, 0x3a, 0x5b, 0x5d, 0x7d])) := by
  simp [dataJson, printJson, printMembers, printItems]

theorem idText_eq (hex : CString) (n : ℕ) : idText hex n =
    ([0x7b, 0x22] ++ TimerField.sha256.key ++ [0x22, 0x3a, 0x22]) ++ (hex ++
      ([0x22, 0x2c, 0x22] ++ TimerField.data.key ++ [0x22, 0x3a] ++
        printJson (dataJson (List.replicate n 0x61) []) ++ [0x7d])) := by
  simp [idText, rootJson, printJson, printMembers]

theorem length_printJson_data (n : ℕ) :
    (printJson (dataJson (List.replicate n 0x61) [])).length = 53 + n := by
  have hfront : ([0x7b, 0x22] ++ TimerField.lastTaskId.key ++ [0x22, 0x3a, 0x22]).length = 17 := rfl
  have hback : ([0x22, 0x2c, 0x22] ++ TimerField.timerItemsCount.key ++ [0x22, 0x3a] ++ intText 0 ++
      [0x2c, 0x22] ++ TimerField.timers.key ++ [0x22, 0x3a, 0x5b, 0x5d, 0x7d]).length = 36 := rfl
  have hlen : ∀ {front mid back : CString}, front.length = 17 → mid.length = n → back.length = 36 →
      (front ++ (mid ++ back)).length = 53 + n := by
    intro front mid back hfront hmid hback
    rw [List.length_append, List.length_append, hfront, hmid, hback]
    omega
  rw [printJson_data]
  exact hlen hfront List.length_replicate hback

theorem parse_idText (digest : Digest) (n : ℕ) :
    sampleTimerCjson.parse (idText (sha256Hex digest) n) =
      some (rootJson (sha256Hex digest) (dataJson (List.replicate n 0x61) [])) := by
  have hfront : ([0x7b, 0x22] ++ TimerField.sha256.key ++ [0x22, 0x3a, 0x22]).length = 11 := rfl
  have hmid : ([0x22, 0x2c, 0x22] ++ TimerField.data.key ++ [0x22, 0x3a]).length = 9 := rfl
  have hhex : ((idText (sha256Hex digest) n).drop 11).take 64 = sha256Hex digest := by
    rw [idText_eq, ← hfront, List.drop_left, List.take_left' (length_sha256Hex digest)]
  have hlength : (idText (sha256Hex digest) n).length - 138 = n := by
    have hdata := length_printJson_data n
    have hdigest := length_sha256Hex digest
    rw [idText_eq]
    simp only [List.length_append] at hfront hmid ⊢
    simp only [List.length_singleton]
    omega
  have hparse : ∀ s, sampleTimerCjson.parse s = (sampleValues s).find? fun v ↦ printJson v = s :=
    fun _ ↦ rfl
  rw [hparse, sampleValues, hhex, hlength]
  exact List.find?_cons_of_pos (decide_eq_true rfl)

/-- No digest tells all data from the data that was signed, and what had no memory is not read back:
neither an array that could not be added nor a list whose data could not be printed again. -/
theorem digest_collides :
    (¬∃ sha : CString → Digest, ∀ text root data signed,
      sampleTimerCjson.parse text = some root →
      (sampleTimerCjson.getObjectItem root TimerField.sha256.key).bind
        sampleTimerCjson.valuestring =
        some (sha256Hex (sha signed)) →
      sampleTimerCjson.getObjectItem root TimerField.data.key = some data →
      sampleTimerCjson.print data ≠ signed → Rejected sampleTimerCjson sha text) ∧
    ¬ReadBack sampleTimerCjson sampleSha ⟨fun _ ↦ true, oprtOk, fun _ field ↦ field ≠ .timers⟩
      sampleRestoreEnv ⟨[], 0, []⟩ ∧
    ¬ReadBack sampleTimerCjson sampleSha sampleSaveEnv ⟨false, oprtOk, fun _ ↦ ⟨true, true⟩⟩
      ⟨[], 0, []⟩ := by
  refine ⟨?_, ?_, ?_⟩
  · rintro ⟨sha, h⟩
    -- there are fewer digests than task ids
    have : Finite Digest := inferInstanceAs (Finite (List.Vector UInt8 32))
    obtain ⟨m, n, hne, heq⟩ := Finite.exists_ne_map_eq_of_infinite
      fun n ↦ sha (printJson (dataJson (List.replicate n 0x61) []))
    have hprint : printJson (dataJson (List.replicate n 0x61) []) ≠
        printJson (dataJson (List.replicate m 0x61) []) := by
      intro hsame
      have hlength := congrArg List.length hsame
      rw [length_printJson_data, length_printJson_data] at hlength
      omega
    have hreject := h _ _ _ _
      (parse_idText (sha (printJson (dataJson (List.replicate m 0x61) []))) n)
      rfl rfl hprint sampleRestoreEnv ⟨[], 0, []⟩
    have hread : timerListDeserialize sampleTimerCjson sha sampleRestoreEnv
        (idText (sha256Hex (sha (printJson (dataJson (List.replicate m 0x61) [])))) n) ⟨[], 0, []⟩ =
        (oprtOk, ⟨[], 0, strncpy reqIdLen (List.replicate n 0x61)⟩) := by
      unfold timerListDeserialize
      rw [parse_idText]
      have hsame : StrncmpEq (sha256Hex (sha (printJson (dataJson (List.replicate n 0x61) []))))
          (sha256Hex (sha (printJson (dataJson (List.replicate m 0x61) [])))) 64 := by
        unfold StrncmpEq
        exact congrArg (fun digest ↦ (sha256Hex digest).take 64) heq.symm
      have hdigest : ∀ hex data, (sampleTimerCjson.getObjectItem (rootJson hex data)
          TimerField.sha256.key).bind sampleTimerCjson.valuestring = some hex := fun _ _ ↦ rfl
      have hpart : ∀ hex taskId, (sampleTimerCjson.getObjectItem (rootJson hex (dataJson taskId []))
          TimerField.data.key).filter sampleTimerCjson.isObject = some (dataJson taskId []) :=
        fun _ _ ↦ rfl
      have htask : ∀ taskId, (sampleTimerCjson.getObjectItem (dataJson taskId [])
          TimerField.lastTaskId.key).bind sampleTimerCjson.valuestring = some taskId := fun _ ↦ rfl
      have htimers : ∀ taskId, (sampleTimerCjson.getObjectItem (dataJson taskId [])
          TimerField.timers.key).bind sampleTimerCjson.elements = some [] := fun _ ↦ rfl
      have hprint : sampleTimerCjson.print = printJson := rfl
      simp [hdigest, hpart, htask, htimers, hprint, hsame, sampleRestoreEnv, timerListRead]
    exact hreject.1 (congrArg Prod.fst hread)
  · intro h
    have hread := h _ [] rfl
    exact absurd (congrArg Prod.fst hread) (by decide +kernel)
  · intro h
    have hread := h _ [] rfl
    exact absurd (congrArg Prod.fst hread) (by decide +kernel)

end TuyaOpen.Cloud
