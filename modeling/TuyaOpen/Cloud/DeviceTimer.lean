import Mathlib.Data.List.Basic
import TuyaOpen.Common.ErrorCode

/-!
# Device timers

`tuya_device_timer.c`: the cloud sends its timers in messages, which the device applies to its list
of timers.  The acknowledgements wait until a delayed timer has written the list to the KV store.
Messages come one after another on the system work queue, the two timers expire on the timer thread;
a callback stops between its sections, where the other thread may go on.
-/

namespace TuyaOpen.Cloud

/-- A string in its bytes, without the zero at its end. -/
abbrev CString := List UInt8

def bytesOf (s : String) : CString := s.toList.map fun c ↦ c.toNat.toUInt8

def reqIdLen : ℕ := 32
def timerDateLen : ℕ := 16
def timerTimeLen : ℕ := 6
def mqttEventAckBufferLen : ℕ := 128

/-- `ERR_OTHER`. -/
def errOther : CString := bytesOf "F2100"

def timerOperateTypeFull : ℤ := 2

/-- `strncpy` into a zeroed array, of all but its last byte. -/
def strncpy (len : ℕ) (s : CString) : CString := s.take (len - 1)

/-- `strncmp` gives zero. -/
def StrncmpEq (a b : CString) (n : ℕ) : Prop := a.take n = b.take n

instance (a b : CString) (n : ℕ) :
    Decidable (StrncmpEq a b n) := inferInstanceAs (Decidable (_ = _))

/-- The cast of an int. -/
def uint8 (v : ℤ) : UInt8 := (v % 256).toNat.toUInt8

/-- `tuya_timer_item_t`; the value of `dps` is given by its JSON. -/
structure TimerItem where
  id : CString
  date : CString
  time : CString
  loops : UInt8
  modifyTime : UInt32
  isDeleted : UInt8
  dps : Option CString
  isExecuted : UInt8
  deriving DecidableEq

/-- `tuya_timer_task_list_t`. -/
structure TimerTaskList where
  items : List TimerItem
  timerItemsCount : UInt16
  lastTaskId : CString
  deriving DecidableEq

/-- A timer in a message: each field that is there and of its type.  A number is its `valueint`, and
`t` is that after the cast to `TIME_T`. -/
structure TimerJson where
  id : Option CString
  date : Option CString
  time : Option CString
  loops : Option ℤ
  isDeleted : Option ℤ
  t : Option UInt32
  dps : Option CString
  deriving DecidableEq

/-- `isDeleted` is a number other than zero. -/
def TimerJson.deletes (obj : TimerJson) : Bool := obj.isDeleted.any (· ≠ 0)

/-- Whether there is memory for an item, and for a copy of its `dps`. -/
structure TimerAlloc where
  item : Bool
  dps : Bool

/-! ## The list of timers -/

def timerItemFind (items : List TimerItem) (id : CString) : Option TimerItem :=
  items.find? fun item ↦ StrncmpEq item.id id reqIdLen

/-- The item that `timerItemFind` gives, changed in its place. -/
def timerItemReplace (id : CString) (item : TimerItem) : List TimerItem → List TimerItem
  | [] => []
  | head :: rest =>
      if StrncmpEq head.id id reqIdLen then item :: rest else head :: timerItemReplace id item rest

/-- `__timer_item_partial_update_from_json`. -/
def timerItemPartialUpdateFromJson (item : TimerItem) (obj : TimerJson) (alloc : Bool) :
    TimerItem × OperateRet :=
  let item := { item with
    date := (obj.date.map (strncpy timerDateLen)).getD item.date
    time := (obj.time.map (strncpy timerTimeLen)).getD item.time
    loops := (obj.loops.map uint8).getD item.loops
    isDeleted := (obj.isDeleted.map uint8).getD item.isDeleted
    modifyTime := obj.t.getD item.modifyTime }
  match obj.dps with
  | none => (item, oprtOk)
  | some dps =>
      if alloc = false then ({ item with dps := none }, oprtMallocFailed)
      else ({ item with dps := some dps }, oprtOk)

/-- The item of an object with all the required fields. -/
def TimerJson.toItem (obj : TimerJson) : Option TimerItem := do
  let id ← obj.id
  let date ← obj.date
  let time ← obj.time
  let loops ← obj.loops
  let isDeleted ← obj.isDeleted
  let t ← obj.t
  return ⟨strncpy reqIdLen id, strncpy timerDateLen date, strncpy timerTimeLen time, uint8 loops, t,
    uint8 isDeleted, none, 0⟩

/-- `__timer_item_from_json`. -/
def timerItemFromJson (obj : TimerJson) (alloc : TimerAlloc) : OperateRet × Option TimerItem :=
  if alloc.item = false then (oprtMallocFailed, none)
  else match obj.toItem, obj.dps with
    | none, _ => (oprtInvalidParm, none)
    | some item, none => (oprtOk, some item)
    | some item, some dps =>
        if alloc.dps = false then (oprtMallocFailed, none)
        else (oprtOk, some { item with dps := some dps })

namespace TimerTaskList

variable (list : TimerTaskList)

def addTail (item : TimerItem) : TimerTaskList :=
  { list with items := list.items ++ [item], timerItemsCount := list.timerItemsCount + 1 }

/-- `__timer_item_del`. -/
def timerItemDel (id : CString) : TimerTaskList :=
  match timerItemFind list.items id with
  | none => list
  | some _ => { list with
      items := list.items.eraseP fun item ↦ StrncmpEq item.id id reqIdLen
      timerItemsCount := list.timerItemsCount - 1 }

/-- The second loop of `__apply_timer_updates`. -/
def removeDeleted : TimerTaskList :=
  list.items.foldl (fun list item ↦ if item.isDeleted ≠ 0 then list.timerItemDel item.id else list)
    list

/-- `__timer_list_clear`. -/
def clear : TimerTaskList := { list with items := [], timerItemsCount := 0 }

end TimerTaskList

/-- `__apply_timer_updates`, from the item at a position. -/
def applyTimerUpdates (allocs : ℕ → TimerAlloc) :
    ℕ → TimerTaskList → List TimerJson → TimerTaskList × OperateRet
  | _, list, [] => (list.removeDeleted, oprtOk)
  | i, list, obj :: rest =>
      match obj.id with
      | none => applyTimerUpdates allocs (i + 1) list rest
      | some id =>
          match timerItemFind list.items id with
          | some item =>
              let (item, rt) := timerItemPartialUpdateFromJson item obj (allocs i).dps
              if rt ≠ oprtOk then
                ({ list with items := timerItemReplace id item list.items }, rt)
              else applyTimerUpdates allocs (i + 1)
                { list with items := timerItemReplace id { item with isExecuted := 0 } list.items }
                  rest
          | none =>
              if obj.deletes then applyTimerUpdates allocs (i + 1) list rest
              else match timerItemFromJson obj (allocs i) with
                | (_, none) => applyTimerUpdates allocs (i + 1) list rest
                | (rt, some item) =>
                    if rt ≠ oprtOk then applyTimerUpdates allocs (i + 1) list rest
                    else applyTimerUpdates allocs (i + 1) (list.addTail item) rest

/-! ## Acknowledgements -/

/-- `snprintf` into a buffer. -/
def snprintf (len : ℕ) (text : CString) : CString := text.take (len - 1)

/-- The text that `__send_timer_sync_ack` formats. -/
def timerSyncAck (reqId : CString) : Option CString → CString
  | none =>
      bytesOf "\x7b\"reqType\":\"timer_sync\",\"reqId\":\"" ++ reqId ++
        bytesOf "\",\"success\":true\x7d"
  | some errorCode =>
      bytesOf "\x7b\"reqType\":\"timer_sync\",\"reqId\":\"" ++ reqId ++
        bytesOf "\",\"success\":false,\"errorCode\":\"" ++ errorCode ++ bytesOf "\"\x7d"

/-- `__send_timer_sync_ack`: what it publishes. -/
def sendTimerSyncAck (reqId : CString) (errorCode : Option CString) (alloc : Bool) :
    Option CString :=
  if alloc = false then none
  else some (snprintf mqttEventAckBufferLen (timerSyncAck reqId errorCode))

/-- The loop of `__pending_ack_list_flush`, from the acknowledgement at a position. -/
def sendPendingAcks (errorCode : Option CString) (alloc : ℕ → Bool) :
    ℕ → List CString → List CString
  | _, [] => []
  | i, reqId :: rest =>
      (sendTimerSyncAck reqId errorCode (alloc i)).toList ++
        sendPendingAcks errorCode alloc (i + 1) rest

/-- `__pending_ack_list_has`. -/
def pendingAckListHas (pending : List CString) (reqId : CString) : Prop :=
  ∃ item ∈ pending, StrncmpEq item reqId reqIdLen

instance (pending : List CString) (reqId : CString) : Decidable (pendingAckListHas pending reqId) :=
  inferInstanceAs (Decidable (∃ item ∈ pending, _))

/-! ## Callbacks -/

/-- The object `data` of a message.  `count` and `operateType` are the `valueint` of a field that is
there, `taskId` the string of one, and `total` is that of a number. -/
structure TimerSyncData where
  count : Option ℤ
  operateType : Option ℤ
  taskId : Option (Option CString)
  total : Option ℤ
  timers : List TimerJson
  deriving DecidableEq

/-- A message of type `timer_sync`; there is no `reqId` when its field is not a string. -/
structure TimerSync where
  reqId : Option CString
  data : Option TimerSyncData
  deriving DecidableEq

/-- What `__on_timer_sync_callback` goes on with behind the queueing of its acknowledgement. -/
structure QueuedSync where
  count : ℤ
  operateType : ℤ
  total : ℤ
  timers : List TimerJson
  deriving DecidableEq

/-- `__on_timer_sync_callback` between its sections.  Once a message is counted its updates are made
under the lock of the list. -/
inductive SyncCallback where
  | idle
  | queued (msg : QueuedSync)
  | counted (msg : QueuedSync)
  | updated (operateType : ℤ) (rt : OperateRet)
  deriving DecidableEq

/-- `__kv_timer_cb` or `__full_sync_timer_cb` between their sections.  `__timer_list_serialize`
walks the list without its lock: what it reads is the list that it began with, if nothing touches
that. -/
inductive TimerCallback where
  | idle
  | kvTimer
  | kvWalking (seen : Option TimerTaskList)
  | kvSerialized (text : TimerTaskList)
  | kvWritten
  | fullSyncTimer
  | fullSyncFlushed
  deriving DecidableEq

/-- A timer that is there and whether it runs, or NULL. -/
abbrev TimerId := Option Bool

/-- `timer_task_ctx_t` with the two callbacks, and what the KV store holds. -/
structure TimerTaskCtx where
  inited : Bool
  fullSyncInProgress : Bool
  fullSyncTimerId : TimerId
  fullSyncTotal : ℤ
  fullSyncReceivedCount : ℤ
  kvTimerId : TimerId
  pendingAckList : List CString
  timerTaskList : TimerTaskList
  kv : Option TimerTaskList
  syncCallback : SyncCallback
  timerCallback : TimerCallback
  crashed : Bool
  deriving DecidableEq

/-- `tuya_device_timer_full_sync_req`: its publish, and the creation of the timer. -/
structure FullSyncEnv where
  publish : OperateRet
  create : Bool

/-- For a message: the buffer of an acknowledgement, the item for the pending list, the creation of
the KV timer, and a request. -/
structure SyncEnv where
  ack : Bool
  item : Bool
  create : Bool
  sync : FullSyncEnv

/-- The sections of the callbacks.  The timer thread takes an expired timer with its lock, and it
runs the callback later.  Of a walk through a list that is touched, `torn` is what it has read, if
it has not read an item that was freed. -/
inductive TimerStep where
  | receive (msg : TimerSync) (env : SyncEnv)
  | count
  | update (allocs : ℕ → TimerAlloc)
  | finish (alloc : ℕ → Bool) (env : FullSyncEnv)
  | expireKv
  | kvWalk
  | kvSerialize (ok : Bool) (torn : Option TimerTaskList) (alloc : ℕ → Bool)
  | kvSet (rt : OperateRet)
  | kvFlush (alloc : ℕ → Bool)
  | expireFullSync
  | fullSyncTimeout (alloc : ℕ → Bool)
  | fullSyncReq (env : FullSyncEnv)

/-- What can be seen of a section: a message with a `reqId`, an acknowledgement that is sent at once
and those of a flush, a change of the list by a message, and what the KV callback has come to, a
text with the list as it is by then. -/
inductive TimerEvent where
  | received (reqId : CString)
  | acked (text : CString)
  | flushed (errorCode : Option CString) (acks : List CString)
  | updated (timers : List TimerJson) (before after : List TimerItem)
  | cleared
  | serialized (text items : List TimerItem)
  | written (rt : OperateRet)
  | crashed
  deriving DecidableEq

def talSwTimerCreate (timer : TimerId) (ok : Bool) : TimerId :=
  if timer = none ∧ ok = true then some false else timer

/-- The error code for NULL reads as true. -/
def talSwTimerIsRunning (timer : TimerId) : Bool := timer.getD true

def talSwTimerStart (timer : TimerId) : TimerId := timer.map fun _ ↦ true

def talSwTimerStop (timer : TimerId) : TimerId := timer.map fun _ ↦ false

namespace TimerTaskCtx

variable (s : TimerTaskCtx)

/-- The list is touched, perhaps under a walk. -/
def touchList : TimerTaskCtx :=
  { s with timerCallback := match s.timerCallback with
      | .kvWalking _ => .kvWalking none
      | callback => callback }

/-- `tuya_device_timer_full_sync_req`. -/
def fullSyncReq (env : FullSyncEnv) : TimerTaskCtx × List TimerEvent :=
  if s.inited = false then (s, [])
  else if env.publish ≠ oprtOk then (s, [])
  else ({ s.touchList with
    fullSyncInProgress := true
    fullSyncReceivedCount := 0
    fullSyncTotal := 0
    fullSyncTimerId := talSwTimerStart (talSwTimerCreate s.fullSyncTimerId env.create)
    timerTaskList := s.timerTaskList.clear }, [.cleared])

/-- `__pending_ack_list_flush`. -/
def pendingAckListFlush (errorCode : Option CString) (alloc : ℕ → Bool) :
    TimerTaskCtx × List TimerEvent :=
  ({ s with pendingAckList := [] },
    [.flushed errorCode (sendPendingAcks errorCode alloc 0 s.pendingAckList)])

def fullSyncReset : TimerTaskCtx :=
  { s with fullSyncInProgress := false, fullSyncReceivedCount := 0, fullSyncTotal := 0 }

def setLastTaskId : Option CString → TimerTaskCtx
  | none => s
  | some taskId => { s with
      timerTaskList := { s.timerTaskList with lastTaskId := strncpy reqIdLen taskId } }

/-- The acknowledgement is queued, and the KV timer is started. -/
def enqueueAck (reqId : CString) (item create : Bool) : TimerTaskCtx :=
  let kvTimerId := talSwTimerCreate s.kvTimerId create
  { s with
    pendingAckList :=
      if item = false ∨ pendingAckListHas s.pendingAckList reqId then s.pendingAckList
      else s.pendingAckList ++ [strncpy reqIdLen reqId]
    kvTimerId := if talSwTimerIsRunning kvTimerId = false then talSwTimerStart kvTimerId
      else kvTimerId }

/-- `__on_timer_sync_callback` with the string of `reqId`, up to its queueing. -/
def onTimerSyncCallback (reqId : CString) (data : Option TimerSyncData) (env : SyncEnv) :
    TimerTaskCtx × List TimerEvent :=
  let answer := ((sendTimerSyncAck reqId (some errOther) env.ack).map TimerEvent.acked).toList
  if s.inited = false then (s, answer)
  else match data with
    | none => (s, answer)
    | some data => match data.count, data.operateType, data.taskId with
      | some count, some operateType, some taskId =>
          let s := s.setLastTaskId taskId
          if data.timers.length ≠ count then
            let (s, events) := s.fullSyncReq env.sync
            (s, answer ++ events)
          else ({ s.enqueueAck reqId env.item env.create with
            syncCallback := .queued ⟨count, operateType, data.total.getD count, data.timers⟩ }, [])
      | _, _, _ => ({ s with crashed := true }, [.crashed]) -- reads through NULL

/-- `__on_timer_sync_callback` behind the queueing, up to the lock of the list. -/
def countSync (msg : QueuedSync) : TimerTaskCtx :=
  if s.fullSyncInProgress = true ∧ msg.operateType ≠ timerOperateTypeFull then
    { s with syncCallback := .idle }
  else
    let s := if msg.operateType = timerOperateTypeFull ∧ s.fullSyncInProgress = true then
      { s with
        fullSyncTotal := msg.total
        fullSyncReceivedCount := s.fullSyncReceivedCount + msg.count } else s
    { s.touchList with syncCallback := .counted msg }

/-- `__on_timer_sync_callback`: the updates, under the lock. -/
def updateTimers (msg : QueuedSync) (allocs : ℕ → TimerAlloc) : TimerTaskCtx × List TimerEvent :=
  let (list, rt) := applyTimerUpdates allocs 0 s.timerTaskList msg.timers
  ({ s with timerTaskList := list, syncCallback := .updated msg.operateType rt },
    [.updated msg.timers s.timerTaskList.items list.items])

/-- The recovery of `__on_timer_sync_callback` from an error. -/
def recover (alloc : ℕ → Bool) (env : FullSyncEnv) : TimerTaskCtx × List TimerEvent :=
  let (s, flushed) := { s with kvTimerId := talSwTimerStop s.kvTimerId }.pendingAckListFlush
    (some errOther) alloc
  let (s, cleared) := s.fullSyncReset.fullSyncReq env
  (s, flushed ++ cleared)

/-- The end of `__on_timer_sync_callback`. -/
def finishSync (operateType : ℤ) (rt : OperateRet) (alloc : ℕ → Bool) (env : FullSyncEnv) :
    TimerTaskCtx × List TimerEvent :=
  let (s, events) := if rt ≠ oprtOk then s.recover alloc env else (s, [])
  let s := if operateType = timerOperateTypeFull ∧ s.fullSyncInProgress = true ∧
      s.fullSyncTotal ≤ s.fullSyncReceivedCount then
    { s.fullSyncReset with fullSyncTimerId := talSwTimerStop s.fullSyncTimerId } else s
  ({ s with syncCallback := .idle }, events)

/-- `__kv_timer_cb` comes to its walk, perhaps while updates are made. -/
def kvWalk : TimerTaskCtx :=
  { s with timerCallback := .kvWalking (match s.syncCallback with
      | .counted _ => none
      | _ => some s.timerTaskList) }

/-- `__kv_timer_cb` behind its walk, up to the text. -/
def kvSerialize (seen : Option TimerTaskList) (ok : Bool) (torn : Option TimerTaskList)
    (alloc : ℕ → Bool) : TimerTaskCtx × List TimerEvent :=
  if ok = false then
    { s with timerCallback := .idle }.pendingAckListFlush (some errOther) alloc
  else match seen.or torn with
    | some text => ({ s with timerCallback := .kvSerialized text },
        [.serialized text.items s.timerTaskList.items])
    | none => ({ s with crashed := true }, [.crashed])

/-- `tal_kv_set` in `__kv_timer_cb`; its code is dropped. -/
def kvSet (text : TimerTaskList) (rt : OperateRet) : TimerTaskCtx × List TimerEvent :=
  ({ s with kv := if rt = oprtOk then some text else s.kv, timerCallback := .kvWritten },
    [.written rt])

/-- `__full_sync_timer_cb` up to its request. -/
def fullSyncTimeout (alloc : ℕ → Bool) : TimerTaskCtx × List TimerEvent :=
  let s := s.fullSyncReset
  { s with
    kvTimerId := if s.kvTimerId ≠ none ∧ talSwTimerIsRunning s.kvTimerId = true
      then talSwTimerStop s.kvTimerId else s.kvTimerId
    timerCallback := .fullSyncFlushed }.pendingAckListFlush (some errOther) alloc

end TimerTaskCtx

/-- A section runs when its callback has come to it. -/
def timerStep (s : TimerTaskCtx) (x : TimerStep) : TimerTaskCtx × List TimerEvent :=
  if s.crashed = true then (s, [])
  else match x with
    | .receive msg env => match s.syncCallback, msg.reqId with
        | .idle, some reqId =>
            let (s, events) := s.onTimerSyncCallback reqId msg.data env
            (s, .received reqId :: events)
        | _, _ => (s, [])
    | .count => match s.syncCallback with
        | .queued msg => (s.countSync msg, [])
        | _ => (s, [])
    | .update allocs => match s.syncCallback with
        | .counted msg => s.updateTimers msg allocs
        | _ => (s, [])
    | .finish alloc env => match s.syncCallback with
        | .updated operateType rt => s.finishSync operateType rt alloc env
        | _ => (s, [])
    | .expireKv =>
        if s.timerCallback = .idle ∧ s.kvTimerId = some true then
          ({ s with kvTimerId := some false, timerCallback := .kvTimer }, [])
        else (s, [])
    | .kvWalk => if s.timerCallback = .kvTimer then (s.kvWalk, []) else (s, [])
    | .kvSerialize ok torn alloc => match s.timerCallback with
        | .kvWalking seen => s.kvSerialize seen ok torn alloc
        | _ => (s, [])
    | .kvSet rt => match s.timerCallback with
        | .kvSerialized text => s.kvSet text rt
        | _ => (s, [])
    | .kvFlush alloc =>
        if s.timerCallback = .kvWritten then
          { s with timerCallback := .idle }.pendingAckListFlush none alloc
        else (s, [])
    | .expireFullSync =>
        if s.timerCallback = .idle ∧ s.fullSyncTimerId = some true then
          ({ s with fullSyncTimerId := some false, timerCallback := .fullSyncTimer }, [])
        else (s, [])
    | .fullSyncTimeout alloc =>
        if s.timerCallback = .fullSyncTimer then s.fullSyncTimeout alloc else (s, [])
    | .fullSyncReq env =>
        if s.timerCallback = .fullSyncFlushed then
          { s with timerCallback := .idle }.fullSyncReq env
        else (s, [])

/-- Behind `tuya_device_timer_init`, with the list that the KV store holds. -/
def timerInit (kv : Option TimerTaskList) : TimerTaskCtx :=
  { inited := true
    fullSyncInProgress := false
    fullSyncTimerId := none
    fullSyncTotal := 0
    fullSyncReceivedCount := 0
    kvTimerId := none
    pendingAckList := []
    timerTaskList := kv.getD ⟨[], 0, []⟩
    kv := kv
    syncCallback := .idle
    timerCallback := .idle
    crashed := false }

end TuyaOpen.Cloud
