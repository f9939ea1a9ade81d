import TuyaOpen.Cloud.TimerList

/-!
# The full sync of the device timers

`tuya_device_timer_full_sync_req` asks the cloud for all its timers, which come in batches.  Several
threads may ask, and a request publishes before it resets the count and then clears the list.
-/

namespace TuyaOpen.Cloud

/-- The timers of the cloud when it answers a request, in their batches. -/
structure CloudSync where
  batches : List (List TimerJson)
  complete : ∀ obj ∈ batches.flatten, obj.id.isSome ∧ obj.toTimer.isSome ∧ obj.isDeleted = some 0
  distinct : Keyed.Distinct TimerJson.id batches.flatten

namespace CloudSync

variable (sync : CloudSync)

def timers : List TimerJson := sync.batches.flatten

def batch (i : ℕ) : List TimerJson := sync.batches.getD i []

/-- Each batch says how many timers there are in all of them. -/
def batchData (i : ℕ) (taskId : Option CString) : TimerSyncData where
  count := some (sync.batch i).length
  operateType := some timerOperateTypeFull
  taskId := some taskId
  total := some sync.timers.length
  timers := sync.batch i

end CloudSync

/-- The map behind timers of the cloud. -/
def timersMap (timers : List TimerJson) : TimerMap := fun id ↦
  (Keyed.lookup TimerJson.id timers (some id)).bind TimerJson.toTimer

/-- A message that is not a batch: it is incremental, or its count is wrong. -/
def NotBatch (data : TimerSyncData) : Prop :=
  data.operateType = some timerOperateTypeFull → data.count ≠ some data.timers.length

/-- A call of `tuya_device_timer_full_sync_req` by another thread than the work queue: behind its
publish, which was that of a sync by its number, or behind the reset of the count. -/
inductive SyncRequest where
  | idle
  | published (sync : ℕ)
  | reset
  deriving DecidableEq

/-- The device with the requests of its threads.  History are `published`, how many requests were,
`current`, the sync of the latest reset, `taken`, the batches of it that were counted, `applied`,
those of them whose updates were made, and `inHand`, the sync and the number of the batch that is
handled. -/
structure SyncSystem where
  ctx : TimerTaskCtx
  requests : ℕ → SyncRequest
  published : ℕ
  current : ℕ
  taken : List ℕ
  applied : List ℕ
  inHand : Option (ℕ × ℕ)

/-- A batch may come once more, late, or never.  The request behind a timeout is one of those of the
threads. -/
inductive SyncStep where
  | batch (sync i : ℕ) (reqId : CString) (taskId : Option CString) (env : SyncEnv)
  | other (reqId : CString) (data : Option TimerSyncData) (h : ∀ d, data = some d → NotBatch d)
      (env : SyncEnv)
  | count
  | update (allocs : ℕ → TimerAlloc)
  | finish (alloc : ℕ → Bool) (env : FullSyncEnv)
  | expireFullSync
  | fullSyncTimeout (alloc : ℕ → Bool)
  | publish (t : ℕ) (rt : OperateRet)
  | reset (t : ℕ) (create : Bool)
  | clear (t : ℕ)

/-- `tuya_device_timer_full_sync_req` between its publish and its lock. -/
def TimerTaskCtx.fullSyncStart (s : TimerTaskCtx) (create : Bool) : TimerTaskCtx :=
  { s with
    fullSyncInProgress := true
    fullSyncReceivedCount := 0
    fullSyncTotal := 0
    fullSyncTimerId := talSwTimerStart (talSwTimerCreate s.fullSyncTimerId create) }

def TimerTaskCtx.listClear (s : TimerTaskCtx) : TimerTaskCtx :=
  { s.touchList with timerTaskList := s.timerTaskList.clear }

/-- The branch for a complete sync, with its condition. -/
def TimerTaskCtx.SyncComplete (s : TimerTaskCtx) (operateType : ℤ) : Prop :=
  operateType = timerOperateTypeFull ∧ s.fullSyncInProgress = true ∧
    s.fullSyncTotal ≤ s.fullSyncReceivedCount

namespace SyncSystem

variable (s : SyncSystem)

def setRequest (t : ℕ) (request : SyncRequest) : SyncSystem :=
  { s with requests := Function.update s.requests t request }

/-- A section of the work queue; a request that it makes is over before the next message. -/
def workSection (r : TimerTaskCtx × List TimerEvent) : SyncSystem :=
  if .cleared ∈ r.2 then
    { s with
      ctx := r.1
      published := s.published + 1
      current := s.published
      taken := []
      applied := [] }
  else { s with ctx := r.1 }

/-- The batch in hand is counted. -/
def count : SyncSystem :=
  match s.ctx.syncCallback, s.inHand with
  | .queued _, some (sync, i) =>
      if s.ctx.fullSyncInProgress = true ∧ sync = s.current then { s with taken := s.taken ++ [i] }
      else s
  | _, _ => s

/-- The updates of the batch in hand are made. -/
def applyBatch : SyncSystem :=
  match s.ctx.syncCallback, s.inHand with
  | .counted _, some (sync, i) =>
      if s.ctx.fullSyncInProgress = true ∧ sync = s.current then
        { s with applied := s.applied ++ [i] }
      else s
  | _, _ => s

/-- A message is taken into hand when none is. -/
def receive (batch : Option (ℕ × ℕ)) (msg : TimerSync) (env : SyncEnv) : SyncSystem :=
  if s.ctx.syncCallback = .idle then
    { s with inHand := batch }.workSection (timerStep s.ctx (.receive msg env))
  else s

/-- A step of a device that has not crashed. -/
def run (cloud : ℕ → CloudSync) : SyncStep → SyncSystem
  | .batch sync i reqId taskId env =>
      if sync < s.published ∧ i < (cloud sync).batches.length then
        s.receive (some (sync, i)) ⟨some reqId, some ((cloud sync).batchData i taskId)⟩ env
      else s
  | .other reqId data _ env => s.receive none ⟨some reqId, data⟩ env
  | .count => s.count.workSection (timerStep s.ctx .count)
  | .update allocs => s.applyBatch.workSection (timerStep s.ctx (.update allocs))
  | .finish alloc env => s.workSection (timerStep s.ctx (.finish alloc env))
  | .expireFullSync => { s with ctx := (timerStep s.ctx .expireFullSync).1 }
  | .fullSyncTimeout alloc =>
      if s.ctx.timerCallback = .fullSyncTimer then
        { s with ctx := { (s.ctx.fullSyncTimeout alloc).1 with timerCallback := .idle } }
      else s
  | .publish t rt =>
      if s.requests t = .idle ∧ s.ctx.inited = true ∧ rt = oprtOk then
        { s.setRequest t (.published s.published) with published := s.published + 1 }
      else s
  | .reset t create => match s.requests t with
      | .published sync =>
          { s.setRequest t .reset with
            ctx := s.ctx.fullSyncStart create
            current := sync
            taken := []
            applied := [] }
      | _ => s
  | .clear t =>
      if s.requests t = .reset then { s.setRequest t .idle with ctx := s.ctx.listClear } else s

end SyncSystem

def syncStep (cloud : ℕ → CloudSync) (s : SyncSystem) (x : SyncStep) : SyncSystem :=
  if s.ctx.crashed = true then s else s.run cloud x

/-- Behind `tuya_device_timer_init`. -/
def syncInit (kv : Option TimerTaskList) : SyncSystem :=
  ⟨timerInit kv, fun _ ↦ .idle, 0, 0, [], [], none⟩

theorem fullSyncReq_eq (s : TimerTaskCtx) (env : FullSyncEnv) :
    s.fullSyncReq env = if s.inited = true ∧ env.publish = oprtOk then
      ((s.fullSyncStart env.create).listClear, [.cleared]) else (s, []) := by
  rw [TimerTaskCtx.fullSyncReq]
  by_cases hinited : s.inited = true
  · rw [if_neg (by simp [hinited])]
    by_cases hpublish : env.publish = oprtOk
    · rw [if_neg (not_not.mpr hpublish), if_pos ⟨hinited, hpublish⟩]
      rfl
    · rw [if_pos hpublish, if_neg fun h ↦ hpublish h.2]
  · rw [if_pos (by simpa using hinited), if_neg fun h ↦ hinited h.1]

end TuyaOpen.Cloud
