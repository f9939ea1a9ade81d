import Mathlib.Data.Nat.Notation
import TuyaOpen.Common.ErrorCode

/-!
# Work queues

`tal_workqueue.c`: a thread runs the items of a queue (`tuya_queue.c`) one by one.  A call puts its
item in the queue under a mutex and then posts a semaphore, which the thread waits for.
-/

namespace TuyaOpen.Tal

/-- `TUYA_QUEUE_T`. -/
structure TuyaQueue (α : Type*) where
  queueLen : ℕ
  queueFree : ℕ
  head : List α
  deriving DecidableEq

namespace TuyaQueue

variable {α : Type*} (queue : TuyaQueue α)

/-- `__enqueue`, with the memory for the item. -/
def enqueue (instant : Bool) (item : α) (alloc : Bool) : TuyaQueue α × OperateRet :=
  if alloc = false then (queue, oprtMallocFailed)
  else if 0 < queue.queueFree then
    ({ queue with
      head := if instant then item :: queue.head else queue.head ++ [item]
      queueFree := queue.queueFree - 1 }, oprtOk)
  else (queue, oprtExceedUpperLimit)

/-- `tuya_queue_output`. -/
def output : TuyaQueue α × Option α :=
  if queue.queueFree < queue.queueLen then
    match queue.head with
    | item :: rest => ({ queue with head := rest, queueFree := queue.queueFree + 1 }, some item)
    | [] => (queue, none)
  else (queue, none)

/-- `tuya_queue_traverse` with a callback that always goes on. -/
def traverse (f : α → α) : TuyaQueue α := { queue with head := queue.head.map f }

end TuyaQueue

/-- `WORK_ITEM_T`; zero is NULL.  History are `id`, a number in the order of queueing, and
`instant`. -/
structure WorkItem where
  cb : ℕ
  data : ℕ
  id : ℕ
  instant : Bool
  deriving DecidableEq

/-- The test of `__work_cancel_traverse`. -/
def WorkItem.Same (item : WorkItem) (cb data : ℕ) : Prop :=
  cb ≠ 0 ∧ cb = item.cb ∨ data ≠ 0 ∧ data = item.data

instance (item : WorkItem) (cb data : ℕ) : Decidable (item.Same cb data) :=
  inferInstanceAs (Decidable (_ ∨ _))

def workCancelTraverse (cb data : ℕ) (item : WorkItem) : WorkItem :=
  if item.Same cb data then { item with cb := 0 } else item

/-- The thread: in its wait, behind it, or with an item. -/
inductive Worker where
  | waiting
  | claimed
  | running (item : WorkItem)
  deriving DecidableEq

/-- `TAL_WORKQUEUE_T` with its thread and the callers that have queued an item and not yet posted
the semaphore.  History are the number of items that were queued, and by their numbers those
that were taken out, those that were run and those that a cancel disabled. -/
structure WorkQueue where
  queue : TuyaQueue WorkItem
  sem : ℕ
  worker : Worker
  posting : List ℕ
  queued : ℕ
  taken : List ℕ
  ran : List ℕ
  targeted : List ℕ
  deriving DecidableEq

inductive WorkStep where
  | schedule (t : ℕ) (instant : Bool) (cb data : ℕ) (alloc : Bool)
  | post (t : ℕ)
  | cancel (cb data : ℕ)
  | wait
  | output
  | run

inductive WorkEvent where
  | returned (t : ℕ) (rt : OperateRet)
  | runs (cb data : ℕ)
  deriving DecidableEq

/-- `tal_workqueue_schedule` and `tal_workqueue_schedule_instant`, up to the post. -/
def talWorkqueueSchedule (s : WorkQueue) (t : ℕ) (instant : Bool) (cb data : ℕ) (alloc : Bool) :
    WorkQueue × List WorkEvent :=
  if cb = 0 then (s, [.returned t oprtInvalidParm])
  else
    let (queue, rt) := s.queue.enqueue instant ⟨cb, data, s.queued, instant⟩ alloc
    if rt = oprtOk then
      ({ s with queue := queue, queued := s.queued + 1, posting := t :: s.posting }, [])
    else (s, [.returned t rt])

/-- `tal_semaphore_post`, whose maximum is the length of the queue. -/
def talSemaphorePost (s : WorkQueue) : WorkQueue × OperateRet :=
  if s.sem < s.queue.queueLen then ({ s with sem := s.sem + 1 }, oprtOk) else (s, oprtComError)

def talWorkqueueCancel (s : WorkQueue) (cb data : ℕ) : WorkQueue :=
  if cb = 0 ∧ data = 0 then s
  else
    { s with
      queue := s.queue.traverse (workCancelTraverse cb data)
      targeted := s.targeted ++
        (s.queue.head.filter fun item ↦ item.Same cb data).map WorkItem.id }

/-- A step that is not ready does nothing. -/
def workStep (s : WorkQueue) : WorkStep → WorkQueue × List WorkEvent
  | .schedule t instant cb data alloc =>
      if t ∈ s.posting then (s, []) else talWorkqueueSchedule s t instant cb data alloc
  | .post t =>
      if t ∈ s.posting then
        let (s', rt) := talSemaphorePost s
        ({ s' with posting := s.posting.erase t }, [.returned t rt])
      else (s, [])
  | .cancel cb data => (talWorkqueueCancel s cb data, [])
  | .wait =>
      if s.worker = .waiting ∧ 0 < s.sem then ({ s with sem := s.sem - 1, worker := .claimed }, [])
      else (s, [])
  | .output =>
      if s.worker = .claimed then
        match s.queue.output with
        | (queue, some item) =>
            ({ s with queue := queue, worker := .running item, taken := s.taken ++ [item.id] }, [])
        | (_, none) => ({ s with worker := .waiting }, [])
      else (s, [])
  | .run =>
      match s.worker with
      | .running item =>
          if item.cb ≠ 0 then
            ({ s with worker := .waiting, ran := s.ran ++ [item.id] }, [.runs item.cb item.data])
          else ({ s with worker := .waiting }, [])
      | _ => (s, [])

/-- `tal_workqueue_create`. -/
def workInit (queueLen : ℕ) : WorkQueue where
  queue := ⟨queueLen, queueLen, []⟩
  sem := 0
  worker := .waiting
  posting := []
  queued := 0
  taken := []
  ran := []
  targeted := []

end TuyaOpen.Tal
