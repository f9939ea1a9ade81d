import TuyaOpen.Tal.SwTimer
import TuyaOpen.Tal.WorkQueue

/-!
# Delayed work

The delayed items of `tal_workqueue.c`: each has a software timer of its own, whose callback puts
the item in a work queue.  A cancel deletes the timer, cancels the item in the queue and frees the
record.
-/

namespace TuyaOpen.Tal

/-- `DELAYED_WORK_T`.  `cancelled`, that `tal_workqueue_cancel_delayed` has returned for it, is
history. -/
structure DelayedWork where
  timer : ℕ
  cb : ℕ
  data : ℕ
  handle : ℕ
  cancelled : Bool
  deriving DecidableEq

/-- The timer thread in `__delayed_work_cb`: outside of it, at its beginning with a record, or
between the queueing in `tal_workqueue_schedule` and the post. -/
inductive DelayedCallback where
  | out
  | begun (w : ℕ)
  | posting (handle : ℕ)
  deriving DecidableEq

/-- A caller of `tal_workqueue_cancel_delayed`: in the deletion of the timer, or behind the cancel
in the queue. -/
inductive CancelCall where
  | idle
  | deleting (w : ℕ)
  | freeing (w : ℕ)
  deriving DecidableEq

/-- The software timers, the work queues by their handles, and the records of delayed work, which
are numbered in the order of `tal_workqueue_init_delayed`. -/
structure DelayedSystem where
  timers : TimerSystem
  queue : ℕ → WorkQueue
  work : ℕ → DelayedWork
  made : ℕ
  callback : DelayedCallback
  cancels : ℕ → CancelCall

/-- `__delayed_work_cb`, among the callbacks of timers. -/
def delayedWorkCb : ℕ := 1

/-- The timer thread, among the callers of a work queue. -/
def timerThread : ℕ := 0

inductive DelayedStep where
  | timer (x : TimerStep)
  | queue (handle : ℕ) (x : WorkStep)
  | initDelayed (handle cb data : ℕ) (alloc timerAlloc : Bool)
  | startDelayed (t w interval : ℕ) (type : TimerType)
  | stopDelayed (t w : ℕ)
  | cancelDelayed (t w : ℕ)
  | cancelQueue (t : ℕ)
  | cancelReturn (t : ℕ)
  | schedule (alloc : Bool)
  | post

inductive DelayedEvent where
  | timer (event : TimerEvent)
  | put (w : ℕ)
  deriving DecidableEq

/-- The timer that a caller names. -/
def TimerStep.names : TimerStep → Option ℕ
  | .startCall _ id _ _ => some id
  | .stop _ id => some id
  | .trigger _ id => some id
  | .delete _ id => some id
  | _ => none

/-- The thread that calls. -/
def WorkStep.caller : WorkStep → Option ℕ
  | .schedule t _ _ _ _ => some t
  | .post t => some t
  | _ => none

namespace DelayedSystem

variable (s : DelayedSystem)

/-- The timers of delayed work are known only to `tal_workqueue.c`, and a callback returns when
it is through. -/
def TimerReady : TimerStep → Prop
  | .create func _ _ => func ≠ delayedWorkCb
  | .callReturn => s.callback = .out
  | x => ∀ id ∈ x.names, (s.timers.mgr.timer id).cb ≠ delayedWorkCb

instance (x : TimerStep) : Decidable (s.TimerReady x) := by
  cases x <;> unfold TimerReady <;> infer_instance

/-- The callback of a timer begins with the data of its record. -/
def callbackBehind : TimerStep → DelayedCallback
  | .callBegin =>
      match s.timers.thread with
      | .calling id cb => if cb = delayedWorkCb then .begun (s.timers.mgr.timer id).data else .out
      | _ => s.callback
  | _ => s.callback

def timerStep (x : TimerStep) : DelayedSystem × List DelayedEvent :=
  let (timers, events) := Tal.timerStep s.timers x
  ({ s with timers := timers, callback := s.callbackBehind x }, events.map .timer)

def setQueue (handle : ℕ) (queue : WorkQueue) : DelayedSystem :=
  { s with queue := Function.update s.queue handle queue }

def setCancel (t : ℕ) (call : CancelCall) : DelayedSystem :=
  { s with cancels := Function.update s.cancels t call }

/-- `tal_workqueue_init_delayed`. -/
def initDelayed (handle cb data : ℕ) : DelayedSystem :=
  { s with
    timers := (Tal.timerStep s.timers (.create delayedWorkCb s.made true)).1
    work := Function.update s.work s.made ⟨s.timers.created, cb, data, handle, false⟩
    made := s.made + 1 }

/-- `__delayed_work_cb`, up to the post of `tal_workqueue_schedule`. -/
def schedule (w : ℕ) (alloc : Bool) : DelayedSystem × List DelayedEvent :=
  let work := s.work w
  let queue :=
    (talWorkqueueSchedule (s.queue work.handle) timerThread false work.cb work.data alloc).1
  if queue.queued = (s.queue work.handle).queued then ({ s with callback := .out }, [])
  else ({ s.setQueue work.handle queue with callback := .posting work.handle }, [.put w])

end DelayedSystem

/-- A step that is not ready does nothing. -/
def delayedStep (s : DelayedSystem) : DelayedStep → DelayedSystem × List DelayedEvent
  | .timer x => if s.TimerReady x then s.timerStep x else (s, [])
  | .queue handle x =>
      if x.caller = some timerThread then (s, [])
      else (s.setQueue handle (workStep (s.queue handle) x).1, [])
  | .initDelayed handle cb data alloc timerAlloc =>
      if alloc = false ∨ timerAlloc = false then (s, []) else (s.initDelayed handle cb data, [])
  | .startDelayed t w interval type =>
      if w < s.made then s.timerStep (.startCall t (s.work w).timer interval type) else (s, [])
  | .stopDelayed t w => if w < s.made then s.timerStep (.stop t (s.work w).timer) else (s, [])
  | .cancelDelayed t w =>
      if w < s.made ∧ s.cancels t = .idle ∧ s.timers.calls t = .idle ∧
          s.timers.Live (s.work w).timer then
        (s.setCancel t (.deleting w)).timerStep (.delete t (s.work w).timer)
      else (s, [])
  | .cancelQueue t =>
      match s.cancels t with
      | .deleting w =>
          let work := s.work w
          if (s.timers.mgr.timer work.timer).life = .freed then
            ((s.setQueue work.handle
              (talWorkqueueCancel (s.queue work.handle) work.cb work.data)).setCancel t
                (.freeing w), [])
          else (s, [])
      | _ => (s, [])
  | .cancelReturn t =>
      match s.cancels t with
      | .freeing w =>
          ({ s.setCancel t .idle with
            work := Function.update s.work w { s.work w with cancelled := true } }, [])
      | _ => (s, [])
  | .schedule alloc =>
      match s.callback with
      | .begun w => s.schedule w alloc
      | _ => (s, [])
  | .post =>
      match s.callback with
      | .posting handle =>
          ({ s.setQueue handle (workStep (s.queue handle) (.post timerThread)).1 with
            callback := .out }, [])
      | _ => (s, [])

def delayedInit (queueLen : ℕ → ℕ) : DelayedSystem where
  timers := timerInit
  queue handle := workInit (queueLen handle)
  work _ := ⟨0, 0, 0, 0, false⟩
  made := 0
  callback := .out
  cancels _ := .idle

end TuyaOpen.Tal
