import Mathlib.Algebra.Ring.Nat
import Mathlib.Data.Nat.Notation
import Mathlib.Logic.Function.Basic
import TuyaOpen.Common.ErrorCode

/-!
# Software timers

`tal_sw_timer.c`: timers wait in a list that is ordered by their expiration, or stand by in
another one.  A thread calls those that are expired, and sleeps until the next one is.  Other
threads change the lists under a mutex and then post a semaphore, which wakes the thread.
-/

namespace TuyaOpen.Tal

inductive TimerType where
  | once
  | cycle
  deriving DecidableEq

inductive TimerLife where
  | unborn
  | live
  | unlinked
  | freed
  deriving DecidableEq

/-- `TIMER_T`.  History are `life`, from its creation to the end of `tal_sw_timer_delete`, and
`fired`, how often it was dispatched since it was started. -/
structure TimerT where
  cb : ℕ
  data : ℕ
  expireTime : ℕ
  interval : ℕ
  isRunning : Bool
  type : TimerType
  life : TimerLife
  fired : ℕ
  deriving DecidableEq

def unbornTimer : TimerT := ⟨0, 0, 0, 0, false, .once, .unborn, 0⟩

/-- `SW_TIMER_MGR_T`.  A timer is named by a number of its own, in the order of creation. -/
structure SwTimerMgr where
  listActive : List ℕ
  listStandby : List ℕ
  timer : ℕ → TimerT
  totalCnt : ℕ
  runningCnt : ℕ

def u16 (n : ℕ) : ℕ := n % 2 ^ 16
def u16Pred (n : ℕ) : ℕ := (n + (2 ^ 16 - 1)) % 2 ^ 16
def u64 (n : ℕ) : ℕ := n % 2 ^ 64

def semWaitForever : ℕ := 0xffffffff

/-- What a section of `__timer_dispatch` found: a timer to call, or how long to sleep. -/
inductive Dispatched where
  | timer (id cb : ℕ)
  | done (nextExpired : ℕ)
  deriving DecidableEq

namespace SwTimerMgr

variable (m : SwTimerMgr)

def set (id : ℕ) (t : TimerT) : SwTimerMgr := { m with timer := Function.update m.timer id t }

/-- `tuya_list_del`, from the list that the timer is in. -/
def listDel (id : ℕ) : SwTimerMgr :=
  { m with listActive := m.listActive.erase id, listStandby := m.listStandby.erase id }

/-- The loop of `__timer_attach`: in front of the first timer that does not expire earlier. -/
def attachLoop (timer : ℕ → TimerT) (id : ℕ) : List ℕ → List ℕ
  | [] => [id]
  | p :: rest =>
      if (timer id).expireTime ≤ (timer p).expireTime then id :: p :: rest
      else p :: attachLoop timer id rest

def attach (id : ℕ) : SwTimerMgr :=
  { m.listDel id with listActive := attachLoop m.timer id (m.listDel id).listActive }

def standBy (id : ℕ) : SwTimerMgr :=
  { m.listDel id with listStandby := (m.listDel id).listStandby ++ [id] }

/-! ## Sections -/

/-- `tal_sw_timer_create`. -/
def create (id func arg : ℕ) : SwTimerMgr :=
  { m.set id { unbornTimer with cb := func, data := arg, life := .live } with
    totalCnt := u16 (m.totalCnt + 1)
    listStandby := m.listStandby ++ [id] }

/-- `tal_sw_timer_delete`. -/
def delete (id : ℕ) : SwTimerMgr :=
  { (m.listDel id).set id { m.timer id with life := .unlinked } with
    totalCnt := u16Pred m.totalCnt
    runningCnt := if (m.timer id).isRunning then u16Pred m.runningCnt else m.runningCnt }

/-- `tal_sw_timer_stop`. -/
def stop (id : ℕ) : SwTimerMgr :=
  if (m.timer id).isRunning then
    { (m.set id { m.timer id with isRunning := false }).standBy id with
      runningCnt := u16Pred m.runningCnt }
  else m

/-- `tal_sw_timer_start`; the time was read before. -/
def start (id timeMs : ℕ) (type : TimerType) (now : ℕ) : SwTimerMgr :=
  let timer := m.timer id
  let interval := if timeMs ≠ 0 then timeMs else timer.interval
  { (m.set id { timer with
      isRunning := true
      interval := interval
      type := type
      expireTime := u64 (now + interval)
      fired := 0 }).attach id with
    runningCnt := if timer.isRunning then m.runningCnt else u16 (m.runningCnt + 1) }

/-- `tal_sw_timer_trigger`. -/
def trigger (id : ℕ) : SwTimerMgr :=
  let m := m.set id { m.timer id with expireTime := 0 }
  if (m.timer id).isRunning then
    { m.listDel id with listActive := id :: (m.listDel id).listActive }
  else m

/-- `__timer_dispatch`, from its lock to its unlock. -/
def dispatch (now : ℕ) : SwTimerMgr × Dispatched :=
  match m.listActive with
  | [] => (m, .done semWaitForever)
  | id :: _ =>
      let timer := m.timer id
      if now < timer.expireTime then (m, .done (timer.expireTime - now))
      else if timer.type = .once then
        ({ (m.set id { timer with isRunning := false, fired := timer.fired + 1 }).standBy id with
          runningCnt := u16Pred m.runningCnt }, .timer id timer.cb)
      else
        ((m.set id { timer with
          expireTime := u64 (now + timer.interval)
          fired := timer.fired + 1 }).attach id, .timer id timer.cb)

end SwTimerMgr

/-! ## Threads -/

/-- The timer thread: in the wait, before it reads the time, before the lock, before the callback
of a timer that was found, or in it. -/
inductive TimerThread where
  | waiting
  | reading
  | locking (now : ℕ)
  | calling (id cb : ℕ)
  | inCallback (id cb data : ℕ)
  deriving DecidableEq

/-- A caller: `tal_sw_timer_start` behind its reading of the time, or a function behind its section,
which frees a timer after the post when it deletes it. -/
inductive TimerCall where
  | idle
  | starting (id timeMs : ℕ) (type : TimerType) (now : ℕ)
  | posting (deleted : Option ℕ)
  | freeing (id : ℕ)
  deriving DecidableEq

/-- The manager with its threads.  `nowRead`, the time that the latest section of the timer thread
went by, is history. -/
structure TimerSystem where
  mgr : SwTimerMgr
  sem : ℕ
  clock : ℕ
  thread : TimerThread
  nextExpired : ℕ
  nowRead : ℕ
  waitSince : ℕ
  calls : ℕ → TimerCall
  created : ℕ

/-- The semaphore counts up to two. -/
def timerSemMax : ℕ := 2

inductive TimerStep where
  | tick (ms : ℕ)
  | create (func arg : ℕ) (alloc : Bool)
  | startCall (t id timeMs : ℕ) (type : TimerType)
  | startSection (t : ℕ)
  | stop (t id : ℕ)
  | trigger (t id : ℕ)
  | delete (t id : ℕ)
  | post (t : ℕ)
  | free (t : ℕ)
  | wake
  | readTime
  | dispatch
  | callBegin
  | callReturn

/-- What the timer thread does with a timer: it finds it expired, it reads its record, or it begins
its callback. -/
inductive TimerEvent where
  | dispatched (id : ℕ)
  | record (id : ℕ)
  | begin (id : ℕ)
  deriving DecidableEq

namespace TimerSystem

variable (s : TimerSystem)

def Live (id : ℕ) : Prop := (s.mgr.timer id).life = .live

instance (id : ℕ) : Decidable (s.Live id) := inferInstanceAs (Decidable (_ = _))

def setCall (t : ℕ) (call : TimerCall) : TimerSystem :=
  { s with calls := Function.update s.calls t call }

/-- A section of a caller, with the post to come. -/
def behindSection (t : ℕ) (mgr : SwTimerMgr) (deleted : Option ℕ) : TimerSystem :=
  { s with mgr := mgr, calls := Function.update s.calls t (.posting deleted) }

/-- The wait is over when the semaphore was posted or the time is up. -/
def wake : TimerSystem :=
  if 0 < s.sem then { s with sem := s.sem - 1, thread := .reading }
  else if s.nextExpired % 2 ^ 32 ≠ semWaitForever ∧
      s.waitSince + s.nextExpired % 2 ^ 32 ≤ s.clock then
    { s with thread := .reading }
  else s

def dispatchSection (now : ℕ) : TimerSystem × List TimerEvent :=
  match s.mgr.dispatch now with
  | (mgr, .timer id cb) =>
      ({ s with mgr := mgr, nowRead := now, thread := .calling id cb }, [.dispatched id])
  | (mgr, .done nextExpired) =>
      ({ s with
        mgr := mgr
        nowRead := now
        nextExpired := nextExpired
        waitSince := s.clock
        thread := .waiting }, [])

end TimerSystem

/-- A step that is not ready does nothing.  The callers use a timer only until they delete it. -/
def timerStep (s : TimerSystem) : TimerStep → TimerSystem × List TimerEvent
  | .tick ms => ({ s with clock := s.clock + ms }, [])
  | .create func arg alloc =>
      if func = 0 ∨ alloc = false then (s, [])
      else ({ s with mgr := s.mgr.create s.created func arg, created := s.created + 1 }, [])
  | .startCall t id timeMs type =>
      if s.calls t = .idle ∧ s.Live id then (s.setCall t (.starting id timeMs type s.clock), [])
      else (s, [])
  | .startSection t =>
      match s.calls t with
      | .starting id timeMs type now =>
          if s.Live id then (s.behindSection t (s.mgr.start id timeMs type now) none, [])
          else (s.setCall t .idle, [])
      | _ => (s, [])
  | .stop t id =>
      if s.calls t = .idle ∧ s.Live id then (s.behindSection t (s.mgr.stop id) none, [])
        else (s, [])
  | .trigger t id =>
      if s.calls t = .idle ∧ s.Live id then (s.behindSection t (s.mgr.trigger id) none, [])
        else (s, [])
  | .delete t id =>
      if s.calls t = .idle ∧ s.Live id then (s.behindSection t (s.mgr.delete id) (some id), [])
      else (s, [])
  | .post t =>
      match s.calls t with
      | .posting deleted =>
          ({ s with
            sem := min timerSemMax (s.sem + 1)
            calls := Function.update s.calls t (deleted.elim .idle .freeing) }, [])
      | _ => (s, [])
  | .free t =>
      match s.calls t with
      | .freeing id =>
          ({ s.setCall t .idle with
            mgr := s.mgr.set id { s.mgr.timer id with life := .freed } }, [])
      | _ => (s, [])
  | .wake => if s.thread = .waiting then (s.wake, []) else (s, [])
  | .readTime => if s.thread =
    .reading then ({ s with thread := .locking s.clock }, []) else (s, [])
  | .dispatch =>
      match s.thread with
      | .locking now => s.dispatchSection now
      | _ => (s, [])
  | .callBegin =>
      match s.thread with
      | .calling id cb =>
          ({ s with thread := .inCallback id cb (s.mgr.timer id).data }, [.record id, .begin id])
      | _ => (s, [])
  | .callReturn =>
      match s.thread with
      | .inCallback _ _ _ => ({ s with thread := .reading }, [])
      | _ => (s, [])

/-- Behind `tal_sw_timer_init`. -/
def timerInit : TimerSystem where
  mgr := ⟨[], [], fun _ ↦ unbornTimer, 0, 0⟩
  sem := 0
  clock := 0
  thread := .waiting
  nextExpired := semWaitForever
  nowRead := 0
  waitSince := 0
  calls _ := .idle
  created := 0

end TuyaOpen.Tal
