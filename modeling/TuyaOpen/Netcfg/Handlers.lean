import Mathlib.Data.Nat.Notation
import TuyaOpen.Common.ErrorCode
import TuyaOpen.Lib.Keyed

/-!
# The methods of the network configuration

`netcfg.c`: each method registers a handler.  A start is a work item with a pointer to the handler,
that the thread of the queue takes; a stop calls the method at once, when the handler says that it
is started.
-/

namespace TuyaOpen.Netcfg

/-- `NETCFG_STOP_ALL_CFG_MODULE`. -/
def netcfgStopAllCfgModule : ℤ := 0

/-- `netcfg_handler_t`.  `id` is its address, which no other handler has again; zero is NULL for the
callback and the arguments. -/
structure NetcfgHandler where
  id : ℕ
  type : ℤ
  isStarted : Bool
  netcfgFinishCb : ℕ
  args : ℕ
  deriving DecidableEq

/-- `p_netcfg_session`, the work items of `__netcfg_start_msg_cb`, and the one that is in
`start`. -/
structure NetcfgState where
  session : Option (List NetcfgHandler)
  queue : List ℕ
  running : Option ℕ
  nextId : ℕ
  deriving DecidableEq

/-- The functions, and the work item at its call of `start` and behind it; `rets` is what `stop` of
each method returns, and `room` whether the work queue takes an item. -/
inductive NetcfgStep where
  | init (malloc : Bool)
  | register (type : ℤ) (malloc : Bool)
  | unregister (type : ℤ)
  | start (type : ℤ) (netcfgFinishCb args : ℕ) (room : Bool)
  | stop (type : ℤ) (rets : ℤ → OperateRet)
  | stopOtherAll (type : ℤ) (rets : ℤ → OperateRet)
  | uninit
  | begin
  | finish (ret : OperateRet)

/-- `asked` is a call of `netcfg_start`, and `stopped` the OK of `netcfg_stop`; `wild` reads a
handler that is no longer registered. -/
inductive NetcfgEvent where
  | asked (type : ℤ)
  | start (type : ℤ) (netcfgFinishCb args : ℕ)
  | started (type : ℤ)
  | stop (type : ℤ) (ret : OperateRet)
  | stopped (type : ℤ)
  | wild
  deriving DecidableEq

namespace NetcfgState

variable (s : NetcfgState)

def handlers : List NetcfgHandler := s.session.getD []

/-- `netcfg_get_handler`. -/
def getHandler (type : ℤ) : Option NetcfgHandler := Keyed.lookup NetcfgHandler.type s.handlers type

/-- The handler of a work item. -/
def ofItem (id : ℕ) : Option NetcfgHandler := Keyed.lookup NetcfgHandler.id s.handlers id

/-- The handlers of some kind are changed where they are. -/
def change (p : NetcfgHandler → Bool) (f : NetcfgHandler → NetcfgHandler) : NetcfgState :=
  { s with session := s.session.map fun handlers ↦
    handlers.map fun h ↦ if p h = true then f h else h }

def init (malloc : Bool) : NetcfgState × OperateRet :=
  if s.session ≠ none then (s, oprtOk)
  else if malloc = true then ({ s with session := some [] }, oprtOk)
  else (s, oprtMallocFailed)

/-- Without a session the code reads at the address zero, and does not come back. -/
def register (type : ℤ) (malloc : Bool) : NetcfgState × OperateRet :=
  match s.session with
  | none => (s, oprtComError)
  | some handlers =>
      if handlers.any (·.type = type) = true then (s, oprtInvalidParm)
      else if malloc = false then (s, oprtMallocFailed)
      else ({ s with
        session := some (⟨s.nextId, type, false, 0, 0⟩ :: handlers)
        nextId := s.nextId + 1 }, oprtOk)

def unregister (type : ℤ) : NetcfgState × OperateRet :=
  match s.session with
  | none => (s, oprtComError)
  | some handlers =>
      if handlers.any (·.type = type) = true then
        ({ s with session := some (Keyed.erase NetcfgHandler.type type handlers) }, oprtOk)
      else (s, oprtInvalidParm)

def start (type : ℤ) (netcfgFinishCb args : ℕ) (room : Bool) : NetcfgState × OperateRet :=
  match s.getHandler type with
  | none => (s, oprtInvalidParm)
  | some h =>
      let s := s.change (·.id = h.id) fun h ↦ { h with netcfgFinishCb, args }
      ({ s with queue := if room = true then s.queue ++ [h.id] else s.queue }, oprtOk)

/-- `tal_workq_cancel` takes the items of the callback. -/
def uninit : NetcfgState := if s.session = none then s else { s with session := none, queue := [] }

/-- The calls of `stop`, of the handlers that are started. -/
def stops (p : NetcfgHandler → Bool) (rets : ℤ → OperateRet) : List NetcfgEvent :=
  (s.handlers.filter fun h ↦ h.isStarted && p h).map fun h ↦ .stop h.type (rets h.type)

def clearStarted (p : NetcfgHandler → Bool) : NetcfgState :=
  s.change (fun h ↦ h.isStarted && p h) fun h ↦ { h with isStarted := false }

def stop (type : ℤ) (rets : ℤ → OperateRet) : NetcfgState × List NetcfgEvent × OperateRet :=
  if type ≠ netcfgStopAllCfgModule then
    match s.getHandler type with
    | none => (s, [], oprtInvalidParm)
    | some h =>
        (s.clearStarted (·.id = h.id), s.stops (·.id = h.id) rets,
          if h.isStarted = true then rets type else oprtOk)
  else if s.session = none then (s, [], oprtComError)
  else ((s.clearStarted fun _ ↦ true).uninit, s.stops (fun _ ↦ true) rets, oprtOk)

def stopOtherAll (type : ℤ) (rets : ℤ → OperateRet) : NetcfgState × List NetcfgEvent × OperateRet :=
  if s.session = none then (s, [], oprtComError)
  else (s.clearStarted (·.type ≠ type), s.stops (·.type ≠ type) rets, oprtOk)

/-- The thread of the queue takes an item, and calls `start`. -/
def begin : NetcfgState × List NetcfgEvent :=
  match s.running, s.queue with
  | none, id :: rest =>
      match s.ofItem id with
      | none => ({ s with queue := rest }, [.wild])
      | some h => ({ s with queue := rest, running := some id },
        [.start h.type h.netcfgFinishCb h.args])
  | _, _ => (s, [])

/-- The rest of `__netcfg_start_msg_cb`. -/
def finish (ret : OperateRet) : NetcfgState × List NetcfgEvent :=
  match s.running with
  | none => (s, [])
  | some id =>
      match s.ofItem id with
      | none => ({ s with running := none }, [.wild])
      | some h =>
          if ret = oprtOk then
            ({ s.change (·.id = id) fun h ↦ { h with isStarted := true } with running := none },
              [.started h.type])
          else ({ s with running := none }, [])

end NetcfgState

def netcfgStep (s : NetcfgState) : NetcfgStep → NetcfgState × List NetcfgEvent
  | .init malloc => ((s.init malloc).1, [])
  | .register type malloc => ((s.register type malloc).1, [])
  | .unregister type => ((s.unregister type).1, [])
  | .start type netcfgFinishCb args room =>
    ((s.start type netcfgFinishCb args room).1, [.asked type])
  | .stop type rets =>
      let (s, events, ret) := s.stop type rets
      (s, events ++ if ret = oprtOk then [.stopped type] else [])
  | .stopOtherAll type rets => ((s.stopOtherAll type rets).1, (s.stopOtherAll type rets).2.1)
  | .uninit => (s.uninit, [])
  | .begin => s.begin
  | .finish ret => s.finish ret

/-- Before `netcfg_init`. -/
def netcfgNone : NetcfgState := ⟨none, [], none, 0⟩

end TuyaOpen.Netcfg
