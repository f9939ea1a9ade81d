import Mathlib.Data.Nat.Notation
import Mathlib.Logic.Function.Basic
import TuyaOpen.Common.ErrorCode

/-!
# The IoT client

`tuya_iot.c`: one thread calls `tuya_iot_yield` again and again, which runs the case of the next
state.  Requests of any thread write that state too, at any time: a case is split where it waits or
calls back, and a request behind its test of the state.
-/

namespace TuyaOpen.Cloud

/-- `tuya_run_state_t`. -/
inductive RunState where
  | idle
  | start
  | dataLoad
  | endpointGet
  | endpointUpdate
  | tokenPending
  | activating
  | networkCheck
  | networkReconnect
  | startupUpdate
  | mqttConnectStart
  | mqttConnecting
  | mqttReconnect
  | mqttYield
  | restart
  | reset
  | stop
  | exit
  deriving DecidableEq

/-- Where a case of `tuya_iot_yield` waits: at its first call or, in some cases, at a later one. -/
inductive YieldPoint where
  | returned
  | entered
  | subscribed
  | woken
  | tokenOn
  | responded
  | endpointSet
  deriving DecidableEq

/-- A request between its test of the state and its write, or `tuya_iot_reset` behind its write. -/
inductive IotRequest where
  | idle
  | starting
  | reconnecting
  | resetting
  deriving DecidableEq

/-- `tuya_binding_info_t`. -/
structure BindingInfo where
  token : List UInt8
  region : List UInt8
  registKey : List UInt8
  deriving DecidableEq

/-- `tuya_mqtt_context_t`; `mqttClient` says that the pointer is not NULL. -/
structure MqttContext where
  isInited : Bool
  isConnected : Bool
  manualDisconnect : Bool
  mqttClient : Bool
  deriving DecidableEq

/-- A schema that is registered, by its address. -/
structure DpSchemaEntry where
  addr : ℕ
  devid : List UInt8
  deriving DecidableEq

/-- `tuya_iot_client_handle` with the calls of the threads.  `linkActivate` and `linkTypeChg` are
the subscriptions, `schemaList` is the one place of `s_dsmgr`, and `addrs` counts the schemas that
were ever created.  History are `destroyed`, `tuya_mqtt_destory` has run behind the latest
`tuya_mqtt_init`, and `deleted`, the addresses of schemas that were deleted. -/
structure IotClient where
  state : RunState
  nextstate : RunState
  point : YieldPoint
  isActivated : Bool
  devid : List UInt8
  binding : Option BindingInfo
  tokenResult : OperateRet
  sem : Bool
  linkActivate : Bool
  linkTypeChg : Bool
  mqctx : MqttContext
  destroyed : Bool
  schema : Option ℕ
  schemaList : Option DpSchemaEntry
  addrs : ℕ
  deleted : List ℕ
  requests : ℕ → IotRequest

/-- How far `tuya_mqtt_init` comes. -/
inductive MqttInit where
  | notSigned
  | noClient
  | clientFailed
  | inited
  deriving DecidableEq

/-- `mqtt_client_connect`. -/
inductive MqttConnect where
  | success
  | notAuthorized
  | failed
  deriving DecidableEq

/-- What the calls of a case give.  The activation data has a `devid` when its text could be parsed,
and `dataRead` is the code. -/
structure YieldEnv where
  alloc : Bool
  subscribe : Bool
  networkCheck : Bool
  endpoint : OperateRet
  activate : OperateRet
  parse : OperateRet
  dataRead : OperateRet
  devid : Option (List UInt8)
  schema : Bool
  mqttInit : MqttInit
  connect : MqttConnect
  yields : Bool

/-- A call of `tuya_iot_yield` begins, its case goes on, or a command comes in its MQTT loop; the
token event is published; and what the threads ask for. -/
inductive IotStep where
  | yield (env : YieldEnv)
  | advance (env : YieldEnv)
  | resetCmd
  | tokenActivate (info : BindingInfo)
  | start (t : ℕ)
  | reconnect (t : ℕ)
  | linkTypeChange (t : ℕ)
  | stop
  | reset (t : ℕ)
  | goOn (t : ℕ)

/-- The use of a pointer, with what it is, and the end of a reset. -/
inductive IotEvent where
  | binding (info : Option BindingInfo)
  | mqttClient (nonNull : Bool)
  | resetDone
  deriving DecidableEq

namespace MqttContext

variable (mq : MqttContext)

/-- `tuya_mqtt_init`. -/
def init : MqttInit → MqttContext
  | .notSigned => ⟨false, false, false, false⟩
  | .noClient => ⟨false, false, false, false⟩
  | .clientFailed => ⟨false, false, false, true⟩
  | .inited => ⟨true, false, true, true⟩

/-- `tuya_mqtt_stop`. -/
def stop : MqttContext × List IotEvent :=
  if mq.isInited = false then (mq, [])
  else ({ mq with isConnected := false, manualDisconnect := true }, [.mqttClient mq.mqttClient])

/-- `tuya_mqtt_destory`. -/
def destory : MqttContext := if mq.isInited = true then { mq with mqttClient := false } else mq

/-- `tuya_mqtt_start`, with whether it succeeds. -/
def start (connect : MqttConnect) : MqttContext × Bool :=
  if mq.isInited = false then (mq, false)
  else match connect with
    | .success => ({ mq with manualDisconnect := false, isConnected := true }, true)
    | _ => ({ mq with manualDisconnect := false }, false)

theorem start_snd (connect : MqttConnect) :
    (mq.start connect).2 = true ↔ mq.isInited = true ∧ connect = .success := by
  by_cases hinited : mq.isInited = true
  · cases connect <;> simp [start, hinited]
  · simp [start, hinited]

/-- `tuya_mqtt_loop` behind its tests: a connect, or what `mqtt_client_yield` comes to. -/
def loop (connect : MqttConnect) (yields : Bool) : MqttContext :=
  if mq.isConnected = false then
    if connect = .success then { mq with isConnected := true } else mq
  else if yields = false then { mq with isConnected := false }
  else mq

end MqttContext

namespace IotClient

variable (s : IotClient)

/-- The case ends. -/
def ret (nextstate : RunState) : IotClient := { s with nextstate := nextstate, point := .returned }

@[simp] theorem ret_nextstate (next : RunState) : (s.ret next).nextstate = next := rfl

@[simp] theorem ret_state (next : RunState) : (s.ret next).state = s.state := rfl

@[simp] theorem ret_point (next : RunState) : (s.ret next).point = .returned := rfl

/-- `tuya_mqtt_destory` of the client. -/
def mqttDestory : IotClient :=
  { s with mqctx := s.mqctx.destory, destroyed := s.destroyed || s.mqctx.isInited }

/-- `dp_schema_create`; there is one place for a schema. -/
def schemaCreate (ok : Bool) : IotClient :=
  if ok = false then { s with schema := none }
  else { s with
    schema := some s.addrs
    schemaList := s.schemaList.or (some ⟨s.addrs, s.devid⟩)
    addrs := s.addrs + 1 }

@[simp] theorem schemaCreate_nextstate (ok : Bool) :
    (s.schemaCreate ok).nextstate = s.nextstate := by
  cases ok <;> rfl

/-- `dp_schema_delete`. -/
def schemaDelete : IotClient :=
  match s.schemaList with
  | none => s
  | some entry =>
      if entry.devid = s.devid then
        { s with schemaList := none, deleted := entry.addr :: s.deleted }
      else s

/-- `tuya_iot_activated_data_remove`. -/
def activatedDataRemove : IotClient :=
  if s.isActivated = false then s else { s with isActivated := false }.schemaDelete

/-- `run_state_reset`. -/
def runStateReset : IotClient × List IotEvent :=
  let (mq, events) := if s.isActivated = true ∧ s.mqctx.isConnected = true then s.mqctx.stop
    else (s.mqctx, [])
  ({ s with mqctx := mq }.mqttDestory.activatedDataRemove, events)

/-- `tuya_iot_yield` up to where its case first waits. -/
def yield (env : YieldEnv) : IotClient × List IotEvent :=
  let s := { s with state := s.nextstate, point := .entered }
  match s.state with
  | .start =>
      ({ s with linkTypeChg := s.linkTypeChg || env.subscribe }.ret
        (if s.isActivated = true then .networkCheck else .dataLoad), [])
  | .dataLoad =>
      if s.isActivated = true then (s.ret .networkCheck, [])
      else if env.alloc = false then ({ s with binding := none }.ret s.nextstate, [])
      else ({ s with binding := some ⟨[], [], []⟩ }, [])
  | .activating => (s, [.binding s.binding])
  | .mqttConnecting =>
      (s.ret (if s.mqctx.isConnected = true then .mqttYield else s.nextstate), [])
  | .mqttReconnect =>
      let (mq, events) := s.mqctx.stop
      ({ s with mqctx := mq }, events)
  | .mqttYield =>
      if s.mqctx.isInited = false ∨ s.mqctx.manualDisconnect = true then (s.ret s.nextstate, [])
      else (s, [.mqttClient s.mqctx.mqttClient])
  | .restart => (s.ret .start, [])
  | .exit => (s.ret s.nextstate, [])
  | _ => (s, [])

/-- The case goes on to where it next waits, or to its end. -/
def advance (env : YieldEnv) : IotClient × List IotEvent :=
  match s.state, s.point with
  | .dataLoad, .entered =>
      ({ s with linkActivate := s.linkActivate || env.subscribe, point := .subscribed }, [])
  | .dataLoad, .subscribed => (s.ret .tokenPending, [])
  | .tokenPending, .entered =>
      if s.sem = true then ({ s with sem := false, point := .woken }, []) else (s, [])
  | .tokenPending, .woken =>
      if s.tokenResult ≠ oprtOk then ({ s with binding := none }.ret s.nextstate, [])
      else ({ s with point := .tokenOn }, [.binding s.binding])
  | .tokenPending, .tokenOn => (s.ret .networkCheck, [])
  | .networkCheck, .entered =>
      (s.ret (if env.networkCheck = true then
        if s.isActivated = true then .endpointGet else .endpointUpdate else s.nextstate), [])
  | .endpointGet, .entered =>
      (s.ret (if env.endpoint ≠ oprtOk then .endpointUpdate else .startupUpdate), [])
  | .endpointUpdate, .entered =>
      if env.endpoint ≠ oprtOk then (s.ret s.nextstate, [])
      else if s.isActivated = true then ({ s with point := .endpointSet }, [])
      else (s.ret .activating, [])
  | .endpointUpdate, .endpointSet => (s.ret .startupUpdate, [])
  | .activating, .entered =>
      if env.activate ≠ oprtOk then (s.ret .restart, [])
      else ({ s with point := .responded }, [])
  | .activating, .responded =>
      if env.parse ≠ oprtOk then (s.ret s.nextstate, [])
      else
        let s := { s with binding := none, devid := env.devid.getD s.devid }
        if env.dataRead ≠ oprtOk then (s.ret .reset, [])
        else if env.schema = false then ((s.schemaCreate false).ret .reset, [])
        else ({ s.schemaCreate true with point := .endpointSet }, [])
  | .activating, .endpointSet => ({ s with isActivated := true }.ret .startupUpdate, [])
  | .startupUpdate, .entered =>
      ({ s with mqctx := .init env.mqttInit, destroyed := false }.ret .mqttConnectStart, [])
  | .mqttConnectStart, .entered =>
      let (mq, ok) := s.mqctx.start env.connect
      ({ s with mqctx := mq }.ret
        (if ok = true then .mqttConnecting
        else if s.mqctx.isInited = true ∧ env.connect = MqttConnect.notAuthorized then .reset
        else s.nextstate), [])
  | .mqttReconnect, .entered =>
      (s.ret (if env.networkCheck = true then .mqttConnectStart else .networkReconnect), [])
  | .networkReconnect, .entered =>
      (s.ret (if env.networkCheck = true then .mqttConnectStart else s.nextstate), [])
  | .mqttYield, .entered =>
      ({ s with mqctx := s.mqctx.loop env.connect env.yields }.ret
        (if s.mqctx.isConnected = false ∧ env.connect = MqttConnect.notAuthorized then .reset
        else s.nextstate), [])
  | .reset, .entered =>
      let (s, events) := s.runStateReset
      (s.ret .restart, events ++ [.resetDone])
  | .stop, .entered =>
      let (mq, events) := s.mqctx.stop
      ({ s with mqctx := mq }.mqttDestory.ret .idle, events)
  | _, .returned => (s, [])
  | _, _ => (s.ret s.nextstate, [])

/-- `tuya_iot_token_activate_evt`, which is subscribed for one event. -/
def tokenActivateEvt (info : BindingInfo) : IotClient × List IotEvent :=
  if s.linkActivate = false then (s, [])
  else ({ s with
    binding := s.binding.map fun _ ↦ info
    tokenResult := oprtOk
    sem := true
    linkActivate := false }, [.binding s.binding])

def setRequest (t : ℕ) (request : IotRequest) : IotClient :=
  { s with requests := Function.update s.requests t request }

/-- The test of `tuya_iot_reconnect`. -/
def reconnect (t : ℕ) : IotClient :=
  if s.requests t = .idle ∧ s.state = .mqttYield then s.setRequest t .reconnecting else s

/-- A request behind its test, or `tuya_iot_reset` behind its write. -/
def goOn (t : ℕ) : IotClient :=
  match s.requests t with
  | .idle => s
  | .starting => { s.setRequest t .idle with nextstate := .start }
  | .reconnecting => { s.setRequest t .idle with nextstate := .mqttReconnect }
  | .resetting =>
      if s.state = .tokenPending then
        { s.setRequest t .idle with tokenResult := oprtComError, sem := true }
      else s.setRequest t .idle

end IotClient

def iotStep (s : IotClient) : IotStep → IotClient × List IotEvent
  | .yield env => if s.point = .returned then s.yield env else (s, [])
  | .advance env => s.advance env
  | .resetCmd =>
      if s.state = .mqttYield ∧ s.point = .entered ∧ s.mqctx.isConnected = true then
        ({ s with nextstate := .reset }, [])
      else (s, [])
  | .tokenActivate info => s.tokenActivateEvt info
  | .start t =>
      if s.requests t = .idle ∧ s.state = .idle then (s.setRequest t .starting, []) else (s, [])
  | .reconnect t => (s.reconnect t, [])
  | .linkTypeChange t => if s.linkTypeChg = true then (s.reconnect t, []) else (s, [])
  | .stop => ({ s with nextstate := .stop }, [])
  | .reset t =>
      if s.requests t = .idle then ({ s.setRequest t .resetting with nextstate := .reset }, [])
      else (s, [])
  | .goOn t => (s.goOn t, [])

/-- Behind `tuya_iot_init`, which may have found the data of an activation. -/
def iotInit (isActivated : Bool) (devid : List UInt8) : IotClient where
  state := .idle
  nextstate := .idle
  point := .returned
  isActivated := isActivated
  devid := devid
  binding := none
  tokenResult := oprtOk
  sem := false
  linkActivate := false
  linkTypeChg := false
  mqctx := ⟨false, false, false, false⟩
  destroyed := false
  schema := if isActivated = true then some 0 else none
  schemaList := if isActivated = true then some ⟨0, devid⟩ else none
  addrs := 1
  deleted := []
  requests := fun _ ↦ .idle

/-- All calls succeed. -/
def someYield : YieldEnv where
  alloc := true
  subscribe := true
  networkCheck := true
  endpoint := oprtOk
  activate := oprtOk
  parse := oprtOk
  dataRead := oprtOk
  devid := none
  schema := true
  mqttInit := .inited
  connect := .success
  yields := true

/-- A case from its beginning to its end. -/
def someCase : List IotStep := [.yield someYield, .advance someYield]

/-- The start, up to the end of `STATE_START`. -/
def someStart : List IotStep := [.start 0, .goOn 0, .yield someYield]

end TuyaOpen.Cloud
