import Mathlib.Algebra.Ring.Nat
import Mathlib.Order.Basic
import TuyaOpen.Cloud.Iot
import TuyaOpen.Lib.Mealy
import TuyaOpen.Lib.Pending

/-!
# Publishing with a callback

`mqtt_service.c`: a publish waits in a list for the PUBACK of its message id, or for its timeout,
and its callback is told which came.  Other threads publish while the loop goes through the list; a
synchronous publish sends first and is put into the list behind that.
-/

namespace TuyaOpen.Cloud

/-- `mqtt_publish_handle_t`.  History are `number`, which publish it is, `called`, when it was
called, and `timeoutMs`, the argument. -/
structure MqttPublishHandle where
  number : ℕ
  called : ℕ
  timeoutMs : ℤ
  msgid : ℕ
  timeout : ℕ
  topic : List UInt8
  payload : List UInt8
  deriving DecidableEq

/-- The MQTT context with its list, up to `next_handle` and from it on, and the threads that have
sent and not yet appended.  The clock is in milliseconds.  History are `pass`, when the pass that
runs has begun, and `count`, how many publishes there were. -/
structure MqttPublishSystem where
  mqctx : MqttContext
  nextPacketId : ℕ
  visited : List MqttPublishHandle
  rest : List MqttPublishHandle
  pass : Option ℕ
  calls : ℕ → Option MqttPublishHandle
  clock : ℕ
  count : ℕ

/-- Whether there is memory, and whether the packet is sent. -/
structure PublishEnv where
  handle : Bool
  payload : Bool
  sends : Bool

/-- A pass of `tuya_mqtt_loop` begins, and it goes on with an entry or comes to the end of the list.
A PUBACK comes behind the list, in `mqtt_client_yield`, which may fail.  A packet of another kind
takes an id. -/
inductive PublishStep where
  | tick (ms : ℕ)
  | publish (t : ℕ) (topic payload : List UInt8) (timeoutMs : ℤ) (async : Bool) (env : PublishEnv)
  | append (t : ℕ)
  | loop (connect : MqttConnect)
  | loopEntry (ms : ℕ) (sends : Bool)
  | puback (msgid : ℕ)
  | yieldFails
  | packetId
  | start (connect : MqttConnect)
  | stop
  | destory
  | init (init : MqttInit)

/-- A packet that is sent, a publish that is accepted, a callback, and the end of a pass. -/
inductive PublishEvent where
  | sent (number : ℕ) (payload : List UInt8) (msgid : ℕ)
  | accepted (number : ℕ)
  | notified (handle : MqttPublishHandle) (rt : OperateRet)
  | passed (began : ℕ)
  deriving DecidableEq

def timeTSize : ℕ := 2 ^ 32

/-- `tal_time_get_posix`, in seconds. -/
def talTimeGetPosix (clock : ℕ) : ℕ := clock / 1000

/-- `MQTT_GetPacketId`: what follows an id. -/
def packetIdNext (id : ℕ) : ℕ := if id = 0xffff then 1 else id + 1

namespace MqttPublishSystem

variable (s : MqttPublishSystem)

def publishList : List MqttPublishHandle := s.visited ++ s.rest

/-- The clock goes on, up to the end of `TIME_T`. -/
def tick (ms : ℕ) : MqttPublishSystem :=
  if talTimeGetPosix (s.clock + ms) < timeTSize then { s with clock := s.clock + ms } else s

/-- `mqtt_client_publish` of an entry: its id, or zero. -/
def clientPublish (handle : MqttPublishHandle) (sends : Bool) :
    MqttPublishSystem × MqttPublishHandle × List PublishEvent :=
  let s' := { s with nextPacketId := packetIdNext s.nextPacketId }
  if sends = false then (s', { handle with msgid := 0 }, [])
  else (s', { handle with msgid := s.nextPacketId },
    [.sent handle.number handle.payload s.nextPacketId])

/-- The entry that `tuya_mqtt_client_publish_common` makes. -/
def newHandle (topic payload : List UInt8) (timeoutMs : ℤ) : MqttPublishHandle where
  number := s.count
  called := s.clock
  timeoutMs := timeoutMs
  msgid := 0
  timeout := ((talTimeGetPosix s.clock + timeoutMs) % timeTSize).toNat
  topic := topic
  payload := payload

/-- The entry goes to the tail of the list. -/
def appendHandle (handle : MqttPublishHandle) : MqttPublishSystem × List PublishEvent :=
  ({ s with rest := s.rest ++ [handle] }, [.accepted handle.number])

/-- `tuya_mqtt_client_publish_common` with a callback, up to its send. -/
def publish (t : ℕ) (topic payload : List UInt8) (timeoutMs : ℤ) (async : Bool) (env : PublishEnv) :
    MqttPublishSystem × List PublishEvent :=
  if s.calls t ≠ none ∨ env.handle = false ∨ (payload ≠ [] ∧ env.payload = false) then (s, [])
  else
    let handle := s.newHandle topic payload timeoutMs
    if async = true then { s with count := s.count + 1 }.appendHandle handle
    else if s.mqctx.mqttClient = false then (s, []) -- sends through NULL
    else
      let (s, handle, events) := { s with count := s.count + 1 }.clientPublish handle env.sends
      ({ s with calls := Function.update s.calls t (some handle) }, events)

/-- `tuya_mqtt_loop` up to its list. -/
def loop (connect : MqttConnect) : MqttPublishSystem :=
  if s.pass ≠ none ∨ s.mqctx.isInited = false ∨ s.mqctx.manualDisconnect = true ∨
      s.mqctx.mqttClient = false then s
  else if s.mqctx.isConnected = false then { s with mqctx := s.mqctx.loop connect true }
  else { s with pass := some s.clock }

/-- The loop of `tuya_mqtt_loop` at an entry, or at its end. -/
def loopEntry (sends : Bool) : MqttPublishSystem × List PublishEvent :=
  match s.pass, s.rest with
  | none, _ => (s, [])
  | some began, [] => ({ s with visited := [], rest := s.visited, pass := none }, [.passed began])
  | some _, entry :: rest =>
      if entry.timeout ≤ talTimeGetPosix s.clock then
        ({ s with rest := rest }, [.notified entry oprtTimeout])
      else if entry.msgid = 0 then
        let (s, entry, events) := s.clientPublish entry sends
        ({ s with visited := s.visited ++ [entry], rest := rest }, events)
      else ({ s with visited := s.visited ++ [entry], rest := rest }, [])

/-- `mqtt_client_puback_cb`; `MQTT_DeserializeAck` refuses the id zero. -/
def puback (msgid : ℕ) : MqttPublishSystem × List PublishEvent :=
  if s.pass ≠ none ∨ msgid = 0 then (s, [])
  else match s.rest.find? fun entry ↦ msgid = entry.msgid with
    | none => (s, [])
    | some entry =>
        ({ s with rest := s.rest.eraseP fun entry ↦ msgid = entry.msgid }, [.notified entry oprtOk])

/-- `tuya_mqtt_init`: the context is cleared. -/
def init (init : MqttInit) : MqttPublishSystem :=
  { s with mqctx := .init init, nextPacketId := 1, visited := [], rest := [] }

end MqttPublishSystem

/-- The thread of the loop calls the functions that change the context, and not in the list. -/
def publishStep (s : MqttPublishSystem) : PublishStep → MqttPublishSystem × List PublishEvent
  | .tick ms => (s.tick ms, [])
  | .publish t topic payload timeoutMs async env => s.publish t topic payload timeoutMs async env
  | .append t => match s.calls t with
      | none => (s, [])
      | some handle => { s with calls := Function.update s.calls t none }.appendHandle handle
  | .loop connect => (s.loop connect, [])
  | .loopEntry ms sends => (s.tick ms).loopEntry sends
  | .puback msgid => s.puback msgid
  | .yieldFails =>
      if s.pass = none then ({ s with mqctx := s.mqctx.loop .failed false }, []) else (s, [])
  | .packetId => ({ s with nextPacketId := packetIdNext s.nextPacketId }, [])
  | .start connect =>
      if s.pass = none then ({ s with mqctx := (s.mqctx.start connect).1 }, []) else (s, [])
  | .stop => if s.pass = none then ({ s with mqctx := s.mqctx.stop.1 }, []) else (s, [])
  | .destory => if s.pass = none then ({ s with mqctx := s.mqctx.destory }, []) else (s, [])
  | .init init => if s.pass = none then (s.init init, []) else (s, [])

/-- Behind the first `tuya_mqtt_init`, at any time. -/
def publishInit (clock : ℕ) : MqttPublishSystem where
  mqctx := .init .inited
  nextPacketId := 1
  visited := []
  rest := []
  pass := none
  calls := fun _ ↦ none
  clock := if talTimeGetPosix clock < timeTSize then clock else 0
  count := 0

/-!
## What the callback of a publish is told

Each publish with a callback is answered once: by the PUBACK of the id that it was sent under, or by
its timeout.  The timeout is in milliseconds, and the loop adds it to a clock in seconds.
-/

/-- What was seen so far: the publishes that were accepted, those whose callback was called, and the
packets. -/
structure PublishLog where
  accepted : List ℕ
  notified : List ℕ
  sent : List (ℕ × List UInt8 × ℕ)

namespace PublishLog

def record (log : PublishLog) : PublishEvent → PublishLog
  | .sent number payload msgid => { log with sent := log.sent ++ [(number, payload, msgid)] }
  | .accepted number => { log with accepted := log.accepted ++ [number] }
  | .notified handle _ => { log with notified := log.notified ++ [handle.number] }
  | .passed _ => log

end PublishLog

abbrev LoggedPublish := MqttPublishSystem × PublishLog

def publishMachine : Mealy LoggedPublish PublishStep (List PublishEvent) where
  step s x := (((publishStep s.1 x).1, (publishStep s.1 x).2.foldl PublishLog.record s.2),
    (publishStep s.1 x).2)

/-- More than the timeout, rounded up to a second, is over. -/
def MqttPublishHandle.Overdue (h : MqttPublishHandle) (clock : ℕ) : Prop :=
  1000 * ((h.timeoutMs + 999) / 1000) < clock - h.called

instance (h : MqttPublishHandle) (clock : ℕ) : Decidable (h.Overdue clock) :=
  inferInstanceAs (Decidable (_ < _))

/-- A callback is called for a publish that is accepted and not yet answered; the others wait.  It
is told `OPRT_OK` by the PUBACK of an id that its payload was sent under, and `OPRT_TIMEOUT` behind
its timeout.  A pass leaves no entry that was overdue at its beginning. -/
structure PublishSound (s : LoggedPublish) (x : PublishStep) : Prop where
  once : ∀ h rt, .notified h rt ∈ (publishMachine.step s x).2 →
    h.number ∈ s.2.accepted ∧ h.number ∉ s.2.notified
  nodup : (publishMachine.step s x).1.2.notified.Nodup
  code : ∀ h rt, .notified h rt ∈ (publishMachine.step s x).2 → rt = oprtOk ∨ rt = oprtTimeout
  puback : ∀ h, .notified h oprtOk ∈ (publishMachine.step s x).2 →
    ∃ msgid, x = .puback msgid ∧ (h.number, h.payload, msgid) ∈ s.2.sent
  timeout : ∀ h, .notified h oprtTimeout ∈ (publishMachine.step s x).2 →
    h.timeoutMs ≤ ((publishMachine.step s x).1.1.clock : ℤ) - h.called
  waits : ∀ n ∈ (publishMachine.step s x).1.2.accepted, n ∉ (publishMachine.step s x).1.2.notified →
    (publishMachine.step s x).1.1.mqctx.mqttClient = true ∧
      ∃ h ∈ (publishMachine.step s x).1.1.publishList, h.number = n
  due : ∀ began, .passed began ∈ (publishMachine.step s x).2 →
    ∀ h ∈ (publishMachine.step s x).1.1.publishList, ¬h.Overdue began

/-- Nothing waits. -/
def MqttPublishSystem.Quiet (s : MqttPublishSystem) : Prop :=
  s.publishList = [] ∧ ∀ t, s.calls t = none

/-- The timeout fits `TIME_T`, and there is a client; a pass does not come to an entry that was
overdue at its beginning and has not waited as many seconds as its timeout has milliseconds; and
nothing waits when the client ends or the context is cleared. -/
def PublishSafe (s : LoggedPublish) : PublishStep → Prop
  | .publish _ _ _ timeoutMs _ _ => s.1.mqctx.mqttClient = true ∧
      0 ≤ talTimeGetPosix s.1.clock + timeoutMs ∧ talTimeGetPosix s.1.clock + timeoutMs < timeTSize
  | .loopEntry ms _ => ∀ began h, s.1.pass = some began → s.1.rest.head? = some h →
    h.Overdue began →
      h.timeoutMs ≤ talTimeGetPosix (s.1.tick ms).clock - (talTimeGetPosix h.called : ℤ)
  | .destory => s.1.pass = none → s.1.Quiet
  | .init _ => s.1.pass = none → s.1.Quiet
  | _ => True

/-! ## The invariant -/

/-- An entry has what its publish gave, and its id is one it was sent under. -/
structure HandleOk (clock : ℕ) (sent : List (ℕ × List UInt8 × ℕ)) (h : MqttPublishHandle) :
    Prop where
  called : h.called ≤ clock
  timeout : (h.timeout : ℤ) = talTimeGetPosix h.called + h.timeoutMs
  sent : h.msgid ≠ 0 → (h.number, h.payload, h.msgid) ∈ sent

theorem HandleOk.mono {h : MqttPublishHandle} {clock clock' : ℕ}
    {sent sent' : List (ℕ × List UInt8 × ℕ)}
    (hok : HandleOk clock sent h) (hclock : clock ≤ clock') (hsent : sent ⊆ sent') :
    HandleOk clock' sent' h :=
  ⟨Nat.le_trans hok.called hclock, hok.timeout, fun hid ↦ hsent (hok.sent hid)⟩

theorem HandleOk.send {h : MqttPublishHandle} {clock : ℕ} {sent : List (ℕ × List UInt8 × ℕ)}
    (hok : HandleOk clock sent h) (msgid : ℕ) :
    HandleOk clock (sent ++ [(h.number, h.payload, msgid)]) { h with msgid := msgid } :=
  ⟨hok.called, hok.timeout, fun _ ↦ List.mem_append_right _ List.mem_cons_self⟩

structure PublishInv (s : LoggedPublish) : Prop where
  list : Pending MqttPublishHandle.number (HandleOk s.1.clock s.2.sent) s.1.publishList s.1.calls
    s.1.count s.2.accepted s.2.notified
  client : s.1.mqctx.mqttClient = true ∨ s.1.Quiet
  idle : s.1.pass = none → s.1.visited = []
  visited : ∀ began, s.1.pass = some began →
    began ≤ s.1.clock ∧ ∀ h ∈ s.1.visited, ¬h.Overdue began

/-- A step in which no callback is called and no pass ends. -/
def Silent (events : List PublishEvent) : Prop :=
  ∀ event ∈ events, (∀ h rt, event ≠ .notified h rt) ∧ ∀ began, event ≠ .passed began

section Sound

variable {s : LoggedPublish} {x : PublishStep}

theorem PublishInv.waits (h : PublishInv s) (n : ℕ) (hacc : n ∈ s.2.accepted)
    (hnot : n ∉ s.2.notified) :
    s.1.mqctx.mqttClient = true ∧ ∃ h ∈ s.1.publishList, h.number = n := by
  obtain ⟨entry, hentry, hnumber⟩ := h.list.exists_of_waits hacc hnot
  refine ⟨?_, entry, hentry, hnumber⟩
  rcases h.client with hclient | hquiet
  · exact hclient
  · rw [hquiet.1] at hentry
    exact absurd hentry (by simp)

theorem PublishInv.sound_of_silent (hnext : PublishInv (publishMachine.step s x).1)
    (hsilent : Silent (publishMachine.step s x).2) : PublishSound s x where
  once h rt hmem := absurd rfl ((hsilent _ hmem).1 h rt)
  nodup := hnext.list.answeredNodup
  code h rt hmem := absurd rfl ((hsilent _ hmem).1 h rt)
  puback h hmem := absurd rfl ((hsilent _ hmem).1 h oprtOk)
  timeout h hmem := absurd rfl ((hsilent _ hmem).1 h oprtTimeout)
  waits := hnext.waits
  due began hmem := absurd rfl ((hsilent _ hmem).2 began)

/-- The step keeps the invariant and is sound. -/
def StepOk (s : LoggedPublish) (x : PublishStep) : Prop :=
  PublishInv (publishMachine.step s x).1 ∧ PublishSound s x

theorem step_eq {c : MqttPublishSystem} {events : List PublishEvent}
    (hstep : publishStep s.1 x = (c, events)) :
    publishMachine.step s x = ((c, events.foldl PublishLog.record s.2), events) := by
  rw [publishMachine]
  dsimp only
  rw [hstep]

theorem stepOk_of_silent {c : MqttPublishSystem} {events : List PublishEvent}
    (hstep : publishStep s.1 x = (c, events)) (hsilent : Silent events)
    (hnext : PublishInv (c, events.foldl PublishLog.record s.2)) : StepOk s x := by
  have heq := step_eq hstep
  refine ⟨heq ▸ hnext, PublishInv.sound_of_silent (heq ▸ hnext) ?_⟩
  rw [heq]
  exact hsilent

theorem silent_nil : Silent [] := fun _ hmem ↦ absurd hmem (by simp)

theorem stepOk_self (h : PublishInv s) (hstep : publishStep s.1 x = (s.1, [])) : StepOk s x :=
  stepOk_of_silent hstep silent_nil h

theorem stepOk_of_notified {c : MqttPublishSystem} {entry : MqttPublishHandle} {rt : OperateRet}
    (hstep : publishStep s.1 x = (c, [.notified entry rt]))
    (honce : entry.number ∈ s.2.accepted ∧ entry.number ∉ s.2.notified)
    (hcode : rt = oprtOk ∨ rt = oprtTimeout)
    (hpuback : rt = oprtOk → ∃ msgid, x = .puback msgid ∧
      (entry.number, entry.payload, msgid) ∈ s.2.sent)
    (htimeout : rt = oprtTimeout → entry.timeoutMs ≤ (c.clock : ℤ) - entry.called)
    (hnext : PublishInv (c, s.2.record (.notified entry rt))) : StepOk s x := by
  have heq := step_eq hstep
  have hnext' : PublishInv (publishMachine.step s x).1 := heq ▸ hnext
  have hevent : ∀ h rt', .notified h rt' ∈ (publishMachine.step s x).2 → h = entry ∧ rt' = rt := by
    intro h rt' hmem
    rw [heq, List.mem_singleton] at hmem
    exact PublishEvent.notified.inj hmem
  refine ⟨hnext', ⟨?_, hnext'.list.answeredNodup, ?_, ?_, ?_, hnext'.waits, ?_⟩⟩
  · intro h rt' hmem
    rw [(hevent h rt' hmem).1]
    exact honce
  · intro h rt' hmem
    rw [(hevent h rt' hmem).2]
    exact hcode
  · intro h hmem
    rw [(hevent h oprtOk hmem).1]
    exact hpuback (hevent h oprtOk hmem).2.symm
  · intro h hmem
    rw [(hevent h oprtTimeout hmem).1, heq]
    exact htimeout (hevent h oprtTimeout hmem).2.symm
  · intro began hmem
    rw [heq, List.mem_singleton] at hmem
    cases hmem

theorem stepOk_of_passed {c : MqttPublishSystem} {began : ℕ}
    (hstep : publishStep s.1 x = (c, [.passed began]))
    (hdue : ∀ h ∈ c.publishList, ¬h.Overdue began) (hnext : PublishInv (c, s.2)) : StepOk s x := by
  have heq := step_eq hstep
  have hnext' : PublishInv (publishMachine.step s x).1 := heq ▸ hnext
  have hnotified : ∀ h rt, .notified h rt ∉ (publishMachine.step s x).2 := by
    intro h rt hmem
    rw [heq, List.mem_singleton] at hmem
    cases hmem
  refine ⟨hnext', ⟨?_, hnext'.list.answeredNodup, ?_, ?_, ?_, hnext'.waits, ?_⟩⟩
  · exact fun h rt hmem ↦ absurd hmem (hnotified h rt)
  · exact fun h rt hmem ↦ absurd hmem (hnotified h rt)
  · exact fun h hmem ↦ absurd hmem (hnotified h _)
  · exact fun h hmem ↦ absurd hmem (hnotified h _)
  · intro began' hmem
    rw [heq] at hmem ⊢
    cases List.mem_singleton.mp hmem
    exact hdue

theorem PublishInv.context (h : PublishInv s) {mq : MqttContext} (id : ℕ)
    (hclient : mq.mqttClient = s.1.mqctx.mqttClient ∨ s.1.Quiet) :
    PublishInv ({ s.1 with mqctx := mq, nextPacketId := id }, s.2) where
  list := h.list
  client := by
    rcases hclient with hsame | hquiet
    · rcases h.client with hclient | hquiet
      · exact .inl (hsame.trans hclient)
      · exact .inr hquiet
    · exact .inr hquiet
  idle := h.idle
  visited := h.visited

theorem PublishInv.tick (h : PublishInv s) (ms : ℕ) : PublishInv (s.1.tick ms, s.2) := by
  rw [MqttPublishSystem.tick]
  split_ifs
  · refine ⟨h.list.imp fun entry hok ↦ hok.mono (Nat.le_add_right _ _) (List.Subset.refl _),
      h.client, h.idle, ?_⟩
    intro began hpass
    exact ⟨Nat.le_trans (h.visited began hpass).1 (Nat.le_add_right _ _), (h.visited began hpass).2⟩
  · exact h

theorem start_mqttClient (mq : MqttContext) (connect : MqttConnect) :
    (mq.start connect).1.mqttClient = mq.mqttClient := by
  by_cases hinited : mq.isInited = true
  · cases connect <;> simp [MqttContext.start, hinited]
  · simp [MqttContext.start, hinited]

theorem stop_mqttClient (mq : MqttContext) : mq.stop.1.mqttClient = mq.mqttClient := by
  rw [MqttContext.stop]
  split_ifs <;> rfl

theorem loop_mqttClient (mq : MqttContext) (connect : MqttConnect) (yields : Bool) :
    (mq.loop connect yields).mqttClient = mq.mqttClient := by
  rw [MqttContext.loop]
  split_ifs <;> rfl

theorem newHandle_ok {c : MqttPublishSystem} {timeoutMs : ℤ}
    (hpos : 0 ≤ talTimeGetPosix c.clock + timeoutMs)
    (hlt : talTimeGetPosix c.clock + timeoutMs < timeTSize) (topic payload : List UInt8)
    (sent : List (ℕ × List UInt8 × ℕ)) :
    HandleOk c.clock sent (c.newHandle topic payload timeoutMs) where
  called := Nat.le_refl _
  timeout := by
    change (((talTimeGetPosix c.clock + timeoutMs) % timeTSize).toNat : ℤ) = _
    rw [Int.emod_eq_of_lt hpos hlt, Int.toNat_of_nonneg hpos]
    rfl
  sent hid := absurd rfl hid

theorem PublishInv.publish (h : PublishInv s) {t : ℕ} {topic payload : List UInt8} {timeoutMs : ℤ}
    {async : Bool} {env : PublishEnv}
    (hsafe : PublishSafe s (.publish t topic payload timeoutMs async env)) :
    StepOk s (.publish t topic payload timeoutMs async env) := by
  obtain ⟨hclient, hpos, hlt⟩ := hsafe
  have hok := newHandle_ok hpos hlt topic payload
  by_cases hrefused : s.1.calls t ≠ none ∨ env.handle = false ∨ (payload ≠ [] ∧ env.payload = false)
  · apply stepOk_self h
    rw [publishStep, MqttPublishSystem.publish, if_pos hrefused]
  · cases async with
    | true =>
        have haccept := h.list.acceptNew (hok s.2.sent) rfl
        have hstep : publishStep s.1 (.publish t topic payload timeoutMs true env) =
            ({ s.1 with
                count := s.1.count + 1
                rest := s.1.rest ++ [s.1.newHandle topic payload timeoutMs] },
              [.accepted s.1.count]) := by
          rw [publishStep, MqttPublishSystem.publish, if_neg hrefused]
          rfl
        apply stepOk_of_silent hstep
        · intro event hevent
          rw [List.mem_singleton.mp hevent]
          simp
        · refine ⟨?_, .inl hclient, h.idle, h.visited⟩
          change Pending _ _ (s.1.visited ++ (s.1.rest ++ _)) _ _ _ _
          rw [← List.append_assoc]
          exact haccept
    | false =>
        have hsend : ∃ msgid sent events, s.2.sent ⊆ sent ∧ Silent events ∧
            events.foldl PublishLog.record s.2 = { s.2 with sent := sent } ∧
            HandleOk s.1.clock sent { s.1.newHandle topic payload timeoutMs with msgid := msgid } ∧
            publishStep s.1 (.publish t topic payload timeoutMs false env) =
              ({ s.1 with
                  count := s.1.count + 1
                  nextPacketId := packetIdNext s.1.nextPacketId
                  calls := Function.update s.1.calls t
                    (some { s.1.newHandle topic payload timeoutMs with msgid := msgid }) },
                      events) := by
          rw [publishStep, MqttPublishSystem.publish, if_neg hrefused]
          dsimp only
          rw [if_neg (by simp), if_neg (by simp [hclient]), MqttPublishSystem.clientPublish]
          dsimp only
          by_cases hsends : env.sends = false
          · rw [if_pos hsends]
            exact ⟨0, _, [], List.Subset.refl _, silent_nil, rfl, hok s.2.sent, rfl⟩
          · rw [if_neg hsends]
            refine ⟨s.1.nextPacketId, s.2.sent ++ [(s.1.count, payload, s.1.nextPacketId)], _,
              List.subset_append_left _ _, ?_, rfl, (hok s.2.sent).send s.1.nextPacketId, rfl⟩
            intro event hevent
            rw [List.mem_singleton.mp hevent]
            simp
        obtain ⟨msgid, sent, events, hsub, hsilent, hlog, hsent, hstep⟩ := hsend
        apply stepOk_of_silent hstep hsilent
        rw [hlog]
        have hlist := h.list.imp fun entry hentry ↦ hentry.mono (Nat.le_refl _) hsub
        exact ⟨hlist.call t hsent rfl, .inl hclient, h.idle, h.visited⟩

theorem PublishInv.append (h : PublishInv s) (t : ℕ) : StepOk s (.append t) := by
  cases hcall : s.1.calls t with
  | none =>
      apply stepOk_self h
      rw [publishStep, hcall]
  | some handle =>
      have hclient : s.1.mqctx.mqttClient = true := by
        rcases h.client with hclient | hquiet
        · exact hclient
        · exact absurd (hcall.symm.trans (hquiet.2 t)) (by simp)
      have haccept := h.list.acceptCall hcall
      have hstep : publishStep s.1 (.append t) =
          ({ s.1 with
              calls := Function.update s.1.calls t none
              rest := s.1.rest ++ [handle] }, [.accepted handle.number]) := by
        rw [publishStep, hcall]
        rfl
      apply stepOk_of_silent hstep
      · intro event hevent
        rw [List.mem_singleton.mp hevent]
        simp
      · refine ⟨?_, .inl hclient, h.idle, h.visited⟩
        change Pending _ _ (s.1.visited ++ (s.1.rest ++ [handle])) _ _ _ _
        rw [← List.append_assoc]
        exact haccept

theorem PublishInv.loop (h : PublishInv s) (connect : MqttConnect) : StepOk s (.loop connect) := by
  have hstep : publishStep s.1 (.loop connect) = (s.1.loop connect, []) := rfl
  apply stepOk_of_silent hstep silent_nil
  rw [MqttPublishSystem.loop]
  split_ifs with hrefused hconnected
  · exact h
  · exact h.context s.1.nextPacketId (.inl (loop_mqttClient _ _ _))
  · push Not at hrefused
    refine ⟨h.list, h.client, fun hpass ↦ absurd hpass (by simp), ?_⟩
    intro began hpass
    obtain rfl := Option.some.inj hpass
    refine ⟨Nat.le_refl _, fun entry hentry ↦ ?_⟩
    rw [h.idle hrefused.1] at hentry
    exact absurd hentry (by simp)

theorem HandleOk.waited {entry : MqttPublishHandle} {clock : ℕ}
    {sent : List (ℕ × List UInt8 × ℕ)} (hok : HandleOk clock sent entry)
    (hdue : entry.timeout ≤ talTimeGetPosix clock) :
    entry.timeoutMs ≤ (clock : ℤ) - entry.called := by
  have htimeout := hok.timeout
  have hcalled := hok.called
  rw [talTimeGetPosix] at htimeout hdue
  omega

theorem not_overdue_of_kept {entry : MqttPublishHandle} {clock began : ℕ}
    {sent : List (ℕ × List UInt8 × ℕ)} (hok : HandleOk clock sent entry)
    (hkept : ¬entry.timeout ≤ talTimeGetPosix clock)
    (hsafe : entry.Overdue began →
      entry.timeoutMs ≤ talTimeGetPosix clock - (talTimeGetPosix entry.called : ℤ)) :
    ¬entry.Overdue began := by
  intro hover
  have hwaited := hsafe hover
  have htimeout := hok.timeout
  omega

theorem publishInv_of_pass {c : MqttPublishSystem} {log : PublishLog} {began : ℕ}
    (hpass : c.pass = some began) (hclient : c.mqctx.mqttClient = true)
    (hlist : Pending MqttPublishHandle.number (HandleOk c.clock log.sent) c.publishList
      c.calls c.count log.accepted log.notified)
    (hbegan : began ≤ c.clock)
    (hvisited : ∀ h ∈ c.visited, ¬h.Overdue began) : PublishInv (c, log) where
  list := hlist
  client := .inl hclient
  idle hnone := by
    rw [hpass] at hnone
    cases hnone
  visited began' hpass' := by
    rw [hpass] at hpass'
    obtain rfl := Option.some.inj hpass'
    exact ⟨hbegan, hvisited⟩

theorem PublishInv.loopEntry (h : PublishInv s) {ms : ℕ} {sends : Bool}
    (hsafe : PublishSafe s (.loopEntry ms sends)) : StepOk s (.loopEntry ms sends) := by
  have ht := h.tick ms
  have hpassed : (s.1.tick ms).pass = s.1.pass ∧ (s.1.tick ms).rest = s.1.rest ∧
      (s.1.tick ms).visited = s.1.visited := by
    rw [MqttPublishSystem.tick]
    split_ifs <;> exact ⟨rfl, rfl, rfl⟩
  have hstep : publishStep s.1 (.loopEntry ms sends) = (s.1.tick ms).loopEntry sends := rfl
  change ∀ began entry, s.1.pass = some began → s.1.rest.head? = some entry → _ at hsafe
  rw [← hpassed.1, ← hpassed.2.1] at hsafe
  generalize hc : s.1.tick ms = c at ht hstep hsafe
  rw [MqttPublishSystem.loopEntry] at hstep
  cases hpass : c.pass with
  | none =>
      rw [hpass] at hstep
      exact stepOk_of_silent hstep silent_nil ht
  | some began =>
      obtain ⟨hbegan, hvisited⟩ := ht.visited began hpass
      have hlist := ht.list
      rw [MqttPublishSystem.publishList] at hlist
      cases hrest : c.rest with
      | nil =>
          rw [hpass, hrest] at hstep
          rw [hrest, List.append_nil] at hlist
          apply stepOk_of_passed hstep
          · exact hvisited
          · refine ⟨hlist, ?_, fun _ ↦ rfl, fun began' hpass' ↦ absurd hpass' (by simp)⟩
            rcases ht.client with hclient | hquiet
            · exact .inl hclient
            · right
              refine ⟨?_, hquiet.2⟩
              have hempty := hquiet.1
              rw [MqttPublishSystem.publishList, hrest, List.append_nil] at hempty
              exact hempty
      | cons entry rest =>
          rw [hpass, hrest] at hstep
          rw [hrest] at hlist
          have hsafe := hsafe began entry hpass (by rw [hrest]; rfl)
          have hok := hlist.entries entry (by simp)
          have hclient : c.mqctx.mqttClient = true := by
            rcases ht.client with hclient | hquiet
            · exact hclient
            · have hempty := hquiet.1
              rw [MqttPublishSystem.publishList, hrest] at hempty
              exact absurd hempty (by simp)
          -- what a kept entry leaves behind, with its id
          have hkept : ∀ msgid, ¬entry.timeout ≤ talTimeGetPosix c.clock →
              ∀ h' ∈ c.visited ++ [{ entry with msgid := msgid }], ¬h'.Overdue began := by
            intro msgid hlate h' hh'
            rcases List.mem_append.mp hh' with hin | hin
            · exact hvisited h' hin
            · rw [List.mem_singleton.mp hin]
              exact show ¬entry.Overdue began from not_overdue_of_kept hok hlate hsafe
          dsimp only at hstep
          split_ifs at hstep with hdue hzero
          · apply stepOk_of_notified hstep (hlist.waits_of_mem (by simp)) (.inr rfl)
            · exact fun hrt ↦ absurd hrt (by decide)
            · exact fun _ ↦ hok.waited hdue
            · exact publishInv_of_pass rfl hclient hlist.answer hbegan hvisited
          · have hsame : { entry with msgid := 0 } = entry := by rw [← hzero]
            rw [MqttPublishSystem.clientPublish] at hstep
            split_ifs at hstep with hsends
            · dsimp only at hstep
              apply stepOk_of_silent hstep silent_nil
              refine publishInv_of_pass hpass hclient ?_ hbegan (hkept 0 hdue)
              rw [MqttPublishSystem.publishList, hsame, List.append_assoc]
              exact hlist
            · dsimp only at hstep
              apply stepOk_of_silent hstep
              · intro event hevent
                rw [List.mem_singleton.mp hevent]
                simp
              · refine publishInv_of_pass hpass hclient ?_ hbegan (hkept c.nextPacketId hdue)
                rw [MqttPublishSystem.publishList, List.append_assoc]
                have hsub : s.2.sent ⊆ s.2.sent ++
                    [(entry.number, entry.payload, c.nextPacketId)] :=
                  List.subset_append_left _ _
                have hsent := hlist.imp fun entry' hok' ↦ hok'.mono (Nat.le_refl _) hsub
                exact hsent.replace (hok.send c.nextPacketId) rfl
          · apply stepOk_of_silent hstep silent_nil
            refine publishInv_of_pass rfl hclient ?_ hbegan (hkept entry.msgid hdue)
            rw [MqttPublishSystem.publishList, List.append_assoc]
            exact hlist

theorem PublishInv.puback (h : PublishInv s) (msgid : ℕ) : StepOk s (.puback msgid) := by
  have hstep : publishStep s.1 (.puback msgid) = s.1.puback msgid := rfl
  rw [MqttPublishSystem.puback] at hstep
  split_ifs at hstep with hrefused
  · exact stepOk_self h hstep
  · push Not at hrefused
    obtain ⟨hidle, hid⟩ := hrefused
    cases hfind : s.1.rest.find? fun entry ↦ msgid = entry.msgid with
    | none =>
        rw [hfind] at hstep
        exact stepOk_self h hstep
    | some entry =>
        rw [hfind] at hstep
        obtain ⟨hmsgid, pre, post, hrest, hpre⟩ := List.find?_eq_some_iff_append.mp hfind
        have hentry : msgid = entry.msgid := of_decide_eq_true hmsgid
        have herase : (s.1.rest.eraseP fun entry ↦ msgid = entry.msgid) = pre ++ post := by
          rw [hrest, List.eraseP_append_right _ (by simpa using hpre)]
          congr 1
          exact List.eraseP_cons_of_pos hmsgid
        have hlist := h.list
        rw [MqttPublishSystem.publishList, h.idle hidle, List.nil_append, hrest] at hlist
        have hok := hlist.entries entry (by simp)
        apply stepOk_of_notified hstep (hlist.waits_of_mem (by simp)) (.inl rfl)
        · exact fun _ ↦ ⟨msgid, rfl, hentry ▸ hok.sent (hentry ▸ hid)⟩
        · exact fun hrt ↦ absurd hrt (by decide)
        · refine ⟨?_, ?_, h.idle, h.visited⟩
          · rw [MqttPublishSystem.publishList]
            dsimp only
            rw [h.idle hidle, List.nil_append, herase]
            exact hlist.answer
          · rcases h.client with hclient | hquiet
            · exact .inl hclient
            · have hempty := hquiet.1
              rw [MqttPublishSystem.publishList, hrest] at hempty
              exact absurd hempty (by simp)

theorem PublishInv.init (h : PublishInv s) {init : MqttInit} (hquiet : s.1.Quiet) :
    PublishInv (s.1.init init, s.2) := by
  have hlist := h.list
  rw [hquiet.1] at hlist
  refine ⟨hlist, .inr ⟨rfl, hquiet.2⟩, fun _ ↦ rfl, ?_⟩
  exact fun began hpass ↦
    ⟨(h.visited began hpass).1, fun entry hentry ↦ absurd hentry List.not_mem_nil⟩

theorem PublishInv.change (h : PublishInv s) {mq : MqttContext}
    (hstep : publishStep s.1 x =
      if s.1.pass = none then ({ s.1 with mqctx := mq }, []) else (s.1, []))
    (hclient : s.1.pass = none → mq.mqttClient = s.1.mqctx.mqttClient ∨ s.1.Quiet) :
    StepOk s x := by
  split_ifs at hstep with hidle
  · exact stepOk_of_silent hstep silent_nil (h.context s.1.nextPacketId (hclient hidle))
  · exact stepOk_self h hstep

theorem PublishInv.step (h : PublishInv s) (hsafe : PublishSafe s x) : StepOk s x := by
  cases x with
  | tick ms => exact stepOk_of_silent (x := .tick ms) rfl silent_nil (h.tick ms)
  | publish t topic payload timeoutMs async env => exact h.publish hsafe
  | append t => exact h.append t
  | loop connect => exact h.loop connect
  | loopEntry ms sends => exact h.loopEntry hsafe
  | puback msgid => exact h.puback msgid
  | yieldFails => exact h.change rfl fun _ ↦ .inl (loop_mqttClient _ _ _)
  | packetId =>
      exact stepOk_of_silent (x := .packetId) rfl silent_nil (h.context _ (.inl rfl))
  | start connect => exact h.change rfl fun _ ↦ .inl (start_mqttClient _ _)
  | stop => exact h.change rfl fun _ ↦ .inl (stop_mqttClient _)
  | destory => exact h.change rfl fun hidle ↦ .inr (hsafe hidle)
  | init init =>
      have hstep : publishStep s.1 (.init init) =
          if s.1.pass = none then (s.1.init init, []) else (s.1, []) := rfl
      split_ifs at hstep with hidle
      · exact stepOk_of_silent hstep silent_nil (h.init (hsafe hidle))
      · exact stepOk_self h hstep

end Sound

/-! ## Runs -/

def publishStart (clock : ℕ) : LoggedPublish := (publishInit clock, ⟨[], [], []⟩)

theorem publishStart_inv (clock : ℕ) : PublishInv (publishStart clock) where
  list := Pending.nil _ _
  client := .inl rfl
  idle _ := rfl
  visited began hpass := by cases hpass

theorem publishMachine_inv {clock : ℕ} {xs : List PublishStep}
    (h : publishMachine.Guarded PublishSafe (publishStart clock) xs) :
    PublishInv (publishMachine.final (publishStart clock) xs) :=
  publishMachine.inv_final (fun _ _ hinv hsafe ↦ (hinv.step hsafe).1) (publishStart_inv clock) h

/-- Every publish that is accepted is answered once, and in time. -/
theorem publish_answered (clock : ℕ) (xs : List PublishStep)
    (h : publishMachine.Guarded PublishSafe (publishStart clock) xs) (k : ℕ) (x : PublishStep)
    (hk : xs[k]? = some x) :
    PublishSound (publishMachine.final (publishStart clock) (xs.take k)) x := by
  obtain ⟨hbefore, hsafe⟩ := h.step_at hk
  exact ((publishMachine_inv hbefore).step hsafe).2

/-- Two threads publish with a timeout of three milliseconds, the first has its PUBACK, and a pass
comes four seconds later. -/
def someAnswers : List PublishStep :=
  [.start .success, .publish 0 [1] [2] 3 false ⟨true, true, true⟩,
    .publish 1 [1] [3] 3 false ⟨true, true, true⟩, .append 1, .append 0, .puback 1, .loop .success,
    .loopEntry 4000 true]

theorem publish_answered_someAnswers :
    PublishSound (publishMachine.final (publishStart 0) (someAnswers.take 7))
      (.loopEntry 4000 true) := by
  refine publish_answered 0 someAnswers ⟨trivial, ⟨rfl, by decide, by decide⟩,
    ⟨rfl, by decide, by decide⟩, trivial, trivial, trivial, trivial, ?_, trivial⟩ 7 _ rfl
  intro began h hpass hhead hover
  cases hpass
  cases hhead
  exact absurd hover (by decide)

def SoundInRun (clock : ℕ) (xs : List PublishStep) (x : PublishStep) : Prop :=
  PublishSound (publishMachine.final (publishStart clock) xs) x

def somePublish (timeoutMs : ℤ) :
    PublishStep := .publish 0 [1] [2] timeoutMs true ⟨true, true, true⟩

/-- A pass ten seconds behind a publish of five seconds leaves it; `tuya_mqtt_destory` and a
`tuya_mqtt_init` forget it; and a deadline behind the end of `TIME_T` is over at once. -/
theorem publish_not_answered :
    ¬SoundInRun 0 [.start .success, somePublish 5000, .tick 10000, .loop .success,
      .loopEntry 0 true] (.loopEntry 0 true) ∧
    ¬SoundInRun 0 [.start .success, somePublish 5000] .destory ∧
    ¬SoundInRun 0 [.start .success, somePublish 5000] (.init .inited) ∧
    ¬SoundInRun ((timeTSize - 1) * 1000) [.start .success, somePublish 5000, .loop .success]
      (.loopEntry 0 true) := by
  refine ⟨?_, ?_, ?_, ?_⟩
  · exact fun h ↦ absurd (h.due 10000 (by decide)) (by decide)
  · exact fun h ↦ absurd (h.waits 0 (by decide) (by decide)).1 (by decide)
  · exact fun h ↦ absurd (h.waits 0 (by decide) (by decide)).2 (by decide)
  · intro h
    have htimeout := h.timeout ((publishInit ((timeTSize - 1) * 1000)).newHandle [1] [2] 5000)
      (by decide)
    exact absurd htimeout (by decide)

end TuyaOpen.Cloud
