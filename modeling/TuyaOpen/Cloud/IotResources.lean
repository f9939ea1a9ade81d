import TuyaOpen.Cloud.Iot
import TuyaOpen.Lib.Mealy

/-!
# The resources of the IoT client

The binding, the MQTT client and the schema are created and freed in different cases, and a token
may come at any time behind its subscription.
-/

namespace TuyaOpen.Cloud

def iotMachine : Mealy IotClient IotStep (List IotEvent) := ⟨iotStep⟩

/-- The schema of the client was deleted. -/
def IotClient.Dangling (s : IotClient) : Prop := ∃ addr ∈ s.deleted, s.schema = some addr

/-- The schema of the client is registered for its device. -/
def IotClient.Registered (s : IotClient) : Prop :=
  ∃ addr, s.schema = some addr ∧ s.schemaList = some ⟨addr, s.devid⟩

/-- No step uses NULL, and an activated client has its schema.  Behind a reset the schema is not a
deleted one only if there was none. -/
structure IotSound (s : IotClient) (x : IotStep) : Prop where
  binding : ∀ info, .binding info ∈ (iotStep s x).2 → info.isSome
  mqttClient : ∀ nonNull, .mqttClient nonNull ∈ (iotStep s x).2 → nonNull = true
  registered : (iotStep s x).1.isActivated = true → (iotStep s x).1.Registered
  reset : .resetDone ∈ (iotStep s x).2 → (¬(iotStep s x).1.Dangling ↔ s.schema = none)

/-- The binding is not freed, nor its new memory refused, while the token event is subscribed, and
the wait for a token that failed is not done again.  The MQTT client is not stopped behind its
end. -/
def IotSafe (s : IotClient) : IotStep → Prop
  | .yield env => s.point = .returned →
      (s.nextstate = .dataLoad → s.isActivated = false → env.alloc = false →
        s.linkActivate = false) ∧
      (s.nextstate = .mqttReconnect → s.destroyed = false)
  | .advance env =>
      (s.state = .tokenPending → s.point = .woken → s.tokenResult ≠ oprtOk →
        s.linkActivate = false ∧ s.nextstate ≠ .tokenPending) ∧
      (s.state = .activating → s.point = .responded → env.parse = oprtOk →
        s.linkActivate = false) ∧
      (s.state = .stop → s.point = .entered → s.destroyed = false)
  | _ => True

instance (s : IotClient) : (x : IotStep) → Decidable (IotSafe s x)
  | .yield _ => inferInstanceAs (Decidable (_ → (_ → _ → _ → _) ∧ (_ → _)))
  | .advance _ => inferInstanceAs (Decidable ((_ → _ → _ → _ ∧ _) ∧ (_ → _ → _ → _) ∧ (_ → _ → _)))
  | .resetCmd | .tokenActivate _ | .start _ | .reconnect _ | .linkTypeChange _ | .stop | .reset _
  | .goOn _ => isTrue trivial

/-! ## The invariant -/

/-- Between the creation of the schema and the activation. -/
def IotClient.Activates (s : IotClient) : Prop := s.state = .activating ∧ s.point = .endpointSet

/-- What a case needs at its beginning. -/
def IotClient.Needs (s : IotClient) : RunState → Prop
  | .tokenPending | .activating => s.isActivated = false ∧ s.binding.isSome
  | .networkCheck | .endpointUpdate => s.isActivated = false → s.binding.isSome
  | .endpointGet | .startupUpdate => s.isActivated = true
  | .mqttConnectStart | .mqttConnecting | .mqttYield | .networkReconnect => s.destroyed = false
  | _ => True

/-- What a case has where it waits. -/
def IotClient.Has (s : IotClient) : RunState → YieldPoint → Prop
  | _, .returned => True
  | .activating, .endpointSet => s.isActivated = false ∧ s.Registered
  | .dataLoad, _ | .tokenPending, _ | .activating, _ => s.isActivated = false ∧ s.binding.isSome
  | .endpointUpdate, .endpointSet => s.isActivated = true
  | .networkCheck, _ | .endpointUpdate, _ => s.isActivated = false → s.binding.isSome
  | .endpointGet, _ | .startupUpdate, _ => s.isActivated = true
  | .mqttConnectStart, _ | .mqttReconnect, _ | .networkReconnect, _ => s.destroyed = false
  | .mqttYield, _ => s.destroyed = false ∧ s.mqctx.isInited = true
  | _, _ => True

/-- The states that are asked for. -/
def RunState.Requested (r : RunState) : Prop :=
  r = .start ∨ r = .mqttReconnect ∨ r = .stop ∨ r = .reset

structure MqttInv (s : IotClient) : Prop where
  destroyed : s.destroyed = (s.mqctx.isInited && !s.mqctx.mqttClient)
  connected : s.mqctx.isConnected = true → s.mqctx.isInited = true ∧ s.mqctx.mqttClient = true
  alive : s.mqctx.isInited = true → s.mqctx.mqttClient = true → s.isActivated = true

structure IotInv (s : IotClient) : Prop extends MqttInv s where
  subscribed : s.linkActivate = true → s.binding.isSome
  registered : s.isActivated = true → s.Registered
  unregistered : s.isActivated = false → ¬s.Activates →
    s.schemaList = none ∧ ∀ addr, s.schema = some addr → addr ∈ s.deleted
  running : s.point ≠ .returned → s.nextstate = s.state ∨ s.nextstate.Requested
  next : ¬s.Activates → s.Needs s.nextstate
  here : s.Has s.state s.point

/-! ## The sections -/

section Frame

variable {s : IotClient}

theorem has_returned (s : IotClient) (r : RunState) : s.Has r .returned := by cases r <;> trivial

theorem needs_of_requested {r : RunState} (h : r.Requested) : s.Needs r := by
  obtain rfl | rfl | rfl | rfl := h <;> trivial

section Congr

variable {c : IotClient} (hactivated : c.isActivated = s.isActivated)
  (hbinding : c.binding.isSome = s.binding.isSome) (hdestroyed : c.destroyed = s.destroyed)

include hactivated hbinding hdestroyed

theorem needs_congr {r : RunState} : c.Needs r = s.Needs r := by
  cases r <;> simp only [IotClient.Needs, hactivated, hbinding, hdestroyed]

theorem has_congr (hregistered : c.Registered = s.Registered)
    (hinited : c.mqctx.isInited = s.mqctx.isInited) {r : RunState} {p : YieldPoint} :
    c.Has r p = s.Has r p := by
  cases r <;> cases p <;>
    simp only [IotClient.Has, hactivated, hbinding, hdestroyed, hregistered, hinited]

end Congr

theorem not_activates {p : YieldPoint} (hpoint : s.point = p) (hp : p ≠ .endpointSet) :
    ¬s.Activates := fun h ↦ hp (hpoint.symm.trans h.2)

theorem not_activates_of_state {r : RunState} (hstate : s.state = r) (hr : r ≠ .activating) :
    ¬s.Activates := fun h ↦ hr (hstate.symm.trans h.1)

theorem MqttInv.mqttClient (h : MqttInv s) (hdestroyed : s.destroyed = false)
    (hinited : s.mqctx.isInited = true) : s.mqctx.mqttClient = true := by
  have hflag := h.destroyed
  rw [hdestroyed, hinited] at hflag
  simpa using hflag

theorem IotInv.pass (h : IotInv s) (hactivates : ¬s.Activates) (r : RunState) (p : YieldPoint)
    (linkTypeChg : Bool) {next : RunState} (hneeds : s.Needs next) :
    IotInv ({ s with state := r, point := p, linkTypeChg := linkTypeChg }.ret next) where
  destroyed := h.destroyed
  connected := h.connected
  alive := h.alive
  subscribed := h.subscribed
  registered := h.registered
  unregistered hactivated _ := h.unregistered hactivated hactivates
  running hpoint := absurd rfl hpoint
  next _ := hneeds
  here := has_returned _ _

theorem IotInv.ret (h : IotInv s) (hactivates : ¬s.Activates) {next : RunState}
    (hneeds : s.Needs next) : IotInv (s.ret next) :=
  h.pass hactivates s.state s.point s.linkTypeChg hneeds

/-- A case that comes to another point; it may take the semaphore or subscribe the token event. -/
theorem IotInv.atPoint (h : IotInv s) (hactivates : ¬s.Activates) (hpoint : s.point ≠ .returned)
    {sem link : Bool} (hlink : link = true → s.binding.isSome) {p : YieldPoint}
    (hhas : s.Has s.state p) :
    IotInv { s with sem := sem, linkActivate := link, point := p } where
  destroyed := h.destroyed
  connected := h.connected
  alive := h.alive
  subscribed := hlink
  registered := h.registered
  unregistered hactivated _ := h.unregistered hactivated hactivates
  running _ := h.running hpoint
  next _ := h.next hactivates
  here := hhas

theorem IotInv.request (h : IotInv s) {next : RunState} (hnext : next.Requested)
    (requests : ℕ → IotRequest) : IotInv { s with nextstate := next, requests := requests } where
  destroyed := h.destroyed
  connected := h.connected
  alive := h.alive
  subscribed := h.subscribed
  registered := h.registered
  unregistered := h.unregistered
  running _ := .inr hnext
  next _ := needs_of_requested hnext
  here := h.here

theorem IotInv.setRequest (h : IotInv s) (requests : ℕ → IotRequest) (tokenResult : OperateRet)
    (sem : Bool) :
    IotInv { s with requests := requests, tokenResult := tokenResult, sem := sem } where
  destroyed := h.destroyed
  connected := h.connected
  alive := h.alive
  subscribed := h.subscribed
  registered := h.registered
  unregistered := h.unregistered
  running := h.running
  next := h.next
  here := h.here

theorem IotInv.tokenActivateEvt (h : IotInv s) (info : BindingInfo) :
    IotInv (s.tokenActivateEvt info).1 ∧
      ∀ info', .binding info' ∈ (s.tokenActivateEvt info).2 → info'.isSome := by
  rw [IotClient.tokenActivateEvt]
  split_ifs with hlink
  · exact ⟨h, by simp⟩
  · have hsome : s.binding.isSome := h.subscribed (by simpa using hlink)
    have hmap : (s.binding.map fun _ ↦ info).isSome = s.binding.isSome := Option.isSome_map
    refine ⟨⟨⟨h.destroyed, h.connected, h.alive⟩, by simp, h.registered, h.unregistered, h.running,
      fun hactivates ↦ ?_, ?_⟩, by simp [hsome]⟩
    · rw [needs_congr (s := s) (by rfl) hmap (by rfl)]
      exact h.next hactivates
    · rw [has_congr (s := s) (by rfl) hmap (by rfl) (by rfl) (by rfl)]
      exact h.here

end Frame

section Mqtt

variable {s : IotClient}

theorem MqttInv.stop (h : MqttInv s) (hdestroyed : s.destroyed = false) :
    MqttInv { s with mqctx := s.mqctx.stop.1 } ∧ s.mqctx.stop.1.isInited = s.mqctx.isInited ∧
      s.mqctx.stop.1.isConnected = false ∧
      ∀ event ∈ s.mqctx.stop.2, event = .mqttClient true := by
  rw [MqttContext.stop]
  by_cases hinited : s.mqctx.isInited = true
  · have hclient := h.mqttClient hdestroyed hinited
    rw [if_neg (by simp [hinited])]
    exact ⟨⟨h.destroyed, by simp, h.alive⟩, rfl, rfl, by simp [hclient]⟩
  · rw [if_pos (by simpa using hinited)]
    refine ⟨h, rfl, ?_, by simp⟩
    by_contra hconnected
    exact hinited (h.connected (by simpa using hconnected)).1

theorem MqttInv.destory (h : MqttInv s) (hconnected : s.mqctx.isConnected = false) :
    MqttInv s.mqttDestory ∧
      ¬(s.mqttDestory.mqctx.isInited = true ∧ s.mqttDestory.mqctx.mqttClient = true) := by
  by_cases hinited : s.mqctx.isInited = true
  · simp only [IotClient.mqttDestory, MqttContext.destory, hinited, if_pos]
    exact ⟨⟨by simp, by simp [hconnected], by simp⟩, by simp⟩
  · have hnot : s.mqctx.isInited = false := by simpa using hinited
    simp only [IotClient.mqttDestory, MqttContext.destory, hnot, Bool.or_false]
    exact ⟨⟨h.destroyed, h.connected, h.alive⟩, by simp [hnot]⟩

theorem MqttInv.start (h : MqttInv s) (hdestroyed : s.destroyed = false) (connect : MqttConnect) :
    MqttInv { s with mqctx := (s.mqctx.start connect).1 } := by
  by_cases hinited : s.mqctx.isInited = true
  · have hclient := h.mqttClient hdestroyed hinited
    have halive := h.alive hinited hclient
    have hflag := h.destroyed
    cases connect <;> simp only [MqttContext.start, hinited] <;>
      refine ⟨?_, ?_, ?_⟩ <;> simp_all
  · simp only [MqttContext.start, hinited]
    exact ⟨h.destroyed, h.connected, h.alive⟩

theorem MqttInv.loop (h : MqttInv s) (hdestroyed : s.destroyed = false)
    (hinited : s.mqctx.isInited = true) (connect : MqttConnect) (yields : Bool) :
    MqttInv { s with mqctx := s.mqctx.loop connect yields } := by
  have hclient := h.mqttClient hdestroyed hinited
  rw [MqttContext.loop]
  split_ifs
  · exact ⟨h.destroyed, fun _ ↦ ⟨hinited, hclient⟩, h.alive⟩
  · exact ⟨h.destroyed, h.connected, h.alive⟩
  · exact ⟨h.destroyed, by simp, h.alive⟩
  · exact ⟨h.destroyed, h.connected, h.alive⟩

theorem MqttInv.init (hactivated : s.isActivated = true) (init : MqttInit) :
    MqttInv { s with mqctx := .init init, destroyed := false } := by
  cases init <;> exact ⟨rfl, by simp [MqttContext.init], fun _ _ ↦ hactivated⟩

end Mqtt

/-- What a section of a case leaves, and that it uses no NULL. -/
structure SectionOk (r : IotClient × List IotEvent) : Prop where
  inv : IotInv r.1
  binding : ∀ info, .binding info ∈ r.2 → info.isSome
  mqttClient : ∀ nonNull, .mqttClient nonNull ∈ r.2 → nonNull = true

section Cases

variable {s : IotClient}

theorem IotInv.sectionOk (h : IotInv s) : SectionOk (s, []) := ⟨h, by simp, by simp⟩

theorem IotInv.retOk (h : IotInv s) (hactivates : ¬s.Activates) {next : RunState}
    (hneeds : s.Needs next) : SectionOk (s.ret next, []) := (h.ret hactivates hneeds).sectionOk

theorem IotInv.mqtt (h : IotInv s) (hactivates : ¬s.Activates) {mq : MqttContext} {destroyed : Bool}
    (hmqtt : MqttInv { s with mqctx := mq, destroyed := destroyed }) {next : RunState}
    (hneeds : { s with mqctx := mq, destroyed := destroyed }.Needs next) :
    IotInv ({ s with mqctx := mq, destroyed := destroyed }.ret next) where
  destroyed := hmqtt.destroyed
  connected := hmqtt.connected
  alive := hmqtt.alive
  subscribed := h.subscribed
  registered := h.registered
  unregistered hactivated _ := h.unregistered hactivated hactivates
  running hpoint := absurd rfl hpoint
  next _ := hneeds
  here := has_returned _ _

theorem IotInv.enter (h : IotInv s) (hpoint : s.point = .returned)
    (hhas : s.Has s.nextstate .entered) :
    IotInv { s with state := s.nextstate, point := .entered } where
  destroyed := h.destroyed
  connected := h.connected
  alive := h.alive
  subscribed := h.subscribed
  registered := h.registered
  unregistered hactivated _ := h.unregistered hactivated (not_activates hpoint (by simp))
  running _ := .inl rfl
  next _ := h.next (not_activates hpoint (by simp))
  here := hhas

theorem IotInv.yield (h : IotInv s) (hpoint : s.point = .returned) {env : YieldEnv}
    (hsafe : IotSafe s (.yield env)) : SectionOk (s.yield env) := by
  have hactivates : ¬s.Activates := not_activates hpoint (by simp)
  have hneeds := h.next hactivates
  have henter := h.enter hpoint
  obtain ⟨halloc, hreconnect⟩ := hsafe hpoint
  rw [IotClient.yield]
  dsimp only
  cases hnext : s.nextstate <;> rw [hnext] at hneeds henter halloc hreconnect
  case start =>
    dsimp only
    refine (h.pass hactivates .start .entered _ ?_).sectionOk
    by_cases hactivated : s.isActivated = true
    · rw [if_pos hactivated]
      exact fun hnot ↦ absurd (hactivated.symm.trans hnot) (by simp)
    · rw [if_neg hactivated]
      trivial
  case dataLoad =>
    dsimp only
    split_ifs with hactivated hfail
    · refine (h.pass hactivates .dataLoad .entered _ ?_).sectionOk
      exact fun hnot ↦ absurd (hactivated.symm.trans hnot) (by simp)
    · have hlink : s.linkActivate = false := halloc rfl (by simpa using hactivated) hfail
      refine IotInv.sectionOk ⟨⟨h.destroyed, h.connected, h.alive⟩, ?_, h.registered, ?_,
        ?_, ?_, ?_⟩
      · exact fun hsub ↦ absurd (hlink.symm.trans hsub) (by simp)
      · exact fun hnot _ ↦ h.unregistered hnot hactivates
      · exact fun hpoint ↦ absurd rfl hpoint
      · exact fun _ ↦ trivial
      · exact has_returned _ _
    · refine IotInv.sectionOk ⟨⟨h.destroyed, h.connected, h.alive⟩, ?_, h.registered, ?_,
        ?_, ?_, ?_⟩
      · exact fun _ ↦ rfl
      · exact fun hnot _ ↦ h.unregistered hnot hactivates
      · exact fun _ ↦ .inl rfl
      · exact fun _ ↦ trivial
      · exact ⟨by simpa using hactivated, rfl⟩
  case activating =>
    refine ⟨henter hneeds, ?_, by simp⟩
    intro info hinfo
    obtain rfl := IotEvent.binding.inj (List.mem_singleton.mp hinfo)
    exact hneeds.2
  case mqttConnecting =>
    refine (h.pass hactivates .mqttConnecting .entered _ ?_).sectionOk
    split_ifs
    · exact hneeds
    · exact hneeds
  case mqttReconnect =>
    have hdestroyed := hreconnect rfl
    obtain ⟨hmqtt, _, _, hevents⟩ := h.toMqttInv.stop hdestroyed
    refine ⟨⟨⟨hmqtt.destroyed, hmqtt.connected, hmqtt.alive⟩, h.subscribed, h.registered,
      ?_, ?_, ?_, hdestroyed⟩, ?_, ?_⟩
    · exact fun hnot _ ↦ h.unregistered hnot hactivates
    · exact fun _ ↦ .inl rfl
    · exact fun _ ↦ trivial
    · exact fun info hinfo ↦ absurd (hevents _ hinfo) (by simp)
    · exact fun nonNull hmem ↦ IotEvent.mqttClient.inj (hevents _ hmem)
  case mqttYield =>
    dsimp only
    split_ifs with htests
    · exact (h.pass hactivates .mqttYield .entered _ hneeds).sectionOk
    · rw [not_or] at htests
      have hinited : s.mqctx.isInited = true := by simpa using htests.1
      refine ⟨henter ⟨hneeds, hinited⟩, by simp, ?_⟩
      intro nonNull hmem
      rw [IotEvent.mqttClient.inj (List.mem_singleton.mp hmem)]
      exact h.mqttClient hneeds hinited
  case restart =>
    refine (h.pass hactivates .restart .entered _ ?_).sectionOk
    trivial
  case exit =>
    refine (h.pass hactivates .exit .entered _ ?_).sectionOk
    trivial
  case idle => exact (henter trivial).sectionOk
  case reset => exact (henter trivial).sectionOk
  case stop => exact (henter trivial).sectionOk
  case endpointGet => exact (henter hneeds).sectionOk
  case endpointUpdate => exact (henter hneeds).sectionOk
  case tokenPending => exact (henter hneeds).sectionOk
  case networkCheck => exact (henter hneeds).sectionOk
  case networkReconnect => exact (henter hneeds).sectionOk
  case startupUpdate => exact (henter hneeds).sectionOk
  case mqttConnectStart => exact (henter hneeds).sectionOk

theorem IotInv.activated (h : IotInv s) (hstate : s.state = .activating)
    (hpoint : s.point = .responded) (hnot : s.isActivated = false) (hlink : s.linkActivate = false)
    (env : YieldEnv) : SectionOk (
      let s := { s with binding := none, devid := env.devid.getD s.devid }
      if env.dataRead ≠ oprtOk then (s.ret .reset, [])
      else if env.schema = false then ((s.schemaCreate false).ret .reset, [])
      else ({ s.schemaCreate true with point := .endpointSet }, [])) := by
  have hactivates : ¬s.Activates := not_activates hpoint (by simp)
  have hlink' : s.linkActivate ≠ true := by simp [hlink]
  have hnot' : s.isActivated ≠ true := by simp [hnot]
  obtain ⟨hnone, hdeleted⟩ := h.unregistered hnot hactivates
  dsimp only
  split_ifs
  · exact IotInv.sectionOk ⟨⟨h.destroyed, h.connected, h.alive⟩, fun hsub ↦ absurd hsub hlink',
      fun hactivated ↦ absurd hactivated hnot', fun _ _ ↦ ⟨hnone, hdeleted⟩,
      fun hrunning ↦ absurd rfl hrunning, fun _ ↦ trivial, has_returned _ _⟩
  · exact IotInv.sectionOk ⟨⟨h.destroyed, h.connected, h.alive⟩, fun hsub ↦ absurd hsub hlink',
      fun hactivated ↦ absurd hactivated hnot', fun _ _ ↦ ⟨hnone, fun _ hsome ↦ nomatch hsome⟩,
      fun hrunning ↦ absurd rfl hrunning, fun _ ↦ trivial, has_returned _ _⟩
  · have hregistered : IotClient.Registered
        { IotClient.schemaCreate { s with binding := none, devid := env.devid.getD s.devid }
          true with
          point := .endpointSet } := by
      refine ⟨s.addrs, rfl, ?_⟩
      change s.schemaList.or _ = _
      rw [hnone]
      rfl
    refine IotInv.sectionOk ⟨⟨h.destroyed, h.connected, h.alive⟩, fun hsub ↦ absurd hsub hlink',
      fun hactivated ↦ absurd hactivated hnot', fun _ hnew ↦ absurd ⟨hstate, rfl⟩ hnew,
      fun _ ↦ h.running (by simp [hpoint]), fun hnew ↦ absurd ⟨hstate, rfl⟩ hnew, ?_⟩
    change IotClient.Has _ s.state .endpointSet
    rw [hstate]
    exact ⟨hnot, hregistered⟩

theorem IotInv.activatedDataRemove (h : IotInv s) (hactivates : ¬s.Activates) (mq : MqttContext)
    (destroyed : Bool) :
    let c := { s with mqctx := mq, destroyed := destroyed }
    c.activatedDataRemove = { c with
      isActivated := false
      schemaList := none
      deleted := c.activatedDataRemove.deleted } ∧
    ∀ addr, s.schema = some addr → addr ∈ c.activatedDataRemove.deleted := by
  intro c
  by_cases hactivated : s.isActivated = true
  · obtain ⟨addr, hschema, hlist⟩ := h.registered hactivated
    have hremove : c.activatedDataRemove = { c with
        isActivated := false
        schemaList := none
        deleted := addr :: s.deleted } := by
      rw [IotClient.activatedDataRemove, if_neg (by simp [c, hactivated]), IotClient.schemaDelete]
      dsimp only [c]
      rw [hlist]
      exact if_pos rfl
    rw [hremove]
    refine ⟨rfl, fun addr' haddr' ↦ ?_⟩
    rw [Option.some.inj (haddr'.symm.trans hschema)]
    exact List.mem_cons_self
  · have hnot : s.isActivated = false := by simpa using hactivated
    obtain ⟨hnone, hdeleted⟩ := h.unregistered hnot hactivates
    have hremove : c.activatedDataRemove = c := if_pos hnot
    rw [hremove]
    refine ⟨?_, hdeleted⟩
    dsimp only [c]
    rw [hnot, hnone]

theorem IotInv.runStateReset (h : IotInv s) (hactivates : ¬s.Activates) :
    SectionOk (s.runStateReset.1.ret .restart, s.runStateReset.2 ++ [.resetDone]) ∧
      (¬(s.runStateReset.1.ret .restart).Dangling ↔ s.schema = none) := by
  have hmq : ∃ mq events, s.runStateReset =
      ({ s with mqctx := mq }.mqttDestory.activatedDataRemove, events) ∧
      MqttInv { s with mqctx := mq } ∧ mq.isConnected = false ∧
      ∀ event ∈ events, event = .mqttClient true := by
    rw [IotClient.runStateReset]
    by_cases hstop : s.isActivated = true ∧ s.mqctx.isConnected = true
    · have hdestroyed : s.destroyed = false := by
        rw [h.destroyed, (h.connected hstop.2).2, Bool.not_true, Bool.and_false]
      obtain ⟨hmqtt, _, hconnected, hevents⟩ := h.toMqttInv.stop hdestroyed
      rw [if_pos hstop]
      exact ⟨_, _, rfl, hmqtt, hconnected, hevents⟩
    · rw [if_neg hstop]
      refine ⟨_, _, rfl, h.toMqttInv, ?_, by simp⟩
      by_contra hconnected
      have hconnected' : s.mqctx.isConnected = true := by simpa using hconnected
      obtain ⟨hinited, hclient⟩ := h.connected hconnected'
      exact hstop ⟨h.alive hinited hclient, hconnected'⟩
  obtain ⟨mq, events, hreset, hmqtt, hconnected, hevents⟩ := hmq
  obtain ⟨hmqtt, hgone⟩ := hmqtt.destory hconnected
  obtain ⟨hremove, hdeleted⟩ := h.activatedDataRemove hactivates mq.destory
    (s.destroyed || mq.isInited)
  rw [hreset]
  dsimp only [IotClient.mqttDestory] at hmqtt hgone hremove hdeleted ⊢
  rw [hremove]
  refine ⟨⟨⟨⟨hmqtt.destroyed, hmqtt.connected, ?_⟩, h.subscribed, ?_, ?_, ?_, fun _ ↦ trivial,
    has_returned _ _⟩, ?_, ?_⟩, ?_⟩
  · exact fun hinited hclient ↦ absurd ⟨hinited, hclient⟩ hgone
  · exact fun hactivated ↦ Bool.noConfusion hactivated
  · exact fun _ _ ↦ ⟨rfl, hdeleted⟩
  · exact fun hrunning ↦ absurd rfl hrunning
  · intro info hinfo
    rcases List.mem_append.mp hinfo with hin | hin
    · exact absurd (hevents _ hin) (by simp)
    · exact absurd (List.mem_singleton.mp hin) (by simp)
  · intro nonNull hmem
    rcases List.mem_append.mp hmem with hin | hin
    · exact IotEvent.mqttClient.inj (hevents _ hin)
    · exact absurd (List.mem_singleton.mp hin) (by simp)
  · refine ⟨fun hdangling ↦ ?_, ?_⟩
    · cases hschema : s.schema with
      | none => rfl
      | some addr => exact absurd ⟨addr, hdeleted addr hschema, hschema⟩ hdangling
    · rintro hnone ⟨addr, _, hsome⟩
      exact nomatch hnone.symm.trans hsome

theorem needs_ite {c : Prop} [Decidable c] {r r' : RunState} (hthen : c → s.Needs r)
    (helse : ¬c → s.Needs r') : s.Needs (if c then r else r') := by
  split_ifs with h
  · exact hthen h
  · exact helse h

theorem IotInv.waitToken (h : IotInv s) (hstate : s.state = .tokenPending)
    (hpoint : s.point = .entered) :
    SectionOk
      (if s.sem = true then ({ s with sem := false, point := .woken }, []) else (s, [])) := by
  have hhere := h.here
  rw [hstate, hpoint] at hhere
  split_ifs
  · refine (h.atPoint (not_activates hpoint (by simp)) (by simp [hpoint]) h.subscribed ?_).sectionOk
    rw [hstate]
    exact hhere
  · exact h.sectionOk

theorem IotInv.takeToken (h : IotInv s) (hstate : s.state = .tokenPending)
    (hpoint : s.point = .woken)
    (htoken : s.tokenResult ≠ oprtOk → s.linkActivate = false ∧ s.nextstate ≠ .tokenPending) :
    SectionOk (if s.tokenResult ≠ oprtOk then ({ s with binding := none }.ret s.nextstate, [])
      else ({ s with point := .tokenOn }, [.binding s.binding])) := by
  have hactivates : ¬s.Activates := not_activates hpoint (by simp)
  have hhere := h.here
  rw [hstate, hpoint] at hhere
  split_ifs with hresult
  · obtain ⟨hlink, hnext⟩ := htoken hresult
    have hrequested : s.nextstate.Requested := by
      rcases h.running (by simp [hpoint]) with hsame | hrequested
      · exact absurd (hsame.trans hstate) hnext
      · exact hrequested
    refine IotInv.sectionOk ⟨⟨h.destroyed, h.connected, h.alive⟩, ?_, h.registered, ?_, ?_, ?_,
      has_returned _ _⟩
    · exact fun hsub ↦ absurd (hlink.symm.trans hsub) (by simp)
    · exact fun hnot _ ↦ h.unregistered hnot hactivates
    · exact fun hrunning ↦ absurd rfl hrunning
    · exact fun _ ↦ needs_of_requested hrequested
  · refine ⟨h.atPoint hactivates (by simp [hpoint]) h.subscribed ?_, ?_, by simp⟩
    · rw [hstate]
      exact hhere
    · intro info hinfo
      obtain rfl := IotEvent.binding.inj (List.mem_singleton.mp hinfo)
      exact hhere.2

theorem IotInv.endpointUpdate (h : IotInv s) (hstate : s.state = .endpointUpdate)
    (hpoint : s.point = .entered) (rt : OperateRet) :
    SectionOk (if rt ≠ oprtOk then (s.ret s.nextstate, [])
      else if s.isActivated = true then ({ s with point := .endpointSet }, [])
      else (s.ret .activating, [])) := by
  have hactivates : ¬s.Activates := not_activates hpoint (by simp)
  have hhere := h.here
  rw [hstate, hpoint] at hhere
  split_ifs with hendpoint hactivated
  · exact h.retOk hactivates (h.next hactivates)
  · refine (h.atPoint hactivates (by simp [hpoint]) h.subscribed ?_).sectionOk
    rw [hstate]
    exact hactivated
  · have hnot : s.isActivated = false := by simpa using hactivated
    exact h.retOk hactivates ⟨hnot, hhere hnot⟩

theorem IotInv.activate (h : IotInv s) (hstate : s.state = .activating)
    (hpoint : s.point = .entered) (rt : OperateRet) :
    SectionOk (if rt ≠ oprtOk then (s.ret .restart, [])
      else ({ s with point := .responded }, [])) := by
  have hactivates : ¬s.Activates := not_activates hpoint (by simp)
  have hhere := h.here
  rw [hstate, hpoint] at hhere
  split_ifs
  · refine h.retOk hactivates ?_
    trivial
  · refine (h.atPoint hactivates (by simp [hpoint]) h.subscribed ?_).sectionOk
    rw [hstate]
    exact hhere

theorem IotInv.setActivated (h : IotInv s) (hregistered : s.Registered) :
    SectionOk ({ s with isActivated := true }.ret .startupUpdate, []) := by
  refine IotInv.sectionOk ⟨⟨h.destroyed, h.connected, fun _ _ ↦ rfl⟩, h.subscribed,
    fun _ ↦ hregistered, ?_, ?_, fun _ ↦ rfl, has_returned _ _⟩
  · exact fun hnot ↦ Bool.noConfusion hnot
  · exact fun hrunning ↦ absurd rfl hrunning

theorem IotInv.stop (h : IotInv s) (hactivates : ¬s.Activates) (hdestroyed : s.destroyed = false) :
    SectionOk ({ s with mqctx := s.mqctx.stop.1 }.mqttDestory.ret .idle, s.mqctx.stop.2) := by
  obtain ⟨hmqtt, _, hconnected, hevents⟩ := h.toMqttInv.stop hdestroyed
  obtain ⟨hmqtt, _⟩ := hmqtt.destory hconnected
  refine ⟨h.mqtt hactivates hmqtt trivial, ?_, ?_⟩
  · exact fun info hinfo ↦ absurd (hevents _ hinfo) (by simp)
  · exact fun nonNull hmem ↦ IotEvent.mqttClient.inj (hevents _ hmem)

theorem IotInv.advance (h : IotInv s) {env : YieldEnv} (hsafe : IotSafe s (.advance env)) :
    SectionOk (s.advance env) := by
  obtain ⟨htoken, hactivating, hstop⟩ := hsafe
  have hhere := h.here
  rw [IotClient.advance]
  split <;> try (rename_i hstate hpoint; rw [hstate, hpoint] at hhere)
  -- `STATE_DATA_LOAD`
  · refine (h.atPoint (not_activates hpoint (by simp)) (by simp [hpoint]) (fun _ ↦ hhere.2)
      ?_).sectionOk
    rw [hstate]
    exact hhere
  · exact h.retOk (not_activates hpoint (by simp)) hhere
  -- `STATE_TOKEN_PENDING`
  · exact h.waitToken hstate hpoint
  · exact h.takeToken hstate hpoint (htoken hstate hpoint)
  · exact h.retOk (not_activates hpoint (by simp)) fun _ ↦ hhere.2
  -- `STATE_NETWORK_CHECK`
  · have hactivates : ¬s.Activates := not_activates hpoint (by simp)
    exact h.retOk hactivates (needs_ite (fun _ ↦ needs_ite id fun _ ↦ hhere)
      fun _ ↦ h.next hactivates)
  -- `STATE_ENDPOINT_GET`
  · have hactivated : s.isActivated = true := hhere
    exact h.retOk (not_activates hpoint (by simp)) (needs_ite
      (fun _ hnot ↦ absurd (hactivated.symm.trans hnot) (by simp)) fun _ ↦ hactivated)
  -- `STATE_ENDPOINT_UPDATE`
  · exact h.endpointUpdate hstate hpoint env.endpoint
  · exact h.retOk (not_activates_of_state hstate (by simp)) hhere
  -- `STATE_ACTIVATING`
  · exact h.activate hstate hpoint env.activate
  · have hactivates : ¬s.Activates := not_activates hpoint (by simp)
    by_cases hparse : env.parse ≠ oprtOk
    · rw [if_pos hparse]
      exact h.retOk hactivates (h.next hactivates)
    · rw [if_neg hparse]
      exact h.activated hstate hpoint hhere.1
        (hactivating hstate hpoint (by simpa using hparse)) env
  · exact h.setActivated hhere.2
  -- `STATE_STARTUP_UPDATE`
  · refine (h.mqtt (not_activates hpoint (by simp)) (MqttInv.init hhere env.mqttInit) ?_).sectionOk
    rfl
  -- `STATE_MQTT_CONNECT_START`
  · have hactivates : ¬s.Activates := not_activates hpoint (by simp)
    refine (h.mqtt hactivates (h.toMqttInv.start hhere env.connect) ?_).sectionOk
    exact needs_ite (fun _ ↦ hhere) fun _ ↦ needs_ite (fun _ ↦ trivial) fun _ ↦ h.next hactivates
  -- `STATE_MQTT_RECONNECT`
  · exact h.retOk (not_activates hpoint (by simp)) (needs_ite (fun _ ↦ hhere) fun _ ↦ hhere)
  -- `STATE_NETWORK_RECONNECT`
  · have hactivates : ¬s.Activates := not_activates hpoint (by simp)
    exact h.retOk hactivates (needs_ite (fun _ ↦ hhere) fun _ ↦ h.next hactivates)
  -- `STATE_MQTT_YIELD`
  · have hactivates : ¬s.Activates := not_activates hpoint (by simp)
    refine (h.mqtt hactivates (h.toMqttInv.loop hhere.1 hhere.2 env.connect env.yields)
      ?_).sectionOk
    exact needs_ite (fun _ ↦ trivial) fun _ ↦ h.next hactivates
  -- `STATE_RESET`
  · exact (h.runStateReset (not_activates hpoint (by simp))).1
  -- `STATE_STOP`
  · exact h.stop (not_activates hpoint (by simp)) (hstop hstate hpoint)
  -- no case
  · exact h.sectionOk
  · have hactivates : ¬s.Activates := fun hnew ↦
      ‹s.state = .activating → s.point = .endpointSet → False› hnew.1 hnew.2
    exact h.retOk hactivates (h.next hactivates)

theorem IotInv.reconnect (h : IotInv s) (t : ℕ) : IotInv (s.reconnect t) := by
  rw [IotClient.reconnect]
  split_ifs
  · exact h.setRequest _ s.tokenResult s.sem
  · exact h

theorem IotInv.goOn (h : IotInv s) (t : ℕ) : IotInv (s.goOn t) := by
  rw [IotClient.goOn]
  cases s.requests t with
  | idle => exact h
  | starting => exact h.request (.inl rfl) _
  | reconnecting => exact h.request (.inr (.inl rfl)) _
  | resetting =>
      dsimp only
      split_ifs
      · exact h.setRequest _ oprtComError true
      · exact h.setRequest _ s.tokenResult s.sem

theorem IotInv.step (h : IotInv s) {x : IotStep} (hsafe : IotSafe s x) :
    SectionOk (iotStep s x) := by
  cases x with
  | yield env =>
      rw [iotStep]
      split_ifs with hpoint
      · exact h.yield hpoint hsafe
      · exact h.sectionOk
  | advance env => exact h.advance hsafe
  | resetCmd =>
      rw [iotStep]
      split_ifs
      · exact (h.request (.inr (.inr (.inr rfl))) s.requests).sectionOk
      · exact h.sectionOk
  | tokenActivate info =>
      obtain ⟨hinv, hbinding⟩ := h.tokenActivateEvt info
      refine ⟨hinv, hbinding, ?_⟩
      rw [iotStep, IotClient.tokenActivateEvt]
      split_ifs <;> simp
  | start t =>
      rw [iotStep]
      split_ifs
      · exact (h.setRequest _ s.tokenResult s.sem).sectionOk
      · exact h.sectionOk
  | reconnect t => exact (h.reconnect t).sectionOk
  | linkTypeChange t =>
      rw [iotStep]
      split_ifs
      · exact (h.reconnect t).sectionOk
      · exact h.sectionOk
  | stop => exact (h.request (.inr (.inr (.inl rfl))) s.requests).sectionOk
  | reset t =>
      rw [iotStep]
      split_ifs
      · exact (h.request (.inr (.inr (.inr rfl))) _).sectionOk
      · exact h.sectionOk
  | goOn t => exact (h.goOn t).sectionOk

theorem resetDone_notMem_stop (mq : MqttContext) : .resetDone ∉ mq.stop.2 := by
  rw [MqttContext.stop]
  split_ifs <;> simp

theorem resetDone_notMem_yield (s : IotClient) (env : YieldEnv) : .resetDone ∉ (s.yield env).2 := by
  rw [IotClient.yield]
  dsimp only
  cases s.nextstate
  case dataLoad => dsimp only; split_ifs <;> simp
  case mqttYield => dsimp only; split_ifs <;> simp
  case mqttReconnect => exact resetDone_notMem_stop _
  all_goals simp

theorem resetDone_iotStep {x : IotStep} (hmem : .resetDone ∈ (iotStep s x).2) :
    ∃ env, x = .advance env ∧ s.state = .reset ∧ s.point = .entered := by
  cases x with
  | yield env =>
      rw [iotStep] at hmem
      split_ifs at hmem
      · exact absurd hmem (resetDone_notMem_yield s env)
      · simp at hmem
  | advance env =>
      refine ⟨env, rfl, ?_⟩
      rw [iotStep, IotClient.advance] at hmem
      split at hmem
      case h_18 hstate hpoint => exact ⟨hstate, hpoint⟩
      case h_19 => exact absurd hmem (resetDone_notMem_stop _)
      all_goals try split_ifs at hmem
      all_goals simp at hmem
  | tokenActivate info =>
      rw [iotStep, IotClient.tokenActivateEvt] at hmem
      split_ifs at hmem <;> simp at hmem
  | resetCmd => rw [iotStep] at hmem; split_ifs at hmem <;> simp at hmem
  | start t => rw [iotStep] at hmem; split_ifs at hmem <;> simp at hmem
  | linkTypeChange t => rw [iotStep] at hmem; split_ifs at hmem <;> simp at hmem
  | reset t => rw [iotStep] at hmem; split_ifs at hmem <;> simp at hmem
  | reconnect t => simp [iotStep] at hmem
  | stop => simp [iotStep] at hmem
  | goOn t => simp [iotStep] at hmem

theorem IotInv.sound (h : IotInv s) {x : IotStep} (hsafe : IotSafe s x) : IotSound s x := by
  have hstep := h.step hsafe
  refine ⟨hstep.binding, hstep.mqttClient, hstep.inv.registered, ?_⟩
  intro hdone
  obtain ⟨env, rfl, hstate, hpoint⟩ := resetDone_iotStep hdone
  have hadvance : iotStep s (.advance env) =
      (s.runStateReset.1.ret .restart, s.runStateReset.2 ++ [.resetDone]) := by
    rw [iotStep, IotClient.advance, hstate, hpoint]
  rw [hadvance]
  exact (h.runStateReset (not_activates hpoint (by simp))).2

theorem IotInv.init (isActivated : Bool) (devid : List UInt8) :
    IotInv (iotInit isActivated devid) := by
  refine ⟨⟨rfl, by simp [iotInit], by simp [iotInit]⟩, by simp [iotInit], ?_, ?_, ?_, ?_, ?_⟩
  · intro hactivated
    refine ⟨0, ?_, ?_⟩
    · exact if_pos hactivated
    · exact if_pos hactivated
  · intro hnot _
    have hnot' : isActivated = false := hnot
    simp [iotInit, hnot']
  · exact fun hrunning ↦ absurd rfl hrunning
  · exact fun _ ↦ trivial
  · exact has_returned _ _

end Cases

/-! ## Runs -/

/-- In a run of safe steps every step is sound. -/
theorem iot_sound (isActivated : Bool) (devid : List UInt8) (xs : List IotStep)
    (hxs : iotMachine.Guarded IotSafe (iotInit isActivated devid) xs) (k : ℕ) (x : IotStep)
    (hx : xs[k]? = some x) :
    IotSound (iotMachine.final (iotInit isActivated devid) (xs.take k)) x := by
  obtain ⟨hbefore, hsafe⟩ := hxs.step_at hx
  have hinv : IotInv (iotMachine.final (iotInit isActivated devid) (xs.take k)) :=
    Mealy.inv_final _ (fun _ _ h hsafe ↦ (h.step hsafe).inv) (IotInv.init isActivated devid) hbefore
  exact hinv.sound hsafe

def someToken : IotStep := .tokenActivate ⟨[1], [2], [3]⟩

/-- From the start to the wait for a token. -/
def someWait : List IotStep :=
  someStart ++ [.yield someYield, .advance someYield, .advance someYield, .yield someYield]

/-- The wait ends with the token that came, and the device activates. -/
def someActivation : List IotStep :=
  [.advance someYield, .advance someYield, .advance someYield] ++ someCase ++ someCase ++
    [.yield someYield, .advance someYield, .advance someYield, .advance someYield]

/-- A reset of a thread, and its case. -/
def someReset : List IotStep := [.reset 1, .goOn 1] ++ someCase

theorem iot_sound_someReset :
    IotSound (iotMachine.final (iotInit false [])
        ((someWait ++ [someToken] ++ someActivation ++ someReset).take 22)) (.advance someYield) :=
  iot_sound false [] (someWait ++ [someToken] ++ someActivation ++ someReset) (by decide) 22 _ rfl

/-- A step behind some others. -/
def SoundBehind (isActivated : Bool) (xs : List IotStep) (x : IotStep) : Prop :=
  IotSound (iotMachine.final (iotInit isActivated []) xs) x

/-- A stop, its case, and a start behind it. -/
def someStop : List IotStep := [.stop] ++ someCase

def someStartAgain : List IotStep :=
  [.yield someYield, .start 0, .goOn 0, .advance someYield, .yield someYield]

/-- A token comes behind a reset of the wait for it, or behind new memory that was refused; the
semaphore of an earlier token ends a wait, and the activation frees the binding; a second stop, and
a reconnect that has tested the state before a stop; and the reset of an activated client. -/
theorem iot_not_sound :
    ¬SoundBehind false (someWait ++ [.reset 1, .goOn 1, .advance someYield, .advance someYield])
      someToken ∧
    ¬SoundBehind false (someWait.take 6 ++ someStop ++ someStartAgain ++
      [.yield { someYield with alloc := false }]) someToken ∧
    ¬SoundBehind false (someWait.take 5 ++ [someToken] ++ [.advance someYield] ++ someStop ++
      someStartAgain ++ someWait.drop 3 ++ someActivation) someToken ∧
    ¬SoundBehind true (someStart ++ someCase ++ someCase ++ someCase ++ someStop ++ [.stop] ++
      [.yield someYield]) (.advance someYield) ∧
    ¬SoundBehind true (someStart ++ someCase ++ someCase ++ someCase ++ someCase ++
      [.yield someYield] ++
      someCase ++ [.reconnect 1] ++ someStop ++ [.goOn 1]) (.yield someYield) ∧
    (.resetDone ∈ (iotStep (iotMachine.final (iotInit true []) (someReset.take 3))
        (.advance someYield)).2 ∧
      (iotStep (iotMachine.final (iotInit true []) (someReset.take 3))
        (.advance someYield)).1.Dangling) := by
  refine ⟨?_, ?_, ?_, ?_, ?_, ?_, ?_⟩
  · exact fun h ↦ absurd (h.binding none (by decide)) (by decide)
  · exact fun h ↦ absurd (h.binding none (by decide)) (by decide)
  · exact fun h ↦ absurd (h.binding none (by decide)) (by decide)
  · exact fun h ↦ absurd (h.mqttClient false (by decide)) (by decide)
  · exact fun h ↦ absurd (h.mqttClient false (by decide)) (by decide)
  · decide
  · exact ⟨0, by decide, by decide⟩

end TuyaOpen.Cloud
