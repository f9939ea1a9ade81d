import Mathlib.Data.List.Nodup
import TuyaOpen.Common.ErrorCode
import TuyaOpen.Lib.CStr
import TuyaOpen.Lib.Mealy

/-!
# Routing messages by their topic

`mqtt_service.c`: the callbacks are kept in a list.  Registering compares a topic with what is kept
as far as the kept topic goes; removing and delivering compare the whole of both.
-/

namespace TuyaOpen.Cloud

open CStr (Text memcmpEq)

variable {α υ : Type*}

/-- `mqtt_subscribe_handle_t`. -/
structure MqttSubscribeHandle (α υ : Type*) where
  topic : Text
  cb : α
  userdata : υ

/-- The bytes behind a pointer to a topic. -/
def topicBytes (topic : Text) : List UInt8 := topic.1 ++ [0]

/-- The repetition filter. -/
def repetition [DecidableEq α] (topic : Text) (cb : Option α) :
    List (MqttSubscribeHandle α υ) → Option Bool
  | [] => some false
  | target :: next =>
      (memcmpEq (topicBytes target.topic) (topicBytes topic) target.topic.1.length).bind fun same ↦
        if same ∧ some target.cb = cb then some true else repetition topic cb next

/-- `tuya_mqtt_subscribe_message_callback_register`, with the id that the client gives the
subscription. -/
def mqttRegister [DecidableEq α] (onDefault : α) (topic : Text) (cb : Option α) (userdata : υ)
    (msgid : ℕ) (handleMem topicMem : Bool) (list : List (MqttSubscribeHandle α υ)) :
    Option (OperateRet × List (MqttSubscribeHandle α υ)) :=
  if msgid = 0 then some (oprtComError, list)
  else
    (repetition topic cb list).map fun repeated ↦
      if repeated then (oprtOk, list)
      else if handleMem = false ∨ topicMem = false then (oprtMallocFailed, list)
      else (oprtOk, ⟨topic, cb.getD onDefault, userdata⟩ :: list)

/-- The comparison of removing and delivering. -/
def sameTopic (topic : Text) (entry : MqttSubscribeHandle α υ) : Option Bool :=
  if entry.topic.1.length = topic.1.length then
    memcmpEq (topicBytes topic) (topicBytes entry.topic) topic.1.length
  else
    some false

/-- The loop of `tuya_mqtt_subscribe_message_callback_unregister`. -/
def mqttUnregister (topic : Text) :
    List (MqttSubscribeHandle α υ) → Option (List (MqttSubscribeHandle α υ))
  | [] => some []
  | entry :: next =>
      (sameTopic topic entry).bind fun same ↦
        (mqttUnregister topic next).map fun kept ↦ if same then kept else entry :: kept

/-- `mqtt_subscribe_message_distribute`: the callbacks that are called. -/
def mqttDistribute (topic : Text) : List (MqttSubscribeHandle α υ) → Option (List (α × υ))
  | [] => some []
  | target :: next =>
      (sameTopic topic target).bind fun same ↦
        (mqttDistribute topic next).map fun calls ↦
          if same then (target.cb, target.userdata) :: calls else calls

/-! ## Runs -/

inductive TopicStep (α υ : Type*)
  | register (topic : Text) (cb : Option α) (userdata : υ) (msgid : ℕ) (handleMem topicMem : Bool)
  | unregister (topic : Text) (msgid : ℕ)
  | message (topic : Text)

structure TopicReply (α υ : Type*) where
  rt : OperateRet
  calls : List (α × υ)

/-- The list, and the callbacks whose last successful register is not followed by an unregister. -/
structure TopicLog (α υ : Type*) where
  list : List (MqttSubscribeHandle α υ)
  registered : List (Text × α)

/-- Nothing is returned where a comparison leaves a topic. -/
@[grind =] def topicStep [DecidableEq α] (onDefault : α) (s : TopicLog α υ) :
    TopicStep α υ → TopicLog α υ × Option (TopicReply α υ)
  | .register topic cb userdata msgid handleMem topicMem =>
      match mqttRegister onDefault topic cb userdata msgid handleMem topicMem s.list with
      | none => (s, none)
      | some (rt, list) =>
          (⟨list, if rt = oprtOk then s.registered.insert (topic, cb.getD onDefault)
            else s.registered⟩, some ⟨rt, []⟩)
  | .unregister topic msgid =>
      match mqttUnregister topic s.list with
      | none => (s, none)
      | some list =>
          (⟨list, s.registered.filter (·.1 ≠ topic)⟩,
            some ⟨if msgid = 0 then oprtComError else oprtOk, []⟩)
  | .message topic =>
      match mqttDistribute topic s.list with
      | none => (s, none)
      | some calls => (s, some ⟨oprtOk, calls⟩)

def topicMachine [DecidableEq α] (onDefault : α) :
    Mealy (TopicLog α υ) (TopicStep α υ) (Option (TopicReply α υ)) where
  step s x := topicStep onDefault s x

def TopicLog.empty : TopicLog α υ := ⟨[], []⟩

/-- A message is passed once to each callback that is registered for its topic, and to no other. -/
def Delivers [DecidableEq α] (onDefault : α) (s : TopicLog α υ) (topic : Text) : Prop :=
  ∃ reply, ((topicMachine onDefault).step s (.message topic)).2 = some reply ∧
    (reply.calls.map Prod.fst).Nodup ∧
    ∀ cb, cb ∈ reply.calls.map Prod.fst ↔ (topic, cb) ∈ s.registered

structure RoutesExactly [DecidableEq α] (onDefault : α) (s : TopicLog α υ) (x : TopicStep α υ) :
    Prop where
  inside : ((topicMachine onDefault).step s x).2.isSome
  delivers : ∀ topic, Delivers onDefault ((topicMachine onDefault).step s x).1 topic

/-! ## The condition -/

/-- The filter takes a kept handle for the new one. -/
def MqttSubscribeHandle.Repeats (h : MqttSubscribeHandle α υ) (topic : Text) (cb : Option α) :
    Prop :=
  h.topic.1 <+: topic.1 ∧ some h.cb = cb

/-- What is kept is not longer than the topic with its zero, up to the first handle that the filter
takes for the new one. -/
def FilterInside (list : List (MqttSubscribeHandle α υ)) (topic : Text) (cb : Option α) : Prop :=
  ∀ front h rest, list = front ++ h :: rest → (∀ f ∈ front, ¬f.Repeats topic cb) →
    h.topic.1.length ≤ topic.1.length + 1

/-- The filter stays inside the topic, and finds no handle unless the callback is registered for the
topic; and the default callback is not registered for it a second time through `NULL`. -/
def RegisterOk (onDefault : α) (list : List (MqttSubscribeHandle α υ)) (topic : Text)
    (cb : Option α) (mem : Bool) : Prop :=
  FilterInside list topic cb ∧
  ((∃ h ∈ list, h.Repeats topic cb) → ∃ h ∈ list, h.topic = topic ∧ some h.cb = cb) ∧
  (cb = none → mem = true → ∀ h ∈ list, ¬(h.topic = topic ∧ h.cb = onDefault))

def TopicOk (onDefault : α) (s : TopicLog α υ) : TopicStep α υ → Prop
  | .register topic cb _ msgid handleMem topicMem =>
      msgid ≠ 0 → RegisterOk onDefault s.list topic cb (handleMem && topicMem)
  | _ => True

/-! ## The comparisons -/

theorem prefix_topicBytes_iff {a b : Text} (h : a.1.length ≤ b.1.length + 1) :
    (topicBytes a).take a.1.length = (topicBytes b).take a.1.length ↔ a.1 <+: b.1 := by
  have hleft : (topicBytes a).take a.1.length = a.1 := List.take_left
  rw [hleft, List.prefix_iff_eq_take]
  obtain hle | hlong : a.1.length ≤ b.1.length ∨ a.1.length = b.1.length + 1 := by omega
  · rw [topicBytes, List.take_append_of_le_length hle]
  · -- The last byte would have to be the final zero.
    have hall : (topicBytes b).take a.1.length = b.1 ++ [0] :=
      List.take_of_length_le (by simp [topicBytes, hlong])
    have hshort : b.1.take a.1.length = b.1 := List.take_of_length_le (by omega)
    rw [hall, hshort]
    constructor
    · intro heq
      exact absurd (heq ▸ List.mem_append_right _ (List.mem_singleton.mpr rfl)) a.2
    · intro heq
      simp [heq] at hlong

theorem memcmpEq_repetition (target topic : Text) :
    memcmpEq (topicBytes target) (topicBytes topic) target.1.length =
      if target.1.length ≤ topic.1.length + 1 then some (decide (target.1 <+: topic.1))
        else none := by
  unfold memcmpEq
  by_cases h : target.1.length ≤ topic.1.length + 1
  · have hroom : target.1.length ≤ (topicBytes target).length ∧
        target.1.length ≤ (topicBytes topic).length := by
      simp [topicBytes, h]
    rw [if_pos hroom, if_pos h, Option.some_inj, Bool.eq_iff_iff]
    simpa using prefix_topicBytes_iff h
  · have hroom : ¬(target.1.length ≤ (topicBytes target).length ∧
        target.1.length ≤ (topicBytes topic).length) := by
      simp [topicBytes, h]
    rw [if_neg hroom, if_neg h]

theorem sameTopic_eq (topic : Text) (entry : MqttSubscribeHandle α υ) :
    sameTopic topic entry = some (decide (entry.topic = topic)) := by
  unfold sameTopic
  by_cases hlen : entry.topic.1.length = topic.1.length
  · rw [if_pos hlen, memcmpEq_repetition, if_pos (by omega)]
    congr 1
    apply decide_eq_decide.mpr
    constructor
    · intro h
      exact Subtype.ext (h.eq_of_length hlen.symm).symm
    · rintro rfl
      exact List.prefix_refl _
  · rw [if_neg hlen, decide_eq_false fun h ↦ hlen (congrArg (·.1.length) h)]

theorem mqttUnregister_eq (topic : Text) (list : List (MqttSubscribeHandle α υ)) :
    mqttUnregister topic list = some (list.filter (·.topic ≠ topic)) := by
  induction list with
  | nil => rfl
  | cons entry next ih =>
      by_cases h : entry.topic = topic <;> simp [mqttUnregister, sameTopic_eq, ih, h]

theorem mqttDistribute_eq (topic : Text) (list : List (MqttSubscribeHandle α υ)) :
    mqttDistribute topic list =
      some ((list.filter (·.topic = topic)).map fun h ↦ (h.cb, h.userdata)) := by
  induction list with
  | nil => rfl
  | cons target next ih =>
      by_cases h : target.topic = topic <;> simp [mqttDistribute, sameTopic_eq, ih, h]

section Filter

variable {topic : Text} {cb : Option α} {list : List (MqttSubscribeHandle α υ)}

theorem filterInside_cons {target : MqttSubscribeHandle α υ} :
    FilterInside (target :: list) topic cb ↔
      target.topic.1.length ≤ topic.1.length + 1 ∧
        (target.Repeats topic cb ∨ FilterInside list topic cb) := by
  constructor
  · intro h
    refine ⟨h [] target list rfl (by simp), ?_⟩
    by_cases hrepeats : target.Repeats topic cb
    · exact .inl hrepeats
    · refine .inr fun front f rest heq hfront ↦ h (target :: front) f rest (by simp [heq]) ?_
      intro g hg
      obtain rfl | hg := List.mem_cons.mp hg
      · exact hrepeats
      · exact hfront g hg
  · rintro ⟨hlen, hrest⟩ front f rest heq hfront
    cases front with
    | nil =>
        obtain ⟨rfl, -⟩ := List.cons.inj heq
        exact hlen
    | cons g front =>
        obtain ⟨rfl, hnext⟩ := List.cons.inj heq
        obtain hrepeats | hrest := hrest
        · exact absurd hrepeats (hfront _ (by simp))
        · exact hrest front f rest hnext fun f hf ↦ hfront f (List.mem_cons_of_mem _ hf)

theorem repetition_eq_none_iff [DecidableEq α] :
    repetition topic cb list = none ↔ ¬FilterInside list topic cb := by
  induction list with
  | nil => simp [repetition, FilterInside]
  | cons target next ih =>
      rw [filterInside_cons, repetition, memcmpEq_repetition]
      by_cases hlen : target.topic.1.length ≤ topic.1.length + 1
      · by_cases hrepeats : target.Repeats topic cb
        · have hrepeats' := hrepeats
          unfold MqttSubscribeHandle.Repeats at hrepeats'
          simp [hlen, hrepeats, hrepeats'.1, hrepeats'.2]
        · have hfilter : ¬(target.topic.1 <+: topic.1 ∧ some target.cb = cb) := hrepeats
          simp only [hlen, if_true, Option.bind_some, decide_eq_true_eq, hfilter, if_false, ih,
            hrepeats, false_or, true_and]
      · simp [hlen]

theorem repetition_of_inside [DecidableEq α] (h : FilterInside list topic cb) :
    ∃ repeated, repetition topic cb list = some repeated ∧
      (repeated = true ↔ ∃ f ∈ list, f.Repeats topic cb) := by
  induction list with
  | nil => exact ⟨false, rfl, by simp⟩
  | cons target next ih =>
      obtain ⟨hlen, hrest⟩ := filterInside_cons.mp h
      rw [repetition, memcmpEq_repetition, if_pos hlen]
      by_cases hrepeats : target.Repeats topic cb
      · have hfilter : target.topic.1 <+: topic.1 ∧ some target.cb = cb := hrepeats
        refine ⟨true, ?_, by simp [hrepeats]⟩
        simp only [Option.bind_some, decide_eq_true_eq, hfilter, and_self, if_true]
      · have hfilter : ¬(target.topic.1 <+: topic.1 ∧ some target.cb = cb) := hrepeats
        obtain ⟨repeated, hrun, hiff⟩ := ih (hrest.resolve_left hrepeats)
        refine ⟨repeated, ?_, by simp [hiff, hrepeats]⟩
        simp only [Option.bind_some, decide_eq_true_eq, hfilter, if_false, hrun]

end Filter

/-! ## The list and what is registered -/

/-- The topics and callbacks of the list. -/
def TopicLog.pairs (s : TopicLog α υ) : List (Text × α) := s.list.map fun h ↦ (h.topic, h.cb)

/-- The list holds what is registered, each once. -/
structure TopicLog.Exact (s : TopicLog α υ) : Prop where
  nodup : s.pairs.Nodup
  mem_iff : ∀ p, p ∈ s.registered ↔ p ∈ s.pairs

theorem TopicLog.mem_pairs {s : TopicLog α υ} {topic : Text} {cb : α} :
    (topic, cb) ∈ s.pairs ↔ ∃ h ∈ s.list, h.topic = topic ∧ h.cb = cb := by
  simp [TopicLog.pairs]

theorem count_callbacks [DecidableEq α] (topic : Text) (cb : α)
    (list : List (MqttSubscribeHandle α υ)) :
    ((list.filter (·.topic = topic)).map (·.cb)).count cb =
      (list.map fun h ↦ (h.topic, h.cb)).count (topic, cb) := by
  induction list with
  | nil => rfl
  | cons h list ih =>
      by_cases htopic : h.topic = topic <;> simp [List.count_cons, htopic, ih]

section Step

variable [DecidableEq α] {onDefault : α} {s : TopicLog α υ}

theorem step_message (topic : Text) :
    (topicMachine onDefault).step s (.message topic) =
      (s, some ⟨oprtOk, (s.list.filter (·.topic = topic)).map fun h ↦ (h.cb, h.userdata)⟩) := by
  simp [topicMachine, topicStep, mqttDistribute_eq]

theorem step_unregister (topic : Text) (msgid : ℕ) :
    (topicMachine onDefault).step s (.unregister topic msgid) =
      (⟨s.list.filter (·.topic ≠ topic), s.registered.filter (·.1 ≠ topic)⟩,
        some ⟨if msgid = 0 then oprtComError else oprtOk, []⟩) := by
  simp [topicMachine, topicStep, mqttUnregister_eq]

theorem delivers_iff (topic : Text) :
    Delivers onDefault s topic ↔
      ((s.list.filter (·.topic = topic)).map (·.cb)).Nodup ∧
        ∀ cb, (topic, cb) ∈ s.pairs ↔ (topic, cb) ∈ s.registered := by
  have hcalls : ((s.list.filter (·.topic = topic)).map fun h ↦ (h.cb, h.userdata)).map Prod.fst =
      (s.list.filter (·.topic = topic)).map (·.cb) := by
    simp
  unfold Delivers
  rw [step_message]
  simp only [Option.some_inj, exists_eq_left', hcalls, TopicLog.mem_pairs]
  simp [and_assoc]

theorem exact_iff : (∀ topic, Delivers onDefault s topic) ↔ s.Exact := by
  simp only [delivers_iff]
  constructor
  · intro h
    refine ⟨List.nodup_iff_count_le_one.mpr fun p ↦ ?_, fun p ↦ ((h p.1).2 p.2).symm⟩
    have hcount := List.nodup_iff_count_le_one.mp (h p.1).1 p.2
    rwa [count_callbacks] at hcount
  · intro h topic
    refine ⟨List.nodup_iff_count_le_one.mpr fun cb ↦ ?_, fun cb ↦ (h.mem_iff (topic, cb)).symm⟩
    rw [count_callbacks]
    exact List.nodup_iff_count_le_one.mp h.nodup (topic, cb)

theorem TopicLog.Exact.insert_iff (h : s.Exact) (p : Text × α) :
    TopicLog.Exact ⟨s.list, s.registered.insert p⟩ ↔ p ∈ s.pairs := by
  constructor
  · intro h'
    exact (h'.mem_iff p).mp (List.mem_insert_self)
  · intro hp
    have hmem : p ∈ s.registered := (h.mem_iff p).mpr hp
    rwa [List.insert_of_mem hmem]

theorem TopicLog.Exact.cons_iff (h : s.Exact) (new : MqttSubscribeHandle α υ) :
    TopicLog.Exact ⟨new :: s.list, s.registered.insert (new.topic, new.cb)⟩ ↔
      (new.topic, new.cb) ∉ s.pairs := by
  constructor
  · intro h'
    exact (List.nodup_cons.mp h'.nodup).1
  · intro hnew
    refine ⟨List.nodup_cons.mpr ⟨hnew, h.nodup⟩, fun p ↦ ?_⟩
    have hpairs : TopicLog.pairs ⟨new :: s.list, s.registered.insert (new.topic, new.cb)⟩ =
        (new.topic, new.cb) :: s.pairs := rfl
    rw [hpairs, List.mem_insert_iff, h.mem_iff, List.mem_cons]

omit [DecidableEq α] in
theorem TopicLog.Exact.filter (h : s.Exact) (topic : Text) :
    TopicLog.Exact
      ⟨s.list.filter (·.topic ≠ topic), s.registered.filter (·.1 ≠ topic)⟩ := by
  have hpairs : TopicLog.pairs
      ⟨s.list.filter (·.topic ≠ topic), s.registered.filter (·.1 ≠ topic)⟩ =
        s.pairs.filter (·.1 ≠ topic) := by
    unfold TopicLog.pairs
    rw [List.filter_map]
    rfl
  constructor
  · rw [hpairs]
    exact h.nodup.filter _
  · intro p
    rw [hpairs, List.mem_filter, List.mem_filter, h.mem_iff]

theorem register_iff (h : s.Exact) (topic : Text) (cb : Option α) (userdata : υ) (msgid : ℕ)
    (handleMem topicMem : Bool) :
    RoutesExactly onDefault s (.register topic cb userdata msgid handleMem topicMem) ↔
      TopicOk onDefault s (.register topic cb userdata msgid handleMem topicMem) := by
  have hroutes : ∀ (rt : OperateRet) (s' : TopicLog α υ),
      (topicMachine onDefault).step s (.register topic cb userdata msgid handleMem topicMem) =
        (s', some ⟨rt, []⟩) →
      (RoutesExactly onDefault s (.register topic cb userdata msgid handleMem topicMem) ↔
        s'.Exact) := by
    intro rt s' hstep
    have hiff : (∀ topic, Delivers onDefault s' topic) ↔ s'.Exact := exact_iff
    rw [← hiff]
    constructor
    · intro hexact
      simpa [hstep] using hexact.delivers
    · intro hexact
      exact ⟨by simp [hstep], by simpa [hstep] using hexact⟩
  change _ ↔ (msgid ≠ 0 → RegisterOk onDefault s.list topic cb (handleMem && topicMem))
  by_cases hid : msgid = 0
  · have hrt : oprtComError ≠ oprtOk := by decide
    rw [hroutes oprtComError s (by simp [topicMachine, topicStep, mqttRegister, hid, hrt])]
    simp [hid, h]
  by_cases hinside : FilterInside s.list topic cb
  swap
  · refine iff_of_false (fun hexact ↦ ?_) fun hok ↦ hinside (hok hid).1
    have hstep := hexact.inside
    simp [topicMachine, topicStep, mqttRegister, hid, repetition_eq_none_iff.mpr hinside] at hstep
  obtain ⟨repeated, hfilter, hrepeated⟩ := repetition_of_inside hinside
  unfold RegisterOk
  rw [← hrepeated]
  simp only [ne_eq, hid, not_false_iff, forall_const, hinside, true_and]
  cases repeated with
  | true =>
      obtain ⟨f, -, -, rfl⟩ := hrepeated.mp rfl
      rw [hroutes oprtOk ⟨s.list, s.registered.insert (topic, f.cb)⟩
        (by simp [topicMachine, topicStep, mqttRegister, hid, hfilter]), h.insert_iff,
        TopicLog.mem_pairs]
      simp
  | false =>
      by_cases hmem : handleMem = false ∨ topicMem = false
      · have hrt : oprtMallocFailed ≠ oprtOk := by decide
        rw [hroutes oprtMallocFailed s
          (by simp [topicMachine, topicStep, mqttRegister, hid, hfilter, hmem, hrt])]
        obtain rfl | rfl := hmem <;> simp [h]
      · rw [hroutes oprtOk ⟨⟨topic, cb.getD onDefault, userdata⟩ :: s.list,
          s.registered.insert (topic, cb.getD onDefault)⟩
          (by simp [topicMachine, topicStep, mqttRegister, hid, hfilter, hmem]),
          h.cons_iff ⟨topic, cb.getD onDefault, userdata⟩, TopicLog.mem_pairs]
        have hmems : handleMem = true ∧ topicMem = true := by simpa using hmem
        cases cb with
        | none => simp [hmems]
        | some c =>
            -- A handle for the same topic would have been found.
            have hnone : ¬∃ f ∈ s.list, f.topic = topic ∧ f.cb = c := by
              rintro ⟨f, hf, rfl, rfl⟩
              have hfound := hrepeated.mpr ⟨f, hf, List.prefix_refl _, rfl⟩
              cases hfound
            simpa using hnone

theorem step_iff (h : s.Exact) (x : TopicStep α υ) :
    RoutesExactly onDefault s x ↔ TopicOk onDefault s x := by
  cases x with
  | register topic cb userdata msgid handleMem topicMem =>
      exact register_iff h topic cb userdata msgid handleMem topicMem
  | unregister topic msgid =>
      refine iff_of_true ⟨?_, ?_⟩ trivial
      · simp [step_unregister]
      · rw [step_unregister, exact_iff]
        exact h.filter topic
  | message topic =>
      refine iff_of_true ⟨?_, ?_⟩ trivial
      · simp [step_message]
      · rw [step_message, exact_iff]
        exact h

end Step

/-- Messages are routed exactly, and no comparison leaves a topic, in the runs whose registers all
meet the condition and in no other. -/
theorem topic_routing_iff [DecidableEq α] (onDefault : α) (xs : List (TopicStep α υ)) :
    (topicMachine onDefault).Guarded (RoutesExactly onDefault) .empty xs ↔
      (topicMachine onDefault).Guarded (TopicOk onDefault) .empty xs := by
  apply Mealy.guarded_congr _ (E := fun _ _ ↦ True) (I := TopicLog.Exact)
  · exact fun s x h _ ↦ step_iff h x
  · exact fun s x h _ hok ↦ exact_iff.mp ((step_iff h x).mpr hok).delivers
  · exact ⟨List.nodup_nil, fun p ↦ Iff.rfl⟩
  · exact Mealy.guarded_true _ _ _

def topicA : Text := ⟨[0x61], by decide⟩
def topicAb : Text := ⟨[0x61, 0x62], by decide⟩

/-- A topic that extends a kept one is taken for it, and its messages are passed to nobody. -/
theorem longer_topic_lost :
    ¬(topicMachine 0).Guarded (RoutesExactly (0 : ℕ)) .empty
      [.register topicA (some 1) () 1 true true, .register topicAb (some 1) () 2 true true] := by
  rintro ⟨-, h, -⟩
  obtain ⟨reply, hreply, -, hmem⟩ := h.delivers topicAb
  obtain rfl : ⟨oprtOk, []⟩ = reply := Option.some.inj hreply
  have hcalled : 1 ∈ ([] : List ℕ) := (hmem 1).mpr (by decide)
  cases hcalled

end TuyaOpen.Cloud
