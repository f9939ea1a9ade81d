import Mathlib.Data.Nat.Notation
import Mathlib.Logic.Function.Basic
import Mathlib.Order.Basic
import TuyaOpen.Lib.Bytes
import TuyaOpen.Lib.Mealy
import TuyaOpen.Lib.Pending

/-!
# Requests over MQTT

`matop_service.c`: a request goes out under an id and waits in a list for the response that has the
id, or for its timeout.  A thread sends first and puts its request into the list behind that;
responses come on a JSON topic and on a topic for raw file data.
-/

namespace TuyaOpen.Cloud

open Bytes

def matopTimeoutMsDefault : ℕ := 8000

/-- `tal_system_get_millisecond`, of 32 bits. -/
def talSystemGetMillisecond (clock : ℕ) : ℕ := clock % 2 ^ 32

/-- `mqtt_atop_message_t`.  History are `number`, which request it is, `called`, when it was made,
and `timeoutMs`, the timeout that holds for it. -/
structure MqttAtopMessage where
  number : ℕ
  called : ℕ
  timeoutMs : ℕ
  id : ℕ
  timeout : ℕ
  notifyCb : Bool
  deriving DecidableEq

/-- `atop_base_response_t`; `result` is the text of its JSON item. -/
structure AtopBaseResponse where
  success : Bool
  result : Option (List UInt8)
  t : ℤ
  rawData : List UInt8
  deriving DecidableEq

/-- The item `result` of a response, with its items `success` and `result`. -/
structure MatopResult where
  success : Bool
  result : Option (List UInt8)
  deriving DecidableEq

/-- The item `data` of a response, with the `valueint` of its item `t`. -/
structure MatopData where
  result : Option MatopResult
  t : Option ℤ
  deriving DecidableEq

/-- A JSON response that parses; `id` is the `valueint` of a number. -/
structure MatopJson where
  id : Option ℤ
  data : Option MatopData
  deriving DecidableEq

/-- The context, with its list up to the entry that a yield has come to and from it on, and the
threads that have sent and not yet linked their message.  The clock is in milliseconds and does not
wrap. History are `pass`, when the yield that runs has begun, and `count`, how many requests there
were. -/
structure MatopContext where
  idCnt : ℕ
  visited : List MqttAtopMessage
  rest : List MqttAtopMessage
  pass : Option ℕ
  calls : ℕ → Option MqttAtopMessage
  clock : ℕ
  count : ℕ

/-- Whether there is memory for the message and a buffer with the request, and whether it is
sent. -/
structure MatopEnv where
  handle : Bool
  buffer : Bool
  sends : Bool

/-- A response may come at any time, with any id; `none` does not parse.  A yield goes on with an
entry or comes to the end of the list. -/
inductive MatopStep where
  | tick (ms : ℕ)
  | request (t : ℕ) (timeout : UInt32) (notifyCb : Bool) (env : MatopEnv)
  | link (t : ℕ)
  | dataReceive (root : Option MatopJson)
  | rawdataReceive (input : List UInt8)
  | yield
  | yieldEntry (ms : ℕ)
  | destory
  | init

/-- A request that is sent and one that is accepted.  A message leaves the list with a response,
whose id is `none` for a timeout: its `notify_cb` is called, when it is not NULL.  Last, a yield
that returns `OPRT_OK`, and a read through NULL. -/
inductive MatopEvent where
  | sent (number : ℕ) (id : ℕ)
  | accepted (number : ℕ)
  | answered (message : MqttAtopMessage) (id : Option ℤ) (response : AtopBaseResponse)
  | yielded (began : ℕ)
  | nullRead
  deriving DecidableEq

/-- The response of a JSON item `data`; with success its item `t` is read, which may be NULL. -/
def MatopData.response (data : MatopData) : Option AtopBaseResponse :=
  match data.result with
  | none => some ⟨false, none, 0, []⟩
  | some result =>
      if result.success = true then data.t.map fun t ↦ ⟨true, result.result, t, []⟩
      else some ⟨false, result.result, 0, []⟩

def rawResponse (input : List UInt8) : AtopBaseResponse := ⟨true, none, 0, input.drop 4⟩

def timeoutResponse : AtopBaseResponse := ⟨false, none, 0, []⟩

/-- A JSON id as a `uint16_t`. -/
def uint16Id (id : ℤ) : ℕ := (id % 2 ^ 16).toNat

namespace MatopContext

variable (s : MatopContext)

def messageList : List MqttAtopMessage := s.visited ++ s.rest

def tick (ms : ℕ) : MatopContext := { s with clock := s.clock + ms }

/-- The message that `matop_service_request_async` makes. -/
def newMessage (timeout : UInt32) (notifyCb : Bool) : MqttAtopMessage :=
  let timeoutMs := if timeout = 0 then matopTimeoutMsDefault else timeout.toNat
  { number := s.count
    called := s.clock
    timeoutMs := timeoutMs
    id := (s.idCnt + 1) % 2 ^ 32 % 2 ^ 16
    timeout := (talSystemGetMillisecond s.clock + timeoutMs) % 2 ^ 32
    notifyCb := notifyCb }

/-- `matop_service_request_async` up to its send. -/
def request (t : ℕ) (timeout : UInt32) (notifyCb : Bool) (env : MatopEnv) :
    MatopContext × List MatopEvent :=
  if s.calls t ≠ none ∨ env.handle = false then (s, [])
  else
    let message := s.newMessage timeout notifyCb
    let s := { s with idCnt := (s.idCnt + 1) % 2 ^ 32 }
    if env.buffer = false ∨ env.sends = false then (s, [])
    else
      ({ s with calls := Function.update s.calls t (some message), count := s.count + 1 },
        [.sent message.number message.id])

/-- The message goes to the tail of the list. -/
def link (t : ℕ) : MatopContext × List MatopEvent :=
  match s.calls t with
  | none => (s, [])
  | some message =>
      ({ s with calls := Function.update s.calls t none, rest := s.rest ++ [message] },
        [.accepted message.number])

/-- The first message of an id is told its response and leaves the list. -/
def respond (id : ℕ) (responseId : ℤ) (response : AtopBaseResponse) :
    MatopContext × List MatopEvent :=
  match s.rest.find? fun message ↦ message.id = id with
  | none => (s, [])
  | some message =>
      ({ s with rest := s.rest.eraseP fun message ↦ message.id = id },
        [.answered message responseId response])

/-- `matop_service_data_receive_cb`. -/
def dataReceive (root : Option MatopJson) : MatopContext × List MatopEvent :=
  match root with
  | some ⟨some id, some data⟩ =>
      match data.response with
      | some response => s.respond (uint16Id id) id response
      | none =>
          if s.rest.any fun message ↦ message.id = uint16Id id then (s, [.nullRead]) else (s, [])
  | _ => (s, [])

/-- `matop_service_file_rawdata_receive_cb`. -/
def rawdataReceive (input : List UInt8) : MatopContext × List MatopEvent :=
  if input.length < 4 then (s, [])
  else s.respond (decodeBE (input.take 4)) (decodeBE (input.take 4)) (rawResponse input)

/-- The loop of `matop_serice_yield` at an entry, or at its end. -/
def yieldEntry : MatopContext × List MatopEvent :=
  match s.pass, s.rest with
  | none, _ => (s, [])
  | some began, [] => ({ s with visited := [], rest := s.visited, pass := none }, [.yielded began])
  | some _, entry :: rest =>
      if entry.timeout < talSystemGetMillisecond s.clock then
        ({ s with visited := [], rest := s.visited ++ rest, pass := none },
          [.answered entry none timeoutResponse])
      else ({ s with visited := s.visited ++ [entry], rest := rest }, [])

/-- The list of `matop_serice_destory`. -/
def destory : MatopContext := { s with visited := [], rest := [] }

/-- The `memset` of `matop_serice_init`. -/
def init : MatopContext := { s with idCnt := 0, visited := [], rest := [] }

end MatopContext

/-- The thread of the main loop yields, receives and connects; the other threads request. -/
def matopStep (s : MatopContext) : MatopStep → MatopContext × List MatopEvent
  | .tick ms => (s.tick ms, [])
  | .request t timeout notifyCb env => s.request t timeout notifyCb env
  | .link t => s.link t
  | .dataReceive root => if s.pass = none then s.dataReceive root else (s, [])
  | .rawdataReceive input => if s.pass = none then s.rawdataReceive input else (s, [])
  | .yield => if s.pass = none then ({ s with pass := some s.clock }, []) else (s, [])
  | .yieldEntry ms => (s.tick ms).yieldEntry
  | .destory => if s.pass = none then (s.destory, []) else (s, [])
  | .init => if s.pass = none then (s.init, []) else (s, [])

/-- Behind the first `matop_serice_init`, at any time. -/
def matopInit (clock : ℕ) : MatopContext where
  idCnt := 0
  visited := []
  rest := []
  pass := none
  calls := fun _ ↦ none
  clock := clock
  count := 0

/-!
## Responses and their requests

Each request that is accepted is answered once: with a response that has the id sent in it, or
without success behind its timeout.  The code compares the lowest 16 bits of a JSON id, and the
lowest 32 bits of the times.
-/

/-- What was seen so far: the requests that were accepted, those whose callback was called, and the
ids that were sent. -/
structure MatopLog where
  accepted : List ℕ
  answered : List ℕ
  sent : List (ℕ × ℕ)

namespace MatopLog

def record (log : MatopLog) : MatopEvent → MatopLog
  | .sent number id => { log with sent := log.sent ++ [(number, id)] }
  | .accepted number => { log with accepted := log.accepted ++ [number] }
  | .answered message _ _ => { log with answered := log.answered ++ [message.number] }
  | .yielded _ => log
  | .nullRead => log

end MatopLog

abbrev LoggedMatop := MatopContext × MatopLog

def matopMachine : Mealy LoggedMatop MatopStep (List MatopEvent) where
  step s x := (((matopStep s.1 x).1, (matopStep s.1 x).2.foldl MatopLog.record s.2),
    (matopStep s.1 x).2)

/-- When the request has waited as long as its timeout. -/
def MqttAtopMessage.deadline (m : MqttAtopMessage) : ℕ := m.called + m.timeoutMs

/-- The step is a response of an id. -/
def MatopStep.Carries (id : ℤ) (response : AtopBaseResponse) : MatopStep → Prop
  | .dataReceive root => ∃ data, root = some ⟨some id, some data⟩ ∧ data.response = some response
  | .rawdataReceive input => 4 ≤ input.length ∧ (decodeBE (input.take 4) : ℤ) = id ∧
      rawResponse input = response
  | _ => False

/-- A callback is called for a request that is accepted and not yet answered; the others wait.  It
is told a response of the id that was sent in its request, or no success when the timeout is over.
A yield that returns `OPRT_OK` leaves no request whose timeout was over at its beginning.  Nothing
is read through NULL. -/
structure PairSound (s : LoggedMatop) (x : MatopStep) : Prop where
  once : ∀ m id r, .answered m id r ∈ (matopMachine.step s x).2 →
    m.number ∈ s.2.accepted ∧ m.number ∉ s.2.answered
  nodup : (matopMachine.step s x).1.2.answered.Nodup
  response : ∀ m id r, .answered m (some id) r ∈ (matopMachine.step s x).2 →
    x.Carries id r ∧ ∃ sent, (m.number, sent) ∈ s.2.sent ∧ (sent : ℤ) = id
  timeout : ∀ m r, .answered m none r ∈ (matopMachine.step s x).2 →
    r.success = false ∧ m.deadline ≤ (matopMachine.step s x).1.1.clock
  waits : ∀ n ∈ (matopMachine.step s x).1.2.accepted, n ∉ (matopMachine.step s x).1.2.answered →
    ∃ m ∈ (matopMachine.step s x).1.1.messageList, m.number = n
  due : ∀ began, .yielded began ∈ (matopMachine.step s x).2 →
    ∀ m ∈ (matopMachine.step s x).1.1.messageList, began ≤ m.deadline
  defined : .nullRead ∉ (matopMachine.step s x).2

/-- A response with success has the item `t`. -/
def MatopData.Timed (data : MatopData) : Prop :=
  ∀ result, data.result = some result → result.success = true → data.t.isSome = true

/-- A JSON id is that of the messages that have its lowest 16 bits, and with success its item `t` is
there; when a yield comes to a message, the lowest 32 bits of the clock are on the same side of
those of the deadline as the clock is of the deadline; and the list is empty when it is cleared. -/
def PairSafe (s : LoggedMatop) : MatopStep → Prop
  | .dataReceive root => ∀ id data, root = some ⟨some id, some data⟩ → s.1.pass = none →
      ∀ m ∈ s.1.messageList, m.id = uint16Id id → (m.id : ℤ) = id ∧ data.Timed
  | .yieldEntry ms => ∀ began m, s.1.pass = some began → s.1.rest.head? = some m →
      ((s.1.tick ms).clock < m.deadline →
        talSystemGetMillisecond (s.1.tick ms).clock ≤ talSystemGetMillisecond m.deadline) ∧
      (m.deadline < began →
        talSystemGetMillisecond m.deadline < talSystemGetMillisecond (s.1.tick ms).clock)
  | .destory => s.1.pass = none → s.1.messageList = []
  | .init => s.1.pass = none → s.1.messageList = []
  | _ => True

/-! ## The invariant -/

/-- A message has what its request gave. -/
structure MessageOk (sent : List (ℕ × ℕ)) (m : MqttAtopMessage) : Prop where
  timeout : m.timeout = talSystemGetMillisecond m.deadline
  sent : (m.number, m.id) ∈ sent

structure PairInv (s : LoggedMatop) : Prop where
  list : Pending MqttAtopMessage.number (MessageOk s.2.sent) s.1.messageList s.1.calls s.1.count
    s.2.accepted s.2.answered
  idle : s.1.pass = none → s.1.visited = []
  visited : ∀ began, s.1.pass = some began →
    began ≤ s.1.clock ∧ ∀ m ∈ s.1.visited, began ≤ m.deadline

/-- A step in which no callback is called, no yield returns `OPRT_OK` and nothing is read through
NULL. -/
def Unanswered (events : List MatopEvent) : Prop :=
  ∀ event ∈ events, (∀ m id r, event ≠ .answered m id r) ∧ (∀ began, event ≠ .yielded began) ∧
    event ≠ .nullRead

theorem unanswered_nil : Unanswered [] := fun _ hmem ↦ absurd hmem List.not_mem_nil

/-- The step keeps the invariant and is sound. -/
def PairOk (s : LoggedMatop) (x : MatopStep) : Prop :=
  PairInv (matopMachine.step s x).1 ∧ PairSound s x

section Step

variable {s : LoggedMatop} {x : MatopStep} {c : MatopContext}

theorem matopMachine_step {events : List MatopEvent} (hstep : matopStep s.1 x = (c, events)) :
    matopMachine.step s x = ((c, events.foldl MatopLog.record s.2), events) := by
  rw [matopMachine]
  dsimp only
  rw [hstep]

theorem PairInv.waits (h : PairInv s) (n : ℕ) (hacc : n ∈ s.2.accepted) (hnot : n ∉ s.2.answered) :
    ∃ m ∈ s.1.messageList, m.number = n :=
  h.list.exists_of_waits hacc hnot

theorem pairOk_of_unanswered {events : List MatopEvent} (hstep : matopStep s.1 x = (c, events))
    (hevents : Unanswered events) (hnext : PairInv (c, events.foldl MatopLog.record s.2)) :
    PairOk s x := by
  have heq := matopMachine_step hstep
  have hnext' : PairInv (matopMachine.step s x).1 := heq ▸ hnext
  have hanswered : ∀ m id r, .answered m id r ∉ (matopMachine.step s x).2 := by
    intro m id r hmem
    rw [heq] at hmem
    exact (hevents _ hmem).1 m id r rfl
  refine ⟨hnext', ⟨?_, hnext'.list.answeredNodup, ?_, ?_, hnext'.waits, ?_, ?_⟩⟩
  · exact fun m id r hmem ↦ absurd hmem (hanswered m id r)
  · exact fun m id r hmem ↦ absurd hmem (hanswered m (some id) r)
  · exact fun m r hmem ↦ absurd hmem (hanswered m none r)
  · intro began hmem
    rw [heq] at hmem
    exact absurd rfl ((hevents _ hmem).2.1 began)
  · intro hmem
    rw [heq] at hmem
    exact (hevents _ hmem).2.2 rfl

theorem pairOk_self (h : PairInv s) (hstep : matopStep s.1 x = (s.1, [])) : PairOk s x :=
  pairOk_of_unanswered hstep unanswered_nil h

theorem pairOk_of_answered {m : MqttAtopMessage} {id : Option ℤ} {r : AtopBaseResponse}
    (hstep : matopStep s.1 x = (c, [.answered m id r]))
    (honce : m.number ∈ s.2.accepted ∧ m.number ∉ s.2.answered)
    (hresponse : ∀ i, id = some i → x.Carries i r ∧ (m.number, m.id) ∈ s.2.sent ∧ (m.id : ℤ) = i)
    (htimeout : id = none → r.success = false ∧ m.deadline ≤ c.clock)
    (hnext : PairInv (c, s.2.record (.answered m id r))) : PairOk s x := by
  have heq := matopMachine_step hstep
  have hnext' : PairInv (matopMachine.step s x).1 := heq ▸ hnext
  have hevent : ∀ m' id' r', .answered m' id' r' ∈ (matopMachine.step s x).2 →
      m' = m ∧ id' = id ∧ r' = r := by
    intro m' id' r' hmem
    rw [heq, List.mem_singleton] at hmem
    exact MatopEvent.answered.inj hmem
  refine ⟨hnext', ⟨?_, hnext'.list.answeredNodup, ?_, ?_, hnext'.waits, ?_, ?_⟩⟩
  · intro m' id' r' hmem
    rw [(hevent m' id' r' hmem).1]
    exact honce
  · intro m' i r' hmem
    obtain ⟨rfl, hid, rfl⟩ := hevent m' (some i) r' hmem
    obtain ⟨hcarries, hsent, hsame⟩ := hresponse i hid.symm
    exact ⟨hcarries, m'.id, hsent, hsame⟩
  · intro m' r' hmem
    obtain ⟨rfl, hid, rfl⟩ := hevent m' none r' hmem
    rw [heq]
    exact htimeout hid.symm
  · intro began hmem
    rw [heq, List.mem_singleton] at hmem
    cases hmem
  · intro hmem
    rw [heq, List.mem_singleton] at hmem
    cases hmem

theorem pairOk_of_yielded {began : ℕ} (hstep : matopStep s.1 x = (c, [.yielded began]))
    (hdue : ∀ m ∈ c.messageList, began ≤ m.deadline) (hnext : PairInv (c, s.2)) : PairOk s x := by
  have heq := matopMachine_step hstep
  have hnext' : PairInv (matopMachine.step s x).1 := heq ▸ hnext
  have hanswered : ∀ m id r, .answered m id r ∉ (matopMachine.step s x).2 := by
    intro m id r hmem
    rw [heq, List.mem_singleton] at hmem
    cases hmem
  refine ⟨hnext', ⟨?_, hnext'.list.answeredNodup, ?_, ?_, hnext'.waits, ?_, ?_⟩⟩
  · exact fun m id r hmem ↦ absurd hmem (hanswered m id r)
  · exact fun m id r hmem ↦ absurd hmem (hanswered m (some id) r)
  · exact fun m r hmem ↦ absurd hmem (hanswered m none r)
  · intro began' hmem
    rw [heq] at hmem ⊢
    cases List.mem_singleton.mp hmem
    exact hdue
  · intro hmem
    rw [heq, List.mem_singleton] at hmem
    cases hmem

/-! ## The steps -/

theorem PairInv.tick (h : PairInv s) (ms : ℕ) : PairInv (s.1.tick ms, s.2) where
  list := h.list
  idle := h.idle
  visited began hpass :=
    ⟨Nat.le_trans (h.visited began hpass).1 (Nat.le_add_right _ _), (h.visited began hpass).2⟩

theorem newMessage_timeout (c : MatopContext) (timeout : UInt32) (notifyCb : Bool) :
    (c.newMessage timeout notifyCb).timeout =
      talSystemGetMillisecond (c.newMessage timeout notifyCb).deadline := by
  change (c.clock % 2 ^ 32 + _) % 2 ^ 32 = (c.clock + _) % 2 ^ 32
  rw [Nat.mod_add_mod]
  rfl

theorem PairInv.request (h : PairInv s) (t : ℕ) (timeout : UInt32) (notifyCb : Bool)
    (env : MatopEnv) :
    PairOk s (.request t timeout notifyCb env) := by
  have hstep : matopStep s.1 (.request t timeout notifyCb env) =
    s.1.request t timeout notifyCb env := rfl
  rw [MatopContext.request] at hstep
  split_ifs at hstep with hrefused hfails
  · exact pairOk_self h hstep
  · exact pairOk_of_unanswered hstep unanswered_nil ⟨h.list, h.idle, h.visited⟩
  · apply pairOk_of_unanswered hstep
    · intro event hevent
      rw [List.mem_singleton.mp hevent]
      simp
    · have hsub : s.2.sent ⊆ s.2.sent ++ [(s.1.count, (s.1.newMessage timeout notifyCb).id)] :=
        List.subset_append_left _ _
      have hlist := h.list.imp fun m hm ↦ MessageOk.mk hm.timeout (hsub hm.sent)
      have hnew : MessageOk (s.2.sent ++ [(s.1.count, (s.1.newMessage timeout notifyCb).id)])
          (s.1.newMessage timeout notifyCb) :=
        ⟨newMessage_timeout s.1 timeout notifyCb, List.mem_append_right _ List.mem_cons_self⟩
      exact ⟨hlist.call t hnew rfl, h.idle, h.visited⟩

theorem PairInv.link (h : PairInv s) (t : ℕ) : PairOk s (.link t) := by
  have hstep : matopStep s.1 (.link t) = s.1.link t := rfl
  rw [MatopContext.link] at hstep
  cases hcall : s.1.calls t with
  | none =>
      rw [hcall] at hstep
      exact pairOk_self h hstep
  | some message =>
      rw [hcall] at hstep
      apply pairOk_of_unanswered hstep
      · intro event hevent
        rw [List.mem_singleton.mp hevent]
        simp
      · refine ⟨?_, h.idle, h.visited⟩
        change Pending _ _ (s.1.visited ++ (s.1.rest ++ [message])) _ _ _ _
        rw [← List.append_assoc]
        exact h.list.acceptCall hcall

theorem PairInv.respond (h : PairInv s) (hidle : s.1.pass = none) {id : ℕ} {i : ℤ}
    {r : AtopBaseResponse} (hstep : matopStep s.1 x = s.1.respond id i r) (hcarries : x.Carries i r)
    (hid : ∀ m ∈ s.1.messageList, m.id = id → (m.id : ℤ) = i) : PairOk s x := by
  rw [MatopContext.respond] at hstep
  cases hfind : s.1.rest.find? fun message ↦ message.id = id with
  | none =>
      rw [hfind] at hstep
      exact pairOk_self h hstep
  | some message =>
      rw [hfind] at hstep
      obtain ⟨hmessage, pre, post, hrest, hpre⟩ := List.find?_eq_some_iff_append.mp hfind
      have herase : (s.1.rest.eraseP fun message ↦ message.id = id) = pre ++ post := by
        rw [hrest, List.eraseP_append_right _ (by simpa using hpre)]
        congr 1
        exact List.eraseP_cons_of_pos hmessage
      have hlist := h.list
      rw [MatopContext.messageList, h.idle hidle, List.nil_append, hrest] at hlist hid
      have hmem : message ∈ pre ++ message :: post := List.mem_append_right _ List.mem_cons_self
      apply pairOk_of_answered hstep (hlist.waits_of_mem hmem)
      · intro i' hi
        obtain rfl := Option.some.inj hi
        exact ⟨hcarries, (hlist.entries message hmem).sent,
          hid message hmem (of_decide_eq_true hmessage)⟩
      · exact fun hnone ↦ absurd hnone (by simp)
      · refine ⟨?_, h.idle, h.visited⟩
        rw [MatopContext.messageList]
        dsimp only
        rw [h.idle hidle, List.nil_append, herase]
        exact hlist.answer

theorem MatopData.Timed.response {data : MatopData} (h : data.Timed) :
    ∃ response, data.response = some response := by
  rw [MatopData.response]
  cases hresult : data.result with
  | none => exact ⟨_, rfl⟩
  | some result =>
      dsimp only
      by_cases hsuccess : result.success = true
      · obtain ⟨t, ht⟩ := Option.isSome_iff_exists.mp (h result hresult hsuccess)
        rw [if_pos hsuccess, ht]
        exact ⟨_, rfl⟩
      · exact ⟨_, if_neg hsuccess⟩

theorem PairInv.dataReceive (h : PairInv s) {root : Option MatopJson}
    (hsafe : PairSafe s (.dataReceive root)) : PairOk s (.dataReceive root) := by
  have hstep : matopStep s.1 (.dataReceive root) =
      if s.1.pass = none then s.1.dataReceive root else (s.1, []) := rfl
  split_ifs at hstep with hidle
  · rcases root with _ | ⟨_ | id, _ | data⟩
    · exact pairOk_self h hstep
    · exact pairOk_self h hstep
    · exact pairOk_self h hstep
    · exact pairOk_self h hstep
    · have hmessage := hsafe id data rfl hidle
      rw [MatopContext.dataReceive] at hstep
      cases hresponse : data.response with
      | some response =>
          rw [hresponse] at hstep
          exact h.respond hidle hstep ⟨data, rfl, hresponse⟩ fun m hm hid ↦ (hmessage m hm hid).1
      | none =>
          rw [hresponse] at hstep
          dsimp only at hstep
          split_ifs at hstep with hany
          · -- then a message of the id is there, and so is `t`
            obtain ⟨m, hm, hid⟩ := List.any_eq_true.mp hany
            have hlisted : m ∈ s.1.messageList := List.mem_append_right _ hm
            obtain ⟨response, hsome⟩ := (hmessage m hlisted (of_decide_eq_true hid)).2.response
            rw [hsome] at hresponse
            cases hresponse
          · exact pairOk_self h hstep
  · exact pairOk_self h hstep

theorem PairInv.rawdataReceive (h : PairInv s) (input : List UInt8) :
    PairOk s (.rawdataReceive input) := by
  have hstep : matopStep s.1 (.rawdataReceive input) =
      if s.1.pass = none then s.1.rawdataReceive input else (s.1, []) := rfl
  split_ifs at hstep with hidle
  · rw [MatopContext.rawdataReceive] at hstep
    split_ifs at hstep with hshort
    · exact pairOk_self h hstep
    · exact h.respond hidle hstep ⟨Nat.le_of_not_lt hshort, rfl, rfl⟩ fun m _ hm ↦ congrArg _ hm
  · exact pairOk_self h hstep

theorem PairInv.yield (h : PairInv s) : PairOk s .yield := by
  have hstep : matopStep s.1 .yield =
      if s.1.pass = none then ({ s.1 with pass := some s.1.clock }, []) else (s.1, []) := rfl
  split_ifs at hstep with hidle
  · apply pairOk_of_unanswered hstep unanswered_nil
    refine ⟨h.list, fun hnone ↦ absurd hnone (by simp), ?_⟩
    intro began hpass
    obtain rfl := Option.some.inj hpass
    refine ⟨Nat.le_refl _, fun m hm ↦ ?_⟩
    rw [h.idle hidle] at hm
    exact absurd hm List.not_mem_nil
  · exact pairOk_self h hstep

theorem PairInv.yieldEntry (h : PairInv s) {ms : ℕ} (hsafe : PairSafe s (.yieldEntry ms)) :
    PairOk s (.yieldEntry ms) := by
  have ht := h.tick ms
  have hstep : matopStep s.1 (.yieldEntry ms) = (s.1.tick ms).yieldEntry := rfl
  change ∀ began m, (s.1.tick ms).pass = some began → (s.1.tick ms).rest.head? = some m → _ at hsafe
  generalize s.1.tick ms = c at ht hstep hsafe
  rw [MatopContext.yieldEntry] at hstep
  cases hpass : c.pass with
  | none =>
      rw [hpass] at hstep
      exact pairOk_of_unanswered hstep unanswered_nil ht
  | some began =>
      obtain ⟨hbegan, hvisited⟩ := ht.visited began hpass
      have hlist := ht.list
      rw [MatopContext.messageList] at hlist
      cases hrest : c.rest with
      | nil =>
          rw [hpass, hrest] at hstep
          rw [hrest, List.append_nil] at hlist
          exact pairOk_of_yielded hstep hvisited ⟨hlist, fun _ ↦ rfl, fun _ hnone ↦ by cases hnone⟩
      | cons entry rest =>
          rw [hpass, hrest] at hstep
          rw [hrest] at hlist
          obtain ⟨hearly, hlate⟩ := hsafe began entry hpass (by rw [hrest]; rfl)
          have hmem : entry ∈ c.visited ++ entry :: rest :=
            List.mem_append_right _ List.mem_cons_self
          have htimeout := (hlist.entries entry hmem).timeout
          dsimp only at hstep
          rw [htimeout] at hstep
          split_ifs at hstep with hdue
          · apply pairOk_of_answered hstep (hlist.waits_of_mem hmem)
            · exact fun i hi ↦ absurd hi (by simp)
            · refine fun _ ↦ ⟨rfl, Nat.le_of_not_lt fun hlt ↦ ?_⟩
              exact absurd (hearly hlt) (Nat.not_le_of_lt hdue)
            · exact ⟨hlist.answer, fun _ ↦ rfl, fun _ hnone ↦ by cases hnone⟩
          · apply pairOk_of_unanswered hstep unanswered_nil
            refine ⟨?_, fun hnone ↦ absurd hnone (by simp), ?_⟩
            · rw [MatopContext.messageList]
              dsimp only
              rw [List.append_assoc]
              exact hlist
            · intro began' hpass'
              obtain rfl := Option.some.inj hpass'
              refine ⟨hbegan, fun m hm ↦ ?_⟩
              rcases List.mem_append.mp hm with hin | hin
              · exact hvisited m hin
              · rw [List.mem_singleton.mp hin]
                exact Nat.le_of_not_lt fun hlt ↦ hdue (hlate hlt)

theorem PairInv.clear (h : PairInv s) {idCnt : ℕ} (hempty : s.1.messageList = []) :
    PairInv ({ s.1 with idCnt := idCnt, visited := [], rest := [] }, s.2) := by
  have hlist := h.list
  rw [hempty] at hlist
  exact ⟨hlist, fun _ ↦ rfl, fun began hpass ↦
    ⟨(h.visited began hpass).1, fun m hm ↦ absurd hm List.not_mem_nil⟩⟩

theorem PairInv.step (h : PairInv s) (hsafe : PairSafe s x) : PairOk s x := by
  cases x with
  | tick ms => exact pairOk_of_unanswered (x := .tick ms) rfl unanswered_nil (h.tick ms)
  | request t timeout notifyCb env => exact h.request t timeout notifyCb env
  | link t => exact h.link t
  | dataReceive root => exact h.dataReceive hsafe
  | rawdataReceive input => exact h.rawdataReceive input
  | yield => exact h.yield
  | yieldEntry ms => exact h.yieldEntry hsafe
  | destory =>
      have hstep : matopStep s.1 .destory =
          if s.1.pass = none then (s.1.destory, []) else (s.1, []) := rfl
      split_ifs at hstep with hidle
      · exact pairOk_of_unanswered hstep unanswered_nil (h.clear (hsafe hidle))
      · exact pairOk_self h hstep
  | init =>
      have hstep : matopStep s.1 .init = if s.1.pass = none then (s.1.init, []) else (s.1, []) :=
        rfl
      split_ifs at hstep with hidle
      · exact pairOk_of_unanswered hstep unanswered_nil (h.clear (hsafe hidle))
      · exact pairOk_self h hstep

end Step

/-! ## Runs -/

def matopStart (clock : ℕ) : LoggedMatop := (matopInit clock, ⟨[], [], []⟩)

theorem matopStart_inv (clock : ℕ) : PairInv (matopStart clock) where
  list := Pending.nil _ _
  idle _ := rfl
  visited began hpass := by cases hpass

theorem matopMachine_inv {clock : ℕ} {xs : List MatopStep}
    (h : matopMachine.Guarded PairSafe (matopStart clock) xs) :
    PairInv (matopMachine.final (matopStart clock) xs) :=
  matopMachine.inv_final (fun _ _ hinv hsafe ↦ (hinv.step hsafe).1) (matopStart_inv clock) h

/-- Every request that is accepted is answered once, by its id or its timeout. -/
theorem request_answered (clock : ℕ) (xs : List MatopStep)
    (h : matopMachine.Guarded PairSafe (matopStart clock) xs) (k : ℕ) (x : MatopStep)
    (hk : xs[k]? = some x) : PairSound (matopMachine.final (matopStart clock) (xs.take k)) x := by
  obtain ⟨hbefore, hsafe⟩ := h.step_at hk
  exact ((matopMachine_inv hbefore).step hsafe).2

def someAtopRequest (timeout : UInt32) : MatopStep := .request 0 timeout true ⟨true, true, true⟩

def someResponse (id : ℤ) :
    MatopStep := .dataReceive (some ⟨some id, some ⟨some ⟨true, none⟩, some 5⟩⟩)

/-- Two threads request, the second has its response and the timeout of the first comes. -/
def someRequests : List MatopStep :=
  [someAtopRequest 1000, .request 1 0 true ⟨true, true, true⟩, .link 1, .link 0,
    someResponse 2, .yield, .yieldEntry 2000]

theorem request_answered_someRequests :
    PairSound (matopMachine.final (matopStart 0) (someRequests.take 6)) (.yieldEntry 2000) := by
  refine request_answered 0 someRequests ⟨trivial, trivial, trivial, trivial, ?_, trivial, ?_,
    trivial⟩ 6 _ rfl
  · intro id data hroot _ m hm hid
    cases hroot
    exact ⟨by revert m; decide, fun _ _ _ ↦ rfl⟩
  · intro began m hpass hhead
    cases hpass
    cases hhead
    decide

def PairSoundBehind (clock : ℕ) (xs : List MatopStep) (x : MatopStep) : Prop :=
  PairSound (matopMachine.final (matopStart clock) xs) x

/-- The first request made, with an id of 1. -/
def someMessage (clock : ℕ) (timeout : UInt32) :
    MqttAtopMessage := (matopInit clock).newMessage timeout true

/-- A response of the id 65537 is told to the request of the id 1; a deadline behind the wrap of the
clock is over at once; one shortly before it is never; `matop_serice_destory` and
`matop_serice_init` forget a request; and a response with success and without `t` is read through
NULL. -/
theorem request_not_answered :
    ¬PairSoundBehind 0 [someAtopRequest 0, .link 0] (someResponse 65537) ∧
    ¬PairSoundBehind (2 ^ 32 - 1000) [someAtopRequest 0, .link 0, .yield] (.yieldEntry 0) ∧
    ¬PairSoundBehind (2 ^ 32 - 1001)
      [someAtopRequest 1000, .link 0, .tick 9000, .yield, .yieldEntry 0] (.yieldEntry 0) ∧
    ¬PairSoundBehind 0 [someAtopRequest 0, .link 0] .destory ∧
    ¬PairSoundBehind 0 [someAtopRequest 0, .link 0] .init ∧
    ¬PairSoundBehind 0 [someAtopRequest 0, .link 0]
      (.dataReceive (some ⟨some 1, some ⟨some ⟨true, none⟩, none⟩⟩)) := by
  refine ⟨?_, ?_, ?_, ?_, ?_, ?_⟩
  · intro h
    obtain ⟨sent, hsent, hid⟩ :=
      (h.response (someMessage 0 0) 65537 ⟨true, none, 5, []⟩ (by decide)).2
    have hone : sent = 1 := by
      cases hsent with
      | head => rfl
      | tail _ hmem => cases hmem
    exact absurd (hone ▸ hid) (by decide)
  · intro h
    exact absurd (h.timeout (someMessage (2 ^ 32 - 1000) 0) timeoutResponse (by decide)).2
      (by decide)
  · exact fun h ↦ absurd (h.due (2 ^ 32 - 1001 + 9000) (by decide)) (by decide)
  · exact fun h ↦ absurd (h.waits 0 (by decide) (by decide)) (by decide)
  · exact fun h ↦ absurd (h.waits 0 (by decide) (by decide)) (by decide)
  · exact fun h ↦ absurd (by decide) h.defined

end TuyaOpen.Cloud
