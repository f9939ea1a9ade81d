import Mathlib.Data.Nat.Notation
import Mathlib.Logic.Function.Basic
import TuyaOpen.Common.ErrorCode

/-!
# Events

`tal_event.c`: a publisher calls the subscribers of an event node.  There is no node before the
first publish of a name; its subscribers are in a free list until then.  A call looks its node up
without a lock, and then takes the mutex of the node or, when there is none, that of the manager.
-/

namespace TuyaOpen.Tal

/-- A string in its bytes, without the zero at its end. -/
abbrev EventString := List UInt8

inductive SubscribeType where
  | normal
  | emergency
  | onetime
  deriving DecidableEq

/-- Who subscribes to what; the callback zero is NULL. -/
structure Subscriber where
  name : EventString
  desc : EventString
  cb : ℕ
  deriving DecidableEq

/-- `SUBSCRIBE_NODE_T`. -/
structure SubscribeNode extends Subscriber where
  type : SubscribeType
  deriving DecidableEq

/-- `EVENT_NODE_T`. -/
structure EventNode where
  name : EventString
  subscribeRoot : List SubscribeNode
  deriving DecidableEq

/-- A call behind its lookup: a publish that is to create its node or to dispatch on it, and the
others with the node that was found, or for the free list. -/
inductive EventCall where
  | idle
  | creating (name : EventString)
  | dispatching (name : EventString) (event : ℕ)
  | addFree (subscribe : SubscribeNode)
  | add (event : ℕ) (subscribe : SubscribeNode)
  | delFree (subscribe : Subscriber)
  | del (event : ℕ) (subscribe : Subscriber)
  deriving DecidableEq

/-- `EVENT_MANAGE_T` with the calls of the threads.  The nodes of `event_root` are numbered in their
order. -/
structure EventManage where
  eventCnt : ℕ
  event : ℕ → EventNode
  freeSubscribeRoot : List SubscribeNode
  calls : ℕ → EventCall

/-- A call begins with its lookup, and ends with a section.  The allocation in a section may fail,
and callbacks return what they will. -/
inductive EventStep where
  | publish (t : ℕ) (name : EventString)
  | subscribe (t : ℕ) (name desc : EventString) (cb : ℕ) (type : SubscribeType)
  | unsubscribe (t : ℕ) (name desc : EventString) (cb : ℕ)
  | locked (t : ℕ) (alloc : Bool) (result : Subscriber → OperateRet)

/-- What a call has done when it returns. -/
inductive EventReturn where
  | published (name : EventString) (calls : List Subscriber) (rt : OperateRet)
  | subscribed (subscribe : SubscribeNode) (rt : OperateRet)
  | unsubscribed (subscribe : Subscriber) (rt : OperateRet)
  deriving DecidableEq

def eventNameMaxLen : ℕ := 16
def eventDescMaxLen : ℕ := 32

/-- NULL is refused as the empty string is. -/
def EventNameIsValid (name : EventString) : Prop := name ≠ [] ∧ name.length ≤ eventNameMaxLen

def EventDescIsValid (desc : EventString) : Prop := desc ≠ [] ∧ desc.length ≤ eventDescMaxLen

instance (name : EventString) : Decidable (EventNameIsValid name) :=
  inferInstanceAs (Decidable (_ ∧ _))

instance (desc : EventString) : Decidable (EventDescIsValid desc) :=
  inferInstanceAs (Decidable (_ ∧ _))

/-- To the front of a list of subscribers, or to its tail. -/
def linkSubscribe (root : List SubscribeNode) (entry : SubscribeNode) : List SubscribeNode :=
  if entry.type = .emergency then entry :: root else root ++ [entry]

/-- The test of `_event_node_get_subscribe`. -/
def SubscribeNode.Matches (entry : SubscribeNode) (subscribe : Subscriber) : Prop :=
  entry.desc = subscribe.desc ∧ entry.cb = subscribe.cb

/-- The test of `_event_node_get_free_subscribe`. -/
def SubscribeNode.MatchesFree (entry : SubscribeNode) (subscribe : Subscriber) : Prop :=
  entry.name = subscribe.name ∧ entry.desc = subscribe.desc ∧ entry.cb = subscribe.cb

instance (entry : SubscribeNode) (subscribe : Subscriber) : Decidable (entry.Matches subscribe) :=
  inferInstanceAs (Decidable (_ ∧ _))

instance (entry : SubscribeNode) (subscribe : Subscriber) :
    Decidable (entry.MatchesFree subscribe) :=
  inferInstanceAs (Decidable (_ ∧ _ ∧ _))

/-- The loop of `_event_node_dispatch`: the subscribers that stay, those that are called, and the
code, which is that of the latest callback. -/
def eventNodeDispatch (result : Subscriber → OperateRet) :
    OperateRet → List SubscribeNode → List SubscribeNode × List Subscriber × OperateRet
  | rt, [] => ([], [], rt)
  | rt, entry :: rest =>
      let (root, calls, rt) :=
        eventNodeDispatch result (if entry.cb ≠ 0 then result entry.toSubscriber else rt) rest
      (if entry.type = .onetime then root else entry :: root,
        if entry.cb ≠ 0 then entry.toSubscriber :: calls else calls, rt)

/-- `_event_node_add_free_subscribe`. -/
def addFreeSubscribe (free : List SubscribeNode) (subscribe : SubscribeNode) (alloc : Bool) :
    List SubscribeNode × OperateRet :=
  match free.find? fun entry ↦ entry.MatchesFree subscribe.toSubscriber with
  | some _ => (free, oprtOk)
  | none => if alloc = false then (free, oprtMallocFailed) else (free ++ [subscribe], oprtOk)

/-- `_event_node_add_subscribe`. -/
def addSubscribe (root : List SubscribeNode) (subscribe : SubscribeNode) (alloc : Bool) :
    List SubscribeNode × OperateRet :=
  match root.find? fun entry ↦ entry.Matches subscribe.toSubscriber with
  | some _ => (root, oprtOk)
  | none => if alloc = false then (root, oprtMallocFailed)
    else (linkSubscribe root subscribe, oprtOk)

/-- `_event_node_del_free_subscribe`. -/
def delFreeSubscribe (free : List SubscribeNode) (subscribe : Subscriber) : List SubscribeNode :=
  free.eraseP fun entry ↦ entry.MatchesFree subscribe

/-- `_event_node_del_subscribe`. -/
def delSubscribe (root : List SubscribeNode) (subscribe : Subscriber) : List SubscribeNode :=
  root.eraseP fun entry ↦ entry.Matches subscribe

namespace EventManage

variable (s : EventManage)

def setCall (t : ℕ) (call : EventCall) : EventManage :=
  { s with calls := Function.update s.calls t call }

def setRoot (event : ℕ) (root : List SubscribeNode) : EventManage :=
  { s with event := Function.update s.event event { s.event event with subscribeRoot := root } }

/-- `_event_node_get`. -/
def eventNodeGet (name : EventString) : Option ℕ :=
  (List.range s.eventCnt).find? fun event ↦ (s.event event).name = name

/-- `_event_node_create_init` behind the allocation: the free subscribers of the event move to
it. -/
def eventNodeCreateInit (name : EventString) : EventManage :=
  { s with
    eventCnt := s.eventCnt + 1
    event := Function.update s.event s.eventCnt
      ⟨name, (s.freeSubscribeRoot.filter fun entry ↦ entry.name = name).foldl linkSubscribe []⟩
    freeSubscribeRoot := s.freeSubscribeRoot.filter fun entry ↦ entry.name ≠ name }

/-- The section of a call. -/
def locked (t : ℕ) (alloc : Bool) (result : Subscriber → OperateRet) :
    EventCall → EventManage × List EventReturn
  | .idle => (s, [])
  | .creating name =>
      if alloc = false then (s.setCall t .idle, [.published name [] oprtMallocFailed])
      else ((s.eventNodeCreateInit name).setCall t (.dispatching name s.eventCnt), [])
  | .dispatching name event =>
      let (root, calls, rt) := eventNodeDispatch result oprtOk (s.event event).subscribeRoot
      ((s.setRoot event root).setCall t .idle, [.published name calls rt])
  | .addFree subscribe =>
      let (free, rt) := addFreeSubscribe s.freeSubscribeRoot subscribe alloc
      ({ s.setCall t .idle with freeSubscribeRoot := free }, [.subscribed subscribe rt])
  | .add event subscribe =>
      let (root, rt) := addSubscribe (s.event event).subscribeRoot subscribe alloc
      ((s.setRoot event root).setCall t .idle, [.subscribed subscribe rt])
  | .delFree subscribe =>
      ({ s.setCall t .idle with
        freeSubscribeRoot := delFreeSubscribe s.freeSubscribeRoot subscribe },
        [.unsubscribed subscribe oprtOk])
  | .del event subscribe =>
      ((s.setRoot event (delSubscribe (s.event event).subscribeRoot subscribe)).setCall t .idle,
        [.unsubscribed subscribe oprtOk])

/-- `tal_event_publish`, up to its lookup. -/
def talEventPublish (t : ℕ) (name : EventString) : EventManage × List EventReturn :=
  if ¬EventNameIsValid name then (s, [.published name [] oprtBaseEventInvalidEventName])
  else
    match s.eventNodeGet name with
    | none => (s.setCall t (.creating name), [])
    | some event => (s.setCall t (.dispatching name event), [])

/-- `tal_event_subscribe`, up to its lookup. -/
def talEventSubscribe (t : ℕ) (subscribe : SubscribeNode) : EventManage × List EventReturn :=
  if ¬EventDescIsValid subscribe.desc then
    (s, [.subscribed subscribe oprtBaseEventInvalidEventDesc])
  else if ¬EventNameIsValid subscribe.name then
    (s, [.subscribed subscribe oprtBaseEventInvalidEventName])
  else
    match s.eventNodeGet subscribe.name with
    | none => (s.setCall t (.addFree subscribe), [])
    | some event => (s.setCall t (.add event subscribe), [])

/-- `tal_event_unsubscribe`, up to its lookup. -/
def talEventUnsubscribe (t : ℕ) (subscribe : Subscriber) : EventManage × List EventReturn :=
  if ¬EventDescIsValid subscribe.desc then
    (s, [.unsubscribed subscribe oprtBaseEventInvalidEventDesc])
  else if ¬EventNameIsValid subscribe.name then
    (s, [.unsubscribed subscribe oprtBaseEventInvalidEventName])
  else
    match s.eventNodeGet subscribe.name with
    | none => (s.setCall t (.delFree subscribe), [])
    | some event => (s.setCall t (.del event subscribe), [])

end EventManage

/-- A step that is not ready does nothing. -/
def eventStep (s : EventManage) : EventStep → EventManage × List EventReturn
  | .publish t name => if s.calls t = .idle then s.talEventPublish t name else (s, [])
  | .subscribe t name desc cb type =>
      if s.calls t = .idle then s.talEventSubscribe t ⟨⟨name, desc, cb⟩, type⟩ else (s, [])
  | .unsubscribe t name desc cb =>
      if s.calls t = .idle then s.talEventUnsubscribe t ⟨name, desc, cb⟩ else (s, [])
  | .locked t alloc result => s.locked t alloc result (s.calls t)

/-- Behind `tal_event_init`. -/
def eventInit : EventManage where
  eventCnt := 0
  event _ := ⟨[], []⟩
  freeSubscribeRoot := []
  calls _ := .idle

end TuyaOpen.Tal
