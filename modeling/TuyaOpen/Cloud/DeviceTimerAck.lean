import Mathlib.Data.List.Nodup
import TuyaOpen.Cloud.TimerList
import TuyaOpen.Lib.Mealy

/-!
# Acknowledgements of device timers

Any messages, with the two timers at any time: what a success acknowledgement says about the timers
of its message.  The acknowledgement is queued before the updates are made, and it is sent behind a
write to the KV store, which may have begun before them, from a list that they were changing.
-/

namespace TuyaOpen.Cloud

/-! ## What an acknowledgement should say -/

/-- A byte that stands for itself in a JSON string. -/
def jsonPlain (c : UInt8) : Bool := decide (0x20 ≤ c) && decide (c ≠ 0x22) && decide (c ≠ 0x5c)

def hexDigit (c : UInt8) : UInt8 := if c < 10 then 0x30 + c else 0x57 + c

def jsonEscape (s : CString) : CString := s.flatMap fun c ↦
  if jsonPlain c then [c]
  else if c < 0x20 then bytesOf "\\u00" ++ [hexDigit (c / 16), hexDigit (c % 16)]
  else [0x5c, c]

/-- The JSON of the acknowledgement with a `reqId`. -/
def ackJson (reqId : CString) (errorCode : Option CString) : CString :=
  timerSyncAck (jsonEscape reqId) errorCode

/-- The messages by their numbers: those that wait for an acknowledgement, and those whose updates
are in the list, in the text for the KV store, and in the store. -/
structure AckLog where
  received : ℕ
  waiting : List (ℕ × CString)
  inList : ℕ → Prop
  inText : ℕ → Prop
  inKv : ℕ → Prop

namespace AckLog

def init : AckLog := ⟨0, [], fun _ ↦ False, fun _ ↦ False, fun _ ↦ False⟩

/-- Messages are handled one after another, so the latest is the one that is answered at once or
whose updates are made. -/
def after (log : AckLog) : TimerEvent → AckLog
  | .received reqId => { log with
      received := log.received + 1
      waiting := log.waiting ++ [(log.received, reqId)] }
  | .acked _ => { log with waiting := log.waiting.filter fun w ↦ w.1 + 1 ≠ log.received }
  | .flushed _ _ => { log with waiting := [] }
  | .updated timers before after => { log with
      inList := Function.update log.inList (log.received - 1)
        ((timerMap before).updates timers = some (timerMap after)) }
  | .cleared => { log with inList := fun _ ↦ False }
  | .serialized text items => { log with inText := fun n ↦ text = items ∧ log.inList n }
  | .written rt => if rt = oprtOk then { log with inKv := log.inText } else log
  | .crashed => log

end AckLog

/-- The device, and what is known of its messages. -/
def timerMachine : Mealy (TimerTaskCtx × AckLog) TimerStep (List TimerEvent) where
  step s x := (((timerStep s.1 x).1, (timerStep s.1 x).2.foldl AckLog.after s.2),
    (timerStep s.1 x).2)

/-- A message that is answered at once is answered with its `reqId` and an error; a flush answers
the messages that wait, each `reqId` once; and with success only those that are stored. -/
structure AcksHonest (log : AckLog) (events : List TimerEvent) : Prop where
  own : ∀ text, .acked text ∈ events →
    ∃ reqId, .received reqId ∈ events ∧ text = ackJson reqId (some errOther)
  once : ∀ errorCode acks, .flushed errorCode acks ∈ events →
    acks.Nodup ∧ ∀ text, text ∈ acks ↔ ∃ w ∈ log.waiting, text = ackJson w.2 errorCode
  stored : ∀ acks, .flushed none acks ∈ events →
    ∀ w ∈ log.waiting, ackJson w.2 none ∈ acks → log.inKv w.1
  alive : .crashed ∉ events

/-! ## Conditions -/

/-- The KV callback has its text, and its flush is to come. -/
def TimerCallback.Saving : TimerCallback → Prop
  | .kvSerialized _ | .kvWritten => True
  | _ => False

/-- The updates are still to be made, or they could not be made. -/
def SyncCallback.InHand : SyncCallback → Prop
  | .queued _ | .counted _ => True
  | .updated _ rt => rt ≠ oprtOk
  | .idle => False

/-- The message is the one that is handled, and it is not in the list yet. -/
def InHand (s : TimerTaskCtx × AckLog) (w : ℕ × CString) : Prop :=
  s.1.syncCallback.InHand ∧ w.1 + 1 = s.2.received

/-- The list may be cleared: no message that waits is in the list and not yet in a text. -/
def ClearSafe (s : TimerTaskCtx × AckLog) : Prop :=
  s.1.timerCallback.Saving ∨ ∀ w ∈ s.2.waiting, ¬s.2.inList w.1

/-- An acknowledgement that is sent at once has its buffer, and fits it. -/
def AckSent (reqId : CString) (env : SyncEnv) : Prop :=
  env.ack = true ∧ (timerSyncAck reqId (some errOther)).length < mqttEventAckBufferLen

/-- Of a message whose acknowledgement is queued: the `reqId` fits its item, for which there is
memory, and the KV callback is not between its text and its flush. -/
def QueueSafe (s : TimerTaskCtx) (reqId : CString) (env : SyncEnv) : Prop :=
  reqId.length < reqIdLen ∧ (env.item = true ∨ reqId ∈ s.pendingAckList) ∧ ¬s.timerCallback.Saving

/-- The `reqId` of a message can stand in JSON as it is, the fields that are read are there, and the
message can be answered at once, with the list cleared, or have its acknowledgement queued. -/
def ReceiveSafe (s : TimerTaskCtx × AckLog) (reqId : CString) (env : SyncEnv) :
    Option TimerSyncData → Prop
  | none => reqId.all jsonPlain = true ∧ AckSent reqId env
  | some data => reqId.all jsonPlain = true ∧
      data.operateType.isSome ∧ data.taskId.isSome ∧ ∃ count, data.count = some count ∧
        if data.timers.length ≠ count then
          AckSent reqId env ∧ (env.sync.publish = oprtOk → ClearSafe s)
        else QueueSafe s.1 reqId env

/-- There is a buffer for each acknowledgement of a flush. -/
def FlushSafe (s : TimerTaskCtx) (alloc : ℕ → Bool) : Prop :=
  ∀ i < s.pendingAckList.length, alloc i = true

/-- A message that waits is not skipped for a full sync, and its updates can be made; the text is
made when no message is in hand, of a list that nothing touched, and written when one waits. -/
def TimerSafe (s : TimerTaskCtx × AckLog) : TimerStep → Prop
  | .receive msg env => s.1.syncCallback = .idle → ∀ reqId, msg.reqId = some reqId →
      ReceiveSafe s reqId env msg.data
  | .count => ∀ msg, s.1.syncCallback = .queued msg →
      (∃ w ∈ s.2.waiting, w.1 + 1 = s.2.received) → s.1.fullSyncInProgress = true →
        msg.operateType = timerOperateTypeFull
  | .update allocs => ∀ msg, s.1.syncCallback = .counted msg →
      Applicable allocs 0 (timerMap s.1.timerTaskList.items) msg.timers
  | .finish alloc _ => ∀ operateType rt, s.1.syncCallback = .updated operateType rt →
      rt ≠ oprtOk → FlushSafe s.1 alloc
  | .kvSerialize ok _ alloc => ∀ seen, s.1.timerCallback = .kvWalking seen →
      if ok = false then FlushSafe s.1 alloc
      else seen.isSome ∧ ∀ w ∈ s.2.waiting, ¬InHand s w
  | .kvSet rt => ∀ text, s.1.timerCallback = .kvSerialized text → rt = oprtOk ∨ s.2.waiting = []
  | .kvFlush alloc => s.1.timerCallback = .kvWritten → FlushSafe s.1 alloc
  | .fullSyncTimeout alloc => s.1.timerCallback = .fullSyncTimer → FlushSafe s.1 alloc
  | .fullSyncReq env => s.1.timerCallback = .fullSyncFlushed → env.publish = oprtOk → ClearSafe s
  | .expireKv | .kvWalk | .expireFullSync => True

/-! ## Texts -/

section Texts

variable {reqId : CString} {errorCode : Option CString}

theorem jsonEscape_plain {s : CString} (h : s.all jsonPlain = true) : jsonEscape s = s := by
  induction s with
  | nil => rfl
  | cons c s ih =>
      obtain ⟨hc, hs⟩ := Bool.and_eq_true_iff.mp (List.all_cons.symm.trans h)
      rw [jsonEscape, List.flatMap_cons, if_pos hc]
      exact congrArg (c :: ·) (ih hs)

theorem ackJson_plain (h : reqId.all jsonPlain = true) (errorCode : Option CString) :
    ackJson reqId errorCode = timerSyncAck reqId errorCode := by
  rw [ackJson, jsonEscape_plain h]

theorem timerSyncAck_injective (errorCode : Option CString) :
    Function.Injective fun reqId ↦ timerSyncAck reqId errorCode := by
  intro a b h
  cases errorCode with
  | none => exact List.append_cancel_left (List.append_cancel_right h)
  | some errorCode =>
      exact List.append_cancel_left
        (List.append_cancel_right (List.append_cancel_right (List.append_cancel_right h)))

/-- The codes that are flushed. -/
def FlushCode (errorCode : Option CString) : Prop := errorCode = none ∨ errorCode = some errOther

theorem length_timerSyncAck_lt (hcode : FlushCode errorCode) (h : reqId.length < reqIdLen) :
    (timerSyncAck reqId errorCode).length < mqttEventAckBufferLen := by
  have hhead : (bytesOf "\x7b\"reqType\":\"timer_sync\",\"reqId\":\"").length = 33 := by decide
  have hsuccess : (bytesOf "\",\"success\":true\x7d").length = 17 := by decide
  have herror : (bytesOf "\",\"success\":false,\"errorCode\":\"").length = 31 := by decide
  have htail : (errOther ++ bytesOf "\"\x7d").length = 7 := by decide
  rw [reqIdLen] at h
  rw [mqttEventAckBufferLen]
  rcases hcode with rfl | rfl
  · rw [timerSyncAck, List.length_append, List.length_append]
    omega
  · rw [timerSyncAck, List.append_assoc _ errOther, List.length_append, List.length_append,
      List.length_append]
    omega

theorem sendTimerSyncAck_fits (h : (timerSyncAck reqId errorCode).length < mqttEventAckBufferLen) :
    sendTimerSyncAck reqId errorCode true = some (timerSyncAck reqId errorCode) := by
  rw [sendTimerSyncAck, if_neg (by decide), snprintf, List.take_of_length_le (by omega)]

theorem sendPendingAcks_eq {pending : List CString} {alloc : ℕ → Bool}
    (hfit : ∀ reqId ∈ pending, (timerSyncAck reqId errorCode).length < mqttEventAckBufferLen)
    (i : ℕ) (halloc : ∀ j < pending.length, alloc (i + j) = true) :
    sendPendingAcks errorCode alloc i pending =
      pending.map fun reqId ↦ timerSyncAck reqId errorCode := by
  induction pending generalizing i with
  | nil => rfl
  | cons reqId rest ih =>
      have hhead : alloc i = true := halloc 0 (Nat.succ_pos _)
      have hrest : ∀ j < rest.length, alloc (i + 1 + j) = true := by
        intro j hj
        rw [Nat.add_assoc, Nat.add_comm 1 j]
        exact halloc (j + 1) (Nat.succ_lt_succ hj)
      rw [sendPendingAcks, hhead, sendTimerSyncAck_fits (hfit reqId (by simp)),
        ih (fun r hr ↦ hfit r (List.mem_cons_of_mem _ hr)) (i + 1) hrest]
      rfl

end Texts

/-! ## The invariant -/

/-- By where the KV callback is: the messages that wait are in its text, are stored, or are in the
list when they are not in hand. -/
def Saved (s : TimerTaskCtx × AckLog) : TimerCallback → Prop
  | .kvSerialized _ => ∀ w ∈ s.2.waiting, s.2.inText w.1
  | .kvWritten => ∀ w ∈ s.2.waiting, s.2.inKv w.1
  | _ => ∀ w ∈ s.2.waiting, ¬InHand s w → s.2.inList w.1

/-- The lists that the store holds, or is to hold, can be started from. -/
structure KvOk (kv : Option TimerTaskList) (timer : TimerCallback) : Prop where
  stored : ∀ list, kv = some list → ListOk list.items
  text : ∀ text, timer = .kvSerialized text → ListOk text.items

/-- What a walk reads that nothing touches is the list, and no updates are made. -/
def WalkOk (s : TimerTaskCtx) : Prop := ∀ seen, s.timerCallback = .kvWalking (some seen) →
  seen.items = s.timerTaskList.items ∧ ∀ msg, s.syncCallback ≠ .counted msg

structure AckInv (s : TimerTaskCtx × AckLog) : Prop where
  inited : s.1.inited = true
  list : ListOk s.1.timerTaskList.items
  walk : WalkOk s.1
  kv : KvOk s.1.kv s.1.timerCallback
  nodup : s.1.pendingAckList.Nodup
  fits : ∀ reqId ∈ s.1.pendingAckList, reqId.length < reqIdLen ∧ reqId.all jsonPlain = true
  pending : ∀ reqId, reqId ∈ s.1.pendingAckList ↔ ∃ w ∈ s.2.waiting, w.2 = reqId
  number : ∀ w ∈ s.2.waiting, w.1 < s.2.received
  saved : Saved s s.1.timerCallback

/-- What a section does, and what it leaves. -/
structure Sound (log : AckLog) (r : TimerTaskCtx × List TimerEvent) : Prop where
  honest : AcksHonest log r.2
  inv : AckInv (r.1, r.2.foldl AckLog.after log)

section Invariant

variable {s c : TimerTaskCtx} {log : AckLog}

theorem not_saving_of_idle {timer : TimerCallback} (h : timer = .idle) : ¬timer.Saving := by
  rw [h]
  exact fun hsaving ↦ hsaving

theorem saved_of_not_saving {timer : TimerCallback} (h : ¬timer.Saving)
    (p : TimerTaskCtx × AckLog) :
    Saved p timer ↔ ∀ w ∈ p.2.waiting, ¬InHand p w → p.2.inList w.1 := by
  cases timer with
  | kvSerialized | kvWritten => exact absurd trivial h
  | idle | kvTimer | kvWalking | fullSyncTimer | fullSyncFlushed => exact Iff.rfl

theorem KvOk.of_not_saving {kv : Option TimerTaskList} {timer timer' : TimerCallback}
    (h : KvOk kv timer) (hnot : ¬timer'.Saving) : KvOk kv timer' := by
  refine ⟨h.stored, fun text htext ↦ ?_⟩
  rw [htext] at hnot
  exact absurd trivial hnot

theorem not_inHand_of_idle (hidle : s.syncCallback = .idle) (w : ℕ × CString) :
    ¬InHand (s, log) w := by
  rintro ⟨hhand, _⟩
  change s.syncCallback.InHand at hhand
  rw [hidle] at hhand
  exact hhand

theorem Saved.congr {p q : TimerTaskCtx × AckLog} {timer : TimerCallback} (h : Saved p timer)
    (hwaiting : q.2.waiting = p.2.waiting) (htext : q.2.inText = p.2.inText)
    (hkv : q.2.inKv = p.2.inKv)
    (hlist : ¬timer.Saving → ∀ w ∈ q.2.waiting, ¬InHand q w → q.2.inList w.1) : Saved q timer := by
  cases timer with
  | kvSerialized =>
      rw [Saved, hwaiting, htext]
      exact h
  | kvWritten =>
      rw [Saved, hwaiting, hkv]
      exact h
  | idle | kvTimer | kvWalking | fullSyncTimer | fullSyncFlushed =>
    exact hlist fun hsaving ↦ hsaving

theorem AckInv.congr (h : AckInv (s, log)) (hinited : c.inited = s.inited)
    (hitems : c.timerTaskList.items = s.timerTaskList.items)
    (hpending : c.pendingAckList = s.pendingAckList)
    (hsync : c.syncCallback.InHand ↔ s.syncCallback.InHand) (hkv : c.kv = s.kv) (hwalk : WalkOk c)
    (htimer : c.timerCallback = s.timerCallback ∨
      ¬c.timerCallback.Saving ∧ ¬s.timerCallback.Saving) : AckInv (c, log) where
  inited := hinited.trans h.inited
  list := hitems ▸ h.list
  walk := hwalk
  kv := by
    change KvOk c.kv c.timerCallback
    rw [hkv]
    rcases htimer with htimer | ⟨hc, _⟩
    · rw [htimer]
      exact h.kv
    · exact h.kv.of_not_saving hc
  nodup := hpending ▸ h.nodup
  fits := hpending ▸ h.fits
  pending := hpending ▸ h.pending
  number := h.number
  saved := by
    have hhand : ∀ w, InHand (c, log) w ↔ InHand (s, log) w := by
      intro w
      exact and_congr hsync Iff.rfl
    rcases htimer with htimer | ⟨hc, hs⟩
    · change Saved (c, log) c.timerCallback
      rw [htimer]
      refine h.saved.congr (q := (c, log)) rfl rfl rfl ?_
      intro hsaving w hw hnot
      exact (saved_of_not_saving hsaving _).mp h.saved w hw (mt (hhand w).mpr hnot)
    · refine (saved_of_not_saving hc _).mpr fun w hw hnot ↦ ?_
      exact (saved_of_not_saving hs _).mp h.saved w hw (mt (hhand w).mpr hnot)

theorem AckInv.of_flushed (h : AckInv (s, log)) (hinited : c.inited = s.inited)
    (hlist : ListOk c.timerTaskList.items) (hwalk : WalkOk c) (hkv : KvOk c.kv c.timerCallback)
    (hpending : c.pendingAckList = []) : AckInv (c, { log with waiting := [] }) where
  inited := hinited.trans h.inited
  list := hlist
  walk := hwalk
  kv := hkv
  nodup := hpending ▸ List.nodup_nil
  fits := by
    intro reqId hreqId
    change reqId ∈ c.pendingAckList at hreqId
    rw [hpending] at hreqId
    cases hreqId
  pending := by
    intro reqId
    change reqId ∈ c.pendingAckList ↔ _
    simp [hpending]
  number := by simp
  saved := by
    change Saved _ c.timerCallback
    cases c.timerCallback <;> simp [Saved]

theorem AcksHonest.of_nil (log : AckLog) : AcksHonest log [] :=
  ⟨by simp, by simp, by simp, by simp⟩

theorem AckInv.flush_honest (h : AckInv (s, log)) {errorCode : Option CString}
    (hcode : FlushCode errorCode) {alloc : ℕ → Bool} (halloc : FlushSafe s alloc)
    (hstored : errorCode = none → ∀ w ∈ log.waiting, log.inKv w.1) :
    AcksHonest log [.flushed errorCode (sendPendingAcks errorCode alloc 0 s.pendingAckList)] := by
  have hacks : sendPendingAcks errorCode alloc 0 s.pendingAckList =
      s.pendingAckList.map fun reqId ↦ timerSyncAck reqId errorCode := by
    apply sendPendingAcks_eq
    · exact fun reqId hreqId ↦ length_timerSyncAck_lt hcode (h.fits reqId hreqId).1
    · simpa [FlushSafe] using halloc
  have hmem : ∀ text, text ∈ sendPendingAcks errorCode alloc 0 s.pendingAckList ↔
      ∃ w ∈ log.waiting, text = ackJson w.2 errorCode := by
    intro text
    rw [hacks, List.mem_map]
    constructor
    · rintro ⟨reqId, hreqId, rfl⟩
      obtain ⟨w, hw, rfl⟩ := (h.pending reqId).mp hreqId
      exact ⟨w, hw, (ackJson_plain (h.fits _ hreqId).2 errorCode).symm⟩
    · rintro ⟨w, hw, rfl⟩
      have hreqId := (h.pending w.2).mpr ⟨w, hw, rfl⟩
      exact ⟨w.2, hreqId, (ackJson_plain (h.fits _ hreqId).2 errorCode).symm⟩
  refine ⟨by simp, ?_, ?_, by simp⟩
  · intro errorCode' acks hflushed
    obtain ⟨rfl, rfl⟩ := TimerEvent.flushed.inj (List.mem_singleton.mp hflushed)
    exact ⟨hacks ▸ h.nodup.map (timerSyncAck_injective errorCode'), hmem⟩
  · intro acks hflushed w hw _
    obtain ⟨rfl, _⟩ := TimerEvent.flushed.inj (List.mem_singleton.mp hflushed)
    exact hstored rfl w hw

theorem AcksHonest.clear {events : List TimerEvent} (h : AcksHonest log events) :
    AcksHonest log (events ++ [.cleared]) where
  own text htext := by
    obtain ⟨reqId, hreqId, rfl⟩ := h.own text (by simpa using htext)
    exact ⟨reqId, by simp [hreqId], rfl⟩
  once errorCode acks hacks := h.once errorCode acks (by simpa using hacks)
  stored acks hacks := h.stored acks (by simpa using hacks)
  alive hcrash := h.alive (by simpa using hcrash)

theorem AckInv.clear (h : AckInv (s, log)) (hsafe : ClearSafe (s, log)) :
    AckInv (s, log.after .cleared) where
  inited := h.inited
  list := h.list
  walk := h.walk
  kv := h.kv
  nodup := h.nodup
  fits := h.fits
  pending := h.pending
  number := h.number
  saved := by
    refine h.saved.congr (q := (s, log.after .cleared)) rfl rfl rfl ?_
    intro hsaving w hw hnot
    have hin : log.inList w.1 := (saved_of_not_saving hsaving _).mp h.saved w hw hnot
    exact absurd hin (hsafe.resolve_left hsaving w hw)

theorem touchList_cases (s : TimerTaskCtx) :
    s.touchList.timerCallback = .kvWalking none ∧ ¬s.timerCallback.Saving ∨
      s.touchList.timerCallback = s.timerCallback ∧ ∀ seen, s.timerCallback ≠ .kvWalking seen := by
  rw [TimerTaskCtx.touchList]
  cases s.timerCallback with
  | kvWalking => exact .inl ⟨rfl, fun hsaving ↦ hsaving⟩
  | _ => exact .inr ⟨rfl, by simp⟩

theorem touchList_walking (s : TimerTaskCtx) (seen : TimerTaskList) :
    s.touchList.timerCallback ≠ .kvWalking (some seen) := by
  intro hseen
  rcases touchList_cases s with ⟨htouch, _⟩ | ⟨htouch, hnot⟩
  · cases hseen.symm.trans htouch
  · exact hnot _ (htouch.symm.trans hseen)

theorem AckInv.touch (h : AckInv (s, log)) : AckInv (s.touchList, log) := by
  refine h.congr rfl rfl rfl .rfl rfl (fun seen hseen ↦ absurd hseen (touchList_walking s seen)) ?_
  rcases touchList_cases s with ⟨htouch, hnot⟩ | ⟨htouch, _⟩
  · rw [htouch]
    exact .inr ⟨fun hsaving ↦ hsaving, hnot⟩
  · exact .inl htouch

theorem ClearSafe.touch (h : ClearSafe (s, log)) : ClearSafe (s.touchList, log) := by
  refine h.imp_left fun hsaving ↦ ?_
  rcases touchList_cases s with ⟨_, hnot⟩ | ⟨htouch, _⟩
  · exact absurd hsaving hnot
  · change s.touchList.timerCallback.Saving
    rw [htouch]
    exact hsaving

theorem AckInv.fullSyncReq (h : AckInv (s, log)) {env : FullSyncEnv}
    (hsafe : env.publish = oprtOk → ClearSafe (s, log)) :
    AckInv ((s.fullSyncReq env).1, (s.fullSyncReq env).2.foldl AckLog.after log) := by
  rw [TimerTaskCtx.fullSyncReq, if_neg (by simpa using h.inited)]
  by_cases hpublish : env.publish = oprtOk
  · rw [if_neg (not_not.mpr hpublish)]
    have hclear := h.touch.clear (hsafe hpublish).touch
    exact {
      inited := h.inited
      list := ⟨List.nodup_nil, by simp [TimerTaskList.clear]⟩
      walk := fun seen hseen ↦ absurd hseen (touchList_walking s seen)
      kv := hclear.kv
      nodup := h.nodup
      fits := h.fits
      pending := h.pending
      number := h.number
      saved := hclear.saved }
  · rw [if_pos hpublish]
    exact h

theorem fullSyncReq_events (s : TimerTaskCtx) (env : FullSyncEnv) :
    (s.fullSyncReq env).2 = [] ∨ (s.fullSyncReq env).2 = [.cleared] := by
  rw [TimerTaskCtx.fullSyncReq]
  by_cases hinited : s.inited = false
  · exact .inl (by rw [if_pos hinited])
  · rw [if_neg hinited]
    by_cases hpublish : env.publish = oprtOk
    · exact .inr (by rw [if_neg (not_not.mpr hpublish)])
    · exact .inl (by rw [if_pos hpublish])

theorem AcksHonest.fullSyncReq {events : List TimerEvent} (h : AcksHonest log events)
    (s : TimerTaskCtx) (env : FullSyncEnv) : AcksHonest log (events ++ (s.fullSyncReq env).2) := by
  rcases fullSyncReq_events s env with hevents | hevents
  · rw [hevents, List.append_nil]
    exact h
  · rw [hevents]
    exact h.clear

end Invariant

/-! ## Sections -/

section Sections

variable {s : TimerTaskCtx} {log : AckLog}

theorem AckInv.quiet {c : TimerTaskCtx} (h : AckInv (c, log)) : Sound log (c, []) :=
  ⟨.of_nil log, h⟩

theorem AckInv.after_answer (h : AckInv (s, log)) (reqId text : CString) :
    (log.after (.received reqId)).after (.acked text) =
    { log with received := log.received + 1 } := by
  have hkeep : log.waiting.filter (fun w ↦ w.1 + 1 ≠ log.received + 1) = log.waiting := by
    rw [List.filter_eq_self]
    intro w hw
    have hlt : w.1 < log.received := h.number w hw
    exact decide_eq_true (by omega)
  have hwaiting : (log.waiting ++ [(log.received, reqId)]).filter
      (fun w ↦ w.1 + 1 ≠ log.received + 1) = log.waiting := by
    rw [List.filter_append, hkeep, List.filter_cons_of_neg (by simp), List.filter_nil,
      List.append_nil]
  rw [AckLog.after, AckLog.after]
  exact congrArg (fun waiting ↦ { log with received := log.received + 1, waiting := waiting })
    hwaiting

theorem AckInv.answered (h : AckInv (s, log)) (hidle : s.syncCallback = .idle) :
    AckInv (s, { log with received := log.received + 1 }) where
  inited := h.inited
  list := h.list
  walk := h.walk
  kv := h.kv
  nodup := h.nodup
  fits := h.fits
  pending := h.pending
  number w hw := Nat.lt_succ_of_lt (h.number w hw)
  saved := by
    refine h.saved.congr (q := (s, { log with received := log.received + 1 })) rfl rfl rfl ?_
    intro hsaving w hw _
    exact (saved_of_not_saving hsaving (s, log)).mp h.saved w hw (not_inHand_of_idle hidle w)

theorem AckInv.answer_honest (h : AckInv (s, log)) {reqId : CString}
    (hplain : reqId.all jsonPlain = true) {env : SyncEnv} (hsent : AckSent reqId env)
    (hidle : s.syncCallback = .idle) :
    ∃ text, (sendTimerSyncAck reqId (some errOther) env.ack).map TimerEvent.acked =
        some (.acked text) ∧
      AcksHonest log [.received reqId, .acked text] ∧
      AckInv (s, [.received reqId, .acked text].foldl AckLog.after log) := by
  refine ⟨timerSyncAck reqId (some errOther), ?_, ⟨?_, by simp, by simp, by simp⟩, ?_⟩
  · rw [hsent.1, sendTimerSyncAck_fits hsent.2, Option.map_some]
  · intro text htext
    obtain rfl : text = timerSyncAck reqId (some errOther) := by simpa using htext
    exact ⟨reqId, by simp, (ackJson_plain hplain _).symm⟩
  · rw [List.foldl_cons, List.foldl_cons, List.foldl_nil, h.after_answer]
    exact h.answered hidle

theorem AckInv.enqueueAck (h : AckInv (s, log)) {reqId : CString}
    (hplain : reqId.all jsonPlain = true) {env : SyncEnv} (hsafe : QueueSafe s reqId env)
    (hidle : s.syncCallback = .idle) (msg : QueuedSync) :
    AckInv ({ s.enqueueAck reqId env.item env.create with syncCallback := .queued msg },
      log.after (.received reqId)) := by
  obtain ⟨hshort, hitem, hsaving⟩ := hsafe
  have hhas : pendingAckListHas s.pendingAckList reqId ↔ reqId ∈ s.pendingAckList := by
    constructor
    · rintro ⟨item, hin, heq⟩
      rw [← (strncmpEq_iff (h.fits item hin).1).mp heq]
      exact hin
    · exact fun hin ↦ ⟨reqId, hin, rfl⟩
  -- The item is there, or it is put behind the others.
  have hpending : (s.enqueueAck reqId env.item env.create).pendingAckList =
      if reqId ∈ s.pendingAckList then s.pendingAckList else s.pendingAckList ++ [reqId] := by
    rw [TimerTaskCtx.enqueueAck]
    dsimp only
    rw [strncpy_of_lt hshort]
    by_cases hin : reqId ∈ s.pendingAckList
    · rw [if_pos (.inr (hhas.mpr hin)), if_pos hin]
    · have halloc := hitem.resolve_right hin
      rw [if_neg (by simp [halloc, hhas, hin]), if_neg hin]
  have hmem : ∀ r, r ∈ (s.enqueueAck reqId env.item env.create).pendingAckList ↔
      r ∈ s.pendingAckList ∨ r = reqId := by
    intro r
    rw [hpending]
    by_cases hin : reqId ∈ s.pendingAckList
    · rw [if_pos hin]
      constructor
      · exact .inl
      · rintro (hr | rfl)
        · exact hr
        · exact hin
    · rw [if_neg hin, List.mem_append, List.mem_singleton]
  exact {
    inited := h.inited
    list := h.list
    walk := fun seen hseen ↦ ⟨(h.walk seen hseen).1, by simp⟩
    kv := h.kv
    nodup := by
      change (s.enqueueAck reqId env.item env.create).pendingAckList.Nodup
      rw [hpending]
      by_cases hin : reqId ∈ s.pendingAckList
      · rw [if_pos hin]
        exact h.nodup
      · rw [if_neg hin, List.nodup_append]
        refine ⟨h.nodup, List.nodup_singleton _, ?_⟩
        intro a ha b hb
        rw [List.mem_singleton.mp hb]
        rintro rfl
        exact hin ha
    fits := by
      intro r hr
      rcases (hmem r).mp hr with hr | rfl
      · exact h.fits r hr
      · exact ⟨hshort, hplain⟩
    pending := by
      intro r
      refine (hmem r).trans ?_
      constructor
      · rintro (hr | rfl)
        · obtain ⟨w, hw, hwr⟩ := (h.pending r).mp hr
          exact ⟨w, List.mem_append_left _ hw, hwr⟩
        · exact ⟨_, List.mem_append_right _ List.mem_cons_self, rfl⟩
      · rintro ⟨w, hw, hwr⟩
        rcases List.mem_append.mp hw with hw | hw
        · exact .inl ((h.pending r).mpr ⟨w, hw, hwr⟩)
        · rw [List.mem_singleton.mp hw] at hwr
          exact .inr hwr.symm
    number := by
      intro w hw
      rcases List.mem_append.mp hw with hw | hw
      · exact Nat.lt_succ_of_lt (h.number w hw)
      · rw [List.mem_singleton.mp hw]
        exact Nat.lt_succ_self _
    saved := by
      refine (saved_of_not_saving hsaving _).mpr ?_
      intro w hw hnot
      rcases List.mem_append.mp hw with hw | hw
      · exact (saved_of_not_saving hsaving (s, log)).mp h.saved w hw (not_inHand_of_idle hidle w)
      · rw [List.mem_singleton.mp hw] at hnot
        exact absurd ⟨trivial, rfl⟩ hnot }

theorem AckInv.receive (h : AckInv (s, log)) (hidle : s.syncCallback = .idle) {reqId : CString}
    {env : SyncEnv} {data : Option TimerSyncData} (hsafe : ReceiveSafe (s, log) reqId env data) :
    Sound log ((s.onTimerSyncCallback reqId data env).1,
      .received reqId :: (s.onTimerSyncCallback reqId data env).2) := by
  have hinited : ¬s.inited = false := by simpa using h.inited
  cases data with
  | none =>
      obtain ⟨hplain, hsent⟩ := hsafe
      obtain ⟨text, htext, hhonest, hinv⟩ := h.answer_honest hplain hsent hidle
      rw [TimerTaskCtx.onTimerSyncCallback, if_neg hinited, htext]
      exact ⟨hhonest, hinv⟩
  | some data =>
      obtain ⟨hplain, hoperate, htask, count, hcount, hsafe⟩ := hsafe
      obtain ⟨operateType, hoperate⟩ := Option.isSome_iff_exists.mp hoperate
      obtain ⟨taskId, htask⟩ := Option.isSome_iff_exists.mp htask
      rw [TimerTaskCtx.onTimerSyncCallback, if_neg hinited]
      dsimp only
      rw [hcount, hoperate, htask]
      dsimp only
      have hset : AckInv (s.setLastTaskId taskId, log) := by
        cases taskId with
        | none => exact h
        | some taskId => exact h.congr rfl rfl rfl .rfl rfl h.walk (.inl rfl)
      have hidleSet : (s.setLastTaskId taskId).syncCallback = .idle := by
        cases taskId <;> exact hidle
      have htimer : (s.setLastTaskId taskId).timerCallback = s.timerCallback := by
        cases taskId <;> rfl
      by_cases hmatch : (data.timers.length : ℤ) = count
      · rw [if_neg (not_not.mpr hmatch)] at hsafe
        rw [if_neg (not_not.mpr hmatch)]
        have hqueue : QueueSafe (s.setLastTaskId taskId) reqId env := by
          obtain ⟨hshort, hitem, hsaving⟩ := hsafe
          refine ⟨hshort, ?_, ?_⟩
          · cases taskId <;> exact hitem
          · rw [htimer]
            exact hsaving
        exact ⟨⟨by simp, by simp, by simp, by simp⟩, hset.enqueueAck hplain hqueue hidleSet _⟩
      · rw [if_pos hmatch] at hsafe
        rw [if_pos hmatch]
        obtain ⟨hsent, hclear⟩ := hsafe
        obtain ⟨text, htext, hhonest, _⟩ := hset.answer_honest hplain hsent hidleSet
        rw [htext]
        refine ⟨hhonest.fullSyncReq _ _, ?_⟩
        change AckInv (_, ([.received reqId, .acked text] ++ _).foldl AckLog.after log)
        rw [List.foldl_append, List.foldl_cons, List.foldl_cons, List.foldl_nil, h.after_answer]
        apply (hset.answered hidleSet).fullSyncReq
        intro hpublish
        rw [ClearSafe, htimer]
        exact hclear hpublish

theorem AckInv.idle (h : AckInv (s, log)) (hfree : ∀ w ∈ log.waiting, ¬InHand (s, log) w) :
    AckInv ({ s with syncCallback := .idle }, log) where
  inited := h.inited
  list := h.list
  walk seen hseen := ⟨(h.walk seen hseen).1, by simp⟩
  kv := h.kv
  nodup := h.nodup
  fits := h.fits
  pending := h.pending
  number := h.number
  saved := by
    refine h.saved.congr (q := ({ s with syncCallback := .idle }, log)) rfl rfl rfl ?_
    intro hsaving w hw _
    exact (saved_of_not_saving hsaving (s, log)).mp h.saved w hw (hfree w hw)

theorem AckInv.count (h : AckInv (s, log)) {msg : QueuedSync}
    (hqueued : s.syncCallback = .queued msg)
    (hskip : (∃ w ∈ log.waiting, w.1 + 1 = log.received) → s.fullSyncInProgress = true →
      msg.operateType = timerOperateTypeFull) :
    AckInv (s.countSync msg, log) := by
  have hhand : (SyncCallback.counted msg).InHand ↔ s.syncCallback.InHand := by
    rw [hqueued]
    exact Iff.rfl
  rw [TimerTaskCtx.countSync]
  by_cases hprogress : s.fullSyncInProgress = true ∧ msg.operateType ≠ timerOperateTypeFull
  · rw [if_pos hprogress]
    apply h.idle
    intro w hw hhand
    exact hprogress.2 (hskip ⟨w, hw, hhand.2⟩ hprogress.1)
  · rw [if_neg hprogress]
    have hwalk : ∀ seen, s.touchList.timerCallback ≠ .kvWalking (some seen) := touchList_walking s
    by_cases hfull : msg.operateType = timerOperateTypeFull ∧ s.fullSyncInProgress = true
    · rw [if_pos hfull]
      exact h.touch.congr rfl rfl rfl hhand rfl (fun seen hseen ↦ absurd hseen (hwalk seen))
        (.inl rfl)
    · rw [if_neg hfull]
      exact h.touch.congr rfl rfl rfl hhand rfl (fun seen hseen ↦ absurd hseen (hwalk seen))
        (.inl rfl)

theorem AckInv.update (h : AckInv (s, log)) {msg : QueuedSync}
    (hcounted : s.syncCallback = .counted msg) {allocs : ℕ → TimerAlloc}
    (hsafe : Applicable allocs 0 (timerMap s.timerTaskList.items) msg.timers) :
    Sound log (s.updateTimers msg allocs) := by
  obtain ⟨hlist, hupdates⟩ := applyTimerUpdates_spec allocs h.list hsafe
  rw [TimerTaskCtx.updateTimers]
  revert hlist hupdates
  generalize applyTimerUpdates allocs 0 s.timerTaskList msg.timers = r
  intro hlist hupdates
  refine ⟨⟨by simp, by simp, by simp, by simp⟩, ?_⟩
  exact {
    inited := h.inited
    list := hlist
    walk := fun seen hseen ↦ absurd hcounted ((h.walk seen hseen).2 msg)
    kv := h.kv
    nodup := h.nodup
    fits := h.fits
    pending := h.pending
    number := h.number
    saved := by
      refine h.saved.congr (q := (_, log.after (.updated msg.timers _ _))) rfl rfl rfl ?_
      intro hsaving w hw hnot
      have hlt : w.1 < log.received := h.number w hw
      change Function.update log.inList (log.received - 1) _ w.1
      by_cases hcurrent : w.1 + 1 = log.received
      · have hw1 : w.1 = log.received - 1 := by omega
        rw [hw1, Function.update_self]
        apply hupdates
        by_contra hrt
        exact hnot ⟨hrt, hcurrent⟩
      · rw [Function.update_of_ne (by omega)]
        apply (saved_of_not_saving hsaving (s, log)).mp h.saved w hw
        exact fun hhand ↦ hcurrent hhand.2 }

theorem AckInv.recover (h : AckInv (s, log)) {alloc : ℕ → Bool} (hsafe : FlushSafe s alloc)
    (env : FullSyncEnv) :
    Sound log (s.recover alloc env) ∧
      ((s.recover alloc env).2.foldl AckLog.after log).waiting = [] := by
  let flushed := { s with kvTimerId := talSwTimerStop s.kvTimerId }.pendingAckListFlush
    (some errOther) alloc
  let c := flushed.1.fullSyncReset
  have hrecover : s.recover alloc env =
      ((c.fullSyncReq env).1, flushed.2 ++ (c.fullSyncReq env).2) := rfl
  have hflushed : AckInv (c, flushed.2.foldl AckLog.after log) :=
    h.of_flushed rfl h.list h.walk h.kv rfl
  rw [hrecover]
  refine ⟨⟨(h.flush_honest (.inr rfl) hsafe (by simp)).fullSyncReq c env, ?_⟩, ?_⟩
  · rw [List.foldl_append]
    apply hflushed.fullSyncReq
    exact fun _ ↦ .inr fun w hw ↦ by cases hw
  · rw [List.foldl_append]
    rcases fullSyncReq_events c env with hevents | hevents
    · rw [hevents]
      rfl
    · rw [hevents]
      rfl

theorem AckInv.finish (h : AckInv (s, log)) {operateType : ℤ} {rt : OperateRet}
    (hupdated : s.syncCallback = .updated operateType rt) {alloc : ℕ → Bool}
    (hsafe : rt ≠ oprtOk → FlushSafe s alloc) (env : FullSyncEnv) :
    Sound log (s.finishSync operateType rt alloc env) := by
  -- Behind the recovery, if there is one, no message that waits is in hand.
  have hrecovered : ∃ r, (if rt ≠ oprtOk then s.recover alloc env else (s, [])) = r ∧ Sound log r ∧
      ∀ w ∈ (r.2.foldl AckLog.after log).waiting, ¬InHand (r.1, r.2.foldl AckLog.after log) w := by
    by_cases hrt : rt = oprtOk
    · refine ⟨(s, []), if_neg (not_not.mpr hrt), h.quiet, ?_⟩
      rintro w _ ⟨hhand, _⟩
      change s.syncCallback.InHand at hhand
      rw [hupdated] at hhand
      exact hhand hrt
    · obtain ⟨hsound, hempty⟩ := h.recover (hsafe hrt) env
      refine ⟨_, if_pos hrt, hsound, ?_⟩
      intro w hw
      rw [hempty] at hw
      cases hw
  obtain ⟨⟨c, events⟩, hr, hsound, hfree⟩ := hrecovered
  rw [TimerTaskCtx.finishSync, hr]
  refine ⟨hsound.honest, ?_⟩
  dsimp only
  split_ifs with hfull
  · exact (hsound.inv.idle hfree).congr rfl rfl rfl .rfl rfl (hsound.inv.idle hfree).walk (.inl rfl)
  · exact hsound.inv.idle hfree

theorem AckInv.drop (h : AckInv (s, log)) (timer : TimerCallback) (hnot : ¬timer.Saving)
    (hwalk : ∀ seen, timer ≠ .kvWalking seen) :
    WalkOk { s with timerCallback := timer } ∧ KvOk s.kv timer :=
  ⟨fun _ hseen ↦ absurd hseen (hwalk _), h.kv.of_not_saving hnot⟩

theorem AckInv.kvWalk (h : AckInv (s, log)) (htimer : s.timerCallback = .kvTimer) :
    AckInv (s.kvWalk, log) := by
  have hwalk : WalkOk s.kvWalk := by
    intro _ hseen
    rw [TimerTaskCtx.kvWalk] at hseen
    cases hsync : s.syncCallback with
    | counted msg => simp [hsync] at hseen
    | idle | queued | updated =>
        obtain rfl : s.timerTaskList = _ := by simpa [hsync] using hseen
        refine ⟨rfl, fun msg hcounted ↦ ?_⟩
        cases hsync.symm.trans hcounted
  refine h.congr rfl rfl rfl .rfl rfl hwalk (.inr ⟨fun hsaving ↦ hsaving, ?_⟩)
  rw [htimer]
  exact fun hsaving ↦ hsaving

theorem AckInv.kvSerialize (h : AckInv (s, log)) {seen : Option TimerTaskList}
    (htimer : s.timerCallback = .kvWalking seen) {ok : Bool} {alloc : ℕ → Bool}
    (hsafe : if ok = false then FlushSafe s alloc
      else seen.isSome ∧ ∀ w ∈ log.waiting, ¬InHand (s, log) w) (torn : Option TimerTaskList) :
    Sound log (s.kvSerialize seen ok torn alloc) := by
  rw [TimerTaskCtx.kvSerialize]
  by_cases hok : ok = false
  · rw [if_pos hok] at hsafe ⊢
    obtain ⟨hwalk, hkv⟩ := h.drop .idle (fun hsaving ↦ hsaving) (by simp)
    exact ⟨h.flush_honest (.inr rfl) hsafe (by simp), h.of_flushed rfl h.list hwalk hkv rfl⟩
  · rw [if_neg hok] at hsafe ⊢
    obtain ⟨hseen, hsafe⟩ := hsafe
    obtain ⟨text, rfl⟩ := Option.isSome_iff_exists.mp hseen
    have hitems : text.items = s.timerTaskList.items := (h.walk text htimer).1
    have hsaved := h.saved
    change Saved (s, log) s.timerCallback at hsaved
    rw [htimer] at hsaved
    refine ⟨⟨by simp, by simp, by simp, by simp⟩, ?_⟩
    exact {
      inited := h.inited
      list := h.list
      walk := fun _ hwalk ↦ by cases hwalk
      kv := ⟨h.kv.stored, fun _ htext ↦ TimerCallback.kvSerialized.inj htext ▸ hitems ▸ h.list⟩
      nodup := h.nodup
      fits := h.fits
      pending := h.pending
      number := h.number
      saved := fun w hw ↦ ⟨hitems, hsaved w hw (hsafe w hw)⟩ }

theorem AckInv.kvSet (h : AckInv (s, log)) {text : TimerTaskList}
    (htimer : s.timerCallback = .kvSerialized text) {rt : OperateRet}
    (hsafe : rt = oprtOk ∨ log.waiting = []) : Sound log (s.kvSet text rt) := by
  have hsaved := h.saved
  change Saved (s, log) s.timerCallback at hsaved
  rw [htimer] at hsaved
  have hwaiting : (log.after (.written rt)).waiting = log.waiting := by
    rw [AckLog.after]
    split_ifs <;> rfl
  have hreceived : (log.after (.written rt)).received = log.received := by
    rw [AckLog.after]
    split_ifs <;> rfl
  refine ⟨⟨by simp [TimerTaskCtx.kvSet], by simp [TimerTaskCtx.kvSet],
    by simp [TimerTaskCtx.kvSet], by simp [TimerTaskCtx.kvSet]⟩, ?_⟩
  exact {
    inited := h.inited
    list := h.list
    walk := fun _ hseen ↦ by cases hseen
    kv := by
      refine ⟨fun list hlist ↦ ?_, fun _ htext ↦ by cases htext⟩
      change (if rt = oprtOk then some text else s.kv) = some list at hlist
      split_ifs at hlist
      · exact Option.some.inj hlist ▸ h.kv.text text htimer
      · exact h.kv.stored list hlist
    nodup := h.nodup
    fits := h.fits
    pending := by
      intro reqId
      change _ ↔ ∃ w ∈ (log.after (.written rt)).waiting, w.2 = reqId
      rw [hwaiting]
      exact h.pending reqId
    number := by
      intro w hw
      change w ∈ (log.after (.written rt)).waiting at hw
      change w.1 < (log.after (.written rt)).received
      rw [hwaiting] at hw
      rw [hreceived]
      exact h.number w hw
    saved := by
      intro w hw
      change w ∈ (log.after (.written rt)).waiting at hw
      change (log.after (.written rt)).inKv w.1
      rw [hwaiting] at hw
      rcases hsafe with hrt | hempty
      · rw [AckLog.after, if_pos hrt]
        exact hsaved w hw
      · rw [hempty] at hw
        cases hw }

theorem AckInv.kvFlush (h : AckInv (s, log)) (htimer : s.timerCallback = .kvWritten)
    {alloc : ℕ → Bool} (hsafe : FlushSafe s alloc) :
    Sound log ({ s with timerCallback := .idle }.pendingAckListFlush none alloc) := by
  have hsaved := h.saved
  change Saved (s, log) s.timerCallback at hsaved
  rw [htimer] at hsaved
  obtain ⟨hwalk, hkv⟩ := h.drop .idle (fun hsaving ↦ hsaving) (by simp)
  exact ⟨h.flush_honest (.inl rfl) hsafe fun _ ↦ hsaved, h.of_flushed rfl h.list hwalk hkv rfl⟩

theorem AckInv.fullSyncTimeout (h : AckInv (s, log)) {alloc : ℕ → Bool}
    (hsafe : FlushSafe s alloc) :
    Sound log (s.fullSyncTimeout alloc) := by
  obtain ⟨hwalk, hkv⟩ := h.drop .fullSyncFlushed (fun hsaving ↦ hsaving) (by simp)
  exact ⟨h.flush_honest (.inr rfl) hsafe (by simp), h.of_flushed rfl h.list hwalk hkv rfl⟩

end Sections

/-! ## Runs -/

theorem timerStep_crashed {s : TimerTaskCtx} (h : s.crashed = true) (x : TimerStep) :
    timerStep s x = (s, []) := by
  cases x <;> exact if_pos h

theorem AckInv.step {s : TimerTaskCtx × AckLog} (h : AckInv s) {x : TimerStep}
    (hx : TimerSafe s x) :
    Sound s.2 (timerStep s.1 x) := by
  obtain ⟨s, log⟩ := s
  dsimp only
  by_cases hcrashed : s.crashed = true
  · rw [timerStep_crashed hcrashed]
    exact h.quiet
  · cases x with
    | receive msg env =>
        rw [timerStep, if_neg hcrashed]
        cases hsync : s.syncCallback with
        | idle =>
            cases hreqId : msg.reqId with
            | none => exact h.quiet
            | some reqId => exact h.receive hsync (hx hsync reqId hreqId)
        | queued | counted | updated => exact h.quiet
    | count =>
        rw [timerStep, if_neg hcrashed]
        cases hsync : s.syncCallback with
        | queued msg => exact AckInv.quiet (h.count hsync (hx msg hsync))
        | idle | counted | updated => exact h.quiet
    | update allocs =>
        rw [timerStep, if_neg hcrashed]
        cases hsync : s.syncCallback with
        | counted msg => exact h.update hsync (hx msg hsync)
        | idle | queued | updated => exact h.quiet
    | finish alloc env =>
        rw [timerStep, if_neg hcrashed]
        cases hsync : s.syncCallback with
        | updated operateType rt => exact h.finish hsync (hx operateType rt hsync) env
        | idle | queued | counted => exact h.quiet
    | expireKv =>
        rw [timerStep, if_neg hcrashed]
        split_ifs with hexpired
        · have hnot : ¬s.timerCallback.Saving := not_saving_of_idle hexpired.1
          exact AckInv.quiet (h.congr rfl rfl rfl .rfl rfl (fun _ hseen ↦ by cases hseen)
            (.inr ⟨fun hsaving ↦ hsaving, hnot⟩))
        · exact h.quiet
    | kvWalk =>
        rw [timerStep, if_neg hcrashed]
        split_ifs with htimer
        · exact AckInv.quiet (h.kvWalk htimer)
        · exact h.quiet
    | kvSerialize ok torn alloc =>
        rw [timerStep, if_neg hcrashed]
        cases htimer : s.timerCallback with
        | kvWalking seen => exact h.kvSerialize htimer (hx seen htimer) torn
        | idle | kvTimer | kvSerialized | kvWritten | fullSyncTimer | fullSyncFlushed =>
            exact h.quiet
    | kvSet rt =>
        rw [timerStep, if_neg hcrashed]
        cases htimer : s.timerCallback with
        | kvSerialized text => exact h.kvSet htimer (hx text htimer)
        | idle | kvTimer | kvWalking | kvWritten | fullSyncTimer | fullSyncFlushed => exact h.quiet
    | kvFlush alloc =>
        rw [timerStep, if_neg hcrashed]
        split_ifs with htimer
        · exact h.kvFlush htimer (hx htimer)
        · exact h.quiet
    | expireFullSync =>
        rw [timerStep, if_neg hcrashed]
        split_ifs with hexpired
        · have hnot : ¬s.timerCallback.Saving := not_saving_of_idle hexpired.1
          exact AckInv.quiet (h.congr rfl rfl rfl .rfl rfl (fun _ hseen ↦ by cases hseen)
            (.inr ⟨fun hsaving ↦ hsaving, hnot⟩))
        · exact h.quiet
    | fullSyncTimeout alloc =>
        rw [timerStep, if_neg hcrashed]
        split_ifs with htimer
        · exact h.fullSyncTimeout (hx htimer)
        · exact h.quiet
    | fullSyncReq env =>
        rw [timerStep, if_neg hcrashed]
        split_ifs with htimer
        · have hnot : ¬s.timerCallback.Saving := by
            rw [htimer]
            exact fun hsaving ↦ hsaving
          have hidle : AckInv ({ s with timerCallback := .idle }, log) :=
            h.congr rfl rfl rfl .rfl rfl (fun _ hseen ↦ by cases hseen)
              (.inr ⟨fun hsaving ↦ hsaving, hnot⟩)
          refine ⟨(AcksHonest.of_nil log).fullSyncReq _ env, ?_⟩
          apply hidle.fullSyncReq
          exact fun hpublish ↦ .inr ((hx htimer hpublish).resolve_left hnot)
        · exact h.quiet

theorem ackInv_init {kv : Option TimerTaskList} (hkv : ∀ list, kv = some list → ListOk list.items) :
    AckInv (timerInit kv, .init) where
  inited := rfl
  list := by
    cases kv with
    | none => exact ⟨List.nodup_nil, by simp [timerInit]⟩
    | some list => exact hkv list rfl
  walk _ hseen := by cases hseen
  kv := ⟨hkv, fun _ htext ↦ by cases htext⟩
  nodup := List.nodup_nil
  fits := by simp [timerInit]
  pending := by simp [timerInit, AckLog.init]
  number := by simp [AckLog.init]
  saved := by
    intro w hw
    cases hw

theorem AckInv.final {kv : Option TimerTaskList} (hkv : ∀ list, kv = some list → ListOk list.items)
    {steps : List TimerStep} (h : timerMachine.Guarded TimerSafe (timerInit kv, .init) steps) :
    AckInv (timerMachine.final (timerInit kv, .init) steps) :=
  timerMachine.inv_final (fun _ _ hs hq ↦ (hs.step hq).inv) (ackInv_init hkv) h

theorem stored_list_ok {kv : Option TimerTaskList}
    (hkv : ∀ list, kv = some list → ListOk list.items)
    {steps : List TimerStep} (h : timerMachine.Guarded TimerSafe (timerInit kv, .init) steps) :
    ∀ list, (timerMachine.final (timerInit kv, .init) steps).1.kv = some list → ListOk list.items :=
  (AckInv.final hkv h).kv.stored

end TuyaOpen.Cloud
