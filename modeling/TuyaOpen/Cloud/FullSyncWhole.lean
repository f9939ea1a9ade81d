import Mathlib.Data.List.Flatten
import Mathlib.Data.List.Perm.Subperm
import TuyaOpen.Cloud.FullSync
import TuyaOpen.Lib.Mealy

/-!
# When a full sync is complete

The batches in any order, with any other messages, timeouts and requests: what the device has when
it takes a full sync for complete.  It counts timers, and asks neither which nor of which sync.
-/

namespace TuyaOpen.Cloud

def syncMachine (cloud : ℕ → CloudSync) : Mealy SyncSystem SyncStep Unit where
  step s x := (syncStep cloud s x, ())

/-- The step goes through the branch for a complete sync. -/
def SyncSystem.Completes (s : SyncSystem) : SyncStep → Prop
  | .finish alloc env => s.ctx.crashed = false ∧ ∃ operateType rt,
      s.ctx.syncCallback = .updated operateType rt ∧
        (if rt ≠ oprtOk then (s.ctx.recover alloc env).1 else s.ctx).SyncComplete operateType
  | _ => False

/-- All timers of the current sync were received, and they are what is in the list. -/
structure SyncWhole (cloud : ℕ → CloudSync) (s : SyncSystem) : Prop where
  received : ∀ obj ∈ (cloud s.current).timers, ∃ i ∈ s.taken, obj ∈ (cloud s.current).batch i
  list : timerMap s.ctx.timerTaskList.items = timersMap (cloud s.current).timers

/-- The updates of a batch that was counted fit, there is memory for them, and no request is about
to clear them. -/
structure UpdateSafe (s : SyncSystem) (timers : List TimerJson) (allocs : ℕ → TimerAlloc) :
    Prop where
  requests : ∀ t, s.requests t ≠ .reset
  fits : ∀ obj ∈ timers, obj.Fits
  memory : ∀ j obj, timers[j]? = some obj →
    (allocs j).item = true ∧ (obj.dps.isSome → (allocs j).dps = true)

/-- A batch is between the test of the sync and its end. -/
def SyncCallback.FullInHand : SyncCallback → Prop
  | .counted msg => msg.operateType = timerOperateTypeFull
  | .updated operateType _ => operateType = timerOperateTypeFull
  | _ => False

/-- A batch that is counted is a new one of the current sync; it is neither reset by a request nor
recovered from with a request of its own.  What another message adds in a sync is yet to be
cleared. -/
def SyncSafe (cloud : ℕ → CloudSync) (s : SyncSystem) : SyncStep → Prop
  | .count => ∀ msg sync i, s.ctx.syncCallback = .queued msg → s.inHand = some (sync, i) →
      s.ctx.fullSyncInProgress = true → sync = s.current ∧ i ∉ s.taken
  | .update allocs => ∀ msg, s.ctx.syncCallback = .counted msg → s.ctx.fullSyncInProgress = true →
      if s.inHand.isSome then UpdateSafe s msg.timers allocs else ∃ t, s.requests t = .reset
  | .finish _ env => ∀ rt, s.ctx.syncCallback = .updated timerOperateTypeFull rt → rt ≠ oprtOk →
      env.publish = oprtOk → (cloud s.published).timers = []
  | .reset t _ => ∀ sync, s.requests t = .published sync → ¬s.ctx.syncCallback.FullInHand
  | _ => True

/-! ## Batches -/

theorem flatten_getD_subperm {α : Type*} (xss : List (List α)) {is : List ℕ} (hnodup : is.Nodup)
    (hlt : ∀ i ∈ is, i < xss.length) :
    (is.map fun i ↦ xss.getD i []).flatten.Subperm xss.flatten := by
  have hsub : is.Subperm (List.range xss.length) :=
    hnodup.subperm fun i hi ↦ List.mem_range.mpr (hlt i hi)
  obtain ⟨is', hperm, hsub⟩ := hsub
  have hall : (List.range xss.length).map (fun i ↦ xss.getD i []) = xss := by
    apply List.ext_getElem
    · simp
    · intro i hi hi'
      simp [List.getD_eq_getElem?_getD, hi']
  have hpick : (is'.map fun i ↦ xss.getD i []).Sublist xss := by
    have hmap := hsub.map fun i ↦ xss.getD i []
    rwa [hall] at hmap
  exact ⟨_, (hperm.map _).flatten, hpick.flatten⟩

/-- The list holds some timers of the cloud, and none that is deleted. -/
structure HoldsTimers (items : List TimerItem) (timers : List TimerJson) : Prop where
  ok : ListOk items
  live : ∀ item ∈ items, item.isDeleted = 0
  map : timerMap items = timersMap timers

theorem holdsTimers_nil : HoldsTimers [] [] := by
  refine ⟨⟨List.nodup_nil, by simp⟩, by simp, ?_⟩
  funext id
  rfl

theorem timersMap_append {old : List TimerJson} {obj : TimerJson} {id : CString}
    (hid : obj.id = some id) (hnew : Keyed.lookup TimerJson.id old (some id) = none) :
    timersMap (old ++ [obj]) = Function.update (timersMap old) id obj.toTimer := by
  funext k
  rw [timersMap, Keyed.lookup_append_singleton (hid ▸ hnew), hid]
  by_cases hk : k = id
  · rw [hk, Function.update_self, Function.update_self]
    rfl
  · rw [Function.update_of_ne (by simpa using hk), Function.update_of_ne hk]
    rfl

theorem HoldsTimers.append {list : TimerTaskList} {old : List TimerJson} {obj : TimerJson}
    (h : HoldsTimers list.items old) (hfits : obj.Fits) {id : CString} (hid : obj.id = some id)
    {timer : Timer} (htimer : obj.toTimer = some timer) (hdel : obj.isDeleted = some 0)
    (hnew : Keyed.lookup TimerJson.id old (some id) = none) {alloc : TimerAlloc}
    (halloc : alloc.item = true ∧ (obj.dps.isSome → alloc.dps = true)) :
    timerItemFind list.items id = none ∧
      ∃ item, timerItemFromJson obj alloc = (oprtOk, some item) ∧
        HoldsTimers (list.addTail item).items (old ++ [obj]) := by
  have hfind : timerItemFind list.items id = none := by
    have hnone : timerMap list.items id = none := by
      rw [h.map, timersMap, hnew]
      rfl
    rwa [timerMap, Option.map_eq_none_iff] at hnone
  obtain ⟨item, hjson, rfl, rfl⟩ := hfits.create hid htimer halloc
  have hshort := hfits.id item.id hid
  have hlive : item.isDeleted = 0 := by
    have hzero : item.toTimer.isDeleted = 0 := by
      obtain ⟨date, _, htimer⟩ := Option.bind_eq_some_iff.mp htimer
      obtain ⟨time, _, htimer⟩ := Option.bind_eq_some_iff.mp htimer
      obtain ⟨loops, _, htimer⟩ := Option.bind_eq_some_iff.mp htimer
      obtain ⟨isDeleted, hsome, htimer⟩ := Option.bind_eq_some_iff.mp htimer
      obtain ⟨t, _, htimer⟩ := Option.bind_eq_some_iff.mp htimer
      rw [← Option.some.inj htimer]
      exact Option.some.inj (hsome.symm.trans hdel)
    exact UInt8.toNat_inj.mp (Int.natCast_eq_zero.mp hzero)
  refine ⟨hfind, item, hjson, h.ok.append hshort hfind, ?_, ?_⟩
  · intro item' hitem'
    rcases List.mem_append.mp hitem' with hin | hin
    · exact h.live item' hin
    · rw [List.mem_singleton.mp hin]
      exact hlive
  · change timerMap (list.items ++ [item]) = _
    rw [h.ok.timerMap_append hshort hfind, timersMap_append hid hnew, h.map, htimer]

theorem HoldsTimers.batch {allocs : ℕ → TimerAlloc} {timers : List TimerJson} {i : ℕ}
    {list : TimerTaskList} {old : List TimerJson} (h : HoldsTimers list.items old)
    (hdistinct : Keyed.Distinct TimerJson.id (old ++ timers))
    (hcomplete : ∀ obj ∈ timers, obj.id.isSome ∧ obj.toTimer.isSome ∧ obj.isDeleted = some 0)
    (hfits : ∀ obj ∈ timers, obj.Fits)
    (halloc : ∀ j obj, timers[j]? = some obj →
      (allocs (i + j)).item = true ∧ (obj.dps.isSome → (allocs (i + j)).dps = true)) :
    (applyTimerUpdates allocs i list timers).2 = oprtOk ∧
      HoldsTimers (applyTimerUpdates allocs i list timers).1.items (old ++ timers) := by
  induction timers generalizing i list old with
  | nil =>
      have hkeep : list.items.filter (fun item ↦ item.isDeleted = 0) = list.items := by
        rw [List.filter_eq_self]
        exact fun item hitem ↦ decide_eq_true (h.live item hitem)
      rw [applyTimerUpdates, List.append_nil]
      refine ⟨rfl, ?_⟩
      rw [h.ok.removeDeleted, hkeep]
      exact h
  | cons obj rest ih =>
      obtain ⟨hid, htimer, hdel⟩ := hcomplete obj List.mem_cons_self
      obtain ⟨id, hid⟩ := Option.isSome_iff_exists.mp hid
      obtain ⟨timer, htimer⟩ := Option.isSome_iff_exists.mp htimer
      have hnew : Keyed.lookup TimerJson.id old (some id) = none := by
        rw [Keyed.lookup_eq_none]
        intro other hother heq
        rw [Keyed.Distinct, List.map_append, List.nodup_append] at hdistinct
        exact hdistinct.2.2 _ (List.mem_map_of_mem hother) (some id)
          (by rw [List.map_cons, hid]; exact List.mem_cons_self) heq
      have hmemory : (allocs i).item = true ∧ (obj.dps.isSome → (allocs i).dps = true) :=
        halloc 0 obj rfl
      obtain ⟨hfind, item, hjson, hlist⟩ :=
        h.append (hfits obj List.mem_cons_self) hid htimer hdel hnew hmemory
      have hlive : ¬obj.deletes = true := by
        rw [TimerJson.deletes, hdel]
        decide
      have hstep : applyTimerUpdates allocs i list (obj :: rest) =
          applyTimerUpdates allocs (i + 1) (list.addTail item) rest := by
        rw [applyTimerUpdates, hid]
        dsimp only
        rw [hfind]
        dsimp only
        rw [if_neg hlive, hjson]
        dsimp only
        rw [if_neg (not_not.mpr rfl)]
      have hsplit : old ++ obj :: rest = (old ++ [obj]) ++ rest := by simp
      rw [hstep, hsplit]
      apply ih hlist (hsplit ▸ hdistinct)
      · exact fun other hother ↦ hcomplete other (List.mem_cons_of_mem _ hother)
      · exact fun other hother ↦ hfits other (List.mem_cons_of_mem _ hother)
      · intro j other hother
        rw [Nat.add_assoc, Nat.add_comm 1 j]
        exact halloc (j + 1) other hother

/-! ## The invariant -/

/-- The timers of some batches of the current sync. -/
def SyncSystem.timersOf (cloud : ℕ → CloudSync) (s : SyncSystem) (batches : List ℕ) :
    List TimerJson :=
  (batches.map fun i ↦ (cloud s.current).batch i).flatten

/-- The batch whose updates are to come. -/
def SyncSystem.counted (s : SyncSystem) : Option (ℕ × ℕ) :=
  match s.ctx.syncCallback with
  | .counted _ => s.inHand
  | _ => none

/-- The message whose updates are to come. -/
def SyncCallback.Holds (callback : SyncCallback) (msg : QueuedSync) : Prop :=
  callback = .queued msg ∨ callback = .counted msg

/-- What a batch in hand leaves for the updates; another message is not of a full sync. -/
def HandOk (cloud : ℕ → CloudSync) (msg : QueuedSync) : Option (ℕ × ℕ) → Prop
  | some (sync, i) => i < (cloud sync).batches.length ∧ msg =
      ⟨((cloud sync).batch i).length, timerOperateTypeFull, (cloud sync).timers.length,
        (cloud sync).batch i⟩
  | none => msg.operateType ≠ timerOperateTypeFull

/-- The count of a sync in progress is that of the batches taken, and the list is that of the
batches applied, behind the clears; until then there are none. -/
structure SyncInv (cloud : ℕ → CloudSync) (s : SyncSystem) : Prop where
  inited : s.ctx.inited = true
  taken : s.ctx.fullSyncInProgress = true →
    s.taken.Nodup ∧ ∀ i ∈ s.taken, i < (cloud s.current).batches.length
  received : s.ctx.fullSyncInProgress = true →
    s.ctx.fullSyncReceivedCount = (s.timersOf cloud s.taken).length
  total : s.ctx.fullSyncInProgress = true → s.taken ≠ [] →
    s.ctx.fullSyncTotal = (cloud s.current).timers.length
  counted : s.ctx.fullSyncInProgress = true → ∀ sync i, s.counted = some (sync, i) →
    sync = s.current ∧ s.taken = s.applied ++ [i]
  settled : s.ctx.fullSyncInProgress = true → s.counted = none → s.taken = s.applied
  list : s.ctx.fullSyncInProgress = true → (∀ t, s.requests t ≠ .reset) →
    HoldsTimers s.ctx.timerTaskList.items (s.timersOf cloud s.applied)
  reset : s.ctx.fullSyncInProgress = true → ∀ t, s.requests t = .reset → s.applied = []
  hand : ∀ msg, s.ctx.syncCallback.Holds msg → HandOk cloud msg s.inHand
  updated : ∀ rt, s.ctx.syncCallback = .updated timerOperateTypeFull rt →
    s.ctx.fullSyncInProgress = true → s.taken ≠ [] ∧ ∀ t, s.requests t ≠ .reset

/-- Nothing of a sync changes. -/
structure SameSync (s c : TimerTaskCtx) : Prop where
  inited : c.inited = s.inited
  inProgress : c.fullSyncInProgress = s.fullSyncInProgress
  received : c.fullSyncReceivedCount = s.fullSyncReceivedCount
  total : c.fullSyncTotal = s.fullSyncTotal
  items : c.timerTaskList.items = s.timerTaskList.items

/-- Behind a request of the work queue. -/
structure Requested (c : TimerTaskCtx) : Prop where
  inited : c.inited = true
  received : c.fullSyncReceivedCount = 0
  items : c.timerTaskList.items = []
  idle : c.syncCallback = .idle

theorem SameSync.refl (s : TimerTaskCtx) : SameSync s s := ⟨rfl, rfl, rfl, rfl, rfl⟩

section Invariant

variable {cloud : ℕ → CloudSync} {s : SyncSystem} {c : TimerTaskCtx}

theorem counted_of_ne (h : ∀ msg, s.ctx.syncCallback ≠ .counted msg) : s.counted = none := by
  rw [SyncSystem.counted]
  cases hcallback : s.ctx.syncCallback with
  | counted msg => exact absurd hcallback (h msg)
  | _ => rfl

theorem counted_of_counted {msg : QueuedSync} (h : s.ctx.syncCallback = .counted msg) :
    s.counted = s.inHand := by rw [SyncSystem.counted, h]

theorem SyncInv.congr (h : SyncInv cloud s) (hsame : SameSync s.ctx c) (batch : Option (ℕ × ℕ))
    (hhand : ∀ msg, c.syncCallback.Holds msg → HandOk cloud msg batch)
    (hcounted : ({ s with ctx := c, inHand := batch } : SyncSystem).counted = s.counted)
    (hupdated : ∀ rt, c.syncCallback = .updated timerOperateTypeFull rt →
      s.ctx.syncCallback = .updated timerOperateTypeFull rt) :
    SyncInv cloud { s with ctx := c, inHand := batch } where
  inited := hsame.inited.trans h.inited
  taken hprogress := h.taken (hsame.inProgress ▸ hprogress)
  received hprogress := hsame.received.trans (h.received (hsame.inProgress ▸ hprogress))
  total hprogress hsome := hsame.total.trans (h.total (hsame.inProgress ▸ hprogress) hsome)
  counted hprogress sync i hsome :=
    h.counted (hsame.inProgress ▸ hprogress) sync i (hcounted.symm.trans hsome)
  settled hprogress hnone := h.settled (hsame.inProgress ▸ hprogress) (hcounted.symm.trans hnone)
  list hprogress hrequests := by
    change HoldsTimers c.timerTaskList.items _
    rw [hsame.items]
    exact h.list (hsame.inProgress ▸ hprogress) hrequests
  reset hprogress := h.reset (hsame.inProgress ▸ hprogress)
  hand := hhand
  updated rt hrt hprogress := h.updated rt (hupdated rt hrt) (hsame.inProgress ▸ hprogress)

theorem SyncInv.of_not_inProgress {s : SyncSystem} (hinited : s.ctx.inited = true)
    (hprogress : s.ctx.fullSyncInProgress = false)
    (hhand : ∀ msg, s.ctx.syncCallback.Holds msg → HandOk cloud msg s.inHand) :
    SyncInv cloud s := by
  have hnot : s.ctx.fullSyncInProgress ≠ true := by simp [hprogress]
  exact ⟨hinited, fun h ↦ absurd h hnot, fun h ↦ absurd h hnot, fun h ↦ absurd h hnot,
    fun h ↦ absurd h hnot, fun h ↦ absurd h hnot, fun h ↦ absurd h hnot, fun h ↦ absurd h hnot,
    hhand, fun _ _ h ↦ absurd h hnot⟩

@[simp] theorem not_holds_idle (msg : QueuedSync) : ¬SyncCallback.idle.Holds msg := by
  rintro (hmsg | hmsg) <;> cases hmsg

theorem SyncInv.of_requested {s : SyncSystem} (h : Requested s.ctx) (htaken : s.taken = [])
    (happlied : s.applied = []) : SyncInv cloud s := by
  have hnone : s.timersOf cloud [] = [] := rfl
  have hcounted : s.counted = none := by
    apply counted_of_ne
    simp [h.idle]
  refine ⟨h.inited, fun _ ↦ by simp [htaken], fun _ ↦ by simp [htaken, hnone, h.received],
    fun _ hsome ↦ absurd htaken hsome, fun _ _ _ hsome ↦ by simp [hcounted] at hsome,
    fun _ _ ↦ htaken.trans happlied.symm, fun _ _ ↦ ?_, fun _ _ _ ↦ happlied, ?_, ?_⟩
  · rw [h.items, happlied]
    exact holdsTimers_nil
  · simp [h.idle]
  · intro rt hrt
    cases hrt.symm.trans h.idle

end Invariant

/-! ## Sections of the work queue -/

section Sections

variable {c : TimerTaskCtx}

theorem cleared_of_fullSyncReq (c : TimerTaskCtx) (env : FullSyncEnv) :
    (.cleared ∉ (c.fullSyncReq env).2 ∧ (c.fullSyncReq env).1 = c) ∨
      (.cleared ∈ (c.fullSyncReq env).2 ∧ c.inited = true ∧ env.publish = oprtOk ∧
        (c.fullSyncReq env).1 = (c.fullSyncStart env.create).listClear) := by
  rw [fullSyncReq_eq]
  by_cases h : c.inited = true ∧ env.publish = oprtOk
  · rw [if_pos h]
    exact .inr ⟨by simp, h.1, h.2, rfl⟩
  · rw [if_neg h]
    exact .inl ⟨by simp, rfl⟩

theorem receive_cases (hcrashed : c.crashed = false) (hinited : c.inited = true)
    (hidle : c.syncCallback = .idle) (reqId : CString) (data : Option TimerSyncData)
    (env : SyncEnv) :
    (.cleared ∉ (timerStep c (.receive ⟨some reqId, data⟩ env)).2 ∧
        SameSync c (timerStep c (.receive ⟨some reqId, data⟩ env)).1 ∧
        ((timerStep c (.receive ⟨some reqId, data⟩ env)).1.syncCallback = .idle ∨
          ∃ d operateType, data = some d ∧ d.count = some (d.timers.length : ℤ) ∧
            d.operateType = some operateType ∧
            (timerStep c (.receive ⟨some reqId, data⟩ env)).1.syncCallback = .queued
              ⟨d.timers.length, operateType, d.total.getD d.timers.length, d.timers⟩)) ∨
      (.cleared ∈ (timerStep c (.receive ⟨some reqId, data⟩ env)).2 ∧
        Requested (timerStep c (.receive ⟨some reqId, data⟩ env)).1) := by
  rw [timerStep, if_neg (by simp [hcrashed]), hidle]
  dsimp only
  have hanswer : ∀ ack : Bool, .cleared ∉
      ((sendTimerSyncAck reqId (some errOther) ack).map TimerEvent.acked).toList := by
    intro ack hcleared
    rw [sendTimerSyncAck] at hcleared
    split_ifs at hcleared <;> simp at hcleared
  cases data with
  | none =>
      rw [TimerTaskCtx.onTimerSyncCallback, if_neg (by simp [hinited])]
      exact .inl ⟨by simp [hanswer], SameSync.refl c, .inl hidle⟩
  | some d =>
      rw [TimerTaskCtx.onTimerSyncCallback, if_neg (by simp [hinited])]
      dsimp only
      cases hcount : d.count with
      | none => exact .inl ⟨by simp, ⟨rfl, rfl, rfl, rfl, rfl⟩, .inl hidle⟩
      | some count =>
          cases hoperate : d.operateType with
          | none => exact .inl ⟨by simp, ⟨rfl, rfl, rfl, rfl, rfl⟩, .inl hidle⟩
          | some operateType =>
              cases htask : d.taskId with
              | none => exact .inl ⟨by simp, ⟨rfl, rfl, rfl, rfl, rfl⟩, .inl hidle⟩
              | some taskId =>
                  dsimp only
                  by_cases hmatch : (d.timers.length : ℤ) = count
                  · rw [if_neg (not_not.mpr hmatch)]
                    subst hmatch
                    refine .inl ⟨by simp, ?_, .inr ⟨d, operateType, rfl, hcount, hoperate, rfl⟩⟩
                    cases taskId <;> exact ⟨rfl, rfl, rfl, rfl, rfl⟩
                  · rw [if_pos hmatch]
                    have hset : (c.setLastTaskId taskId).inited = true := by
                      cases taskId <;> exact hinited
                    have hidleSet : (c.setLastTaskId taskId).syncCallback = .idle := by
                      cases taskId <;> exact hidle
                    rcases cleared_of_fullSyncReq (c.setLastTaskId taskId) env.sync with
                      ⟨hnone, hctx⟩ | ⟨hsome, _, _, hctx⟩
                    · left
                      refine ⟨by simp [hanswer, hnone], ?_, .inl (by rw [hctx]; exact hidleSet)⟩
                      rw [hctx]
                      cases taskId <;> exact ⟨rfl, rfl, rfl, rfl, rfl⟩
                    · right
                      refine ⟨by simp [hsome], ?_⟩
                      rw [hctx]
                      exact ⟨hset, rfl, rfl, hidleSet⟩

theorem countSync_of_not_inProgress (hprogress : c.fullSyncInProgress = false) (msg : QueuedSync) :
    c.countSync msg = { c.touchList with syncCallback := .counted msg } := by
  rw [TimerTaskCtx.countSync, if_neg (by simp [hprogress])]
  dsimp only
  rw [if_neg (by simp [hprogress])]

theorem countSync_skip (hprogress : c.fullSyncInProgress = true) {msg : QueuedSync}
    (hoperate : msg.operateType ≠ timerOperateTypeFull) :
    c.countSync msg = { c with syncCallback := .idle } := by
  rw [TimerTaskCtx.countSync, if_pos ⟨hprogress, hoperate⟩]

theorem countSync_count (hprogress : c.fullSyncInProgress = true) {msg : QueuedSync}
    (hoperate : msg.operateType = timerOperateTypeFull) :
    c.countSync msg = { c.touchList with
      fullSyncTotal := msg.total
      fullSyncReceivedCount := c.fullSyncReceivedCount + msg.count
      syncCallback := .counted msg } := by
  rw [TimerTaskCtx.countSync, if_neg fun h ↦ h.2 hoperate]
  dsimp only
  rw [if_pos ⟨hoperate, hprogress⟩]
  rfl

theorem recover_cases (c : TimerTaskCtx) (alloc : ℕ → Bool) (env : FullSyncEnv) :
    (.cleared ∉ (c.recover alloc env).2 ∧ (c.recover alloc env).1.inited = c.inited ∧
        (c.recover alloc env).1.fullSyncInProgress = false) ∨
      (.cleared ∈ (c.recover alloc env).2 ∧ env.publish = oprtOk ∧
        (c.recover alloc env).1.inited = true ∧
        (c.recover alloc env).1.fullSyncReceivedCount = 0 ∧
        (c.recover alloc env).1.timerTaskList.items = []) := by
  rw [TimerTaskCtx.recover]
  dsimp only [TimerTaskCtx.pendingAckListFlush]
  rcases cleared_of_fullSyncReq ({ c with
      kvTimerId := talSwTimerStop c.kvTimerId, pendingAckList := [] }.fullSyncReset) env with
    ⟨hnone, hctx⟩ | ⟨hsome, hinited, hpublish, hctx⟩
  · exact .inl ⟨by simp [hnone], by rw [hctx]; rfl, by rw [hctx]; rfl⟩
  · exact .inr ⟨by simp [hsome], hpublish, by rw [hctx]; exact hinited, by rw [hctx]; rfl,
      by rw [hctx]; rfl⟩

section Finish

variable (c : TimerTaskCtx) {operateType : ℤ} {rt : OperateRet} {alloc : ℕ → Bool}
  {env : FullSyncEnv} {r : TimerTaskCtx × List TimerEvent}

theorem finishSync_complete (hr : (if rt ≠ oprtOk then c.recover alloc env else (c, [])) = r)
    (h : r.1.SyncComplete operateType) : c.finishSync operateType rt alloc env =
      ({ r.1.fullSyncReset with
          fullSyncTimerId := talSwTimerStop r.1.fullSyncTimerId
          syncCallback := .idle }, r.2) := by
  obtain ⟨hfull, hprogress, hcount⟩ := h
  rw [TimerTaskCtx.finishSync, hr]
  dsimp only
  rw [if_pos ⟨hfull, hprogress, hcount⟩]

theorem finishSync_incomplete (hr : (if rt ≠ oprtOk then c.recover alloc env else (c, [])) = r)
    (h : ¬r.1.SyncComplete operateType) : c.finishSync operateType rt alloc env =
      ({ r.1 with syncCallback := .idle }, r.2) := by
  rw [TimerTaskCtx.SyncComplete] at h
  rw [TimerTaskCtx.finishSync, hr]
  dsimp only
  rw [if_neg h]

end Finish

end Sections

section Step

variable {cloud : ℕ → CloudSync} {s : SyncSystem}

theorem workSection_keep {r : TimerTaskCtx × List TimerEvent} (h : .cleared ∉ r.2) :
    s.workSection r = { s with ctx := r.1 } := by rw [SyncSystem.workSection, if_neg h]

theorem workSection_cleared {r : TimerTaskCtx × List TimerEvent} (h : .cleared ∈ r.2) :
    s.workSection r =
      { s with
        ctx := r.1
        published := s.published + 1
        current := s.published
        taken := []
        applied := [] } := by
  rw [SyncSystem.workSection, if_pos h]

theorem count_none {msg : QueuedSync} (hcallback : s.ctx.syncCallback = .queued msg)
    (hbatch : s.inHand = none) : s.count = s := by rw [SyncSystem.count, hcallback, hbatch]

theorem count_batch {msg : QueuedSync} (hcallback : s.ctx.syncCallback = .queued msg) {sync i : ℕ}
    (hbatch : s.inHand = some (sync, i)) : s.count =
      if s.ctx.fullSyncInProgress = true ∧ sync = s.current then { s with taken := s.taken ++ [i] }
      else s := by rw [SyncSystem.count, hcallback, hbatch]

theorem applyBatch_none {msg : QueuedSync} (hcallback : s.ctx.syncCallback = .counted msg)
    (hbatch : s.inHand = none) : s.applyBatch = s := by
  rw [SyncSystem.applyBatch, hcallback, hbatch]

theorem applyBatch_batch {msg : QueuedSync} (hcallback : s.ctx.syncCallback = .counted msg)
    {sync i : ℕ} (hbatch : s.inHand = some (sync, i)) : s.applyBatch =
      if s.ctx.fullSyncInProgress = true ∧ sync = s.current then
        { s with applied := s.applied ++ [i] }
      else s := by rw [SyncSystem.applyBatch, hcallback, hbatch]

theorem SyncInv.receive (h : SyncInv cloud s) (hcrashed : s.ctx.crashed = false)
    (batch : Option (ℕ × ℕ)) (reqId : CString) (data : Option TimerSyncData) (env : SyncEnv)
    (hhand : ∀ d operateType, data = some d → d.count = some (d.timers.length : ℤ) →
      d.operateType = some operateType →
        HandOk cloud ⟨d.timers.length, operateType, d.total.getD d.timers.length, d.timers⟩ batch) :
    SyncInv cloud (s.receive batch ⟨some reqId, data⟩ env) := by
  rw [SyncSystem.receive]
  by_cases hidle : s.ctx.syncCallback = .idle
  · rw [if_pos hidle]
    rcases receive_cases hcrashed h.inited hidle reqId data env with
      ⟨hkeep, hsame, hcallback⟩ | ⟨hcleared, hrequested⟩
    · rw [workSection_keep hkeep]
      apply h.congr hsame
      · intro msg hmsg
        rcases hcallback with hcallback | ⟨d, operateType, hd, hcount, hoperate, hcallback⟩
        · exact absurd hmsg (by simp [hcallback])
        · rcases hmsg with hmsg | hmsg
          · cases hmsg.symm.trans hcallback
            exact hhand d operateType hd hcount hoperate
          · cases hmsg.symm.trans hcallback
      · rw [counted_of_ne (s := s) (by simp [hidle])]
        apply counted_of_ne
        intro msg hmsg
        rcases hcallback with hcallback | ⟨d, operateType, hd, hcount, hoperate, hcallback⟩
        · cases hmsg.symm.trans hcallback
        · cases hmsg.symm.trans hcallback
      · intro rt hrt
        rcases hcallback with hcallback | ⟨d, operateType, hd, hcount, hoperate, hcallback⟩
        · cases hrt.symm.trans hcallback
        · cases hrt.symm.trans hcallback
    · rw [workSection_cleared hcleared]
      exact SyncInv.of_requested hrequested rfl rfl
  · rw [if_neg hidle]
    exact h

theorem SyncInv.countBatch (h : SyncInv cloud s) {msg : QueuedSync}
    (hcallback : s.ctx.syncCallback = .queued msg) {i : ℕ} (hbatch : s.inHand = some (s.current, i))
    (hprogress : s.ctx.fullSyncInProgress = true) (hnew : i ∉ s.taken) :
    SyncInv cloud { s with taken := s.taken ++ [i], ctx := s.ctx.countSync msg } := by
  have hhand := h.hand msg (.inl hcallback)
  rw [hbatch] at hhand
  obtain ⟨hi, rfl⟩ := hhand
  obtain ⟨hnodup, hlt⟩ := h.taken hprogress
  have hsettled : s.taken = s.applied := by
    apply h.settled hprogress
    apply counted_of_ne
    simp [hcallback]
  rw [countSync_count hprogress rfl]
  refine ⟨h.inited, fun _ ↦ ⟨?_, ?_⟩, fun _ ↦ ?_, fun _ _ ↦ rfl, fun _ sync j hsome ↦ ?_,
    fun _ hnone ↦ ?_, h.list, h.reset, fun msg hmsg ↦ ?_, fun _ hrt ↦ by cases hrt⟩
  · rw [List.nodup_append]
    refine ⟨hnodup, List.nodup_singleton i, ?_⟩
    intro j hj k hk heq
    rw [List.mem_singleton.mp hk] at heq
    exact hnew (heq ▸ hj)
  · intro j hj
    rcases List.mem_append.mp hj with hj | hj
    · exact hlt j hj
    · rw [List.mem_singleton.mp hj]
      exact hi
  · change s.ctx.fullSyncReceivedCount + ((cloud s.current).batch i).length = (List.length _ : ℤ)
    rw [SyncSystem.timersOf, List.map_append, List.flatten_append, List.length_append,
      h.received hprogress, SyncSystem.timersOf]
    simp
  · cases hbatch.symm.trans hsome
    exact ⟨rfl, congrArg (· ++ [i]) hsettled⟩
  · cases hbatch.symm.trans hnone
  · rcases hmsg with hmsg | hmsg
    · cases hmsg
    · cases hmsg
      rw [hbatch]
      exact ⟨hi, rfl⟩

theorem SyncInv.count (h : SyncInv cloud s) (hcrashed : s.ctx.crashed = false)
    (hsafe : SyncSafe cloud s .count) : SyncInv cloud (s.run cloud .count) := by
  rw [SyncSystem.run, timerStep, if_neg (by simp [hcrashed])]
  cases hcallback : s.ctx.syncCallback with
  | idle | counted | updated =>
      rw [SyncSystem.count, hcallback]
      exact h
  | queued msg =>
      dsimp only
      rw [workSection_keep (by simp)]
      by_cases hprogress : s.ctx.fullSyncInProgress = true
      · cases hbatch : s.inHand with
        | none =>
            have hhand := h.hand msg (.inl hcallback)
            rw [hbatch] at hhand
            rw [count_none hcallback hbatch, countSync_skip hprogress hhand]
            have hsame : SameSync s.ctx { s.ctx with syncCallback := .idle } :=
              ⟨rfl, rfl, rfl, rfl, rfl⟩
            apply h.congr hsame s.inHand (by simp) _ (by simp)
            rw [counted_of_ne (s := s) (by simp [hcallback])]
            exact counted_of_ne (by simp)
        | some batch =>
            obtain ⟨sync, i⟩ := batch
            obtain ⟨rfl, hnew⟩ := hsafe msg sync i hcallback hbatch hprogress
            rw [count_batch hcallback hbatch, if_pos ⟨hprogress, rfl⟩]
            exact h.countBatch hcallback hbatch hprogress hnew
      · have hnot : s.ctx.fullSyncInProgress = false := by simpa using hprogress
        have hsame : s.count = s := by
          cases hbatch : s.inHand with
          | none => exact count_none hcallback hbatch
          | some batch => rw [count_batch hcallback hbatch, if_neg fun h ↦ hprogress h.1]
        rw [hsame, countSync_of_not_inProgress hnot]
        refine SyncInv.of_not_inProgress h.inited hnot fun msg' hmsg' ↦ ?_
        rcases hmsg' with hmsg' | hmsg'
        · cases hmsg'
        · cases hmsg'
          exact h.hand msg (.inl hcallback)

theorem SyncInv.updateBatch (h : SyncInv cloud s) {msg : QueuedSync}
    (hcallback : s.ctx.syncCallback = .counted msg) {i : ℕ}
    (hbatch : s.inHand = some (s.current, i))
    (hprogress : s.ctx.fullSyncInProgress = true) {allocs : ℕ → TimerAlloc}
    (hsafe : UpdateSafe s msg.timers allocs) :
    SyncInv cloud { s with
      applied := s.applied ++ [i]
      ctx := (s.ctx.updateTimers msg allocs).1 } := by
  have hhand := h.hand msg (.inr hcallback)
  rw [hbatch] at hhand
  obtain ⟨_, rfl⟩ := hhand
  obtain ⟨hrequests, hfits, hmemory⟩ := hsafe
  have htaken : s.taken = s.applied ++ [i] :=
    (h.counted hprogress s.current i ((counted_of_counted hcallback).trans hbatch)).2
  have htimers : s.timersOf cloud (s.applied ++ [i]) =
      s.timersOf cloud s.applied ++ (cloud s.current).batch i := by
    rw [SyncSystem.timersOf, List.map_append, List.flatten_append, SyncSystem.timersOf]
    simp
  have hsub : (s.timersOf cloud s.taken).Subperm (cloud s.current).timers :=
    flatten_getD_subperm _ (h.taken hprogress).1 (h.taken hprogress).2
  rw [htaken, htimers] at hsub
  have hdistinct : Keyed.Distinct TimerJson.id
      (s.timersOf cloud s.applied ++ (cloud s.current).batch i) := by
    obtain ⟨part, hperm, hpart⟩ := hsub
    have hpart' : (part.map TimerJson.id).Nodup := (cloud s.current).distinct.sublist (hpart.map _)
    exact (hperm.map TimerJson.id).nodup_iff.mp hpart'
  obtain ⟨_, hlist⟩ := (h.list hprogress hrequests).batch (i := 0) hdistinct
    (fun obj hobj ↦ (cloud s.current).complete obj (hsub.subset (List.mem_append_right _ hobj)))
      hfits
    (fun j obj hobj ↦ by rw [Nat.zero_add]; exact hmemory j obj hobj)
  refine ⟨h.inited, h.taken, h.received, h.total, fun _ _ _ hsome ↦ (by cases hsome),
    fun _ _ ↦ htaken, fun _ _ ↦ ?_, fun _ t ht ↦ absurd ht (hrequests t), fun _ hmsg ↦ ?_,
    fun _ _ _ ↦ ⟨by simp [htaken], hrequests⟩⟩
  · change HoldsTimers _ (s.timersOf cloud (s.applied ++ [i]))
    rw [htimers]
    exact hlist
  · rcases hmsg with hmsg | hmsg <;> cases hmsg

theorem SyncInv.update (h : SyncInv cloud s) (hcrashed : s.ctx.crashed = false)
    {allocs : ℕ → TimerAlloc} (hsafe : SyncSafe cloud s (.update allocs)) :
    SyncInv cloud (s.run cloud (.update allocs)) := by
  rw [SyncSystem.run, timerStep, if_neg (by simp [hcrashed])]
  cases hcallback : s.ctx.syncCallback with
  | idle | queued | updated =>
      rw [SyncSystem.applyBatch, hcallback]
      exact h
  | counted msg =>
      dsimp only
      have hkeep : .cleared ∉ (s.ctx.updateTimers msg allocs).2 := by
        simp [TimerTaskCtx.updateTimers]
      have hnone : ∀ msg', ¬(s.ctx.updateTimers msg allocs).1.syncCallback.Holds msg' := by
        rintro msg' (hmsg' | hmsg') <;> cases hmsg'
      rw [workSection_keep hkeep]
      by_cases hprogress : s.ctx.fullSyncInProgress = true
      · have hupdate := hsafe msg hcallback hprogress
        have hcounted := counted_of_counted hcallback
        cases hbatch : s.inHand with
        | none =>
            have hhand := h.hand msg (.inr hcallback)
            rw [hbatch] at hupdate hcounted hhand
            obtain ⟨t, ht⟩ := hupdate
            rw [applyBatch_none hcallback hbatch]
            refine ⟨h.inited, h.taken, h.received, h.total, fun _ _ _ hsome ↦ (by cases hsome),
              fun hprogress _ ↦ h.settled hprogress hcounted,
              fun _ hrequests ↦ absurd ht (hrequests t), h.reset,
              fun msg' hmsg' ↦ absurd hmsg' (hnone msg'), fun rt hrt ↦ ?_⟩
            exact absurd (SyncCallback.updated.inj hrt).1 hhand
        | some batch =>
            obtain ⟨sync, i⟩ := batch
            rw [hbatch] at hupdate hcounted
            obtain ⟨rfl, _⟩ := h.counted hprogress sync i hcounted
            rw [applyBatch_batch hcallback hbatch, if_pos ⟨hprogress, rfl⟩]
            exact h.updateBatch hcallback hbatch hprogress hupdate
      · have hsame : s.applyBatch = s := by
          cases hbatch : s.inHand with
          | none => exact applyBatch_none hcallback hbatch
          | some batch => rw [applyBatch_batch hcallback hbatch, if_neg fun h ↦ hprogress h.1]
        have hnot : s.ctx.fullSyncInProgress = false := by simpa using hprogress
        rw [hsame]
        exact SyncInv.of_not_inProgress h.inited hnot fun msg' hmsg' ↦ absurd hmsg' (hnone msg')

theorem SyncInv.complete (h : SyncInv cloud s) {rt : OperateRet}
    (hcallback : s.ctx.syncCallback = .updated timerOperateTypeFull rt)
    (hcomplete : s.ctx.SyncComplete timerOperateTypeFull) : SyncWhole cloud s := by
  obtain ⟨_, hprogress, hcount⟩ := hcomplete
  obtain ⟨hsome, hrequests⟩ := h.updated rt hcallback hprogress
  obtain ⟨hnodup, hlt⟩ := h.taken hprogress
  have hsettled : s.taken = s.applied := by
    apply h.settled hprogress
    apply counted_of_ne
    simp [hcallback]
  have hsub : (s.timersOf cloud s.taken).Subperm (cloud s.current).timers :=
    flatten_getD_subperm _ hnodup hlt
  rw [h.total hprogress hsome, h.received hprogress] at hcount
  have hperm : (s.timersOf cloud s.taken).Perm (cloud s.current).timers :=
    hsub.perm_of_length_le (by exact_mod_cast hcount)
  have hdistinct : Keyed.Distinct TimerJson.id (s.timersOf cloud s.taken) :=
    (hperm.map TimerJson.id).nodup_iff.mpr (cloud s.current).distinct
  refine ⟨?_, ?_⟩
  · intro obj hobj
    obtain ⟨batch, hbatch, hin⟩ := List.mem_flatten.mp (hperm.mem_iff.mpr hobj)
    obtain ⟨i, hi, rfl⟩ := List.mem_map.mp hbatch
    exact ⟨i, hi, hin⟩
  · rw [(h.list hprogress hrequests).map, ← hsettled]
    funext id
    rw [timersMap, timersMap, hdistinct.lookup_perm hperm]

theorem SyncInv.finish (h : SyncInv cloud s) (hcrashed : s.ctx.crashed = false)
    {alloc : ℕ → Bool} {env : FullSyncEnv} (hsafe : SyncSafe cloud s (.finish alloc env)) :
    SyncInv cloud (s.run cloud (.finish alloc env)) ∧ (s.Completes (.finish alloc env) →
      SyncWhole cloud (s.run cloud (.finish alloc env))) := by
  rw [SyncSystem.run, timerStep, if_neg (by simp [hcrashed])]
  cases hcallback : s.ctx.syncCallback with
  | idle =>
      refine ⟨h, ?_⟩
      rintro ⟨_, _, _, hupdated, _⟩
      cases hcallback.symm.trans hupdated
  | queued | counted =>
      refine ⟨h, ?_⟩
      rintro ⟨_, _, _, hupdated, _⟩
      cases hcallback.symm.trans hupdated
  | updated operateType rt =>
      dsimp only
      by_cases hrt : rt = oprtOk
      · have hr : (if rt ≠ oprtOk then s.ctx.recover alloc env else (s.ctx, [])) = (s.ctx, []) :=
          if_neg (not_not.mpr hrt)
        refine ⟨?_, ?_⟩
        · by_cases hcomplete : s.ctx.SyncComplete operateType
          · rw [finishSync_complete s.ctx hr hcomplete, workSection_keep (by simp)]
            exact SyncInv.of_not_inProgress h.inited rfl (by simp)
          · rw [finishSync_incomplete s.ctx hr hcomplete, workSection_keep (by simp)]
            have hsame : SameSync s.ctx { s.ctx with syncCallback := .idle } :=
              ⟨rfl, rfl, rfl, rfl, rfl⟩
            apply h.congr hsame s.inHand (by simp) _ (by simp)
            rw [counted_of_ne (s := s) (by simp [hcallback])]
            exact counted_of_ne (by simp)
        · rintro ⟨_, operateType', rt', hupdated, hcomplete⟩
          cases hcallback.symm.trans hupdated
          rw [if_neg (not_not.mpr hrt)] at hcomplete
          rw [finishSync_complete s.ctx hr hcomplete, workSection_keep (by simp)]
          obtain rfl := hcomplete.1
          have hwhole := h.complete hcallback hcomplete
          exact ⟨hwhole.received, hwhole.list⟩
      · have hcases := recover_cases s.ctx alloc env
        rcases hrecover : s.ctx.recover alloc env with ⟨c, events⟩
        have hr : (if rt ≠ oprtOk then s.ctx.recover alloc env else (s.ctx, [])) = (c, events) := by
          rw [if_pos hrt, hrecover]
        rw [hrecover] at hcases
        rcases hcases with ⟨hkeep, hinited, hout⟩ | ⟨hcleared, hpublish, hinited, hreceived, hitems⟩
        · dsimp only at hkeep
          have hincomplete : ¬c.SyncComplete operateType := by
            intro hcomplete
            exact absurd (hcomplete.2.1.symm.trans hout) (by simp)
          refine ⟨?_, ?_⟩
          · rw [finishSync_incomplete s.ctx hr hincomplete, workSection_keep (r := (_, _)) hkeep]
            exact SyncInv.of_not_inProgress (hinited.trans h.inited) hout (by simp)
          · rintro ⟨_, operateType', rt', hupdated, hcomplete⟩
            cases hcallback.symm.trans hupdated
            rw [if_pos hrt, hrecover] at hcomplete
            exact absurd hcomplete hincomplete
        · dsimp only at hcleared
          refine ⟨?_, ?_⟩
          · by_cases hcomplete : c.SyncComplete operateType
            · rw [finishSync_complete s.ctx hr hcomplete,
                workSection_cleared (r := (_, _)) hcleared]
              exact SyncInv.of_not_inProgress hinited rfl (by simp)
            · rw [finishSync_incomplete s.ctx hr hcomplete,
                workSection_cleared (r := (_, _)) hcleared]
              exact SyncInv.of_requested ⟨hinited, hreceived, hitems, rfl⟩ rfl rfl
          · rintro ⟨_, operateType', rt', hupdated, hcomplete⟩
            cases hcallback.symm.trans hupdated
            rw [if_pos hrt, hrecover] at hcomplete
            rw [finishSync_complete s.ctx hr hcomplete, workSection_cleared (r := (_, _)) hcleared]
            obtain rfl := hcomplete.1
            have hnone : (cloud s.published).timers = [] := hsafe rt hcallback hrt hpublish
            refine ⟨?_, ?_⟩
            · rw [hnone]
              simp
            · change timerMap c.timerTaskList.items = _
              rw [hitems, hnone]
              exact holdsTimers_nil.map

theorem reset_of_update {requests : ℕ → SyncRequest} {t t' : ℕ} {request : SyncRequest}
    (hne : request ≠ .reset) (h : Function.update requests t request t' = .reset) :
    requests t' = .reset := by
  by_cases heq : t' = t
  · rw [heq, Function.update_self] at h
    exact absurd h hne
  · rwa [Function.update_of_ne heq] at h

theorem SyncInv.publish (h : SyncInv cloud s) (t : ℕ) (rt : OperateRet) :
    SyncInv cloud (s.run cloud (.publish t rt)) := by
  rw [SyncSystem.run]
  split_ifs with hpublish
  · have hreset : ∀ t', Function.update s.requests t (.published s.published) t' = .reset →
        s.requests t' = .reset := fun t' ↦ reset_of_update (by simp)
    have hidle : ∀ t', s.requests t' = .reset →
        Function.update s.requests t (.published s.published) t' = .reset := by
      intro t' ht'
      rwa [Function.update_of_ne]
      rintro rfl
      cases ht'.symm.trans hpublish.1
    exact {
      inited := h.inited
      taken := h.taken
      received := h.received
      total := h.total
      counted := h.counted
      settled := h.settled
      list := fun hprogress hrequests ↦ h.list hprogress fun t' ht' ↦ hrequests t' (hidle t' ht')
      reset := fun hprogress t' ht' ↦ h.reset hprogress t' (hreset t' ht')
      hand := h.hand
      updated := fun rt' hrt' hprogress ↦ ⟨(h.updated rt' hrt' hprogress).1,
        fun t' ht' ↦ (h.updated rt' hrt' hprogress).2 t' (hreset t' ht')⟩ }
  · exact h

theorem SyncInv.resetCount (h : SyncInv cloud s) {t : ℕ} {create : Bool}
    (hsafe : SyncSafe cloud s (.reset t create)) :
    SyncInv cloud (s.run cloud (.reset t create)) := by
  rw [SyncSystem.run]
  cases hrequest : s.requests t with
  | idle => exact h
  | reset => exact h
  | published sync =>
      have hnot := hsafe sync hrequest
      -- No batch is counted, since one in hand is whole when it is reset.
      have hcounted : s.counted = none := by
        cases hcallback : s.ctx.syncCallback with
        | counted msg =>
            have hhand := h.hand msg (.inr hcallback)
            rw [counted_of_counted hcallback]
            cases hbatch : s.inHand with
            | none => rfl
            | some batch =>
                rw [hbatch] at hhand
                obtain ⟨_, rfl⟩ := hhand
                rw [hcallback] at hnot
                exact absurd rfl hnot
        | _ => exact counted_of_ne (by simp [hcallback])
      exact {
        inited := h.inited
        taken := fun _ ↦ ⟨List.nodup_nil, by simp⟩
        received := fun _ ↦ rfl
        total := fun _ hsome ↦ absurd rfl hsome
        counted := fun _ _ _ hsome ↦ by cases hcounted.symm.trans hsome
        settled := fun _ _ ↦ rfl
        list := fun _ hrequests ↦ absurd (Function.update_self t _ _) (hrequests t)
        reset := fun _ _ _ ↦ rfl
        hand := h.hand
        updated := fun rt hrt ↦ by
          change s.ctx.syncCallback = _ at hrt
          rw [hrt] at hnot
          exact absurd rfl hnot }

theorem SyncInv.clear (h : SyncInv cloud s) (t : ℕ) :
    SyncInv cloud (s.run cloud (.clear t)) := by
  rw [SyncSystem.run]
  split_ifs with hrequest
  · have hreset : ∀ t', Function.update s.requests t .idle t' = .reset →
        s.requests t' = .reset := fun t' ↦ reset_of_update (by simp)
    exact {
      inited := h.inited
      taken := h.taken
      received := h.received
      total := h.total
      counted := h.counted
      settled := h.settled
      list := fun hprogress _ ↦ by
        change HoldsTimers [] (s.timersOf cloud s.applied)
        rw [h.reset hprogress t hrequest]
        exact holdsTimers_nil
      reset := fun hprogress t' ht' ↦ h.reset hprogress t' (hreset t' ht')
      hand := h.hand
      updated := fun rt hrt hprogress ↦ absurd hrequest ((h.updated rt hrt hprogress).2 t) }
  · exact h

theorem SyncInv.step (h : SyncInv cloud s) (x : SyncStep) (hsafe : SyncSafe cloud s x) :
    SyncInv cloud (syncStep cloud s x) := by
  rw [syncStep]
  split_ifs with hcrash
  · exact h
  · have hcrashed : s.ctx.crashed = false := by simpa using hcrash
    cases x with
    | batch sync i reqId taskId env =>
        rw [SyncSystem.run]
        split_ifs with hsent
        · apply h.receive hcrashed
          intro d operateType hd hcount hoperate
          obtain rfl := Option.some.inj hd
          cases hoperate
          exact ⟨hsent.2, rfl⟩
        · exact h
    | other reqId data hdata env =>
        apply h.receive hcrashed
        intro d operateType hd hcount hoperate hfull
        exact hdata d hd (hfull ▸ hoperate) hcount
    | count => exact h.count hcrashed hsafe
    | update allocs => exact h.update hcrashed hsafe
    | finish alloc env => exact (h.finish hcrashed hsafe).1
    | expireFullSync =>
        rw [SyncSystem.run, timerStep, if_neg hcrash]
        have hsame : SameSync s.ctx
            { s.ctx with fullSyncTimerId := some false, timerCallback := .fullSyncTimer } :=
          ⟨rfl, rfl, rfl, rfl, rfl⟩
        split_ifs with hexpired
        · exact h.congr hsame s.inHand h.hand rfl fun _ ↦ id
        · exact h
    | fullSyncTimeout alloc =>
        rw [SyncSystem.run]
        split_ifs with htimeout
        · exact SyncInv.of_not_inProgress h.inited rfl h.hand
        · exact h
    | publish t rt => exact h.publish t rt
    | reset t create => exact h.resetCount hsafe
    | clear t => exact h.clear t

theorem SyncInv.init (kv : Option TimerTaskList) : SyncInv cloud (syncInit kv) :=
  SyncInv.of_not_inProgress rfl rfl fun msg hmsg ↦ absurd hmsg (not_holds_idle msg)

end Step

/-! ## Runs -/

section Runs

variable {cloud : ℕ → CloudSync}

theorem syncInv_final {kv : Option TimerTaskList} {xs : List SyncStep}
    (hxs : (syncMachine cloud).Guarded (SyncSafe cloud) (syncInit kv) xs) :
    SyncInv cloud ((syncMachine cloud).final (syncInit kv) xs) :=
  Mealy.inv_final _ (fun _ x h hsafe ↦ h.step x hsafe) (SyncInv.init kv) hxs

/-- When a sync is taken for complete, all its timers were received, and they are in the list. -/
theorem completes_whole (kv : Option TimerTaskList) (xs : List SyncStep)
    (hxs : (syncMachine cloud).Guarded (SyncSafe cloud) (syncInit kv) xs) (k : ℕ) (x : SyncStep)
    (hx : xs[k]? = some x)
    (hcompletes : ((syncMachine cloud).final (syncInit kv) (xs.take k)).Completes x) :
    SyncWhole cloud (syncStep cloud ((syncMachine cloud).final (syncInit kv) (xs.take k)) x) := by
  obtain ⟨hbefore, hsafe⟩ := hxs.step_at hx
  have hinv := syncInv_final hbefore
  cases x with
  | finish alloc env =>
      have hcrashed := hcompletes.1
      rw [syncStep, if_neg (by simp [hcrashed])]
      exact (hinv.finish hcrashed hsafe).2 hcompletes
  | _ => exact hcompletes.elim

end Runs

/-- A timer of the cloud. -/
def cloudTimer (id : CString) : TimerJson :=
  ⟨some id, some (bytesOf "20300101"), some (bytesOf "0800"), some 0, some 0, some 1,
    some [0x7b, 0x7d]⟩

/-- Two timers in two batches. -/
def twoBatches : CloudSync :=
  ⟨[[cloudTimer [1]], [cloudTimer [2]]], by decide, by decide⟩

def oneBatch : CloudSync := ⟨[[cloudTimer [1]]], by decide, by decide⟩

/-- The `id` fills its array. -/
def longId : CloudSync := ⟨[[cloudTimer (List.replicate 32 1)]], by decide, by decide⟩

/-- A request of a thread, whole. -/
def someRequest (t : ℕ) : List SyncStep := [.publish t oprtOk, .reset t true, .clear t]

/-- A batch up to its end. -/
def someBatch (sync i : ℕ) (alloc : TimerAlloc) : List SyncStep :=
  [.batch sync i [1] none ⟨true, true, true, oprtOk, true⟩, .count, .update fun _ ↦ alloc]

def someFinish (publish : OperateRet) : SyncStep := .finish (fun _ ↦ true) ⟨publish, true⟩

theorem cloudTimer_fits {id : CString} (hid : id.length < reqIdLen) : (cloudTimer id).Fits :=
  TimerJson.fits_of_some hid (by decide) (by decide) (by decide) (by decide)

/-- Both batches, the second one first. -/
def bothBatches : List SyncStep :=
  someRequest 0 ++ someBatch 0 1 ⟨true, true⟩ ++ [someFinish oprtOk] ++
    someBatch 0 0 ⟨true, true⟩ ++ [someFinish oprtOk]

theorem completes_whole_bothBatches :
    SyncWhole (fun _ ↦ twoBatches) (syncStep (fun _ ↦ twoBatches)
      ((syncMachine fun _ ↦ twoBatches).final (syncInit none) (bothBatches.take 10))
      (someFinish oprtOk)) := by
  have hupdate : ∀ s : SyncSystem, ∀ i < 2, (∀ t, s.requests t ≠ .reset) →
      UpdateSafe s (twoBatches.batch i) fun _ ↦ ⟨true, true⟩ := by
    intro s i hi hrequests
    refine ⟨hrequests, ?_, fun _ _ _ ↦ ⟨rfl, fun _ ↦ rfl⟩⟩
    intro obj hobj
    obtain rfl | rfl : i = 0 ∨ i = 1 := by omega
    · obtain rfl := List.mem_singleton.mp hobj
      exact cloudTimer_fits (by decide)
    · obtain rfl := List.mem_singleton.mp hobj
      exact cloudTimer_fits (by decide)
  have hrequests : ∀ t, Function.update (Function.update (Function.update
      (fun _ : ℕ ↦ SyncRequest.idle) 0 (.published 0)) 0 .reset) 0 .idle t ≠ .reset := by
    intro t
    by_cases ht : t = 0
    · rw [ht, Function.update_self]
      decide
    · rw [Function.update_of_ne ht, Function.update_of_ne ht, Function.update_of_ne ht]
      decide
  have hguard : (syncMachine fun _ ↦ twoBatches).Guarded (SyncSafe fun _ ↦ twoBatches)
      (syncInit none) bothBatches := by
    refine ⟨trivial, ?_, trivial, trivial, ?_, ?_, ?_, trivial, ?_, ?_, ?_, trivial⟩
    · exact fun _ _ hhand ↦ hhand
    · intro msg sync i _ hbatch _
      cases hbatch
      exact ⟨rfl, by decide⟩
    · intro msg hcounted _
      cases hcounted
      exact hupdate _ 1 (by decide) hrequests
    · intro rt hupdated hrt
      cases hupdated
      exact absurd rfl hrt
    · intro msg sync i _ hbatch _
      cases hbatch
      exact ⟨rfl, by decide⟩
    · intro msg hcounted _
      cases hcounted
      exact hupdate _ 0 (by decide) hrequests
    · intro rt hupdated hrt
      cases hupdated
      exact absurd rfl hrt
  exact completes_whole none bothBatches hguard 10 _ rfl
    ⟨rfl, timerOperateTypeFull, oprtOk, rfl, by decide, by decide, by decide⟩

/-- An incremental message up to the lock of the list. -/
def incremental (timers : List TimerJson) : List SyncStep :=
  [.other [1] (some ⟨some timers.length, some 1, some none, none, timers⟩)
    (fun d hd hfull ↦ by cases hd; cases hfull) ⟨true, true, true, oprtOk, true⟩, .count]

/-- A finish behind some steps. -/
def FinishWhole (cloud : ℕ → CloudSync) (kv : Option TimerTaskList) (steps : List SyncStep) :
    Prop :=
  ((syncMachine cloud).final (syncInit kv) steps).Completes (someFinish oprtOk) →
    SyncWhole cloud (syncStep cloud ((syncMachine cloud).final (syncInit kv) steps)
      (someFinish oprtOk))

theorem FinishWhole.lost {cloud : ℕ → CloudSync} {kv : Option TimerTaskList} {steps : List SyncStep}
    (h : FinishWhole cloud kv steps) {s : SyncSystem}
    (hs : (syncMachine cloud).final (syncInit kv) steps = s) {rt : OperateRet}
    (hupdated : s.ctx.syncCallback = .updated timerOperateTypeFull rt)
    (hcomplete : s.ctx.crashed = false ∧
      (if rt ≠ oprtOk then (s.ctx.recover (fun _ ↦ true) ⟨oprtOk, true⟩).1 else s.ctx).SyncComplete
        timerOperateTypeFull) (id : CString) :
    (timerMap (syncStep cloud s (someFinish oprtOk)).ctx.timerTaskList.items id).isSome =
      (timersMap (cloud (syncStep cloud s (someFinish oprtOk)).current).timers id).isSome := by
  subst hs
  have hwhole := h ⟨hcomplete.1, timerOperateTypeFull, rt, hupdated, hcomplete.2⟩
  exact congrArg Option.isSome (congrFun hwhole.list id)

/-- One batch comes twice; a batch of the sync before comes late; the updates fail, and the count of
the new sync is complete from the start; the count is reset behind a batch, or before its updates,
or it is before the list is cleared; an incremental message that was not skipped adds its timer
behind the clear; there is no memory for a timer; and an `id` is cut. -/
theorem completes_not_whole :
    ¬FinishWhole (fun _ ↦ twoBatches) none (someRequest 0 ++ someBatch 0 0 ⟨true, true⟩ ++
      [someFinish oprtOk] ++ someBatch 0 0 ⟨true, true⟩) ∧
    ¬FinishWhole (fun n ↦ if n = 0 then oneBatch else longId) none
      (someRequest 0 ++ someRequest 0 ++ someBatch 0 0 ⟨true, true⟩) ∧
    ¬FinishWhole (fun _ ↦ oneBatch)
      (some ⟨[⟨[1], [], [], 0, 0, 0, none, 0⟩], 1, []⟩)
      (.publish 0 oprtOk :: someBatch 0 0 ⟨true, false⟩) ∧
    ¬FinishWhole (fun _ ↦ twoBatches) none
      (someRequest 0 ++ someBatch 0 0 ⟨true, true⟩ ++ someRequest 1) ∧
    ¬FinishWhole (fun _ ↦ twoBatches) none
      (someRequest 0 ++ (someBatch 0 0 ⟨true, true⟩).take 2 ++ someRequest 1 ++
        [.update fun _ ↦ ⟨true, true⟩]) ∧
    ¬FinishWhole (fun _ ↦ oneBatch) none
      ([.publish 0 oprtOk, .reset 0 true] ++ someBatch 0 0 ⟨true, true⟩ ++ [.clear 0]) ∧
    ¬FinishWhole (fun _ ↦ oneBatch) none
      (incremental [cloudTimer [2]] ++ someRequest 0 ++
        [.update fun _ ↦ ⟨true, true⟩, someFinish oprtOk] ++ someBatch 0 0 ⟨true, true⟩) ∧
    ¬FinishWhole (fun _ ↦ oneBatch) none (someRequest 0 ++ someBatch 0 0 ⟨false, true⟩) ∧
    ¬FinishWhole (fun _ ↦ longId) none (someRequest 0 ++ someBatch 0 0 ⟨true, true⟩) := by
  refine ⟨fun h ↦ ?_, fun h ↦ ?_, fun h ↦ ?_, fun h ↦ ?_, fun h ↦ ?_, fun h ↦ ?_, fun h ↦ ?_,
    fun h ↦ ?_, fun h ↦ ?_⟩
  · exact absurd (h.lost rfl rfl ⟨rfl, rfl, by decide, by decide⟩ [2]) (by decide)
  · exact absurd (h.lost rfl rfl ⟨rfl, rfl, by decide, by decide⟩ [1]) (by decide)
  · exact absurd (h.lost rfl rfl ⟨rfl, rfl, by decide, by decide⟩ [1]) (by decide)
  · exact absurd (h.lost rfl rfl ⟨rfl, rfl, by decide, by decide⟩ [1]) (by decide)
  · exact absurd (h.lost rfl rfl ⟨rfl, rfl, by decide, by decide⟩ [2]) (by decide)
  · exact absurd (h.lost rfl rfl ⟨rfl, rfl, by decide, by decide⟩ [1]) (by decide)
  · exact absurd (h.lost rfl rfl ⟨rfl, rfl, by decide, by decide⟩ [2]) (by decide)
  · exact absurd (h.lost rfl rfl ⟨rfl, rfl, by decide, by decide⟩ [1]) (by decide)
  · exact absurd (h.lost rfl rfl ⟨rfl, rfl, by decide, by decide⟩ (List.replicate 31 1)) (by decide)

end TuyaOpen.Cloud
