import TuyaOpen.Tal.DelayedWork
import TuyaOpen.Tal.SwTimerQueue

/-!
# Deleted timers and cancelled work

When a deleted timer is quiet, and when cancelled work is: the timer thread chooses a timer in its
locked section and reads the record of the timer behind it, and so does a callback with its work.
-/

namespace TuyaOpen.Tal

def delayedMachine : Mealy DelayedSystem DelayedStep (List DelayedEvent) where
  step := delayedStep

/-- The lists, whose records a section reads, hold no freed timer, the timer thread reads the
record of none and begins the callback of none, and no work that was cancelled is put in a queue. -/
structure Quiet (s : DelayedSystem) (x : DelayedStep) : Prop where
  lists : ∀ id ∈ s.timers.mgr.listActive ++ s.timers.mgr.listStandby,
    (s.timers.mgr.timer id).life ≠ .freed
  record : ∀ id, .timer (.record id) ∈ (delayedStep s x).2 → (s.timers.mgr.timer id).life ≠ .freed
  begin : ∀ id, .timer (.begin id) ∈ (delayedStep s x).2 → (s.timers.mgr.timer id).life ≠ .freed
  put : ∀ w, .put w ∈ (delayedStep s x).2 → (s.work w).cancelled = false

/-- `tal_sw_timer_delete` does not return while the timer is chosen and its callback has not begun,
and `tal_workqueue_cancel_delayed` does not return while the callback has begun and its item is not
yet put in the queue. -/
def Awaited (s : DelayedSystem) : DelayedStep → Prop
  | .timer (.free t) => ∀ id, s.timers.calls t = .freeing id → ∀ cb,
    s.timers.thread ≠ .calling id cb
  | .cancelReturn t => ∀ w, s.cancels t = .freeing w → s.callback ≠ .begun w
  | _ => True

/-! ## What a step leaves of the timers -/

section Frame

variable {s : TimerSystem} {x : TimerStep} {id : ℕ}

/-- The timer that a step frees. -/
def TimerSystem.Frees (s : TimerSystem) (x : TimerStep) (id : ℕ) : Prop :=
  ∃ t, x = .free t ∧ s.calls t = .freeing id

theorem dispatchSection_mgr (s : TimerSystem) (now : ℕ) :
    (s.dispatchSection now).1.mgr = (s.mgr.dispatch now).1 := by
  rw [TimerSystem.dispatchSection]
  split <;> rename_i hfound <;> rw [hfound]

/-- What a step can do to a record. -/
inductive RecordStep (s : TimerSystem) (x : TimerStep) (id : ℕ) (t : TimerT) : TimerT → Prop where
  | kept {t' : TimerT} (h : t'.Kept t) : RecordStep s x id t t'
  | created (func arg : ℕ) (h : x = .create func arg true) (hid : id = s.created) :
      RecordStep s x id t { unbornTimer with cb := func, data := arg, life := .live }
  | deleted (h : t.life = .live) : RecordStep s x id t { t with life := .unlinked }
  | freed (h : s.Frees x id) : RecordStep s x id t { t with life := .freed }

theorem timerStep_record (s : TimerSystem) (x : TimerStep) (id : ℕ) :
    RecordStep s x id (s.mgr.timer id) ((timerStep s x).1.mgr.timer id) := by
  have hsame : RecordStep s x id (s.mgr.timer id) (s.mgr.timer id) := .kept ⟨rfl, rfl, rfl⟩
  cases x with
  | create func arg alloc =>
      rw [timerStep]
      split_ifs with hready
      · exact hsame
      · obtain ⟨_, halloc⟩ := not_or.mp hready
        change RecordStep _ _ id _ (Function.update s.mgr.timer s.created _ id)
        by_cases hid : id = s.created
        · subst hid
          rw [Function.update_self]
          exact .created func arg (by rw [Bool.of_not_eq_false halloc]) rfl
        · rw [Function.update_of_ne hid]
          exact .kept ⟨rfl, rfl, rfl⟩
  | startSection t =>
      rw [timerStep]
      split
      · split_ifs
        · exact .kept (start_kept ..)
        · exact .kept ⟨rfl, rfl, rfl⟩
      · exact hsame
  | stop t i =>
      rw [timerStep]
      split_ifs
      · exact .kept (stop_kept id)
      · exact hsame
  | trigger t i =>
      rw [timerStep]
      split_ifs
      · exact .kept (trigger_kept id)
      · exact hsame
  | delete t i =>
      rw [timerStep]
      split_ifs with hready
      · change RecordStep _ _ id _ (Function.update s.mgr.timer i _ id)
        by_cases hid : id = i
        · subst hid
          rw [Function.update_self]
          exact .deleted hready.2
        · rw [Function.update_of_ne hid]
          exact .kept ⟨rfl, rfl, rfl⟩
      · exact hsame
  | free t =>
      rw [timerStep]
      split
      · rename_i i hcall
        change RecordStep _ _ id _ (Function.update s.mgr.timer i _ id)
        by_cases hid : id = i
        · subst hid
          rw [Function.update_self]
          exact .freed ⟨t, rfl, hcall⟩
        · rw [Function.update_of_ne hid]
          exact .kept ⟨rfl, rfl, rfl⟩
      · exact hsame
  | dispatch =>
      rw [timerStep]
      split
      · rename_i now _
        rw [dispatchSection_mgr]
        exact .kept (dispatch_kept now id)
      · exact hsame
  | wake =>
      rw [timerStep]
      split_ifs
      · rw [TimerSystem.wake]
        split_ifs <;> exact hsame
      · exact hsame
  | tick | startCall | post | readTime | callBegin | callReturn =>
      rw [timerStep]
      try split
      all_goals exact hsame

theorem timerStep_created (s : TimerSystem) (x : TimerStep) :
    s.created ≤ (timerStep s x).1.created := by
  cases x with
  | create func arg alloc =>
      rw [timerStep]
      split_ifs
      · exact le_rfl
      · exact Nat.le_succ _
  | wake =>
      rw [timerStep, TimerSystem.wake]
      split_ifs <;> exact le_rfl
  | dispatch =>
      rw [timerStep]
      split
      · rw [TimerSystem.dispatchSection]
        split <;> exact le_rfl
      · exact le_rfl
  | startSection =>
      rw [timerStep]
      split
      · split_ifs <;> exact le_rfl
      · exact le_rfl
  | tick | startCall | stop | trigger | delete | post | free | readTime | callBegin | callReturn =>
      rw [timerStep]
      try split
      all_goals exact le_rfl

theorem freed_of_timerStep
    (h : ((timerStep s x).1.mgr.timer id).life = .freed) :
    (s.mgr.timer id).life = .freed ∨ s.Frees x id := by
  have hrecord := timerStep_record s x id
  generalize (timerStep s x).1.mgr.timer id = t' at h hrecord
  cases hrecord with
  | kept hkept => exact .inl (hkept.2.2.symm.trans h)
  | created func arg hx hid => cases h
  | deleted hlive => cases h
  | freed hfrees => exact .inr hfrees

theorem timerStep_of_freed (hinv : TimerInv s) (x : TimerStep)
    (h : (s.mgr.timer id).life = .freed) :
    ((timerStep s x).1.mgr.timer id).life = .freed := by
  have hrecord := timerStep_record s x id
  generalize (timerStep s x).1.mgr.timer id = t' at hrecord ⊢
  cases hrecord with
  | kept hkept => exact hkept.2.2.trans h
  | created func arg hx hid => cases h.symm.trans (hinv.fresh id hid.ge)
  | deleted hlive => cases h.symm.trans hlive
  | freed hfrees => rfl

theorem timerStep_cb_data (x : TimerStep) (hid : id ≠ s.created) :
    ((timerStep s x).1.mgr.timer id).cb = (s.mgr.timer id).cb ∧
      ((timerStep s x).1.mgr.timer id).data = (s.mgr.timer id).data := by
  have hrecord := timerStep_record s x id
  generalize (timerStep s x).1.mgr.timer id = t' at hrecord ⊢
  cases hrecord with
  | kept hkept => exact ⟨hkept.1, hkept.2.1⟩
  | created func arg hx hnew => exact absurd hnew hid
  | deleted hlive => exact ⟨rfl, rfl⟩
  | freed hfrees => exact ⟨rfl, rfl⟩

theorem thread_calling {cb : ℕ} (hinv : TimerInv s)
    (h : (timerStep s x).1.thread = .calling id cb) :
    s.thread = .calling id cb ∨
      (s.mgr.timer id).life = .live ∧ cb = (s.mgr.timer id).cb ∧ x = .dispatch := by
  cases x with
  | dispatch =>
      rw [timerStep] at h
      split at h
      · rename_i now hlock
        rw [TimerSystem.dispatchSection] at h
        split at h
        · rename_i mgr id' cb' hfound
          have hchosen : (s.mgr.dispatch now).2 = .timer id' cb' := by rw [hfound]
          obtain ⟨hin, _, hcb⟩ := dispatch_timer hchosen
          obtain ⟨rfl, rfl⟩ := TimerThread.calling.inj h
          exact .inr ⟨((hinv.mgr.active _).mp hin).1, hcb, rfl⟩
        · cases h
      · exact .inl h
  | wake =>
      rw [timerStep] at h
      split_ifs at h
      · rw [TimerSystem.wake] at h
        split_ifs at h
        · exact .inl h
      · exact .inl h
  | startSection =>
      rw [timerStep] at h
      split at h
      · split_ifs at h <;> exact .inl h
      · exact .inl h
  | readTime | callBegin | callReturn =>
      rw [timerStep] at h
      split at h
      · cases h
      · exact .inl h
  | tick | create | startCall | stop | trigger | delete | post | free =>
      rw [timerStep] at h
      try split at h
      all_goals exact .inl h

theorem thread_event (h : .record id ∈ (timerStep s x).2 ∨ .begin id ∈ (timerStep s x).2) :
    ∃ cb, s.thread = .calling id cb := by
  cases x with
  | callBegin =>
      rw [timerStep] at h
      split at h
      · rename_i id' cb hcall
        have hid : id = id' := by simpa using h
        exact ⟨cb, by rw [hcall, hid]⟩
      · simp at h
  | dispatch =>
      rw [timerStep] at h
      split at h
      · rw [TimerSystem.dispatchSection] at h
        split at h <;> simp at h
      · simp at h
  | startSection =>
      rw [timerStep] at h
      split at h
      · split_ifs at h <;> simp at h
      · simp at h
  | tick | create | startCall | stop | trigger | delete | post | free | wake | readTime
  | callReturn =>
      rw [timerStep] at h
      try split at h
      all_goals simp at h

/-- The chosen timer is not yet freed. -/
def TimerSystem.ChosenKept (s : TimerSystem) : Prop :=
  ∀ id cb, s.thread = .calling id cb →
    id < s.created ∧ cb = (s.mgr.timer id).cb ∧ (s.mgr.timer id).life ≠ .freed

theorem TimerSystem.ChosenKept.step (h : s.ChosenKept) (hinv : TimerInv s)
    (hawait : ∀ id, s.Frees x id → ∀ cb, s.thread ≠ .calling id cb) :
    (timerStep s x).1.ChosenKept := by
  intro id cb hcall
  rcases thread_calling hinv hcall with hold | ⟨hlive, hcb, rfl⟩
  · obtain ⟨hid, hcb, hlife⟩ := h id cb hold
    refine ⟨hid.trans_le (timerStep_created s x), ?_, ?_⟩
    · rw [(timerStep_cb_data x hid.ne).1]
      exact hcb
    · intro hfreed
      rcases freed_of_timerStep hfreed with hbefore | hfrees
      · exact hlife hbefore
      · exact hawait id hfrees cb hold
  · have hid : id < s.created := by
      by_contra hge
      cases hlive.symm.trans (hinv.fresh id (Nat.not_lt.mp hge))
    refine ⟨hid.trans_le (timerStep_created s .dispatch), ?_, ?_⟩
    · rw [(timerStep_cb_data .dispatch hid.ne).1]
      exact hcb
    · intro hfreed
      rcases freed_of_timerStep hfreed with hbefore | ⟨t, hx, _⟩
      · cases hlive.symm.trans hbefore
      · cases hx

end Frame

/-! ## The invariant -/

structure DelayedInv (s : DelayedSystem) : Prop where
  timers : TimerInv s.timers
  chosen : s.timers.ChosenKept
  linked : ∀ id, (s.timers.mgr.timer id).cb = delayedWorkCb →
    (s.timers.mgr.timer id).data < s.made ∧ (s.work (s.timers.mgr.timer id).data).timer = id
  cancelled : ∀ w < s.made, (s.work w).cancelled = true →
    (s.timers.mgr.timer (s.work w).timer).life = .freed
  deleting : ∀ t w, s.cancels t = .deleting w → w < s.made
  freeing : ∀ t w, s.cancels t = .freeing w →
    w < s.made ∧ (s.timers.mgr.timer (s.work w).timer).life = .freed
  begun : ∀ w, s.callback = .begun w → (s.work w).cancelled = false

theorem delayedInv_init (queueLen : ℕ → ℕ) : DelayedInv (delayedInit queueLen) where
  timers := timerInv_init
  chosen _ _ h := by cases h
  linked _ h := by cases h
  cancelled _ h := by cases h
  deleting _ _ h := by cases h
  freeing _ _ h := by cases h
  begun _ h := by cases h

section Steps

variable {s : DelayedSystem} {t w : ℕ}

theorem DelayedInv.setCancel (h : DelayedInv s) {call : CancelCall}
    (hdeleting : ∀ w, call = .deleting w → w < s.made)
    (hfreeing : ∀ w, call = .freeing w →
      w < s.made ∧ (s.timers.mgr.timer (s.work w).timer).life = .freed) :
    DelayedInv (s.setCancel t call) := by
  have hself : (s.setCancel t call).cancels t = call := Function.update_self ..
  have hother : ∀ t', t' ≠ t → (s.setCancel t call).cancels t' = s.cancels t' :=
    fun t' ht ↦ Function.update_of_ne ht ..
  refine ⟨h.timers, h.chosen, h.linked, h.cancelled, ?_, ?_, h.begun⟩
  · intro t' w hcall
    by_cases ht : t' = t
    · rw [ht, hself] at hcall
      exact hdeleting w hcall
    · rw [hother t' ht] at hcall
      exact h.deleting t' w hcall
  · intro t' w hcall
    by_cases ht : t' = t
    · rw [ht, hself] at hcall
      exact hfreeing w hcall
    · rw [hother t' ht] at hcall
      exact h.freeing t' w hcall

theorem DelayedInv.begun_behind (h : DelayedInv s) (x : TimerStep) (w : ℕ)
    (hbegun : s.callbackBehind x = .begun w) : (s.work w).cancelled = false := by
  cases x with
  | callBegin =>
      rw [DelayedSystem.callbackBehind] at hbegun
      split at hbegun
      · rename_i id cb hcall
        split_ifs at hbegun with hdelayed
        obtain rfl := DelayedCallback.begun.inj hbegun
        obtain ⟨_, hcb, hlife⟩ := h.chosen id cb hcall
        obtain ⟨hmade, htimer⟩ := h.linked id (hcb.symm.trans hdelayed)
        rw [Bool.eq_false_iff]
        intro hcancelled
        have hfreed := h.cancelled _ hmade hcancelled
        rw [htimer] at hfreed
        exact hlife hfreed
      · exact h.begun w hbegun
  | _ => exact h.begun w hbegun

theorem DelayedInv.timerStep (h : DelayedInv s) {x : TimerStep}
    (hcreate : ∀ func arg alloc, x = .create func arg alloc → func ≠ delayedWorkCb)
    (hawait : ∀ id, s.timers.Frees x id → ∀ cb, s.timers.thread ≠ .calling id cb) :
    DelayedInv (s.timerStep x).1 := by
  refine ⟨h.timers.step x, h.chosen.step h.timers hawait, ?_, ?_, h.deleting, ?_,
    h.begun_behind x⟩
  · intro id hdelayed
    have hrecord := timerStep_record s.timers x id
    change ((Tal.timerStep s.timers x).1.mgr.timer id).cb = _ at hdelayed
    change ((Tal.timerStep s.timers x).1.mgr.timer id).data < _ ∧
      (s.work ((Tal.timerStep s.timers x).1.mgr.timer id).data).timer = id
    generalize (Tal.timerStep s.timers x).1.mgr.timer id = t' at hrecord hdelayed ⊢
    cases hrecord with
    | kept hkept =>
        rw [hkept.1] at hdelayed
        rw [hkept.2.1]
        exact h.linked id hdelayed
    | created func arg hx hid => exact absurd hdelayed (hcreate _ _ _ hx)
    | deleted hlive => exact h.linked id hdelayed
    | freed hfrees => exact h.linked id hdelayed
  · intro w hw hcancelled
    exact timerStep_of_freed h.timers x (h.cancelled w hw hcancelled)
  · intro t w hcall
    obtain ⟨hw, hfreed⟩ := h.freeing t w hcall
    exact ⟨hw, timerStep_of_freed h.timers x hfreed⟩

theorem DelayedInv.initDelayed (h : DelayedInv s) (handle cb data : ℕ) :
    DelayedInv (s.initDelayed handle cb data) := by
  set x : TimerStep := .create delayedWorkCb s.made true with hx
  have hother : ∀ w ≠ s.made, (s.initDelayed handle cb data).work w = s.work w :=
    fun w hw ↦ Function.update_of_ne hw ..
  have hself : (s.initDelayed handle cb data).work s.made =
      ⟨s.timers.created, cb, data, handle, false⟩ := Function.update_self ..
  have hchosen : (Tal.timerStep s.timers x).1.ChosenKept := by
    refine h.chosen.step h.timers ?_
    rintro id ⟨t, hfree, _⟩
    cases hx.symm.trans hfree
  refine ⟨h.timers.step x, hchosen, ?_, ?_, ?_, ?_, ?_⟩
  · intro id hdelayed
    have hrecord := timerStep_record s.timers x id
    change ((Tal.timerStep s.timers x).1.mgr.timer id).cb = _ at hdelayed
    change ((Tal.timerStep s.timers x).1.mgr.timer id).data < s.made + 1 ∧
      ((s.initDelayed handle cb data).work
        ((Tal.timerStep s.timers x).1.mgr.timer id).data).timer = id
    generalize (Tal.timerStep s.timers x).1.mgr.timer id = t' at hrecord hdelayed ⊢
    have hold : ∀ w, w < s.made ∧ (s.work w).timer = id →
        w < s.made + 1 ∧ ((s.initDelayed handle cb data).work w).timer = id := by
      rintro w ⟨hw, htimer⟩
      rw [hother w hw.ne]
      exact ⟨hw.trans (Nat.lt_succ_self _), htimer⟩
    cases hrecord with
    | kept hkept =>
        rw [hkept.1] at hdelayed
        rw [hkept.2.1]
        exact hold _ (h.linked id hdelayed)
    | created func arg hnew hid =>
        cases hx.symm.trans hnew
        rw [hself]
        exact ⟨Nat.lt_succ_self _, hid.symm⟩
    | deleted hlive => exact hold _ (h.linked id hdelayed)
    | freed hfrees => exact hold _ (h.linked id hdelayed)
  · intro w hw hcancelled
    have hne : w ≠ s.made := by
      rintro rfl
      rw [hself] at hcancelled
      cases hcancelled
    rw [hother w hne] at hcancelled ⊢
    have hlt : w < s.made := lt_of_le_of_ne (Nat.lt_succ_iff.mp hw) hne
    exact timerStep_of_freed h.timers x (h.cancelled w hlt hcancelled)
  · intro t w hcall
    exact (h.deleting t w hcall).trans (Nat.lt_succ_self _)
  · intro t w hcall
    obtain ⟨hw, hfreed⟩ := h.freeing t w hcall
    rw [hother w hw.ne]
    exact ⟨hw.trans (Nat.lt_succ_self _), timerStep_of_freed h.timers x hfreed⟩
  · intro w hbegun
    by_cases hw : w = s.made
    · rw [hw, hself]
    · rw [hother w hw]
      exact h.begun w hbegun

theorem DelayedInv.cancelReturn (h : DelayedInv s) (hcall : s.cancels t = .freeing w)
    (hawait : s.callback ≠ .begun w) :
    DelayedInv { s.setCancel t .idle with
      work := Function.update s.work w { s.work w with cancelled := true } } := by
  have hidle : DelayedInv (s.setCancel t .idle) :=
    h.setCancel (fun _ heq ↦ by cases heq) fun _ heq ↦ by cases heq
  obtain ⟨hw, hfreed⟩ := h.freeing t w hcall
  set work := Function.update s.work w { s.work w with cancelled := true } with hwork
  have htimer : ∀ w', (work w').timer = (s.work w').timer := by
    intro w'
    by_cases heq : w' = w
    · rw [heq, hwork, Function.update_self]
    · rw [hwork, Function.update_of_ne heq]
  refine ⟨h.timers, h.chosen, ?_, ?_, hidle.deleting, ?_, ?_⟩
  · intro id hdelayed
    dsimp only
    rw [htimer]
    exact h.linked id hdelayed
  · intro w' hw' hcancelled
    dsimp only at hcancelled ⊢
    rw [htimer]
    by_cases heq : w' = w
    · rw [heq]
      exact hfreed
    · rw [hwork, Function.update_of_ne heq] at hcancelled
      exact h.cancelled w' hw' hcancelled
  · intro t' w' hcall'
    dsimp only
    rw [htimer]
    exact hidle.freeing t' w' hcall'
  · intro w' hbegun
    have hne : w' ≠ w := by
      rintro rfl
      exact hawait hbegun
    dsimp only
    rw [hwork, Function.update_of_ne hne]
    exact h.begun w' hbegun

theorem DelayedInv.setCallback (h : DelayedInv s) {queue : ℕ → WorkQueue}
    {callback : DelayedCallback} (hout : ∀ w, callback ≠ .begun w) :
    DelayedInv { s with queue := queue, callback := callback } :=
  ⟨h.timers, h.chosen, h.linked, h.cancelled, h.deleting, h.freeing,
    fun w heq ↦ absurd heq (hout w)⟩

theorem DelayedInv.step (h : DelayedInv s) {x : DelayedStep} (hx : Awaited s x) :
    DelayedInv (delayedStep s x).1 := by
  cases x with
  | timer x =>
      rw [delayedStep]
      split_ifs with hready
      · refine h.timerStep ?_ ?_
        · rintro func arg alloc rfl
          exact hready
        · rintro id ⟨t, rfl, hcall⟩
          exact hx id hcall
      · exact h
  | queue handle x =>
      rw [delayedStep]
      split_ifs
      · exact h
      · exact ⟨h.timers, h.chosen, h.linked, h.cancelled, h.deleting, h.freeing, h.begun⟩
  | initDelayed handle cb data alloc timerAlloc =>
      rw [delayedStep]
      split_ifs
      · exact h
      · exact h.initDelayed handle cb data
  | startDelayed t w interval type =>
      rw [delayedStep]
      split_ifs
      · refine h.timerStep (fun _ _ _ heq ↦ by cases heq) ?_
        rintro id ⟨t, heq, _⟩
        cases heq
      · exact h
  | stopDelayed t w =>
      rw [delayedStep]
      split_ifs
      · refine h.timerStep (fun _ _ _ heq ↦ by cases heq) ?_
        rintro id ⟨t, heq, _⟩
        cases heq
      · exact h
  | cancelDelayed t w =>
      rw [delayedStep]
      split_ifs with hready
      · have hcall : DelayedInv (s.setCancel t (.deleting w)) := by
          refine h.setCancel ?_ fun _ heq ↦ by cases heq
          rintro w' heq
          rw [← CancelCall.deleting.inj heq]
          exact hready.1
        refine hcall.timerStep (fun _ _ _ heq ↦ by cases heq) ?_
        rintro id ⟨t, heq, _⟩
        cases heq
      · exact h
  | cancelQueue t =>
      rw [delayedStep]
      split
      · rename_i w hcall
        dsimp only
        split_ifs with hfreed
        · have hqueue : DelayedInv (s.setQueue (s.work w).handle
              (talWorkqueueCancel (s.queue (s.work w).handle) (s.work w).cb (s.work w).data)) :=
            ⟨h.timers, h.chosen, h.linked, h.cancelled, h.deleting, h.freeing, h.begun⟩
          refine hqueue.setCancel (fun _ heq ↦ by cases heq) ?_
          rintro w' heq
          obtain rfl := CancelCall.freeing.inj heq
          exact ⟨h.deleting t w hcall, hfreed⟩
        · exact h
      · exact h
  | cancelReturn t =>
      rw [delayedStep]
      split
      · rename_i w hcall
        exact h.cancelReturn hcall (hx w hcall)
      · exact h
  | schedule alloc =>
      rw [delayedStep]
      split
      · rw [DelayedSystem.schedule]
        dsimp only
        split_ifs
        · exact h.setCallback fun w heq ↦ by cases heq
        · exact h.setCallback fun w heq ↦ by cases heq
      · exact h
  | post =>
      rw [delayedStep]
      split
      · exact h.setCallback fun w heq ↦ by cases heq
      · exact h

end Steps

/-! ## Runs -/

theorem delayedStep_event {s : DelayedSystem} {x : DelayedStep} {event : DelayedEvent}
    (h : event ∈ (delayedStep s x).2) :
    (∃ y e, event = .timer e ∧ e ∈ (timerStep s.timers y).2) ∨
      ∃ w, event = .put w ∧ s.callback = .begun w := by
  have htimer : ∀ s' : DelayedSystem, s'.timers = s.timers → ∀ y, event ∈ (s'.timerStep y).2 →
      ∃ y e, event = .timer e ∧ e ∈ (timerStep s.timers y).2 := by
    intro s' hsame y hevent
    obtain ⟨e, he, rfl⟩ := List.mem_map.mp hevent
    rw [hsame] at he
    exact ⟨y, e, rfl, he⟩
  cases x with
  | timer y =>
      rw [delayedStep] at h
      split_ifs at h
      · exact .inl (htimer s rfl y h)
      · cases h
  | startDelayed t w interval type =>
      rw [delayedStep] at h
      split_ifs at h
      · exact .inl (htimer s rfl _ h)
      · cases h
  | stopDelayed t w =>
      rw [delayedStep] at h
      split_ifs at h
      · exact .inl (htimer s rfl _ h)
      · cases h
  | cancelDelayed t w =>
      rw [delayedStep] at h
      split_ifs at h
      · exact .inl (htimer (s.setCancel t _) rfl _ h)
      · cases h
  | schedule alloc =>
      rw [delayedStep] at h
      split at h
      · rename_i w hbegun
        rw [DelayedSystem.schedule] at h
        dsimp only at h
        split_ifs at h
        · cases h
        · exact .inr ⟨w, List.mem_singleton.mp h, hbegun⟩
      · cases h
  | queue | initDelayed =>
      rw [delayedStep] at h
      split_ifs at h <;> cases h
  | cancelQueue =>
      rw [delayedStep] at h
      split at h
      · dsimp only at h
        split_ifs at h <;> cases h
      · cases h
  | cancelReturn | post =>
      rw [delayedStep] at h
      split at h <;> cases h

theorem DelayedInv.quiet {s : DelayedSystem} (h : DelayedInv s) (x : DelayedStep) : Quiet s x := by
  have hthread : ∀ id e, (e = .record id ∨ e = .begin id) → .timer e ∈ (delayedStep s x).2 →
      (s.timers.mgr.timer id).life ≠ .freed := by
    intro id e he hevent
    rcases delayedStep_event hevent with ⟨y, e', heq, hin⟩ | ⟨w, heq, _⟩
    · obtain rfl := DelayedEvent.timer.inj heq
      have hread : .record id ∈ (Tal.timerStep s.timers y).2 ∨
          .begin id ∈ (Tal.timerStep s.timers y).2 := by
        rcases he with rfl | rfl
        · exact .inl hin
        · exact .inr hin
      obtain ⟨cb, hcall⟩ := thread_event hread
      exact (h.chosen id cb hcall).2.2
    · cases heq
  refine ⟨?_, fun id ↦ hthread id _ (.inl rfl), fun id ↦ hthread id _ (.inr rfl), ?_⟩
  · intro id hid hfreed
    rcases List.mem_append.mp hid with hactive | hstandby
    · cases hfreed.symm.trans ((h.timers.mgr.active id).mp hactive).1
    · cases hfreed.symm.trans ((h.timers.mgr.standby id).mp hstandby).1
  · intro w hput
    rcases delayedStep_event hput with ⟨y, e, heq, _⟩ | ⟨w', heq, hbegun⟩
    · cases heq
    · obtain rfl := DelayedEvent.put.inj heq
      exact h.begun w hbegun

/-- In every run in which the deletions and the cancels wait for the timer thread. -/
theorem cancelled_is_quiet {queueLen : ℕ → ℕ} {steps : List DelayedStep}
    (h : delayedMachine.Guarded Awaited (delayedInit queueLen) steps) (k : ℕ) {x : DelayedStep}
    (hx : steps[k]? = some x) :
    Quiet (delayedMachine.final (delayedInit queueLen) (steps.take k)) x :=
  (delayedMachine.inv_final (fun _ _ hs hq ↦ hs.step hq) (delayedInv_init queueLen)
    (h.step_at hx).1).quiet x

/-- One piece of delayed work, which the timer thread begins. -/
def delayedOnce : List DelayedStep :=
  [.initDelayed 0 7 0 true true, .startDelayed 1 0 0 .once, .timer (.startSection 1),
    .timer (.post 1), .timer .wake, .timer .readTime, .timer .dispatch]

def callbackOnce : List DelayedStep :=
  [.timer .callBegin, .schedule true, .post, .timer .callReturn]

def cancelOnce : List DelayedStep :=
  [.cancelDelayed 1 0, .timer (.post 1), .timer (.free 1)]

def cancelEnd : List DelayedStep := [.cancelQueue 1, .cancelReturn 1]

theorem cancelled_is_quiet_delayedOnce :
    Quiet (delayedMachine.final (delayedInit fun _ ↦ 4)
      ((delayedOnce ++ callbackOnce ++ cancelOnce ++ cancelEnd).take 15)) (.cancelReturn 1) := by
  have hguard : delayedMachine.Guarded Awaited (delayedInit fun _ ↦ 4)
      (delayedOnce ++ callbackOnce ++ cancelOnce ++ cancelEnd) := by
    refine ⟨trivial, trivial, trivial, trivial, trivial, trivial, trivial, trivial, trivial,
      trivial, trivial, trivial, trivial, ?_, trivial, ?_, trivial⟩
    · intro id _ cb hcall
      cases hcall
    · intro w _ hbegun
      cases hbegun
  exact cancelled_is_quiet hguard 15 rfl

/-- The deletion returns between the section that chooses the timer and the reading of its record,
and the cancel between the beginning of the callback and the put of the item. -/
theorem cancelled_not_quiet :
    ¬Quiet (delayedMachine.final (delayedInit fun _ ↦ 4) (delayedOnce ++ cancelOnce))
      (.timer .callBegin) ∧
    ¬Quiet (delayedMachine.final (delayedInit fun _ ↦ 4)
      (delayedOnce ++ [.timer .callBegin] ++ cancelOnce ++ cancelEnd)) (.schedule true) := by
  constructor
  · intro h
    exact absurd (h.begin 0 (by decide)) (by decide)
  · intro h
    exact absurd (h.put 0 (by decide)) (by decide)

end TuyaOpen.Tal
