import Mathlib.Data.List.Nodup
import Mathlib.Data.List.Range
import TuyaOpen.Lib.Mealy
import TuyaOpen.Tal.WorkQueue

/-!
# Runs of a work queue

The callers, the cancels and the thread in any order: which items are run, in what order and how
often.
-/

namespace TuyaOpen.Tal

open List (Perm)

def workMachine : Mealy WorkQueue WorkStep (List WorkEvent) where
  step := workStep

/-! ## What a run should look like -/

/-- The order of the queue: instant items come first, the latest of them in front, and the others
as they came. -/
def WorkItem.Before (a b : WorkItem) : Prop :=
  a.instant = true ∧ (b.instant = true → b.id < a.id) ∨
    a.instant = false ∧ b.instant = false ∧ a.id < b.id

/-- The number of the item that the thread has. -/
def Worker.hand : Worker → List ℕ
  | .running item => [item.id]
  | _ => []

/-- A post does not overflow, the first item of the queue is taken, and a cancel disables the items
that share its callback or its data. -/
def WorkStepOk (s : WorkQueue) : WorkStep → Prop
  | .post t => t ∈ s.posting → (workStep s (.post t)).2 = [.returned t oprtOk]
  | .output => s.worker = .claimed → ∃ item rest, s.queue.head = item :: rest ∧
      (∀ other ∈ rest, item.Before other) ∧ (workStep s .output).1.worker = .running item
  | .cancel cb data => cb ≠ 0 → data ≠ 0 →
      (workStep s (.cancel cb data)).1.queue.head =
        s.queue.head.map fun item ↦
          if cb = item.cb ∨ data = item.data then { item with cb := 0 } else item
  | _ => True

/-- An item that no cancel disabled is still to be run, or was run once; the items were run in
the order in which they were taken, and the thread does not sleep on items that nobody is about
to post. -/
structure WorkOk (s : WorkQueue) : Prop where
  once : ∀ id < s.queued, id ∉ s.targeted →
    (id ∈ s.queue.head.map WorkItem.id ∨ s.worker.hand = [id]) ∧ s.ran.count id = 0 ∨
      s.ran.count id = 1
  order : s.ran.Sublist s.taken
  awake : s.queue.head ≠ [] → s.worker = .waiting → 0 < s.sem ∨ s.posting ≠ []

/-- The steps of the thread and the posts that are due. -/
def WorkStep.Serves : WorkStep → Prop
  | .post _ => True
  | .wait => True
  | .output => True
  | .run => True
  | _ => False

/-! ## The invariant -/

structure WorkInv (queueLen : ℕ) (s : WorkQueue) : Prop where
  len : s.queue.queueLen = queueLen
  free : s.queue.queueFree + s.queue.head.length = queueLen
  balance : s.queue.head.length =
    s.sem + s.posting.length + if s.worker = .claimed then 1 else 0
  order : s.queue.head.Pairwise WorkItem.Before
  ids : Perm (s.taken ++ s.queue.head.map WorkItem.id) (List.range s.queued)
  disabled : ∀ item, item ∈ s.queue.head ∨ s.worker = .running item →
    item.cb = 0 → item.id ∈ s.targeted
  settled : ∃ pre, s.taken = pre ++ s.worker.hand ∧ s.ran.Sublist pre ∧
    ∀ id ∈ pre, id ∈ s.ran ∨ id ∈ s.targeted

theorem workInv_init (queueLen : ℕ) : WorkInv queueLen (workInit queueLen) where
  len := rfl
  free := rfl
  balance := rfl
  order := List.Pairwise.nil
  ids := Perm.refl _
  disabled item h := by rcases h with h | h <;> cases h
  settled := ⟨[], rfl, List.Sublist.refl _, by simp⟩

section Steps

variable {queueLen : ℕ} {s : WorkQueue}

theorem WorkInv.id_lt (h : WorkInv queueLen s) {item : WorkItem} (hitem : item ∈ s.queue.head) :
    item.id < s.queued := by
  rw [← List.mem_range, ← h.ids.mem_iff]
  exact List.mem_append_right _ (List.mem_map_of_mem hitem)

theorem WorkInv.push (h : WorkInv queueLen s) (t : ℕ) (instant : Bool) {cb : ℕ} (hcb : cb ≠ 0)
    (data : ℕ) (hfree : 0 < s.queue.queueFree) :
    WorkInv queueLen { s with
      queue := { s.queue with
        head := if instant then ⟨cb, data, s.queued, instant⟩ :: s.queue.head
          else s.queue.head ++ [⟨cb, data, s.queued, instant⟩]
        queueFree := s.queue.queueFree - 1 }
      queued := s.queued + 1
      posting := t :: s.posting } := by
  set item : WorkItem := ⟨cb, data, s.queued, instant⟩ with hitem
  have hperm : Perm (if instant then item :: s.queue.head else s.queue.head ++ [item])
      (item :: s.queue.head) := by
    split_ifs
    · exact Perm.refl _
    · exact List.perm_append_comm
  have hfree' := h.free
  have hbalance := h.balance
  refine ⟨h.len, ?_, ?_, ?_, ?_, ?_, h.settled⟩
  · dsimp only
    rw [hperm.length_eq, List.length_cons]
    omega
  · dsimp only
    rw [hperm.length_eq, List.length_cons, List.length_cons]
    omega
  · dsimp only
    cases instant with
    | true =>
        rw [if_pos rfl]
        refine List.pairwise_cons.mpr ⟨?_, h.order⟩
        intro other hother
        exact .inl ⟨rfl, fun _ ↦ h.id_lt hother⟩
    | false =>
        rw [if_neg (by decide)]
        refine List.pairwise_append.mpr ⟨h.order, List.pairwise_singleton .., ?_⟩
        intro other hother new hnew
        obtain rfl := List.mem_singleton.mp hnew
        cases hinst : other.instant with
        | true => exact .inl ⟨hinst, fun hnot ↦ by cases hnot⟩
        | false => exact .inr ⟨hinst, rfl, h.id_lt hother⟩
  · dsimp only
    have hids : Perm (s.taken ++ (item :: s.queue.head).map WorkItem.id)
        (List.range (s.queued + 1)) := by
      rw [List.range_succ, List.map_cons]
      exact List.perm_middle.trans
        ((h.ids.cons s.queued).trans (List.perm_append_singleton ..).symm)
    exact ((hperm.map WorkItem.id).append_left s.taken).trans hids
  · intro other hother hzero
    dsimp only at hother
    rw [hperm.mem_iff, List.mem_cons] at hother
    rcases hother with (rfl | hother) | hother
    · exact absurd hzero hcb
    · exact h.disabled other (.inl hother) hzero
    · exact h.disabled other (.inr hother) hzero

theorem WorkInv.schedule (h : WorkInv queueLen s) (t : ℕ) (instant : Bool) (cb data : ℕ)
    (alloc : Bool) : WorkInv queueLen (talWorkqueueSchedule s t instant cb data alloc).1 := by
  rw [talWorkqueueSchedule]
  by_cases hcb : cb = 0
  · rw [if_pos hcb]
    exact h
  rw [if_neg hcb, TuyaQueue.enqueue]
  by_cases halloc : alloc = false
  · rw [if_pos halloc]
    exact h
  rw [if_neg halloc]
  by_cases hfree : 0 < s.queue.queueFree
  · rw [if_pos hfree]
    exact h.push t instant hcb data hfree
  · rw [if_neg hfree]
    exact h

theorem WorkInv.sem_lt (h : WorkInv queueLen s) {t : ℕ} (ht : t ∈ s.posting) :
    s.sem < s.queue.queueLen := by
  have hpos := List.length_pos_of_mem ht
  have hfree := h.free
  have hbalance := h.balance
  have hlen := h.len
  omega

theorem post_eq (h : WorkInv queueLen s) {t : ℕ} (ht : t ∈ s.posting) :
    workStep s (.post t) =
      ({ s with sem := s.sem + 1, posting := s.posting.erase t }, [.returned t oprtOk]) := by
  rw [workStep, if_pos ht, talSemaphorePost, if_pos (h.sem_lt ht)]

theorem WorkInv.post (h : WorkInv queueLen s) {t : ℕ} (ht : t ∈ s.posting) :
    WorkInv queueLen { s with sem := s.sem + 1, posting := s.posting.erase t } := by
  refine ⟨h.len, h.free, ?_, h.order, h.ids, h.disabled, h.settled⟩
  have hpos := List.length_pos_of_mem ht
  have hbalance := h.balance
  dsimp only
  rw [List.length_erase_of_mem ht]
  omega

theorem workCancelTraverse_id (cb data : ℕ) (item : WorkItem) :
    (workCancelTraverse cb data item).id = item.id := by
  rw [workCancelTraverse]
  split_ifs <;> rfl

theorem workCancelTraverse_instant (cb data : ℕ) (item : WorkItem) :
    (workCancelTraverse cb data item).instant = item.instant := by
  rw [workCancelTraverse]
  split_ifs <;> rfl

theorem WorkInv.cancel (h : WorkInv queueLen s) (cb data : ℕ) :
    WorkInv queueLen (talWorkqueueCancel s cb data) := by
  rw [talWorkqueueCancel]
  split_ifs
  · exact h
  · refine ⟨h.len, ?_, ?_, ?_, ?_, ?_, ?_⟩
    · dsimp only [TuyaQueue.traverse]
      rw [List.length_map]
      exact h.free
    · dsimp only [TuyaQueue.traverse]
      rw [List.length_map]
      exact h.balance
    · refine List.pairwise_map.mpr (h.order.imp ?_)
      intro a b hab
      rw [WorkItem.Before, workCancelTraverse_instant, workCancelTraverse_instant,
        workCancelTraverse_id, workCancelTraverse_id]
      exact hab
    · have hsame : (s.queue.head.map (workCancelTraverse cb data)).map WorkItem.id =
          s.queue.head.map WorkItem.id := by
        rw [List.map_map]
        apply List.map_congr_left
        intro item _
        exact workCancelTraverse_id cb data item
      dsimp only [TuyaQueue.traverse]
      rw [hsame]
      exact h.ids
    · rintro item (hitem | hrun) hzero
      · obtain ⟨old, hold, rfl⟩ := List.mem_map.mp hitem
        rw [workCancelTraverse_id]
        rw [workCancelTraverse] at hzero
        split_ifs at hzero with hsame
        · apply List.mem_append_right
          exact List.mem_map_of_mem (List.mem_filter.mpr ⟨hold, by simpa using hsame⟩)
        · exact List.mem_append_left _ (h.disabled old (.inl hold) hzero)
      · exact List.mem_append_left _ (h.disabled item (.inr hrun) hzero)
    · obtain ⟨pre, htaken, hran, hpre⟩ := h.settled
      exact ⟨pre, htaken, hran, fun id hid ↦ (hpre id hid).imp_right (List.mem_append_left _)⟩

theorem WorkInv.output_eq (h : WorkInv queueLen s) (hclaimed : s.worker = .claimed) :
    ∃ item rest, s.queue.head = item :: rest ∧ workStep s .output =
      ({ s with
        queue := { s.queue with head := rest, queueFree := s.queue.queueFree + 1 }
        worker := .running item
        taken := s.taken ++ [item.id] }, []) := by
  have hbalance := h.balance
  rw [if_pos hclaimed] at hbalance
  cases hhead : s.queue.head with
  | nil =>
      rw [hhead, List.length_nil] at hbalance
      omega
  | cons item rest =>
      have hfree := h.free
      have hlen := h.len
      rw [hhead, List.length_cons] at hfree
      have hroom : s.queue.queueFree < s.queue.queueLen := by omega
      refine ⟨item, rest, rfl, ?_⟩
      rw [workStep, if_pos hclaimed, TuyaQueue.output, if_pos hroom, hhead]

theorem WorkInv.output (h : WorkInv queueLen s) (hclaimed : s.worker = .claimed) :
    WorkInv queueLen (workStep s .output).1 := by
  obtain ⟨item, rest, hhead, heq⟩ := h.output_eq hclaimed
  have hfree := h.free
  have hbalance := h.balance
  have horder := h.order
  have hids := h.ids
  rw [if_pos hclaimed] at hbalance
  rw [hhead] at hfree hbalance horder hids
  rw [List.length_cons] at hfree hbalance
  rw [heq]
  refine ⟨h.len, ?_, ?_, (List.pairwise_cons.mp horder).2, ?_, ?_, ?_⟩
  · dsimp only
    omega
  · rw [if_neg (by simp)]
    dsimp only
    omega
  · dsimp only
    rw [List.append_assoc]
    exact hids
  · have hin : ∀ other, other ∈ rest ∨ Worker.running item = .running other →
        other ∈ s.queue.head := by
      rw [hhead]
      rintro other (hother | hrun)
      · exact List.mem_cons_of_mem _ hother
      · obtain rfl := Worker.running.inj hrun
        exact List.mem_cons_self ..
    intro other hother hzero
    exact h.disabled other (.inl (hin other hother)) hzero
  · obtain ⟨pre, htaken, hran, hpre⟩ := h.settled
    have hnone : s.worker.hand = [] := by
      rw [hclaimed]
      rfl
    rw [hnone, List.append_nil] at htaken
    subst htaken
    exact ⟨s.taken, rfl, hran, hpre⟩

theorem WorkInv.done (h : WorkInv queueLen s) {item : WorkItem} (hrun : s.worker = .running item)
    {ran : List ℕ} (hkeep : ∀ id ∈ s.ran, id ∈ ran) (hitem : item.id ∈ ran ∨ item.id ∈ s.targeted)
    (hran : ∀ pre, s.ran.Sublist pre → ran.Sublist (pre ++ [item.id])) :
    WorkInv queueLen { s with worker := .waiting, ran := ran } := by
  have hbalance := h.balance
  rw [if_neg (by simp [hrun])] at hbalance
  obtain ⟨pre, htaken, hsub, hpre⟩ := h.settled
  rw [hrun, Worker.hand] at htaken
  refine ⟨h.len, h.free, ?_, h.order, h.ids, ?_, ?_⟩
  · rw [if_neg (by simp)]
    exact hbalance
  · rintro other (hother | hnot) hzero
    · exact h.disabled other (.inl hother) hzero
    · cases hnot
  · refine ⟨pre ++ [item.id], htaken.trans (List.append_nil _).symm, hran pre hsub, ?_⟩
    intro id hid
    rcases List.mem_append.mp hid with hid | hid
    · exact (hpre id hid).imp_left (hkeep id)
    · obtain rfl := List.mem_singleton.mp hid
      exact hitem

theorem WorkInv.run (h : WorkInv queueLen s) {item : WorkItem} (hrun : s.worker = .running item) :
    WorkInv queueLen (workStep s .run).1 := by
  simp only [workStep, hrun]
  split_ifs with hcb
  · apply h.done hrun
    · exact fun id hid ↦ List.mem_append_left _ hid
    · exact .inl (List.mem_append_right _ (List.mem_singleton_self _))
    · exact fun pre hsub ↦ hsub.append (List.Sublist.refl _)
  · apply h.done hrun
    · exact fun id hid ↦ hid
    · exact .inr (h.disabled item (.inr hrun) (not_not.mp hcb))
    · exact fun pre hsub ↦ hsub.trans (List.sublist_append_left ..)

theorem WorkInv.wait (h : WorkInv queueLen s) (hready : s.worker = .waiting ∧ 0 < s.sem) :
    WorkInv queueLen { s with sem := s.sem - 1, worker := .claimed } := by
  obtain ⟨hwait, hsem⟩ := hready
  have hbalance := h.balance
  rw [if_neg (by simp [hwait])] at hbalance
  refine ⟨h.len, h.free, ?_, h.order, h.ids, ?_, ?_⟩
  · rw [if_pos rfl]
    dsimp only
    omega
  · rintro item (hitem | hnot) hzero
    · exact h.disabled item (.inl hitem) hzero
    · cases hnot
  · obtain ⟨pre, htaken, hsettled⟩ := h.settled
    rw [hwait] at htaken
    exact ⟨pre, htaken, hsettled⟩

theorem WorkInv.step (h : WorkInv queueLen s) (x : WorkStep) :
    WorkInv queueLen (workStep s x).1 := by
  cases x with
  | schedule t instant cb data alloc =>
      rw [workStep]
      split_ifs
      · exact h
      · exact h.schedule t instant cb data alloc
  | post t =>
      by_cases ht : t ∈ s.posting
      · rw [post_eq h ht]
        exact h.post ht
      · rw [workStep, if_neg ht]
        exact h
  | cancel cb data => exact h.cancel cb data
  | wait =>
      rw [workStep]
      split_ifs with hready
      · exact h.wait hready
      · exact h
  | output =>
      by_cases hclaimed : s.worker = .claimed
      · exact h.output hclaimed
      · rw [workStep, if_neg hclaimed]
        exact h
  | run =>
      cases hworker : s.worker with
      | running item => exact h.run hworker
      | waiting =>
          simp only [workStep, hworker]
          exact h
      | claimed =>
          simp only [workStep, hworker]
          exact h

theorem WorkInv.stepOk (h : WorkInv queueLen s) (x : WorkStep) : WorkStepOk s x := by
  cases x with
  | post t =>
      intro ht
      rw [post_eq h ht]
  | output =>
      intro hclaimed
      obtain ⟨item, rest, hhead, heq⟩ := h.output_eq hclaimed
      have horder := h.order
      rw [hhead] at horder
      refine ⟨item, rest, hhead, (List.pairwise_cons.mp horder).1, ?_⟩
      rw [heq]
  | cancel cb data =>
      intro hcb hdata
      have hsome : ¬(cb = 0 ∧ data = 0) := fun hnone ↦ hcb hnone.1
      rw [workStep, talWorkqueueCancel, if_neg hsome]
      apply List.map_congr_left
      intro item _
      simp only [workCancelTraverse, WorkItem.Same, hcb, hdata, ne_eq, not_false_eq_true, true_and]
  | _ => trivial

theorem WorkInv.ok (h : WorkInv queueLen s) : WorkOk s where
  once := by
    intro id hid htarget
    obtain ⟨pre, htaken, hran, hpre⟩ := h.settled
    have hnodup : (s.taken ++ s.queue.head.map WorkItem.id).Nodup :=
      h.ids.nodup_iff.mpr List.nodup_range
    have hin : id ∈ s.taken ++ s.queue.head.map WorkItem.id :=
      h.ids.mem_iff.mpr (List.mem_range.mpr hid)
    rw [htaken, List.append_assoc] at hnodup hin
    obtain ⟨hpreNodup, -, hdisjoint⟩ := List.nodup_append.mp hnodup
    rcases List.mem_append.mp hin with hin | hin
    · -- it was taken, and not by now
      have hrun : id ∈ s.ran := (hpre id hin).resolve_right htarget
      exact .inr (List.count_eq_one_of_mem (hpreNodup.sublist hran) hrun)
    · refine .inl ⟨?_, ?_⟩
      · rcases List.mem_append.mp hin with hin | hin
        · right
          cases hworker : s.worker with
          | running item =>
              rw [hworker] at hin
              rw [List.mem_singleton.mp hin]
              rfl
          | waiting =>
              rw [hworker] at hin
              cases hin
          | claimed =>
              rw [hworker] at hin
              cases hin
        · exact .inl hin
      · apply List.count_eq_zero_of_not_mem
        intro hrun
        exact hdisjoint id (hran.subset hrun) id hin rfl
  order := by
    obtain ⟨pre, htaken, hran, -⟩ := h.settled
    rw [htaken]
    exact hran.trans (List.sublist_append_left ..)
  awake := by
    intro hhead hwait
    have hpos := List.length_pos_of_ne_nil hhead
    have hbalance := h.balance
    rw [if_neg (by simp [hwait])] at hbalance
    by_contra hnot
    obtain ⟨hsem, hnone⟩ := not_or.mp hnot
    rw [not_not.mp hnone, List.length_nil] at hbalance
    omega

/-! ## Everything is run -/

/-- How much there is to do: three steps for an item, and the post for it. -/
def WorkQueue.todo (s : WorkQueue) : ℕ :=
  3 * s.queue.head.length + s.posting.length +
    match s.worker with
    | .waiting => 1
    | .claimed => 0
    | .running _ => 2

theorem WorkInv.serve (h : WorkInv queueLen s) (hmore : s.queue.head ≠ [] ∨ s.worker.hand ≠ []) :
    ∃ x : WorkStep, x.Serves ∧ (workStep s x).1.todo < s.todo ∧
      (workStep s x).1.targeted = s.targeted ∧ (workStep s x).1.queued = s.queued := by
  cases hworker : s.worker with
  | running item =>
      refine ⟨.run, trivial, ?_⟩
      simp only [workStep, hworker]
      split_ifs <;> simp [WorkQueue.todo, hworker]
  | claimed =>
      obtain ⟨item, rest, hhead, heq⟩ := h.output_eq hworker
      refine ⟨.output, trivial, ?_⟩
      rw [heq]
      refine ⟨?_, rfl, rfl⟩
      simp only [WorkQueue.todo, hworker, hhead, List.length_cons]
      omega
  | waiting =>
      have hhead : s.queue.head ≠ [] := by
        rcases hmore with hhead | hhand
        · exact hhead
        · rw [hworker] at hhand
          exact absurd rfl hhand
      rcases h.ok.awake hhead hworker with hsem | hposting
      · refine ⟨.wait, trivial, ?_⟩
        rw [workStep, if_pos ⟨hworker, hsem⟩]
        refine ⟨?_, rfl, rfl⟩
        simp only [WorkQueue.todo, hworker]
        omega
      · obtain ⟨t, ht⟩ := List.exists_mem_of_ne_nil _ hposting
        have hpos := List.length_pos_of_mem ht
        refine ⟨.post t, trivial, ?_⟩
        rw [post_eq h ht]
        refine ⟨?_, rfl, rfl⟩
        simp only [WorkQueue.todo, hworker, List.length_erase_of_mem ht]
        omega

theorem WorkInv.drain (h : WorkInv queueLen s) :
    ∃ more : List WorkStep, (∀ x ∈ more, x.Serves) ∧
      ∀ id < s.queued, id ∉ s.targeted → (workMachine.final s more).ran.count id = 1 := by
  induction htodo : s.todo using Nat.strong_induction_on generalizing s with
  | _ todo ih =>
      by_cases hmore : s.queue.head ≠ [] ∨ s.worker.hand ≠ []
      · obtain ⟨x, hserves, hless, htargeted, hqueued⟩ := h.serve hmore
        obtain ⟨more, hall, hran⟩ := ih _ (htodo ▸ hless) (h.step x) rfl
        rw [htargeted, hqueued] at hran
        exact ⟨x :: more, List.forall_mem_cons.mpr ⟨hserves, hall⟩, hran⟩
      · obtain ⟨hhead, hhand⟩ := not_or.mp hmore
        refine ⟨[], by simp, ?_⟩
        intro id hid htarget
        rcases h.ok.once id hid htarget with ⟨hin | hin, -⟩ | hran
        · rw [not_not.mp hhead] at hin
          cases hin
        · rw [not_not.mp hhand] at hin
          cases hin
        · exact hran

end Steps

/-! ## Runs -/

/-- Over any calls of any threads. -/
theorem work_items_run_once (queueLen : ℕ) (steps : List WorkStep) (k : ℕ) :
    let s := workMachine.final (workInit queueLen) (steps.take k)
    (∀ x, steps[k]? = some x → WorkStepOk s x) ∧ WorkOk s ∧
      ∃ more : List WorkStep, (∀ x ∈ more, x.Serves) ∧
        ∀ id < s.queued, id ∉ s.targeted → (workMachine.final s more).ran.count id = 1 := by
  have hinv : WorkInv queueLen (workMachine.final (workInit queueLen) (steps.take k)) :=
    workMachine.inv_final (fun _ x h _ ↦ h.step x) (workInv_init queueLen)
      (workMachine.guarded_true (workInit queueLen) (steps.take k))
  exact ⟨fun x _ ↦ hinv.stepOk x, hinv.ok, hinv.drain⟩

/-- Two items with the same callback, and a cancel of one of them. -/
theorem cancel_disables_other_item :
    ¬∀ (steps : List WorkStep) (cb data : ℕ), cb ≠ 0 → data ≠ 0 →
      let s := workMachine.final (workInit 2) steps
      (talWorkqueueCancel s cb data).queue.head =
        s.queue.head.map fun item ↦
          if cb = item.cb ∧ data = item.data then { item with cb := 0 } else item := by
  intro h
  have hboth := h [.schedule 0 false 1 7 true, .schedule 1 false 1 8 true] 1 7 (by decide)
    (by decide)
  exact absurd hboth (by decide)

end TuyaOpen.Tal
