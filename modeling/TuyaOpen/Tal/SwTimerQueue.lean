import Mathlib.Data.List.Sort
import Mathlib.Data.List.Nodup
import TuyaOpen.Lib.Mealy
import TuyaOpen.Tal.SwTimer

/-!
# The queue of the software timers

Any calls of any threads, with the timer thread: the lists and their counters, the order of the
list, when a timer is dispatched, and how long the timer thread sleeps.
-/

namespace TuyaOpen.Tal

open List (Perm)

/-- A live timer is in the list that its flag says, the active ones are in the order of their
expiration, and the counters are the lengths in their sixteen bits. -/
structure MgrInv (m : SwTimerMgr) : Prop where
  active : ∀ id, id ∈ m.listActive ↔ (m.timer id).life = .live ∧ (m.timer id).isRunning = true
  standby : ∀ id, id ∈ m.listStandby ↔ (m.timer id).life = .live ∧ (m.timer id).isRunning = false
  nodupActive : m.listActive.Nodup
  nodupStandby : m.listStandby.Nodup
  sorted : m.listActive.Pairwise fun i j ↦ (m.timer i).expireTime ≤ (m.timer j).expireTime
  running : m.runningCnt = u16 m.listActive.length
  total : m.totalCnt = u16 (m.listActive.length + m.listStandby.length)
  once : ∀ id, (m.timer id).type = .once →
    (m.timer id).fired ≤ 1 ∧ ((m.timer id).isRunning = true → (m.timer id).fired = 0)

theorem u16Pred_u16 {n : ℕ} (h : 0 < n) : u16Pred (u16 n) = u16 (n - 1) := by
  rw [u16Pred, u16, u16]
  omega

theorem u16_succ (n : ℕ) : u16 (u16 n + 1) = u16 (n + 1) := by
  rw [u16, u16, u16]
  omega

namespace SwTimerMgr

theorem attachLoop_eq (timer : ℕ → TimerT) (id : ℕ) (l : List ℕ) :
    attachLoop timer id l =
      l.orderedInsert (fun i j ↦ (timer i).expireTime ≤ (timer j).expireTime) id := by
  induction l with
  | nil => rfl
  | cons p rest ih => rw [attachLoop, List.orderedInsert_cons, ih]

theorem attachLoop_perm (timer : ℕ → TimerT) (id : ℕ) (l : List ℕ) :
    Perm (attachLoop timer id l) (id :: l) := by
  rw [attachLoop_eq]
  exact List.perm_orderedInsert ..

theorem attachLoop_sorted (timer : ℕ → TimerT) (id : ℕ) {l : List ℕ}
    (h : l.Pairwise fun i j ↦ (timer i).expireTime ≤ (timer j).expireTime) :
    (attachLoop timer id l).Pairwise fun i j ↦ (timer i).expireTime ≤ (timer j).expireTime := by
  rw [attachLoop_eq]
  have htotal : Std.Total fun i j ↦ (timer i).expireTime ≤ (timer j).expireTime :=
    ⟨fun i j ↦ Nat.le_total ..⟩
  have htrans : IsTrans ℕ fun i j ↦ (timer i).expireTime ≤ (timer j).expireTime :=
    ⟨fun _ _ _ ↦ Nat.le_trans⟩
  exact h.orderedInsert id l

end SwTimerMgr

open SwTimerMgr

section Sections

variable {m m' : SwTimerMgr} {id : ℕ} {t : TimerT}

/-- A timer has a new record and is linked anew, as its record says. -/
structure Relinked (m m' : SwTimerMgr) (id : ℕ) (t : TimerT) : Prop where
  timer : m'.timer = Function.update m.timer id t
  active : Perm m'.listActive
    ((if t.life = .live ∧ t.isRunning = true then [id] else []) ++ m.listActive.erase id)
  standby : Perm m'.listStandby
    ((if t.life = .live ∧ t.isRunning = false then [id] else []) ++ m.listStandby.erase id)
  sorted : m'.listActive.Pairwise fun i j ↦ (m'.timer i).expireTime ≤ (m'.timer j).expireTime

theorem mem_relinked {l l' : List ℕ} {P : Prop} [Decidable P] (hnodup : l.Nodup)
    (hperm : Perm l' ((if P then [id] else []) ++ l.erase id)) (i : ℕ) :
    i ∈ l' ↔ if i = id then P else i ∈ l := by
  rw [hperm.mem_iff, List.mem_append, hnodup.mem_erase_iff]
  by_cases hi : i = id
  · subst hi
    by_cases hP : P <;> simp [hP]
  · by_cases hP : P <;> simp [hP, hi]

theorem nodup_relinked {l l' : List ℕ} {P : Prop} [Decidable P] (hnodup : l.Nodup)
    (hperm : Perm l' ((if P then [id] else []) ++ l.erase id)) : l'.Nodup := by
  rw [hperm.nodup_iff]
  by_cases hP : P
  · rw [if_pos hP, List.singleton_append, List.nodup_cons]
    exact ⟨hnodup.not_mem_erase, hnodup.erase id⟩
  · rw [if_neg hP]
    exact hnodup.erase id

theorem length_erase_add (l : List ℕ) {P : Prop} [Decidable P] (hmem : id ∈ l ↔ P) :
    (l.erase id).length + (if P then 1 else 0) = l.length := by
  by_cases hP : P
  · have hin := hmem.mpr hP
    have hpos := List.length_pos_of_mem hin
    rw [if_pos hP, List.length_erase_of_mem hin]
    omega
  · rw [if_neg hP, List.erase_of_not_mem fun hin ↦ hP (hmem.mp hin)]
    rfl

theorem length_relinked {l l' : List ℕ} {P : Prop} [Decidable P]
    (hperm : Perm l' ((if P then [id] else []) ++ l.erase id)) :
    l'.length = (l.erase id).length + if P then 1 else 0 := by
  rw [hperm.length_eq, List.length_append, Nat.add_comm]
  split_ifs <;> rfl

theorem MgrInv.relink (h : MgrInv m) (hlink : Relinked m m' id t)
    (hrunning : m'.runningCnt = u16 m'.listActive.length)
    (htotal : m'.totalCnt = u16 (m'.listActive.length + m'.listStandby.length))
    (honce : t.type = .once → t.fired ≤ 1 ∧ (t.isRunning = true → t.fired = 0)) : MgrInv m' := by
  have hself : m'.timer id = t := by rw [hlink.timer, Function.update_self]
  have hother : ∀ i, i ≠ id → m'.timer i = m.timer i := by
    intro i hi
    rw [hlink.timer, Function.update_of_ne hi]
  refine ⟨?_, ?_, nodup_relinked h.nodupActive hlink.active,
    nodup_relinked h.nodupStandby hlink.standby, hlink.sorted, hrunning, htotal, ?_⟩
  · intro i
    rw [mem_relinked h.nodupActive hlink.active]
    split_ifs with hi
    · rw [hi, hself]
    · rw [hother i hi]
      exact h.active i
  · intro i
    rw [mem_relinked h.nodupStandby hlink.standby]
    split_ifs with hi
    · rw [hi, hself]
    · rw [hother i hi]
      exact h.standby i
  · intro i
    by_cases hi : i = id
    · rw [hi, hself]
      exact honce
    · rw [hother i hi]
      exact h.once i

theorem MgrInv.length_active (h : MgrInv m) (id : ℕ) :
    (m.listActive.erase id).length +
      (if (m.timer id).life = .live ∧ (m.timer id).isRunning = true then 1 else 0) =
        m.listActive.length :=
  length_erase_add m.listActive (h.active id)

theorem MgrInv.length_standby (h : MgrInv m) (id : ℕ) :
    (m.listStandby.erase id).length +
      (if (m.timer id).life = .live ∧ (m.timer id).isRunning = false then 1 else 0) =
        m.listStandby.length :=
  length_erase_add m.listStandby (h.standby id)

theorem MgrInv.sorted_erase (h : MgrInv m) (id : ℕ) (t : TimerT) :
    (m.listActive.erase id).Pairwise fun i j ↦
      (Function.update m.timer id t i).expireTime ≤
      (Function.update m.timer id t j).expireTime := by
  refine (h.sorted.sublist List.erase_sublist).imp_of_mem ?_
  intro i j hi hj hle
  rw [Function.update_of_ne ((h.nodupActive.mem_erase_iff).mp hi).1,
    Function.update_of_ne ((h.nodupActive.mem_erase_iff).mp hj).1]
  exact hle

theorem Relinked.attach (h : MgrInv m) (t : TimerT) (hlive : t.life = .live)
    (hrun : t.isRunning = true) (id : ℕ) : Relinked m ((m.set id t).attach id) id t where
  timer := rfl
  active := by
    rw [if_pos ⟨hlive, hrun⟩]
    exact attachLoop_perm ..
  standby := by
    rw [if_neg (by simp [hrun])]
    exact Perm.refl _
  sorted := attachLoop_sorted _ id (h.sorted_erase id t)

theorem Relinked.standBy (h : MgrInv m) (t : TimerT) (hlive : t.life = .live)
    (hrun : t.isRunning = false) (id : ℕ) : Relinked m ((m.set id t).standBy id) id t where
  timer := rfl
  active := by
    rw [if_neg (by simp [hrun])]
    exact Perm.refl _
  standby := by
    rw [if_pos ⟨hlive, hrun⟩]
    exact List.perm_append_comm
  sorted := h.sorted_erase id t

theorem Relinked.total (h : MgrInv m) (hlink : Relinked m m' id t)
    (hlive : (m.timer id).life = .live) (hlive' : t.life = .live) :
    m'.listActive.length + m'.listStandby.length = m.listActive.length + m.listStandby.length := by
  have hactive := h.length_active id
  have hstandby := h.length_standby id
  rw [length_relinked hlink.active, length_relinked hlink.standby]
  cases hold : (m.timer id).isRunning <;> cases hnew : t.isRunning <;>
    simp [hlive, hlive', hold] at * <;> omega

theorem MgrInv.create (h : MgrInv m) (hfresh : (m.timer id).life ≠ .live) (func arg : ℕ) :
    MgrInv (m.create id func arg) := by
  have hnone : id ∉ m.listActive := fun hin ↦ hfresh ((h.active id).mp hin).1
  have hnone' : id ∉ m.listStandby := fun hin ↦ hfresh ((h.standby id).mp hin).1
  have hlink : Relinked m (m.create id func arg) id
      { unbornTimer with cb := func, data := arg, life := .live } := by
    refine ⟨rfl, ?_, ?_, ?_⟩
    · rw [List.erase_of_not_mem hnone]
      exact Perm.refl _
    · rw [List.erase_of_not_mem hnone']
      exact List.perm_append_comm
    · have hsorted := h.sorted_erase id
        { unbornTimer with cb := func, data := arg, life := .live }
      rw [List.erase_of_not_mem hnone] at hsorted
      exact hsorted
  refine h.relink hlink h.running ?_ ?_
  · have hlen : (m.create id func arg).listStandby.length = m.listStandby.length + 1 :=
      List.length_append
    have hsame : (m.create id func arg).listActive.length = m.listActive.length := rfl
    rw [hlen, hsame, ← Nat.add_assoc, ← u16_succ, ← h.total]
    rfl
  · intro _
    exact ⟨Nat.zero_le _, fun _ ↦ rfl⟩

theorem MgrInv.delete (h : MgrInv m) (hlive : (m.timer id).life = .live) :
    MgrInv (m.delete id) := by
  have hlink : Relinked m (m.delete id) id { m.timer id with life := .unlinked } :=
    ⟨rfl, Perm.refl _, Perm.refl _, h.sorted_erase id _⟩
  have hactive := h.length_active id
  have hstandby := h.length_standby id
  have hlen : (m.delete id).listActive.length = (m.listActive.erase id).length := rfl
  have hlen' : (m.delete id).listStandby.length = (m.listStandby.erase id).length := rfl
  refine h.relink hlink ?_ ?_ (h.once id)
  · have hcnt : (m.delete id).runningCnt =
        if (m.timer id).isRunning then u16Pred m.runningCnt else m.runningCnt := rfl
    rw [hcnt, h.running, hlen]
    cases hrun : (m.timer id).isRunning with
    | true =>
        rw [if_pos ⟨hlive, hrun⟩] at hactive
        rw [if_pos rfl, u16Pred_u16 (by omega), ← hactive, Nat.add_sub_cancel]
    | false =>
        rw [if_neg (by simp [hrun])] at hactive
        rw [if_neg (by simp), ← hactive, Nat.add_zero]
  · have hcnt : (m.delete id).totalCnt = u16Pred m.totalCnt := rfl
    have hone : (m.listActive.erase id).length + (m.listStandby.erase id).length + 1 =
        m.listActive.length + m.listStandby.length := by
      cases hrun : (m.timer id).isRunning <;> simp [hlive, hrun] at hactive hstandby <;> omega
    rw [hcnt, h.total, hlen, hlen', u16Pred_u16 (by omega), ← hone, Nat.add_sub_cancel]

/-- The counter of the running timers when one of them changes. -/
def runningAfter (cnt : ℕ) : Bool → Bool → ℕ
  | true, false => u16Pred cnt
  | false, true => u16 (cnt + 1)
  | true, true => cnt
  | false, false => cnt

theorem MgrInv.relink_live (h : MgrInv m) (hlive : (m.timer id).life = .live)
    (hlink : Relinked m m' id t) (hlive' : t.life = .live)
    (hrunning : m'.runningCnt = runningAfter m.runningCnt (m.timer id).isRunning t.isRunning)
    (htotal : m'.totalCnt = m.totalCnt)
    (honce : t.type = .once → t.fired ≤ 1 ∧ (t.isRunning = true → t.fired = 0)) : MgrInv m' := by
  have hactive := h.length_active id
  have hactive' := length_relinked hlink.active
  refine h.relink hlink ?_ ?_ honce
  · rw [hrunning, h.running]
    cases hold : (m.timer id).isRunning <;> cases hnew : t.isRunning <;>
      simp [hlive, hlive', hold, hnew] at hactive hactive'
    · rw [hactive', hactive, runningAfter]
    · rw [runningAfter, u16_succ, hactive', hactive]
    · rw [runningAfter, u16Pred_u16 (by omega), hactive', ← hactive, Nat.add_sub_cancel]
    · rw [hactive', hactive, runningAfter]
  · rw [htotal, hlink.total h hlive hlive', h.total]

theorem MgrInv.stop (h : MgrInv m) (hlive : (m.timer id).life = .live) : MgrInv (m.stop id) := by
  rw [SwTimerMgr.stop]
  split_ifs with hrun
  · set t : TimerT := { m.timer id with isRunning := false } with ht
    have hlink : Relinked m ((m.set id t).standBy id) id t := Relinked.standBy h t hlive rfl id
    refine h.relink_live hlive ⟨hlink.timer, hlink.active, hlink.standby, hlink.sorted⟩ hlive
      ?_ rfl ?_
    · rw [hrun]
      rfl
    · intro htype
      exact ⟨(h.once id htype).1, fun hrun ↦ by cases hrun⟩
  · exact h

theorem MgrInv.start (h : MgrInv m) (hlive : (m.timer id).life = .live) (timeMs : ℕ)
    (type : TimerType) (now : ℕ) : MgrInv (m.start id timeMs type now) := by
  rw [SwTimerMgr.start]
  generalize (if timeMs ≠ 0 then timeMs else (m.timer id).interval) = interval
  set t : TimerT := { m.timer id with
    isRunning := true
    interval := interval
    type := type
    expireTime := u64 (now + interval)
    fired := 0 } with ht
  have hlink : Relinked m ((m.set id t).attach id) id t := Relinked.attach h t hlive rfl id
  refine h.relink_live hlive ⟨hlink.timer, hlink.active, hlink.standby, hlink.sorted⟩ hlive
    ?_ rfl ?_
  · cases hrun : (m.timer id).isRunning <;> rfl
  · intro _
    exact ⟨Nat.zero_le _, fun _ ↦ rfl⟩

theorem MgrInv.trigger (h : MgrInv m) (hlive : (m.timer id).life = .live) :
    MgrInv (m.trigger id) := by
  rw [SwTimerMgr.trigger]
  set t : TimerT := { m.timer id with expireTime := 0 } with ht
  have hself : (m.set id t).timer id = t := Function.update_self ..
  dsimp only
  rw [hself]
  split_ifs with hrun
  · have hlink : Relinked m { (m.set id t).listDel id with
        listActive := id :: ((m.set id t).listDel id).listActive } id t := by
      refine ⟨rfl, ?_, ?_, ?_⟩
      · rw [if_pos ⟨hlive, hrun⟩]
        exact Perm.refl _
      · rw [if_neg (by simp [hrun])]
        exact Perm.refl _
      · refine List.pairwise_cons.mpr ⟨?_, h.sorted_erase id t⟩
        intro i _
        have hzero : (Function.update m.timer id t id).expireTime = 0 := by
          rw [Function.update_self]
        exact hzero.le.trans (Nat.zero_le _)
    refine h.relink_live hlive hlink hlive ?_ rfl (h.once id)
    have hsame : t.isRunning = (m.timer id).isRunning := rfl
    rw [← hsame, hrun]
    rfl
  · have hstop : (m.timer id).isRunning = false := by simpa [ht] using hrun
    have hnone : id ∉ m.listActive := by
      intro hin
      rw [((h.active id).mp hin).2] at hstop
      cases hstop
    have hin : id ∈ m.listStandby := (h.standby id).mpr ⟨hlive, hstop⟩
    have hlink : Relinked m (m.set id t) id t := by
      refine ⟨rfl, ?_, ?_, ?_⟩
      · rw [if_neg (fun hand ↦ hrun hand.2), List.erase_of_not_mem hnone]
        exact Perm.refl _
      · rw [if_pos ⟨hlive, hstop⟩]
        exact List.perm_cons_erase hin
      · have hsorted := h.sorted_erase id t
        rw [List.erase_of_not_mem hnone] at hsorted
        exact hsorted
    refine h.relink_live hlive hlink hlive ?_ rfl (h.once id)
    have hsame : t.isRunning = (m.timer id).isRunning := rfl
    rw [hsame, hstop]
    rfl

theorem MgrInv.dispatch (h : MgrInv m) (now : ℕ) : MgrInv (m.dispatch now).1 := by
  rw [SwTimerMgr.dispatch]
  split
  · exact h
  · rename_i id rest hlist
    have hin : id ∈ m.listActive := by
      rw [hlist]
      exact List.mem_cons_self ..
    obtain ⟨hlive, hrun⟩ := (h.active id).mp hin
    dsimp only
    split_ifs with hlate hone
    · exact h
    · set t : TimerT := { m.timer id with
        isRunning := false, fired := (m.timer id).fired + 1 } with ht
      have hlink : Relinked m ((m.set id t).standBy id) id t := Relinked.standBy h t hlive rfl id
      refine h.relink_live hlive ⟨hlink.timer, hlink.active, hlink.standby, hlink.sorted⟩ hlive
        ?_ rfl ?_
      · rw [hrun]
        rfl
      · intro _
        have hfired : t.fired = (m.timer id).fired + 1 := rfl
        rw [hfired, (h.once id hone).2 hrun]
        exact ⟨le_rfl, fun hrun ↦ by cases hrun⟩
    · set t : TimerT := { m.timer id with
        expireTime := u64 (now + (m.timer id).interval)
        fired := (m.timer id).fired + 1 } with ht
      have hlink : Relinked m ((m.set id t).attach id) id t := Relinked.attach h t hlive hrun id
      refine h.relink_live hlive hlink hlive ?_ rfl ?_
      · have hrun' : t.isRunning = true := hrun
        rw [hrun']
        rfl
      · intro hone'
        exact absurd hone' hone

theorem MgrInv.set_dead (h : MgrInv m) (hdead : (m.timer id).life ≠ .live) :
    MgrInv (m.set id { m.timer id with life := .freed }) := by
  have hnone : id ∉ m.listActive := fun hin ↦ hdead ((h.active id).mp hin).1
  have hnone' : id ∉ m.listStandby := fun hin ↦ hdead ((h.standby id).mp hin).1
  set t : TimerT := { m.timer id with life := .freed } with ht
  have hlife : t.life ≠ .live := fun heq ↦ by cases heq
  have hlink : Relinked m (m.set id t) id t := by
    refine ⟨rfl, ?_, ?_, ?_⟩
    · rw [if_neg (fun hand ↦ hlife hand.1), List.erase_of_not_mem hnone]
      exact Perm.refl _
    · rw [if_neg (fun hand ↦ hlife hand.1), List.erase_of_not_mem hnone']
      exact Perm.refl _
    · have hsorted := h.sorted_erase id t
      rw [List.erase_of_not_mem hnone] at hsorted
      exact hsorted
  exact h.relink hlink h.running h.total (h.once id)

/-! ## What stays of a record -/

/-- A section keeps what a timer is for, and whether it is live. -/
def TimerT.Kept (t' t : TimerT) : Prop := t'.cb = t.cb ∧ t'.data = t.data ∧ t'.life = t.life

theorem kept_update (timer : ℕ → TimerT) (i : ℕ) (h : t.Kept (timer id)) :
    (Function.update timer id t i).Kept (timer i) := by
  by_cases hi : i = id
  · rw [hi, Function.update_self]
    exact h
  · rw [Function.update_of_ne hi]
    exact ⟨rfl, rfl, rfl⟩

theorem stop_kept (i : ℕ) : ((m.stop id).timer i).Kept (m.timer i) := by
  rw [SwTimerMgr.stop]
  split_ifs
  · apply kept_update m.timer i
    exact ⟨rfl, rfl, rfl⟩
  · exact ⟨rfl, rfl, rfl⟩

theorem start_kept (timeMs : ℕ) (type : TimerType) (now i : ℕ) :
    ((m.start id timeMs type now).timer i).Kept (m.timer i) := by
  apply kept_update m.timer i
  exact ⟨rfl, rfl, rfl⟩

theorem trigger_kept (i : ℕ) : ((m.trigger id).timer i).Kept (m.timer i) := by
  have hset : ((m.set id { m.timer id with expireTime := 0 }).timer i).Kept (m.timer i) := by
    apply kept_update m.timer i
    exact ⟨rfl, rfl, rfl⟩
  rw [SwTimerMgr.trigger]
  split_ifs
  · exact hset
  · exact hset

theorem delete_life (i : ℕ) :
    ((m.delete id).timer i).life = if i = id then .unlinked else (m.timer i).life := by
  change (Function.update m.timer id _ i).life = _
  split_ifs with hi
  · rw [hi, Function.update_self]
  · rw [Function.update_of_ne hi]

theorem dispatch_kept (now i : ℕ) : ((m.dispatch now).1.timer i).Kept (m.timer i) := by
  rw [SwTimerMgr.dispatch]
  split
  · exact ⟨rfl, rfl, rfl⟩
  · dsimp only
    split_ifs
    · exact ⟨rfl, rfl, rfl⟩
    · apply kept_update m.timer i
      exact ⟨rfl, rfl, rfl⟩
    · apply kept_update m.timer i
      exact ⟨rfl, rfl, rfl⟩

/-! ## What a section of the timer thread finds -/

theorem dispatch_done {now nextExpired : ℕ} (h : (m.dispatch now).2 = .done nextExpired) :
    (m.dispatch now).1 = m ∧ (m.listActive = [] ∨ ∃ first rest, m.listActive = first :: rest ∧
      now < (m.timer first).expireTime ∧ nextExpired = (m.timer first).expireTime - now) := by
  rw [SwTimerMgr.dispatch] at h ⊢
  cases hlist : m.listActive with
  | nil => exact ⟨rfl, .inl rfl⟩
  | cons first rest =>
      rw [hlist] at h
      dsimp only at h ⊢
      by_cases hlate : now < (m.timer first).expireTime
      · rw [if_pos hlate] at h ⊢
        exact ⟨rfl, .inr ⟨first, rest, rfl, hlate, (Dispatched.done.inj h).symm⟩⟩
      · rw [if_neg hlate] at h
        split_ifs at h

theorem dispatch_timer {now cb : ℕ} (h : (m.dispatch now).2 = .timer id cb) :
    id ∈ m.listActive ∧ (m.timer id).expireTime ≤ now ∧ cb = (m.timer id).cb := by
  rw [SwTimerMgr.dispatch] at h
  cases hlist : m.listActive with
  | nil =>
      rw [hlist] at h
      cases h
  | cons first rest =>
      rw [hlist] at h
      dsimp only at h
      split_ifs at h with hlate
      · cases h
        exact ⟨List.mem_cons_self .., Nat.not_lt.mp hlate, rfl⟩
      · cases h
        exact ⟨List.mem_cons_self .., Nat.not_lt.mp hlate, rfl⟩

end Sections

/-! ## The system -/

def timerMachine : Mealy TimerSystem TimerStep (List TimerEvent) where
  step := timerStep

/-- The timer thread sleeps no longer than until the first timer expires, counted from the time
that it went by. -/
def TimerSystem.SleepsShort (s : TimerSystem) : Prop :=
  ∀ id ∈ s.mgr.listActive, s.nextExpired + s.nowRead ≤ (s.mgr.timer id).expireTime

/-- A caller is about to post the semaphore. -/
def TimerSystem.Posting (s : TimerSystem) : Prop := ∃ t deleted, s.calls t = .posting deleted

structure TimerInv (s : TimerSystem) : Prop where
  mgr : MgrInv s.mgr
  fresh : ∀ id, s.created ≤ id → (s.mgr.timer id).life = .unborn
  deleting : ∀ t id, s.calls t = .posting (some id) ∨ s.calls t = .freeing id →
    (s.mgr.timer id).life ≠ .live ∧ id < s.created
  clock : ∀ now, s.thread = .locking now → now ≤ s.clock
  wakeup : s.thread = .waiting → 0 < s.sem ∨ s.Posting ∨ s.SleepsShort

theorem timerInv_init : TimerInv timerInit where
  mgr := by
    refine ⟨?_, ?_, List.nodup_nil, List.nodup_nil, List.Pairwise.nil, rfl, rfl, ?_⟩
    · intro id
      simp [timerInit, unbornTimer]
    · intro id
      simp [timerInit, unbornTimer]
    · intro id _
      exact ⟨Nat.zero_le _, fun _ ↦ rfl⟩
  fresh _ _ := rfl
  deleting _ _ h := by rcases h with h | h <;> cases h
  clock _ h := by cases h
  wakeup _ := .inr (.inr fun id h ↦ by cases h)

section Steps

variable {s : TimerSystem} {t : ℕ}

theorem TimerInv.setCall (h : TimerInv s) {call : TimerCall}
    (hbefore : ∀ deleted, s.calls t ≠ .posting deleted)
    (hafter : ∀ id, call ≠ .posting (some id) ∧ call ≠ .freeing id) :
    TimerInv (s.setCall t call) := by
  refine ⟨h.mgr, h.fresh, ?_, h.clock, ?_⟩
  · intro t' id hcall
    by_cases ht : t' = t
    · have hself : (s.setCall t call).calls t' = call := by
        rw [ht]
        exact Function.update_self ..
      rw [hself] at hcall
      exact absurd hcall (not_or.mpr (hafter id))
    · have hother : (s.setCall t call).calls t' = s.calls t' := Function.update_of_ne ht ..
      rw [hother] at hcall
      exact h.deleting t' id hcall
  · intro hwait
    rcases h.wakeup hwait with hsem | ⟨t', deleted, hpost⟩ | hshort
    · exact .inl hsem
    · have ht : t' ≠ t := by
        rintro rfl
        exact hbefore deleted hpost
      refine .inr (.inl ⟨t', deleted, ?_⟩)
      exact (Function.update_of_ne ht ..).trans hpost
    · exact .inr (.inr hshort)

theorem TimerInv.behindSection (h : TimerInv s) {mgr : SwTimerMgr} {deleted : Option ℕ}
    (hmgr : MgrInv mgr)
    (hlife : ∀ i, deleted ≠ some i → (mgr.timer i).life = (s.mgr.timer i).life)
    (hdeleted : ∀ i, deleted = some i → (mgr.timer i).life ≠ .live ∧ i < s.created) :
    TimerInv (s.behindSection t mgr deleted) := by
  have hself : (s.behindSection t mgr deleted).calls t = .posting deleted := Function.update_self ..
  refine ⟨hmgr, ?_, ?_, h.clock, fun _ ↦ .inr (.inl ⟨t, deleted, hself⟩)⟩
  · intro id hid
    refine (hlife id ?_).trans (h.fresh id hid)
    intro heq
    exact absurd (hdeleted id heq).2 (Nat.not_lt.mpr hid)
  · intro t' id hcall
    by_cases heq : deleted = some id
    · exact hdeleted id heq
    · have hother : t' ≠ t := by
        rintro rfl
        rw [hself] at hcall
        rcases hcall with hcall | hcall
        · exact heq (TimerCall.posting.inj hcall)
        · cases hcall
      have hcalls : (s.behindSection t mgr deleted).calls t' = s.calls t' :=
        Function.update_of_ne hother ..
      rw [hcalls] at hcall
      have hold := h.deleting t' id hcall
      refine ⟨?_, hold.2⟩
      change (mgr.timer id).life ≠ .live
      rw [hlife id heq]
      exact hold.1

theorem TimerInv.create (h : TimerInv s) (func arg : ℕ) :
    TimerInv { s with mgr := s.mgr.create s.created func arg, created := s.created + 1 } := by
  have hunborn := h.fresh s.created le_rfl
  have hfresh : (s.mgr.timer s.created).life ≠ .live := by
    rw [hunborn]
    decide
  have hother : ∀ i, i ≠ s.created → (s.mgr.create s.created func arg).timer i = s.mgr.timer i :=
    fun i hi ↦ Function.update_of_ne hi ..
  refine ⟨h.mgr.create hfresh func arg, ?_, ?_, h.clock, ?_⟩
  · intro id hid
    dsimp only at hid ⊢
    rw [hother id (by omega)]
    exact h.fresh id (by omega)
  · intro t id hcall
    obtain ⟨hdead, hlt⟩ := h.deleting t id hcall
    dsimp only
    rw [hother id (by omega)]
    exact ⟨hdead, by omega⟩
  · intro hwait
    rcases h.wakeup hwait with hsem | hpost | hshort
    · exact .inl hsem
    · exact .inr (.inl hpost)
    · refine .inr (.inr ?_)
      intro id hid
      have hne : id ≠ s.created := by
        rintro rfl
        exact hfresh ((h.mgr.active _).mp hid).1
      dsimp only
      rw [hother id hne]
      exact hshort id hid

theorem TimerInv.post (h : TimerInv s) {deleted : Option ℕ} (hcall : s.calls t = .posting deleted) :
    TimerInv { s with
      sem := min timerSemMax (s.sem + 1)
      calls := Function.update s.calls t (deleted.elim .idle .freeing) } := by
  refine ⟨h.mgr, h.fresh, ?_, h.clock, fun _ ↦ .inl ?_⟩
  · intro t' id hcall'
    by_cases ht : t' = t
    · subst ht
      apply h.deleting t' id
      left
      dsimp only at hcall'
      rw [Function.update_self] at hcall'
      cases deleted with
      | none => rcases hcall' with hcall' | hcall' <;> cases hcall'
      | some id' =>
          rcases hcall' with hcall' | hcall'
          · cases hcall'
          · rw [hcall, TimerCall.freeing.inj hcall']
    · dsimp only at hcall'
      rw [Function.update_of_ne ht] at hcall'
      exact h.deleting t' id hcall'
  · simp [timerSemMax]

theorem TimerInv.free (h : TimerInv s) {id : ℕ} (hcall : s.calls t = .freeing id) :
    TimerInv { s.setCall t .idle with
      mgr := s.mgr.set id { s.mgr.timer id with life := .freed } } := by
  obtain ⟨hdead, hlt⟩ := h.deleting t id (.inr hcall)
  have hidle : TimerInv (s.setCall t .idle) :=
    h.setCall (fun deleted hpost ↦ by cases hcall.symm.trans hpost)
      (fun _ ↦ ⟨fun heq ↦ (by cases heq), fun heq ↦ (by cases heq)⟩)
  have hother : ∀ i, i ≠ id →
      (s.mgr.set id { s.mgr.timer id with life := .freed }).timer i = s.mgr.timer i :=
    fun i hi ↦ Function.update_of_ne hi ..
  have hself : ((s.mgr.set id { s.mgr.timer id with life := .freed }).timer id).life = .freed := by
    rw [SwTimerMgr.set]
    dsimp only
    rw [Function.update_self]
  refine ⟨h.mgr.set_dead hdead, ?_, ?_, h.clock, ?_⟩
  · intro i hi
    have hne : i ≠ id := by
      rintro rfl
      exact absurd hlt (Nat.not_lt.mpr hi)
    dsimp only
    rw [hother i hne]
    exact h.fresh i hi
  · intro t' i hcall'
    obtain ⟨hdead', hlt'⟩ := hidle.deleting t' i hcall'
    refine ⟨?_, hlt'⟩
    by_cases hi : i = id
    · subst hi
      dsimp only
      rw [hself]
      decide
    · dsimp only
      rw [hother i hi]
      exact hdead'
  · intro hwait
    rcases hidle.wakeup hwait with hsem | hpost | hshort
    · exact .inl hsem
    · exact .inr (.inl hpost)
    · refine .inr (.inr ?_)
      intro i hi
      have hne : i ≠ id := by
        rintro rfl
        exact hdead ((h.mgr.active _).mp hi).1
      dsimp only
      rw [hother i hne]
      exact hshort i hi

theorem TimerInv.setThread (h : TimerInv s) {thread : TimerThread} {sem : ℕ}
    (hwait : thread ≠ .waiting) (hclock : ∀ now, thread = .locking now → now ≤ s.clock) :
    TimerInv { s with thread := thread, sem := sem } :=
  ⟨h.mgr, h.fresh, h.deleting, hclock, fun heq ↦ absurd heq hwait⟩

theorem TimerInv.dispatchSection (h : TimerInv s) (now : ℕ) :
    TimerInv (s.dispatchSection now).1 := by
  have hmgr := h.mgr.dispatch now
  have hlife := fun i ↦ (@dispatch_kept s.mgr now i).2.2
  have hshort : ∀ nextExpired, (s.mgr.dispatch now).2 = .done nextExpired →
      ∀ id ∈ (s.mgr.dispatch now).1.listActive,
        nextExpired + now ≤ ((s.mgr.dispatch now).1.timer id).expireTime := by
    intro nextExpired hdone id hid
    obtain ⟨hsame, hnone | ⟨first, rest, hlist, hlate, rfl⟩⟩ := dispatch_done hdone
    · rw [hsame, hnone] at hid
      cases hid
    · rw [hsame] at hid ⊢
      have hfirst : (s.mgr.timer first).expireTime ≤ (s.mgr.timer id).expireTime := by
        have hsorted := h.mgr.sorted
        rw [hlist] at hid hsorted
        rcases List.mem_cons.mp hid with rfl | hid
        · exact le_rfl
        · exact (List.pairwise_cons.mp hsorted).1 id hid
      omega
  rw [TimerSystem.dispatchSection]
  generalize s.mgr.dispatch now = r at *
  obtain ⟨mgr, found⟩ := r
  dsimp only at hmgr hlife hshort
  have hfresh : ∀ id, s.created ≤ id → (mgr.timer id).life = .unborn :=
    fun id hid ↦ (hlife id).trans (h.fresh id hid)
  have hdeleting : ∀ t id, s.calls t = .posting (some id) ∨ s.calls t = .freeing id →
      (mgr.timer id).life ≠ .live ∧ id < s.created := by
    intro t id hcall
    rw [hlife id]
    exact h.deleting t id hcall
  cases found with
  | timer id cb =>
      exact ⟨hmgr, hfresh, hdeleting, fun _ heq ↦ (by cases heq), fun heq ↦ (by cases heq)⟩
  | done nextExpired =>
      exact ⟨hmgr, hfresh, hdeleting, fun _ heq ↦ (by cases heq),
        fun _ ↦ .inr (.inr (hshort nextExpired rfl))⟩

theorem TimerInv.step (h : TimerInv s) (x : TimerStep) : TimerInv (timerStep s x).1 := by
  cases x with
  | tick ms =>
      refine ⟨h.mgr, h.fresh, h.deleting, ?_, h.wakeup⟩
      intro now hlock
      exact (h.clock now hlock).trans (Nat.le_add_right ..)
  | create func arg alloc =>
      rw [timerStep]
      split_ifs
      · exact h
      · exact h.create func arg
  | startCall t id timeMs type =>
      rw [timerStep]
      split_ifs with hready
      · refine h.setCall ?_ ?_
        · intro deleted hpost
          cases hready.1.symm.trans hpost
        · intro id'
          exact ⟨fun heq ↦ (by cases heq), fun heq ↦ (by cases heq)⟩
      · exact h
  | startSection t =>
      rw [timerStep]
      split
      · rename_i id timeMs type now hcall
        split_ifs with hlive
        · exact h.behindSection (h.mgr.start hlive timeMs type now)
            (fun i _ ↦ (start_kept timeMs type now i).2.2) fun i heq ↦ (by cases heq)
        · refine h.setCall ?_ ?_
          · intro deleted hpost
            cases hcall.symm.trans hpost
          · intro id'
            exact ⟨fun heq ↦ (by cases heq), fun heq ↦ (by cases heq)⟩
      · exact h
  | stop t id =>
      rw [timerStep]
      split_ifs with hready
      · exact h.behindSection (h.mgr.stop hready.2) (fun i _ ↦ (stop_kept i).2.2)
          fun i heq ↦ (by cases heq)
      · exact h
  | trigger t id =>
      rw [timerStep]
      split_ifs with hready
      · exact h.behindSection (h.mgr.trigger hready.2) (fun i _ ↦ (trigger_kept i).2.2)
          fun i heq ↦ (by cases heq)
      · exact h
  | delete t id =>
      rw [timerStep]
      split_ifs with hready
      · have hlt : id < s.created := by
          by_contra hge
          have hunborn := h.fresh id (Nat.not_lt.mp hge)
          cases hready.2.symm.trans hunborn
        refine h.behindSection (h.mgr.delete hready.2) ?_ ?_
        · intro i hne
          rw [delete_life, if_neg]
          rintro rfl
          exact hne rfl
        · intro i heq
          obtain rfl := Option.some.inj heq
          rw [delete_life, if_pos rfl]
          exact ⟨by decide, hlt⟩
      · exact h
  | post t =>
      rw [timerStep]
      split
      · rename_i deleted hcall
        exact h.post hcall
      · exact h
  | free t =>
      rw [timerStep]
      split
      · rename_i id hcall
        exact h.free hcall
      · exact h
  | wake =>
      rw [timerStep]
      split_ifs with hwait
      · rw [TimerSystem.wake]
        split_ifs
        · exact h.setThread (by decide) fun now heq ↦ (by cases heq)
        · exact h.setThread (by decide) fun now heq ↦ (by cases heq)
        · exact h
      · exact h
  | readTime =>
      rw [timerStep]
      split_ifs
      · refine h.setThread (by simp) ?_
        intro now heq
        exact (TimerThread.locking.inj heq).symm.le
      · exact h
  | dispatch =>
      rw [timerStep]
      split
      · exact h.dispatchSection _
      · exact h
  | callBegin =>
      rw [timerStep]
      split
      · exact h.setThread (by simp) fun now heq ↦ (by cases heq)
      · exact h
  | callReturn =>
      rw [timerStep]
      split
      · exact h.setThread (by decide) fun now heq ↦ (by cases heq)
      · exact h

end Steps

/-! ## Runs -/

/-- What is promised of the lists at any time; the counters have sixteen bits, and a caller posts
the semaphore behind its section. -/
structure TimersOk (s : TimerSystem) : Prop where
  lists : ∀ id, s.Live id →
    if (s.mgr.timer id).isRunning then
      s.mgr.listActive.count id = 1 ∧ s.mgr.listStandby.count id = 0
    else s.mgr.listActive.count id = 0 ∧ s.mgr.listStandby.count id = 1
  sorted : s.mgr.listActive.Pairwise fun i j ↦
    (s.mgr.timer i).expireTime ≤ (s.mgr.timer j).expireTime
  runningCnt : s.mgr.runningCnt = u16 s.mgr.listActive.length
  totalCnt : s.mgr.totalCnt = u16 (s.mgr.listActive.length + s.mgr.listStandby.length)
  once : ∀ id, (s.mgr.timer id).type = .once → (s.mgr.timer id).fired ≤ 1
  wakeup : s.thread = .waiting → 0 < s.sem ∨ s.Posting ∨ s.SleepsShort

/-- A timer is dispatched when it is expired. -/
def DispatchesExpired (s : TimerSystem) (x : TimerStep) : Prop :=
  ∀ id, .dispatched id ∈ (timerStep s x).2 → (s.mgr.timer id).expireTime ≤ s.clock

theorem TimerInv.ok {s : TimerSystem} (h : TimerInv s) : TimersOk s where
  lists := by
    intro id hlive
    split_ifs with hrun
    · have hin : id ∈ s.mgr.listActive := (h.mgr.active id).mpr ⟨hlive, hrun⟩
      have hnone : id ∉ s.mgr.listStandby := by
        intro hin'
        cases hrun.symm.trans ((h.mgr.standby id).mp hin').2
      exact ⟨List.count_eq_one_of_mem h.mgr.nodupActive hin, List.count_eq_zero_of_not_mem hnone⟩
    · have hstop : (s.mgr.timer id).isRunning = false := by simpa using hrun
      have hin : id ∈ s.mgr.listStandby := (h.mgr.standby id).mpr ⟨hlive, hstop⟩
      have hnone : id ∉ s.mgr.listActive := fun hin' ↦ hrun ((h.mgr.active id).mp hin').2
      exact ⟨List.count_eq_zero_of_not_mem hnone, List.count_eq_one_of_mem h.mgr.nodupStandby hin⟩
  sorted := h.mgr.sorted
  runningCnt := h.mgr.running
  totalCnt := h.mgr.total
  once id htype := (h.mgr.once id htype).1
  wakeup := h.wakeup

theorem TimerInv.dispatches {s : TimerSystem} (h : TimerInv s) (x : TimerStep) :
    DispatchesExpired s x := by
  intro id hevent
  cases x with
  | dispatch =>
      rw [timerStep] at hevent
      split at hevent
      · rename_i now hlock
        rw [TimerSystem.dispatchSection] at hevent
        split at hevent
        · rename_i mgr id' cb hfound
          obtain rfl : id = id' := by simpa using hevent
          have htimer : (s.mgr.dispatch now).2 = .timer id cb := by rw [hfound]
          exact (dispatch_timer htimer).2.1.trans (h.clock now hlock)
        · cases hevent
      · cases hevent
  | _ =>
      rw [timerStep] at hevent
      try split at hevent
      all_goals try split_ifs at hevent
      all_goals simp at hevent

/-- Over any calls of any threads. -/
theorem timer_queue_invariant (steps : List TimerStep) (k : ℕ) :
    TimersOk (timerMachine.final timerInit (steps.take k)) ∧
      ∀ x, steps[k]? = some x →
        DispatchesExpired (timerMachine.final timerInit (steps.take k)) x := by
  have hinv : TimerInv (timerMachine.final timerInit (steps.take k)) :=
    timerMachine.inv_final (fun _ x h _ ↦ h.step x) timerInv_init
      (timerMachine.guarded_true timerInit (steps.take k))
  exact ⟨hinv.ok, fun x _ ↦ hinv.dispatches x⟩

/-- The timer thread sleeps for ten milliseconds, and a caller is between its section and the post
for a timer that expires after five. -/
def unpostedStart : List TimerStep :=
  [.create 1 0 true, .startCall 0 0 10 .once, .startSection 0, .post 0, .wake, .readTime, .dispatch,
    .create 1 0 true, .startCall 0 1 5 .once, .startSection 0]

def manyTimers (n : ℕ) : List TimerStep := List.replicate n (.create 1 0 true)

theorem manyTimers_lists (n : ℕ) (s : TimerSystem) :
    (timerMachine.final s (manyTimers n)).mgr.listActive = s.mgr.listActive ∧
      (timerMachine.final s (manyTimers n)).mgr.listStandby.length =
        s.mgr.listStandby.length + n := by
  induction n generalizing s with
  | zero => exact ⟨rfl, rfl⟩
  | succ n ih =>
      obtain ⟨hactive, hstandby⟩ := ih (timerStep s (.create 1 0 true)).1
      refine ⟨hactive, hstandby.trans ?_⟩
      have hone : (timerStep s (.create 1 0 true)).1.mgr.listStandby.length =
          s.mgr.listStandby.length + 1 := List.length_append
      rw [hone, Nat.add_assoc, Nat.add_comm 1 n]

/-- The wait is too long before the post, and the counter of 65536 timers is zero. -/
theorem unposted_start_oversleeps :
    (¬∀ steps : List TimerStep, (timerMachine.final timerInit steps).thread = .waiting →
      0 < (timerMachine.final timerInit steps).sem ∨
        (timerMachine.final timerInit steps).SleepsShort) ∧
    ¬∀ steps : List TimerStep, (timerMachine.final timerInit steps).mgr.totalCnt =
      (timerMachine.final timerInit steps).mgr.listActive.length +
        (timerMachine.final timerInit steps).mgr.listStandby.length := by
  constructor
  · intro h
    rcases h unpostedStart (by decide) with hsem | hshort
    · exact absurd hsem (by decide)
    · have hfirst := hshort 1 (by decide)
      exact absurd hfirst (by decide)
  · intro h
    have hinv : TimerInv (timerMachine.final timerInit (manyTimers (2 ^ 16))) :=
      timerMachine.inv_final (fun _ x h _ ↦ h.step x) timerInv_init
        (timerMachine.guarded_true timerInit _)
    obtain ⟨hactive, hstandby⟩ := manyTimers_lists (2 ^ 16) timerInit
    have hcnt := h (manyTimers (2 ^ 16))
    rw [hinv.mgr.total, hactive, hstandby] at hcnt
    exact absurd hcnt (by decide)

end TuyaOpen.Tal
