import Mathlib.Data.List.Nodup
import TuyaOpen.Lib.Mealy
import TuyaOpen.Tal.Event

/-!
# Delivery of events

Any calls of any threads: which subscribers a publish calls.  A lookup without a lock may be stale
when its section comes; as long as none is, a publish calls every subscriber in force once.
-/

namespace TuyaOpen.Tal

open List (Perm)

/-- The subscribers in force, by the calls that have returned: from a subscribe to an unsubscribe,
or for a single publish. -/
abbrev InForce := Subscriber → Option SubscribeType

def InForce.after (force : InForce) : EventReturn → InForce
  | .subscribed subscribe rt =>
      if rt = oprtOk then Function.update force subscribe.toSubscriber (some subscribe.type)
        else force
  | .unsubscribed subscribe rt =>
      if rt = oprtOk then Function.update force subscribe none else force
  | .published name _ _ => fun subscriber ↦
      if subscriber.name = name ∧ force subscriber = some .onetime then none else force subscriber

/-- The bus, and what is in force. -/
def eventMachine : Mealy (EventManage × InForce) EventStep (List EventReturn) where
  step s x := (((eventStep s.1 x).1, (eventStep s.1 x).2.foldl InForce.after s.2),
    (eventStep s.1 x).2)

/-- There is one node for a name, and a publish calls the subscribers of its name that are in
force, each of them once and those of emergency first. -/
structure Delivers (s : EventManage × InForce) (x : EventStep) : Prop where
  nodes : ∀ i < s.1.eventCnt, ∀ j < s.1.eventCnt, (s.1.event i).name = (s.1.event j).name → i = j
  once : ∀ name calls rt, .published name calls rt ∈ (eventStep s.1 x).2 → ∀ subscriber,
    calls.count subscriber =
      if subscriber.name = name ∧ subscriber.cb ≠ 0 ∧ (s.2 subscriber).isSome then 1 else 0
  order : ∀ name calls rt, .published name calls rt ∈ (eventStep s.1 x).2 →
    calls.Pairwise fun a b ↦ s.2 b = some .emergency → s.2 a = some .emergency

/-- A subscriber is in the free list or with a node. -/
def EventManage.Listed (m : EventManage) (entry : SubscribeNode) : Prop :=
  entry ∈ m.freeSubscribeRoot ∨ ∃ i < m.eventCnt, entry ∈ (m.event i).subscribeRoot

def EventManage.NoNode (m : EventManage) (name : EventString) : Prop :=
  ∀ i < m.eventCnt, (m.event i).name ≠ name

/-- When the section comes, no node has been made for a name that had none at the lookup, unless
nothing depends on it; memory for a node is there when the name has a subscriber; and who is in
force subscribes again with the same type only. -/
def SectionTimely (m : EventManage) (alloc : Bool) : EventCall → Prop
  | .creating name =>
      if alloc then m.NoNode name else ∀ entry, m.Listed entry → entry.name ≠ name
  | .addFree subscribe => (alloc = true → m.NoNode subscribe.name) ∧
      ∀ entry, m.Listed entry → entry.toSubscriber = subscribe.toSubscriber →
        entry.type = subscribe.type
  | .add _ subscribe => ∀ entry, m.Listed entry → entry.toSubscriber = subscribe.toSubscriber →
      entry.type = subscribe.type
  | .delFree subscribe => ∀ i < m.eventCnt, ∀ entry ∈ (m.event i).subscribeRoot,
      entry.toSubscriber ≠ subscribe
  | _ => True

def Timely (s : EventManage × InForce) : EventStep → Prop
  | .locked t alloc _ => SectionTimely s.1 alloc (s.1.calls t)
  | _ => True

/-! ## Lists of subscribers -/

theorem subscribeNode_eq {a b : SubscribeNode} (h : a.toSubscriber = b.toSubscriber)
    (htype : a.type = b.type) : a = b := by
  obtain ⟨a, _⟩ := a
  obtain ⟨b, _⟩ := b
  obtain rfl : a = b := h
  obtain rfl := htype
  rfl

/-- Of a node with the name: its subscribers are of that name and differ, and those of emergency
are in front. -/
structure RootOk (name : EventString) (root : List SubscribeNode) : Prop where
  named : ∀ entry ∈ root, entry.name = name
  nodup : (root.map SubscribeNode.toSubscriber).Nodup
  order : root.Pairwise fun a b ↦ b.type = .emergency → a.type = .emergency

section Roots

variable {name : EventString} {root : List SubscribeNode}

theorem RootOk.nil (name : EventString) : RootOk name [] :=
  ⟨by simp, List.nodup_nil, List.Pairwise.nil⟩

theorem RootOk.sublist {root' : List SubscribeNode} (h : RootOk name root)
    (hsub : root'.Sublist root) : RootOk name root' where
  named entry hentry := h.named entry (hsub.subset hentry)
  nodup := h.nodup.sublist (hsub.map _)
  order := h.order.sublist hsub

theorem linkSubscribe_perm (root : List SubscribeNode) (entry : SubscribeNode) :
    Perm (linkSubscribe root entry) (entry :: root) := by
  rw [linkSubscribe]
  split_ifs
  · exact Perm.refl _
  · exact List.perm_append_comm

theorem RootOk.link (h : RootOk name root) {entry : SubscribeNode} (hname : entry.name = name)
    (hnew : ∀ other ∈ root, other.toSubscriber ≠ entry.toSubscriber) :
    RootOk name (linkSubscribe root entry) := by
  have hperm := linkSubscribe_perm root entry
  refine ⟨?_, ?_, ?_⟩
  · intro other hother
    rcases List.mem_cons.mp (hperm.mem_iff.mp hother) with rfl | hin
    · exact hname
    · exact h.named other hin
  · rw [(hperm.map _).nodup_iff, List.map_cons, List.nodup_cons, List.mem_map]
    refine ⟨?_, h.nodup⟩
    rintro ⟨other, hin, heq⟩
    exact hnew other hin heq
  · rw [linkSubscribe]
    split_ifs with htype
    · rw [List.pairwise_cons]
      exact ⟨fun _ _ _ ↦ htype, h.order⟩
    · rw [List.pairwise_append]
      refine ⟨h.order, List.pairwise_singleton .., ?_⟩
      intro a _ b hb hemergency
      rw [List.mem_singleton.mp hb] at hemergency
      exact absurd hemergency htype

theorem foldl_link_perm (entries root : List SubscribeNode) :
    Perm (entries.foldl linkSubscribe root) (entries ++ root) := by
  induction entries generalizing root with
  | nil => exact Perm.refl _
  | cons entry rest ih =>
      calc
        Perm ((entry :: rest).foldl linkSubscribe root) (rest ++ linkSubscribe root entry) := ih _
        Perm _ (rest ++ entry :: root) := (linkSubscribe_perm root entry).append_left rest
        Perm _ (entry :: rest ++ root) := List.perm_middle

theorem RootOk.foldl (h : RootOk name root) (entries : List SubscribeNode)
    (hname : ∀ entry ∈ entries, entry.name = name)
    (hnodup : ((entries ++ root).map SubscribeNode.toSubscriber).Nodup) :
    RootOk name (entries.foldl linkSubscribe root) := by
  induction entries generalizing root with
  | nil => exact h
  | cons entry rest ih =>
      have hnew : entry.toSubscriber ∉ (rest ++ root).map SubscribeNode.toSubscriber := by
        rw [List.cons_append, List.map_cons, List.nodup_cons] at hnodup
        exact hnodup.1
      have hperm : Perm ((rest ++ linkSubscribe root entry).map SubscribeNode.toSubscriber)
          ((entry :: rest ++ root).map SubscribeNode.toSubscriber) :=
        (((linkSubscribe_perm root entry).append_left rest).trans List.perm_middle).map _
      apply ih
      · apply h.link (hname entry (List.mem_cons_self ..))
        intro other hother heq
        exact hnew (List.mem_map.mpr ⟨other, List.mem_append_right rest hother, heq⟩)
      · intro other hother
        exact hname other (List.mem_cons_of_mem _ hother)
      · exact hperm.nodup_iff.mpr hnodup

theorem mem_eraseP_of_nodup {subscriber : Subscriber} {p : SubscribeNode → Bool}
    (hnodup : (root.map SubscribeNode.toSubscriber).Nodup)
    (hp : ∀ entry ∈ root, p entry ↔ entry.toSubscriber = subscriber) (entry : SubscribeNode) :
    entry ∈ root.eraseP p ↔ entry ∈ root ∧ entry.toSubscriber ≠ subscriber := by
  induction root with
  | nil => simp
  | cons first rest ih =>
      rw [List.map_cons, List.nodup_cons] at hnodup
      have hfirst := hp first (List.mem_cons_self ..)
      have hrest := ih hnodup.2 fun entry hentry ↦ hp entry (List.mem_cons_of_mem _ hentry)
      by_cases heq : first.toSubscriber = subscriber
      · rw [List.eraseP_cons_of_pos (hfirst.mpr heq)]
        constructor
        · intro hentry
          refine ⟨List.mem_cons_of_mem _ hentry, ?_⟩
          intro hsame
          apply hnodup.1
          rw [heq, ← hsame]
          exact List.mem_map_of_mem hentry
        · rintro ⟨hentry, hne⟩
          rcases List.mem_cons.mp hentry with rfl | hentry
          · exact absurd heq hne
          · exact hentry
      · rw [List.eraseP_cons_of_neg (fun hp ↦ heq (hfirst.mp hp)), List.mem_cons, hrest,
          List.mem_cons]
        constructor
        · rintro (rfl | ⟨hentry, hne⟩)
          · exact ⟨.inl rfl, heq⟩
          · exact ⟨.inr hentry, hne⟩
        · rintro ⟨rfl | hentry, hne⟩
          · exact .inl rfl
          · exact .inr ⟨hentry, hne⟩

theorem eventNodeDispatch_eq (result : Subscriber → OperateRet) (rt : OperateRet)
    (root : List SubscribeNode) :
    (eventNodeDispatch result rt root).1 = root.filter (fun entry ↦ entry.type ≠ .onetime) ∧
      (eventNodeDispatch result rt root).2.1 =
        (root.filter fun entry ↦ entry.cb ≠ 0).map SubscribeNode.toSubscriber := by
  induction root generalizing rt with
  | nil => exact ⟨rfl, rfl⟩
  | cons entry rest ih =>
      obtain ⟨hroot, hcalls⟩ := ih (if entry.cb ≠ 0 then result entry.toSubscriber else rt)
      rw [eventNodeDispatch]
      dsimp only
      rw [hroot, hcalls]
      constructor
      · by_cases htype : entry.type = .onetime <;> simp [htype]
      · by_cases hcb : entry.cb = 0 <;> simp [hcb]

end Roots

/-! ## The invariant -/

/-- The lists, with what is in force. -/
structure ListsInv (m : EventManage) (force : InForce) : Prop where
  distinct : ∀ i < m.eventCnt, ∀ j < m.eventCnt, (m.event i).name = (m.event j).name → i = j
  roots : ∀ i < m.eventCnt, RootOk (m.event i).name (m.event i).subscribeRoot
  free : ∀ entry ∈ m.freeSubscribeRoot, m.NoNode entry.name
  nodup : (m.freeSubscribeRoot.map SubscribeNode.toSubscriber).Nodup
  force : ∀ entry, force entry.toSubscriber = some entry.type ↔ m.Listed entry
  valid : ∀ entry, m.Listed entry → EventNameIsValid entry.name

/-- A call knows a node of its name, and its name is valid. -/
def CallOk (m : EventManage) : EventCall → Prop
  | .dispatching name event => event < m.eventCnt ∧ (m.event event).name = name
  | .addFree subscribe => EventNameIsValid subscribe.name
  | .add event subscribe => event < m.eventCnt ∧ (m.event event).name = subscribe.name ∧
      EventNameIsValid subscribe.name
  | .del event subscribe => event < m.eventCnt ∧ (m.event event).name = subscribe.name
  | _ => True

structure EventInv (s : EventManage × InForce) : Prop where
  lists : ListsInv s.1 s.2
  calls : ∀ t, CallOk s.1 (s.1.calls t)

theorem eventInv_init : EventInv (eventInit, fun _ ↦ none) where
  lists := by
    have hnone : ∀ i, ¬i < eventInit.eventCnt := Nat.not_lt_zero
    refine ⟨fun i hi ↦ absurd hi (hnone i), fun i hi ↦ absurd hi (hnone i), ?_,
      List.nodup_nil, ?_, ?_⟩
    · intro entry hfree
      cases hfree
    · intro entry
      simp [EventManage.Listed, eventInit]
    · intro entry hlisted
      simp [EventManage.Listed, eventInit] at hlisted
  calls _ := trivial

section Lists

variable {m m' : EventManage} {force force' : InForce}

theorem ListsInv.listed_iff (h : ListsInv m force) {event : ℕ} (hevent : event < m.eventCnt)
    {entry : SubscribeNode} (hname : entry.name = (m.event event).name) :
    m.Listed entry ↔ entry ∈ (m.event event).subscribeRoot := by
  constructor
  · rintro (hfree | ⟨i, hi, hin⟩)
    · exact absurd hname.symm (h.free entry hfree event hevent)
    · have hnode := (h.roots i hi).named entry hin
      rw [h.distinct event hevent i hi (hname.symm.trans hnode)]
      exact hin
  · intro hin
    exact .inr ⟨event, hevent, hin⟩

theorem ListsInv.listed_iff_free (h : ListsInv m force) {entry : SubscribeNode}
    (hname : m.NoNode entry.name) : m.Listed entry ↔ entry ∈ m.freeSubscribeRoot := by
  constructor
  · rintro (hfree | ⟨i, hi, hin⟩)
    · exact hfree
    · exact absurd ((h.roots i hi).named entry hin).symm (hname i hi)
  · exact .inl

theorem ListsInv.force_add (h : ListsInv m force) {subscribe : SubscribeNode}
    (hnew : ∀ entry, m.Listed entry → entry.toSubscriber ≠ subscribe.toSubscriber)
    (hlisted : ∀ entry, m'.Listed entry ↔ m.Listed entry ∨ entry = subscribe)
    (entry : SubscribeNode) :
    Function.update force subscribe.toSubscriber (some subscribe.type) entry.toSubscriber =
      some entry.type ↔ m'.Listed entry := by
  rw [hlisted]
  by_cases heq : entry.toSubscriber = subscribe.toSubscriber
  · rw [heq, Function.update_self, Option.some.injEq]
    constructor
    · intro htype
      exact .inr (subscribeNode_eq heq htype.symm)
    · rintro (hold | rfl)
      · exact absurd heq (hnew entry hold)
      · rfl
  · rw [Function.update_of_ne heq, h.force]
    constructor
    · exact .inl
    · rintro (hold | rfl)
      · exact hold
      · exact absurd rfl heq

theorem ListsInv.force_del (h : ListsInv m force) {subscribe : Subscriber}
    (hlisted : ∀ entry, m'.Listed entry ↔ m.Listed entry ∧ entry.toSubscriber ≠ subscribe)
    (entry : SubscribeNode) :
    Function.update force subscribe none entry.toSubscriber = some entry.type ↔
      m'.Listed entry := by
  rw [hlisted]
  by_cases heq : entry.toSubscriber = subscribe
  · rw [heq, Function.update_self]
    simp
  · rw [Function.update_of_ne heq, h.force]
    simp [heq]

theorem ListsInv.force_again (h : ListsInv m force) {entry subscribe : SubscribeNode}
    (hentry : m.Listed entry) (heq : entry.toSubscriber = subscribe.toSubscriber)
    (htype : entry.type = subscribe.type) :
    Function.update force subscribe.toSubscriber (some subscribe.type) = force := by
  rw [Function.update_eq_self_iff, ← heq, ← htype]
  exact ((h.force entry).mpr hentry).symm

theorem setRoot_name (m : EventManage) (event : ℕ) (root : List SubscribeNode) (i : ℕ) :
    ((m.setRoot event root).event i).name = (m.event i).name := by
  rw [EventManage.setRoot]
  dsimp only
  by_cases hi : i = event
  · rw [hi, Function.update_self]
  · rw [Function.update_of_ne hi]

theorem ListsInv.listed_setRoot (h : ListsInv m force) {event : ℕ} (hevent : event < m.eventCnt)
    {root : List SubscribeNode} (hroot : RootOk (m.event event).name root) (entry : SubscribeNode) :
    (m.setRoot event root).Listed entry ↔
      if entry.name = (m.event event).name then entry ∈ root else m.Listed entry := by
  have hself : ((m.setRoot event root).event event).subscribeRoot = root := by
    rw [EventManage.setRoot]
    dsimp only
    rw [Function.update_self]
  have hother : ∀ i, i ≠ event → (m.setRoot event root).event i = m.event i :=
    fun i hi ↦ Function.update_of_ne hi ..
  split_ifs with hname
  · constructor
    · rintro (hfree | ⟨i, hi, hin⟩)
      · exact absurd hname.symm (h.free entry hfree event hevent)
      · by_cases heq : i = event
        · rw [heq, hself] at hin
          exact hin
        · rw [hother i heq] at hin
          have hnode := (h.roots i hi).named entry hin
          exact absurd (h.distinct i hi event hevent (hnode.symm.trans hname)) heq
    · intro hin
      refine .inr ⟨event, hevent, ?_⟩
      rw [hself]
      exact hin
  · constructor
    · rintro (hfree | ⟨i, hi, hin⟩)
      · exact .inl hfree
      · have hne : i ≠ event := by
          rintro rfl
          rw [hself] at hin
          exact hname (hroot.named entry hin)
        rw [hother i hne] at hin
        exact .inr ⟨i, hi, hin⟩
    · rintro (hfree | ⟨i, hi, hin⟩)
      · exact .inl hfree
      · have hne : i ≠ event := by
          rintro rfl
          exact hname ((h.roots i hi).named entry hin)
        refine .inr ⟨i, hi, ?_⟩
        rw [hother i hne]
        exact hin

theorem ListsInv.setRoot (h : ListsInv m force) {event : ℕ} (hevent : event < m.eventCnt)
    {root : List SubscribeNode} (hroot : RootOk (m.event event).name root)
    (hvalid : ∀ entry ∈ root, EventNameIsValid entry.name)
    (hforce : ∀ entry, force' entry.toSubscriber = some entry.type ↔
      (m.setRoot event root).Listed entry) : ListsInv (m.setRoot event root) force' := by
  refine ⟨?_, ?_, ?_, h.nodup, hforce, ?_⟩
  · intro i hi j hj heq
    rw [setRoot_name, setRoot_name] at heq
    exact h.distinct i hi j hj heq
  · intro i hi
    rw [setRoot_name]
    by_cases heq : i = event
    · rw [heq, EventManage.setRoot]
      dsimp only
      rw [Function.update_self]
      exact hroot
    · rw [EventManage.setRoot]
      dsimp only
      rw [Function.update_of_ne heq]
      exact h.roots i hi
  · intro entry hfree i hi
    rw [setRoot_name]
    exact h.free entry hfree i hi
  · intro entry hlisted
    rw [h.listed_setRoot hevent hroot] at hlisted
    split_ifs at hlisted
    · exact hvalid entry hlisted
    · exact h.valid entry hlisted

theorem ListsInv.setCall (h : ListsInv m force) (t : ℕ) (call : EventCall) :
    ListsInv (m.setCall t call) force :=
  ⟨h.distinct, h.roots, h.free, h.nodup, h.force, h.valid⟩

theorem ListsInv.setFree (h : ListsInv m force) {free : List SubscribeNode}
    (hfree : ∀ entry ∈ free, m.NoNode entry.name ∧ EventNameIsValid entry.name)
    (hnodup : (free.map SubscribeNode.toSubscriber).Nodup)
    (hforce : ∀ entry, force' entry.toSubscriber = some entry.type ↔
      ({ m with freeSubscribeRoot := free } : EventManage).Listed entry) :
    ListsInv { m with freeSubscribeRoot := free } force' := by
  refine ⟨h.distinct, h.roots, fun entry hentry ↦ (hfree entry hentry).1, hnodup, hforce, ?_⟩
  rintro entry (hentry | hnode)
  · exact (hfree entry hentry).2
  · exact h.valid entry (.inr hnode)

/-! ## Sections -/

theorem setRoot_self (m : EventManage) (event : ℕ) :
    m.setRoot event (m.event event).subscribeRoot = m := by
  rw [EventManage.setRoot, Function.update_eq_self]

theorem ListsInv.matches_iff (h : ListsInv m force) {event : ℕ} (hevent : event < m.eventCnt)
    {subscribe : Subscriber} (hname : (m.event event).name = subscribe.name) :
    ∀ entry ∈ (m.event event).subscribeRoot,
      entry.Matches subscribe ↔ entry.toSubscriber = subscribe := by
  intro entry hentry
  have hsame := ((h.roots event hevent).named entry hentry).trans hname
  obtain ⟨⟨name, desc, cb⟩, type⟩ := entry
  obtain ⟨name', desc', cb'⟩ := subscribe
  obtain rfl : name = name' := hsame
  simp [SubscribeNode.Matches]

theorem matchesFree_iff (entry : SubscribeNode) (subscribe : Subscriber) :
    entry.MatchesFree subscribe ↔ entry.toSubscriber = subscribe := by
  obtain ⟨⟨name, desc, cb⟩, type⟩ := entry
  obtain ⟨name', desc', cb'⟩ := subscribe
  simp [SubscribeNode.MatchesFree]

theorem after_subscribed (force : InForce) (subscribe : SubscribeNode) :
    force.after (.subscribed subscribe oprtOk) =
      Function.update force subscribe.toSubscriber (some subscribe.type) := by
  rw [InForce.after, if_pos rfl]

theorem ListsInv.add (h : ListsInv m force) {event : ℕ} (hevent : event < m.eventCnt)
    {subscribe : SubscribeNode} (hname : (m.event event).name = subscribe.name)
    (hvalid : EventNameIsValid subscribe.name)
    (htype : ∀ entry, m.Listed entry → entry.toSubscriber = subscribe.toSubscriber →
      entry.type = subscribe.type) (alloc : Bool) :
    ListsInv (m.setRoot event (addSubscribe (m.event event).subscribeRoot subscribe alloc).1)
      (force.after (.subscribed subscribe
        (addSubscribe (m.event event).subscribeRoot subscribe alloc).2)) := by
  have hmatches := h.matches_iff hevent hname
  rw [addSubscribe]
  split
  · rename_i entry hfind
    have hin := List.mem_of_find?_eq_some hfind
    have hfound := List.find?_some hfind
    have heq := (hmatches entry hin).mp (of_decide_eq_true hfound)
    have hlisted : m.Listed entry := .inr ⟨event, hevent, hin⟩
    dsimp only
    rw [setRoot_self, after_subscribed, h.force_again hlisted heq (htype entry hlisted heq)]
    exact h
  · rename_i hfind
    have hnew : ∀ entry ∈ (m.event event).subscribeRoot,
        entry.toSubscriber ≠ subscribe.toSubscriber := by
      intro entry hentry heq
      exact List.find?_eq_none.mp hfind entry hentry
        (decide_eq_true ((hmatches entry hentry).mpr heq))
    split_ifs with halloc
    · dsimp only
      rw [setRoot_self]
      exact h
    · have hroot := (h.roots event hevent).link hname.symm hnew
      dsimp only
      rw [after_subscribed]
      apply h.setRoot hevent hroot
      · intro entry hentry
        rw [hroot.named entry hentry, hname]
        exact hvalid
      · apply h.force_add
        · intro entry hlisted heq
          have hsame : entry.name = (m.event event).name := by rw [heq, hname]
          exact hnew entry ((h.listed_iff hevent hsame).mp hlisted) heq
        · intro entry
          rw [h.listed_setRoot hevent hroot]
          split_ifs with hsame
          · rw [h.listed_iff hevent hsame, (linkSubscribe_perm _ _).mem_iff, List.mem_cons, or_comm]
          · constructor
            · exact .inl
            · rintro (hlisted | rfl)
              · exact hlisted
              · exact absurd hname.symm hsame

theorem ListsInv.addFree (h : ListsInv m force) {subscribe : SubscribeNode}
    (hvalid : EventNameIsValid subscribe.name) {alloc : Bool}
    (hnode : alloc = true → m.NoNode subscribe.name)
    (htype : ∀ entry, m.Listed entry → entry.toSubscriber = subscribe.toSubscriber →
      entry.type = subscribe.type) :
    ListsInv { m with
      freeSubscribeRoot := (addFreeSubscribe m.freeSubscribeRoot subscribe alloc).1 }
      (force.after (.subscribed subscribe
        (addFreeSubscribe m.freeSubscribeRoot subscribe alloc).2)) := by
  rw [addFreeSubscribe]
  split
  · rename_i entry hfind
    have hlisted : m.Listed entry := .inl (List.mem_of_find?_eq_some hfind)
    have hfound := List.find?_some hfind
    have heq := (matchesFree_iff entry _).mp (of_decide_eq_true hfound)
    dsimp only
    rw [after_subscribed, h.force_again hlisted heq (htype entry hlisted heq)]
    exact h
  · rename_i hfind
    have hnew : ∀ entry ∈ m.freeSubscribeRoot,
        entry.toSubscriber ≠ subscribe.toSubscriber := by
      intro entry hentry heq
      exact List.find?_eq_none.mp hfind entry hentry
        (decide_eq_true ((matchesFree_iff entry _).mpr heq))
    split_ifs with halloc
    · exact h
    · have hnone := hnode (Bool.of_not_eq_false halloc)
      dsimp only
      rw [after_subscribed]
      apply h.setFree
      · intro entry hentry
        rcases List.mem_append.mp hentry with hold | hsame
        · exact ⟨h.free entry hold, h.valid entry (.inl hold)⟩
        · rw [List.mem_singleton.mp hsame]
          exact ⟨hnone, hvalid⟩
      · have hnot : subscribe.toSubscriber ∉ m.freeSubscribeRoot.map
            SubscribeNode.toSubscriber := by
          rw [List.mem_map]
          rintro ⟨entry, hentry, heq⟩
          exact hnew entry hentry heq
        rw [(List.perm_append_singleton ..).map _ |>.nodup_iff, List.map_cons, List.nodup_cons]
        exact ⟨hnot, h.nodup⟩
      · apply h.force_add
        · intro entry hlisted heq
          have hsame : m.NoNode entry.name := by
            rw [heq]
            exact hnone
          exact hnew entry ((h.listed_iff_free hsame).mp hlisted) heq
        · intro entry
          rw [EventManage.Listed, EventManage.Listed, List.mem_append, List.mem_singleton]
          exact or_right_comm

theorem ListsInv.del (h : ListsInv m force) {event : ℕ} (hevent : event < m.eventCnt)
    {subscribe : Subscriber} (hname : (m.event event).name = subscribe.name) :
    ListsInv (m.setRoot event (delSubscribe (m.event event).subscribeRoot subscribe))
      (Function.update force subscribe none) := by
  have hmem := mem_eraseP_of_nodup (h.roots event hevent).nodup fun entry hentry ↦
    decide_eq_true_iff.trans (h.matches_iff hevent hname entry hentry)
  have hroot : RootOk (m.event event).name (delSubscribe (m.event event).subscribeRoot subscribe) :=
    (h.roots event hevent).sublist List.eraseP_sublist
  apply h.setRoot hevent hroot
  · intro entry hentry
    exact h.valid entry (.inr ⟨event, hevent, ((hmem entry).mp hentry).1⟩)
  · apply h.force_del
    intro entry
    rw [h.listed_setRoot hevent hroot]
    split_ifs with hsame
    · rw [h.listed_iff hevent hsame]
      exact hmem entry
    · have hne : entry.toSubscriber ≠ subscribe := by
        rintro rfl
        exact hsame hname.symm
      exact (and_iff_left hne).symm

theorem ListsInv.delFree (h : ListsInv m force) {subscribe : Subscriber}
    (hnode : ∀ i < m.eventCnt, ∀ entry ∈ (m.event i).subscribeRoot,
      entry.toSubscriber ≠ subscribe) :
    ListsInv { m with freeSubscribeRoot := delFreeSubscribe m.freeSubscribeRoot subscribe }
      (Function.update force subscribe none) := by
  have hmem := mem_eraseP_of_nodup h.nodup fun entry _ ↦
    decide_eq_true_iff.trans (matchesFree_iff entry subscribe)
  apply h.setFree
  · intro entry hentry
    have hold := ((hmem entry).mp hentry).1
    exact ⟨h.free entry hold, h.valid entry (.inl hold)⟩
  · exact h.nodup.sublist (List.eraseP_sublist.map _)
  · apply h.force_del
    intro entry
    constructor
    · rintro (hfree | ⟨i, hi, hin⟩)
      · obtain ⟨hold, hne⟩ := (hmem entry).mp hfree
        exact ⟨.inl hold, hne⟩
      · exact ⟨.inr ⟨i, hi, hin⟩, hnode i hi entry hin⟩
    · rintro ⟨hfree | hin, hne⟩
      · exact .inl ((hmem entry).mpr ⟨hfree, hne⟩)
      · exact .inr hin

theorem ListsInv.dispatch (h : ListsInv m force) {event : ℕ} (hevent : event < m.eventCnt)
    {name : EventString} (hname : (m.event event).name = name) (calls : List Subscriber)
    (rt : OperateRet) :
    ListsInv (m.setRoot event
        ((m.event event).subscribeRoot.filter fun entry ↦ entry.type ≠ .onetime))
      (force.after (.published name calls rt)) := by
  have hroot := (h.roots event hevent).sublist
    (List.filter_sublist (p := fun entry ↦ decide (entry.type ≠ .onetime)))
  apply h.setRoot hevent hroot
  · intro entry hentry
    exact h.valid entry (.inr ⟨event, hevent, (List.mem_filter.mp hentry).1⟩)
  · intro entry
    rw [h.listed_setRoot hevent hroot, InForce.after]
    dsimp only
    by_cases hsame : entry.name = name
    · have hnode := hsame.trans hname.symm
      rw [if_pos hnode, List.mem_filter, ← h.listed_iff hevent hnode, ← h.force]
      by_cases honce : force entry.toSubscriber = some .onetime
      · rw [if_pos ⟨hsame, honce⟩, honce]
        constructor
        · intro hnone
          cases hnone
        · rintro ⟨htype, hne⟩
          exact absurd (Option.some.inj htype).symm (of_decide_eq_true hne)
      · rw [if_neg fun hand ↦ honce hand.2]
        constructor
        · intro hforce
          refine ⟨hforce, decide_eq_true ?_⟩
          intro htype
          rw [hforce, htype] at honce
          exact honce rfl
        · exact And.left
    · have hnode : entry.name ≠ (m.event event).name := by
        rw [hname]
        exact hsame
      rw [if_neg hnode, if_neg fun hand ↦ hsame hand.1]
      exact h.force entry

theorem ListsInv.after_unlisted (h : ListsInv m force) {name : EventString}
    (hnone : ∀ entry, m.Listed entry → entry.name ≠ name) {calls : List Subscriber}
    {rt : OperateRet} : force.after (.published name calls rt) = force := by
  funext subscriber
  rw [InForce.after]
  dsimp only
  rw [if_neg]
  rintro ⟨hname, honce⟩
  exact hnone _ ((h.force ⟨subscriber, .onetime⟩).mp honce) hname

theorem ListsInv.create (h : ListsInv m force) {name : EventString} (hnode : m.NoNode name) :
    ListsInv (m.eventNodeCreateInit name) force := by
  set entries := m.freeSubscribeRoot.filter fun entry ↦ entry.name = name with hentries
  have hmem : ∀ entry, entry ∈ entries ↔ entry ∈ m.freeSubscribeRoot ∧ entry.name = name := by
    intro entry
    rw [hentries, List.mem_filter, decide_eq_true_iff]
  have hroot : RootOk name (entries.foldl linkSubscribe []) := by
    apply (RootOk.nil name).foldl
    · intro entry hentry
      exact ((hmem entry).mp hentry).2
    · rw [List.append_nil]
      exact h.nodup.sublist (List.filter_sublist.map _)
  have hin : ∀ entry, entry ∈ entries.foldl linkSubscribe [] ↔ entry ∈ entries := by
    intro entry
    rw [(foldl_link_perm entries []).mem_iff, List.append_nil]
  have hself : (m.eventNodeCreateInit name).event m.eventCnt =
      ⟨name, entries.foldl linkSubscribe []⟩ := Function.update_self ..
  have hother : ∀ i < m.eventCnt, (m.eventNodeCreateInit name).event i = m.event i :=
    fun i hi ↦ Function.update_of_ne (Nat.ne_of_lt hi) ..
  have hcnt : ∀ i < (m.eventNodeCreateInit name).eventCnt, i < m.eventCnt ∨ i = m.eventCnt :=
    fun i hi ↦ Nat.lt_succ_iff_lt_or_eq.mp hi
  have hfree : ∀ entry, entry ∈ (m.eventNodeCreateInit name).freeSubscribeRoot ↔
      entry ∈ m.freeSubscribeRoot ∧ entry.name ≠ name := by
    intro entry
    rw [EventManage.eventNodeCreateInit, List.mem_filter, decide_eq_true_iff]
  have hlisted : ∀ entry, (m.eventNodeCreateInit name).Listed entry ↔ m.Listed entry := by
    intro entry
    constructor
    · rintro (hold | ⟨i, hi, hnew⟩)
      · exact .inl ((hfree entry).mp hold).1
      · rcases hcnt i hi with hlt | rfl
        · rw [hother i hlt] at hnew
          exact .inr ⟨i, hlt, hnew⟩
        · rw [hself] at hnew
          exact .inl ((hmem entry).mp ((hin entry).mp hnew)).1
    · rintro (hold | ⟨i, hi, hnew⟩)
      · by_cases hname : entry.name = name
        · refine .inr ⟨m.eventCnt, Nat.lt_succ_self _, ?_⟩
          rw [hself]
          exact (hin entry).mpr ((hmem entry).mpr ⟨hold, hname⟩)
        · exact .inl ((hfree entry).mpr ⟨hold, hname⟩)
      · refine .inr ⟨i, Nat.lt_succ_of_lt hi, ?_⟩
        rw [hother i hi]
        exact hnew
  refine ⟨?_, ?_, ?_, h.nodup.sublist (List.filter_sublist.map _), ?_, ?_⟩
  · intro i hi j hj heq
    rcases hcnt i hi with hi | rfl <;> rcases hcnt j hj with hj | rfl
    · rw [hother i hi, hother j hj] at heq
      exact h.distinct i hi j hj heq
    · rw [hother i hi, hself] at heq
      exact absurd heq (hnode i hi)
    · rw [hself, hother j hj] at heq
      exact absurd heq.symm (hnode j hj)
    · rfl
  · intro i hi
    rcases hcnt i hi with hi | rfl
    · rw [hother i hi]
      exact h.roots i hi
    · rw [hself]
      exact hroot
  · intro entry hentry i hi
    obtain ⟨hold, hname⟩ := (hfree entry).mp hentry
    rcases hcnt i hi with hi | rfl
    · rw [hother i hi]
      exact h.free entry hold i hi
    · rw [hself]
      exact hname.symm
  · intro entry
    rw [hlisted]
    exact h.force entry
  · intro entry hentry
    exact h.valid entry ((hlisted entry).mp hentry)

end Lists

/-! ## Steps -/

section Steps

variable {m m' : EventManage} {force force' : InForce} {t : ℕ}

theorem CallOk.mono {call : EventCall} (h : CallOk m call) (hcnt : m.eventCnt ≤ m'.eventCnt)
    (hname : ∀ i < m.eventCnt, (m'.event i).name = (m.event i).name) : CallOk m' call := by
  cases call with
  | dispatching name event => exact ⟨Nat.lt_of_lt_of_le h.1 hcnt, (hname event h.1).trans h.2⟩
  | add event subscribe => exact ⟨Nat.lt_of_lt_of_le h.1 hcnt, (hname event h.1).trans h.2.1, h.2.2⟩
  | del event subscribe => exact ⟨Nat.lt_of_lt_of_le h.1 hcnt, (hname event h.1).trans h.2⟩
  | addFree subscribe => exact h
  | idle | creating | delFree => trivial

theorem EventInv.update (h : EventInv (m, force)) (hlists : ListsInv m' force')
    (hcnt : m.eventCnt ≤ m'.eventCnt)
    (hname : ∀ i < m.eventCnt, (m'.event i).name = (m.event i).name) (hcalls : m'.calls = m.calls)
    {call : EventCall} (hcall : CallOk m' call) : EventInv (m'.setCall t call, force') := by
  refine ⟨hlists.setCall t call, ?_⟩
  intro t'
  change CallOk m' (Function.update m'.calls t call t')
  by_cases ht : t' = t
  · rw [ht, Function.update_self]
    exact hcall
  · rw [Function.update_of_ne ht, hcalls]
    exact (h.calls t').mono hcnt hname

theorem eventNodeGet_some {name : EventString} {event : ℕ} (h : m.eventNodeGet name = some event) :
    event < m.eventCnt ∧ (m.event event).name = name := by
  rw [EventManage.eventNodeGet] at h
  have hfound := List.find?_some h
  exact ⟨List.mem_range.mp (List.mem_of_find?_eq_some h), of_decide_eq_true hfound⟩

theorem EventInv.publish (h : EventInv (m, force)) (name : EventString) :
    EventInv ((m.talEventPublish t name).1,
      (m.talEventPublish t name).2.foldl InForce.after force) := by
  rw [EventManage.talEventPublish]
  split_ifs with hvalid
  · split
    · exact h.update h.lists (Nat.le_refl _) (fun _ _ ↦ rfl) rfl trivial
    · rename_i event hget
      exact h.update h.lists (Nat.le_refl _) (fun _ _ ↦ rfl) rfl (eventNodeGet_some hget)
  · have hsame : force.after (.published name [] oprtBaseEventInvalidEventName) = force := by
      apply h.lists.after_unlisted
      rintro entry hlisted rfl
      exact hvalid (h.lists.valid entry hlisted)
    rw [List.foldl_cons, List.foldl_nil, hsame]
    exact h

theorem EventInv.subscribe (h : EventInv (m, force)) (subscribe : SubscribeNode) :
    EventInv ((m.talEventSubscribe t subscribe).1,
      (m.talEventSubscribe t subscribe).2.foldl InForce.after force) := by
  rw [EventManage.talEventSubscribe]
  split_ifs with hdesc hname
  · split
    · exact h.update h.lists (Nat.le_refl _) (fun _ _ ↦ rfl) rfl hname
    · rename_i event hget
      obtain ⟨hevent, hsame⟩ := eventNodeGet_some hget
      exact h.update h.lists (Nat.le_refl _) (fun _ _ ↦ rfl) rfl ⟨hevent, hsame, hname⟩
  · exact h
  · exact h

theorem EventInv.unsubscribe (h : EventInv (m, force)) (subscribe : Subscriber) :
    EventInv ((m.talEventUnsubscribe t subscribe).1,
      (m.talEventUnsubscribe t subscribe).2.foldl InForce.after force) := by
  rw [EventManage.talEventUnsubscribe]
  split_ifs
  · split
    · exact h.update h.lists (Nat.le_refl _) (fun _ _ ↦ rfl) rfl trivial
    · rename_i event hget
      exact h.update h.lists (Nat.le_refl _) (fun _ _ ↦ rfl) rfl (eventNodeGet_some hget)
  · exact h
  · exact h

theorem EventInv.locked (h : EventInv (m, force)) {alloc : Bool}
    (result : Subscriber → OperateRet) (htimely : SectionTimely m alloc (m.calls t)) :
    EventInv ((m.locked t alloc result (m.calls t)).1,
      (m.locked t alloc result (m.calls t)).2.foldl InForce.after force) := by
  have hcall := h.calls t
  dsimp only at hcall
  cases hphase : m.calls t with
  | idle => exact h
  | creating name =>
      rw [hphase, SectionTimely] at htimely
      rw [EventManage.locked]
      cases alloc with
      | false =>
          have hsame : force.after (.published name [] oprtMallocFailed) = force :=
            h.lists.after_unlisted htimely
          rw [if_pos rfl, List.foldl_cons, List.foldl_nil, hsame]
          exact h.update h.lists (Nat.le_refl _) (fun _ _ ↦ rfl) rfl trivial
      | true =>
          have hself : ((m.eventNodeCreateInit name).event m.eventCnt).name = name := by
            rw [EventManage.eventNodeCreateInit]
            dsimp only
            rw [Function.update_self]
          have hother : ∀ i < m.eventCnt,
              ((m.eventNodeCreateInit name).event i).name = (m.event i).name := by
            intro i hi
            rw [EventManage.eventNodeCreateInit]
            dsimp only
            rw [Function.update_of_ne (Nat.ne_of_lt hi)]
          rw [if_neg (by decide)]
          exact h.update (h.lists.create htimely) (Nat.le_succ _) hother rfl
            ⟨Nat.lt_succ_self _, hself⟩
  | dispatching name event =>
      rw [hphase] at hcall
      have hroot := (eventNodeDispatch_eq result oprtOk (m.event event).subscribeRoot).1
      rw [EventManage.locked]
      dsimp only
      generalize eventNodeDispatch result oprtOk (m.event event).subscribeRoot = r at hroot ⊢
      rw [hroot]
      exact h.update (h.lists.dispatch hcall.1 hcall.2 r.2.1 r.2.2) (Nat.le_refl _)
        (fun i _ ↦ setRoot_name m event _ i) rfl trivial
  | addFree subscribe =>
      rw [hphase] at hcall htimely
      have hlists := h.lists.addFree hcall htimely.1 htimely.2
      exact h.update hlists (Nat.le_refl _) (fun _ _ ↦ rfl) rfl trivial
  | add event subscribe =>
      rw [hphase] at hcall htimely
      have hlists := h.lists.add hcall.1 hcall.2.1 hcall.2.2 htimely alloc
      exact h.update hlists (Nat.le_refl _) (fun i _ ↦ setRoot_name m event _ i) rfl trivial
  | delFree subscribe =>
      rw [hphase] at htimely
      exact h.update (h.lists.delFree htimely) (Nat.le_refl _) (fun _ _ ↦ rfl) rfl trivial
  | del event subscribe =>
      rw [hphase] at hcall
      exact h.update (h.lists.del hcall.1 hcall.2) (Nat.le_refl _)
        (fun i _ ↦ setRoot_name m event _ i) rfl trivial

theorem EventInv.step {s : EventManage × InForce} (h : EventInv s) {x : EventStep}
    (hx : Timely s x) : EventInv (eventMachine.step s x).1 := by
  obtain ⟨m, force⟩ := s
  change EventInv ((eventStep m x).1, (eventStep m x).2.foldl InForce.after force)
  cases x with
  | publish t name =>
      rw [eventStep]
      split_ifs
      · exact h.publish name
      · exact h
  | subscribe t name desc cb type =>
      rw [eventStep]
      split_ifs
      · exact h.subscribe _
      · exact h
  | unsubscribe t name desc cb =>
      rw [eventStep]
      split_ifs
      · exact h.unsubscribe _
      · exact h
  | locked t alloc result => exact h.locked result hx

theorem EventInv.published (h : EventInv (m, force)) {x : EventStep} (hx : Timely (m, force) x)
    {name : EventString} {calls : List Subscriber} {rt : OperateRet}
    (hreturn : .published name calls rt ∈ (eventStep m x).2) :
    (calls = [] ∧ ∀ entry, m.Listed entry → entry.name ≠ name) ∨
      ∃ event < m.eventCnt, (m.event event).name = name ∧ calls =
        ((m.event event).subscribeRoot.filter fun entry ↦ entry.cb ≠ 0).map
          SubscribeNode.toSubscriber := by
  cases x with
  | publish t name' =>
      rw [eventStep, EventManage.talEventPublish] at hreturn
      split_ifs at hreturn with hidle hvalid
      · split at hreturn <;> cases hreturn
      · cases List.mem_singleton.mp hreturn
        refine .inl ⟨rfl, ?_⟩
        rintro entry hlisted rfl
        exact hvalid (h.lists.valid entry hlisted)
      · cases hreturn
  | subscribe t name' desc cb type =>
      rw [eventStep, EventManage.talEventSubscribe] at hreturn
      split_ifs at hreturn
      · split at hreturn <;> cases hreturn
      all_goals simp at hreturn
  | unsubscribe t name' desc cb =>
      rw [eventStep, EventManage.talEventUnsubscribe] at hreturn
      split_ifs at hreturn
      · split at hreturn <;> cases hreturn
      all_goals simp at hreturn
  | locked t alloc result =>
      have hcall := h.calls t
      rw [Timely] at hx
      dsimp only at hcall hx
      rw [eventStep] at hreturn
      cases hphase : m.calls t with
      | creating name' =>
          rw [hphase, EventManage.locked] at hreturn
          rw [hphase, SectionTimely] at hx
          cases alloc with
          | false =>
              rw [if_pos rfl] at hreturn
              cases List.mem_singleton.mp hreturn
              exact .inl ⟨rfl, hx⟩
          | true =>
              rw [if_neg (by decide)] at hreturn
              cases hreturn
      | dispatching name' event =>
          rw [hphase] at hcall hreturn
          obtain ⟨_, hcalls⟩ := eventNodeDispatch_eq result oprtOk (m.event event).subscribeRoot
          cases List.mem_singleton.mp hreturn
          exact .inr ⟨event, hcall.1, hcall.2, hcalls⟩
      | idle | addFree | add | delFree | del =>
          rw [hphase] at hreturn
          simp [EventManage.locked] at hreturn

theorem ListsInv.isSome_iff (h : ListsInv m force) (subscriber : Subscriber) :
    (force subscriber).isSome ↔ ∃ entry, m.Listed entry ∧ entry.toSubscriber = subscriber := by
  rw [Option.isSome_iff_exists]
  constructor
  · rintro ⟨type, hforce⟩
    exact ⟨⟨subscriber, type⟩, (h.force ⟨subscriber, type⟩).mp hforce, rfl⟩
  · rintro ⟨entry, hlisted, rfl⟩
    exact ⟨entry.type, (h.force entry).mpr hlisted⟩

theorem EventInv.delivers (h : EventInv (m, force)) {x : EventStep} (hx : Timely (m, force) x) :
    Delivers (m, force) x := by
  refine ⟨h.lists.distinct, ?_, ?_⟩
  · intro name calls rt hreturn subscriber
    dsimp only at hreturn ⊢
    rcases h.published hx hreturn with ⟨rfl, hnone⟩ | ⟨event, hevent, rfl, rfl⟩
    · rw [List.count_nil, if_neg]
      rintro ⟨rfl, _, hforce⟩
      obtain ⟨entry, hlisted, rfl⟩ := (h.lists.isSome_iff subscriber).mp hforce
      exact hnone entry hlisted rfl
    · have hnodup := (h.lists.roots event hevent).nodup.sublist
        ((List.filter_sublist (p := fun entry ↦ decide (entry.cb ≠ 0))).map
          SubscribeNode.toSubscriber)
      rw [hnodup.count]
      congr 1
      rw [h.lists.isSome_iff, List.mem_map, eq_iff_iff]
      constructor
      · rintro ⟨entry, hentry, rfl⟩
        obtain ⟨hin, hcb⟩ := List.mem_filter.mp hentry
        have hname := (h.lists.roots event hevent).named entry hin
        exact ⟨hname, of_decide_eq_true hcb, entry, (h.lists.listed_iff hevent hname).mpr hin, rfl⟩
      · rintro ⟨hname, hcb, entry, hlisted, rfl⟩
        have hin := (h.lists.listed_iff hevent hname).mp hlisted
        exact ⟨entry, List.mem_filter.mpr ⟨hin, decide_eq_true hcb⟩, rfl⟩
  · intro name calls rt hreturn
    dsimp only at hreturn ⊢
    rcases h.published hx hreturn with ⟨rfl, _⟩ | ⟨event, hevent, rfl, rfl⟩
    · exact List.Pairwise.nil
    · have hin : ∀ entry ∈ (m.event event).subscribeRoot,
          force entry.toSubscriber = some entry.type := fun entry hentry ↦
        (h.lists.force entry).mpr (.inr ⟨event, hevent, hentry⟩)
      rw [List.pairwise_map]
      refine ((h.lists.roots event hevent).order.sublist List.filter_sublist).imp_of_mem ?_
      intro a b ha hb horder hemergency
      rw [hin b (List.mem_filter.mp hb).1] at hemergency
      rw [hin a (List.mem_filter.mp ha).1, horder (Option.some.inj hemergency)]

end Steps

/-! ## Runs -/

/-- In every run in which no lookup is stale at its section. -/
theorem events_delivered {steps : List EventStep}
    (h : eventMachine.Guarded Timely (eventInit, fun _ ↦ none) steps) (k : ℕ) {x : EventStep}
    (hx : steps[k]? = some x) :
    Delivers (eventMachine.final (eventInit, fun _ ↦ none) (steps.take k)) x := by
  obtain ⟨hbefore, htimely⟩ := h.step_at hx
  have hinv : EventInv (eventMachine.final (eventInit, fun _ ↦ none) (steps.take k)) :=
    eventMachine.inv_final (fun _ _ hs hq ↦ hs.step hq) eventInv_init hbefore
  exact hinv.delivers htimely

def someSubscriber : Subscriber := ⟨[1], [2], 7⟩

def subscribeOnce (t : ℕ) (type : SubscribeType) : List EventStep :=
  [.subscribe t someSubscriber.name someSubscriber.desc someSubscriber.cb type,
    .locked t true fun _ ↦ oprtOk]

/-- The section of a thread, when there is memory and the callbacks are content. -/
def lockedOk (t : ℕ) : EventStep := .locked t true fun _ ↦ oprtOk

theorem events_delivered_subscribeOnce :
    Delivers (eventMachine.final (eventInit, fun _ ↦ none)
      ((subscribeOnce 0 .emergency ++ [.publish 1 [1], lockedOk 1, lockedOk 1]).take 4))
      (lockedOk 1) := by
  have hguard : eventMachine.Guarded Timely (eventInit, fun _ ↦ none)
      (subscribeOnce 0 .emergency ++ [.publish 1 [1], lockedOk 1, lockedOk 1]) := by
    have hnone : ∀ i, ¬i < 0 := Nat.not_lt_zero
    refine ⟨trivial, ⟨fun _ i hi ↦ absurd hi (hnone i), ?_⟩, trivial, fun i hi ↦
      absurd hi (hnone i), trivial, trivial⟩
    rintro entry (hfree | ⟨i, hi, _⟩)
    · cases hfree
    · exact absurd hi (hnone i)
  exact events_delivered hguard 4 rfl

/-- Two publishers make two nodes; a node is made between the lookup of a subscribe, or of an
unsubscribe, and its section; there is no memory for the node; and a subscriber for one time
subscribes again for good. -/
theorem events_not_delivered :
    ¬Delivers (eventMachine.final (eventInit, fun _ ↦ none)
      [.publish 0 [1], .publish 1 [1], lockedOk 0, lockedOk 1]) (lockedOk 0) ∧
    ¬Delivers (eventMachine.final (eventInit, fun _ ↦ none)
      [.subscribe 0 [1] [2] 7 .normal, .publish 1 [1], lockedOk 1, lockedOk 0, lockedOk 1,
        .publish 1 [1]]) (lockedOk 1) ∧
    ¬Delivers (eventMachine.final (eventInit, fun _ ↦ none)
      (subscribeOnce 0 .normal ++ [.unsubscribe 0 [1] [2] 7, .publish 1 [1], lockedOk 1, lockedOk 0,
        lockedOk 1, .publish 1 [1]])) (lockedOk 1) ∧
    ¬Delivers (eventMachine.final (eventInit, fun _ ↦ none)
      (subscribeOnce 0 .normal ++ [.publish 1 [1]])) (.locked 1 false fun _ ↦ oprtOk) ∧
    ¬Delivers (eventMachine.final (eventInit, fun _ ↦ none)
      (subscribeOnce 0 .onetime ++ subscribeOnce 0 .normal ++
        [.publish 1 [1], lockedOk 1, lockedOk 1, .publish 1 [1]])) (lockedOk 1) := by
  refine ⟨?_, ?_, ?_, ?_, ?_⟩
  · intro h
    exact absurd (h.nodes 0 (by decide) 1 (by decide) (by decide)) (by decide)
  · intro h
    exact absurd (h.once [1] [] oprtOk (by decide) someSubscriber) (by decide)
  · intro h
    exact absurd (h.once [1] [someSubscriber] oprtOk (by decide) someSubscriber) (by decide)
  · intro h
    exact absurd (h.once [1] [] oprtMallocFailed (by decide) someSubscriber) (by decide)
  · intro h
    exact absurd (h.once [1] [] oprtOk (by decide) someSubscriber) (by decide)

end TuyaOpen.Tal
