import TuyaOpen.Schema.DpSchema
import Mathlib.Data.List.Nodup
import Mathlib.Data.List.Perm.Basic

/-!
# The dump of the local state

`dp_obj_dump_stat_local_json` counts the object data points that are not in the
cloud, and then collects as many nodes as it counted, with another test.  Raw and
file data points pass the second test and not the first, and take the places of
object ones that stand behind them.
-/

namespace TuyaOpen.Schema

def hasValue (n : DpNode) : Bool := n.prop.cached.isSome

def dumpTarget (nodes : List DpNode) : List DpNode :=
  nodes.filter fun n ↦ isLocalObj n && hasValue n

def valueOf (n : DpNode) : Option (ℕ × DpValue) := n.prop.cached.map fun v ↦ (n.id, v)

/-- With memory for it, the dump lists the object data points that are not in the cloud and
have a value, and nothing else. -/
def DumpExact (nodes : List DpNode) : Prop :=
  match (dpObjDumpStatLocalJson ⟨true, true, true, true⟩ nodes).2 with
  | none => dumpTarget nodes = []
  | some r => r.dpids.Perm ((dumpTarget nodes).map DpNode.id) ∧
      r.values.Perm ((dumpTarget nodes).filterMap valueOf)

/-- No raw or file data point stands before an object one that is not in the cloud. -/
def LocalFirst (nodes : List DpNode) : Prop :=
  nodes.Pairwise fun a b ↦ isLocalObj b = true → a.type = .obj

/-- The object data points that are not in the cloud have a value, or none of them has. -/
def ValuesAgree (nodes : List DpNode) : Prop :=
  (∀ n ∈ nodes, isLocalObj n = true → hasValue n = true) ∨
    ∀ n ∈ nodes, isLocalObj n = true → hasValue n = false

/-- What `dp_schema_create` makes: a raw or file data point is left with the property that
zeroed memory has. -/
structure SchemaCreated (nodes : List DpNode) : Prop where
  ids : (nodes.map DpNode.id).Nodup
  plain : ∀ n ∈ nodes, n.type ≠ .obj → n.prop = .bool false

/-! ## The nodes that are collected -/

def isCollected (n : DpNode) : Bool := !(decide (n.type = .obj) && decide (n.pvStat = .cloud))

theorem dumpNodes_eq_take (nodes : List DpNode) :
    dumpNodes nodes = (nodes.filter isCollected).take (nodes.countP isLocalObj) := rfl

theorem isCollected_of_local {n : DpNode} (h : isLocalObj n = true) : isCollected n = true := by
  simp only [isLocalObj, isCollected] at h ⊢
  simp_all

theorem isLocalObj_of_collected {n : DpNode} (h : isCollected n = true) (hobj : n.type = .obj) :
    isLocalObj n = true := by
  simp only [isLocalObj, isCollected] at h ⊢
  simp_all

theorem local_leads {nodes : List DpNode} (h : LocalFirst nodes) :
    nodes.filter isLocalObj <+: nodes.filter isCollected := by
  induction nodes with
  | nil => exact List.prefix_rfl
  | cons n rest ih =>
      obtain ⟨hn, hrest⟩ := List.pairwise_cons.mp h
      by_cases hobj : n.type = .obj
      · by_cases hcloud : n.pvStat = .cloud
        · simpa [isLocalObj, isCollected, hobj, hcloud] using ih hrest
        · simpa [isLocalObj, isCollected, hobj, hcloud] using ih hrest
      · -- behind a raw or file data point there are none to send
        have hnone : (n :: rest).filter isLocalObj = [] := by
          rw [List.filter_eq_nil_iff]
          intro m hm
          rcases List.mem_cons.mp hm with rfl | hm
          · simp [isLocalObj, hobj]
          · exact fun hm' ↦ hobj (hn m hm hm')
        rw [hnone]
        exact List.nil_prefix

theorem dumpNodes_of_localFirst {nodes : List DpNode} (h : LocalFirst nodes) :
    dumpNodes nodes = nodes.filter isLocalObj := by
  rw [dumpNodes_eq_take, List.countP_eq_length_filter]
  exact (List.prefix_iff_eq_take.mp (local_leads h)).symm

theorem filter_isCollected_local (nodes : List DpNode) :
    (nodes.filter isCollected).filter isLocalObj = nodes.filter isLocalObj := by
  rw [List.filter_filter]
  refine List.filter_congr fun n _ ↦ ?_
  cases h : isLocalObj n with
  | false => rfl
  | true => rw [isCollected_of_local h, Bool.and_self]

theorem length_dumpNodes (nodes : List DpNode) :
    (dumpNodes nodes).length = (nodes.filter isLocalObj).length := by
  rw [dumpNodes_eq_take, List.length_take, List.countP_eq_length_filter,
    ← filter_isCollected_local]
  exact Nat.min_eq_left (List.length_filter_le _ _)

/-- If only object data points are collected, then they are collected in front of all raw and
file ones. -/
theorem localFirst_of_dumpNodes {nodes : List DpNode}
    (h : ∀ n ∈ dumpNodes nodes, isLocalObj n = true) : LocalFirst nodes := by
  have hsplit : dumpNodes nodes ++ (nodes.filter isCollected).drop (nodes.countP isLocalObj) =
      nodes.filter isCollected := by
    rw [dumpNodes_eq_take]
    exact List.take_append_drop _ _
  generalize (nodes.filter isCollected).drop (nodes.countP isLocalObj) = rest at hsplit
  have hrest : rest.filter isLocalObj = [] := by
    have hlen := congrArg (fun l ↦ (l.filter isLocalObj).length) hsplit
    simp only [List.filter_append, List.length_append, List.filter_eq_self.mpr h,
      filter_isCollected_local, length_dumpNodes] at hlen
    exact List.length_eq_zero_iff.mp (by omega)
  have hpair : (nodes.filter isCollected).Pairwise
      fun a b ↦ isLocalObj b = true → a.type = .obj := by
    rw [← hsplit]
    have hobj : ∀ n ∈ dumpNodes nodes, n.type = .obj := fun n hn ↦ by
      have := h n hn
      simp only [isLocalObj, Bool.and_eq_true, decide_eq_true_eq] at this
      exact this.1
    refine List.pairwise_append.mpr ⟨?_, ?_, fun a ha _ _ _ ↦ hobj a ha⟩
    · exact List.pairwise_of_forall_mem_list fun a ha _ _ _ ↦ hobj a ha
    · refine List.pairwise_of_forall_mem_list fun a _ b hb hlocal ↦ ?_
      exact absurd hlocal (List.filter_eq_nil_iff.mp hrest b hb)
  rw [List.pairwise_filter] at hpair
  refine hpair.imp ?_
  intro a b hab hlocal
  by_contra hraw
  exact hraw (hab (by simp [isCollected, hraw]) (isCollected_of_local hlocal) hlocal)

/-! ## When the dump is exact -/

theorem dump_none {nodes : List DpNode}
    (h : nodes.countP isLocalObj = 0 ∨ ∀ n ∈ dumpNodes nodes, hasValue n = false) :
    (dpObjDumpStatLocalJson ⟨true, true, true, true⟩ nodes).2 = none := by
  by_cases hzero : nodes.countP isLocalObj = 0
  · rw [dpObjDumpStatLocalJson, if_pos hzero]
  · have hall : ((dumpNodes nodes).all fun n ↦ n.prop.cached.isNone) = true := by
      refine List.all_eq_true.mpr fun n hn ↦ ?_
      simpa [hasValue] using h.resolve_left hzero n hn
    rw [dpObjDumpStatLocalJson, if_neg hzero, if_neg (by simp), if_pos hall]

theorem dump_some {nodes : List DpNode} (hzero : nodes.countP isLocalObj ≠ 0) {n : DpNode}
    (hn : n ∈ dumpNodes nodes) (hvalue : hasValue n = true) :
    (dpObjDumpStatLocalJson ⟨true, true, true, true⟩ nodes).2 =
      some ⟨(dumpNodes nodes).map DpNode.id, (dumpNodes nodes).filterMap valueOf⟩ := by
  have hall : ¬ ((dumpNodes nodes).all fun n ↦ n.prop.cached.isNone) = true := by
    intro hall
    have hnone := List.all_eq_true.mp hall n hn
    rw [hasValue, Option.isSome_iff_ne_none] at hvalue
    exact hvalue (Option.isNone_iff_eq_none.mp hnone)
  rw [dpObjDumpStatLocalJson, if_neg hzero, if_neg (by simp), if_neg hall, if_neg (by simp),
    if_neg (by simp)]
  rfl

theorem countP_ne_zero {nodes : List DpNode} {n : DpNode} (hn : n ∈ nodes)
    (hlocal : isLocalObj n = true) : nodes.countP isLocalObj ≠ 0 :=
  fun hzero ↦ List.countP_eq_zero.mp hzero n hn hlocal

theorem dumpExact_of_localFirst {nodes : List DpNode} (hfirst : LocalFirst nodes)
    (hagree : ValuesAgree nodes) : DumpExact nodes := by
  have hdump := dumpNodes_of_localFirst hfirst
  by_cases hsome : ∃ n ∈ nodes, isLocalObj n = true ∧ hasValue n = true
  · obtain ⟨n, hn, hlocal, hvalue⟩ := hsome
    have hall : ∀ m ∈ nodes, isLocalObj m = true → hasValue m = true := by
      rcases hagree with hall | hnone
      · exact hall
      · rw [hnone n hn hlocal] at hvalue
        cases hvalue
    have htarget : dumpTarget nodes = nodes.filter isLocalObj := by
      refine List.filter_congr fun m hm ↦ ?_
      cases hm' : isLocalObj m with
      | false => rfl
      | true => rw [hall m hm hm', Bool.and_self]
    have hmem : n ∈ dumpNodes nodes := by
      rw [hdump]
      exact List.mem_filter.mpr ⟨hn, hlocal⟩
    rw [DumpExact, dump_some (countP_ne_zero hn hlocal) hmem hvalue, htarget, hdump]
    exact ⟨List.Perm.refl _, List.Perm.refl _⟩
  · have hvalueless : ∀ n ∈ nodes, isLocalObj n = true → hasValue n = false := by
      intro n hn hlocal
      by_contra hvalue
      exact hsome ⟨n, hn, hlocal, by simpa using hvalue⟩
    have hnone : (dpObjDumpStatLocalJson ⟨true, true, true, true⟩ nodes).2 = none := by
      refine dump_none (Or.inr fun n hn ↦ ?_)
      rw [hdump] at hn
      exact hvalueless n (List.mem_filter.mp hn).1 (List.mem_filter.mp hn).2
    rw [DumpExact, hnone]
    refine List.filter_eq_nil_iff.mpr fun n hn h ↦ ?_
    rw [Bool.and_eq_true] at h
    rw [hvalueless n hn h.1] at h
    cases h.2

theorem mem_dumpNodes {nodes : List DpNode} {n : DpNode} (hn : n ∈ dumpNodes nodes) :
    n ∈ nodes ∧ isCollected n = true :=
  List.mem_filter.mp (List.take_subset _ _ hn)

theorem SchemaCreated.local_of_valueless {nodes : List DpNode} (h : SchemaCreated nodes)
    {n : DpNode}
    (hn : n ∈ dumpNodes nodes) (hvalue : hasValue n = false) : isLocalObj n = true := by
  obtain ⟨hmem, hcollected⟩ := mem_dumpNodes hn
  refine isLocalObj_of_collected hcollected ?_
  by_contra hraw
  rw [hasValue, h.plain n hmem hraw] at hvalue
  cases hvalue

/-- If nothing is dumped, then nothing had to be, and only object data points were collected. -/
theorem localFirst_of_exact {nodes : List DpNode} (h : SchemaCreated nodes)
    (hexact : DumpExact nodes) : LocalFirst nodes ∧ ValuesAgree nodes := by
  by_cases hzero : nodes.countP isLocalObj = 0
  · have hnone := List.countP_eq_zero.mp hzero
    refine ⟨?_, Or.inl fun n hn hlocal ↦ absurd hlocal (hnone n hn)⟩
    exact List.pairwise_of_forall_mem_list fun _ _ b hb hlocal ↦ absurd hlocal (hnone b hb)
  by_cases hsome : ∃ n ∈ dumpNodes nodes, hasValue n = true
  · obtain ⟨n, hn, hvalue⟩ := hsome
    rw [DumpExact, dump_some hzero hn hvalue] at hexact
    obtain ⟨hids, -⟩ := hexact
    -- as many are collected as were counted, so all that were counted have a value
    have hlength := hids.length_eq
    rw [List.length_map, List.length_map, length_dumpNodes] at hlength
    have htarget : dumpTarget nodes = (nodes.filter isLocalObj).filter hasValue := by
      rw [List.filter_filter]
      exact List.filter_congr fun _ _ ↦ Bool.and_comm _ _
    have hall : ∀ m ∈ nodes.filter isLocalObj, hasValue m = true := by
      rw [htarget] at hlength
      exact List.length_filter_eq_length_iff.mp hlength.symm
    refine ⟨localFirst_of_dumpNodes fun m hm ↦ ?_,
      Or.inl fun m hm hlocal ↦ hall m (List.mem_filter.mpr ⟨hm, hlocal⟩)⟩
    obtain ⟨m', hm', hid⟩ := List.mem_map.mp (hids.subset (List.mem_map_of_mem hm))
    have hsame := List.inj_on_of_nodup_map h.ids (List.mem_filter.mp hm').1 (mem_dumpNodes hm).1 hid
    rw [← hsame]
    have htarget' := (List.mem_filter.mp hm').2
    rw [Bool.and_eq_true] at htarget'
    exact htarget'.1
  · have hvalueless : ∀ n ∈ dumpNodes nodes, hasValue n = false := by
      intro n hn
      by_contra hvalue
      exact hsome ⟨n, hn, by simpa using hvalue⟩
    rw [DumpExact, dump_none (Or.inr hvalueless)] at hexact
    refine ⟨localFirst_of_dumpNodes fun n hn ↦ h.local_of_valueless hn (hvalueless n hn),
      Or.inr fun n hn hlocal ↦ ?_⟩
    have hnot := List.filter_eq_nil_iff.mp hexact n hn
    simpa [hlocal] using hnot

/-- The dump is exact if and only if no raw or file data point stands before an object one that
is not in the cloud, and these have a value, or none of them has. -/
theorem dump_exact_iff (nodes : List DpNode) :
    (LocalFirst nodes ∧ ValuesAgree nodes → DumpExact nodes) ∧
    (SchemaCreated nodes → DumpExact nodes → LocalFirst nodes ∧ ValuesAgree nodes) :=
  ⟨fun h ↦ dumpExact_of_localFirst h.1 h.2, fun h hexact ↦ localFirst_of_exact h hexact⟩

def switchNode : DpNode :=
  ⟨1, .rw, .psvFalse, .obj, .pulse, .bool true, .local⟩

def sceneNode : DpNode :=
  ⟨101, .rw, .psvFalse, .raw, .pulse, .bool false, .invalid⟩

theorem dump_exact_iff_switch :
    SchemaCreated [switchNode, sceneNode] ∧ DumpExact [switchNode, sceneNode] ∧
    LocalFirst [switchNode, sceneNode] ∧ ValuesAgree [switchNode, sceneNode] := by
  have hcreated : SchemaCreated [switchNode, sceneNode] := by
    refine ⟨by decide, ?_⟩
    simp [switchNode, sceneNode]
  have hexact : DumpExact [switchNode, sceneNode] := by
    refine (dump_exact_iff [switchNode, sceneNode]).1 ⟨?_, Or.inl ?_⟩
    · simp [LocalFirst, switchNode]
    · simp [switchNode, sceneNode, hasValue, isLocalObj, DpProp.cached]
  exact ⟨hcreated, hexact, (dump_exact_iff [switchNode, sceneNode]).2 hcreated hexact⟩

/-- In the other order the raw data point is dumped and the switch is not. -/
theorem raw_before_object_dumped :
    SchemaCreated [sceneNode, switchNode] ∧
    (dpObjDumpStatLocalJson ⟨true, true, true, true⟩ [sceneNode, switchNode]).2 =
      some ⟨[101], [(101, .bool false)]⟩ ∧
    ¬ DumpExact [sceneNode, switchNode] := by
  have hcreated : SchemaCreated [sceneNode, switchNode] := by
    refine ⟨by decide, ?_⟩
    simp [switchNode, sceneNode]
  have hdump : (dpObjDumpStatLocalJson ⟨true, true, true, true⟩ [sceneNode, switchNode]).2 =
      some ⟨[101], [(101, .bool false)]⟩ := by decide
  refine ⟨hcreated, hdump, ?_⟩
  rw [DumpExact, hdump]
  rintro ⟨hids, -⟩
  have hmem := hids.subset (List.mem_singleton.mpr rfl)
  revert hmem
  decide

end TuyaOpen.Schema
