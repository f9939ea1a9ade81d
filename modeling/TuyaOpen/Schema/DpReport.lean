import Mathlib.Algebra.Ring.Nat
import TuyaOpen.Schema.SchemaNode

/-!
# Reports with all they carry, `dp_rept_valid_check`

`DpSchema` models the part of a report that the upload status depends on.  Here
a report has its time stamps and the check fills the whole of `dp_rept_valid_t`:
besides the ids it adds up what the JSON of each data point is expected to need.
The nodes go through the same `reptNode`.
-/

namespace TuyaOpen.Schema

/-! ## A node under a report -/

/-- A property without its cached value. -/
def DpProp.limits : DpProp → DpProp
  | .bool _ => .bool false
  | .int min max _ => .int min max 0
  | .str maxLen _ _ => .str maxLen 0 none
  | .enum cnt _ => .enum cnt 0
  | .bitmap _ => .bitmap 0

theorem cacheUpdate_limits (prop : DpProp) (value : DpValue) (malloc : Bool) :
    (cacheUpdate prop value malloc).1.limits = prop.limits := by
  cases prop <;> cases value <;> simp only [cacheUpdate, DpProp.limits]
  case str.str =>
    split_ifs <;> rfl

theorem cacheUpdate_fits {prop : DpProp} {value : DpValue} {malloc : Bool}
    (h : ∀ maxLen curLen s, prop = .str maxLen curLen (some s) → s.length ≤ curLen)
    (maxLen curLen : ℕ)
    (s : List UInt8) (hafter : (cacheUpdate prop value malloc).1 = .str maxLen curLen (some s)) :
    s.length ≤ curLen := by
  cases prop <;> cases value <;> simp only [cacheUpdate] at hafter
  case str.str maxLen' curLen' cached s' =>
    split_ifs at hafter with hneeds hmalloc
    · cases hafter
      exact Nat.le_refl _
    · cases hafter
    · cases hafter
      exact Nat.le_of_not_lt fun hlt ↦ hneeds (Or.inr hlt)
  all_goals first
    | exact h maxLen curLen s hafter
    | cases hafter

theorem reptNode_kept (preprocess : Bool) (reptType : DpReptType) (noFilter malloc : Bool)
    (dp : DpObj) (node : DpNode) :
    (reptNode preprocess reptType noFilter malloc dp node).1 =
        { node with
          prop := (reptNode preprocess reptType noFilter malloc dp node).1.prop
          pvStat := (reptNode preprocess reptType noFilter malloc dp node).1.pvStat } ∧
      ((reptNode preprocess reptType noFilter malloc dp node).1.prop = node.prop ∨
        (node.type = .obj ∧ (reptNode preprocess reptType noFilter malloc dp node).1.prop =
          (cacheUpdate node.prop dp.value malloc).1)) := by
  rw [reptNode]
  split_ifs
  · exact ⟨rfl, Or.inl rfl⟩
  · exact ⟨rfl, Or.inl rfl⟩
  · exact ⟨rfl, Or.inl rfl⟩
  · rw [dpReptUpdate]
    split
    case h_1 hobj =>
      dsimp only
      split
      · exact ⟨rfl, Or.inr ⟨hobj, rfl⟩⟩
      · exact ⟨rfl, Or.inl rfl⟩
    case h_2 => exact ⟨rfl, Or.inl rfl⟩
    case h_3 => exact ⟨rfl, Or.inl rfl⟩

/-- How a report is checked: the `preprocess` flag of the schema, the type of
the report, its flag against the filter, and whether there is memory for the
string of each of its data points. -/
structure ReptEnv where
  preprocess : Bool
  reptType : DpReptType
  noFilter : Bool
  malloc : ℕ → Bool

variable (env : ReptEnv)

/-- The data point gets to `dp_rept_update`. -/
def ReptEnv.passes (dp : DpEntry) (n : SchemaNode) : Bool :=
  decide (env.reptType ≠ .reTransRept) && dpTypeCheck env.reptType dp.toDpObj n.toDpNode &&
    !(env.preprocess && decide (n.passive = .psvTrue))

/-- The node after the `i`-th data point of a report, which is about it, and
whether the data point is sent.  A statistic is always due, and its time is
noted even when the memory for its string is not there. -/
def SchemaNode.rept (i : ℕ) (dp : DpEntry) (n : SchemaNode) : SchemaNode × Bool :=
  let r := reptNode env.preprocess env.reptType env.noFilter (env.malloc i) dp.toDpObj n.toDpNode
  ({ toDpNode := r.1
     ppEnum := n.ppEnum
     timeStamp :=
      if env.reptType = .statRept ∧ env.passes dp n = true then dp.timeStamp else n.timeStamp
     names := by
      intro cnt value hprop
      rcases (reptNode_kept env.preprocess env.reptType env.noFilter (env.malloc i) dp.toDpObj
        n.toDpNode).2 with hsame | ⟨-, hnew⟩
      · exact n.names cnt value (hsame ▸ hprop)
      · have hlimits := cacheUpdate_limits n.prop dp.value (env.malloc i)
        rw [← hnew, hprop] at hlimits
        cases hold : n.prop with
        | enum cnt' value' =>
            rw [hold] at hlimits
            simp only [DpProp.limits, DpProp.enum.injEq] at hlimits
            rw [hlimits.1]
            exact n.names cnt' value' hold
        | _ => rw [hold] at hlimits; cases hlimits
     fits := by
      intro maxLen curLen s hprop
      rcases (reptNode_kept env.preprocess env.reptType env.noFilter (env.malloc i) dp.toDpObj
        n.toDpNode).2 with hsame | ⟨-, hnew⟩
      · exact n.fits maxLen curLen s (hsame ▸ hprop)
      · exact cacheUpdate_fits n.fits maxLen curLen s (hnew ▸ hprop)
     zeroed := by
      intro htype
      obtain ⟨hkept, hprop⟩ := reptNode_kept env.preprocess env.reptType env.noFilter (env.malloc i)
        dp.toDpObj n.toDpNode
      rw [hkept] at htype
      rcases hprop with hsame | ⟨hobj, -⟩
      · rw [hsame]
        exact n.zeroed htype
      · exact absurd hobj htype },
   r.2)

/-! ## The check -/

/-- A report, `dp_rept_in_t`; its count is a byte. -/
structure DpReptIn where
  dps : List DpEntry
  count : dps.length < 2 ^ 8

/-- The report that `tuya_iot_dp_obj_report` makes of an array, whose 16-bit
count it stores in the byte. -/
def DpReptIn.ofArray (dps : List DpEntry) : DpReptIn where
  dps := dps.take (dps.length % 2 ^ 8)
  count := by
    rw [List.length_take]
    exact Nat.lt_of_le_of_lt (Nat.min_le_left _ _) (Nat.mod_lt _ (by decide))

structure DpReptValid where
  num : ℕ
  len : ℕ
  timelen : ℕ
  dpid : List ℕ
  deriving DecidableEq

def DpReptValid.cleared : DpReptValid where
  num := 0
  len := 0
  timelen := 0
  dpid := []

/-- The room that the JSON of a data point is expected to need. -/
def reptLen (dp : DpEntry) (node : SchemaNode) : ℕ :=
  match dp.value with
  | .bool _ => 20
  | .value _ => 20
  | .bitmap _ => 20
  | .str s => 2 * s.length + 15
  | .enum e => (node.ppEnum.getD e []).length + 15

/-- The count is a byte and the lengths are 16 bits wide. -/
def DpReptValid.list (dp : DpEntry) (node : SchemaNode) (v : DpReptValid) : DpReptValid where
  num := (v.num + 1) % 2 ^ 8
  len := (v.len + reptLen dp node) % 2 ^ 16
  timelen := if dp.timeStamp ≠ 0 then (v.timelen + 30) % 2 ^ 16 else v.timelen
  dpid := v.dpid ++ [dp.id]

structure CheckState where
  nodes : List SchemaNode
  dpvalid : DpReptValid

/-- One data point of the loop of `dp_rept_valid_check`, with the code that it
returns with there. -/
def checkStep (i : ℕ) (dp : DpEntry) (s : CheckState) : CheckState × Option OperateRet :=
  match nodeFind s.nodes dp.id with
  | none => (s, none)
  | some node =>
    if sameType dp.value node.prop = false then (s, some oprtSvcDpTpNotMatch)
    else
      let nodes := nodeSet s.nodes dp.id fun n ↦ (n.rept env i dp).1
      if (node.rept env i dp).2 = false then ({ s with nodes := nodes }, none)
      else if enumIllegal dp.toDpObj node.toDpNode then
        ({ s with nodes := nodes }, some oprtSvcDpTypePropIllegal)
      else ({ nodes := nodes, dpvalid := s.dpvalid.list dp node }, none)

def checkLoop : ℕ → List DpEntry → CheckState → CheckState × OperateRet
  | _, [], s => (s, oprtOk)
  | i, dp :: rest, s =>
    match checkStep env i dp s with
    | (s', some ret) => (s', ret)
    | (s', none) => checkLoop (i + 1) rest s'

def DpReptIn.validCheck (dpin : DpReptIn) (nodes : List SchemaNode) : CheckState × OperateRet :=
  let r := checkLoop env 0 dpin.dps { nodes := nodes, dpvalid := DpReptValid.cleared }
  if r.2 = oprtOk ∧ r.1.dpvalid.num = 0 then (r.1, oprtSvcDpIdNotFound) else r

/-! ## The check of `DpSchema` -/

theorem dpNodeFind_map (nodes : List SchemaNode) (id : ℕ) :
    dpNodeFind (nodes.map SchemaNode.toDpNode) id =
      (nodeFind nodes id).map SchemaNode.toDpNode := by
  rw [dpNodeFind, List.find?_map, nodeFind, Keyed.lookup]
  congr 2
  funext n
  rw [Function.comp_apply, SchemaNode.key, decide_eq_decide, Int.natCast_inj]

theorem map_nodeSet_found {nodes : List SchemaNode} {id : ℕ} {f : SchemaNode → SchemaNode}
    {n : SchemaNode} (hfind : nodeFind nodes id = some n) :
    (nodeSet nodes id f).map SchemaNode.toDpNode =
      dpNodeSet (nodes.map SchemaNode.toDpNode) id fun _ ↦ (f n).toDpNode := by
  induction nodes with
  | nil => cases hfind
  | cons m rest ih =>
      rw [nodeFind, Keyed.lookup_cons] at hfind
      rw [nodeSet, Keyed.modify, List.map_cons, dpNodeSet]
      by_cases hid : m.key = id
      · rw [if_pos hid] at hfind
        have hid' : m.id = id := by
          have hkey : (m.id : ℤ) = id := hid
          exact_mod_cast hkey
        rw [if_pos hid, if_pos hid', Option.some.inj hfind]
        rfl
      · rw [if_neg hid] at hfind
        have hid' : ¬ m.id = id := by
          intro heq
          exact hid (by rw [SchemaNode.key, heq])
        rw [if_neg hid, if_neg hid', List.map_cons]
        congr 1
        exact ih hfind

/-- The loop does to the nodes what the loop of `DpSchema` does, and lists the
same ids. -/
theorem checkLoop_refines (i : ℕ) (dps : List DpEntry) (s : CheckState) :
    ∃ ids, (checkLoop env i dps s).1.dpvalid.dpid = s.dpvalid.dpid ++ ids ∧
      validCheckLoop env.preprocess env.reptType env.noFilter env.malloc i
          (dps.map DpEntry.toDpObj) (s.nodes.map SchemaNode.toDpNode) =
        ((checkLoop env i dps s).1.nodes.map SchemaNode.toDpNode, ids,
          (checkLoop env i dps s).2) := by
  induction dps generalizing i s with
  | nil => exact ⟨[], by simp [checkLoop], rfl⟩
  | cons dp rest ih =>
      rw [List.map_cons, validCheckLoop, checkLoop, checkStep, dpNodeFind_map]
      cases hfind : nodeFind s.nodes dp.id with
      | none => exact ih (i + 1) s
      | some n =>
          have hset := map_nodeSet_found (f := fun m ↦ (m.rept env i dp).1) hfind
          have hrept : ((n.rept env i dp).1.toDpNode, (n.rept env i dp).2) =
              reptNode env.preprocess env.reptType env.noFilter
                (env.malloc i) dp.toDpObj n.toDpNode := rfl
          simp only [Option.map_some, ← hrept]
          by_cases htype : sameType dp.value n.prop = false
          · rw [if_pos htype, if_pos htype]
            exact ⟨[], by simp, rfl⟩
          rw [if_neg htype, if_neg htype]
          by_cases hsent : (n.rept env i dp).2 = false
          · rw [if_pos hsent, if_pos hsent, ← hset]
            exact ih (i + 1) _
          rw [if_neg hsent, if_neg hsent]
          by_cases hillegal : enumIllegal dp.toDpObj n.toDpNode = true
          · rw [if_pos hillegal, if_pos hillegal, ← hset]
            exact ⟨[], by simp, rfl⟩
          rw [if_neg hillegal, if_neg hillegal, ← hset]
          obtain ⟨ids, hids, hloop⟩ := ih (i + 1)
            { nodes := nodeSet s.nodes dp.id fun m ↦ (m.rept env i dp).1
              dpvalid := s.dpvalid.list dp n }
          refine ⟨dp.id :: ids, ?_, ?_⟩
          · dsimp only
            rw [hids]
            simp [DpReptValid.list]
          · rw [hloop]

end TuyaOpen.Schema
