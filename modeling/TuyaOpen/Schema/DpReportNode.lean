import TuyaOpen.Schema.DpReport

/-!
# One data point under a report

What the check leaves of a data point is decided at its node: a data point that
passes the checks is due when it is forced or its value differs from the cached
one, and it is stored unless there is no memory for its string.
-/

namespace TuyaOpen.Schema

variable (env : ReptEnv)

/-! ## The cache -/

/-- The value is in the range of the property. -/
def inRange (value : DpValue) (prop : DpProp) : Bool :=
  match value, prop with
  | .bool _, .bool _ => true
  | .value v, .int min max _ => decide (min ≤ v) && decide (v ≤ max)
  | .str s, .str maxLen _ _ => decide (s.length ≤ maxLen)
  | .enum e, .enum cnt _ => decide (e < cnt)
  | .bitmap _, .bitmap _ => true
  | _, _ => false

def DpValue.isBitmap : DpValue → Bool
  | .bitmap _ => true
  | _ => false

/-- There is room for the value: a string goes into the buffer that is there, or
memory is found for it. -/
def stored (malloc : Bool) (value : DpValue) (prop : DpProp) : Bool :=
  match value, prop with
  | .str s, .str _ curLen cached => (cached.isSome && decide (s.length ≤ curLen)) || malloc
  | _, _ => true

theorem cached_cacheUpdate {prop : DpProp} {value : DpValue} (malloc : Bool)
    (hrange : inRange value prop = true) :
    (cacheUpdate prop value malloc).1.cached =
        (if stored malloc value prop = true then some value else none) ∧
      (cacheUpdate prop value malloc).2 = stored malloc value prop := by
  cases prop <;> cases value <;> simp only [inRange, Bool.false_eq_true] at hrange
  case bool.bool => exact ⟨rfl, rfl⟩
  case int.value => exact ⟨rfl, rfl⟩
  case bitmap.bitmap => exact ⟨rfl, rfl⟩
  case enum.enum cnt cached e =>
    rw [decide_eq_true_iff] at hrange
    simp [cacheUpdate, stored, DpProp.cached, hrange]
  case str.str maxLen curLen cached s =>
    simp only [cacheUpdate, stored]
    cases cached with
    | none => cases malloc <;> simp [DpProp.cached]
    | some c =>
        by_cases hlt : curLen < s.length
        · have hle : ¬ s.length ≤ curLen := Nat.not_le_of_lt hlt
          cases malloc <;> simp [DpProp.cached, hlt, hle]
        · simp [DpProp.cached, hlt, Nat.le_of_not_lt hlt]

theorem valueChanged_of_inRange {prop : DpProp} {value : DpValue}
    (hrange : inRange value prop = true) :
    valueChanged prop value = decide (prop.cached ≠ some value) := by
  cases prop <;> cases value <;> simp only [inRange, Bool.false_eq_true] at hrange
  case enum.enum cnt cached e =>
    rw [decide_eq_true_iff] at hrange
    simp [valueChanged, DpProp.cached, hrange]
  all_goals rfl

theorem stored_of_cached {n : SchemaNode} {value : DpValue} (malloc : Bool)
    (h : n.prop.cached = some value) : stored malloc value n.prop = true := by
  cases hprop : n.prop <;> cases value <;> simp only [hprop, DpProp.cached, stored] at h ⊢
  case str.str maxLen curLen cached s =>
    cases cached with
    | none => cases h
    | some c =>
        obtain rfl : c = s := by simpa using h
        have hfits : c.length ≤ curLen := n.fits maxLen curLen c hprop
        simp [hfits]

/-! ## The checks -/

theorem inRange_limits {value : DpValue} {prop prop' : DpProp} (h : prop'.limits = prop.limits) :
    inRange value prop' = inRange value prop := by
  cases prop <;> cases prop' <;> simp only [DpProp.limits, reduceCtorEq] at h <;> cases h <;>
    cases value <;> rfl

theorem sameType_limits {value : DpValue} {prop prop' : DpProp} (h : prop'.limits = prop.limits) :
    sameType value prop' = sameType value prop := by
  cases prop <;> cases prop' <;> simp only [DpProp.limits, reduceCtorEq] at h <;> cases h <;>
    cases value <;> rfl

theorem dpTypeCheck_obj {reptType : DpReptType} {dp : DpObj} {node : DpNode}
    (hobj : node.type = .obj) :
    dpTypeCheck reptType dp node =
      (decide (node.mode ≠ .wr) && decide (reptType ≠ .rawRept) && inRange dp.value node.prop &&
        !dp.value.isBitmap) := by
  rw [dpTypeCheck, hobj]
  by_cases hmode : node.mode = .wr
  · simp [hmode]
  by_cases hraw : reptType = .rawRept
  · simp [hraw]
  rw [if_neg (by simp [hmode, hraw])]
  cases hvalue : dp.value <;> cases hprop : node.prop <;>
    simp [inRange, DpValue.isBitmap, hmode, hraw, Bool.and_comm]

/-! ## The node -/

variable {env} {i : ℕ} {dp : DpEntry} {n : SchemaNode}

/-- What every report leaves of a node. -/
def SchemaNode.fixed (n : SchemaNode) :
    ℤ × DpMode × DpPsv × DpType × DpTrig × DpProp × List (List UInt8) :=
  (n.key, n.mode, n.passive, n.type, n.trig, n.prop.limits, n.ppEnum)

/-- The data point is sent whatever its value is. -/
def ReptEnv.forced (env : ReptEnv) (n : SchemaNode) : Bool :=
  decide (n.pvStat = .invalid ∨ n.pvStat = .local ∨ n.trig = .direct ∨ env.reptType = .statRept ∨
    env.noFilter = true)

/-- The data point is to be sent. -/
def ReptEnv.due (env : ReptEnv) (dp : DpEntry) (n : SchemaNode) : Bool :=
  env.forced n || decide (n.prop.cached ≠ some dp.value)

theorem SchemaNode.eq_of_fields {m : SchemaNode} (hnode : m.toDpNode = n.toDpNode)
    (hnames : m.ppEnum = n.ppEnum) (htime : m.timeStamp = n.timeStamp) : m = n := by
  cases m
  cases n
  simp_all

theorem rept_fixed (n : SchemaNode) : (n.rept env i dp).1.fixed = n.fixed := by
  obtain ⟨hkept, hprop⟩ := reptNode_kept env.preprocess env.reptType env.noFilter (env.malloc i)
    dp.toDpObj n.toDpNode
  have hlimits : (n.rept env i dp).1.prop.limits = n.prop.limits := by
    rcases hprop with hsame | ⟨-, hnew⟩
    · exact congrArg DpProp.limits hsame
    · exact (congrArg DpProp.limits hnew).trans (cacheUpdate_limits _ _ _)
  rw [SchemaNode.fixed, SchemaNode.fixed, hlimits]
  simp only [SchemaNode.key, SchemaNode.rept]
  rw [hkept]

theorem rept_idle (hpass : env.passes dp n = false) :
    (n.rept env i dp).1 = n ∧ (n.rept env i dp).2 = decide (env.reptType = .reTransRept) := by
  have hnode : reptNode env.preprocess env.reptType env.noFilter
    (env.malloc i) dp.toDpObj n.toDpNode =
      (n.toDpNode, decide (env.reptType = .reTransRept)) := by
    rw [reptNode]
    by_cases hretrans : env.reptType = .reTransRept
    · simp [hretrans]
    · rw [if_neg hretrans]
      by_cases hcheck : dpTypeCheck env.reptType dp.toDpObj n.toDpNode = false
      · simp [hcheck, hretrans]
      · have hpassive : env.preprocess = true ∧ n.passive = .psvTrue := by
          simpa [ReptEnv.passes, hretrans, hcheck] using hpass
        rw [if_neg hcheck, if_pos hpassive]
        simp [hretrans]
  refine ⟨SchemaNode.eq_of_fields ?_ rfl ?_, ?_⟩
  · exact congrArg Prod.fst hnode
  · simp [SchemaNode.rept, hpass]
  · exact congrArg Prod.snd hnode

theorem reptNode_of_passes (hpass : env.passes dp n = true) :
    reptNode env.preprocess env.reptType env.noFilter (env.malloc i) dp.toDpObj n.toDpNode =
      dpReptUpdate env.reptType dp.toDpObj n.toDpNode env.noFilter (env.malloc i) := by
  simp only [ReptEnv.passes, Bool.and_eq_true, decide_eq_true_iff] at hpass
  obtain ⟨⟨htype, hcheck⟩, hpassive⟩ := hpass
  rw [reptNode, if_neg htype, if_neg (by simp [hcheck])]
  apply if_neg
  rintro ⟨hpreprocess, htrue⟩
  simp [hpreprocess, htrue] at hpassive

theorem rept_timeStamp (hpass : env.passes dp n = true) :
    (n.rept env i dp).1.timeStamp = if env.reptType =
    .statRept then dp.timeStamp else n.timeStamp := by
  simp [SchemaNode.rept, hpass]

theorem inRange_of_passes (hpass : env.passes dp n = true) (hobj : n.type = .obj) :
    inRange dp.value n.prop = true := by
  simp only [ReptEnv.passes, dpTypeCheck_obj hobj, Bool.and_eq_true] at hpass
  exact hpass.1.2.1.2

theorem reptNode_obj (hpass : env.passes dp n = true) (hobj : n.type = .obj) :
    reptNode env.preprocess env.reptType env.noFilter (env.malloc i) dp.toDpObj n.toDpNode =
      if env.due dp n = true then
        ({ n.toDpNode with
            prop := (cacheUpdate n.prop dp.value (env.malloc i)).1
            pvStat := if stored (env.malloc i) dp.value n.prop then .local else n.pvStat },
          stored (env.malloc i) dp.value n.prop)
      else (n.toDpNode, false) := by
  have hrange : inRange dp.value n.prop = true := inRange_of_passes hpass hobj
  have hstored := (cached_cacheUpdate (env.malloc i) hrange).2
  have hchanged := valueChanged_of_inRange hrange
  rw [reptNode_of_passes hpass, dpReptUpdate, hobj]
  simp only [hchanged, hstored, ReptEnv.due, ReptEnv.forced, Bool.or_eq_true, decide_eq_true_iff,
    ← hobj]

theorem cached_of_not_due (hdue : env.due dp n = false) : n.prop.cached = some dp.value := by
  rw [ReptEnv.due, Bool.or_eq_false_iff, decide_eq_false_iff_not, not_not] at hdue
  exact hdue.2

theorem rept_not_due (hpass : env.passes dp n = true) (hobj : n.type = .obj)
    (hdue : env.due dp n = false) : (n.rept env i dp).1 = n ∧ (n.rept env i dp).2 = false := by
  have hrept := reptNode_obj (i := i) hpass hobj
  rw [if_neg (Bool.not_eq_true _ ▸ hdue)] at hrept
  have htype : env.reptType ≠ .statRept := by
    intro hstat
    simp [ReptEnv.due, ReptEnv.forced, hstat] at hdue
  refine ⟨SchemaNode.eq_of_fields (congrArg Prod.fst hrept) rfl ?_, congrArg Prod.snd hrept⟩
  rw [rept_timeStamp hpass, if_neg htype]

theorem rept_obj (hpass : env.passes dp n = true) (hobj : n.type = .obj) :
    (n.rept env i dp).1.prop.cached =
        (if stored (env.malloc i) dp.value n.prop = true then some dp.value else none) ∧
      (n.rept env i dp).1.pvStat =
        (if (env.due dp n && stored (env.malloc i) dp.value n.prop) = true then .local
          else n.pvStat) ∧
      (n.rept env i dp).2 = (env.due dp n && stored (env.malloc i) dp.value n.prop) := by
  have hrange : inRange dp.value n.prop = true := inRange_of_passes hpass hobj
  have hcached := (cached_cacheUpdate (env.malloc i) hrange).1
  by_cases hdue : env.due dp n = true
  · have hrept := reptNode_obj (i := i) hpass hobj
    rw [if_pos hdue] at hrept
    simp only [SchemaNode.rept, hrept, hdue, Bool.true_and]
    exact ⟨hcached, trivial, trivial⟩
  · rw [Bool.not_eq_true] at hdue
    have hsame := cached_of_not_due hdue
    obtain ⟨hnode, hret⟩ := rept_not_due (i := i) hpass hobj hdue
    rw [hnode, hret, hdue, if_pos (stored_of_cached _ hsame), hsame]
    exact ⟨rfl, rfl, rfl⟩

theorem rept_raw (hpass : env.passes dp n = true) (hobj : n.type ≠ .obj) :
    (n.rept env i dp).1.prop = n.prop ∧ (n.rept env i dp).1.pvStat = .local ∧
      (n.rept env i dp).2 = true := by
  have hraw : n.type = .raw := by
    cases htype : n.type with
    | obj => exact absurd htype hobj
    | raw => rfl
    | file =>
        simp only [ReptEnv.passes, Bool.and_eq_true] at hpass
        have hcheck := hpass.1.2
        rw [dpTypeCheck, htype] at hcheck
        simp at hcheck
  have hrept := reptNode_of_passes (i := i) hpass
  rw [dpReptUpdate, hraw] at hrept
  simp only [SchemaNode.rept, hrept]
  exact ⟨trivial, trivial, trivial⟩

end TuyaOpen.Schema
