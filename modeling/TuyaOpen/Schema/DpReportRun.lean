import TuyaOpen.Schema.DpReportNode

/-!
# The loop of `dp_rept_valid_check`

Up to the first data point that makes it return, the loop changes each node by
the data points of its id and by nothing else, so a run over the nodes is a run
at each of them.
-/

namespace TuyaOpen.Schema

variable (env : ReptEnv)

/-- The data point makes the loop return: its type is not the property's, or it
is a retransmitted enumerator out of range. -/
def ReptEnv.stops (nodes : List SchemaNode) (dp : DpEntry) : Bool :=
  (nodeFind nodes dp.id).any fun node ↦
    !sameType dp.value node.prop ||
      (decide (env.reptType = .reTransRept) && enumIllegal dp.toDpObj node.toDpNode)

/-- The data points before the first that makes the loop return. -/
def ReptEnv.steady (nodes : List SchemaNode) (dps : List DpEntry) : List DpEntry :=
  dps.takeWhile fun dp ↦ !env.stops nodes dp

/-- The data points of one id, each with its index. -/
@[grind =] def entriesOf (id : ℤ) (es : List (DpEntry × ℕ)) : List (DpEntry × ℕ) :=
  es.filter fun e ↦ decide ((e.1.id : ℤ) = id)

/-- The node after the data points of its id. -/
def SchemaNode.after (n : SchemaNode) (es : List (DpEntry × ℕ)) : SchemaNode :=
  es.foldl (fun m e ↦ (m.rept env e.2 e.1).1) n

/-- One of the data points is sent. -/
def SchemaNode.Sends (n : SchemaNode) : List (DpEntry × ℕ) → Prop
  | [] => False
  | e :: es => (n.rept env e.2 e.1).2 = true ∨ SchemaNode.Sends (n.rept env e.2 e.1).1 es

/-- The nodes after data points none of which makes the loop return. -/
def nodesAfter (nodes : List SchemaNode) (es : List (DpEntry × ℕ)) : List SchemaNode :=
  Keyed.modifyEach SchemaNode.key (fun id n ↦ n.after env (entriesOf id es)) nodes

/-- The data points that are sent. -/
@[grind =] def reptListed : List SchemaNode → List (DpEntry × ℕ) → List DpEntry
  | _, [] => []
  | nodes, e :: es =>
    let rest := reptListed (nodeSet nodes e.1.id fun n ↦ (n.rept env e.2 e.1).1) es
    match nodeFind nodes e.1.id with
    | none => rest
    | some n => if (n.rept env e.2 e.1).2 then e.1 :: rest else rest

variable {env} {nodes : List SchemaNode}

theorem rept_key (i : ℕ) (dp : DpEntry) (n : SchemaNode) : (n.rept env i dp).1.key = n.key :=
  congrArg Prod.fst (rept_fixed n)

theorem rept_id (i : ℕ) (dp : DpEntry) (n : SchemaNode) : (n.rept env i dp).1.id = n.id := by
  have hkey : ((n.rept env i dp).1.id : ℤ) = n.id := rept_key i dp n
  exact_mod_cast hkey

theorem after_fixed (n : SchemaNode) (es : List (DpEntry × ℕ)) :
    (n.after env es).fixed = n.fixed := by
  induction es generalizing n with
  | nil => rfl
  | cons e es ih =>
      rw [SchemaNode.after, List.foldl_cons]
      exact (ih _).trans (rept_fixed n)

theorem after_key (n : SchemaNode) (es : List (DpEntry × ℕ)) : (n.after env es).key = n.key :=
  congrArg Prod.fst (after_fixed n es)

theorem entriesOf_cons_self (e : DpEntry × ℕ) (es : List (DpEntry × ℕ)) :
    entriesOf e.1.id (e :: es) = e :: entriesOf e.1.id es := by
  rw [entriesOf, List.filter_cons_of_pos (by simp)]
  rfl

theorem entriesOf_cons_of_ne {id : ℤ} {e : DpEntry × ℕ} (h : (e.1.id : ℤ) ≠ id)
    (es : List (DpEntry × ℕ)) : entriesOf id (e :: es) = entriesOf id es := by
  rw [entriesOf, List.filter_cons_of_neg (by simpa using h)]
  rfl

theorem nodesAfter_cons (nodes : List SchemaNode) (e : DpEntry × ℕ) (es : List (DpEntry × ℕ)) :
    nodesAfter env nodes (e :: es) =
      nodesAfter env (nodeSet nodes e.1.id fun n ↦ (n.rept env e.2 e.1).1) es := by
  rw [nodesAfter, nodesAfter, nodeSet, Keyed.modifyEach_modify fun n ↦ rept_key e.2 e.1 n]
  congr 1
  funext id
  by_cases hid : id = (e.1.id : ℤ)
  · rw [hid, Function.update_self, entriesOf_cons_self]
    rfl
  · rw [Function.update_of_ne hid, entriesOf_cons_of_ne (Ne.symm hid)]

theorem nodeFind_nodesAfter (nodes : List SchemaNode) (es : List (DpEntry × ℕ)) (id : ℤ) :
    nodeFind (nodesAfter env nodes es) id =
      (nodeFind nodes id).map fun n ↦ n.after env (entriesOf id es) :=
  Keyed.lookup_modifyEach (fun _ n ↦ after_key n _) id

theorem enumIllegal_limits {dp : DpObj} {node node' : DpNode}
    (h : node'.prop.limits = node.prop.limits) :
    enumIllegal dp node' = enumIllegal dp node := by
  rw [enumIllegal, enumIllegal]
  cases hprop : node.prop <;> cases hprop' : node'.prop <;>
    simp only [hprop, hprop', DpProp.limits, reduceCtorEq] at h <;> cases h <;>
    cases dp.value <;> rfl

theorem limits_of_fixed {n n' : SchemaNode} (h : n'.fixed = n.fixed) :
    n'.prop.limits = n.prop.limits :=
  congrArg (fun d ↦ d.2.2.2.2.2.1) h

theorem stops_nodeSet (e : DpEntry × ℕ) (dp : DpEntry) :
    env.stops (nodeSet nodes e.1.id fun n ↦ (n.rept env e.2 e.1).1) dp = env.stops nodes dp := by
  rw [ReptEnv.stops, ReptEnv.stops, nodeFind_nodeSet (rept_id e.2 e.1)]
  split_ifs with hid
  · rw [hid]
    cases nodeFind nodes e.1.id with
    | none => rfl
    | some n =>
        have hlimits : (n.rept env e.2 e.1).1.prop.limits = n.prop.limits :=
          limits_of_fixed (rept_fixed n)
        rw [Option.map_some, Option.any_some, Option.any_some, sameType_limits hlimits,
          enumIllegal_limits hlimits]
  · rfl

/-! ## The step -/

theorem not_enumIllegal_of_inRange {dp : DpObj} {node : DpNode}
    (h : inRange dp.value node.prop = true) :
    enumIllegal dp node = false := by
  rw [enumIllegal]
  split
  case h_1 e cnt cached hvalue hprop =>
    rw [hvalue, hprop, inRange, decide_eq_true_iff] at h
    exact decide_eq_false (Nat.not_le_of_lt h)
  case h_2 => rfl

/-- Only a retransmission gets to the second look at an enumerator with one that
is out of range. -/
theorem not_enumIllegal_of_sent {i : ℕ} {dp : DpEntry} {n : SchemaNode}
    (hsent : (n.rept env i dp).2 = true)
    (hretrans : env.reptType = .reTransRept → enumIllegal dp.toDpObj n.toDpNode = false) :
    enumIllegal dp.toDpObj n.toDpNode = false := by
  by_cases hpass : env.passes dp n = true
  · by_cases hobj : n.type = .obj
    · exact not_enumIllegal_of_inRange (inRange_of_passes hpass hobj)
    · rw [enumIllegal, n.zeroed hobj]
      split
      · contradiction
      · rfl
  · rw [Bool.not_eq_true] at hpass
    rw [(rept_idle hpass).2, decide_eq_true_iff] at hsent
    exact hretrans hsent

/-- What becomes of `dpvalid` at a data point that does not make the loop return. -/
def listIfSent (env : ReptEnv) (nodes : List SchemaNode) (e : DpEntry × ℕ) (v : DpReptValid) :
    DpReptValid :=
  match nodeFind nodes e.1.id with
  | none => v
  | some n => if (n.rept env e.2 e.1).2 then v.list e.1 n else v

theorem checkStep_steady {e : DpEntry × ℕ} {s : CheckState} (h : env.stops s.nodes e.1 = false) :
    checkStep env e.2 e.1 s =
      ({ nodes := nodeSet s.nodes e.1.id fun n ↦ (n.rept env e.2 e.1).1
         dpvalid := listIfSent env s.nodes e s.dpvalid }, none) := by
  rw [checkStep, listIfSent]
  cases hfind : nodeFind s.nodes e.1.id with
  | none =>
      have hsame : (nodeSet s.nodes e.1.id fun n ↦ (n.rept env e.2 e.1).1) = s.nodes := by
        apply Keyed.modify_self
        intro n hn
        rw [nodeFind] at hfind
        rw [hfind] at hn
        cases hn
      rw [hsame]
  | some n =>
      rw [ReptEnv.stops, hfind, Option.any_some, Bool.or_eq_false_iff, Bool.not_eq_false',
        Bool.and_eq_false_imp] at h
      obtain ⟨htype, hretrans⟩ := h
      dsimp only
      rw [if_neg (by simp [htype])]
      by_cases hsent : (n.rept env e.2 e.1).2 = true
      · have hlegal := not_enumIllegal_of_sent hsent fun h ↦ hretrans (by simpa using h)
        simp [hsent, hlegal]
      · rw [Bool.not_eq_true] at hsent
        simp [hsent]

theorem checkStep_stops {i : ℕ} {dp : DpEntry} {s : CheckState} (h : env.stops s.nodes dp = true) :
    ∃ ret, checkStep env i dp s = (s, some ret) ∧ ret ≠ oprtOk := by
  rw [ReptEnv.stops, Option.any_eq_true] at h
  obtain ⟨n, hfind, hstops⟩ := h
  rw [checkStep, hfind]
  dsimp only
  by_cases htype : sameType dp.value n.prop = false
  · rw [if_pos htype]
    exact ⟨_, rfl, by decide⟩
  · rw [Bool.not_eq_false] at htype
    simp only [htype, Bool.not_true, Bool.false_or, Bool.and_eq_true, decide_eq_true_iff] at hstops
    obtain ⟨hretrans, hillegal⟩ := hstops
    have hpass : ∀ m, env.passes dp m = false := fun m ↦ by simp [ReptEnv.passes, hretrans]
    have hsent : (n.rept env i dp).2 = true := by rw [(rept_idle (hpass n)).2, hretrans]; rfl
    have hsame : (nodeSet s.nodes dp.id fun m ↦ (m.rept env i dp).1) = s.nodes :=
      Keyed.modify_self fun m _ ↦ (rept_idle (hpass m)).1
    rw [if_neg (by simp [htype]), if_neg (by simp [hsent]), if_pos hillegal, hsame]
    exact ⟨_, rfl, by decide⟩

/-! ## The loop -/

theorem steady_cons_of_stops {dp : DpEntry} {dps : List DpEntry} (h : env.stops nodes dp = true) :
    env.steady nodes (dp :: dps) = [] := by
  rw [ReptEnv.steady, List.takeWhile_cons_of_neg (by simp [h])]

theorem steady_cons {e : DpEntry × ℕ} {dps : List DpEntry} (h : env.stops nodes e.1 = false) :
    env.steady nodes (e.1 :: dps) =
      e.1 :: env.steady (nodeSet nodes e.1.id fun n ↦ (n.rept env e.2 e.1).1) dps := by
  rw [ReptEnv.steady, List.takeWhile_cons_of_pos (by simp [h]), ReptEnv.steady]
  congr 2
  funext dp
  rw [stops_nodeSet]

theorem checkLoop_nodes (i : ℕ) (dps : List DpEntry) (s : CheckState) :
    (checkLoop env i dps s).1.nodes = nodesAfter env s.nodes ((env.steady s.nodes dps).zipIdx i) ∧
      ((checkLoop env i dps s).2 = oprtOk ↔ env.steady s.nodes dps = dps) := by
  induction dps generalizing i s with
  | nil => exact ⟨(Keyed.modifyEach_id s.nodes).symm, by simp [checkLoop, ReptEnv.steady]⟩
  | cons dp dps ih =>
      rw [checkLoop]
      by_cases hstops : env.stops s.nodes dp = true
      · obtain ⟨ret, hstep, hret⟩ := checkStep_stops (i := i) hstops
        rw [hstep, steady_cons_of_stops hstops]
        exact ⟨(Keyed.modifyEach_id s.nodes).symm, by simp [hret]⟩
      · rw [Bool.not_eq_true] at hstops
        have hstep : checkStep env i dp s = _ := checkStep_steady (e := (dp, i)) hstops
        have hsteady : env.steady s.nodes (dp :: dps) = _ := steady_cons (e := (dp, i)) hstops
        obtain ⟨hnodes, hret⟩ := ih (i + 1) _
        rw [hstep, hsteady, List.zipIdx_cons, nodesAfter_cons, List.cons_inj_right]
        exact ⟨hnodes, hret⟩

theorem reptListed_cons (e : DpEntry × ℕ) (es : List (DpEntry × ℕ)) :
    reptListed env nodes (e :: es) =
      (match nodeFind nodes e.1.id with
        | none => []
        | some n => if (n.rept env e.2 e.1).2 then [e.1] else []) ++
        reptListed env (nodeSet nodes e.1.id fun n ↦ (n.rept env e.2 e.1).1) es := by
  rw [reptListed]
  cases nodeFind nodes e.1.id with
  | none => rfl
  | some n =>
      dsimp only
      split_ifs <;> rfl

theorem checkLoop_dpid (i : ℕ) (dps : List DpEntry) (s : CheckState) :
    (checkLoop env i dps s).1.dpvalid.dpid =
      s.dpvalid.dpid ++ (reptListed env s.nodes ((env.steady s.nodes dps).zipIdx i)).map fun dp ↦
        dp.id := by
  induction dps generalizing i s with
  | nil => simp [checkLoop, ReptEnv.steady, reptListed]
  | cons dp dps ih =>
      rw [checkLoop]
      by_cases hstops : env.stops s.nodes dp = true
      · obtain ⟨ret, hstep, -⟩ := checkStep_stops (i := i) hstops
        rw [hstep, steady_cons_of_stops hstops]
        simp [reptListed]
      · rw [Bool.not_eq_true] at hstops
        have hstep : checkStep env i dp s = _ := checkStep_steady (e := (dp, i)) hstops
        have hsteady : env.steady s.nodes (dp :: dps) = _ := steady_cons (e := (dp, i)) hstops
        rw [hstep, hsteady, List.zipIdx_cons, reptListed_cons, List.map_append, ← List.append_assoc]
        dsimp only
        rw [ih]
        congr 1
        rw [listIfSent]
        cases nodeFind s.nodes dp.id with
        | none => simp
        | some n =>
            dsimp only
            split_ifs <;> simp [DpReptValid.list]

theorem mem_reptListed (nodes : List SchemaNode) (es : List (DpEntry × ℕ)) (id : ℕ) :
    id ∈ (reptListed env nodes es).map (fun dp ↦ dp.id) ↔
      ∃ n, nodeFind nodes id = some n ∧ n.Sends env (entriesOf id es) := by
  induction es generalizing nodes with
  | nil => simp [reptListed, entriesOf, SchemaNode.Sends]
  | cons e es ih =>
      rw [reptListed_cons, List.map_append, List.mem_append, ih, nodeFind_nodeSet (rept_id e.2 e.1)]
      by_cases hid : (id : ℤ) = e.1.id
      · have hid' : id = e.1.id := by exact_mod_cast hid
        rw [if_pos hid, hid', entriesOf_cons_self]
        cases nodeFind nodes e.1.id with
        | none => simp
        | some n =>
            dsimp only [Option.map_some]
            split_ifs with hsent
            · simp [SchemaNode.Sends, hsent]
            · simp [SchemaNode.Sends, hsent]
      · have hid' : id ≠ e.1.id := fun h ↦ hid (by rw [h])
        rw [if_neg hid, entriesOf_cons_of_ne (Ne.symm hid)]
        cases nodeFind nodes e.1.id with
        | none => simp
        | some n =>
            dsimp only
            split_ifs <;> simp [hid']

theorem checkLoop_num (i : ℕ) {dps : List DpEntry} {s : CheckState}
    (hnum : s.dpvalid.num = s.dpvalid.dpid.length)
    (hfit : s.dpvalid.dpid.length + dps.length < 2 ^ 8) :
    (checkLoop env i dps s).1.dpvalid.num = (checkLoop env i dps s).1.dpvalid.dpid.length := by
  induction dps generalizing i s with
  | nil => exact hnum
  | cons dp dps ih =>
      rw [List.length_cons] at hfit
      rw [checkLoop]
      by_cases hstops : env.stops s.nodes dp = true
      · obtain ⟨ret, hstep, -⟩ := checkStep_stops (i := i) hstops
        rw [hstep]
        exact hnum
      · rw [Bool.not_eq_true] at hstops
        have hstep : checkStep env i dp s = _ := checkStep_steady (e := (dp, i)) hstops
        rw [hstep]
        dsimp only
        rw [listIfSent]
        cases nodeFind s.nodes dp.id with
        | none => exact ih (i + 1) hnum (by dsimp only; omega)
        | some n =>
            dsimp only
            split_ifs with hsent
            · apply ih (i + 1)
              · simp only [DpReptValid.list, List.length_append, List.length_singleton, hnum]
                exact Nat.mod_eq_of_lt (by omega)
              · simp only [DpReptValid.list, List.length_append, List.length_singleton]
                omega
            · exact ih (i + 1) hnum (by dsimp only; omega)

/-- The data points that a call lists. -/
def DpReptIn.listed (env : ReptEnv) (dpin : DpReptIn) (nodes : List SchemaNode) : List DpEntry :=
  reptListed env nodes (env.steady nodes dpin.dps).zipIdx

theorem validCheck_nodes (dpin : DpReptIn) (nodes : List SchemaNode) :
    (dpin.validCheck env nodes).1.nodes =
      nodesAfter env nodes (env.steady nodes dpin.dps).zipIdx := by
  have hloop := (@checkLoop_nodes env 0 dpin.dps ⟨nodes, DpReptValid.cleared⟩).1
  rw [DpReptIn.validCheck]
  split_ifs <;> exact hloop

theorem validCheck_dpid (dpin : DpReptIn) (nodes : List SchemaNode) :
    (dpin.validCheck env nodes).1.dpvalid.dpid = (dpin.listed env nodes).map fun dp ↦ dp.id := by
  have hloop := @checkLoop_dpid env 0 dpin.dps ⟨nodes, DpReptValid.cleared⟩
  rw [DpReptIn.validCheck]
  split_ifs <;> exact hloop

theorem validCheck_ok_iff (dpin : DpReptIn) (nodes : List SchemaNode) :
    (dpin.validCheck env nodes).2 = oprtOk ↔
      env.steady nodes dpin.dps = dpin.dps ∧ dpin.listed env nodes ≠ [] := by
  have hret := (@checkLoop_nodes env 0 dpin.dps ⟨nodes, DpReptValid.cleared⟩).2
  have hdpid := @checkLoop_dpid env 0 dpin.dps ⟨nodes, DpReptValid.cleared⟩
  have hnum := @checkLoop_num env 0 dpin.dps ⟨nodes, DpReptValid.cleared⟩ rfl
    (by simpa [DpReptValid.cleared] using dpin.count)
  have hzero : (checkLoop env 0 dpin.dps ⟨nodes, DpReptValid.cleared⟩).1.dpvalid.num = 0 ↔
      dpin.listed env nodes = [] := by
    rw [hnum, hdpid]
    simp [DpReptValid.cleared, DpReptIn.listed]
  rw [DpReptIn.validCheck]
  split_ifs with hnone
  · have hne : ¬ oprtSvcDpIdNotFound = oprtOk := by decide
    rw [hzero] at hnone
    simp [hne, hnone.2]
  · rw [hret] at hnone ⊢
    rw [hzero] at hnone
    exact ⟨fun h ↦ ⟨h, fun hnil ↦ hnone ⟨h, hnil⟩⟩, And.left⟩

end TuyaOpen.Schema
