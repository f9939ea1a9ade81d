import TuyaOpen.Ble.DpCodec
import Mathlib.Algebra.Order.BigOperators.Group.List

/-!
# The report of all data points, `ble_dp_query`

The query walks through the schema and puts a node for each data point before
the list.  `make_klv_list` returns `NULL` when there is no value, and the walk
takes that for the new list.
-/

namespace TuyaOpen.Ble

open Schema

def tuyaBleTransmissionMaxDataLen : ℕ := tuyaBleAirFrameMax - 29

/-- What the query looks at in a data point.  `prop` is `none` for a property of
none of the five types, and `spare` are the bytes behind a boolean. -/
structure QueryNode where
  id : UInt8
  mode : DpMode
  type : DpType
  prop : Option DpProp
  spare : UInt8 × UInt8 × UInt8
  deriving DecidableEq

/-- The switch over the type of the property. -/
def queryArgs (spare : UInt8 × UInt8 × UInt8) : Option DpProp → KlvArgs
  | some (.bool value) => valueArgs spare (.bool value)
  | some (.int _ _ value) => valueArgs spare (.value value)
  | some (.str _ _ (some value)) => valueArgs spare (.str value)
  | some (.str _ _ none) => ⟨dtString, none, 0⟩
  | some (.enum _ value) => valueArgs spare (.enum value)
  | some (.bitmap value) => valueArgs spare (.bitmap value)
  | none => ⟨0, none, 0⟩

def QueryNode.args (n : QueryNode) : KlvArgs := queryArgs n.spare n.prop

def queryStep (list : List KlvNode) (n : QueryNode) : Option (List KlvNode) :=
  if n.mode = .wr then some list
  else if n.type = .obj then makeKlvList list n.id n.args.type n.args.data n.args.len
  else some list

structure QueryOut where
  rt : OperateRet
  /-- What is handed to `__dp_data_report_data`. -/
  report : Option (List UInt8)
  /-- What that function sends. -/
  sent : Option (List UInt8)
  deriving DecidableEq

def dpDataReportData (data : List UInt8) : Option (List UInt8) :=
  if tuyaBleTransmissionMaxDataLen < data.length ∨ data.length = 0 then none else some data

def bleDpQuery (abi : Abi) (sn : UInt32) (schema : Option (List QueryNode)) : Option QueryOut :=
  match schema with
  | none => some ⟨oprtInvalidParm, none, none⟩
  | some nodes => do
    let list ← nodes.foldlM queryStep []
    if list = [] then pure ⟨oprtOk, none, none⟩
    else do
      let (_, data, _) ← klvlist2Data abi sn list none true 0
      pure ⟨oprtOk, some data, dpDataReportData data⟩

/-! ## The data points of a report -/

/-- The data points that a report is about. -/
def QueryNode.Reportable (n : QueryNode) : Prop :=
  n.type = .obj ∧ n.mode ≠ .wr ∧ n.prop.isSome

/-- A string that was never set. -/
def QueryNode.Unset (n : QueryNode) : Prop :=
  n.Reportable ∧ n.args.data = none

/-- An object that can be read and has a property of another type. -/
def QueryNode.Unsupported (n : QueryNode) : Prop :=
  n.type = .obj ∧ n.mode ≠ .wr ∧ n.prop = none

instance : DecidablePred QueryNode.Reportable := fun _ ↦ inferInstanceAs (Decidable (_ ∧ _))
instance : DecidablePred QueryNode.Unset := fun _ ↦ inferInstanceAs (Decidable (_ ∧ _))
instance : DecidablePred QueryNode.Unsupported := fun _ ↦ inferInstanceAs (Decidable (_ ∧ _))

/-- The node of a data point whose value is there. -/
def QueryNode.node (n : QueryNode) : KlvNode where
  id := n.id
  type := n.args.type
  data := klvData n.args.type ((n.args.data.getD []).take n.args.len.toNat)
  len_lt := by
    apply length_klvData
    rw [List.length_take]
    exact lt_of_le_of_lt (min_le_left _ _) (UInt16.toNat_lt _)

/-- The list after one data point. -/
def queried (list : List KlvNode) (n : QueryNode) : List KlvNode :=
  if n.Unset ∨ n.Unsupported then [] else if n.Reportable then n.node :: list else list

section Queried

variable {n : QueryNode} (list : List KlvNode)

theorem queried_lost (h : n.Unset ∨ n.Unsupported) : queried list n = [] := if_pos h

theorem queried_reportable (hset : ¬ n.Unset) (hother : ¬ n.Unsupported) (hrep : n.Reportable) :
    queried list n = n.node :: list := by
  rw [queried, if_neg (not_or.mpr ⟨hset, hother⟩), if_pos hrep]

theorem queried_other (hother : ¬ n.Unsupported) (hrep : ¬ n.Reportable) :
    queried list n = list := by
  have hset : ¬ n.Unset := fun h ↦ hrep h.1
  rw [queried, if_neg (not_or.mpr ⟨hset, hother⟩), if_neg hrep]

end Queried

theorem args_cases (n : QueryNode) :
    (n.prop.isSome ∧ ∃ value, n.args = valueArgs n.spare value) ∨ n.args.data = none := by
  obtain ⟨id, mode, type, prop, spare⟩ := n
  cases prop with
  | none => exact Or.inr rfl
  | some prop =>
      cases prop with
      | bool value => exact Or.inl ⟨rfl, .bool value, rfl⟩
      | int _ _ value => exact Or.inl ⟨rfl, .value value, rfl⟩
      | str _ _ value =>
          cases value with
          | none => exact Or.inr rfl
          | some value => exact Or.inl ⟨rfl, .str value, rfl⟩
      | enum _ value => exact Or.inl ⟨rfl, .enum value, rfl⟩
      | bitmap value => exact Or.inl ⟨rfl, .bitmap value, rfl⟩

theorem not_reportable {n : QueryNode} (h : n.Unsupported) : ¬ n.Reportable := by
  rintro ⟨-, -, hsome⟩
  rw [h.2.2] at hsome
  exact Bool.false_ne_true hsome

theorem queryStep_eq (list : List KlvNode) (n : QueryNode) :
    queryStep list n = some (queried list n) := by
  by_cases hwalk : n.type = .obj ∧ n.mode ≠ .wr
  · rw [queryStep, if_neg hwalk.2, if_pos hwalk.1]
    rcases args_cases n with ⟨hprop, value, hargs⟩ | hnone
    · obtain ⟨data, hdata, -⟩ := valueArgs_len n.spare value
      have hset : ¬ (n.Unset ∨ n.Unsupported) := by
        rintro (hunset | hother)
        · rw [QueryNode.Unset, hargs, hdata] at hunset
          cases hunset.2
        · rw [hother.2.2] at hprop
          cases hprop
      rw [queried_reportable list (fun h ↦ hset (.inl h)) (fun h ↦ hset (.inr h))
        ⟨hwalk.1, hwalk.2, hprop⟩, hargs, makeKlvList_value]
      simp only [QueryNode.node, valueNode, hargs]
    · have hfail : n.Unset ∨ n.Unsupported := by
        cases hprop : n.prop with
        | none => exact Or.inr ⟨hwalk.1, hwalk.2, hprop⟩
        | some prop => exact Or.inl ⟨⟨hwalk.1, hwalk.2, by rw [hprop]; rfl⟩, hnone⟩
      rw [hnone, queried_lost list hfail]
      rfl
  · have hother : ¬ n.Unsupported := fun h ↦ hwalk ⟨h.1, h.2.1⟩
    have hrep : ¬ n.Reportable := fun h ↦ hwalk ⟨h.1, h.2.1⟩
    rw [queried_other list hother hrep, queryStep]
    by_cases hmode : n.mode = .wr
    · rw [if_pos hmode]
    · rw [if_neg hmode, if_neg fun htype ↦ hwalk ⟨htype, hmode⟩]

theorem foldlM_queryStep (nodes : List QueryNode) (list : List KlvNode) :
    nodes.foldlM queryStep list = some (nodes.foldl queried list) := by
  induction nodes generalizing list with
  | nil => rfl
  | cons n rest ih => rw [List.foldlM_cons, queryStep_eq, Option.bind_eq_bind, Option.bind_some, ih,
      List.foldl_cons]

/-! ## What is lost -/

/-- Every string was set, and no data point of a report comes before an object
of another type. -/
structure NothingLost (nodes : List QueryNode) : Prop where
  set : ∀ n ∈ nodes, ¬ n.Unset
  order : nodes.Pairwise fun m n ↦ m.Reportable → ¬ n.Unsupported

/-- A list that is not empty already does not meet an object of another type. -/
def Spared (list : List KlvNode) (nodes : List QueryNode) : Prop :=
  list ≠ [] → ∀ n ∈ nodes, ¬ n.Unsupported

def reportables (nodes : List QueryNode) : List QueryNode :=
  nodes.filter fun n ↦ decide n.Reportable

section Reportables

variable {n : QueryNode} (rest : List QueryNode)

theorem reportables_cons (h : n.Reportable) :
    reportables (n :: rest) = n :: reportables rest := by
  rw [reportables, List.filter_cons, if_pos (by simpa using h)]
  rfl

theorem reportables_cons_of_not (h : ¬ n.Reportable) :
    reportables (n :: rest) = reportables rest := by
  rw [reportables, List.filter_cons, if_neg (by simpa using h)]
  rfl

theorem nothingLost_cons_iff : NothingLost (n :: rest) ↔
    ¬ n.Unset ∧ (n.Reportable → ∀ m ∈ rest, ¬ m.Unsupported) ∧ NothingLost rest := by
  constructor
  · intro h
    obtain ⟨hunset, hset⟩ := List.forall_mem_cons.mp h.set
    obtain ⟨hfirst, horder⟩ := List.pairwise_cons.mp h.order
    exact ⟨hunset, fun hrep m hm ↦ hfirst m hm hrep, hset, horder⟩
  · rintro ⟨hunset, hfirst, hset, horder⟩
    refine ⟨List.forall_mem_cons.mpr ⟨hunset, hset⟩, List.pairwise_cons.mpr ⟨?_, horder⟩⟩
    exact fun m hm hrep ↦ hfirst hrep m hm

end Reportables

theorem foldl_queried_of_safe {nodes : List QueryNode} (hnone : NothingLost nodes)
    {list : List KlvNode} (hlist : Spared list nodes) :
    nodes.foldl queried list = ((reportables nodes).map QueryNode.node).reverse ++ list := by
  induction nodes generalizing list with
  | nil => rfl
  | cons n rest ih =>
      obtain ⟨hset, hfirst, hrest⟩ := (nothingLost_cons_iff rest).mp hnone
      rw [List.foldl_cons]
      by_cases hother : n.Unsupported
      · have hnil : list = [] := by
          by_contra hne
          exact hlist hne n List.mem_cons_self hother
        rw [queried_lost list (.inr hother), reportables_cons_of_not rest (not_reportable hother),
          hnil]
        exact ih hrest fun hne ↦ (hne rfl).elim
      · by_cases hrep : n.Reportable
        · rw [queried_reportable list hset hother hrep, reportables_cons rest hrep,
            ih hrest fun _ ↦ hfirst hrep, List.map_cons, List.reverse_cons, List.append_assoc]
          rfl
        · rw [queried_other list hother hrep, reportables_cons_of_not rest hrep]
          exact ih hrest fun hne m hm ↦ hlist hne m (List.mem_cons_of_mem n hm)

theorem length_foldl_queried (nodes : List QueryNode) (list : List KlvNode) :
    (nodes.foldl queried list).length ≤ list.length + (reportables nodes).length ∧
      ((nodes.foldl queried list).length = list.length + (reportables nodes).length →
        NothingLost nodes ∧ Spared list nodes) := by
  induction nodes generalizing list with
  | nil =>
      refine ⟨le_rfl, fun _ ↦ ⟨⟨?_, List.Pairwise.nil⟩, ?_⟩⟩
      · exact fun _ hn ↦ absurd hn List.not_mem_nil
      · exact fun _ _ hn ↦ absurd hn List.not_mem_nil
  | cons n rest ih =>
      rw [List.foldl_cons, nothingLost_cons_iff, Spared, List.forall_mem_cons]
      by_cases hunset : n.Unset
      · -- the node itself is missing
        obtain ⟨hle, -⟩ := ih []
        rw [List.length_nil] at hle
        rw [queried_lost list (.inl hunset), reportables_cons rest hunset.1, List.length_cons]
        refine ⟨by omega, fun heq ↦ ?_⟩
        omega
      by_cases hother : n.Unsupported
      · -- what was before it is missing
        obtain ⟨hle, hsafe⟩ := ih []
        have hrep := not_reportable hother
        rw [List.length_nil] at hle hsafe
        rw [queried_lost list (.inr hother), reportables_cons_of_not rest hrep]
        refine ⟨by omega, fun heq ↦ ?_⟩
        obtain ⟨hrest, -⟩ := hsafe (by omega)
        have hnil : list = [] := List.length_eq_zero_iff.mp (by omega)
        exact ⟨⟨hunset, fun h ↦ (hrep h).elim, hrest⟩, fun hne ↦ (hne hnil).elim⟩
      by_cases hrep : n.Reportable
      · obtain ⟨hle, hsafe⟩ := ih (n.node :: list)
        rw [List.length_cons] at hle hsafe
        rw [queried_reportable list hunset hother hrep, reportables_cons rest hrep,
          List.length_cons]
        refine ⟨by omega, fun heq ↦ ?_⟩
        obtain ⟨hrest, hspared⟩ := hsafe (by omega)
        have hlater := hspared (List.cons_ne_nil _ _)
        exact ⟨⟨hunset, fun _ ↦ hlater, hrest⟩, fun _ ↦ ⟨hother, hlater⟩⟩
      · obtain ⟨hle, hsafe⟩ := ih list
        rw [queried_other list hother hrep, reportables_cons_of_not rest hrep]
        refine ⟨hle, fun heq ↦ ?_⟩
        obtain ⟨hrest, hspared⟩ := hsafe heq
        exact ⟨⟨hunset, fun h ↦ (hrep h).elim, hrest⟩, fun hne ↦ ⟨hother, hspared hne⟩⟩

/-! ## The report -/

/-- The list has one node for each data point of the report, in some order, and
the report is the text of the list. -/
def ReportsAll (abi : Abi) (sn : UInt32) (nodes : List QueryNode) : Prop :=
  ∃ list out, nodes.foldlM queryStep [] = some list ∧
    (list.map fun n ↦ (n.id, n.type)).Perm
      ((reportables nodes).map fun n ↦ (n.id, n.args.type)) ∧
    bleDpQuery abi sn (some nodes) = some out ∧
    if list = [] then out.report = none
    else ∃ data, out.report = some data ∧
      data2Klvlist (data.drop 7) (data.drop 7).length = some (oprtOk, list.reverse)

theorem klvRest_le (abi : Abi) : 8 ≤ abi.klvRest ∧ abi.klvRest ≤ 16 := by
  cases abi <;> decide

theorem klvlist2Data_fits (abi : Abi) (sn : UInt32) {list : List KlvNode} (hne : list ≠ [])
    (hnum : list.length < 2 ^ 8) :
    klvlist2Data abi sn list none true 0 =
        some (oprtOk, klvHeader sn none true 0 ++ klvBytes list, sn + 1) ∧
      (klvBytes list).length < 2 ^ 32 := by
  obtain ⟨hlow, hhigh⟩ := klvRest_le abi
  have hmax : (list.map fun n ↦ abi.klvRest + n.data.length).sum ≤
      list.length * (16 + 2 ^ 16) := by
    have hsum := List.sum_le_card_nsmul (list.map fun n ↦ abi.klvRest + n.data.length)
      (16 + 2 ^ 16) (by
        intro len hmem
        obtain ⟨n, -, rfl⟩ := List.mem_map.mp hmem
        have hlt := n.len_lt
        omega)
    simpa using hsum
  have hnodes : (klvBytes list).length ≤ (list.map fun n ↦ abi.klvRest + n.data.length).sum := by
    rw [length_klvBytes]
    apply List.sum_le_sum
    intro n _
    omega
  have hbuffer : mkDataLen abi none list =
      7 + (list.map fun n ↦ abi.klvRest + n.data.length).sum := rfl
  have hlt : mkDataLen abi none list < 2 ^ 32 := by
    rw [hbuffer]
    omega
  have hroom : ¬ mkDataLen abi none list % 2 ^ 32 <
      (klvHeader sn none true 0 ++ klvBytes list).length := by
    rw [Nat.mod_eq_of_lt hlt, hbuffer, List.length_append, length_klvHeader, headerLen]
    exact not_lt.mpr (Nat.add_le_add_left hnodes 7)
  refine ⟨?_, by omega⟩
  simp only [klvlist2Data, if_neg hne, if_neg hroom]

theorem bleDpQuery_eq (abi : Abi) (sn : UInt32) {nodes : List QueryNode} {list : List KlvNode}
    (hlist : nodes.foldl queried [] = list) (hnum : list.length < 2 ^ 8) :
    bleDpQuery abi sn (some nodes) = some (if list = [] then ⟨oprtOk, none, none⟩
      else ⟨oprtOk, some (klvHeader sn none true 0 ++ klvBytes list),
        dpDataReportData (klvHeader sn none true 0 ++ klvBytes list)⟩) := by
  rw [bleDpQuery, foldlM_queryStep, hlist, Option.bind_eq_bind, Option.bind_some]
  by_cases hnil : list = []
  · rw [if_pos hnil, if_pos hnil]
    rfl
  · rw [if_neg hnil, if_neg hnil, (klvlist2Data_fits abi sn hnil hnum).1]
    rfl

theorem reportsAll_iff (abi : Abi) (sn : UInt32) (nodes : List QueryNode)
    (hnum : nodes.length < 2 ^ 8) :
    ReportsAll abi sn nodes ↔ NothingLost nodes := by
  constructor
  · rintro ⟨list, out, hlist, hperm, -, -⟩
    rw [foldlM_queryStep] at hlist
    have hlen := hperm.length_eq
    rw [List.length_map, List.length_map, ← Option.some.inj hlist] at hlen
    exact ((length_foldl_queried nodes []).2 (by simpa using hlen)).1
  · intro hsafe
    have hlist := foldl_queried_of_safe hsafe (fun hne ↦ (hne rfl).elim : Spared [] nodes)
    rw [List.append_nil] at hlist
    set list := ((reportables nodes).map QueryNode.node).reverse with hdef
    have hcount : list.length < 2 ^ 8 := by
      have hle : (reportables nodes).length ≤ nodes.length := List.length_filter_le _ _
      rw [hdef, List.length_reverse, List.length_map]
      omega
    refine ⟨list, _, by rw [foldlM_queryStep, hlist], ?_, bleDpQuery_eq abi sn hlist hcount, ?_⟩
    · rw [hdef, List.map_reverse, List.map_map]
      exact List.reverse_perm _
    · by_cases hnil : list = []
      · simp only [if_pos hnil]
      · simp only [if_neg hnil]
        refine ⟨_, rfl, ?_⟩
        have hdrop : (klvHeader sn none true 0 ++ klvBytes list).drop 7 = klvBytes list :=
          List.drop_left' (length_klvHeader sn none true 0)
        rw [hdrop]
        exact data2Klvlist_klvBytes hnil (klvlist2Data_fits abi sn hnil hcount).2

/-- The query reports every data point exactly when nothing is lost on the way:
every string was set, and no object of another type comes after one of them. -/
theorem ble_dp_query_reports_all (abi : Abi) (sn : UInt32) (nodes : List QueryNode)
    (hnum : nodes.length < 2 ^ 8) :
    ReportsAll abi sn nodes ↔ NothingLost nodes :=
  reportsAll_iff abi sn nodes hnum

/-! A lamp with a switch and a name. -/

def querySwitch : QueryNode := ⟨1, .rw, .obj, some (.bool true), (0, 0, 0)⟩

def queryName (name : Option (List UInt8)) : QueryNode :=
  ⟨2, .rw, .obj, some (.str 16 0 name), (0, 0, 0)⟩

theorem ble_dp_query_reports_all_named :
    [querySwitch, queryName (some [97])].length < 2 ^ 8 ∧
      ReportsAll .ilp32 1 [querySwitch, queryName (some [97])] := by
  refine ⟨by decide, ?_⟩
  apply (ble_dp_query_reports_all .ilp32 1 _ (by decide)).mpr
  exact ⟨by decide, by simp [QueryNode.Unsupported, querySwitch, queryName]⟩

/-- Before the name was set, the report of the lamp is empty. -/
theorem ble_dp_query_not_reports_all :
    [querySwitch, queryName none].foldlM queryStep [] = some [] ∧
      ¬ ReportsAll .ilp32 1 [querySwitch, queryName none] := by
  refine ⟨by decide, fun h ↦ ?_⟩
  have hsafe := (reportsAll_iff .ilp32 1 _ (by decide)).mp h
  exact hsafe.set (queryName none) (by decide) (by decide)

end TuyaOpen.Ble
