import Mathlib.Algebra.Ring.Int.Defs
import Mathlib.Data.List.TakeWhile
import TuyaOpen.Schema.DpAtomic
import TuyaOpen.Schema.DpReportOut

/-!
# The estimate and the text, and the two copies of a report

The estimate adds up one number for each listed data point, in 16 bits; the
text takes the first element of the report with the listed id.  So what is
spare is a sum over the listed data points, and it has to cover the bracket,
the terminator and a byte that the last check asks for.
-/

namespace TuyaOpen.Schema

variable {escape : UInt8 → List UInt8} {env : ReptEnv} {nodes : List SchemaNode} {dpin : DpReptIn}

/-! ## The field of a data point -/

/-- The length of a value in the text. -/
def valueLen (escape : UInt8 → List UInt8) (value : DpValue) (node : SchemaNode) : ℕ :=
  match value with
  | .bool true => 4
  | .bool false => 5
  | .value v => (decimalInt v).length
  | .bitmap b => (decimal b).length
  | .str s => (s.map fun c ↦ (escape c).length).sum + 2
  | .enum e => (node.ppEnum.getD e []).length + 2

/-- The id, two quotes, a colon and a comma come with it. -/
def fieldLen (escape : UInt8 → List UInt8) (dp : DpEntry) (node : SchemaNode) : ℕ :=
  (decimal dp.id).length + 4 + valueLen escape dp.value node

def timeFieldLen (dp : DpEntry) : ℕ :=
  if dp.timeStamp = 0 then 0 else (decimal dp.id).length + 4 + (decimal dp.timeStamp).length

theorem length_jsonKey (id : ℕ) : (jsonKey id).length = (decimal id).length + 3 := by
  simp [jsonKey]

theorem length_jsonTimeField {dp : DpEntry} (h : dp.timeStamp ≠ 0) :
    (jsonTimeField dp).length = timeFieldLen dp := by
  rw [timeFieldLen, if_neg h, jsonTimeField, List.length_append, List.length_append, length_jsonKey,
    List.length_singleton]
  omega

theorem jsonField_some {dp : DpEntry} {node : SchemaNode}
    (htype : sameType dp.value node.prop = true)
    (hlegal : enumIllegal dp.toDpObj node.toDpNode = false) :
    ∃ field, jsonField escape dp node = some field ∧ field.length = fieldLen escape dp node := by
  rw [jsonField, fieldLen]
  cases hvalue : dp.value with
  | bool b => cases b <;> exact ⟨_, rfl, by simp [valueLen, length_jsonKey]⟩
  | value v => exact ⟨_, rfl, by simp [valueLen, length_jsonKey]; omega⟩
  | bitmap b => exact ⟨_, rfl, by simp [valueLen, length_jsonKey]; omega⟩
  | str s =>
      refine ⟨_, rfl, ?_⟩
      simp [valueLen, length_jsonKey, List.length_flatMap]
      omega
  | enum e =>
      cases hprop : node.prop <;> simp only [hvalue, hprop, sameType, Bool.false_eq_true] at htype
      case enum cnt cached =>
        have hlt : e < node.ppEnum.length := by
          rw [node.names cnt cached hprop]
          simp only [enumIllegal, hvalue, hprop, decide_eq_false_iff_not, Nat.not_le] at hlegal
          exact hlegal
        refine ⟨_, by dsimp only; rw [List.getElem?_eq_getElem hlt, Option.map_some], ?_⟩
        rw [valueLen, List.getD_eq_getElem?_getD, List.getElem?_eq_getElem hlt, Option.getD_some]
        simp [length_jsonKey]
        omega

theorem jsonField_none {dp : DpEntry} {node : SchemaNode}
    (hillegal : enumIllegal dp.toDpObj node.toDpNode = true) : jsonField escape dp node = none := by
  rw [enumIllegal] at hillegal
  split at hillegal
  case h_1 e cnt cached hvalue hprop =>
    rw [decide_eq_true_iff, ← node.names cnt cached hprop] at hillegal
    rw [jsonField, hvalue]
    dsimp only
    rw [List.getElem?_eq_none hillegal, Option.map_none]
  case h_2 => cases hillegal

/-! ## The estimate -/

/-- The room that is set aside for a data point of a report. -/
def estimate (nodes : List SchemaNode) (dp : DpEntry) : ℕ :=
  match nodeFind nodes dp.id with
  | none => 0
  | some n => reptLen dp n

def timeEstimate (dp : DpEntry) : ℕ := if dp.timeStamp = 0 then 0 else 30

theorem ppEnum_of_fixed {n n' : SchemaNode} (h : n'.fixed = n.fixed) : n'.ppEnum = n.ppEnum :=
  congrArg (fun d ↦ d.2.2.2.2.2.2) h

theorem reptLen_fixed {n n' : SchemaNode} (h : n'.fixed = n.fixed) (dp : DpEntry) :
    reptLen dp n' = reptLen dp n := by
  rw [reptLen, reptLen, ppEnum_of_fixed h]

theorem estimate_nodeSet (e : DpEntry × ℕ) :
    estimate (nodeSet nodes e.1.id fun n ↦ (n.rept env e.2 e.1).1) = estimate nodes := by
  funext dp
  rw [estimate, estimate, nodeFind_nodeSet (rept_id e.2 e.1)]
  split_ifs with hid
  · rw [hid]
    cases nodeFind nodes e.1.id with
    | none => rfl
    | some n => exact reptLen_fixed (rept_fixed n) dp
  · rfl

theorem length_reptListed (nodes : List SchemaNode) (es : List (DpEntry × ℕ)) :
    (reptListed env nodes es).length ≤ es.length := by
  induction es generalizing nodes with
  | nil => exact Nat.le_refl _
  | cons e es ih =>
      rw [reptListed_cons, List.length_append, List.length_cons]
      have hrest := ih (nodeSet nodes e.1.id fun n ↦ (n.rept env e.2 e.1).1)
      cases nodeFind nodes e.1.id with
      | none => simp; omega
      | some n => dsimp only; split_ifs <;> simp <;> omega

theorem checkLoop_len (i : ℕ) (dps : List DpEntry) {s : CheckState} (hlen : s.dpvalid.len < 2 ^ 16)
    (htime : s.dpvalid.timelen < 2 ^ 16) :
    (checkLoop env i dps s).1.dpvalid.len =
        (s.dpvalid.len + ((reptListed env s.nodes ((env.steady s.nodes dps).zipIdx i)).map
          (estimate s.nodes)).sum) % 2 ^ 16 ∧
      (checkLoop env i dps s).1.dpvalid.timelen =
        (s.dpvalid.timelen + ((reptListed env s.nodes ((env.steady s.nodes dps).zipIdx i)).map
          timeEstimate).sum) % 2 ^ 16 := by
  induction dps generalizing i s with
  | nil =>
      simp only [checkLoop, ReptEnv.steady, List.takeWhile_nil, List.zipIdx_nil, reptListed,
        List.map_nil, List.sum_nil, Nat.add_zero]
      exact ⟨(Nat.mod_eq_of_lt hlen).symm, (Nat.mod_eq_of_lt htime).symm⟩
  | cons dp dps ih =>
      rw [checkLoop]
      by_cases hstops : env.stops s.nodes dp = true
      · obtain ⟨ret, hstep, -⟩ := checkStep_stops (i := i) hstops
        rw [hstep, steady_cons_of_stops hstops]
        simp only [List.zipIdx_nil, reptListed, List.map_nil, List.sum_nil, Nat.add_zero]
        exact ⟨(Nat.mod_eq_of_lt hlen).symm, (Nat.mod_eq_of_lt htime).symm⟩
      · rw [Bool.not_eq_true] at hstops
        have hstep : checkStep env i dp s = _ := checkStep_steady (e := (dp, i)) hstops
        have hsteady : env.steady s.nodes (dp :: dps) = _ := steady_cons (e := (dp, i)) hstops
        have hestimate : estimate (nodeSet s.nodes dp.id fun n ↦ (n.rept env i dp).1) =
            estimate s.nodes := estimate_nodeSet (dp, i)
        rw [hstep, hsteady, List.zipIdx_cons, reptListed_cons, listIfSent]
        cases hfind : nodeFind s.nodes dp.id with
        | none =>
            have hrest := ih (i + 1) (s := ⟨nodeSet s.nodes dp.id fun n ↦ (n.rept env i dp).1,
              s.dpvalid⟩) hlen htime
            rw [hestimate] at hrest
            exact hrest
        | some n =>
            dsimp only
            split_ifs with hsent
            · have hhead : estimate s.nodes dp = reptLen dp n := by rw [estimate, hfind]
              have hrest := ih (i + 1) (s := ⟨nodeSet s.nodes dp.id fun n ↦ (n.rept env i dp).1,
                s.dpvalid.list dp n⟩) (Nat.mod_lt _ (by decide)) (by
                  simp only [DpReptValid.list]
                  split_ifs
                  · exact Nat.mod_lt _ (by decide)
                  · exact htime)
              rw [hestimate] at hrest
              rw [List.singleton_append, List.map_cons, List.sum_cons, hhead, List.map_cons,
                List.sum_cons, hrest.1, hrest.2]
              simp only [DpReptValid.list, timeEstimate]
              constructor
              · rw [Nat.mod_add_mod, Nat.add_assoc]
              · by_cases hstamp : dp.timeStamp = 0
                · simp [hstamp]
                · simp only [ne_eq, hstamp, not_false_eq_true, if_true, if_false]
                  rw [Nat.mod_add_mod, Nat.add_assoc]
            · have hrest := ih (i + 1) (s := ⟨nodeSet s.nodes dp.id fun n ↦ (n.rept env i dp).1,
                s.dpvalid⟩) hlen htime
              rw [hestimate] at hrest
              exact hrest

/-! ## The text -/

/-- The element that stands in the text for an id, with its node. -/
def printed (nodes : List SchemaNode) (dpin : DpReptIn) (id : ℕ) : Option (DpEntry × SchemaNode) :=
  (dpin.first id).bind fun dp ↦ (nodeFind nodes dp.id).map fun n ↦ (dp, n)

/-- The text has an element for the id, of the type of its property. -/
def Printable (nodes : List SchemaNode) (dpin : DpReptIn) (id : ℕ) : Prop :=
  ∃ p, printed nodes dpin id = some p ∧ sameType p.1.value p.2.prop = true

/-- The printed element is a legal one. -/
def legal (nodes : List SchemaNode) (dpin : DpReptIn) (id : ℕ) : Bool :=
  (printed nodes dpin id).all fun p ↦ !enumIllegal p.1.toDpObj p.2.toDpNode

def printedLen (escape : UInt8 → List UInt8) (nodes : List SchemaNode) (dpin : DpReptIn) (id : ℕ) :
    ℕ :=
  (printed nodes dpin id).elim 0 fun p ↦ fieldLen escape p.1 p.2

def printedTimeLen (nodes : List SchemaNode) (dpin : DpReptIn) (id : ℕ) : ℕ :=
  (printed nodes dpin id).elim 0 fun p ↦ timeFieldLen p.1

theorem dpSnprintfAppend_eq (bufLen : ℕ) (text s : List UInt8) :
    dpSnprintfAppend bufLen text s = if text.length + s.length <
      bufLen then some (text ++ s) else none := by
  rw [dpSnprintfAppend]
  split_ifs <;> first | rfl | omega

variable {v : DpReptValid} {needTime : Bool}

theorem jsonStep_printable {id : ℕ} {text : List UInt8 × List UInt8} (h : Printable nodes dpin id) :
    (∃ text', jsonStep escape nodes dpin v needTime text id = .ok text' ∧
        legal nodes dpin id = true ∧
        text'.1.length = text.1.length + printedLen escape nodes dpin id ∧
        (needTime = true → text'.2.length = text.2.length + printedTimeLen nodes dpin id)) ∨
      (∃ stop, jsonStep escape nodes dpin v needTime text id = .error stop) ∧
        (legal nodes dpin id = false ∨
          v.len ≤ text.1.length + printedLen escape nodes dpin id ∨
          (needTime = true ∧ v.timelen ≤ text.2.length + printedTimeLen nodes dpin id)) := by
  obtain ⟨⟨dp, n⟩, hprinted, htype⟩ := h
  have hfirst : dpin.first id = some dp ∧ nodeFind nodes dp.id = some n := by
    rw [printed, Option.bind_eq_some_iff] at hprinted
    obtain ⟨dp', hdp', hmap⟩ := hprinted
    obtain ⟨n', hn', heq⟩ := Option.map_eq_some_iff.mp hmap
    cases heq
    exact ⟨hdp', hn'⟩
  simp only [legal, printedLen, printedTimeLen, hprinted, Option.all_some, Option.elim_some]
  rw [jsonStep, hfirst.1]
  dsimp only
  rw [hfirst.2]
  dsimp only
  rw [if_neg (by simp [htype])]
  cases hillegal : enumIllegal dp.toDpObj n.toDpNode with
  | true =>
      rw [jsonField_none hillegal]
      exact Or.inr ⟨⟨_, rfl⟩, Or.inl rfl⟩
  | false =>
      obtain ⟨field, hfield, hlen⟩ := @jsonField_some escape dp n htype hillegal
      rw [hfield]
      dsimp only
      rw [dpSnprintfAppend_eq, hlen]
      by_cases hfit : text.1.length + fieldLen escape dp n < v.len
      · rw [if_pos hfit]
        dsimp only
        by_cases hneed : needTime = true ∧ dp.timeStamp ≠ 0
        · rw [if_pos hneed, dpSnprintfAppend_eq, length_jsonTimeField hneed.2]
          by_cases htime : text.2.length + timeFieldLen dp < v.timelen
          · rw [if_pos htime]
            refine Or.inl ⟨_, rfl, rfl, ?_, fun _ ↦ ?_⟩
            · rw [List.length_append, hlen]
            · rw [List.length_append, length_jsonTimeField hneed.2]
          · rw [if_neg htime]
            exact Or.inr ⟨⟨_, rfl⟩, Or.inr (Or.inr ⟨hneed.1, Nat.le_of_not_lt htime⟩)⟩
        · rw [if_neg hneed]
          refine Or.inl ⟨_, rfl, rfl, ?_, fun hneeds ↦ ?_⟩
          · rw [List.length_append, hlen]
          · have hstamp : dp.timeStamp = 0 := by
              by_contra hne
              exact hneed ⟨hneeds, hne⟩
            rw [timeFieldLen, if_pos hstamp, Nat.add_zero]
      · rw [if_neg hfit]
        exact Or.inr ⟨⟨_, rfl⟩, Or.inr (Or.inl (Nat.le_of_not_lt hfit))⟩

theorem foldlM_jsonStep {ids : List ℕ} (h : ∀ id ∈ ids, Printable nodes dpin id)
    (text : List UInt8 × List UInt8) :
    (∃ text', ids.foldlM (jsonStep escape nodes dpin v needTime) text = .ok text' ∧
        (∀ id ∈ ids, legal nodes dpin id = true) ∧
        text'.1.length = text.1.length + (ids.map (printedLen escape nodes dpin)).sum ∧
        (needTime = true →
          text'.2.length = text.2.length + (ids.map (printedTimeLen nodes dpin)).sum)) ∨
      (∃ stop, ids.foldlM (jsonStep escape nodes dpin v needTime) text = .error stop) ∧
        ((∃ id ∈ ids, legal nodes dpin id = false) ∨
          v.len ≤ text.1.length + (ids.map (printedLen escape nodes dpin)).sum ∨
          (needTime = true ∧
            v.timelen ≤ text.2.length + (ids.map (printedTimeLen nodes dpin)).sum)) := by
  induction ids generalizing text with
  | nil => exact Or.inl ⟨text, rfl, by simp, by simp, by simp⟩
  | cons id ids ih =>
      have hrest : ∀ id' ∈ ids, Printable nodes dpin id' := fun id' hid' ↦ h id' (by simp [hid'])
      rw [List.foldlM_cons, List.map_cons, List.sum_cons, List.map_cons, List.sum_cons]
      rcases jsonStep_printable (h id (by simp)) with
        ⟨text', hstep, hlegal, hlen, htime⟩ | ⟨⟨stop, hstep⟩, hwhy⟩
      · rw [hstep]
        rcases ih hrest text' with ⟨text'', hloop, hlegals, hlen', htime'⟩ | ⟨⟨stop, hloop⟩, hwhy⟩
        · refine Or.inl ⟨text'', hloop, ?_, by omega, fun hneed ↦ ?_⟩
          · intro id' hid'
            rcases List.mem_cons.mp hid' with rfl | hmem
            · exact hlegal
            · exact hlegals id' hmem
          · rw [htime' hneed, htime hneed, Nat.add_assoc]
        · refine Or.inr ⟨⟨stop, hloop⟩, ?_⟩
          rcases hwhy with ⟨id', hid', hillegal⟩ | hlong | ⟨hneed, hlong⟩
          · exact Or.inl ⟨id', by simp [hid'], hillegal⟩
          · exact Or.inr (Or.inl (by omega))
          · have hprinted := htime hneed
            exact Or.inr (Or.inr ⟨hneed, by omega⟩)
      · rw [hstep]
        refine Or.inr ⟨⟨stop, rfl⟩, ?_⟩
        rcases hwhy with hillegal | hlong | ⟨hneed, hlong⟩
        · exact Or.inl ⟨id, by simp, hillegal⟩
        · exact Or.inr (Or.inl (by omega))
        · exact Or.inr (Or.inr ⟨hneed, by omega⟩)

theorem dpReptJsonText_iff {reptType : DpReptType} {timejson : Bool}
    (hnum : v.num = v.dpid.length) (h : ∀ id ∈ v.dpid, Printable nodes dpin id) :
    (∃ texts, dpReptJsonText escape nodes dpin v reptType timejson = .ok texts) ↔
      (∀ id ∈ v.dpid, legal nodes dpin id = true) ∧
        (v.dpid.map (printedLen escape nodes dpin)).sum + 2 < v.len ∧
        (reptType = .statRept → v.timelen ≠ 0 → timejson = true →
          (v.dpid.map (printedTimeLen nodes dpin)).sum + 2 < v.timelen) := by
  rw [dpReptJsonText, hnum, List.take_length]
  generalize hneed : (decide (reptType = .statRept) && decide (v.timelen ≠ 0) && timejson) =
    needTime
  have hneeds : needTime = true ↔ reptType = .statRept ∧ v.timelen ≠ 0 ∧ timejson = true := by
    rw [← hneed]
    simp [and_assoc]
  by_cases hzero : v.len = 0
  · rw [if_pos hzero]
    constructor
    · rintro ⟨texts, hok⟩
      cases hok
    · rintro ⟨-, hlen, -⟩
      omega
  rw [if_neg hzero]
  rcases @foldlM_jsonStep escape nodes dpin v needTime v.dpid h
    ([123], if needTime = true then [123] else []) with
    ⟨⟨dps, times⟩, hloop, hlegal, hlen, htime⟩ | ⟨⟨stop, hloop⟩, hwhy⟩
  · rw [hloop]
    simp only [List.length_singleton] at hlen
    dsimp only
    by_cases hfit : v.len ≤ dps.length + 1
    · rw [if_pos hfit]
      constructor
      · rintro ⟨texts, hok⟩
        cases hok
      · rintro ⟨-, hroom, -⟩
        omega
    · rw [if_neg hfit]
      by_cases hlate : needTime = true ∧ v.timelen ≤ times.length + 1
      · have hprinted := htime hlate.1
        simp only [hlate.1, if_true, List.length_singleton] at hprinted
        obtain ⟨hstat, hstamped, hwanted⟩ := hneeds.mp hlate.1
        rw [if_pos hlate]
        constructor
        · rintro ⟨texts, hok⟩
          cases hok
        · rintro ⟨-, -, hroom⟩
          have hroom := hroom hstat hstamped hwanted
          omega
      · rw [if_neg hlate]
        refine ⟨fun _ ↦ ⟨hlegal, by omega, fun hstat hstamped hwanted ↦ ?_⟩, fun _ ↦ ⟨_, rfl⟩⟩
        have hneeded : needTime = true := hneeds.mpr ⟨hstat, hstamped, hwanted⟩
        have hprinted := htime hneeded
        simp only [hneeded, if_true, List.length_singleton] at hprinted
        have hroom : ¬ v.timelen ≤ times.length + 1 := fun hle ↦ hlate ⟨hneeded, hle⟩
        omega
  · rw [hloop]
    constructor
    · rintro ⟨texts, hok⟩
      cases hok
    · rintro ⟨hlegal, hroom, htimeRoom⟩
      exfalso
      rcases hwhy with ⟨id, hid, hillegal⟩ | hlong | ⟨hneeded, hlong⟩
      · rw [hlegal id hid] at hillegal
        cases hillegal
      · simp only [List.length_singleton] at hlong
        omega
      · obtain ⟨hstat, hstamped, hwanted⟩ := hneeds.mp hneeded
        have hroom := htimeRoom hstat hstamped hwanted
        simp only [hneeded, if_true, List.length_singleton] at hlong
        omega

/-! ## An accepted report -/

theorem printed_nodesAfter (es : List (DpEntry × ℕ)) (id : ℕ) :
    printed (nodesAfter env nodes es) dpin id =
      (printed nodes dpin id).map fun p ↦ (p.1, p.2.after env (entriesOf p.1.id es)) := by
  rw [printed, printed]
  cases dpin.first id with
  | none => rfl
  | some dp =>
      rw [Option.bind_some, Option.bind_some, nodeFind_nodesAfter, Option.map_map, Option.map_map]
      rfl

theorem legal_nodesAfter (es : List (DpEntry × ℕ)) (id : ℕ) :
    legal (nodesAfter env nodes es) dpin id = legal nodes dpin id := by
  rw [legal, legal, printed_nodesAfter]
  cases printed nodes dpin id with
  | none => rfl
  | some p =>
      rw [Option.map_some, Option.all_some, Option.all_some,
        enumIllegal_limits (limits_of_fixed (after_fixed p.2 _))]

theorem printedLen_nodesAfter (es : List (DpEntry × ℕ)) :
    printedLen escape (nodesAfter env nodes es) dpin = printedLen escape nodes dpin := by
  funext id
  rw [printedLen, printedLen, printed_nodesAfter]
  cases printed nodes dpin id with
  | none => rfl
  | some p =>
      rw [Option.map_some, Option.elim_some, Option.elim_some, fieldLen, fieldLen, valueLen.eq_def,
        valueLen.eq_def, ppEnum_of_fixed (after_fixed p.2 _)]

theorem printedTimeLen_nodesAfter (es : List (DpEntry × ℕ)) :
    printedTimeLen (nodesAfter env nodes es) dpin = printedTimeLen nodes dpin := by
  funext id
  rw [printedTimeLen, printedTimeLen, printed_nodesAfter]
  cases printed nodes dpin id <;> rfl

theorem printable_of_listed (hsteady : env.steady nodes dpin.dps = dpin.dps) {id : ℕ}
    (hid : id ∈ (dpin.listed env nodes).map fun dp ↦ dp.id) (es : List (DpEntry × ℕ)) :
    Printable (nodesAfter env nodes es) dpin id := by
  rw [DpReptIn.listed, hsteady] at hid
  obtain ⟨n, hfind, hsends⟩ := (mem_reptListed nodes _ id).mp hid
  have hne : entriesOf id dpin.dps.zipIdx ≠ [] := by
    intro hnil
    rw [hnil] at hsends
    exact hsends
  obtain ⟨e, hmem⟩ := List.exists_mem_of_ne_nil _ hne
  obtain ⟨hzip, hide⟩ := mem_entriesOf.mp hmem
  have helement : e.1 ∈ dpin.dps :=
    (List.mem_zipIdx' (x := e.1) (i := e.2) hzip).2 ▸ List.getElem_mem _
  obtain ⟨dp, hfirst⟩ : ∃ dp, dpin.first id = some dp := by
    rw [← Option.isSome_iff_exists, DpReptIn.first, List.find?_isSome]
    exact ⟨e.1, helement, by simpa using hide⟩
  have hdp : dp ∈ dpin.dps := List.mem_of_find?_eq_some hfirst
  have hdpid : dp.id = id := by simpa using List.find?_some hfirst
  have htype : sameType dp.value n.prop = true := by
    have hrun := List.takeWhile_eq_self_iff.mp hsteady dp hdp
    rw [ReptEnv.stops, hdpid, hfind, Option.any_some] at hrun
    simp only [Bool.not_or, Bool.not_not, Bool.and_eq_true] at hrun
    exact hrun.1
  refine ⟨(dp, n.after env (entriesOf dp.id es)), ?_, ?_⟩
  · rw [printed_nodesAfter, printed, hfirst, Option.bind_some, hdpid, hfind]
    simp [hdpid]
  · exact (sameType_limits (limits_of_fixed (after_fixed n _))).trans htype

theorem validCheck_num (dpin : DpReptIn) (nodes : List SchemaNode) :
    (dpin.validCheck env nodes).1.dpvalid.num =
    (dpin.validCheck env nodes).1.dpvalid.dpid.length := by
  have hnum := @checkLoop_num env 0 dpin.dps ⟨nodes, DpReptValid.cleared⟩ rfl
    (by simpa [DpReptValid.cleared] using dpin.count)
  rw [DpReptIn.validCheck]
  split_ifs <;> exact hnum

theorem sum_timeEstimate_le (dps : List DpEntry) :
    (dps.map timeEstimate).sum ≤ 30 * dps.length := by
  induction dps with
  | nil => exact Nat.le_refl _
  | cons dp dps ih =>
      rw [List.map_cons, List.sum_cons, List.length_cons, timeEstimate]
      split_ifs <;> omega

theorem validCheck_len (dpin : DpReptIn) (nodes : List SchemaNode) :
    (dpin.validCheck env nodes).1.dpvalid.len =
        ((dpin.listed env nodes).map (estimate nodes)).sum % 2 ^ 16 ∧
      (dpin.validCheck env nodes).1.dpvalid.timelen =
        ((dpin.listed env nodes).map timeEstimate).sum := by
  obtain ⟨hlen, htime⟩ := @checkLoop_len env 0 dpin.dps ⟨nodes, DpReptValid.cleared⟩
    (show 0 < 2 ^ 16 by decide) (show 0 < 2 ^ 16 by decide)
  have hcount : (dpin.listed env nodes).length ≤ 255 := by
    have hle := @length_reptListed env nodes (env.steady nodes dpin.dps).zipIdx
    have hsteady : (env.steady nodes dpin.dps).length ≤ dpin.dps.length :=
      (List.takeWhile_sublist _).length_le
    have hbyte := dpin.count
    rw [List.length_zipIdx] at hle
    rw [DpReptIn.listed]
    omega
  have hbound := sum_timeEstimate_le (dpin.listed env nodes)
  simp only [DpReptValid.cleared, Nat.zero_add] at hlen htime
  have hwhole : ((dpin.listed env nodes).map timeEstimate).sum % 2 ^ 16 =
      ((dpin.listed env nodes).map timeEstimate).sum := Nat.mod_eq_of_lt (by omega)
  rw [DpReptIn.validCheck, ← hwhole]
  split_ifs <;> exact ⟨hlen, htime⟩

/-- What a listed data point leaves of its estimate, or takes from the others. -/
def spare (escape : UInt8 → List UInt8) (nodes : List SchemaNode) (dpin : DpReptIn) (dp : DpEntry) :
    ℤ :=
  estimate nodes dp - printedLen escape nodes dpin dp.id

def timeSpare (nodes : List SchemaNode) (dpin : DpReptIn) (dp : DpEntry) : ℤ :=
  timeEstimate dp - printedTimeLen nodes dpin dp.id

/-- The first element of every listed id is legal; the listed data points leave
three bytes of their estimates, and as much as the sum of the estimates loses in
16 bits; and where the times are wanted, they leave three bytes of theirs. -/
def JsonFits (escape : UInt8 → List UInt8) (env : ReptEnv) (nodes : List SchemaNode)
    (dpin : DpReptIn) (timejson : Bool) : Prop :=
  (∀ dp ∈ dpin.listed env nodes, legal nodes dpin dp.id = true) ∧
    ((3 + 2 ^ 16 * (((dpin.listed env nodes).map (estimate nodes)).sum / 2 ^ 16) : ℕ) : ℤ) ≤
      ((dpin.listed env nodes).map (spare escape nodes dpin)).sum ∧
    (env.reptType = .statRept → timejson = true →
      (∃ dp ∈ dpin.listed env nodes, dp.timeStamp ≠ 0) →
        3 ≤ ((dpin.listed env nodes).map (timeSpare nodes dpin)).sum)

theorem sum_timeEstimate_ne_zero {dps : List DpEntry} :
    (dps.map timeEstimate).sum ≠ 0 ↔ ∃ dp ∈ dps, dp.timeStamp ≠ 0 := by
  induction dps with
  | nil => simp
  | cons dp dps ih =>
      rw [List.map_cons, List.sum_cons, List.exists_mem_cons_iff, ← ih, timeEstimate]
      split_ifs with hzero
      · rw [Nat.zero_add]
        simp [hzero]
      · simp [hzero]

theorem sum_map_sub {α : Type*} (f g : α → ℕ) (xs : List α) :
    (xs.map fun x ↦ (f x : ℤ) - g x).sum = ((xs.map f).sum : ℤ) - (xs.map g).sum := by
  induction xs with
  | nil => rfl
  | cons x xs ih =>
      rw [List.map_cons, List.sum_cons, ih, List.map_cons, List.sum_cons, List.map_cons,
        List.sum_cons]
      push_cast
      omega

/-- An accepted report can be printed exactly when the estimates leave room. -/
theorem dp_rept_json_output_ok (escape : UInt8 → List UInt8) (env : ReptEnv)
    (nodes : List SchemaNode) (dpin : DpReptIn) (timejson : Bool)
    (hok : (dpin.validCheck env nodes).2 = oprtOk) :
    (∃ texts, dpReptJsonText escape (dpin.validCheck env nodes).1.nodes dpin
        (dpin.validCheck env nodes).1.dpvalid env.reptType timejson = .ok texts) ↔
      JsonFits escape env nodes dpin timejson := by
  have hsteady := ((validCheck_ok_iff dpin nodes).mp hok).1
  obtain ⟨hlen, htimelen⟩ := @validCheck_len env dpin nodes
  have hprintable : ∀ id ∈ (dpin.validCheck env nodes).1.dpvalid.dpid,
      Printable (dpin.validCheck env nodes).1.nodes dpin id := by
    intro id hid
    rw [validCheck_dpid] at hid
    rw [validCheck_nodes]
    exact printable_of_listed hsteady hid _
  rw [dpReptJsonText_iff (validCheck_num dpin nodes) hprintable, hlen, htimelen, validCheck_dpid,
    validCheck_nodes, printedLen_nodesAfter, printedTimeLen_nodesAfter, JsonFits, List.map_map,
    List.map_map]
  refine and_congr ?_ (and_congr ?_ ?_)
  · rw [List.forall_mem_map]
    apply forall₂_congr
    intro dp _
    rw [legal_nodesAfter]
  · have hsum := sum_map_sub (estimate nodes) (printedLen escape nodes dpin ∘ fun dp ↦ dp.id)
      (dpin.listed env nodes)
    have hspare : (dpin.listed env nodes).map (spare escape nodes dpin) =
      (dpin.listed env nodes).map
        fun dp ↦ (estimate nodes dp : ℤ) - (printedLen escape nodes dpin ∘ fun dp ↦ dp.id) dp := rfl
    rw [hspare, hsum]
    omega
  · have hsum := sum_map_sub timeEstimate (printedTimeLen nodes dpin ∘ fun dp ↦ dp.id)
      (dpin.listed env nodes)
    have hspare : (dpin.listed env nodes).map (timeSpare nodes dpin) = (dpin.listed env nodes).map
        fun dp ↦ (timeEstimate dp : ℤ) - (printedTimeLen nodes dpin ∘ fun dp ↦ dp.id) dp := rfl
    rw [hspare, hsum, ← sum_timeEstimate_ne_zero]
    apply imp_congr_right
    intro _
    constructor
    · intro h hwanted hstamped
      have hroom := h hstamped hwanted
      omega
    · intro h hstamped hwanted
      have hroom := h hwanted hstamped
      omega

/-! ### A lamp with a text -/

def lampText : SchemaNode where
  id := 5
  mode := .rw
  passive := .psvFalse
  type := .obj
  trig := .pulse
  prop := .str 255 0 none
  pvStat := .invalid
  ppEnum := []
  timeStamp := 0
  names := fun _ _ h ↦ nomatch h
  fits := fun _ _ _ h ↦ nomatch h
  zeroed := fun h ↦ (h rfl).elim

def hexDigit (n : UInt8) : UInt8 := if n < 10 then 48 + n else 87 + n

/-- How the JSON library prints a byte of a string. -/
def cjsonEscape (c : UInt8) : List UInt8 :=
  if c = 34 ∨ c = 92 then [92, c]
  else if c < 32 then [92, 117, 48, 48, hexDigit (c / 16), hexDigit (c % 16)]
  else [c]

def objAlways : ReptEnv := ReptEnv.obj false false fun _ ↦ true

theorem dp_rept_json_output_ok_switch :
    ((DpReptIn.ofArray [switchReport]).validCheck objAlways lampNodes).2 = oprtOk ∧
      ∃ texts, dpReptJsonText cjsonEscape
        ((DpReptIn.ofArray [switchReport]).validCheck objAlways lampNodes).1.nodes
        (DpReptIn.ofArray [switchReport])
        ((DpReptIn.ofArray [switchReport]).validCheck objAlways lampNodes).1.dpvalid
        objAlways.reptType false = .ok texts := by
  have hok : ((DpReptIn.ofArray [switchReport]).validCheck objAlways lampNodes).2 =
    oprtOk := by decide
  exact ⟨hok, (dp_rept_json_output_ok cjsonEscape objAlways lampNodes _ false hok).mpr
    ⟨by decide, by decide, fun h ↦ nomatch h⟩⟩

/-- Two control characters need more than the estimate of their string. -/
theorem dp_rept_json_output_not_ok :
    ((DpReptIn.ofArray [⟨⟨5, .str [1, 1]⟩, 0⟩]).validCheck objAlways [lampText]).2 = oprtOk ∧
      ¬ ∃ texts, dpReptJsonText cjsonEscape
        ((DpReptIn.ofArray [⟨⟨5, .str [1, 1]⟩, 0⟩]).validCheck objAlways [lampText]).1.nodes
        (DpReptIn.ofArray [⟨⟨5, .str [1, 1]⟩, 0⟩])
        ((DpReptIn.ofArray [⟨⟨5, .str [1, 1]⟩, 0⟩]).validCheck objAlways [lampText]).1.dpvalid
        objAlways.reptType false = .ok texts := by
  refine ⟨by decide, ?_⟩
  rintro ⟨texts, htexts⟩
  have hstop : dpReptJsonText cjsonEscape
      ((DpReptIn.ofArray [⟨⟨5, .str [1, 1]⟩, 0⟩]).validCheck objAlways [lampText]).1.nodes
      (DpReptIn.ofArray [⟨⟨5, .str [1, 1]⟩, 0⟩])
      ((DpReptIn.ofArray [⟨⟨5, .str [1, 1]⟩, 0⟩]).validCheck objAlways [lampText]).1.dpvalid
      objAlways.reptType false = .error (.code oprtBufferNotEnough) := rfl
  rw [hstop] at htexts
  cases htexts

/-! ## The copy for Bluetooth -/

/-- The two ways out carry the same data points, which are those in the cache,
and every copy lies inside the block that was allocated. -/
def ReportsAgree (sizes : ReptSizes) (dpin : DpReptIn) (s : CheckState) : Prop :=
  bleDps dpin s.dpvalid = jsonDps dpin s.dpvalid ∧
    (∀ p ∈ jsonDps dpin s.dpvalid,
      ∃ n, nodeFind s.nodes p.1 = some n ∧ n.prop.cached = some p.2) ∧
    ∀ c ∈ bleCopies dpin s.dpvalid, bleOffset sizes c.1 + sizes.obj ≤ bleBlock s.dpvalid sizes

theorem exists_bleCopy (hok : (dpin.validCheck env nodes).2 = oprtOk) {i : ℕ}
    (hi : i < (dpin.validCheck env nodes).1.dpvalid.num) :
    ∃ dp, (i, dp) ∈ bleCopies dpin (dpin.validCheck env nodes).1.dpvalid := by
  have hsteady := ((validCheck_ok_iff dpin nodes).mp hok).1
  obtain ⟨id, hid⟩ : ∃ id, (dpin.validCheck env nodes).1.dpvalid.dpid[i]? = some id := by
    rw [validCheck_num] at hi
    exact ⟨_, List.getElem?_eq_getElem hi⟩
  have hlisted := List.mem_of_getElem? hid
  rw [validCheck_dpid] at hlisted
  obtain ⟨p, hprinted, -⟩ := printable_of_listed hsteady hlisted []
  rw [printed, Option.bind_eq_some_iff] at hprinted
  obtain ⟨dp, hfirst, -⟩ := hprinted
  refine ⟨dp, ?_⟩
  rw [bleCopies, validCheck_num, List.take_length, List.mem_flatMap]
  refine ⟨(id, i), List.mem_zipIdx_iff_getElem?.mpr hid, ?_⟩
  have hmem : dp ∈ dpin.dps := List.mem_of_find?_eq_some hfirst
  have hdpid : dp.id = id := by simpa using List.find?_some hfirst
  exact List.mem_map.mpr ⟨dp, List.mem_filter.mpr ⟨hmem, by simpa using hdpid⟩, rfl⟩

/-- The copy of the last listed data point lies outside of the block. -/
theorem ble_report_never_agrees (sizes : ReptSizes) (env : ReptEnv) (nodes : List SchemaNode)
    (dpin : DpReptIn) (hok : (dpin.validCheck env nodes).2 = oprtOk) :
    ¬ ReportsAgree sizes dpin (dpin.validCheck env nodes).1 := by
  rintro ⟨-, -, hinside⟩
  have hlisted := ((validCheck_ok_iff dpin nodes).mp hok).2
  have hpos : 0 < (dpin.validCheck env nodes).1.dpvalid.num := by
    rw [validCheck_num, validCheck_dpid, List.length_map]
    exact List.length_pos_of_ne_nil hlisted
  obtain ⟨dp, hcopy⟩ := exists_bleCopy hok (Nat.sub_one_lt_of_lt hpos)
  have hin := hinside _ hcopy
  obtain ⟨num, hnum⟩ := Nat.exists_eq_succ_of_ne_zero hpos.ne'
  have hsquare : sizes.reptIn < sizes.reptIn * sizes.reptIn := by
    apply Nat.lt_mul_self_iff.mpr
    have hgt := sizes.reptIn_gt
    omega
  simp only [bleOffset, bleBlock, hnum, Nat.succ_sub_one, Nat.mul_succ, Nat.mul_comm num] at hin
  omega

def sizes32 : ReptSizes where
  reptIn := 20
  obj := 12
  reptIn_gt := by decide

theorem ble_report_never_agrees_switch :
    ((DpReptIn.ofArray [switchReport]).validCheck objAlways lampNodes).2 = oprtOk ∧
      ¬ ReportsAgree sizes32 (DpReptIn.ofArray [switchReport])
        ((DpReptIn.ofArray [switchReport]).validCheck objAlways lampNodes).1 := by
  have hok : ((DpReptIn.ofArray [switchReport]).validCheck objAlways lampNodes).2 =
    oprtOk := by decide
  exact ⟨hok, ble_report_never_agrees sizes32 objAlways lampNodes _ hok⟩

/-- Of a level that stands twice in the report Bluetooth carries the last, and
the JSON the first, which is not the one in the cache. -/
theorem ble_report_not_agrees :
    ((DpReptIn.ofArray [⟨⟨2, .value 5⟩, 0⟩, ⟨⟨2, .value 7⟩, 0⟩]).validCheck objAlways lampNodes).2 =
        oprtOk ∧
      ¬ ReportsAgree sizes32 (DpReptIn.ofArray [⟨⟨2, .value 5⟩, 0⟩, ⟨⟨2, .value 7⟩, 0⟩])
        ((DpReptIn.ofArray [⟨⟨2, .value 5⟩, 0⟩, ⟨⟨2, .value 7⟩, 0⟩]).validCheck objAlways
          lampNodes).1 := by
  refine ⟨by decide, fun h ↦ ?_⟩
  exact absurd h.1 (by decide)

end TuyaOpen.Schema
