import TuyaOpen.Schema.DpReportRun

/-!
# What a report of object data points gets through

A data point that was changed is sent and cached when it is the last of its id
that passes the type check and its string could be stored.  A bitmap never
passes, data points behind the count's byte are not looked at, and a later data
point of the same id takes the place of an earlier one.
-/

namespace TuyaOpen.Schema

/-! ## The last of its kind -/

theorem exists_last {α : Type*} {p : α → Prop} {xs : List α} (h : ∃ x ∈ xs, p x) :
    ∃ before x behind, xs = before ++ x :: behind ∧ p x ∧ ∀ y ∈ behind, ¬ p y := by
  induction xs with
  | nil => simp at h
  | cons a xs ih =>
      by_cases hrest : ∃ x ∈ xs, p x
      · obtain ⟨before, x, behind, rfl, hx, hbehind⟩ := ih hrest
        exact ⟨a :: before, x, behind, rfl, hx, hbehind⟩
      · obtain ⟨x, hx, hpx⟩ := h
        rcases List.mem_cons.mp hx with rfl | hmem
        · exact ⟨[], x, xs, rfl, hpx, fun y hy hpy ↦ hrest ⟨y, hy, hpy⟩⟩
        · exact absurd ⟨x, hmem, hpx⟩ hrest

/-! ## A run at one node -/

variable {env : ReptEnv} {n : SchemaNode}

theorem passes_fixed {m : SchemaNode} (h : m.fixed = n.fixed) (dp : DpEntry) :
    env.passes dp m = env.passes dp n := by
  have hlimits : m.prop.limits = n.prop.limits := limits_of_fixed h
  have hrange : inRange dp.value m.prop = inRange dp.value n.prop := inRange_limits hlimits
  simp only [SchemaNode.fixed, Prod.mk.injEq] at h
  obtain ⟨-, hmode, hpassive, htype, -⟩ := h
  rw [ReptEnv.passes, ReptEnv.passes, hpassive]
  congr 2
  by_cases hobj : n.type = .obj
  · rw [dpTypeCheck_obj hobj, dpTypeCheck_obj (htype.trans hobj), hmode, hrange]
  · rw [dpTypeCheck, dpTypeCheck, hmode, htype]
    cases htp : n.type with
    | obj => exact absurd htp hobj
    | raw => rfl
    | file => rfl

theorem after_append (n : SchemaNode) (es es' : List (DpEntry × ℕ)) :
    n.after env (es ++ es') = (n.after env es).after env es' := by
  rw [SchemaNode.after, List.foldl_append]
  rfl

theorem after_idle {es : List (DpEntry × ℕ)} (h : ∀ e ∈ es, env.passes e.1 n = false) :
    n.after env es = n := by
  induction es with
  | nil => rfl
  | cons e es ih =>
      rw [SchemaNode.after, List.foldl_cons, (rept_idle (h e List.mem_cons_self)).1]
      exact ih fun e' he' ↦ h e' (List.mem_cons_of_mem e he')

theorem after_last {before behind : List (DpEntry × ℕ)} {e : DpEntry × ℕ}
    (hbehind : ∀ e' ∈ behind, env.passes e'.1 n = false) :
    n.after env (before ++ e :: behind) = ((n.after env before).rept env e.2 e.1).1 := by
  rw [after_append]
  have hfixed : ((n.after env before).rept env e.2 e.1).1.fixed = n.fixed :=
    (rept_fixed _).trans (after_fixed n before)
  exact after_idle fun e' he' ↦ (passes_fixed hfixed e'.1).trans (hbehind e' he')

theorem cached_of_not_sends {es : List (DpEntry × ℕ)} (hobj : n.type = .obj)
    (h : ¬ n.Sends env es) :
    (n.after env es).prop.cached = n.prop.cached ∨ (n.after env es).prop.cached = none := by
  induction es generalizing n with
  | nil => exact Or.inl rfl
  | cons e es ih =>
      rw [SchemaNode.Sends, not_or] at h
      obtain ⟨hsent, hrest⟩ := h
      have hfixed : (n.rept env e.2 e.1).1.fixed = n.fixed := rept_fixed n
      have htype : (n.rept env e.2 e.1).1.type = .obj := by
        simp only [SchemaNode.fixed, Prod.mk.injEq] at hfixed
        exact hfixed.2.2.2.1.trans hobj
      have hstep : (n.rept env e.2 e.1).1.prop.cached = n.prop.cached ∨
          (n.rept env e.2 e.1).1.prop.cached = none := by
        by_cases hpass : env.passes e.1 n = true
        · obtain ⟨hcached, -, hret⟩ := rept_obj (i := e.2) hpass hobj
          rw [hret, Bool.and_eq_true, not_and_or] at hsent
          rcases hsent with hdue | hstored
          · rw [Bool.not_eq_true] at hdue
            have hsame := cached_of_not_due hdue
            rw [hcached, if_pos (stored_of_cached _ hsame), hsame]
            exact Or.inl rfl
          · rw [hcached, if_neg hstored]
            exact Or.inr rfl
        · rw [Bool.not_eq_true] at hpass
          rw [(rept_idle hpass).1]
          exact Or.inl rfl
      rcases ih htype hrest with hsame | hnone
      · rw [← hsame] at hstep
        exact hstep
      · exact Or.inr hnone

/-! ## The report -/

/-- How `tuya_iot_dp_obj_report` has a report checked. -/
def ReptEnv.obj (preprocess noFilter : Bool) (malloc : ℕ → Bool) : ReptEnv where
  preprocess := preprocess
  reptType := .objRept
  noFilter := noFilter
  malloc := malloc

/-- A well-formed change: of a readable object data point that is not passive,
to a value of its type and in its range that is not the cached one. -/
def Reportable (nodes : List SchemaNode) (dp : DpEntry) : Prop :=
  ∃ n, nodeFind nodes dp.id = some n ∧ n.mode ≠ .wr ∧ n.type = .obj ∧ n.passive ≠ .psvTrue ∧
    inRange dp.value n.prop = true ∧ n.prop.cached ≠ some dp.value

/-- The data point is listed, and the cache holds its value. -/
def Reported (s : CheckState) (dp : DpEntry) : Prop :=
  dp.id ∈ s.dpvalid.dpid ∧ ∃ n, nodeFind s.nodes dp.id = some n ∧ n.prop.cached = some dp.value

/-- Among the data points that are looked at there is one of the id with the
value, which is no bitmap, whose string is stored at the node that it finds, and
behind which none of the id is in range. -/
def LastStored (env : ReptEnv) (nodes : List SchemaNode) (dpin : DpReptIn) (dp : DpEntry) : Prop :=
  ∃ before e behind, dpin.dps.zipIdx = before ++ e :: behind ∧ e.1.id = dp.id ∧
    e.1.value = dp.value ∧ dp.value.isBitmap = false ∧
    (∀ n, nodeFind (nodesAfter env nodes before) dp.id = some n →
      stored (env.malloc e.2) dp.value n.prop = true) ∧
    ∀ e' ∈ behind, e'.1.id = dp.id →
      ∀ n, nodeFind nodes dp.id = some n → inRange e'.1.value n.prop = false

theorem isBitmap_of_inRange {value value' : DpValue} {prop : DpProp} (h : inRange value prop = true)
    (h' : inRange value' prop = true) : value.isBitmap = value'.isBitmap := by
  cases prop <;> cases value <;> simp only [inRange, Bool.false_eq_true] at h <;> cases value' <;>
    simp only [inRange, Bool.false_eq_true] at h' <;> rfl

theorem type_of_fixed {m : SchemaNode} (h : m.fixed = n.fixed) : m.type = n.type :=
  congrArg (fun d ↦ d.2.2.2.1) h

theorem entriesOf_split {before behind : List (DpEntry × ℕ)} {e : DpEntry × ℕ} {id : ℕ}
    (hid : e.1.id = id) :
    entriesOf id (before ++ e :: behind) = entriesOf id before ++ e :: entriesOf id behind := by
  rw [entriesOf, List.filter_append, ← hid]
  congr 1
  exact entriesOf_cons_self e behind

theorem mem_entriesOf {e : DpEntry × ℕ} {es : List (DpEntry × ℕ)} {id : ℕ} :
    e ∈ entriesOf id es ↔ e ∈ es ∧ e.1.id = id := by
  rw [entriesOf, List.mem_filter, decide_eq_true_iff, Int.natCast_inj]

theorem reported_iff_lastStored {nodes : List SchemaNode} {dpin : DpReptIn} {dp : DpEntry}
    (hsteady : env.steady nodes dpin.dps = dpin.dps) (hfind : nodeFind nodes dp.id = some n)
    (hobj : n.type = .obj)
    (hpasses : ∀ e : DpEntry, env.passes e n = (inRange e.value n.prop && !e.value.isBitmap))
    (hrange : inRange dp.value n.prop = true) (hchanged : n.prop.cached ≠ some dp.value) :
    Reported (dpin.validCheck env nodes).1 dp ↔ LastStored env nodes dpin dp := by
  have hfixed : ∀ es, (n.after env es).fixed = n.fixed := after_fixed n
  rw [Reported, validCheck_nodes, validCheck_dpid, DpReptIn.listed, hsteady, mem_reptListed,
    nodeFind_nodesAfter, hfind, Option.map_some]
  constructor
  · rintro ⟨-, n', hn', hcached⟩
    obtain rfl : n.after env (entriesOf dp.id dpin.dps.zipIdx) = n' := Option.some.inj hn'
    have hpassed : ∃ e ∈ dpin.dps.zipIdx, e.1.id = dp.id ∧ env.passes e.1 n = true := by
      by_contra hnone
      apply hchanged
      rw [← hcached, after_idle]
      intro e he
      obtain ⟨hmem, hid⟩ := mem_entriesOf.mp he
      rw [← Bool.not_eq_true]
      exact fun hpass ↦ hnone ⟨e, hmem, hid, hpass⟩
    obtain ⟨before, e, behind, hsplit, ⟨hid, hpass⟩, hbehind⟩ := exists_last hpassed
    have hidle : ∀ e' ∈ entriesOf dp.id behind, env.passes e'.1 n = false := by
      intro e' he'
      obtain ⟨hmem, hid'⟩ := mem_entriesOf.mp he'
      rw [← Bool.not_eq_true]
      exact fun hpass' ↦ hbehind e' hmem ⟨hid', hpass'⟩
    rw [hsplit, entriesOf_split hid, after_last hidle] at hcached
    have hpass' : env.passes e.1 (n.after env (entriesOf dp.id before)) = true :=
      (passes_fixed (hfixed _) e.1).trans hpass
    rw [(rept_obj hpass' ((type_of_fixed (hfixed _)).trans hobj)).1] at hcached
    split_ifs at hcached with hstored
    have hvalue : e.1.value = dp.value := Option.some.inj hcached
    rw [hpasses, Bool.and_eq_true, Bool.not_eq_true'] at hpass
    rw [hvalue] at hstored hpass
    refine ⟨before, e, behind, hsplit, hid, hvalue, hpass.2, ?_, ?_⟩
    · intro m hm
      rw [nodeFind_nodesAfter, hfind, Option.map_some] at hm
      rwa [← Option.some.inj hm]
    · intro e' he' hid' m hm
      obtain rfl : n = m := Option.some.inj (hfind.symm.trans hm)
      have hnot := hidle e' (mem_entriesOf.mpr ⟨he', hid'⟩)
      rw [hpasses] at hnot
      by_contra hin
      rw [Bool.not_eq_false] at hin
      rw [hin, isBitmap_of_inRange hin hpass.1, hpass.2] at hnot
      cases hnot
  · rintro ⟨before, e, behind, hsplit, hid, hvalue, hbitmap, hstored, hbehind⟩
    have hpass : env.passes e.1 n = true := by
      rw [hpasses, hvalue, hrange, hbitmap]
      rfl
    have hidle : ∀ e' ∈ entriesOf dp.id behind, env.passes e'.1 n = false := by
      intro e' he'
      obtain ⟨hmem, hid'⟩ := mem_entriesOf.mp he'
      rw [hpasses, hbehind e' hmem hid' n hfind]
      rfl
    have hpass' : env.passes e.1 (n.after env (entriesOf dp.id before)) = true :=
      (passes_fixed (hfixed _) e.1).trans hpass
    have hcached : (n.after env (entriesOf dp.id dpin.dps.zipIdx)).prop.cached = some dp.value := by
      rw [hsplit, entriesOf_split hid, after_last hidle,
        (rept_obj hpass' ((type_of_fixed (hfixed _)).trans hobj)).1, hvalue, if_pos]
      apply hstored
      rw [nodeFind_nodesAfter, hfind, Option.map_some]
    refine ⟨⟨n, rfl, ?_⟩, _, rfl, hcached⟩
    by_contra hsends
    rcases cached_of_not_sends hobj hsends with hsame | hnone
    · exact hchanged (hsame.symm.trans hcached)
    · rw [hnone] at hcached
      cases hcached

/-- In a report that is accepted, all well-formed changes get through exactly
when each is the last of its id that passes and could be stored. -/
theorem dp_obj_report_reportable (preprocess noFilter : Bool) (malloc : ℕ → Bool)
    (nodes : List SchemaNode) (dps : List DpEntry)
    (hok : ((DpReptIn.ofArray dps).validCheck (ReptEnv.obj preprocess noFilter malloc) nodes).2 =
      oprtOk) :
    (∀ dp ∈ dps, Reportable nodes dp →
        Reported ((DpReptIn.ofArray dps).validCheck (ReptEnv.obj preprocess noFilter malloc)
          nodes).1 dp) ↔
      ∀ dp ∈ dps, Reportable nodes dp →
        LastStored (ReptEnv.obj preprocess noFilter malloc) nodes (DpReptIn.ofArray dps) dp := by
  apply forall_congr'
  intro dp
  apply imp_congr_right
  intro _
  apply imp_congr_right
  rintro ⟨n, hfind, hmode, hobj, hpassive, hrange, hchanged⟩
  apply reported_iff_lastStored ((validCheck_ok_iff _ nodes).mp hok).1 hfind hobj _ hrange hchanged
  intro e
  rw [ReptEnv.passes, dpTypeCheck_obj hobj]
  simp [ReptEnv.obj, hmode, hpassive]

def switchReport : DpEntry := ⟨⟨1, .bool true⟩, 0⟩
def faultReport : DpEntry := ⟨⟨4, .bitmap 1⟩, 0⟩

theorem dp_obj_report_reportable_switch :
    ((DpReptIn.ofArray [switchReport]).validCheck (ReptEnv.obj false false fun _ ↦ true)
        lampNodes).2 = oprtOk ∧
      ∀ dp ∈ [switchReport], Reportable lampNodes dp →
        Reported ((DpReptIn.ofArray [switchReport]).validCheck
          (ReptEnv.obj false false fun _ ↦ true) lampNodes).1 dp := by
  have hok : ((DpReptIn.ofArray [switchReport]).validCheck (ReptEnv.obj false false fun _ ↦ true)
      lampNodes).2 = oprtOk := by decide
  refine ⟨hok, (dp_obj_report_reportable _ _ _ _ _ hok).mpr fun dp hdp _ ↦ ?_⟩
  obtain rfl : dp = switchReport := by simpa using hdp
  exact ⟨[], (switchReport, 0), [], rfl, rfl, rfl, rfl, fun _ _ ↦ rfl, by simp⟩

/-- A changed bitmap is not listed in a report that is accepted. -/
theorem dp_obj_report_not_reportable :
    ((DpReptIn.ofArray [switchReport, faultReport]).validCheck
        (ReptEnv.obj false false fun _ ↦ true) lampNodes).2 = oprtOk ∧
      ¬ ∀ dp ∈ [switchReport, faultReport], Reportable lampNodes dp →
        Reported ((DpReptIn.ofArray [switchReport, faultReport]).validCheck
          (ReptEnv.obj false false fun _ ↦ true) lampNodes).1 dp := by
  refine ⟨by decide, fun h ↦ ?_⟩
  have hrep : Reportable lampNodes faultReport :=
    ⟨lampFault, rfl, by decide, rfl, by decide, rfl, by decide⟩
  have hlisted := (h faultReport (by simp) hrep).1
  exact absurd hlisted (by decide)

end TuyaOpen.Schema
