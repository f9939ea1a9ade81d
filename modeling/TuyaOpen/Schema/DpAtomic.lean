import TuyaOpen.Schema.DpReportable

/-!
# What a rejected report leaves

`dp_rept_valid_check` changes the nodes as it goes and returns where it meets a
data point it does not take, so a rejected report may leave something behind.
Whether it does is decided at each node by the data points of its id.
-/

namespace TuyaOpen.Schema

variable {env : ReptEnv} {n : SchemaNode}

/-- What others see of a node: the cached value, the upload status and the time. -/
def SchemaNode.view (n : SchemaNode) : Option DpValue × PvStat × ℕ :=
  (n.prop.cached, n.pvStat, n.timeStamp)

/-- The data point adds nothing to a node that is not waiting for its upload: it
is not forced and has the cached value, or there was no value and there is no
memory for one. -/
def Quiet (env : ReptEnv) (n : SchemaNode) (e : DpEntry × ℕ) : Prop :=
  env.passes e.1 n = true →
    (env.forced n = false ∧ n.prop.cached = some e.1.value) ∨
      (n.prop.cached = none ∧ env.malloc e.2 = false)

/-- What the buffer of a string takes. -/
def DpProp.buffer : DpProp → Option ℕ
  | .str _ curLen cached => if cached.isSome then some curLen else none
  | _ => none

def DpValue.strLen : DpValue → ℕ
  | .str s => s.length
  | _ => 0

/-- A string of `len` fits into the buffer behind the data points, the last first: the one that
was there, or that one of them got, unless one behind it lost the buffer for want of memory. -/
def Room (env : ReptEnv) (n : SchemaNode) : List (DpEntry × ℕ) → ℕ → Prop
  | [], len => ∃ size, n.prop.buffer = some size ∧ len ≤ size
  | e :: es, len =>
    if env.passes e.1 n = true then
      if env.malloc e.2 = true then len ≤ e.1.value.strLen ∨ Room env n es len
      else Room env n es (max len e.1.value.strLen)
    else Room env n es len

/-- Behind the data points `before` there is a place for the value. -/
def Kept (env : ReptEnv) (n : SchemaNode) (before : List (DpEntry × ℕ)) (e : DpEntry × ℕ) : Prop :=
  env.malloc e.2 = true ∨ ∀ s, e.1.value = .str s → Room env n before.reverse s.length

/-- The data points of its id, up to where the call returns, leave the node as
it was.  If one passes the checks, the last of them is decisive: a statistic has
the time that was noted before; a node that waits for its upload has the value
of it already, or has none and there is no memory for it.  A node that does not
wait is an object, and no data point adds anything to it. -/
def Restored (env : ReptEnv) (n : SchemaNode) (es : List (DpEntry × ℕ)) : Prop :=
  ∀ before e behind, es = before ++ e :: behind → env.passes e.1 n = true →
    (∀ e' ∈ behind, env.passes e'.1 n = false) →
      (env.reptType = .statRept → e.1.timeStamp = n.timeStamp) ∧
        if n.pvStat = .local then
          n.type = .obj →
            (n.prop.cached = some e.1.value ∧ Kept env n before e) ∨
              (n.prop.cached = none ∧ ¬Kept env n before e)
        else n.type = .obj ∧ ∀ e' ∈ es, Quiet env n e'

/-! ## Steps -/

theorem rept_cases (e : DpEntry × ℕ) (n : SchemaNode) :
    (n.rept env e.2 e.1).1.pvStat = n.pvStat ∨ (n.rept env e.2 e.1).1.pvStat = .local := by
  by_cases hpass : env.passes e.1 n = true
  · by_cases hobj : n.type = .obj
    · rw [(rept_obj (i := e.2) hpass hobj).2.1]
      split_ifs
      · exact Or.inr rfl
      · exact Or.inl rfl
    · exact Or.inr (rept_raw hpass hobj).2.1
  · rw [Bool.not_eq_true] at hpass
    rw [(rept_idle hpass).1]
    exact Or.inl rfl

theorem after_local (es : List (DpEntry × ℕ)) (h : n.pvStat = .local) :
    (n.after env es).pvStat = .local := by
  induction es generalizing n with
  | nil => exact h
  | cons e es ih =>
      rw [SchemaNode.after, List.foldl_cons]
      apply ih
      rcases rept_cases e n with hsame | hlocal
      · rw [hsame, h]
      · exact hlocal

theorem after_timeStamp (es : List (DpEntry × ℕ)) (h : env.reptType ≠ .statRept) :
    (n.after env es).timeStamp = n.timeStamp := by
  induction es generalizing n with
  | nil => rfl
  | cons e es ih =>
      rw [SchemaNode.after, List.foldl_cons]
      refine ih.trans ?_
      simp [SchemaNode.rept, h]

theorem stored_of_none {malloc : Bool} {value : DpValue} {prop : DpProp}
    (hcached : prop.cached = none)
    (hrange : inRange value prop = true) : stored malloc value prop = malloc := by
  cases prop <;> cases value <;> simp only [DpProp.cached, inRange, reduceCtorEq] at hcached hrange
  case str.str maxLen curLen cached s =>
    cases cached with
    | none => simp [stored]
    | some c => cases hcached

theorem stored_of_malloc {value : DpValue} {prop : DpProp} {malloc : Bool}
    (h : stored malloc value prop = false) : malloc = false := by
  cases prop <;> cases value <;> simp only [stored, Bool.or_eq_false_iff, reduceCtorEq] at h
  case str.str => exact h.2

theorem Quiet.rept {e : DpEntry × ℕ} (h : Quiet env n e) (hobj : n.type = .obj) :
    (n.rept env e.2 e.1).1.prop.cached = n.prop.cached ∧
      (n.rept env e.2 e.1).1.pvStat = n.pvStat := by
  by_cases hpass : env.passes e.1 n = true
  · obtain ⟨hcached, hstat, -⟩ := rept_obj (i := e.2) hpass hobj
    rcases h hpass with ⟨hforced, hsame⟩ | ⟨hnone, hmalloc⟩
    · have hdue : env.due e.1 n = false := by simp [ReptEnv.due, hforced, hsame]
      rw [hcached, hstat, hdue, if_pos (stored_of_cached _ hsame), hsame]
      exact ⟨rfl, rfl⟩
    · have hstored : stored (env.malloc e.2) e.1.value n.prop = false := by
        rw [stored_of_none hnone (inRange_of_passes hpass hobj), hmalloc]
      rw [hcached, hstat, hstored, Bool.and_false, hnone]
      exact ⟨rfl, rfl⟩
  · rw [Bool.not_eq_true] at hpass
    rw [(rept_idle hpass).1]
    exact ⟨rfl, rfl⟩

theorem forced_congr {m : SchemaNode} (hfixed : m.fixed = n.fixed) (hstat : m.pvStat = n.pvStat) :
    env.forced m = env.forced n := by
  have htrig : m.trig = n.trig := congrArg (fun d ↦ d.2.2.2.2.1) hfixed
  rw [ReptEnv.forced, ReptEnv.forced, htrig, hstat]

theorem Quiet.congr {m : SchemaNode} {e : DpEntry × ℕ} (hfixed : m.fixed = n.fixed)
    (hcached : m.prop.cached = n.prop.cached) (hstat : m.pvStat = n.pvStat) :
    Quiet env m e ↔ Quiet env n e := by
  rw [Quiet, Quiet, passes_fixed hfixed, hcached, forced_congr hfixed hstat]

theorem rept_off {e : DpEntry × ℕ} (hpass : env.passes e.1 n = true) (hobj : n.type = .obj)
    (hstat : (n.rept env e.2 e.1).1.pvStat ≠ .local) :
    (env.forced n = false ∧ n.prop.cached = some e.1.value) ∨
      ((n.rept env e.2 e.1).1.prop.cached = none ∧ env.malloc e.2 = false) := by
  obtain ⟨hcached, hlocal, -⟩ := rept_obj (i := e.2) hpass hobj
  rw [hlocal] at hstat
  by_cases hstored : stored (env.malloc e.2) e.1.value n.prop = true
  · left
    rw [hstored, Bool.and_true] at hstat
    have hdue : ¬ env.due e.1 n = true := fun h ↦ hstat (if_pos h)
    rw [Bool.not_eq_true, ReptEnv.due, Bool.or_eq_false_iff, decide_eq_false_iff_not,
      not_not] at hdue
    exact hdue
  · right
    rw [hcached, if_neg hstored]
    rw [Bool.not_eq_true] at hstored
    exact ⟨rfl, stored_of_malloc hstored⟩

theorem after_off {e : DpEntry × ℕ} {es : List (DpEntry × ℕ)}
    (h : (n.after env (e :: es)).pvStat ≠ .local) : (n.rept env e.2 e.1).1.pvStat ≠ .local :=
  fun hlocal ↦ h (after_local es hlocal)

theorem type_rept (e : DpEntry × ℕ) (hobj : n.type = .obj) : (n.rept env e.2 e.1).1.type = .obj :=
  (type_of_fixed (rept_fixed n)).trans hobj

theorem after_none {es : List (DpEntry × ℕ)} (hobj : n.type = .obj) (hnone : n.prop.cached = none)
    (hstat : (n.after env es).pvStat ≠ .local) : (n.after env es).prop.cached = none := by
  induction es generalizing n with
  | nil => exact hnone
  | cons e es ih =>
      have hrept : (n.rept env e.2 e.1).1.prop.cached = none := by
        by_cases hpass : env.passes e.1 n = true
        · rcases rept_off hpass hobj (after_off hstat) with ⟨-, hsome⟩ | ⟨hlost, -⟩
          · rw [hnone] at hsome
            cases hsome
          · exact hlost
        · rw [Bool.not_eq_true] at hpass
          rw [(rept_idle hpass).1, hnone]
      exact ih (type_rept e hobj) hrept hstat

/-- A node that does not wait afterwards and has the value that it had got quiet
data points only. -/
theorem quiet_of_after {es : List (DpEntry × ℕ)} (hobj : n.type = .obj)
    (hstat : (n.after env es).pvStat ≠ .local)
    (hcached : (n.after env es).prop.cached = n.prop.cached) : ∀ e ∈ es, Quiet env n e := by
  induction es generalizing n with
  | nil => simp
  | cons e es ih =>
      have hoff : (n.rept env e.2 e.1).1.pvStat ≠ .local := after_off hstat
      have hstay : (n.rept env e.2 e.1).1.pvStat = n.pvStat := (rept_cases e n).resolve_right hoff
      -- the head is quiet, and the node keeps its value there
      have hhead : Quiet env n e ∧ (n.rept env e.2 e.1).1.prop.cached = n.prop.cached := by
        by_cases hpass : env.passes e.1 n = true
        · rcases rept_off hpass hobj hoff with hsame | ⟨hlost, hmalloc⟩
          · have hquiet : Quiet env n e := fun _ ↦ Or.inl hsame
            exact ⟨hquiet, (hquiet.rept hobj).1⟩
          · have hfinal : ((n.rept env e.2 e.1).1.after env es).prop.cached = none :=
              after_none (type_rept e hobj) hlost hstat
            have hnone : n.prop.cached = none := hcached.symm.trans hfinal
            exact ⟨fun _ ↦ Or.inr ⟨hnone, hmalloc⟩, hlost.trans hnone.symm⟩
        · have hquiet : Quiet env n e := fun h ↦ absurd h hpass
          exact ⟨hquiet, (hquiet.rept hobj).1⟩
      have htail := ih (type_rept e hobj) hstat (hcached.trans hhead.2.symm)
      intro e' he'
      rcases List.mem_cons.mp he' with rfl | hmem
      · exact hhead.1
      · exact (Quiet.congr (rept_fixed n) hhead.2 hstay).mp (htail e' hmem)

theorem after_of_quiet {es : List (DpEntry × ℕ)} (hobj : n.type = .obj)
    (h : ∀ e ∈ es, Quiet env n e) :
    (n.after env es).prop.cached = n.prop.cached ∧ (n.after env es).pvStat = n.pvStat := by
  induction es generalizing n with
  | nil => exact ⟨rfl, rfl⟩
  | cons e es ih =>
      obtain ⟨hcached, hstat⟩ := (h e List.mem_cons_self).rept hobj
      have htail : ∀ e' ∈ es, Quiet env (n.rept env e.2 e.1).1 e' := by
        intro e' he'
        apply (Quiet.congr (rept_fixed n) hcached hstat).mpr
        exact h e' (List.mem_cons_of_mem e he')
      obtain ⟨hcached', hstat'⟩ := ih (type_rept e hobj) htail
      exact ⟨hcached'.trans hcached, hstat'.trans hstat⟩

/-! ## The buffer -/

theorem stored_iff {malloc : Bool} {value : DpValue} {prop : DpProp}
    (hrange : inRange value prop = true) :
    stored malloc value prop = true ↔
      malloc = true ∨ ∀ s, value = .str s → ∃ size, prop.buffer = some size ∧ s.length ≤ size := by
  cases prop <;> cases value <;> simp only [inRange, Bool.false_eq_true] at hrange
  case str.str maxLen curLen cached s =>
    cases cached <;> simp [stored, DpProp.buffer, or_comm]
  all_goals simp [stored]

theorem room_rept {e : DpEntry × ℕ} (hpass : env.passes e.1 n = true) (hobj : n.type = .obj)
    {s : List UInt8} (hvalue : e.1.value = .str s) (len : ℕ) :
    (∃ size, (n.rept env e.2 e.1).1.prop.buffer = some size ∧ len ≤ size) ↔
      if env.malloc e.2 = true then
        len ≤ s.length ∨ ∃ size, n.prop.buffer = some size ∧ len ≤ size
      else ∃ size, n.prop.buffer = some size ∧ max len s.length ≤ size := by
  have hrange := inRange_of_passes hpass hobj
  by_cases hdue : env.due e.1 n = true
  · have hrept := reptNode_obj (i := e.2) hpass hobj
    rw [if_pos hdue] at hrept
    have hprop : (n.rept env e.2 e.1).1.prop =
        (cacheUpdate n.prop e.1.value (env.malloc e.2)).1 := by
      simp only [SchemaNode.rept, hrept]
    rw [hprop]
    cases hstr : n.prop <;> simp only [hstr, hvalue, inRange, Bool.false_eq_true] at hrange
    case str maxLen curLen cached =>
      rw [hvalue]
      cases cached <;> cases env.malloc e.2 <;> simp [cacheUpdate, DpProp.buffer]
      all_goals split_ifs <;> simp <;> omega
  · rw [Bool.not_eq_true] at hdue
    have hstored := stored_of_cached false (cached_of_not_due hdue)
    obtain ⟨size, hbuffer, hfits⟩ :=
      ((stored_iff hrange).mp hstored).resolve_left Bool.false_ne_true s hvalue
    simp only [(rept_not_due hpass hobj hdue).1, hbuffer, Option.some.injEq, exists_eq_left']
    split_ifs <;> omega

theorem value_str {prop : DpProp} {value : DpValue} {s : List UInt8}
    (hstr : inRange (.str s) prop = true) (hrange : inRange value prop = true) :
    ∃ s', value = .str s' := by
  cases prop <;> simp only [inRange, Bool.false_eq_true] at hstr
  cases value <;> simp only [inRange, Bool.false_eq_true] at hrange
  exact ⟨_, rfl⟩

theorem room_after {s : List UInt8} (hobj : n.type = .obj) (hrange : inRange (.str s) n.prop = true)
    (es : List (DpEntry × ℕ)) (len : ℕ) :
    (∃ size, (n.after env es.reverse).prop.buffer = some size ∧ len ≤ size) ↔
      Room env n es len := by
  induction es generalizing len with
  | nil => rfl
  | cons e es ih =>
      have hfixed : (n.after env es.reverse).fixed = n.fixed := after_fixed n _
      have hnode : n.after env (e :: es).reverse =
          ((n.after env es.reverse).rept env e.2 e.1).1 := by
        rw [List.reverse_cons, after_append]
        rfl
      rw [hnode, Room]
      by_cases hpass : env.passes e.1 n = true
      · have hpass' := (passes_fixed hfixed e.1).trans hpass
        have hobj' := (type_of_fixed hfixed).trans hobj
        obtain ⟨s', hvalue⟩ := value_str hrange (inRange_of_passes hpass hobj)
        rw [room_rept hpass' hobj' hvalue, ih, ih, if_pos hpass, hvalue]
        rfl
      · rw [Bool.not_eq_true] at hpass
        rw [(rept_idle ((passes_fixed hfixed e.1).trans hpass)).1, ih, hpass]
        rfl

theorem stored_after {before : List (DpEntry × ℕ)} {e : DpEntry × ℕ}
    (hpass : env.passes e.1 n = true) (hobj : n.type = .obj) :
    stored (env.malloc e.2) e.1.value (n.after env before).prop = true ↔ Kept env n before e := by
  have hrange := inRange_of_passes hpass hobj
  have hrange' : inRange e.1.value (n.after env before).prop = true :=
    (inRange_limits (limits_of_fixed (after_fixed n before))).trans hrange
  rw [stored_iff hrange', Kept]
  apply or_congr_right
  apply forall_congr'
  intro s
  apply imp_congr_right
  intro hvalue
  rw [hvalue] at hrange
  rw [← room_after hobj hrange, List.reverse_reverse]

/-! ## The node of an id -/

theorem prop_of_ne_obj {m : SchemaNode} (hfixed : m.fixed = n.fixed) (hobj : n.type ≠ .obj) :
    m.prop.cached = n.prop.cached := by
  rw [n.zeroed hobj, m.zeroed (by rwa [type_of_fixed hfixed])]

theorem view_after_iff (n : SchemaNode) (es : List (DpEntry × ℕ)) :
    (n.after env es).view = n.view ↔ Restored env n es := by
  constructor
  · intro hview before e behind hsplit hpass hbehind
    have hfixed : (n.after env before).fixed = n.fixed := after_fixed n before
    have hpass' : env.passes e.1 (n.after env before) = true :=
      (passes_fixed hfixed e.1).trans hpass
    have hlast : n.after env es = ((n.after env before).rept env e.2 e.1).1 := by
      rw [hsplit, after_last hbehind]
    simp only [SchemaNode.view, Prod.mk.injEq] at hview
    obtain ⟨hcached, hstat, htime⟩ := hview
    constructor
    · intro hstatistic
      rw [← htime, hlast, rept_timeStamp hpass', if_pos hstatistic]
    · by_cases hlocal : n.pvStat = .local
      · rw [if_pos hlocal]
        intro hobj
        rw [← stored_after hpass hobj, ← hcached, hlast,
          (rept_obj hpass' ((type_of_fixed hfixed).trans hobj)).1]
        by_cases hstored : stored (env.malloc e.2) e.1.value (n.after env before).prop = true
        · exact .inl ⟨if_pos hstored, hstored⟩
        · exact .inr ⟨if_neg hstored, hstored⟩
      · rw [if_neg hlocal]
        have hobj : n.type = .obj := by
          by_contra hne
          apply hlocal
          rw [← hstat, hlast]
          exact (rept_raw hpass' (by rwa [type_of_fixed hfixed])).2.1
        exact ⟨hobj, quiet_of_after hobj (by rwa [hstat]) hcached⟩
  · intro hrestored
    by_cases hpassed : ∃ e ∈ es, env.passes e.1 n = true
    · obtain ⟨before, e, behind, hsplit, hpass, hbehind⟩ := exists_last hpassed
      have hbehind' : ∀ e' ∈ behind, env.passes e'.1 n = false := by
        intro e' he'
        rw [← Bool.not_eq_true]
        exact hbehind e' he'
      obtain ⟨hstatistic, hvalue⟩ := hrestored before e behind hsplit hpass hbehind'
      have hfixed : (n.after env before).fixed = n.fixed := after_fixed n before
      have hpass' : env.passes e.1 (n.after env before) = true :=
        (passes_fixed hfixed e.1).trans hpass
      have hlast : n.after env es = ((n.after env before).rept env e.2 e.1).1 := by
        rw [hsplit, after_last hbehind']
      have htime : (n.after env es).timeStamp = n.timeStamp := by
        by_cases htype : env.reptType = .statRept
        · rw [hlast, rept_timeStamp hpass', if_pos htype, hstatistic htype]
        · exact after_timeStamp es htype
      have hrest : (n.after env es).prop.cached = n.prop.cached ∧
          (n.after env es).pvStat = n.pvStat := by
        by_cases hlocal : n.pvStat = .local
        · rw [if_pos hlocal] at hvalue
          refine ⟨?_, (after_local es hlocal).trans hlocal.symm⟩
          by_cases hobj : n.type = .obj
          · rw [hlast, (rept_obj hpass' ((type_of_fixed hfixed).trans hobj)).1]
            rcases hvalue hobj with ⟨hsame, hkept⟩ | ⟨hnone, hlost⟩
            · rw [if_pos ((stored_after hpass hobj).mpr hkept), hsame]
            · rw [if_neg (mt (stored_after hpass hobj).mp hlost), hnone]
          · exact prop_of_ne_obj (after_fixed n es) hobj
        · rw [if_neg hlocal] at hvalue
          exact after_of_quiet hvalue.1 hvalue.2
      rw [SchemaNode.view, SchemaNode.view, hrest.1, hrest.2, htime]
    · rw [after_idle]
      intro e he
      rw [← Bool.not_eq_true]
      exact fun hpass ↦ hpassed ⟨e, he, hpass⟩

/-! ## The call -/

/-- The data point passes the checks and is due at the node. -/
def Due (env : ReptEnv) (n : SchemaNode) (e : DpEntry × ℕ) : Prop :=
  env.passes e.1 n = true ∧ env.due e.1 n = true

/-- One of the data points is sent.  Retransmissions are, and what passes at a raw node.  Of an
object the first that is due is sent if its string fits into the buffer; there or behind it, what
passes and finds memory is. -/
def Sent (env : ReptEnv) (n : SchemaNode) (es : List (DpEntry × ℕ)) : Prop :=
  if env.reptType = .reTransRept then es ≠ []
  else if n.type = .obj then
    ∃ before e behind, es = before ++ e :: behind ∧ Due env n e ∧ (∀ d ∈ before, ¬Due env n d) ∧
      (stored false e.1.value n.prop = true ∨
        ∃ d ∈ e :: behind, env.passes d.1 n = true ∧ env.malloc d.2 = true)
  else ∃ e ∈ es, env.passes e.1 n = true

/-- The call is accepted (no data point makes it return, and one is sent), or every node is as it
was where the call returns. -/
def AtomicAt (env : ReptEnv) (nodes : List SchemaNode) (dpin : DpReptIn) : Prop :=
  (env.steady nodes dpin.dps = dpin.dps ∧
      ∃ id n, nodeFind nodes id = some n ∧ Sent env n (entriesOf id dpin.dps.zipIdx)) ∨
    ∀ id n, nodeFind nodes id = some n →
      Restored env n (entriesOf id (env.steady nodes dpin.dps).zipIdx)

theorem sends_none (htype : env.reptType ≠ .reTransRept) (hobj : n.type = .obj)
    (hnone : n.prop.cached = none) (es : List (DpEntry × ℕ)) :
    n.Sends env es ↔ ∃ d ∈ es, env.passes d.1 n = true ∧ env.malloc d.2 = true := by
  induction es generalizing n with
  | nil => simp [SchemaNode.Sends]
  | cons e es ih =>
      rw [SchemaNode.Sends, List.exists_mem_cons_iff]
      by_cases hpass : env.passes e.1 n = true
      · obtain ⟨hcached, -, hret⟩ := rept_obj (i := e.2) hpass hobj
        have hstored : stored (env.malloc e.2) e.1.value n.prop = env.malloc e.2 :=
          stored_of_none hnone (inRange_of_passes hpass hobj)
        have hdue : env.due e.1 n = true := by simp [ReptEnv.due, hnone]
        rw [hstored] at hcached hret
        rw [hret, hdue, Bool.true_and]
        by_cases hmalloc : env.malloc e.2 = true
        · simp [hmalloc, hpass]
        · rw [if_neg hmalloc] at hcached
          rw [Bool.not_eq_true] at hmalloc
          simp [ih (type_rept e hobj) hcached, passes_fixed (rept_fixed n), hmalloc]
      · rw [Bool.not_eq_true] at hpass
        obtain ⟨hnode, hret⟩ := rept_idle (i := e.2) hpass
        rw [hnode, hret, ih hobj hnone]
        simp [htype, hpass]

/-- The node stays as it is up to the first data point that is due; when there is no place for that
one, the next that passes needs memory. -/
theorem sends_obj (htype : env.reptType ≠ .reTransRept) (hobj : n.type = .obj)
    (es : List (DpEntry × ℕ)) :
    n.Sends env es ↔ ∃ before e behind, es = before ++ e :: behind ∧ Due env n e ∧
      (∀ d ∈ before, ¬Due env n d) ∧ (stored false e.1.value n.prop = true ∨
        ∃ d ∈ e :: behind, env.passes d.1 n = true ∧ env.malloc d.2 = true) := by
  induction es with
  | nil => simp [SchemaNode.Sends]
  | cons e es ih =>
      rw [SchemaNode.Sends]
      by_cases hdue : Due env n e
      · obtain ⟨hcached, -, hret⟩ := rept_obj (i := e.2) hdue.1 hobj
        rw [hdue.2, Bool.true_and] at hret
        rw [hret]
        by_cases hstored : stored (env.malloc e.2) e.1.value n.prop = true
        · refine iff_of_true (.inl hstored) ⟨[], e, es, rfl, hdue, List.forall_mem_nil _, ?_⟩
          by_cases hmalloc : env.malloc e.2 = true
          · exact .inr ⟨e, List.mem_cons_self, hdue.1, hmalloc⟩
          · rw [Bool.not_eq_true] at hmalloc
            exact .inl (hmalloc ▸ hstored)
        · rw [if_neg hstored] at hcached
          rw [Bool.not_eq_true] at hstored
          have hmalloc := stored_of_malloc hstored
          simp only [sends_none htype (type_rept e hobj) hcached, passes_fixed (rept_fixed n),
            hstored, Bool.false_eq_true, false_or]
          constructor
          · rintro ⟨d, hd, hfound⟩
            exact ⟨[], e, es, rfl, hdue, List.forall_mem_nil _,
              .inr ⟨d, List.mem_cons_of_mem e hd, hfound⟩⟩
          · rintro ⟨before, e', behind, hsplit, -, hbefore, hrest⟩
            cases before with
            | cons a before =>
                obtain ⟨rfl, rfl⟩ := List.cons.inj hsplit
                exact absurd hdue (hbefore e List.mem_cons_self)
            | nil =>
                obtain ⟨rfl, rfl⟩ := List.cons.inj hsplit
                rw [hmalloc] at hstored
                rcases hrest with hfits | ⟨d, hd, hpass, hfound⟩
                · exact absurd hfits (by simp [hstored])
                · rcases List.mem_cons.mp hd with rfl | hd
                  · rw [hmalloc] at hfound
                    cases hfound
                  · exact ⟨d, hd, hpass, hfound⟩
      · have hstay : (n.rept env e.2 e.1).1 = n ∧ (n.rept env e.2 e.1).2 = false := by
          by_cases hpass : env.passes e.1 n = true
          · exact rept_not_due hpass hobj (Bool.not_eq_true _ ▸ fun h ↦ hdue ⟨hpass, h⟩)
          · rw [Bool.not_eq_true] at hpass
            obtain ⟨hnode, hret⟩ := rept_idle (i := e.2) hpass
            exact ⟨hnode, hret.trans (decide_eq_false htype)⟩
        rw [hstay.1, hstay.2, ih]
        constructor
        · rintro (hsent | ⟨before, e', behind, rfl, hdue', hbefore, hrest⟩)
          · cases hsent
          · exact ⟨e :: before, e', behind, rfl, hdue', List.forall_mem_cons.mpr ⟨hdue, hbefore⟩,
              hrest⟩
        · rintro ⟨before, e', behind, hsplit, hdue', hbefore, hrest⟩
          cases before with
          | nil =>
              obtain ⟨rfl, rfl⟩ := List.cons.inj hsplit
              exact absurd hdue' hdue
          | cons a before =>
              obtain ⟨rfl, rfl⟩ := List.cons.inj hsplit
              exact .inr ⟨before, e', behind, rfl, hdue',
                (List.forall_mem_cons.mp hbefore).2, hrest⟩

theorem sends_raw (htype : env.reptType ≠ .reTransRept) (hobj : n.type ≠ .obj)
    (es : List (DpEntry × ℕ)) : n.Sends env es ↔ ∃ e ∈ es, env.passes e.1 n = true := by
  induction es with
  | nil => simp [SchemaNode.Sends]
  | cons e es ih =>
      rw [SchemaNode.Sends, List.exists_mem_cons_iff]
      by_cases hpass : env.passes e.1 n = true
      · exact iff_of_true (.inl (rept_raw hpass hobj).2.2) (.inl hpass)
      · rw [Bool.not_eq_true] at hpass
        obtain ⟨hnode, hret⟩ := rept_idle (i := e.2) hpass
        rw [hnode, hret, ih]
        simp [htype, hpass]

theorem sends_iff (n : SchemaNode) (es : List (DpEntry × ℕ)) : n.Sends env es ↔ Sent env n es := by
  rw [Sent]
  split_ifs with htype hobj
  · cases es with
    | nil => simp [SchemaNode.Sends]
    | cons e es =>
        have hpass : env.passes e.1 n = false := by simp [ReptEnv.passes, htype]
        rw [SchemaNode.Sends, (rept_idle hpass).2]
        simp [htype]
  · exact sends_obj htype hobj es
  · exact sends_raw htype hobj es

/-- A report that is not accepted leaves the nodes as they were exactly when the
data points before its end leave each of them so. -/
theorem dp_rept_valid_check_atomic (env : ReptEnv) (nodes : List SchemaNode) (dpin : DpReptIn) :
    ((dpin.validCheck env nodes).2 ≠ oprtOk →
        (dpin.validCheck env nodes).1.nodes.map SchemaNode.view = nodes.map SchemaNode.view) ↔
      AtomicAt env nodes dpin := by
  have hviews : (dpin.validCheck env nodes).1.nodes.map SchemaNode.view =
    nodes.map SchemaNode.view ↔
      ∀ id n, nodeFind nodes id = some n →
        Restored env n (entriesOf id (env.steady nodes dpin.dps).zipIdx) := by
    rw [validCheck_nodes, nodesAfter, Keyed.map_modifyEach_iff]
    apply forall_congr'
    intro id
    apply forall_congr'
    intro n
    apply imp_congr_right
    intro _
    exact view_after_iff n _
  have hsent : env.steady nodes dpin.dps = dpin.dps → (dpin.listed env nodes ≠ [] ↔
      ∃ id n, nodeFind nodes id = some n ∧ Sent env n (entriesOf id dpin.dps.zipIdx)) := by
    intro hsteady
    have hids : dpin.listed env nodes ≠ [] ↔
        ∃ id, id ∈ (dpin.listed env nodes).map fun dp ↦ dp.id := by
      constructor
      · intro hne
        obtain ⟨dp, hdp⟩ := List.exists_mem_of_ne_nil _ hne
        exact ⟨dp.id, List.mem_map_of_mem hdp⟩
      · rintro ⟨id, hid⟩ hnil
        rw [hnil] at hid
        cases hid
    rw [hids, DpReptIn.listed, hsteady]
    constructor
    · rintro ⟨id, hid⟩
      obtain ⟨n, hfind, hsends⟩ := (mem_reptListed nodes _ id).mp hid
      exact ⟨id, n, hfind, (sends_iff n _).mp hsends⟩
    · rintro ⟨id, n, hfind, hsends⟩
      obtain rfl : (n.id : ℤ) = id := (nodeFind_mem hfind).2
      exact ⟨n.id, (mem_reptListed nodes _ n.id).mpr ⟨n, hfind, (sends_iff n _).mpr hsends⟩⟩
  rw [AtomicAt, ← hviews, imp_iff_not_or, not_not, validCheck_ok_iff]
  apply or_congr_left
  apply and_congr_right
  exact hsent

/-- The switch is cached and waits for its upload, and the level of a wrong type
ends the call. -/
theorem dp_rept_valid_check_not_atomic :
    ¬ (((DpReptIn.ofArray [switchReport, ⟨⟨2, .bool true⟩, 0⟩]).validCheck
          (ReptEnv.obj false false fun _ ↦ true) lampNodes).2 ≠ oprtOk →
        ((DpReptIn.ofArray [switchReport, ⟨⟨2, .bool true⟩, 0⟩]).validCheck
          (ReptEnv.obj false false fun _ ↦ true) lampNodes).1.nodes.map SchemaNode.view =
            lampNodes.map SchemaNode.view) := by
  decide

end TuyaOpen.Schema
