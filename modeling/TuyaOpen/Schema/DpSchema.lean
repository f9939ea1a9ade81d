import TuyaOpen.Common.ErrorCode
import Mathlib.Data.List.Basic

/-!
# Data points and their cache, `dp_schema.c`

A schema is the list of the data points of a device, each with the cached
value and its upload status.  A report goes through the schema first: it
updates the cache and lists the data points that are worth sending.
-/

namespace TuyaOpen.Schema

inductive DpType
  | obj
  | raw
  | file
  deriving DecidableEq

inductive DpMode
  | rw
  | wr
  | ro
  deriving DecidableEq

inductive DpTrig
  | pulse
  | direct
  deriving DecidableEq

inductive DpPsv
  | psvFalse
  | psvTrue
  | psvFOnce
  deriving DecidableEq

inductive PvStat
  | invalid
  | local
  | uling
  | cloud
  deriving DecidableEq

inductive DpReptType
  | objRept
  | rawRept
  | statRept
  | reTransRept
  deriving DecidableEq

/-- The value of a report; its constructor is the `type` field. -/
inductive DpValue
  | bool (b : Bool)
  | value (v : ℤ)
  | str (s : List UInt8)
  | enum (e : ℕ)
  | bitmap (b : ℕ)
  deriving DecidableEq

structure DpObj where
  id : ℕ
  value : DpValue
  deriving DecidableEq

/-- The property of a data point with its cached value; the constructor is the
`prop_tp` field, and a string may not be there. -/
inductive DpProp
  | bool (value : Bool)
  | int (min max value : ℤ)
  | str (maxLen curLen : ℕ) (value : Option (List UInt8))
  | enum (cnt value : ℕ)
  | bitmap (value : ℕ)
  deriving DecidableEq

structure DpNode where
  id : ℕ
  mode : DpMode
  passive : DpPsv
  type : DpType
  trig : DpTrig
  prop : DpProp
  pvStat : PvStat
  deriving DecidableEq

def DpProp.cached : DpProp → Option DpValue
  | .bool value => some (.bool value)
  | .int _ _ value => some (.value value)
  | .str _ _ value => value.map .str
  | .enum _ value => some (.enum value)
  | .bitmap value => some (.bitmap value)

def sameType : DpValue → DpProp → Bool
  | .bool _, .bool _ => true
  | .value _, .int _ _ _ => true
  | .str _, .str _ _ _ => true
  | .enum _, .enum _ _ => true
  | .bitmap _, .bitmap _ => true
  | _, _ => false

def dpNodeFind (nodes : List DpNode) (id : ℕ) : Option DpNode := nodes.find? fun n ↦ n.id = id

def dpNodeSet (nodes : List DpNode) (id : ℕ) (f : DpNode → DpNode) : List DpNode :=
  match nodes with
  | [] => []
  | n :: rest => if n.id = id then f n :: rest else n :: dpNodeSet rest id f

def dpPvStatSet (nodes : List DpNode) (id : ℕ) (pvStat : PvStat) : List DpNode :=
  dpNodeSet nodes id fun n ↦ { n with pvStat := pvStat }

/-! ## Reports -/

/-- A bitmap never passes: its check compares `type` with a constant of the
JSON library that no property type has. -/
def dpTypeCheck (reptType : DpReptType) (dp : DpObj) (node : DpNode) : Bool :=
  if node.mode = .wr ∨ (node.type ≠ .obj ∧ reptType = .objRept) ∨
      (node.type ≠ .raw ∧ reptType = .rawRept) then false
  else match node.type with
    | .obj => match dp.value, node.prop with
      | .bool _, .bool _ => true
      | .value v, .int min max _ => decide (¬ (v > max ∨ v < min))
      | .str s, .str maxLen _ _ => decide (s.length ≤ maxLen)
      | .enum e, .enum cnt _ => decide (e < cnt)
      | _, _ => false
    | .raw => true
    | .file => false

/-- The cached value differs from the reported one; an enumeration that is out
of range is not compared. -/
def valueChanged (prop : DpProp) (value : DpValue) : Bool :=
  match prop, value with
  | .enum cnt cached, .enum e => decide (e < cnt) && decide (cached ≠ e)
  | prop, value => decide (prop.cached ≠ some value)

/-- The cache after an update that was found needed, and whether it still is;
only a string can fail, for want of memory. -/
def cacheUpdate (prop : DpProp) (value : DpValue) (malloc : Bool) : DpProp × Bool :=
  match prop, value with
  | .bool _, .bool b => (.bool b, true)
  | .int min max _, .value v => (.int min max v, true)
  | .str maxLen curLen cached, .str s =>
    if cached = none ∨ curLen < s.length then
      if malloc then (.str maxLen s.length (some s), true)
      else (.str maxLen s.length none, false)
    else (.str maxLen curLen (some s), true)
  | .enum cnt cached, .enum e => (.enum cnt (if e < cnt then e else cached), true)
  | .bitmap _, .bitmap b => (.bitmap b, true)
  | prop, _ => (prop, true)

def dpReptUpdate (reptType : DpReptType) (dp : DpObj) (node : DpNode) (noFilter malloc : Bool) :
    DpNode × Bool :=
  match node.type with
  | .obj =>
    let forced := node.pvStat = .invalid ∨ node.pvStat = .local ∨ node.trig = .direct ∨
      reptType = .statRept ∨ noFilter = true
    if forced ∨ valueChanged node.prop dp.value = true then
      let r := cacheUpdate node.prop dp.value malloc
      ({ node with prop := r.1, pvStat := if r.2 then .local else node.pvStat }, r.2)
    else (node, false)
  | .raw => ({ node with pvStat := .local }, true)
  | .file => (node, false)

/-- One data point of a report: its node afterwards, and whether it is sent.  A
retransmission is neither checked nor filtered. -/
def reptNode (preprocess : Bool) (reptType : DpReptType) (noFilter malloc : Bool) (dp : DpObj)
    (node : DpNode) : DpNode × Bool :=
  if reptType = .reTransRept then (node, true)
  else if dpTypeCheck reptType dp node = false then (node, false)
  else if preprocess = true ∧ node.passive = .psvTrue then (node, false)
  else dpReptUpdate reptType dp node noFilter malloc

def enumIllegal (dp : DpObj) (node : DpNode) : Bool :=
  match dp.value, node.prop with
  | .enum e, .enum cnt _ => decide (cnt ≤ e)
  | _, _ => false

/-- The loop of `dp_rept_valid_check`: the nodes after it, the data points it
found worth sending and its code.  `i` numbers the string allocations. -/
def validCheckLoop (preprocess : Bool) (reptType : DpReptType) (noFilter : Bool)
    (malloc : ℕ → Bool) : ℕ → List DpObj → List DpNode → List DpNode × List ℕ × OperateRet
  | _, [], nodes => (nodes, [], oprtOk)
  | i, dp :: rest, nodes =>
    match dpNodeFind nodes dp.id with
    | none => validCheckLoop preprocess reptType noFilter malloc (i + 1) rest nodes
    | some node =>
      if sameType dp.value node.prop = false then (nodes, [], oprtSvcDpTpNotMatch)
      else
        let r := reptNode preprocess reptType noFilter (malloc i) dp node
        let nodes := dpNodeSet nodes dp.id fun _ ↦ r.1
        if r.2 = false then validCheckLoop preprocess reptType noFilter malloc (i + 1) rest nodes
        else if enumIllegal dp node then (nodes, [], oprtSvcDpTypePropIllegal)
        else
          let s := validCheckLoop preprocess reptType noFilter malloc (i + 1) rest nodes
          (s.1, dp.id :: s.2.1, s.2.2)

def dpReptValidCheck (preprocess : Bool) (reptType : DpReptType) (noFilter : Bool)
    (malloc : ℕ → Bool) (dps : List DpObj) (nodes : List DpNode) :
    List DpNode × List ℕ × OperateRet :=
  -- the count of data points is cut to a byte
  let r := validCheckLoop preprocess reptType noFilter malloc 0 (dps.take (dps.length % 256)) nodes
  if r.2.2 = oprtOk ∧ r.2.1 = [] then (r.1, [], oprtSvcDpIdNotFound) else r

/-- A message to the cloud: the data points it is about and the values that
stand in its JSON. -/
structure DpReport where
  dpids : List ℕ
  values : List (ℕ × DpValue)
  deriving DecidableEq

/-- The values of `dp_rept_json_output`: for each data point the first entry of
the report that has its id. -/
def dpReptJsonOutput (dps : List DpObj) (dpids : List ℕ) : DpReport where
  dpids := dpids
  values := dpids.filterMap fun id ↦
    (dps.find? fun dp ↦ dp.id = id).map fun dp ↦ (id, dp.value)

/-! ## The dump of what is not in the cloud -/

def isLocalObj (n : DpNode) : Bool := decide (n.type = .obj) && decide (n.pvStat ≠ .cloud)

/-- The nodes that the dump lists: as many as there are object nodes to send,
counted in the order of the schema over everything but the object nodes that
are in the cloud. -/
def dumpNodes (nodes : List DpNode) : List DpNode :=
  (nodes.filter fun n ↦ ! (decide (n.type = .obj) && decide (n.pvStat = .cloud))).take
    (nodes.countP isLocalObj)

/-- Which allocations of the dump succeed: the JSON object, the list of ids, the
text of the object and its copy. -/
structure DumpEnv where
  object : Bool
  dpvalid : Bool
  print : Bool
  out : Bool
  deriving DecidableEq

/-- Without the copy of the text the dump succeeds and there is nothing to send. -/
def dpObjDumpStatLocalJson (env : DumpEnv) (nodes : List DpNode) : OperateRet × Option DpReport :=
  if nodes.countP isLocalObj = 0 then (oprtOk, none)
  else if env.object = false ∨ env.dpvalid = false then (oprtMallocFailed, none)
  else if (dumpNodes nodes).all fun n ↦ n.prop.cached.isNone then (oprtSvcDpIdNotFound, none)
  else if env.print = false then (oprtCrCjsonErr, none)
  else if env.out = false then (oprtOk, none)
  else
    (oprtOk, some
      { dpids := (dumpNodes nodes).map DpNode.id
        values := (dumpNodes nodes).filterMap fun n ↦ n.prop.cached.map fun v ↦ (n.id, v) })

/-! ## Lookup and update -/

theorem dpNodeFind_dpNodeSet {nodes : List DpNode} {id : ℕ} {f : DpNode → DpNode}
    (hf : ∀ n, n.id = id → (f n).id = id) (id' : ℕ) :
    dpNodeFind (dpNodeSet nodes id f) id' =
      if id' = id then (dpNodeFind nodes id).map f else dpNodeFind nodes id' := by
  induction nodes with
  | nil => simp [dpNodeSet, dpNodeFind]
  | cons n rest ih =>
      rw [dpNodeSet]
      simp only [dpNodeFind] at ih ⊢
      by_cases hn : n.id = id
      · have hfn : (f n).id = id := hf n hn
        by_cases hid : id' = id
        · simp [hn, hfn, hid]
        · have hne : ¬ id = id' := fun h ↦ hid h.symm
          simp [hn, hfn, hid, hne]
      · rw [if_neg hn, List.find?_cons, List.find?_cons, List.find?_cons, ih]
        by_cases hid : id' = id
        · subst hid
          simp [hn]
        · simp [hid]

theorem mem_dpNodeSet {nodes : List DpNode} {id : ℕ} {f : DpNode → DpNode} {m : DpNode}
    (h : m ∈ dpNodeSet nodes id f) :
    m ∈ nodes ∨ ∃ n, dpNodeFind nodes id = some n ∧ m = f n := by
  induction nodes with
  | nil => simp [dpNodeSet] at h
  | cons n rest ih =>
      rw [dpNodeSet] at h
      split_ifs at h with hid
      · rcases List.mem_cons.mp h with rfl | hm
        · exact Or.inr ⟨n, by simp [dpNodeFind, hid], rfl⟩
        · exact Or.inl (by simp [hm])
      · rcases List.mem_cons.mp h with rfl | hm
        · exact Or.inl (by simp)
        · rcases ih hm with hold | ⟨n', hfind, rfl⟩
          · exact Or.inl (by simp [hold])
          · refine Or.inr ⟨n', ?_, rfl⟩
            simpa [dpNodeFind, hid] using hfind

theorem dpNodeFind_mem {nodes : List DpNode} {id : ℕ} {n : DpNode}
    (h : dpNodeFind nodes id = some n) : n ∈ nodes ∧ n.id = id :=
  ⟨List.mem_of_find?_eq_some h, by simpa using List.find?_some h⟩

end TuyaOpen.Schema
