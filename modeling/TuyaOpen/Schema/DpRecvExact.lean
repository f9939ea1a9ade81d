import TuyaOpen.Lib.Splice
import TuyaOpen.Schema.DpRecv

/-!
# What a received message decodes to

The two walks ask different questions of an item: the first whether it names an
object data point, the second whether it takes the way of raw data and whether
the switch over the property type gets through.  Nothing in a walk changes what
the questions are about, so each item counts, writes and decodes or not by the
schema alone, and the record is as good as the three agree.
-/

namespace TuyaOpen.Schema

variable (env : RecvEnv) (preprocess : Bool) (msg : DpRecvMsg)

/-! ## The items of a message -/

/-- The value of an item by the type of its property. -/
def decodeValue (node : SchemaNode) (item : CJson) : Option DpValue :=
  match node.prop, item.type with
  | .bool _, .jsonTrue => some (.bool true)
  | .bool _, .jsonFalse => some (.bool false)
  | .int _ _ _, .number => some (.value item.valueint)
  | .str _ _ _, .string s => some (.str s)
  | .enum _ _, .string s => (node.ppEnum.findIdx? fun name ↦ name = s).map .enum
  | .bitmap _, .number => some (.bitmap (item.valueint % 2 ^ 32).toNat)
  | _, _ => none

/-- An item that names an object data point and has a value of its type. -/
def decodeItem (nodes : List SchemaNode) (item : CJson) : Option DpObj :=
  (env.find nodes item).bind fun node ↦
    if node.type = .obj then (decodeValue node item).map fun value ↦ ⟨node.id, value⟩ else none

/-- The first walk counts the item. -/
def countsItem (nodes : List SchemaNode) (item : CJson) : Bool :=
  (env.find nodes item).any fun node ↦ decide (node.type = .obj)

/-- The item takes the way of raw data points. -/
def rawItem (nodes : List SchemaNode) (item : CJson) : Bool :=
  (env.find nodes item).any fun node ↦ (rawText node item).isSome

/-- What the second walk writes for the item. -/
def writtenItem (nodes : List SchemaNode) (item : CJson) : Option DpObj :=
  (env.find nodes item).bind fun node ↦
    if (rawText node item).isSome then none
    else (recvValue node item).map fun value ↦ ⟨node.id, value⟩

/-- The items up to the first raw value that there is no memory for; `r` are behind. -/
def reached (nodes : List SchemaNode) : ℕ → List CJson → List CJson
  | _, [] => []
  | r, item :: rest =>
    if rawItem env nodes item then
      if env.mallocRaw r then item :: reached nodes (r + 1) rest else []
    else item :: reached nodes r rest

/-! ## What the walks keep of the nodes -/

/-- The part of a node that the questions are about. -/
def SchemaNode.desc (n : SchemaNode) : ℤ × DpType × DpProp × List (List UInt8) :=
  (n.key, n.type, n.prop, n.ppEnum)

def SameDesc (nodes nodes' : List SchemaNode) : Prop :=
  nodes'.map SchemaNode.desc = nodes.map SchemaNode.desc

variable {env} {nodes nodes' : List SchemaNode}

theorem SameDesc.nodeSet {f : SchemaNode → SchemaNode} (h : ∀ n, (f n).desc = n.desc)
    (nodes : List SchemaNode) (id : ℤ) : SameDesc nodes (nodeSet nodes id f) :=
  Keyed.map_modify fun n _ ↦ h n

theorem SameDesc.trans {nodes'' : List SchemaNode} (h : SameDesc nodes nodes')
    (h' : SameDesc nodes' nodes'') : SameDesc nodes nodes'' :=
  Eq.trans h' h

theorem query_desc (n : SchemaNode) : (n.query preprocess).desc = n.desc := by
  rw [SchemaNode.query]
  split_ifs <;> rfl

theorem map_desc_nodeFind (nodes : List SchemaNode) (id : ℤ) :
    (nodeFind nodes id).map SchemaNode.desc =
      (nodes.map SchemaNode.desc).find? fun d ↦ d.1 = id := by
  rw [List.find?_map]
  rfl

theorem SameDesc.find (h : SameDesc nodes nodes') (item : CJson) :
    (env.find nodes' item).map SchemaNode.desc = (env.find nodes item).map SchemaNode.desc := by
  cases hname : item.string with
  | none => simp [RecvEnv.find, hname]
  | some name =>
      rw [RecvEnv.find, RecvEnv.find, hname, Option.bind_some, Option.bind_some,
        map_desc_nodeFind, map_desc_nodeFind, h]

theorem SameDesc.find_cases (env : RecvEnv) (h : SameDesc nodes nodes') (item : CJson) :
    (env.find nodes item = none ∧ env.find nodes' item = none) ∨
      ∃ n n' : SchemaNode, env.find nodes item = some n ∧ env.find nodes' item = some n' ∧
        n'.desc = n.desc := by
  have hfind : (env.find nodes' item).map SchemaNode.desc =
      (env.find nodes item).map SchemaNode.desc := h.find item
  cases hold : env.find nodes item with
  | none =>
      rw [hold, Option.map_none, Option.map_eq_none_iff] at hfind
      exact Or.inl ⟨rfl, hfind⟩
  | some n =>
      rw [hold, Option.map_some, Option.map_eq_some_iff] at hfind
      obtain ⟨n', hnew, hdesc⟩ := hfind
      exact Or.inr ⟨n, n', rfl, hnew, hdesc⟩

theorem recvValue_desc {n n' : SchemaNode} (h : n'.desc = n.desc) (item : CJson) :
    recvValue n' item = recvValue n item := by
  simp only [SchemaNode.desc, Prod.mk.injEq] at h
  rw [recvValue, recvValue, h.2.2.1, h.2.2.2]

theorem rawText_desc {n n' : SchemaNode} (h : n'.desc = n.desc) (item : CJson) :
    rawText n' item = rawText n item := by
  simp only [SchemaNode.desc, Prod.mk.injEq] at h
  rw [rawText, rawText, h.2.1]

theorem id_desc {n n' : SchemaNode} (h : n'.desc = n.desc) : n'.id = n.id := by
  have hkey : (n'.id : ℤ) = n.id := congrArg Prod.fst h
  exact_mod_cast hkey

theorem type_desc {n n' : SchemaNode} (h : n'.desc = n.desc) : n'.type = n.type :=
  congrArg (fun d ↦ d.2.1) h

theorem SameDesc.writtenItem (h : SameDesc nodes nodes') :
    writtenItem env nodes' = writtenItem env nodes := by
  funext item
  rcases h.find_cases env item with ⟨hold, hnew⟩ | ⟨n, n', hold, hnew, hdesc⟩
  · rw [Schema.writtenItem, Schema.writtenItem, hold, hnew]
  · rw [Schema.writtenItem, Schema.writtenItem, hold, hnew, Option.bind_some, Option.bind_some,
      rawText_desc hdesc, recvValue_desc hdesc, id_desc hdesc]

theorem SameDesc.countsItem (h : SameDesc nodes nodes') :
    countsItem env nodes' = countsItem env nodes := by
  funext item
  rcases h.find_cases env item with ⟨hold, hnew⟩ | ⟨n, n', hold, hnew, hdesc⟩
  · rw [Schema.countsItem, Schema.countsItem, hold, hnew]
  · rw [Schema.countsItem, Schema.countsItem, hold, hnew, Option.any_some, Option.any_some,
      type_desc hdesc]

theorem SameDesc.rawItem (h : SameDesc nodes nodes') :
    rawItem env nodes' = rawItem env nodes := by
  funext item
  rcases h.find_cases env item with ⟨hold, hnew⟩ | ⟨n, n', hold, hnew, hdesc⟩
  · rw [Schema.rawItem, Schema.rawItem, hold, hnew]
  · rw [Schema.rawItem, Schema.rawItem, hold, hnew, Option.any_some, Option.any_some,
      rawText_desc hdesc]

theorem SameDesc.reached (h : SameDesc nodes nodes') (r : ℕ) (items : List CJson) :
    reached env nodes' r items = reached env nodes r items := by
  induction items generalizing r with
  | nil => rfl
  | cons item rest ih =>
      rw [Schema.reached, Schema.reached, h.rawItem]
      split_ifs
      · rw [ih]
      · rfl
      · rw [ih]

/-! ## The two walks -/

theorem recvCountLoop_skip (dpscnt : ℕ) {item : CJson} (rest : List CJson) {name : List UInt8}
    (hname : item.string = some name) (hnode : nodeFind nodes (env.atoi name) = none) :
    recvCountLoop env preprocess dpscnt (item :: rest) nodes =
      recvCountLoop env preprocess dpscnt rest nodes := by
  simp only [recvCountLoop, hname, hnode]

theorem recvCountLoop_found (dpscnt : ℕ) {item : CJson} (rest : List CJson) {name : List UInt8}
    {node : SchemaNode} (hname : item.string = some name)
    (hnode : nodeFind nodes (env.atoi name) = some node) :
    recvCountLoop env preprocess dpscnt (item :: rest) nodes =
      recvCountLoop env preprocess (if node.type = .obj then (dpscnt + 1) % 2 ^ 16 else dpscnt) rest
        (nodeSet nodes (env.atoi name) (SchemaNode.query preprocess)) := by
  simp only [recvCountLoop, hname, hnode]

theorem find_of_name {item : CJson} {name : List UInt8} (hname : item.string = some name) :
    env.find nodes item = nodeFind nodes (env.atoi name) := by
  rw [RecvEnv.find, hname, Option.bind_some]

theorem recvCountLoop_named (dpscnt : ℕ) {items : List CJson}
    (hnamed : ∀ item ∈ items, item.string.isSome) (hdpscnt : dpscnt < 2 ^ 16) :
    ∃ nodes', recvCountLoop env preprocess dpscnt items nodes =
        some ((dpscnt + items.countP (countsItem env nodes)) % 2 ^ 16, nodes') ∧
      SameDesc nodes nodes' := by
  induction items generalizing dpscnt nodes with
  | nil =>
      refine ⟨nodes, ?_, rfl⟩
      rw [recvCountLoop, List.countP_nil, Nat.add_zero, Nat.mod_eq_of_lt hdpscnt]
  | cons item rest ih =>
      obtain ⟨name, hname⟩ := Option.isSome_iff_exists.mp (hnamed item List.mem_cons_self)
      have hrest : ∀ item ∈ rest, item.string.isSome := fun i hi ↦
        hnamed i (List.mem_cons_of_mem _ hi)
      cases hnode : nodeFind nodes (env.atoi name) with
      | none =>
          have hcounts : ¬ countsItem env nodes item = true := by
            rw [countsItem, find_of_name hname, hnode]
            simp
          rw [recvCountLoop_skip preprocess dpscnt rest hname hnode,
            List.countP_cons_of_neg hcounts]
          exact ih dpscnt hrest hdpscnt
      | some node =>
          have hcounts : countsItem env nodes item = decide (node.type = .obj) := by
            rw [countsItem, find_of_name hname, hnode, Option.any_some]
          have hsame : SameDesc nodes
              (nodeSet nodes (env.atoi name) (SchemaNode.query preprocess)) :=
            SameDesc.nodeSet (query_desc preprocess) nodes _
          rw [recvCountLoop_found preprocess dpscnt rest hname hnode]
          by_cases hobj : node.type = .obj
          · obtain ⟨nodes', hloop, hdesc⟩ :=
              ih ((dpscnt + 1) % 2 ^ 16) hrest (Nat.mod_lt _ (by decide))
            refine ⟨nodes', ?_, hsame.trans hdesc⟩
            rw [if_pos hobj, hloop, hsame.countsItem, Nat.mod_add_mod,
              List.countP_cons_of_pos (by rw [hcounts]; simpa using hobj), Nat.add_right_comm,
              Nat.add_assoc]
          · obtain ⟨nodes', hloop, hdesc⟩ := ih dpscnt hrest hdpscnt
            refine ⟨nodes', ?_, hsame.trans hdesc⟩
            rw [if_neg hobj, hloop, hsame.countsItem,
              List.countP_cons_of_neg (by rw [hcounts]; simpa using hobj)]

theorem recvCountLoop_nameless (dpscnt : ℕ) {items : List CJson}
    (h : ∃ item ∈ items, item.string = none) :
    recvCountLoop env preprocess dpscnt items nodes = none := by
  induction items generalizing dpscnt nodes with
  | nil => simp at h
  | cons item rest ih =>
      cases hname : item.string with
      | none => simp only [recvCountLoop, hname]
      | some name =>
          have hrest : ∃ item ∈ rest, item.string = none := by
            obtain ⟨other, hother, hnone⟩ := h
            rcases List.mem_cons.mp hother with rfl | htail
            · rw [hname] at hnone
              cases hnone
            · exact ⟨other, htail, hnone⟩
          cases hnode : nodeFind nodes (env.atoi name) with
          | none =>
              rw [recvCountLoop_skip preprocess dpscnt rest hname hnode]
              exact ih dpscnt hrest
          | some node =>
              rw [recvCountLoop_found preprocess dpscnt rest hname hnode]
              exact ih _ hrest

/-- A walk that begins at entry `i` writes `objs` there, one behind the other,
and comes to its end or runs out of memory. -/
structure RecvWalk.Wrote (walk : RecvWalk) (i : ℕ) (objs : List DpObj) (whole : Prop) : Prop where
  indices : walk.writes.map Prod.fst = List.range' i objs.length
  entries : (walk.writes.map fun w ↦ w.2.toDpObj) = objs
  stop : (walk.stop = .finished ∧ whole) ∨ (walk.stop = .noMemory ∧ ¬ whole)

theorem RecvWalk.Wrote.callback {walk : RecvWalk} {i : ℕ} {objs : List DpObj} {whole : Prop}
    (h : walk.Wrote i objs whole) (raw : DpRawRecv) : (walk.callback raw).Wrote i objs whole :=
  ⟨h.indices, h.entries, h.stop⟩

theorem RecvWalk.Wrote.write {walk : RecvWalk} {i : ℕ} {objs : List DpObj} {whole : Prop}
    (h : walk.Wrote (i + 1) objs whole) (e : DpEntry) :
    (walk.write (i, e)).Wrote i (e.toDpObj :: objs) whole where
  indices := by rw [RecvWalk.write, List.map_cons, h.indices, List.length_cons, List.range'_succ]
  entries := by rw [RecvWalk.write, List.map_cons, h.entries]
  stop := h.stop

theorem reached_raw {r : ℕ} {item : CJson} {rest : List CJson} (h : rawItem env nodes item = true) :
    reached env nodes r (item :: rest) =
      if env.mallocRaw r then item :: reached env nodes (r + 1) rest else [] := by
  rw [reached, if_pos h]

theorem reached_other {r : ℕ} {item : CJson} {rest : List CJson}
    (h : ¬ rawItem env nodes item = true) :
    reached env nodes r (item :: rest) = item :: reached env nodes r rest := by
  rw [reached, if_neg h]

theorem setLocal_desc (n : SchemaNode) : ({ n with pvStat := .local } : SchemaNode).desc = n.desc :=
  rfl

theorem recvLoop_wrote (i r : ℕ) {items : List CJson}
    (hnamed : ∀ item ∈ items, item.string.isSome) :
    (recvLoop env msg i r items nodes).Wrote i
      ((reached env nodes r items).filterMap (writtenItem env nodes))
      (reached env nodes r items = items) := by
  induction items generalizing i r nodes with
  | nil => exact ⟨rfl, rfl, Or.inl ⟨rfl, rfl⟩⟩
  | cons item rest ih =>
      obtain ⟨name, hname⟩ := Option.isSome_iff_exists.mp (hnamed item List.mem_cons_self)
      have hrest : ∀ item ∈ rest, item.string.isSome := fun i hi ↦
        hnamed i (List.mem_cons_of_mem _ hi)
      cases hnode : nodeFind nodes (env.atoi name) with
      | none =>
          have hraw : ¬ rawItem env nodes item = true := by
            simp [rawItem, find_of_name hname, hnode]
          have hwritten : writtenItem env nodes item = none := by
            simp [writtenItem, find_of_name hname, hnode]
          have hstep : recvLoop env msg i r (item :: rest) nodes =
              recvLoop env msg i r rest nodes := by
            simp only [recvLoop, hname, hnode]
          rw [hstep, reached_other hraw, List.filterMap_cons_none hwritten, List.cons_inj_right]
          exact ih i r hrest
      | some node =>
          cases htext : rawText node item with
          | some valuestring =>
              have hraw : rawItem env nodes item = true := by
                simp [rawItem, find_of_name hname, hnode, htext]
              have hwritten : writtenItem env nodes item = none := by
                simp [writtenItem, find_of_name hname, hnode, htext]
              simp only [recvLoop, hname, hnode, htext]
              rw [reached_raw hraw]
              by_cases hmalloc : env.mallocRaw r = true
              · rw [if_pos hmalloc, if_pos hmalloc, List.filterMap_cons_none hwritten,
                  List.cons_inj_right]
                exact (ih i (r + 1) hrest).callback _
              · rw [if_neg hmalloc, if_neg hmalloc]
                exact ⟨rfl, rfl, Or.inr ⟨rfl, by simp⟩⟩
          | none =>
              have hraw : ¬ rawItem env nodes item = true := by
                simp [rawItem, find_of_name hname, hnode, htext]
              have hwritten : writtenItem env nodes item =
                  (recvValue node item).map fun value ↦ ⟨node.id, value⟩ := by
                simp [writtenItem, find_of_name hname, hnode, htext]
              have hsame : SameDesc nodes
                  (nodeSet nodes (env.atoi name) fun n ↦ { n with pvStat := .local }) :=
                SameDesc.nodeSet setLocal_desc nodes _
              rw [reached_other hraw, List.cons_inj_right, ← hsame.reached, ← hsame.writtenItem]
              cases hvalue : recvValue node item with
              | none =>
                  rw [hvalue, Option.map_none, ← hsame.writtenItem] at hwritten
                  simp only [recvLoop, hname, hnode, htext, hvalue]
                  rw [List.filterMap_cons_none hwritten]
                  exact ih i r hrest
              | some value =>
                  rw [hvalue, Option.map_some, ← hsame.writtenItem] at hwritten
                  simp only [recvLoop, hname, hnode, htext, hvalue]
                  rw [List.filterMap_cons_some hwritten]
                  exact (ih (i + 1) r hrest).write _

/-! ## The record -/

theorem foldlM_writeDps {writes : List (ℕ × DpEntry)} {i : ℕ} {dps : List DpEntry}
    (hindices : writes.map Prod.fst = List.range' i writes.length) (hi : i ≤ dps.length) :
    writes.foldlM writeDps dps =
      if i + writes.length ≤ dps.length then some (dps.splice i (writes.map Prod.snd))
        else none := by
  induction writes generalizing i dps with
  | nil => simp [hi]
  | cons w rest ih =>
      rw [List.map_cons, List.length_cons, List.range'_succ, List.cons.injEq] at hindices
      obtain ⟨rfl, hrest⟩ := hindices
      rw [List.foldlM_cons, writeDps]
      by_cases hlt : w.1 < dps.length
      · rw [if_pos hlt]
        have hset : w.1 + 1 ≤ (dps.set w.1 w.2).length := by
          rw [List.length_set]
          exact hlt
        change rest.foldlM writeDps (dps.set w.1 w.2) = _
        rw [ih hrest hset, List.length_set, List.length_cons]
        by_cases hfit : w.1 + 1 + rest.length ≤ dps.length
        · rw [if_pos hfit, if_pos (by omega), List.splice_set hlt, List.map_cons]
        · rw [if_neg hfit, if_neg (by omega)]
      · rw [if_neg hlt, if_neg (by rw [List.length_cons]; omega)]
        rfl

theorem RecvWalk.Wrote.record {walk : RecvWalk} {objs : List DpObj} {whole : Prop}
    (h : walk.Wrote 0 objs whole) (dpscnt : ℕ) :
    (dpscnt < objs.length ∧
        walk.writes.foldlM writeDps (List.replicate dpscnt DpEntry.zero) = none) ∨
      ∃ dps, objs.length ≤ dpscnt ∧
        walk.writes.foldlM writeDps (List.replicate dpscnt DpEntry.zero) = some dps ∧
        dps.length = dpscnt ∧
        dps.map DpEntry.toDpObj =
          objs ++ List.replicate (dpscnt - objs.length) DpEntry.zero.toDpObj := by
  have hlength : walk.writes.length = objs.length := by
    rw [← h.entries, List.length_map]
  have hindices : walk.writes.map Prod.fst = List.range' 0 walk.writes.length := by
    rw [h.indices, hlength]
  rw [foldlM_writeDps hindices (Nat.zero_le _), hlength, List.length_replicate, Nat.zero_add]
  by_cases hfit : objs.length ≤ dpscnt
  · refine Or.inr ⟨_, hfit, if_pos hfit, ?_, ?_⟩
    · rw [List.length_splice (by simpa [hlength] using hfit), List.length_replicate]
    · have hobjs : (walk.writes.map Prod.snd).map DpEntry.toDpObj = objs := by
        rw [List.map_map]
        exact h.entries
      rw [List.splice, List.take_zero, List.nil_append, List.map_append, hobjs, Nat.zero_add,
        List.length_map, hlength, List.drop_replicate, List.map_replicate]
  · exact Or.inl ⟨Nat.lt_of_not_le hfit, if_neg hfit⟩

end TuyaOpen.Schema
