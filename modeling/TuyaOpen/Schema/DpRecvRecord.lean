import TuyaOpen.Schema.DpRecvExact

/-!
# The record that a received message leaves

The record has an entry for each item that names an object data point, and the
second walk writes one for each item that gets through the switch.  A data
point that is no object has the property type of a Boolean, so a JSON Boolean
for it is written although no entry was counted; an item of an object data
point with a value of another type was counted and is passed over, or is
written without a value.
-/

namespace TuyaOpen.Schema

variable (env : RecvEnv) (preprocess : Bool) (msg : DpRecvMsg)

/-- The entries that the record is allocated for. -/
def countedItems (nodes : List SchemaNode) (items : List CJson) : ℕ :=
  items.countP (countsItem env nodes) % 2 ^ 16

/-- The switch writes an entry for an object data point. -/
def writesObject (nodes : List SchemaNode) (item : CJson) : Bool :=
  (env.find nodes item).any fun node ↦
    decide (node.type = .obj) && (recvValue node item).isSome

/-- A JSON Boolean for a raw or a file data point. -/
def strayBool (nodes : List SchemaNode) (item : CJson) : Bool :=
  (env.find nodes item).any fun node ↦ decide (node.type ≠ .obj) && item.isBool

/-- The entries that the callback sees. -/
def handedEntries (handed : Option DpObjRecv) : List DpObj :=
  match handed with
  | none => []
  | some record => (record.dps.take record.dpscnt).map DpEntry.toDpObj

variable {env} {nodes : List SchemaNode}

/-! ## One item -/

theorem rawText_isBool {node : SchemaNode} {item : CJson} (h : item.isBool = true) :
    rawText node item = none := by
  rw [CJson.isBool, Bool.or_eq_true, decide_eq_true_iff, decide_eq_true_iff] at h
  rcases h with h | h <;> rw [rawText, h]

theorem rawText_obj {node : SchemaNode} (h : node.type = .obj) (item : CJson) :
    rawText node item = none := by
  rw [rawText]
  split
  · rw [h, if_neg (by decide)]
  · rfl

theorem recvValue_of_ne_obj {node : SchemaNode} (h : node.type ≠ .obj) (item : CJson) :
    (recvValue node item).isSome = item.isBool := by
  rw [recvValue, node.zeroed h]
  by_cases hbool : item.isBool = true
  · simp [hbool]
  · simp [hbool]

theorem isSome_writtenItem (item : CJson) :
    (writtenItem env nodes item).isSome =
    (writesObject env nodes item || strayBool env nodes item) := by
  rw [writtenItem, writesObject, strayBool]
  cases env.find nodes item with
  | none => rfl
  | some node =>
      rw [Option.bind_some, Option.any_some, Option.any_some]
      by_cases hobj : node.type = .obj
      · simp [rawText_obj hobj, hobj]
      · have hvalue : (recvValue node item).isSome = item.isBool := recvValue_of_ne_obj hobj item
        by_cases hbool : item.isBool = true
        · simp [rawText_isBool hbool, hobj, hvalue]
        · rw [Bool.not_eq_true] at hbool
          split_ifs
          · simp [hobj, hbool]
          · simp [hobj, hvalue]

theorem not_strayBool_of_writesObject {item : CJson} (h : writesObject env nodes item = true) :
    strayBool env nodes item = false := by
  rw [writesObject] at h
  rw [strayBool]
  cases hfind : env.find nodes item with
  | none => rfl
  | some node =>
      rw [hfind, Option.any_some, Bool.and_eq_true, decide_eq_true_iff] at h
      simp [h.1]

theorem countP_written (items : List CJson) :
    (items.filterMap (writtenItem env nodes)).length =
      items.countP (writesObject env nodes) + items.countP (strayBool env nodes) := by
  rw [List.length_filterMap_eq_countP]
  induction items with
  | nil => rfl
  | cons item rest ih =>
      rw [List.countP_cons, List.countP_cons, List.countP_cons, ih, isSome_writtenItem]
      cases hobject : writesObject env nodes item with
      | true => rw [not_strayBool_of_writesObject hobject]; simp; omega
      | false =>
          cases strayBool env nodes item with
          | true => simp; omega
          | false => simp

theorem recvValue_of_decodeValue {node : SchemaNode} {item : CJson} {value : DpValue}
    (h : decodeValue node item = some value) : recvValue node item = some value := by
  rw [decodeValue] at h
  rw [recvValue]
  split at h
  case h_1 hprop htype => simp [hprop, CJson.isBool, htype, ← h]
  case h_2 hprop htype => simp [hprop, CJson.isBool, htype, ← h]
  case h_3 hprop htype => simp [hprop, htype, ← h]
  case h_4 hprop htype => simp [hprop, htype, ← h]
  case h_5 hprop htype => simp [hprop, htype, h]
  case h_6 hprop htype => simp [hprop, ← h]
  case h_7 => cases h

theorem writtenItem_of_decodeItem {item : CJson} {obj : DpObj}
    (h : decodeItem env nodes item = some obj) : writtenItem env nodes item = some obj := by
  rw [decodeItem] at h
  rw [writtenItem]
  cases hfind : env.find nodes item with
  | none => rw [hfind] at h; cases h
  | some node =>
      rw [hfind, Option.bind_some] at h
      rw [Option.bind_some]
      split_ifs at h with hobj
      obtain ⟨value, hvalue, rfl⟩ := Option.map_eq_some_iff.mp h
      rw [rawText_obj hobj, recvValue_of_decodeValue hvalue]
      rfl

/-! ## The call -/

section Call

variable (preprocess : Bool) (msg : DpRecvMsg) {items : List CJson}

theorem parse_nameless (h : ∃ item ∈ items, item.string = none) :
    (dpDataRecvParse env preprocess msg (some nodes) (some items)).writes = [] := by
  rw [dpDataRecvParse, recvCountLoop_nameless preprocess 0 h]

theorem parse_noRecord (hnamed : ∀ item ∈ items, item.string.isSome)
    (h : countedItems env nodes items ≠ 0 ∧ env.mallocDpobj = false) :
    (dpDataRecvParse env preprocess msg (some nodes) (some items)).writes = [] ∧
      (dpDataRecvParse env preprocess msg (some nodes) (some items)).result =
        some (oprtMallocFailed, none) := by
  obtain ⟨nodes', hcount, -⟩ := @recvCountLoop_named env preprocess nodes 0
    items hnamed (by decide)
  rw [Nat.zero_add, ← countedItems] at hcount
  rw [dpDataRecvParse, hcount]
  dsimp only
  rw [if_pos h]
  exact ⟨rfl, rfl⟩

theorem parse_record (hnamed : ∀ item ∈ items, item.string.isSome)
    (h : ¬ (countedItems env nodes items ≠ 0 ∧ env.mallocDpobj = false)) :
    ∃ walk : RecvWalk,
      walk.Wrote 0 ((reached env nodes 0 items).filterMap (writtenItem env nodes))
        (reached env nodes 0 items = items) ∧
      (dpDataRecvParse env preprocess msg (some nodes) (some items)).dpscnt =
        countedItems env nodes items ∧
      (dpDataRecvParse env preprocess msg (some nodes) (some items)).allocated =
        decide (countedItems env nodes items ≠ 0) ∧
      (dpDataRecvParse env preprocess msg (some nodes) (some items)).writes = walk.writes ∧
      (dpDataRecvParse env preprocess msg (some nodes) (some items)).result =
        (walk.writes.foldlM writeDps
          (List.replicate (countedItems env nodes items) DpEntry.zero)).bind fun dps ↦
            match walk.stop with
            | .finished => some (oprtOk, RecvCall.handed msg (countedItems env nodes items) dps)
            | .noMemory => some (oprtOk, none)
            | .nullName => none := by
  obtain ⟨nodes', hcount, hsame⟩ := @recvCountLoop_named env preprocess nodes 0
    items hnamed (by decide)
  rw [Nat.zero_add, ← countedItems] at hcount
  refine ⟨recvLoop env msg 0 0 items nodes', ?_, ?_⟩
  · rw [← hsame.reached, ← hsame.writtenItem]
    exact recvLoop_wrote msg 0 0 hnamed
  · rw [dpDataRecvParse, hcount]
    dsimp only
    rw [if_neg h]
    exact ⟨rfl, rfl, rfl, rfl⟩

end Call

/-- The call stays inside the record: a null name ends it, there is no memory
for the record, or the entries that are written are not more than the items
that were counted.  The written ones are the object data points whose switch
gets through and the Booleans that came for raw and file data points. -/
def RecvFits (env : RecvEnv) (nodes : List SchemaNode) (items : List CJson) : Prop :=
  (∃ item ∈ items, item.string = none) ∨
    (countedItems env nodes items ≠ 0 ∧ env.mallocDpobj = false) ∨
    (reached env nodes 0 items).countP (writesObject env nodes) +
      (reached env nodes 0 items).countP (strayBool env nodes) ≤ countedItems env nodes items

/-- The second walk writes inside the record that was allocated exactly when
the items fit. -/
theorem dp_data_recv_parse_in_bounds (env : RecvEnv) (preprocess : Bool) (msg : DpRecvMsg)
    (nodes : List SchemaNode) (items : List CJson) :
    (∀ w ∈ (dpDataRecvParse env preprocess msg (some nodes) (some items)).writes,
      (dpDataRecvParse env preprocess msg (some nodes) (some items)).allocated = true ∧
        w.1 < (dpDataRecvParse env preprocess msg (some nodes) (some items)).dpscnt) ↔
      RecvFits env nodes items := by
  by_cases hnameless : ∃ item ∈ items, item.string = none
  · rw [parse_nameless preprocess msg hnameless]
    exact ⟨fun _ ↦ Or.inl hnameless, fun _ w hw ↦ (List.not_mem_nil hw).elim⟩
  have hnamed : ∀ item ∈ items, item.string.isSome := by
    intro item hitem
    rw [Option.isSome_iff_ne_none]
    exact fun hnone ↦ hnameless ⟨item, hitem, hnone⟩
  by_cases hmalloc : countedItems env nodes items ≠ 0 ∧ env.mallocDpobj = false
  · rw [(parse_noRecord preprocess msg hnamed hmalloc).1]
    exact ⟨fun _ ↦ Or.inr (Or.inl hmalloc), fun _ w hw ↦ (List.not_mem_nil hw).elim⟩
  obtain ⟨walk, hwrote, hdpscnt, hallocated, hwrites, -⟩ :=
    parse_record preprocess msg hnamed hmalloc
  rw [hdpscnt, hallocated, hwrites, RecvFits, or_iff_right hnameless, or_iff_right hmalloc,
    ← countP_written]
  constructor
  · intro h
    by_contra hover
    -- the entry behind the record is written as well
    have hlast : countedItems env nodes items ∈ walk.writes.map Prod.fst := by
      rw [hwrote.indices, List.mem_range'_1]
      omega
    obtain ⟨w, hw, hindex⟩ := List.mem_map.mp hlast
    have hlt : w.1 < countedItems env nodes items := (h w hw).2
    omega
  · intro h w hw
    have hmem : w.1 ∈ walk.writes.map Prod.fst := List.mem_map_of_mem hw
    rw [hwrote.indices, List.mem_range'_1] at hmem
    have hlt : w.1 < countedItems env nodes items := by omega
    exact ⟨by rw [decide_eq_true_iff]; omega, hlt⟩

/-! ## What the callback gets -/

/-- The message as it decodes: the entries of the items that name an object
data point and have a value of its type, in their order. -/
def decodedItems (env : RecvEnv) (nodes : List SchemaNode) (items : List CJson) : List DpObj :=
  items.filterMap (decodeItem env nodes)

/-- The record of the callback is what the message decodes to. -/
def RecvExact (env : RecvEnv) (preprocess : Bool) (msg : DpRecvMsg) (nodes : List SchemaNode)
    (items : List CJson) : Prop :=
  ∃ handed, (dpDataRecvParse env preprocess msg (some nodes) (some items)).result =
      some (oprtOk, handed) ∧
    handedEntries handed = decodedItems env nodes items

/-- There is memory for the record.  With memory for every raw value, only the
items that decode write an entry, and they are as many as the items that were
counted; without it no record is handed over, nothing decodes, and the entries
written so far fit. -/
def DecodesAll (env : RecvEnv) (nodes : List SchemaNode) (items : List CJson) : Prop :=
  (countedItems env nodes items ≠ 0 → env.mallocDpobj = true) ∧
    if reached env nodes 0 items = items then
      (∀ item ∈ items, (writtenItem env nodes item).isSome → (decodeItem env nodes item).isSome) ∧
        items.countP (fun item ↦ (decodeItem env nodes item).isSome) = countedItems env nodes items
    else
      (∀ item ∈ items, decodeItem env nodes item = none) ∧
        (reached env nodes 0 items).countP (fun item ↦ (writtenItem env nodes item).isSome) ≤
          countedItems env nodes items

theorem handedEntries_handed (msg : DpRecvMsg) {dps : List DpEntry} :
    handedEntries (RecvCall.handed msg dps.length dps) = dps.map DpEntry.toDpObj := by
  rw [RecvCall.handed]
  split_ifs with hzero
  · rw [List.length_eq_zero_iff.mp hzero]
    rfl
  · rw [handedEntries, List.take_length]

theorem decoded_sublist_written (items : List CJson) :
    (decodedItems env nodes items).Sublist (items.filterMap (writtenItem env nodes)) := by
  induction items with
  | nil => exact List.Sublist.refl _
  | cons item rest ih =>
      rw [decodedItems] at ih ⊢
      cases hdecode : decodeItem env nodes item with
      | some obj =>
          rw [List.filterMap_cons_some hdecode,
            List.filterMap_cons_some (writtenItem_of_decodeItem hdecode)]
          exact ih.cons_cons obj
      | none =>
          rw [List.filterMap_cons_none hdecode]
          cases hwritten : writtenItem env nodes item with
          | none => rwa [List.filterMap_cons_none hwritten]
          | some obj =>
              rw [List.filterMap_cons_some hwritten]
              exact ih.cons obj

theorem decodes_of_written {items : List CJson}
    (h : items.filterMap (writtenItem env nodes) = decodedItems env nodes items) :
    ∀ item ∈ items, (writtenItem env nodes item).isSome → (decodeItem env nodes item).isSome := by
  induction items with
  | nil => simp
  | cons item rest ih =>
      rw [decodedItems] at h
      cases hdecode : decodeItem env nodes item with
      | some obj =>
          rw [List.filterMap_cons_some hdecode,
            List.filterMap_cons_some (writtenItem_of_decodeItem hdecode), List.cons_inj_right] at h
          intro other hother
          rcases List.mem_cons.mp hother with rfl | htail
          · exact fun _ ↦ by rw [hdecode]; rfl
          · exact ih h other htail
      | none =>
          rw [List.filterMap_cons_none hdecode] at h
          cases hwritten : writtenItem env nodes item with
          | none =>
              rw [List.filterMap_cons_none hwritten] at h
              intro other hother
              rcases List.mem_cons.mp hother with rfl | htail
              · exact fun hsome ↦ by rw [hwritten] at hsome; cases hsome
              · exact ih h other htail
          | some obj =>
              rw [List.filterMap_cons_some hwritten] at h
              have hle : (decodedItems env nodes rest).length ≤
                  (rest.filterMap (writtenItem env nodes)).length :=
                (decoded_sublist_written rest).length_le
              rw [decodedItems, ← h, List.length_cons] at hle
              omega

theorem written_of_decodes {items : List CJson}
    (h : ∀ item ∈ items, (writtenItem env nodes item).isSome → (decodeItem env nodes item).isSome) :
    items.filterMap (writtenItem env nodes) = decodedItems env nodes items := by
  apply List.filterMap_congr
  intro item hitem
  cases hdecode : decodeItem env nodes item with
  | some obj => exact writtenItem_of_decodeItem hdecode
  | none =>
      have hnone : ¬ (writtenItem env nodes item).isSome = true := by
        intro hsome
        have hdecodes := h item hitem hsome
        rw [hdecode] at hdecodes
        cases hdecodes
      simpa using hnone

/-- Entries that hold a list among them, with placeholders behind, are that list
only without placeholders. -/
theorem append_replicate_eq_iff {α : Type*} {written decoded : List α} {n : ℕ} {zero : α}
    (hsub : decoded.Sublist written) (hfit : written.length ≤ n) :
    written ++ List.replicate (n - written.length) zero = decoded ↔
      written = decoded ∧ decoded.length = n := by
  constructor
  · intro h
    have hlength := congrArg List.length h
    rw [List.length_append, List.length_replicate] at hlength
    have hle : decoded.length ≤ written.length := hsub.length_le
    have heq : decoded = written := hsub.eq_of_length (by omega)
    exact ⟨heq.symm, by omega⟩
  · rintro ⟨rfl, hlength⟩
    rw [hlength, Nat.sub_self, List.replicate_zero, List.append_nil]

/-- The callback gets what the message decodes to exactly when all that is
counted and all that is written decodes. -/
theorem dp_data_recv_parse_exact (env : RecvEnv) (preprocess : Bool) (msg : DpRecvMsg)
    (nodes : List SchemaNode) (items : List CJson) (hnamed : ∀ item ∈ items, item.string.isSome) :
    RecvExact env preprocess msg nodes items ↔ DecodesAll env nodes items := by
  by_cases hmalloc : countedItems env nodes items ≠ 0 ∧ env.mallocDpobj = false
  · have hresult := (parse_noRecord preprocess msg hnamed hmalloc).2
    constructor
    · rintro ⟨handed, hok, -⟩
      rw [hresult] at hok
      cases hok
    · rintro ⟨hmemory, -⟩
      rw [hmalloc.2] at hmemory
      cases hmemory hmalloc.1
  have hmemory : countedItems env nodes items ≠ 0 → env.mallocDpobj = true := by
    intro hcounted
    rw [← Bool.not_eq_false]
    exact fun hfalse ↦ hmalloc ⟨hcounted, hfalse⟩
  obtain ⟨walk, hwrote, -, -, -, hresult⟩ := parse_record preprocess msg hnamed hmalloc
  have hdecoded : (decodedItems env nodes items).length =
      items.countP fun item ↦ (decodeItem env nodes item).isSome := by
    rw [decodedItems, List.length_filterMap_eq_countP]
  rw [RecvExact, DecodesAll, hresult]
  rcases hwrote.record (countedItems env nodes items) with ⟨hover, hnone⟩ |
    ⟨dps, hfit, hsome, hlen, hmap⟩
  · -- an entry is written behind the record
    rw [hnone, Option.bind_none]
    constructor
    · rintro ⟨handed, hok, -⟩
      cases hok
    · rintro ⟨-, hcond⟩
      exfalso
      split_ifs at hcond with hwhole
      · rw [hwhole, written_of_decodes hcond.1, hdecoded, hcond.2] at hover
        exact Nat.lt_irrefl _ hover
      · rw [List.length_filterMap_eq_countP] at hover
        omega
  rw [hsome, Option.bind_some]
  rcases hwrote.stop with ⟨hstop, hwhole⟩ | ⟨hstop, hcut⟩
  · rw [if_pos hwhole, hstop]
    rw [hwhole] at hfit hmap
    have hentries : handedEntries (RecvCall.handed msg (countedItems env nodes items) dps) =
        decodedItems env nodes items ↔
          items.filterMap (writtenItem env nodes) = decodedItems env nodes items ∧
            (decodedItems env nodes items).length = countedItems env nodes items := by
      rw [← append_replicate_eq_iff (decoded_sublist_written items) hfit, ← hmap, ← hlen,
        handedEntries_handed]
    constructor
    · rintro ⟨handed, hok, hdecodes⟩
      obtain rfl : RecvCall.handed msg (countedItems env nodes items) dps = handed := by
        simpa using hok
      obtain ⟨hwritten, hcount⟩ := hentries.mp hdecodes
      exact ⟨hmemory, decodes_of_written hwritten, by rw [← hdecoded, hcount]⟩
    · rintro ⟨-, hcond, hcount⟩
      exact ⟨_, rfl, hentries.mpr ⟨written_of_decodes hcond, by rw [hdecoded, hcount]⟩⟩
  · rw [if_neg hcut, hstop]
    rw [List.length_filterMap_eq_countP] at hfit
    have hnil : decodedItems env nodes items = [] ↔
        ∀ item ∈ items, decodeItem env nodes item = none := List.filterMap_eq_nil_iff
    constructor
    · rintro ⟨handed, hok, hdecodes⟩
      obtain rfl : none = handed := by simpa using hok
      exact ⟨hmemory, hnil.mp hdecodes.symm, hfit⟩
    · rintro ⟨-, hcond, -⟩
      exact ⟨none, rfl, (hnil.mpr hcond).symm⟩

/-! ## A message for the lamp -/

/-- `atoi` of a name that is a number without a sign. -/
def decimalAtoi (name : List UInt8) : ℤ :=
  name.foldl (fun n c ↦ n * 10 + (c.toNat - 48 : ℕ)) 0

def lampEnv : RecvEnv where
  atoi := decimalAtoi
  base64Decode := fun _ ↦ []
  posix := fun i ↦ 100 + i
  mallocDpobj := true
  mallocRaw := fun _ ↦ true

def lampMsg : DpRecvMsg where
  devid := [108]
  cmd := 1
  dtTp := 0

/-- `"1":true` -/
def switchOn : CJson := ⟨some [49], .jsonTrue, 1⟩
/-- `"1":"on"` -/
def switchText : CJson := ⟨some [49], .string [111, 110], 0⟩
/-- `"2":5` -/
def levelFive : CJson := ⟨some [50], .number, 5⟩
/-- `"3":true` -/
def mapTrue : CJson := ⟨some [51], .jsonTrue, 1⟩

theorem dp_data_recv_parse_exact_lamp :
    (∀ item ∈ [switchOn, levelFive], item.string.isSome) ∧
      RecvExact lampEnv false lampMsg [lampSwitch, lampLevel, lampMap] [switchOn, levelFive] := by
  have hnamed : ∀ item ∈ [switchOn, levelFive], item.string.isSome := by decide
  refine ⟨hnamed, (dp_data_recv_parse_exact _ _ _ _ _ hnamed).mpr ⟨fun _ ↦ rfl, ?_⟩⟩
  rw [if_pos (by decide)]
  exact ⟨by decide, by decide⟩

/-- A text for the switch is counted and not written: the level comes first, and
a placeholder of zeros behind it. -/
theorem dp_data_recv_parse_not_exact :
    ¬ RecvExact lampEnv false lampMsg [lampSwitch, lampLevel, lampMap] [switchText, levelFive] ∧
      (dpDataRecvParse lampEnv false lampMsg (some [lampSwitch, lampLevel, lampMap])
        (some [switchText, levelFive])).result.map (fun r ↦ handedEntries r.2) =
          some [⟨2, .value 5⟩, ⟨0, .bool false⟩] := by
  have hentries : (dpDataRecvParse lampEnv false lampMsg (some [lampSwitch, lampLevel, lampMap])
      (some [switchText, levelFive])).result.map (fun r ↦ handedEntries r.2) =
        some [⟨2, .value 5⟩, ⟨0, .bool false⟩] := by decide
  refine ⟨?_, hentries⟩
  rintro ⟨handed, hok, hexact⟩
  rw [hok, Option.map_some, hexact] at hentries
  exact absurd hentries (by decide)

/-- A Boolean for the raw map is written where no record was allocated. -/
theorem dp_data_recv_parse_out_of_bounds :
    ¬ ∀ w ∈ (dpDataRecvParse lampEnv false lampMsg (some [lampSwitch, lampLevel, lampMap])
        (some [mapTrue])).writes,
      (dpDataRecvParse lampEnv false lampMsg (some [lampSwitch, lampLevel, lampMap])
          (some [mapTrue])).allocated = true ∧
        w.1 < (dpDataRecvParse lampEnv false lampMsg (some [lampSwitch, lampLevel, lampMap])
          (some [mapTrue])).dpscnt := by
  decide

end TuyaOpen.Schema
