import TuyaOpen.Ble.DpReq

/-!
# The value of a data point over the air

A report builds a list with one node for each data point and a command is read
through a list.  The two agree on the bytes, but not on every value: an
enumeration is written in as few bytes as its index needs and read from the
first one, and a bitmap is read as a signed number.
-/

namespace TuyaOpen.Ble

open Schema

/-- What is handed to `make_klv_list`: the type, the bytes at the pointer to the
value, and the length. -/
structure KlvArgs where
  type : UInt8
  data : Option (List UInt8)
  len : UInt16
  deriving DecidableEq

/-- The word behind a value is read whole, for a boolean with the three bytes
behind it. -/
def valueArgs (spare : UInt8 × UInt8 × UInt8) : DpValue → KlvArgs
  | .bool b => ⟨dtBool, some [if b then 1 else 0, spare.1, spare.2.1, spare.2.2], 4⟩
  | .value v => ⟨dtValue, some (wordBytes (v % 2 ^ 32).toNat), 4⟩
  | .str s => ⟨dtString, some s, UInt16.ofNat s.length⟩
  | .enum e => ⟨dtEnum, some (wordBytes e), 4⟩
  | .bitmap b => ⟨dtBitmap, some (wordBytes b), 4⟩

/-- A data point of a report, with the bytes of the union behind a boolean. -/
structure BleDp where
  id : UInt8
  value : DpValue
  spare : UInt8 × UInt8 × UInt8
  deriving DecidableEq

def BleDp.args (dp : BleDp) : KlvArgs := valueArgs dp.spare dp.value

def makeObjDpKlvList (dps : List BleDp) : Option (List KlvNode) :=
  dps.foldlM (fun list dp ↦ makeKlvList list dp.id dp.args.type dp.args.data dp.args.len) []

/-! ## The nodes of a list that was built -/

/-- The bytes of a value on the air. -/
def valueBytes : DpValue → List UInt8
  | .bool b => [if b then 1 else 0]
  | .value v => Bytes.encodeBE 4 (v % 2 ^ 32).toNat
  | .str s => s
  | .enum e =>
    if e ≤ 0xff then Bytes.encodeBE 1 e
    else if e ≤ 0xffff then Bytes.encodeBE 2 e
    else Bytes.encodeBE 4 e
  | .bitmap b => Bytes.encodeBE 4 b

/-- The value fits the fields of `dp_value_t`; a string is one of C. -/
def ValueFits : DpValue → Prop
  | .bool _ => True
  | .value v => -2 ^ 31 ≤ v ∧ v < 2 ^ 31
  | .str s => s.length < 2 ^ 16 ∧ 0 ∉ s
  | .enum e => e < 2 ^ 32
  | .bitmap b => b < 2 ^ 32

instance (v : DpValue) : Decidable (ValueFits v) := by
  cases v <;> simp only [ValueFits] <;> infer_instance

theorem hostWord_wordBytes {n : ℕ} (h : n < 2 ^ 32) : hostWord (wordBytes n) = n := by
  have hlen : (wordBytes n).length = 4 := by
    rw [wordBytes, List.length_reverse, Bytes.length_encodeBE]
  rw [hostWord, List.take_of_length_le hlen.le, wordBytes, List.reverse_reverse]
  exact Bytes.decodeBE_encodeBE h

theorem length_wordBytes (n : ℕ) : (wordBytes n).length = 4 := by
  rw [wordBytes, List.length_reverse, Bytes.length_encodeBE]

theorem take_wordBytes (n : ℕ) : (wordBytes n).take (UInt16.toNat 4) = wordBytes n :=
  List.take_of_length_le (length_wordBytes n).le

theorem encodeBE_hostWord (b c d e : UInt8) : Bytes.encodeBE 1 (hostWord [b, c, d, e]) = [b] := by
  have hword : hostWord [b, c, d, e] =
      256 * (256 * (256 * e.toNat + d.toNat) + c.toNat) + b.toNat := by
    simp only [hostWord, Bytes.decodeBE, List.take, List.reverse_cons, List.reverse_nil,
      List.nil_append, List.cons_append, List.foldl, Nat.shiftLeft_eq]
    omega
  have hb := b.toNat_lt
  have hbyte : UInt8.ofNat (hostWord [b, c, d, e]) = b := by
    apply UInt8.toNat_inj.mp
    rw [UInt8.toNat_ofNat', hword]
    omega
  exact congrArg (fun x ↦ [x]) hbyte

/-- The node that a value becomes. -/
def valueNode (id : UInt8) (spare : UInt8 × UInt8 × UInt8) (value : DpValue) : KlvNode where
  id := id
  type := (valueArgs spare value).type
  data := klvData (valueArgs spare value).type
    (((valueArgs spare value).data.getD []).take (valueArgs spare value).len.toNat)
  len_lt := by
    apply length_klvData
    rw [List.length_take]
    exact lt_of_le_of_lt (min_le_left _ _) (UInt16.toNat_lt _)

def BleDp.node (dp : BleDp) : KlvNode := valueNode dp.id dp.spare dp.value

theorem valueArgs_len (spare : UInt8 × UInt8 × UInt8) (value : DpValue) :
    ∃ data, (valueArgs spare value).data = some data ∧
      (valueArgs spare value).len.toNat ≤ data.length := by
  cases value with
  | str s =>
      refine ⟨s, rfl, ?_⟩
      simp only [valueArgs, UInt16.toNat_ofNat']
      exact Nat.mod_le _ _
  | _ => exact ⟨_, rfl, le_of_eq rfl⟩

theorem valueArgs_type (spare : UInt8 × UInt8 × UInt8) (value : DpValue) :
    ¬ (dtLmt ≤ (valueArgs spare value).type ∨
      klvLenBad (valueArgs spare value).type (valueArgs spare value).len) ∧
    ¬ ((valueArgs spare value).type = dtBitmap ∧ (valueArgs spare value).len < 4) := by
  cases value with
  | str s =>
      simp only [valueArgs]
      refine ⟨?_, fun hs ↦ absurd hs.1 (by decide)⟩
      rintro (hmax | hlen)
      · exact absurd hmax (by decide)
      · rcases hlen with hlen | hlen | hlen | hlen <;> exact absurd hlen.1 (by decide)
  | _ =>
      simp only [valueArgs]
      decide

theorem makeKlvList_value (list : List KlvNode) (id : UInt8) (spare : UInt8 × UInt8 × UInt8)
    (value : DpValue) :
    makeKlvList list id (valueArgs spare value).type (valueArgs spare value).data
        (valueArgs spare value).len = some (valueNode id spare value :: list) := by
  obtain ⟨data, hdata, hlen⟩ := valueArgs_len spare value
  obtain ⟨hgood, hword⟩ := valueArgs_type spare value
  simp only [makeKlvList, valueNode, hdata, if_neg hgood, Option.getD_some,
    not_or.mpr ⟨not_lt.mpr hlen, hword⟩, if_false]

theorem makeObjDpKlvList_eq (dps : List BleDp) :
    makeObjDpKlvList dps = some (dps.map BleDp.node).reverse := by
  have hfold : ∀ list, dps.foldlM (fun list (dp : BleDp) ↦
      makeKlvList list dp.id dp.args.type dp.args.data dp.args.len) list =
      some ((dps.map BleDp.node).reverse ++ list) := by
    induction dps with
    | nil => exact fun _ ↦ rfl
    | cons dp rest ih =>
        intro list
        have hstep : makeKlvList list dp.id dp.args.type dp.args.data dp.args.len =
            some (dp.node :: list) := makeKlvList_value list dp.id dp.spare dp.value
        rw [List.foldlM_cons, hstep, Option.bind_eq_bind, Option.bind_some, ih, List.map_cons,
          List.reverse_cons, List.append_assoc]
        rfl
  rw [makeObjDpKlvList, hfold, List.append_nil]

theorem valueNode_data (id : UInt8) (spare : UInt8 × UInt8 × UInt8) {value : DpValue}
    (h : ValueFits value) : (valueNode id spare value).data = valueBytes value := by
  cases value with
  | bool b => exact encodeBE_hostWord _ _ _ _
  | value v =>
      have hlt : (v % 2 ^ 32).toNat < 2 ^ 32 := by omega
      simp only [valueNode, valueArgs, Option.getD_some, klvData, true_or, if_true, valueBytes]
      rw [take_wordBytes, hostWord_wordBytes hlt]
  | str s =>
      have hlen : (UInt16.ofNat s.length).toNat = s.length := by
        rw [UInt16.toNat_ofNat']
        exact Nat.mod_eq_of_lt h.1
      simp only [valueNode, valueArgs, Option.getD_some, hlen, List.take_length]
      rfl
  | enum e =>
      simp only [valueNode, valueArgs, Option.getD_some]
      rw [take_wordBytes, klvData, if_neg (by decide), tuyaChangeBtDpTlv, if_pos rfl,
        hostWord_wordBytes h]
      rfl
  | bitmap b =>
      simp only [valueNode, valueArgs, Option.getD_some, klvData, or_true, if_true, valueBytes]
      rw [take_wordBytes, hostWord_wordBytes h]

/-! ## What comes out -/

/-- The first byte of an enumeration on the air. -/
def enumLead (e : ℕ) : ℕ := if e ≤ 0xff then e else if e ≤ 0xffff then e / 2 ^ 8 else e / 2 ^ 24

/-- The index of an enumeration is one of the data point it is about. -/
def EnumKnown (nodes : List SchemaNode) (dp : BleDp) : Prop :=
  ∀ e, dp.value = .enum e → ∃ node, nodeFind nodes dp.id.toNat = some node ∧
    e < (enumTable node).length

/-- The value as an item of `dps`; an enumeration is the string at its index. -/
def BleDp.json (nodes : List SchemaNode) (dp : BleDp) : Option DpJson :=
  match dp.value with
  | .bool b => some (.bool b)
  | .value v => some (.number v)
  | .str s => some (.string s)
  | .enum e => (nodeFind nodes dp.id.toNat).bind fun node ↦
      (enumTable node)[e]?.map fun name ↦ .string name
  | .bitmap b => some (.number b)

/-- The values that the two sides agree on. -/
def Agreed (nodes : List SchemaNode) (dp : BleDp) : Prop :=
  match dp.value with
  | .enum e => ∀ node, nodeFind nodes dp.id.toNat = some node →
      (enumTable node)[enumLead e]? = (enumTable node)[e]?
  | .bitmap b => b < 2 ^ 31
  | _ => True

theorem enumLead_lt {e : ℕ} (h : e < 2 ^ 32) : enumLead e < 256 := by
  unfold enumLead
  split_ifs <;> omega

theorem valueBytes_enum_head (e : ℕ) :
    (valueBytes (.enum e))[0]? = some (UInt8.ofNat (enumLead e)) := by
  simp only [valueBytes, enumLead]
  split_ifs with hbyte hshort
  · rfl
  · rw [← Nat.shiftRight_eq_div_pow]
    rfl
  · rw [← Nat.shiftRight_eq_div_pow]
    rfl

theorem getBE_word {n : ℕ} (h : n < 2 ^ 32) : Bytes.getBE (Bytes.encodeBE 4 n) 0 4 = n := by
  have hget := Bytes.getBE_append (show n < 256 ^ 4 by omega) [] []
  simpa using hget

section Switch

variable (base64 : List UInt8 → List UInt8) (nodes : List SchemaNode) (id : UInt8)
  (spare : UInt8 × UInt8 × UInt8)

theorem nodeJson_bool (b : Bool) :
    nodeJson base64 nodes (BleDp.node ⟨id, .bool b, spare⟩) = some (some (.bool b)) := by
  have hdata : (BleDp.node ⟨id, .bool b, spare⟩).data = valueBytes (.bool b) :=
    valueNode_data id spare trivial
  rw [nodeJson, hdata]
  cases b <;> rfl

theorem nodeJson_value {v : ℤ} (h : ValueFits (.value v)) :
    nodeJson base64 nodes (BleDp.node ⟨id, .value v, spare⟩) = some (some (.number v)) := by
  have hdata : (BleDp.node ⟨id, .value v, spare⟩).data = valueBytes (.value v) :=
    valueNode_data id spare h
  have htype : (BleDp.node ⟨id, .value v, spare⟩).type = dtValue := rfl
  obtain ⟨hlow, hhigh⟩ := h
  have hlt : (v % 2 ^ 32).toNat < 2 ^ 32 := by omega
  have hbmod : (((v % 2 ^ 32).toNat : ℕ) : ℤ).bmod (2 ^ 32) = v := by
    rw [Int.toNat_of_nonneg (by omega), show ((2 : ℤ) ^ 32) = ((2 ^ 32 : ℕ) : ℤ) by norm_num,
      Int.emod_bmod, Int.bmod_eq_of_le (by omega) (by omega)]
  rw [nodeJson, hdata, htype]
  simp only [valueBytes, getBE_word hlt, hbmod, Bytes.length_encodeBE]
  rfl

theorem nodeJson_str {s : List UInt8} (h : ValueFits (.str s)) :
    nodeJson base64 nodes (BleDp.node ⟨id, .str s, spare⟩) = some (some (.string s)) := by
  have hdata : (BleDp.node ⟨id, .str s, spare⟩).data = valueBytes (.str s) :=
    valueNode_data id spare h
  have htype : (BleDp.node ⟨id, .str s, spare⟩).type = dtString := rfl
  have hread : CStr.read (s ++ [0]) 0 = some s := CStr.read_zero h.2 []
  rw [nodeJson, hdata, htype]
  by_cases hnil : s = []
  · subst hnil
    rfl
  · simp only [valueBytes, if_neg hnil, hread]
    rfl

theorem nodeJson_enum {e : ℕ} (h : ValueFits (.enum e)) {node : SchemaNode}
    (hnode : nodeFind nodes id.toNat = some node) :
    nodeJson base64 nodes (BleDp.node ⟨id, .enum e, spare⟩) =
      (enumTable node)[enumLead e]?.map fun name ↦ some (.string name) := by
  have hdata : (BleDp.node ⟨id, .enum e, spare⟩).data = valueBytes (.enum e) :=
    valueNode_data id spare h
  have htype : (BleDp.node ⟨id, .enum e, spare⟩).type = dtEnum := rfl
  have hid : (BleDp.node ⟨id, .enum e, spare⟩).id = id := rfl
  have hlead : (UInt8.ofNat (enumLead e)).toNat = enumLead e := by
    rw [UInt8.toNat_ofNat']
    exact Nat.mod_eq_of_lt (enumLead_lt h)
  rw [nodeJson, hdata, htype]
  simp only [valueBytes_enum_head, hid, hnode, hlead]
  rfl

theorem nodeJson_bitmap {b : ℕ} (h : ValueFits (.bitmap b)) :
    nodeJson base64 nodes (BleDp.node ⟨id, .bitmap b, spare⟩) =
      some (some (.number ((b : ℤ).bmod (2 ^ 32)))) := by
  have hdata : (BleDp.node ⟨id, .bitmap b, spare⟩).data = valueBytes (.bitmap b) :=
    valueNode_data id spare h
  have htype : (BleDp.node ⟨id, .bitmap b, spare⟩).type = dtBitmap := rfl
  have hlt : b < 2 ^ 32 := h
  rw [nodeJson, hdata, htype]
  simp only [valueBytes, getBE_word hlt, Bytes.length_encodeBE]
  rfl

end Switch

theorem bmod_eq_self_iff {b : ℕ} (h : b < 2 ^ 32) : (b : ℤ).bmod (2 ^ 32) = b ↔ b < 2 ^ 31 := by
  refine ⟨fun heq ↦ ?_, fun hlt ↦ Int.bmod_eq_of_le (by omega) (by omega)⟩
  have hbound := Int.bmod_lt (x := (b : ℤ)) (m := 2 ^ 32) (by norm_num)
  rw [heq] at hbound
  omega

theorem nodeJson_node (base64 : List UInt8 → List UInt8) {nodes : List SchemaNode} {dp : BleDp}
    (hfits : ValueFits dp.value) (henum : EnumKnown nodes dp) :
    nodeJson base64 nodes dp.node = some (dp.json nodes) ↔ Agreed nodes dp := by
  obtain ⟨id, value, spare⟩ := dp
  cases value with
  | bool b => exact iff_of_true (nodeJson_bool base64 nodes id spare b) trivial
  | value v => exact iff_of_true (nodeJson_value base64 nodes id spare hfits) trivial
  | str s => exact iff_of_true (nodeJson_str base64 nodes id spare hfits) trivial
  | enum e =>
      obtain ⟨node, hnode, hlt⟩ := henum e rfl
      have hname : (enumTable node)[e]? = some (enumTable node)[e] := List.getElem?_eq_getElem hlt
      have hagreed : Agreed nodes ⟨id, .enum e, spare⟩ ↔
          (enumTable node)[enumLead e]? = (enumTable node)[e]? := by
        simp only [Agreed, hnode, Option.some.injEq, forall_eq']
      rw [nodeJson_enum base64 nodes id spare hfits hnode, hagreed]
      simp only [BleDp.json, hnode, hname, Option.bind_some, Option.map_some]
      cases (enumTable node)[enumLead e]? <;> simp
  | bitmap b =>
      rw [nodeJson_bitmap base64 nodes id spare hfits]
      simpa only [BleDp.json, Agreed, Option.some.injEq, DpJson.number.injEq] using
        bmod_eq_self_iff hfits

/-! ## Every list -/

/-- The length of the header before the list. -/
def headerLen (timeStamp : Option UInt32) : ℕ := if timeStamp.isSome then 12 else 7

def KlvNode.head (n : KlvNode) : UInt8 × UInt8 × ℕ := (n.id, n.type, n.data.length)

def BleDp.head (dp : BleDp) : UInt8 × UInt8 × ℕ :=
  (dp.id, dp.args.type, (valueBytes dp.value).length)

/-- The list is built and written, the text behind the header is read back to
the same nodes in reverse order, and the switch finds the value of each data
point in its node. -/
def RoundTrips (abi : Abi) (base64 : List UInt8 → List UInt8) (nodes : List SchemaNode)
    (dps : List BleDp) (sn : UInt32) (timeStamp : Option UInt32) (query : Bool) (flag : UInt8) :
    Prop :=
  ∃ list data sn', makeObjDpKlvList dps = some list ∧
    klvlist2Data abi sn list timeStamp query flag = some (oprtOk, data, sn') ∧
    data2Klvlist (data.drop (headerLen timeStamp)) (data.drop (headerLen timeStamp)).length =
      some (oprtOk, list.reverse) ∧
    list.reverse.map KlvNode.head = dps.map BleDp.head ∧
    list.reverse.map (nodeJson base64 nodes) = dps.map fun dp ↦ some (dp.json nodes)

/-- The length of the text of a list of data points with `rest` bytes for each
besides its value. -/
def textLen (rest : ℕ) (timeStamp : Option UInt32) (dps : List BleDp) : ℕ :=
  headerLen timeStamp + (dps.map fun dp ↦ rest + (valueBytes dp.value).length).sum

theorem length_klvHeader (sn : UInt32) (timeStamp : Option UInt32) (query : Bool) (flag : UInt8) :
    (klvHeader sn timeStamp query flag).length = headerLen timeStamp := by
  cases timeStamp <;> simp [klvHeader, headerLen, length_wordBytes]

theorem length_klvBytes (list : List KlvNode) :
    (klvBytes list).length = (list.map fun n ↦ 4 + n.data.length).sum := by
  induction list with
  | nil => rfl
  | cons n rest ih => rw [length_klvBytes_cons, ih, List.map_cons, List.sum_cons]

theorem sum_nodes (rest : ℕ) {dps : List BleDp} (hfits : ∀ dp ∈ dps, ValueFits dp.value) :
    (((dps.map BleDp.node).reverse).map fun n ↦ rest + n.data.length).sum =
      (dps.map fun dp ↦ rest + (valueBytes dp.value).length).sum := by
  rw [List.map_reverse, List.sum_reverse, List.map_map]
  congr 1
  apply List.map_congr_left
  intro dp hdp
  simp only [Function.comp_apply, BleDp.node, valueNode_data dp.id dp.spare (hfits dp hdp)]

theorem map_nodeJson_iff (base64 : List UInt8 → List UInt8) {nodes : List SchemaNode}
    {dps : List BleDp} (hfits : ∀ dp ∈ dps, ValueFits dp.value)
    (henum : ∀ dp ∈ dps, EnumKnown nodes dp) :
    (dps.map BleDp.node).map (nodeJson base64 nodes) = (dps.map fun dp ↦ some (dp.json nodes)) ↔
      ∀ dp ∈ dps, Agreed nodes dp := by
  rw [List.map_map, List.map_inj_left]
  refine forall₂_congr fun dp hdp ↦ ?_
  exact nodeJson_node base64 (hfits dp hdp) (henum dp hdp)

theorem map_head_nodes {dps : List BleDp} (hfits : ∀ dp ∈ dps, ValueFits dp.value) :
    (dps.map BleDp.node).map KlvNode.head = dps.map BleDp.head := by
  rw [List.map_map]
  apply List.map_congr_left
  intro dp hdp
  exact congrArg (fun data ↦ (dp.id, dp.args.type, data.length))
    (valueNode_data dp.id dp.spare (hfits dp hdp))

theorem length_text (sn : UInt32) (timeStamp : Option UInt32) (query : Bool) (flag : UInt8)
    {dps : List BleDp} (hfits : ∀ dp ∈ dps, ValueFits dp.value) :
    (klvHeader sn timeStamp query flag ++ klvBytes (dps.map BleDp.node).reverse).length =
      textLen 4 timeStamp dps := by
  rw [List.length_append, length_klvHeader, length_klvBytes, sum_nodes 4 hfits, textLen]

theorem klvlist2Data_nodes (abi : Abi) (sn : UInt32) (timeStamp : Option UInt32) (query : Bool)
    (flag : UInt8) {dps : List BleDp} (hne : dps ≠ [])
    (hfits : ∀ dp ∈ dps, ValueFits dp.value) :
    klvlist2Data abi sn (dps.map BleDp.node).reverse timeStamp query flag =
      if textLen abi.klvRest timeStamp dps % 2 ^ 32 < textLen 4 timeStamp dps then none
      else some (oprtOk, klvHeader sn timeStamp query flag ++
        klvBytes (dps.map BleDp.node).reverse, sn + 1) := by
  have hlist : (dps.map BleDp.node).reverse ≠ [] := by simpa using hne
  have hbuffer : mkDataLen abi timeStamp (dps.map BleDp.node).reverse =
      textLen abi.klvRest timeStamp dps := by
    rw [mkDataLen, sum_nodes _ hfits, textLen, headerLen]
    cases timeStamp <;> rfl
  simp only [klvlist2Data, if_neg hlist, hbuffer, length_text sn timeStamp query flag hfits]

theorem roundTrips_iff (abi : Abi) (base64 : List UInt8 → List UInt8)
    (nodes : List SchemaNode) (dps : List BleDp) (sn : UInt32) (timeStamp : Option UInt32)
    (query : Bool) (flag : UInt8) (hne : dps ≠ []) (hfits : ∀ dp ∈ dps, ValueFits dp.value)
    (henum : ∀ dp ∈ dps, EnumKnown nodes dp) :
    RoundTrips abi base64 nodes dps sn timeStamp query flag ↔
      textLen 4 timeStamp dps ≤ textLen abi.klvRest timeStamp dps % 2 ^ 32 ∧
        ∀ dp ∈ dps, Agreed nodes dp := by
  have hbuild := makeObjDpKlvList_eq dps
  have hwrite := klvlist2Data_nodes abi sn timeStamp query flag hne hfits
  have htext := length_text sn timeStamp query flag hfits
  have hheads := map_head_nodes hfits
  have hlist : (dps.map BleDp.node).reverse ≠ [] := by simpa using hne
  rw [← map_nodeJson_iff base64 hfits henum]
  rw [← List.reverse_reverse (dps.map BleDp.node)] at hheads ⊢
  generalize (dps.map BleDp.node).reverse = list at *
  constructor
  · rintro ⟨list', data, sn', hbuild', hwrite', -, -, hjson⟩
    obtain rfl := Option.some.inj (hbuild.symm.trans hbuild')
    refine ⟨?_, hjson⟩
    rw [hwrite] at hwrite'
    by_contra hover
    rw [if_pos (not_le.mp hover)] at hwrite'
    cases hwrite'
  · rintro ⟨hroom, hjson⟩
    rw [if_neg (not_lt.mpr hroom)] at hwrite
    refine ⟨list, _, _, hbuild, hwrite, ?_, hheads, hjson⟩
    rw [List.drop_left' (length_klvHeader sn timeStamp query flag)]
    apply data2Klvlist_klvBytes hlist
    have hlt := Nat.mod_lt (textLen abi.klvRest timeStamp dps) (Nat.two_pow_pos 32)
    rw [List.length_append] at htext
    omega

/-- A list of data points comes back whole exactly when its text fits the buffer
that is asked for and the two sides agree on every value. -/
theorem dp_round_trips_iff (abi : Abi) (base64 : List UInt8 → List UInt8)
    (nodes : List SchemaNode) (dps : List BleDp) (sn : UInt32) (timeStamp : Option UInt32)
    (query : Bool) (flag : UInt8) (hne : dps ≠ []) (hfits : ∀ dp ∈ dps, ValueFits dp.value)
    (henum : ∀ dp ∈ dps, EnumKnown nodes dp) :
    RoundTrips abi base64 nodes dps sn timeStamp query flag ↔
      textLen 4 timeStamp dps ≤ textLen abi.klvRest timeStamp dps % 2 ^ 32 ∧
        ∀ dp ∈ dps, Agreed nodes dp :=
  roundTrips_iff abi base64 nodes dps sn timeStamp query flag hne hfits henum

/-! A ring tone with `257` names, of which the last differs from the others. -/

def ringNode : SchemaNode where
  id := 6
  mode := .rw
  passive := .psvFalse
  type := .obj
  trig := .pulse
  prop := .enum 257 0
  pvStat := .invalid
  ppEnum := List.replicate 256 [97] ++ [[98]]
  timeStamp := 0
  names := fun cnt value h ↦ by
    obtain ⟨rfl, -⟩ := DpProp.enum.inj h
    rw [List.length_append, List.length_replicate]
    exact Nat.add_one 256
  fits := fun _ _ _ h ↦ nomatch h
  zeroed := fun h ↦ (h rfl).elim

theorem dp_round_trips_lamp :
    (∀ dp ∈ [BleDp.mk 1 (.bool true) (0, 0, 0), ⟨2, .value (-7), (0, 0, 0)⟩],
      ValueFits dp.value) ∧
      RoundTrips .lp64 id lampNodes [⟨1, .bool true, (0, 0, 0)⟩, ⟨2, .value (-7), (0, 0, 0)⟩]
        1 none false 0 := by
  have hfits : ∀ dp ∈ [BleDp.mk 1 (.bool true) (0, 0, 0), ⟨2, .value (-7), (0, 0, 0)⟩],
      ValueFits dp.value := by decide
  refine ⟨hfits, ?_⟩
  apply (dp_round_trips_iff .lp64 id lampNodes _ 1 none false 0 (by decide) hfits ?_).mpr
  · refine ⟨by decide, ?_⟩
    simp [Agreed]
  · simp [EnumKnown]

/-- The last name comes back as another one, and the bitmap with only the highest
bit as a negative number. -/
theorem dp_not_round_trips :
    ¬ RoundTrips .lp64 id [ringNode] [⟨6, .enum 256, (0, 0, 0)⟩] 1 none false 0 ∧
      ¬ RoundTrips .lp64 id lampNodes [⟨4, .bitmap (2 ^ 31), (0, 0, 0)⟩] 1 none false 0 := by
  constructor
  · intro h
    have hlast : (enumTable ringNode)[256]? = some [98] := by
      simp only [enumTable, ringNode]
      rw [List.getElem?_append_right (by rw [List.length_replicate]), List.length_replicate]
      rfl
    have hfirst : (enumTable ringNode)[1]? = some [97] := by decide +kernel
    rw [roundTrips_iff .lp64 id _ _ 1 none false 0 (by decide) (by decide) ?_] at h
    · have hname : (enumTable ringNode)[1]? = (enumTable ringNode)[256]? :=
        h.2 _ (List.mem_singleton_self _) ringNode rfl
      rw [hlast, hfirst] at hname
      exact absurd hname (by decide)
    · intro dp hdp e he
      obtain rfl := List.mem_singleton.mp hdp
      obtain rfl := DpValue.enum.inj he
      exact ⟨ringNode, rfl, (List.getElem?_eq_some_iff.mp hlast).1⟩
  · intro h
    rw [roundTrips_iff .lp64 id _ _ 1 none false 0 (by decide) (by decide) (by simp [EnumKnown])]
      at h
    exact absurd (h.2 _ (List.mem_singleton_self _)) (lt_irrefl (2 ^ 31))

end TuyaOpen.Ble
