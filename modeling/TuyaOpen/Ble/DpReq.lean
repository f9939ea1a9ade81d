import TuyaOpen.Ble.Dp
import TuyaOpen.Ble.Packet
import TuyaOpen.Lib.CStr
import TuyaOpen.Schema.SchemaNode

/-!
# Data point commands of the peer, `ble_dp_req`

A command is five bytes that go back in the acknowledgement and a list of
data points, each of which becomes an item of the JSON object `dps`.  Every
type assumes a length of its own, which nothing has checked, and an
enumeration takes the first byte for an index.
-/

namespace TuyaOpen.Ble

open Schema

def frmDpCmdSendV4 : UInt16 := 0x0027

inductive DpJson
  | bool (b : Bool)
  | number (val : ℤ)
  | string (s : List UInt8)
  deriving DecidableEq

/-- The table `pp_enum[0..cnt)` of a data point; only an enumeration has one. -/
def enumTable (node : SchemaNode) : List (List UInt8) :=
  match node.prop with
  | .enum _ _ => node.ppEnum
  | _ => []

/-- The case of the switch for one node and the item it adds, if it adds one.
`data2Klvlist` has put a zero behind the data, and only a string is read up to
there; `none` is any other access outside of the data or of the table. -/
def nodeJson (base64 : List UInt8 → List UInt8) (nodes : List SchemaNode) (n : KlvNode) :
    Option (Option DpJson) :=
  if n.type = dtRaw then some (some (.string (base64 n.data)))
  else if n.type = dtBool then n.data[0]?.map fun b ↦ some (.bool (decide (b ≠ 0)))
  else if n.type = dtBitmap ∨ n.type = dtValue then
    if n.data.length < 4 then none
    else some (some (.number ((Bytes.getBE n.data 0 4 : ℤ).bmod (2 ^ 32))))
  else if n.type = dtEnum then
    match n.data[0]? with
    | none => none
    | some val => match nodeFind nodes n.id.toNat with
      | none => some none
      | some node => (enumTable node)[val.toNat]?.map fun name ↦ some (.string name)
  else if n.type = dtString then
    if n.data = [] then some (some (.string []))
    else (CStr.read (n.data ++ [0]) 0).map fun s ↦ some (.string s)
  else some none

/-- The loop over the list, with the items of `dps` in their order. -/
def dpsLoop (base64 : List UInt8 → List UInt8) (nodes : List SchemaNode) :
    List KlvNode → Option (List (UInt8 × DpJson))
  | [] => some []
  | n :: rest => do
    let item ← nodeJson base64 nodes n
    let items ← dpsLoop base64 nodes rest
    pure (item.toList.map (fun json ↦ (n.id, json)) ++ items)

/-- The acknowledgement, and the items handed to `tuya_iot_dp_parse` or the code
of the failure. -/
structure DpReqOut where
  resp : Option (List UInt8)
  dps : Except OperateRet (List (UInt8 × DpJson))

def resultCodeRespV4 (data : List UInt8) (resultCode : UInt8) : Option (List UInt8) :=
  if data.length < 5 then none else some (data.take 5 ++ [resultCode])

def bleDpReq (base64 : List UInt8 → List UInt8) (nodes : List SchemaNode) (req : BlePacket) :
    Option DpReqOut :=
  if req.type ≠ frmDpCmdSendV4 then some ⟨none, .error oprtNotSupported⟩
  else do
    let resp ← resultCodeRespV4 req.data 0
    let (ret, list) ← data2Klvlist (req.data.drop 5) (usub 16 req.data.length 5)
    if ret ≠ oprtOk then pure ⟨some resp, .error oprtCjsonParseErr⟩
    else do
      let dps ← dpsLoop base64 nodes list
      pure ⟨some resp, .ok dps⟩

/-! ## What a command must bring -/

/-- The data is as long as its type assumes, and the first byte of an
enumeration is an index of the table of the data point. -/
structure NodeSuits (nodes : List SchemaNode) (n : KlvNode) : Prop where
  nonempty : n.type = dtBool ∨ n.type = dtEnum → n.data ≠ []
  word : n.type = dtBitmap ∨ n.type = dtValue → 4 ≤ n.data.length
  index : n.type = dtEnum → ∀ node, nodeFind nodes n.id.toNat = some node →
    (n.data.headD 0).toNat < (enumTable node).length

/-- There are five bytes before the list, and if a list follows, its nodes
suit. -/
structure CommandSuits (nodes : List SchemaNode) (data : List UInt8) : Prop where
  head : 5 ≤ data.length
  nodes : ∀ list, list ≠ [] → data.drop 5 = klvBytes list → ∀ n ∈ list, NodeSuits nodes n

/-- How many bytes of the data the switch reads, the terminator of a string
included. -/
def dataRead (n : KlvNode) : ℕ :=
  if n.type = dtRaw then n.data.length
  else if n.type = dtBool ∨ n.type = dtEnum then 1
  else if n.type = dtBitmap ∨ n.type = dtValue then 4
  else if n.type = dtString ∧ n.data ≠ [] then (n.data.takeWhile (· ≠ 0)).length + 1
  else 0

variable {base64 : List UInt8 → List UInt8} {nodes : List SchemaNode}

theorem nodeSuits_of_other {n : KlvNode} (h : n.type ≠ dtBool ∧ n.type ≠ dtEnum ∧
    n.type ≠ dtBitmap ∧ n.type ≠ dtValue) : NodeSuits nodes n := by
  obtain ⟨hbool, henum, hbitmap, hvalue⟩ := h
  refine ⟨?_, ?_, ?_⟩
  · rintro (h | h)
    · exact (hbool h).elim
    · exact (henum h).elim
  · rintro (h | h)
    · exact (hbitmap h).elim
    · exact (hvalue h).elim
  · exact fun h ↦ (henum h).elim

theorem nodeSuits_bool {n : KlvNode} (h : n.type = dtBool) :
    NodeSuits nodes n ↔ n.data ≠ [] := by
  refine ⟨fun hn ↦ hn.nonempty (Or.inl h), fun hne ↦ ⟨fun _ ↦ hne, ?_, ?_⟩⟩
  · exact fun hword ↦ absurd hword (by rw [h]; decide)
  · exact fun henum ↦ absurd henum (by rw [h]; decide)

theorem nodeSuits_word {n : KlvNode} (h : n.type = dtBitmap ∨ n.type = dtValue) :
    NodeSuits nodes n ↔ 4 ≤ n.data.length := by
  have hother : ¬ (n.type = dtBool ∨ n.type = dtEnum) := by
    rcases h with h | h <;> rw [h] <;> decide
  refine ⟨fun hn ↦ hn.word h, fun hword ↦ ⟨?_, fun _ ↦ hword, ?_⟩⟩
  · exact fun hne ↦ (hother hne).elim
  · exact fun henum ↦ (hother (Or.inr henum)).elim

theorem nodeSuits_enum {n : KlvNode} (h : n.type = dtEnum) :
    NodeSuits nodes n ↔ n.data ≠ [] ∧ ∀ node, nodeFind nodes n.id.toNat = some node →
      (n.data.headD 0).toNat < (enumTable node).length := by
  refine ⟨fun hn ↦ ⟨hn.nonempty (Or.inr h), hn.index h⟩, fun hn ↦ ⟨fun _ ↦ hn.1, ?_, fun _ ↦ hn.2⟩⟩
  exact fun hword ↦ absurd hword (by rw [h]; decide)

theorem nodeJson_isSome_iff (base64 : List UInt8 → List UInt8) (n : KlvNode) :
    (nodeJson base64 nodes n).isSome ↔ NodeSuits nodes n := by
  unfold nodeJson
  split_ifs with hraw hbool hword hshort henum hstring hempty
  · exact iff_of_true rfl (nodeSuits_of_other (by rw [hraw]; decide))
  · rw [nodeSuits_bool hbool]
    cases n.data <;> simp
  · rw [nodeSuits_word hword]
    simpa using hshort
  · rw [nodeSuits_word hword]
    simpa using hshort
  · rw [nodeSuits_enum henum]
    cases n.data with
    | nil => simp
    | cons val rest =>
        cases hfind : nodeFind nodes n.id.toNat with
        | none => simp
        | some node => simp
  · exact iff_of_true rfl (nodeSuits_of_other (by rw [hstring]; decide))
  · have hread : (CStr.read (n.data ++ [0]) 0).isSome := by
      simp [CStr.read]
    rw [Option.isSome_map]
    exact iff_of_true hread (nodeSuits_of_other (by rw [hstring]; decide))
  · exact iff_of_true rfl (nodeSuits_of_other ⟨hbool, henum, not_or.mp hword⟩)

theorem dpsLoop_isSome_iff (list : List KlvNode) :
    (dpsLoop base64 nodes list).isSome ↔ ∀ n ∈ list, NodeSuits nodes n := by
  induction list with
  | nil => simp [dpsLoop]
  | cons n rest ih =>
      rw [List.forall_mem_cons, ← ih, ← nodeJson_isSome_iff base64 n, dpsLoop]
      cases nodeJson base64 nodes n with
      | none => simp
      | some item => cases dpsLoop base64 nodes rest <;> simp

theorem length_takeWhile_lt_iff (data : List UInt8) :
    (data.takeWhile (· ≠ 0)).length < data.length ↔ 0 ∈ data := by
  induction data with
  | nil => simp
  | cons b rest ih =>
      by_cases hb : b = 0
      · subst hb
        simp
      · rw [List.takeWhile_cons_of_pos (by simpa using hb), List.length_cons, List.length_cons,
          Nat.add_lt_add_iff_right, ih, List.mem_cons, or_iff_right (Ne.symm hb)]

theorem dataRead_le_iff {n : KlvNode} (h : NodeSuits nodes n) :
    dataRead n ≤ n.data.length ↔ (n.type = dtString → n.data ≠ [] → 0 ∈ n.data) := by
  unfold dataRead
  split_ifs with hraw hone hword hstring
  · refine iff_of_true le_rfl fun hs ↦ absurd hs ?_
    rw [hraw]
    decide
  · have hpos := List.length_pos_iff.mpr (h.nonempty hone)
    refine iff_of_true hpos fun hs ↦ absurd hone ?_
    rw [hs]
    decide
  · refine iff_of_true (h.word hword) fun hs ↦ absurd hword ?_
    rw [hs]
    decide
  · rw [Nat.succ_le_iff, length_takeWhile_lt_iff]
    exact ⟨fun hmem _ _ ↦ hmem, fun hall ↦ hall hstring.1 hstring.2⟩
  · exact iff_of_true (Nat.zero_le _) fun hs hne ↦ (hstring ⟨hs, hne⟩).elim

/-! ## Every command -/

/-- Every read lies inside of the packet, of the data of its node without the
terminator behind it, or of the table of the data point. -/
def ReadsInside (base64 : List UInt8 → List UInt8) (nodes : List SchemaNode) (req : BlePacket) :
    Prop :=
  (bleDpReq base64 nodes req).isSome ∧
    ∀ list, data2Klvlist (req.data.drop 5) (usub 16 req.data.length 5) = some (oprtOk, list) →
      ∀ n ∈ list, dataRead n ≤ n.data.length

/-- The strings of a command bring a terminator of their own. -/
def StringsClosed (data : List UInt8) : Prop :=
  ∀ list, list ≠ [] → data.drop 5 = klvBytes list → ∀ n ∈ list,
    n.type = dtString → n.data ≠ [] → 0 ∈ n.data

variable {req : BlePacket}

theorem bleDpReq_short (htype : req.type = frmDpCmdSendV4) (hshort : req.data.length < 5) :
    bleDpReq base64 nodes req = none := by
  rw [bleDpReq, if_neg (not_not.mpr htype), resultCodeRespV4, if_pos hshort]
  rfl

theorem data2Klvlist_parsed (hlong : 5 ≤ req.data.length) (hlen : req.data.length < 2 ^ 16)
    {list : List KlvNode} (hne : list ≠ []) (htext : req.data.drop 5 = klvBytes list) :
    data2Klvlist (req.data.drop 5) (usub 16 req.data.length 5) = some (oprtOk, list.reverse) := by
  rw [usub_of_le hlong hlen, ← List.length_drop, htext]
  apply data2Klvlist_klvBytes hne
  rw [← htext, List.length_drop]
  omega

theorem data2Klvlist_unparsed (hlong : 5 ≤ req.data.length) (hlen : req.data.length < 2 ^ 16)
    (hno : ∀ list, list ≠ [] → req.data.drop 5 ≠ klvBytes list) :
    data2Klvlist (req.data.drop 5) (usub 16 req.data.length 5) = some (oprtComError, []) := by
  have hdrop : (req.data.drop 5).length < 2 ^ 32 := by
    rw [List.length_drop]
    omega
  rw [usub_of_le hlong hlen, ← List.length_drop]
  rcases data2Klvlist_spec hdrop with ⟨list, hne, htext, -⟩ | ⟨-, hrun⟩
  · exact (hno list hne htext).elim
  · exact hrun

theorem bleDpReq_parsed (htype : req.type = frmDpCmdSendV4) (hlong : 5 ≤ req.data.length)
    (hlen : req.data.length < 2 ^ 16) {list : List KlvNode} (hne : list ≠ [])
    (htext : req.data.drop 5 = klvBytes list) :
    bleDpReq base64 nodes req = (dpsLoop base64 nodes list.reverse).map fun dps ↦
      ⟨some (req.data.take 5 ++ [0]), .ok dps⟩ := by
  rw [bleDpReq, if_neg (not_not.mpr htype), resultCodeRespV4, if_neg (by omega)]
  simp only [Option.bind_eq_bind, Option.bind_some, data2Klvlist_parsed hlong hlen hne htext,
    ne_eq, not_true_eq_false, if_false]
  cases dpsLoop base64 nodes list.reverse <;> rfl

theorem bleDpReq_unparsed (htype : req.type = frmDpCmdSendV4) (hlong : 5 ≤ req.data.length)
    (hlen : req.data.length < 2 ^ 16)
    (hno : ∀ list, list ≠ [] → req.data.drop 5 ≠ klvBytes list) :
    bleDpReq base64 nodes req =
      some ⟨some (req.data.take 5 ++ [0]), .error oprtCjsonParseErr⟩ := by
  rw [bleDpReq, if_neg (not_not.mpr htype), resultCodeRespV4, if_neg (by omega)]
  simp only [Option.bind_eq_bind, Option.bind_some, data2Klvlist_unparsed hlong hlen hno]
  rfl

theorem commandSuits_iff {data : List UInt8} (hlong : 5 ≤ data.length) {list : List KlvNode}
    (hne : list ≠ []) (htext : data.drop 5 = klvBytes list) :
    CommandSuits nodes data ↔ ∀ n ∈ list, NodeSuits nodes n := by
  refine ⟨fun h ↦ h.nodes list hne htext, fun h ↦ ⟨hlong, ?_⟩⟩
  intro list' _ htext'
  rw [klvBytes_injective (htext'.symm.trans htext)]
  exact h

/-- A command is read inside of its buffers exactly when it brings what its
types assume, and without the added terminators when its strings are closed
too. -/
theorem ble_dp_req_reads_inside (base64 : List UInt8 → List UInt8) (nodes : List SchemaNode)
    (req : BlePacket) (htype : req.type = frmDpCmdSendV4) (hlen : req.data.length < 2 ^ 16) :
    ((bleDpReq base64 nodes req).isSome ↔ CommandSuits nodes req.data) ∧
      (ReadsInside base64 nodes req ↔ CommandSuits nodes req.data ∧ StringsClosed req.data) := by
  have hsome : (bleDpReq base64 nodes req).isSome ↔ CommandSuits nodes req.data := by
    by_cases hshort : req.data.length < 5
    · rw [bleDpReq_short htype hshort]
      refine iff_of_false (by simp) fun h ↦ ?_
      have hhead := h.head
      omega
    rw [not_lt] at hshort
    by_cases htext : ∃ list, list ≠ [] ∧ req.data.drop 5 = klvBytes list
    · obtain ⟨list, hne, htext⟩ := htext
      rw [bleDpReq_parsed htype hshort hlen hne htext, Option.isSome_map, dpsLoop_isSome_iff,
        commandSuits_iff hshort hne htext]
      simp only [List.mem_reverse]
    · simp only [not_exists, not_and] at htext
      rw [bleDpReq_unparsed htype hshort hlen htext]
      refine iff_of_true rfl ⟨hshort, ?_⟩
      intro list hne heq
      exact (htext list hne heq).elim
  refine ⟨hsome, ?_⟩
  rw [ReadsInside, hsome]
  apply and_congr_right
  intro hsuits
  constructor
  · intro hread list hne htext n hn
    apply (dataRead_le_iff (hsuits.nodes list hne htext n hn)).mp
    exact hread _ (data2Klvlist_parsed hsuits.head hlen hne htext) n (List.mem_reverse.mpr hn)
  · intro hclosed list hrun n hn
    by_cases htext : ∃ list, list ≠ [] ∧ req.data.drop 5 = klvBytes list
    · obtain ⟨list', hne, htext⟩ := htext
      rw [data2Klvlist_parsed hsuits.head hlen hne htext] at hrun
      obtain ⟨-, rfl⟩ := Prod.mk.inj (Option.some.inj hrun)
      rw [List.mem_reverse] at hn
      apply (dataRead_le_iff (hsuits.nodes list' hne htext n hn)).mpr
      exact hclosed list' hne htext n hn
    · simp only [not_exists, not_and] at htext
      rw [data2Klvlist_unparsed hsuits.head hlen htext] at hrun
      exact absurd (Prod.mk.inj (Option.some.inj hrun)).1 (by decide)

/-! A switch command for data point `1` with a byte, which suits, and one
without. -/

def switchCommand : BlePacket := ⟨1, frmDpCmdSendV4, [0, 0, 0, 0, 1, 1, dtBool, 0, 1, 1], 0⟩

def emptyCommand : BlePacket := ⟨1, frmDpCmdSendV4, [0, 0, 0, 0, 1, 1, dtBool, 0, 0], 0⟩

theorem ble_dp_req_reads_inside_switch :
    (bleDpReq id lampNodes switchCommand).isSome = true ∧
      CommandSuits lampNodes switchCommand.data := by
  have hsome : (bleDpReq id lampNodes switchCommand).isSome = true := by decide
  exact ⟨hsome, (ble_dp_req_reads_inside id lampNodes switchCommand rfl (by decide)).1.mp hsome⟩

/-- A packet without data, a switch without a byte and a level of three bytes are
all read outside of what they bring. -/
theorem ble_dp_req_not_reads_inside :
    ¬ (bleDpReq id lampNodes ⟨1, frmDpCmdSendV4, [], 0⟩).isSome ∧
      ¬ (bleDpReq id lampNodes emptyCommand).isSome ∧
      ¬ ReadsInside id lampNodes ⟨1, frmDpCmdSendV4, [0, 0, 0, 0, 1, 2, dtValue, 0, 3, 0, 0, 7],
        0⟩ := by
  refine ⟨by decide, by decide, fun h ↦ ?_⟩
  exact absurd h.1 (by decide)

end TuyaOpen.Ble
