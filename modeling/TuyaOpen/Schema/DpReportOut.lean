import TuyaOpen.Schema.DpReportRun

/-!
# The two ways out of a report

An accepted report goes out as JSON, `dp_rept_json_output`, into a buffer of
the estimated length; or, when Bluetooth is connected, as an array that
`tuya_iot_dp_obj_report` copies together.  Both look the listed ids up in the
report again.
-/

namespace TuyaOpen.Schema

/-! ## JSON -/

/-- The digits of `%u`. -/
def decimal (n : ℕ) : List UInt8 := (Nat.toDigits 10 n).map fun c ↦ c.toNat.toUInt8

/-- The digits of `%d`. -/
def decimalInt (v : ℤ) : List UInt8 := if v < 0 then 45 :: decimal v.natAbs else decimal v.natAbs

/-- `dp_snprintf_append`: the terminator has to fit as well. -/
def dpSnprintfAppend (bufLen : ℕ) (text s : List UInt8) : Option (List UInt8) :=
  if bufLen ≤ text.length then none
  else if bufLen - text.length ≤ s.length then none
  else some (text ++ s)

/-- `"id":` -/
def jsonKey (id : ℕ) : List UInt8 := 34 :: decimal id ++ [34, 58]

/-- What is appended for a data point; `escape` is how the JSON library prints a
byte of a string.  An enumerator without a name is read behind the names. -/
def jsonField (escape : UInt8 → List UInt8) (dp : DpEntry) (node : SchemaNode) :
    Option (List UInt8) :=
  match dp.value with
  | .bool true => some (jsonKey dp.id ++ [116, 114, 117, 101, 44])
  | .bool false => some (jsonKey dp.id ++ [102, 97, 108, 115, 101, 44])
  | .value v => some (jsonKey dp.id ++ decimalInt v ++ [44])
  | .bitmap b => some (jsonKey dp.id ++ decimal b ++ [44])
  | .str s => some (jsonKey dp.id ++ [34] ++ s.flatMap escape ++ [34, 44])
  | .enum e => node.ppEnum[e]?.map fun name ↦ jsonKey dp.id ++ [34] ++ name ++ [34, 44]

def jsonTimeField (dp : DpEntry) : List UInt8 := jsonKey dp.id ++ decimal dp.timeStamp ++ [44]

inductive JsonStop
  | fault
  | code (ret : OperateRet)
  deriving DecidableEq

/-- The first element of the report that has an id. -/
def DpReptIn.first (dpin : DpReptIn) (id : ℕ) : Option DpEntry := dpin.dps.find? fun dp ↦ dp.id = id

variable (escape : UInt8 → List UInt8) (nodes : List SchemaNode) (dpin : DpReptIn) (v : DpReptValid)

/-- One id of the loop of `dp_rept_json_output`, with the texts so far. -/
def jsonStep (needTime : Bool) (text : List UInt8 × List UInt8) (id : ℕ) :
    Except JsonStop (List UInt8 × List UInt8) :=
  match dpin.first id with
  | none => .error (.code oprtSvcDpIdNotFound)
  | some dp =>
    match nodeFind nodes dp.id with
    | none => .error (.code oprtSvcDpIdNotFound)
    | some node =>
      if sameType dp.value node.prop = false then .error (.code oprtSvcDpTpNotMatch)
      else
        match jsonField escape dp node with
        | none => .error .fault
        | some field =>
          match dpSnprintfAppend v.len text.1 field with
          | none => .error (.code oprtBufferNotEnough)
          | some dps =>
            if needTime ∧ dp.timeStamp ≠ 0 then
              match dpSnprintfAppend v.timelen text.2 (jsonTimeField dp) with
              | none => .error (.code oprtBufferNotEnough)
              | some times => .ok (dps, times)
            else .ok (dps, text.2)

/-- The texts of a report, when every allocation succeeds; `timejson` says
whether the caller wants the times. -/
def dpReptJsonText (reptType : DpReptType) (timejson : Bool) :
    Except JsonStop (List UInt8 × Option (List UInt8)) :=
  let needTime := decide (reptType = .statRept) && decide (v.timelen ≠ 0) && timejson
  if v.len = 0 then .error (.code oprtBufferNotEnough)
  else
    match (v.dpid.take v.num).foldlM (jsonStep escape nodes dpin v needTime)
      ([123], if needTime then [123] else []) with
    | .error stop => .error stop
    | .ok (dps, times) =>
      if v.len ≤ dps.length + 1 then .error (.code oprtBufferNotEnough)
      else if needTime ∧ v.timelen ≤ times.length + 1 then .error (.code oprtBufferNotEnough)
      else .ok (dps.dropLast ++ [125], if needTime then some (times.dropLast ++ [125]) else none)

/-! ## Bluetooth -/

/-- The sizes of `dp_rept_in_t` and `dp_obj_t`; the first has a byte, a word, two
pointers and a byte. -/
structure ReptSizes where
  reptIn : ℕ
  obj : ℕ
  reptIn_gt : 4 < reptIn

/-- The copies that are made for the listed ids, each with its index: every
element that has the id is copied, one over the other. -/
def bleCopies : List (ℕ × DpEntry) :=
  (v.dpid.take v.num).zipIdx.flatMap fun p ↦
    (dpin.dps.filter fun dp ↦ decide (dp.id = p.1)).map fun dp ↦ (p.2, dp)

/-- Where a copy begins: the array is put `sizeof(dp_rept_in_t)` records, and not
bytes, behind the start of the block. -/
def bleOffset (sizes : ReptSizes) (i : ℕ) : ℕ := sizes.reptIn * sizes.reptIn + i * sizes.obj

/-- The size of the block. -/
def bleBlock (sizes : ReptSizes) : ℕ := sizes.reptIn + sizes.obj * v.num

/-- The data points that are handed to `tuya_ble_dp_report`, if the copies stand. -/
def bleDps : List (ℕ × DpValue) :=
  (v.dpid.take v.num).filterMap fun id ↦
    ((dpin.dps.filter fun dp ↦ decide (dp.id = id)).getLast?).map fun dp ↦ (dp.id, dp.value)

/-- The data points that the JSON is made of. -/
def jsonDps : List (ℕ × DpValue) :=
  (v.dpid.take v.num).filterMap fun id ↦ (dpin.first id).map fun dp ↦ (dp.id, dp.value)

end TuyaOpen.Schema
