import Mathlib.Algebra.Ring.Int.Defs
import Mathlib.Algebra.Ring.Nat
import TuyaOpen.Schema.SchemaNode

/-!
# Received data points, `dp_data_recv_parse`

A message carries its data points as the items of a JSON object.  The first
walk over them counts the items that name an object data point, and the record
for the callback is allocated for that many.  The second walk decodes the items
and writes the entries of the record one behind the other.
-/

namespace TuyaOpen.Schema

/-! ## JSON, as the library hands it over -/

inductive JsonType
  | invalid
  | jsonFalse
  | jsonTrue
  | null
  | number
  | string (valuestring : List UInt8)
  | array
  | object
  | raw
  deriving DecidableEq

/-- An item of an object has a name, an item of an array has none. -/
structure CJson where
  string : Option (List UInt8)
  type : JsonType
  valueint : ℤ
  deriving DecidableEq

def CJson.isBool (item : CJson) : Bool :=
  decide (item.type = .jsonFalse) || decide (item.type = .jsonTrue)

structure DpRecvMsg where
  devid : List UInt8
  cmd : ℕ
  dtTp : ℕ
  deriving DecidableEq

structure DpRawRecv where
  cmdTp : ℕ
  dttTp : ℕ
  devid : List UInt8
  id : ℕ
  data : List UInt8
  deriving DecidableEq

structure DpObjRecv where
  cmdTp : ℕ
  dttTp : ℕ
  devid : List UInt8
  dpscnt : ℕ
  dps : List DpEntry
  deriving DecidableEq

/-- An entry of the record as `memset` leaves it. -/
def DpEntry.zero : DpEntry where
  id := 0
  value := .bool false
  timeStamp := 0

/-- What the code calls and does not contain: the number at the start of a
name, the decoding of a raw value, the clock at each entry, and whether memory
is there for the record and for each raw value. -/
structure RecvEnv where
  atoi : List UInt8 → ℤ
  base64Decode : List UInt8 → List UInt8
  posix : ℕ → ℕ
  mallocDpobj : Bool
  mallocRaw : ℕ → Bool

variable (env : RecvEnv) (preprocess : Bool) (msg : DpRecvMsg)

/-! ## The first walk -/

/-- The data point that a name names; an item without a name is a null pointer. -/
def RecvEnv.find (nodes : List SchemaNode) (item : CJson) : Option SchemaNode :=
  item.string.bind fun name ↦ nodeFind nodes (env.atoi name)

def SchemaNode.query (n : SchemaNode) : SchemaNode :=
  if preprocess = true ∧ n.passive = .psvTrue then { n with passive := .psvFOnce } else n

/-- The count is kept in 16 bits. -/
def recvCountLoop : ℕ → List CJson → List SchemaNode → Option (ℕ × List SchemaNode)
  | dpscnt, [], nodes => some (dpscnt, nodes)
  | dpscnt, item :: rest, nodes =>
    match item.string with
    | none => none
    | some name =>
      match nodeFind nodes (env.atoi name) with
      | none => recvCountLoop dpscnt rest nodes
      | some node =>
        recvCountLoop (if node.type = .obj then (dpscnt + 1) % 2 ^ 16 else dpscnt) rest
          (nodeSet nodes (env.atoi name) (SchemaNode.query preprocess))

/-! ## The second walk -/

/-- The switch over the property type: the value that is written, or nothing
for an item that is passed over.  An item of an enumeration that is no string
leaves the switch without a value, and its entry keeps the zeros; the type of
an item of a bitmap is not looked at. -/
def recvValue (node : SchemaNode) (item : CJson) : Option DpValue :=
  match node.prop with
  | .bool _ => if item.isBool then some (.bool (decide (item.type = .jsonTrue))) else none
  | .int _ _ _ => if item.type = .number then some (.value item.valueint) else none
  | .str _ _ _ => match item.type with
    | .string valuestring => some (.str valuestring)
    | _ => none
  | .enum _ _ => match item.type with
    | .string valuestring => (node.ppEnum.findIdx? fun name ↦ name = valuestring).map .enum
    | _ => some (.enum 0)
  | .bitmap _ => some (.bitmap (item.valueint % 2 ^ 32).toNat)

/-- The text of an item that takes the way of raw data points. -/
def rawText (node : SchemaNode) (item : CJson) : Option (List UInt8) :=
  match item.type with
  | .string valuestring => if node.type = .raw then some valuestring else none
  | _ => none

inductive RecvStop
  | finished
  | noMemory
  | nullName
  deriving DecidableEq

/-- What the second walk did: the entries it wrote, each with its index, the
raw data points it handed to the callback, the nodes, and how it ended. -/
structure RecvWalk where
  writes : List (ℕ × DpEntry)
  raws : List DpRawRecv
  nodes : List SchemaNode
  stop : RecvStop

def RecvWalk.write (w : ℕ × DpEntry) (walk : RecvWalk) : RecvWalk :=
  { walk with writes := w :: walk.writes }

def RecvWalk.callback (raw : DpRawRecv) (walk : RecvWalk) : RecvWalk :=
  { walk with raws := raw :: walk.raws }

/-- `i` counts the entries and `r` the raw values. -/
def recvLoop : ℕ → ℕ → List CJson → List SchemaNode → RecvWalk
  | _, _, [], nodes => { writes := [], raws := [], nodes := nodes, stop := .finished }
  | i, r, item :: rest, nodes =>
    match item.string with
    | none => { writes := [], raws := [], nodes := nodes, stop := .nullName }
    | some name =>
      match nodeFind nodes (env.atoi name) with
      | none => recvLoop i r rest nodes
      | some node =>
        match rawText node item with
        | some valuestring =>
          if env.mallocRaw r then
            (recvLoop i (r + 1) rest nodes).callback
              { cmdTp := msg.cmd, dttTp := msg.dtTp, devid := msg.devid, id := node.id
                data := env.base64Decode valuestring }
          else { writes := [], raws := [], nodes := nodes, stop := .noMemory }
        | none =>
          let nodes' := nodeSet nodes (env.atoi name) fun n ↦ { n with pvStat := .local }
          match recvValue node item with
          | none => recvLoop i r rest nodes'
          | some value =>
            (recvLoop (i + 1) r rest nodes').write
              (i, { id := node.id, value := value, timeStamp := env.posix i })

/-! ## The call -/

/-- A write to the record; outside of it anything may happen. -/
def writeDps (dps : List DpEntry) (w : ℕ × DpEntry) : Option (List DpEntry) :=
  if w.1 < dps.length then some (dps.set w.1 w.2) else none

/-- A call: how much the record was allocated for, the entries that were
written, and, unless memory was touched that is not the call's, the code and
the record that the callback got. -/
structure RecvCall where
  dpscnt : ℕ
  allocated : Bool
  writes : List (ℕ × DpEntry)
  raws : List DpRawRecv
  nodes : List SchemaNode
  result : Option (OperateRet × Option DpObjRecv)

/-- The record as it is handed over, if there is one. -/
def RecvCall.handed (msg : DpRecvMsg) (dpscnt : ℕ) (dps : List DpEntry) : Option DpObjRecv :=
  if dpscnt = 0 then none
  else some
    { cmdTp := msg.cmd, dttTp := msg.dtTp, devid := msg.devid, dpscnt := dpscnt, dps := dps }

def dpDataRecvParse (schema : Option (List SchemaNode)) (dps : Option (List CJson)) : RecvCall :=
  match schema, dps with
  | some nodes, some items =>
    match recvCountLoop env preprocess 0 items nodes with
    | none =>
      { dpscnt := 0, allocated := false, writes := [], raws := [], nodes := nodes, result := none }
    | some (dpscnt, nodes) =>
      if dpscnt ≠ 0 ∧ env.mallocDpobj = false then
        { dpscnt := dpscnt, allocated := false, writes := [], raws := [], nodes := nodes
          result := some (oprtMallocFailed, none) }
      else
        let walk := recvLoop env msg 0 0 items nodes
        { dpscnt := dpscnt
          allocated := decide (dpscnt ≠ 0)
          writes := walk.writes
          raws := walk.raws
          nodes := walk.nodes
          result := (walk.writes.foldlM writeDps (List.replicate dpscnt DpEntry.zero)).bind
            fun dps ↦
            match walk.stop with
            | .finished => some (oprtOk, RecvCall.handed msg dpscnt dps)
            | .noMemory => some (oprtOk, none)
            | .nullName => none }
  | nodes, _ =>
    { dpscnt := 0, allocated := false, writes := [], raws := [], nodes := nodes.getD []
      result := some (oprtComError, none) }

end TuyaOpen.Schema
