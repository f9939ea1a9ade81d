import TuyaOpen.Lib.Keyed
import TuyaOpen.Schema.DpSchema

/-!
# The nodes of a schema with all they hold, `dp_schema.c`

`DpSchema` models what the cache of a data point has to do with reports.  A
node also holds the names of an enumeration and the time of a statistic, and
`dp_node_parse` leaves it in a state that later code relies on: there are as
many names as the count says, and a data point that is no object keeps the
zeros of the allocation in its property.
-/

namespace TuyaOpen.Schema

/-- A data point as a report and a received message carry it, `dp_obj_t`. -/
structure DpEntry extends DpObj where
  timeStamp : ℕ
  deriving DecidableEq

structure SchemaNode extends DpNode where
  ppEnum : List (List UInt8)
  timeStamp : ℕ
  names : ∀ cnt value, prop = .enum cnt value → ppEnum.length = cnt
  fits : ∀ maxLen curLen s, prop = .str maxLen curLen (some s) → s.length ≤ curLen
  zeroed : type ≠ .obj → prop = .bool false
  deriving DecidableEq

def SchemaNode.key (n : SchemaNode) : ℤ := n.id

/-- `dp_node_find`; the id is an `int` there. -/
def nodeFind (nodes : List SchemaNode) (id : ℤ) : Option SchemaNode :=
  Keyed.lookup SchemaNode.key nodes id

/-- The node that `dp_node_find` finds is changed in place. -/
def nodeSet (nodes : List SchemaNode) (id : ℤ) (f : SchemaNode → SchemaNode) : List SchemaNode :=
  Keyed.modify SchemaNode.key id f nodes

theorem nodeFind_mem {nodes : List SchemaNode} {id : ℤ} {n : SchemaNode}
    (h : nodeFind nodes id = some n) : n ∈ nodes ∧ (n.id : ℤ) = id :=
  Keyed.mem_of_lookup h

theorem nodeFind_nodeSet {nodes : List SchemaNode} {id : ℤ} {f : SchemaNode → SchemaNode}
    (hf : ∀ n, (f n).id = n.id) (id' : ℤ) :
    nodeFind (nodeSet nodes id f) id' =
      if id' = id then (nodeFind nodes id).map f else nodeFind nodes id' := by
  have hkey : ∀ n : SchemaNode, n.key = id → (f n).key = id := by
    intro n hn
    rw [SchemaNode.key, hf, ← hn, SchemaNode.key]
  rw [nodeFind, nodeSet, Keyed.lookup_modify hkey]
  by_cases hid : id' = id
  · rw [if_pos hid, hid, Function.update_self]
    rfl
  · rw [if_neg hid, Function.update_of_ne hid]
    rfl

/-! ## A lamp with a switch, a level, a raw map and a bitmap of faults -/

def lampSwitch : SchemaNode where
  id := 1
  mode := .rw
  passive := .psvFalse
  type := .obj
  trig := .pulse
  prop := .bool false
  pvStat := .invalid
  ppEnum := []
  timeStamp := 0
  names := fun _ _ h ↦ nomatch h
  fits := fun _ _ _ h ↦ nomatch h
  zeroed := fun h ↦ (h rfl).elim

def lampLevel : SchemaNode where
  id := 2
  mode := .rw
  passive := .psvFalse
  type := .obj
  trig := .pulse
  prop := .int 0 1000 0
  pvStat := .invalid
  ppEnum := []
  timeStamp := 0
  names := fun _ _ h ↦ nomatch h
  fits := fun _ _ _ h ↦ nomatch h
  zeroed := fun h ↦ (h rfl).elim

def lampMap : SchemaNode where
  id := 3
  mode := .rw
  passive := .psvFalse
  type := .raw
  trig := .pulse
  prop := .bool false
  pvStat := .invalid
  ppEnum := []
  timeStamp := 0
  names := fun _ _ h ↦ nomatch h
  fits := fun _ _ _ h ↦ nomatch h
  zeroed := fun _ ↦ rfl

def lampFault : SchemaNode where
  id := 4
  mode := .ro
  passive := .psvFalse
  type := .obj
  trig := .pulse
  prop := .bitmap 0
  pvStat := .invalid
  ppEnum := []
  timeStamp := 0
  names := fun _ _ h ↦ nomatch h
  fits := fun _ _ _ h ↦ nomatch h
  zeroed := fun h ↦ (h rfl).elim

def lampNodes : List SchemaNode := [lampSwitch, lampLevel, lampMap, lampFault]

end TuyaOpen.Schema
