import TuyaOpen.Ai.Packet
import TuyaOpen.Lib.ByteMem

/-!
# Attribute lists of `tuya_ai_protocol.c`

A record is a type, a payload type, a length and the value, integers big-endian.
The parser walks the records twice, to count them and to decode them, in 32-bit
offsets from the address it was given.  Nothing tells it where the memory ends, so
the model keeps every read.  A loop that runs for ever has no result for any fuel.
-/

namespace TuyaOpen.Ai

open Bytes ByteMem

def attrPtU8 : UInt8 := 1
def attrPtU16 : UInt8 := 2
def attrPtU32 : UInt8 := 3
def attrPtU64 : UInt8 := 4
def attrPtBytes : UInt8 := 5
def attrPtStr : UInt8 := 6

def aiAttrConnectStatusCode : ℕ := 24
def aiAttrConnectCloseErrCode : ℕ := 31

/-- A copy out of the memory: where it starts and how many bytes it takes. -/
structure Read where
  start : ℕ
  len : ℕ
  deriving DecidableEq

/-- The read takes nothing from behind the first `lim` bytes. -/
def Read.Inside (lim : ℕ) (r : Read) : Prop := r.len = 0 ∨ r.start + r.len ≤ lim

/-- A decoded value.  Bytes and strings stay where they are in the memory. -/
inductive AttrRef where
  | u8 (v : ℕ)
  | u16 (v : ℕ)
  | u32 (v : ℕ)
  | u64 (v : ℕ)
  | bytes (start : ℕ)
  | str (start : ℕ)
  deriving DecidableEq

/-- `AI_ATTRIBUTE_T` as the parser fills it. -/
structure ParsedAttr where
  type : ℕ
  payloadType : UInt8
  length : ℕ
  value : AttrRef
  deriving DecidableEq

/-! ## The fields of a record -/

def recordType (m : Mem) (offset : ℕ) : ℕ := decodeBE (slice m offset 2)

def recordPt (m : Mem) (offset : ℕ) : UInt8 := m (u32 (offset + 2))

def recordLength (m : Mem) (offset : ℕ) : ℕ := decodeBE (slice m (u32 (offset + 3)) 4)

def recordStart (offset : ℕ) : ℕ := u32 (offset + 7)

def nextRecord (m : Mem) (offset : ℕ) : ℕ := u32 (recordStart offset + recordLength m offset)

/-! ## Counting -/

/-- The loop of `tuya_ai_get_attr_num`: the count and what was read for it. -/
def tuyaAiGetAttrNumLoop (m : Mem) (attrLen : ℕ) : ℕ → ℕ → ℕ → Option (ℕ × List Read)
  | 0, _, _ => none
  | fuel + 1, offset, idx =>
      if offset < attrLen then
        match tuyaAiGetAttrNumLoop m attrLen fuel (nextRecord m offset) (u32 (idx + 1)) with
        | none => none
        | some (num, reads) => some (num, ⟨u32 (offset + 3), 4⟩ :: reads)
      else some (idx, [])

def tuyaAiGetAttrNum (m : Mem) (attrLen fuel : ℕ) : Option (ℕ × List Read) :=
  tuyaAiGetAttrNumLoop m attrLen fuel 0 0

/-! ## Decoding -/

/-- An integer of `size` bytes of which a shorter record fills only the first. -/
def readInt (m : Mem) (start length size : ℕ) : ℕ :=
  decodeBE (slice m start (min length size) ++ List.replicate (size - min length size) 0)

/-- The value of a record of known payload type, and the copy made for it. -/
def recordValue (m : Mem) (pt : UInt8) (start length : ℕ) : Option (AttrRef × Read) :=
  if pt = attrPtU8 then some (.u8 (readInt m start length 1), ⟨start, min length 1⟩)
  else if pt = attrPtU16 then some (.u16 (readInt m start length 2), ⟨start, min length 2⟩)
  else if pt = attrPtU32 then some (.u32 (readInt m start length 4), ⟨start, min length 4⟩)
  else if pt = attrPtU64 then some (.u64 (readInt m start length 8), ⟨start, min length 8⟩)
  else if pt = attrPtBytes then some (.bytes start, ⟨start, 0⟩)
  else if pt = attrPtStr then some (.str start, ⟨start, 0⟩)
  else none

def aiCheckAttrVaild (type : ℕ) (payloadType : UInt8) (length : ℕ) : Bool :=
  if (type = aiAttrConnectStatusCode ∨ type = aiAttrConnectCloseErrCode) ∧
      payloadType ≠ attrPtU16 then false
  else if payloadType = attrPtU8 then length = 1
  else if payloadType = attrPtU16 then length = 2
  else if payloadType = attrPtU32 then length = 4
  else if payloadType = attrPtU64 then length = 8
  else if payloadType = attrPtStr ∨ payloadType = attrPtBytes then length ≠ 0
  else true

def recordHeadReads (offset : ℕ) : List Read :=
  [⟨offset, 2⟩, ⟨u32 (offset + 2), 1⟩, ⟨u32 (offset + 3), 4⟩]

def recordAttr (m : Mem) (offset : ℕ) (value : AttrRef) : ParsedAttr where
  type := recordType m offset
  payloadType := recordPt m offset
  length := recordLength m offset
  value := value

/-- The reads, and the attribute with the offset behind it. -/
def tuyaAiGetAttrValue (m : Mem) (offset : ℕ) :
    List Read × Except OperateRet (ParsedAttr × ℕ) :=
  let start := recordStart offset
  match recordValue m (recordPt m offset) start (recordLength m offset) with
  | none => (recordHeadReads offset, .error oprtComError)
  | some (value, read) =>
      let reads := recordHeadReads offset ++ [read]
      if u32 (start + recordLength m offset) < start then (reads, .error oprtComError)
      else if aiCheckAttrVaild (recordType m offset) (recordPt m offset) (recordLength m offset)
      then (reads, .ok (recordAttr m offset value, nextRecord m offset))
      else (reads, .error oprtComError)

/-- What decoding did: its reads, the array entries it wrote and the result. -/
structure DecodeRun where
  reads : List Read
  filled : ℕ
  result : Except OperateRet (List ParsedAttr)

def DecodeRun.behind (reads : List Read) (a : ParsedAttr) (d : DecodeRun) : DecodeRun where
  reads := reads ++ d.reads
  filled := d.filled + 1
  result := match d.result with
    | .error e => .error e
    | .ok attrs => .ok (a :: attrs)

/-- The second loop of `tuya_parse_user_attrs`. -/
def decodeLoop (m : Mem) (attrLen : ℕ) : ℕ → ℕ → Option DecodeRun
  | 0, _ => none
  | fuel + 1, offset =>
      if offset < attrLen then
        match tuyaAiGetAttrValue m offset with
        | (reads, .error e) => some ⟨reads, 1, .error e⟩
        | (reads, .ok (a, next)) =>
            match decodeLoop m attrLen fuel next with
            | none => none
            | some d => some (d.behind reads a)
      else some ⟨[], 0, .ok []⟩

structure ParseRun where
  num : ℕ
  reads : List Read
  filled : ℕ
  result : Except OperateRet (List ParsedAttr)

/-- `mem` tells whether the array is allocated. -/
def tuyaParseUserAttrs (m : Mem) (attrLen : ℕ) (mem : Bool) (fuel : ℕ) : Option ParseRun :=
  match tuyaAiGetAttrNum m attrLen fuel with
  | none => none
  | some (num, reads) =>
      if mem = false then some ⟨num, reads, 0, .error oprtMallocFailed⟩
      else
        match decodeLoop m attrLen fuel 0 with
        | none => none
        | some d => some ⟨num, reads ++ d.reads, d.filled, d.result⟩

/-! ## Packing -/

/-- The buffer has the announced length, which is a sum of 32 bits. -/
def tuyaPackUserAttrs (mem : Bool) (attrs : List AiAttribute) : Except Fault (List UInt8) :=
  if mem = false then .error (.ret oprtMallocFailed)
  else packAttrs (u32 (attrs.map fun a ↦ 7 + a.value.length).sum) attrs []

end TuyaOpen.Ai
