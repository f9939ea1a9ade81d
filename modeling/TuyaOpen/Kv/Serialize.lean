import TuyaOpen.Common.ErrorCode
import TuyaOpen.Lib.Bytes
import TuyaOpen.Lib.JsonRead
import TuyaOpen.Utilities.Base64

/-!
# Properties as JSON

`kv_serialize.c`: an array of properties is printed as one JSON object, into a buffer whose size
is counted before, and is read back with cJSON.
-/

namespace TuyaOpen.Kv

open Bytes JsonRead Utilities

/-- What `val` points to, by the type `tp`.  Of a string, whose buffer has `len` bytes, it is the
text before the zero. -/
inductive KvVal where
  | char (v : UInt8)
  | byte (v : UInt8)
  | short (v : Int16)
  | ushort (v : UInt16)
  | int (v : Int32)
  | bool (v : Bool)
  | string (text : List UInt8) (len : ℕ)
  | raw (bytes : List UInt8)
  deriving DecidableEq

/-- `kv_db_t`. -/
structure KvDb where
  key : List UInt8
  val : KvVal
  deriving DecidableEq

/-- A key and a text are without zeros, the text has room with its zero, and a length has 16
bits. -/
structure KvDb.Ok (e : KvDb) : Prop where
  key : 0 ∉ e.key
  string : ∀ text len, e.val = .string text len → 0 ∉ text ∧ text.length < len ∧ len < 2 ^ 16
  raw : ∀ bytes, e.val = .raw bytes → bytes.length < 2 ^ 16

/-! ## `kv_serialize` -/

/-- What is counted for a value. -/
def kvValueLen : KvVal → ℕ
  | .bool _ => 6 + 6
  | .string text len => if text = [] then len + 4 + 4 else len + 6
  | .raw bytes =>
      bytes.length / 3 * 4 + (if bytes.length % 3 = 0 then 0 else 4) +
        if bytes.length = 0 then 4 + 4 else 6
  | _ => 11 + 6

def kvSize (db : List KvDb) : ℕ :=
  (db.map fun e ↦ kvValueLen e.val + (e.key.length + 2)).sum + 3

/-- `sprintf` behind what is printed, with its zero; `none` is a write behind the buffer. -/
def kvPrint (size : ℕ) (text out : List UInt8) : Option (List UInt8) :=
  if out.length + text.length + 1 ≤ size then some (out ++ text) else none

/-- The text of a value, but of a raw one. -/
def kvValueText (charSigned : Bool) : KvVal → List UInt8
  | .char v => intText (charValue charSigned v)
  | .byte v => intText v.toNat
  | .short v => intText v.toInt
  | .ushort v => intText v.toNat
  | .int v => intText v.toInt
  | .bool v => if v then [0x74, 0x72, 0x75, 0x65] else [0x66, 0x61, 0x6c, 0x73, 0x65]
  | .string text _ => if text = [] then [0x6e, 0x75, 0x6c, 0x6c] else 0x22 :: (text ++ [0x22])
  | .raw bytes =>
      if bytes = [] then [0x6e, 0x75, 0x6c, 0x6c] else 0x22 :: (base64Encode bytes ++ [0x22])

/-- The value; a raw one is encoded into the buffer, and the quote behind it is put there without
a zero. -/
def kvPrintValue (charSigned : Bool) (size : ℕ) (val : KvVal) (out : List UInt8) :
    Option (List UInt8) :=
  match val with
  | .raw (b :: bytes) => do
      let out ← kvPrint size [0x22] out
      let out ← kvPrint size (base64Encode (b :: bytes)) out
      if out.length + 1 ≤ size then some (out ++ [0x22]) else none
  | val => kvPrint size (kvValueText charSigned val) out

def kvPrintEntries (charSigned : Bool) (size : ℕ) : List KvDb → List UInt8 → Option (List UInt8)
  | [], out => some out
  | e :: db, out => do
      let out ← kvPrint size (0x22 :: (e.key ++ [0x22, 0x3a])) out
      let out ← kvPrintValue charSigned size e.val out
      let out ← kvPrint size [0x2c] out
      kvPrintEntries charSigned size db out

/-- `kv_serialize`, with the text before its zero; `none` is a write behind the buffer. -/
def kvSerialize (charSigned alloc : Bool) (db : List KvDb) : Option (OperateRet × List UInt8) :=
  if alloc then do
    let size := kvSize db % 2 ^ 32
    let out ← kvPrint size [0x7b] []
    let out ← kvPrintEntries charSigned size db out
    let out := if db = [] then out else out.dropLast ++ [0x20]
    if out.length + 2 ≤ size then some (oprtOk, out ++ [0x7d]) else none
  else some (oprtMallocFailed, [])

/-! ## `kv_deserialize` -/

/-- The functions of cJSON that are called. -/
structure Cjson where
  parse : List UInt8 → Option Json
  getObjectItem : Json → List UInt8 → Option Json

/-- `tolower`. -/
def lowerByte (b : UInt8) : UInt8 := if 0x41 ≤ b ∧ b ≤ 0x5a then b + 32 else b

def lower (key : List UInt8) : List UInt8 := key.map lowerByte

/-- A JSON parser, and the first member of an object whose name is the key, in whatever case. -/
structure Cjson.Standard (c : Cjson) : Prop where
  parse_reads : ∀ {s : List UInt8} {v : Json}, c.parse s = some v → ReadsText s v
  parse_total : ∀ {s : List UInt8} {v : Json}, ReadsText s v → (c.parse s).isSome = true
  getObjectItem_object : ∀ (members : List (List UInt8 × Json)) (key : List UInt8),
    c.getObjectItem (.object members) key =
      (members.find? fun member ↦ lower (cstr member.1) = lower key).map Prod.snd

/-- `memset` of a value. -/
def kvZero : KvVal → KvVal
  | .char _ => .char 0
  | .byte _ => .byte 0
  | .short _ => .short 0
  | .ushort _ => .ushort 0
  | .int _ => .int 0
  | .bool _ => .bool false
  | .string _ len => .string [] len
  | .raw bytes => .raw (List.replicate bytes.length 0)

/-- What an item does to a value; `none` is a write behind the buffer. -/
def kvStore (item : Json) (val : KvVal) : Option (OperateRet × KvVal) :=
  match val, item with
  | .char v, .number n =>
      some (if n < -128 ∨ 127 < n then (oprtComError, .char v) else (oprtOk, .char (.ofInt n)))
  | .byte v, .number n =>
      some (if n < 0 ∨ 255 < n then (oprtComError, .byte v) else (oprtOk, .byte (.ofInt n)))
  | .short v, .number n =>
      some (if n < -32768 ∨ 32767 < n then (oprtComError, .short v)
        else (oprtOk, .short (.ofInt n)))
  | .ushort v, .number n =>
      some (if n < 0 ∨ 65535 < n then (oprtComError, .ushort v) else (oprtOk, .ushort (.ofInt n)))
  | .int _, .number n => some (oprtOk, .int (.ofInt n))
  | .bool _, .bool b => some (oprtOk, .bool b)
  | .string _ len, .null => if len = 0 then none else some (oprtOk, .string [] len)
  | .string text len, .string s =>
      some (if len < (cstr s).length + 1 then (oprtComError, .string text len)
        else (oprtOk, .string (cstr s) len))
  | .raw _, .null => some (oprtOk, .raw [])
  | .raw bytes, .string s =>
      let decoded := base64Decode (cstr s)
      if decoded.length ≤ bytes.length then
        some (oprtOk, .raw (decoded ++ bytes.drop decoded.length))
      else none
  | val, _ => some (oprtCjsonGetErr, val)

def kvStoreEntries (c : Cjson) (root : Json) : List KvDb → Option (OperateRet × List KvDb)
  | [] => some (oprtOk, [])
  | e :: db =>
      match c.getObjectItem root e.key with
      | none => do
          let (ret, db) ← kvStoreEntries c root db
          return (ret, { e with val := kvZero e.val } :: db)
      | some item => do
          let (ret, val) ← kvStore item e.val
          if ret ≠ oprtOk then return (ret, e :: db)
          let (ret, db) ← kvStoreEntries c root db
          return (ret, { e with val := val } :: db)

/-- `kv_deserialize`. -/
def kvDeserialize (c : Cjson) (text : List UInt8) (db : List KvDb) :
    Option (OperateRet × List KvDb) :=
  match c.parse text with
  | none => some (oprtCjsonParseErr, db)
  | some root => kvStoreEntries c root db

end TuyaOpen.Kv
