import Mathlib.Data.Nat.Notation
import Mathlib.Logic.Function.Basic
import TuyaOpen.Tal.Symmetry

/-!
# The key-value store

`tal_kv.c`: every key is a file, which holds the value encrypted.  The file system is an ideal one
whose calls may fail: what is written to a file is in the store when the file is closed, and is not
when the close fails.
-/

namespace TuyaOpen.Kv

open TuyaOpen.Tal

/-- The codes of the file system; those of failures are negative. -/
def lfsErrOk : OperateRet := 0
def lfsErrNoent : OperateRet := -2

/-- The files by their keys, and how many are open. -/
structure KvStore (κ : Type*) where
  files : κ → Option (List UInt8)
  opened : ℕ

/-- An open file. -/
structure LfsFile (κ : Type*) where
  key : κ
  content : List UInt8
  deriving DecidableEq

/-- How a read or a write ends.  A write that fails has written some bytes. -/
inductive LfsRead where
  | done
  | failed (err : Fin (2 ^ 31))
  deriving DecidableEq

inductive LfsWrite where
  | done
  | failed (n : ℕ) (err : Fin (2 ^ 31))
  deriving DecidableEq

def lfsErr (err : Fin (2 ^ 31)) : ℤ := -(err.val + 1)

/-- `tal_kv_cfg_t`, hashed. -/
structure KvCfg where
  seed : List UInt8
  key : List UInt8
  deriving DecidableEq

/-- What the calls of one `tal_kv_set` answer. -/
structure KvSetEnv where
  opened : OperateRet
  alloc : Bool
  aes : AesRun
  write : LfsWrite
  close : OperateRet
  deriving DecidableEq

structure KvGetEnv where
  opened : OperateRet
  alloc : Bool
  read : LfsRead
  decAlloc : Bool
  aes : AesRun
  deriving DecidableEq

inductive KvStep (κ : Type*) where
  | set (key : κ) (value : List UInt8) (env : KvSetEnv)
  | get (key : κ) (env : KvGetEnv)
  | del (key : κ) (remove : OperateRet)

/-- What a call returned. -/
inductive KvReturn (κ : Type*) where
  | set (key : κ) (value : List UInt8) (rt : OperateRet)
  | get (key : κ) (rt : OperateRet) (value : Option (List UInt8))
  | del (key : κ) (rt : OperateRet)
  deriving DecidableEq

section Files

variable {κ : Type*}

/-- `lfs_file_write` at the beginning of an empty file. -/
def lfsFileWrite (file : LfsFile κ) (data : List UInt8) (len : ℕ) : LfsWrite → ℤ × LfsFile κ
  | .done => ((len : ℤ).bmod (2 ^ 32), { file with content := data.take len })
  | .failed n err => (lfsErr err, { file with content := data.take n })

@[simp] theorem lfsFileWrite_done (file : LfsFile κ) (data : List UInt8) (len : ℕ) :
    lfsFileWrite file data len .done =
      ((len : ℤ).bmod (2 ^ 32), { file with content := data.take len }) := rfl

@[simp] theorem lfsFileWrite_failed (file : LfsFile κ) (data : List UInt8) (len n : ℕ)
    (err : Fin (2 ^ 31)) :
    lfsFileWrite file data len (.failed n err) =
      (lfsErr err, { file with content := data.take n }) := rfl

/-- `lfs_file_read` of the whole file. -/
def lfsFileRead (file : LfsFile κ) : LfsRead → ℤ
  | .done => (file.content.length : ℤ).bmod (2 ^ 32)
  | .failed err => lfsErr err

@[simp] theorem lfsFileRead_done (file : LfsFile κ) :
    lfsFileRead file .done = (file.content.length : ℤ).bmod (2 ^ 32) := rfl

@[simp] theorem lfsFileRead_failed (file : LfsFile κ) (err : Fin (2 ^ 31)) :
    lfsFileRead file (.failed err) = lfsErr err := rfl

variable [DecidableEq κ]

/-- `lfs_file_open` with `LFS_O_RDWR | LFS_O_CREAT | LFS_O_TRUNC`. -/
def lfsFileOpenTrunc (s : KvStore κ) (key : κ) (rt : OperateRet) :
    OperateRet × KvStore κ × LfsFile κ :=
  if rt ≠ lfsErrOk then (rt, s, ⟨key, []⟩)
  else
    (lfsErrOk, { s with
      files := Function.update s.files key (some ((s.files key).getD []))
      opened := s.opened + 1 }, ⟨key, []⟩)

/-- `lfs_file_open` with `LFS_O_RDONLY`. -/
def lfsFileOpenRdonly (s : KvStore κ) (key : κ) (rt : OperateRet) :
    OperateRet × KvStore κ × LfsFile κ :=
  match s.files key with
  | none => (lfsErrNoent, s, ⟨key, []⟩)
  | some content =>
      if rt ≠ lfsErrOk then (rt, s, ⟨key, []⟩)
      else (lfsErrOk, { s with opened := s.opened + 1 }, ⟨key, content⟩)

/-- `lfs_file_close` of a file that was written. -/
def lfsFileClose (s : KvStore κ) (file : LfsFile κ) (rt : OperateRet) : KvStore κ where
  files := if rt = lfsErrOk then Function.update s.files file.key (some file.content) else s.files
  opened := s.opened - 1

/-- `lfs_remove`. -/
def lfsRemove (s : KvStore κ) (key : κ) (rt : OperateRet) : OperateRet × KvStore κ :=
  match s.files key with
  | none => (lfsErrNoent, s)
  | some _ =>
      if rt ≠ lfsErrOk then (rt, s)
      else (lfsErrOk, { s with files := Function.update s.files key none })

end Files

variable {κ : Type*} [DecidableEq κ] (c : AesCbc) (cfg : KvCfg)

/-- `tal_kv_set`; NULL is refused as the empty value is. -/
def talKvSet (s : KvStore κ) (key : κ) (value : List UInt8) (env : KvSetEnv) :
    KvStore κ × OperateRet :=
  if value = [] then (s, oprtInvalidParm)
  else
    let (result, s, file) := lfsFileOpenTrunc s key env.opened
    if result ≠ lfsErrOk then (s, result)
    else
      let (result, ecData, ecLen) := talAes128CbcEncode c value (u32 value.length) cfg.key cfg.seed
        env.alloc env.aes
      if result ≠ oprtOk then (lfsFileClose s file env.close, result)
      else
        let (result, file) := lfsFileWrite file ecData ecLen env.write
        let s := lfsFileClose s file env.close
        if u32 result ≠ ecLen then (s, oprtKvsWrFail) else (s, oprtOk)

/-- `tal_kv_get`. -/
def talKvGet (s : KvStore κ) (key : κ) (env : KvGetEnv) :
    KvStore κ × OperateRet × Option (List UInt8) :=
  let (result, s, file) := lfsFileOpenRdonly s key env.opened
  if result ≠ lfsErrOk then (s, result, none)
  else
    let ecLen := u32 file.content.length
    if env.alloc = false then (s, oprtMallocFailed, none)
    else
      let result := lfsFileRead file env.read
      let s := { s with opened := s.opened - 1 }
      if result ≤ 0 then (s, oprtKvsRdFail, none)
      else
        let (result, decData, decLen) := talAes128CbcDecode c file.content ecLen cfg.key cfg.seed
          env.decAlloc env.aes
        let decLen := u32 (talAesGetActualLength decData decLen)
        if result ≠ oprtOk ∨ ecLen < decLen then (s, oprtBufferNotEnough, none)
        else (s, oprtOk, decData.map (List.take decLen))

/-- `tal_kv_del`. -/
def talKvDel (s : KvStore κ) (key : κ) (remove : OperateRet) : KvStore κ × OperateRet :=
  let (result, s) := lfsRemove s key remove
  if result = lfsErrOk then (s, oprtOk) else (s, oprtComError)

def kvStep (s : KvStore κ) : KvStep κ → KvStore κ × KvReturn κ
  | .set key value env =>
      let (s, rt) := talKvSet c cfg s key value env
      (s, .set key value rt)
  | .get key env =>
      let (s, rt, value) := talKvGet c cfg s key env
      (s, .get key rt value)
  | .del key remove =>
      let (s, rt) := talKvDel s key remove
      (s, .del key rt)

def kvInit : KvStore κ where
  files _ := none
  opened := 0

end TuyaOpen.Kv
