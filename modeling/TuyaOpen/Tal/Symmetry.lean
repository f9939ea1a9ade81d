import Mathlib.Algebra.Ring.Int.Defs
import Mathlib.Algebra.Ring.Nat
import TuyaOpen.Common.ErrorCode
import TuyaOpen.Lib.Pkcs7
import Mathlib.Logic.Equiv.Basic

/-!
# AES-128-CBC

The calls of `tal_symmetry.c` that pad, encrypt and decrypt.  The cipher itself belongs to the
platform, and so do the codes of its calls.
-/

namespace TuyaOpen.Tal

/-- The cipher keeps the length of whole blocks, and decrypting undoes encrypting. -/
structure AesCbc where
  encrypt : (key iv data : List UInt8) → List UInt8
  decrypt : (key iv data : List UInt8) → List UInt8
  length_encrypt : ∀ key iv data, 16 ∣ data.length → (encrypt key iv data).length = data.length
  decrypt_encrypt : ∀ key iv data, 16 ∣ data.length → decrypt key iv (encrypt key iv data) = data

/-- What the platform answers in one of the raw calls, and what a `tal_aes_crypt_cbc` that fails
leaves in the buffer. -/
structure AesRun where
  createInit : OperateRet
  ctx : Bool
  setkey : OperateRet
  crypt : OperateRet
  free : OperateRet
  spoiled : List UInt8
  deriving DecidableEq

namespace AesRun

/-- The code of a raw call: with a context it is that of `tal_aes_free`. -/
def code (run : AesRun) : OperateRet :=
  if run.ctx then run.free
  else if run.createInit ≠ oprtOk then run.createInit
  else if run.setkey ≠ oprtOk then run.setkey
  else run.crypt

/-- The calls up to the cipher succeed. -/
def Ciphers (run : AesRun) : Prop :=
  run.createInit = oprtOk ∧ run.setkey = oprtOk ∧ run.crypt = oprtOk

instance (run : AesRun) : Decidable run.Ciphers := inferInstanceAs (Decidable (_ ∧ _ ∧ _))

/-- `tal_aes128_cbc_encode_raw` and `tal_aes128_cbc_decode_raw`, in place. -/
def raw (run : AesRun) (cipher : List UInt8 → List UInt8) (data : List UInt8) :
    OperateRet × List UInt8 :=
  (run.code,
    if run.createInit ≠ oprtOk ∨ run.setkey ≠ oprtOk then data
    else if run.crypt ≠ oprtOk then run.spoiled
    else cipher data)

end AesRun

def u32 (x : ℤ) : ℕ := (x % 2 ^ 32).toNat

/-- `__Add_Pkcs`. -/
def addPkcs (p : List UInt8) : List UInt8 :=
  let cz := 16 - p.length % 16
  p ++ List.replicate cz (UInt8.ofNat cz)

/-- `tal_aes128_cbc_encode`, with the memory for the buffer, and the length that it sets. -/
def talAes128CbcEncode (c : AesCbc) (data : List UInt8) (len : ℕ) (key iv : List UInt8)
    (alloc : Bool) (run : AesRun) : OperateRet × List UInt8 × ℕ :=
  if len = 0 then (oprtInvalidParm, [], 0)
  else if alloc = false then (oprtMallocFailed, [], 0)
  else
    let buf := addPkcs (data.take len)
    let (ret, ecData) := run.raw (c.encrypt key iv) buf
    if ret ≠ oprtOk then (ret, [], u32 buf.length) else (oprtOk, ecData, u32 buf.length)

/-- `tal_aes128_cbc_decode`; without a buffer the data is NULL. -/
def talAes128CbcDecode (c : AesCbc) (data : List UInt8) (len : ℕ) (key iv : List UInt8)
    (alloc : Bool) (run : AesRun) : OperateRet × Option (List UInt8) × ℕ :=
  if len = 0 then (oprtInvalidParm, none, 0)
  else if alloc = false then (oprtMallocFailed, none, len)
  else
    let (ret, decData) := run.raw (c.decrypt key iv) (data.take len)
    if ret ≠ oprtOk then (ret, none, len) else (oprtOk, some decData, len)

/-- `tal_aes_get_actual_length`. -/
def talAesGetActualLength (decData : Option (List UInt8)) (decDataLen : ℕ) : ℤ :=
  match decData with
  | none => oprtInvalidParm
  | some decData =>
      if decDataLen = 0 ∨ decDataLen % 16 ≠ 0 then oprtInvalidParm
      else
        let lastdataVal := (decData.getD (decDataLen - 1) 0).toNat
        if 16 < lastdataVal then -2
        else if decDataLen ≤ lastdataVal then -3
        else decDataLen - lastdataVal

theorem u32_of_lt {n : ℕ} (h : n < 2 ^ 32) : u32 n = n := by
  rw [u32]
  omega

theorem dvd_length_addPkcs (p : List UInt8) : 16 ∣ (addPkcs p).length :=
  Pkcs7.dvd_length_pad (by decide) p

theorem length_lt_length_addPkcs (p : List UInt8) : p.length < (addPkcs p).length :=
  Pkcs7.length_lt_length_pad (by decide) p

theorem talAesGetActualLength_addPkcs {p : List UInt8} (hp : p ≠ []) :
    talAesGetActualLength (some (addPkcs p)) (addPkcs p).length = p.length := by
  have hdvd := dvd_length_addPkcs p
  have hpos := List.length_pos_of_ne_nil hp
  have hlen : (addPkcs p).length = p.length + Pkcs7.padLen 16 p.length := Pkcs7.length_pad p
  have hle : Pkcs7.padLen 16 p.length ≤ 16 := Pkcs7.padLen_le _
  have hlast : ((addPkcs p).getD ((addPkcs p).length - 1) 0).toNat = Pkcs7.padLen 16 p.length := by
    rw [List.getD_eq_getElem?_getD, ← List.getLast?_eq_getElem?, ← List.getLastD_eq_getLast?]
    exact Pkcs7.getLastD_pad (by decide) (by decide) p
  rw [talAesGetActualLength, if_neg (by omega)]
  dsimp only
  rw [hlast, if_neg (by omega), if_neg (by omega), hlen]
  omega

/-- The code of a raw call does not hide that the cipher failed. -/
def AesRun.Honest (run : AesRun) : Prop := run.code = oprtOk → run.Ciphers

theorem AesRun.raw_of_ciphers {run : AesRun} (h : run.Ciphers) (cipher : List UInt8 → List UInt8)
    (data : List UInt8) : run.raw cipher data = (run.code, cipher data) := by
  obtain ⟨hcreate, hsetkey, hcrypt⟩ := h
  rw [AesRun.raw, if_neg (by simp [hcreate, hsetkey]), if_neg (by simp [hcrypt])]

theorem AesRun.raw_fst (run : AesRun) (cipher : List UInt8 → List UInt8) (data : List UInt8) :
    (run.raw cipher data).1 = run.code := rfl

section Encode

variable {c : AesCbc} {data key iv : List UInt8} {len : ℕ} {alloc : Bool} {run : AesRun}

theorem talAes128CbcEncode_of_ok (c : AesCbc) (data key iv : List UInt8) (hlen : len ≠ 0)
    (halloc : alloc = true) (hcode : run.code = oprtOk) :
    talAes128CbcEncode c data len key iv alloc run =
      (oprtOk, (run.raw (c.encrypt key iv) (addPkcs (data.take len))).2,
        u32 (addPkcs (data.take len)).length) := by
  rw [talAes128CbcEncode, if_neg hlen, if_neg (by simp [halloc])]
  dsimp only
  rw [AesRun.raw_fst, if_neg (not_not.mpr hcode)]

theorem talAes128CbcEncode_ok_iff :
    (talAes128CbcEncode c data len key iv alloc run).1 = oprtOk ↔
      len ≠ 0 ∧ alloc = true ∧ run.code = oprtOk := by
  constructor
  · rw [talAes128CbcEncode]
    split_ifs with hlen halloc
    · intro h
      cases h
    · intro h
      cases h
    · dsimp only
      rw [AesRun.raw_fst]
      split_ifs with hcode
      · exact fun h ↦ absurd h hcode
      · exact fun _ ↦ ⟨hlen, Bool.of_not_eq_false halloc, not_not.mp hcode⟩
  · rintro ⟨hlen, halloc, hcode⟩
    rw [talAes128CbcEncode_of_ok _ _ _ _ hlen halloc hcode]

theorem talAes128CbcDecode_of_ok (c : AesCbc) (data key iv : List UInt8) (hlen : len ≠ 0)
    (halloc : alloc = true) (hcode : run.code = oprtOk) :
    talAes128CbcDecode c data len key iv alloc run =
      (oprtOk, some (run.raw (c.decrypt key iv) (data.take len)).2, len) := by
  rw [talAes128CbcDecode, if_neg hlen, if_neg (by simp [halloc])]
  dsimp only
  rw [AesRun.raw_fst, if_neg (not_not.mpr hcode)]

theorem talAes128CbcDecode_ok (h : (talAes128CbcDecode c data len key iv alloc run).1 = oprtOk) :
    alloc = true ∧ run.code = oprtOk := by
  rw [talAes128CbcDecode] at h
  split_ifs at h with hlen halloc
  · cases h
  · cases h
  · dsimp only at h
    rw [AesRun.raw_fst] at h
    split_ifs at h with hcode
    · exact absurd h hcode
    · exact ⟨Bool.of_not_eq_false halloc, not_not.mp hcode⟩

end Encode

/-! ## AES by its values -/

/-- Each text of the table is exchanged with what it encrypts to. -/
def exchange (table : List (List UInt8 × List UInt8)) : Equiv.Perm (List UInt8) :=
  table.foldr (fun e π ↦ (Equiv.swap e.1 e.2).trans π) (Equiv.refl _)

theorem length_exchange {table : List (List UInt8 × List UInt8)}
    (h : ∀ e ∈ table, e.1.length = e.2.length) (data : List UInt8) :
    (exchange table data).length = data.length := by
  induction table generalizing data with
  | nil => rfl
  | cons e table ih =>
      have he := h e List.mem_cons_self
      have hrest := ih (fun e' he' ↦ h e' (List.mem_cons_of_mem _ he')) (Equiv.swap e.1 e.2 data)
      refine hrest.trans ?_
      rw [Equiv.swap_apply_def]
      split_ifs with hplain hcipher
      · rw [hplain, he]
      · rw [hcipher, he]
      · rfl

/-- AES-CBC where its values are known, under one key and one initial vector. -/
def tableCbc (key iv : List UInt8) (table : List (List UInt8 × List UInt8))
    (h : ∀ e ∈ table, e.1.length = e.2.length) : AesCbc where
  encrypt key' iv' data := if key' = key ∧ iv' = iv then exchange table data else data
  decrypt key' iv' data := if key' = key ∧ iv' = iv then (exchange table).symm data else data
  length_encrypt key' iv' data _ := by
    split_ifs
    · exact length_exchange h data
    · rfl
  decrypt_encrypt key' iv' data _ := by
    split_ifs
    · exact (exchange table).symm_apply_apply data
    · rfl

end TuyaOpen.Tal
