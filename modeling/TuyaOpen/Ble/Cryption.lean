import TuyaOpen.Common.ErrorCode
import Mathlib.Data.List.Basic

/-!
# Keys and encryption of `ble_cryption.c`

MD5 and AES-128-CBC are parameters.  A cipher call returns its code and the
bytes it wrote, since `tal_aes128_cbc_decode_raw` can return success without
having written anything.
-/

namespace TuyaOpen.Ble

structure Crypto where
  md5Ret : List UInt8 → List UInt8
  aes128CbcEncodeRaw : (key iv data : List UInt8) → OperateRet × List UInt8
  aes128CbcDecodeRaw : (key iv data : List UInt8) → OperateRet × List UInt8

/-- Decoding undoes encoding on whole blocks, and both keep the length. -/
def Crypto.Lawful (c : Crypto) : Prop :=
  ∀ key iv data out : List UInt8, 16 ∣ data.length →
    c.aes128CbcEncodeRaw key iv data = (oprtOk, out) →
      out.length = data.length ∧ c.aes128CbcDecodeRaw key iv out = (oprtOk, data)

def encryptionModeNone : UInt8 := 0
def encryptionModeKey11 : UInt8 := 11
def encryptionModeKey12 : UInt8 := 12
def encryptionModeKey14 : UInt8 := 14
def encryptionModeSessionKey15 : UInt8 := 15
def encryptionModeKey16 : UInt8 := 16
def encryptionModeMax : UInt8 := 17

structure BleCryptoParam where
  authKey : List UInt8
  loginKey : List UInt8
  secKey : List UInt8
  uuid : List UInt8
  pairRand : List UInt8
  deriving DecidableEq

/-- The statics of the module; both start out zero. -/
structure CryptStatic where
  serviceRand : List UInt8
  keyOutKey11 : List UInt8
  deriving DecidableEq

def CryptStatic.init : CryptStatic := ⟨List.replicate 16 0, List.replicate 16 0⟩

/-- What the key of a mode is the hash of, for the modes that have a key. -/
def keyInBuffer (c : Crypto) (st : CryptStatic) (p : BleCryptoParam) (mode : UInt8) :
    Option (List UInt8) :=
  if mode = encryptionModeKey11 then
    some (p.authKey.take 32 ++ p.uuid.take 16 ++ st.serviceRand)
  else if mode = encryptionModeKey12 then some (st.keyOutKey11 ++ p.pairRand.take 6)
  else if mode = encryptionModeKey14 then some (p.loginKey.take 16 ++ p.secKey.take 16)
  else if mode = encryptionModeSessionKey15 then
    some (p.loginKey.take 16 ++ p.secKey.take 16 ++ p.pairRand.take 6)
  else if mode = encryptionModeKey16 then
    some (p.authKey.take 32 ++ c.md5Ret (p.uuid.take 16) ++ st.serviceRand)
  else none

/-- The key of a mode, with the statics after the call.  `none` is the result
`false`; mode `0` leaves the caller's zeroed key as it is. -/
def bleKeyGenerate (c : Crypto) (st : CryptStatic) (p : BleCryptoParam) (mode : UInt8) :
    Option (List UInt8 × CryptStatic) :=
  if encryptionModeMax ≤ mode then none
  else if mode = encryptionModeNone then some (List.replicate 16 0, st)
  else match keyInBuffer c st p mode with
    | none => none
    | some keyIn =>
      let key := c.md5Ret keyIn
      some (key, if mode = encryptionModeKey11 then { st with keyOutKey11 := key } else st)

/-- Padding to whole blocks; there is none when the blocks are already whole. -/
def bleAddPkcs (p : List UInt8) : List UInt8 :=
  if p.length % 16 = 0 then p
  else p ++ List.replicate (16 - p.length % 16) (UInt8.ofNat (16 - p.length % 16))

def tuyaBleEncryption (c : Crypto) (st : CryptStatic) (p : BleCryptoParam) (encryptionMode : UInt8)
    (iv inBuf : List UInt8) : ℕ × List UInt8 × CryptStatic :=
  if encryptionModeMax ≤ encryptionMode then (2, [], st)
  else if encryptionMode = encryptionModeNone then (0, inBuf, st)
  else match bleKeyGenerate c st p encryptionMode with
    | none => (4, [], st)
    | some (key, st) =>
      let r := c.aes128CbcEncodeRaw key iv (bleAddPkcs inBuf)
      (if r.1 = oprtOk then 0 else 3, r.2, st)

/-- A frame of mode `11` or `16` brings the random number of its key as IV. -/
def serviceRandSet (st : CryptStatic) (inBuf : List UInt8) : CryptStatic :=
  if inBuf.headD 0 = encryptionModeKey11 ∨ inBuf.headD 0 = encryptionModeKey16 then
    { st with serviceRand := (inBuf.drop 1).take 16 }
  else st

def tuyaBleDecryption (c : Crypto) (st : CryptStatic) (p : BleCryptoParam) (inBuf : List UInt8) :
    ℕ × List UInt8 × CryptStatic :=
  let mode := inBuf.headD 0
  if inBuf.length < 17 then (1, [], st)
  else if encryptionModeMax ≤ mode then (2, [], st)
  else if mode = encryptionModeNone then (0, inBuf.drop 1, st)
  else
    let st := serviceRandSet st inBuf
    match bleKeyGenerate c st p mode with
    | none => (4, [], st)
    | some (key, st) =>
      let r := c.aes128CbcDecodeRaw key ((inBuf.drop 1).take 16) (inBuf.drop 17)
      (if r.1 = oprtOk then 0 else 3, r.2, st)

/-- The modes whose key does not depend on a frame that was received. -/
def SharedKeyMode (mode : UInt8) : Prop :=
  mode = encryptionModeKey12 ∨ mode = encryptionModeKey14 ∨ mode = encryptionModeSessionKey15

instance (mode : UInt8) : Decidable (SharedKeyMode mode) :=
  inferInstanceAs (Decidable (_ ∨ _ ∨ _))

variable {c : Crypto} {st : CryptStatic} {p : BleCryptoParam} {mode : UInt8}

theorem bleKeyGenerate_shared (c : Crypto) (st : CryptStatic) (p : BleCryptoParam)
    (h : SharedKeyMode mode) :
    ∃ key, bleKeyGenerate c st p mode = some (key, st) ∧
      ∀ st', st'.keyOutKey11 = st.keyOutKey11 → bleKeyGenerate c st' p mode = some (key, st') := by
  rcases h with rfl | rfl | rfl
  · refine ⟨_, rfl, ?_⟩
    intro st' h11
    simp only [bleKeyGenerate, keyInBuffer]
    rw [h11]
    rfl
  · exact ⟨_, rfl, fun _ _ ↦ rfl⟩
  · exact ⟨_, rfl, fun _ _ ↦ rfl⟩

theorem dvd_length_bleAddPkcs (buf : List UInt8) : 16 ∣ (bleAddPkcs buf).length := by
  unfold bleAddPkcs
  split_ifs with h
  · omega
  · rw [List.length_append, List.length_replicate]
    omega

theorem bleAddPkcs_eq_append (buf : List UInt8) : ∃ pad, bleAddPkcs buf = buf ++ pad := by
  unfold bleAddPkcs
  split_ifs
  · exact ⟨[], (List.append_nil _).symm⟩
  · exact ⟨_, rfl⟩

theorem length_bleAddPkcs (buf : List UInt8) : (bleAddPkcs buf).length = buf.length +
    if buf.length % 16 = 0 then 0 else 16 - buf.length % 16 := by
  unfold bleAddPkcs
  split_ifs
  · rfl
  · rw [List.length_append, List.length_replicate]

theorem decryption_encryption (hc : c.Lawful) (hmode : SharedKeyMode mode) {iv inBuf : List UInt8}
    (hiv : iv.length = 16) (henc : (tuyaBleEncryption c st p mode iv inBuf).1 = 0)
    {st' : CryptStatic} (hst : st'.keyOutKey11 = st.keyOutKey11) :
    let out := (tuyaBleEncryption c st p mode iv inBuf).2.1
    out.length = (bleAddPkcs inBuf).length ∧
      tuyaBleDecryption c st' p (mode :: iv ++ out) = (0, bleAddPkcs inBuf, st') := by
  intro out
  obtain ⟨key, hkey, hkey'⟩ := bleKeyGenerate_shared c st p hmode
  have hmax : ¬ encryptionModeMax ≤ mode := by rcases hmode with rfl | rfl | rfl <;> decide
  have hnone : mode ≠ encryptionModeNone := by rcases hmode with rfl | rfl | rfl <;> decide
  have hrand : ¬ (mode = encryptionModeKey11 ∨ mode = encryptionModeKey16) := by
    rcases hmode with rfl | rfl | rfl <;> decide
  simp only [tuyaBleEncryption, if_neg hmax, if_neg hnone, hkey] at henc
  have hout : out = (c.aes128CbcEncodeRaw key iv (bleAddPkcs inBuf)).2 := by
    simp only [out, tuyaBleEncryption, if_neg hmax, if_neg hnone, hkey]
  have hok : (c.aes128CbcEncodeRaw key iv (bleAddPkcs inBuf)).1 = oprtOk := by
    by_contra hne
    rw [if_neg hne] at henc
    omega
  obtain ⟨hlen, hdec⟩ := hc key iv (bleAddPkcs inBuf) out (dvd_length_bleAddPkcs inBuf)
    (Prod.ext hok hout.symm)
  refine ⟨hlen, ?_⟩
  have hlong : ¬ (mode :: iv ++ out).length < 17 := by
    simp only [List.cons_append, List.length_cons, List.length_append, hiv]
    omega
  have htake : ((mode :: iv ++ out).drop 1).take 16 = iv := by
    rw [List.cons_append, List.drop_one, List.tail_cons]
    exact List.take_left' hiv
  have hdrop : (mode :: iv ++ out).drop 17 = out := by
    rw [List.cons_append, List.drop_succ_cons]
    exact List.drop_left' hiv
  have hset : serviceRandSet st' (mode :: iv ++ out) = st' := by
    rw [serviceRandSet, if_neg (by simpa using hrand)]
  have hhead : (mode :: iv ++ out).headD 0 = mode := rfl
  generalize mode :: iv ++ out = buf at hlong htake hdrop hset hhead
  simp only [tuyaBleDecryption, if_neg hlong, hhead, if_neg hmax, if_neg hnone, hset,
    hkey' st' hst, htake, hdrop, hdec, if_true]

end TuyaOpen.Ble
