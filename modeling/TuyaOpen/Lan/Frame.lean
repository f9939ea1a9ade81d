import TuyaOpen.Common.ErrorCode
import TuyaOpen.Lib.AesGcm
import Mathlib.Data.List.Nodup

/-!
# LPV3.5 frames, `tuya_protocol.c`

A frame is a head, a fixed header with sequence, type and length, a nonce, the
encrypted data with its tag, and a tail.  The header is authenticated with the
data.  AES-GCM is a parameter: it belongs to the cipher library.
-/

namespace TuyaOpen.Lan

open Bytes

def lpv35FrameHead : List UInt8 := [0x00, 0x00, 0x66, 0x99]
def lpv35FrameTail : List UInt8 := [0x00, 0x00, 0x99, 0x66]
def lpv35FrameNonceSize : ℕ := 12
def lpv35FrameTagSize : ℕ := 16
def lpv35FrameMiniSize : ℕ := 50

/-- AES-128-GCM.  An encryption that fails says what it left in the output. -/
structure Gcm where
  encrypt (key nonce ad data : List UInt8) :
    Except (OperateRet × List UInt8) (List UInt8 × List UInt8)
  decrypt (key nonce ad data tag : List UInt8) : Except OperateRet (List UInt8)

/-- AES-GCM keeps lengths, and decryption undoes encryption. -/
def Gcm.Lawful (gcm : Gcm) : Prop :=
  ∀ key nonce ad data ct tag, gcm.encrypt key nonce ad data = .ok (ct, tag) →
    ct.length = data.length ∧ tag.length = lpv35FrameTagSize ∧
      gcm.decrypt key nonce ad ct tag = .ok data

structure Lpv35FrameObject where
  sequence : ℕ
  type : ℕ
  data : List UInt8
  deriving DecidableEq

def lpv35AdditionalData (sequence type length : ℕ) : List UInt8 :=
  [0, 0] ++ encodeBE 4 sequence ++ encodeBE 4 type ++ encodeBE 4 length

def lpv35FrameSerialize (gcm : Gcm) (key nonce : List UInt8) (input : Lpv35FrameObject) :
    Except OperateRet (List UInt8) :=
  if key = [] then .error oprtInvalidParm
  else
    let length := (lpv35FrameNonceSize + input.data.length + lpv35FrameTagSize) % 2 ^ 32
    let ad := lpv35AdditionalData input.sequence input.type length
    match gcm.encrypt key nonce ad input.data with
    | .error e => .error e.1
    | .ok (data, tag) => .ok (lpv35FrameHead ++ ad ++ nonce ++ data ++ tag ++ lpv35FrameTail)

/-- Whether there is memory for the data, and what comes of a frame that is too
short: its data length wraps around, and the code reads outside of the frame. -/
structure ParseEnv where
  malloc : Bool
  wild : Except OperateRet (List UInt8)

def frameSequence (input : List UInt8) : ℕ := getBE input 6 4
def frameType (input : List UInt8) : ℕ := getBE input 10 4
def frameLength (input : List UInt8) : ℕ := getBE input 14 4

/-- `input` has at least the 50 bytes of the shortest frame; `ilen` says where the
frame ends. -/
def lpv35FrameParse (gcm : Gcm) (env : ParseEnv) (key input : List UInt8) (ilen : ℕ) :
    Except OperateRet Lpv35FrameObject :=
  if key = [] ∨ ilen = 0 then .error oprtInvalidParm
  else if input.take 4 ≠ lpv35FrameHead then .error oprtVersionFmtErr
  else if ilen < lpv35FrameMiniSize then
    env.wild.map fun data ↦ ⟨frameSequence input, frameType input, data⟩
  else if (input.drop (ilen - 4)).take 4 ≠ lpv35FrameTail then .error oprtVersionFmtErr
  else if frameLength input ≠ ilen - 22 then .error oprtComError
  else if env.malloc = false then .error oprtMallocFailed
  else
    let dataLen := frameLength input - lpv35FrameNonceSize - lpv35FrameTagSize
    let nonce := (input.drop 18).take lpv35FrameNonceSize
    let data := (input.drop 30).take dataLen
    let tag := (input.drop (30 + dataLen)).take lpv35FrameTagSize
    (gcm.decrypt key nonce ((input.drop 4).take 14) data tag).map fun data ↦
      ⟨frameSequence input, frameType input, data⟩

theorem parse_fields {gcm : Gcm} {env : ParseEnv} {key input : List UInt8} {ilen : ℕ}
    {frame : Lpv35FrameObject} (h : lpv35FrameParse gcm env key input ilen = .ok frame) :
    frame.sequence = frameSequence input ∧ frame.type = frameType input := by
  have hmap : ∀ r : Except OperateRet (List UInt8),
      r.map (fun data ↦ (⟨frameSequence input, frameType input, data⟩ : Lpv35FrameObject)) =
        .ok frame → frame.sequence = frameSequence input ∧ frame.type = frameType input := by
    intro r hr
    cases r with
    | error e => cases hr
    | ok data =>
        obtain rfl := Except.ok.inj hr
        exact ⟨rfl, rfl⟩
  rw [lpv35FrameParse] at h
  split_ifs at h
  · exact hmap _ h
  · exact hmap _ h

/-! ## AES-GCM -/

/-- Decryption accepts what encryption made, and nothing else. -/
def Gcm.Authentic (gcm : Gcm) : Prop :=
  ∀ key nonce ad data ct tag, gcm.decrypt key nonce ad ct tag = .ok data →
    gcm.encrypt key nonce ad data = .ok (ct, tag)

/-- AES-128-GCM itself, for nonces of the size that is used. -/
def aesGcm : Gcm where
  encrypt key nonce ad data :=
    if key.length = 16 ∧ nonce.length = lpv35FrameNonceSize then
      let ct := AesGcm.mask (AesGcm.aes128 key) nonce data
      .ok (ct, AesGcm.tag (AesGcm.aes128 key) nonce ad ct)
    else .error (oprtComError, [])
  decrypt key nonce ad ct tag :=
    if (key.length = 16 ∧ nonce.length = lpv35FrameNonceSize) ∧
        tag = AesGcm.tag (AesGcm.aes128 key) nonce ad ct then
      .ok (AesGcm.mask (AesGcm.aes128 key) nonce ct)
    else .error oprtComError

theorem aesGcm_lawful : aesGcm.Lawful := by
  intro key nonce ad data ct tag henc
  simp only [aesGcm] at henc ⊢
  split_ifs at henc with hsizes
  obtain ⟨rfl, rfl⟩ := Prod.mk.inj (Except.ok.inj henc)
  exact ⟨AesGcm.length_mask .., AesGcm.length_tag .., by
    rw [if_pos ⟨hsizes, rfl⟩, AesGcm.mask_mask]⟩

theorem aesGcm_encrypts {key nonce : List UInt8} (hkey : key.length = 16)
    (hnonce : nonce.length = lpv35FrameNonceSize) (ad data : List UInt8) :
    ∃ ct tag, aesGcm.encrypt key nonce ad data = .ok (ct, tag) :=
  ⟨_, _, if_pos ⟨hkey, hnonce⟩⟩

/-! ## AES-GCM by its values -/

structure GcmEntry where
  ad : List UInt8
  data : List UInt8
  ct : List UInt8
  tag : List UInt8
  deriving DecidableEq

/-- AES-GCM where its values are known, under one key and one nonce. -/
def tableGcm (key nonce : List UInt8) (table : List GcmEntry) : Gcm where
  encrypt key' nonce' ad data :=
    match table.find? fun e ↦ key' = key ∧ nonce' = nonce ∧ e.ad = ad ∧ e.data = data with
    | some e => .ok (e.ct, e.tag)
    | none => .error (oprtComError, data)
  decrypt key' nonce' ad ct tag :=
    match table.find? fun e ↦ key' = key ∧ nonce' = nonce ∧ e.ad = ad ∧ e.ct = ct ∧ e.tag = tag with
    | some e => .ok e.data
    | none => .error oprtComError

theorem tableGcm_lawful {key nonce : List UInt8} {table : List GcmEntry}
    (hlength : ∀ e ∈ table, e.ct.length = e.data.length ∧ e.tag.length = lpv35FrameTagSize)
    (hdistinct : (table.map GcmEntry.ad).Nodup) : (tableGcm key nonce table).Lawful := by
  intro key' nonce' ad data ct tag henc
  simp only [tableGcm] at henc ⊢
  split at henc
  · rename_i e hfind
    obtain ⟨rfl, rfl⟩ := Prod.mk.inj (Except.ok.inj henc)
    have hmem := List.mem_of_find?_eq_some hfind
    have hentry := List.find?_some hfind
    obtain ⟨hkey, hnonce, had, hdata⟩ := of_decide_eq_true hentry
    refine ⟨hdata ▸ (hlength e hmem).1, (hlength e hmem).2, ?_⟩
    split
    · rename_i e' hfind'
      have hentry' := List.find?_some hfind'
      obtain ⟨-, -, had', -⟩ := of_decide_eq_true hentry'
      have hsame := List.inj_on_of_nodup_map hdistinct (List.mem_of_find?_eq_some hfind') hmem
        (had'.trans had.symm)
      rw [hsame, hdata]
    · rename_i hnone
      have hnot := List.find?_eq_none.mp hnone e hmem
      simp [hkey, hnonce, had] at hnot
  · cases henc

def sampleKey : List UInt8 := [48, 49, 50, 51, 52, 53, 54, 55, 56, 57, 97, 98, 99, 100, 101, 102]
def sampleNonce : List UInt8 := [110, 111, 110, 99, 101, 48, 49, 50, 51, 52, 53, 54]

theorem sampleKey_length : sampleKey.length = 16 := rfl

theorem sampleNonce_length : sampleNonce.length = lpv35FrameNonceSize := rfl

end TuyaOpen.Lan
