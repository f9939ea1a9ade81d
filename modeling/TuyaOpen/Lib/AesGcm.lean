import TuyaOpen.Lib.Bytes
import Mathlib.Algebra.Ring.Nat

/-!
# AES-128 in Galois/counter mode

The cipher by its rounds, and the mode over any cipher of 16-byte blocks.  The data are masked
with the encrypted counter, and the tag is a polynomial in the ciphertext at the encryption of
zero.
-/

namespace AesGcm

open Bytes

/-! ## The cipher -/

/-- The S-box, sixteen values a number, the first of them lowest. -/
def sboxRows : List ℕ :=
  [0x76abd7fe2b670130c56f6bf27b777c63, 0xc072a49cafa2d4adf04759fa7dc982ca,
    0x1531d871f1e5a534ccf73f362693fdb7, 0x75b227ebe28012079a059618c323c704,
    0x842fe329b3d63b52a05a6e1b1a2c8309, 0xcf584c4a39becb6a5bb1fc20ed00d153,
    0xa89f3c507f02f94585334d43fbaaefd0, 0xd2f3ff1021dab6bcf5389d928f40a351,
    0x73195d643d7ea7c41744975fec130ccd, 0xdb0b5ede14b8ee4688902a22dc4f8160,
    0x79e4959162acd3c25c2406490a3a32e0, 0x08ae7a65eaf4566ca94ed58d6d37c8e7,
    0x8a8bbd4b1f74dde8c6b4a61c2e2578ba, 0x9e1dc186b95735610ef6034866b53e70,
    0xdf2855cee9871e9b948ed9691198f8e1, 0x16bb54b00f2d99416842e6bf0d89a18c]

def sub (b : UInt8) : UInt8 :=
  UInt8.ofNat (sboxRows.getD (b.toNat / 16) 0 >>> (8 * (b.toNat % 16)))

def xtime (b : UInt8) : UInt8 := if b < 128 then b <<< 1 else b <<< 1 ^^^ 0x1b

def xorBytes (s t : List UInt8) : List UInt8 := List.zipWith (· ^^^ ·) s t

def shiftRows (s : List UInt8) : List UInt8 := (List.range 16).map fun i ↦ s.getD (5 * i % 16) 0

def mixColumns (s : List UInt8) : List UInt8 :=
  (List.range 16).map fun i ↦
    let row (k : ℕ) := s.getD (i / 4 * 4 + (i + k) % 4) 0
    xtime (row 0) ^^^ xtime (row 1) ^^^ row 1 ^^^ row 2 ^^^ row 3

/-- The key of the next round. -/
def nextKey (rc : UInt8) (key : List UInt8) : List UInt8 :=
  let last := (key.drop 12).map sub
  let w₀ := xorBytes (key.take 4) (xorBytes (last.drop 1 ++ last.take 1) [rc, 0, 0, 0])
  let w₁ := xorBytes ((key.drop 4).take 4) w₀
  let w₂ := xorBytes ((key.drop 8).take 4) w₁
  w₀ ++ w₁ ++ w₂ ++ xorBytes (key.drop 12) w₂

/-- The rounds that mix, with the constants of their keys, and the last one. -/
def rounds : List UInt8 → List UInt8 → List UInt8 → List UInt8
  | [], _, s => s
  | [rc], key, s => xorBytes (shiftRows (s.map sub)) (nextKey rc key)
  | rc :: rcs, key, s =>
      let key := nextKey rc key
      rounds rcs key (xorBytes (mixColumns (shiftRows (s.map sub))) key)

def aes128 (key block : List UInt8) : List UInt8 :=
  rounds [1, 2, 4, 8, 16, 32, 64, 128, 27, 54] key (xorBytes block key)

/-! ## The mode -/

/-- The product in the field of 2^128 elements, the highest bit the constant one. -/
def fieldMul (x y : ℕ) : ℕ :=
  ((List.range 128).foldl (fun p i ↦
    (if x.testBit (127 - i) then p.1 ^^^ p.2 else p.1,
      if p.2 % 2 = 1 then p.2 / 2 ^^^ 0xe1 <<< 120 else p.2 / 2)) (0, y)).1

/-- The numbers that blocks of 16 bytes write, the last one filled up with zeros. -/
def blocks (s : List UInt8) : List ℕ :=
  (List.range ((s.length + 15) / 16)).map fun i ↦
    decodeBE (((s ++ List.replicate 15 0).drop (16 * i)).take 16)

section Mode

variable (cipher : List UInt8 → List UInt8) (nonce : List UInt8)

def keyByte (i : ℕ) : UInt8 := (cipher (nonce ++ encodeBE 4 (i / 16 + 2))).getD (i % 16) 0

def mask (data : List UInt8) : List UInt8 := data.mapIdx fun i b ↦ b ^^^ keyByte cipher nonce i

def tag (ad ct : List UInt8) : List UInt8 :=
  let h := decodeBE (cipher (List.replicate 16 0))
  let lengths := 8 * ad.length * 2 ^ 64 + 8 * ct.length
  let hash := (blocks ad ++ blocks ct ++ [lengths]).foldl (fun g b ↦ fieldMul (g ^^^ b) h) 0
  encodeBE 16 (hash ^^^ decodeBE (cipher (nonce ++ encodeBE 4 1)))

@[simp] theorem length_mask (data : List UInt8) : (mask cipher nonce data).length = data.length :=
  List.length_mapIdx

@[simp] theorem length_tag (ad ct : List UInt8) : (tag cipher nonce ad ct).length = 16 :=
  length_encodeBE ..

@[simp] theorem mask_mask (data : List UInt8) :
    mask cipher nonce (mask cipher nonce data) = data := by
  apply List.ext_getElem
  · simp only [length_mask]
  · intro i hi hi'
    simp only [mask, List.getElem_mapIdx, UInt8.xor_assoc, UInt8.xor_self, UInt8.xor_zero]

end Mode

end AesGcm
