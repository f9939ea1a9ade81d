import Mathlib.Data.Nat.Notation
import TuyaOpen.Lib.Scatter

/-!
# Rotating an image

The nine loops of `tal_image_rotate.c`, with the index arithmetic in `uint32_t`.
An access outside its buffer has no result.  The destination keeps the places
that were stored to: elements of the buffer for RGB565 and RGB888, bits of its
bytes for a monochrome image.
-/

namespace TuyaOpen.Image

/-- `for(uint32_t i = 0; i < n; ++i)`. -/
def forLoop {σ : Type*} (n : UInt32) (body : UInt32 → σ → Option σ) (s : σ) : Option σ :=
  (List.range n.toNat).foldlM (fun s i ↦ body (UInt32.ofNat i) s) s

/-- `dst[i] = v`. -/
def store {β : Type*} (dst : Canvas (List β) ℕ) (i : UInt32) (v : β) :
    Option (Canvas (List β) ℕ) :=
  if i.toNat < dst.data.length then some ⟨dst.data.set i.toNat v, i.toNat :: dst.stores⟩ else none

/-- `dst[i] |= (1 << b)` for a pixel that is set, `dst[i] &= ~(1 << b)` for one that is not. -/
def storeBit (dst : Canvas (List UInt8) (ℕ × ℕ)) (i b : UInt32) (pixel : Bool) :
    Option (Canvas (List UInt8) (ℕ × ℕ)) :=
  dst.data[i.toNat]?.map fun byte ↦
    ⟨dst.data.set i.toNat
        (if pixel then byte ||| 1 <<< b.toUInt8 else byte &&& ~~~(1 <<< b.toUInt8)),
      (i.toNat, b.toNat) :: dst.stores⟩

/-- `WORD_SWAP`. -/
def wordSwap (v : UInt16) : UInt16 :=
  v <<< 8 ||| v >>> 8

/-- The three assignments for one RGB888 pixel. -/
def copyRgb888 (src : List UInt8) (srcIndex dstIndex : UInt32) (dst : Canvas (List UInt8) ℕ) :
    Option (Canvas (List UInt8) ℕ) := do
  let dst ← store dst dstIndex (← src[srcIndex.toNat]?)
  let dst ← store dst (dstIndex + 1) (← src[(srcIndex + 1).toNat]?)
  store dst (dstIndex + 2) (← src[(srcIndex + 2).toNat]?)

/-- The assignment for one RGB565 pixel. -/
def copyRgb565 (isSwap : Bool) (src : List UInt16) (srcIndex dstIndex : UInt32)
    (dst : Canvas (List UInt16) ℕ) : Option (Canvas (List UInt16) ℕ) := do
  let v ← src[srcIndex.toNat]?
  store dst dstIndex (if isSwap then wordSwap v else v)

/-- The bit of one monochrome pixel. -/
def copyMono (src : List UInt8) (srcIndex srcBitIdx dstIndex dstBitIdx : UInt32)
    (dst : Canvas (List UInt8) (ℕ × ℕ)) : Option (Canvas (List UInt8) (ℕ × ℕ)) := do
  let byte ← src[srcIndex.toNat]?
  let pixel := byte >>> srcBitIdx.toUInt8 &&& 0x01
  storeBit dst dstIndex dstBitIdx (pixel ≠ 0)

def talImageRgb888Rotate90 (src : List UInt8) (dst : Canvas (List UInt8) ℕ)
    (srcWidth srcHeight : UInt32) : Option (Canvas (List UInt8) ℕ) :=
  let srcStride := srcWidth * 3
  let dstStride := srcHeight * 3
  forLoop srcWidth (fun x dst ↦
    forLoop srcHeight (fun y dst ↦
      copyRgb888 src (y * srcStride + x * 3) ((srcWidth - x - 1) * dstStride + y * 3) dst) dst) dst

def talImageRgb888Rotate180 (src : List UInt8) (dst : Canvas (List UInt8) ℕ)
    (srcWidth srcHeight : UInt32) : Option (Canvas (List UInt8) ℕ) :=
  let srcStride := srcWidth * 3
  let dstStride := srcWidth * 3
  forLoop srcHeight (fun y dst ↦
    forLoop srcWidth (fun x dst ↦
      copyRgb888 src (y * srcStride + x * 3)
        ((srcHeight - y - 1) * dstStride + (srcWidth - x - 1) * 3) dst) dst) dst

def talImageRgb888Rotate270 (src : List UInt8) (dst : Canvas (List UInt8) ℕ)
    (srcWidth srcHeight : UInt32) : Option (Canvas (List UInt8) ℕ) :=
  let srcStride := srcWidth * 3
  let dstStride := srcHeight * 3
  forLoop srcWidth (fun x dst ↦
    forLoop srcHeight (fun y dst ↦
      copyRgb888 src (y * srcStride + x * 3) (x * dstStride + (srcHeight - y - 1) * 3) dst) dst) dst

def talImageRgb565Rotate270 (src : List UInt16) (dst : Canvas (List UInt16) ℕ)
    (srcWidth srcHeight : UInt32) (isSwap : Bool) : Option (Canvas (List UInt16) ℕ) :=
  let srcStride := srcWidth
  let dstStride := srcHeight
  forLoop srcWidth (fun x dst ↦
    let dstIndex := x * dstStride
    (forLoop srcHeight (fun y (dst, srcIndex) ↦
      (copyRgb565 isSwap src srcIndex (dstIndex + (srcHeight - y - 1)) dst).map
        fun dst ↦ (dst, srcIndex + srcStride)) (dst, x)).map Prod.fst) dst

def talImageRgb565Rotate180 (src : List UInt16) (dst : Canvas (List UInt16) ℕ)
    (srcWidth srcHeight : UInt32) (isSwap : Bool) : Option (Canvas (List UInt16) ℕ) :=
  let srcStride := srcWidth
  let dstStride := srcWidth
  forLoop srcHeight (fun y dst ↦
    let dstIndex := (srcHeight - y - 1) * dstStride
    let srcIndex := y * srcStride
    forLoop srcWidth (fun x dst ↦
      copyRgb565 isSwap src (srcIndex + x) (dstIndex + srcWidth - x - 1) dst) dst) dst

def talImageRgb565Rotate90 (src : List UInt16) (dst : Canvas (List UInt16) ℕ)
    (srcWidth srcHeight : UInt32) (isSwap : Bool) : Option (Canvas (List UInt16) ℕ) :=
  let srcStride := srcWidth
  let dstStride := srcHeight
  forLoop srcWidth (fun x dst ↦
    let dstIndex := srcWidth - x - 1
    (forLoop srcHeight (fun y (dst, srcIndex) ↦
      (copyRgb565 isSwap src srcIndex (dstIndex * dstStride + y) dst).map
        fun dst ↦ (dst, srcIndex + srcStride)) (dst, x)).map Prod.fst) dst

def talImageMonoRotate270 (src : List UInt8) (dst : Canvas (List UInt8) (ℕ × ℕ))
    (srcWidth srcHeight : UInt32) : Option (Canvas (List UInt8) (ℕ × ℕ)) :=
  let srcStride := (srcWidth + 7) / 8
  let dstStride := (srcHeight + 7) / 8
  forLoop srcWidth (fun x dst ↦
    forLoop srcHeight (fun y dst ↦
      copyMono src (y * srcStride + x / 8) (x % 8)
        ((srcWidth - 1 - x) * dstStride + y / 8) (y % 8) dst) dst) dst

def talImageMonoRotate180 (src : List UInt8) (dst : Canvas (List UInt8) (ℕ × ℕ))
    (srcWidth srcHeight : UInt32) : Option (Canvas (List UInt8) (ℕ × ℕ)) :=
  let srcStride := (srcWidth + 7) / 8
  let dstStride := (srcWidth + 7) / 8
  forLoop srcWidth (fun x dst ↦
    forLoop srcHeight (fun y dst ↦
      copyMono src (y * srcStride + x / 8) (x % 8)
        ((srcHeight - 1 - y) * dstStride + (srcWidth - 1 - x) / 8) ((srcWidth - 1 - x) % 8) dst)
      dst) dst

def talImageMonoRotate90 (src : List UInt8) (dst : Canvas (List UInt8) (ℕ × ℕ))
    (srcWidth srcHeight : UInt32) : Option (Canvas (List UInt8) (ℕ × ℕ)) :=
  let srcStride := (srcWidth + 7) / 8
  let dstStride := (srcHeight + 7) / 8
  forLoop srcWidth (fun x dst ↦
    forLoop srcHeight (fun y dst ↦
      copyMono src (y * srcStride + x / 8) (x % 8)
        (x * dstStride + (srcHeight - 1 - y) / 8) ((srcHeight - 1 - y) % 8) dst) dst) dst

theorem iterate_add_stride (stride a : UInt32) (i : ℕ) :
    (fun b ↦ b + stride)^[i] a = a + UInt32.ofNat i * stride := by
  induction i with
  | zero => simp
  | succ i ih =>
      rw [Function.iterate_succ_apply', ih, UInt32.ofNat_add, UInt32.add_mul, UInt32.add_assoc]
      simp

theorem forLoop_stride {σ : Type*} (n stride a : UInt32) (body : UInt32 → UInt32 → σ → Option σ)
    (s : σ) :
    (forLoop n (fun y (s, i) ↦ (body y i s).map fun s ↦ (s, i + stride)) (s, a)).map Prod.fst =
      forLoop n (fun y s ↦ body y (a + y * stride) s) s := by
  have hloop := List.foldlM_range_add (fun s i a ↦ body (UInt32.ofNat i) a s)
    (fun b ↦ b + stride) n.toNat s a
  simp only [iterate_add_stride] at hloop
  rw [forLoop, hloop, Option.map_map, forLoop]
  exact Option.map_id'

end TuyaOpen.Image
