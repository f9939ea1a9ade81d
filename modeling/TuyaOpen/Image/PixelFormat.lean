import Mathlib.Data.List.FinRange
import TuyaOpen.Image.Rotate
import TuyaOpen.Lib.Raster

/-!
# Pixel formats

A format says how many elements the buffer of an image has and at which places
of it the samples of a pixel are.  Two layouts are in use: samples one after
the other, and one bit for a pixel with each row padded to whole bytes.
-/

namespace TuyaOpen.Image

/-- The elements of a buffer. -/
def elements (β : Type*) [Inhabited β] : Cells (List β) ℕ β where
  Inside m k := k < m.length
  read m k := m.getD k default
  write m k v := m.set k v
  inside_write m k v j := by rw [List.length_set]
  read_write_self m k v hk := by simp [hk]
  read_write_of_ne m k v j _ hj := by simp [List.getElem?_set_ne (Ne.symm hj)]

/-- What `storeBit` leaves of a byte. -/
def putBit (byte : UInt8) (b : ℕ) (v : Bool) : UInt8 :=
  if v then byte ||| 1 <<< UInt8.ofNat b else byte &&& ~~~(1 <<< UInt8.ofNat b)

theorem getLsbD_one_shiftLeft {b : ℕ} (hb : b < 8) {j : ℕ} (hj : j < 8) :
    ((1 : UInt8) <<< UInt8.ofNat b).toBitVec.getLsbD j = decide (j = b) := by
  have hmod : b % 256 % 8 = b := by omega
  have hshift : ((1 : UInt8) <<< UInt8.ofNat b).toBitVec.getLsbD j =
      (!decide (j < b) && decide (j - b = 0)) := by
    simp [UInt8.toBitVec_shiftLeft, hmod, hj]
  rw [hshift, Bool.eq_iff_iff]
  simp only [Bool.and_eq_true, Bool.not_eq_true', decide_eq_false_iff_not, decide_eq_true_eq]
  omega

theorem shiftRight_and_one (byte : UInt8) {b : ℕ} (hb : b < 8) :
    decide (byte >>> UInt8.ofNat b &&& 0x01 ≠ 0) = byte.toBitVec.getLsbD b := by
  have hmod : b % 256 % 8 = b := by omega
  have hbit : (byte >>> UInt8.ofNat b &&& 0x01).toBitVec =
      if byte.toBitVec.getLsbD b then 1 else 0 := by
    simp only [UInt8.toBitVec_and, UInt8.toBitVec_shiftRight, UInt8.toBitVec_ofNat,
      BitVec.and_one_eq_setWidth_ofBool_getLsbD]
    simp [hmod]
    cases byte.toBitVec.getLsbD b <;> simp
  rw [Bool.eq_iff_iff, decide_eq_true_iff, ne_eq, ← UInt8.toBitVec_inj, hbit]
  cases byte.toBitVec.getLsbD b <;> simp

theorem getLsbD_putBit (byte : UInt8) {b : ℕ} (hb : b < 8) (v : Bool) (j : ℕ) :
    (putBit byte b v).toBitVec.getLsbD j = if j = b then v else byte.toBitVec.getLsbD j := by
  by_cases hj : j < 8
  · cases v with
    | true =>
        rw [putBit, if_pos rfl, UInt8.toBitVec_or, BitVec.getLsbD_or, getLsbD_one_shiftLeft hb hj]
        by_cases hjb : j = b <;> simp [hjb]
    | false =>
        rw [putBit, if_neg Bool.false_ne_true, UInt8.toBitVec_and, UInt8.toBitVec_not,
          BitVec.getLsbD_and, BitVec.getLsbD_not, getLsbD_one_shiftLeft hb hj]
        by_cases hjb : j = b <;> simp [hjb, hj]
  · have hj : 8 ≤ j := Nat.le_of_not_lt hj
    rw [if_neg (by omega), BitVec.getLsbD_of_ge _ _ hj, BitVec.getLsbD_of_ge _ _ hj]

/-- The bits of a buffer, by byte and bit. -/
def bits : Cells (List UInt8) (ℕ × ℕ) Bool where
  Inside m k := k.1 < m.length ∧ k.2 < 8
  read m k := (m.getD k.1 0).toBitVec.getLsbD k.2
  write m k v := m.set k.1 (putBit (m.getD k.1 0) k.2 v)
  inside_write m k v j := by rw [List.length_set]
  read_write_self m k v hk := by simp [hk.1, getLsbD_putBit _ hk.2]
  read_write_of_ne m k v j hk hj := by
    by_cases h1 : j.1 = k.1
    · have h2 : j.2 ≠ k.2 := fun h2 ↦ hj (Prod.ext h1 h2)
      simp [h1, hk.1, getLsbD_putBit _ hk.2, h2]
    · simp [List.getElem?_set_ne (Ne.symm h1)]

/-- The layout of an image of `w` columns and `h` rows in a buffer of `size w h` elements: the
sample `k` of the pixel in column `x` of row `y` is at `place w x y k`. -/
structure PixelFormat (β κ υ : Type*) where
  cells : Cells (List β) κ υ
  samples : ℕ
  size : ℕ → ℕ → ℕ
  place : ℕ → ℕ → ℕ → ℕ → κ
  length_write (m : List β) (k : κ) (v : υ) : (cells.write m k v).length = m.length
  inside_place {w h x y k : ℕ} {m : List β} : x < w → y < h → k < samples →
    m.length = size w h → cells.Inside m (place w x y k)
  place_injective {w x y k x' y' k' : ℕ} : x < w → x' < w → k < samples → k' < samples →
    place w x y k = place w x' y' k' → x = x' ∧ y = y' ∧ k = k'

theorem rowMajor_lt {n s a b : ℕ} (ha : a < n) (hb : b < s) : a * s + b < n * s := by
  calc
    a * s + b < a * s + s := Nat.add_lt_add_left hb _
    _ = (a + 1) * s := (Nat.succ_mul a s).symm
    _ ≤ n * s := Nat.mul_le_mul_right s ha

theorem rowMajor_injective {s a b a' b' : ℕ} (hb : b < s) (hb' : b' < s)
    (h : a * s + b = a' * s + b') : a = a' ∧ b = b' := by
  have hdiv (c : ℕ) {d : ℕ} (hd : d < s) : (c * s + d) / s = c := by
    rw [Nat.mul_comm, Nat.mul_add_div (by omega), Nat.div_eq_of_lt hd, Nat.add_zero]
  have ha : a = a' := by rw [← hdiv a hb, h, hdiv a' hb']
  rw [ha] at h
  exact ⟨ha, Nat.add_left_cancel h⟩

/-- `n` samples for each pixel, row after row without gaps. -/
def packed (β : Type*) [Inhabited β] (n : ℕ) : PixelFormat β ℕ β where
  cells := elements β
  samples := n
  size w h := h * (w * n)
  place w x y k := y * (w * n) + (x * n + k)
  length_write m k v := List.length_set
  inside_place hx hy hk hm := by
    apply Nat.lt_of_lt_of_eq _ hm.symm
    exact rowMajor_lt hy (rowMajor_lt hx hk)
  place_injective hx hx' hk hk' h := by
    obtain ⟨hy, h⟩ := rowMajor_injective (rowMajor_lt hx hk) (rowMajor_lt hx' hk') h
    obtain ⟨hx, hk⟩ := rowMajor_injective hk hk' h
    exact ⟨hx, hy, hk⟩

/-- The bytes of one row of a monochrome image. -/
def rowBytes (w : ℕ) : ℕ := (w + 7) / 8

theorem div_lt_rowBytes {w x : ℕ} (hx : x < w) : x / 8 < rowBytes w := by
  rw [rowBytes]
  omega

/-- One bit for a pixel, the first one lowest, each row padded to whole bytes. -/
def mono : PixelFormat UInt8 (ℕ × ℕ) Bool where
  cells := bits
  samples := 1
  size w h := h * rowBytes w
  place w x y _ := (y * rowBytes w + x / 8, x % 8)
  length_write m k v := List.length_set
  inside_place hx hy _ hm := by
    refine ⟨?_, Nat.mod_lt _ (by decide)⟩
    apply Nat.lt_of_lt_of_eq _ hm.symm
    exact rowMajor_lt hy (div_lt_rowBytes hx)
  place_injective {w x y k x' y' k'} hx hx' hk hk' h := by
    obtain ⟨hbyte, hbit⟩ := Prod.mk.inj h
    obtain ⟨hy, hdiv⟩ := rowMajor_injective (div_lt_rowBytes hx) (div_lt_rowBytes hx') hbyte
    exact ⟨by omega, hy, by omega⟩

def rgb565 : PixelFormat UInt16 ℕ UInt16 := packed UInt16 1

def rgb888 : PixelFormat UInt8 ℕ UInt8 := packed UInt8 3

namespace PixelFormat

variable {β κ υ : Type*} (F : PixelFormat β κ υ)

/-- The picture in a buffer. -/
def raster (w h : ℕ) (data : List β) : Raster w h (Fin F.samples → υ) :=
  fun p k ↦ F.cells.read data (F.place w p.1 p.2 k)

/-- The place of a sample. -/
def sampleAt {w h : ℕ} (q : (Fin w × Fin h) × Fin F.samples) : κ :=
  F.place w q.1.1 q.1.2 q.2

theorem sampleAt_injective (w h : ℕ) : Function.Injective (F.sampleAt (w := w) (h := h)) := by
  rintro ⟨⟨x, y⟩, k⟩ ⟨⟨x', y'⟩, k'⟩ hq
  obtain ⟨hx, hy, hk⟩ := F.place_injective x.isLt x'.isLt k.isLt k'.isLt hq
  exact Prod.ext (Prod.ext (Fin.ext hx) (Fin.ext hy)) (Fin.ext hk)

variable [DecidableEq κ]

/-- A call that leaves the picture `J` in its buffer and stores every sample of it once. -/
def Draws {w h : ℕ} (J : Raster w h (Fin F.samples → υ)) (out : Option (Canvas (List β) κ)) :
    Prop :=
  ∃ dst, out = some dst ∧ dst.data.length = F.size w h ∧ F.raster w h dst.data = J ∧
    ∀ q : (Fin w × Fin h) × Fin F.samples, dst.stores.count (F.sampleAt q) = 1

theorem draws_of_loop {w h w' h' : ℕ} (e : Fin w × Fin h ≃ Fin w' × Fin h')
    (I : Raster w h (Fin F.samples → υ)) {dst : List β} (hdst : dst.length = F.size w' h')
    {l : List ((Fin w × Fin h) × Fin F.samples)} (hnodup : l.Nodup) (hall : ∀ q, q ∈ l)
    {step : Canvas (List β) κ → (Fin w × Fin h) × Fin F.samples → Option (Canvas (List β) κ)}
    (hstep : ∀ c q, F.cells.Inside c.data (F.sampleAt (e q.1, q.2)) →
      step c q = some ⟨F.cells.write c.data (F.sampleAt (e q.1, q.2)) (I q.1 q.2),
        F.sampleAt (e q.1, q.2) :: c.stores⟩) :
    F.Draws (I.rotate e) (l.foldlM step ⟨dst, []⟩) := by
  have hin : ∀ q ∈ l, F.cells.Inside dst (F.sampleAt (e q.1, q.2)) := by
    intro q _
    exact F.inside_place (e q.1).1.isLt (e q.1).2.isLt q.2.isLt hdst
  have hinj : Function.Injective fun q : (Fin w × Fin h) × Fin F.samples ↦
      F.sampleAt (e q.1, q.2) := by
    intro q q' hq
    have hpair := F.sampleAt_injective w' h' hq
    exact Prod.ext (e.injective (Prod.mk.inj hpair).1) (Prod.mk.inj hpair).2
  have hplaces := hnodup.map hinj
  refine ⟨_, F.cells.foldlM_eq_writeAll (fun q ↦ F.sampleAt (e q.1, q.2)) (fun q ↦ I q.1 q.2) hin
    (fun c q _ ↦ hstep c q), ?_, ?_, ?_⟩
  · rw [← hdst]
    exact F.cells.writeAll_keeps _ _ List.length F.length_write dst l
  · rw [Raster.eq_rotate_iff]
    intro p
    funext k
    exact F.cells.read_writeAll _ _ hin hplaces (hall (p, k))
  · rintro ⟨p, k⟩
    rw [List.append_nil, List.count_reverse]
    apply List.count_eq_one_of_mem hplaces
    exact List.mem_map.mpr ⟨(e.symm p, k), hall _, by rw [Equiv.apply_symm_apply]⟩

variable {F}

theorem Draws.unique {w h : ℕ} {J J' : Raster w h (Fin F.samples → υ)}
    {out : Option (Canvas (List β) κ)} (hJ : F.Draws J out) (hJ' : F.Draws J' out) : J = J' := by
  obtain ⟨dst, hdst, -, hpicture, -⟩ := hJ
  obtain ⟨dst', hdst', -, hpicture', -⟩ := hJ'
  rw [hdst] at hdst'
  cases hdst'
  rw [← hpicture, hpicture']

theorem Draws.stores {w h : ℕ} {J : Raster w h (Fin F.samples → υ)}
    {out : Option (Canvas (List β) κ)} (hJ : F.Draws J out) :
    ∃ dst, out = some dst ∧ ∀ q : (Fin w × Fin h) × Fin F.samples, F.sampleAt q ∈ dst.stores := by
  obtain ⟨dst, hdst, -, -, honce⟩ := hJ
  refine ⟨dst, hdst, fun q ↦ ?_⟩
  apply List.count_pos_iff.mp
  rw [honce q]
  exact Nat.one_pos

end PixelFormat

end TuyaOpen.Image
