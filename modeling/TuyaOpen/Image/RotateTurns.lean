import Mathlib.Algebra.Ring.Nat
import TuyaOpen.Image.PixelFormat

/-!
# What the nine loops draw

Each loop passes over all pixels once and copies the samples of a pixel to the
place of another pixel, so it draws its source turned.  Which way it turns is
read off the destination index.
-/

namespace TuyaOpen.Image

/-- All pixels, one column after the other. -/
def columns (w h : ℕ) : List (Fin w × Fin h) :=
  List.finRange w ×ˢ List.finRange h

/-- All pixels, one row after the other. -/
def rows (w h : ℕ) : List (Fin w × Fin h) :=
  (List.finRange h ×ˢ List.finRange w).map Prod.swap

theorem nodup_columns (w h : ℕ) : (columns w h).Nodup :=
  (List.nodup_finRange w).product (List.nodup_finRange h)

theorem mem_columns {w h : ℕ} (p : Fin w × Fin h) : p ∈ columns w h := by
  exact List.mem_product.mpr ⟨List.mem_finRange p.1, List.mem_finRange p.2⟩

theorem nodup_rows (w h : ℕ) : (rows w h).Nodup :=
  ((List.nodup_finRange h).product (List.nodup_finRange w)).map Prod.swap_injective

theorem mem_rows {w h : ℕ} (p : Fin w × Fin h) : p ∈ rows w h := by
  apply List.mem_map.mpr
  refine ⟨p.swap, ?_, p.swap_swap⟩
  exact List.mem_product.mpr ⟨List.mem_finRange p.2, List.mem_finRange p.1⟩

theorem forLoop_finRange {σ : Type*} (n : UInt32) (body : UInt32 → σ → Option σ) (s : σ) :
    forLoop n body s =
      (List.finRange n.toNat).foldlM (fun s (i : Fin n.toNat) ↦ body (UInt32.ofNat i) s) s := by
  have hrange : List.range n.toNat = (List.finRange n.toNat).map Fin.val := by
    apply List.ext_getElem <;> simp
  rw [forLoop, hrange, List.foldlM_map]

theorem forLoop_columns {σ : Type*} (w h : UInt32) (body : UInt32 → UInt32 → σ → Option σ) (s : σ) :
    forLoop w (fun x s ↦ forLoop h (fun y s ↦ body x y s) s) s =
      (columns w.toNat h.toNat).foldlM
        (fun s p ↦ body (UInt32.ofNat p.1) (UInt32.ofNat p.2) s) s := by
  simp only [forLoop_finRange]
  exact List.foldlM_product
    (fun s (x : Fin w.toNat) (y : Fin h.toNat) ↦ body (UInt32.ofNat x) (UInt32.ofNat y) s) _ _ s

theorem forLoop_rows {σ : Type*} (w h : UInt32) (body : UInt32 → UInt32 → σ → Option σ) (s : σ) :
    forLoop h (fun y s ↦ forLoop w (fun x s ↦ body x y s) s) s =
      (rows w.toNat h.toNat).foldlM
        (fun s p ↦ body (UInt32.ofNat p.1) (UInt32.ofNat p.2) s) s := by
  rw [rows, List.foldlM_map]
  simp only [forLoop_finRange]
  exact List.foldlM_product
    (fun s (y : Fin h.toNat) (x : Fin w.toNat) ↦ body (UInt32.ofNat x) (UInt32.ofNat y) s) _ _ s

theorem PixelFormat.draws_of_pixels {β κ υ : Type*} [DecidableEq κ] (F : PixelFormat β κ υ)
    {w h w' h' : ℕ} (e : Fin w × Fin h ≃ Fin w' × Fin h') (I : Raster w h (Fin F.samples → υ))
    {dst : List β} (hdst : dst.length = F.size w' h') {l : List (Fin w × Fin h)} (hnodup : l.Nodup)
    (hall : ∀ p, p ∈ l)
    {step : Canvas (List β) κ → Fin w × Fin h → Fin F.samples → Option (Canvas (List β) κ)}
    (hstep : ∀ c p k, F.cells.Inside c.data (F.sampleAt (e p, k)) →
      step c p k = some ⟨F.cells.write c.data (F.sampleAt (e p, k)) (I p k),
        F.sampleAt (e p, k) :: c.stores⟩) :
    F.Draws (I.rotate e)
      (l.foldlM (fun c p ↦ (List.finRange F.samples).foldlM (fun c k ↦ step c p k) c)
        ⟨dst, []⟩) := by
  rw [List.foldlM_product]
  apply F.draws_of_loop e I hdst
  · exact hnodup.product (List.nodup_finRange _)
  · intro q
    exact List.mem_product.mpr ⟨hall q.1, List.mem_finRange q.2⟩
  · intro c q
    exact hstep c q.1 q.2

section Packed

variable {β : Type*} [Inhabited β]

def copySample (f : β → β) (src : List β) (srcIndex dstIndex : UInt32)
    (dst : Canvas (List β) ℕ) : Option (Canvas (List β) ℕ) := do
  let v ← src[srcIndex.toNat]?
  store dst dstIndex (f v)

theorem copyRgb888_eq (src : List UInt8) (srcIndex dstIndex : UInt32)
    (dst : Canvas (List UInt8) ℕ) :
    copyRgb888 src srcIndex dstIndex dst =
      (List.finRange 3).foldlM (fun dst (k : Fin 3) ↦
        copySample id src (srcIndex + UInt32.ofNat k) (dstIndex + UInt32.ofNat k) dst) dst := by
  have hlist : List.finRange 3 = [0, 1, 2] := by decide
  simp [hlist, copySample, copyRgb888, Option.bind_assoc]

def swapped (isSwap : Bool) (v : UInt16) : UInt16 :=
  if isSwap then wordSwap v else v

theorem wordSwap_wordSwap (v : UInt16) : wordSwap (wordSwap v) = v := by
  apply UInt16.toBitVec_inj.mp
  apply BitVec.eq_of_getLsbD_eq
  intro i hi
  have hout : v.toBitVec.getLsbD (8 + (8 + i)) = false := BitVec.getLsbD_of_ge _ _ (by omega)
  by_cases h8 : i < 8
  · have h16 : 8 + i < 16 := by omega
    simp [wordSwap, h8, hi, h16, hout]
  · have h16 : ¬ 8 + i < 16 := by omega
    have hsub : i - 8 < 8 := by omega
    have hadd : 8 + (i - 8) = i := by omega
    simp [wordSwap, h8, hi, h16, hsub, hadd, hout]

theorem copyRgb565_eq (isSwap : Bool) (src : List UInt16) (srcIndex dstIndex : UInt32)
    (dst : Canvas (List UInt16) ℕ) :
    copyRgb565 isSwap src srcIndex dstIndex dst =
      (List.finRange 1).foldlM (fun dst _ ↦
        copySample (swapped isSwap) src srcIndex dstIndex dst) dst := by
  have hlist : List.finRange 1 = [0] := by decide
  simp [hlist, copySample, copyRgb565, swapped]

theorem copySample_of_lt {f : β → β} {src : List β} {srcIndex dstIndex : UInt32}
    {dst : Canvas (List β) ℕ} (hsrc : srcIndex.toNat < src.length)
    (hdst : dstIndex.toNat < dst.data.length) :
    copySample f src srcIndex dstIndex dst =
      some ⟨dst.data.set dstIndex.toNat (f (src.getD srcIndex.toNat default)),
        dstIndex.toNat :: dst.stores⟩ := by
  rw [copySample, List.getD_eq_getElem?_getD, List.getElem?_eq_getElem hsrc, Option.bind_eq_bind,
    Option.bind_some, store, if_pos hdst]
  rfl

theorem draws_packed {n w h w' h' : ℕ} (e : Fin w × Fin h ≃ Fin w' × Fin h') (f : β → β)
    {src dst : List β} (hsrc : src.length = (packed β n).size w h)
    (hdst : dst.length = (packed β n).size w' h') {l : List (Fin w × Fin h)} (hnodup : l.Nodup)
    (hall : ∀ p, p ∈ l) {srcIndex dstIndex : Fin w × Fin h → Fin n → UInt32}
    (hfrom : ∀ p k, (srcIndex p k).toNat = (packed β n).sampleAt (p, k))
    (hto : ∀ p k, (dstIndex p k).toNat = (packed β n).sampleAt (e p, k)) :
    (packed β n).Draws
      (Raster.rotate e fun p k ↦ f ((packed β n).raster w h src p k))
      (l.foldlM (fun c p ↦ (List.finRange n).foldlM
        (fun c k ↦ copySample f src (srcIndex p k) (dstIndex p k) c) c) ⟨dst, []⟩) := by
  apply (packed β n).draws_of_pixels e (fun p k ↦ f ((packed β n).raster w h src p k)) hdst hnodup
    hall
  intro c p k hin
  have hread : (srcIndex p k).toNat < src.length := by
    rw [hfrom p k]
    exact (packed β n).inside_place p.1.isLt p.2.isLt k.isLt hsrc
  rw [← hto p k] at hin ⊢
  rw [copySample_of_lt hread hin, hfrom p k]
  rfl

end Packed

theorem copyMono_of_lt {src : List UInt8} {srcIndex srcBitIdx dstIndex dstBitIdx : UInt32}
    {dst : Canvas (List UInt8) (ℕ × ℕ)} (hsrc : bits.Inside src (srcIndex.toNat, srcBitIdx.toNat))
    (hdst : bits.Inside dst.data (dstIndex.toNat, dstBitIdx.toNat)) :
    copyMono src srcIndex srcBitIdx dstIndex dstBitIdx dst =
      some ⟨bits.write dst.data (dstIndex.toNat, dstBitIdx.toNat)
          (bits.read src (srcIndex.toNat, srcBitIdx.toNat)),
        (dstIndex.toNat, dstBitIdx.toNat) :: dst.stores⟩ := by
  have hbyte : srcIndex.toNat < src.length := hsrc.1
  have hbit : srcBitIdx.toNat < 8 := hsrc.2
  have hpixel := shiftRight_and_one src[srcIndex.toNat] hbit
  rw [copyMono, List.getElem?_eq_getElem hbyte, Option.bind_eq_bind, Option.bind_some, storeBit,
    List.getElem?_eq_getElem hdst.1, Option.map_some, ← UInt8.ofNat_uInt32ToNat,
    ← UInt8.ofNat_uInt32ToNat, hpixel]
  simp [bits, putBit, hbyte, hdst.1]

theorem draws_mono {w h w' h' : ℕ} (e : Fin w × Fin h ≃ Fin w' × Fin h') {src dst : List UInt8}
    (hsrc : src.length = mono.size w h) (hdst : dst.length = mono.size w' h')
    {l : List (Fin w × Fin h)} (hnodup : l.Nodup) (hall : ∀ p, p ∈ l)
    {srcIndex srcBit dstIndex dstBit : Fin w × Fin h → UInt32}
    (hfrom : ∀ p k, ((srcIndex p).toNat, (srcBit p).toNat) = mono.sampleAt (p, k))
    (hto : ∀ p k, ((dstIndex p).toNat, (dstBit p).toNat) = mono.sampleAt (e p, k)) :
    mono.Draws (Raster.rotate e (mono.raster w h src))
      (l.foldlM (fun c p ↦ copyMono src (srcIndex p) (srcBit p) (dstIndex p) (dstBit p) c)
        ⟨dst, []⟩) := by
  have hone : (fun c p ↦ copyMono src (srcIndex p) (srcBit p) (dstIndex p) (dstBit p) c) =
      fun c p ↦ (List.finRange mono.samples).foldlM
        (fun c _ ↦ copyMono src (srcIndex p) (srcBit p) (dstIndex p) (dstBit p) c) c := by
    have hlist : List.finRange 1 = [0] := by decide
    funext c p
    change _ = (List.finRange 1).foldlM _ c
    rw [hlist]
    exact (bind_pure _).symm
  rw [hone]
  apply mono.draws_of_pixels e (mono.raster w h src) hdst hnodup hall
  intro c p k hin
  have hread : bits.Inside src ((srcIndex p).toNat, (srcBit p).toNat) := by
    rw [hfrom p k]
    exact mono.inside_place p.1.isLt p.2.isLt k.isLt hsrc
  rw [← hto p k] at hin ⊢
  rw [copyMono_of_lt hread hin, hfrom p k]
  rfl

theorem toNat_ofNat_fin {n : UInt32} (i : Fin n.toNat) : (UInt32.ofNat i).toNat = i :=
  UInt32.toNat_ofNat_of_lt' (Nat.lt_trans i.isLt n.toNat_lt)

theorem toNat_sub_sub_one {n : UInt32} (i : Fin n.toNat) :
    (n - UInt32.ofNat i - 1).toNat = i.rev := by
  have hi := i.isLt
  have hn := n.toNat_lt
  rw [UInt32.toNat_sub, UInt32.toNat_sub, toNat_ofNat_fin, Fin.val_rev, UInt32.toNat_one]
  omega

theorem toNat_sub_one_sub {n : UInt32} (i : Fin n.toNat) :
    (n - 1 - UInt32.ofNat i).toNat = i.rev := by
  have hi := i.isLt
  have hn := n.toNat_lt
  rw [UInt32.toNat_sub, UInt32.toNat_sub, toNat_ofNat_fin, Fin.val_rev, UInt32.toNat_one]
  omega

section Index

variable {W H a b : UInt32} (ha : a.toNat < H.toNat) (hb : b.toNat < W.toNat)
include ha hb

theorem toNat_indexRgb888 (hsize : rgb888.size W.toNat H.toNat < 2 ^ 32) (k : Fin 3) :
    (a * (W * 3) + b * 3 + UInt32.ofNat k).toNat =
      rgb888.place W.toNat b.toNat a.toNat k := by
  have hlt := rowMajor_lt ha (rowMajor_lt hb k.isLt)
  have hk := k.isLt
  change a.toNat * (W.toNat * 3) + (b.toNat * 3 + k) < H.toNat * (W.toNat * 3) at hlt
  change H.toNat * (W.toNat * 3) < 2 ^ 32 at hsize
  change _ = a.toNat * (W.toNat * 3) + (b.toNat * 3 + k)
  simp only [UInt32.toNat_add, UInt32.toNat_mul, UInt32.toNat_ofNat', UInt32.reduceToNat,
    Nat.add_mod_mod, Nat.mod_add_mod, Nat.mul_mod_mod]
  rw [Nat.add_assoc]
  exact Nat.mod_eq_of_lt (Nat.lt_trans hlt hsize)

theorem toNat_indexRgb565 (hsize : rgb565.size W.toNat H.toNat < 2 ^ 32) (k : Fin 1) :
    (a * W + b).toNat = rgb565.place W.toNat b.toNat a.toNat k := by
  have hlt := rowMajor_lt ha hb
  change H.toNat * (W.toNat * 1) < 2 ^ 32 at hsize
  change _ = a.toNat * (W.toNat * 1) + (b.toNat * 1 + k)
  rw [Nat.mul_one] at hsize
  rw [UInt32.toNat_add, UInt32.toNat_mul, Nat.mod_add_mod,
    Nat.mod_eq_of_lt (Nat.lt_trans hlt hsize), Fin.val_eq_zero, Nat.mul_one, Nat.mul_one,
    Nat.add_zero]

/-- The stride of a row wraps for the last seven widths, which does no harm in a single row. -/
theorem toNat_indexMono (hsize : mono.size W.toNat H.toNat < 2 ^ 32)
    (hrow : W.toNat + 7 < 2 ^ 32 ∨ H.toNat = 1) (k : ℕ) :
    ((a * ((W + 7) / 8) + b / 8).toNat, (b % 8).toNat) =
      mono.place W.toNat b.toNat a.toNat k := by
  have hlt := rowMajor_lt ha (div_lt_rowBytes hb)
  change H.toNat * rowBytes W.toNat < 2 ^ 32 at hsize
  have hstride : a.toNat * ((W + 7) / 8).toNat = a.toNat * rowBytes W.toNat := by
    rcases hrow with hW | hH
    · have hsum : (W + 7).toNat = W.toNat + 7 := by
        rw [UInt32.toNat_add]
        exact Nat.mod_eq_of_lt hW
      rw [UInt32.toNat_div, hsum]
      rfl
    · have ha : a.toNat = 0 := by omega
      rw [ha, Nat.zero_mul, Nat.zero_mul]
  have hbyte : (a * ((W + 7) / 8) + b / 8).toNat = a.toNat * rowBytes W.toNat + b.toNat / 8 := by
    rw [UInt32.toNat_add, UInt32.toNat_mul, Nat.mod_add_mod, hstride, UInt32.toNat_div]
    exact Nat.mod_eq_of_lt (Nat.lt_trans hlt hsize)
  rw [hbyte, UInt32.toNat_mod]
  rfl

end Index

section Draws

variable {w h w' h' : UInt32} {l : List (Fin w.toNat × Fin h.toNat)} (hnodup : l.Nodup)
  (hall : ∀ p, p ∈ l) (e : Fin w.toNat × Fin h.toNat ≃ Fin w'.toNat × Fin h'.toNat)
  {row col : Fin w.toNat × Fin h.toNat → UInt32}
  (hrow : ∀ p, (row p).toNat = (e p).2) (hcol : ∀ p, (col p).toNat = (e p).1)
include hnodup hall hrow hcol

theorem draws_rgb888 {src dst : List UInt8} (hsize : rgb888.size w.toNat h.toNat < 2 ^ 32)
    (hsize' : rgb888.size w'.toNat h'.toNat < 2 ^ 32)
    (hsrc : src.length = rgb888.size w.toNat h.toNat)
    (hdst : dst.length = rgb888.size w'.toNat h'.toNat) :
    rgb888.Draws ((rgb888.raster w.toNat h.toNat src).rotate e)
      (l.foldlM (fun c p ↦ copyRgb888 src (UInt32.ofNat p.2 * (w * 3) + UInt32.ofNat p.1 * 3)
        (row p * (w' * 3) + col p * 3) c) ⟨dst, []⟩) := by
  simp only [copyRgb888_eq]
  apply draws_packed e id hsrc hdst hnodup hall
  · intro p k
    have hindex := toNat_indexRgb888 ((toNat_ofNat_fin p.2).trans_lt p.2.isLt)
      ((toNat_ofNat_fin p.1).trans_lt p.1.isLt) hsize k
    rw [toNat_ofNat_fin, toNat_ofNat_fin] at hindex
    exact hindex
  · intro p k
    have hindex := toNat_indexRgb888 ((hrow p).trans_lt (e p).2.isLt)
      ((hcol p).trans_lt (e p).1.isLt) hsize' k
    rw [hrow, hcol] at hindex
    exact hindex

theorem draws_rgb565 (isSwap : Bool) {src dst : List UInt16}
    (hsize : rgb565.size w.toNat h.toNat < 2 ^ 32)
    (hsize' : rgb565.size w'.toNat h'.toNat < 2 ^ 32)
    (hsrc : src.length = rgb565.size w.toNat h.toNat)
    (hdst : dst.length = rgb565.size w'.toNat h'.toNat) :
    rgb565.Draws
      (Raster.rotate e fun p k ↦ swapped isSwap (rgb565.raster w.toNat h.toNat src p k))
      (l.foldlM (fun c p ↦ copyRgb565 isSwap src (UInt32.ofNat p.2 * w + UInt32.ofNat p.1)
        (row p * w' + col p) c) ⟨dst, []⟩) := by
  simp only [copyRgb565_eq]
  apply draws_packed e (swapped isSwap) hsrc hdst hnodup hall
  · intro p k
    have hindex := toNat_indexRgb565 ((toNat_ofNat_fin p.2).trans_lt p.2.isLt)
      ((toNat_ofNat_fin p.1).trans_lt p.1.isLt) hsize k
    rw [toNat_ofNat_fin, toNat_ofNat_fin] at hindex
    exact hindex
  · intro p k
    have hindex := toNat_indexRgb565 ((hrow p).trans_lt (e p).2.isLt)
      ((hcol p).trans_lt (e p).1.isLt) hsize' k
    rw [hrow, hcol] at hindex
    exact hindex

theorem draws_monoImage {src dst : List UInt8} (hsize : mono.size w.toNat h.toNat < 2 ^ 32)
    (hwrap : w.toNat + 7 < 2 ^ 32 ∨ h.toNat = 1) (hsize' : mono.size w'.toNat h'.toNat < 2 ^ 32)
    (hwrap' : w'.toNat + 7 < 2 ^ 32 ∨ h'.toNat = 1)
    (hsrc : src.length = mono.size w.toNat h.toNat)
    (hdst : dst.length = mono.size w'.toNat h'.toNat) :
    mono.Draws ((mono.raster w.toNat h.toNat src).rotate e)
      (l.foldlM (fun c p ↦ copyMono src
        (UInt32.ofNat p.2 * ((w + 7) / 8) + UInt32.ofNat p.1 / 8) (UInt32.ofNat p.1 % 8)
        (row p * ((w' + 7) / 8) + col p / 8) (col p % 8) c) ⟨dst, []⟩) := by
  apply draws_mono e hsrc hdst hnodup hall
  · intro p k
    have hindex := toNat_indexMono ((toNat_ofNat_fin p.2).trans_lt p.2.isLt)
      ((toNat_ofNat_fin p.1).trans_lt p.1.isLt) hsize hwrap k
    rw [toNat_ofNat_fin p.1, toNat_ofNat_fin p.2] at hindex
    exact hindex
  · intro p k
    have hindex := toNat_indexMono ((hrow p).trans_lt (e p).2.isLt)
      ((hcol p).trans_lt (e p).1.isLt) hsize' hwrap' k
    rw [hrow, hcol] at hindex
    exact hindex

end Draws

theorem rgb888_size_swap (w h : ℕ) : rgb888.size h w = rgb888.size w h := by
  change w * (h * 3) = h * (w * 3)
  rw [Nat.mul_left_comm]

section Rgb888

variable {w h : UInt32} {src dst : List UInt8} (hsize : rgb888.size w.toNat h.toNat < 2 ^ 32)
  (hsrc : src.length = rgb888.size w.toNat h.toNat)
include hsize hsrc

theorem talImageRgb888Rotate90_draws (hdst : dst.length = rgb888.size h.toNat w.toNat) :
    rgb888.Draws ((rgb888.raster w.toNat h.toNat src).rotate (Raster.threeQuarters _ _))
      (talImageRgb888Rotate90 src ⟨dst, []⟩ w h) := by
  simp only [talImageRgb888Rotate90]
  rw [forLoop_columns]
  have hsize' : rgb888.size h.toNat w.toNat < 2 ^ 32 := by rwa [rgb888_size_swap]
  exact draws_rgb888 (nodup_columns _ _) mem_columns (Raster.threeQuarters _ _)
    (fun p ↦ toNat_sub_sub_one p.1) (fun p ↦ toNat_ofNat_fin p.2) hsize hsize' hsrc hdst

theorem talImageRgb888Rotate180_draws (hdst : dst.length = rgb888.size w.toNat h.toNat) :
    rgb888.Draws ((rgb888.raster w.toNat h.toNat src).rotate (Raster.half _ _))
      (talImageRgb888Rotate180 src ⟨dst, []⟩ w h) := by
  simp only [talImageRgb888Rotate180]
  rw [forLoop_rows]
  exact draws_rgb888 (nodup_rows _ _) mem_rows (Raster.half _ _)
    (fun p ↦ toNat_sub_sub_one p.2) (fun p ↦ toNat_sub_sub_one p.1) hsize hsize hsrc hdst

theorem talImageRgb888Rotate270_draws (hdst : dst.length = rgb888.size h.toNat w.toNat) :
    rgb888.Draws ((rgb888.raster w.toNat h.toNat src).rotate (Raster.quarter _ _))
      (talImageRgb888Rotate270 src ⟨dst, []⟩ w h) := by
  simp only [talImageRgb888Rotate270]
  rw [forLoop_columns]
  have hsize' : rgb888.size h.toNat w.toNat < 2 ^ 32 := by rwa [rgb888_size_swap]
  exact draws_rgb888 (nodup_columns _ _) mem_columns (Raster.quarter _ _)
    (fun p ↦ toNat_ofNat_fin p.1) (fun p ↦ toNat_sub_sub_one p.2) hsize hsize' hsrc hdst

end Rgb888

theorem rgb565_size_swap (w h : ℕ) : rgb565.size h w = rgb565.size w h := by
  change w * (h * 1) = h * (w * 1)
  rw [Nat.mul_left_comm]

section Rgb565

variable {w h : UInt32} {src dst : List UInt16} (hsize : rgb565.size w.toNat h.toNat < 2 ^ 32)
  (hsrc : src.length = rgb565.size w.toNat h.toNat) (isSwap : Bool)
include hsize hsrc

theorem talImageRgb565Rotate90_draws (hdst : dst.length = rgb565.size h.toNat w.toNat) :
    rgb565.Draws
      (Raster.rotate (Raster.threeQuarters _ _)
        fun p k ↦ swapped isSwap (rgb565.raster w.toNat h.toNat src p k))
      (talImageRgb565Rotate90 src ⟨dst, []⟩ w h isSwap) := by
  have hloop : talImageRgb565Rotate90 src ⟨dst, []⟩ w h isSwap =
      forLoop w (fun x dst ↦ forLoop h (fun y dst ↦
        copyRgb565 isSwap src (y * w + x) ((w - x - 1) * h + y) dst) dst) ⟨dst, []⟩ := by
    rw [talImageRgb565Rotate90]
    congr 1
    funext x dst
    simp only [UInt32.add_comm _ x]
    exact forLoop_stride h w x
      (fun y i dst ↦ copyRgb565 isSwap src i ((w - x - 1) * h + y) dst) dst
  rw [hloop]
  rw [forLoop_columns]
  have hsize' : rgb565.size h.toNat w.toNat < 2 ^ 32 := by rwa [rgb565_size_swap]
  exact draws_rgb565 (nodup_columns _ _) mem_columns (Raster.threeQuarters _ _)
    (fun p ↦ toNat_sub_sub_one p.1) (fun p ↦ toNat_ofNat_fin p.2) isSwap hsize hsize' hsrc hdst

theorem talImageRgb565Rotate180_draws (hdst : dst.length = rgb565.size w.toNat h.toNat) :
    rgb565.Draws
      (Raster.rotate (Raster.half _ _)
        fun p k ↦ swapped isSwap (rgb565.raster w.toNat h.toNat src p k))
      (talImageRgb565Rotate180 src ⟨dst, []⟩ w h isSwap) := by
  have hindex (a x : UInt32) : a + w - x - 1 = a + (w - x - 1) := by
    rw [UInt32.sub_eq_add_neg, UInt32.sub_eq_add_neg, UInt32.sub_eq_add_neg, UInt32.sub_eq_add_neg,
      UInt32.add_assoc, UInt32.add_assoc, UInt32.add_assoc]
  simp only [talImageRgb565Rotate180, hindex]
  rw [forLoop_rows]
  exact draws_rgb565 (nodup_rows _ _) mem_rows (Raster.half _ _)
    (fun p ↦ toNat_sub_sub_one p.2) (fun p ↦ toNat_sub_sub_one p.1) isSwap hsize hsize hsrc hdst

theorem talImageRgb565Rotate270_draws (hdst : dst.length = rgb565.size h.toNat w.toNat) :
    rgb565.Draws
      (Raster.rotate (Raster.quarter _ _)
        fun p k ↦ swapped isSwap (rgb565.raster w.toNat h.toNat src p k))
      (talImageRgb565Rotate270 src ⟨dst, []⟩ w h isSwap) := by
  have hloop : talImageRgb565Rotate270 src ⟨dst, []⟩ w h isSwap =
      forLoop w (fun x dst ↦ forLoop h (fun y dst ↦
        copyRgb565 isSwap src (y * w + x) (x * h + (h - y - 1)) dst) dst) ⟨dst, []⟩ := by
    rw [talImageRgb565Rotate270]
    congr 1
    funext x dst
    simp only [UInt32.add_comm _ x]
    exact forLoop_stride h w x
      (fun y i dst ↦ copyRgb565 isSwap src i (x * h + (h - y - 1)) dst) dst
  rw [hloop]
  rw [forLoop_columns]
  have hsize' : rgb565.size h.toNat w.toNat < 2 ^ 32 := by rwa [rgb565_size_swap]
  exact draws_rgb565 (nodup_columns _ _) mem_columns (Raster.quarter _ _)
    (fun p ↦ toNat_ofNat_fin p.1) (fun p ↦ toNat_sub_sub_one p.2) isSwap hsize hsize' hsrc hdst

end Rgb565

section Mono

variable {w h : UInt32} {src dst : List UInt8} (hsize : mono.size w.toNat h.toNat < 2 ^ 32)
  (hwrap : w.toNat + 7 < 2 ^ 32 ∨ h.toNat = 1) (hsrc : src.length = mono.size w.toNat h.toNat)
include hsize hwrap hsrc

theorem talImageMonoRotate90_draws (hsize' : mono.size h.toNat w.toNat < 2 ^ 32)
    (hwrap' : h.toNat + 7 < 2 ^ 32 ∨ w.toNat = 1)
    (hdst : dst.length = mono.size h.toNat w.toNat) :
    mono.Draws ((mono.raster w.toNat h.toNat src).rotate (Raster.quarter _ _))
      (talImageMonoRotate90 src ⟨dst, []⟩ w h) := by
  simp only [talImageMonoRotate90]
  rw [forLoop_columns]
  exact draws_monoImage (nodup_columns _ _) mem_columns (Raster.quarter _ _)
    (fun p ↦ toNat_ofNat_fin p.1) (fun p ↦ toNat_sub_one_sub p.2) hsize hwrap hsize' hwrap'
      hsrc hdst

theorem talImageMonoRotate180_draws (hdst : dst.length = mono.size w.toNat h.toNat) :
    mono.Draws ((mono.raster w.toNat h.toNat src).rotate (Raster.half _ _))
      (talImageMonoRotate180 src ⟨dst, []⟩ w h) := by
  simp only [talImageMonoRotate180]
  rw [forLoop_columns]
  exact draws_monoImage (nodup_columns _ _) mem_columns (Raster.half _ _)
    (fun p ↦ toNat_sub_one_sub p.2) (fun p ↦ toNat_sub_one_sub p.1) hsize hwrap hsize hwrap
      hsrc hdst

theorem talImageMonoRotate270_draws (hsize' : mono.size h.toNat w.toNat < 2 ^ 32)
    (hwrap' : h.toNat + 7 < 2 ^ 32 ∨ w.toNat = 1)
    (hdst : dst.length = mono.size h.toNat w.toNat) :
    mono.Draws ((mono.raster w.toNat h.toNat src).rotate (Raster.threeQuarters _ _))
      (talImageMonoRotate270 src ⟨dst, []⟩ w h) := by
  simp only [talImageMonoRotate270]
  rw [forLoop_columns]
  exact draws_monoImage (nodup_columns _ _) mem_columns (Raster.threeQuarters _ _)
    (fun p ↦ toNat_sub_one_sub p.1) (fun p ↦ toNat_ofNat_fin p.2) hsize hwrap hsize' hwrap'
      hsrc hdst

end Mono

end TuyaOpen.Image
