import TuyaOpen.Image.RotateTurns

/-!
# Which rotations are right

The monochrome functions turn as they say, as long as the bytes of a row can be
computed in `uint32_t`.  The RGB565 and the RGB888 functions for 90 and for 270
degrees have changed places, which shows in every image but those that half a
turn leaves as they are.
-/

namespace TuyaOpen.Image

open Raster

section Property

variable {β κ υ : Type*} [DecidableEq κ]

/-- What the functions that rotate an image are for, at one image. -/
structure RotatesRight (F : PixelFormat β κ υ)
    (rotate90 rotate180 rotate270 : List β → Canvas (List β) κ → UInt32 → UInt32 →
      Option (Canvas (List β) κ)) (w h : UInt32) (src : List β) : Prop where
  by90 : F.size h.toNat w.toNat < 2 ^ 32 → ∀ dst : List β, dst.length = F.size h.toNat w.toNat →
    F.Draws ((F.raster w.toNat h.toNat src).rotate (quarter _ _)) (rotate90 src ⟨dst, []⟩ w h)
  by180 : ∀ dst : List β, dst.length = F.size w.toNat h.toNat →
    F.Draws ((F.raster w.toNat h.toNat src).rotate (half _ _)) (rotate180 src ⟨dst, []⟩ w h)
  by270 : F.size h.toNat w.toNat < 2 ^ 32 → ∀ dst : List β, dst.length = F.size h.toNat w.toNat →
    F.Draws ((F.raster w.toNat h.toNat src).rotate (threeQuarters _ _))
      (rotate270 src ⟨dst, []⟩ w h)
  twice : F.size h.toNat w.toNat < 2 ^ 32 → ∀ mid dst dst' : List β,
    mid.length = F.size h.toNat w.toNat → dst.length = F.size w.toNat h.toNat →
    dst'.length = F.size w.toNat h.toNat →
    ∃ m c c', rotate90 src ⟨mid, []⟩ w h = some m ∧ rotate90 m.data ⟨dst, []⟩ h w = some c ∧
      rotate180 src ⟨dst', []⟩ w h = some c' ∧
      F.raster w.toNat h.toNat c.data = F.raster w.toNat h.toNat c'.data
  undone : F.size h.toNat w.toNat < 2 ^ 32 → ∀ mid dst : List β,
    mid.length = F.size h.toNat w.toNat → dst.length = F.size w.toNat h.toNat →
    ∃ m c, rotate90 src ⟨mid, []⟩ w h = some m ∧ rotate270 m.data ⟨dst, []⟩ h w = some c ∧
      F.raster w.toNat h.toNat c.data = F.raster w.toNat h.toNat src

/-- Rotating twice by 180 degrees, each time with the bytes of the pixels exchanged. -/
def SwapTwice (w h : UInt32) (src : List UInt16) : Prop :=
  ∀ mid dst : List UInt16, mid.length = rgb565.size w.toNat h.toNat →
    dst.length = rgb565.size w.toNat h.toNat →
    ∃ m c, talImageRgb565Rotate180 src ⟨mid, []⟩ w h true = some m ∧
      talImageRgb565Rotate180 m.data ⟨dst, []⟩ w h true = some c ∧
      rgb565.raster w.toNat h.toNat c.data = rgb565.raster w.toNat h.toNat src

variable {F : PixelFormat β κ υ}

theorem PixelFormat.Draws.andThen {w h w' h' : ℕ} {J : Raster w h (Fin F.samples → υ)}
    {out : Option (Canvas (List β) κ)} (hout : F.Draws J out)
    (e : Fin w × Fin h ≃ Fin w' × Fin h') {next : List β → Option (Canvas (List β) κ)}
    (hnext : ∀ data, data.length = F.size w h →
      F.Draws ((F.raster w h data).rotate e) (next data)) :
    ∃ m c, out = some m ∧ next m.data = some c ∧ F.raster w' h' c.data = J.rotate e := by
  obtain ⟨m, hm, hlength, hpicture, -⟩ := hout
  obtain ⟨c, hc, -, hdrawn, -⟩ := hnext m.data hlength
  rw [hpicture] at hdrawn
  exact ⟨m, c, hm, hc, hdrawn⟩

section Turns

variable {rotate90 rotate180 rotate270 : List β → Canvas (List β) κ → UInt32 → UInt32 →
    Option (Canvas (List β) κ)} {w h : UInt32} {src : List β}
  (turn back : ∀ w h : ℕ, Fin w × Fin h ≃ Fin h × Fin w)

/-- Two functions that turn one way and back, and one that turns by 180 degrees, are right where
the first of them turns the right way. -/
theorem rotatesRight_of_draws
    (hturn : ∀ I : Raster w.toNat h.toNat (Fin F.samples → υ),
      (I.rotate (turn _ _)).rotate (turn _ _) = I.rotate (half _ _))
    (hback : ∀ I : Raster w.toNat h.toNat (Fin F.samples → υ),
      (I.rotate (turn _ _)).rotate (back _ _) = I)
    (h180 : ∀ dst : List β, dst.length = F.size w.toNat h.toNat →
      F.Draws ((F.raster w.toNat h.toNat src).rotate (half _ _)) (rotate180 src ⟨dst, []⟩ w h))
    (h90 : F.size h.toNat w.toNat < 2 ^ 32 → ∀ dst : List β,
      dst.length = F.size h.toNat w.toNat →
      F.Draws ((F.raster w.toNat h.toNat src).rotate (turn _ _)) (rotate90 src ⟨dst, []⟩ w h))
    (h270 : F.size h.toNat w.toNat < 2 ^ 32 → ∀ dst : List β,
      dst.length = F.size h.toNat w.toNat →
      F.Draws ((F.raster w.toNat h.toNat src).rotate (back _ _)) (rotate270 src ⟨dst, []⟩ w h))
    (hagain : F.size h.toNat w.toNat < 2 ^ 32 → ∀ mid dst : List β,
      mid.length = F.size h.toNat w.toNat → dst.length = F.size w.toNat h.toNat →
      F.Draws ((F.raster h.toNat w.toNat mid).rotate (turn _ _)) (rotate90 mid ⟨dst, []⟩ h w))
    (hundo : F.size h.toNat w.toNat < 2 ^ 32 → ∀ mid dst : List β,
      mid.length = F.size h.toNat w.toNat → dst.length = F.size w.toNat h.toNat →
      F.Draws ((F.raster h.toNat w.toNat mid).rotate (back _ _)) (rotate270 mid ⟨dst, []⟩ h w))
    (hclockwise : (F.raster w.toNat h.toNat src).rotate (turn _ _) =
      (F.raster w.toNat h.toNat src).rotate (quarter _ _))
    (hcounter : (F.raster w.toNat h.toNat src).rotate (back _ _) =
      (F.raster w.toNat h.toNat src).rotate (threeQuarters _ _)) :
    RotatesRight F rotate90 rotate180 rotate270 w h src := by
  refine ⟨?_, h180, ?_, ?_, ?_⟩
  · rwa [← hclockwise]
  · rwa [← hcounter]
  · intro hsize mid dst dst' hmid hdst hdst'
    obtain ⟨c', hc', -, hpicture', -⟩ := h180 dst' hdst'
    obtain ⟨m, c, hm, hc, hpicture⟩ := (h90 hsize mid hmid).andThen (turn _ _)
      fun data hdata ↦ hagain hsize data dst hdata hdst
    refine ⟨m, c, c', hm, hc, hc', ?_⟩
    rw [hpicture, hpicture', hturn]
  · intro hsize mid dst hmid hdst
    obtain ⟨m, c, hm, hc, hpicture⟩ := (h90 hsize mid hmid).andThen (back _ _)
      fun data hdata ↦ hundo hsize data dst hdata hdst
    refine ⟨m, c, hm, hc, ?_⟩
    rw [hpicture, hback]

end Turns

end Property

theorem rgb888_rotates_right_iff {w h : UInt32} {src : List UInt8}
    (hsize : rgb888.size w.toNat h.toNat < 2 ^ 32)
    (hsrc : src.length = rgb888.size w.toNat h.toNat) :
    RotatesRight rgb888 talImageRgb888Rotate90 talImageRgb888Rotate180 talImageRgb888Rotate270
        w h src ↔
      (rgb888.raster w.toNat h.toNat src).rotate (half _ _) =
        rgb888.raster w.toNat h.toNat src := by
  have hsize' : rgb888.size h.toNat w.toNat < 2 ^ 32 := by rwa [rgb888_size_swap]
  rw [← rotate_threeQuarters_eq_quarter_iff]
  constructor
  · intro hright
    have hlength := List.length_replicate (n := rgb888.size h.toNat w.toNat) (a := (0 : UInt8))
    apply (talImageRgb888Rotate90_draws hsize hsrc hlength).unique
    exact hright.by90 hsize' _ hlength
  · intro hsame
    apply rotatesRight_of_draws threeQuarters quarter rotate_threeQuarters_threeQuarters
      rotate_threeQuarters_quarter
    · intro dst
      exact talImageRgb888Rotate180_draws hsize hsrc
    · intro _ dst
      exact talImageRgb888Rotate90_draws hsize hsrc
    · intro _ dst
      exact talImageRgb888Rotate270_draws hsize hsrc
    · intro _ mid dst
      exact talImageRgb888Rotate90_draws hsize'
    · intro _ mid dst
      exact talImageRgb888Rotate270_draws hsize'
    · exact hsame
    · exact hsame.symm

theorem rgb565_swapTwice {w h : UInt32} {src : List UInt16}
    (hsize : rgb565.size w.toNat h.toNat < 2 ^ 32)
    (hsrc : src.length = rgb565.size w.toNat h.toNat) : SwapTwice w h src := by
  intro mid dst hmid hdst
  obtain ⟨m, hm, hlength, hpicture, -⟩ := talImageRgb565Rotate180_draws hsize hsrc true hmid
  obtain ⟨c, hc, -, hdrawn, -⟩ := talImageRgb565Rotate180_draws hsize hlength true hdst
  refine ⟨m, c, hm, hc, ?_⟩
  rw [hdrawn, hpicture]
  funext p k
  simp [rotate, half, swapped, wordSwap_wordSwap]

theorem rgb565_rotates_right_iff {w h : UInt32} {src : List UInt16}
    (hsize : rgb565.size w.toNat h.toNat < 2 ^ 32)
    (hsrc : src.length = rgb565.size w.toNat h.toNat) :
    RotatesRight rgb565 (talImageRgb565Rotate90 · · · · false)
        (talImageRgb565Rotate180 · · · · false) (talImageRgb565Rotate270 · · · · false) w h src ↔
      (rgb565.raster w.toNat h.toNat src).rotate (half _ _) =
        rgb565.raster w.toNat h.toNat src := by
  have hsize' : rgb565.size h.toNat w.toNat < 2 ^ 32 := by rwa [rgb565_size_swap]
  rw [← rotate_threeQuarters_eq_quarter_iff]
  constructor
  · intro hright
    have hlength := List.length_replicate (n := rgb565.size h.toNat w.toNat) (a := (0 : UInt16))
    apply (talImageRgb565Rotate90_draws hsize hsrc false hlength).unique
    exact hright.by90 hsize' _ hlength
  · intro hsame
    apply rotatesRight_of_draws threeQuarters quarter rotate_threeQuarters_threeQuarters
      rotate_threeQuarters_quarter
    · intro dst
      exact talImageRgb565Rotate180_draws hsize hsrc false
    · intro _ dst
      exact talImageRgb565Rotate90_draws hsize hsrc false
    · intro _ dst
      exact talImageRgb565Rotate270_draws hsize hsrc false
    · intro _ mid dst hmid
      exact talImageRgb565Rotate90_draws hsize' hmid false
    · intro _ mid dst hmid
      exact talImageRgb565Rotate270_draws hsize' hmid false
    · exact hsame
    · exact hsame.symm

theorem mono_rotates_right {w h : UInt32} {src : List UInt8}
    (hsize : mono.size w.toNat h.toNat < 2 ^ 32) (hsrc : src.length = mono.size w.toNat h.toNat)
    (hwrap : w.toNat + 7 < 2 ^ 32 ∨ h.toNat = 1)
    (hwrap' : mono.size h.toNat w.toNat < 2 ^ 32 → h.toNat + 7 < 2 ^ 32 ∨ w.toNat = 1) :
    RotatesRight mono talImageMonoRotate90 talImageMonoRotate180 talImageMonoRotate270 w h src := by
  apply rotatesRight_of_draws quarter threeQuarters rotate_quarter_quarter
    rotate_quarter_threeQuarters
  · intro dst
    exact talImageMonoRotate180_draws hsize hwrap hsrc
  · intro hsize' dst
    exact talImageMonoRotate90_draws hsize hwrap hsrc hsize' (hwrap' hsize')
  · intro hsize' dst
    exact talImageMonoRotate270_draws hsize hwrap hsrc hsize' (hwrap' hsize')
  · intro hsize' mid dst hmid
    exact talImageMonoRotate90_draws hsize' (hwrap' hsize') hmid hsize hwrap
  · intro hsize' mid dst hmid
    exact talImageMonoRotate270_draws hsize' (hwrap' hsize') hmid hsize hwrap
  · rfl
  · rfl

theorem stores_copyMono {src : List UInt8} {srcIndex srcBitIdx dstIndex dstBitIdx : UInt32}
    {c c' : Canvas (List UInt8) (ℕ × ℕ)}
    (h : copyMono src srcIndex srcBitIdx dstIndex dstBitIdx c = some c') :
    c'.stores = (dstIndex.toNat, dstBitIdx.toNat) :: c.stores := by
  obtain ⟨byte, -, hstore⟩ := Option.bind_eq_some_iff.mp h
  obtain ⟨old, -, rfl⟩ := Option.map_eq_some_iff.mp hstore
  rfl

theorem not_draws_of_wrap {w h w' h' : UInt32} {l : List (Fin w.toNat × Fin h.toNat)}
    {src dst : List UInt8} {srcIndex srcBit row col : Fin w.toNat × Fin h.toNat → UInt32}
    (hcol : ∀ p, (col p).toNat < w'.toNat) (hwrap : 2 ^ 32 ≤ w'.toNat + 7) (hh : 1 < h'.toNat)
    (J : Raster w'.toNat h'.toNat (Fin mono.samples → Bool)) :
    ¬ mono.Draws J (l.foldlM (fun c p ↦ copyMono src (srcIndex p) (srcBit p)
      (row p * ((w' + 7) / 8) + col p / 8) (col p % 8) c) ⟨dst, []⟩) := by
  intro hdraws
  obtain ⟨c, hout, hall⟩ := hdraws.stores
  have hw := w'.toNat_lt
  have hzero : ((w' + 7) / 8).toNat = 0 := by
    rw [UInt32.toNat_div, UInt32.toNat_add]
    change (w'.toNat + 7) % 2 ^ 32 / 8 = 0
    omega
  have hstep : ∀ c c' : Canvas (List UInt8) (ℕ × ℕ), ∀ p ∈ l,
      copyMono src (srcIndex p) (srcBit p) (row p * ((w' + 7) / 8) + col p / 8) (col p % 8) c =
        some c' →
      c'.stores = ((row p * ((w' + 7) / 8) + col p / 8).toNat, (col p % 8).toNat) :: c.stores := by
    intro c c' p _
    exact stores_copyMono
  have hsecond := hall ((⟨0, by omega⟩, ⟨1, hh⟩), ⟨0, Nat.one_pos⟩)
  rw [Canvas.stores_foldlM hstep hout, List.append_nil, List.mem_reverse] at hsecond
  obtain ⟨p, -, hp⟩ := List.mem_map.mp hsecond
  have hbyte := (Prod.mk.inj hp).1
  have hcol := hcol p
  change _ = 1 * rowBytes w'.toNat + 0 / 8 at hbyte
  rw [UInt32.toNat_add, UInt32.toNat_mul, hzero, UInt32.toNat_div] at hbyte
  change ((row p).toNat * 0 % 2 ^ 32 + (col p).toNat / 8) % 2 ^ 32 = _ at hbyte
  rw [rowBytes] at hbyte
  omega

theorem mono_rotates_right_iff {w h : UInt32} {src : List UInt8} (hw : 0 < w) (hh : 0 < h)
    (hsize : mono.size w.toNat h.toNat < 2 ^ 32) (hsrc : src.length = mono.size w.toNat h.toNat) :
    RotatesRight mono talImageMonoRotate90 talImageMonoRotate180 talImageMonoRotate270 w h src ↔
      (w.toNat + 7 < 2 ^ 32 ∨ h.toNat = 1) ∧
        (h.toNat + 7 < 2 ^ 32 ∨ w.toNat = 1 ∨ 2 ^ 32 ≤ mono.size h.toNat w.toNat) := by
  have hw : 0 < w.toNat := hw
  have hh : 0 < h.toNat := hh
  constructor
  · intro hright
    constructor
    · by_contra hwrap
      have hdraws := hright.by180 _ (List.length_replicate (a := 0))
      simp only [talImageMonoRotate180] at hdraws
      rw [forLoop_columns] at hdraws
      refine not_draws_of_wrap ?_ (by omega) (by omega) _ hdraws
      intro p
      rw [toNat_sub_one_sub]
      exact p.1.rev.isLt
    · by_contra hwrap
      have hdraws := hright.by90 (by omega) _ (List.length_replicate (a := 0))
      simp only [talImageMonoRotate90] at hdraws
      rw [forLoop_columns] at hdraws
      refine not_draws_of_wrap ?_ (by omega) (by omega) _ hdraws
      intro p
      rw [toNat_sub_one_sub]
      exact p.2.rev.isLt
  · rintro ⟨hwrap, hwrap'⟩
    apply mono_rotates_right hsize hsrc hwrap
    intro hsize'
    omega

/-- Each of the three formats, and when its functions are right at an image. -/
theorem tal_image_rotates_right (w h : UInt32) (hw : 0 < w) (hh : 0 < h) :
    (∀ src : List UInt8, mono.size w.toNat h.toNat < 2 ^ 32 →
      src.length = mono.size w.toNat h.toNat →
      (RotatesRight mono talImageMonoRotate90 talImageMonoRotate180 talImageMonoRotate270 w h src ↔
        (w.toNat + 7 < 2 ^ 32 ∨ h.toNat = 1) ∧
          (h.toNat + 7 < 2 ^ 32 ∨ w.toNat = 1 ∨ 2 ^ 32 ≤ mono.size h.toNat w.toNat))) ∧
    (∀ src : List UInt16, rgb565.size w.toNat h.toNat < 2 ^ 32 →
      src.length = rgb565.size w.toNat h.toNat →
      (RotatesRight rgb565 (talImageRgb565Rotate90 · · · · false)
          (talImageRgb565Rotate180 · · · · false) (talImageRgb565Rotate270 · · · · false) w h src ∧
        SwapTwice w h src ↔
      (rgb565.raster w.toNat h.toNat src).rotate (half _ _) =
        rgb565.raster w.toNat h.toNat src)) ∧
    (∀ src : List UInt8, rgb888.size w.toNat h.toNat < 2 ^ 32 →
      src.length = rgb888.size w.toNat h.toNat →
      (RotatesRight rgb888 talImageRgb888Rotate90 talImageRgb888Rotate180 talImageRgb888Rotate270
          w h src ↔
        (rgb888.raster w.toNat h.toNat src).rotate (half _ _) =
          rgb888.raster w.toNat h.toNat src)) := by
  refine ⟨?_, ?_, ?_⟩
  · intro src hsize hsrc
    exact mono_rotates_right_iff hw hh hsize hsrc
  · intro src hsize hsrc
    rw [← rgb565_rotates_right_iff hsize hsrc]
    exact and_iff_left (rgb565_swapTwice hsize hsrc)
  · intro src hsize hsrc
    exact rgb888_rotates_right_iff hsize hsrc

theorem tal_image_rotates_right_small :
    (mono.size 9 2 = 4 ∧ (RotatesRight mono talImageMonoRotate90 talImageMonoRotate180
        talImageMonoRotate270 9 2 [0x0f, 0x01, 0xf0, 0x00] ↔
      (9 + 7 < 2 ^ 32 ∨ 2 = 1) ∧ (2 + 7 < 2 ^ 32 ∨ 9 = 1 ∨ 2 ^ 32 ≤ mono.size 2 9))) ∧
    (RotatesRight rgb565 (talImageRgb565Rotate90 · · · · false)
        (talImageRgb565Rotate180 · · · · false) (talImageRgb565Rotate270 · · · · false) 2 1 [7, 7] ∧
      SwapTwice 2 1 [7, 7] ↔
      (rgb565.raster 2 1 [7, 7]).rotate (half _ _) = rgb565.raster 2 1 [7, 7]) ∧
    (RotatesRight rgb888 talImageRgb888Rotate90 talImageRgb888Rotate180 talImageRgb888Rotate270
        1 2 [1, 2, 3, 1, 2, 3] ↔
      (rgb888.raster 1 2 [1, 2, 3, 1, 2, 3]).rotate (half _ _) =
        rgb888.raster 1 2 [1, 2, 3, 1, 2, 3]) := by
  refine ⟨⟨rfl, ?_⟩, ?_, ?_⟩
  · exact (tal_image_rotates_right 9 2 (by decide) (by decide)).1
      [0x0f, 0x01, 0xf0, 0x00] (by decide) rfl
  · exact (tal_image_rotates_right 2 1 (by decide) (by decide)).2.1 [7, 7] (by decide) rfl
  · exact (tal_image_rotates_right 1 2 (by decide) (by decide)).2.2
      [1, 2, 3, 1, 2, 3] (by decide) rfl

/-- A row of two pixels, which a quarter turn clockwise puts one below the other in their order:
the monochrome function does, those of the other formats exchange the two. -/
theorem tal_image_not_rotates_right :
    (talImageMonoRotate90 [0b01] ⟨[0, 0], []⟩ 2 1).map Canvas.data = some [1, 0] ∧
      (talImageRgb565Rotate90 [1, 2] ⟨[0, 0], []⟩ 2 1 false).map Canvas.data = some [2, 1] ∧
      ¬ RotatesRight rgb565 (talImageRgb565Rotate90 · · · · false)
        (talImageRgb565Rotate180 · · · · false) (talImageRgb565Rotate270 · · · · false) 2 1 [1, 2] ∧
      ¬ RotatesRight rgb888 talImageRgb888Rotate90 talImageRgb888Rotate180
        talImageRgb888Rotate270 2 1 [1, 1, 1, 2, 2, 2] := by
  refine ⟨by decide, by decide, ?_, ?_⟩
  · intro hright
    have hsame := (rgb565_rotates_right_iff (by decide) rfl).mp hright
    have hpixel : (2 : UInt16) = 1 :=
      congrFun (congrFun hsame (⟨0, by decide⟩, ⟨0, by decide⟩)) ⟨0, by decide⟩
    exact absurd hpixel (by decide)
  · intro hright
    have hsame := (rgb888_rotates_right_iff (by decide) rfl).mp hright
    have hpixel : (2 : UInt8) = 1 :=
      congrFun (congrFun hsame (⟨0, by decide⟩, ⟨0, by decide⟩)) ⟨0, by decide⟩
    exact absurd hpixel (by decide)

end TuyaOpen.Image
