import Mathlib.Data.Fin.Rev
import Mathlib.Logic.Equiv.Prod

/-!
# Pictures and their rotations

A picture is a function on its pixels, column first, row second, counted from
the upper left corner.  A rotation is a bijection of the pixels of one
rectangle to those of another, and it acts on pictures by transport.
-/

/-- A picture of `w` columns and `h` rows. -/
abbrev Raster (w h : ℕ) (π : Type*) := Fin w × Fin h → π

namespace Raster

variable {π : Type*} {w h w' h' w'' h'' : ℕ}

/-- Every pixel moved to where `e` says. -/
def rotate (e : Fin w × Fin h ≃ Fin w' × Fin h') (I : Raster w h π) : Raster w' h' π :=
  fun p ↦ I (e.symm p)

/-- A quarter turn clockwise: the upper left corner goes to the upper right. -/
def quarter (w h : ℕ) : Fin w × Fin h ≃ Fin h × Fin w where
  toFun p := (p.2.rev, p.1)
  invFun p := (p.2, p.1.rev)
  left_inv p := by simp
  right_inv p := by simp

def half (w h : ℕ) : Fin w × Fin h ≃ Fin w × Fin h where
  toFun p := (p.1.rev, p.2.rev)
  invFun p := (p.1.rev, p.2.rev)
  left_inv p := by simp
  right_inv p := by simp

/-- Three quarters of a turn clockwise, which is a quarter turn back. -/
def threeQuarters (w h : ℕ) : Fin w × Fin h ≃ Fin h × Fin w :=
  (quarter h w).symm

@[simp] theorem quarter_apply (p : Fin w × Fin h) : quarter w h p = (p.2.rev, p.1) := rfl

@[simp] theorem half_apply (p : Fin w × Fin h) : half w h p = (p.1.rev, p.2.rev) := rfl

@[simp] theorem threeQuarters_apply (p : Fin w × Fin h) :
    threeQuarters w h p = (p.2, p.1.rev) := rfl

@[simp] theorem rotate_apply (e : Fin w × Fin h ≃ Fin w' × Fin h') (I : Raster w h π)
    (p : Fin w × Fin h) : I.rotate e (e p) = I p := by
  rw [rotate, Equiv.symm_apply_apply]

/-- A picture is known by where its pixels come from. -/
theorem eq_rotate_iff {e : Fin w × Fin h ≃ Fin w' × Fin h'} {I : Raster w h π}
    {J : Raster w' h' π} : J = I.rotate e ↔ ∀ p, J (e p) = I p := by
  constructor
  · rintro rfl p
    exact rotate_apply e I p
  · intro hp
    funext q
    obtain ⟨p, rfl⟩ := e.surjective q
    rw [rotate_apply]
    exact hp p

theorem rotate_rotate (e : Fin w × Fin h ≃ Fin w' × Fin h')
    (f : Fin w' × Fin h' ≃ Fin w'' × Fin h'') (I : Raster w h π) :
    (I.rotate e).rotate f = I.rotate (e.trans f) := rfl

theorem rotate_quarter_quarter (I : Raster w h π) :
    (I.rotate (quarter w h)).rotate (quarter h w) = I.rotate (half w h) := rfl

theorem rotate_threeQuarters_threeQuarters (I : Raster w h π) :
    (I.rotate (threeQuarters w h)).rotate (threeQuarters h w) = I.rotate (half w h) := rfl

theorem rotate_quarter_half (I : Raster w h π) :
    (I.rotate (quarter w h)).rotate (half h w) = I.rotate (threeQuarters w h) := by
  funext p
  simp [rotate, half, quarter, threeQuarters]

theorem rotate_quarter_threeQuarters (I : Raster w h π) :
    (I.rotate (quarter w h)).rotate (threeQuarters h w) = I := by
  rw [rotate_rotate]
  funext p
  simp [rotate, threeQuarters]

theorem rotate_threeQuarters_quarter (I : Raster w h π) :
    (I.rotate (threeQuarters w h)).rotate (quarter h w) = I := by
  rw [rotate_rotate]
  funext p
  simp [rotate, threeQuarters]

/-- The two quarter turns give the same picture only when half a turn does not
change it. -/
theorem rotate_threeQuarters_eq_quarter_iff (I : Raster w h π) :
    I.rotate (threeQuarters w h) = I.rotate (quarter w h) ↔ I.rotate (half w h) = I := by
  constructor
  · intro hI
    rw [← rotate_quarter_quarter, ← hI]
    exact rotate_threeQuarters_quarter I
  · intro hI
    rw [← rotate_quarter_half, ← rotate_quarter_quarter, rotate_rotate, rotate_rotate]
    calc
      _ = (I.rotate (half w h)).rotate (quarter w h) := rfl
      _ = _ := by rw [hI]

end Raster
