import Mathlib.Data.Finset.Card
import Mathlib.Logic.Function.Iterate

/-!
# Loops of a step function

The loop that applies a step while a test holds.  Where the test confines the
states to finitely many, a loop that ends has not come to any of them twice.
-/

namespace Orbit

variable {α : Type*} {p : α → Prop} {f : α → α} {s : α} {n : ℕ}

/-- The loop over `f` while `p` makes `n` iterations from `s` on. -/
def Leaves (p : α → Prop) (f : α → α) (n : ℕ) (s : α) : Prop :=
  (∀ i < n, p (f^[i] s)) ∧ ¬ p (f^[n] s)

theorem leaves_zero : Leaves p f 0 s ↔ ¬ p s :=
  ⟨fun h ↦ h.2, fun h ↦ ⟨fun _ hi ↦ absurd hi (Nat.not_lt_zero _), h⟩⟩

theorem leaves_succ : Leaves p f (n + 1) s ↔ p s ∧ Leaves p f n (f s) := by
  constructor
  · rintro ⟨hbefore, hend⟩
    exact ⟨hbefore 0 (Nat.succ_pos n), fun i hi ↦ hbefore (i + 1) (Nat.succ_lt_succ hi), hend⟩
  · rintro ⟨hs, hbefore, hend⟩
    refine ⟨fun i hi ↦ ?_, hend⟩
    cases i with
    | zero => exact hs
    | succ i => exact hbefore i (Nat.lt_of_succ_lt_succ hi)

/-- Two equal states would repeat what is between them, and the end never came. -/
theorem Leaves.ne_of_lt (h : Leaves p f n s) {i j : ℕ} (hij : i < j) (hj : j < n) :
    f^[i] s ≠ f^[j] s := by
  intro heq
  have hlate : f^[n - j + i] s = f^[n] s := by
    rw [Function.iterate_add_apply, heq, ← Function.iterate_add_apply,
      Nat.sub_add_cancel (Nat.le_of_lt hj)]
  apply h.2
  rw [← hlate]
  apply h.1
  omega

theorem Leaves.injOn (h : Leaves p f n s) : Set.InjOn (fun i ↦ f^[i] s) (Finset.range n) := by
  intro i hi j hj heq
  have hi := Finset.mem_range.mp hi
  have hj := Finset.mem_range.mp hj
  rcases Nat.lt_trichotomy i j with hlt | rfl | hlt
  · exact (h.ne_of_lt hlt hj heq).elim
  · rfl
  · exact (h.ne_of_lt hlt hi heq.symm).elim

/-- A loop that ends makes no more iterations than there are states for it. -/
theorem Leaves.le_card (h : Leaves p f n s) {t : Finset α} (ht : ∀ s, p s → s ∈ t) :
    n ≤ t.card := by
  have hmaps : Set.MapsTo (fun i ↦ f^[i] s) (Finset.range n) t := by
    intro i hi
    exact ht _ (h.1 i (Finset.mem_range.mp hi))
  calc
    n = (Finset.range n).card := (Finset.card_range n).symm
    _ ≤ t.card := Finset.card_le_card_of_injOn _ hmaps h.injOn

end Orbit
