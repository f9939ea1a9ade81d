import Mathlib.Data.List.Basic
import Mathlib.Order.Defs.PartialOrder

/-!
# Deterministic machines with outputs

A component that is driven by a sequence of calls is a Mealy machine: one
step takes the current state and a call, and gives the next state and what
the call returned.  Choices of the environment (a random byte, the result of
an allocation, the bytes a socket had available) are part of the call, so a
statement over all call sequences is a statement over all environments.

A guard restricts the calls that may be made in a state.  Invariants and
simulations are proved for one guarded step and lifted here to guarded runs.
-/

/-- One step of a machine over states `σ`, calls `ι` and returned values `ο`. -/
structure Mealy (σ ι ο : Type*) where
  step : σ → ι → σ × ο

namespace Mealy

variable {σ τ ι ο : Type*} (M : Mealy σ ι ο)

def final : σ → List ι → σ
  | s, [] => s
  | s, i :: rest => final (M.step s i).1 rest

def outputs : σ → List ι → List ο
  | _, [] => []
  | s, i :: rest => (M.step s i).2 :: outputs (M.step s i).1 rest

/-- Every call of the sequence meets the guard in the state it is made in. -/
def Guarded (G : σ → ι → Prop) : σ → List ι → Prop
  | _, [] => True
  | s, i :: rest => G s i ∧ Guarded G (M.step s i).1 rest

instance decidableGuarded (G : σ → ι → Prop) [∀ s i, Decidable (G s i)] :
    (s : σ) → (xs : List ι) → Decidable (M.Guarded G s xs)
  | _, [] => isTrue trivial
  | s, i :: rest =>
      have := decidableGuarded G (M.step s i).1 rest
      inferInstanceAs (Decidable (_ ∧ _))

@[simp] theorem final_nil (s : σ) : M.final s [] = s := rfl

@[simp] theorem final_cons (s : σ) (i : ι) (rest : List ι) :
    M.final s (i :: rest) = M.final (M.step s i).1 rest := rfl

@[simp] theorem outputs_nil (s : σ) : M.outputs s [] = [] := rfl

@[simp] theorem outputs_cons (s : σ) (i : ι) (rest : List ι) :
    M.outputs s (i :: rest) = (M.step s i).2 :: M.outputs (M.step s i).1 rest := rfl

@[simp] theorem guarded_nil (G : σ → ι → Prop) (s : σ) : M.Guarded G s [] := trivial

@[simp] theorem guarded_cons (G : σ → ι → Prop) (s : σ) (i : ι) (rest : List ι) :
    M.Guarded G s (i :: rest) ↔ G s i ∧ M.Guarded G (M.step s i).1 rest := Iff.rfl

theorem final_append (s : σ) (xs ys : List ι) :
    M.final s (xs ++ ys) = M.final (M.final s xs) ys := by
  induction xs generalizing s with
  | nil => rfl
  | cons i xs ih => simpa using ih (M.step s i).1

theorem outputs_append (s : σ) (xs ys : List ι) :
    M.outputs s (xs ++ ys) = M.outputs s xs ++ M.outputs (M.final s xs) ys := by
  induction xs generalizing s with
  | nil => rfl
  | cons i xs ih => simpa using ih (M.step s i).1

/-- What the call at a position returns. -/
theorem outputs_getElem? (s : σ) (xs : List ι) (k : ℕ) :
    (M.outputs s xs)[k]? = xs[k]?.map fun i ↦ (M.step (M.final s (xs.take k)) i).2 := by
  induction xs generalizing s k with
  | nil => simp
  | cons i xs ih =>
      cases k with
      | zero => simp
      | succ k => simpa using ih (M.step s i).1 k

theorem final_take_succ (s : σ) {xs : List ι} {k : ℕ} {i : ι} (h : xs[k]? = some i) :
    M.final s (xs.take (k + 1)) = (M.step (M.final s (xs.take k)) i).1 := by
  rw [List.take_add_one, h, final_append]
  rfl

theorem guarded_append (G : σ → ι → Prop) (s : σ) (xs ys : List ι) :
    M.Guarded G s (xs ++ ys) ↔ M.Guarded G s xs ∧ M.Guarded G (M.final s xs) ys := by
  induction xs generalizing s with
  | nil => simp
  | cons i xs ih => simp [ih, and_assoc]

theorem Guarded.take {M : Mealy σ ι ο} {G : σ → ι → Prop} {s : σ} {xs : List ι}
    (h : M.Guarded G s xs) (k : ℕ) : M.Guarded G s (xs.take k) := by
  rw [← List.take_append_drop k xs, guarded_append] at h
  exact h.1

/-- A step of a guarded run, with the run before it. -/
theorem Guarded.step_at {M : Mealy σ ι ο} {G : σ → ι → Prop} {s : σ} {xs : List ι}
    (h : M.Guarded G s xs) {k : ℕ} {i : ι} (hi : xs[k]? = some i) :
    M.Guarded G s (xs.take k) ∧ G (M.final s (xs.take k)) i := by
  obtain ⟨hk, rfl⟩ := List.getElem?_eq_some_iff.mp hi
  rw [← List.take_append_drop k xs, List.drop_eq_getElem_cons hk, guarded_append, guarded_cons] at h
  exact ⟨h.1, h.2.1⟩

/-- A run is guarded when each of its steps meets the guard where it is made. -/
theorem guarded_iff (G : σ → ι → Prop) (s : σ) (xs : List ι) :
    M.Guarded G s xs ↔ ∀ k i, xs[k]? = some i → G (M.final s (xs.take k)) i := by
  refine ⟨fun h k i hi ↦ (h.step_at hi).2, fun h ↦ ?_⟩
  induction xs generalizing s with
  | nil => trivial
  | cons i xs ih =>
      refine ⟨h 0 i rfl, ih _ fun k j hj ↦ ?_⟩
      exact h (k + 1) j hj

theorem Guarded.imp {M : Mealy σ ι ο} {G H : σ → ι → Prop} (himp : ∀ s i, G s i → H s i) {s : σ}
    {xs : List ι} (h : M.Guarded G s xs) : M.Guarded H s xs := by
  rw [guarded_iff] at h ⊢
  exact fun k i hi ↦ himp _ i (h k i hi)

theorem guarded_true (s : σ) (xs : List ι) : M.Guarded (fun _ _ ↦ True) s xs := by
  induction xs generalizing s with
  | nil => trivial
  | cons i xs ih => exact ⟨trivial, ih _⟩

/-- What every guarded step preserves holds at the end of every guarded run. -/
theorem inv_final {G : σ → ι → Prop} {I : σ → Prop}
    (hstep : ∀ s i, I s → G s i → I (M.step s i).1) {s : σ} (hs : I s)
    {xs : List ι} (hxs : M.Guarded G s xs) : I (M.final s xs) := by
  induction xs generalizing s with
  | nil => exact hs
  | cons i xs ih => exact ih (hstep s i hs hxs.1) hxs.2

/-- Values of a measure that no guarded step lowers are returned in order. -/
theorem outputs_pairwise_le {ν : Type*} [Preorder ν] {G : σ → ι → Prop} {I : σ → Prop} {f : σ → ν}
    {value : ο → Option ν} (hstep : ∀ s i, I s → G s i → I (M.step s i).1)
    (hle : ∀ s i, I s → G s i → f s ≤ f (M.step s i).1)
    (hvalue : ∀ s i v, I s → G s i → value (M.step s i).2 = some v → v = f (M.step s i).1)
    {s : σ} (hs : I s) {xs : List ι} (hxs : M.Guarded G s xs) :
    ((M.outputs s xs).filterMap value).Pairwise (· ≤ ·) := by
  suffices h : (∀ v ∈ (M.outputs s xs).filterMap value, f s ≤ v) ∧
      ((M.outputs s xs).filterMap value).Pairwise (· ≤ ·) from h.2
  induction xs generalizing s with
  | nil => exact ⟨fun v hv ↦ (List.not_mem_nil hv).elim, List.Pairwise.nil⟩
  | cons i xs ih =>
      obtain ⟨hlow, hsorted⟩ := ih (hstep s i hs hxs.1) hxs.2
      have hlow' : ∀ v ∈ (M.outputs (M.step s i).1 xs).filterMap value, f s ≤ v :=
        fun v hv ↦ le_trans (hle s i hs hxs.1) (hlow v hv)
      rw [outputs_cons]
      cases hout : value (M.step s i).2 with
      | none =>
          rw [List.filterMap_cons_none hout]
          exact ⟨hlow', hsorted⟩
      | some v =>
          have hv : v = f (M.step s i).1 := hvalue s i v hs hxs.1 hout
          rw [List.filterMap_cons_some hout, hv]
          refine ⟨?_, List.pairwise_cons.mpr ⟨hlow, hsorted⟩⟩
          intro w hw
          rcases List.mem_cons.mp hw with rfl | hw
          · exact hle s i hs hxs.1
          · exact hlow' w hw

/-- Two guards that agree, in every state of an invariant and on every call that `E` admits, agree
on runs: the invariant is kept as long as one of them is met. -/
theorem guarded_congr {E G H : σ → ι → Prop} {I : σ → Prop}
    (hiff : ∀ s i, I s → E s i → (G s i ↔ H s i))
    (hstep : ∀ s i, I s → E s i → H s i → I (M.step s i).1) {s : σ} (hs : I s) {xs : List ι}
    (hxs : M.Guarded E s xs) : M.Guarded G s xs ↔ M.Guarded H s xs := by
  induction xs generalizing s with
  | nil => exact Iff.rfl
  | cons i xs ih =>
      rw [guarded_cons, guarded_cons, hiff s i hs hxs.1]
      exact and_congr_right fun hH ↦ ih (hstep s i hs hxs.1 hH) hxs.2

/-- The same for machines whose calls and outputs are different, where the outputs
of corresponding calls are related. -/
theorem sim_outputs {κ π : Type*} (N : Mealy τ κ π) (f : ι → κ) {G : σ → ι → Prop}
    {R : σ → τ → Prop} {S : ο → π → Prop}
    (hstep : ∀ s t i, R s t → G s i →
      R (M.step s i).1 (N.step t (f i)).1 ∧ S (M.step s i).2 (N.step t (f i)).2)
    {s : σ} {t : τ} (hst : R s t) {xs : List ι} (hxs : M.Guarded G s xs) :
    R (M.final s xs) (N.final t (xs.map f)) ∧
      List.Forall₂ S (M.outputs s xs) (N.outputs t (xs.map f)) := by
  induction xs generalizing s t with
  | nil => exact ⟨hst, List.Forall₂.nil⟩
  | cons i xs ih =>
      obtain ⟨hR, hout⟩ := hstep s t i hst hxs.1
      obtain ⟨hfinal, houts⟩ := ih hR hxs.2
      exact ⟨hfinal, List.Forall₂.cons hout houts⟩

section Observed

variable {ρ : Type*}

/-- The machine together with a record that is kept of its steps. -/
def observed (note : ρ → σ → ι → σ → ο → ρ) : Mealy (σ × ρ) ι ο where
  step s i :=
    (((M.step s.1 i).1, note s.2 s.1 i (M.step s.1 i).1 (M.step s.1 i).2), (M.step s.1 i).2)

variable (note : ρ → σ → ι → σ → ο → ρ)

/-- Keeping a record does not change what the machine does. -/
theorem observed_final_fst (s : σ × ρ) (xs : List ι) :
    ((M.observed note).final s xs).1 = M.final s.1 xs := by
  induction xs generalizing s with
  | nil => rfl
  | cons i xs ih => exact ih _

end Observed

end Mealy
