import Mathlib.Data.List.ProdSigma
import Mathlib.Data.List.Nodup
import Mathlib.Logic.Function.Iterate

/-!
# Loops of stores

A loop that stores one value per pass is described by the place and the value
of each pass.  `Cells` is what such a loop needs of the memory: places that
are read and written one by one.  A `Canvas` keeps, beside the memory, the
places that were stored to.
-/

namespace List

variable {ι κ σ : Type*}

theorem foldlM_product (f : σ → ι → κ → Option σ) (xs : List ι) (ys : List κ) (s : σ) :
    xs.foldlM (fun s x ↦ ys.foldlM (fun s y ↦ f s x y) s) s =
      (xs ×ˢ ys).foldlM (fun s p ↦ f s p.1 p.2) s := by
  induction xs generalizing s with
  | nil => rfl
  | cons x xs ih =>
      rw [foldlM_cons, product_cons, foldlM_append, foldlM_map]
      simp only [ih]

/-- A loop that carries a second variable along, increased in each pass. -/
theorem foldlM_range_add {α : Type*} (f : σ → ℕ → α → Option σ) (next : α → α) (n : ℕ) (s : σ)
    (a : α) :
    (range n).foldlM (fun (p : σ × α) i ↦ (f p.1 i p.2).map fun s ↦ (s, next p.2)) (s, a) =
      ((range n).foldlM (fun s i ↦ f s i (next^[i] a)) s).map fun s ↦ (s, next^[n] a) := by
  induction n with
  | zero => rfl
  | succ n ih =>
      rw [range_succ, foldlM_append, foldlM_append, ih]
      cases (range n).foldlM (fun s i ↦ f s i (next^[i] a)) s with
      | none => rfl
      | some t => simp [Function.iterate_succ_apply']

end List

/-- A memory `μ` of places `κ` that hold values `υ`. -/
structure Cells (μ κ υ : Type*) where
  Inside : μ → κ → Prop
  read : μ → κ → υ
  write : μ → κ → υ → μ
  inside_write (m : μ) (k : κ) (v : υ) (j : κ) : Inside (write m k v) j ↔ Inside m j
  read_write_self (m : μ) (k : κ) (v : υ) : Inside m k → read (write m k v) k = v
  read_write_of_ne (m : μ) (k : κ) (v : υ) (j : κ) :
    Inside m k → j ≠ k → read (write m k v) j = read m j

/-- A memory with the places stored to so far, the latest first. -/
structure Canvas (μ κ : Type*) where
  data : μ
  stores : List κ
deriving DecidableEq

namespace Cells

variable {μ κ υ ι : Type*} (C : Cells μ κ υ) (pos : ι → κ) (val : ι → υ)

/-- The memory after one store for each pass. -/
def writeAll (m : μ) (l : List ι) : μ :=
  l.foldl (fun m i ↦ C.write m (pos i) (val i)) m

@[simp] theorem writeAll_nil (m : μ) : C.writeAll pos val m [] = m := rfl

@[simp] theorem writeAll_cons (m : μ) (i : ι) (l : List ι) :
    C.writeAll pos val m (i :: l) = C.writeAll pos val (C.write m (pos i) (val i)) l := rfl

/-- What every store keeps. -/
theorem writeAll_keeps {γ : Type*} (f : μ → γ) (hf : ∀ m k v, f (C.write m k v) = f m) (m : μ)
    (l : List ι) : f (C.writeAll pos val m l) = f m := by
  induction l generalizing m with
  | nil => rfl
  | cons i l ih => rw [writeAll_cons, ih, hf]

theorem read_writeAll_of_notMem {l : List ι} {m : μ} (hin : ∀ i ∈ l, C.Inside m (pos i)) {k : κ}
    (hk : k ∉ l.map pos) : C.read (C.writeAll pos val m l) k = C.read m k := by
  induction l generalizing m with
  | nil => rfl
  | cons i l ih =>
      rw [List.map_cons, List.mem_cons, not_or] at hk
      have hi := hin i List.mem_cons_self
      rw [writeAll_cons, ih _ hk.2]
      · exact C.read_write_of_ne m (pos i) (val i) k hi hk.1
      · intro j hj
        exact (C.inside_write m (pos i) (val i) (pos j)).mpr (hin j (List.mem_cons_of_mem i hj))

/-- Where no place is stored to twice, each place holds what its pass stored. -/
theorem read_writeAll {l : List ι} {m : μ} (hin : ∀ i ∈ l, C.Inside m (pos i))
    (hnodup : (l.map pos).Nodup) {i : ι} (hi : i ∈ l) :
    C.read (C.writeAll pos val m l) (pos i) = val i := by
  induction l generalizing m with
  | nil => cases hi
  | cons j l ih =>
      rw [List.map_cons, List.nodup_cons] at hnodup
      have hj := hin j List.mem_cons_self
      have hin' : ∀ i ∈ l, C.Inside (C.write m (pos j) (val j)) (pos i) := by
        intro i hi
        exact (C.inside_write m (pos j) (val j) (pos i)).mpr (hin i (List.mem_cons_of_mem j hi))
      rw [writeAll_cons]
      rcases List.mem_cons.mp hi with rfl | hi
      · rw [read_writeAll_of_notMem C pos val hin' hnodup.1]
        exact C.read_write_self m (pos i) (val i) hj
      · exact ih hin' hnodup.2 hi

/-- A loop of stores inside the memory runs through. -/
theorem foldlM_eq_writeAll {step : Canvas μ κ → ι → Option (Canvas μ κ)} {l : List ι}
    {c : Canvas μ κ} (hin : ∀ i ∈ l, C.Inside c.data (pos i))
    (hstep : ∀ c : Canvas μ κ, ∀ i ∈ l, C.Inside c.data (pos i) →
      step c i = some ⟨C.write c.data (pos i) (val i), pos i :: c.stores⟩) :
    l.foldlM step c = some ⟨C.writeAll pos val c.data l, (l.map pos).reverse ++ c.stores⟩ := by
  induction l generalizing c with
  | nil => rfl
  | cons i l ih =>
      rw [List.foldlM_cons, hstep c i List.mem_cons_self (hin i List.mem_cons_self),
        Option.bind_eq_bind, Option.bind_some, ih]
      · simp
      · intro j hj
        exact (C.inside_write c.data (pos i) (val i) (pos j)).mpr
          (hin j (List.mem_cons_of_mem i hj))
      · intro c j hj
        exact hstep c j (List.mem_cons_of_mem i hj)

end Cells

/-- Whatever a loop stored, it stored where its passes say. -/
theorem Canvas.stores_foldlM {μ κ ι : Type*} {step : Canvas μ κ → ι → Option (Canvas μ κ)}
    {pos : ι → κ} {l : List ι} {c c' : Canvas μ κ}
    (hstep : ∀ c c' : Canvas μ κ, ∀ i ∈ l, step c i = some c' → c'.stores = pos i :: c.stores)
    (h : l.foldlM step c = some c') : c'.stores = (l.map pos).reverse ++ c.stores := by
  induction l generalizing c with
  | nil =>
      cases h
      rfl
  | cons i l ih =>
      rw [List.foldlM_cons] at h
      obtain ⟨d, hd, h⟩ := Option.bind_eq_some_iff.mp h
      rw [ih (fun c c' j hj ↦ hstep c c' j (List.mem_cons_of_mem i hj)) h,
        hstep c d i List.mem_cons_self hd]
      simp
