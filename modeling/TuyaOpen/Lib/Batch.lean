import Mathlib.Data.Nat.Notation
import Mathlib.Algebra.Order.Ring.Nat
import Mathlib.Data.List.TakeDrop

/-!
# Batches of whole records

From the front of a queue of records, as many are taken as there is room for.
-/

namespace Batch

variable {α β : Type*} {size : α → ℕ} {room : ℕ} {l : List α}

/-- The records that are taken: the first one that does not fit ends the batch. -/
def fit (size : α → ℕ) : ℕ → List α → List α
  | _, [] => []
  | room, a :: l => if size a ≤ room then a :: fit size (room - size a) l else []

def total (size : α → ℕ) (l : List α) : ℕ := (l.map size).sum

def refused (size : α → ℕ) (room : ℕ) (l : List α) : List α := l.drop (fit size room l).length

@[simp] theorem total_nil (size : α → ℕ) : total size [] = 0 := rfl

@[simp] theorem total_cons (a : α) (l : List α) : total size (a :: l) = size a + total size l := by
  simp [total]

theorem fit_cons_of_le {a : α} (h : size a ≤ room) :
    fit size room (a :: l) = a :: fit size (room - size a) l := if_pos h

theorem fit_cons_of_lt {a : α} (h : room < size a) : fit size room (a :: l) = [] :=
  if_neg (Nat.not_le.mpr h)

theorem refused_cons_of_le {a : α} (h : size a ≤ room) :
    refused size room (a :: l) = refused size (room - size a) l := by
  rw [refused, fit_cons_of_le h]
  rfl

theorem refused_cons_of_lt {a : α} (h : room < size a) : refused size room (a :: l) = a :: l := by
  rw [refused, fit_cons_of_lt h]
  rfl

theorem fit_append_refused (size : α → ℕ) (room : ℕ) (l : List α) :
    fit size room l ++ refused size room l = l := by
  induction l generalizing room with
  | nil => rfl
  | cons a l ih =>
      rcases Nat.lt_or_ge room (size a) with hlt | hle
      · rw [fit_cons_of_lt hlt, refused_cons_of_lt hlt]
        rfl
      · rw [fit_cons_of_le hle, refused_cons_of_le hle, List.cons_append, ih]

theorem total_fit_le (size : α → ℕ) (room : ℕ) (l : List α) :
    total size (fit size room l) ≤ room := by
  induction l generalizing room with
  | nil => exact Nat.zero_le room
  | cons a l ih =>
      rcases Nat.lt_or_ge room (size a) with hlt | hle
      · rw [fit_cons_of_lt hlt]
        exact Nat.zero_le room
      · have hrest := ih (room - size a)
        rw [fit_cons_of_le hle, total_cons]
        omega

/-- Records of some size can be told by their total: two ways to cut a queue into what was taken
and what is left are the same. -/
theorem append_inj_of_total {done done' rest rest' : List α} (hpos : ∀ a ∈ done ++ rest, 0 < size a)
    (heq : done ++ rest = done' ++ rest') (htotal : total size done = total size done') :
    done = done' ∧ rest = rest' := by
  induction done generalizing done' with
  | nil =>
      cases done' with
      | nil => exact ⟨rfl, heq⟩
      | cons a done' =>
          have ha := hpos a (heq ▸ List.mem_cons_self)
          rw [total_cons, total_nil] at htotal
          omega
  | cons a done ih =>
      cases done' with
      | nil =>
          have ha := hpos a List.mem_cons_self
          rw [total_cons, total_nil] at htotal
          omega
      | cons b done' =>
          obtain ⟨rfl, htail⟩ := List.cons.inj heq
          rw [total_cons, total_cons] at htotal
          obtain ⟨rfl, hrest⟩ := ih (fun x hx ↦ hpos x (List.mem_cons_of_mem a hx)) htail (by omega)
          exact ⟨rfl, hrest⟩

end Batch
