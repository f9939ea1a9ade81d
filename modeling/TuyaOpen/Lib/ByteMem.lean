import Mathlib.Data.Nat.Notation
import Mathlib.Algebra.Order.Ring.Nat

/-!
# Byte memory with little-endian words

A memory maps every address to a byte.  Words of `w` bytes are loaded and
stored with the least significant byte first, and machine arithmetic on them
wraps modulo `256 ^ w`.
-/

namespace ByteMem

abbrev Mem := ℕ → UInt8

def load (m : Mem) : ℕ → ℕ → ℕ
  | 0, _ => 0
  | w + 1, a => (m a).toNat + 256 * load m w (a + 1)

def store (m : Mem) (w a v : ℕ) : Mem := fun x ↦
  if a ≤ x ∧ x < a + w then UInt8.ofNat (v / 256 ^ (x - a)) else m x

def setByte (m : Mem) (a : ℕ) (b : UInt8) : Mem := fun x ↦ if x = a then b else m x

/-- Memory after `n` bytes from `src` on were copied to `dst`. -/
def copy (m : Mem) (dst src n : ℕ) : Mem := fun x ↦
  if dst ≤ x ∧ x < dst + n then m (src + (x - dst)) else m x

/-- The `n` bytes from `a` on. -/
def slice (m : Mem) : ℕ → ℕ → List UInt8
  | _, 0 => []
  | a, n + 1 => m a :: slice m (a + 1) n

def wadd (w a b : ℕ) : ℕ := (a + b) % 256 ^ w

def wsub (w a b : ℕ) : ℕ := (a + (256 ^ w - b)) % 256 ^ w

variable {m m' : Mem} {w a v : ℕ}

theorem wadd_of_lt {b : ℕ} (h : a + b < 256 ^ w) : wadd w a b = a + b := Nat.mod_eq_of_lt h

theorem wsub_of_le {b : ℕ} (h : b ≤ a) (ha : a < 256 ^ w) : wsub w a b = a - b := by
  rw [wsub, show a + (256 ^ w - b) = a - b + 256 ^ w by omega, Nat.add_mod_right]
  exact Nat.mod_eq_of_lt (by omega)

theorem load_congr (h : ∀ x, a ≤ x → x < a + w → m' x = m x) : load m' w a = load m w a := by
  induction w generalizing a with
  | zero => rfl
  | succ w ih =>
      rw [load, load, h a le_rfl (by omega), ih fun x hx hlt ↦ h x (by omega) (by omega)]

theorem load_eq_div (h : ∀ x, a ≤ x → x < a + w → m x = UInt8.ofNat (v / 256 ^ (x - a))) :
    load m w a = v % 256 ^ w := by
  induction w generalizing a v with
  | zero => simp [load, Nat.mod_one]
  | succ w ih =>
      have hhead : (m a).toNat = v % 256 := by
        rw [h a le_rfl (by omega)]
        simp
      have htail : load m w (a + 1) = v / 256 % 256 ^ w := by
        refine ih fun x hx hlt ↦ ?_
        rw [h x (by omega) (by omega), show x - a = x - (a + 1) + 1 by omega, pow_succ',
          Nat.div_div_eq_div_mul]
      rw [load, hhead, htail, pow_succ', Nat.mod_mul]

@[simp] theorem load_store_self (hv : v < 256 ^ w) : load (store m w a v) w a = v := by
  rw [load_eq_div fun x hx hlt ↦ by rw [store, if_pos ⟨hx, hlt⟩], Nat.mod_eq_of_lt hv]

theorem store_of_disjoint {x : ℕ} (h : x < a ∨ a + w ≤ x) : store m w a v x = m x := by
  rw [store, if_neg (by omega)]

theorem load_store_of_disjoint {b : ℕ} (h : b + w ≤ a ∨ a + w ≤ b) :
    load (store m w a v) w b = load m w b :=
  load_congr fun _ _ _ ↦ store_of_disjoint (by omega)

@[simp] theorem setByte_self (m : Mem) (a : ℕ) (b : UInt8) : setByte m a b a = b := if_pos rfl

theorem setByte_of_ne {b : UInt8} {x : ℕ} (h : x ≠ a) : setByte m a b x = m x := if_neg h

theorem load_setByte_of_disjoint {b : UInt8} {x : ℕ} (h : x < a ∨ a + w ≤ x) :
    load (setByte m x b) w a = load m w a :=
  load_congr fun _ _ _ ↦ setByte_of_ne (by omega)

theorem copy_of_disjoint {dst src n x : ℕ} (h : x < dst ∨ dst + n ≤ x) :
    copy m dst src n x = m x := if_neg (by omega)

theorem copy_apply {dst src n k : ℕ} (h : k < n) : copy m dst src n (dst + k) = m (src + k) := by
  rw [copy, if_pos (by omega), Nat.add_sub_cancel_left]

@[simp] theorem length_slice (m : Mem) (a n : ℕ) : (slice m a n).length = n := by
  induction n generalizing a with
  | zero => rfl
  | succ n ih => rw [slice, List.length_cons, ih]

theorem slice_add (m : Mem) (a j k : ℕ) : slice m a (j + k) = slice m a j ++ slice m (a + j) k := by
  induction j generalizing a with
  | zero => rw [Nat.zero_add, slice, List.nil_append, Nat.add_zero]
  | succ j ih =>
      rw [Nat.succ_add, slice, slice, ih, List.cons_append, Nat.succ_add, ← Nat.add_succ]

theorem slice_of_append {xs ys : List UInt8} (h : slice m a (xs.length + ys.length) = xs ++ ys) :
    slice m a xs.length = xs ∧ slice m (a + xs.length) ys.length = ys := by
  rw [slice_add] at h
  exact List.append_inj h (length_slice m a _)

theorem slice_shift (m : Mem) (c a n : ℕ) : slice (fun x ↦ m (c + x)) a n = slice m (c + a) n := by
  induction n generalizing a with
  | zero => rfl
  | succ n ih => rw [slice, slice, ih, Nat.add_assoc]

/-- Memory after `bs` was written to `a`. -/
def fill (m : Mem) (a : ℕ) (bs : List UInt8) : Mem := fun x ↦
  if a ≤ x ∧ x < a + bs.length then bs.getD (x - a) 0 else m x

theorem fill_apply (m : Mem) (a : ℕ) {bs : List UInt8} {k : ℕ} (h : k < bs.length) :
    fill m a bs (a + k) = bs[k] := by
  rw [fill, if_pos (by omega), Nat.add_sub_cancel_left, List.getD_eq_getElem?_getD,
    List.getElem?_eq_getElem h, Option.getD_some]

theorem slice_fill (m : Mem) (a : ℕ) {bs : List UInt8} {k n : ℕ} (h : k + n ≤ bs.length) :
    slice (fill m a bs) (a + k) n = (bs.drop k).take n := by
  induction n generalizing k with
  | zero => rw [slice, List.take_zero]
  | succ n ih =>
      have hk : k < bs.length := by omega
      have hrest : k + 1 + n ≤ bs.length := by omega
      have htail := ih hrest
      rw [slice, fill_apply m a hk, Nat.add_assoc, htail, List.drop_eq_getElem_cons hk,
        List.take_succ_cons]

/-- A memory that holds `bs` at its start. -/
def ofList (bs : List UInt8) : Mem := fun x ↦ bs.getD x 0

end ByteMem
