import Mathlib.Data.List.Basic
import Mathlib.Algebra.Group.Nat.Defs
import Mathlib.Tactic.Ring

/-!
# Little-endian base-128 numbers of bounded length

Each byte carries seven bits of the number, least significant first, and its
top bit says that another byte follows.  The number of bytes is bounded, and
the last byte of the bound is taken whatever its top bit says.
-/

namespace Leb128

def encode : ℕ → ℕ → List UInt8
  | 0, _ => []
  | k + 1, n =>
    if n < 128 then [UInt8.ofNat n]
    else UInt8.ofNat (n % 128 + 128) :: encode k (n / 128)

/-- Read at most `k` digits and return the number with the bytes after it. -/
@[grind =] def decode : ℕ → List UInt8 → Option (ℕ × List UInt8)
  | 0, bs => some (0, bs)
  | _ + 1, [] => none
  | k + 1, b :: bs =>
    if b.toNat < 128 then some (b.toNat, bs)
    else (decode k bs).map fun r ↦ (b.toNat - 128 + 128 * r.1, r.2)

/-- A number that needs more bytes loses its high digits. -/
theorem decode_encode_mod (k n : ℕ) (rest : List UInt8) :
    decode k (encode k n ++ rest) = some (n % 128 ^ k, rest) := by
  induction k generalizing n with
  | zero => simp [encode, decode, Nat.mod_one]
  | succ k ih =>
      by_cases hn : n < 128
      · have hval : (UInt8.ofNat n).toNat = n := by
          rw [UInt8.toNat_ofNat']
          omega
        have hpow : n < 128 ^ (k + 1) :=
          hn.trans_le (Nat.le_self_pow (Nat.succ_ne_zero k) 128)
        rw [encode, if_pos hn]
        simp [decode, hval, hn, Nat.mod_eq_of_lt hpow]
      · have hval : (UInt8.ofNat (n % 128 + 128)).toNat = n % 128 + 128 := by
          rw [UInt8.toNat_ofNat']
          omega
        rw [encode, if_neg hn, List.cons_append, decode, hval, if_neg (by omega), ih, pow_succ',
          Nat.mod_mul]
        simp only [Option.map_some, Option.some.injEq, Prod.mk.injEq, and_true]
        omega

theorem decode_encode {k n : ℕ} (h : n < 128 ^ (k + 1)) (rest : List UInt8) :
    decode (k + 1) (encode (k + 1) n ++ rest) = some (n, rest) := by
  rw [decode_encode_mod, Nat.mod_eq_of_lt h]

theorem decode_lt {k : ℕ} {bs : List UInt8} {r : ℕ × List UInt8} (h : decode k bs = some r) :
    r.1 < 128 ^ k := by
  induction k generalizing bs r with
  | zero =>
      cases h
      simp
  | succ k ih =>
      cases bs with
      | nil => simp [decode] at h
      | cons b bs =>
          rw [decode] at h
          split_ifs at h with hb
          · cases h
            calc b.toNat < 128 ^ 1 := by simpa using hb
              _ ≤ 128 ^ (k + 1) := Nat.pow_le_pow_right (by omega) (by omega)
          · obtain ⟨r', hr', rfl⟩ := Option.map_eq_some_iff.mp h
            have hlt := ih hr'
            have hb' := b.toNat_lt
            rw [pow_succ]
            simp only
            omega

theorem decode_drop {k : ℕ} {bs : List UInt8} {r : ℕ × List UInt8}
    (h : decode (k + 1) bs = some r) :
    r.2.length < bs.length ∧ bs.drop (bs.length - r.2.length) = r.2 := by
  induction k generalizing bs r with
  | zero =>
      cases bs with
      | nil => simp [decode] at h
      | cons b bs =>
          have hr : r.2 = bs := by
            rw [decode] at h
            split_ifs at h with hb
            · cases h
              rfl
            · simp only [decode, Option.map_some, Option.some.injEq] at h
              rw [← h]
          rw [hr]
          have hone : (b :: bs).length - bs.length = 1 := by simp
          exact ⟨by simp, by rw [hone, List.drop_one, List.tail_cons]⟩
  | succ k ih =>
      cases bs with
      | nil => simp [decode] at h
      | cons b bs =>
          rw [decode] at h
          split_ifs at h with hb
          · cases h
            have hone : (b :: bs).length - bs.length = 1 := by simp
            exact ⟨by simp, by simp only; rw [hone, List.drop_one, List.tail_cons]⟩
          · obtain ⟨r', hr', rfl⟩ := Option.map_eq_some_iff.mp h
            obtain ⟨hlt, hdrop⟩ := ih hr'
            have hsub : (b :: bs).length - r'.2.length = bs.length - r'.2.length + 1 := by
              simp only [List.length_cons]
              omega
            refine ⟨by simp only [List.length_cons]; omega, ?_⟩
            rw [hsub, List.drop_succ_cons]
            exact hdrop

theorem length_encode_le (k n : ℕ) : (encode k n).length ≤ k := by
  induction k generalizing n with
  | zero => simp [encode]
  | succ k ih =>
      rw [encode]
      split_ifs
      · simp
      · simpa using ih (n / 128)

theorem length_encode_le_of_lt (k : ℕ) {n j : ℕ} (h : n < 128 ^ (j + 1)) :
    (encode k n).length ≤ j + 1 := by
  induction k generalizing n j with
  | zero => simp [encode]
  | succ k ih =>
      rw [encode]
      split_ifs with hn
      · simp
      · cases j with
        | zero =>
            rw [zero_add, pow_one] at h
            exact absurd h hn
        | succ j =>
            have hdiv : n / 128 < 128 ^ (j + 1) := by
              rw [Nat.div_lt_iff_lt_mul (by omega), ← pow_succ]
              exact h
            simpa using ih hdiv

theorem lt_length_encode {k n j : ℕ} (h : 128 ^ j ≤ n) (hj : j < k) :
    j < (encode k n).length := by
  induction k generalizing n j with
  | zero => exact absurd hj (Nat.not_lt_zero j)
  | succ k ih =>
      rw [encode]
      cases j with
      | zero => split_ifs <;> simp
      | succ j =>
          have hn : ¬ n < 128 := by
            have hone := Nat.one_le_pow j 128 (by omega)
            rw [pow_succ] at h
            omega
          have hdiv : 128 ^ j ≤ n / 128 := by
            rw [Nat.le_div_iff_mul_le (by omega), ← pow_succ]
            exact h
          rw [if_neg hn, List.length_cons]
          have := ih hdiv (by omega)
          omega

end Leb128
