import Mathlib.Data.List.Basic
import Mathlib.Tactic.Ring

/-!
# Words in byte strings

Big-endian words of a fixed number of bytes, and reading one at an offset.
-/

namespace Bytes

/-- A `char`, which has a sign or not. -/
def charValue (charSigned : Bool) (v : UInt8) : ℤ :=
  if charSigned ∧ 128 ≤ v then (v.toNat : ℤ) - 256 else v.toNat

def encodeBE : ℕ → ℕ → List UInt8
  | 0, _ => []
  | k + 1, n => UInt8.ofNat (n >>> (8 * k)) :: encodeBE k n

def decodeBE (bs : List UInt8) : ℕ := bs.foldl (fun acc b ↦ acc <<< 8 + b.toNat) 0

def getBE (bs : List UInt8) (off k : ℕ) : ℕ := decodeBE ((bs.drop off).take k)

@[simp] theorem length_encodeBE (k n : ℕ) : (encodeBE k n).length = k := by
  induction k with
  | zero => rfl
  | succ k ih => simp [encodeBE, ih]

theorem foldl_encodeBE (k n acc : ℕ) :
    (encodeBE k n).foldl (fun acc b ↦ acc <<< 8 + b.toNat) acc =
      acc * 256 ^ k + n % 256 ^ k := by
  induction k generalizing acc with
  | zero => simp [encodeBE, Nat.mod_one]
  | succ k ih =>
      have hpow : 2 ^ (8 * k) = 256 ^ k := by
        rw [Nat.pow_mul]
      have hdigit : (UInt8.ofNat (n >>> (8 * k))).toNat = n / 256 ^ k % 256 := by
        rw [UInt8.toNat_ofNat', Nat.shiftRight_eq_div_pow, hpow]
      have hmod : n % 256 ^ (k + 1) = n % 256 ^ k + 256 ^ k * (n / 256 ^ k % 256) := by
        rw [pow_succ, Nat.mod_mul]
      rw [encodeBE, List.foldl_cons, ih, hdigit, hmod, Nat.shiftLeft_eq, pow_succ]
      ring

theorem decodeBE_encodeBE {k n : ℕ} (h : n < 256 ^ k) : decodeBE (encodeBE k n) = n := by
  rw [decodeBE, foldl_encodeBE, Nat.mod_eq_of_lt h]
  omega

theorem foldl_decodeBE (bs : List UInt8) (acc : ℕ) :
    bs.foldl (fun acc b ↦ acc <<< 8 + b.toNat) acc = acc * 256 ^ bs.length + decodeBE bs := by
  induction bs generalizing acc with
  | nil => simp [decodeBE]
  | cons b bs ih =>
      have htail := ih (0 <<< 8 + b.toNat)
      rw [decodeBE, List.foldl_cons, List.foldl_cons, ih, htail, List.length_cons, pow_succ,
        Nat.shiftLeft_eq, Nat.shiftLeft_eq]
      ring

theorem decodeBE_lt (bs : List UInt8) : decodeBE bs < 256 ^ bs.length := by
  induction bs with
  | nil => simp [decodeBE]
  | cons b bs ih =>
      have hb := b.toNat_lt
      have hmul : b.toNat * 256 ^ bs.length ≤ 255 * 256 ^ bs.length :=
        Nat.mul_le_mul_right _ (by omega)
      rw [decodeBE, List.foldl_cons, foldl_decodeBE, List.length_cons, pow_succ]
      simp only [Nat.zero_shiftLeft, Nat.zero_add]
      omega

theorem encodeBE_add {k m : ℕ} (hk : k ≤ m) (a r : ℕ) :
    encodeBE k (a * 256 ^ m + r) = encodeBE k r := by
  induction k with
  | zero => rfl
  | succ k ih =>
      have hpow : (256 : ℕ) ^ m = 256 ^ (m - (k + 1)) * 256 * 256 ^ k := by
        rw [mul_assoc, ← pow_succ', ← pow_add]
        congr 1
        omega
      have hdigit : (a * 256 ^ m + r) / 256 ^ k % 256 = r / 256 ^ k % 256 := by
        rw [hpow, ← mul_assoc, Nat.add_comm, Nat.add_mul_div_right _ _ (Nat.pow_pos (by omega)),
          ← mul_assoc, Nat.add_mul_mod_self_right]
      have h256 : 2 ^ (8 * k) = 256 ^ k := by
        rw [Nat.pow_mul]
      rw [encodeBE, encodeBE, ih (by omega), Nat.shiftRight_eq_div_pow, Nat.shiftRight_eq_div_pow,
        h256]
      congr 1
      apply UInt8.toNat_inj.mp
      rw [UInt8.toNat_ofNat', UInt8.toNat_ofNat']
      exact hdigit

/-- A word is written as it was read. -/
theorem encodeBE_decodeBE (bs : List UInt8) : encodeBE bs.length (decodeBE bs) = bs := by
  induction bs with
  | nil => rfl
  | cons b bs ih =>
      have hvalue : decodeBE (b :: bs) = b.toNat * 256 ^ bs.length + decodeBE bs := by
        rw [decodeBE, List.foldl_cons, foldl_decodeBE, Nat.zero_shiftLeft, Nat.zero_add]
      have h256 : 2 ^ (8 * bs.length) = 256 ^ bs.length := by
        rw [Nat.pow_mul]
      have hhead : decodeBE (b :: bs) / 256 ^ bs.length = b.toNat := by
        rw [hvalue, Nat.add_comm, Nat.add_mul_div_right _ _ (Nat.pow_pos (by omega)),
          Nat.div_eq_of_lt (decodeBE_lt bs), Nat.zero_add]
      rw [List.length_cons, encodeBE, Nat.shiftRight_eq_div_pow, h256, hhead, hvalue,
        encodeBE_add le_rfl, ih, UInt8.ofNat_toNat]

theorem take_drop_append {front mid : List UInt8} {off n : ℕ} (hoff : front.length = off)
    (hn : mid.length = n) (rest : List UInt8) :
    ((front ++ (mid ++ rest)).drop off).take n = mid := by
  rw [List.drop_left' hoff, List.take_left' hn]

/-- A word written between two byte strings is read back at its offset. -/
theorem getBE_append {k n : ℕ} (h : n < 256 ^ k) (front rest : List UInt8) :
    getBE (front ++ (encodeBE k n ++ rest)) front.length k = n := by
  rw [getBE, List.drop_left, List.take_left' (length_encodeBE k n), decodeBE_encodeBE h]

/-- A word inside of `bs` is not changed by what follows. -/
theorem getBE_append_left {bs : List UInt8} {off k : ℕ} (h : off + k ≤ bs.length)
    (rest : List UInt8) : getBE (bs ++ rest) off k = getBE bs off k := by
  have hoff : off ≤ bs.length := by omega
  have hk : k ≤ (bs.drop off).length := by
    rw [List.length_drop]
    omega
  rw [getBE, List.drop_append_of_le_length hoff, List.take_append_of_le_length hk, ← getBE]

/-- A word inside of the first `n` bytes is read from them. -/
theorem getBE_take {bs : List UInt8} {off k n : ℕ} (h : off + k ≤ n) :
    getBE (bs.take n) off k = getBE bs off k := by
  rw [getBE, getBE, List.drop_take, List.take_take, Nat.min_eq_left (by omega)]

theorem decodeBE_zeros (n : ℕ) : decodeBE (List.replicate n 0) = 0 := by
  induction n with
  | zero => rfl
  | succ n ih => exact ih

theorem getBE_lt (bs : List UInt8) (off k : ℕ) : getBE bs off k < 256 ^ k := by
  refine (decodeBE_lt _).trans_le (Nat.pow_le_pow_right (by norm_num) ?_)
  exact List.length_take_le _ _

end Bytes
