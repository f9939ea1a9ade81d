import Mathlib.Data.List.Basic
import Mathlib.Data.Nat.Notation
import Mathlib.Logic.Function.Iterate

/-!
# Reflected cyclic redundancy checks

The remainder is kept with its coefficient of highest degree in the lowest bit.  A bit of the
message is added there, and the remainder moves down one place.
-/

namespace Crc

variable {w : ℕ} (poly c m : BitVec w)

def bitStep (c : BitVec w) (b : Bool) : BitVec w :=
  if c.getLsbD 0 ^^ b then c >>> 1 ^^^ poly else c >>> 1

def serial (c : BitVec w) (msg : List Bool) : BitVec w := msg.foldl (bitStep poly) c

/-- The lowest `k` bits, the lowest first. -/
def lowBits (k : ℕ) (m : BitVec w) : List Bool := (List.range k).map m.getLsbD

theorem lowBits_succ (k : ℕ) : lowBits (k + 1) m = m.getLsbD 0 :: lowBits k (m >>> 1) := by
  simp [lowBits, List.range_succ_eq_map, Function.comp_def, Nat.add_comm 1]

theorem bitStep_xor : bitStep poly (c ^^^ m) false = bitStep poly c (m.getLsbD 0) ^^^ m >>> 1 := by
  simp only [bitStep, BitVec.getLsbD_xor, Bool.xor_false, BitVec.ushiftRight_xor_distrib]
  split_ifs
  · rw [BitVec.xor_assoc, BitVec.xor_assoc, BitVec.xor_comm (m >>> 1)]
  · rfl

/-- Message bits may be added to the remainder ahead of their turn. -/
theorem serial_xor (k : ℕ) :
    serial poly (c ^^^ m) (List.replicate k false) = serial poly c (lowBits k m) ^^^ m >>> k := by
  induction k generalizing c m with
  | zero => simp [serial, lowBits]
  | succ k ih =>
      have hstep := ih (bitStep poly c (m.getLsbD 0)) (m >>> 1)
      rw [← bitStep_xor, ← BitVec.shiftRight_add, Nat.add_comm 1] at hstep
      rw [lowBits_succ]
      exact hstep

/-- Steps of a remainder whose lowest bits are clear only move it down. -/
theorem serial_xor_high {k : ℕ} (hlow : ∀ i < k, m.getLsbD i = false) :
    serial poly (c ^^^ m) (List.replicate k false) =
      serial poly c (List.replicate k false) ^^^ m >>> k := by
  have hbits : lowBits k m = List.replicate k false := by
    rw [lowBits, List.eq_replicate_iff]
    refine ⟨by simp, ?_⟩
    intro b hb
    obtain ⟨i, hi, rfl⟩ := List.mem_map.mp hb
    exact hlow i (List.mem_range.mp hi)
  rw [serial_xor, hbits]

theorem serial_append (msg msg' : List Bool) :
    serial poly c (msg ++ msg') = serial poly (serial poly c msg) msg' :=
  List.foldl_append

/-- A step without a bit of the message, on the remainder as a number. -/
def natStep (p n : ℕ) : ℕ := if n % 2 = 1 then (n / 2) ^^^ p else n / 2

theorem toNat_bitStep : (bitStep poly c false).toNat = natStep poly.toNat c.toNat := by
  have hbit : c.getLsbD 0 = decide (c.toNat % 2 = 1) := Nat.testBit_zero _
  rw [bitStep, natStep, Bool.xor_false, hbit]
  simp only [decide_eq_true_eq]
  split_ifs
  · rw [BitVec.toNat_xor, BitVec.toNat_ushiftRight]
    rfl
  · exact BitVec.toNat_ushiftRight c 1

theorem toNat_serial_false (k : ℕ) :
    (serial poly c (List.replicate k false)).toNat = (natStep poly.toNat)^[k] c.toNat := by
  induction k generalizing c with
  | zero => rfl
  | succ k ih =>
      have hstep := ih (bitStep poly c false)
      rw [toNat_bitStep] at hstep
      exact hstep

end Crc
