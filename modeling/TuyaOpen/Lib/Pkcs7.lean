import Mathlib.Data.List.Basic

/-!
# Padding to whole blocks

Bytes are padded to whole blocks of `b` bytes, also when they are whole blocks already, and the
value of each byte of the padding is its length.
-/

namespace Pkcs7

def padLen (b n : ℕ) : ℕ := b - n % b

def pad (b : ℕ) (data : List UInt8) : List UInt8 :=
  data ++ List.replicate (padLen b data.length) (UInt8.ofNat (padLen b data.length))

variable {b : ℕ}

theorem padLen_pos (hb : 0 < b) (n : ℕ) : 0 < padLen b n := by
  have hlt := Nat.mod_lt n hb
  rw [padLen]
  omega

theorem padLen_le (n : ℕ) : padLen b n ≤ b := Nat.sub_le ..

theorem length_pad (data : List UInt8) :
    (pad b data).length = data.length + padLen b data.length := by
  rw [pad, List.length_append, List.length_replicate]

theorem dvd_length_pad (hb : 0 < b) (data : List UInt8) : b ∣ (pad b data).length := by
  have hlt := Nat.mod_lt data.length hb
  have hsplit := Nat.div_add_mod data.length b
  rw [length_pad, padLen]
  refine ⟨data.length / b + 1, ?_⟩
  rw [Nat.mul_add]
  omega

theorem length_lt_length_pad (hb : 0 < b) (data : List UInt8) :
    data.length < (pad b data).length := by
  have hpos := padLen_pos hb data.length
  rw [length_pad]
  omega

/-- The last byte says how long the padding is. -/
theorem getLastD_pad (hb : 0 < b) (hbyte : b < 256) (data : List UInt8) :
    ((pad b data).getLastD 0).toNat = padLen b data.length := by
  have hpos := padLen_pos hb data.length
  have hle : padLen b data.length ≤ b := padLen_le _
  rw [pad, List.getLastD_eq_getLast?, List.getLast?_append, List.getLast?_replicate,
    if_neg (by omega)]
  have hvalue : (UInt8.ofNat (padLen b data.length)).toNat = padLen b data.length := by
    rw [UInt8.toNat_ofNat']
    exact Nat.mod_eq_of_lt (by omega)
  simpa using hvalue

theorem take_pad (data : List UInt8) : (pad b data).take data.length = data := by
  rw [pad, List.take_left]

end Pkcs7
