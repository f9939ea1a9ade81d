import Mathlib.Data.List.Basic

/-!
# Hexadecimal text

`mix_method.c`: bytes to upper case digits, and digits of either case to bytes.  What is no digit
reads as zero, so only a text of digits is determined by its bytes.
-/

namespace TuyaOpen.Utilities

def asc2hex (asccode : UInt8) : UInt8 :=
  if 48 ≤ asccode ∧ asccode ≤ 57 then asccode - 48
  else if 97 ≤ asccode ∧ asccode ≤ 102 then asccode - 97 + 10
  else if 65 ≤ asccode ∧ asccode ≤ 70 then asccode - 65 + 10
  else 0

/-- The last of an odd number of characters is left out. -/
@[grind =] def ascs2hex : List UInt8 → List UInt8
  | h4 :: l4 :: rest => ((asc2hex h4 <<< 4) + asc2hex l4) :: ascs2hex rest
  | _ => []

/-- A digit of `hex2str`. -/
def hexDigit (d : UInt8) : UInt8 := if 57 < 48 + d then 48 + d + 7 else 48 + d

def hex2str : List UInt8 → List UInt8
  | [] => []
  | b :: rest => hexDigit (b / 16) :: hexDigit (b % 16) :: hex2str rest

def IsHexDigit (c : UInt8) : Prop := (48 ≤ c ∧ c ≤ 57) ∨ (97 ≤ c ∧ c ≤ 102) ∨ (65 ≤ c ∧ c ≤ 70)

instance (c : UInt8) : Decidable (IsHexDigit c) := inferInstanceAs (Decidable (_ ∨ _))

/-- A digit in upper case. -/
def hexUpper (c : UInt8) : UInt8 := if 97 ≤ c ∧ c ≤ 102 then c - 32 else c

/-- The digits of the bytes, in either case. -/
def IsHexOf (text bytes : List UInt8) : Prop := text.map hexUpper = hex2str bytes

instance (text bytes : List UInt8) :
    Decidable (IsHexOf text bytes) := inferInstanceAs (Decidable (_ = _))

theorem forall_uint8 {P : UInt8 → Prop} [DecidablePred P]
    (h : ∀ n < 256, P (UInt8.ofNat n)) (c : UInt8) : P c := by
  have hc := h c.toNat c.toNat_lt
  rwa [UInt8.ofNat_toNat] at hc

theorem hex_byte (c : UInt8) :
    (IsHexDigit c → hexDigit (asc2hex c) = hexUpper c) ∧ asc2hex (hexUpper c) = asc2hex c ∧
      (asc2hex (hexDigit (c / 16)) <<< 4) + asc2hex (hexDigit (c % 16)) = c ∧ asc2hex c < 16 ∧
      (IsHexDigit (hexUpper c) → IsHexDigit c) ∧
      IsHexDigit (hexDigit (c / 16)) ∧ IsHexDigit (hexDigit (c % 16)) := by
  revert c
  apply forall_uint8
  decide +kernel

theorem asc2hex_halves (h l : UInt8) :
    ((asc2hex h <<< 4) + asc2hex l) / 16 = asc2hex h ∧ ((asc2hex h <<< 4) + asc2hex l) % 16 =
    asc2hex l := by
  have hlt : ∀ c : UInt8, asc2hex c < 16 := fun c ↦ (hex_byte c).2.2.2.1
  have hhalves : ∀ n < 16, ∀ m < 16,
      ((UInt8.ofNat n <<< 4) + UInt8.ofNat m) / 16 = UInt8.ofNat n ∧
        ((UInt8.ofNat n <<< 4) + UInt8.ofNat m) % 16 = UInt8.ofNat m := by
    decide +kernel
  have hboth := hhalves (asc2hex h).toNat (hlt h) (asc2hex l).toNat (hlt l)
  rwa [UInt8.ofNat_toNat, UInt8.ofNat_toNat] at hboth

theorem ascs2hex_hex2str (bytes : List UInt8) : ascs2hex (hex2str bytes) = bytes := by
  induction bytes with
  | nil => rfl
  | cons b rest ih => rw [hex2str, ascs2hex, (hex_byte b).2.2.1, ih]

theorem ascs2hex_map_hexUpper (text : List UInt8) :
    ascs2hex (text.map hexUpper) = ascs2hex text := by
  induction text using ascs2hex.induct with
  | case1 h4 l4 rest ih =>
      rw [List.map_cons, List.map_cons, ascs2hex, ascs2hex, (hex_byte h4).2.1,
        (hex_byte l4).2.1, ih]
  | case2 text hshort =>
      rcases text with _ | ⟨c, _ | ⟨d, rest⟩⟩
      · rfl
      · rfl
      · exact absurd rfl (hshort c d rest)

theorem IsHexOf.ascs2hex_eq {text bytes : List UInt8} (h : IsHexOf text bytes) :
    ascs2hex text = bytes := by
  rw [← ascs2hex_map_hexUpper, h, ascs2hex_hex2str]

theorem isHexDigit_hex2str (bytes : List UInt8) : ∀ c ∈ hex2str bytes, IsHexDigit c := by
  induction bytes with
  | nil => exact fun c hc ↦ absurd hc List.not_mem_nil
  | cons b rest ih =>
      obtain ⟨-, -, -, -, -, hhigh, hlow⟩ := hex_byte b
      intro c hc
      rcases List.mem_cons.mp hc with rfl | hc
      · exact hhigh
      · rcases List.mem_cons.mp hc with rfl | hc
        · exact hlow
        · exact ih c hc

theorem IsHexOf.digits {text bytes : List UInt8} (h : IsHexOf text bytes) :
    ∀ c ∈ text, IsHexDigit c := by
  intro c hc
  apply (hex_byte c).2.2.2.2.1
  apply isHexDigit_hex2str bytes
  rw [← h]
  exact List.mem_map_of_mem hc

theorem hex2str_ascs2hex {text : List UInt8} (hdigits : ∀ c ∈ text, IsHexDigit c)
    (heven : text.length % 2 = 0) : hex2str (ascs2hex text) = text.map hexUpper := by
  induction text using ascs2hex.induct with
  | case1 h4 l4 rest ih =>
      rw [List.length_cons, List.length_cons] at heven
      have hrest := ih (fun c hc ↦ hdigits c (by simp [hc])) (by omega)
      obtain ⟨hhigh, hlow⟩ := asc2hex_halves h4 l4
      rw [ascs2hex, hex2str, hhigh, hlow, (hex_byte h4).1 (hdigits h4 (by simp)),
        (hex_byte l4).1 (hdigits l4 (by simp)), hrest]
      rfl
  | case2 text hshort =>
      rcases text with _ | ⟨c, _ | ⟨d, rest⟩⟩
      · rfl
      · exact absurd heven (by simp)
      · exact absurd rfl (hshort c d rest)

theorem isHexOf_iff {text bytes : List UInt8} (hdigits : ∀ c ∈ text, IsHexDigit c)
    (heven : text.length % 2 = 0) : IsHexOf text bytes ↔ ascs2hex text = bytes := by
  refine ⟨IsHexOf.ascs2hex_eq, ?_⟩
  rintro rfl
  exact (hex2str_ascs2hex hdigits heven).symm

end TuyaOpen.Utilities
