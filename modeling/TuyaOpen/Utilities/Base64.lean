import Mathlib.Algebra.Ring.Nat
import Mathlib.Data.List.Basic
import Mathlib.Tactic.SplitIfs

/-!
# Base64

`mbedtls_base64_encode` and `mbedtls_base64_decode`, on bytes as numbers: shifts are
multiplications and divisions, and masks are remainders.
-/

namespace TuyaOpen.Utilities

/-- `=`. -/
abbrev base64Pad : UInt8 := 61

/-- `mbedtls_ct_base64_enc_char`. -/
def base64EncChar (value : ℕ) : UInt8 :=
  if value ≤ 25 then .ofNat (65 + value)
  else if value ≤ 51 then .ofNat (97 + value - 26)
  else if value ≤ 61 then .ofNat (48 + value - 52)
  else if value = 62 then 43
  else if value = 63 then 47
  else 0

/-- `mbedtls_ct_base64_dec_value`, where it is not negative. -/
def base64DecValue (c : UInt8) : Option ℕ :=
  if 65 ≤ c ∧ c ≤ 90 then some (c.toNat - 65)
  else if 97 ≤ c ∧ c ≤ 122 then some (c.toNat - 97 + 26)
  else if 48 ≤ c ∧ c ≤ 57 then some (c.toNat - 48 + 52)
  else if c = 43 then some 62
  else if c = 47 then some 63
  else none

/-- The text that `mbedtls_base64_encode` writes, with room for it. -/
def base64Encode : List UInt8 → List UInt8
  | c1 :: c2 :: c3 :: src =>
      base64EncChar (c1.toNat / 4) :: base64EncChar (c1.toNat % 4 * 16 + c2.toNat / 16) ::
        base64EncChar (c2.toNat % 16 * 4 + c3.toNat / 64) :: base64EncChar (c3.toNat % 64) ::
          base64Encode src
  | [c1, c2] =>
      [base64EncChar (c1.toNat / 4), base64EncChar (c1.toNat % 4 * 16 + c2.toNat / 16),
        base64EncChar (c2.toNat % 16 * 4), base64Pad]
  | [c1] =>
      [base64EncChar (c1.toNat / 4), base64EncChar (c1.toNat % 4 * 16), base64Pad, base64Pad]
  | [] => []

/-- The first pass of `mbedtls_base64_decode`, behind a space or not: it counts the characters
and the pads among them. -/
def base64Check : List UInt8 → Bool → ℕ → ℕ → Option (ℕ × ℕ)
  | [], _, n, equals => some (n, equals)
  | c :: src, spaces, n, equals =>
      if c = 32 then base64Check src true n equals
      else if c = 13 ∧ src.head? = some 10 then base64Check src false n equals
      else if c = 10 then base64Check src false n equals
      else if spaces then none
      else if 127 < c then none
      else if c = base64Pad then
        if 2 < equals + 1 then none else base64Check src false (n + 1) (equals + 1)
      else if equals ≠ 0 then none
      else if base64DecValue c = none then none
      else base64Check src false (n + 1) equals

/-- The second pass, with its accumulator of 32 bits, the digits in it and the pads. -/
def base64Loop : List UInt8 → ℕ → ℕ → ℕ → List UInt8
  | [], _, _, _ => []
  | c :: src, x, digits, equals =>
      if c = 13 ∨ c = 10 ∨ c = 32 then base64Loop src x digits equals
      else
        let equals := if c = base64Pad then equals + 1 else equals
        let x := (x * 64 + (base64DecValue c).getD 0) % 2 ^ 32
        if digits + 1 = 4 then
          [UInt8.ofNat (x / 65536)] ++ (if equals ≤ 1 then [UInt8.ofNat (x / 256)] else []) ++
            (if equals = 0 then [UInt8.ofNat x] else []) ++ base64Loop src x 0 equals
        else base64Loop src x (digits + 1) equals

/-- What `tuya_base64_decode` writes; nothing where the decoder fails. -/
def base64Decode (src : List UInt8) : List UInt8 :=
  match base64Check src false 0 0 with
  | none => []
  | some (n, equals) =>
      if n = 0 then []
      else if src.length < 6 * (n / 8) + (6 * (n % 8) + 7) / 8 - equals then []
      else base64Loop src 0 0 0

/-! ## Round trip -/

theorem base64DecValue_encChar {value : ℕ} (h : value < 64) :
    base64DecValue (base64EncChar value) = some value := by
  have hall : ∀ value < 64, base64DecValue (base64EncChar value) = some value := by decide
  exact hall value h

theorem base64EncChar_plain {value : ℕ} (h : value < 64) :
    base64EncChar value ≠ 32 ∧ base64EncChar value ≠ 13 ∧ base64EncChar value ≠ 10 ∧
      base64EncChar value ≤ 127 ∧ base64EncChar value ≠ base64Pad := by
  have hall : ∀ value < 64, base64EncChar value ≠ 32 ∧ base64EncChar value ≠ 13 ∧
      base64EncChar value ≠ 10 ∧ base64EncChar value ≤ 127 ∧ base64EncChar value ≠ base64Pad := by
    decide
  exact hall value h

theorem length_base64Encode (src : List UInt8) :
    (base64Encode src).length = (src.length / 3 + if src.length % 3 = 0 then 0 else 1) * 4 := by
  fun_induction base64Encode src with
  | case1 c1 c2 c3 src ih =>
      simp only [List.length_cons, ih]
      split_ifs <;> omega
  | case2 => simp
  | case3 => simp
  | case4 => rfl

theorem base64Check_cons {value : ℕ} (h : value < 64) (src : List UInt8) (n : ℕ) :
    base64Check (base64EncChar value :: src) false n 0 = base64Check src false (n + 1) 0 := by
  obtain ⟨hspace, hcr, hlf, hascii, hpad⟩ := base64EncChar_plain h
  have hvalue := base64DecValue_encChar h
  rw [base64Check, if_neg hspace, if_neg (fun h ↦ hcr h.1), if_neg hlf, if_neg Bool.false_ne_true,
    if_neg (UInt8.not_lt.mpr hascii), if_neg hpad, if_neg (fun h ↦ h rfl), hvalue,
    if_neg (Option.some_ne_none _)]

theorem base64Loop_cons {value : ℕ} (h : value < 64) (src : List UInt8) (x digits : ℕ)
    (hdigits : digits + 1 ≠ 4) :
    base64Loop (base64EncChar value :: src) x digits 0 =
      base64Loop src ((x * 64 + value) % 2 ^ 32) (digits + 1) 0 := by
  obtain ⟨hspace, hcr, hlf, -, hpad⟩ := base64EncChar_plain h
  rw [base64Loop, if_neg (by rintro (h | h | h) <;> contradiction), if_neg hpad,
    base64DecValue_encChar h, if_neg hdigits]
  rfl

theorem base64Loop_last {value : ℕ} (h : value < 64) (src : List UInt8) (x : ℕ) :
    base64Loop (base64EncChar value :: src) x 3 0 =
      .ofNat ((x * 64 + value) % 2 ^ 32 / 65536) :: .ofNat ((x * 64 + value) % 2 ^ 32 / 256) ::
        .ofNat ((x * 64 + value) % 2 ^ 32) :: base64Loop src ((x * 64 + value) % 2 ^ 32) 0 0 := by
  obtain ⟨hspace, hcr, hlf, -, hpad⟩ := base64EncChar_plain h
  rw [base64Loop, if_neg (by rintro (h | h | h) <;> contradiction), if_neg hpad,
    base64DecValue_encChar h, if_pos rfl, if_pos (Nat.zero_le 1), if_pos rfl]
  rfl

theorem base64Loop_two (a b x : ℕ) (ha : a < 64) (hb : b < 64) :
    base64Loop [base64EncChar a, base64EncChar b, base64Pad, base64Pad] x 0 0 =
      [.ofNat ((((x * 64 + a) % 2 ^ 32 * 64 + b) % 2 ^ 32 * 64 +
        0) % 2 ^ 32 * 64 % 2 ^ 32 / 65536)] := by
  rw [base64Loop_cons ha _ _ _ (by decide), base64Loop_cons hb _ _ _ (by decide)]
  rfl

theorem base64Loop_three (a b c x : ℕ) (ha : a < 64) (hb : b < 64) (hc : c < 64) :
    base64Loop [base64EncChar a, base64EncChar b, base64EncChar c, base64Pad] x 0 0 =
      [.ofNat ((((x * 64 + a) % 2 ^ 32 * 64 + b) % 2 ^ 32 * 64 + c) % 2 ^ 32 * 64 % 2 ^ 32 / 65536),
        .ofNat ((((x * 64 + a) % 2 ^ 32 * 64 + b) % 2 ^ 32 * 64 +
          c) % 2 ^ 32 * 64 % 2 ^ 32 / 256)] := by
  rw [base64Loop_cons ha _ _ _ (by decide), base64Loop_cons hb _ _ _ (by decide),
    base64Loop_cons hc _ _ _ (by decide)]
  rfl

theorem accumulator_mod {x a b c d : ℕ} (ha : a < 64) (hb : b < 64) (hc : c < 64) (hd : d < 64) :
    ((((x * 64 + a) % 2 ^ 32 * 64 + b) % 2 ^ 32 * 64 + c) % 2 ^ 32 * 64 + d) % 2 ^ 32 % 2 ^ 24 =
      a * 2 ^ 18 + b * 2 ^ 12 + c * 2 ^ 6 + d := by
  omega

theorem ofNat_toNat_eq {b : UInt8} {n : ℕ} (h : n % 256 = b.toNat) : UInt8.ofNat n = b := by
  apply UInt8.toNat_inj.mp
  rw [UInt8.toNat_ofNat']
  exact h

theorem base64Loop_encode (src : List UInt8) (x : ℕ) :
    base64Loop (base64Encode src) x 0 0 = src := by
  fun_induction base64Encode src generalizing x with
  | case1 c1 c2 c3 src ih =>
      have h1 := c1.toNat_lt
      have h2 := c2.toNat_lt
      have h3 := c3.toNat_lt
      have ha : c1.toNat / 4 < 64 := by omega
      have hb : c1.toNat % 4 * 16 + c2.toNat / 16 < 64 := by omega
      have hc : c2.toNat % 16 * 4 + c3.toNat / 64 < 64 := by omega
      have hd : c3.toNat % 64 < 64 := by omega
      have hsum := accumulator_mod (x := x) ha hb hc hd
      rw [base64Loop_cons ha _ _ _ (by decide), base64Loop_cons hb _ _ _ (by decide),
        base64Loop_cons hc _ _ _ (by decide), base64Loop_last hd, ih]
      rw [ofNat_toNat_eq (b := c1) (by omega), ofNat_toNat_eq (b := c2) (by omega),
        ofNat_toNat_eq (b := c3) (by omega)]
  | case2 c1 c2 =>
      have h1 := c1.toNat_lt
      have h2 := c2.toNat_lt
      have ha : c1.toNat / 4 < 64 := by omega
      have hb : c1.toNat % 4 * 16 + c2.toNat / 16 < 64 := by omega
      have hc : c2.toNat % 16 * 4 < 64 := by omega
      have hsum := accumulator_mod (x := x) (d := 0) ha hb hc (by decide)
      rw [base64Loop_three _ _ _ x ha hb hc, ofNat_toNat_eq (b := c1) (by omega),
        ofNat_toNat_eq (b := c2) (by omega)]
  | case3 c1 =>
      have h1 := c1.toNat_lt
      have ha : c1.toNat / 4 < 64 := by omega
      have hb : c1.toNat % 4 * 16 < 64 := by omega
      have hsum := accumulator_mod (x := x) (c := 0) (d := 0) ha hb (by decide) (by decide)
      rw [base64Loop_two _ _ x ha hb, ofNat_toNat_eq (b := c1) (by omega)]
  | case4 => rfl

theorem base64Check_encode (src : List UInt8) (n : ℕ) :
    base64Check (base64Encode src) false n 0 =
      some (n + (base64Encode src).length, (3 - src.length % 3) % 3) := by
  fun_induction base64Encode src generalizing n with
  | case1 c1 c2 c3 src ih =>
      have h1 := c1.toNat_lt
      have h2 := c2.toNat_lt
      have h3 := c3.toNat_lt
      rw [base64Check_cons (by omega), base64Check_cons (by omega), base64Check_cons (by omega),
        base64Check_cons (by omega), ih]
      simp only [List.length_cons]
      congr 2
      · omega
      · omega
  | case2 c1 c2 =>
      have h1 := c1.toNat_lt
      have h2 := c2.toNat_lt
      rw [base64Check_cons (by omega), base64Check_cons (by omega), base64Check_cons (by omega)]
      rfl
  | case3 c1 =>
      have h1 := c1.toNat_lt
      rw [base64Check_cons (by omega), base64Check_cons (by omega)]
      rfl
  | case4 => rfl

theorem base64Decode_encode (src : List UInt8) : base64Decode (base64Encode src) = src := by
  have hlength := length_base64Encode src
  rw [base64Decode, base64Check_encode, base64Loop_encode]
  dsimp only
  cases src with
  | nil => rfl
  | cons c src =>
      rw [List.length_cons] at hlength
      rw [if_neg (by split_ifs at hlength <;> omega), if_neg (by omega)]

end TuyaOpen.Utilities
