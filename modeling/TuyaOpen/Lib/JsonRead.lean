import Mathlib.Tactic.SplitIfs
import TuyaOpen.Lib.JsonText

/-!
# Reading JSON

What a JSON text means.  A value is read from the beginning of a text, and leaves what stands
behind it.
-/

namespace JsonRead

open JsonText

inductive Json where
  | null
  | bool (b : Bool)
  /-- A number, by the integer that a reader takes from it. -/
  | number (valueint : ℤ)
  | string (s : List UInt8)
  | array (items : List Json)
  | object (members : List (List UInt8 × Json))

/-! ## Decimal text -/

def natText (n : ℕ) : List UInt8 := (Nat.toDigits 10 n).map fun c ↦ c.toNat.toUInt8

def intText (v : ℤ) : List UInt8 := if v < 0 then 0x2d :: natText v.natAbs else natText v.natAbs

/-- What may stand in a number. -/
def NumberByte (b : UInt8) :
    Prop := IsDigit b ∨ b = 0x2b ∨ b = 0x2d ∨ b = 0x2e ∨ b = 0x45 ∨ b = 0x65

theorem toNat_of_mem_toDigits {n : ℕ} {c : Char} (hc : c ∈ Nat.toDigits 10 n) :
    48 ≤ c.toNat ∧ c.toNat ≤ 57 ∧ c.toNat.toUInt8.toNat = c.toNat := by
  have hdigit := Nat.isDigit_of_mem_toDigits (by decide) (by decide) hc
  rw [Char.isDigit, Bool.and_eq_true, decide_eq_true_eq, decide_eq_true_eq] at hdigit
  have hlow : 48 ≤ c.toNat := hdigit.1
  have hhigh : c.toNat ≤ 57 := hdigit.2
  refine ⟨hlow, hhigh, ?_⟩
  rw [Nat.toUInt8, UInt8.toNat_ofNat']
  exact Nat.mod_eq_of_lt (by omega)

theorem natText_digits (n : ℕ) : ∀ b ∈ natText n, IsDigit b := by
  intro b hb
  obtain ⟨c, hc, rfl⟩ := List.mem_map.mp hb
  obtain ⟨hlow, hhigh, hbyte⟩ := toNat_of_mem_toDigits hc
  exact ⟨UInt8.le_iff_toNat_le.mpr (hbyte.symm ▸ hlow),
    UInt8.le_iff_toNat_le.mpr (hbyte.symm ▸ hhigh)⟩

/-- A number is known from its digits. -/
theorem foldl_natText (n : ℕ) : (natText n).foldl (fun m b ↦ 10 * m + (b.toNat - 48)) 0 = n := by
  have hfold : (Nat.toDigits 10 n).foldl (fun m c ↦ 10 * m + (c.toNat - '0'.toNat)) 0 = n := by
    rw [← Nat.ofDigitChars_eq_foldl, Nat.ofDigitChars_ten_toDigits]
  unfold natText
  rw [List.foldl_map]
  conv_rhs => rw [← hfold]
  refine List.foldl_ext _ _ _ fun m c hc ↦ ?_
  rw [(toNat_of_mem_toDigits hc).2.2]
  rfl

theorem natText_injective : Function.Injective natText := by
  intro m n h
  rw [← foldl_natText m, h, foldl_natText]

theorem natText_ne_nil (n : ℕ) : natText n ≠ [] := by
  unfold natText
  exact fun h ↦ Nat.toDigits_ne_nil (List.map_eq_nil_iff.mp h)

theorem intText_injective : Function.Injective intText := by
  have hsign : ∀ (m n : ℕ), natText m ≠ 0x2d :: natText n := by
    intro m n h
    have hdigit := natText_digits m 0x2d (h ▸ List.mem_cons_self)
    exact absurd hdigit.1 (by decide)
  intro m n h
  unfold intText at h
  split_ifs at h with hm hn hn
  · have habs := natText_injective (List.cons.inj h).2
    omega
  · exact (hsign _ _ h.symm).elim
  · exact (hsign _ _ h).elim
  · have habs := natText_injective h
    omega

theorem intText_numberByte (v : ℤ) : ∀ b ∈ intText v, NumberByte b := by
  have hdigits : ∀ b ∈ natText v.natAbs, NumberByte b := fun b hb ↦ Or.inl (natText_digits _ b hb)
  intro b hb
  unfold intText at hb
  split_ifs at hb
  · rcases List.mem_cons.mp hb with rfl | hb
    · exact Or.inr (Or.inr (Or.inl rfl))
    · exact hdigits b hb
  · exact hdigits b hb

theorem natText_of_lt {n : ℕ} (h : n < 10) : natText n = [n.digitChar.toNat.toUInt8] := by
  rw [natText, Nat.toDigits_of_lt_base h]
  rfl

theorem natText_of_ge {n : ℕ} (h : 10 ≤ n) :
    natText n = natText (n / 10) ++ [(n % 10).digitChar.toNat.toUInt8] := by
  unfold natText
  rw [Nat.toDigits_of_base_le (by decide) h, List.map_append]
  rfl

theorem natText_head {n : ℕ} (h : 0 < n) : (natText n).head? ≠ some 0x30 := by
  induction n using Nat.strongRecOn with
  | _ n ih =>
      by_cases hlt : n < 10
      · rw [natText_of_lt hlt]
        have hall : ∀ m < 10, 0 < m → [m.digitChar.toNat.toUInt8].head? ≠ some 0x30 := by decide
        exact hall n hlt h
      · rw [natText_of_ge (by omega), List.head?_append_of_ne_nil _ (natText_ne_nil _)]
        exact ih (n / 10) (by omega) (by omega)

theorem number_intText (v : ℤ) : Number (intText v) := by
  have hdigits : Digits (natText v.natAbs) := ⟨natText_ne_nil _, natText_digits _⟩
  have hzero : (natText v.natAbs).head? = some 0x30 → (natText v.natAbs).length = 1 := by
    intro hhead
    have habs : v.natAbs = 0 := by
      by_contra hpos
      exact natText_head (Nat.pos_of_ne_zero hpos) hhead
    rw [habs]
    rfl
  by_cases hneg : v < 0
  · refine ⟨[0x2d], natText v.natAbs, [], [], Or.inr rfl, ⟨hdigits, hzero⟩, Or.inl rfl,
      Or.inl rfl, ?_⟩
    rw [intText, if_pos hneg, List.append_nil, List.append_nil]
    rfl
  · refine ⟨[], natText v.natAbs, [], [], Or.inl rfl, ⟨hdigits, hzero⟩, Or.inl rfl, Or.inl rfl, ?_⟩
    rw [intText, if_neg hneg, List.append_nil, List.append_nil]
    rfl

theorem length_natText_le {n k : ℕ} (hk : 0 < k) (h : n < 10 ^ k) : (natText n).length ≤ k := by
  rw [natText, List.length_map, Nat.length_toDigits_le_iff (by decide) hk]
  exact h

/-- A number begins with a digit or a minus sign. -/
theorem number_cons {w : List UInt8} (h : Number w) :
    ∃ b u, w = b :: u ∧ (IsDigit b ∨ b = 0x2d) := by
  obtain ⟨sign, int, frac, exp, hsign, ⟨⟨hne, hdigits⟩, -⟩, -, -, rfl⟩ := h
  obtain ⟨b, u, rfl⟩ := List.exists_cons_of_ne_nil hne
  rcases hsign with rfl | rfl
  · exact ⟨b, u ++ frac ++ exp, rfl, Or.inl (hdigits b List.mem_cons_self)⟩
  · exact ⟨0x2d, b :: u ++ frac ++ exp, rfl, Or.inr rfl⟩

theorem number_numberByte {w : List UInt8} (h : Number w) : ∀ b ∈ w, NumberByte b := by
  obtain ⟨sign, int, frac, exp, hsign, ⟨⟨-, hint⟩, -⟩, hfrac, hexp, rfl⟩ := h
  intro b hb
  simp only [List.mem_append] at hb
  rcases hb with ((hb | hb) | hb) | hb
  · rcases hsign with rfl | rfl
    · exact (List.not_mem_nil hb).elim
    · rw [List.mem_singleton] at hb
      exact Or.inr (Or.inr (Or.inl hb))
  · exact Or.inl (hint b hb)
  · rcases hfrac with rfl | ⟨ds, ⟨-, hds⟩, rfl⟩
    · exact (List.not_mem_nil hb).elim
    · rcases List.mem_cons.mp hb with rfl | hb
      · exact Or.inr (Or.inr (Or.inr (Or.inl rfl)))
      · exact Or.inl (hds b hb)
  · rcases hexp with rfl | ⟨e, s, ds, he, hs, ⟨-, hds⟩, rfl⟩
    · exact (List.not_mem_nil hb).elim
    · rw [List.cons_append] at hb
      rcases List.mem_cons.mp hb with rfl | hb
      · exact Or.inr (Or.inr (Or.inr (Or.inr he.symm)))
      · rcases List.mem_append.mp hb with hb | hb
        · rcases hs with rfl | rfl | rfl
          · exact (List.not_mem_nil hb).elim
          · exact Or.inr (Or.inl (List.mem_singleton.mp hb))
          · exact Or.inr (Or.inr (Or.inl (List.mem_singleton.mp hb)))
        · exact Or.inl (hds b hb)

/-- Two runs of bytes of a number, each up to a byte that is none, are the same. -/
theorem numberByte_run {w w' r r' : List UInt8} (hw : ∀ b ∈ w, NumberByte b)
    (hw' : ∀ b ∈ w', NumberByte b) (hr : ∀ b ∈ r.head?, ¬NumberByte b)
    (hr' : ∀ b ∈ r'.head?, ¬NumberByte b) (h : w ++ r = w' ++ r') : w = w' ∧ r = r' := by
  induction w generalizing w' with
  | nil =>
      cases w' with
      | nil => exact ⟨rfl, h⟩
      | cons b w' =>
          rw [List.nil_append] at h
          exact (hr b (by rw [h]; rfl) (hw' b List.mem_cons_self)).elim
  | cons a w ih =>
      cases w' with
      | nil =>
          rw [List.nil_append] at h
          exact (hr' a (by rw [← h]; rfl) (hw a List.mem_cons_self)).elim
      | cons b w' =>
          obtain ⟨rfl, hrest⟩ := List.cons.inj h
          obtain ⟨rfl, rfl⟩ := ih (fun b hb ↦ hw b (List.mem_cons_of_mem _ hb))
            (fun b hb ↦ hw' b (List.mem_cons_of_mem _ hb)) hrest
          exact ⟨rfl, rfl⟩

/-! ## Strings -/

/-- What an escape stands for. -/
def escapeOf (b : UInt8) : Option UInt8 :=
  if b = quote ∨ b = backslash ∨ b = 0x2f then some b
  else if b = 0x62 then some 0x08
  else if b = 0x66 then some 0x0c
  else if b = 0x6e then some 0x0a
  else if b = 0x72 then some 0x0d
  else if b = 0x74 then some 0x09
  else none

def hexDigit (b : UInt8) : ℕ :=
  if b ≤ 0x39 then b.toNat - 0x30 else if b ≤ 0x46 then b.toNat - 0x37 else b.toNat - 0x57

def hexNumber (hex : List UInt8) : ℕ := hex.foldl (fun n b ↦ 16 * n + hexDigit b) 0

def utf8 (code : ℕ) : List UInt8 :=
  if code < 0x80 then [.ofNat code]
  else if code < 0x800 then [.ofNat (0xc0 + code / 64 % 32), .ofNat (0x80 + code % 64)]
  else if code < 0x10000 then
    [.ofNat (0xe0 + code / 4096 % 16), .ofNat (0x80 + code / 64 % 64), .ofNat (0x80 + code % 64)]
  else
    [.ofNat (0xf0 + code / 262144 % 8), .ofNat (0x80 + code / 4096 % 64),
      .ofNat (0x80 + code / 64 % 64), .ofNat (0x80 + code % 64)]

/-- Four hexadecimal digits. -/
def Hex (hex : List UInt8) : Prop := hex.length = 4 ∧ ∀ b ∈ hex, IsHex b

/-- A string is read from behind its opening quote. -/
inductive ReadsString : List UInt8 → List UInt8 → List UInt8 → Prop
  | done (r : List UInt8) : ReadsString (quote :: r) [] r
  | plain {b : UInt8} {s v r : List UInt8} (hcontrol : 0x20 ≤ b) (hquote : b ≠ quote)
      (hbackslash : b ≠ backslash) (h : ReadsString s v r) : ReadsString (b :: s) (b :: v) r
  | escape {b e : UInt8} {s v r : List UInt8} (hescape : escapeOf b = some e)
      (h : ReadsString s v r) : ReadsString (backslash :: b :: s) (e :: v) r
  | unicode {hex s v r : List UInt8} (hhex : Hex hex)
      (hscalar : hexNumber hex < 0xd800 ∨ 0xe000 ≤ hexNumber hex) (h : ReadsString s v r) :
      ReadsString (backslash :: 0x75 :: (hex ++ s)) (utf8 (hexNumber hex) ++ v) r
  | pair {high low s v r : List UInt8} (hhigh : Hex high) (hlow : Hex low)
      (hlead : 0xd800 ≤ hexNumber high ∧ hexNumber high < 0xdc00)
      (htrail : 0xdc00 ≤ hexNumber low ∧ hexNumber low < 0xe000) (h : ReadsString s v r) :
      ReadsString (backslash :: 0x75 :: (high ++ backslash :: 0x75 :: (low ++ s)))
        (utf8 (0x10000 + (hexNumber high - 0xd800) * 0x400 + (hexNumber low - 0xdc00)) ++ v) r

/-! ## Values -/

def isBlank (b : UInt8) : Bool := b = 0x20 || b = 0x09 || b = 0x0a || b = 0x0d

def skip (s : List UInt8) : List UInt8 := s.dropWhile isBlank

mutual

inductive ReadsValue : List UInt8 → Json → List UInt8 → Prop
  | null (r : List UInt8) : ReadsValue (0x6e :: 0x75 :: 0x6c :: 0x6c :: r) .null r
  | true (r : List UInt8) : ReadsValue (0x74 :: 0x72 :: 0x75 :: 0x65 :: r) (.bool true) r
  | false (r : List UInt8) : ReadsValue (0x66 :: 0x61 :: 0x6c :: 0x73 :: 0x65 :: r) (.bool false) r
  /-- The longest number; an integer that has 32 bits is taken from its decimal text. -/
  | number {w r : List UInt8} (n : ℤ) (hw : Number w) (hend : ∀ b ∈ r.head?, ¬NumberByte b)
      (hint : ∀ m : ℤ, -2 ^ 31 ≤ m → m < 2 ^ 31 → w = intText m → n = m) :
      ReadsValue (w ++ r) (.number n) r
  | string {s v r : List UInt8} (h : ReadsString s v r) : ReadsValue (quote :: s) (.string v) r
  | emptyArray {s r : List UInt8} (h : skip s = rbracket :: r) :
      ReadsValue (lbracket :: s) (.array []) r
  | array {s r : List UInt8} {items : List Json} (h : ReadsItems s items r) :
      ReadsValue (lbracket :: s) (.array items) r
  | emptyObject {s r : List UInt8} (h : skip s = rbrace :: r) :
      ReadsValue (lbrace :: s) (.object []) r
  | object {s r : List UInt8} {members : List (List UInt8 × Json)} (h : ReadsMembers s members r) :
      ReadsValue (lbrace :: s) (.object members) r

inductive ReadsItems : List UInt8 → List Json → List UInt8 → Prop
  | one {s t r : List UInt8} {v : Json} (h : ReadsValue (skip s) v t)
      (hend : skip t = rbracket :: r) : ReadsItems s [v] r
  | more {s t u r : List UInt8} {v : Json} {items : List Json} (h : ReadsValue (skip s) v t)
      (hcomma : skip t = comma :: u) (hrest : ReadsItems u items r) : ReadsItems s (v :: items) r

inductive ReadsMembers : List UInt8 → List (List UInt8 × Json) → List UInt8 → Prop
  | one {s s' k t t' u r : List UInt8} {v : Json} (hquote : skip s = quote :: s')
      (hkey : ReadsString s' k t) (hcolon : skip t = colon :: t') (h : ReadsValue (skip t') v u)
      (hend : skip u = rbrace :: r) : ReadsMembers s [(k, v)] r
  | more {s s' k t t' u u' r : List UInt8} {v : Json} {members : List (List UInt8 × Json)}
      (hquote : skip s = quote :: s') (hkey : ReadsString s' k t) (hcolon : skip t = colon :: t')
      (h : ReadsValue (skip t') v u) (hcomma : skip u = comma :: u')
      (hrest : ReadsMembers u' members r) : ReadsMembers s ((k, v) :: members) r

end

/-- A text is one value, with blanks around it. -/
def ReadsText (s : List UInt8) (v : Json) : Prop := ∃ r, ReadsValue (skip s) v r ∧ skip r = []

/-! ## What was written without escapes -/

/-- A byte that stands for itself. -/
structure PlainByte (b : UInt8) : Prop where
  control : 0x20 ≤ b
  quote : b ≠ quote
  backslash : b ≠ backslash

/-- Every byte stands for itself. -/
def Plain (w : List UInt8) : Prop := ∀ b ∈ w, PlainByte b

theorem readsString_plain {w : List UInt8} (hw : Plain w) (r : List UInt8) :
    ReadsString (w ++ quote :: r) w r := by
  induction w with
  | nil => exact .done r
  | cons b w ih =>
      obtain ⟨hb, hrest⟩ := List.forall_mem_cons.mp hw
      exact .plain hb.control hb.quote hb.backslash (ih hrest)

theorem readsString_of_plain {w v r r' : List UInt8} (hw : Plain w)
    (h : ReadsString (w ++ quote :: r) v r') : v = w ∧ r' = r := by
  induction w generalizing v with
  | nil =>
      cases h with
      | done => exact ⟨rfl, rfl⟩
      | plain _ hquote => exact (hquote rfl).elim
  | cons b w ih =>
      obtain ⟨hb, hrest⟩ := List.forall_mem_cons.mp hw
      rw [List.cons_append] at h
      generalize hs : w ++ quote :: r = s at h
      cases h with
      | done => exact (hb.quote rfl).elim
      | plain _ _ _ h =>
          subst hs
          obtain ⟨rfl, rfl⟩ := ih hrest h
          exact ⟨rfl, rfl⟩
      | escape => exact (hb.backslash rfl).elim
      | unicode => exact (hb.backslash rfl).elim
      | pair => exact (hb.backslash rfl).elim

theorem length_utf8_le (code : ℕ) : (utf8 code).length ≤ 4 := by
  unfold utf8
  split_ifs
  · exact Nat.le_of_ble_eq_true rfl
  · exact Nat.le_of_ble_eq_true rfl
  · exact Nat.le_of_ble_eq_true rfl
  · exact Nat.le_refl 4

theorem ofNat_ne_zero {n : ℕ} (hpos : 0 < n) (hlt : n < 256) : UInt8.ofNat n ≠ 0 := by
  intro h
  have hnat := congrArg UInt8.toNat h
  rw [UInt8.toNat_ofNat', Nat.mod_eq_of_lt hlt] at hnat
  exact hpos.ne' hnat

theorem utf8_nonzero {code : ℕ} (h : 0 < code) : ∀ b ∈ utf8 code, b ≠ 0 := by
  unfold utf8
  split_ifs with h1 h2 h3
  · simp only [List.forall_mem_cons]
    exact ⟨ofNat_ne_zero h (by omega), fun b hb ↦ (List.not_mem_nil hb).elim⟩
  · simp only [List.forall_mem_cons]
    exact ⟨ofNat_ne_zero (by omega) (by omega), ofNat_ne_zero (by omega) (by omega),
      fun b hb ↦ (List.not_mem_nil hb).elim⟩
  · simp only [List.forall_mem_cons]
    exact ⟨ofNat_ne_zero (by omega) (by omega), ofNat_ne_zero (by omega) (by omega),
      ofNat_ne_zero (by omega) (by omega), fun b hb ↦ (List.not_mem_nil hb).elim⟩
  · simp only [List.forall_mem_cons]
    exact ⟨ofNat_ne_zero (by omega) (by omega), ofNat_ne_zero (by omega) (by omega),
      ofNat_ne_zero (by omega) (by omega), ofNat_ne_zero (by omega) (by omega),
      fun b hb ↦ (List.not_mem_nil hb).elim⟩

theorem escapeOf_nonzero {b e : UInt8} (h : escapeOf b = some e) : e ≠ 0 := by
  unfold escapeOf at h
  split_ifs at h with hself
  · cases h
    rcases hself with rfl | rfl | rfl <;> decide
  all_goals
    cases h
    decide

/-- A string up to its first zero. -/
def cstr (s : List UInt8) : List UInt8 := s.takeWhile (· ≠ 0)

theorem cstr_append {u : List UInt8} (hu : ∀ b ∈ u, b ≠ 0) (v : List UInt8) :
    cstr (u ++ v) = u ++ cstr v := by
  unfold cstr
  exact List.takeWhile_append_of_pos fun b hb ↦ by simpa using hu b hb

theorem cstr_cons {b : UInt8} (hb : b ≠ 0) (v : List UInt8) : cstr (b :: v) = b :: cstr v :=
  cstr_append (u := [b]) (fun a ha ↦ by rwa [List.mem_singleton.mp ha]) v

theorem cstr_eq_self {w : List UInt8} (h : 0 ∉ w) : cstr w = w := by
  have hnonzero : ∀ b ∈ w, b ≠ 0 := fun b hb hzero ↦ h (hzero ▸ hb)
  have happend := cstr_append hnonzero []
  rwa [List.append_nil, show cstr [] = [] from rfl, List.append_nil] at happend

theorem Plain.zero_notMem {w : List UInt8} (h : Plain w) : 0 ∉ w :=
  fun hzero ↦ absurd (h 0 hzero).control (by decide)

theorem Plain.cstr_eq {w : List UInt8} (h : Plain w) : cstr w = w := cstr_eq_self h.zero_notMem

/-- What a string `w` comes to that was written between quotes as it is: with more quotes than
it, or shorter, or all of it is plain. -/
def Garbled (w d : List UInt8) : Prop :=
  w.count quote < d.count quote ∨ d.length < w.length ∨ (d = w ∧ Plain w)

theorem Garbled.append {w d u e : List UInt8} (h : Garbled w d) (hlength : e.length < u.length)
    (hcount : u.count quote ≤ e.count quote) : Garbled (u ++ w) (e ++ d) := by
  rcases h with h | h | ⟨rfl, -⟩
  · left
    rw [List.count_append, List.count_append]
    omega
  · right
    left
    rw [List.length_append, List.length_append]
    omega
  · right
    left
    rw [List.length_append, List.length_append]
    omega

theorem quote_notMem_hex {hex : List UInt8} (h : Hex hex) : quote ∉ hex := by
  intro hmem
  rcases h.2 _ hmem with ⟨h, -⟩ | ⟨h, -⟩ | ⟨h, -⟩ <;> exact absurd h (by decide)

theorem quote_notMem_unicode {u : List UInt8} (h : quote ∉ u) : quote ∉ backslash :: 0x75 :: u :=
  List.not_mem_cons_of_ne_of_not_mem (by decide) (List.not_mem_cons_of_ne_of_not_mem (by decide) h)

/-- Digits that are read from what was written end before its closing quote. -/
theorem exists_append_of_hex {hex s w r : List UInt8} (hhex : Hex hex)
    (h : hex ++ s = w ++ quote :: r) : ∃ w', w = hex ++ w' ∧ s = w' ++ quote :: r := by
  rcases List.append_eq_append_iff.mp h with ⟨w', hw, hs⟩ | ⟨u, hhex', hr⟩
  · exact ⟨w', hw, hs⟩
  · cases u with
    | nil =>
        rw [List.append_nil] at hhex'
        exact ⟨[], by rw [List.append_nil, hhex'], hr.symm⟩
    | cons b u =>
        obtain ⟨rfl, -⟩ := List.cons.inj hr
        exact (quote_notMem_hex hhex (hhex' ▸ List.mem_append_right _ List.mem_cons_self)).elim

theorem readsString_garbled {s v r' : List UInt8} (h : ReadsString s v r') :
    ∀ {w r : List UInt8}, s = w ++ quote :: r → Garbled w (cstr v) := by
  induction h with
  | done r' =>
      intro w r hs
      cases w with
      | nil => exact Or.inr (Or.inr ⟨rfl, fun b hb ↦ (List.not_mem_nil hb).elim⟩)
      | cons b w => exact Or.inr (Or.inl (Nat.succ_pos _))
  | @plain b s v r' hcontrol hquote hbackslash h ih =>
      intro w r hs
      have hnonzero : b ≠ 0 := fun hzero ↦ absurd (hzero ▸ hcontrol) (by decide)
      rw [cstr_cons hnonzero]
      cases w with
      | nil => exact (hquote (List.cons.inj hs).1).elim
      | cons a w =>
          obtain ⟨rfl, hrest⟩ := List.cons.inj hs
          rcases ih hrest with h | h | ⟨heq, hplain⟩
          · left
            rw [List.count_cons, List.count_cons]
            omega
          · exact Or.inr (Or.inl (Nat.succ_lt_succ h))
          · right
            right
            exact ⟨by rw [heq], List.forall_mem_cons.mpr ⟨⟨hcontrol, hquote, hbackslash⟩, hplain⟩⟩
  | @escape b e s v r' hescape h ih =>
      intro w r hs
      rw [cstr_cons (escapeOf_nonzero hescape)]
      have hquote : b = quote → e = quote := by
        rintro rfl
        exact (Option.some.inj hescape).symm
      rcases w with _ | ⟨a, _ | ⟨b', w⟩⟩
      · exact absurd (List.cons.inj hs).1 (by decide)
      · -- The escaped quote is the one behind the string.
        obtain ⟨rfl, hrest⟩ := List.cons.inj hs
        left
        rw [hquote (List.cons.inj hrest).1, List.count_cons_self]
        exact Nat.succ_pos _
      · simp only [List.cons_append, List.cons.injEq] at hs
        obtain ⟨rfl, rfl, hrest⟩ := hs
        refine (ih hrest).append (u := [backslash, b]) (e := [e]) (Nat.lt_succ_self 1) ?_
        by_cases hb : b = quote
        · rw [hb, hquote hb]
          decide
        · have hnot : quote ∉ [backslash, b] :=
            List.not_mem_cons_of_ne_of_not_mem (by decide) (by simpa using Ne.symm hb)
          rw [List.count_eq_zero_of_not_mem hnot]
          exact Nat.zero_le _
  | @unicode hex s v r' hhex hscalar h ih =>
      intro w r hs
      rcases w with _ | ⟨a, _ | ⟨b', w⟩⟩
      · exact absurd (List.cons.inj hs).1 (by decide)
      · exact absurd (List.cons.inj (List.cons.inj hs).2).1 (by decide)
      · simp only [List.cons_append, List.cons.injEq] at hs
        obtain ⟨rfl, rfl, hrest⟩ := hs
        obtain ⟨w', rfl, hs'⟩ := exists_append_of_hex hhex hrest
        rcases Nat.eq_zero_or_pos (hexNumber hex) with hzero | hpos
        · rw [hzero]
          exact Or.inr (Or.inl (Nat.succ_pos _))
        · rw [cstr_append (utf8_nonzero hpos)]
          have hlength := length_utf8_le (hexNumber hex)
          refine (ih hs').append (u := backslash :: 0x75 :: hex) ?_ ?_
          · simp only [List.length_cons, hhex.1]
            omega
          · rw [List.count_eq_zero_of_not_mem (quote_notMem_unicode (quote_notMem_hex hhex))]
            exact Nat.zero_le _
  | @pair high low s v r' hhigh hlow hlead htrail h ih =>
      intro w r hs
      rcases w with _ | ⟨a, _ | ⟨b', w⟩⟩
      · exact absurd (List.cons.inj hs).1 (by decide)
      · exact absurd (List.cons.inj (List.cons.inj hs).2).1 (by decide)
      · simp only [List.cons_append, List.cons.injEq] at hs
        obtain ⟨rfl, rfl, hrest⟩ := hs
        obtain ⟨w', rfl, hs⟩ := exists_append_of_hex hhigh hrest
        rcases w' with _ | ⟨a, _ | ⟨b', w'⟩⟩
        · exact absurd (List.cons.inj hs).1 (by decide)
        · exact absurd (List.cons.inj (List.cons.inj hs).2).1 (by decide)
        · simp only [List.cons_append, List.cons.injEq] at hs
          obtain ⟨rfl, rfl, hlast⟩ := hs
          obtain ⟨w'', rfl, hs'⟩ := exists_append_of_hex hlow hlast
          have hassoc : backslash :: 0x75 :: (high ++ backslash :: 0x75 :: (low ++ w'')) =
              (backslash :: 0x75 :: (high ++ backslash :: 0x75 :: low)) ++ w'' := by simp
          rw [hassoc, cstr_append (utf8_nonzero (by omega))]
          refine (ih hs').append ?_ ?_
          · refine (length_utf8_le _).trans_lt ?_
            simp only [List.length_cons, List.length_append, hhigh.1]
            omega
          · have hnot : quote ∉ high ++ backslash :: 0x75 :: low := by
              rw [List.mem_append, not_or]
              exact ⟨quote_notMem_hex hhigh, quote_notMem_unicode (quote_notMem_hex hlow)⟩
            rw [List.count_eq_zero_of_not_mem (quote_notMem_unicode hnot)]
            exact Nat.zero_le _

/-- A string that is not plain does not come back from between quotes. -/
theorem readsString_ne {w r v r' : List UInt8} (hw : ¬Plain w)
    (h : ReadsString (w ++ quote :: r) v r') : cstr v ≠ w := by
  rintro hsame
  rcases readsString_garbled h rfl with hcount | hlength | ⟨-, hplain⟩
  · rw [hsame] at hcount
    exact lt_irrefl _ hcount
  · rw [hsame] at hlength
    exact lt_irrefl _ hlength
  · exact hw hplain

/-! ## What was written as a value -/

/-- A value without parts, and the text it is written as. -/
inductive Written : List UInt8 → Json → Prop where
  | null : Written [0x6e, 0x75, 0x6c, 0x6c] .null
  | true : Written [0x74, 0x72, 0x75, 0x65] (.bool true)
  | false : Written [0x66, 0x61, 0x6c, 0x73, 0x65] (.bool false)
  | number {n : ℤ} (hlow : -2 ^ 31 ≤ n) (hhigh : n < 2 ^ 31) : Written (intText n) (.number n)
  | string {w : List UInt8} (hw : Plain w) : Written (quote :: (w ++ [quote])) (.string w)

theorem intText_cons (n : ℤ) : ∃ b u, intText n = b :: u ∧ (IsDigit b ∨ b = 0x2d) :=
  number_cons (number_intText n)

theorem first_of_number {w r s : List UInt8} {b : UInt8} (hw : Number w) (h : b :: s = w ++ r) :
    IsDigit b ∨ b = 0x2d := by
  obtain ⟨a, u, rfl, ha⟩ := number_cons hw
  rwa [(List.cons.inj h).1]

theorem Written.reads {w r : List UInt8} {v : Json} (h : Written w v)
    (hr : ∀ b ∈ r.head?, ¬NumberByte b) : ReadsValue (w ++ r) v r := by
  cases h with
  | null => exact .null r
  | true => exact .true r
  | false => exact .false r
  | @number n hlow hhigh =>
      exact .number n (number_intText n) hr fun m _ _ hm ↦ intText_injective hm
  | @string w hw =>
      rw [List.cons_append, List.append_assoc]
      exact .string (readsString_plain hw r)

theorem not_digit_literal : ¬(IsDigit 0x6e ∨ (0x6e : UInt8) = 0x2d) ∧
    ¬(IsDigit 0x74 ∨ (0x74 : UInt8) = 0x2d) ∧ ¬(IsDigit 0x66 ∨ (0x66 : UInt8) = 0x2d) ∧
      ¬(IsDigit quote ∨ quote = 0x2d) := by
  unfold IsDigit
  decide

/-- A string is read from what begins with a quote. -/
theorem readsValue_quote {s r : List UInt8} {v : Json} (h : ReadsValue (quote :: s) v r) :
    ∃ d, v = .string d ∧ ReadsString s d r := by
  generalize hs : quote :: s = t at h
  cases h with
  | string h =>
      cases hs
      exact ⟨_, rfl, h⟩
  | number n hw => exact (not_digit_literal.2.2.2 (first_of_number hw hs)).elim
  | null => cases hs
  | true => cases hs
  | false => cases hs
  | emptyArray => cases hs
  | array => cases hs
  | emptyObject => cases hs
  | object => cases hs

theorem readsValue_intText {n : ℤ} (hlow : -2 ^ 31 ≤ n) (hhigh : n < 2 ^ 31) {r r' : List UInt8}
    {v : Json} (hr : ∀ b ∈ r.head?, ¬NumberByte b) (h : ReadsValue (intText n ++ r) v r') :
    v = .number n ∧ r' = r := by
  obtain ⟨b, u, hb, hdigit⟩ := intText_cons n
  have hfirst : ∀ {a : UInt8} {s : List UInt8}, intText n ++ r = a :: s → IsDigit a ∨ a = 0x2d := by
    intro a s hs
    rw [hb] at hs
    rwa [← (List.cons.inj hs).1]
  generalize hs : intText n ++ r = t at h
  cases h with
  | number m hw hend hint =>
      obtain ⟨rfl, rfl⟩ := numberByte_run (intText_numberByte n) (number_numberByte hw) hr hend hs
      exact ⟨by rw [hint n hlow hhigh rfl], rfl⟩
  | string h => exact (not_digit_literal.2.2.2 (hfirst hs)).elim
  | null => exact (not_digit_literal.1 (hfirst hs)).elim
  | true => exact (not_digit_literal.2.1 (hfirst hs)).elim
  | false => exact (not_digit_literal.2.2.1 (hfirst hs)).elim
  | emptyArray => exact absurd (hfirst hs) (by unfold IsDigit; decide)
  | array => exact absurd (hfirst hs) (by unfold IsDigit; decide)
  | emptyObject => exact absurd (hfirst hs) (by unfold IsDigit; decide)
  | object => exact absurd (hfirst hs) (by unfold IsDigit; decide)

theorem Written.reads_unique {w r r' : List UInt8} {v v' : Json} (hw : Written w v)
    (hr : ∀ b ∈ r.head?, ¬NumberByte b) (h : ReadsValue (w ++ r) v' r') : v' = v ∧ r' = r := by
  cases hw with
  | null =>
      generalize hs : [0x6e, 0x75, 0x6c, 0x6c] ++ r = t at h
      cases h with
      | null =>
          cases hs
          exact ⟨rfl, rfl⟩
      | number n hw => exact (not_digit_literal.1 (first_of_number hw hs)).elim
      | _ => cases hs
  | true =>
      generalize hs : [0x74, 0x72, 0x75, 0x65] ++ r = t at h
      cases h with
      | true =>
          cases hs
          exact ⟨rfl, rfl⟩
      | number n hw => exact (not_digit_literal.2.1 (first_of_number hw hs)).elim
      | _ => cases hs
  | false =>
      generalize hs : [0x66, 0x61, 0x6c, 0x73, 0x65] ++ r = t at h
      cases h with
      | false =>
          cases hs
          exact ⟨rfl, rfl⟩
      | number n hw => exact (not_digit_literal.2.2.1 (first_of_number hw hs)).elim
      | _ => cases hs
  | number hlow hhigh => exact readsValue_intText hlow hhigh hr h
  | @string w hw =>
      rw [List.cons_append, List.append_assoc] at h
      obtain ⟨d, rfl, hd⟩ := readsValue_quote h
      obtain ⟨rfl, rfl⟩ := readsString_of_plain hw hd
      exact ⟨rfl, rfl⟩

/-! ## Objects -/

theorem skip_cons {b : UInt8} (hb : isBlank b = false) (s : List UInt8) : skip (b :: s) = b :: s :=
  List.dropWhile_cons_of_neg (by rw [hb]; decide)

theorem NumberByte.not_blank {b : UInt8} (h : NumberByte b) : isBlank b = false := by
  by_contra hblank
  rw [Bool.not_eq_false] at hblank
  simp only [isBlank, Bool.or_eq_true, decide_eq_true_eq] at hblank
  unfold NumberByte IsDigit at h
  rcases hblank with ((rfl | rfl) | rfl) | rfl <;> exact absurd h (by decide)

theorem Written.skip_eq {w : List UInt8} {v : Json} (h : Written w v) (r : List UInt8) :
    skip (w ++ r) = w ++ r := by
  cases h with
  | null => rfl
  | true => rfl
  | false => rfl
  | @number n =>
      obtain ⟨b, u, hb, -⟩ := intText_cons n
      have hnumber := intText_numberByte n b (hb ▸ List.mem_cons_self)
      rw [hb, List.cons_append, skip_cons hnumber.not_blank]
  | string => rfl

/-- The first member, with what it leaves. -/
theorem readsMembers_skip_iff {k s r : List UInt8} {members : List (List UInt8 × Json)}
    (hk : Plain k) :
    ReadsMembers (quote :: (k ++ quote :: colon :: s)) members r ↔
      ∃ v t, ReadsValue (skip s) v t ∧ ((members = [(k, v)] ∧ skip t = rbrace :: r) ∨
        ∃ u rest, members = (k, v) :: rest ∧ skip t = comma :: u ∧ ReadsMembers u rest r) := by
  have hquote : ∀ t, skip (quote :: t) = quote :: t := fun t ↦ skip_cons (by decide) t
  have hcolon : ∀ t, skip (colon :: t) = colon :: t := fun t ↦ skip_cons (by decide) t
  have hkey : ∀ {s' k' t t' : List UInt8},
    skip (quote :: (k ++ quote :: colon :: s)) = quote :: s' →
      ReadsString s' k' t → skip t = colon :: t' → k' = k ∧ t' = s := by
    intro s' k' t t' hs' hread ht
    rw [hquote] at hs'
    obtain ⟨-, rfl⟩ := List.cons.inj hs'
    obtain ⟨rfl, rfl⟩ := readsString_of_plain hk hread
    rw [hcolon] at ht
    obtain ⟨-, rfl⟩ := List.cons.inj ht
    exact ⟨rfl, rfl⟩
  constructor
  · intro h
    cases h with
    | one hstart hread hmid hvalue hend =>
        obtain ⟨rfl, rfl⟩ := hkey hstart hread hmid
        exact ⟨_, _, hvalue, Or.inl ⟨rfl, hend⟩⟩
    | more hstart hread hmid hvalue hcomma hrest =>
        obtain ⟨rfl, rfl⟩ := hkey hstart hread hmid
        exact ⟨_, _, hvalue, Or.inr ⟨_, _, rfl, hcomma, hrest⟩⟩
  · rintro ⟨v, t, hvalue, ⟨rfl, hend⟩ | ⟨u, rest, rfl, hcomma, hrest⟩⟩
    · exact .one (hquote _) (readsString_plain hk _) (hcolon _) hvalue hend
    · exact .more (hquote _) (readsString_plain hk _) (hcolon _) hvalue hcomma hrest

theorem readsMembers_iff {k s r : List UInt8} {members : List (List UInt8 × Json)} (hk : Plain k)
    (hs : skip s = s) :
    ReadsMembers (quote :: (k ++ quote :: colon :: s)) members r ↔
      ∃ v t, ReadsValue s v t ∧ ((members = [(k, v)] ∧ skip t = rbrace :: r) ∨
        ∃ u rest, members = (k, v) :: rest ∧ skip t = comma :: u ∧ ReadsMembers u rest r) := by
  rw [readsMembers_skip_iff hk, hs]

theorem readsValue_object_iff {s r : List UInt8} {v : Json} :
    ReadsValue (lbrace :: s) v r ↔ (skip s = rbrace :: r ∧ v = .object []) ∨
      ∃ members, ReadsMembers s members r ∧ v = .object members := by
  constructor
  · intro h
    generalize hs : lbrace :: s = t at h
    cases h with
    | emptyObject h =>
        cases hs
        exact Or.inl ⟨h, rfl⟩
    | object h =>
        cases hs
        exact Or.inr ⟨_, h, rfl⟩
    | number n hw => exact absurd (first_of_number hw hs) (by unfold IsDigit; decide)
    | _ => cases hs
  · rintro (⟨h, rfl⟩ | ⟨members, h, rfl⟩)
    · exact .emptyObject h
    · exact .object h

theorem readsValue_array_iff {s r : List UInt8} {v : Json} :
    ReadsValue (lbracket :: s) v r ↔ (skip s = rbracket :: r ∧ v = .array []) ∨
      ∃ items, ReadsItems s items r ∧ v = .array items := by
  constructor
  · intro h
    generalize hs : lbracket :: s = t at h
    cases h with
    | emptyArray h =>
        cases hs
        exact Or.inl ⟨h, rfl⟩
    | array h =>
        cases hs
        exact Or.inr ⟨_, h, rfl⟩
    | number n hw => exact absurd (first_of_number hw hs) (by unfold IsDigit; decide)
    | _ => cases hs
  · rintro (⟨h, rfl⟩ | ⟨items, h, rfl⟩)
    · exact .emptyArray h
    · exact .array h

theorem readsText_object_iff {s : List UInt8} {v : Json} :
    ReadsText (lbrace :: s) v ↔ ∃ r, skip r = [] ∧ ((skip s = rbrace :: r ∧ v = .object []) ∨
      ∃ members, ReadsMembers s members r ∧ v = .object members) := by
  unfold ReadsText
  simp only [skip_cons (b := lbrace) (by decide), readsValue_object_iff, and_comm]

/-! ## Reading in front of other text -/

theorem skip_append {s : List UInt8} (h : skip s ≠ []) (tail : List UInt8) :
    skip (s ++ tail) = skip s ++ tail := by
  unfold skip at h ⊢
  induction s with
  | nil => exact (h rfl).elim
  | cons b s ih =>
      cases hb : isBlank b with
      | true =>
          rw [List.dropWhile_cons_of_pos hb] at h ⊢
          rw [List.cons_append, List.dropWhile_cons_of_pos hb, ih h]
      | false =>
          rw [List.cons_append, List.dropWhile_cons_of_neg (by simp [hb]),
            List.dropWhile_cons_of_neg (by simp [hb]), List.cons_append]

theorem skip_append_of_eq_cons {s r : List UInt8} {b : UInt8} (h : skip s = b :: r)
    (tail : List UInt8) : skip (s ++ tail) = b :: (r ++ tail) := by
  rw [skip_append (by simp [h]), h, List.cons_append]

theorem skip_append_of_eq_nil {s : List UInt8} (h : skip s = []) (tail : List UInt8) :
    skip (s ++ tail) = skip tail := by
  unfold skip at h ⊢
  rw [List.dropWhile_append, h]
  rfl

theorem ReadsString.append {s v r : List UInt8} (h : ReadsString s v r) (tail : List UInt8) :
    ReadsString (s ++ tail) v (r ++ tail) := by
  induction h with
  | done r => exact .done (r ++ tail)
  | plain hcontrol hquote hbackslash _ ih => exact .plain hcontrol hquote hbackslash ih
  | escape hescape _ ih => exact .escape hescape ih
  | unicode hhex hscalar _ ih =>
      rw [List.cons_append, List.cons_append, List.append_assoc]
      exact .unicode hhex hscalar ih
  | pair hhigh hlow hlead htrail _ ih =>
      simp only [List.cons_append, List.append_assoc]
      exact .pair hhigh hlow hlead htrail ih

theorem ReadsValue.ne_nil {s r : List UInt8} {v : Json} (h : ReadsValue s v r) : s ≠ [] := by
  cases h with
  | number n hw =>
      obtain ⟨b, u, rfl, -⟩ := number_cons hw
      simp
  | _ => simp

variable {tail : List UInt8}

mutual

/-- Text that cannot go on with a number is left as it is. -/
theorem ReadsValue.append {s r : List UInt8} {v : Json} (htail : ∀ b ∈ tail.head?, ¬NumberByte b) :
    ReadsValue s v r → ReadsValue (s ++ tail) v (r ++ tail)
  | .null r => .null (r ++ tail)
  | .true r => .true (r ++ tail)
  | .false r => .false (r ++ tail)
  | .number (w := w) n hw hend hint => by
      rw [List.append_assoc]
      refine .number n hw ?_ hint
      cases r with
      | nil => exact htail
      | cons b r => exact hend
  | .string h => .string (h.append tail)
  | .emptyArray h => .emptyArray (skip_append_of_eq_cons h tail)
  | .array h => .array (h.append htail)
  | .emptyObject h => .emptyObject (skip_append_of_eq_cons h tail)
  | .object h => .object (h.append htail)

theorem ReadsItems.append {s r : List UInt8} {items : List Json}
    (htail : ∀ b ∈ tail.head?, ¬NumberByte b) :
    ReadsItems s items r → ReadsItems (s ++ tail) items (r ++ tail)
  | .one h hend => by
      refine .one ?_ (skip_append_of_eq_cons hend tail)
      rw [skip_append h.ne_nil]
      exact h.append htail
  | .more h hcomma hrest => by
      refine .more ?_ (skip_append_of_eq_cons hcomma tail) (hrest.append htail)
      rw [skip_append h.ne_nil]
      exact h.append htail

theorem ReadsMembers.append {s r : List UInt8} {members : List (List UInt8 × Json)}
    (htail : ∀ b ∈ tail.head?, ¬NumberByte b) :
    ReadsMembers s members r → ReadsMembers (s ++ tail) members (r ++ tail)
  | .one hquote hkey hcolon h hend => by
      refine .one (skip_append_of_eq_cons hquote tail) (hkey.append tail)
        (skip_append_of_eq_cons hcolon tail) ?_ (skip_append_of_eq_cons hend tail)
      rw [skip_append h.ne_nil]
      exact h.append htail
  | .more hquote hkey hcolon h hcomma hrest => by
      refine .more (skip_append_of_eq_cons hquote tail) (hkey.append tail)
        (skip_append_of_eq_cons hcolon tail) ?_ (skip_append_of_eq_cons hcomma tail)
        (hrest.append htail)
      rw [skip_append h.ne_nil]
      exact h.append htail

end

end JsonRead
