import Mathlib.Data.Bool.AllAny
import Mathlib.Data.List.Basic
import Mathlib.Tactic.Ring
import TuyaOpen.Utilities.MixMethod

/-!
# The short form of a device id

`tuya_ble_id_compress` of `ble_cryption.c` packs twenty letters and digits into fifteen bytes, six
bits each.  What is neither leaves in its place of `temp` what an earlier group, or the stack, had
there.
-/

namespace TuyaOpen.Ble

open Utilities

@[ext]
structure IdTemp where
  t0 : UInt8
  t1 : UInt8
  t2 : UInt8
  t3 : UInt8
  deriving DecidableEq

def idChar (c temp : UInt8) : UInt8 :=
  if 0x30 ≤ c ∧ c ≤ 0x39 then c - 0x30
  else if 0x41 ≤ c ∧ c ≤ 0x5A then c - 0x41 + 36
  else if 0x61 ≤ c ∧ c ≤ 0x7A then c - 0x61 + 10
  else temp

def idByte0 (t0 t1 : UInt8) : UInt8 := (t0 &&& 0x3F) <<< 2 ||| ((t1 >>> 4) &&& 0x03)
def idByte1 (t1 t2 : UInt8) : UInt8 := (t1 &&& 0x0F) <<< 4 ||| ((t2 >>> 2) &&& 0x0F)
def idByte2 (t2 t3 : UInt8) : UInt8 := (t2 &&& 0x03) <<< 6 ||| (t3 &&& 0x3F)

/-- The groups of four characters, as many as the counter says. -/
def idGroups : ℕ → IdTemp → List UInt8 → List UInt8
  | i + 1, temp, a :: b :: c :: d :: input =>
    let t : IdTemp := ⟨idChar a temp.t0, idChar b temp.t1, idChar c temp.t2, idChar d temp.t3⟩
    idByte0 t.t0 t.t1 :: idByte1 t.t1 t.t2 :: idByte2 t.t2 t.t3 :: idGroups i t input
  | _, _, _ => []

/-- `temp` is what the stack holds on entry, and `input` the bytes from `in` on. -/
def tuyaBleIdCompress (temp : IdTemp) (input : List UInt8) : List UInt8 :=
  idGroups 5 temp input ++ [0xFF]

def IsAlnum (c : UInt8) : Prop :=
  (0x30 ≤ c ∧ c ≤ 0x39) ∨ (0x41 ≤ c ∧ c ≤ 0x5A) ∨ (0x61 ≤ c ∧ c ≤ 0x7A)

instance (c : UInt8) : Decidable (IsAlnum c) := inferInstanceAs (Decidable (_ ∨ _))

@[ext]
structure BleId where
  chars : List UInt8
  length_eq : chars.length = 20
  alnum : ∀ c ∈ chars, IsAlnum c

/-- The character of a six-bit field. -/
def idCharOf (v : UInt8) : UInt8 :=
  if v < 10 then v + 0x30 else if v < 36 then v - 10 + 0x61 else v - 36 + 0x41

theorem idChar_temp {c : UInt8} (hc : IsAlnum c) (temp : UInt8) : idChar c temp = idChar c 0 := by
  simp only [idChar]
  split_ifs with hdigit hupper hlower
  · rfl
  · rfl
  · rfl
  · rcases hc with hc | hc | hc
    · exact absurd hc hdigit
    · exact absurd hc hupper
    · exact absurd hc hlower

theorem idCharOf_idChar (c : UInt8) : IsAlnum c → idChar c 0 < 64 ∧ idCharOf (idChar c 0) = c := by
  revert c
  apply forall_uint8
  decide +kernel

theorem toNat_mask (c : UInt8) {k : ℕ} (hk : k < 8) :
    (c &&& UInt8.ofNat (2 ^ k - 1)).toNat = c.toNat % 2 ^ k := by
  have hpow : 2 ^ k ≤ 2 ^ 7 := Nat.pow_le_pow_right (by decide) (Nat.le_of_lt_succ hk)
  rw [UInt8.toNat_and, UInt8.toNat_ofNat', Nat.mod_eq_of_lt (by omega),
    Nat.and_two_pow_sub_one_eq_mod]

theorem toNat_down (c k : UInt8) (hk : k.toNat < 8) : (c >>> k).toNat = c.toNat / 2 ^ k.toNat := by
  rw [UInt8.toNat_shiftRight, Nat.mod_eq_of_lt hk, Nat.shiftRight_eq_div_pow]

theorem toNat_pack {j k : ℕ} (hjk : j + k = 8) (hj : j < 8) (hk : k < 8) (t u : UInt8) :
    ((t &&& UInt8.ofNat (2 ^ j - 1)) <<< UInt8.ofNat k ||| (u &&& UInt8.ofNat (2 ^ k - 1))).toNat =
      t.toNat % 2 ^ j * 2 ^ k + u.toNat % 2 ^ k := by
  have hshift : (UInt8.ofNat k).toNat % 8 = k := by
    rw [UInt8.toNat_ofNat']
    omega
  have hhigh : t.toNat % 2 ^ j * 2 ^ k < 2 ^ 8 := by
    rw [← hjk, pow_add]
    exact Nat.mul_lt_mul_of_pos_right (Nat.mod_lt _ (Nat.two_pow_pos j)) (Nat.two_pow_pos k)
  rw [UInt8.toNat_or, UInt8.toNat_shiftLeft, toNat_mask t hj, toNat_mask u hk, hshift,
    Nat.shiftLeft_eq, Nat.mod_eq_of_lt hhigh, ← Nat.shiftLeft_eq,
    ← Nat.shiftLeft_add_eq_or_of_lt (Nat.mod_lt _ (Nat.two_pow_pos k))]

theorem toNat_idByte0 (t u : UInt8) :
    (idByte0 t u).toNat = t.toNat % 64 * 4 + u.toNat / 16 % 4 := by
  have hdown : (u >>> 4).toNat = u.toNat / 16 := toNat_down u 4 (by decide)
  rw [← hdown]
  exact toNat_pack (j := 6) (k := 2) rfl (by decide) (by decide) t (u >>> 4)

theorem toNat_idByte1 (t u : UInt8) :
    (idByte1 t u).toNat = t.toNat % 16 * 16 + u.toNat / 4 % 16 := by
  have hdown : (u >>> 2).toNat = u.toNat / 4 := toNat_down u 2 (by decide)
  rw [← hdown]
  exact toNat_pack (j := 4) (k := 4) rfl (by decide) (by decide) t (u >>> 2)

theorem toNat_idByte2 (t u : UInt8) :
    (idByte2 t u).toNat = t.toNat % 4 * 64 + u.toNat % 64 :=
  toNat_pack (j := 2) (k := 6) rfl (by decide) (by decide) t u

theorem fields_inj {m a b a' b' : ℕ} (hb : b < m) (hb' : b' < m) (h : a * m + b = a' * m + b') :
    a = a' ∧ b = b' := by
  have hm : 0 < m := Nat.lt_of_le_of_lt (Nat.zero_le b) hb
  have hquot : a = a' := by
    have hdiv := congrArg (· / m) h
    simpa only [Nat.mul_comm _ m, Nat.mul_add_div hm, Nat.div_eq_of_lt hb, Nat.div_eq_of_lt hb',
      Nat.add_zero] using hdiv
  subst hquot
  exact ⟨rfl, Nat.add_left_cancel h⟩

theorem idBytes_inj {t u : IdTemp} (ht : t.t0 < 64 ∧ t.t1 < 64 ∧ t.t2 < 64 ∧ t.t3 < 64)
    (hu : u.t0 < 64 ∧ u.t1 < 64 ∧ u.t2 < 64 ∧ u.t3 < 64)
    (h0 : idByte0 t.t0 t.t1 = idByte0 u.t0 u.t1) (h1 : idByte1 t.t1 t.t2 = idByte1 u.t1 u.t2)
    (h2 : idByte2 t.t2 t.t3 = idByte2 u.t2 u.t3) : t = u := by
  simp only [← UInt8.toNat_inj, UInt8.lt_iff_toNat_lt, toNat_idByte0, toNat_idByte1,
    toNat_idByte2, UInt8.toNat_ofNat] at ht hu h0 h1 h2
  obtain ⟨e0, high1⟩ := fields_inj (Nat.mod_lt _ (by decide)) (Nat.mod_lt _ (by decide)) h0
  obtain ⟨low1, high2⟩ := fields_inj (Nat.mod_lt _ (by decide)) (Nat.mod_lt _ (by decide)) h1
  obtain ⟨low2, e3⟩ := fields_inj (Nat.mod_lt _ (by decide)) (Nat.mod_lt _ (by decide)) h2
  clear h0 h1 h2
  apply IdTemp.ext
  all_goals
    apply UInt8.toNat_inj.mp
    omega

theorem idChar_inj {c d temp temp' : UInt8} (hc : IsAlnum c) (hd : IsAlnum d)
    (h : idChar c temp = idChar d temp') : c = d := by
  rw [idChar_temp hc, idChar_temp hd] at h
  rw [← (idCharOf_idChar c hc).2, h, (idCharOf_idChar d hd).2]

theorem idChar_lt {c : UInt8} (hc : IsAlnum c) (temp : UInt8) : idChar c temp < 64 := by
  rw [idChar_temp hc]
  exact (idCharOf_idChar c hc).1

theorem idGroups_inj (n : ℕ) (temp temp' : IdTemp) {xs ys : List UInt8} (hx : xs.length = 4 * n)
    (hy : ys.length = 4 * n) (halnumx : ∀ c ∈ xs, IsAlnum c) (halnumy : ∀ c ∈ ys, IsAlnum c)
    (h : idGroups n temp xs = idGroups n temp' ys) : xs = ys := by
  induction n generalizing temp temp' xs ys with
  | zero => rw [List.length_eq_zero_iff.mp hx, List.length_eq_zero_iff.mp hy]
  | succ n ih =>
      obtain ⟨a, b, c, d, xs, rfl⟩ : ∃ a b c d xs', xs = a :: b :: c :: d :: xs' := by
        rcases xs with _ | ⟨a, _ | ⟨b, _ | ⟨c, _ | ⟨d, xs⟩⟩⟩⟩
        case cons.cons.cons.cons => exact ⟨a, b, c, d, xs, rfl⟩
        all_goals exact absurd hx (by simp; try omega)
      obtain ⟨a', b', c', d', ys, rfl⟩ : ∃ a b c d ys', ys = a :: b :: c :: d :: ys' := by
        rcases ys with _ | ⟨a, _ | ⟨b, _ | ⟨c, _ | ⟨d, ys⟩⟩⟩⟩
        case cons.cons.cons.cons => exact ⟨a, b, c, d, ys, rfl⟩
        all_goals exact absurd hy (by simp; try omega)
      simp only [List.forall_mem_cons] at halnumx halnumy
      obtain ⟨ha, hb, hc, hd, halnumx⟩ := halnumx
      obtain ⟨ha', hb', hc', hd', halnumy⟩ := halnumy
      simp only [idGroups, List.cons.injEq] at h
      obtain ⟨h0, h1, h2, hrest⟩ := h
      have hsame := idBytes_inj
        (t := ⟨idChar a temp.t0, idChar b temp.t1, idChar c temp.t2, idChar d temp.t3⟩)
        (u := ⟨idChar a' temp'.t0, idChar b' temp'.t1, idChar c' temp'.t2, idChar d' temp'.t3⟩)
        ⟨idChar_lt ha _, idChar_lt hb _, idChar_lt hc _, idChar_lt hd _⟩
        ⟨idChar_lt ha' _, idChar_lt hb' _, idChar_lt hc' _, idChar_lt hd' _⟩ h0 h1 h2
      obtain ⟨e0, e1, e2, e3⟩ := IdTemp.mk.inj hsame
      have hxs : xs.length = 4 * n := by
        simp only [List.length_cons] at hx
        omega
      have hys : ys.length = 4 * n := by
        simp only [List.length_cons] at hy
        omega
      rw [idChar_inj ha ha' e0, idChar_inj hb hb' e1, idChar_inj hc hc' e2, idChar_inj hd hd' e3,
        ih _ _ hxs hys halnumx halnumy hrest]

/-- Of letters and digits nothing is left in `temp` from before. -/
theorem idGroups_temp (n : ℕ) (temp temp' : IdTemp) {xs : List UInt8}
    (halnum : ∀ c ∈ xs, IsAlnum c) : idGroups n temp xs = idGroups n temp' xs := by
  induction n generalizing temp temp' xs with
  | zero => rfl
  | succ n ih =>
      rcases xs with _ | ⟨a, _ | ⟨b, _ | ⟨c, _ | ⟨d, xs⟩⟩⟩⟩
      case cons.cons.cons.cons =>
        simp only [List.forall_mem_cons] at halnum
        obtain ⟨ha, hb, hc, hd, hxs⟩ := halnum
        simp only [idGroups, idChar_temp ha, idChar_temp hb, idChar_temp hc, idChar_temp hd,
          ih _ temp' hxs]
      all_goals rfl

/-- Two ids have the same sixteen bytes just when they are one, whatever was on the stack. -/
theorem tuyaBleIdCompress_inj {id id' : BleId} (temp temp' : IdTemp) :
    tuyaBleIdCompress temp id.chars = tuyaBleIdCompress temp' id'.chars ↔ id = id' := by
  constructor
  · intro h
    apply BleId.ext
    apply idGroups_inj 5 temp temp' id.length_eq id'.length_eq id.alnum id'.alnum
    exact List.append_cancel_right h
  · rintro rfl
    rw [tuyaBleIdCompress, tuyaBleIdCompress, idGroups_temp 5 temp temp' id.alnum]

end TuyaOpen.Ble
