import Mathlib.Algebra.Order.BigOperators.Group.List
import Mathlib.Data.List.Perm.Subperm
import TuyaOpen.Lib.JsonRead

/-!
# The room that a JSON text takes

A name takes its length between the quotes, and more where something of it is escaped.  With the
punctuation around it that bounds the members that a text of some length can have.
-/

namespace JsonRead

open JsonText

instance : DecidablePred PlainByte := fun b ↦
  decidable_of_iff (0x20 ≤ b ∧ b ≠ quote ∧ b ≠ backslash)
    ⟨fun ⟨hcontrol, hquote, hbackslash⟩ ↦ ⟨hcontrol, hquote, hbackslash⟩,
      fun h ↦ ⟨h.control, h.quote, h.backslash⟩⟩

instance (w : List UInt8) : Decidable (Plain w) := List.decidableBAll _ w

theorem length_cstr_append_le (u v : List UInt8) :
    (cstr (u ++ v)).length ≤ u.length + (cstr v).length := by
  induction u with
  | nil => exact (Nat.zero_add _).ge
  | cons b u ih =>
      by_cases hb : b = 0
      · subst hb
        exact Nat.zero_le _
      · rw [List.cons_append, cstr_cons hb, List.length_cons, List.length_cons]
        omega

/-- A string is no longer than its text, and shorter where something of it is escaped. -/
theorem readsString_length {s v r : List UInt8} (h : ReadsString s v r) :
    ∃ w, s = w ++ quote :: r ∧ (cstr v).length ≤ w.length ∧
      ((cstr v).length = w.length → Plain (cstr v)) := by
  induction h with
  | done r => exact ⟨[], rfl, Nat.le_refl 0, fun _ b hb ↦ (List.not_mem_nil hb).elim⟩
  | @plain b s v r hcontrol hquote hbackslash h ih =>
      obtain ⟨w, rfl, hle, hplain⟩ := ih
      have hnonzero : b ≠ 0 := fun hzero ↦ absurd (hzero ▸ hcontrol) (by decide)
      rw [cstr_cons hnonzero]
      refine ⟨b :: w, rfl, Nat.succ_le_succ hle, fun heq ↦ ?_⟩
      exact List.forall_mem_cons.mpr ⟨⟨hcontrol, hquote, hbackslash⟩, hplain (Nat.succ.inj heq)⟩
  | @escape b e s v r hescape h ih =>
      obtain ⟨w, rfl, hle, -⟩ := ih
      rw [cstr_cons (escapeOf_nonzero hescape)]
      have hlt : (e :: cstr v).length < (backslash :: b :: w).length :=
        Nat.succ_lt_succ (Nat.lt_succ_of_le hle)
      exact ⟨backslash :: b :: w, rfl, hlt.le, fun heq ↦ (hlt.ne heq).elim⟩
  | @unicode hex s v r hhex hscalar h ih =>
      obtain ⟨w, rfl, hle, -⟩ := ih
      have hcstr := length_cstr_append_le (utf8 (hexNumber hex)) v
      have hutf8 := length_utf8_le (hexNumber hex)
      have hlt : (cstr (utf8 (hexNumber hex) ++ v)).length <
          (backslash :: 0x75 :: (hex ++ w)).length := by
        simp only [List.length_cons, List.length_append, hhex.1]
        omega
      exact ⟨backslash :: 0x75 :: (hex ++ w), by simp, hlt.le, fun heq ↦ (hlt.ne heq).elim⟩
  | @pair high low s v r hhigh hlow hlead htrail h ih =>
      obtain ⟨w, rfl, hle, -⟩ := ih
      have hcstr := length_cstr_append_le
        (utf8 (0x10000 + (hexNumber high - 0xd800) * 0x400 + (hexNumber low - 0xdc00))) v
      have hutf8 := length_utf8_le
        (0x10000 + (hexNumber high - 0xd800) * 0x400 + (hexNumber low - 0xdc00))
      have hlt : (cstr (utf8 (0x10000 + (hexNumber high - 0xd800) * 0x400 +
          (hexNumber low - 0xdc00)) ++ v)).length <
            (backslash :: 0x75 :: (high ++ backslash :: 0x75 :: (low ++ w))).length := by
        simp only [List.length_cons, List.length_append, hhigh.1, hlow.1]
        omega
      exact ⟨_, by simp, hlt.le, fun heq ↦ (hlt.ne heq).elim⟩

/-- What a text leaves, behind a byte that is no blank. -/
def Leaves (s r : List UInt8) : Prop := ∃ b, isBlank b = false ∧ b :: r <:+ s

theorem Leaves.suffix {s s' r : List UInt8} (h : Leaves s r) (hs : s <:+ s') : Leaves s' r := by
  obtain ⟨b, hb, hsuffix⟩ := h
  exact ⟨b, hb, hsuffix.trans hs⟩

theorem Leaves.length_lt {s r : List UInt8} (h : Leaves s r) : r.length < s.length := by
  obtain ⟨b, -, hsuffix⟩ := h
  exact hsuffix.length_le

theorem Leaves.tail {s r : List UInt8} (h : Leaves s r) : r <:+ s := by
  obtain ⟨b, -, hsuffix⟩ := h
  exact (List.suffix_cons b r).trans hsuffix

theorem skip_suffix (s : List UInt8) : skip s <:+ s := List.dropWhile_suffix _

theorem leaves_of_skip {s r : List UInt8} {b : UInt8} (hb : isBlank b = false)
    (h : skip s = b :: r) : Leaves s r :=
  ⟨b, hb, h ▸ skip_suffix s⟩

theorem ReadsString.leaves {s v r : List UInt8} (h : ReadsString s v r) : Leaves s r := by
  obtain ⟨w, rfl, -⟩ := readsString_length h
  exact ⟨quote, by decide, List.suffix_append w _⟩

theorem leaves_number {w r : List UInt8} (hw : Number w) : Leaves (w ++ r) r := by
  obtain ⟨b, u, hcons, -⟩ := number_cons hw
  have hne : w ≠ [] := hcons ▸ List.cons_ne_nil b u
  refine ⟨w.getLast hne, (number_numberByte hw _ (List.getLast_mem hne)).not_blank,
    w.dropLast, ?_⟩
  rw [← List.singleton_append, ← List.append_assoc, List.dropLast_append_getLast]

mutual

theorem ReadsValue.leaves {s r : List UInt8} {v : Json} : ReadsValue s v r → Leaves s r
  | .null r => ⟨0x6c, by decide, [0x6e, 0x75, 0x6c], rfl⟩
  | .true r => ⟨0x65, by decide, [0x74, 0x72, 0x75], rfl⟩
  | .false r => ⟨0x65, by decide, [0x66, 0x61, 0x6c, 0x73], rfl⟩
  | .number n hw hend hint => leaves_number hw
  | .string h => h.leaves.suffix (List.suffix_cons _ _)
  | .emptyArray h => (leaves_of_skip (by decide) h).suffix (List.suffix_cons _ _)
  | .array h => h.leaves.suffix (List.suffix_cons _ _)
  | .emptyObject h => (leaves_of_skip (by decide) h).suffix (List.suffix_cons _ _)
  | .object h => h.leaves.suffix (List.suffix_cons _ _)

theorem ReadsItems.leaves {s r : List UInt8} {items : List Json} : ReadsItems s items r → Leaves s r
  | .one h hend => by
      have hvalue := h.leaves.tail.trans (skip_suffix s)
      exact (leaves_of_skip (by decide) hend).suffix hvalue
  | .more h hcomma hrest => by
      have hvalue := h.leaves.tail.trans (skip_suffix s)
      have hbehind := (leaves_of_skip (by decide) hcomma).tail
      exact hrest.leaves.suffix (hbehind.trans hvalue)

theorem ReadsMembers.leaves {s r : List UInt8} {members : List (List UInt8 × Json)} :
    ReadsMembers s members r → Leaves s r
  | .one hquote hkey hcolon h hend => by
      have hvalue := h.leaves.tail.trans (skip_suffix _)
      have hname := (leaves_of_skip (by decide) hcolon).tail.trans
        (hkey.leaves.tail.trans (leaves_of_skip (by decide) hquote).tail)
      exact (leaves_of_skip (by decide) hend).suffix (hvalue.trans hname)
  | .more hquote hkey hcolon h hcomma hrest => by
      have hvalue := h.leaves.tail.trans (skip_suffix _)
      have hname := (leaves_of_skip (by decide) hcolon).tail.trans
        (hkey.leaves.tail.trans (leaves_of_skip (by decide) hquote).tail)
      have hbehind := (leaves_of_skip (by decide) hcomma).tail
      exact hrest.leaves.suffix (hbehind.trans (hvalue.trans hname))

end

/-- What a name takes between its quotes, at least. -/
def nameRoom (w : List UInt8) : ℕ := w.length + if Plain w then 0 else 1

/-- What members take with quotes, colons, commas and values, at least. -/
def membersRoom (members : List (List UInt8 × Json)) : ℕ :=
  (members.map fun member ↦ nameRoom (cstr member.1) + 5).sum

theorem membersRoom_cons (member : List UInt8 × Json) (members : List (List UInt8 × Json)) :
    membersRoom (member :: members) = nameRoom (cstr member.1) + 5 + membersRoom members :=
  List.sum_cons

theorem ReadsString.room {s v r : List UInt8} (h : ReadsString s v r) :
    nameRoom (cstr v) + 1 + r.length ≤ s.length := by
  obtain ⟨w, rfl, hle, hplain⟩ := readsString_length h
  rw [List.length_append, List.length_cons]
  unfold nameRoom
  split_ifs with h
  · omega
  · have hne : (cstr v).length ≠ w.length := fun heq ↦ h (hplain heq)
    omega

/-- A name and its value. -/
theorem member_room {s s' k t t' u : List UInt8} {v : Json} (hquote : skip s = quote :: s')
    (hkey : ReadsString s' k t) (hcolon : skip t = colon :: t') (h : ReadsValue (skip t') v u) :
    Leaves s u ∧ nameRoom (cstr k) + 4 + u.length ≤ s.length := by
  have hstart := leaves_of_skip (by decide) hquote
  have hmid := leaves_of_skip (by decide) hcolon
  have hvalue := h.leaves
  have hskip := (skip_suffix t').length_le
  refine ⟨hvalue.suffix ?_, ?_⟩
  · exact (skip_suffix t').trans (hmid.tail.trans (hkey.leaves.tail.trans hstart.tail))
  · have h1 := hstart.length_lt
    have h2 := hkey.room
    have h3 := hmid.length_lt
    have h4 := hvalue.length_lt
    omega

theorem readsMembers_room {members : List (List UInt8 × Json)} {s r : List UInt8}
    (h : ReadsMembers s members r) :
    ∃ t, Leaves s t ∧ skip t = rbrace :: r ∧ membersRoom members + t.length ≤ s.length + 1 := by
  induction members generalizing s with
  | nil => exact nomatch h
  | cons member members ih =>
      cases h with
      | one hquote hkey hcolon h hend =>
          obtain ⟨hleaves, hroom⟩ := member_room hquote hkey hcolon h
          refine ⟨_, hleaves, hend, ?_⟩
          rw [membersRoom_cons, show membersRoom [] = 0 from rfl]
          dsimp only
          omega
      | more hquote hkey hcolon h hcomma hrest =>
          obtain ⟨hleaves, hroom⟩ := member_room hquote hkey hcolon h
          have hbehind := leaves_of_skip (by decide) hcomma
          obtain ⟨t, hlast, hend, hmembers⟩ := ih hrest
          refine ⟨t, hlast.suffix (hbehind.tail.trans hleaves.tail), hend, ?_⟩
          have hlength := hbehind.length_lt
          rw [membersRoom_cons]
          dsimp only
          omega

/-- The blank in front of the last brace is no part of a member. -/
theorem membersRoom_le {q r : List UInt8} {members : List (List UInt8 × Json)}
    (h : ReadsMembers (q ++ [0x20, rbrace]) members r) : membersRoom members ≤ q.length + 1 := by
  obtain ⟨t, ⟨b, hb, u, hu⟩, hend, hroom⟩ := readsMembers_room h
  rw [List.length_append] at hroom
  rcases t with _ | ⟨c, _ | ⟨d, t⟩⟩
  · exact nomatch hend
  · obtain ⟨-, hlast⟩ := List.append_inj' hu rfl
    rw [(List.cons.inj hlast).1] at hb
    exact absurd hb (by decide)
  · simp only [List.length_cons, List.length_nil] at hroom
    omega

/-- Names that `f` tells apart are those of as many members. -/
theorem namesRoom_le {f : List UInt8 → List UInt8} (hf : ∀ w, nameRoom (f w) = nameRoom w)
    {names : List (List UInt8)} {members : List (List UInt8 × Json)}
    (hnodup : (names.map f).Nodup)
    (hfound : ∀ name ∈ names, ∃ member ∈ members, f (cstr member.1) = f name) :
    (names.map fun w ↦ nameRoom w + 5).sum ≤ membersRoom members := by
  have hsubset : names.map f ⊆ members.map fun member ↦ f (cstr member.1) := by
    intro w hw
    obtain ⟨name, hname, rfl⟩ := List.mem_map.mp hw
    obtain ⟨member, hmember, heq⟩ := hfound name hname
    exact List.mem_map.mpr ⟨member, hmember, heq⟩
  obtain ⟨found, hperm, hsublist⟩ := List.subperm_of_subset hnodup hsubset
  calc (names.map fun w ↦ nameRoom w + 5).sum
      = ((names.map f).map fun w ↦ nameRoom w + 5).sum := by
        rw [List.map_map]
        exact congrArg List.sum (List.map_congr_left fun w _ ↦ congrArg (· + 5) (hf w).symm)
    _ = (found.map fun w ↦ nameRoom w + 5).sum := ((hperm.map _).sum_eq).symm
    _ ≤ ((members.map fun member ↦ f (cstr member.1)).map fun w ↦ nameRoom w + 5).sum :=
        (hsublist.map _).sum_le_sum fun n _ ↦ Nat.zero_le n
    _ = membersRoom members := by
        rw [List.map_map]
        exact congrArg List.sum (List.map_congr_left fun m _ ↦ congrArg (· + 5) (hf (cstr m.1)))

end JsonRead
