import Mathlib.Data.List.Forall2
import TuyaOpen.Kv.SerializeText

/-!
# Reading the text of properties

What a JSON parser makes of the text of an array of properties, and what an item does to an entry.
Strings are printed as they are, so that only those without quotes, backslashes and control
characters are read as they were.
-/

namespace TuyaOpen.Kv

open Bytes JsonText JsonRead Utilities

/-! ## What is read -/

/-- A string that is read as it was printed; every other value is. -/
def KvVal.Unescaped : KvVal → Prop
  | .string text _ => Plain text
  | _ => True

/-- The item that a value is printed as. -/
def kvItem (charSigned : Bool) : KvVal → Json
  | .bool v => .bool v
  | .string text _ => if text = [] then .null else .string text
  | .raw bytes => if bytes = [] then .null else .string (base64Encode bytes)
  | val => .number ((kvNumber charSigned val).getD 0)

def kvMember (charSigned : Bool) (e : KvDb) : List UInt8 × Json := (e.key, kvItem charSigned e.val)

theorem base64EncChar_plainByte {value : ℕ} (h : value < 64) : PlainByte (base64EncChar value) := by
  have hall : ∀ value < 64, 0x20 ≤ base64EncChar value ∧ base64EncChar value ≠ quote ∧
      base64EncChar value ≠ backslash := by decide
  obtain ⟨hcontrol, hquote, hbackslash⟩ := hall value h
  exact ⟨hcontrol, hquote, hbackslash⟩

theorem base64Encode_plain (src : List UInt8) : Plain (base64Encode src) := by
  have hpad : PlainByte base64Pad := ⟨by decide, by decide, by decide⟩
  unfold Plain
  fun_induction base64Encode src with
  | case1 c1 c2 c3 src ih =>
      have h1 := c1.toNat_lt
      have h2 := c2.toNat_lt
      have h3 := c3.toNat_lt
      simp only [List.forall_mem_cons]
      exact ⟨base64EncChar_plainByte (by omega), base64EncChar_plainByte (by omega),
        base64EncChar_plainByte (by omega), base64EncChar_plainByte (by omega), ih⟩
  | case2 c1 c2 =>
      have h1 := c1.toNat_lt
      have h2 := c2.toNat_lt
      simp only [List.forall_mem_cons]
      exact ⟨base64EncChar_plainByte (by omega), base64EncChar_plainByte (by omega),
        base64EncChar_plainByte (by omega), hpad, fun b hb ↦ (List.not_mem_nil hb).elim⟩
  | case3 c1 =>
      have h1 := c1.toNat_lt
      simp only [List.forall_mem_cons]
      exact ⟨base64EncChar_plainByte (by omega), base64EncChar_plainByte (by omega), hpad, hpad,
        fun b hb ↦ (List.not_mem_nil hb).elim⟩
  | case4 => exact fun b hb ↦ (List.not_mem_nil hb).elim

theorem written_kvItem (charSigned : Bool) {val : KvVal} (h : val.Unescaped) :
    Written (kvValueText charSigned val) (kvItem charSigned val) := by
  have hnumber : ∀ {n : ℤ}, kvNumber charSigned val = some n →
      Written (kvValueText charSigned val) (.number n) := by
    intro n hn
    obtain ⟨hlow, hhigh⟩ := kvNumber_bound hn
    rw [(kvNumber_text hn).1]
    exact .number hlow hhigh
  cases val with
  | char v => exact hnumber rfl
  | byte v => exact hnumber rfl
  | short v => exact hnumber rfl
  | ushort v => exact hnumber rfl
  | int v => exact hnumber rfl
  | bool v =>
      cases v
      · exact .false
      · exact .true
  | string text len =>
      rw [kvValueText, kvItem]
      split_ifs
      · exact .null
      · exact .string h
  | raw bytes =>
      rw [kvValueText, kvItem]
      split_ifs
      · exact .null
      · exact .string (base64Encode_plain bytes)

theorem behindText_head (charSigned : Bool) (db : List KvDb) :
    ∀ b ∈ (behindText charSigned db).head?, ¬NumberByte b := by
  intro b hb
  cases db with
  | nil =>
      obtain rfl := Option.some.inj hb
      unfold NumberByte IsDigit
      decide
  | cons e db =>
      obtain rfl := Option.some.inj hb
      unfold NumberByte IsDigit
      decide

theorem readsMembers_first {charSigned : Bool} {e : KvDb} {db : List KvDb} {r : List UInt8}
    {members : List (List UInt8 × Json)} (hkey : Plain e.key) (hval : e.val.Unescaped) :
    ReadsMembers (memberText charSigned e ++ behindText charSigned db) members r ↔
      (members = [kvMember charSigned e] ∧ skip (behindText charSigned db) = rbrace :: r) ∨
        ∃ u rest, members = kvMember charSigned e :: rest ∧
          skip (behindText charSigned db) = comma :: u ∧ ReadsMembers u rest r := by
  have hwritten := written_kvItem charSigned hval
  have hhead := behindText_head charSigned db
  have htext : memberText charSigned e ++ behindText charSigned db =
      quote :: (e.key ++ quote :: colon ::
        (kvValueText charSigned e.val ++ behindText charSigned db)) := by
    unfold memberText
    simp
  rw [htext, readsMembers_iff hkey (hwritten.skip_eq _)]
  constructor
  · rintro ⟨v, t, hread, h⟩
    obtain ⟨rfl, rfl⟩ := hwritten.reads_unique hhead hread
    exact h
  · intro h
    exact ⟨_, _, hwritten.reads hhead, h⟩

theorem readsMembers_last {charSigned : Bool} {e : KvDb} {r : List UInt8}
    {members : List (List UInt8 × Json)} (hkey : Plain e.key) (hval : e.val.Unescaped) :
    ReadsMembers (memberText charSigned e ++ behindText charSigned []) members r ↔
      members = [kvMember charSigned e] ∧ r = [] := by
  rw [readsMembers_first hkey hval, show skip (behindText charSigned []) = [rbrace] from rfl]
  constructor
  · rintro (⟨hmembers, hr⟩ | ⟨u, rest, -, hu, -⟩)
    · exact ⟨hmembers, (List.cons.inj hr).2.symm⟩
    · exact absurd (List.cons.inj hu).1 (by decide)
  · rintro ⟨hmembers, rfl⟩
    exact Or.inl ⟨hmembers, rfl⟩

theorem readsMembers_cons {charSigned : Bool} {e e' : KvDb} {db : List KvDb} {r : List UInt8}
    {members : List (List UInt8 × Json)} (hkey : Plain e.key) (hval : e.val.Unescaped) :
    ReadsMembers (memberText charSigned e ++ behindText charSigned (e' :: db)) members r ↔
      ∃ rest, members = kvMember charSigned e :: rest ∧
        ReadsMembers (memberText charSigned e' ++ behindText charSigned db) rest r := by
  rw [readsMembers_first hkey hval, behindText, skip_cons (by decide)]
  constructor
  · rintro (⟨-, hr⟩ | ⟨u, rest, hmembers, hu, hrest⟩)
    · exact absurd (List.cons.inj hr).1 (by decide)
    · obtain ⟨-, rfl⟩ := List.cons.inj hu
      exact ⟨rest, hmembers, hrest⟩
  · rintro ⟨rest, hmembers, hrest⟩
    exact Or.inr ⟨_, rest, hmembers, rfl, hrest⟩

theorem readsMembers_all {charSigned : Bool} {e : KvDb} {db : List KvDb} {r : List UInt8}
    {members : List (List UInt8 × Json)}
    (hdb : ∀ e' ∈ e :: db, Plain e'.key ∧ e'.val.Unescaped) :
    ReadsMembers (memberText charSigned e ++ behindText charSigned db) members r ↔
      members = (e :: db).map (kvMember charSigned) ∧ r = [] := by
  induction db generalizing e members with
  | nil =>
      obtain ⟨hkey, hval⟩ := hdb e List.mem_cons_self
      exact readsMembers_last hkey hval
  | cons e' db ih =>
      obtain ⟨⟨hkey, hval⟩, hrest⟩ := List.forall_mem_cons.mp hdb
      rw [readsMembers_cons hkey hval]
      constructor
      · rintro ⟨rest, rfl, h⟩
        obtain ⟨rfl, rfl⟩ := (ih hrest).mp h
        exact ⟨rfl, rfl⟩
      · rintro ⟨rfl, rfl⟩
        exact ⟨_, rfl, (ih hrest).mpr ⟨rfl, rfl⟩⟩

theorem not_unescaped {val : KvVal} (h : ¬val.Unescaped) :
    ∃ text len, val = .string text len ∧ ¬Plain text := by
  cases val with
  | string text len => exact ⟨text, len, rfl, h⟩
  | _ => exact (h trivial).elim

/-- Up to some string everything is read as it was printed, and that one as another string. -/
def Misread (charSigned : Bool) (db : List KvDb) (members : List (List UInt8 × Json)) : Prop :=
  ∃ pre e post text len d rest, db = pre ++ e :: post ∧ e.val = .string text len ∧
    members = pre.map (kvMember charSigned) ++ (e.key, .string d) :: rest ∧ cstr d ≠ text

theorem Misread.cons {charSigned : Bool} {db : List KvDb} {members : List (List UInt8 × Json)}
    (h : Misread charSigned db members) (e : KvDb) :
    Misread charSigned (e :: db) (kvMember charSigned e :: members) := by
  obtain ⟨pre, e', post, text, len, d, rest, rfl, hval, rfl, hd⟩ := h
  exact ⟨e :: pre, e', post, text, len, d, rest, rfl, hval, rfl, hd⟩

theorem misread_first {charSigned : Bool} {e : KvDb} {db : List KvDb} {r : List UInt8}
    {members : List (List UInt8 × Json)} (hkey : Plain e.key) (hval : ¬e.val.Unescaped)
    (h : ReadsMembers (memberText charSigned e ++ behindText charSigned db) members r) :
    Misread charSigned (e :: db) members := by
  obtain ⟨text, len, hstring, htext⟩ := not_unescaped hval
  have hne : text ≠ [] := by
    rintro rfl
    exact htext fun b hb ↦ (List.not_mem_nil hb).elim
  have hprinted : memberText charSigned e ++ behindText charSigned db =
      quote :: (e.key ++ quote :: colon ::
        (quote :: (text ++ quote :: behindText charSigned db))) := by
    rw [memberText, hstring, kvValueText, if_neg hne]
    simp
  rw [hprinted, readsMembers_iff hkey (skip_cons (by decide) _)] at h
  obtain ⟨v, t, hread, h⟩ := h
  obtain ⟨d, rfl, hd⟩ := readsValue_quote hread
  have hother := readsString_ne htext hd
  rcases h with ⟨rfl, -⟩ | ⟨u, rest, rfl, -, -⟩
  · exact ⟨[], e, db, text, len, d, [], rfl, hstring, rfl, hother⟩
  · exact ⟨[], e, db, text, len, d, rest, rfl, hstring, rfl, hother⟩

theorem misread {charSigned : Bool} {e : KvDb} {db : List KvDb} {r : List UInt8}
    {members : List (List UInt8 × Json)} (hkeys : ∀ e' ∈ e :: db, Plain e'.key)
    (hbad : ∃ e' ∈ e :: db, ¬e'.val.Unescaped)
    (h : ReadsMembers (memberText charSigned e ++ behindText charSigned db) members r) :
    Misread charSigned (e :: db) members := by
  obtain ⟨hkey, hrest⟩ := List.forall_mem_cons.mp hkeys
  induction db generalizing e members with
  | nil =>
      obtain ⟨e', he', hbad⟩ := hbad
      rw [List.mem_singleton.mp he'] at hbad
      exact misread_first hkey hbad h
  | cons e' db ih =>
      by_cases hval : e.val.Unescaped
      · obtain ⟨rest, rfl, hmembers⟩ := (readsMembers_cons hkey hval).mp h
        obtain ⟨bad, hmem, hbad⟩ := hbad
        have hlater : bad ∈ e' :: db := by
          rcases List.mem_cons.mp hmem with rfl | hmem
          · exact (hbad hval).elim
          · exact hmem
        obtain ⟨hkey', hrest'⟩ := List.forall_mem_cons.mp hrest
        exact (ih hrest ⟨bad, hlater, hbad⟩ hmembers hkey' hrest').cons e
      · exact misread_first hkey hval h

theorem readsText_kvText (charSigned : Bool) {db : List KvDb} {root : Json}
    (hdb : ∀ e ∈ db, Plain e.key ∧ e.val.Unescaped) :
    ReadsText (kvText charSigned db) root ↔ root = .object (db.map (kvMember charSigned)) := by
  cases db with
  | nil =>
      rw [kvText, readsText_object_iff, skip_cons (by decide)]
      constructor
      · rintro ⟨r, -, ⟨-, hroot⟩ | ⟨members, h, -⟩⟩
        · exact hroot
        · cases h with
          | one hquote => exact absurd (List.cons.inj hquote).1 (by decide)
          | more hquote => exact absurd (List.cons.inj hquote).1 (by decide)
      · rintro rfl
        exact ⟨[], rfl, Or.inl ⟨rfl, rfl⟩⟩
  | cons e db =>
      rw [kvText, readsText_object_iff]
      simp only [readsMembers_all hdb]
      constructor
      · rintro ⟨r, -, ⟨hr, -⟩ | ⟨members, ⟨rfl, -⟩, hroot⟩⟩
        · exact absurd (List.cons.inj hr).1 (by decide)
        · exact hroot
      · rintro rfl
        exact ⟨[], rfl, Or.inr ⟨_, ⟨rfl, rfl⟩, rfl⟩⟩

theorem getObjectItem_eq {c : Cjson} (hc : c.Standard) {key : List UInt8} {item : Json}
    {pre rest : List (List UInt8 × Json)} (hpre : ∀ m ∈ pre, lower (cstr m.1) ≠ lower key)
    (hkey : 0 ∉ key) :
    c.getObjectItem (.object (pre ++ (key, item) :: rest)) key = some item := by
  rw [hc.getObjectItem_object, List.find?_append, List.find?_eq_none.mpr, Option.none_or,
    List.find?_cons_of_pos]
  · rfl
  · exact decide_eq_true (by rw [cstr_eq_self hkey])
  · intro m hm
    rw [decide_eq_true_eq]
    exact hpre m hm

/-- What an entry gets: zeros where there is no item for it. -/
def kvFetch (c : Cjson) (root : Json) (e : KvDb) : Option (OperateRet × KvVal) :=
  match c.getObjectItem root e.key with
  | none => some (oprtOk, kvZero e.val)
  | some item => kvStore item e.val

theorem kvStoreEntries_cons (c : Cjson) (root : Json) (e : KvDb) (db : List KvDb) :
    kvStoreEntries c root (e :: db) = (kvFetch c root e).bind fun (ret, val) ↦
      if ret ≠ oprtOk then some (ret, e :: db)
      else (kvStoreEntries c root db).map fun (ret, db) ↦ (ret, { e with val := val } :: db) := by
  unfold kvFetch
  rw [kvStoreEntries]
  cases c.getObjectItem root e.key with
  | none =>
      dsimp only
      rw [Option.bind_some, if_neg (fun h ↦ h rfl)]
      cases kvStoreEntries c root db <;> rfl
  | some item =>
      dsimp only
      cases kvStore item e.val with
      | none => rfl
      | some out =>
          obtain ⟨ret, val⟩ := out
          by_cases hret : ret = oprtOk
          · subst hret
            cases kvStoreEntries c root db <;> rfl
          · simp only [Option.bind_eq_bind, Option.bind_some]
            rw [if_pos hret, if_pos hret]
            rfl

theorem kvStoreEntries_cons_iff {c : Cjson} {root : Json} {e : KvDb} {db out : List KvDb} :
    kvStoreEntries c root (e :: db) = some (oprtOk, out) ↔
      ∃ val rest, kvFetch c root e = some (oprtOk, val) ∧
        kvStoreEntries c root db = some (oprtOk, rest) ∧ out = { e with val := val } :: rest := by
  rw [kvStoreEntries_cons, Option.bind_eq_some_iff]
  constructor
  · rintro ⟨⟨ret, val⟩, hfetch, h⟩
    by_cases hret : ret = oprtOk
    · subst hret
      dsimp only at h
      rw [if_neg (fun h ↦ h rfl), Option.map_eq_some_iff] at h
      obtain ⟨⟨ret, rest⟩, hrest, h⟩ := h
      obtain ⟨rfl, rfl⟩ := Prod.mk.inj h
      exact ⟨val, rest, hfetch, hrest, rfl⟩
    · dsimp only at h
      rw [if_pos hret] at h
      exact (hret (Prod.mk.inj (Option.some.inj h)).1).elim
  · rintro ⟨val, rest, hfetch, hrest, rfl⟩
    refine ⟨_, hfetch, ?_⟩
    dsimp only
    rw [if_neg (fun h ↦ h rfl), hrest]
    rfl

theorem kvStoreEntries_iff {c : Cjson} {root : Json} {R : KvDb → KvDb → Prop}
    {src dst : List KvDb} :
    (∃ db, kvStoreEntries c root dst = some (oprtOk, db) ∧ List.Forall₂ R src db) ↔
      List.Forall₂ (fun s d ↦ ∃ val, kvFetch c root d = some (oprtOk, val) ∧
        R s { d with val := val }) src dst := by
  induction dst generalizing src with
  | nil =>
      constructor
      · rintro ⟨db, h, hR⟩
        obtain rfl := (Prod.mk.inj (Option.some.inj h)).2
        cases hR
        exact .nil
      · rintro ⟨⟩
        exact ⟨[], rfl, .nil⟩
  | cons d dst ih =>
      constructor
      · rintro ⟨db, h, hR⟩
        obtain ⟨val, rest, hfetch, hrest, rfl⟩ := kvStoreEntries_cons_iff.mp h
        cases hR with
        | cons hhead htail => exact .cons ⟨val, hfetch, hhead⟩ (ih.mp ⟨rest, hrest, htail⟩)
      · intro h
        cases h with
        | cons hhead htail =>
            obtain ⟨val, hfetch, hR⟩ := hhead
            obtain ⟨rest, hrest, hRs⟩ := ih.mpr htail
            exact ⟨_, kvStoreEntries_cons_iff.mpr ⟨val, rest, hfetch, hrest, rfl⟩, .cons hR hRs⟩

/-! ## Values -/

/-- One type. -/
def KvVal.SameType : KvVal → KvVal → Prop
  | .char _, .char _ | .byte _, .byte _ | .short _, .short _ | .ushort _, .ushort _
  | .int _, .int _ | .bool _, .bool _ | .string _ _, .string _ _ | .raw _, .raw _ => True
  | _, _ => False

/-- A value that is restored; a string keeps the buffer that it is put into. -/
def KvVal.Restored : KvVal → KvVal → Prop
  | .string text _, .string text' _ => text' = text
  | val, val' => val' = val

/-- What a value and the one it is read into must be like.  A `char` has to have the range that is
checked for it, a string needs room, and a raw value that is not empty gets no length. -/
def KvVal.Fits (charSigned : Bool) : KvVal → KvVal → Prop
  | .char v, _ => charSigned ∨ v < 128
  | .string text _, .string _ len => text.length < len
  | .raw bytes, .raw target => bytes = [] ∨ bytes.length = target.length
  | _, _ => True

theorem checked_iff {p : Prop} [Decidable p] {old new : KvVal} {R : KvVal → Prop} :
    (∃ val, some (if p then (oprtComError, old) else (oprtOk, new)) = some (oprtOk, val) ∧ R val) ↔
      ¬p ∧ R new := by
  by_cases hp : p
  · rw [if_pos hp]
    constructor
    · rintro ⟨val, h, -⟩
      exact absurd (Prod.mk.inj (Option.some.inj h)).1 (by decide)
    · rintro ⟨hnot, -⟩
      exact (hnot hp).elim
  · rw [if_neg hp]
    constructor
    · rintro ⟨val, h, hR⟩
      obtain rfl := (Prod.mk.inj (Option.some.inj h)).2
      exact ⟨hp, hR⟩
    · rintro ⟨-, hR⟩
      exact ⟨new, rfl, hR⟩

theorem ofInt_eq_of_emod {n : ℤ} {v : UInt8} (h : n % 256 = v.toNat) : UInt8.ofInt n = v := by
  apply UInt8.toNat_inj.mp
  rw [UInt8.ofInt, UInt8.toNat_ofNat']
  have hv := v.toNat_lt
  omega

theorem ofInt_toNat16 (v : UInt16) : UInt16.ofInt v.toNat = v := by
  apply UInt16.toNat_inj.mp
  rw [UInt16.ofInt, UInt16.toNat_ofNat']
  have hv := v.toNat_lt
  omega

theorem ofInt_charValue (charSigned : Bool) (v : UInt8) :
    UInt8.ofInt (charValue charSigned v) = v := by
  have hv := v.toNat_lt
  apply ofInt_eq_of_emod
  unfold charValue
  split_ifs <;> omega

theorem charValue_range {charSigned : Bool} {v : UInt8} :
    ¬(charValue charSigned v < -128 ∨ 127 < charValue charSigned v) ↔
      (charSigned ∨ v < 128) := by
  have hv := v.toNat_lt
  have hhigh : 128 ≤ v ↔ 128 ≤ v.toNat := UInt8.le_iff_toNat_le
  have hlow : v < 128 ↔ v.toNat < 128 := UInt8.lt_iff_toNat_lt
  unfold charValue
  simp only [hhigh, hlow]
  cases charSigned
  · simp only [Bool.false_eq_true, false_and, if_false, false_or]
    omega
  · simp only [true_and, true_or, iff_true]
    split_ifs <;> omega

theorem kvStore_iff {charSigned : Bool} {val target : KvVal} (htype : val.SameType target)
    (hnonzero : ∀ text len, val = .string text len → 0 ∉ text) :
    (∃ val', kvStore (kvItem charSigned val) target = some (oprtOk, val') ∧ val.Restored val') ↔
      val.Fits charSigned target := by
  cases val with
  | char v =>
      cases target with
      | char w =>
          refine checked_iff.trans ⟨fun h ↦ charValue_range.mp h.1, fun h ↦ ?_⟩
          exact ⟨charValue_range.mpr h, congrArg KvVal.char (ofInt_charValue charSigned v)⟩
      | _ => exact htype.elim
  | byte v =>
      cases target with
      | byte w =>
          have hv := v.toNat_lt
          have hrange : ¬((v.toNat : ℤ) < 0 ∨ 255 < (v.toNat : ℤ)) := by omega
          have hvalue : UInt8.ofInt v.toNat = v := ofInt_eq_of_emod (by omega)
          refine checked_iff.trans ⟨fun _ ↦ trivial, fun _ ↦ ⟨hrange, ?_⟩⟩
          exact congrArg KvVal.byte hvalue
      | _ => exact htype.elim
  | short v =>
      cases target with
      | short w =>
          have hlow := v.le_toInt
          have hhigh := v.toInt_lt
          have hrange : ¬(v.toInt < -32768 ∨ 32767 < v.toInt) := by omega
          refine checked_iff.trans ⟨fun _ ↦ trivial, fun _ ↦ ⟨hrange, ?_⟩⟩
          exact congrArg KvVal.short (Int16.ofInt_toInt v)
      | _ => exact htype.elim
  | ushort v =>
      cases target with
      | ushort w =>
          have hv := v.toNat_lt
          have hrange : ¬((v.toNat : ℤ) < 0 ∨ 65535 < (v.toNat : ℤ)) := by omega
          refine checked_iff.trans ⟨fun _ ↦ trivial, fun _ ↦ ⟨hrange, ?_⟩⟩
          exact congrArg KvVal.ushort (ofInt_toNat16 v)
      | _ => exact htype.elim
  | int v =>
      cases target with
      | int w =>
          refine ⟨fun _ ↦ trivial, fun _ ↦ ⟨_, rfl, ?_⟩⟩
          exact congrArg KvVal.int (Int32.ofInt_toInt v)
      | _ => exact htype.elim
  | bool v =>
      cases target with
      | bool w => exact ⟨fun _ ↦ trivial, fun _ ↦ ⟨_, rfl, rfl⟩⟩
      | _ => exact htype.elim
  | string text len =>
      cases target with
      | string text' len' =>
          by_cases htext : text = []
          · subst htext
            by_cases hlen : len' = 0
            · subst hlen
              exact ⟨fun ⟨_, h, _⟩ ↦ (nomatch h), fun h ↦ (lt_irrefl 0 h).elim⟩
            · refine ⟨fun _ ↦ Nat.pos_of_ne_zero hlen, fun _ ↦ ⟨.string [] len', ?_, rfl⟩⟩
              exact if_neg hlen
          · rw [kvItem, if_neg htext, kvStore, cstr_eq_self (hnonzero text len rfl)]
            refine checked_iff.trans ⟨fun h ↦ Nat.lt_of_succ_le (Nat.not_lt.mp h.1), fun h ↦ ?_⟩
            exact ⟨Nat.not_lt.mpr (Nat.succ_le_of_lt h), rfl⟩
      | _ => exact htype.elim
  | raw bytes =>
      cases target with
      | raw target =>
          by_cases hbytes : bytes = []
          · subst hbytes
            exact ⟨fun _ ↦ Or.inl rfl, fun _ ↦ ⟨_, rfl, rfl⟩⟩
          · have hplain := base64Encode_plain bytes
            rw [kvItem, if_neg hbytes, kvStore, hplain.cstr_eq,
              base64Decode_encode]
            constructor
            · rintro ⟨val, h, rfl⟩
              right
              by_cases hroom : bytes.length ≤ target.length
              · rw [if_pos hroom] at h
                have hsame := KvVal.raw.inj (Prod.mk.inj (Option.some.inj h)).2
                have hlength := congrArg List.length hsame
                rw [List.length_append, List.length_drop] at hlength
                omega
              · rw [if_neg hroom] at h
                exact nomatch h
            · rintro (h | h)
              · exact (hbytes h).elim
              · refine ⟨.raw bytes, ?_, rfl⟩
                rw [if_pos h.le, h, List.drop_length, List.append_nil]
      | _ => exact htype.elim

end TuyaOpen.Kv
