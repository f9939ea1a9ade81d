import Mathlib.Data.List.Nodup
import TuyaOpen.Kv.SerializeRead
import TuyaOpen.Lib.JsonRoom

/-!
# What is printed is read back

`kv_serialize` and `kv_deserialize` together: the arrays that come back as they were.
-/

namespace TuyaOpen.Kv

open JsonText JsonRead Utilities

/-! ## The round trip -/

/-- Keys that are read as they were printed, and told apart in whatever case. -/
structure KeysKept (db : List KvDb) : Prop where
  plain : ∀ e ∈ db, Plain e.key
  distinct : (db.map fun e ↦ lower e.key).Nodup

/-- One key and one type. -/
def SameKey (s d : KvDb) : Prop := d.key = s.key ∧ s.val.SameType d.val

def Kept (s d : KvDb) : Prop := d.key = s.key ∧ s.val.Restored d.val

/-- A text is read into entries that then have the values. -/
def ReadBack (c : Cjson) (text : List UInt8) (src dst : List KvDb) : Prop :=
  ∃ out, kvDeserialize c text dst = some (oprtOk, out) ∧ List.Forall₂ Kept src out

def RoundTrips (c : Cjson) (charSigned : Bool) (src dst : List KvDb) : Prop :=
  ∃ text, kvSerialize charSigned true src = some (oprtOk, text) ∧ ReadBack c text src dst

/-- What a value, and the entry that it is read into, must be like. -/
def Readable (charSigned : Bool) (s d : KvDb) : Prop :=
  s.val.Unescaped ∧ s.val.Fits charSigned d.val

theorem readBack_iff {c : Cjson} {text : List UInt8} {src dst : List KvDb} :
    ReadBack c text src dst ↔ ∃ root, c.parse text = some root ∧
      List.Forall₂ (fun s d ↦ ∃ val, kvFetch c root d = some (oprtOk, val) ∧
        Kept s { d with val := val }) src dst := by
  unfold ReadBack kvDeserialize
  cases hparse : c.parse text with
  | none =>
      constructor
      · rintro ⟨out, h, -⟩
        exact absurd (Prod.mk.inj (Option.some.inj h)).1 (by decide)
      · rintro ⟨root, h, -⟩
        exact nomatch h
  | some root =>
      refine kvStoreEntries_iff.trans ⟨fun h ↦ ⟨root, rfl, h⟩, ?_⟩
      rintro ⟨root', h, hentries⟩
      rw [Option.some.inj h]
      exact hentries

theorem KeysKept.before {charSigned : Bool} {pre post : List KvDb} {e : KvDb}
    (h : KeysKept (pre ++ e :: post)) :
    ∀ m ∈ pre.map (kvMember charSigned), lower (cstr m.1) ≠ lower e.key := by
  intro m hm
  obtain ⟨e', he', rfl⟩ := List.mem_map.mp hm
  have hplain := h.plain e' (List.mem_append_left _ he')
  have hdistinct := h.distinct
  rw [List.map_append, List.nodup_append] at hdistinct
  rw [kvMember, hplain.cstr_eq]
  exact hdistinct.2.2 _ (List.mem_map_of_mem he') _ (List.mem_map_of_mem List.mem_cons_self)

theorem getObjectItem_kvMember {c : Cjson} (hc : c.Standard) {charSigned : Bool} {db : List KvDb}
    (hkeys : KeysKept db) {e : KvDb} (he : e ∈ db) :
    c.getObjectItem (.object (db.map (kvMember charSigned))) e.key =
      some (kvItem charSigned e.val) := by
  obtain ⟨pre, post, rfl⟩ := List.append_of_mem he
  have hplain := hkeys.plain e he
  rw [List.map_append, List.map_cons]
  exact getObjectItem_eq hc hkeys.before hplain.zero_notMem

theorem forall₂_iff_of_mem {α β : Type} {R P Q : α → β → Prop} {l : List α} {l' : List β}
    (hR : List.Forall₂ R l l') (h : ∀ a ∈ l, ∀ b, R a b → (P a b ↔ Q a b)) :
    List.Forall₂ P l l' ↔ List.Forall₂ Q l l' := by
  induction hR with
  | nil => exact ⟨fun _ ↦ .nil, fun _ ↦ .nil⟩
  | @cons a b l l' hab hR ih =>
      obtain ⟨hhead, htail⟩ := List.forall_mem_cons.mp h
      rw [List.forall₂_cons, List.forall₂_cons, hhead b hab, ih htail]

theorem readBack_of_unescaped {c : Cjson} (hc : c.Standard) {charSigned : Bool}
    {src dst : List KvDb} (hsrc : ∀ e ∈ src, e.Ok) (hdst : List.Forall₂ SameKey src dst)
    (hkeys : KeysKept src) (hvals : ∀ e ∈ src, e.val.Unescaped) :
    ReadBack c (kvText charSigned src) src dst ↔
      List.Forall₂ (fun s d ↦ s.val.Fits charSigned d.val) src dst := by
  have hdb : ∀ e ∈ src, Plain e.key ∧ e.val.Unescaped := fun e he ↦ ⟨hkeys.plain e he, hvals e he⟩
  have hparse : c.parse (kvText charSigned src) =
      some (.object (src.map (kvMember charSigned))) := by
    obtain ⟨root, hroot⟩ := Option.isSome_iff_exists.mp
      (hc.parse_total ((readsText_kvText charSigned hdb).mpr rfl))
    rw [hroot, (readsText_kvText charSigned hdb).mp (hc.parse_reads hroot)]
  rw [readBack_iff, hparse]
  simp only [Option.some.injEq, exists_eq_left']
  refine forall₂_iff_of_mem hdst fun s hs d hsame ↦ ?_
  rw [kvFetch, hsame.1, getObjectItem_kvMember hc hkeys hs]
  dsimp only
  rw [← kvStore_iff hsame.2 fun text len hval ↦ ((hsrc s hs).string text len hval).1]
  exact exists_congr fun val ↦ and_congr_right fun _ ↦ ⟨fun h ↦ h.2, fun h ↦ ⟨rfl, h⟩⟩

theorem exists_of_forall₂ {α β : Type} {R : α → β → Prop} {l : List α} {l' : List β}
    (h : List.Forall₂ R l l') {a : α} (ha : a ∈ l) : ∃ b, R a b := by
  induction h with
  | nil => exact (List.not_mem_nil ha).elim
  | @cons a' b l l' hab h ih =>
      rcases List.mem_cons.mp ha with rfl | ha
      · exact ⟨b, hab⟩
      · exact ih ha

theorem not_restored {text d : List UInt8} {len : ℕ} {target val : KvVal} (hd : cstr d ≠ text)
    (h : kvStore (.string d) target = some (oprtOk, val)) :
    ¬(KvVal.string text len).Restored val := by
  intro hrestored
  cases target with
  | string text' len' =>
      obtain ⟨-, hsame⟩ := checked_iff.mp ⟨val, h, hrestored⟩
      exact hd hsame
  | raw bytes =>
      rw [kvStore] at h
      split_ifs at h
      rw [← (Prod.mk.inj (Option.some.inj h)).2] at hrestored
      cases hrestored
  | _ => exact absurd (Prod.mk.inj (Option.some.inj h)).1 (by decide)

theorem unescaped_of_readBack {c : Cjson} (hc : c.Standard) {charSigned : Bool}
    {src dst : List KvDb} (hkeys : KeysKept src)
    (h : ReadBack c (kvText charSigned src) src dst) : ∀ e ∈ src, e.val.Unescaped := by
  by_contra hbad
  push Not at hbad
  obtain ⟨root, hparse, hentries⟩ := readBack_iff.mp h
  have hread := hc.parse_reads hparse
  cases src with
  | nil =>
      obtain ⟨e, he, -⟩ := hbad
      exact (List.not_mem_nil he).elim
  | cons e src =>
      rw [kvText, readsText_object_iff] at hread
      obtain ⟨r, -, ⟨hr, -⟩ | ⟨members, hmembers, rfl⟩⟩ := hread
      · exact absurd (List.cons.inj hr).1 (by decide)
      · obtain ⟨pre, e', post, text, len, d, rest, heq, hval, rfl, hd⟩ :=
          misread hkeys.plain hbad hmembers
        rw [heq] at hkeys hentries
        have he' : e' ∈ pre ++ e' :: post := List.mem_append_right _ List.mem_cons_self
        obtain ⟨target, val, hfetch, hkey, hrestored⟩ := exists_of_forall₂ hentries he'
        have hzero := (hkeys.plain e' he').zero_notMem
        rw [kvFetch, show target.key = e'.key from hkey,
          getObjectItem_eq hc hkeys.before hzero] at hfetch
        rw [hval] at hrestored
        exact not_restored hd hfetch hrestored

theorem readBack_iff_readable {c : Cjson} (hc : c.Standard) {charSigned : Bool}
    {src dst : List KvDb} (hsrc : ∀ e ∈ src, e.Ok) (hdst : List.Forall₂ SameKey src dst)
    (hkeys : KeysKept src) :
    ReadBack c (kvText charSigned src) src dst ↔ List.Forall₂ (Readable charSigned) src dst := by
  unfold Readable
  rw [List.forall₂_and_left]
  constructor
  · intro h
    have hvals := unescaped_of_readBack hc hkeys h
    exact ⟨hvals, (readBack_of_unescaped hc hsrc hdst hkeys hvals).mp h⟩
  · rintro ⟨hvals, hfits⟩
    exact (readBack_of_unescaped hc hsrc hdst hkeys hvals).mpr hfits

/-! ## Keys that are not kept -/

theorem plainByte_lowerByte {b : UInt8} : PlainByte (lowerByte b) ↔ PlainByte b := by
  have hall : ∀ n < 256, (PlainByte (lowerByte (.ofNat n)) ↔ PlainByte (.ofNat n)) := by
    decide +kernel
  have hb := hall b.toNat b.toNat_lt
  rwa [UInt8.ofNat_toNat] at hb

theorem nameRoom_lower (w : List UInt8) : nameRoom (lower w) = nameRoom w := by
  have hplain : Plain (lower w) ↔ Plain w := by
    unfold Plain lower
    rw [List.forall_mem_map]
    exact forall₂_congr fun b _ ↦ plainByte_lowerByte
  unfold nameRoom
  rw [lower, List.length_map, ← lower]
  simp only [hplain]

/-- Bytes under the keys. -/
def byteDb (keys : List (List UInt8)) (value : List UInt8 → UInt8) : List KvDb :=
  keys.map fun key ↦ ⟨key, .byte (value key)⟩

theorem length_commaText (charSigned : Bool) (db : List KvDb) :
    (commaText charSigned db).length =
      (db.map fun e ↦ e.key.length + (kvValueText charSigned e.val).length + 4).sum := by
  induction db with
  | nil => rfl
  | cons e db ih =>
      rw [commaText_cons, List.map_cons, List.sum_cons, ← ih]
      simp only [List.length_append, List.length_cons, List.length_nil, memberText]
      omega

theorem found_of_readBack {c : Cjson} (hc : c.Standard) {charSigned : Bool}
    {keys : List (List UInt8)} {value : List UInt8 → UInt8} (hvalue : ∀ key, value key ≠ 0)
    (h : ReadBack c (kvText charSigned (byteDb keys value)) (byteDb keys value)
      (byteDb keys fun _ ↦ 0)) :
    ∃ root, ReadsText (kvText charSigned (byteDb keys value)) root ∧
      ∀ key ∈ keys, ∃ item, c.getObjectItem root key = some item ∧
        kvStore item (.byte 0) = some (oprtOk, .byte (value key)) := by
  obtain ⟨root, hparse, hentries⟩ := readBack_iff.mp h
  refine ⟨root, hc.parse_reads hparse, fun key hkey ↦ ?_⟩
  unfold byteDb at hentries
  rw [List.forall₂_map_left_iff, List.forall₂_map_right_iff, List.forall₂_same] at hentries
  obtain ⟨val, hfetch, -, hrestored⟩ := hentries key hkey
  have hval : val = .byte (value key) := hrestored
  subst hval
  unfold kvFetch at hfetch
  split at hfetch
  · have hzero := KvVal.byte.inj (Prod.mk.inj (Option.some.inj hfetch)).2
    exact (hvalue key hzero.symm).elim
  · rename_i item hitem
    exact ⟨item, hitem, hfetch⟩

theorem exists_object {charSigned : Bool} {db : List KvDb} {root : Json}
    (h : ReadsText (kvText charSigned db) root) : ∃ members, root = .object members := by
  have hcons : ∃ s, kvText charSigned db = lbrace :: s := by
    cases db with
    | nil => exact ⟨_, rfl⟩
    | cons e db => exact ⟨_, rfl⟩
  obtain ⟨s, hs⟩ := hcons
  rw [hs, readsText_object_iff] at h
  obtain ⟨r, -, ⟨-, rfl⟩ | ⟨members, -, rfl⟩⟩ := h
  · exact ⟨[], rfl⟩
  · exact ⟨members, rfl⟩

theorem not_readBack_of_lower {c : Cjson} (hc : c.Standard) {charSigned : Bool}
    {keys : List (List UInt8)} {key key' : List UInt8} (hkey : key ∈ keys) (hkey' : key' ∈ keys)
    (hne : key ≠ key') (hlower : lower key = lower key') :
    ¬ReadBack c (kvText charSigned (byteDb keys fun k ↦ if k = key then 1 else 2))
      (byteDb keys fun k ↦ if k = key then 1 else 2) (byteDb keys fun _ ↦ 0) := by
  intro h
  have hvalue : ∀ k : List UInt8, (if k = key then (1 : UInt8) else 2) ≠ 0 := by
    intro k
    split_ifs <;> decide
  obtain ⟨root, hread, hfound⟩ := found_of_readBack hc hvalue h
  obtain ⟨members, rfl⟩ := exists_object hread
  obtain ⟨item, hitem, hstore⟩ := hfound key hkey
  obtain ⟨item', hitem', hstore'⟩ := hfound key' hkey'
  rw [hc.getObjectItem_object, hlower, ← hc.getObjectItem_object, hitem'] at hitem
  obtain rfl := Option.some.inj hitem
  rw [if_pos rfl] at hstore
  rw [if_neg (Ne.symm hne), hstore] at hstore'
  exact absurd (KvVal.byte.inj (Prod.mk.inj (Option.some.inj hstore')).2) (by decide)

theorem not_readBack_of_not_plain {c : Cjson} (hc : c.Standard) {charSigned : Bool}
    {keys : List (List UInt8)} (hdistinct : (keys.map lower).Nodup)
    (hbad : ∃ key ∈ keys, ¬Plain key) :
    ¬ReadBack c (kvText charSigned (byteDb keys fun _ ↦ 1)) (byteDb keys fun _ ↦ 1)
      (byteDb keys fun _ ↦ 0) := by
  intro h
  obtain ⟨root, hread, hfound⟩ := found_of_readBack hc (fun _ ↦ by decide) h
  have hmember : ∀ members, root = .object members → ∀ key ∈ keys,
      ∃ member ∈ members, lower (cstr member.1) = lower key := by
    rintro members rfl key hkey
    obtain ⟨item, hitem, -⟩ := hfound key hkey
    rw [hc.getObjectItem_object, Option.map_eq_some_iff] at hitem
    obtain ⟨member, hfind, -⟩ := hitem
    have hname := List.find?_some hfind
    rw [decide_eq_true_eq] at hname
    exact ⟨member, List.mem_of_find?_eq_some hfind, hname⟩
  obtain ⟨bad, hbadmem, hbad⟩ := hbad
  have hless : (keys.map fun key ↦ key.length + 5).sum <
      (keys.map fun key ↦ nameRoom key + 5).sum := by
    refine List.sum_lt_sum _ _ (fun key _ ↦ ?_) ⟨bad, hbadmem, ?_⟩
    · unfold nameRoom
      omega
    · unfold nameRoom
      rw [if_neg hbad]
      omega
  have hlength : (commaText charSigned (byteDb keys fun _ ↦ 1)).length =
      (keys.map fun key ↦ key.length + 5).sum := by
    rw [length_commaText, byteDb, List.map_map]
    rfl
  cases keys with
  | nil => exact (List.not_mem_nil hbadmem).elim
  | cons key keys =>
      have htext : byteDb (key :: keys) (fun _ ↦ 1) =
          ⟨key, .byte 1⟩ :: byteDb keys fun _ ↦ 1 := rfl
      rw [htext, kvText, readsText_object_iff] at hread
      obtain ⟨r, -, ⟨hr, -⟩ | ⟨members, hmembers, hroot⟩⟩ := hread
      · exact absurd (List.cons.inj hr).1 (by decide)
      · have hnames := namesRoom_le nameRoom_lower hdistinct (hmember members hroot)
        rw [← dropLast_commaText, ← htext] at hmembers
        have hroom := membersRoom_le hmembers
        have hpos := List.length_pos_of_ne_nil
          (commaText_ne_nil charSigned (htext ▸ List.cons_ne_nil _ _))
        rw [List.length_dropLast] at hroom
        omega

theorem map_key_byteDb (keys : List (List UInt8)) (value : List UInt8 → UInt8) :
    (byteDb keys value).map KvDb.key = keys := by
  rw [byteDb, List.map_map]
  exact List.map_id keys

theorem byteDb_ok {keys : List (List UInt8)} (hkeys : ∀ key ∈ keys, 0 ∉ key)
    (value : List UInt8 → UInt8) : ∀ e ∈ byteDb keys value, e.Ok := by
  intro e he
  obtain ⟨key, hkey, rfl⟩ := List.mem_map.mp he
  exact ⟨hkeys key hkey, fun text len h ↦ (nomatch h), fun bytes h ↦ (nomatch h)⟩

theorem byteDb_readable (charSigned : Bool) (keys : List (List UInt8))
    (value value' : List UInt8 → UInt8) :
    List.Forall₂ SameKey (byteDb keys value) (byteDb keys value') ∧
      List.Forall₂ (Readable charSigned) (byteDb keys value) (byteDb keys value') := by
  unfold byteDb
  constructor
  · rw [List.forall₂_map_left_iff, List.forall₂_map_right_iff, List.forall₂_same]
    exact fun key _ ↦ ⟨rfl, trivial⟩
  · rw [List.forall₂_map_left_iff, List.forall₂_map_right_iff, List.forall₂_same]
    exact fun key _ ↦ ⟨trivial, trivial⟩

theorem exists_not_readBack {c : Cjson} (hc : c.Standard) (charSigned : Bool) {src : List KvDb}
    (hsrc : ∀ e ∈ src, e.Ok) (hdistinct : (src.map KvDb.key).Nodup) (hkeys : ¬KeysKept src) :
    ∃ src' dst, src'.map KvDb.key = src.map KvDb.key ∧ (∀ e ∈ src', e.Ok) ∧
      List.Forall₂ SameKey src' dst ∧ List.Forall₂ (Readable charSigned) src' dst ∧
        ¬ReadBack c (kvText charSigned src') src' dst := by
  have hzero : ∀ key ∈ src.map KvDb.key, 0 ∉ key := by
    intro key hkey
    obtain ⟨e, he, rfl⟩ := List.mem_map.mp hkey
    exact (hsrc e he).key
  have hlost : ∃ value, ¬ReadBack c (kvText charSigned (byteDb (src.map KvDb.key) value))
      (byteDb (src.map KvDb.key) value) (byteDb (src.map KvDb.key) fun _ ↦ 0) := by
    by_cases hlower : ((src.map KvDb.key).map lower).Nodup
    · refine ⟨_, not_readBack_of_not_plain hc hlower ?_⟩
      by_contra hplain
      push Not at hplain
      rw [List.map_map] at hlower
      exact hkeys ⟨fun e he ↦ hplain e.key (List.mem_map_of_mem he), hlower⟩
    · rw [List.nodup_map_iff_inj_on hdistinct] at hlower
      push Not at hlower
      obtain ⟨key, hkey, key', hkey', hsame, hne⟩ := hlower
      exact ⟨_, not_readBack_of_lower hc hkey hkey' hne hsame⟩
  obtain ⟨value, hlost⟩ := hlost
  obtain ⟨hsame, hreadable⟩ := byteDb_readable charSigned (src.map KvDb.key) value fun _ ↦ 0
  exact ⟨_, _, map_key_byteDb _ _, byteDb_ok hzero value, hsame, hreadable, hlost⟩

/-! ## The exact condition -/

theorem roundTrips_iff {c : Cjson} {charSigned : Bool} {src dst : List KvDb} :
    RoundTrips c charSigned src dst ↔
      (kvText charSigned src).length < kvSize src % 2 ^ 32 ∧
        ReadBack c (kvText charSigned src) src dst := by
  unfold RoundTrips
  rw [kvSerialize_eq]
  constructor
  · rintro ⟨text, h, hback⟩
    split_ifs at h with hroom
    obtain rfl := (Prod.mk.inj (Option.some.inj h)).2
    exact ⟨hroom, hback⟩
  · rintro ⟨hroom, hback⟩
    exact ⟨_, if_pos hroom, hback⟩

/-- What is counted has room for the text, up to 2 ^ 32; beyond, nothing is written behind the
buffer only where the text has room by accident.  Where the keys are kept, the values decide what is
read back.  Of keys that are not, some bytes are not read back. -/
theorem kv_round_trip_iff {c : Cjson} (hc : c.Standard) (charSigned : Bool) {src dst : List KvDb}
    (hsrc : ∀ e ∈ src, e.Ok) (hdistinct : (src.map KvDb.key).Nodup)
    (hdst : List.Forall₂ SameKey src dst) :
    (kvSize src < 2 ^ 32 →
      kvSerialize charSigned true src = some (oprtOk, kvText charSigned src)) ∧
      ((∀ alloc, kvSerialize charSigned alloc src ≠ none) ↔
        (kvText charSigned src).length < kvSize src % 2 ^ 32) ∧
      (KeysKept src → (RoundTrips c charSigned src dst ↔
        (kvText charSigned src).length < kvSize src % 2 ^ 32 ∧
          List.Forall₂ (Readable charSigned) src dst)) ∧
      (¬KeysKept src → ∃ src' dst', src'.map KvDb.key = src.map KvDb.key ∧
        (∀ e ∈ src', e.Ok) ∧ List.Forall₂ SameKey src' dst' ∧
          List.Forall₂ (Readable charSigned) src' dst' ∧
            ¬ReadBack c (kvText charSigned src') src' dst') := by
  refine ⟨kvSerialize_inside charSigned hsrc, ?_, fun hkeys ↦ ?_, fun hkeys ↦ ?_⟩
  · constructor
    · intro h
      by_contra hroom
      exact h true (by rw [kvSerialize_eq, if_neg hroom])
    · rintro hroom (_ | _)
      · exact Option.some_ne_none _
      · rw [kvSerialize_eq, if_pos hroom]
        exact Option.some_ne_none _
  · rw [roundTrips_iff, readBack_iff_readable hc hsrc hdst hkeys]
  · exact exists_not_readBack hc charSigned hsrc hdistinct hkeys

/-- A reader that takes any reading of a text. -/
noncomputable def reader : Cjson where
  parse s := open Classical in if h : ∃ v, ReadsText s v then some h.choose else none
  getObjectItem json key :=
    match json with
    | .object members =>
        (members.find? fun member ↦ lower (cstr member.1) = lower key).map Prod.snd
    | _ => none

theorem reader_standard : reader.Standard where
  parse_reads := by
    intro s v h
    unfold reader at h
    dsimp only at h
    split_ifs at h with hread
    rw [← Option.some.inj h]
    exact hread.choose_spec
  parse_total := by
    intro s v h
    unfold reader
    dsimp only
    rw [dif_pos ⟨v, h⟩]
    rfl
  getObjectItem_object members key := rfl

/-- A string, a number and some bytes. -/
def sample (text : List UInt8) (n : Int32) (bytes : List UInt8) : List KvDb :=
  [⟨[0x6b], .string text 8⟩, ⟨[0x6e], .int n⟩, ⟨[0x72], .raw bytes⟩]

theorem sample_ok {text : List UInt8} (n : Int32) {bytes : List UInt8} (htext : 0 ∉ text)
    (hlen : text.length < 8) (hbytes : bytes.length < 2 ^ 16) :
    ∀ e ∈ sample text n bytes, e.Ok := by
  unfold sample
  simp only [List.forall_mem_cons]
  refine ⟨⟨?_, ?_, ?_⟩, ⟨?_, ?_, ?_⟩, ⟨?_, ?_, ?_⟩, fun e he ↦ (List.not_mem_nil he).elim⟩
  · change 0 ∉ ([0x6b] : List UInt8)
    decide
  · rintro text' len ⟨⟩
    exact ⟨htext, hlen, by decide⟩
  · exact fun bytes h ↦ nomatch h
  · change 0 ∉ ([0x6e] : List UInt8)
    decide
  · exact fun text len h ↦ nomatch h
  · exact fun bytes h ↦ nomatch h
  · change 0 ∉ ([0x72] : List UInt8)
    decide
  · exact fun text len h ↦ nomatch h
  · rintro bytes' ⟨⟩
    exact hbytes

theorem sample_keys (text : List UInt8) (n : Int32) (bytes : List UInt8) :
    KeysKept (sample text n bytes) ∧ ((sample text n bytes).map KvDb.key).Nodup := by
  have hplain : ∀ key ∈ (sample text n bytes).map KvDb.key, Plain key := by
    change ∀ key ∈ [[0x6b], [0x6e], [0x72]], Plain key
    decide
  refine ⟨⟨fun e he ↦ hplain _ (List.mem_map_of_mem he), ?_⟩, ?_⟩
  · change ([[0x6b], [0x6e], [0x72]] : List (List UInt8)).Nodup
    decide
  · change ([[0x6b], [0x6e], [0x72]] : List (List UInt8)).Nodup
    decide

theorem sample_same (text text' : List UInt8) (n n' : Int32) (bytes bytes' : List UInt8) :
    List.Forall₂ SameKey (sample text n bytes) (sample text' n' bytes') :=
  .cons ⟨rfl, trivial⟩ (.cons ⟨rfl, trivial⟩ (.cons ⟨rfl, trivial⟩ .nil))

/-- `{"k":"ab","n":-5,"r":"AQID" }`. -/
theorem kv_round_trip_iff_sample :
    RoundTrips reader false (sample [0x61, 0x62] (-5) [1, 2, 3]) (sample [] 0 [0, 0, 0]) := by
  have hok : ∀ e ∈ sample [0x61, 0x62] (-5) [1, 2, 3], e.Ok :=
    sample_ok (-5) (by decide) (by decide) (by decide)
  obtain ⟨hkeys, hdistinct⟩ := sample_keys [0x61, 0x62] (-5) [1, 2, 3]
  have hplain : Plain [0x61, 0x62] := by decide
  have hsize : kvSize (sample [0x61, 0x62] (-5) [1, 2, 3]) < 2 ^ 32 := by decide
  have hroom := length_kvText_lt false hok
  refine ((kv_round_trip_iff reader_standard false hok hdistinct
    (sample_same _ [] _ 0 _ [0, 0, 0])).2.2.1 hkeys).mpr ⟨?_, ?_⟩
  · rwa [Nat.mod_eq_of_lt hsize]
  · exact .cons ⟨hplain, by change 2 < 8; decide⟩
      (.cons ⟨trivial, trivial⟩ (.cons ⟨trivial, Or.inr rfl⟩ .nil))

/-- A quote is printed as it is, and ends the string. -/
theorem quote_is_printed :
    (∀ e ∈ sample [quote] 0 [], e.Ok) ∧ KeysKept (sample [quote] 0 []) ∧
      List.Forall₂ SameKey (sample [quote] 0 []) (sample [] 0 []) ∧
        ¬RoundTrips reader true (sample [quote] 0 []) (sample [] 0 []) := by
  have hok : ∀ e ∈ sample [quote] 0 [], e.Ok :=
    sample_ok 0 (by decide) (by decide) (by decide)
  have hkeys := (sample_keys [quote] 0 []).1
  have hsame := sample_same [quote] [] 0 0 [] []
  refine ⟨hok, hkeys, hsame, fun h ↦ ?_⟩
  have hreadable := (readBack_iff_readable reader_standard hok hsame hkeys).mp
    (roundTrips_iff.mp h).2
  obtain ⟨⟨hplain, -⟩, -⟩ := List.forall₂_cons.mp hreadable
  have hquote : ¬Plain [quote] := by decide
  exact hquote hplain

end TuyaOpen.Kv
