import Mathlib.Data.Bool.AllAny
import Mathlib.Data.List.Forall2
import TuyaOpen.Lib.CStr
import TuyaOpen.Lib.JsonRead

/-!
# Acknowledging a dynamic configuration

`matop_service.c`: the text of the acknowledgement is put together in a buffer of 128 bytes.  The
place of each piece is the length that the pieces before it would take.
-/

namespace TuyaOpen.Cloud

open CStr (textOf textOf_append snprintfAt length_of_snprintfAt snprintfAt_isSome_iff
  snprintfAt_append)
open JsonText JsonRead

def dynamicCfgAckBufferLen : ℕ := 128

def sizeT : ℕ := 2 ^ 32

/-- `DYNAMIC_CFG_ACK_BUFFER_LEN - offset` as a `size_t`. -/
def ackRest (offset : ℕ) : ℕ := (((dynamicCfgAckBufferLen : ℤ) - offset) % sizeT).toNat

/-- `offset` has 16 bits. -/
def ackOffset (n : ℕ) : ℕ := n % 2 ^ 16

/-! ## The pieces -/

/-- `ackList`. -/
def ackListName : List UInt8 := [0x61, 0x63, 0x6b, 0x4c, 0x69, 0x73, 0x74]

/-- `type`. -/
def typeName : List UInt8 := [0x74, 0x79, 0x70, 0x65]

/-- `ackId`. -/
def ackIdName : List UInt8 := [0x61, 0x63, 0x6b, 0x49, 0x64]

/-- `timezone`. -/
def timezoneName : List UInt8 := [0x74, 0x69, 0x6d, 0x65, 0x7a, 0x6f, 0x6e, 0x65]

/-- `rateRule`. -/
def rateRuleName : List UInt8 := [0x72, 0x61, 0x74, 0x65, 0x52, 0x75, 0x6c, 0x65]

/-- A name between quotes, and its colon. -/
def nameText (name rest : List UInt8) : List UInt8 := quote :: (name ++ quote :: colon :: rest)

def ackHead : List UInt8 := lbrace :: nameText ackListName [lbracket]

/-- An entry up to its id. -/
def entryText (type rest : List UInt8) : List UInt8 :=
  lbrace :: nameText typeName (quote :: (type ++ quote :: comma :: nameText ackIdName rest))

/-- The id stands between quotes. -/
def timezoneText (timezoneAckId : List UInt8) : List UInt8 :=
  entryText timezoneName (quote :: (timezoneAckId ++ [quote, rbrace]))

/-- The id stands as it is. -/
def rateRuleText (rateRuleActId : List UInt8) : List UInt8 :=
  entryText rateRuleName (rateRuleActId ++ [rbrace])

/-- `%d` prints the time as a signed number. -/
def ackTail (posix : UInt32) : List UInt8 :=
  rbracket :: comma :: nameText [0x74] (intText posix.toInt32.toInt ++ [rbrace])

/-- The entry for an id, behind what is in the buffer. -/
def ackEntry (spell : List UInt8 → List UInt8) (id : Option (List UInt8)) (s : List UInt8 × ℕ) :
    Option (List UInt8 × ℕ) :=
  match id with
  | none => some s
  | some id => (snprintfAt s.1 s.2 (ackRest s.2) (spell id)).map fun buffer ↦
      (buffer, ackOffset (s.2 + (spell id).length))

/-- `matop_service_dynamic_cfg_ack`: the buffer that its request sends the text of. -/
def matopServiceDynamicCfgAck (timezoneAckId rateRuleActId : Option (List UInt8)) (posix : UInt32) :
    Option (List UInt8) := do
  let buffer ← snprintfAt (List.replicate dynamicCfgAckBufferLen 0) 0 dynamicCfgAckBufferLen ackHead
  let s ← ackEntry timezoneText timezoneAckId (buffer, ackOffset ackHead.length)
  let s ← ackEntry rateRuleText rateRuleActId s
  snprintfAt s.1 s.2 dynamicCfgAckBufferLen (ackTail posix)

/-! ## What is promised -/

/-- A string without characters that JSON must escape. -/
abbrev PlainId := {id : List UInt8 // Plain id}

/-- The whole text. -/
def ackText (timezoneAckId rateRuleActId : Option PlainId) (posix : UInt32) : List UInt8 :=
  ackHead ++ (timezoneAckId.elim [] (timezoneText ·.1) ++
    (rateRuleActId.elim [] (rateRuleText ·.1) ++ ackTail posix))

def AckFits (timezoneAckId rateRuleActId : Option PlainId) (posix : UInt32) : Prop :=
  (ackText timezoneAckId rateRuleActId posix).length < dynamicCfgAckBufferLen

/-- An id, as a string or as the value that it spells. -/
def Names (id : List UInt8) (v : Json) : Prop := v = .string id ∨ ReadsText id v

/-- An entry of the list is for an id of a type. -/
def IsEntry (id : List UInt8 × List UInt8) (entry : Json) : Prop :=
  ∃ v, entry = .object [(typeName, .string id.1), (ackIdName, v)] ∧ Names id.2 v

/-- The ids that are given, with their types. -/
def givenIds (timezoneAckId rateRuleActId : Option PlainId) : List (List UInt8 × List UInt8) :=
  timezoneAckId.elim [] (fun id ↦ [(timezoneName, id.1)]) ++
    rateRuleActId.elim [] fun id ↦ [(rateRuleName, id.1)]

/-- A JSON object whose `ackList` has one entry for each given id. -/
def Acknowledges (ids : List (List UInt8 × List UInt8)) (text : List UInt8) : Prop :=
  ∃ members items, ReadsText text (.object members) ∧
    members.lookup ackListName = some (.array items) ∧ List.Forall₂ IsEntry ids items

/-- The writes stay inside the buffer, and where everything fits the text is as it should be. -/
structure AckSound (timezoneAckId rateRuleActId : Option PlainId) (posix : UInt32) : Prop where
  inside : (matopServiceDynamicCfgAck (timezoneAckId.map (·.1)) (rateRuleActId.map (·.1))
    posix).isSome
  text : AckFits timezoneAckId rateRuleActId posix → ∀ buffer,
    matopServiceDynamicCfgAck (timezoneAckId.map (·.1)) (rateRuleActId.map (·.1)) posix =
      some buffer → Acknowledges (givenIds timezoneAckId rateRuleActId) (textOf buffer).1

/-! ## The condition -/

/-- What stands in front of the entry for the rate rule. -/
def rateRuleOffset (timezoneAckId : Option PlainId) : ℕ :=
  ackOffset (12 + timezoneAckId.elim 0 (30 + ·.1.length))

/-- The entry for the rate rule begins inside the buffer, and there is room for the end. -/
def AckRoom (timezoneAckId rateRuleActId : Option PlainId) (posix : UInt32) : Prop :=
  match rateRuleActId with
  | none => rateRuleOffset timezoneAckId + (ackTail posix).length < dynamicCfgAckBufferLen
  | some id => rateRuleOffset timezoneAckId ≤ dynamicCfgAckBufferLen ∧
      ackOffset (rateRuleOffset timezoneAckId + (28 + id.1.length)) + (ackTail posix).length <
        dynamicCfgAckBufferLen

/-- At most one id is given, and that of a rate rule spells a value. -/
def AckWellFormed (timezoneAckId rateRuleActId : Option PlainId) : Prop :=
  ∀ id ∈ rateRuleActId, timezoneAckId = none ∧ ∃ v, ReadsText id.1 v

/-! ## The buffer -/

@[simp] theorem length_timezoneText (id : List UInt8) :
    (timezoneText id).length = 30 + id.length := by
  simp [timezoneText, entryText, nameText, typeName, timezoneName, ackIdName]
  omega

@[simp] theorem length_rateRuleText (id : List UInt8) :
    (rateRuleText id).length = 28 + id.length := by
  simp [rateRuleText, entryText, nameText, typeName, rateRuleName, ackIdName]
  omega

theorem length_ackTail_le (posix : UInt32) : (ackTail posix).length ≤ 18 := by
  have hnat : (natText posix.toInt32.toInt.natAbs).length ≤ 10 := by
    apply length_natText_le (by decide)
    have hlow := posix.toInt32.le_toInt
    have hhigh := posix.toInt32.toInt_lt
    omega
  have hint : (intText posix.toInt32.toInt).length ≤ 11 := by
    unfold intText
    split
    · rw [List.length_cons]
      omega
    · omega
  simp [ackTail, nameText]
  omega

theorem ackRest_of_le {offset : ℕ} (h : offset ≤ dynamicCfgAckBufferLen) :
    ackRest offset = dynamicCfgAckBufferLen - offset := by
  unfold ackRest sizeT dynamicCfgAckBufferLen at *
  omega

theorem ackRest_pos {offset : ℕ} (h : dynamicCfgAckBufferLen < offset) (hlt : offset < 2 ^ 16) :
    0 < ackRest offset := by
  unfold ackRest sizeT dynamicCfgAckBufferLen at *
  omega

theorem ackEntry_isSome_iff {spell : List UInt8 → List UInt8} {id : List UInt8}
    {s : List UInt8 × ℕ} (hbuffer : s.1.length = dynamicCfgAckBufferLen) (hoffset : s.2 < 2 ^ 16) :
    (ackEntry spell (some id) s).isSome ↔ s.2 ≤ dynamicCfgAckBufferLen := by
  unfold ackEntry
  rw [Option.isSome_map]
  obtain hlt | heq | hgt := lt_trichotomy s.2 dynamicCfgAckBufferLen
  · have hrest := ackRest_of_le hlt.le
    rw [snprintfAt_isSome_iff (by omega), hbuffer]
    omega
  · have hrest : ackRest s.2 = 0 := by
      rw [ackRest_of_le heq.le]
      omega
    simp [snprintfAt, hrest, heq.le]
  · rw [snprintfAt_isSome_iff (ackRest_pos hgt hoffset), hbuffer]
    omega

theorem ackEntry_some {spell : List UInt8 → List UInt8} {id : List UInt8}
    {s s' : List UInt8 × ℕ} (h : ackEntry spell (some id) s = some s') :
    s'.1.length = s.1.length ∧ s'.2 = ackOffset (s.2 + (spell id).length) := by
  unfold ackEntry at h
  obtain ⟨buffer, hbuffer, rfl⟩ := Option.map_eq_some_iff.mp h
  exact ⟨length_of_snprintfAt hbuffer, rfl⟩

theorem snprintfAt_zeros {front text : List UInt8} {n size : ℕ} (hsize : text.length < size)
    (hroom : text.length < n) :
    snprintfAt (front ++ List.replicate n 0) front.length size text =
      some (front ++ text ++ List.replicate (n - text.length) 0) := by
  obtain ⟨m, rfl⟩ : ∃ m, n = text.length + 1 + m := ⟨n - text.length - 1, by omega⟩
  have hzeros : text.length + 1 + m - text.length = m + 1 := by omega
  rw [snprintfAt_append hsize (by simpa using hroom), hzeros]
  simp [List.replicate_succ]

theorem ackOffset_lt (n : ℕ) : ackOffset n < 2 ^ 16 := Nat.mod_lt _ (by decide)

theorem ackOffset_of_lt {n : ℕ} (h : n < 2 ^ 16) : ackOffset n = n := Nat.mod_eq_of_lt h

@[simp] theorem length_ackHead : ackHead.length = 12 := rfl

/-- Text at the start of the buffer, with zeros behind it, and the place behind the text. -/
def filled (text : List UInt8) : List UInt8 × ℕ :=
  (text ++ List.replicate (dynamicCfgAckBufferLen - text.length) 0, text.length)

theorem length_filled {text : List UInt8} (h : text.length < dynamicCfgAckBufferLen) :
    (filled text).1.length = dynamicCfgAckBufferLen := by
  simp only [filled, List.length_append, List.length_replicate]
  omega

theorem snprintfAt_head :
    snprintfAt (List.replicate dynamicCfgAckBufferLen 0) 0 dynamicCfgAckBufferLen ackHead =
      some (filled ackHead).1 := by
  have happend := @snprintfAt_zeros [] ackHead dynamicCfgAckBufferLen dynamicCfgAckBufferLen
    (by decide) (by decide)
  simpa only [List.nil_append, List.length_nil, filled] using happend

theorem filled_head : ((filled ackHead).1, ackOffset ackHead.length) = filled ackHead := rfl

theorem timezone_written (timezoneAckId : Option PlainId) :
    ∃ s, ackEntry timezoneText (timezoneAckId.map (·.1)) (filled ackHead) = some s ∧
      s.1.length = dynamicCfgAckBufferLen ∧ s.2 = rateRuleOffset timezoneAckId := by
  have hhead := @length_filled ackHead (by decide)
  cases timezoneAckId with
  | none => exact ⟨filled ackHead, rfl, hhead, rfl⟩
  | some id =>
      have hiff := @ackEntry_isSome_iff timezoneText id.1 _ hhead
        (show ackHead.length < 2 ^ 16 by decide)
      have hsome := hiff.mpr (show ackHead.length ≤ dynamicCfgAckBufferLen by decide)
      obtain ⟨s, hs⟩ := Option.isSome_iff_exists.mp hsome
      obtain ⟨hlength, hoffset⟩ := ackEntry_some hs
      refine ⟨s, hs, hlength.trans hhead, ?_⟩
      rw [hoffset, length_timezoneText]
      rfl

theorem tail_isSome_iff {s : List UInt8 × ℕ} (h : s.1.length = dynamicCfgAckBufferLen)
    (posix : UInt32) :
    (snprintfAt s.1 s.2 dynamicCfgAckBufferLen (ackTail posix)).isSome ↔
      s.2 + (ackTail posix).length < dynamicCfgAckBufferLen := by
  have hlength := length_ackTail_le posix
  rw [snprintfAt_isSome_iff (by decide), h]
  unfold dynamicCfgAckBufferLen
  omega

theorem inside_iff (timezoneAckId rateRuleActId : Option PlainId) (posix : UInt32) :
    (matopServiceDynamicCfgAck (timezoneAckId.map (·.1)) (rateRuleActId.map (·.1)) posix).isSome ↔
      AckRoom timezoneAckId rateRuleActId posix := by
  obtain ⟨s, hs, hlength, hoffset⟩ := timezone_written timezoneAckId
  unfold matopServiceDynamicCfgAck AckRoom
  simp only [snprintfAt_head, Option.bind_eq_bind, Option.bind_some, filled_head, hs]
  rw [← hoffset]
  cases rateRuleActId with
  | none => exact tail_isSome_iff hlength posix
  | some id =>
      have hiff := @ackEntry_isSome_iff rateRuleText id.1 _ hlength
        (hoffset ▸ ackOffset_lt _)
      dsimp only [Option.map_some]
      rw [← hiff]
      cases hentry : ackEntry rateRuleText (some id.1) s with
      | none => simp
      | some s' =>
          obtain ⟨hlength', hoffset'⟩ := ackEntry_some hentry
          rw [Option.bind_some, tail_isSome_iff (hlength'.trans hlength), hoffset',
            length_rateRuleText]
          simp

/-! ## The text -/

theorem ackEntry_filled {spell : List UInt8 → List UInt8} {id : Option (List UInt8)}
    {front : List UInt8} (h : (front ++ id.elim [] spell).length < dynamicCfgAckBufferLen) :
    ackEntry spell id (filled front) = some (filled (front ++ id.elim [] spell)) := by
  cases id with
  | none => simp [ackEntry]
  | some id =>
      rw [Option.elim_some, List.length_append] at h
      have hoffset : ackOffset (front.length + (spell id).length) =
          front.length + (spell id).length := ackOffset_of_lt (h.trans (by decide))
      unfold ackEntry filled
      dsimp only [Option.elim_some]
      rw [ackRest_of_le (by omega), snprintfAt_zeros (by omega) (by omega), Option.map_some,
        hoffset, Nat.sub_sub, List.length_append]

theorem matopServiceDynamicCfgAck_text {timezoneAckId rateRuleActId : Option PlainId}
    {posix : UInt32} (h : AckFits timezoneAckId rateRuleActId posix) :
    matopServiceDynamicCfgAck (timezoneAckId.map (·.1)) (rateRuleActId.map (·.1)) posix =
      some (filled (ackText timezoneAckId rateRuleActId posix)).1 := by
  have hmap : ∀ (id : Option PlainId) (spell : List UInt8 → List UInt8),
      (id.map (·.1)).elim [] spell = id.elim [] (spell ·.1) := by
    intro id spell
    cases id <;> rfl
  unfold AckFits ackText at h
  simp only [List.length_append] at h
  unfold matopServiceDynamicCfgAck ackText
  simp only [snprintfAt_head, Option.bind_eq_bind, Option.bind_some, filled_head]
  rw [ackEntry_filled (by simp only [hmap, List.length_append]; omega), Option.bind_some,
    ackEntry_filled (by simp only [hmap, List.length_append]; omega), Option.bind_some, hmap, hmap]
  have hlast := length_ackTail_le posix
  unfold filled
  dsimp only
  rw [snprintfAt_zeros (hlast.trans_lt (by decide)) (by simp only [List.length_append]; omega)]
  simp only [List.append_assoc, List.length_append, Nat.sub_sub, Nat.add_assoc]

theorem plain_names : Plain ackListName ∧ Plain typeName ∧ Plain ackIdName ∧
    Plain timezoneName ∧ Plain rateRuleName ∧ Plain [0x74] := by
  have hplain : ∀ w : List UInt8, (∀ b ∈ w, 0x20 ≤ b ∧ b ≠ quote ∧ b ≠ backslash) → Plain w :=
    fun w h b hb ↦ ⟨(h b hb).1, (h b hb).2.1, (h b hb).2.2⟩
  refine ⟨hplain _ ?_, hplain _ ?_, hplain _ ?_, hplain _ ?_, hplain _ ?_, hplain _ ?_⟩ <;>
    exact List.all_iff_forall_prop.mp rfl

theorem zero_notMem_ackText (timezoneAckId rateRuleActId : Option PlainId) (posix : UInt32) :
    0 ∉ ackText timezoneAckId rateRuleActId posix := by
  have hid : ∀ id : PlainId, 0 ∉ id.1 := fun id ↦ id.2.zero_notMem
  have htime : 0 ∉ intText posix.toInt32.toInt := by
    intro h
    have hnumber := intText_numberByte _ 0 h
    unfold NumberByte IsDigit at hnumber
    revert hnumber
    decide
  unfold ackText ackHead ackTail timezoneText rateRuleText entryText nameText
  cases timezoneAckId <;> cases rateRuleActId <;>
    simp [ackListName, typeName, ackIdName, timezoneName, rateRuleName, lbrace, rbrace, lbracket,
      rbracket, quote, colon, comma, hid, htime]

theorem textOf_filled {text : List UInt8} (hzero : 0 ∉ text)
    (h : text.length < dynamicCfgAckBufferLen) : (textOf (filled text).1).1 = text := by
  obtain ⟨n, hn⟩ : ∃ n, dynamicCfgAckBufferLen - text.length = n + 1 :=
    ⟨dynamicCfgAckBufferLen - text.length - 1, by omega⟩
  unfold filled
  rw [hn, List.replicate_succ, textOf_append ⟨text, hzero⟩]

theorem readsValue_entryText_iff {type rest r : List UInt8} {entry : Json} (htype : Plain type) :
    ReadsValue (entryText type rest) entry r ↔ ∃ v t, ReadsValue (skip rest) v t ∧
      ((entry = .object [(typeName, .string type), (ackIdName, v)] ∧ skip t = rbrace :: r) ∨
        ∃ u more, entry = .object ((typeName, .string type) :: (ackIdName, v) :: more) ∧
          skip t = comma :: u ∧ ReadsMembers u more r) := by
  have hquote : ∀ s, skip (quote :: s) = quote :: s := fun s ↦ skip_cons (by decide) s
  have hcomma : ∀ s, skip (comma :: s) = comma :: s := fun s ↦ skip_cons (by decide) s
  have hvalue : ∀ s, ReadsValue (quote :: (type ++ quote :: s)) (.string type) s :=
    fun s ↦ .string (readsString_plain htype s)
  unfold entryText nameText
  rw [readsValue_object_iff]
  constructor
  · rintro (⟨hempty, -⟩ | ⟨members, hmembers, rfl⟩)
    · rw [hquote] at hempty
      cases hempty
    · rw [readsMembers_skip_iff plain_names.2.1] at hmembers
      obtain ⟨v, t, hread, hrest⟩ := hmembers
      rw [hquote] at hread
      obtain ⟨d, rfl, hd⟩ := readsValue_quote hread
      obtain ⟨rfl, rfl⟩ := readsString_of_plain htype hd
      rw [hcomma] at hrest
      obtain ⟨-, hend⟩ | ⟨u, more, rfl, hu, hmore⟩ := hrest
      · cases hend
      · obtain ⟨-, rfl⟩ := List.cons.inj hu
        rw [readsMembers_skip_iff plain_names.2.2.1] at hmore
        obtain ⟨v, t, hread, ⟨rfl, hend⟩ | ⟨u, more, rfl, hu, hmore⟩⟩ := hmore
        · exact ⟨v, t, hread, .inl ⟨rfl, hend⟩⟩
        · exact ⟨v, t, hread, .inr ⟨u, more, rfl, hu, hmore⟩⟩
  · rintro ⟨v, t, hread, hrest⟩
    obtain ⟨members, hmembers, rfl⟩ : ∃ members, ReadsMembers
        (quote :: (ackIdName ++ quote :: colon :: rest)) members r ∧
          entry = .object ((typeName, .string type) :: members) := by
      obtain ⟨rfl, hend⟩ | ⟨u, more, rfl, hu, hmore⟩ := hrest
      · exact ⟨_, (readsMembers_skip_iff plain_names.2.2.1).mpr ⟨v, t, hread, .inl ⟨rfl, hend⟩⟩,
          rfl⟩
      · exact ⟨_, (readsMembers_skip_iff plain_names.2.2.1).mpr
          ⟨v, t, hread, .inr ⟨u, more, rfl, hu, hmore⟩⟩, rfl⟩
    refine .inr ⟨_, (readsMembers_skip_iff plain_names.2.1).mpr ?_, rfl⟩
    refine ⟨.string type, _, ?_, .inr ⟨_, members, rfl, hcomma _, hmembers⟩⟩
    rw [hquote]
    exact hvalue _

theorem ackTail_reads (posix : UInt32) :
    ∃ t, skip (ackTail posix) = rbracket :: comma :: t ∧
      ReadsMembers t [([0x74], .number posix.toInt32.toInt)] [] := by
  have hlow := posix.toInt32.le_toInt
  have hhigh := posix.toInt32.toInt_lt
  have hwritten : Written (intText posix.toInt32.toInt) (.number posix.toInt32.toInt) :=
    .number hlow hhigh
  have hbrace : ∀ b ∈ [rbrace].head?, ¬NumberByte b := by
    intro b hb
    obtain rfl : rbrace = b := by simpa using hb
    unfold NumberByte IsDigit
    decide
  refine ⟨_, skip_cons (by decide) _, ?_⟩
  apply (readsMembers_skip_iff plain_names.2.2.2.2.2).mpr
  refine ⟨_, [rbrace], ?_, .inl ⟨rfl, skip_cons (by decide) _⟩⟩
  rw [hwritten.skip_eq]
  exact hwritten.reads hbrace

section Text

variable {timezoneAckId rateRuleActId : Option PlainId} {posix : UInt32}

theorem acknowledges_of_array {ids : List (List UInt8 × List UInt8)} {body : List UInt8}
    {items : List Json} {u : List UInt8} (hitems : List.Forall₂ IsEntry ids items)
    (harray : ReadsValue (lbracket :: body) (.array items) (comma :: u))
    (htail : ReadsMembers u [([0x74], .number posix.toInt32.toInt)] []) :
    Acknowledges ids (ackHead ++ body) := by
  have hskip : skip (lbracket :: body) = lbracket :: body := skip_cons (by decide) body
  have hmembers := (readsMembers_skip_iff plain_names.1).mpr
    ⟨.array items, comma :: u, hskip ▸ harray, .inr ⟨u, _, rfl, skip_cons (by decide) u, htail⟩⟩
  exact ⟨_, items, readsText_object_iff.mpr ⟨[], rfl, .inr ⟨_, hmembers, rfl⟩⟩,
    List.lookup_cons_self, hitems⟩

theorem array_of_acknowledges {ids : List (List UInt8 × List UInt8)} {body : List UInt8}
    (h : Acknowledges ids (ackHead ++ body)) :
    ∃ items t, ReadsValue (lbracket :: body) (.array items) t ∧ List.Forall₂ IsEntry ids items := by
  obtain ⟨members, items, hread, hlookup, hitems⟩ := h
  obtain ⟨r, -, ⟨hempty, -⟩ | ⟨members', hmembers, heq⟩⟩ := readsText_object_iff.mp hread
  · have hquote := (skip_cons (b := quote) (by decide) _).symm.trans hempty
    cases hquote
  obtain rfl := Json.object.inj heq
  obtain ⟨v, t, hvalue, hrest⟩ := (readsMembers_skip_iff plain_names.1).mp hmembers
  have hfirst : members.lookup ackListName = some v := by
    obtain ⟨rfl, -⟩ | ⟨u, more, rfl, -⟩ := hrest <;> exact List.lookup_cons_self
  obtain rfl := Option.some.inj (hlookup.symm.trans hfirst)
  exact ⟨items, t, hvalue, hitems⟩

theorem not_quote_of_skip {id tail s : List UInt8} (hid : Plain id) :
    skip (id ++ rbrace :: tail) ≠ quote :: s := by
  intro h
  cases hskip : skip id with
  | nil =>
      rw [skip_append_of_eq_nil hskip, skip_cons (by decide)] at h
      cases h
  | cons b t =>
      rw [skip_append_of_eq_cons hskip] at h
      obtain ⟨rfl, -⟩ := List.cons.inj h
      have hmem : quote ∈ skip id := hskip ▸ List.mem_cons_self
      exact (hid quote ((List.dropWhile_sublist isBlank).subset hmem)).quote rfl

theorem readsValue_string_inv {s w r : List UInt8} (h : ReadsValue s (.string w) r) :
    ∃ t, s = quote :: t := by
  cases h with
  | string h => exact ⟨_, rfl⟩

theorem readsValue_timezoneText_iff {id : PlainId} {rest r : List UInt8} {entry : Json} :
    ReadsValue (timezoneText id.1 ++ rest) entry r ↔
      entry = .object [(typeName, .string timezoneName), (ackIdName, .string id.1)] ∧ r = rest := by
  have hsplit : timezoneText id.1 ++ rest =
      entryText timezoneName (quote :: (id.1 ++ quote :: rbrace :: rest)) := by
    simp [timezoneText, entryText, nameText]
  have hquote : skip (quote :: (id.1 ++ quote :: rbrace :: rest)) =
      quote :: (id.1 ++ quote :: rbrace :: rest) := skip_cons (by decide) _
  have hbrace : skip (rbrace :: rest) = rbrace :: rest := skip_cons (by decide) _
  rw [hsplit, readsValue_entryText_iff plain_names.2.2.2.1, hquote]
  constructor
  · rintro ⟨v, t, hread, hrest⟩
    obtain ⟨d, rfl, hd⟩ := readsValue_quote hread
    obtain ⟨rfl, rfl⟩ := readsString_of_plain id.2 hd
    rw [hbrace] at hrest
    obtain ⟨rfl, hend⟩ | ⟨u, more, -, hu, -⟩ := hrest
    · exact ⟨rfl, (List.cons.inj hend).2.symm⟩
    · cases hu
  · rintro ⟨rfl, rfl⟩
    exact ⟨_, _, .string (readsString_plain id.2 _), .inl ⟨rfl, hbrace⟩⟩

theorem rateRule_split (id : PlainId) (rest : List UInt8) :
    rateRuleText id.1 ++ rest = entryText rateRuleName (id.1 ++ rbrace :: rest) := by
  simp [rateRuleText, entryText, nameText]

theorem skip_entryText (type rest : List UInt8) :
    skip (entryText type rest) = entryText type rest := skip_cons (by decide) _

theorem acknowledges_none : Acknowledges [] (ackHead ++ ackTail posix) := by
  obtain ⟨t, htail, hmembers⟩ := ackTail_reads posix
  exact acknowledges_of_array .nil (readsValue_array_iff.mpr (.inl ⟨htail, rfl⟩)) hmembers

theorem acknowledges_timezone (id : PlainId) :
    Acknowledges [(timezoneName, id.1)] (ackHead ++ (timezoneText id.1 ++ ackTail posix)) := by
  obtain ⟨t, htail, hmembers⟩ := ackTail_reads posix
  have hentry := (@readsValue_timezoneText_iff id (ackTail posix) _ _).mpr ⟨rfl, rfl⟩
  have hskip : skip (timezoneText id.1 ++ ackTail posix) = timezoneText id.1 ++ ackTail posix :=
    skip_cons (by decide) _
  refine acknowledges_of_array ?_ (.array (.one (by rwa [hskip]) htail)) hmembers
  exact .cons ⟨_, rfl, .inl rfl⟩ .nil

theorem acknowledges_rateRule_iff (id : PlainId) :
    Acknowledges [(rateRuleName, id.1)] (ackHead ++ (rateRuleText id.1 ++ ackTail posix)) ↔
      ∃ v, ReadsText id.1 v := by
  rw [rateRule_split]
  constructor
  · intro h
    obtain ⟨items, t, harray, hitems⟩ := array_of_acknowledges h
    obtain ⟨entry, rest, ⟨v, rfl, hnames⟩, hnil, rfl⟩ := List.forall₂_cons_left_iff.mp hitems
    obtain rfl := List.forall₂_nil_left_iff.mp hnil
    obtain rfl | hread := hnames
    · -- The id cannot be read as a string: it has no quotes.
      obtain ⟨-, hempty⟩ | ⟨items, hread, heq⟩ := readsValue_array_iff.mp harray
      · cases hempty
      obtain rfl := Json.array.inj heq
      obtain ⟨t', hentry⟩ : ∃ t', ReadsValue (skip (entryText rateRuleName
          (id.1 ++ rbrace :: ackTail posix))) (.object [(typeName, .string rateRuleName),
            (ackIdName, .string id.1)]) t' := by
        cases hread with
        | one h => exact ⟨_, h⟩
        | more h => exact ⟨_, h⟩
      rw [skip_entryText, readsValue_entryText_iff plain_names.2.2.2.2.1] at hentry
      obtain ⟨v, t'', hvalue, hrest⟩ := hentry
      obtain rfl : v = .string id.1 := by
        obtain ⟨heq, -⟩ | ⟨u, more, heq, -⟩ := hrest <;> simp at heq <;> simp [heq]
      obtain ⟨s, hs⟩ := readsValue_string_inv hvalue
      exact (not_quote_of_skip id.2 hs).elim
    · exact ⟨v, hread⟩
  · rintro ⟨v, r, hread, hblank⟩
    obtain ⟨t, htail, hmembers⟩ := ackTail_reads posix
    have hbrace : ∀ b ∈ (rbrace :: ackTail posix).head?, ¬NumberByte b := by
      intro b hb
      obtain rfl : rbrace = b := by simpa using hb
      unfold NumberByte IsDigit
      decide
    have hvalue : ReadsValue (skip (id.1 ++ rbrace :: ackTail posix)) v
        (r ++ rbrace :: ackTail posix) := by
      rw [skip_append hread.ne_nil]
      exact hread.append hbrace
    have hend : skip (r ++ rbrace :: ackTail posix) = rbrace :: ackTail posix := by
      rw [skip_append_of_eq_nil hblank, skip_cons (by decide)]
    have hentry := (readsValue_entryText_iff plain_names.2.2.2.2.1).mpr
      ⟨v, _, hvalue, .inl ⟨rfl, hend⟩⟩
    refine acknowledges_of_array ?_ (.array (.one (by rwa [skip_entryText]) htail)) hmembers
    exact .cons ⟨v, rfl, .inr ⟨r, hread, hblank⟩⟩ .nil

theorem not_acknowledges_both (timezoneId rateRuleId : PlainId) :
    ¬Acknowledges [(timezoneName, timezoneId.1), (rateRuleName, rateRuleId.1)]
      (ackHead ++ (timezoneText timezoneId.1 ++ (rateRuleText rateRuleId.1 ++ ackTail posix))) := by
  intro h
  rw [rateRule_split] at h
  obtain ⟨items, t, harray, hitems⟩ := array_of_acknowledges h
  obtain ⟨-, hempty⟩ | ⟨items', hread, heq⟩ := readsValue_array_iff.mp harray
  · obtain rfl := Json.array.inj hempty
    cases hitems
  have hskip : ∀ rest, skip (timezoneText timezoneId.1 ++ rest) =
      timezoneText timezoneId.1 ++ rest :=
    fun rest ↦ skip_cons (by decide) _
  cases hread with
  | one h hend =>
      rw [hskip, readsValue_timezoneText_iff] at h
      obtain ⟨-, rfl⟩ := h
      rw [skip_entryText] at hend
      cases hend
  | more h hcomma =>
      rw [hskip, readsValue_timezoneText_iff] at h
      obtain ⟨-, rfl⟩ := h
      rw [skip_entryText] at hcomma
      cases hcomma

theorem acknowledges_iff :
    Acknowledges (givenIds timezoneAckId rateRuleActId)
        (ackText timezoneAckId rateRuleActId posix) ↔
      AckWellFormed timezoneAckId rateRuleActId := by
  unfold ackText AckWellFormed
  cases timezoneAckId with
  | none =>
      cases rateRuleActId with
      | none => exact iff_of_true acknowledges_none (by simp)
      | some id => simpa [givenIds] using acknowledges_rateRule_iff id
  | some timezoneId =>
      cases rateRuleActId with
      | none => exact iff_of_true (acknowledges_timezone timezoneId) (by simp)
      | some id => exact iff_of_false (not_acknowledges_both timezoneId id) (by simp)

end Text

/-- The writes stay inside if there is room, and the text is right where it fits if at most one id
is given and that of a rate rule spells a value. -/
theorem dynamic_cfg_ack_iff (timezoneAckId rateRuleActId : Option PlainId) (posix : UInt32) :
    AckSound timezoneAckId rateRuleActId posix ↔
      AckRoom timezoneAckId rateRuleActId posix ∧
        (AckFits timezoneAckId rateRuleActId posix →
          AckWellFormed timezoneAckId rateRuleActId) := by
  have htext : ∀ hfits : AckFits timezoneAckId rateRuleActId posix,
      (textOf (filled (ackText timezoneAckId rateRuleActId posix)).1).1 =
        ackText timezoneAckId rateRuleActId posix :=
    textOf_filled (zero_notMem_ackText timezoneAckId rateRuleActId posix)
  constructor
  · intro h
    refine ⟨(inside_iff timezoneAckId rateRuleActId posix).mp h.inside, fun hfits ↦ ?_⟩
    have hack := h.text hfits _ (matopServiceDynamicCfgAck_text hfits)
    rw [htext hfits] at hack
    exact acknowledges_iff.mp hack
  · rintro ⟨hroom, hformed⟩
    refine ⟨(inside_iff timezoneAckId rateRuleActId posix).mpr hroom, fun hfits buffer hbuffer ↦ ?_⟩
    obtain rfl := Option.some.inj ((matopServiceDynamicCfgAck_text hfits).symm.trans hbuffer)
    rw [htext hfits]
    exact acknowledges_iff.mpr (hformed hfits)

/-- One hundred times the letter a. -/
def longTimezoneId : PlainId :=
  ⟨List.replicate 100 0x61, fun b hb ↦ by
    obtain ⟨-, rfl⟩ := List.mem_replicate.mp hb
    exact ⟨by decide, by decide, by decide⟩⟩

/-- Behind a long time zone id the end is written outside the buffer. -/
theorem long_timezone_leaves_buffer : ¬AckSound (some longTimezoneId) none 0 := by
  intro h
  have hroom : rateRuleOffset (some longTimezoneId) + (ackTail 0).length < dynamicCfgAckBufferLen :=
    (inside_iff (some longTimezoneId) none 0).mp h.inside
  have hoffset : rateRuleOffset (some longTimezoneId) = 142 := by
    simp [rateRuleOffset, ackOffset, longTimezoneId]
  rw [hoffset] at hroom
  unfold dynamicCfgAckBufferLen at hroom
  omega

end TuyaOpen.Cloud
