import TuyaOpen.Ai.Attrs
import TuyaOpen.Ai.FragSend

/-!
# Attributes read back

A list of attributes survives packing and parsing, on its own and inside of a
payload.  The parser insists on a 16-bit value for the two codes of a connection.
-/

namespace TuyaOpen.Ai

open Bytes ByteMem

/-! ## What reading back means -/

/-- The payload type is known, and bytes and strings are not empty. -/
def AttrValue.Matched : AttrValue → Prop
  | bytes v => v ≠ []
  | str v => v ≠ []
  | other _ _ => False
  | _ => True

/-- The codes of a connection have the type that the parser demands for them. -/
def AiAttribute.ConnectCode (a : AiAttribute) : Prop :=
  a.type.toNat = aiAttrConnectStatusCode ∨ a.type.toNat = aiAttrConnectCloseErrCode →
    a.value.payloadType = attrPtU16

def AttrRef.Holds (m : Mem) : AttrRef → AttrValue → Prop
  | u8 v, .u8 w => v = w.toNat
  | u16 v, .u16 w => v = w.toNat
  | u32 v, .u32 w => v = w.toNat
  | u64 v, .u64 w => v = w.toNat
  | bytes start, .bytes w => slice m start w.length = w
  | str start, .str w => slice m start w.length = w
  | _, _ => False

structure ParsedAttr.Same (m : Mem) (p : ParsedAttr) (a : AiAttribute) : Prop where
  type : p.type = a.type.toNat
  payloadType : p.payloadType = a.value.payloadType
  length : p.length = a.value.length
  value : p.value.Holds m a.value

/-- The parser finds these attributes in `attrLen` bytes. -/
def ParsesBack (m : Mem) (attrLen : ℕ) (attrs : List AiAttribute) : Prop :=
  ∃ fuel run parsed, tuyaParseUserAttrs m attrLen true fuel = some run ∧
    run.result = .ok parsed ∧ run.num = attrs.length ∧
    List.Forall₂ (ParsedAttr.Same m) parsed attrs

/-! ## One record -/

/-- The record of an attribute lies at `offset`. -/
structure RecordAt (m : Mem) (offset : ℕ) (a : AiAttribute) : Prop where
  room : offset + 7 + a.value.length < 2 ^ 32
  type : recordType m offset = a.type.toNat
  pt : recordPt m offset = a.value.payloadType
  length : recordLength m offset = a.value.length
  value : a.value.wire = some (slice m (offset + 7) a.value.length)

theorem recordAt_of_slice {m : Mem} {offset : ℕ} {a : AiAttribute} {v : List UInt8}
    (hwire : a.value.wire = some v) (hroom : offset + 7 + a.value.length < 2 ^ 32)
    (h : slice m offset (a.head ++ v).length = a.head ++ v) : RecordAt m offset a := by
  have hvlen := length_wire hwire
  have hhead := length_head_attr a
  rw [List.length_append] at h
  obtain ⟨hfields, hvalue⟩ := slice_of_append h
  rw [hhead] at hfields hvalue
  have htype : slice m offset 2 = encodeBE 2 a.type.toNat ∧ slice m (offset + 2) 5 =
      a.value.payloadType :: encodeBE 4 a.value.length := by
    apply List.append_inj (slice_add m offset 2 5 ▸ hfields)
    rw [length_slice, length_encodeBE]
  obtain ⟨hpt, hlength⟩ := List.cons.inj htype.2
  have hoff2 : u32 (offset + 2) = offset + 2 := u32_of_lt (by omega)
  have hoff3 : u32 (offset + 3) = offset + 3 := u32_of_lt (by omega)
  refine ⟨hroom, ?_, ?_, ?_, ?_⟩
  · rw [recordType, htype.1, decodeBE_encodeBE a.type.toNat_lt]
  · rw [recordPt, hoff2, hpt]
  · rw [recordLength, hoff3]
    exact (congrArg decodeBE hlength).trans (decodeBE_encodeBE a.length_lt)
  · rw [hwire, ← hvlen, hvalue]

variable {m : Mem} {offset : ℕ} {a : AiAttribute}

theorem RecordAt.start (h : RecordAt m offset a) : recordStart offset = offset + 7 := by
  have hroom := h.room
  exact u32_of_lt (by omega)

theorem RecordAt.next (h : RecordAt m offset a) :
    nextRecord m offset = offset + 7 + a.value.length := by
  rw [nextRecord, h.start, h.length, u32_of_lt h.room]

theorem readInt_of_slice {start k n : ℕ} (hn : n < 256 ^ k)
    (h : encodeBE k n = slice m start k) : readInt m start k k = n := by
  rw [readInt, Nat.min_self, Nat.sub_self, List.replicate_zero, List.append_nil, ← h,
    decodeBE_encodeBE hn]

theorem recordValue_of_wire {v : AttrValue} {start : ℕ}
    (h : v.wire = some (slice m start v.length)) :
    ∃ ref read, recordValue m v.payloadType start v.length = some (ref, read) ∧
      ref.Holds m v := by
  cases v with
  | u8 v =>
      have hbyte : [v] = slice m start 1 := Option.some.inj h
      refine ⟨_, _, rfl, ?_⟩
      change readInt m start 1 1 = v.toNat
      rw [readInt, Nat.min_self, Nat.sub_self, List.replicate_zero, List.append_nil, ← hbyte]
      simp [decodeBE]
  | u16 v => exact ⟨_, _, rfl, readInt_of_slice v.toNat_lt (Option.some.inj h)⟩
  | u32 v => exact ⟨_, _, rfl, readInt_of_slice v.toNat_lt (Option.some.inj h)⟩
  | u64 v => exact ⟨_, _, rfl, readInt_of_slice v.toNat_lt (Option.some.inj h)⟩
  | bytes v => exact ⟨_, _, rfl, (Option.some.inj h).symm⟩
  | str v => exact ⟨_, _, rfl, (Option.some.inj h).symm⟩
  | other pt length => cases h

theorem aiCheckAttrVaild_of_matched (hmatched : a.value.Matched) (hcode : a.ConnectCode) :
    aiCheckAttrVaild a.type.toNat a.value.payloadType a.value.length = true := by
  have hguard : ¬((a.type.toNat = aiAttrConnectStatusCode ∨
      a.type.toNat = aiAttrConnectCloseErrCode) ∧ a.value.payloadType ≠ attrPtU16) :=
    fun ⟨htype, hpt⟩ ↦ hpt (hcode htype)
  rw [aiCheckAttrVaild, if_neg hguard]
  revert hmatched
  cases a.value with
  | u8 v | u16 v | u32 v | u64 v => intro _; rfl
  | bytes v | str v =>
      intro hne
      have hlen : v.length ≠ 0 := fun h ↦ hne (List.length_eq_zero_iff.mp h)
      exact decide_eq_true hlen
  | other pt length => intro h; exact h.elim

theorem tuyaAiGetAttrValue_of_record (h : RecordAt m offset a) (hmatched : a.value.Matched)
    (hcode : a.ConnectCode) :
    ∃ reads p, tuyaAiGetAttrValue m offset = (reads, .ok (p, offset + 7 + a.value.length)) ∧
      p.Same m a := by
  obtain ⟨ref, read, hvalue, hholds⟩ := recordValue_of_wire h.value
  have hnowrap : ¬u32 (offset + 7 + a.value.length) < offset + 7 := by
    rw [u32_of_lt h.room]
    omega
  refine ⟨recordHeadReads offset ++ [read], recordAttr m offset ref, ?_,
    ⟨h.type, h.pt, h.length, hholds⟩⟩
  simp only [tuyaAiGetAttrValue, h.start, h.pt, h.length, h.type, hvalue, if_neg hnowrap,
    aiCheckAttrVaild_of_matched hmatched hcode, if_true, h.next]

/-! ## The whole list -/

/-- Records lie one behind the other up to `attrLen`. -/
def RecordsAt (m : Mem) (attrLen : ℕ) : ℕ → List AiAttribute → Prop
  | offset, [] => offset = attrLen
  | offset, a :: attrs =>
      RecordAt m offset a ∧ RecordsAt m attrLen (offset + 7 + a.value.length) attrs

variable {attrLen : ℕ} {attrs : List AiAttribute}

theorem recordsAt_le (h : RecordsAt m attrLen offset attrs) : offset + attrs.length ≤ attrLen := by
  induction attrs generalizing offset with
  | nil => exact Nat.le_of_eq h
  | cons a attrs ih =>
      have htail := ih h.2
      rw [List.length_cons]
      omega

theorem recordsAt_of_slice (hknown : ∀ a ∈ attrs, a.value.wire ≠ none)
    (hroom : offset + (attrWire attrs).length < 2 ^ 32)
    (h : slice m offset (attrWire attrs).length = attrWire attrs) :
    RecordsAt m (offset + (attrWire attrs).length) offset attrs := by
  induction attrs generalizing offset with
  | nil => rfl
  | cons a attrs ih =>
      obtain ⟨v, hwire⟩ := Option.ne_none_iff_exists'.mp (hknown a List.mem_cons_self)
      have hcons : attrWire (a :: attrs) = (a.head ++ v) ++ attrWire attrs := by
        simp [attrWire, hwire]
      have hlen : (a.head ++ v).length = 7 + a.value.length := by
        rw [List.length_append, length_head_attr, length_wire hwire]
      rw [hcons, List.length_append] at h hroom ⊢
      obtain ⟨hhead, htail⟩ := slice_of_append h
      have hrest := ih (fun b hb ↦ hknown b (List.mem_cons_of_mem a hb)) (by omega) htail
      have hoff : offset + (a.head ++ v).length = offset + 7 + a.value.length := by omega
      rw [hoff] at hrest
      refine ⟨recordAt_of_slice hwire (by omega) hhead, ?_⟩
      rwa [← Nat.add_assoc, hoff]

theorem tuyaAiGetAttrNumLoop_of_records (h : RecordsAt m attrLen offset attrs) {idx : ℕ}
    (hidx : idx + attrs.length < 2 ^ 32) :
    ∃ reads, tuyaAiGetAttrNumLoop m attrLen (attrs.length + 1) offset idx =
      some (idx + attrs.length, reads) := by
  induction attrs generalizing offset idx with
  | nil =>
      have hend : ¬offset < attrLen := Nat.not_lt.mpr (Nat.le_of_eq h.symm)
      exact ⟨[], if_neg hend⟩
  | cons a attrs ih =>
      rw [List.length_cons] at hidx ⊢
      have hin : offset < attrLen := by
        have htail := recordsAt_le h.2
        omega
      have hone : u32 (idx + 1) = idx + 1 := u32_of_lt (by omega)
      have hidx' : idx + 1 + attrs.length < 2 ^ 32 := by omega
      obtain ⟨reads, hloop⟩ := ih h.2 hidx'
      refine ⟨⟨u32 (offset + 3), 4⟩ :: reads, ?_⟩
      have hsum : idx + 1 + attrs.length = idx + (attrs.length + 1) := by omega
      rw [tuyaAiGetAttrNumLoop, if_pos hin, h.1.next, hone, hloop, hsum]

theorem decodeLoop_of_records (h : RecordsAt m attrLen offset attrs)
    (hmatched : ∀ a ∈ attrs, a.value.Matched) (hcode : ∀ a ∈ attrs, a.ConnectCode) :
    ∃ d parsed, decodeLoop m attrLen (attrs.length + 1) offset = some d ∧
      d.result = .ok parsed ∧ List.Forall₂ (ParsedAttr.Same m) parsed attrs := by
  induction attrs generalizing offset with
  | nil =>
      have hend : ¬offset < attrLen := Nat.not_lt.mpr (Nat.le_of_eq h.symm)
      exact ⟨_, [], if_neg hend, rfl, .nil⟩
  | cons a attrs ih =>
      have hin : offset < attrLen := by
        have htail := recordsAt_le h.2
        omega
      obtain ⟨reads, p, hvalue, hsame⟩ := tuyaAiGetAttrValue_of_record h.1
        (hmatched a List.mem_cons_self) (hcode a List.mem_cons_self)
      obtain ⟨d, parsed, hloop, hresult, hrest⟩ := ih h.2
        (fun b hb ↦ hmatched b (List.mem_cons_of_mem a hb))
        (fun b hb ↦ hcode b (List.mem_cons_of_mem a hb))
      refine ⟨d.behind reads p, p :: parsed, ?_, ?_, .cons hsame hrest⟩
      · rw [List.length_cons, decodeLoop, if_pos hin, hvalue]
        simp only [hloop]
      · rw [DecodeRun.behind, hresult]

theorem parsesBack_of_records (h : RecordsAt m attrLen 0 attrs) (hattrLen : attrLen < 2 ^ 32)
    (hmatched : ∀ a ∈ attrs, a.value.Matched) (hcode : ∀ a ∈ attrs, a.ConnectCode) :
    ParsesBack m attrLen attrs := by
  have hcount := recordsAt_le h
  have hidx : 0 + attrs.length < 2 ^ 32 := by omega
  obtain ⟨reads, hnum⟩ := tuyaAiGetAttrNumLoop_of_records h hidx
  obtain ⟨d, parsed, hdecode, hresult, hsame⟩ := decodeLoop_of_records h hmatched hcode
  rw [Nat.zero_add] at hnum
  refine ⟨attrs.length + 1, ⟨attrs.length, reads ++ d.reads, d.filled, d.result⟩, parsed, ?_,
    hresult, rfl, hsame⟩
  simp only [tuyaParseUserAttrs, tuyaAiGetAttrNum, hnum, hdecode, Bool.true_eq_false, if_false]

theorem AttrValue.Matched.wire_ne {v : AttrValue} (h : v.Matched) : v.wire ≠ none := by
  cases v with
  | other pt length => exact h.elim
  | _ => exact Option.some_ne_none _

theorem packAttrs_nil (hknown : ∀ a ∈ attrs, a.value.wire ≠ none) :
    packAttrs (attrs.map fun a ↦ 7 + a.value.length).sum attrs [] = .ok (attrWire attrs) := by
  apply packAttrs_of_known hknown
  rw [List.length_nil, Nat.zero_add]

theorem length_attrWire (hknown : ∀ a ∈ attrs, a.value.wire ≠ none) :
    (attrWire attrs).length = (attrs.map fun a ↦ 7 + a.value.length).sum :=
  (packAttrs_ok (packAttrs_nil hknown)).2

theorem parsesBack_of_slice (hroom : (attrWire attrs).length < 2 ^ 32)
    (hmatched : ∀ a ∈ attrs, a.value.Matched) (hcode : ∀ a ∈ attrs, a.ConnectCode)
    (h : slice m 0 (attrWire attrs).length = attrWire attrs) :
    ParsesBack m (attrWire attrs).length attrs := by
  have hrecords := recordsAt_of_slice (fun a ha ↦ (hmatched a ha).wire_ne)
    ((Nat.zero_add _).symm ▸ hroom) h
  rw [Nat.zero_add] at hrecords
  exact parsesBack_of_records hrecords hroom hmatched hcode

/-! ## Both packers -/

theorem tuyaPackUserAttrs_of_known (hroom : (attrs.map fun a ↦ 7 + a.value.length).sum < 2 ^ 32)
    (hknown : ∀ a ∈ attrs, a.value.wire ≠ none) :
    tuyaPackUserAttrs true attrs = .ok (attrWire attrs) := by
  rw [tuyaPackUserAttrs, if_neg Bool.true_eq_false_eq_False, u32_of_lt hroom]
  exact packAttrs_nil hknown

theorem payload_attrs {type : UInt8} {data : List UInt8} {frag : FragFlag} {len : ℕ}
    {payload : List UInt8} (hne : attrs ≠ []) (hfrag : tuyaAiIsNeedAttr frag = true)
    (h : aiPlainPayload type attrs data frag len = .ok payload) :
    (attrWire attrs).length < 2 ^ 32 ∧ ∃ behind, payload = (payloadHead type attrs ::
      encodeBE 4 (attrWire attrs).length) ++ (attrWire attrs ++ behind) := by
  obtain ⟨rfl, hhead, -, hlt⟩ := aiPlainPayload_ok hfrag h
  have hstart := length_payloadStart type attrs
  rw [messageHead, List.length_append, List.length_append, length_encodeBE, hstart,
    if_neg hne] at hhead
  have hwrap : aiGetSendAttrLen attrs + (2 ^ 32 - 4) =
      1 * 256 ^ 4 + (attrWire attrs).length := by omega
  refine ⟨by omega, encodeBE 4 len ++ data, ?_⟩
  rw [messageHead, payloadStart, if_neg hne, hwrap, encodeBE_add le_rfl]
  simp only [List.append_assoc]

theorem parsesBack_of_payload {head : UInt8} {behind : List UInt8}
    (hroom : (attrWire attrs).length < 2 ^ 32)
    (hmatched : ∀ a ∈ attrs, a.value.Matched) (hcode : ∀ a ∈ attrs, a.ConnectCode)
    (h : slice m 0 ((head :: encodeBE 4 (attrWire attrs).length) ++
        (attrWire attrs ++ behind)).length =
      (head :: encodeBE 4 (attrWire attrs).length) ++ (attrWire attrs ++ behind)) :
    ParsesBack (fun x ↦ m (5 + x)) (decodeBE (slice m 1 4)) attrs := by
  have hfive : (head :: encodeBE 4 (attrWire attrs).length).length = 5 := by
    rw [List.length_cons, length_encodeBE]
  rw [List.length_append] at h
  obtain ⟨hstart, hrest⟩ := slice_of_append h
  rw [hfive] at hstart hrest
  rw [List.length_append] at hrest
  obtain ⟨hblock, -⟩ := slice_of_append hrest
  have hlen : slice m 1 4 = encodeBE 4 (attrWire attrs).length := (List.cons.inj hstart).2
  rw [hlen, decodeBE_encodeBE hroom]
  apply parsesBack_of_slice hroom hmatched hcode
  rw [slice_shift]
  exact hblock

/-- Attributes of known payload types that are not empty come back from the parser as they
were packed, the codes of a connection being of 16 bits. -/
theorem attrs_parse_back (attrs : List AiAttribute) (hmatched : ∀ a ∈ attrs, a.value.Matched)
    (hcode : ∀ a ∈ attrs, a.ConnectCode)
    (hroom : (attrs.map fun a ↦ 7 + a.value.length).sum < 2 ^ 32) :
    (∃ out, tuyaPackUserAttrs true attrs = .ok out ∧
      ∀ m, slice m 0 out.length = out → ParsesBack m out.length attrs) ∧
    ∀ type data frag originLen, attrs ≠ [] → tuyaAiIsNeedAttr frag = true →
      5 + attrSize attrs + data.length < 2 ^ 32 →
      ∃ payload, aiPlainPayload type attrs data frag originLen = .ok payload ∧
        ∀ m, slice m 0 payload.length = payload →
          ParsesBack (fun x ↦ m (5 + x)) (decodeBE (slice m 1 4)) attrs := by
  have hknown : ∀ a ∈ attrs, a.value.wire ≠ none := fun a ha ↦ (hmatched a ha).wire_ne
  have hlen := length_attrWire hknown
  have hroom' : (attrWire attrs).length < 2 ^ 32 := by omega
  constructor
  · exact ⟨attrWire attrs, tuyaPackUserAttrs_of_known hroom hknown,
      fun m hm ↦ parsesBack_of_slice hroom' hmatched hcode hm⟩
  · intro type data frag originLen hne hfrag hfits
    obtain ⟨payload, hpayload, -⟩ := aiPlainPayload_of_fits type frag originLen hknown hfits
    obtain ⟨-, behind, rfl⟩ := payload_attrs hne hfrag hpayload
    refine ⟨_, hpayload, fun m hm ↦ ?_⟩
    exact parsesBack_of_payload hroom' hmatched hcode hm

/-- A payload with a text and a number in front of its data. -/
theorem attrs_parse_back_two :
    let attrs : List AiAttribute :=
      [⟨7, .str [0x61, 0x62], by decide⟩, ⟨24, .u16 200, by decide⟩]
    (∃ out, tuyaPackUserAttrs true attrs = .ok out ∧
      ∀ m, slice m 0 out.length = out → ParsesBack m out.length attrs) ∧
    ∀ type data frag originLen, attrs ≠ [] → tuyaAiIsNeedAttr frag = true →
      5 + attrSize attrs + data.length < 2 ^ 32 →
      ∃ payload, aiPlainPayload type attrs data frag originLen = .ok payload ∧
        ∀ m, slice m 0 payload.length = payload →
          ParsesBack (fun x ↦ m (5 + x)) (decodeBE (slice m 1 4)) attrs := by
  apply attrs_parse_back
  · simp [AttrValue.Matched]
  · simp [AiAttribute.ConnectCode, aiAttrConnectStatusCode, aiAttrConnectCloseErrCode,
      AttrValue.payloadType, attrPtU16]
  · decide

/-- A connection code of eight bits is packed, and the parser refuses the record. -/
theorem connect_code_refused :
    ∃ attrs : List AiAttribute, (∀ a ∈ attrs, a.value.Matched) ∧
      (attrs.map fun a ↦ 7 + a.value.length).sum < 2 ^ 32 ∧
      ∃ out, tuyaPackUserAttrs true attrs = .ok out ∧
        ∃ m, slice m 0 out.length = out ∧ ¬ParsesBack m out.length attrs := by
  refine ⟨[⟨24, .u8 1, by decide⟩], ?_, by decide, [0, 24, 1, 0, 0, 0, 1, 1], rfl,
    ofList [0, 24, 1, 0, 0, 0, 1, 1], rfl, ?_⟩
  · simp [AttrValue.Matched]
  · rintro ⟨fuel, run, parsed, hrun, hresult, -⟩
    rw [tuyaParseUserAttrs] at hrun
    split at hrun
    · cases hrun
    · rw [if_neg Bool.true_eq_false_eq_False] at hrun
      cases fuel with
      | zero => cases hrun
      | succ fuel =>
          -- the first record ends the loop, whatever the fuel
          cases hrun
          cases hresult

end TuyaOpen.Ai
