import TuyaOpen.Common.ErrorCode
import TuyaOpen.Lib.Leb128
import TuyaOpen.Lib.Splice
import Mathlib.Data.Int.Notation

/-!
# The subpacket codec of `ble_trsmitr.c`

A frame travels in subpackets.  Each starts with its number, subpacket `0`
goes on with the length of the whole frame and a byte of version and sequence
number, and the rest is payload.  Numbers and lengths are base-128.

An access outside the packet or outside the `subpkg` buffer is undefined in C
and is the result `none` here.
-/

namespace TuyaOpen.Ble

inductive PkgDesc
  | pkgInit
  | pkgFirst
  | pkgMiddle
  | pkgEnd
  deriving DecidableEq

structure BleFrameTrsmitr where
  total : ℕ
  version : ℕ
  seq : ℕ
  pkgDesc : PkgDesc
  subpkgNum : ℕ
  pkgTrsmitrCnt : ℕ
  subpkgLen : ℕ
  subpkg : List UInt8
  deriving DecidableEq

def bleFrameTrsmitrCreate (packetLen : ℕ) : BleFrameTrsmitr where
  total := 0
  version := 0
  seq := 0
  pkgDesc := .pkgInit
  subpkgNum := 0
  pkgTrsmitrCnt := 0
  subpkgLen := 0
  subpkg := List.replicate packetLen 0

def usub (w a b : ℕ) : ℕ := (a + 2 ^ w - b) % 2 ^ w

/-! ## Numbers -/

def encodeDigits : ℕ → ℕ → List UInt8
  | 0, _ => []
  | i + 1, tmp =>
    let digit := UInt8.ofNat (tmp % 0x80)
    let digit := if tmp / 0x80 ≠ 0 then digit ||| 0x80 else digit
    if tmp / 0x80 = 0 then [digit] else digit :: encodeDigits i (tmp / 0x80)

/-- The loop that reads a number at `offset`; it returns the number and the
offset after it. -/
def decodeDigits (rawData : List UInt8) : ℕ → ℕ → ℕ → ℕ → Option (ℕ × ℕ)
  | 0, _, value, offset => some (value, offset)
  | i + 1, multiplier, value, offset =>
    match rawData[offset]? with
    | none => none
    | some digit =>
      let value := value + (digit &&& 0x7f).toNat * multiplier
      if digit &&& 0x80 = 0 then some (value, offset + 1)
      else decodeDigits rawData i (multiplier * 0x80) value (offset + 1)

theorem or_continuation {n : ℕ} (h : n < 128) :
    UInt8.ofNat n ||| 0x80 = UInt8.ofNat (n + 128) := by
  have hall : ∀ n < 128, UInt8.ofNat n ||| 0x80 = UInt8.ofNat (n + 128) := by decide
  exact hall n h

theorem toNat_and_continuation (b : UInt8) : (b &&& 0x80 = 0) ↔ b.toNat < 128 := by
  have hall : ∀ n < 256, (UInt8.ofNat n &&& 0x80 = 0) ↔ (UInt8.ofNat n).toNat < 128 := by
    decide +kernel
  simpa using hall b.toNat b.toNat_lt

theorem toNat_and_digit (b : UInt8) : (b &&& 0x7f).toNat = b.toNat % 128 := by
  rw [UInt8.toNat_and]
  exact Nat.and_two_pow_sub_one_eq_mod b.toNat 7

theorem encodeDigits_eq (i tmp : ℕ) : encodeDigits i tmp = Leb128.encode i tmp := by
  induction i generalizing tmp with
  | zero => rfl
  | succ i ih =>
      rw [encodeDigits, Leb128.encode]
      by_cases h : tmp < 128
      · have hdiv : tmp / 128 = 0 := Nat.div_eq_of_lt h
        simp [h, hdiv, Nat.mod_eq_of_lt h]
      · have hdiv : tmp / 128 ≠ 0 := by omega
        simp only [h, hdiv, if_false, ne_eq, not_false_iff, if_true, ih]
        rw [or_continuation (Nat.mod_lt _ (by omega))]

theorem decodeDigits_eq (rawData : List UInt8) (i multiplier value offset : ℕ) :
    decodeDigits rawData i multiplier value offset =
      (Leb128.decode i (rawData.drop offset)).map fun r ↦
        (value + r.1 * multiplier, offset + ((rawData.drop offset).length - r.2.length)) := by
  induction i generalizing multiplier value offset with
  | zero => simp [decodeDigits, Leb128.decode]
  | succ i ih =>
      rw [decodeDigits]
      cases hdrop : rawData.drop offset with
      | nil =>
          have hnone : rawData[offset]? = none := by
            rw [List.getElem?_eq_none_iff]
            exact List.drop_eq_nil_iff.mp hdrop
          simp [hnone, Leb128.decode]
      | cons b bs =>
          have hsome : rawData[offset]? = some b := by
            rw [← List.head?_drop, hdrop, List.head?_cons]
          have htail : rawData.drop (offset + 1) = bs := by
            rw [← List.drop_drop, hdrop, List.drop_one, List.tail_cons]
          have hb := b.toNat_lt
          simp only [hsome, Leb128.decode, toNat_and_continuation, toNat_and_digit]
          by_cases hlt : b.toNat < 128
          · simp [hlt, Nat.mod_eq_of_lt hlt]
          · simp only [hlt, if_false]
            rw [ih, htail]
            cases hdec : Leb128.decode i bs with
            | none => rfl
            | some r =>
                have hle : r.2.length ≤ bs.length := by
                  cases i with
                  | zero =>
                      cases hdec
                      exact le_refl _
                  | succ i => exact (Leb128.decode_drop hdec).1.le
                simp only [Option.map_some, Option.some.injEq, Prod.mk.injEq, List.length_cons]
                constructor
                · have hmod : b.toNat % 128 = b.toNat - 128 := by omega
                  rw [hmod]
                  ring
                · omega

/-! ## Receiving -/

def recvReset (trsmitr : BleFrameTrsmitr) : BleFrameTrsmitr :=
  { trsmitr with total := 0, version := 0, seq := 0, pkgTrsmitrCnt := 0 }

def recvDesc (trsmitr : BleFrameTrsmitr) (subpkgNum : ℕ) : BleFrameTrsmitr :=
  if subpkgNum = 0 then { recvReset trsmitr with pkgDesc := .pkgFirst }
  else { trsmitr with pkgDesc := .pkgMiddle }

def recvNumCheck (trsmitr : BleFrameTrsmitr) (subpkgNum : ℕ) : Option OperateRet :=
  if 0x10000000 ≤ trsmitr.subpkgNum then some oprtComError
  else if trsmitr.pkgDesc = .pkgFirst then none
  else if subpkgNum < trsmitr.subpkgNum then some oprtSvcBtApiTrsmitrError
  else if subpkgNum = trsmitr.subpkgNum then some oprtSvcBtApiTrsmitrContinue
  else if 1 < subpkgNum - trsmitr.subpkgNum then some oprtSvcBtApiTrsmitrError
  else none

def recvData (trsmitr : BleFrameTrsmitr) (rawData : List UInt8) (offset : ℕ) :
    Option (BleFrameTrsmitr × OperateRet) :=
  let recvData := usub 16 rawData.length offset
  let left := usub 32 trsmitr.total trsmitr.pkgTrsmitrCnt
  let recvData := if left < recvData then left else recvData
  if rawData.length < offset + recvData ∨ trsmitr.subpkg.length < recvData then none
  else
    let trsmitr := { trsmitr with
      subpkg := trsmitr.subpkg.splice 0 ((rawData.drop offset).take recvData)
      subpkgLen := recvData
      pkgTrsmitrCnt := (trsmitr.pkgTrsmitrCnt + recvData) % 2 ^ 32 }
    if trsmitr.pkgTrsmitrCnt < trsmitr.total then some (trsmitr, oprtSvcBtApiTrsmitrContinue)
    else some ({ trsmitr with pkgDesc := .pkgEnd }, oprtOk)

def recvHead (trsmitr : BleFrameTrsmitr) (rawData : List UInt8) (offset : ℕ) :
    Option (BleFrameTrsmitr × OperateRet) :=
  match decodeDigits rawData 4 1 trsmitr.total offset with
  | none => none
  | some (total, offset) =>
    let trsmitr := { trsmitr with total := total }
    if 0x10000000 ≤ total then some (trsmitr, oprtComError)
    else match rawData[offset]? with
      | none => none
      | some b =>
        recvData { trsmitr with
          version := (b &&& 0xf0).toNat >>> 4
          seq := (b &&& 0x0f).toNat } rawData (offset + 1)

def bleFrameTrsmitrRecvPkgDecode (trsmitr : BleFrameTrsmitr) (rawData : List UInt8) :
    Option (BleFrameTrsmitr × OperateRet) :=
  let trsmitr := if trsmitr.pkgDesc = .pkgInit then recvReset trsmitr else trsmitr
  match decodeDigits rawData 4 1 0 0 with
  | none => none
  | some (subpkgNum, offset) =>
    let trsmitr := recvDesc trsmitr subpkgNum
    match recvNumCheck trsmitr subpkgNum with
    | some rt => some (trsmitr, rt)
    | none =>
      let trsmitr := { trsmitr with subpkgNum := subpkgNum }
      if subpkgNum = 0 then recvHead trsmitr rawData offset
      else recvData trsmitr rawData offset

/-! ## What a subpacket says -/

/-- The fields of a subpacket; only subpacket `0` has `total` and `verSeq`. -/
structure Subpkg where
  num : ℕ
  total : ℕ
  verSeq : UInt8
  payload : List UInt8
  deriving DecidableEq

/-- The fields of a packet that is not shorter than its own header. -/
def parseSubpkg (rawData : List UInt8) : Option Subpkg :=
  match Leb128.decode 4 rawData with
  | none => none
  | some (num, rest) =>
    if num ≠ 0 then some ⟨num, 0, 0, rest⟩
    else match Leb128.decode 4 rest with
      | some (total, verSeq :: payload) => some ⟨0, total, verSeq, payload⟩
      | _ => none

def takeLen (trsmitr : BleFrameTrsmitr) (payload : List UInt8) : ℕ :=
  min payload.length (trsmitr.total - trsmitr.pkgTrsmitrCnt)

def taken (trsmitr : BleFrameTrsmitr) (payload : List UInt8) : BleFrameTrsmitr :=
  { trsmitr with
    subpkg := trsmitr.subpkg.splice 0 (payload.take (takeLen trsmitr payload))
    subpkgLen := takeLen trsmitr payload
    pkgTrsmitrCnt := trsmitr.pkgTrsmitrCnt + takeLen trsmitr payload
    pkgDesc := if trsmitr.pkgTrsmitrCnt + takeLen trsmitr payload < trsmitr.total
      then trsmitr.pkgDesc else .pkgEnd }

def takenRet (trsmitr : BleFrameTrsmitr) (payload : List UInt8) : OperateRet :=
  if trsmitr.pkgTrsmitrCnt + takeLen trsmitr payload < trsmitr.total
    then oprtSvcBtApiTrsmitrContinue else oprtOk

def takePayload (trsmitr : BleFrameTrsmitr) (payload : List UInt8) :
    Option (BleFrameTrsmitr × OperateRet) :=
  if trsmitr.subpkg.length < takeLen trsmitr payload then none
  else some (taken trsmitr payload, takenRet trsmitr payload)

def startFrame (trsmitr : BleFrameTrsmitr) (p : Subpkg) : BleFrameTrsmitr :=
  { trsmitr with
    total := p.total
    version := (p.verSeq &&& 0xf0).toNat >>> 4
    seq := (p.verSeq &&& 0x0f).toNat
    pkgTrsmitrCnt := 0
    subpkgNum := 0
    pkgDesc := .pkgFirst }

def renum (trsmitr : BleFrameTrsmitr) (desc : PkgDesc) (num : ℕ) : BleFrameTrsmitr :=
  { trsmitr with pkgDesc := desc, subpkgNum := num }

@[simp] theorem startFrame_subpkg (t : BleFrameTrsmitr) (p : Subpkg) :
    (startFrame t p).subpkg = t.subpkg := rfl

@[simp] theorem takeLen_startFrame (t : BleFrameTrsmitr) (p : Subpkg) (payload : List UInt8) :
    takeLen (startFrame t p) payload = min payload.length p.total := rfl

@[simp] theorem takeLen_renum (t : BleFrameTrsmitr) (desc : PkgDesc) (num : ℕ)
    (payload : List UInt8) : takeLen (renum t desc num) payload = takeLen t payload := rfl

structure TrsmitrOk (trsmitr : BleFrameTrsmitr) : Prop where
  cnt_le : trsmitr.pkgTrsmitrCnt ≤ trsmitr.total
  total_lt : trsmitr.total < 2 ^ 28
  num_lt : trsmitr.subpkgNum < 2 ^ 28
  len_le : trsmitr.subpkgLen ≤ trsmitr.subpkg.length
  init_eq : trsmitr.pkgDesc = .pkgInit → recvReset trsmitr = trsmitr

/-- The part of `TrsmitrOk` that a new `subpkg` of any size leaves intact. -/
structure TrsmitrSound (trsmitr : BleFrameTrsmitr) : Prop where
  cnt_le : trsmitr.pkgTrsmitrCnt ≤ trsmitr.total
  total_lt : trsmitr.total < 2 ^ 28
  num_lt : trsmitr.subpkgNum < 2 ^ 28
  init_eq : trsmitr.pkgDesc = .pkgInit → recvReset trsmitr = trsmitr

theorem TrsmitrOk.sound {t : BleFrameTrsmitr} (h : TrsmitrOk t) : TrsmitrSound t :=
  ⟨h.cnt_le, h.total_lt, h.num_lt, h.init_eq⟩

theorem trsmitrOk_create (packetLen : ℕ) : TrsmitrOk (bleFrameTrsmitrCreate packetLen) :=
  ⟨le_refl _, Nat.two_pow_pos 28, Nat.two_pow_pos 28, Nat.zero_le _, fun _ ↦ rfl⟩

variable {t : BleFrameTrsmitr} {rawData : List UInt8} {p : Subpkg}

theorem usub_of_le {w a b : ℕ} (hle : b ≤ a) (hlt : a < 2 ^ w) : usub w a b = a - b := by
  rw [usub, Nat.add_comm a, Nat.add_sub_assoc hle, Nat.add_mod_left, Nat.mod_eq_of_lt (by omega)]

theorem recvData_eq (hlen : rawData.length < 2 ^ 16) {offset : ℕ} (hoff : offset ≤ rawData.length)
    (hcnt : t.pkgTrsmitrCnt ≤ t.total) (htotal : t.total < 2 ^ 28) :
    recvData t rawData offset = takePayload t (rawData.drop offset) := by
  have hmin : (if t.total - t.pkgTrsmitrCnt < rawData.length - offset then
      t.total - t.pkgTrsmitrCnt else rawData.length - offset) =
      takeLen t (rawData.drop offset) := by
    rw [takeLen, List.length_drop]
    split_ifs <;> omega
  have hle : takeLen t (rawData.drop offset) ≤ min (rawData.length - offset) t.total := by
    rw [takeLen, List.length_drop]
    omega
  have hadd : t.pkgTrsmitrCnt + takeLen t (rawData.drop offset) ≤ t.total := by
    rw [takeLen]
    omega
  simp only [recvData, takePayload, taken, takenRet, usub_of_le hoff hlen,
    usub_of_le hcnt (show t.total < 2 ^ 32 by omega), hmin]
  generalize takeLen t (rawData.drop offset) = n at hle hadd
  have hfit : ¬ rawData.length < offset + n := by omega
  have hmod : (t.pkgTrsmitrCnt + n) % 2 ^ 32 = t.pkgTrsmitrCnt + n := by
    apply Nat.mod_eq_of_lt
    omega
  by_cases hcap : t.subpkg.length < n
  · simp [hcap]
  · simp only [hfit, hcap, or_self, if_false, hmod]
    by_cases hlt : t.pkgTrsmitrCnt + n < t.total <;> simp [hlt]

theorem decodeDigits_zero {num : ℕ} {rest : List UInt8}
    (h : Leb128.decode 4 rawData = some (num, rest)) :
    decodeDigits rawData 4 1 0 0 = some (num, rawData.length - rest.length) := by
  rw [decodeDigits_eq]
  simp [h]

theorem recvNumCheck_of_ok (h : t.subpkgNum < 2 ^ 28) (hdesc : t.pkgDesc ≠ .pkgFirst)
    (num : ℕ) : recvNumCheck t num =
      if num < t.subpkgNum then some oprtSvcBtApiTrsmitrError
      else if num = t.subpkgNum then some oprtSvcBtApiTrsmitrContinue
      else if 1 < num - t.subpkgNum then some oprtSvcBtApiTrsmitrError
      else none := by
  rw [recvNumCheck, if_neg (by omega), if_neg hdesc]

theorem parse_first (hp : parseSubpkg rawData = some p) (hnum : p.num = 0) :
    ∃ rest, Leb128.decode 4 rawData = some (0, rest) ∧
      Leb128.decode 4 rest = some (p.total, p.verSeq :: p.payload) := by
  unfold parseSubpkg at hp
  split at hp
  · cases hp
  · next num rest hdec =>
      by_cases hz : num = 0
      · subst hz
        simp only [ne_eq, not_true_eq_false, if_false] at hp
        split at hp
        · next total verSeq payload htotal =>
            cases hp
            exact ⟨rest, hdec, htotal⟩
        · cases hp
      · rw [if_pos hz] at hp
        cases hp
        exact (hz hnum).elim

theorem parse_other (hp : parseSubpkg rawData = some p) (hnum : p.num ≠ 0) :
    Leb128.decode 4 rawData = some (p.num, p.payload) := by
  unfold parseSubpkg at hp
  split at hp
  · cases hp
  · next num rest hdec =>
      by_cases hz : num = 0
      · subst hz
        simp only [ne_eq, not_true_eq_false, if_false] at hp
        split at hp
        · cases hp
          exact (hnum rfl).elim
        · cases hp
      · rw [if_pos hz] at hp
        cases hp
        exact hdec

theorem reset_of_sound (hs : TrsmitrSound t) :
    (if t.pkgDesc = .pkgInit then recvReset t else t) = t := by
  split_ifs with hinit
  · exact hs.init_eq hinit
  · rfl

theorem parse_total_lt (hp : parseSubpkg rawData = some p) (hnum : p.num = 0) :
    p.total < 2 ^ 28 := by
  obtain ⟨rest, -, htotal⟩ := parse_first hp hnum
  exact Leb128.decode_lt htotal

theorem parse_num_lt (hp : parseSubpkg rawData = some p) : p.num < 2 ^ 28 := by
  by_cases hnum : p.num = 0
  · rw [hnum]
    exact Nat.two_pow_pos 28
  · exact Leb128.decode_lt (parse_other hp hnum)

theorem decode_first (hs : TrsmitrSound t) (hlen : rawData.length < 2 ^ 16)
    (hp : parseSubpkg rawData = some p) (hnum : p.num = 0) :
    bleFrameTrsmitrRecvPkgDecode t rawData = takePayload (startFrame t p) p.payload := by
  obtain ⟨rest, hnumdec, htotal⟩ := parse_first hp hnum
  have hlt : p.total < 2 ^ 28 := Leb128.decode_lt htotal
  obtain ⟨hrest, hdrop⟩ := Leb128.decode_drop hnumdec
  obtain ⟨hrest', hdrop'⟩ := Leb128.decode_drop htotal
  simp only at hrest hdrop hrest' hdrop'
  -- the offsets of the frame length and of the byte after it
  have hoff : rawData.length - rest.length + (rest.length - (p.verSeq :: p.payload).length) =
      rawData.length - (p.verSeq :: p.payload).length := by omega
  have hcons : rawData.drop (rawData.length - (p.verSeq :: p.payload).length) =
      p.verSeq :: p.payload := by
    rw [← hoff, ← List.drop_drop, hdrop, hdrop']
  have hhead : rawData[rawData.length - (p.verSeq :: p.payload).length]? = some p.verSeq := by
    rw [← List.head?_drop, hcons, List.head?_cons]
  have htail : rawData.drop (rawData.length - (p.verSeq :: p.payload).length + 1) =
      p.payload := by
    rw [← List.drop_drop, hcons, List.drop_one, List.tail_cons]
  have hdigits : decodeDigits rawData 4 1 0 (rawData.length - rest.length) =
      some (p.total, rawData.length - (p.verSeq :: p.payload).length) := by
    rw [decodeDigits_eq, hdrop, htotal]
    simp only [Option.map_some, zero_add, mul_one, hoff]
  have hnumlt : ¬ 0x10000000 ≤ t.subpkgNum := by
    have := hs.num_lt
    omega
  simp only [bleFrameTrsmitrRecvPkgDecode, decodeDigits_zero hnumdec, reset_of_sound hs]
  simp only [recvDesc, if_true, recvNumCheck, recvReset, hnumlt, if_false, recvHead, hdigits, hhead,
    show ¬ 0x10000000 ≤ p.total by omega]
  rw [recvData_eq hlen (by simp only [List.length_cons] at *; omega) (Nat.zero_le _) hlt, htail]
  rfl

theorem decode_other (hs : TrsmitrSound t) (hlen : rawData.length < 2 ^ 16)
    (hp : parseSubpkg rawData = some p) (hnum : p.num ≠ 0) :
    bleFrameTrsmitrRecvPkgDecode t rawData =
      if p.num = t.subpkgNum then
        some (renum t .pkgMiddle t.subpkgNum, oprtSvcBtApiTrsmitrContinue)
      else if p.num = t.subpkgNum + 1 then takePayload (renum t .pkgMiddle p.num) p.payload
      else some (renum t .pkgMiddle t.subpkgNum, oprtSvcBtApiTrsmitrError) := by
  have hdec := parse_other hp hnum
  obtain ⟨hrest, hdrop⟩ := Leb128.decode_drop hdec
  simp only at hrest hdrop
  have hcheck := recvNumCheck_of_ok (t := { t with pkgDesc := .pkgMiddle }) hs.num_lt
    (by simp) p.num
  simp only [bleFrameTrsmitrRecvPkgDecode, decodeDigits_zero hdec, reset_of_sound hs,
    recvDesc, hnum, if_false, hcheck]
  by_cases hdup : p.num = t.subpkgNum
  · simp [hdup, renum]
  · by_cases hnext : p.num = t.subpkgNum + 1
    · have hdata := recvData_eq (t := renum t .pkgMiddle p.num) hlen
        (Nat.sub_le rawData.length p.payload.length) hs.cnt_le hs.total_lt
      rw [hdrop] at hdata
      rw [if_neg (by omega), if_neg hdup, if_neg (by omega), if_neg hdup, if_pos hnext]
      exact hdata
    · rw [if_neg hdup, if_neg hdup, if_neg hnext]
      by_cases hlt : p.num < t.subpkgNum
      · rw [if_pos hlt]
        rfl
      · rw [if_neg hlt, if_pos (by omega)]
        rfl

theorem recv_first (hok : TrsmitrOk t) (hlen : rawData.length < 2 ^ 16)
    (hp : parseSubpkg rawData = some p) (hnum : p.num = 0) :
    TrsmitrOk (startFrame t p) ∧
      bleFrameTrsmitrRecvPkgDecode t rawData = takePayload (startFrame t p) p.payload := by
  refine ⟨?_, decode_first hok.sound hlen hp hnum⟩
  exact ⟨Nat.zero_le _, parse_total_lt hp hnum, Nat.two_pow_pos 28,
    hok.len_le, by simp [startFrame]⟩

theorem recv_other (hok : TrsmitrOk t) (hlen : rawData.length < 2 ^ 16)
    (hp : parseSubpkg rawData = some p) (hnum : p.num ≠ 0) :
    TrsmitrOk (renum t .pkgMiddle p.num) ∧ bleFrameTrsmitrRecvPkgDecode t rawData =
      if p.num = t.subpkgNum then
        some (renum t .pkgMiddle t.subpkgNum, oprtSvcBtApiTrsmitrContinue)
      else if p.num = t.subpkgNum + 1 then takePayload (renum t .pkgMiddle p.num) p.payload
      else some (renum t .pkgMiddle t.subpkgNum, oprtSvcBtApiTrsmitrError) := by
  refine ⟨?_, decode_other hok.sound hlen hp hnum⟩
  exact ⟨hok.cnt_le, hok.total_lt, parse_num_lt hp, hok.len_le, by simp [renum]⟩

theorem taken_ok (hok : TrsmitrOk t) (hinit : t.pkgDesc ≠ .pkgInit) {payload : List UInt8}
    (hcap : takeLen t payload ≤ t.subpkg.length) : TrsmitrOk (taken t payload) := by
  have hcnt := hok.cnt_le
  refine ⟨?_, hok.total_lt, hok.num_lt, ?_, ?_⟩
  · simp only [taken, takeLen]
    omega
  · simp only [taken]
    rw [List.length_splice]
    · exact hcap
    · simp only [List.length_take]
      omega
  · intro hdesc
    simp only [taken] at hdesc
    split_ifs at hdesc
    exact (hinit hdesc).elim

end TuyaOpen.Ble
