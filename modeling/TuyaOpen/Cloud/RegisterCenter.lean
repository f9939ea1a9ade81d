import Mathlib.Algebra.Ring.Nat
import Mathlib.Data.List.Infix
import TuyaOpen.Common.ErrorCode
import TuyaOpen.Lib.CStr

/-!
# The stored register center

The register center is kept as records of a type, a length and a value.
-/

namespace TuyaOpen.Cloud

open CStr (Text textOf textOf_append)

inductive SecurityLevel
  | sl0
  | sl1
  | sl2
  | sl3
  deriving DecidableEq

structure RegisterCenter where
  source : ℤ
  pub : ℤ
  code : Option Text
  url0 : Option Text
  urlx : Option Text
  caCert : Option (List UInt8)

def u16 (n : ℕ) : ℕ := n % 2 ^ 16

def tlvSrc : UInt8 := 1
def tlvPub : UInt8 := 2
def tlvCode : UInt8 := 3
def tlvUrl0 : UInt8 := 4
def tlvUrlx : UInt8 := 5
def tlvCa : UInt8 := 6
def tlvMax : ℕ := 7

/-! ## The certificate -/

/-- What `mbedtls_pem_read_buffer` finds: a certificate, no header and footer,
or a certificate it cannot read. -/
inductive PemRead
  | der (out : List UInt8)
  | noHeaderFooter
  | error

/-- `tuya_x509_pem2der`.  Without a header nothing is put out. -/
def tuyaX509Pem2der (pemReadBuffer : List UInt8 → PemRead) (mem : Bool)
    (buf : Option (List UInt8)) : Except OperateRet (List UInt8) :=
  match buf with
  | none => .error oprtInvalidParm
  | some buf =>
      if buf.length < 64 then
        .error oprtInvalidParm
      else
        match pemReadBuffer buf with
        | .der out => .ok (if mem then out else [])
        | .error => .error oprtComError
        | .noHeaderFooter => .ok []

/-! ## Writing -/

structure TlvWriter where
  buf : List UInt8
  offset : ℕ

namespace TlvWriter

/-- `buf[offset++] = b`. -/
def byte (w : TlvWriter) (b : UInt8) : Option TlvWriter :=
  if w.offset < w.buf.length then some ⟨w.buf.set w.offset b, u16 (w.offset + 1)⟩ else none

/-- `memcpy(&buf[offset], bs, len)` and `offset += len`. -/
def copy (w : TlvWriter) (bs : List UInt8) : Option TlvWriter :=
  if w.offset + bs.length ≤ w.buf.length then
    some ⟨w.buf.splice w.offset bs, u16 (w.offset + bs.length)⟩
  else
    none

def record (w : TlvWriter) (type : UInt8) (value : List UInt8) : Option TlvWriter := do
  let len := u16 value.length
  let w ← w.byte type
  let w ← w.byte len.toUInt8
  let w ← w.byte (len / 256).toUInt8
  w.copy (value.take len)

end TlvWriter

/-- Which of the allocations find memory. -/
structure RcsMemory where
  der : Bool
  buf : Bool

/-- The bytes a string takes, with its final zero. -/
def stored (t : Text) : List UInt8 := t.1 ++ [0]

def storedInt (n : ℤ) : UInt8 := (n % 256).toNat.toUInt8

def strlen (t : Option Text) : ℕ := (t.elim [] Subtype.val).length

def rcsTotal (level : SecurityLevel) (rcs : RegisterCenter) (outlen : ℕ) : ℕ :=
  4 * tlvMax + 1 + 1 + strlen rcs.url0 + 1 + strlen rcs.code +
    if level = .sl0 then 0 else outlen + strlen rcs.urlx

/-- `__rcs_serialize`; no result where it would leave its buffer or read a
string that is missing. -/
def rcsSerialize (level : SecurityLevel) (pemReadBuffer : List UInt8 → PemRead) (mem : RcsMemory)
    (rcs : RegisterCenter) : Option (Except OperateRet (List UInt8)) := do
  let url0 ← rcs.url0
  match if level = .sl0 then .ok [] else tuyaX509Pem2der pemReadBuffer mem.der rcs.caCert with
  | .error _ => return .error oprtInvalidParm
  | .ok out =>
      if level ≠ .sl0 ∧ rcs.urlx = none then none
      if mem.buf = false then return .error oprtMallocFailed
      let w : TlvWriter := ⟨List.replicate (rcsTotal level rcs out.length % 2 ^ 32) 0, 0⟩
      let w ← w.record tlvSrc [storedInt rcs.source]
      let w ← w.record tlvPub [storedInt rcs.pub]
      let w ← rcs.code.elim (some w) fun code ↦ w.record tlvCode (stored code)
      let w ← w.record tlvUrl0 (stored url0)
      if level = .sl0 then
        return .ok w.buf
      else
        let urlx ← rcs.urlx
        let w ← w.record tlvUrlx (stored urlx)
        let w ← w.record tlvCa out
        return .ok w.buf

/-! ## Reading -/

/-- `memset(rcs, 0, sizeof(register_center_t))`. -/
def RegisterCenter.zero : RegisterCenter := ⟨0, 0, none, none, none, none⟩

/-- The field a copied value goes to. -/
def RegisterCenter.setField (rcs : RegisterCenter) (type : UInt8) (buf : List UInt8) :
    Option RegisterCenter :=
  if type = tlvCode then some { rcs with code := some (textOf buf) }
  else if type = tlvUrl0 then some { rcs with url0 := some (textOf buf) }
  else if type = tlvUrlx then some { rcs with urlx := some (textOf buf) }
  else if type = tlvCa then some { rcs with caCert := some buf }
  else none

inductive TlvStep
  | done (rt : OperateRet) (rcs : RegisterCenter)
  | more (offset : ℕ) (rcs : RegisterCenter)

/-- One turn of the loop.  A number is always one byte, whatever its length
says. -/
def readRecord (alloc : ℕ → Bool) (data : List UInt8) (offset : ℕ) (rcs : RegisterCenter) :
    Option TlvStep := do
  let type ← data[offset]?
  if type = 0 then return .done oprtOk rcs
  let low ← data[u16 (offset + 1)]?
  let high ← data[u16 (offset + 2)]?
  let len := u16 (low.toNat + 256 * high.toNat)
  let offset := u16 (offset + 3)
  if len = 0 ∨ data.length < len + offset then return .done oprtInvalidParm rcs
  if type = tlvSrc then
    let b ← data[offset]?
    return .more (u16 (offset + 1)) { rcs with source := b.toNat }
  if type = tlvPub then
    let b ← data[offset]?
    return .more (u16 (offset + 1)) { rcs with pub := b.toNat }
  if alloc offset = false then return .done oprtMallocFailed rcs
  if data.length < offset + len then none
  match rcs.setField type ((data.drop offset).take len) with
  | none => return .done oprtInvalidParm rcs
  | some rcs => return .more (u16 (offset + len)) rcs

def readRecords (alloc : ℕ → Bool) (data : List UInt8) :
    ℕ → ℕ → RegisterCenter → Option (OperateRet × RegisterCenter)
  | 0, _, _ => none
  | fuel + 1, offset, rcs =>
      if offset + 3 < data.length then
        match readRecord alloc data offset rcs with
        | none => none
        | some (.done rt rcs) => some (rt, rcs)
        | some (.more offset rcs) => readRecords alloc data fuel offset rcs
      else
        some (oprtOk, rcs)

/-- `__rcs_deserialize`; no result where it would read outside `data` or not
come to an end. -/
def rcsDeserialize (alloc : ℕ → Bool) (data : List UInt8) (rcs : RegisterCenter) :
    Option (OperateRet × RegisterCenter) :=
  readRecords alloc data (data.length + 1) 0 rcs

theorem u16_of_lt {n : ℕ} (h : n < 2 ^ 16) : u16 n = n := Nat.mod_eq_of_lt h

/-! ## Every input is read inside and to an end -/

theorem readRecord_inside (alloc : ℕ → Bool) {data : List UInt8} {offset : ℕ}
    (hdata : data.length < 2 ^ 16) (hoffset : offset + 3 < data.length) (rcs : RegisterCenter) :
    ∃ step, readRecord alloc data offset rcs = some step ∧
      ∀ next rcs', step = .more next rcs' → offset < next := by
  have htype : data[offset]? = some data[offset] := List.getElem?_eq_getElem (by omega)
  have hlow : data[offset + 1]? = some data[offset + 1] := List.getElem?_eq_getElem (by omega)
  have hhigh : data[offset + 2]? = some data[offset + 2] := List.getElem?_eq_getElem (by omega)
  have hvalue : data[offset + 3]? = some data[offset + 3] := List.getElem?_eq_getElem (by omega)
  unfold readRecord
  simp only [htype, Option.bind_eq_bind, Option.bind_some, u16_of_lt (n := offset + 1) (by omega),
    u16_of_lt (n := offset + 2) (by omega), u16_of_lt (n := offset + 3) (by omega), hlow, hhigh,
    hvalue]
  generalize u16 (data[offset + 1].toNat + 256 * data[offset + 2].toNat) = len
  by_cases hzero : data[offset] = 0
  · simp [hzero]
  by_cases hlen : len = 0 ∨ data.length < len + (offset + 3)
  · simp [hzero, hlen]
  have hend : ¬data.length < offset + 3 + len := by omega
  have hnext : offset < u16 (offset + 3 + 1) := by
    rw [u16_of_lt (by omega)]
    omega
  have hnext' : offset < u16 (offset + 3 + len) := by
    rw [u16_of_lt (by omega)]
    omega
  by_cases hsrc : data[offset] = tlvSrc
  · simp [hlen, hsrc, hnext, tlvSrc]
  by_cases hpub : data[offset] = tlvPub
  · simp [hlen, hpub, hnext, tlvSrc, tlvPub]
  by_cases halloc : alloc (offset + 3) = false
  · simp [hzero, hlen, hsrc, hpub, halloc]
  cases hset : rcs.setField data[offset] ((data.drop (offset + 3)).take len) with
  | none => simp [hzero, hlen, hsrc, hpub, halloc, hend]
  | some rcs' => simp [hzero, hlen, hsrc, hpub, halloc, hend, hnext']

theorem readRecords_inside (alloc : ℕ → Bool) {data : List UInt8} (hdata : data.length < 2 ^ 16)
    {fuel offset : ℕ} (hpos : 0 < fuel) (hfuel : data.length < offset + fuel)
    (rcs : RegisterCenter) : ∃ result, readRecords alloc data fuel offset rcs = some result := by
  induction fuel generalizing offset rcs with
  | zero => omega
  | succ fuel ih =>
      unfold readRecords
      by_cases hoffset : offset + 3 < data.length
      · obtain ⟨step, hstep, hmore⟩ := readRecord_inside alloc hdata hoffset rcs
        rw [if_pos hoffset, hstep]
        cases step with
        | done rt rcs' => exact ⟨_, rfl⟩
        | more next rcs' =>
            have hnext := hmore next rcs' rfl
            exact ih (by omega) (by omega) rcs'
      · exact ⟨_, if_neg hoffset⟩

theorem rcsDeserialize_inside (alloc : ℕ → Bool) {data : List UInt8}
    (hdata : data.length < 2 ^ 16) (rcs : RegisterCenter) :
    ∃ result, rcsDeserialize alloc data rcs = some result :=
  readRecords_inside alloc hdata (by omega) (by omega) rcs

/-! ## Records -/

/-- A record as it is stored. -/
def tlv (record : UInt8 × List UInt8) : List UInt8 :=
  record.1 :: record.2.length.toUInt8 :: (record.2.length / 256).toUInt8 :: record.2

@[simp] theorem length_tlv (record : UInt8 × List UInt8) :
    (tlv record).length = record.2.length + 3 := rfl

/-- A value that is not empty, under a type that takes it. -/
def RecordOk (record : UInt8 × List UInt8) : Prop :=
  record.2 ≠ [] ∧
    (record.1 ∈ [tlvSrc, tlvPub] ∧ record.2.length = 1 ∨
      record.1 ∈ [tlvCode, tlvUrl0, tlvUrlx, tlvCa])

/-- What a record says about the register center. -/
def RegisterCenter.learn (rcs : RegisterCenter) (record : UInt8 × List UInt8) : RegisterCenter :=
  if record.1 = tlvSrc then { rcs with source := (record.2.headD 0).toNat }
  else if record.1 = tlvPub then { rcs with pub := (record.2.headD 0).toNat }
  else (rcs.setField record.1 record.2).getD rcs

namespace TlvWriter

/-- The writer behind `front`, with `n` bytes left. -/
def behind (front : List UInt8) (n : ℕ) : TlvWriter := ⟨front ++ List.replicate n 0, front.length⟩

variable {front : List UInt8} {n : ℕ}

theorem byte_behind (h : front.length + (n + 1) < 2 ^ 16) (b : UInt8) :
    (behind front (n + 1)).byte b = some (behind (front ++ [b]) n) := by
  have hlt : front.length < (front ++ List.replicate (n + 1) 0).length := by simp
  have hset : (front ++ List.replicate (n + 1) 0).set front.length b =
      front ++ [b] ++ List.replicate n 0 := by
    simp [List.set_append_right, List.replicate_succ]
  unfold byte behind
  dsimp only
  rw [if_pos hlt, hset, u16_of_lt (by omega)]
  simp

theorem copy_behind {bs : List UInt8} (h : front.length + (bs.length + n) < 2 ^ 16) :
    (behind front (bs.length + n)).copy bs = some (behind (front ++ bs) n) := by
  have hle : front.length + bs.length ≤ (front ++ List.replicate (bs.length + n) 0).length := by
    simp
  have hsplice : (front ++ List.replicate (bs.length + n) 0).splice front.length bs =
      front ++ bs ++ List.replicate n 0 := by
    simp [List.splice]
  unfold copy behind
  dsimp only
  rw [if_pos hle, hsplice, u16_of_lt (by omega)]
  simp

theorem record_behind {record : UInt8 × List UInt8}
    (h : front.length + (record.2.length + 3 + n) < 2 ^ 16) :
    (behind front (record.2.length + 3 + n)).record record.1 record.2 =
      some (behind (front ++ tlv record) n) := by
  have hlen : u16 record.2.length = record.2.length := u16_of_lt (by omega)
  have hroom : record.2.length + 3 + n = record.2.length + n + 1 + 1 + 1 := by omega
  unfold TlvWriter.record
  simp only [hlen, hroom, List.take_length, Option.bind_eq_bind]
  rw [byte_behind (by omega), Option.bind_some, byte_behind (by simp; omega), Option.bind_some,
    byte_behind (by simp; omega), Option.bind_some, copy_behind (by simp; omega)]
  simp [tlv]

end TlvWriter

theorem TlvWriter.records_behind {records : List (UInt8 × List UInt8)} {front : List UInt8} {n : ℕ}
    (h : front.length + ((records.flatMap tlv).length + n) < 2 ^ 16) :
    records.foldlM (fun w record ↦ w.record record.1 record.2)
        (behind front ((records.flatMap tlv).length + n)) =
      some (behind (front ++ records.flatMap tlv) n) := by
  induction records generalizing front with
  | nil => simp
  | cons record records ih =>
      have hlength : ((record :: records).flatMap tlv).length + n =
          record.2.length + 3 + ((records.flatMap tlv).length + n) := by
        simp only [List.flatMap_cons, List.length_append, length_tlv]
        omega
      rw [hlength] at h
      have hrest : (front ++ tlv record).length + ((records.flatMap tlv).length + n) < 2 ^ 16 := by
        simp only [List.length_append, length_tlv]
        omega
      rw [List.foldlM_cons, hlength, record_behind h, Option.bind_eq_bind, Option.bind_some,
        ih hrest]
      simp

/-! ## A record is read as it was written -/

theorem readRecord_tlv {data front tail : List UInt8} {record : UInt8 × List UInt8}
    (hok : RecordOk record) (hsplit : data = front ++ tlv record ++ tail)
    (hdata : data.length < 2 ^ 16) (rcs : RegisterCenter) :
    readRecord (fun _ ↦ true) data front.length rcs =
      some (.more (front ++ tlv record).length (rcs.learn record)) := by
  obtain ⟨type, value⟩ := record
  obtain ⟨hne, htype⟩ := hok
  have hlength : data.length = front.length + (value.length + 3) + tail.length := by
    simp [hsplit, Nat.add_assoc]
  have hdrop : data.drop front.length = tlv (type, value) ++ tail := by
    rw [hsplit, List.append_assoc, List.drop_left]
  have hget : ∀ k, data[front.length + k]? = (tlv (type, value) ++ tail)[k]? := by
    intro k
    rw [← hdrop, List.getElem?_drop]
  have htype? : data[front.length]? = some type := hget 0
  have hlow : data[front.length + 1]? = some value.length.toUInt8 := hget 1
  have hhigh : data[front.length + 2]? = some (value.length / 256).toUInt8 := hget 2
  have hlen : u16 (value.length.toUInt8.toNat + 256 * (value.length / 256).toUInt8.toNat) =
      value.length := by
    have hlt : value.length < 2 ^ 16 := by omega
    simp only [Nat.toUInt8, UInt8.toNat_ofNat', u16]
    omega
  have hpos : 0 < value.length := List.length_pos_iff.mpr hne
  have hshort : ¬(value.length = 0 ∨ data.length < value.length + (front.length + 3)) := by omega
  have hend : ¬data.length < front.length + 3 + value.length := by omega
  have hvalue : (data.drop (front.length + 3)).take value.length = value := by
    rw [← List.drop_drop, hdrop]
    simp [tlv]
  have hnext : u16 (front.length + 3 + value.length) = (front ++ tlv (type, value)).length := by
    rw [u16_of_lt (by omega)]
    simp
    omega
  unfold readRecord
  simp only [htype?, Option.bind_eq_bind, Option.bind_some,
    u16_of_lt (n := front.length + 1) (by omega), u16_of_lt (n := front.length + 2) (by omega),
    u16_of_lt (n := front.length + 3) (by omega), hlow, hhigh, hlen, hshort, hend, hvalue, hnext]
  obtain ⟨hnumber, hone⟩ | hfield := htype
  · obtain ⟨b, rfl⟩ := List.length_eq_one_iff.mp hone
    have hb : data[front.length + 3]? = some b := hget 3
    have hnext' : u16 (front.length + 3 + 1) = (front ++ tlv (type, [b])).length := hnext
    simp only [List.mem_cons, List.not_mem_nil, or_false] at hnumber
    obtain rfl | rfl := hnumber
    · simp [hb, hnext', RegisterCenter.learn, tlvSrc]
    · simp [hb, hnext', RegisterCenter.learn, tlvSrc, tlvPub]
  · simp only [List.mem_cons, List.not_mem_nil, or_false] at hfield
    obtain rfl | rfl | rfl | rfl := hfield <;>
      simp [RegisterCenter.learn, RegisterCenter.setField, tlvSrc, tlvPub, tlvCode, tlvUrl0,
        tlvUrlx, tlvCa]

theorem readRecords_tlvs {records : List (UInt8 × List UInt8)} {front tail : List UInt8}
    (hok : ∀ record ∈ records, RecordOk record)
    (hdata : (front ++ records.flatMap tlv ++ tail).length < 2 ^ 16) (fuel : ℕ)
    (rcs : RegisterCenter) :
    readRecords (fun _ ↦ true) (front ++ records.flatMap tlv ++ tail) (fuel + records.length)
        front.length rcs =
      readRecords (fun _ ↦ true) (front ++ records.flatMap tlv ++ tail) fuel
        (front ++ records.flatMap tlv).length (records.foldl RegisterCenter.learn rcs) := by
  induction records generalizing front rcs with
  | nil => simp
  | cons record records ih =>
      have hregroup : front ++ (record :: records).flatMap tlv =
          front ++ tlv record ++ records.flatMap tlv := by
        simp
      have hrecord := hok record (by simp)
      have hpos : 0 < record.2.length := List.length_pos_iff.mpr hrecord.1
      rw [hregroup] at hdata ⊢
      have hsplit := List.append_assoc (front ++ tlv record) (records.flatMap tlv) tail
      have hstep := readRecord_tlv hrecord hsplit hdata rcs
      have hguard : front.length + 3 <
          (front ++ tlv record ++ records.flatMap tlv ++ tail).length := by
        simp only [List.length_append, length_tlv]
        omega
      rw [List.length_cons, ← Nat.add_assoc, readRecords, if_pos hguard, hstep, List.foldl_cons]
      exact ih (fun r hr ↦ hok r (List.mem_cons_of_mem _ hr)) hdata _

theorem readRecords_zeros (alloc : ℕ → Bool) (front : List UInt8) (n fuel : ℕ)
    (rcs : RegisterCenter) :
    readRecords alloc (front ++ List.replicate n 0) (fuel + 1) front.length rcs =
      some (oprtOk, rcs) := by
  unfold readRecords
  by_cases hn : front.length + 3 < (front ++ List.replicate n 0).length
  · have hpos : 0 < n := by
      simp at hn
      omega
    have hzero : (front ++ List.replicate n 0)[front.length]? = some 0 := by
      rw [List.getElem?_append_right (Nat.le_refl _)]
      simp [hpos]
    rw [if_pos hn]
    simp [readRecord, hzero]
  · exact if_neg hn

theorem readRecords_empty (alloc : ℕ → Bool) {data front tail : List UInt8} {type : UInt8}
    (htype : type ≠ 0) (htail : tail ≠ []) (hsplit : data = front ++ (tlv (type, []) ++ tail))
    (hdata : data.length < 2 ^ 16) (fuel : ℕ) (rcs : RegisterCenter) :
    readRecords alloc data (fuel + 1) front.length rcs = some (oprtInvalidParm, rcs) := by
  have hpos : 0 < tail.length := List.length_pos_iff.mpr htail
  have hlength : data.length = front.length + 3 + tail.length := by
    simp [hsplit, Nat.add_assoc]
  have hget : ∀ k, data[front.length + k]? = (tlv (type, []) ++ tail)[k]? := by
    intro k
    rw [hsplit, List.getElem?_append_right (Nat.le_add_right _ _), Nat.add_sub_cancel_left]
  have htype? : data[front.length]? = some type := hget 0
  have hlow : data[front.length + 1]? = some 0 := hget 1
  have hhigh : data[front.length + 2]? = some 0 := by simpa [tlv] using hget 2
  have hlen : u16 0 = 0 := rfl
  have hrecord : readRecord alloc data front.length rcs = some (.done oprtInvalidParm rcs) := by
    simp [readRecord, htype?, htype, u16_of_lt (n := front.length + 1) (by omega),
      u16_of_lt (n := front.length + 2) (by omega), hlow, hhigh, hlen]
  rw [readRecords, if_pos (by omega), hrecord]

/-! ## What is stored -/

/-- The records in front of the certificate. -/
def RegisterCenter.fields (rcs : RegisterCenter) (level : SecurityLevel) (url0 : Text) :
    List (UInt8 × List UInt8) :=
  (tlvSrc, [storedInt rcs.source]) :: (tlvPub, [storedInt rcs.pub]) ::
    (rcs.code.elim [] (fun code ↦ [(tlvCode, stored code)]) ++
      (tlvUrl0, stored url0) ::
        if level = .sl0 then [] else rcs.urlx.elim [] (fun urlx ↦ [(tlvUrlx, stored urlx)]))

def RegisterCenter.records (rcs : RegisterCenter) (level : SecurityLevel) (out : List UInt8)
    (url0 : Text) : List (UInt8 × List UInt8) :=
  rcs.fields level url0 ++ if level = .sl0 then [] else [(tlvCa, out)]

/-- The strings that are always stored are there. -/
def RegisterCenter.Given (rcs : RegisterCenter) (level : SecurityLevel) : Prop :=
  rcs.url0.isSome ∧ (level ≠ .sl0 → rcs.urlx.isSome)

theorem RegisterCenter.room (rcs : RegisterCenter) (level : SecurityLevel) (out : List UInt8)
    {url0 : Text} (hurl0 : rcs.url0 = some url0) :
    ∃ n, rcsTotal level rcs out.length =
      ((rcs.records level out url0).flatMap tlv).length + (n + 1) := by
  suffices h : ((rcs.records level out url0).flatMap tlv).length + 1 ≤
      rcsTotal level rcs out.length by
    obtain ⟨n, hn⟩ := Nat.exists_eq_add_of_le h
    exact ⟨n, by omega⟩
  unfold rcsTotal records fields strlen
  rw [hurl0]
  cases rcs.code <;> cases rcs.urlx <;> by_cases hlevel : level = .sl0 <;>
    simp [hlevel, tlv, stored, tlvMax] <;> omega

/-- The certificate as it is written. -/
def derOf (level : SecurityLevel) (pemReadBuffer : List UInt8 → PemRead) (mem : Bool)
    (rcs : RegisterCenter) : Except OperateRet (List UInt8) :=
  if level = .sl0 then .ok [] else tuyaX509Pem2der pemReadBuffer mem rcs.caCert

theorem rcsSerialize_eq {level : SecurityLevel} {pemReadBuffer : List UInt8 → PemRead}
    {mem : RcsMemory} {rcs : RegisterCenter} {url0 : Text} {out : List UInt8}
    (hurl0 : rcs.url0 = some url0) (hurlx : level ≠ .sl0 → rcs.urlx.isSome)
    (hder : derOf level pemReadBuffer mem.der rcs = .ok out)
    (htotal : rcsTotal level rcs out.length < 2 ^ 16) :
    ∃ n, ((rcs.records level out url0).flatMap tlv).length + (n + 1) < 2 ^ 16 ∧
      rcsSerialize level pemReadBuffer mem rcs =
        some (if mem.buf then
            .ok ((rcs.records level out url0).flatMap tlv ++ List.replicate (n + 1) 0)
          else .error oprtMallocFailed) := by
  obtain ⟨n, hn⟩ := rcs.room level out hurl0
  rw [hn] at htotal
  refine ⟨n, htotal, ?_⟩
  have hwrite := @TlvWriter.records_behind (rcs.records level out url0) [] (n + 1)
    (by rwa [List.length_nil, Nat.zero_add])
  have hmod : (((rcs.records level out url0).flatMap tlv).length + (n + 1)) % 2 ^ 32 =
      ((rcs.records level out url0).flatMap tlv).length + (n + 1) := Nat.mod_eq_of_lt (by omega)
  have hguard : ¬(level ≠ .sl0 ∧ rcs.urlx = none) := by
    rintro ⟨hlevel, hnone⟩
    simpa [hnone] using hurlx hlevel
  unfold derOf at hder
  unfold rcsSerialize
  simp only [hurl0, hder, hguard, hmod, hn, Option.bind_eq_bind, Option.bind_some, if_false]
  cases mem.buf with
  | false => simp
  | true =>
      have hstart : TlvWriter.behind []
        (((rcs.records level out url0).flatMap tlv).length + (n + 1)) =
          ⟨List.replicate (((rcs.records level out url0).flatMap tlv).length + (n + 1)) 0, 0⟩ := rfl
      rw [hstart] at hwrite
      generalize (⟨List.replicate _ 0, 0⟩ : TlvWriter) = w at hwrite ⊢
      generalize (rcs.records level out url0).flatMap tlv = flat at hwrite ⊢
      -- Both sides are the same chain of records; only the buffer is taken out of the last writer.
      have hbuf := congrArg (Option.bind · fun w ↦
        some (Except.ok w.buf : Except OperateRet _)) hwrite
      unfold RegisterCenter.records RegisterCenter.fields at hbuf
      by_cases hlevel : level = .sl0
      · cases hcode : rcs.code <;>
          simpa [hcode, hlevel, TlvWriter.behind, Option.bind_assoc] using hbuf
      · obtain ⟨urlx, hurlx⟩ := Option.isSome_iff_exists.mp (hurlx hlevel)
        cases hcode : rcs.code <;>
          simpa [hcode, hlevel, hurlx, TlvWriter.behind, Option.bind_assoc]
            using hbuf

theorem RegisterCenter.learn_fields {rcs : RegisterCenter} {level : SecurityLevel} {url0 : Text}
    (hurl0 : rcs.url0 = some url0) :
    (rcs.fields level url0).foldl learn zero =
      { rcs with
        source := (storedInt rcs.source).toNat
        pub := (storedInt rcs.pub).toNat
        urlx := if level = .sl0 then none else rcs.urlx
        caCert := none } := by
  have hstored : ∀ t : Text, textOf (stored t) = t := fun t ↦ textOf_append t []
  unfold fields
  obtain ⟨source, pub, code, url0?, urlx, caCert⟩ := rcs
  obtain rfl : url0? = some url0 := hurl0
  cases code <;> cases urlx <;> by_cases hlevel : level = .sl0 <;>
    simp [hlevel, learn, setField, zero, hstored, tlvSrc, tlvPub, tlvCode, tlvUrl0, tlvUrlx]

theorem RegisterCenter.recordOk_fields (rcs : RegisterCenter) (level : SecurityLevel)
    (url0 : Text) : ∀ record ∈ rcs.fields level url0, RecordOk record := by
  have hstored : ∀ t : Text, stored t ≠ [] := fun t ↦ by simp [stored]
  unfold fields
  cases rcs.code <;> cases rcs.urlx <;> by_cases hlevel : level = .sl0 <;>
    simp [hlevel, RecordOk, hstored]

theorem exists_fuel (records : List (UInt8 × List UInt8)) (tail : List UInt8) :
    ∃ fuel, (records.flatMap tlv ++ tail).length + 1 = fuel + 1 + records.length := by
  suffices h : records.length ≤ (records.flatMap tlv).length by
    exact ⟨(records.flatMap tlv ++ tail).length - records.length, by
      simp only [List.length_append]; omega⟩
  induction records with
  | nil => exact Nat.le_refl _
  | cons record records ih =>
      simp only [List.flatMap_cons, List.length_append, List.length_cons, length_tlv]
      omega

theorem rcsDeserialize_tlvs {records : List (UInt8 × List UInt8)} {n : ℕ}
    (hok : ∀ record ∈ records, RecordOk record)
    (hlength : (records.flatMap tlv).length + n < 2 ^ 16) (rcs : RegisterCenter) :
    rcsDeserialize (fun _ ↦ true) (records.flatMap tlv ++ List.replicate n 0) rcs =
      some (oprtOk, records.foldl RegisterCenter.learn rcs) := by
  obtain ⟨fuel, hfuel⟩ := exists_fuel records (List.replicate n 0)
  unfold rcsDeserialize
  rw [hfuel]
  have hdata : ([] ++ records.flatMap tlv ++ List.replicate n 0).length < 2 ^ 16 := by
    simpa using hlength
  have hrun := readRecords_tlvs hok hdata (fuel + 1) rcs
  rw [readRecords_zeros] at hrun
  exact hrun

theorem rcsDeserialize_empty {records : List (UInt8 × List UInt8)} {n : ℕ} {type : UInt8}
    (hok : ∀ record ∈ records, RecordOk record) (htype : type ≠ 0)
    (hlength : ((records ++ [(type, [])]).flatMap tlv).length + (n + 1) < 2 ^ 16)
    (rcs : RegisterCenter) :
    rcsDeserialize (fun _ ↦ true)
        ((records ++ [(type, [])]).flatMap tlv ++ List.replicate (n + 1) 0) rcs =
      some (oprtInvalidParm, records.foldl RegisterCenter.learn rcs) := by
  have hsplit : (records ++ [(type, [])]).flatMap tlv ++ List.replicate (n + 1) 0 =
      records.flatMap tlv ++ (tlv (type, []) ++ List.replicate (n + 1) 0) := by
    simp
  have hdata : ([] ++ records.flatMap tlv ++
      (tlv (type, []) ++ List.replicate (n + 1) 0)).length < 2 ^ 16 := by
    simp only [List.flatMap_append, List.length_append, List.flatMap_singleton,
      List.length_replicate, List.length_nil] at hlength ⊢
    omega
  obtain ⟨fuel, hfuel⟩ := exists_fuel records (tlv (type, []) ++ List.replicate (n + 1) 0)
  unfold rcsDeserialize
  rw [hsplit, hfuel]
  have hrun := readRecords_tlvs hok hdata (fuel + 1) rcs
  rw [readRecords_empty _ htype (by simp) rfl hdata] at hrun
  exact hrun

/-- A center is read back up to its certificate, and a certificate without
bytes is refused. -/
theorem rcsDeserialize_records {rcs : RegisterCenter} {level : SecurityLevel} {out : List UInt8}
    {url0 : Text} {n : ℕ} (hurl0 : rcs.url0 = some url0)
    (hlength : ((rcs.records level out url0).flatMap tlv).length + (n + 1) < 2 ^ 16) :
    rcsDeserialize (fun _ ↦ true)
        ((rcs.records level out url0).flatMap tlv ++ List.replicate (n + 1) 0) .zero =
      some (if level ≠ .sl0 ∧ out = [] then oprtInvalidParm else oprtOk,
        { rcs with
          source := (storedInt rcs.source).toNat
          pub := (storedInt rcs.pub).toNat
          urlx := if level = .sl0 then none else rcs.urlx
          caCert := if level = .sl0 ∨ out = [] then none else some out }) := by
  have hfields := rcs.recordOk_fields level url0
  have hlearn := @RegisterCenter.learn_fields rcs level url0 hurl0
  unfold RegisterCenter.records at hlength ⊢
  by_cases hlevel : level = .sl0
  · rw [if_pos hlevel, List.append_nil] at hlength ⊢
    rw [rcsDeserialize_tlvs hfields hlength, hlearn]
    simp [hlevel]
  rw [if_neg hlevel] at hlength ⊢
  by_cases hout : out = []
  · subst hout
    rw [rcsDeserialize_empty hfields (by decide) hlength, hlearn]
    simp [hlevel]
  · have hok : ∀ record ∈ rcs.fields level url0 ++ [(tlvCa, out)], RecordOk record := by
      intro record hrecord
      obtain hrecord | hrecord := List.mem_append.mp hrecord
      · exact hfields record hrecord
      · obtain rfl := List.mem_singleton.mp hrecord
        exact ⟨hout, .inr (by simp)⟩
    rw [rcsDeserialize_tlvs hok hlength, List.foldl_append, hlearn]
    simp [hlevel, hout, RegisterCenter.learn, RegisterCenter.setField, tlvSrc, tlvPub, tlvCode,
      tlvUrl0, tlvUrlx, tlvCa]

/-! ## The round trip -/

/-- The certificate in its binary form. -/
def certificate (pemReadBuffer : List UInt8 → PemRead) (ca : List UInt8) : List UInt8 :=
  match pemReadBuffer ca with
  | .der out => out
  | _ => ca

/-- Writing a center and reading it back gives the same center. -/
def RegisterCenter.RoundTrips (rcs : RegisterCenter) (level : SecurityLevel)
    (pemReadBuffer : List UInt8 → PemRead) : Prop :=
  ∃ data, rcsSerialize level pemReadBuffer ⟨true, true⟩ rcs = some (.ok data) ∧
    rcsDeserialize (fun _ ↦ true) data .zero =
      some (oprtOk, { rcs with caCert := rcs.caCert.map (certificate pemReadBuffer) })

/-- The numbers fit in a byte and the certificate is a text with bytes in it. -/
def RegisterCenter.Storable (rcs : RegisterCenter) (level : SecurityLevel)
    (pemReadBuffer : List UInt8 → PemRead) : Prop :=
  (0 ≤ rcs.source ∧ rcs.source < 256) ∧ (0 ≤ rcs.pub ∧ rcs.pub < 256) ∧ rcs.url0.isSome ∧
    if level = .sl0 then rcs.urlx = none ∧ rcs.caCert = none
    else rcs.urlx.isSome ∧
      ∃ ca out, rcs.caCert = some ca ∧ 64 ≤ ca.length ∧ pemReadBuffer ca = .der out ∧ out ≠ []

/-- The serialised size. -/
def RegisterCenter.size (rcs : RegisterCenter) (level : SecurityLevel)
    (pemReadBuffer : List UInt8 → PemRead) : ℕ :=
  match derOf level pemReadBuffer true rcs with
  | .ok out => rcsTotal level rcs out.length
  | .error _ => 0

theorem storedInt_eq_iff (n : ℤ) : ((storedInt n).toNat : ℤ) = n ↔ 0 ≤ n ∧ n < 256 := by
  unfold storedInt
  simp only [Nat.toUInt8, UInt8.toNat_ofNat']
  omega

section

variable {level : SecurityLevel} {pemReadBuffer : List UInt8 → PemRead} {rcs : RegisterCenter}

theorem derOf_certificate {out : List UInt8} (hlevel : level ≠ .sl0)
    (h : derOf level pemReadBuffer true rcs = .ok out) :
    ∃ ca, rcs.caCert = some ca ∧ 64 ≤ ca.length ∧
      (pemReadBuffer ca = .der out ∨ pemReadBuffer ca = .noHeaderFooter ∧ out = []) := by
  unfold derOf tuyaX509Pem2der at h
  rw [if_neg hlevel] at h
  cases hca : rcs.caCert with
  | none => simp [hca] at h
  | some ca =>
      by_cases hlen : ca.length < 64
      · simp [hca, hlen] at h
      · refine ⟨ca, rfl, Nat.le_of_not_lt hlen, ?_⟩
        cases hread : pemReadBuffer ca with
        | der out' => simpa [hca, hlen, hread] using h
        | noHeaderFooter => simpa [hca, hlen, hread, eq_comm] using h
        | error => simp [hca, hlen, hread] at h

theorem derOf_le {mem : Bool} {out : List UInt8}
    (h : derOf level pemReadBuffer mem rcs = .ok out) :
    ∃ out', derOf level pemReadBuffer true rcs = .ok out' ∧ out.length ≤ out'.length := by
  cases mem with
  | true => exact ⟨out, h, Nat.le_refl _⟩
  | false =>
      unfold derOf tuyaX509Pem2der at h ⊢
      by_cases hlevel : level = .sl0
      · exact ⟨[], by simp [hlevel], by simp_all⟩
      rw [if_neg hlevel] at h ⊢
      cases hca : rcs.caCert with
      | none => simp [hca] at h
      | some ca =>
          by_cases hlen : ca.length < 64
          · simp [hca, hlen] at h
          have hout : out = [] := by
            cases hread : pemReadBuffer ca <;> simp_all
          subst hout
          cases hread : pemReadBuffer ca with
          | der out' => exact ⟨out', by simp [hlen, hread], Nat.zero_le _⟩
          | noHeaderFooter => exact ⟨[], by simp [hlen, hread], Nat.zero_le _⟩
          | error => simp [hca, hlen, hread] at h

theorem rcsSerialize_inside (hgiven : rcs.Given level)
    (hsize : rcs.size level pemReadBuffer < 2 ^ 16) (mem : RcsMemory) :
    ∃ result, rcsSerialize level pemReadBuffer mem rcs = some result := by
  obtain ⟨hurl0, hurlx⟩ := hgiven
  obtain ⟨url0, hurl0⟩ := Option.isSome_iff_exists.mp hurl0
  cases hder : derOf level pemReadBuffer mem.der rcs with
  | error rt =>
      unfold derOf at hder
      exact ⟨.error oprtInvalidParm, by simp [rcsSerialize, hurl0, hder]⟩
  | ok out =>
      obtain ⟨out', hder', hle⟩ := derOf_le hder
      have htotal : rcsTotal level rcs out.length < 2 ^ 16 := by
        refine Nat.lt_of_le_of_lt ?_ hsize
        unfold RegisterCenter.size rcsTotal
        rw [hder']
        dsimp only
        split <;> omega
      obtain ⟨n, -, hserialize⟩ := rcsSerialize_eq hurl0 hurlx hder htotal
      exact ⟨_, hserialize⟩

theorem roundTrips_of_ok {url0 : Text} {out : List UInt8} (hurl0 : rcs.url0 = some url0)
    (hurlx : level ≠ .sl0 → rcs.urlx.isSome) (hder : derOf level pemReadBuffer true rcs = .ok out)
    (htotal : rcsTotal level rcs out.length < 2 ^ 16) :
    rcs.RoundTrips level pemReadBuffer ↔
      (if level ≠ .sl0 ∧ out = [] then oprtInvalidParm else oprtOk) = oprtOk ∧
        ((storedInt rcs.source).toNat : ℤ) = rcs.source ∧
        ((storedInt rcs.pub).toNat : ℤ) = rcs.pub ∧
        (if level = .sl0 then none else rcs.urlx) = rcs.urlx ∧
        (if level = .sl0 ∨ out = [] then none else some out) =
          rcs.caCert.map (certificate pemReadBuffer) := by
  obtain ⟨n, hlength, hserialize⟩ := @rcsSerialize_eq _ _ ⟨true, true⟩ _ _ _ hurl0 hurlx hder htotal
  have hread := rcsDeserialize_records hurl0 hlength
  unfold RegisterCenter.RoundTrips
  rw [hserialize]
  constructor
  · rintro ⟨data, hdata, hgot⟩
    obtain rfl := Except.ok.inj (Option.some.inj hdata)
    have heq := Option.some.inj (hread.symm.trans hgot)
    simpa using heq
  · rintro ⟨hok, hsource, hpub, hurlx, hca⟩
    refine ⟨_, rfl, hread.trans ?_⟩
    rw [hok, hsource, hpub, hurlx, hca]

theorem RegisterCenter.Storable.derOf_ok (h : rcs.Storable level pemReadBuffer) :
    ∃ out, derOf level pemReadBuffer true rcs = .ok out := by
  obtain ⟨-, -, -, h⟩ := h
  unfold derOf
  by_cases hlevel : level = .sl0
  · exact ⟨[], if_pos hlevel⟩
  · rw [if_neg hlevel] at h
    obtain ⟨-, ca, out, hca, hlen, hread, -⟩ := h
    exact ⟨out, by simp [hlevel, tuyaX509Pem2der, hca, Nat.not_lt.mpr hlen, hread]⟩

theorem RegisterCenter.Storable.given (h : rcs.Storable level pemReadBuffer) :
    rcs.Given level := by
  obtain ⟨-, -, hurl0, h⟩ := h
  refine ⟨hurl0, fun hlevel ↦ ?_⟩
  rw [if_neg hlevel] at h
  exact h.1

theorem RegisterCenter.RoundTrips.derOf_ok (h : rcs.RoundTrips level pemReadBuffer) :
    ∃ out, derOf level pemReadBuffer true rcs = .ok out := by
  obtain ⟨data, hserialize, -⟩ := h
  cases hder : derOf level pemReadBuffer true rcs with
  | ok out => exact ⟨out, rfl⟩
  | error rt =>
      unfold derOf at hder
      cases hurl0 : rcs.url0 <;> simp [rcsSerialize, hurl0, hder] at hserialize

theorem RegisterCenter.RoundTrips.given (h : rcs.RoundTrips level pemReadBuffer) :
    rcs.Given level := by
  obtain ⟨out, hder⟩ := h.derOf_ok
  obtain ⟨data, hserialize, -⟩ := h
  unfold derOf at hder
  cases hurl0 : rcs.url0 with
  | none => simp [rcsSerialize, hurl0] at hserialize
  | some url0 =>
      refine ⟨by simp [hurl0], fun hlevel ↦ ?_⟩
      cases hurlx : rcs.urlx with
      | none =>
          rw [if_neg hlevel] at hder
          simp [rcsSerialize, hurl0, hder, hlevel, hurlx] at hserialize
      | some urlx => rfl

theorem storable_of_ok {out : List UInt8}
    (hurlx : level ≠ .sl0 → rcs.urlx.isSome) (hder : derOf level pemReadBuffer true rcs = .ok out) :
    (if level ≠ .sl0 ∧ out = [] then oprtInvalidParm else oprtOk) = oprtOk ∧
        (if level = .sl0 then none else rcs.urlx) = rcs.urlx ∧
        (if level = .sl0 ∨ out = [] then none else some out) =
          rcs.caCert.map (certificate pemReadBuffer) ↔
      if level = .sl0 then rcs.urlx = none ∧ rcs.caCert = none
      else rcs.urlx.isSome ∧
        ∃ ca out, rcs.caCert = some ca ∧ 64 ≤ ca.length ∧ pemReadBuffer ca = .der out ∧
          out ≠ [] := by
  by_cases hlevel : level = .sl0
  · cases hca : rcs.caCert <;> simp [hlevel, eq_comm]
  obtain ⟨ca, hca, hlen, hread⟩ := derOf_certificate hlevel hder
  by_cases hout : out = []
  · have hempty : ∀ out', pemReadBuffer ca = .der out' → out' = [] := by
      intro out' hread'
      obtain hread | ⟨hread, -⟩ := hread <;> simp_all
    have hcode : oprtInvalidParm ≠ oprtOk := by decide
    simp only [hlevel, hout, ne_eq, not_false_iff, and_self, if_true, hcode, false_and, if_false,
      false_iff]
    rintro ⟨-, ca', out', hca', -, hread', hne⟩
    obtain rfl := Option.some.inj (hca.symm.trans hca')
    exact hne (hempty out' hread')
  · obtain hread | ⟨-, hnone⟩ := hread
    · simp [hlevel, hout, hca, hread, hlen, hurlx hlevel, certificate]
    · exact absurd hnone hout

theorem roundTrips_iff (hsize : rcs.size level pemReadBuffer < 2 ^ 16) :
    rcs.RoundTrips level pemReadBuffer ↔ rcs.Storable level pemReadBuffer := by
  by_cases hgiven : rcs.Given level
  · by_cases hok : ∃ out, derOf level pemReadBuffer true rcs = .ok out
    · obtain ⟨out, hder⟩ := hok
      obtain ⟨hurl0, hurlx⟩ := hgiven
      obtain ⟨url0, hurl0⟩ := Option.isSome_iff_exists.mp hurl0
      have htotal : rcsTotal level rcs out.length < 2 ^ 16 := by
        simpa [RegisterCenter.size, hder] using hsize
      rw [roundTrips_of_ok hurl0 hurlx hder htotal, RegisterCenter.Storable,
        ← storable_of_ok hurlx hder, storedInt_eq_iff, storedInt_eq_iff]
      simp only [hurl0, Option.isSome_some, true_and]
      tauto
    · exact iff_of_false (fun h ↦ hok h.derOf_ok) fun h ↦ hok h.derOf_ok
  · exact iff_of_false (fun h ↦ hgiven h.given) fun h ↦ hgiven h.given

end

/-- A center is kept if it fits and its certificate is a text; reading stays
inside any bytes and comes to an end. -/
theorem rcs_round_trip_iff (level : SecurityLevel) (pemReadBuffer : List UInt8 → PemRead)
    (rcs : RegisterCenter) (hsize : rcs.size level pemReadBuffer ≤ 65535) :
    (rcs.Given level →
      ∀ mem, ∃ result, rcsSerialize level pemReadBuffer mem rcs = some result) ∧
    (∀ alloc data old, data.length ≤ 65535 →
    ∃ result, rcsDeserialize alloc data old = some result) ∧
    (rcs.RoundTrips level pemReadBuffer ↔ rcs.Storable level pemReadBuffer) :=
  ⟨fun hgiven ↦ rcsSerialize_inside hgiven (Nat.lt_succ_of_le hsize),
    fun alloc _ old hdata ↦ rcsDeserialize_inside alloc (Nat.lt_succ_of_le hdata) old,
    roundTrips_iff (Nat.lt_succ_of_le hsize)⟩

/-! ## A center of an app -/

/-- A certificate in binary form. -/
def caDer : List UInt8 :=
  [0x30, 0x81, 0xbe, 0x30, 0x72, 0x02, 0x01, 0x01, 0x30, 0x05, 0x06, 0x03, 0x2b, 0x65, 0x70, 0x30,
    0x0c, 0x31, 0x0a, 0x30, 0x08, 0x06, 0x03, 0x55, 0x04, 0x03, 0x0c, 0x01, 0x61, 0x30, 0x1e, 0x17,
    0x0d, 0x32, 0x36, 0x31, 0x31, 0x31, 0x39, 0x31, 0x39, 0x32, 0x37, 0x34, 0x39, 0x5a, 0x17, 0x0d,
    0x32, 0x37, 0x31, 0x31, 0x31, 0x39, 0x31, 0x39, 0x32, 0x37, 0x34, 0x39, 0x5a, 0x30, 0x0c, 0x31,
    0x0a, 0x30, 0x08, 0x06, 0x03, 0x55, 0x04, 0x03, 0x0c, 0x01, 0x61, 0x30, 0x2a, 0x30, 0x05, 0x06,
    0x03, 0x2b, 0x65, 0x70, 0x03, 0x21, 0x00, 0xf7, 0xd7, 0xca, 0x60, 0x78, 0x3d, 0xd4, 0xd0, 0xf0,
    0xf6, 0x3a, 0xd0, 0x25, 0xe0, 0xd5, 0x1e, 0x2c, 0xe9, 0x35, 0x2e, 0xc3, 0x54, 0xd5, 0xf0, 0x60,
    0x8f, 0x25, 0x56, 0x6b, 0xe7, 0x41, 0xfb, 0x30, 0x05, 0x06, 0x03, 0x2b, 0x65, 0x70, 0x03, 0x41,
    0x00, 0xd5, 0x24, 0x2e, 0xec, 0x89, 0x68, 0xfb, 0x66, 0x51, 0x46, 0x3d, 0xf9, 0x23, 0x5b, 0x1b,
    0x40, 0x0a, 0xfd, 0x88, 0x56, 0xc4, 0xff, 0xd5, 0x2f, 0x84, 0x2f, 0x8e, 0xd0, 0x04, 0xda, 0x33,
    0x0c, 0x4d, 0x88, 0x0a, 0xca, 0x30, 0xc2, 0x10, 0x3f, 0x1f, 0x9d, 0x60, 0x9d, 0x15, 0xdf, 0x6d,
    0x4f, 0x70, 0x7e, 0x9e, 0x1f, 0x37, 0xd0, 0xff, 0xd7, 0xa3, 0x30, 0xe4, 0x93, 0xe0, 0x7f, 0xf4,
    0x0d]

/-- The same in base64, in lines. -/
def caLines : List UInt8 :=
  [0x4d, 0x49, 0x47, 0x2b, 0x4d, 0x48, 0x49, 0x43, 0x41, 0x51, 0x45, 0x77, 0x42, 0x51, 0x59, 0x44,
    0x4b, 0x32, 0x56, 0x77, 0x4d, 0x41, 0x77, 0x78, 0x43, 0x6a, 0x41, 0x49, 0x42, 0x67, 0x4e, 0x56,
    0x42, 0x41, 0x4d, 0x4d, 0x41, 0x57, 0x45, 0x77, 0x48, 0x68, 0x63, 0x4e, 0x4d, 0x6a, 0x59, 0x78,
    0x4d, 0x54, 0x45, 0x35, 0x4d, 0x54, 0x6b, 0x79, 0x4e, 0x7a, 0x51, 0x35, 0x57, 0x68, 0x63, 0x4e,
    0x0a, 0x4d, 0x6a, 0x63, 0x78, 0x4d, 0x54, 0x45, 0x35, 0x4d, 0x54, 0x6b, 0x79, 0x4e, 0x7a, 0x51,
    0x35, 0x57, 0x6a, 0x41, 0x4d, 0x4d, 0x51, 0x6f, 0x77, 0x43, 0x41, 0x59, 0x44, 0x56, 0x51, 0x51,
    0x44, 0x44, 0x41, 0x46, 0x68, 0x4d, 0x43, 0x6f, 0x77, 0x42, 0x51, 0x59, 0x44, 0x4b, 0x32, 0x56,
    0x77, 0x41, 0x79, 0x45, 0x41, 0x39, 0x39, 0x66, 0x4b, 0x59, 0x48, 0x67, 0x39, 0x31, 0x4e, 0x44,
    0x77, 0x0a, 0x39, 0x6a, 0x72, 0x51, 0x4a, 0x65, 0x44, 0x56, 0x48, 0x69, 0x7a, 0x70, 0x4e, 0x53,
    0x37, 0x44, 0x56, 0x4e, 0x58, 0x77, 0x59, 0x49, 0x38, 0x6c, 0x56, 0x6d, 0x76, 0x6e, 0x51, 0x66,
    0x73, 0x77, 0x42, 0x51, 0x59, 0x44, 0x4b, 0x32, 0x56, 0x77, 0x41, 0x30, 0x45, 0x41, 0x31, 0x53,
    0x51, 0x75, 0x37, 0x49, 0x6c, 0x6f, 0x2b, 0x32, 0x5a, 0x52, 0x52, 0x6a, 0x33, 0x35, 0x49, 0x31,
    0x73, 0x62, 0x0a, 0x51, 0x41, 0x72, 0x39, 0x69, 0x46, 0x62, 0x45, 0x2f, 0x39, 0x55, 0x76, 0x68,
    0x43, 0x2b, 0x4f, 0x30, 0x41, 0x54, 0x61, 0x4d, 0x77, 0x78, 0x4e, 0x69, 0x41, 0x72, 0x4b, 0x4d,
    0x4d, 0x49, 0x51, 0x50, 0x78, 0x2b, 0x64, 0x59, 0x4a, 0x30, 0x56, 0x33, 0x32, 0x31, 0x50, 0x63,
    0x48, 0x36, 0x65, 0x48, 0x7a, 0x66, 0x51, 0x2f, 0x39, 0x65, 0x6a, 0x4d, 0x4f, 0x53, 0x54, 0x34,
    0x48, 0x2f, 0x30, 0x0a, 0x44, 0x51, 0x3d, 0x3d, 0x0a]

/-- `-----BEGIN CERTIFICATE-----`. -/
def pemHeader : List UInt8 :=
  List.replicate 5 0x2d ++ [0x42, 0x45, 0x47, 0x49, 0x4e, 0x20, 0x43, 0x45, 0x52, 0x54, 0x49, 0x46,
    0x49, 0x43, 0x41, 0x54, 0x45] ++ List.replicate 5 0x2d

/-- `-----END CERTIFICATE-----`. -/
def pemFooter : List UInt8 :=
  List.replicate 5 0x2d ++ [0x45, 0x4e, 0x44, 0x20, 0x43, 0x45, 0x52, 0x54, 0x49, 0x46, 0x49, 0x43,
    0x41, 0x54, 0x45] ++ List.replicate 5 0x2d

/-- Its PEM text, with the final zero that `__rcs_restore` counts. -/
def caPem : List UInt8 := pemHeader ++ [0x0a] ++ caLines ++ pemFooter ++ [0x0a, 0]

/-- The base64 alone, as the app of a device may send it. -/
def caBase64 : List UInt8 := caLines.filter (· ≠ 0x0a) ++ [0]

/-- `mbedtls_pem_read_buffer` on these texts. -/
def caRead (buf : List UInt8) : PemRead :=
  if buf = caPem then .der caDer
  else if pemHeader <:+: (textOf buf).1 then .error
  else .noHeaderFooter

/-- `.iot-dns.com`. -/
def iotDns : List UInt8 :=
  [0x2e, 0x69, 0x6f, 0x74, 0x2d, 0x64, 0x6e, 0x73, 0x2e, 0x63, 0x6f, 0x6d]

/-- What `__rcs_restore` makes of the settings of an app, with this certificate. -/
def appRcs (ca : List UInt8) : RegisterCenter where
  source := 0
  pub := 1
  code := none
  url0 := some ⟨0x68 :: 0x33 :: iotDns, by decide⟩
  urlx := some ⟨0x68 :: 0x36 :: iotDns, by decide⟩
  caCert := some ca

/-- A center with a PEM certificate is kept. -/
theorem rcs_round_trip_pem :
    (appRcs caPem).size .sl1 caRead ≤ 65535 ∧ (appRcs caPem).RoundTrips .sl1 caRead := by
  have hread : caRead caPem = .der caDer := if_pos rfl
  have hlength : ¬caPem.length < 64 := by decide +kernel
  have hder : derOf .sl1 caRead true (appRcs caPem) = .ok caDer := by
    simp [derOf, tuyaX509Pem2der, appRcs, hlength, hread]
  have hsize : (appRcs caPem).size .sl1 caRead ≤ 65535 := by
    rw [RegisterCenter.size, hder]
    decide +kernel
  refine ⟨hsize, (rcs_round_trip_iff .sl1 caRead (appRcs caPem) hsize).2.2.mpr ?_⟩
  exact ⟨by decide, by decide, rfl, rfl, caPem, caDer, rfl, Nat.le_of_not_lt hlength, hread,
    List.cons_ne_nil _ _⟩

/-- The base64 without header and footer is stored without a byte and cannot be read back. -/
theorem app_center_lost :
    (appRcs caBase64).size .sl1 caRead ≤ 65535 ∧ ¬(appRcs caBase64).RoundTrips .sl1 caRead := by
  have hread : caRead caBase64 = .noHeaderFooter := by
    have hne : caBase64 ≠ caPem := by decide +kernel
    have hheader : ¬pemHeader <:+: (textOf caBase64).1 := by decide +kernel
    rw [caRead, if_neg hne, if_neg hheader]
  have hlength : ¬caBase64.length < 64 := by decide +kernel
  have hder : derOf .sl1 caRead true (appRcs caBase64) = .ok [] := by
    simp [derOf, tuyaX509Pem2der, appRcs, hlength, hread]
  have hsize : (appRcs caBase64).size .sl1 caRead ≤ 65535 := by
    rw [RegisterCenter.size, hder]
    decide +kernel
  refine ⟨hsize, fun h ↦ ?_⟩
  obtain ⟨-, -, -, -, ca, out, hca, -, hder, -⟩ := (roundTrips_iff (Nat.lt_succ_of_le hsize)).mp h
  obtain rfl : caBase64 = ca := Option.some.inj hca
  rw [hread] at hder
  cases hder

end TuyaOpen.Cloud
