import TuyaOpen.Kv.Serialize

/-!
# The text of properties

What an array of properties is printed as, and the room that is counted for it.
-/

namespace TuyaOpen.Kv

open Bytes JsonText JsonRead Utilities

/-! ## The text -/

/-- A property. -/
def memberText (charSigned : Bool) (e : KvDb) : List UInt8 :=
  quote :: (e.key ++ quote :: colon :: kvValueText charSigned e.val)

/-- What stands behind a property; the comma behind the last one is made a space. -/
def behindText (charSigned : Bool) : List KvDb → List UInt8
  | [] => [0x20, rbrace]
  | e :: db => comma :: (memberText charSigned e ++ behindText charSigned db)

def kvText (charSigned : Bool) : List KvDb → List UInt8
  | [] => [lbrace, rbrace]
  | e :: db => lbrace :: (memberText charSigned e ++ behindText charSigned db)

/-- The properties with a comma behind each. -/
def commaText (charSigned : Bool) (db : List KvDb) : List UInt8 :=
  db.flatMap fun e ↦ memberText charSigned e ++ [comma]

theorem commaText_cons (charSigned : Bool) (e : KvDb) (db : List KvDb) :
    commaText charSigned (e :: db) =
      memberText charSigned e ++ [comma] ++ commaText charSigned db :=
  List.flatMap_cons

theorem commaText_ne_nil (charSigned : Bool) {db : List KvDb} (h : db ≠ []) :
    commaText charSigned db ≠ [] := by
  cases db with
  | nil => exact (h rfl).elim
  | cons e db =>
      rw [commaText_cons]
      simp

theorem dropLast_commaText (charSigned : Bool) (e : KvDb) (db : List KvDb) :
    (commaText charSigned (e :: db)).dropLast ++ [0x20, rbrace] =
      memberText charSigned e ++ behindText charSigned db := by
  induction db generalizing e with
  | nil =>
      rw [commaText_cons]
      simp [commaText, behindText]
  | cons e' db ih =>
      rw [commaText_cons, List.dropLast_append_of_ne_nil
        (commaText_ne_nil charSigned (List.cons_ne_nil _ _)), List.append_assoc, ih, behindText]
      simp

theorem kvPrint_bind (size : ℕ) (v w out : List UInt8) :
    (kvPrint size v out).bind (kvPrint size w) = kvPrint size (v ++ w) out := by
  unfold kvPrint
  by_cases hv : out.length + v.length + 1 ≤ size
  · rw [if_pos hv, Option.bind_some, List.length_append, List.length_append, List.append_assoc,
      Nat.add_assoc out.length]
  · rw [if_neg hv, Option.bind_none, if_neg]
    rw [List.length_append]
    omega

theorem put_bind (size : ℕ) (b : UInt8) (w out : List UInt8) :
    (if out.length + 1 ≤ size then some (out ++ [b]) else none).bind (kvPrint size w) =
      kvPrint size (b :: w) out := by
  unfold kvPrint
  by_cases hb : out.length + 1 ≤ size
  · have hlength : (out ++ [b]).length + w.length = out.length + (b :: w).length := by
      simp only [List.length_append, List.length_cons, List.length_nil]
      omega
    rw [if_pos hb, Option.bind_some, hlength, List.append_assoc]
    rfl
  · rw [if_neg hb, Option.bind_none, if_neg]
    omega

theorem kvPrintValue_bind (charSigned : Bool) (size : ℕ) (val : KvVal) (w out : List UInt8) :
    (kvPrintValue charSigned size val out).bind (kvPrint size w) =
      kvPrint size (kvValueText charSigned val ++ w) out := by
  unfold kvPrintValue
  split
  · rename_i b bytes
    have hput : (fun out : List UInt8 ↦
        (if out.length + 1 ≤ size then some (out ++ [quote]) else none).bind (kvPrint size w)) =
          kvPrint size (quote :: w) := funext fun out ↦ put_bind size quote w out
    simp only [Option.bind_eq_bind, Option.bind_assoc]
    rw [hput]
    simp only [kvPrint_bind]
    rw [kvValueText, if_neg (List.cons_ne_nil _ _)]
    simp
  · exact kvPrint_bind size _ w out

theorem kvPrintEntries_eq (charSigned : Bool) (size : ℕ) {db : List KvDb} (hdb : db ≠ [])
    (out : List UInt8) :
    kvPrintEntries charSigned size db out = kvPrint size (commaText charSigned db) out := by
  induction db generalizing out with
  | nil => exact (hdb rfl).elim
  | cons e db ih =>
      have hrest : ∀ v, (kvPrint size v out).bind (kvPrintEntries charSigned size db) =
          kvPrint size (v ++ commaText charSigned db) out := by
        intro v
        cases db with
        | nil =>
            rw [show commaText charSigned [] = [] from rfl, List.append_nil]
            exact Option.bind_fun_some _
        | cons e' db =>
            rw [funext fun out ↦ ih (List.cons_ne_nil _ _) out]
            exact kvPrint_bind size v _ out
      have hmember : (kvPrint size (quote :: (e.key ++ [quote, colon])) out).bind
          (fun out ↦ (kvPrintValue charSigned size e.val out).bind (kvPrint size [comma])) =
            kvPrint size (memberText charSigned e ++ [comma]) out := by
        rw [funext fun out ↦ kvPrintValue_bind charSigned size e.val [comma] out, kvPrint_bind]
        unfold memberText
        simp
      rw [commaText_cons, ← hrest, ← hmember]
      simp only [kvPrintEntries, Option.bind_eq_bind, Option.bind_assoc]

theorem length_kvText (charSigned : Bool) (db : List KvDb) :
    (kvText charSigned db).length = (commaText charSigned db).length + 2 := by
  cases db with
  | nil => rfl
  | cons e db =>
      have hpos := List.length_pos_of_ne_nil
        (commaText_ne_nil charSigned (List.cons_ne_nil e db))
      rw [kvText, ← dropLast_commaText]
      simp only [List.length_cons, List.length_append, List.length_dropLast, List.length_nil]
      omega

theorem kvSerialize_eq (charSigned : Bool) (db : List KvDb) :
    kvSerialize charSigned true db =
      if (kvText charSigned db).length < kvSize db % 2 ^ 32 then
        some (oprtOk, kvText charSigned db) else none := by
  cases db with
  | nil => rfl
  | cons e db =>
      have hne := commaText_ne_nil charSigned (List.cons_ne_nil e db)
      have htext : (lbrace :: commaText charSigned (e :: db)).dropLast ++ [0x20] ++ [rbrace] =
          kvText charSigned (e :: db) := by
        rw [kvText, ← dropLast_commaText, List.dropLast_cons_of_ne_nil hne]
        simp
      rw [length_kvText]
      unfold kvSerialize
      rw [if_pos rfl]
      generalize kvSize (e :: db) % 2 ^ 32 = size
      have hprint : (kvPrint size [lbrace] []).bind (kvPrintEntries charSigned size (e :: db)) =
          kvPrint size (lbrace :: commaText charSigned (e :: db)) [] := by
        rw [funext fun out ↦ kvPrintEntries_eq charSigned size (List.cons_ne_nil e db) out,
          kvPrint_bind]
        rfl
      simp only [Option.bind_eq_bind]
      rw [← Option.bind_assoc, hprint]
      simp only [if_neg (List.cons_ne_nil e db)]
      unfold kvPrint
      by_cases hprinted : (lbrace :: commaText charSigned (e :: db)).length + 1 ≤ size
      · rw [if_pos (by simpa using hprinted), Option.bind_some, List.nil_append, htext]
        simp only [List.length_append, List.length_dropLast, List.length_cons, List.length_nil,
          Nat.add_sub_cancel]
        rfl
      · rw [if_neg (by simpa using hprinted), Option.bind_none, if_neg]
        rw [List.length_cons] at hprinted
        omega

/-! ## The room that is counted -/

theorem length_intText_le {v : ℤ} (h : v.natAbs < 10 ^ 10) : (intText v).length ≤ 11 := by
  have hdigits := length_natText_le (by decide) h
  unfold intText
  split_ifs
  · exact Nat.succ_le_succ hdigits
  · exact hdigits.trans (by decide)

/-- The number that is printed of an integer type. -/
def kvNumber (charSigned : Bool) : KvVal → Option ℤ
  | .char v => some (charValue charSigned v)
  | .byte v => some v.toNat
  | .short v => some v.toInt
  | .ushort v => some v.toNat
  | .int v => some v.toInt
  | _ => none

theorem kvNumber_bound {charSigned : Bool} {val : KvVal} {n : ℤ}
    (h : kvNumber charSigned val = some n) : -2 ^ 31 ≤ n ∧ n < 2 ^ 31 := by
  cases val with
  | char v =>
      have hv := v.toNat_lt
      obtain rfl := Option.some.inj h
      unfold charValue
      split_ifs <;> omega
  | byte v =>
      have hv := v.toNat_lt
      obtain rfl := Option.some.inj h
      omega
  | short v =>
      have hlow := v.le_toInt
      have hhigh := v.toInt_lt
      obtain rfl := Option.some.inj h
      omega
  | ushort v =>
      have hv := v.toNat_lt
      obtain rfl := Option.some.inj h
      omega
  | int v =>
      obtain rfl := Option.some.inj h
      exact ⟨v.le_toInt, v.toInt_lt⟩
  | bool v => exact nomatch h
  | string text len => exact nomatch h
  | raw bytes => exact nomatch h

theorem kvNumber_text {charSigned : Bool} {val : KvVal} {n : ℤ}
    (h : kvNumber charSigned val = some n) :
    kvValueText charSigned val = intText n ∧ kvValueLen val = 11 + 6 := by
  unfold kvNumber at h
  split at h
  · obtain rfl := Option.some.inj h
    exact ⟨rfl, rfl⟩
  · obtain rfl := Option.some.inj h
    exact ⟨rfl, rfl⟩
  · obtain rfl := Option.some.inj h
    exact ⟨rfl, rfl⟩
  · obtain rfl := Option.some.inj h
    exact ⟨rfl, rfl⟩
  · obtain rfl := Option.some.inj h
    exact ⟨rfl, rfl⟩
  · exact nomatch h

theorem length_kvValueText_le (charSigned : Bool) {e : KvDb} (he : e.Ok) :
    (kvValueText charSigned e.val).length + 2 ≤ kvValueLen e.val := by
  have hnumber : ∀ {n : ℤ}, kvNumber charSigned e.val = some n →
      (kvValueText charSigned e.val).length + 2 ≤ kvValueLen e.val := by
    intro n hn
    obtain ⟨hlow, hhigh⟩ := kvNumber_bound hn
    obtain ⟨htext, hlen⟩ := kvNumber_text hn
    have hlength := length_intText_le (v := n) (by omega)
    rw [htext, hlen]
    omega
  cases hval : e.val with
  | char v => exact hval ▸ hnumber (by rw [hval]; rfl)
  | byte v => exact hval ▸ hnumber (by rw [hval]; rfl)
  | short v => exact hval ▸ hnumber (by rw [hval]; rfl)
  | ushort v => exact hval ▸ hnumber (by rw [hval]; rfl)
  | int v => exact hval ▸ hnumber (by rw [hval]; rfl)
  | bool v =>
      cases v
      · exact Nat.le_of_ble_eq_true rfl
      · exact Nat.le_of_ble_eq_true rfl
  | string text len =>
      obtain ⟨-, hroom, -⟩ := he.string text len hval
      rw [kvValueText, kvValueLen]
      split_ifs with htext
      · simp only [List.length_cons, List.length_nil]
        omega
      · simp only [List.length_cons, List.length_append, List.length_nil]
        omega
  | raw bytes =>
      have hlength := length_base64Encode bytes
      rw [kvValueText, kvValueLen]
      by_cases hbytes : bytes = []
      · rw [hbytes]
        exact Nat.le_of_ble_eq_true rfl
      · rw [if_neg hbytes, if_neg (fun h ↦ hbytes (List.eq_nil_of_length_eq_zero h))]
        simp only [List.length_cons, List.length_append, List.length_nil, hlength]
        split_ifs <;> omega

theorem length_kvText_lt (charSigned : Bool) {db : List KvDb} (hdb : ∀ e ∈ db, e.Ok) :
    (kvText charSigned db).length < kvSize db := by
  have hcomma : (commaText charSigned db).length ≤
      (db.map fun e ↦ kvValueLen e.val + (e.key.length + 2)).sum := by
    induction db with
    | nil => exact Nat.zero_le _
    | cons e db ih =>
        obtain ⟨he, hrest⟩ := List.forall_mem_cons.mp hdb
        have hvalue := length_kvValueText_le charSigned he
        have hrest := ih hrest
        rw [commaText_cons, List.map_cons, List.sum_cons]
        simp only [List.length_append, List.length_cons, List.length_nil, memberText]
        omega
  rw [length_kvText]
  unfold kvSize
  omega

theorem kvSerialize_inside (charSigned : Bool) {db : List KvDb} (hdb : ∀ e ∈ db, e.Ok)
    (hsize : kvSize db < 2 ^ 32) :
    kvSerialize charSigned true db = some (oprtOk, kvText charSigned db) := by
  rw [kvSerialize_eq, Nat.mod_eq_of_lt hsize, if_pos (length_kvText_lt charSigned hdb)]

end TuyaOpen.Kv
