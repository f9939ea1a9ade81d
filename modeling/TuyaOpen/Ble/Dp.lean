import TuyaOpen.Ble.Trsmitr
import TuyaOpen.Lib.Bytes

/-!
# Lists of data points in `ble_dp.c`

A node of a list has an id, a type and data, and on the air it is the id, the
type, the length in two bytes and the data.  `makeKlvList` puts a node before
a list, `klvlist2Data` writes a list behind a header and `data2Klvlist` reads
one back, again putting each node before the earlier ones.  Memory is there
whenever it is asked for.
-/

namespace TuyaOpen.Ble

def dtRaw : UInt8 := 0
def dtBool : UInt8 := 1
def dtValue : UInt8 := 2
def dtString : UInt8 := 3
def dtEnum : UInt8 := 4
def dtBitmap : UInt8 := 5
def dtLmt : UInt8 := 10

/-- The field `len` of a node is the length of `data`, and `data` is `NULL` when
it is empty. -/
structure KlvNode where
  id : UInt8
  type : UInt8
  data : List UInt8
  len_lt : data.length < 2 ^ 16
  deriving DecidableEq

/-! ## Building a list -/

/-- A word of the host, which stores the low byte first. -/
def hostWord (data : List UInt8) : ℕ := Bytes.decodeBE (data.take 4).reverse

def wordBytes (n : ℕ) : List UInt8 := (Bytes.encodeBE 4 n).reverse

/-- The data after the conversion; its length is the new `len`. -/
def tuyaChangeBtDpTlv (type : UInt8) (data : List UInt8) : List UInt8 :=
  if type = dtEnum then
    if hostWord data ≤ 0xff then Bytes.encodeBE 1 (hostWord data)
    else if hostWord data ≤ 0xffff then Bytes.encodeBE 2 (hostWord data)
    else Bytes.encodeBE 4 (hostWord data)
  else if type = dtBool then Bytes.encodeBE 1 (hostWord data)
  else data

/-- What a node stores of its value. -/
def klvData (type : UInt8) (data : List UInt8) : List UInt8 :=
  if type = dtValue ∨ type = dtBitmap then Bytes.encodeBE 4 (hostWord data)
  else tuyaChangeBtDpTlv type data

theorem length_klvData {type : UInt8} {data : List UInt8} (h : data.length < 2 ^ 16) :
    (klvData type data).length < 2 ^ 16 := by
  unfold klvData tuyaChangeBtDpTlv
  split_ifs <;> first | exact h | (rw [Bytes.length_encodeBE]; decide)

/-- The length does not suit the type. -/
def klvLenBad (type : UInt8) (len : UInt16) : Prop :=
  (type = dtValue ∧ len ≠ 4) ∨ (type = dtBitmap ∧ 4 < len) ∨ (type = dtBool ∧ len ≠ 4) ∨
    (type = dtEnum ∧ len ≠ 4)

instance (type : UInt8) (len : UInt16) : Decidable (klvLenBad type len) :=
  inferInstanceAs (Decidable (_ ∨ _))

/-- `data` are the bytes at the pointer.  The empty list is `NULL`, which is
also what a failure returns; `none` is an access outside of `data` or of the
node. -/
def makeKlvList (list : List KlvNode) (id type : UInt8) (data : Option (List UInt8))
    (len : UInt16) : Option (List KlvNode) :=
  match data with
  | none => some []
  | some data =>
    if dtLmt ≤ type ∨ klvLenBad type len then some []
    else if data.length < len.toNat ∨ (type = dtBitmap ∧ len < 4) then none
    else some
      (⟨id, type, klvData type (data.take len.toNat), by
        apply length_klvData
        rw [List.length_take]
        exact lt_of_le_of_lt (min_le_left _ _) len.toNat_lt⟩ :: list)

/-! ## On the air -/

def KlvNode.bytes (n : KlvNode) : List UInt8 :=
  n.id :: n.type :: (Bytes.encodeBE 2 n.data.length ++ n.data)

def klvBytes (list : List KlvNode) : List UInt8 := list.flatMap KlvNode.bytes

/-- What decides the size of a `klv_node_s`. -/
inductive Abi
  | ilp32
  | lp64
  deriving DecidableEq

/-- The size of a node without its pointer to the next one. -/
def Abi.klvRest : Abi → ℕ
  | .ilp32 => 8
  | .lp64 => 16

def klvHeader (sn : UInt32) (timeStamp : Option UInt32) (query : Bool) (flag : UInt8) :
    List UInt8 :=
  0 :: Bytes.encodeBE 4 sn.toNat ++ [if query then 1 else 0, flag] ++
    match timeStamp with
    | none => []
    | some t => 1 :: wordBytes t.toNat

/-- `mk_data_len`, before it is cut to 32 bits. -/
def mkDataLen (abi : Abi) (timeStamp : Option UInt32) (list : List KlvNode) : ℕ :=
  7 + (if timeStamp.isSome then 5 else 0) + (list.map fun n ↦ abi.klvRest + n.data.length).sum

/-- The code, the bytes written and the serial number after the call.  `none`
is a write behind the buffer of `mk_data_len` bytes. -/
def klvlist2Data (abi : Abi) (sn : UInt32) (list : List KlvNode) (timeStamp : Option UInt32)
    (query : Bool) (flag : UInt8) : Option (OperateRet × List UInt8 × UInt32) :=
  if list = [] then some (oprtInvalidParm, [], sn)
  else
    let mkData := klvHeader sn timeStamp query flag ++ klvBytes list
    if mkDataLen abi timeStamp list % 2 ^ 32 < mkData.length then none
    else some (oprtOk, mkData, sn + 1)

/-- The loop, with the offset and the nodes so far; `none` is a read outside of
`data` or a loop without an end. -/
def klvLoop (data : List UInt8) (len : ℕ) :
    ℕ → ℕ → List KlvNode → Option (OperateRet × List KlvNode)
  | 0, _, _ => none
  | fuel + 1, offset, klvList =>
    if usub 32 len offset < 4 then some (oprtComError, [])
    else do
      let id ← data[offset]?
      let type ← data[offset + 1]?
      let hi ← data[offset + 2]?
      let lo ← data[offset + 3]?
      let nodeLen := hi.toNat * 256 + lo.toNat
      let offset := offset + 4
      if usub 32 len offset < nodeLen then some (oprtComError, [])
      else if data.length < offset + nodeLen then none
      else
        let node : KlvNode := ⟨id, type, (data.drop offset).take nodeLen, by
          have hhi := hi.toNat_lt
          have hlo := lo.toNat_lt
          rw [List.length_take]
          omega⟩
        if offset + nodeLen < len then klvLoop data len fuel (offset + nodeLen) (node :: klvList)
        else some (oprtOk, node :: klvList)

def data2Klvlist (data : List UInt8) (len : ℕ) : Option (OperateRet × List KlvNode) :=
  klvLoop data len (len + 1) 0 []

/-! ## Reading a list -/

theorem KlvNode.length_bytes (n : KlvNode) : n.bytes.length = 4 + n.data.length := by
  simp only [KlvNode.bytes, List.length_cons, List.length_append, Bytes.length_encodeBE]
  omega

theorem length_klvBytes_cons (n : KlvNode) (list : List KlvNode) :
    (klvBytes (n :: list)).length = 4 + n.data.length + (klvBytes list).length := by
  rw [klvBytes, List.flatMap_cons, List.length_append, n.length_bytes]
  rfl

theorem encodeBE_two (hi lo : UInt8) :
    Bytes.encodeBE 2 (hi.toNat * 256 + lo.toNat) = [hi, lo] := by
  have hdec : Bytes.decodeBE [hi, lo] = hi.toNat * 256 + lo.toNat := by
    simp [Bytes.decodeBE, Nat.shiftLeft_eq]
  rw [← hdec]
  exact Bytes.encodeBE_decodeBE [hi, lo]

theorem KlvNode.bytes_append_inj {n n' : KlvNode} {rest rest' : List UInt8}
    (h : n.bytes ++ rest = n'.bytes ++ rest') : n = n' ∧ rest = rest' := by
  obtain ⟨id, type, data, hlt⟩ := n
  obtain ⟨id', type', data', hlt'⟩ := n'
  simp only [KlvNode.bytes, List.cons_append, List.append_assoc, List.cons.injEq] at h
  obtain ⟨rfl, rfl, htail⟩ := h
  obtain ⟨hlen, hdata⟩ := List.append_inj htail (by simp only [Bytes.length_encodeBE])
  have hcount := congrArg Bytes.decodeBE hlen
  rw [Bytes.decodeBE_encodeBE (by simpa using hlt), Bytes.decodeBE_encodeBE (by simpa using hlt')]
    at hcount
  obtain ⟨rfl, rfl⟩ := List.append_inj hdata hcount
  exact ⟨rfl, rfl⟩

theorem length_take_word (hi lo : UInt8) (rest : List UInt8) :
    (rest.take (hi.toNat * 256 + lo.toNat)).length < 2 ^ 16 := by
  have hhi := hi.toNat_lt
  have hlo := lo.toNat_lt
  rw [List.length_take]
  omega

theorem klvLoop_head {data rest : List UInt8} {offset : ℕ} {id type hi lo : UInt8}
    (hlen : data.length < 2 ^ 32) (hdrop : data.drop offset = id :: type :: hi :: lo :: rest)
    (fuel : ℕ) (acc : List KlvNode) :
    klvLoop data data.length (fuel + 1) offset acc =
      if rest.length < hi.toNat * 256 + lo.toNat then some (oprtComError, [])
      else if hi.toNat * 256 + lo.toNat < rest.length then
        klvLoop data data.length fuel (offset + 4 + (hi.toNat * 256 + lo.toNat))
          (⟨id, type, rest.take (hi.toNat * 256 + lo.toNat), length_take_word hi lo rest⟩ :: acc)
      else some (oprtOk,
        ⟨id, type, rest.take (hi.toNat * 256 + lo.toNat), length_take_word hi lo rest⟩ :: acc) := by
  have hcount : data.length - offset = rest.length + 4 := by
    rw [← List.length_drop, hdrop]
    rfl
  have hrest : data.drop (offset + 4) = rest := by
    rw [← List.drop_drop, hdrop]
    rfl
  have hget : ∀ k, data[offset + k]? = (id :: type :: hi :: lo :: rest)[k]? := by
    intro k
    rw [← hdrop, List.getElem?_drop]
  have hleft : data.length - (offset + 4) = rest.length := by omega
  rw [klvLoop, usub_of_le (by omega) hlen, if_neg (by omega)]
  simp only [show data[offset]? = some id by simpa using hget 0,
    show data[offset + 1]? = some type by simpa using hget 1,
    show data[offset + 2]? = some hi by simpa using hget 2,
    show data[offset + 3]? = some lo by simpa using hget 3,
    Option.bind_eq_bind, Option.bind_some, hrest,
    usub_of_le (show offset + 4 ≤ data.length by omega) hlen, hleft]
  by_cases hlong : rest.length < hi.toNat * 256 + lo.toNat
  · rw [if_pos hlong, if_pos hlong]
  · rw [if_neg hlong, if_neg hlong, if_neg (by omega)]
    by_cases hmore : hi.toNat * 256 + lo.toNat < rest.length
    · rw [if_pos hmore, if_pos (by omega)]
    · rw [if_neg hmore, if_neg (by omega)]

theorem klvLoop_node {data rest : List UInt8} {offset : ℕ} {n : KlvNode}
    (hlen : data.length < 2 ^ 32) (hdrop : data.drop offset = n.bytes ++ rest) (fuel : ℕ)
    (acc : List KlvNode) :
    klvLoop data data.length (fuel + 1) offset acc =
      if rest = [] then some (oprtOk, n :: acc)
      else klvLoop data data.length fuel (offset + n.bytes.length) (n :: acc) := by
  have hlt := n.len_lt
  have hword : (UInt8.ofNat (n.data.length >>> 8)).toNat * 256 +
      (UInt8.ofNat n.data.length).toNat = n.data.length := by
    rw [UInt8.toNat_ofNat', UInt8.toNat_ofNat', Nat.shiftRight_eq_div_pow]
    omega
  have hnode : ∀ h, (⟨n.id, n.type, (n.data ++ rest).take n.data.length, h⟩ : KlvNode) = n := by
    intro h
    cases n
    simp only [List.take_left]
  have hhead : data.drop offset = n.id :: n.type :: UInt8.ofNat (n.data.length >>> 8) ::
      UInt8.ofNat n.data.length :: (n.data ++ rest) := hdrop
  have hround := klvLoop_head hlen hhead fuel acc
  simp only [hword, hnode, List.length_append] at hround
  rw [hround, if_neg (by omega), n.length_bytes, ← Nat.add_assoc]
  by_cases hend : rest = []
  · rw [if_pos hend, if_neg]
    rw [hend, List.length_nil]
    omega
  · have hpos := List.length_pos_of_ne_nil hend
    rw [if_neg hend, if_pos (by omega)]

theorem klvLoop_noNode {data : List UInt8} {offset : ℕ} (hlen : data.length < 2 ^ 32)
    (hoff : offset ≤ data.length)
    (hno : ∀ (n : KlvNode) (rest : List UInt8), data.drop offset ≠ n.bytes ++ rest) (fuel : ℕ)
    (acc : List KlvNode) :
    klvLoop data data.length (fuel + 1) offset acc = some (oprtComError, []) := by
  by_cases hshort : data.length - offset < 4
  · rw [klvLoop, usub_of_le hoff hlen, if_pos hshort]
  · obtain ⟨id, type, hi, lo, rest, hdrop⟩ :
        ∃ id type hi lo rest, data.drop offset = id :: type :: hi :: lo :: rest := by
      have hcount : 4 ≤ (data.drop offset).length := by
        rw [List.length_drop]
        omega
      match hd : data.drop offset, hcount with
      | id :: type :: hi :: lo :: rest, _ => exact ⟨id, type, hi, lo, rest, rfl⟩
    rw [klvLoop_head hlen hdrop, if_pos]
    by_contra hlong
    have htake : (rest.take (hi.toNat * 256 + lo.toNat)).length = hi.toNat * 256 + lo.toNat := by
      rw [List.length_take]
      omega
    apply hno ⟨id, type, rest.take (hi.toNat * 256 + lo.toNat), length_take_word hi lo rest⟩
      (rest.drop (hi.toNat * 256 + lo.toNat))
    simp only [KlvNode.bytes, htake, encodeBE_two, List.cons_append, List.nil_append,
      List.take_append_drop, hdrop]

theorem klvLoop_spec {data : List UInt8} (hlen : data.length < 2 ^ 32) {fuel offset : ℕ}
    (hoff : offset ≤ data.length) (hfuel : data.length - offset < fuel) (acc : List KlvNode) :
    (∃ nodes, nodes ≠ [] ∧ data.drop offset = klvBytes nodes ∧
      klvLoop data data.length fuel offset acc = some (oprtOk, nodes.reverse ++ acc)) ∨
    ((∀ nodes, nodes ≠ [] → data.drop offset ≠ klvBytes nodes) ∧
      klvLoop data data.length fuel offset acc = some (oprtComError, [])) := by
  induction fuel generalizing offset acc with
  | zero => omega
  | succ fuel ih =>
      by_cases hnode : ∃ (n : KlvNode) (rest : List UInt8), data.drop offset = n.bytes ++ rest
      · obtain ⟨n, rest, hdrop⟩ := hnode
        rw [klvLoop_node hlen hdrop]
        by_cases hend : rest = []
        · left
          refine ⟨[n], List.cons_ne_nil _ _, ?_, if_pos hend⟩
          rw [hdrop, hend]
          rfl
        · have hnext : data.drop (offset + n.bytes.length) = rest := by
            rw [← List.drop_drop, hdrop, List.drop_left]
          have hcount := congrArg List.length hdrop
          rw [List.length_drop, List.length_append, n.length_bytes] at hcount
          have hbytes := n.length_bytes
          have hoff' : offset + n.bytes.length ≤ data.length := by omega
          rw [if_neg hend]
          rcases ih hoff' (by omega) (n :: acc) with ⟨nodes, hne, htext, hrun⟩ | ⟨hno, hrun⟩
          · left
            refine ⟨n :: nodes, List.cons_ne_nil _ _, ?_, ?_⟩
            · rw [hdrop, ← hnext, htext]
              rfl
            · rw [hrun, List.reverse_cons, List.append_assoc]
              rfl
          · right
            refine ⟨?_, hrun⟩
            intro nodes hne heq
            obtain ⟨n', list, rfl⟩ := List.exists_cons_of_ne_nil hne
            obtain ⟨-, hrest⟩ := KlvNode.bytes_append_inj (hdrop.symm.trans heq)
            apply hno list ?_ (hnext.trans hrest)
            rintro rfl
            exact hend hrest
      · right
        refine ⟨?_, klvLoop_noNode hlen hoff (fun n rest h ↦ hnode ⟨n, rest, h⟩) fuel acc⟩
        intro nodes hne heq
        obtain ⟨n, list, rfl⟩ := List.exists_cons_of_ne_nil hne
        exact hnode ⟨n, klvBytes list, heq⟩

theorem data2Klvlist_spec {data : List UInt8} (hlen : data.length < 2 ^ 32) :
    (∃ nodes, nodes ≠ [] ∧ data = klvBytes nodes ∧
      data2Klvlist data data.length = some (oprtOk, nodes.reverse)) ∨
    ((∀ nodes, nodes ≠ [] → data ≠ klvBytes nodes) ∧
      data2Klvlist data data.length = some (oprtComError, [])) := by
  have h := klvLoop_spec hlen (Nat.zero_le _) (show data.length - 0 < data.length + 1 by omega) []
  simpa only [data2Klvlist, List.drop_zero, List.append_nil] using h

theorem klvBytes_injective {list list' : List KlvNode} (h : klvBytes list = klvBytes list') :
    list = list' := by
  induction list generalizing list' with
  | nil =>
      cases list' with
      | nil => rfl
      | cons n' list' => cases h
  | cons n list ih =>
      cases list' with
      | nil => cases h
      | cons n' list' =>
          obtain ⟨rfl, hrest⟩ := KlvNode.bytes_append_inj (show n.bytes ++ klvBytes list =
            n'.bytes ++ klvBytes list' from h)
          rw [ih hrest]

theorem data2Klvlist_klvBytes {nodes : List KlvNode} (hne : nodes ≠ [])
    (hlen : (klvBytes nodes).length < 2 ^ 32) :
    data2Klvlist (klvBytes nodes) (klvBytes nodes).length = some (oprtOk, nodes.reverse) := by
  rcases data2Klvlist_spec hlen with ⟨nodes', -, heq, hrun⟩ | ⟨hno, -⟩
  · rw [hrun, klvBytes_injective heq]
  · exact (hno nodes hne rfl).elim

end TuyaOpen.Ble
