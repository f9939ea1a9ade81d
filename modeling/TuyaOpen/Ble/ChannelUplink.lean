import TuyaOpen.Ble.Channel

/-!
# Answers that go out in fragments

A fragment carries its number in one byte as it is, and the rules of the
downlink read a base-128 number there.  The two agree on the numbers below
`128`, so an answer that needs more fragments is not read back.
-/

namespace TuyaOpen.Ble.Channel

/-- An answer of the app: status `2` when `restart`, else status `1`. -/
structure UplinkAck where
  restart : Bool
  malloc : Bool
  deriving DecidableEq

/-- The manager and the fragments since the latest restart. -/
@[grind =] def uplinkRun (r : BleChannelMgr × List (List UInt8)) :
    List UplinkAck → Option (BleChannelMgr × List (List UInt8))
  | [] => some r
  | ack :: acks =>
    match uplinkStatus r.1 (if ack.restart then 2 else 1) ack.malloc with
    | none => none
    | some (m, fragment) =>
      uplinkRun (m, (if ack.restart then [] else r.2) ++ fragment.toList) acks

def respond (data : List UInt8) (malloc : Bool) (acks : List UplinkAck) :
    Option (BleChannelMgr × List (List UInt8)) :=
  match bleChannleAck data malloc with
  | none => none
  | some (m, fragment) => uplinkRun (m, fragment.toList) acks

/-- The number and the payload of a fragment by the rules of the downlink. -/
def parseFragment (rawData : List UInt8) : Option (ℕ × List UInt8) :=
  if rawData[2]? = some 0 then (parseFirst rawData).map fun p ↦ (0, p.2)
  else parseLater rawData

def Exhausted (m : BleChannelMgr) : Prop := m.subpackLen ≤ m.subpackSent

/-- The fragments have the numbers `0, 1, 2, ...`, and their payloads together
are the answer behind its first two bytes. -/
def Reproduced (data : List UInt8) (fragments : List (List UInt8)) : Prop :=
  ∃ payload : ℕ → List UInt8,
    (∀ i f, fragments[i]? = some f → parseFragment f = some (i, payload i)) ∧
      ((List.range fragments.length).map payload).flatten = data.drop 2

/-- Acknowledgements come to an end from any point, and at the end the app has
read the answer. -/
structure UplinkDecodes (data : List UInt8) : Prop where
  ends : ∀ malloc acks, ∃ n r,
    respond data malloc (acks ++ List.replicate n ⟨false, true⟩) = some r ∧ Exhausted r.1
  decodes : ∀ malloc acks r, respond data malloc acks = some r → Exhausted r.1 →
    Reproduced data r.2

/-! ## The fragments -/

/-- The payload that fits in fragment `no` of an answer of `len` bytes. -/
def fragmentRoom (len no : ℕ) : ℕ :=
  if no = 0 then 956 - (Leb128.encode 4 len).length else 957

/-- Where fragment `no` of an answer of `len` bytes begins. -/
def fragmentStart (len : ℕ) : ℕ → ℕ
  | 0 => 0
  | no + 1 => min len (956 - (Leb128.encode 4 len).length + no * 957)

def mgrAt (data : List UInt8) (no : ℕ) : BleChannelMgr :=
  ⟨some data, no, fragmentStart (data.length - 2) no, data.length - 2⟩

def fragmentPayload (data : List UInt8) (no : ℕ) : List UInt8 :=
  (data.drop (2 + fragmentStart (data.length - 2) no)).take
    (fragmentStart (data.length - 2) (no + 1) - fragmentStart (data.length - 2) no)

def fragment (data : List UInt8) (no : ℕ) : List UInt8 :=
  fragmentHeader (mgrAt data no) ++ fragmentPayload data no

variable {data : List UInt8} {no : ℕ}

theorem fragmentStart_le (len no : ℕ) : fragmentStart len no ≤ len := by
  cases no with
  | zero => exact Nat.zero_le len
  | succ no => exact min_le_left _ _

theorem fragmentStart_ge (len no : ℕ) : min len no ≤ fragmentStart len no := by
  cases no with
  | zero => exact min_le_right _ _
  | succ no =>
      have hdigits := Leb128.length_encode_le 4 len
      rw [fragmentStart]
      omega

theorem fragmentStart_succ (len no : ℕ) :
    fragmentStart len (no + 1) = min len (fragmentStart len no + fragmentRoom len no) := by
  cases no with
  | zero => simp [fragmentStart, fragmentRoom]
  | succ no =>
      simp only [fragmentStart, fragmentRoom, Nat.succ_ne_zero, if_false]
      omega

theorem fragmentStart_mono (len no : ℕ) : fragmentStart len no ≤ fragmentStart len (no + 1) := by
  have hle := fragmentStart_le len no
  rw [fragmentStart_succ]
  omega

theorem fragmentStart_monotone (len : ℕ) : Monotone (fragmentStart len) := by
  apply monotone_nat_of_le_succ
  exact fragmentStart_mono len

theorem length_fragmentHeader (data : List UInt8) (no : ℕ) :
    (fragmentHeader (mgrAt data no)).length + fragmentRoom (data.length - 2) no = 960 := by
  have hdigits := Leb128.length_encode_le 4 (data.length - 2)
  have hsub : (mgrAt data no).subpackNo = no := rfl
  rw [fragmentHeader, encodeDigits_eq, fragmentRoom, hsub]
  split_ifs
  · simp only [mgrAt, List.length_append, List.length_cons, List.length_nil]
    omega
  · simp

theorem length_fragmentPayload (h2 : 2 ≤ data.length) (no : ℕ) :
    (fragmentPayload data no).length =
      fragmentStart (data.length - 2) (no + 1) - fragmentStart (data.length - 2) no := by
  have hle := fragmentStart_le (data.length - 2) (no + 1)
  rw [fragmentPayload, List.length_take, List.length_drop]
  omega

theorem flatten_fragmentPayload (data : List UInt8) (no : ℕ) :
    ((List.range no).map (fragmentPayload data)).flatten =
      (data.drop 2).take (fragmentStart (data.length - 2) no) := by
  induction no with
  | zero => simp [fragmentStart]
  | succ no ih =>
      have hsplit : fragmentStart (data.length - 2) (no + 1) =
          fragmentStart (data.length - 2) no +
            (fragmentStart (data.length - 2) (no + 1) - fragmentStart (data.length - 2) no) := by
        have := fragmentStart_mono (data.length - 2) no
        omega
      rw [List.range_succ, List.map_append, List.flatten_append, ih, hsplit, List.take_add,
        List.drop_drop]
      simp [fragmentPayload]

/-! ## The sender -/

theorem responseToAppBySubpack_eq (h2 : 2 ≤ data.length) (hlt : data.length < 2 ^ 32)
    (hmore : fragmentStart (data.length - 2) no < data.length - 2) :
    responseToAppBySubpack (mgrAt data no) true =
      some (mgrAt data (no + 1), some (fragment data no)) := by
  have hno : no < data.length - 2 := by
    have := fragmentStart_ge (data.length - 2) no
    omega
  have hheader := length_fragmentHeader data no
  have hair : tuyaBleTransDataSubpackLen = 960 := rfl
  have hroom : usub 16 tuyaBleTransDataSubpackLen (fragmentHeader (mgrAt data no)).length =
      fragmentRoom (data.length - 2) no := by
    rw [hair, usub_of_le (by omega) (by omega)]
    omega
  have hleft : usub 32 (data.length - 2) (fragmentStart (data.length - 2) no) =
      data.length - 2 - fragmentStart (data.length - 2) no := by
    apply usub_of_le (fragmentStart_le _ _)
    omega
  have hnext := fragmentStart_succ (data.length - 2) no
  have htake : (if data.length - 2 - fragmentStart (data.length - 2) no <
        fragmentRoom (data.length - 2) no then
      data.length - 2 - fragmentStart (data.length - 2) no
      else fragmentRoom (data.length - 2) no) =
      fragmentStart (data.length - 2) (no + 1) - fragmentStart (data.length - 2) no := by
    split_ifs <;> omega
  have hle := fragmentStart_le (data.length - 2) (no + 1)
  have hmono := fragmentStart_mono (data.length - 2) no
  have hsent : (fragmentStart (data.length - 2) no + (fragmentStart (data.length - 2) (no + 1) -
      fragmentStart (data.length - 2) no)) % 2 ^ 32 = fragmentStart (data.length - 2) (no + 1) := by
    rw [Nat.add_sub_of_le hmono]
    apply Nat.mod_eq_of_lt
    omega
  have hnum : (no + 1) % 2 ^ 32 = no + 1 := by
    apply Nat.mod_eq_of_lt
    omega
  simp only [responseToAppBySubpack, hroom]
  simp only [mgrAt, Bool.true_eq_false, if_false, hmore, if_true, hleft, htake, hsent, hnum]
  rw [if_neg ?_]
  · rfl
  · simp only [mgrAt] at hheader
    omega

theorem responseToAppBySubpack_next (h2 : 2 ≤ data.length) (hlt : data.length < 2 ^ 32) (no : ℕ)
    (malloc : Bool) :
    ∃ no' f, responseToAppBySubpack (mgrAt data no) malloc = some (mgrAt data no', f) ∧
      (List.range no).map (fragment data) ++ f.toList = (List.range no').map (fragment data) ∧
      (no' = no ∨ no' = no + 1 ∧ fragmentStart (data.length - 2) no < data.length - 2) ∧
      (malloc = true → fragmentStart (data.length - 2) no < data.length - 2 → no' = no + 1) := by
  cases malloc with
  | false => exact ⟨no, none, rfl, by simp, .inl rfl, nofun⟩
  | true =>
      by_cases hmore : fragmentStart (data.length - 2) no < data.length - 2
      · refine ⟨no + 1, some (fragment data no), responseToAppBySubpack_eq h2 hlt hmore, ?_,
          .inr ⟨rfl, hmore⟩, fun _ _ ↦ rfl⟩
        simp [List.range_succ]
      · refine ⟨no, none, ?_, by simp, .inl rfl, fun _ h ↦ (hmore h).elim⟩
        simp [responseToAppBySubpack, mgrAt, hmore]

/-- Fragments `0, ..., no - 1` are out, and the latest of them was not empty. -/
structure UplinkAt (data : List UInt8) (no : ℕ) (r : BleChannelMgr × List (List UInt8)) :
    Prop where
  mgr : r.1 = mgrAt data no
  fragments : r.2 = (List.range no).map (fragment data)
  last : no ≠ 0 → fragmentStart (data.length - 2) (no - 1) < data.length - 2

theorem UplinkAt.zero (data : List UInt8) : UplinkAt data 0 (mgrAt data 0, []) :=
  ⟨rfl, rfl, fun h ↦ (h rfl).elim⟩

variable {r : BleChannelMgr × List (List UInt8)}

theorem UplinkAt.exhausted_iff (h : UplinkAt data no r) :
    Exhausted r.1 ↔ fragmentStart (data.length - 2) no = data.length - 2 := by
  have hle := fragmentStart_le (data.length - 2) no
  rw [Exhausted, h.mgr]
  simp only [mgrAt]
  omega

theorem UplinkAt.send (h : UplinkAt data no r) (h2 : 2 ≤ data.length) (hlt : data.length < 2 ^ 32)
    (malloc : Bool) :
    ∃ no' f m, responseToAppBySubpack r.1 malloc = some (m, f) ∧
      UplinkAt data no' (m, r.2 ++ f.toList) ∧
      (malloc = true → fragmentStart (data.length - 2) no < data.length - 2 → no' = no + 1) := by
  obtain ⟨no', f, hrun, hfrags, hno, hmalloc⟩ := responseToAppBySubpack_next h2 hlt no malloc
  rw [← h.mgr] at hrun
  refine ⟨no', f, _, hrun, ⟨rfl, ?_, ?_⟩, hmalloc⟩
  · rw [h.fragments]
    exact hfrags
  · rcases hno with rfl | ⟨rfl, hmore⟩
    · exact h.last
    · exact fun _ ↦ hmore

theorem UplinkAt.ack (h : UplinkAt data no r) (h2 : 2 ≤ data.length) (hlt : data.length < 2 ^ 32)
    (ack : UplinkAck) :
    ∃ no' f m, uplinkStatus r.1 (if ack.restart then 2 else 1) ack.malloc = some (m, f) ∧
      UplinkAt data no' (m, (if ack.restart then [] else r.2) ++ f.toList) ∧
      (ack = ⟨false, true⟩ → fragmentStart (data.length - 2) no < data.length - 2 →
        no' = no + 1) := by
  obtain ⟨restart, malloc⟩ := ack
  cases restart with
  | false =>
      obtain ⟨no', f, m, hrun, hat, hnext⟩ := h.send h2 hlt malloc
      refine ⟨no', f, m, hrun, hat, fun hack ↦ hnext ?_⟩
      exact congrArg UplinkAck.malloc hack
  | true =>
      obtain ⟨no', f, m, hrun, hat, -⟩ := (UplinkAt.zero data).send h2 hlt malloc
      have hrestart : ({ r.1 with subpackNo := 0, subpackSent := 0 } : BleChannelMgr) =
          mgrAt data 0 := by
        rw [h.mgr]
        rfl
      refine ⟨no', f, m, ?_, hat, nofun⟩
      rw [← hrun, ← hrestart]
      rfl

theorem UplinkAt.run (h : UplinkAt data no r) (h2 : 2 ≤ data.length) (hlt : data.length < 2 ^ 32)
    (acks : List UplinkAck) : ∃ no' r', uplinkRun r acks = some r' ∧ UplinkAt data no' r' := by
  induction acks generalizing no r with
  | nil => exact ⟨no, r, rfl, h⟩
  | cons ack acks ih =>
      obtain ⟨no', f, m, hrun, hat, -⟩ := h.ack h2 hlt ack
      rw [uplinkRun, hrun]
      exact ih hat

theorem respond_at (h2 : 2 ≤ data.length) (hlt : data.length < 2 ^ 32) (malloc : Bool)
    (acks : List UplinkAck) :
    ∃ no r, respond data malloc acks = some r ∧ UplinkAt data no r := by
  obtain ⟨no, f, m, hrun, hat, -⟩ := (UplinkAt.zero data).send h2 hlt malloc
  have hack : bleChannleAck data malloc = some (m, f) := by
    rw [bleChannleAck, usub_of_le h2 hlt]
    exact hrun
  rw [respond, hack]
  exact hat.run h2 hlt acks

theorem UplinkAt.ends {no : ℕ} {r : BleChannelMgr × List (List UInt8)} (h : UplinkAt data no r)
    (h2 : 2 ≤ data.length) (hlt : data.length < 2 ^ 32) :
    ∃ n r', uplinkRun r (List.replicate n ⟨false, true⟩) = some r' ∧ Exhausted r'.1 := by
  have hle := fragmentStart_le (data.length - 2) no
  have hge := fragmentStart_ge (data.length - 2) no
  by_cases hmore : fragmentStart (data.length - 2) no < data.length - 2
  · obtain ⟨no', f, m, hrun, hat, hnext⟩ := h.ack h2 hlt ⟨false, true⟩
    obtain rfl := hnext rfl hmore
    obtain ⟨n, r', hrun', hdone⟩ := hat.ends h2 hlt
    refine ⟨n + 1, r', ?_, hdone⟩
    rw [List.replicate_succ, uplinkRun, hrun]
    exact hrun'
  · refine ⟨0, r, rfl, h.exhausted_iff.mpr ?_⟩
    omega
termination_by data.length - no

theorem uplinkRun_append (r : BleChannelMgr × List (List UInt8)) (xs ys : List UplinkAck) :
    uplinkRun r (xs ++ ys) = (uplinkRun r xs).bind fun r' ↦ uplinkRun r' ys := by
  induction xs generalizing r with
  | nil => rfl
  | cons ack xs ih =>
      rw [List.cons_append, uplinkRun, uplinkRun]
      cases uplinkStatus r.1 (if ack.restart then 2 else 1) ack.malloc with
      | none => rfl
      | some s => exact ih _

theorem respond_append (data : List UInt8) (malloc : Bool) (xs ys : List UplinkAck) :
    respond data malloc (xs ++ ys) = (respond data malloc xs).bind fun r ↦ uplinkRun r ys := by
  rw [respond, respond]
  cases bleChannleAck data malloc with
  | none => rfl
  | some s => exact uplinkRun_append _ xs ys

/-! ## What the app reads -/

theorem fragment_eq (data : List UInt8) (no : ℕ) :
    fragment data no = [0x00, 0x03, UInt8.ofNat no] ++
      ((if no = 0 then Leb128.encode 4 (data.length - 2) ++ [0x40] else []) ++
        fragmentPayload data no) := by
  rw [fragment, fragmentHeader, encodeDigits_eq, List.append_assoc]
  rfl

theorem parseFragment_zero (data : List UInt8) :
    parseFragment (fragment data 0) = some (0, fragmentPayload data 0) := by
  have hdrop : (fragment data 0).drop 3 =
      Leb128.encode 4 (data.length - 2) ++ 0x40 :: fragmentPayload data 0 := by
    rw [fragment_eq]
    simp
  have hfirst : (fragment data 0)[2]? = some 0 := by
    rw [fragment_eq]
    rfl
  rw [parseFragment, if_pos hfirst, parseFirst, hdrop, Leb128.decode_encode_mod]
  rfl

theorem parseFragment_later (hno : no ≠ 0) (hbyte : UInt8.ofNat no ≠ 0) :
    parseFragment (fragment data no) =
      Leb128.decode 4 (UInt8.ofNat no :: fragmentPayload data no) := by
  have hfrag := fragment_eq data no
  rw [if_neg hno] at hfrag
  have hlater : (fragment data no)[2]? ≠ some 0 := by
    rw [hfrag]
    simpa using hbyte
  rw [parseFragment, if_neg hlater, parseLater, hfrag]
  rfl

theorem parseFragment_small (hno : no < 128) :
    parseFragment (fragment data no) = some (no, fragmentPayload data no) := by
  by_cases hzero : no = 0
  · rw [hzero]
    exact parseFragment_zero data
  · have hval : (UInt8.ofNat no).toNat = no := by
      rw [UInt8.toNat_ofNat']
      omega
    have hbyte : UInt8.ofNat no ≠ 0 := by
      intro h
      rw [h] at hval
      exact hzero hval.symm
    rw [parseFragment_later hzero hbyte, Leb128.decode, hval, if_pos hno]

/-- A number that is read for the right one costs at least its own byte, and the
byte of the number `128` takes one more. -/
theorem parseFragment_length {payload : List UInt8}
    (h : parseFragment (fragment data no) = some (no, payload)) :
    payload.length ≤ (fragmentPayload data no).length ∧
      (no = 128 → payload.length < (fragmentPayload data no).length) := by
  by_cases hzero : no = 0
  · subst hzero
    obtain ⟨-, rfl⟩ := Prod.mk.inj (Option.some.inj ((parseFragment_zero data).symm.trans h))
    exact ⟨le_rfl, nofun⟩
  · have hbyte : UInt8.ofNat no ≠ 0 := by
      intro hbyte
      have hfirst : (fragment data no)[2]? = some 0 := by
        rw [fragment_eq, hbyte]
        rfl
      rw [parseFragment, if_pos hfirst] at h
      obtain ⟨p, -, hp⟩ := Option.map_eq_some_iff.mp h
      exact hzero (Prod.mk.inj hp).1.symm
    rw [parseFragment_later hzero hbyte] at h
    have hlt := (Leb128.decode_drop h).1
    rw [List.length_cons] at hlt
    refine ⟨Nat.lt_succ_iff.mp hlt, ?_⟩
    rintro rfl
    rw [Leb128.decode, if_neg (by decide)] at h
    obtain ⟨p, hp, heq⟩ := Option.map_eq_some_iff.mp h
    obtain ⟨-, rfl⟩ := Prod.mk.inj heq
    exact (Leb128.decode_drop hp).1

theorem fragmentStart_small {len : ℕ} (hlen : len ≤ 122492) : fragmentStart len 128 = len := by
  have hdigits := Leb128.length_encode_le_of_lt 4 (n := len) (j := 2) (by omega)
  rw [show fragmentStart len 128 =
    min len (956 - (Leb128.encode 4 len).length + 127 * 957) from rfl]
  omega

theorem fragmentStart_large {len : ℕ} (hlen : 122492 < len) (hno : no ≤ 128) :
    fragmentStart len no < len := by
  have hdigits := Leb128.lt_length_encode (k := 4) (n := len) (j := 2) (by omega) (by omega)
  cases no with
  | zero => exact (Nat.zero_le 122492).trans_lt hlen
  | succ no =>
      rw [fragmentStart]
      omega

theorem UplinkAt.reproduced (h : UplinkAt data no r) (hlen : data.length ≤ 122494)
    (hdone : Exhausted r.1) : Reproduced data r.2 := by
  have hstart := h.exhausted_iff.mp hdone
  have hno : no ≤ 128 := by
    by_contra hmany
    have hlast := h.last (by omega)
    have hfull := fragmentStart_monotone (data.length - 2) (show 128 ≤ no - 1 by omega)
    rw [fragmentStart_small (by omega)] at hfull
    omega
  have hcount : r.2.length = no := by rw [h.fragments, List.length_map, List.length_range]
  refine ⟨fragmentPayload data, fun i f hf ↦ ?_, ?_⟩
  · rw [h.fragments, List.getElem?_map] at hf
    obtain ⟨j, hj, rfl⟩ := Option.map_eq_some_iff.mp hf
    obtain ⟨hlt, rfl⟩ := List.getElem?_eq_some_iff.mp hj
    rw [List.length_range] at hlt
    rw [List.getElem_range]
    apply parseFragment_small
    omega
  · rw [hcount, flatten_fragmentPayload, hstart, List.take_of_length_le]
    simp

theorem length_flatten_le {payload : ℕ → List UInt8} (h2 : 2 ≤ data.length)
    (hparse : ∀ i < no, parseFragment (fragment data i) = some (i, payload i)) :
    ((List.range no).map payload).flatten.length ≤ fragmentStart (data.length - 2) no ∧
      (128 < no →
        ((List.range no).map payload).flatten.length < fragmentStart (data.length - 2) no) := by
  induction no with
  | zero => simp
  | succ no ih =>
      obtain ⟨hle, hlt⟩ := ih fun i hi ↦ hparse i (by omega)
      obtain ⟨hone, hstrict⟩ := parseFragment_length (hparse no (Nat.lt_succ_self no))
      have hpayload := length_fragmentPayload h2 no
      have hmono := fragmentStart_mono (data.length - 2) no
      rw [List.range_succ, List.map_append, List.flatten_append, List.length_append]
      simp only [List.map_cons, List.map_nil, List.flatten_cons, List.flatten_nil, List.append_nil]
      refine ⟨by omega, fun hmany ↦ ?_⟩
      rcases Nat.lt_succ_iff_lt_or_eq.mp hmany with hmany | rfl
      · have := hlt hmany
        omega
      · have := hstrict rfl
        omega

theorem uplinkDecodes_of_le (h2 : 2 ≤ data.length) (hlen : data.length ≤ 122494) :
    UplinkDecodes data := by
  have hlt : data.length < 2 ^ 32 := by omega
  refine ⟨fun malloc acks ↦ ?_, fun malloc acks r hrun hdone ↦ ?_⟩
  · obtain ⟨no, r, hrun, hat⟩ := respond_at h2 hlt malloc acks
    obtain ⟨n, r', hrun', hdone⟩ := hat.ends h2 hlt
    refine ⟨n, r', ?_, hdone⟩
    rw [respond_append, hrun]
    exact hrun'
  · obtain ⟨no, r', hrun', hat⟩ := respond_at h2 hlt malloc acks
    obtain rfl := Option.some.inj (hrun.symm.trans hrun')
    exact hat.reproduced hlen hdone

theorem not_uplinkDecodes (hlen : 122494 < data.length) (hlt : data.length < 2 ^ 32) :
    ¬ UplinkDecodes data := by
  intro h
  have h2 : 2 ≤ data.length := by omega
  obtain ⟨n, r, hrun, hdone⟩ := h.ends true []
  obtain ⟨no, r', hrun', hat⟩ := respond_at h2 hlt true ([] ++ List.replicate n ⟨false, true⟩)
  obtain rfl := Option.some.inj (hrun.symm.trans hrun')
  have hstart := hat.exhausted_iff.mp hdone
  have hmany : 128 < no := by
    by_contra hfew
    have := fragmentStart_large (show 122492 < data.length - 2 by omega) (Nat.le_of_not_lt hfew)
    omega
  have hcount : r.2.length = no := by rw [hat.fragments, List.length_map, List.length_range]
  obtain ⟨payload, hparse, hall⟩ := h.decodes true _ r hrun hdone
  rw [hcount] at hall
  have hread : ∀ i < no, parseFragment (fragment data i) = some (i, payload i) := by
    intro i hi
    apply hparse
    rw [hat.fragments, List.getElem?_map, List.getElem?_range hi]
    rfl
  have hshort := (length_flatten_le h2 hread).2 hmany
  rw [hall, List.length_drop, hstart] at hshort
  exact lt_irrefl _ hshort

theorem channel_uplink_decodes_iff (data : List UInt8) (h2 : 2 ≤ data.length)
    (hlt : data.length < 2 ^ 32) : UplinkDecodes data ↔ data.length ≤ 122494 := by
  refine ⟨fun h ↦ ?_, uplinkDecodes_of_le h2⟩
  by_contra hlen
  exact not_uplinkDecodes (Nat.lt_of_not_le hlen) hlt h

/-- An answer of two fragments. -/
theorem channel_uplink_decodes_iff_two :
    (fragmentStart 1000 1 < 1000 ∧ fragmentStart 1000 2 = 1000) ∧
      UplinkDecodes ([0, 0] ++ List.replicate 1000 7) := by
  have hlen : ([0, 0] ++ List.replicate 1000 (7 : UInt8)).length = 1002 := by
    rw [List.length_append, List.length_replicate]
    rfl
  exact ⟨by decide, (channel_uplink_decodes_iff _ (by omega) (by omega)).mpr (by omega)⟩

theorem channel_not_uplink_decodes :
    ¬ ∀ data : List UInt8, 2 ≤ data.length → data.length < 2 ^ 32 → UplinkDecodes data := by
  intro h
  have hlen : (List.replicate 122495 (0 : UInt8)).length = 122495 := List.length_replicate
  refine not_uplinkDecodes (by omega) (by omega) (h (List.replicate 122495 0) ?_ ?_)
  · omega
  · omega

end TuyaOpen.Ble.Channel
