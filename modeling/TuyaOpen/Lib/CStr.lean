import Mathlib.Data.Int.Notation
import Mathlib.Tactic.SplitIfs
import TuyaOpen.Lib.Splice

/-!
# Strings in buffers

What the functions of `<string.h>` do to a buffer of bytes.  Each of them has
no result where it would touch a byte outside the buffer.
-/

namespace CStr

/-- The string that begins at `off`, without its final zero. -/
def read (buf : List UInt8) (off : ℕ) : Option (List UInt8) :=
  if 0 ∈ buf.drop off then some ((buf.drop off).takeWhile (· ≠ 0)) else none

def put (buf : List UInt8) (i : ℕ) (c : UInt8) : Option (List UInt8) :=
  if i < buf.length then some (buf.set i c) else none

/-- `memmove` inside one buffer. -/
def memmove (buf : List UInt8) (dst src : ℕ) (n : ℤ) : Option (List UInt8) :=
  if 0 ≤ n ∧ dst + n ≤ buf.length ∧ src + n ≤ buf.length then
    some (buf.splice dst ((buf.drop src).take n.toNat))
  else none

def memcpy (dst src : List UInt8) (n : ℕ) : Option (List UInt8) :=
  if n ≤ dst.length ∧ n ≤ src.length then some (dst.splice 0 (src.take n)) else none

def strcpy (dst s : List UInt8) : Option (List UInt8) :=
  if s.length + 1 ≤ dst.length then some (dst.splice 0 (s ++ [0])) else none

/-- `snprintf(buf + off, size, …)`, with the text that the format spells. -/
def snprintfAt (buf : List UInt8) (off size : ℕ) (text : List UInt8) : Option (List UInt8) :=
  if size = 0 then some buf
  else if off + (min text.length (size - 1) + 1) ≤ buf.length then
    some (buf.splice off (text.take (size - 1) ++ [0]))
  else none

/-- `strncmp` gives zero. -/
def strncmpEq : List UInt8 → List UInt8 → ℕ → Bool
  | _, _, 0 => true
  | a, b, n + 1 =>
      a.headD 0 == b.headD 0 && (a.headD 0 == 0 || strncmpEq a.tail b.tail n)

/-- `memcmp` gives zero. -/
def memcmpEq (a b : List UInt8) (n : ℕ) : Option Bool :=
  if n ≤ a.length ∧ n ≤ b.length then some (a.take n == b.take n) else none

/-- Where a byte first stands in a string. -/
def strchr (s : List UInt8) (c : UInt8) : Option ℕ := if c ∈ s then some (s.idxOf c) else none

theorem strchr_eq_none {s : List UInt8} {c : UInt8} (h : c ∉ s) : strchr s c = none := if_neg h

theorem strchr_append {s : List UInt8} {c : UInt8} (h : c ∉ s) (t : List UInt8) :
    strchr (s ++ c :: t) c = some s.length := by
  have hidx : (s ++ c :: t).idxOf c = s.length := by
    rw [List.idxOf_append_of_notMem h, List.idxOf_cons_self, Nat.add_zero]
  rw [strchr, if_pos (by simp), hidx]

theorem strchr_append_of_notMem {s : List UInt8} {c : UInt8} (h : c ∉ s) (t : List UInt8) :
    strchr (s ++ t) c = (strchr t c).map (s.length + ·) := by
  by_cases ht : c ∈ t
  · rw [strchr, strchr, if_pos (List.mem_append_right s ht), if_pos ht,
      List.idxOf_append_of_notMem h, Option.map_some]
  · rw [strchr_eq_none ht, strchr_eq_none (by simp [h, ht]), Option.map_none]

/-- A string is cut in one way at the first place of a byte. -/
theorem append_cons_inj {s s' t t' : List UInt8} {c : UInt8} (hs : c ∉ s) (hs' : c ∉ s')
    (h : s ++ c :: t = s' ++ c :: t') : s = s' ∧ t = t' := by
  have hlen : s.length = s'.length := by
    have hidx := strchr_append hs t
    rw [h, strchr_append hs' t'] at hidx
    exact (Option.some.inj hidx).symm
  obtain ⟨rfl, htail⟩ := List.append_inj h hlen
  exact ⟨rfl, (List.cons.inj htail).2⟩

theorem read_append (pre : List UInt8) {s : List UInt8} (hs : 0 ∉ s) (tail : List UInt8) {off : ℕ}
    (hoff : pre.length = off) : read (pre ++ s ++ 0 :: tail) off = some s := by
  have hdrop : (pre ++ s ++ 0 :: tail).drop off = s ++ 0 :: tail := by
    rw [List.append_assoc, ← hoff, List.drop_left]
  have htake : (s ++ 0 :: tail).takeWhile (· ≠ 0) = s := by
    rw [List.takeWhile_append_of_pos]
    · simp
    · intro c hc
      exact decide_eq_true fun h ↦ hs (h ▸ hc)
  rw [read, hdrop, htake]
  exact if_pos (by simp)

theorem read_zero {s : List UInt8} (hs : 0 ∉ s) (tail : List UInt8) :
    read (s ++ 0 :: tail) 0 = some s :=
  read_append [] hs tail rfl

/-- The bytes of a C string, without its final zero. -/
abbrev Text := {s : List UInt8 // 0 ∉ s}

/-- The string at the start of a buffer. -/
def textOf (buf : List UInt8) : Text :=
  ⟨buf.takeWhile (· ≠ 0), fun h ↦ by simpa using List.all_eq_true.mp List.all_takeWhile 0 h⟩

theorem textOf_append (t : Text) (tail : List UInt8) : textOf (t.1 ++ 0 :: tail) = t := by
  have hread := read_zero t.2 tail
  rw [read, if_pos (by simp)] at hread
  exact Subtype.ext (Option.some.inj hread)

theorem put_append {pre tail : List UInt8} (b c : UInt8) {i : ℕ} (hi : pre.length = i) :
    put (pre ++ b :: tail) i c = some (pre ++ c :: tail) := by
  have hlt : i < (pre ++ b :: tail).length := by
    rw [List.length_append, List.length_cons]
    omega
  rw [put, if_pos hlt, ← hi, List.set_append_right _ _ (Nat.le_refl _), Nat.sub_self]
  rfl

theorem strcpy_append {s dst : List UInt8} (h : s.length + 1 ≤ dst.length) :
    strcpy dst s = some (s ++ 0 :: dst.drop (s.length + 1)) := by
  rw [strcpy, if_pos h, List.splice]
  simp

theorem memcpy_append (s dst tail : List UInt8) (h : s.length ≤ dst.length) :
    memcpy dst (s ++ tail) s.length = some (s ++ dst.drop s.length) := by
  rw [memcpy, if_pos ⟨h, by simp⟩, List.take_left, List.splice]
  simp

theorem length_of_snprintfAt {buf buf' text : List UInt8} {off size : ℕ}
    (h : snprintfAt buf off size text = some buf') : buf'.length = buf.length := by
  unfold snprintfAt at h
  split_ifs at h with hsize hroom
  · exact congrArg List.length (Option.some.inj h).symm
  · rw [← Option.some.inj h, List.length_splice]
    simp
    omega

theorem snprintfAt_isSome_iff {buf text : List UInt8} {off size : ℕ} (hsize : 0 < size) :
    (snprintfAt buf off size text).isSome ↔
      off + (min text.length (size - 1) + 1) ≤ buf.length := by
  unfold snprintfAt
  rw [if_neg (Nat.ne_of_gt hsize)]
  split <;> simp [*]

/-- Text that fits, and its zero, go over what stands there. -/
theorem snprintfAt_append {front rest text : List UInt8} {size : ℕ} (hsize : text.length < size)
    (hroom : text.length < rest.length) :
    snprintfAt (front ++ rest) front.length size text =
      some (front ++ text ++ 0 :: rest.drop (text.length + 1)) := by
  have htake : text.take (size - 1) = text := List.take_of_length_le (by omega)
  unfold snprintfAt
  rw [if_neg (by omega), if_pos (by simp; omega), htake, List.splice]
  simp

/-- Opening a gap before `b` for one byte: what stands in it is the old byte. -/
theorem memmove_up (a b tail : List UInt8) (j : UInt8) :
    ∃ c, memmove (a ++ b ++ j :: tail) (a.length + 1) a.length b.length =
      some (a ++ c :: (b ++ tail)) := by
  obtain ⟨c, rest, hc⟩ : ∃ c rest, b ++ j :: tail = c :: rest := by
    cases b with
    | nil => exact ⟨j, tail, rfl⟩
    | cons c b => exact ⟨c, b ++ j :: tail, rfl⟩
  refine ⟨c, ?_⟩
  have hlen : (a ++ b ++ j :: tail).length = a.length + b.length + tail.length + 1 := by
    simp
    omega
  have htake : (a ++ b ++ j :: tail).take (a.length + 1) = a ++ [c] := by
    rw [List.append_assoc, hc, List.append_cons]
    exact List.take_left' (by simp)
  have hmiddle : ((a ++ b ++ j :: tail).drop a.length).take b.length = b := by simp
  have hdrop : (a ++ b ++ j :: tail).drop (a.length + 1 + b.length) = tail := by
    have hsplit : a ++ b ++ j :: tail = (a ++ b ++ [j]) ++ tail := by simp
    rw [hsplit]
    apply List.drop_left'
    simp
    omega
  rw [memmove, if_pos ⟨by omega, by push_cast [hlen]; omega, by push_cast [hlen]; omega⟩,
    Int.toNat_natCast, List.splice, hmiddle, htake, hdrop]
  simp

/-- Closing the gap of one byte before `b`: the last byte is doubled. -/
theorem memmove_down (a b tail : List UInt8) (c : UInt8) :
    ∃ j, memmove (a ++ c :: b ++ tail) a.length (a.length + 1) b.length =
      some (a ++ b ++ j :: tail) := by
  obtain ⟨front, j, hj⟩ : ∃ front j, c :: b = front ++ [j] :=
    ⟨_, _, (List.dropLast_append_getLast (List.cons_ne_nil c b)).symm⟩
  have hfront : front.length = b.length := by
    have := congrArg List.length hj
    simpa using this.symm
  refine ⟨j, ?_⟩
  have hlen : (a ++ c :: b ++ tail).length = a.length + b.length + tail.length + 1 := by
    simp
    omega
  have hmiddle : ((a ++ c :: b ++ tail).drop (a.length + 1)).take b.length = b := by
    have hsplit : a ++ c :: b ++ tail = (a ++ [c]) ++ (b ++ tail) := by simp
    rw [hsplit, List.drop_left' (by simp), List.take_left]
  have hdrop : (a ++ c :: b ++ tail).drop (a.length + b.length) = j :: tail := by
    rw [hj]
    have hsplit : a ++ (front ++ [j]) ++ tail = (a ++ front) ++ j :: tail := by simp
    rw [hsplit]
    apply List.drop_left'
    simp [hfront]
  rw [memmove, if_pos ⟨by omega, by push_cast [hlen]; omega, by push_cast [hlen]; omega⟩,
    Int.toNat_natCast, List.splice, hmiddle, hdrop]
  simp

/-- Comparing as many bytes as a text without zeros has. -/
theorem strncmpEq_iff {line tail name : List UInt8} (hline : 0 ∉ line) :
    strncmpEq name (line ++ tail) line.length = true ↔ line <+: name := by
  induction line generalizing name with
  | nil => simp [strncmpEq]
  | cons c line ih =>
      rw [List.mem_cons, not_or] at hline
      rw [List.length_cons, strncmpEq, Bool.and_eq_true, Bool.or_eq_true, beq_iff_eq, beq_iff_eq]
      cases name with
      | nil =>
          simp only [List.headD_nil, List.cons_append, List.headD_cons, List.prefix_nil]
          simp [hline.1]
      | cons d name =>
          rw [List.cons_append, List.headD_cons, List.headD_cons, List.tail_cons, List.tail_cons,
            ih hline.2, List.cons_prefix_cons]
          constructor
          · rintro ⟨rfl, rfl | hpre⟩
            · exact absurd rfl hline.1
            · exact ⟨rfl, hpre⟩
          · rintro ⟨rfl, hpre⟩
            exact ⟨rfl, Or.inr hpre⟩

end CStr

/-! ## Numbers in text

How `scanf` and `atoi` read a decimal number: blanks, a sign, digits. -/

namespace Scan

def isSpace (b : UInt8) : Bool := decide (b = 0x20) || (decide (0x09 ≤ b) && decide (b ≤ 0x0d))

def isDigit (b : UInt8) : Bool := decide (0x30 ≤ b) && decide (b ≤ 0x39)

def number (ds : List UInt8) : ℕ := ds.foldl (fun n b ↦ 10 * n + (b.toNat - 48)) 0

/-- A sign is a minus or not, and is taken off the text. -/
def sign : List UInt8 → Bool × List UInt8
  | 0x2d :: s => (true, s)
  | 0x2b :: s => (false, s)
  | s => (false, s)

/-- A number with what stands behind it. -/
def int (s : List UInt8) : Option (ℤ × List UInt8) :=
  let (negative, s) := sign (s.dropWhile isSpace)
  let ds := s.takeWhile isDigit
  if ds = [] then none
  else some (if negative then -(number ds : ℤ) else number ds, s.dropWhile isDigit)

def atoi (s : List UInt8) : ℤ := ((int s).map Prod.fst).getD 0

variable {s ds : List UInt8}

theorem isSpace_of_isDigit {b : UInt8} (h : isDigit b = true) : isSpace b = false := by
  simp only [isDigit, Bool.and_eq_true, decide_eq_true_eq, UInt8.le_iff_toNat_le] at h
  obtain ⟨hlow, -⟩ := h
  have h30 : (0x30 : UInt8).toNat = 48 := rfl
  have hspace : b ≠ 0x20 := by
    rintro rfl
    exact absurd hlow (by decide)
  have hhigh : ¬b ≤ 0x0d := by
    intro hb
    have hb13 : b.toNat ≤ 13 := UInt8.le_iff_toNat_le.mp hb
    omega
  simp [isSpace, hspace, hhigh]

theorem sign_of_isDigit {b : UInt8} (h : isDigit b = true) (s : List UInt8) :
    sign (b :: s) = (false, b :: s) := by
  have hminus : b ≠ 0x2d := by
    rintro rfl
    exact absurd h (by decide)
  have hplus : b ≠ 0x2b := by
    rintro rfl
    exact absurd h (by decide)
  unfold sign
  split
  · rename_i heq
    exact (hminus (List.cons.inj heq).1).elim
  · rename_i heq
    exact (hplus (List.cons.inj heq).1).elim
  · rfl

/-- Digits, up to the end of the text or to a byte that is none. -/
theorem int_digits (hds : ds ≠ []) (hdigit : ∀ b ∈ ds, isDigit b = true)
    (hs : ∀ b ∈ s.head?, isDigit b = false) : int (ds ++ s) = some ((number ds : ℤ), s) := by
  have htake : (ds ++ s).takeWhile isDigit = ds := by
    rw [List.takeWhile_append_of_pos hdigit]
    cases s with
    | nil => simp
    | cons c s => simp [hs c rfl]
  have hdrop : (ds ++ s).dropWhile isDigit = s := by
    rw [List.dropWhile_append_of_pos hdigit]
    cases s with
    | nil => rfl
    | cons c s => simp [hs c rfl]
  obtain ⟨b, ds, rfl⟩ := List.exists_cons_of_ne_nil hds
  have hb := hdigit b List.mem_cons_self
  have hspace := isSpace_of_isDigit hb
  rw [int, List.cons_append, List.dropWhile_cons_of_neg (by simp [hspace]), sign_of_isDigit hb,
    ← List.cons_append]
  simp only [htake, hdrop, if_neg hds]
  rfl

theorem atoi_digits (hds : ds ≠ []) (hdigit : ∀ b ∈ ds, isDigit b = true)
    (hs : ∀ b ∈ s.head?, isDigit b = false) : atoi (ds ++ s) = number ds := by
  rw [atoi, int_digits hds hdigit hs]
  rfl

end Scan
