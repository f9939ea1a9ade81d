import Mathlib.Algebra.Ring.Nat
import Mathlib.Data.Int.Notation
import Mathlib.Data.List.Basic

/-!
# Byte streams that arrive in chunks

A connected transport answers a read of at most `n` bytes with some of the bytes
that have arrived, or with a code that is not positive.  `gather` is the loop that
reads until a number of bytes is there.
-/

namespace ChunkStream

/-- What the transport has for a read: bytes, or the code `-code`. -/
inductive Event where
  | chunk (bs : List UInt8)
  | fail (code : ℕ)
  deriving DecidableEq

/-- The bytes with the length of the last read, or how many had come before a read
failed. -/
inductive Result where
  | done (got : List UInt8) (last : ℕ) (rest : List Event)
  | failed (got : ℕ) (code : ℕ) (rest : List Event)
  deriving DecidableEq

/-- Read until `need` more bytes are there.  With nothing left the transport fails with
`again`, and so many failures with `again` as `retries` says are tried once more. -/
@[grind =] def gather (again : ℕ) : List Event → ℕ → ℕ → List UInt8 → ℕ → Result
  | [], _, need, acc, last =>
      if need = 0 then .done acc last [] else .failed acc.length again []
  | e :: es, retries, need, acc, last =>
      if need = 0 then .done acc last (e :: es)
      else
        match e with
        | .fail code =>
            if code = again ∧ 0 < retries then gather again es (retries - 1) need acc last
            else .failed acc.length code es
        | .chunk bs =>
            if bs = [] then .failed acc.length 0 es
            else if need < bs.length then
              .done (acc ++ bs.take need) need (.chunk (bs.drop need) :: es)
            else gather again es retries (need - bs.length) (acc ++ bs) bs.length

/-- The events bring these bytes, without a failure. -/
inductive Delivers : List Event → List UInt8 → Prop where
  | nil : Delivers [] []
  | cons {bs : List UInt8} {es : List Event} {rest : List UInt8} :
      bs ≠ [] → Delivers es rest → Delivers (.chunk bs :: es) (bs ++ rest)

theorem Delivers.unique {es : List Event} {bytes bytes' : List UInt8} (h : Delivers es bytes)
    (h' : Delivers es bytes') : bytes = bytes' := by
  induction h generalizing bytes' with
  | nil =>
      cases h'
      rfl
  | cons _ _ ih =>
      cases h' with
      | cons _ hes => rw [ih hes]

/-- A measure that every read makes smaller. -/
def Event.weight : Event → ℕ
  | .chunk bs => bs.length + 1
  | .fail _ => 1

theorem Delivers.length_le {es : List Event} {bytes : List UInt8} (h : Delivers es bytes) :
    bytes.length ≤ (es.map Event.weight).sum := by
  induction h with
  | nil => exact Nat.zero_le _
  | cons _ _ ih =>
      rw [List.length_append, List.map_cons, List.sum_cons, Event.weight]
      omega

theorem gather_zero (again : ℕ) (es : List Event) (retries : ℕ) (acc : List UInt8) (last : ℕ) :
    gather again es retries 0 acc last = .done acc last es := by
  cases es <;> rfl

/-- Bytes that are delivered are read, whatever comes behind them. -/
theorem gather_delivers {es : List Event} {bytes : List UInt8} (h : Delivers es bytes)
    (again : ℕ) (behind : List Event) {n : ℕ} (hn : n ≤ bytes.length) (retries : ℕ)
    (acc : List UInt8) (last : ℕ) :
    ∃ last' es', gather again (es ++ behind) retries n acc last =
        .done (acc ++ bytes.take n) last' (es' ++ behind) ∧
      Delivers es' (bytes.drop n) ∧ (0 < last ∨ 0 < n → 0 < last') := by
  induction h generalizing n acc last with
  | nil =>
      obtain rfl : n = 0 := Nat.le_zero.mp hn
      exact ⟨last, [], by rw [gather_zero]; simp, .nil, by simp⟩
  | @cons bs es rest hbs hes ih =>
      rcases Nat.eq_zero_or_pos n with rfl | hpos
      · exact ⟨last, .chunk bs :: es, by rw [gather_zero]; simp, by simpa using .cons hbs hes,
          by simp⟩
      rw [List.cons_append, gather, if_neg (Nat.pos_iff_ne_zero.mp hpos)]
      simp only [if_neg hbs]
      by_cases hlt : n < bs.length
      · refine ⟨n, .chunk (bs.drop n) :: es, ?_, ?_, fun _ ↦ hpos⟩
        · rw [if_pos hlt, List.take_append_of_le_length (Nat.le_of_lt hlt), List.cons_append]
        · rw [List.drop_append_of_le_length (Nat.le_of_lt hlt)]
          exact .cons (by simpa using hlt) hes
      · have hle : n - bs.length ≤ rest.length := by
          rw [List.length_append] at hn
          omega
        obtain ⟨last', es', hrun, hdel, hlast⟩ := ih hle (acc ++ bs) bs.length
        refine ⟨last', es', ?_, ?_, fun _ ↦ hlast (.inl (List.length_pos_of_ne_nil hbs))⟩
        · rw [if_neg hlt, hrun, List.take_append, List.take_of_length_le (Nat.not_lt.mp hlt),
            List.append_assoc]
        · rw [List.drop_append, List.drop_of_length_le (Nat.not_lt.mp hlt), List.nil_append]
          exact hdel

/-- What was read has the length that was asked for. -/
theorem gather_length {again retries need last last' : ℕ} {es rest : List Event}
    {acc got : List UInt8} (h : gather again es retries need acc last = .done got last' rest) :
    got.length = acc.length + need := by
  induction es generalizing retries need acc last with
  | nil =>
      rw [gather] at h
      split_ifs at h with hneed
      cases h
      rw [hneed, Nat.add_zero]
  | cons e es ih =>
      cases e with
      | fail code =>
          rw [gather] at h
          split_ifs at h with hneed
          · cases h
            rw [hneed, Nat.add_zero]
          · exact ih h
      | chunk bs =>
          rw [gather] at h
          split_ifs at h with hneed hnil hlt
          · cases h
            rw [hneed, Nat.add_zero]
          · cases h
            rw [List.length_append, List.length_take, Nat.min_eq_left (Nat.le_of_lt hlt)]
          · have hlen := ih h
            rw [List.length_append] at hlen
            omega

/-- A read that fails has brought no more than was asked for. -/
theorem gather_failed_le {again retries need last got code : ℕ} {es rest : List Event}
    {acc : List UInt8} (h : gather again es retries need acc last = .failed got code rest) :
    got ≤ acc.length + need := by
  induction es generalizing retries need acc last with
  | nil =>
      rw [gather] at h
      split_ifs at h
      cases h
      exact Nat.le_add_right _ _
  | cons e es ih =>
      cases e with
      | fail code =>
          rw [gather] at h
          split_ifs at h
          · exact ih h
          · cases h
            exact Nat.le_add_right _ _
      | chunk bs =>
          rw [gather] at h
          split_ifs at h with hneed hnil hlt
          · cases h
            exact Nat.le_add_right _ _
          · have hlen := ih h
            rw [List.length_append] at hlen
            omega

/-- Every read that brings bytes brings at least one. -/
theorem gather_last_pos {again retries need last last' : ℕ} {es rest : List Event}
    {acc got : List UInt8} (hlast : 0 < last)
    (h : gather again es retries need acc last = .done got last' rest) : 0 < last' := by
  induction es generalizing retries need acc last with
  | nil =>
      rw [gather] at h
      split_ifs at h
      cases h
      exact hlast
  | cons e es ih =>
      cases e with
      | fail code =>
          rw [gather] at h
          split_ifs at h
          · cases h
            exact hlast
          · exact ih hlast h
      | chunk bs =>
          rw [gather] at h
          split_ifs at h with hneed hnil hlt
          · cases h
            exact hlast
          · cases h
            omega
          · exact ih (List.length_pos_of_ne_nil hnil) h

end ChunkStream
