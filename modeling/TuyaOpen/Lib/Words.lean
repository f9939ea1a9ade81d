import Mathlib.Data.Nat.Notation

/-!
# Words

The words of a text are its nonempty pieces between separators.
-/

namespace List

variable {α : Type*} [DecidableEq α] {sep : α}

def words (sep : α) (text : List α) : List (List α) :=
  (text.splitOn sep).filter (· ≠ [])

@[simp] theorem words_nil : words sep [] = [] := by
  rw [words, splitOn_nil]
  rfl

theorem words_cons_sep (text : List α) : words sep (sep :: text) = words sep text := by
  rw [words, splitOn_cons_eq_if_modifyHead, if_pos (beq_self_eq_true sep)]
  exact filter_cons_of_neg (by simp)

/-- A word that has begun ends at the end of the text. -/
theorem words_of_notMem {word : List α} (hsep : sep ∉ word) (hword : word ≠ []) :
    words sep word = [word] := by
  rw [words, splitOn_eq_singleton hsep]
  exact filter_cons_of_pos (by simpa using hword)

/-- A word that has begun ends at a separator. -/
theorem words_append_sep {word : List α} (hsep : sep ∉ word) (hword : word ≠ [])
    (text : List α) : words sep (word ++ sep :: text) = word :: words sep text := by
  rw [words, splitOn_append_cons_self_of_not_mem hsep]
  exact filter_cons_of_pos (by simpa using hword)

/-- A first element that is no separator begins the first piece. -/
theorem exists_splitOn_cons {a : α} (ha : a ≠ sep) (text : List α) :
    ∃ piece pieces, text.splitOn sep = piece :: pieces ∧
      (a :: text).splitOn sep = (a :: piece) :: pieces := by
  obtain ⟨piece, pieces, hsplit⟩ := exists_cons_of_ne_nil (splitOn_ne_nil sep text)
  refine ⟨piece, pieces, hsplit, ?_⟩
  rw [splitOn_cons_eq_if_modifyHead, if_neg (by simpa using ha), hsplit]
  rfl

theorem mem_of_mem_splitOn {piece text : List α} (hpiece : piece ∈ text.splitOn sep) {a : α}
    (ha : a ∈ piece) : a ∈ text := by
  induction text generalizing piece with
  | nil =>
      rw [splitOn_nil, mem_singleton] at hpiece
      rwa [hpiece] at ha
  | cons b text ih =>
      by_cases hb : b = sep
      · rw [splitOn_cons_eq_if_modifyHead, if_pos (by simpa using hb)] at hpiece
        rcases mem_cons.mp hpiece with rfl | hpiece
        · cases ha
        · exact mem_cons_of_mem b (ih hpiece ha)
      · obtain ⟨first, pieces, hsplit, hcons⟩ := exists_splitOn_cons hb text
        rw [hcons] at hpiece
        rw [hsplit] at ih
        rcases mem_cons.mp hpiece with rfl | hpiece
        · rcases mem_cons.mp ha with rfl | ha
          · exact mem_cons_self
          · exact mem_cons_of_mem b (ih mem_cons_self ha)
        · exact mem_cons_of_mem b (ih (mem_cons_of_mem first hpiece) ha)

theorem mem_of_mem_words {word text : List α} (hword : word ∈ words sep text) {a : α}
    (ha : a ∈ word) : a ∈ text :=
  mem_of_mem_splitOn (mem_filter.mp hword).1 ha

theorem words_eq_nil_iff {text : List α} : words sep text = [] ↔ ∀ a ∈ text, a = sep := by
  induction text with
  | nil => simp
  | cons a text ih =>
      by_cases ha : a = sep
      · rw [ha, words_cons_sep, ih]
        simp
      · obtain ⟨first, pieces, -, hcons⟩ := exists_splitOn_cons ha text
        have hne : words sep (a :: text) ≠ [] := by
          rw [words, hcons, filter_cons_of_pos (by simp)]
          exact cons_ne_nil _ _
        constructor
        · intro hnil
          exact absurd hnil hne
        · intro hall
          exact absurd (hall a mem_cons_self) ha

end List
