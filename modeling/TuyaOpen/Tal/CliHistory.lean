import TuyaOpen.Tal.CliEditor

/-!
# The ring of saved lines

The newest line is in the slot before `write_index`, older ones in the slots before it, around
the end of the array.  `read_count` counts down from `write_count` as the user goes back.
-/

namespace TuyaOpen.Tal

/-- A line that fits the buffer. -/
def LineOk (text : List UInt8) : Prop :=
  text.length ≤ cliBufferSize ∧ 0 ∉ text

/-- The slot of the saved line `k`, counted from the newest. -/
def historySlot (writeIndex k : ℕ) : ℕ :=
  (writeIndex + 7 - k) % cliHistoryNum

/-- The lines in the ring, and how far the user went back. -/
structure HistoryRel (history : CliHistory) (saved : List (List UInt8)) (back : ℕ) : Prop where
  writeCount : history.writeCount = saved.length
  count_le : saved.length ≤ cliHistoryNum
  write_le : history.writeIndex ≤ cliHistoryNum
  write_pos : saved ≠ [] → 0 < history.writeIndex
  slots : history.data.length = cliHistoryNum
  rows : ∀ row ∈ history.data, row.length = cliBufferSize + 1
  text : ∀ text ∈ saved, LineOk text
  line : ∀ k text, saved[k]? = some text →
    ∃ tail, history.data[historySlot history.writeIndex k]? = some (text ++ 0 :: tail)
  back_le : back ≤ saved.length
  readCount : history.readCount = saved.length - back
  readIndex : saved ≠ [] → history.readIndex = historySlot history.writeIndex (back - 1)

namespace HistoryRel

variable {history : CliHistory} {saved : List (List UInt8)} {back : ℕ}

theorem initial : HistoryRel cliInit.history [] 0 where
  writeCount := rfl
  count_le := by decide
  write_le := by decide
  write_pos h := absurd rfl h
  slots := by simp [cliInit]
  rows row hrow := by
    rw [List.eq_of_mem_replicate hrow, List.length_replicate]
  text _ h := by cases h
  line _ _ h := by cases h
  back_le := Nat.le_refl 0
  readCount := rfl
  readIndex h := absurd rfl h

theorem ne_nil_of_getElem? {k : ℕ} {text : List UInt8} (hk : saved[k]? = some text) :
    saved ≠ [] ∧ k < saved.length := by
  have hlt := (List.getElem?_eq_some_iff.mp hk).1
  exact ⟨List.ne_nil_of_length_pos (by omega), hlt⟩

theorem perv (h : HistoryRel history saved back) :
    (saved[back]? = none → cliHistroyDataPerv history = some (history, none)) ∧
    (∀ text, saved[back]? = some text → ∃ history' tail,
      cliHistroyDataPerv history = some (history', some (text ++ 0 :: tail)) ∧
      HistoryRel history' saved (back + 1)) := by
  constructor
  · intro hnone
    have hle := List.getElem?_eq_none_iff.mp hnone
    have hzero : history.readCount = 0 := by
      rw [h.readCount]
      omega
    rw [cliHistroyDataPerv, if_pos hzero]
  · intro text hsome
    obtain ⟨hne, hlt⟩ := ne_nil_of_getElem? hsome
    obtain ⟨tail, hline⟩ := h.line back text hsome
    have hread := h.readIndex hne
    have hcount := h.readCount
    have hwrite := h.writeCount
    have hle := h.count_le
    have hindex : (if history.readCount ≠ history.writeCount then
        u16Pred (if history.readIndex = 0 then cliHistoryNum else history.readIndex)
        else history.readIndex) = historySlot history.writeIndex back := by
      rw [historySlot, cliHistoryNum] at *
      unfold u16Pred
      by_cases hback : back = 0
      · rw [if_neg (by omega), hread, hback]
      · rw [if_pos (by omega)]
        split <;> omega
    rw [cliHistroyDataPerv, if_neg (by omega)]
    simp only [hindex, hline, Option.map_some]
    refine ⟨_, tail, rfl, ?_⟩
    exact { h with
      back_le := hlt
      readCount := by
        simp only [u16Pred]
        rw [cliHistoryNum] at hle
        omega
      readIndex := fun _ ↦ rfl }

theorem next (h : HistoryRel history saved back) :
    (back ≤ 1 → cliHistroyDataNext history = some (history, none)) ∧
    (1 < back → ∃ text history' tail, saved[back - 2]? = some text ∧
      cliHistroyDataNext history = some (history', some (text ++ 0 :: tail)) ∧
      HistoryRel history' saved (back - 1)) := by
  have hcount := h.readCount
  have hwrite := h.writeCount
  have hle := h.count_le
  have hback := h.back_le
  constructor
  · intro hone
    rw [cliHistroyDataNext, if_pos (by omega)]
  · intro hlt
    have hsome : saved[back - 2]? = some saved[back - 2] := List.getElem?_eq_getElem (by omega)
    obtain ⟨tail, hline⟩ := h.line (back - 2) _ hsome
    have hread := h.readIndex (ne_nil_of_getElem? hsome).1
    have hindex : (if cliHistoryNum = u16 (history.readIndex + 1) then 0
        else u16 (history.readIndex + 1)) = historySlot history.writeIndex (back - 2) := by
      rw [historySlot, cliHistoryNum] at *
      unfold u16
      split <;> omega
    have hnext : cliHistroyDataNext history = some
        ({ history with
          readIndex := historySlot history.writeIndex (back - 2)
          readCount := u16 (history.readCount + 1) }, some (saved[back - 2] ++ 0 :: tail)) := by
      rw [cliHistroyDataNext, if_neg (by omega)]
      simp only [hindex, hline, Option.map_some]
    refine ⟨_, _, tail, hsome, hnext, ?_⟩
    exact { h with
      back_le := by omega
      readCount := by
        simp only [u16]
        rw [cliHistoryNum] at hle
        omega
      readIndex := fun _ ↦ rfl }

theorem rewound (h : HistoryRel history saved back) : HistoryRel (rewind history) saved 0 := by
  have hindex : saved ≠ [] → u16Pred history.writeIndex = historySlot history.writeIndex 0 := by
    intro hne
    have hpos := h.write_pos hne
    have hle := h.write_le
    rw [historySlot, u16Pred]
    rw [cliHistoryNum] at *
    omega
  have hrel : ∀ readIndex, (saved ≠ [] → readIndex = historySlot history.writeIndex 0) →
      HistoryRel
        ⟨history.writeIndex, history.writeCount, readIndex, history.writeCount, history.data⟩
        saved 0 := by
    intro readIndex hread
    exact ⟨h.writeCount, h.count_le, h.write_le, h.write_pos, h.slots, h.rows, h.text, h.line,
      Nat.zero_le _, h.writeCount, hread⟩
  exact hrel _ hindex

theorem nextSlot_lt (h : HistoryRel history saved back) :
    nextSlot history < cliHistoryNum ∧ nextSlot history % 8 = history.writeIndex % 8 := by
  have hle := h.write_le
  rw [nextSlot]
  rw [cliHistoryNum] at *
  split <;> omega

theorem historySlot_newest {n : ℕ} (hn : n < cliHistoryNum) : historySlot (n + 1) 0 = n := by
  rw [historySlot]
  rw [cliHistoryNum] at *
  omega

theorem line_set (h : HistoryRel history saved back) (text tail : List UInt8) {k : ℕ}
    {text' : List UInt8} (hk : ((text :: saved).take cliHistoryNum)[k]? = some text') :
    ∃ rest, (history.data.set (nextSlot history) (text ++ 0 :: tail))[historySlot
      (nextSlot history + 1) k]? = some (text' ++ 0 :: rest) := by
  obtain ⟨hlt, hmod⟩ := nextSlot_lt h
  have hslot : nextSlot history < history.data.length := h.slots ▸ hlt
  cases k with
  | zero =>
      rw [historySlot_newest hlt, List.getElem?_set_self hslot]
      cases hk
      exact ⟨tail, rfl⟩
  | succ k =>
      have hk8 : k + 1 < cliHistoryNum := by
        have hlt := (List.getElem?_eq_some_iff.mp hk).1
        rw [List.length_take] at hlt
        omega
      rw [List.getElem?_take_of_lt hk8, List.getElem?_cons_succ] at hk
      have holder : historySlot (nextSlot history + 1) (k + 1) =
          historySlot history.writeIndex k := by
        rw [historySlot, historySlot]
        rw [cliHistoryNum] at *
        omega
      have hne : nextSlot history ≠ historySlot history.writeIndex k := by
        rw [historySlot]
        rw [cliHistoryNum] at *
        omega
      rw [holder, List.getElem?_set_ne hne]
      exact h.line k text' hk

theorem set (h : HistoryRel history saved back) {text tail : List UInt8} (htext : LineOk text)
    (hlength : (text ++ 0 :: tail).length = cliBufferSize + 1) :
    HistoryRel ⟨nextSlot history + 1, ((text :: saved).take cliHistoryNum).length,
      nextSlot history, ((text :: saved).take cliHistoryNum).length,
      history.data.set (nextSlot history) (text ++ 0 :: tail)⟩
      ((text :: saved).take cliHistoryNum) 0 where
  writeCount := rfl
  count_le := List.length_take_le _ _
  write_le := (nextSlot_lt h).1
  write_pos _ := Nat.succ_pos _
  slots := by
    rw [List.length_set]
    exact h.slots
  rows := by
    intro row hrow
    rcases List.mem_or_eq_of_mem_set hrow with hrow | rfl
    · exact h.rows row hrow
    · exact hlength
  text := by
    intro text' htext'
    rcases List.mem_cons.mp (List.mem_of_mem_take htext') with rfl | hmem
    · exact htext
    · exact h.text text' hmem
  line := fun k text' hk ↦ h.line_set text tail hk
  back_le := Nat.zero_le _
  readCount := rfl
  readIndex _ := (historySlot_newest (nextSlot_lt h).1).symm

theorem store (h : HistoryRel history saved back) {cli : Cli} {text junk : List UInt8}
    (htext : LineOk text) (hbuffer : cli.buffer = text ++ 0 :: junk)
    (hindex : cli.index = text.length) :
    ∃ history', cliHistroyStore cli history = some history' ∧
      HistoryRel history' ((text :: saved).take cliHistoryNum) 0 := by
  have hlt := (nextSlot_lt h).1
  have hslot : nextSlot history < history.data.length := h.slots ▸ hlt
  have hrow := h.rows _ (List.getElem_mem hslot)
  have hfits := htext.1
  obtain ⟨tail, hcopy, hlength⟩ : ∃ tail,
      CStr.memcpy history.data[nextSlot history] cli.buffer (cli.index + 1) =
        some (text ++ 0 :: tail) ∧ (text ++ 0 :: tail).length = cliBufferSize + 1 := by
    refine ⟨history.data[nextSlot history].drop (text.length + 1), ?_, ?_⟩
    · have hcopy := CStr.memcpy_append (text ++ [0]) history.data[nextSlot history] junk
        (by simp; omega)
      rw [hbuffer, hindex]
      simpa using hcopy
    · rw [List.length_append, List.length_cons, List.length_drop]
      omega
  have hcount : (if history.writeCount < cliHistoryNum then u16 (history.writeCount + 1)
      else history.writeCount) = ((text :: saved).take cliHistoryNum).length := by
    have hle := h.count_le
    rw [h.writeCount, List.length_take, List.length_cons]
    rw [cliHistoryNum] at *
    unfold u16
    split <;> omega
  have hsucc : u16 (nextSlot history + 1) = nextSlot history + 1 := by
    rw [cliHistoryNum] at hlt
    unfold u16
    omega
  refine ⟨_, ?_, h.set htext hlength⟩
  rw [cliHistroyStore, List.getElem?_eq_getElem hslot]
  simp only [Option.bind_eq_bind, Option.bind_some, hcopy, hcount, hsucc]

end HistoryRel

theorem cliHistroyDataSave_saves (cli : Cli) {saved : List (List UInt8)} {back : ℕ}
    (h : HistoryRel cli.history saved back) {text junk : List UInt8} (htext : LineOk text)
    (hbuffer : cli.buffer = text ++ 0 :: junk) (hindex : cli.index = text.length) :
    ∃ history, cliHistroyDataSave cli = some history ∧
      HistoryRel history (Editor.save saved text) 0 := by
  have hentered : CStr.read cli.buffer 0 = some text := by
    rw [hbuffer]
    exact CStr.read_zero htext.2 junk
  cases saved with
  | nil =>
      obtain ⟨history, hstore, hrel⟩ := h.rewound.store htext hbuffer hindex
      refine ⟨history, ?_, hrel⟩
      rw [cliHistroyDataSave, h.rewound.perv.1 rfl]
      exact hstore
  | cons newest saved =>
      obtain ⟨history, tail, hperv, hrel⟩ := h.rewound.perv.2 newest rfl
      have hsaved : CStr.read (newest ++ 0 :: tail) 0 = some newest :=
        CStr.read_zero (h.text newest List.mem_cons_self).2 tail
      rw [cliHistroyDataSave, hperv]
      simp only [Option.bind_eq_bind, Option.bind_some, hsaved, hentered]
      by_cases hsame : text = newest
      · have hkept : Editor.save (newest :: saved) text = newest :: saved := by
          rw [hsame]
          exact if_pos rfl
        rw [if_pos hsame, hkept]
        exact ⟨_, rfl, hrel.rewound⟩
      · have hnew : Editor.save (newest :: saved) text =
            (text :: newest :: saved).take cliHistoryNum := by
          apply if_neg
          rw [List.head?_cons, Option.some.injEq]
          exact Ne.symm hsame
        rw [if_neg hsame, hnew]
        exact hrel.store htext hbuffer hindex

end TuyaOpen.Tal
