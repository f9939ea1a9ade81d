import TuyaOpen.Lib.Words
import TuyaOpen.Tal.Cli

/-!
# Splitting a line in place

`cli_parse_buffer` writes the words of a line, each with a zero behind it, over the line itself.
It never writes behind the character it reads, so the rest of the line is still there when it is
read, and the arguments it then collects are the words.
-/

namespace TuyaOpen.Tal

/-- Words as they stand in the buffer. -/
def terminated (ws : List (List UInt8)) : List UInt8 :=
  ws.flatMap fun word ↦ word ++ [0]

@[simp] theorem terminated_nil : terminated [] = [] := rfl

theorem terminated_cons (word : List UInt8) (ws : List (List UInt8)) :
    terminated (word :: ws) = word ++ 0 :: terminated ws := by
  simp [terminated]

/-- What the loop leaves: the words behind what was done before, and at least one more zero if
there is no word. -/
def Parsed (length : ℕ) (done : List UInt8) (ws : List (List UInt8)) (argc : ℕ)
    (out : Option (ℕ × List UInt8)) : Prop :=
  ∃ tail, out = some (argc + ws.length, done ++ terminated ws ++ tail) ∧
    (done ++ terminated ws ++ tail).length = length ∧ (ws = [] → ∃ rest, tail = 0 :: rest)

theorem Parsed.cons {length argc : ℕ} {done word : List UInt8} {ws : List (List UInt8)}
    {out : Option (ℕ × List UInt8)} (h : Parsed length (done ++ word ++ [0]) ws (argc + 1) out) :
    Parsed length done (word :: ws) argc out := by
  obtain ⟨tail, hout, hlength, -⟩ := h
  have hsplit : done ++ terminated (word :: ws) ++ tail =
      done ++ word ++ [0] ++ terminated ws ++ tail := by
    simp [terminated_cons]
  refine ⟨tail, ?_, ?_, ?_⟩
  · rw [hout, hsplit, List.length_cons, Nat.add_assoc, Nat.add_comm 1]
  · rwa [hsplit]
  · intro hnil
    cases hnil

/-- A byte is written over the first one behind `done`, and the gap moves on by one byte. -/
theorem put_gap (done gap : List UInt8) (c b : UInt8) (rest : List UInt8) :
    ∃ gap', gap'.length = gap.length ∧
      CStr.put (done ++ gap ++ c :: rest) done.length b = some (done ++ [b] ++ gap' ++ rest) := by
  obtain ⟨first, gap', hgap⟩ := List.exists_cons_of_ne_nil (List.append_ne_nil_of_right_ne_nil gap
    (List.cons_ne_nil c []))
  have hlength := congrArg List.length hgap
  refine ⟨gap', by simpa using hlength.symm, ?_⟩
  have hsplit : done ++ gap ++ c :: rest = done ++ first :: (gap' ++ rest) := by
    rw [List.append_assoc, List.append_cons gap c rest, hgap]
    rfl
  rw [hsplit, CStr.put_append first b rfl]
  simp

theorem getElem?_behind {done gap rest : List UInt8} {c : UInt8} {readchar : ℕ}
    (hread : readchar = done.length + gap.length) :
    (done ++ gap ++ c :: rest)[readchar]? = some c := by
  rw [hread, ← List.length_append, List.getElem?_append_right (Nat.le_refl _), Nat.sub_self]
  rfl

section Step

variable {buffer : List UInt8} {readchar : ℕ} {c : UInt8} (hc : buffer[readchar]? = some c)
  (fuel writechar argc : ℕ)
include hc

theorem cliParseLoop_space :
    cliParseLoop (fuel + 1) .space readchar writechar argc buffer =
      if c = 32 then cliParseLoop fuel .space (readchar + 1) writechar argc buffer
      else if c = 0 then (CStr.put buffer writechar 0).map fun buffer ↦ (argc, buffer)
      else cliParseLoop fuel .arg readchar writechar argc buffer := by
  rw [cliParseLoop, hc]
  cases CStr.put buffer writechar 0 <;> rfl

theorem cliParseLoop_arg :
    cliParseLoop (fuel + 1) .arg readchar writechar argc buffer =
      if c = 32 then (CStr.put buffer writechar 0).bind fun buffer ↦
        cliParseLoop fuel .space (readchar + 1) (writechar + 1) (argc + 1) buffer
      else if c = 0 then (CStr.put buffer writechar 0).map fun buffer ↦ (argc + 1, buffer)
      else (CStr.put buffer writechar c).bind fun buffer ↦
        cliParseLoop fuel .arg (readchar + 1) (writechar + 1) argc buffer := by
  rw [cliParseLoop, hc]
  cases CStr.put buffer writechar 0 <;> rfl

end Step

/-- What the loop does to the rest of the line between two words. -/
def SpaceParsed (rest junk : List UInt8) : Prop :=
  ∀ (done gap : List UInt8) (argc fuel readchar writechar : ℕ), 2 * rest.length + 2 ≤ fuel →
    readchar = done.length + gap.length → writechar = done.length →
    Parsed (done ++ gap ++ (rest ++ 0 :: junk)).length done (List.words 32 rest) argc
      (cliParseLoop fuel .space readchar writechar argc (done ++ gap ++ (rest ++ 0 :: junk)))

/-- What the loop does to the rest of the line inside of a word. -/
def ArgParsed (rest junk : List UInt8) : Prop :=
  ∀ (done word gap : List UInt8) (argc fuel readchar writechar : ℕ), 2 * rest.length + 2 ≤ fuel →
    32 ∉ word → word ≠ [] →
    readchar = (done ++ word).length + gap.length → writechar = (done ++ word).length →
    Parsed (done ++ word ++ gap ++ (rest ++ 0 :: junk)).length done (List.words 32 (word ++ rest))
      argc (cliParseLoop fuel .arg readchar writechar argc
        (done ++ word ++ gap ++ (rest ++ 0 :: junk)))

theorem spaceParsed_nil (junk : List UInt8) : SpaceParsed [] junk := by
  intro done gap argc fuel readchar writechar hfuel hread hwrite
  obtain ⟨fuel, rfl⟩ := Nat.exists_eq_add_of_lt (show 0 < fuel by omega)
  obtain ⟨gap', hgap, hput⟩ := put_gap done gap 0 0 junk
  rw [List.nil_append, Nat.zero_add,
    cliParseLoop_space (getElem?_behind hread) fuel writechar argc, if_neg (by decide),
    if_pos rfl, hwrite, hput]
  refine ⟨0 :: (gap' ++ junk), ?_, ?_, ?_⟩
  · simp
  · simp [hgap]
    omega
  · intro _
    exact ⟨_, rfl⟩

theorem argParsed_nil (junk : List UInt8) : ArgParsed [] junk := by
  intro done word gap argc fuel readchar writechar hfuel hsep hword hread hwrite
  obtain ⟨fuel, rfl⟩ := Nat.exists_eq_add_of_lt (show 0 < fuel by omega)
  obtain ⟨gap', hgap, hput⟩ := put_gap (done ++ word) gap 0 0 junk
  rw [List.nil_append, Nat.zero_add, cliParseLoop_arg (getElem?_behind hread) fuel writechar argc,
    if_neg (by decide), if_pos rfl, hwrite, hput, List.append_nil,
    List.words_of_notMem hsep hword]
  refine ⟨gap' ++ junk, ?_, ?_, ?_⟩
  · simp [terminated]
  · simp [terminated, hgap]
    omega
  · intro hnil
    cases hnil

section Character

variable {c : UInt8} {rest junk : List UInt8} (hzero : c ≠ 0)
include hzero

theorem spaceParsed_cons (hspace : SpaceParsed rest junk) (harg : ArgParsed rest junk) :
    SpaceParsed (c :: rest) junk := by
  intro done gap argc fuel readchar writechar hfuel hread hwrite
  rw [List.length_cons] at hfuel
  obtain ⟨fuel, rfl⟩ := Nat.exists_eq_add_of_le' (show 2 ≤ fuel by omega)
  rw [List.cons_append, cliParseLoop_space (getElem?_behind hread) (fuel + 1) writechar argc]
  by_cases hc : c = 32
  · rw [if_pos hc, hc, List.words_cons_sep, List.append_cons (done ++ gap), List.append_assoc done]
    apply hspace done (gap ++ [32]) argc (fuel + 1) (readchar + 1) writechar (by omega) _ hwrite
    rw [List.length_append, List.length_singleton, hread, Nat.add_assoc]
  · obtain ⟨gap', hgap, hput⟩ := put_gap done gap c c (rest ++ 0 :: junk)
    have hlength : (done ++ gap ++ c :: (rest ++ 0 :: junk)).length =
        (done ++ [c] ++ gap' ++ (rest ++ 0 :: junk)).length := by
      simp [hgap]
      omega
    rw [if_neg hc, if_neg hzero,
      cliParseLoop_arg (getElem?_behind hread) fuel writechar argc, if_neg hc,
      if_neg hzero, hwrite, hput, Option.bind_some, hlength]
    apply harg done [c] gap' argc fuel
    · omega
    · simpa using Ne.symm hc
    · exact List.cons_ne_nil c []
    · simp [hread, hgap]
      omega
    · simp

theorem argParsed_cons (hspace : SpaceParsed rest junk) (harg : ArgParsed rest junk) :
    ArgParsed (c :: rest) junk := by
  intro done word gap argc fuel readchar writechar hfuel hsep hword hread hwrite
  rw [List.length_cons] at hfuel
  obtain ⟨fuel, rfl⟩ := Nat.exists_eq_add_of_lt (show 0 < fuel by omega)
  rw [List.cons_append, Nat.zero_add,
    cliParseLoop_arg (getElem?_behind hread) fuel writechar argc]
  by_cases hc : c = 32
  · obtain ⟨gap', hgap, hput⟩ := put_gap (done ++ word) gap c 0 (rest ++ 0 :: junk)
    have hlength : (done ++ word ++ gap ++ c :: (rest ++ 0 :: junk)).length =
        (done ++ word ++ [0] ++ gap' ++ (rest ++ 0 :: junk)).length := by
      simp [hgap]
      omega
    rw [if_pos hc, hwrite, hput, Option.bind_some, hlength, hc, List.words_append_sep hsep hword]
    apply Parsed.cons
    apply hspace (done ++ word ++ [0]) gap' (argc + 1) fuel
    · omega
    · simp [hread, hgap]
      omega
    · simp
      omega
  · obtain ⟨gap', hgap, hput⟩ := put_gap (done ++ word) gap c c (rest ++ 0 :: junk)
    have hlength : (done ++ word ++ gap ++ c :: (rest ++ 0 :: junk)).length =
        (done ++ (word ++ [c]) ++ gap' ++ (rest ++ 0 :: junk)).length := by
      simp [hgap]
      omega
    rw [if_neg hc, if_neg hzero, hwrite, hput, Option.bind_some, hlength,
      List.append_cons word c rest, List.append_assoc done word [c]]
    apply harg done (word ++ [c]) gap' argc fuel
    · omega
    · simpa [hsep] using Ne.symm hc
    · simp
    · simp [hread, hgap]
      omega
    · simp
      omega

end Character

theorem cliParseLoop_parsed (rest junk : List UInt8) (hrest : 0 ∉ rest) :
    SpaceParsed rest junk ∧ ArgParsed rest junk := by
  induction rest with
  | nil => exact ⟨spaceParsed_nil junk, argParsed_nil junk⟩
  | cons c rest ih =>
      rw [List.mem_cons, not_or] at hrest
      obtain ⟨hspace, harg⟩ := ih hrest.2
      have hzero := Ne.symm hrest.1
      exact ⟨spaceParsed_cons hzero hspace harg, argParsed_cons hzero hspace harg⟩

theorem cliArgvLoop_args {n : ℕ} {ws : List (List UInt8)} (hws : ∀ word ∈ ws, 0 ∉ word)
    (hn : n ≤ ws.length) (pre tail : List UInt8) (i off : ℕ) (argv : List (Option ℕ))
    (hoff : pre.length = off) (hi : i + n ≤ argv.length) :
    ∃ offs : List ℕ, offs.length = n ∧
      cliArgvLoop (pre ++ terminated ws ++ tail) n i off argv =
        some (argv.take i ++ offs.map some ++ argv.drop (i + n)) ∧
      offs.map (CStr.read (pre ++ terminated ws ++ tail)) = (ws.take n).map some ∧
      (0 < n → offs.head? = some off) := by
  induction n generalizing ws pre i off argv with
  | zero =>
      refine ⟨[], rfl, ?_, rfl, ?_⟩
      · simp [cliArgvLoop]
      · intro hlt
        exact absurd hlt (Nat.lt_irrefl 0)
  | succ n ih =>
      obtain ⟨word, ws, rfl⟩ := List.exists_cons_of_length_pos (show 0 < ws.length by omega)
      have hword := hws word List.mem_cons_self
      have hrest : ∀ word ∈ ws, 0 ∉ word := fun w hw ↦ hws w (List.mem_cons_of_mem word hw)
      have hbuffer : pre ++ terminated (word :: ws) ++ tail =
          pre ++ word ++ 0 :: (terminated ws ++ tail) := by
        simp [terminated_cons]
      have hnext : pre ++ terminated (word :: ws) ++ tail =
          (pre ++ word ++ [0]) ++ terminated ws ++ tail := by
        simp [terminated_cons]
      have hread : CStr.read (pre ++ terminated (word :: ws) ++ tail) off = some word := by
        rw [hbuffer]
        exact CStr.read_append pre hword _ hoff
      have hlt : i < argv.length := by omega
      rw [List.length_cons] at hn
      obtain ⟨offs, hlength, hloop, hargs, -⟩ := ih hrest (by omega) (pre ++ word ++ [0]) (i + 1)
        (off + word.length + 1) (argv.set i (some off)) (by simp [hoff]; omega)
        (by rw [List.length_set]; omega)
      refine ⟨off :: offs, by rw [List.length_cons, hlength], ?_, ?_, ?_⟩
      · have htake : (argv.set i (some off)).take (i + 1) = argv.take i ++ [some off] := by
          rw [List.take_add_one, List.take_set_of_le (Nat.le_refl i), List.getElem?_set_self hlt]
          rfl
        have hdrop : (argv.set i (some off)).drop (i + 1 + n) = argv.drop (i + (n + 1)) := by
          rw [List.drop_set_of_lt (by omega), Nat.add_assoc, Nat.add_comm 1]
        rw [cliArgvLoop, if_pos hlt, hread, Option.bind_eq_bind, Option.bind_some, hnext, hloop,
          htake, hdrop]
        simp
      · rw [List.map_cons, hread, hnext, hargs]
        rfl
      · intro _
        rfl

theorem cliParseBuffer_line {line : List UInt8} (hline : 0 ∉ line) (junk : List UInt8)
    {argv : List (Option ℕ)} (hargv : argv.length = cliArgvNum) :
    ∃ (buffer : List UInt8) (offs : List ℕ), cliParseBuffer (line ++ 0 :: junk) argv =
        some (buffer, offs.length, offs.map some ++ argv.drop offs.length) ∧
      offs.map (CStr.read buffer) = ((List.words 32 line).take cliArgvNum).map some ∧
      (List.words 32 line ≠ [] → offs.head? = some 0) ∧
      (List.words 32 line = [] → CStr.read buffer 0 = some []) := by
  have hparsed := (cliParseLoop_parsed line junk hline).1 [] [] 0
    (2 * (line ++ 0 :: junk).length) 0 0 (by simp; omega) rfl rfl
  obtain ⟨tail, hloop, -, hblank⟩ := hparsed
  simp only [List.nil_append, Nat.zero_add] at hloop hblank
  have hws : ∀ word ∈ List.words 32 line, 0 ∉ word :=
    fun word hword hzero ↦ hline (List.mem_of_mem_words hword hzero)
  obtain ⟨offs, hlength, hargs, hread, hhead⟩ := cliArgvLoop_args hws
    (Nat.min_le_left (List.words 32 line).length cliArgvNum) [] tail 0 0 argv rfl
    (show 0 + min (List.words 32 line).length cliArgvNum ≤ argv.length by omega)
  simp only [List.nil_append, Nat.zero_add, List.take_zero] at hargs hread
  refine ⟨terminated (List.words 32 line) ++ tail, offs, ?_, ?_, ?_, ?_⟩
  · rw [cliParseBuffer, hloop, Option.bind_eq_bind, Option.bind_some]
    simp only [hargs, Option.bind_some, hlength, Option.bind_eq_bind]
  · rw [hread]
    congr 1
    rw [List.take_eq_take_iff]
    omega
  · intro hne
    apply hhead
    exact Nat.lt_min.mpr ⟨List.length_pos_of_ne_nil hne, by decide⟩
  · intro hnil
    obtain ⟨rest, rfl⟩ := hblank hnil
    rw [hnil]
    exact CStr.read_zero List.not_mem_nil rest

theorem mapM_read {buffer : List UInt8} {offs : List ℕ} {ws : List (List UInt8)}
    (h : offs.map (CStr.read buffer) = ws.map some) :
    (offs.map some).mapM (fun arg ↦ arg.bind (CStr.read buffer)) = some ws := by
  induction offs generalizing ws with
  | nil =>
      rw [List.map_nil, eq_comm, List.map_eq_nil_iff] at h
      rw [h]
      rfl
  | cons off offs ih =>
      obtain ⟨word, ws, rfl⟩ : ∃ word ws', ws = word :: ws' := by
        cases ws with
        | nil => cases h
        | cons word ws => exact ⟨word, ws, rfl⟩
      rw [List.map_cons, List.map_cons, List.cons.injEq] at h
      rw [List.map_cons, List.mapM_cons, Option.bind_some, h.1, ih h.2]
      rfl

end TuyaOpen.Tal
