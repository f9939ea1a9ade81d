import TuyaOpen.Tal.CliHistory

/-!
# The command line as an editor

Every key does to the buffer what it does to the line with a cursor, but for two: backspace at the
start of a line that is not empty, and enter on a line of spaces when a command without a name can
be found through the argument that an earlier line left.
-/

namespace TuyaOpen.Tal

/-- The buffer begins with the line, and the positions are those of its end and of the cursor. -/
structure CliRel (cli : Cli) (e : Editor) : Prop where
  buffer : ∃ junk, cli.buffer = e.line ++ junk
  length : cli.buffer.length = cliBufferSize + 1
  index : cli.index = e.line.length
  insert : cli.insert = e.cursor
  line : LineOk e.line
  history : HistoryRel cli.history e.saved e.back
  argv : cli.argv.length = cliArgvNum
  first : cli.argv[0]? = some none ∨ cli.argv[0]? = some (some 0)

/-- What an enter needs of the state: a line of spaces finds no command through an old
argument. -/
def EnterGuard (cmds : List CliCmd) (cli : Cli) : Prop :=
  (∀ c ∈ cli.buffer.take cli.index, c = 32) →
    cli.index = 0 ∨ cli.argv[0]? = some none ∨ ∀ cmd ∈ cmds, cmd.name ≠ []

instance (cmds : List CliCmd) (cli : Cli) : Decidable (EnterGuard cmds cli) :=
  inferInstanceAs (Decidable (_ → _))

namespace CliRel

variable {cli : Cli} {e : Editor}

theorem initial : CliRel cliInit Editor.empty where
  buffer := ⟨_, rfl⟩
  length := by simp [cliInit]
  index := rfl
  insert := rfl
  line := ⟨Nat.zero_le _, List.not_mem_nil⟩
  history := HistoryRel.initial
  argv := by simp [cliInit]
  first := Or.inl rfl

theorem insert_le (h : CliRel cli e) : cli.insert ≤ cli.index := by
  rw [h.insert, h.index, Editor.cursor, Editor.line, List.length_append, List.length_reverse]
  exact Nat.le_add_right _ _

theorem index_le (h : CliRel cli e) : cli.index ≤ cliBufferSize := by
  rw [h.index]
  exact h.line.1

theorem take_buffer (h : CliRel cli e) : cli.buffer.take cli.index = e.line := by
  obtain ⟨junk, hbuffer⟩ := h.buffer
  rw [hbuffer, h.index, List.take_left]

theorem exists_behind (h : CliRel cli e) : ∃ j junk, cli.buffer = e.line ++ j :: junk := by
  obtain ⟨junk, hbuffer⟩ := h.buffer
  have hlength := congrArg List.length hbuffer
  rw [h.length, List.length_append] at hlength
  have hle := h.line.1
  obtain ⟨j, junk, rfl⟩ := List.exists_cons_of_length_pos (show 0 < junk.length by omega)
  exact ⟨j, junk, hbuffer⟩

theorem index_eq_zero_iff (h : CliRel cli e) : cli.index = 0 ↔ e.line = [] := by
  rw [h.index]
  exact List.length_eq_zero_iff

theorem edit (h : CliRel cli e) {e' : Editor} {buffer : List UInt8} {index insert : ℕ}
    {history : CliHistory} (junk : List UInt8) (hbuffer : buffer = e'.line ++ junk)
    (hlength : buffer.length = cliBufferSize + 1) (hindex : index = e'.line.length)
    (hinsert : insert = e'.cursor) (hline : LineOk e'.line)
    (hhistory : HistoryRel history e'.saved e'.back) :
    CliRel { cli with index := index, insert := insert, history := history, buffer := buffer }
      e' :=
  ⟨⟨junk, hbuffer⟩, hlength, hindex, hinsert, hline, hhistory, h.argv, h.first⟩

theorem length_line (e : Editor) : e.line.length = e.before.length + e.after.length := by
  rw [Editor.line, List.length_append, List.length_reverse]

theorem u16_of_le {n : ℕ} (hn : n ≤ cliBufferSize) : u16 n = n := by
  rw [cliBufferSize] at hn
  exact Nat.mod_eq_of_lt (by omega)

theorem u16Pred_succ {n : ℕ} (hn : n + 1 ≤ cliBufferSize) : u16Pred (n + 1) = n := by
  rw [cliBufferSize] at hn
  rw [u16Pred]
  omega

theorem cliOutPut_of_le (buffer : List UInt8) {off last : ℕ} (hoff : off ≤ last)
    (hlast : last ≤ buffer.length) : cliOutPut buffer off ((last : ℤ) - off) = some () := by
  apply if_pos
  omega

theorem inserted (h : CliRel cli e) {c : UInt8} (hc : 32 ≤ c)
    (hroom : e.line.length < cliBufferSize)
    {junk : List UInt8} (hlength : e.line.length + (junk.length + 1) = cliBufferSize + 1) :
    CliRel { cli with
      index := e.line.length + 1
      insert := e.before.length + 1
      buffer := e.before.reverse ++ c :: (e.after ++ junk) }
        { e with before := c :: e.before } := by
  have hline := length_line e
  have hnewline : Editor.line { e with before := c :: e.before } =
      e.before.reverse ++ c :: e.after := by
    simp [Editor.line]
  apply h.edit junk
  · simp [hnewline]
  · simp
    omega
  · simp [hnewline]
    omega
  · rfl
  · have hold := h.line.2
    have hzero : c ≠ 0 := by
      rintro rfl
      exact absurd hc (by decide)
    rw [hnewline]
    constructor
    · simp
      omega
    · rw [Editor.line, List.mem_append, not_or] at hold
      simp [Ne.symm hzero, hold.2, List.mem_reverse.not.mp hold.1]
  · exact h.history

theorem data (h : CliRel cli e) {c : UInt8} (hc : 32 ≤ c ∧ c ≤ 127) :
    ∃ cli', cliData cli c = some cli' ∧ CliRel cli' (e.insert c) := by
  have hline := length_line e
  have hindex := h.index
  have hinsert : cli.insert = e.before.length := h.insert
  by_cases hfull : cliBufferSize - 1 < cli.index
  · have hkept : e.insert c = e := by
      apply if_neg
      rw [cliBufferSize] at *
      omega
    rw [hkept, cliData, if_neg (not_not_intro hc), if_pos hfull]
    exact ⟨cli, rfl, h⟩
  have hroom : e.line.length < cliBufferSize := by
    rw [cliBufferSize] at *
    omega
  obtain ⟨j, junk, hbuffer⟩ := h.exists_behind
  have hlength := congrArg List.length hbuffer
  rw [h.length, List.length_append, List.length_cons] at hlength
  -- both branches of the source leave the same buffer and positions
  have hnew := h.inserted hc.1 hroom hlength.symm
  rw [Editor.insert, if_pos hroom, cliData, if_neg (not_not_intro hc), if_neg hfull]
  by_cases hafter : e.after = []
  · have hend : cli.insert = cli.index := by
      rw [hinsert, hindex, hline, hafter]
      rfl
    have hput : CStr.put cli.buffer cli.index c =
        some (e.before.reverse ++ c :: (e.after ++ junk)) := by
      rw [hbuffer, Editor.line, hafter, List.append_nil]
      apply CStr.put_append
      rw [List.length_reverse, ← hinsert, hend]
    have hsame : e.line.length = e.before.length := by
      rw [hline, hafter]
      rfl
    refine ⟨_, ?_, hnew⟩
    rw [if_neg (not_not_intro hend), hput, Option.bind_eq_bind, Option.bind_some, hindex,
      u16_of_le hroom, hsame]
  · have hpos := List.length_pos_of_ne_nil hafter
    have hreverse : e.before.reverse.length = cli.insert := by
      rw [List.length_reverse, hinsert]
    have hcount : (cli.index : ℤ) - cli.insert = e.after.length := by omega
    obtain ⟨gap, hmove⟩ := CStr.memmove_up e.before.reverse e.after junk j
    rw [← Editor.line, ← hbuffer, hreverse] at hmove
    have hsucc : u16 (cli.index + 1) = e.line.length + 1 := by
      rw [hindex]
      exact u16_of_le hroom
    have hsuccInsert : u16 (cli.insert + 1) = e.before.length + 1 := by
      rw [hinsert]
      exact u16_of_le (by omega)
    have hout := cliOutPut_of_le (e.before.reverse ++ c :: (e.after ++ junk))
      (show cli.insert ≤ e.line.length + 1 by omega) (by simp; omega)
    refine ⟨_, ?_, hnew⟩
    rw [if_pos (by omega), hcount, hmove]
    simp only [Option.bind_eq_bind, Option.bind_some, CStr.put_append gap c hreverse, hsucc,
      hsuccInsert, hout]

theorem removed (h : CliRel cli e) {c : UInt8} {before : List UInt8}
    (hbefore : e.before = c :: before)
    {tail : List UInt8} (hlength : e.line.length + tail.length = cliBufferSize + 1) :
    CliRel { cli with
      index := before.length + e.after.length
      insert := before.length
      buffer := before.reverse ++ e.after ++ 0 :: tail } { e with before := before } := by
  have hline := length_line e
  have hnewline : Editor.line { e with before := before } = before.reverse ++ e.after := rfl
  have hle := h.line.1
  rw [hbefore, List.length_cons] at hline
  apply h.edit (0 :: tail)
  · rfl
  · simp
    omega
  · simp [hnewline]
  · rfl
  · have hold := h.line.2
    rw [Editor.line, hbefore, List.reverse_cons, List.append_assoc] at hold
    rw [hnewline]
    constructor
    · simp
      omega
    · intro hmem
      apply hold
      rcases List.mem_append.mp hmem with hmem | hmem
      · exact List.mem_append_left _ hmem
      · exact List.mem_append_right _ (List.mem_cons_of_mem c hmem)
  · exact h.history

theorem backspace (h : CliRel cli e) (hguard : ¬ (cli.insert = 0 ∧ 0 < cli.index)) :
    ∃ cli', cliBackspaceKey cli = some cli' ∧ CliRel cli' e.backspace := by
  have hline := length_line e
  have hindex := h.index
  have hinsert : cli.insert = e.before.length := h.insert
  have hle := h.index_le
  rw [cliBackspaceKey]
  by_cases hzero : cli.index = 0
  · have hnil : e.before = [] := List.length_eq_zero_iff.mp (by omega)
    rw [if_pos hzero, Editor.backspace, hnil]
    exact ⟨cli, rfl, h⟩
  rw [if_neg hzero]
  obtain ⟨c, before, hbefore⟩ := List.exists_cons_of_length_pos (show 0 < e.before.length by omega)
  obtain ⟨j, junk, hbuffer⟩ := h.exists_behind
  have hlength := congrArg List.length hbuffer
  have hsplit : e.line = before.reverse ++ c :: e.after := by simp [Editor.line, hbefore]
  rw [h.length, List.length_append, List.length_cons] at hlength
  have hnew := h.removed hbefore (show e.line.length + (j :: junk).length = _ from hlength.symm)
  rw [hbefore, List.length_cons] at hinsert hline
  have hpred : u16Pred cli.index = before.length + e.after.length := by
    rw [show cli.index = before.length + e.after.length + 1 by omega]
    exact u16Pred_succ (by omega)
  have hpredInsert : u16Pred cli.insert = before.length := by
    rw [hinsert]
    exact u16Pred_succ (by omega)
  rw [Editor.backspace, hbefore]
  simp only [hpred, hpredInsert]
  have hreverse : before.reverse.length = before.length := List.length_reverse
  by_cases hmiddle : cli.insert < cli.index
  · obtain ⟨last, hmove⟩ := CStr.memmove_down before.reverse e.after (j :: junk) c
    rw [← hsplit, ← hbuffer, hreverse] at hmove
    have hcount : ((before.length + e.after.length : ℕ) : ℤ) - before.length = e.after.length := by
      omega
    have hput : CStr.put (before.reverse ++ e.after ++ last :: j :: junk)
        (before.length + e.after.length) 0 =
          some (before.reverse ++ e.after ++ 0 :: j :: junk) := by
      apply CStr.put_append
      simp
    have hout := cliOutPut_of_le (before.reverse ++ e.after ++ 0 :: j :: junk)
      (Nat.le_add_right before.length e.after.length) (by simp)
    refine ⟨_, ?_, hnew⟩
    rw [if_pos hmiddle, hcount, hmove]
    rw [hcount] at hout
    simp only [Option.bind_eq_bind, Option.bind_some, hput, hout]
  · have hafter : e.after = [] := List.length_eq_zero_iff.mp (by omega)
    have hput : CStr.put cli.buffer before.length 0 =
        some (before.reverse ++ e.after ++ 0 :: j :: junk) := by
      rw [hbuffer, hsplit, hafter, List.append_nil, List.append_assoc]
      exact CStr.put_append c 0 hreverse
    refine ⟨_, ?_, hnew⟩
    rw [if_neg hmiddle, hput]
    rfl

theorem move (h : CliRel cli e) {before after : List UInt8}
    (hline : before.reverse ++ after = e.line) {insert : ℕ} (hinsert : insert = before.length) :
    CliRel { cli with insert := insert } { e with before := before, after := after } := by
  obtain ⟨junk, hbuffer⟩ := h.buffer
  have hnew : Editor.line { e with before := before, after := after } = e.line := hline
  apply h.edit junk
  · rw [hnew]
    exact hbuffer
  · exact h.length
  · rw [hnew]
    exact h.index
  · exact hinsert
  · rw [hnew]
    exact h.line
  · exact h.history

theorem left (h : CliRel cli e) : CliRel (cliLetfKey cli) e.left := by
  have hinsert : cli.insert = e.before.length := h.insert
  have hle : cli.insert ≤ cliBufferSize := Nat.le_trans h.insert_le h.index_le
  rw [cliLetfKey, Editor.left]
  cases hbefore : e.before with
  | nil =>
      rw [hbefore, List.length_nil] at hinsert
      rw [if_neg (not_not_intro hinsert)]
      exact h
  | cons c before =>
      rw [hbefore, List.length_cons] at hinsert
      rw [if_pos (by omega)]
      apply h.move
      · simp [Editor.line, hbefore]
      · rw [hinsert]
        exact u16Pred_succ (by omega)

theorem right (h : CliRel cli e) : ∃ cli', cliRightKey cli = some cli' ∧ CliRel cli' e.right := by
  have hinsert : cli.insert = e.before.length := h.insert
  have hindex := h.index
  have hline := length_line e
  have hle := h.index_le
  rw [cliRightKey, Editor.right]
  cases hafter : e.after with
  | nil =>
      rw [hafter, List.length_nil] at hline
      rw [if_neg (by omega)]
      exact ⟨cli, rfl, h⟩
  | cons c after =>
      rw [hafter, List.length_cons] at hline
      have hlength := h.length
      have hlt : cli.insert < cli.buffer.length := by omega
      rw [if_pos (by omega), List.getElem?_eq_getElem hlt]
      refine ⟨_, rfl, ?_⟩
      apply h.move
      · simp [Editor.line, hafter]
      · rw [hinsert]
        exact u16_of_le (by omega)

theorem copied (h : CliRel cli e) {history : CliHistory} {back : ℕ} {text : List UInt8}
    (hhistory : HistoryRel history e.saved back) (htext : LineOk text) :
    ∃ buffer junk, CStr.strcpy cli.buffer text = some buffer ∧ buffer = text ++ 0 :: junk ∧
      CStr.read buffer 0 = some text ∧
      CliRel { cli with
        index := text.length, insert := text.length, history := history, buffer := buffer }
        (e.replace text back) := by
  have hlength := h.length
  have hfits := htext.1
  have hline : (e.replace text back).line = text := by simp [Editor.replace, Editor.line]
  refine ⟨_, _, CStr.strcpy_append (by omega), rfl, CStr.read_zero htext.2 _, ?_⟩
  apply h.edit (0 :: cli.buffer.drop (text.length + 1))
  · rw [hline]
  · rw [List.length_append, List.length_cons, List.length_drop]
    omega
  · rw [hline]
  · rw [Editor.cursor, Editor.replace, List.length_reverse]
  · rw [hline]
    exact htext
  · exact hhistory

theorem shown (h : CliRel cli e) {history : CliHistory} {back : ℕ} {text tail : List UInt8}
    (hhistory : HistoryRel history e.saved back) (htext : LineOk text) :
    ∃ cli', cliShowLine cli history (some (text ++ 0 :: tail)) = some cli' ∧
      CliRel cli' (e.replace text back) := by
  obtain ⟨buffer, junk, hcopy, hbuffer, hread, hrel⟩ := h.copied hhistory htext
  have hput : CStr.put buffer text.length 0 = some buffer := by
    rw [hbuffer]
    exact CStr.put_append 0 0 rfl
  refine ⟨_, ?_, hrel⟩
  rw [cliShowLine, CStr.read_zero htext.2]
  simp only [Option.bind_eq_bind, Option.bind_some, hcopy, hread, u16_of_le htext.1, hput]

theorem up (h : CliRel cli e) : ∃ cli', cliUpKey cli = some cli' ∧ CliRel cli' e.up := by
  obtain ⟨hnone, hsome⟩ := h.history.perv
  rw [Editor.up, cliUpKey]
  cases hline : e.saved[e.back]? with
  | none =>
      rw [hnone hline]
      exact ⟨_, rfl, h⟩
  | some text =>
      obtain ⟨history, tail, hperv, hrel⟩ := hsome text hline
      rw [hperv]
      exact h.shown hrel (h.history.text text (List.mem_of_getElem? hline))

theorem down (h : CliRel cli e) : ∃ cli', cliDownKey cli = some cli' ∧ CliRel cli' e.down := by
  obtain ⟨hnewest, holder⟩ := h.history.next
  rw [Editor.down, cliDownKey]
  by_cases hback : e.back ≤ 1
  · rw [if_pos hback, hnewest hback]
    exact ⟨_, rfl, h⟩
  · obtain ⟨text, history, tail, hline, hnext, hrel⟩ := holder (Nat.lt_of_not_le hback)
    rw [if_neg hback, hline, hnext]
    exact h.shown hrel (h.history.text text (List.mem_of_getElem? hline))

theorem tab (h : CliRel cli e) (cmds : List CliCmd) :
    ∃ cli', cliTableKey cmds cli = some cli' ∧ CliRel cli' (e.tab cmds) := by
  have hlength := h.length
  have hle := h.index_le
  obtain ⟨junk, hbuffer⟩ := h.buffer
  have hmatch : ∀ cmd : CliCmd,
      CStr.strncmpEq cmd.name cli.buffer cli.index = e.line.isPrefixOf cmd.name := by
    intro cmd
    rw [Bool.eq_iff_iff, List.isPrefixOf_iff_prefix, hbuffer, h.index]
    exact CStr.strncmpEq_iff h.line.2
  rw [cliTableKey, Editor.tab]
  by_cases hzero : cli.index = 0
  · rw [if_pos hzero, if_pos (h.index_eq_zero_iff.mp hzero)]
    exact ⟨cli, rfl, h⟩
  rw [if_neg hzero, if_neg (h.index_eq_zero_iff.not.mp hzero), if_neg (by omega)]
  simp only [hmatch]
  have hout (buffer : List UInt8) (index : ℕ) (hindex : index ≤ buffer.length) :
      cliOutPut buffer 0 index = some () := if_pos ⟨by omega, by omega⟩
  generalize cmds.filter (fun cmd ↦ e.line.isPrefixOf cmd.name) = found
  rcases found with _ | ⟨cmd, _ | ⟨cmd', found⟩⟩
  · refine ⟨{ cli with insert := cli.index }, ?_, ?_⟩
    · simp only [Option.bind_eq_bind, Option.bind_some, hout cli.buffer cli.index (by omega)]
    · apply h.move
      · simp
      · rw [h.index, List.length_reverse]
  · have hfits := cmd.name_le
    obtain ⟨buffer, junk, hcopy, hbuffer', hread, hrel⟩ :=
      h.copied h.history ⟨cmd.name_le, cmd.zero_notMem⟩
    refine ⟨_, ?_, hrel⟩
    have hname : cmd.name.length ≤ buffer.length := by
      rw [hbuffer', List.length_append]
      exact Nat.le_add_right _ _
    simp only [Option.bind_eq_bind, Option.bind_some, hcopy, hread, u16_of_le hfits,
      hout buffer cmd.name.length hname]
  · refine ⟨cli, ?_, h⟩
    simp only [Option.bind_eq_bind, Option.bind_some, hout cli.buffer cli.index (by omega)]

theorem exec (h : CliRel cli e) {cmds : List CliCmd} (hguard : EnterGuard cmds cli)
    (hline : e.line ≠ []) {buffer : List UInt8} {offs : List ℕ}
    (hread : offs.map (CStr.read buffer) = ((List.words 32 e.line).take cliArgvNum).map some)
    (hhead : List.words 32 e.line ≠ [] → offs.head? = some 0)
    (hblank : List.words 32 e.line = [] → CStr.read buffer 0 = some []) :
    cliCmdExec cmds buffer offs.length (offs.map some ++ cli.argv.drop offs.length) =
      some (Editor.execute cmds e.line) := by
  rw [Editor.execute]
  cases hwords : List.words 32 e.line with
  | nil =>
      rw [hwords, List.take_nil, List.map_nil, List.map_eq_nil_iff] at hread
      rw [hread, List.map_nil, List.nil_append, List.length_nil, List.drop_zero]
      rcases h.first with hnull | hold
      · rw [cliCmdExec, hnull]
      · have hspaces : ∀ c ∈ cli.buffer.take cli.index, c = 32 := by
          rw [h.take_buffer]
          exact List.words_eq_nil_iff.mp hwords
        have hnames : ∀ cmd ∈ cmds, cmd.name ≠ [] := by
          rcases hguard hspaces with hzero | hnull | hnames
          · exact absurd (h.index_eq_zero_iff.mp hzero) hline
          · rw [hold] at hnull
            cases hnull
          · exact hnames
        have hfind : cliCmdFindWithName cmds [] = none := by
          apply List.find?_eq_none.mpr
          intro cmd hcmd
          simpa using hnames cmd hcmd
        rw [cliCmdExec, hold]
        simp only [hblank hwords, Option.bind_eq_bind, Option.bind_some, hfind]
  | cons word words =>
      have hzero := hhead (hwords ▸ List.cons_ne_nil word words)
      obtain ⟨offs, rfl⟩ := List.head?_eq_some_iff.mp hzero
      have hargs := mapM_read hread
      have hfirst : CStr.read buffer 0 = some word := by
        rw [hwords] at hread
        exact (List.cons.inj hread).1
      have htake : ((0 :: offs).map some ++ cli.argv.drop (0 :: offs).length).take
          (0 :: offs).length = (0 :: offs).map some :=
        List.take_left' (List.length_map _)
      rw [hwords] at hargs
      rw [cliCmdExec, htake]
      simp only [List.map_cons, List.cons_append, List.getElem?_cons_zero, Option.bind_eq_bind,
        hfirst, Option.bind_some]
      cases cliCmdFindWithName cmds word with
      | none => rfl
      | some cmd =>
          rw [List.map_cons] at hargs
          simp only [hargs, Option.bind_some]

theorem enter (h : CliRel cli e) {cmds : List CliCmd} (hguard : EnterGuard cmds cli) :
    ∃ cli', cliEnterKey cmds cli = some (cli', ((editor cmds).step e .enter).2) ∧
      CliRel cli' ((editor cmds).step e .enter).1 := by
  rw [cliEnterKey]
  by_cases hzero : cli.index = 0
  · have hstep : (editor cmds).step e .enter = (e, []) := if_pos (h.index_eq_zero_iff.mp hzero)
    rw [if_pos hzero, hstep]
    exact ⟨cli, rfl, h⟩
  have hline := h.index_eq_zero_iff.not.mp hzero
  have hstep : (editor cmds).step e .enter =
      (⟨[], [], Editor.save e.saved e.line, 0⟩, Editor.execute cmds e.line) := if_neg hline
  obtain ⟨j, junk, hbuffer⟩ := h.exists_behind
  have hput : CStr.put cli.buffer cli.index 0 = some (e.line ++ 0 :: junk) := by
    rw [hbuffer]
    exact CStr.put_append j 0 h.index.symm
  obtain ⟨history, hsave, hhistory⟩ := cliHistroyDataSave_saves
    { cli with buffer := e.line ++ 0 :: junk } h.history h.line rfl h.index
  obtain ⟨buffer, offs, hparse, hread, hhead, hblank⟩ :=
    cliParseBuffer_line h.line.2 junk h.argv
  have hexec := h.exec hguard hline hread hhead hblank
  rw [if_neg hzero, hstep]
  refine ⟨⟨0, 0, history, offs.length, offs.map some ++ cli.argv.drop offs.length,
    List.replicate (cliBufferSize + 1) 0⟩, ?_, ?_⟩
  · simp only [Option.bind_eq_bind, Option.bind_some, hput, hsave, hparse, hexec]
  have hcount : offs.length ≤ cliArgvNum := by
    have hlength := congrArg List.length hread
    rw [List.length_map, List.length_map] at hlength
    rw [hlength]
    exact List.length_take_le _ _
  refine ⟨⟨_, rfl⟩, List.length_replicate, rfl, rfl, ⟨Nat.zero_le _, List.not_mem_nil⟩,
    hhistory, ?_, ?_⟩
  · have hargv := h.argv
    rw [List.length_append, List.length_map, List.length_drop]
    omega
  · cases offs with
    | nil => exact h.first
    | cons off offs =>
        have hne : List.words 32 e.line ≠ [] := by
          intro hnil
          rw [hnil] at hread
          cases hread
        have hfirst := hhead hne
        rw [List.head?_cons, Option.some.injEq] at hfirst
        rw [hfirst]
        exact Or.inr rfl

end CliRel

/-- What a byte needs of the state: backspace has a byte before the cursor, or an empty line. -/
def CliGuard (cmds : List CliCmd) : Option (Cli × KeyState) → UInt8 → Prop
  | none, _ => True
  | some (cli, state), ch =>
      ((cliKeyDetect state ch).2 = some .backspace → ¬ (cli.insert = 0 ∧ 0 < cli.index)) ∧
        ((cliKeyDetect state ch).2 = some .enter → EnterGuard cmds cli)

instance (cmds : List CliCmd) : (state : Option (Cli × KeyState)) → (ch : UInt8) →
    Decidable (CliGuard cmds state ch)
  | none, _ => isTrue trivial
  | some _, _ => inferInstanceAs (Decidable (_ ∧ _))

namespace CliRel

variable {cli : Cli} {e : Editor} {cmds : List CliCmd}

theorem mapped {result : Option Cli} {e' : Editor}
    (h : ∃ cli', result = some cli' ∧ CliRel cli' e') :
    ∃ cli', result.map (fun cli ↦ (cli, ([] : List CliCall))) = some (cli', []) ∧
      CliRel cli' e' := by
  obtain ⟨cli', rfl, hrel⟩ := h
  exact ⟨cli', rfl, hrel⟩

theorem cliData_unprintable {c : UInt8} (hc : ¬ (32 ≤ c ∧ c ≤ 127)) :
    cliData cli c = some cli :=
  if_pos hc

theorem keyApp (h : CliRel cli e) {key : CliKey}
    (hback : key = .backspace → ¬ (cli.insert = 0 ∧ 0 < cli.index))
    (henter : key = .enter → EnterGuard cmds cli) :
    ∃ cli' calls, cliKeyApp cmds cli key = some (cli', calls) ∧
      calls = ((editor cmds).outputs e key.key.toList).flatten ∧
      CliRel cli' ((editor cmds).final e key.key.toList) := by
  cases key with
  | null c =>
      by_cases hc : 32 ≤ c ∧ c ≤ 127
      · obtain ⟨cli', happ, hrel⟩ := mapped (h.data hc)
        rw [CliKey.key, if_pos hc]
        exact ⟨cli', [], happ, rfl, hrel⟩
      · rw [CliKey.key, if_neg hc, cliKeyApp, cliData_unprintable hc]
        exact ⟨cli, [], rfl, rfl, h⟩
  | enter =>
      obtain ⟨cli', happ, hrel⟩ := h.enter (henter rfl)
      refine ⟨cli', _, happ, ?_, hrel⟩
      exact (List.append_nil _).symm
  | backspace =>
      obtain ⟨cli', happ, hrel⟩ := mapped (h.backspace (hback rfl))
      exact ⟨cli', [], happ, rfl, hrel⟩
  | table =>
      obtain ⟨cli', happ, hrel⟩ := mapped (h.tab cmds)
      exact ⟨cli', [], happ, rfl, hrel⟩
  | up =>
      obtain ⟨cli', happ, hrel⟩ := mapped h.up
      exact ⟨cli', [], happ, rfl, hrel⟩
  | down =>
      obtain ⟨cli', happ, hrel⟩ := mapped h.down
      exact ⟨cli', [], happ, rfl, hrel⟩
  | right =>
      obtain ⟨cli', happ, hrel⟩ := mapped h.right
      exact ⟨cli', [], happ, rfl, hrel⟩
  | letf => exact ⟨cliLetfKey cli, [], rfl, rfl, h.left⟩

theorem step (h : CliRel cli e) {state : KeyState} {ch : UInt8}
    (hguard : CliGuard cmds (some (cli, state)) ch) :
    ∃ cli' calls, (cliTask cmds).step (some (cli, state)) ch =
        (some (cli', (cliKeyDetect state ch).1), calls) ∧
      calls = ((editor cmds).outputs e
        ((cliKeyDetect state ch).2.bind CliKey.key).toList).flatten ∧
      CliRel cli' ((editor cmds).final e ((cliKeyDetect state ch).2.bind CliKey.key).toList) := by
  simp only [cliTask, CliGuard] at hguard ⊢
  generalize cliKeyDetect state ch = detected at hguard ⊢
  obtain ⟨state', key⟩ := detected
  cases key with
  | none => exact ⟨cli, [], rfl, rfl, h⟩
  | some key =>
      simp only [Option.some.injEq] at hguard
      obtain ⟨cli', calls, happ, hcalls, hrel⟩ := h.keyApp hguard.1 hguard.2
      refine ⟨cli', calls, ?_, hcalls, hrel⟩
      simp only [happ]

theorem run (h : CliRel cli e) {state : KeyState} {bytes : List UInt8}
    (hguard : (cliTask cmds).Guarded (CliGuard cmds) (some (cli, state)) bytes) :
    ∃ cli' state', (cliTask cmds).final (some (cli, state)) bytes = some (cli', state') ∧
      ((cliTask cmds).outputs (some (cli, state)) bytes).flatten =
        ((editor cmds).outputs e (keysFrom state bytes)).flatten ∧
      CliRel cli' ((editor cmds).final e (keysFrom state bytes)) := by
  induction bytes generalizing cli e state with
  | nil =>
      have hkeys : keysFrom state [] = [] := by cases state <;> rfl
      rw [hkeys]
      exact ⟨cli, state, rfl, rfl, h⟩
  | cons ch rest ih =>
      obtain ⟨hfirst, hrest⟩ := hguard
      obtain ⟨cli₁, calls, hstep, hcalls, hrel₁⟩ := h.step hfirst
      rw [hstep] at hrest
      obtain ⟨cli', state', hfinal, houtputs, hrel⟩ := ih hrel₁ hrest
      rw [keysFrom_cons, Mealy.final_cons, Mealy.outputs_cons, Mealy.final_append,
        Mealy.outputs_append, hstep, List.flatten_cons, List.flatten_append, houtputs, hcalls]
      exact ⟨cli', state', hfinal, rfl, hrel⟩

end CliRel

/-- While no backspace is pressed at the start of a line that is not empty, and no line of spaces
finds a command without a name, every access lies inside its array, and the buffer, the cursor
and the commands that are called are those of the editor. -/
theorem cli_refines_editor (cmds : List CliCmd) (bytes : List UInt8)
    (hguard : (cliTask cmds).Guarded (CliGuard cmds) (some (cliInit, .checkKey)) bytes) :
    ∃ cli state, (cliTask cmds).final (some (cliInit, .checkKey)) bytes = some (cli, state) ∧
      cli.insert ≤ cli.index ∧ cli.index ≤ cliBufferSize ∧
      cli.buffer.take cli.index = ((editor cmds).final Editor.empty (keysOf bytes)).line ∧
      cli.insert = ((editor cmds).final Editor.empty (keysOf bytes)).cursor ∧
      ((cliTask cmds).outputs (some (cliInit, .checkKey)) bytes).flatten =
        ((editor cmds).outputs Editor.empty (keysOf bytes)).flatten := by
  obtain ⟨cli, state, hfinal, houtputs, hrel⟩ := CliRel.initial.run hguard
  refine ⟨cli, state, hfinal, ?_, ?_, ?_, ?_, ?_⟩
  · exact hrel.insert_le
  · exact hrel.index_le
  · exact hrel.take_buffer
  · exact hrel.insert
  · exact houtputs

/-- Two letters in the wrong order, put right, and entered. -/
theorem cli_refines_editor_put_right :
    (cliTask []).Guarded (CliGuard []) (some (cliInit, .checkKey))
        [97, 0x1b, 0x5b, 68, 98, 8, 99, 13, 0x1b, 0x5b, 65] ∧
      ∃ cli state, (cliTask []).final (some (cliInit, .checkKey))
          [97, 0x1b, 0x5b, 68, 98, 8, 99, 13, 0x1b, 0x5b, 65] = some (cli, state) ∧
        cli.buffer.take cli.index = [99, 97] := by
  have hguard : (cliTask []).Guarded (CliGuard []) (some (cliInit, .checkKey))
      [97, 0x1b, 0x5b, 68, 98, 8, 99, 13, 0x1b, 0x5b, 65] := by
    decide +kernel
  obtain ⟨cli, state, hfinal, -, -, hbuffer, -, -⟩ := cli_refines_editor _ _ hguard
  exact ⟨hguard, cli, state, hfinal, hbuffer⟩

/-- `ls`, a command without a name. -/
def cliListing : List CliCmd :=
  [⟨[108, 115], 1, by decide, by decide⟩, ⟨[], 2, by decide, by decide⟩]

/-- Backspace in front of a letter moves memory outside of the buffer, where the editor keeps the
letter; a space and enter after `ls` call the command without a name. -/
theorem cli_not_refines_editor :
    ((cliTask []).final (some (cliInit, .checkKey)) [97, 0x1b, 0x5b, 68, 8]).isNone ∧
      ((editor []).final Editor.empty (keysOf [97, 0x1b, 0x5b, 68, 8])).line = [97] ∧
      ((cliTask cliListing).outputs (some (cliInit, .checkKey)) [108, 115, 13, 32, 13]).flatten =
        [⟨1, [[108, 115]]⟩, ⟨2, []⟩] ∧
      ((editor cliListing).outputs Editor.empty (keysOf [108, 115, 13, 32, 13])).flatten =
        [⟨1, [[108, 115]]⟩] := by
  decide +kernel

end TuyaOpen.Tal
