import TuyaOpen.Lib.CStr
import TuyaOpen.Lib.Mealy
import TuyaOpen.Tal.SwTimer

/-!
# The command line

`tal_cli.c`: a thread reads bytes from a serial line, edits a line in a buffer, keeps the lines
that were entered in a ring, splits a line into words in place and calls the command that the
first word names.  An access outside of an array has no result.  What is printed is left out,
but for the parts of the buffer that are handed to the port.
-/

namespace TuyaOpen.Tal

def cliBufferSize : ℕ := 1000
def cliHistoryNum : ℕ := 8
def cliArgvNum : ℕ := 8

/-- `cli_cmd_t`, whose name fits the buffer.  The function is a number. -/
structure CliCmd where
  name : List UInt8
  func : ℕ
  name_le : name.length ≤ cliBufferSize
  zero_notMem : 0 ∉ name

/-- `cli_history_t`. -/
structure CliHistory where
  writeIndex : ℕ
  writeCount : ℕ
  readIndex : ℕ
  readCount : ℕ
  data : List (List UInt8)

/-- `cli_t`.  An argument points into the buffer, or is NULL. -/
structure Cli where
  index : ℕ
  insert : ℕ
  history : CliHistory
  argc : ℕ
  argv : List (Option ℕ)
  buffer : List UInt8

/-- The handle that `tal_cli_init` allocates. -/
def cliInit : Cli where
  index := 0
  insert := 0
  history := ⟨0, 0, 0, 0, List.replicate cliHistoryNum (List.replicate (cliBufferSize + 1) 0)⟩
  argc := 0
  argv := List.replicate cliArgvNum none
  buffer := List.replicate (cliBufferSize + 1) 0

/-- A call of a command: its function, and the strings in `argv[0]` to `argv[argc - 1]`. -/
structure CliCall where
  func : ℕ
  args : List (List UInt8)
deriving DecidableEq

/-- `cli_out_put` of a part of the buffer. -/
def cliOutPut (buffer : List UInt8) (off : ℕ) (len : ℤ) : Option Unit :=
  if 0 ≤ len ∧ off + len ≤ buffer.length then some () else none

/-- `cli_cmd_find_with_name`: the static tables first, then the dynamic ones. -/
def cliCmdFindWithName (cmds : List CliCmd) (name : List UInt8) : Option CliCmd :=
  cmds.find? fun cmd ↦ cmd.name = name

/-- `cli_table_key`. -/
def cliTableKey (cmds : List CliCmd) (cli : Cli) : Option Cli :=
  if cli.index = 0 then some cli
  else if cli.buffer.length < cli.index then none
  else do
    let cli ←
      match cmds.filter fun cmd ↦ CStr.strncmpEq cmd.name cli.buffer cli.index with
      | [] => some { cli with insert := cli.index }
      | [matchCmd] => do
          let buffer ← CStr.strcpy cli.buffer matchCmd.name
          let index := u16 (← CStr.read buffer 0).length
          some { cli with buffer := buffer, index := index, insert := index }
      | _ => some cli
    cliOutPut cli.buffer 0 cli.index
    some cli

/-- `cli_histroy_data_perv`, with the line that `*data` is set to if it returns true. -/
def cliHistroyDataPerv (history : CliHistory) : Option (CliHistory × Option (List UInt8)) :=
  if history.readCount = 0 then some (history, none)
  else
    let readIndex :=
      if history.readCount ≠ history.writeCount then
        u16Pred (if history.readIndex = 0 then cliHistoryNum else history.readIndex)
      else history.readIndex
    history.data[readIndex]?.map fun line ↦
      ({ history with readIndex := readIndex, readCount := u16Pred history.readCount }, some line)

/-- `cli_histroy_data_next`. -/
def cliHistroyDataNext (history : CliHistory) : Option (CliHistory × Option (List UInt8)) :=
  if history.writeCount ≤ history.readCount + 1 then some (history, none)
  else
    let readIndex :=
      if cliHistoryNum = u16 (history.readIndex + 1) then 0 else u16 (history.readIndex + 1)
    history.data[readIndex]?.map fun line ↦
      ({ history with readIndex := readIndex, readCount := u16 (history.readCount + 1) }, some line)

/-- The slot that `cli_histroy_data_save` writes. -/
def nextSlot (history : CliHistory) : ℕ :=
  if cliHistoryNum ≤ history.writeIndex then 0 else history.writeIndex

/-- The part of `cli_histroy_data_save` that stores the line. -/
def cliHistroyStore (cli : Cli) (history : CliHistory) : Option CliHistory := do
  let writeIndex := nextSlot history
  let writeCount :=
    if history.writeCount < cliHistoryNum then u16 (history.writeCount + 1)
    else history.writeCount
  let row ← history.data[writeIndex]?
  let row ← CStr.memcpy row cli.buffer (cli.index + 1)
  some {
    writeIndex := u16 (writeIndex + 1)
    writeCount := writeCount
    readIndex := writeIndex
    readCount := writeCount
    data := history.data.set writeIndex row }

/-- The reading side set to the newest line. -/
def rewind (history : CliHistory) : CliHistory :=
  { history with
    readCount := history.writeCount
    readIndex := u16Pred history.writeIndex }

/-- `cli_histroy_data_save`. -/
def cliHistroyDataSave (cli : Cli) : Option CliHistory := do
  let (history, line) ← cliHistroyDataPerv (rewind cli.history)
  match line with
  | none => cliHistroyStore cli history
  | some line => do
      let saved ← CStr.read line 0
      let entered ← CStr.read cli.buffer 0
      if entered = saved then some (rewind history) else cliHistroyStore cli history

inductive ParseState where
  | space
  | arg
deriving DecidableEq

/-- The loop of `cli_parse_buffer` over the characters. -/
def cliParseLoop : ℕ → ParseState → ℕ → ℕ → ℕ → List UInt8 → Option (ℕ × List UInt8)
  | 0, _, _, _, _, _ => none
  | fuel + 1, .space, readchar, writechar, argc, buffer => do
      let c ← buffer[readchar]?
      if c = 32 then cliParseLoop fuel .space (readchar + 1) writechar argc buffer
      else if c = 0 then
        let buffer ← CStr.put buffer writechar 0
        some (argc, buffer)
      else cliParseLoop fuel .arg readchar writechar argc buffer
  | fuel + 1, .arg, readchar, writechar, argc, buffer => do
      let c ← buffer[readchar]?
      if c = 32 then
        let buffer ← CStr.put buffer writechar 0
        cliParseLoop fuel .space (readchar + 1) (writechar + 1) (argc + 1) buffer
      else if c = 0 then
        let buffer ← CStr.put buffer writechar 0
        some (argc + 1, buffer)
      else
        let buffer ← CStr.put buffer writechar c
        cliParseLoop fuel .arg (readchar + 1) (writechar + 1) argc buffer

/-- The loop of `cli_parse_buffer` over the arguments, from the argument `i` on. -/
def cliArgvLoop (buffer : List UInt8) :
    ℕ → ℕ → ℕ → List (Option ℕ) → Option (List (Option ℕ))
  | 0, _, _, argv => some argv
  | n + 1, i, off, argv =>
      if i < argv.length then do
        let arg ← CStr.read buffer off
        cliArgvLoop buffer n (i + 1) (off + arg.length + 1) (argv.set i (some off))
      else none

/-- `cli_parse_buffer`; each character is looked at twice at the most. -/
def cliParseBuffer (buffer : List UInt8) (argv : List (Option ℕ)) :
    Option (List UInt8 × ℕ × List (Option ℕ)) := do
  let (argc, buffer) ← cliParseLoop (2 * buffer.length) .space 0 0 0 buffer
  let argc := min argc cliArgvNum
  let argv ← cliArgvLoop buffer argc 0 0 argv
  some (buffer, argc, argv)

/-- `cli_cmd_exec`. -/
def cliCmdExec (cmds : List CliCmd) (buffer : List UInt8) (argc : ℕ) (argv : List (Option ℕ)) :
    Option (List CliCall) :=
  match argv[0]? with
  | none => none
  | some none => some []
  | some (some off) => do
      let name ← CStr.read buffer off
      match cliCmdFindWithName cmds name with
      | none => some []
      | some cmd => do
          let args ← (argv.take argc).mapM fun arg ↦ arg.bind (CStr.read buffer)
          some [⟨cmd.func, args⟩]

/-- `cli_enter_key`. -/
def cliEnterKey (cmds : List CliCmd) (cli : Cli) : Option (Cli × List CliCall) :=
  if cli.index = 0 then some (cli, [])
  else do
    let buffer ← CStr.put cli.buffer cli.index 0
    let history ← cliHistroyDataSave { cli with buffer := buffer }
    let (buffer, argc, argv) ← cliParseBuffer buffer cli.argv
    let calls ← cliCmdExec cmds buffer argc argv
    let buffer := List.replicate (cliBufferSize + 1) 0
    some (⟨0, 0, history, argc, argv, buffer⟩, calls)

/-- `cli_backspace_key`. -/
def cliBackspaceKey (cli : Cli) : Option Cli :=
  if cli.index = 0 then some cli
  else
    let index := u16Pred cli.index
    let insert := u16Pred cli.insert
    if cli.insert < cli.index then do
      let buffer ← CStr.memmove cli.buffer insert (insert + 1) ((index : ℤ) - insert)
      let buffer ← CStr.put buffer index 0
      cliOutPut buffer insert ((index : ℤ) - insert)
      some { cli with index := index, insert := insert, buffer := buffer }
    else do
      let buffer ← CStr.put cli.buffer insert 0
      some { cli with index := index, insert := insert, buffer := buffer }

/-- What `cli_up_key` and `cli_down_key` do with a line of the history. -/
def cliShowLine (cli : Cli) (history : CliHistory) (line : Option (List UInt8)) : Option Cli :=
  match line with
  | none => some { cli with history := history }
  | some line => do
      let saved ← CStr.read line 0
      let buffer ← CStr.strcpy cli.buffer saved
      let index := u16 (← CStr.read buffer 0).length
      let buffer ← CStr.put buffer index 0
      some { cli with index := index, insert := index, history := history, buffer := buffer }

/-- `cli_up_key`. -/
def cliUpKey (cli : Cli) : Option Cli := do
  let (history, line) ← cliHistroyDataPerv cli.history
  cliShowLine cli history line

/-- `cli_down_key`. -/
def cliDownKey (cli : Cli) : Option Cli := do
  let (history, line) ← cliHistroyDataNext cli.history
  cliShowLine cli history line

/-- `cli_letf_key`. -/
def cliLetfKey (cli : Cli) : Cli :=
  if cli.insert ≠ 0 then { cli with insert := u16Pred cli.insert } else cli

/-- `cli_right_key`. -/
def cliRightKey (cli : Cli) : Option Cli :=
  if cli.insert < cli.index then
    cli.buffer[cli.insert]?.map fun _ ↦ { cli with insert := u16 (cli.insert + 1) }
  else some cli

/-- `cli_key_t`, with the byte that comes with `CLI_NULL_KEY`. -/
inductive CliKey where
  | null (data : UInt8)
  | enter
  | backspace
  | table
  | up
  | down
  | right
  | letf
deriving DecidableEq

/-- The state of `cli_key_detect`. -/
inductive KeyState where
  | checkKey
  | checkFuncTag
  | checkFuncKey
deriving DecidableEq

/-- One byte in the loop of `cli_key_detect`, which begins anew after each key. -/
def cliKeyDetect (state : KeyState) (ch : UInt8) : KeyState × Option CliKey :=
  match state with
  | .checkKey =>
      if ch = 13 ∨ ch = 10 then (.checkKey, some .enter)
      else if ch = 8 ∨ ch = 127 then (.checkKey, some .backspace)
      else if ch = 9 then (.checkKey, some .table)
      else if ch = 0x1b then (.checkFuncTag, none)
      else (.checkKey, some (.null ch))
  | .checkFuncTag => if ch = 0x5b then (.checkFuncKey, none) else (.checkKey, none)
  | .checkFuncKey =>
      if ch = 65 then (.checkKey, some .up)
      else if ch = 66 then (.checkKey, some .down)
      else if ch = 68 then (.checkKey, some .letf)
      else if ch = 67 then (.checkKey, some .right)
      else (.checkKey, none)

/-- What the loop of `cli_task` does with a byte that is no key. -/
def cliData (cli : Cli) (data : UInt8) : Option Cli :=
  if ¬ (32 ≤ data ∧ data ≤ 127) then some cli
  else if cliBufferSize - 1 < cli.index then some cli
  else if cli.insert ≠ cli.index then do
    let buffer ← CStr.memmove cli.buffer (cli.insert + 1) cli.insert
      ((cli.index : ℤ) - cli.insert)
    let buffer ← CStr.put buffer cli.insert data
    let index := u16 (cli.index + 1)
    cliOutPut buffer cli.insert ((index : ℤ) - cli.insert)
    some { cli with index := index, insert := u16 (cli.insert + 1), buffer := buffer }
  else do
    let buffer ← CStr.put cli.buffer cli.index data
    let index := u16 (cli.index + 1)
    some { cli with index := index, insert := index, buffer := buffer }

/-- `cli_key_app`, and the rest of the loop of `cli_task`. -/
def cliKeyApp (cmds : List CliCmd) (cli : Cli) (key : CliKey) : Option (Cli × List CliCall) :=
  match key with
  | .null data => (cliData cli data).map fun cli ↦ (cli, [])
  | .table => (cliTableKey cmds cli).map fun cli ↦ (cli, [])
  | .enter => cliEnterKey cmds cli
  | .backspace => (cliBackspaceKey cli).map fun cli ↦ (cli, [])
  | .up => (cliUpKey cli).map fun cli ↦ (cli, [])
  | .down => (cliDownKey cli).map fun cli ↦ (cli, [])
  | .letf => some (cliLetfKey cli, [])
  | .right => (cliRightKey cli).map fun cli ↦ (cli, [])

/-- `cli_task`, byte by byte, with the commands that were called.  There is no state behind an
access outside of an array. -/
def cliTask (cmds : List CliCmd) : Mealy (Option (Cli × KeyState)) UInt8 (List CliCall) where
  step
    | none, _ => (none, [])
    | some (cli, state), ch =>
        match cliKeyDetect state ch with
        | (state, none) => (some (cli, state), [])
        | (state, some key) =>
            match cliKeyApp cmds cli key with
            | none => (none, [])
            | some (cli, calls) => (some (cli, state), calls)

end TuyaOpen.Tal
