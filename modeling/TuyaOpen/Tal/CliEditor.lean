import TuyaOpen.Tal.CliParse

/-!
# A line with a cursor

What the command line is for, without a buffer: the text on both sides of the cursor, the lines
that were entered, and how far the user has gone back in them.  Keys are read off the bytes.
-/

namespace TuyaOpen.Tal

/-- The text before the cursor is kept with its last byte first, the saved lines with the newest
one first. -/
structure Editor where
  before : List UInt8
  after : List UInt8
  saved : List (List UInt8)
  back : ℕ

inductive Key where
  | char (c : UInt8)
  | enter
  | backspace
  | tab
  | up
  | down
  | left
  | right
deriving DecidableEq

namespace Editor

def empty : Editor := ⟨[], [], [], 0⟩

def line (e : Editor) : List UInt8 := e.before.reverse ++ e.after

def cursor (e : Editor) : ℕ := e.before.length

/-- The line replaced by another one, with the cursor at its end. -/
def replace (e : Editor) (text : List UInt8) (back : ℕ) : Editor :=
  { e with before := text.reverse, after := [], back := back }

def insert (e : Editor) (c : UInt8) : Editor :=
  if e.line.length < cliBufferSize then { e with before := c :: e.before } else e

def backspace (e : Editor) : Editor :=
  match e.before with
  | [] => e
  | _ :: before => { e with before := before }

def left (e : Editor) : Editor :=
  match e.before with
  | [] => e
  | c :: before => { e with before := before, after := c :: e.after }

def right (e : Editor) : Editor :=
  match e.after with
  | [] => e
  | c :: after => { e with before := c :: e.before, after := after }

def up (e : Editor) : Editor :=
  match e.saved[e.back]? with
  | none => e
  | some text => e.replace text (e.back + 1)

def down (e : Editor) : Editor :=
  if e.back ≤ 1 then e
  else
    match e.saved[e.back - 2]? with
    | none => e
    | some text => e.replace text (e.back - 1)

/-- A line that only one command begins with is completed. -/
def tab (cmds : List CliCmd) (e : Editor) : Editor :=
  if e.line = [] then e
  else
    match cmds.filter fun cmd ↦ e.line.isPrefixOf cmd.name with
    | [] => e.replace e.line e.back
    | [cmd] => e.replace cmd.name e.back
    | _ => e

/-- The lines kept behind a line that was entered. -/
def save (saved : List (List UInt8)) (text : List UInt8) : List (List UInt8) :=
  if saved.head? = some text then saved else (text :: saved).take cliHistoryNum

/-- The call of the command that the first word names. -/
def execute (cmds : List CliCmd) (text : List UInt8) : List CliCall :=
  match List.words 32 text with
  | [] => []
  | word :: words =>
      match cliCmdFindWithName cmds word with
      | none => []
      | some cmd => [⟨cmd.func, (word :: words).take cliArgvNum⟩]

end Editor

/-- The editor, key by key, with the commands that are called. -/
def editor (cmds : List CliCmd) : Mealy Editor Key (List CliCall) where
  step
    | e, .char c => (e.insert c, [])
    | e, .enter =>
        if e.line = [] then (e, [])
        else (⟨[], [], Editor.save e.saved e.line, 0⟩, Editor.execute cmds e.line)
    | e, .backspace => (e.backspace, [])
    | e, .tab => (e.tab cmds, [])
    | e, .up => (e.up, [])
    | e, .down => (e.down, [])
    | e, .left => (e.left, [])
    | e, .right => (e.right, [])

/-- The key of a byte that begins no escape sequence. -/
def plainKey (c : UInt8) : Option Key :=
  if c = 13 ∨ c = 10 then some .enter
  else if c = 8 ∨ c = 127 then some .backspace
  else if c = 9 then some .tab
  else if 32 ≤ c ∧ c < 127 then some (.char c)
  else none

/-- The key of `ESC [ c`. -/
def arrowKey (c : UInt8) : Option Key :=
  if c = 65 then some .up
  else if c = 66 then some .down
  else if c = 67 then some .right
  else if c = 68 then some .left
  else none

/-- The keys in a sequence of bytes.  An unknown escape sequence is no key. -/
@[grind =] def keysOf : List UInt8 → List Key
  | [] => []
  | c :: rest =>
      if c ≠ 0x1b then (plainKey c).toList ++ keysOf rest
      else
        match rest with
        | [] => []
        | tag :: rest =>
            if tag ≠ 0x5b then keysOf rest
            else
              match rest with
              | [] => []
              | arrow :: rest => (arrowKey arrow).toList ++ keysOf rest

example : keysOf [97, 0x1b, 0x5b, 68, 0x1b, 97, 0x1b, 0x5b, 51, 98, 13] =
    [.char 97, .left, .char 98, .enter] := by
  decide

/-- The keys that `cli_key_detect` finds from a state on. -/
def keysFrom : KeyState → List UInt8 → List Key
  | .checkKey, bytes => keysOf bytes
  | .checkFuncTag, bytes => keysOf (0x1b :: bytes)
  | .checkFuncKey, bytes => keysOf (0x1b :: 0x5b :: bytes)

/-- What a key of `cli_key_detect` means to the editor. -/
@[grind =] def CliKey.key : CliKey → Option Key
  | .null data => if 32 ≤ data ∧ data ≤ 127 then some (.char data) else none
  | .enter => some .enter
  | .backspace => some .backspace
  | .table => some .tab
  | .up => some .up
  | .down => some .down
  | .right => some .right
  | .letf => some .left

theorem keysOf_plain {c : UInt8} (hc : c ≠ 0x1b) (rest : List UInt8) :
    keysOf (c :: rest) = (plainKey c).toList ++ keysOf rest := by
  rw [keysOf.eq_def]
  exact if_pos hc

theorem keysOf_tag {tag : UInt8} (htag : tag ≠ 0x5b) (rest : List UInt8) :
    keysOf (0x1b :: tag :: rest) = keysOf rest := by
  rw [keysOf.eq_def]
  exact if_pos htag

theorem keysOf_arrow (arrow : UInt8) (rest : List UInt8) :
    keysOf (0x1b :: 0x5b :: arrow :: rest) = (arrowKey arrow).toList ++ keysOf rest := rfl

theorem cliKeyDetect_plain {ch : UInt8} (hesc : ch ≠ 0x1b) :
    (cliKeyDetect .checkKey ch).1 = .checkKey ∧
      (cliKeyDetect .checkKey ch).2.bind CliKey.key = plainKey ch := by
  simp only [cliKeyDetect, plainKey]
  by_cases henter : ch = 13 ∨ ch = 10
  · simp [henter, CliKey.key]
  by_cases hback : ch = 8 ∨ ch = 127
  · simp [henter, hback, CliKey.key]
  by_cases htab : ch = 9
  · simp [htab, CliKey.key]
  have hdel : ch ≤ 127 ↔ ch < 127 := by
    constructor
    · intro hle
      exact UInt8.lt_of_le_of_ne hle fun h ↦ hback (Or.inr h)
    · exact UInt8.le_of_lt
  simp [henter, hback, htab, hesc, CliKey.key, hdel]

theorem cliKeyDetect_arrow (ch : UInt8) :
    (cliKeyDetect .checkFuncKey ch).1 = .checkKey ∧
      (cliKeyDetect .checkFuncKey ch).2.bind CliKey.key = arrowKey ch := by
  simp only [cliKeyDetect, arrowKey]
  by_cases hup : ch = 65
  · simp [hup, CliKey.key]
  by_cases hdown : ch = 66
  · simp [hdown, CliKey.key]
  by_cases hright : ch = 67
  · simp [hright, CliKey.key]
  by_cases hleft : ch = 68
  · simp [hleft, CliKey.key]
  simp [hup, hdown, hright, hleft]

theorem keysFrom_cons (state : KeyState) (ch : UInt8) (rest : List UInt8) :
    keysFrom state (ch :: rest) =
      ((cliKeyDetect state ch).2.bind CliKey.key).toList ++
        keysFrom (cliKeyDetect state ch).1 rest := by
  cases state with
  | checkKey =>
      by_cases hesc : ch = 0x1b
      · rw [hesc]
        rfl
      · obtain ⟨hstate, hkey⟩ := cliKeyDetect_plain hesc
        rw [hstate, hkey]
        exact keysOf_plain hesc rest
  | checkFuncTag =>
      by_cases htag : ch = 0x5b
      · rw [htag]
        rfl
      · have hdetect : cliKeyDetect .checkFuncTag ch = (.checkKey, none) := if_neg htag
        rw [hdetect]
        exact keysOf_tag htag rest
  | checkFuncKey =>
      obtain ⟨hstate, hkey⟩ := cliKeyDetect_arrow ch
      rw [hstate, hkey]
      exact keysOf_arrow ch rest

end TuyaOpen.Tal
