import Mathlib.Algebra.Group.Nat.Defs
import SKernel.Native.StringOps

/-!
# The shell

Model of `common/shell.c`: the key loop of `shell_thread_entry`, the command history and the
execution of commands. An access outside an array is `none`. The characters come from a list, so
the device and the rounds of the loop in which it has none are left out, and so is `echo_mode`,
which nothing reads. The command functions do not use the shell.
-/

namespace SKernel.Native

/-- `SHELL_CMD_HISTORY_LINE`. -/
def shellCmdHistoryLine : Nat := 5

/-- `SHELL_CMD_SIZE`. -/
def shellCmdSize : Nat := 80

/-- `SHELL_PROMPT`. -/
def shellPrompt : String := "shell:> "

/-- What `sk_kprintf` is called with: a text of the source, a string or a character. -/
inductive ShellOut where
  | text (s : String)
  | str (s : List UInt8)
  | char (c : UInt8)
  deriving DecidableEq

/-- `struct shell_syscall`: the name with its terminating byte, and the function. The description is
    not read. -/
structure ShellSyscall where
  name : List UInt8
  func : Nat
  terminated : 0 ∈ name

/-- `enum input_stat`. -/
inductive InputStat where
  | waitNormal
  | waitSpecKey
  | waitFuncKey
  deriving DecidableEq

/-- `struct shell_cmd`, with what was printed and the functions that were called. The 16-bit
    counters stay within the arrays, or the run ends at an access outside of one. -/
structure ShellCmd where
  stat : InputStat
  currentHistory : Nat
  historyCount : Nat
  cmdHistory : List (List UInt8)
  line : List UInt8
  linePosition : Nat
  lineCurpos : Nat
  printed : List ShellOut
  called : List Nat

/-- The cleared structure of `shell_system_init`, after the first prompt. -/
def shellSystemInit : ShellCmd where
  stat := .waitNormal
  currentHistory := 0
  historyCount := 0
  cmdHistory := List.replicate shellCmdHistoryLine (List.replicate shellCmdSize 0)
  line := List.replicate (shellCmdSize + 1) 0
  linePosition := 0
  lineCurpos := 0
  printed := [.text shellPrompt]
  called := []

/-- `sk_kprintf`. -/
def ShellCmd.kprintf (shell : ShellCmd) (out : List ShellOut) : ShellCmd :=
  { shell with printed := shell.printed ++ out }

/-- `shell_handle_history`. -/
def shellHandleHistory (shell : ShellCmd) : Option ShellCmd := do
  let text ← stringChars shell.line
  some (shell.kprintf [.text "\x1b[2K\r", .text shellPrompt, .str text])

/-- The loop of `shell_auto_complete` over the commands: those whose name begins with the text. -/
def autoCompleteLoop (pre : List UInt8) : List ShellSyscall → Option (List ShellOut)
  | [] => some []
  | index :: rest => do
    let len ← skStrlen pre
    let ret ← skStrncmp pre index.name len
    let out ← autoCompleteLoop pre rest
    if ret = 0 then do
      let cmdName ← stringChars index.name
      some (.str cmdName :: .text "\n" :: out)
    else some out

/-- `shell_auto_complete`, on the line of the shell. -/
def shellAutoComplete (table : List ShellSyscall) (shell : ShellCmd) : Option ShellCmd := do
  let out ← autoCompleteLoop shell.line table
  let text ← stringChars shell.line
  some (shell.kprintf (.text "\n" :: out ++ [.text shellPrompt, .str text]))

/-- One round of the loop of `shell_push_history` that moves the rows. -/
def moveRow (rows : List (List UInt8)) (i : Nat) : Option (List (List UInt8)) := do
  let dst ← rows[i]?
  let src ← rows[i + 1]?
  let row ← skMemcpyArray dst src shellCmdSize
  some (rows.set i row)

/-- `shell_push_history`, a row is cleared and the line copied to it. -/
def storeRow (shell : ShellCmd) (rows : List (List UInt8)) (i : Nat) :
    Option (List (List UInt8)) := do
  let _ ← rows[i]?
  let row ← skMemcpyArray (List.replicate shellCmdSize 0) shell.line shell.linePosition
  some (rows.set i row)

/-- `shell_push_history`, the condition under which a line gets a row of its own. -/
def lineIsNew (shell : ShellCmd) : Option Bool :=
  if shell.historyCount = 0 then some true
  else do
    let last ← shell.cmdHistory[shell.historyCount - 1]?
    let ret ← skMemcmp last shell.line shellCmdSize
    some (decide (ret ≠ 0))

/-- `shell_push_history`, when the line is not empty. -/
def pushLine (shell : ShellCmd) : Option ShellCmd :=
  if shell.historyCount ≥ shellCmdHistoryLine then do
    let last ← shell.cmdHistory[shellCmdHistoryLine - 1]?
    let ret ← skMemcmp last shell.line shellCmdSize
    if ret ≠ 0 then do
      let rows ← (List.range (shellCmdHistoryLine - 1)).foldlM moveRow shell.cmdHistory
      let rows ← storeRow shell rows (shellCmdHistoryLine - 1)
      some { shell with cmdHistory := rows, historyCount := shellCmdHistoryLine }
    else some shell
  else do
    if ← lineIsNew shell then do
      let rows ← storeRow shell shell.cmdHistory shell.historyCount
      some { shell with cmdHistory := rows, historyCount := shell.historyCount + 1 }
    else some shell

/-- `shell_push_history`. -/
def shellPushHistory (shell : ShellCmd) : Option ShellCmd := do
  let shell ← if shell.linePosition ≠ 0 then pushLine shell else some shell
  some { shell with currentHistory := shell.historyCount }

/-- The first loop of `shell_exec`: the command and its length without the leading blanks. -/
def skipBlanks : List UInt8 → Nat → Option (List UInt8 × Nat)
  | cmd, 0 => some (cmd, 0)
  | [], _ + 1 => none
  | c :: cmd, len + 1 =>
    if c = 0x20 ∨ c = 0x09 then skipBlanks cmd len else some (c :: cmd, len + 1)

/-- The second loop of `shell_exec`: the first command that `sk_strncmp` finds equal. -/
def findCommand (cmd : List UInt8) (len : Nat) : List ShellSyscall → Option (Option ShellSyscall)
  | [] => some none
  | index :: rest => do
    let ret ← skStrncmp index.name cmd len
    if ret = 0 then some (some index) else findCommand cmd len rest

/-- `shell_exec`, with its return value, of type `sk_uint8_t`. -/
def shellExec (table : List ShellSyscall) (cmd : List UInt8) (len : Nat) (shell : ShellCmd) :
    Option (UInt8 × ShellCmd) := do
  let (cmd, len) ← skipBlanks cmd len
  if len = 0 then some (0, shell)
  else
    match ← findCommand cmd len table with
    | some index => some (0, { shell with called := shell.called ++ [index.func] })
    | none => do
      let text ← stringChars cmd
      some (255, shell.kprintf [.str text, .text ": command not found.\n"])

/-- `shell_thread_entry`, a row of the history is copied to the line. -/
def recallLine (shell : ShellCmd) : Option ShellCmd := do
  let row ← shell.cmdHistory[shell.currentHistory]?
  let line ← skMemcpyArray shell.line row shellCmdSize
  let len ← skStrlen line
  shellHandleHistory { shell with line := line, linePosition := len, lineCurpos := len }

/-- `shell_thread_entry`, the up key. -/
def shellUpKey (shell : ShellCmd) : Option ShellCmd :=
  if shell.currentHistory > 0 then
    recallLine { shell with currentHistory := shell.currentHistory - 1 }
  else some { shell with currentHistory := 0 }

/-- `shell_thread_entry`, the down key. `history_count - 1` is computed as an `int`. -/
def shellDownKey (shell : ShellCmd) : Option ShellCmd :=
  if (shell.currentHistory : Int) < (shell.historyCount : Int) - 1 then
    recallLine { shell with currentHistory := shell.currentHistory + 1 }
  else if shell.historyCount ≠ 0 then
    recallLine { shell with currentHistory := shell.historyCount - 1 }
  else some shell

/-- `shell_thread_entry`, the left key. -/
def shellLeftKey (shell : ShellCmd) : Option ShellCmd :=
  if shell.lineCurpos ≠ 0 then
    some { shell.kprintf [.text "\x08"] with lineCurpos := shell.lineCurpos - 1 }
  else some shell

/-- `shell_thread_entry`, the right key. -/
def shellRightKey (shell : ShellCmd) : Option ShellCmd :=
  if shell.lineCurpos < shell.linePosition then do
    let c ← shell.line[shell.lineCurpos]?
    some { shell.kprintf [.char c] with lineCurpos := shell.lineCurpos + 1 }
  else some shell

/-- `shell_thread_entry`, the tab key. -/
def shellTabKey (table : List ShellSyscall) (shell : ShellCmd) : Option ShellCmd := do
  let shell := shell.kprintf (List.replicate shell.lineCurpos (.text "\x08"))
  let shell ← shellAutoComplete table shell
  let len ← skStrlen shell.line
  some { shell with linePosition := len, lineCurpos := len }

/-- `line[i] = c`. -/
def ShellCmd.setLine (shell : ShellCmd) (i : Nat) (c : UInt8) : Option ShellCmd :=
  if i < shell.line.length then some { shell with line := shell.line.set i c } else none

/-- `shell_thread_entry`, the backspace key. `line_position` has 16 bits. -/
def shellBackspaceKey (shell : ShellCmd) : Option ShellCmd :=
  if shell.lineCurpos = 0 then some shell
  else
    { shell.kprintf [.text "\x08 \x08"] with
      linePosition := (shell.linePosition + (2 ^ 16 - 1)) % 2 ^ 16
      lineCurpos := shell.lineCurpos - 1 }.setLine
        ((shell.linePosition + (2 ^ 16 - 1)) % 2 ^ 16) 0

/-- `shell_thread_entry`, the end of a line. -/
def shellEndOfLine (table : List ShellSyscall) (ch : UInt8) (shell : ShellCmd) :
    Option ShellCmd := do
  let shell ← shellPushHistory shell
  let shell := shell.kprintf [.text "\n"]
  let shell ←
    if ch ≠ 0x03 then (shellExec table shell.line shell.linePosition shell).map Prod.snd
    else some shell
  some { shell.kprintf [.text shellPrompt] with
    line := List.replicate (shellCmdSize + 1) 0, linePosition := 0, lineCurpos := 0 }

/-- `shell_thread_entry`, a normal character. -/
def shellNormalChar (ch : UInt8) (shell : ShellCmd) : Option ShellCmd := do
  let shell ← shell.setLine shell.linePosition ch
  some { shell.kprintf [.char ch] with
    lineCurpos := shell.lineCurpos + 1, linePosition := shell.linePosition + 1 }

/-- The part of the loop of `shell_thread_entry` behind the control keys. -/
def shellChar (table : List ShellSyscall) (ch : UInt8) (shell : ShellCmd) : Option ShellCmd :=
  if ch = 0x00 ∨ ch = 0xff then some shell
  else if ch = 0x09 then shellTabKey table shell
  else if ch = 0x7f ∨ ch = 0x08 then shellBackspaceKey shell
  else if ch = 0x0d ∨ ch = 0x0a ∨ ch = 0x03 then shellEndOfLine table ch shell
  else shellNormalChar ch shell

/-- One round of the loop of `shell_thread_entry`, with a character. -/
def shellRound (table : List ShellSyscall) (shell : ShellCmd) (ch : UInt8) : Option ShellCmd :=
  if ch = 0x1b then some { shell with stat := .waitSpecKey }
  else
    match shell.stat with
    | .waitNormal => shellChar table ch shell
    | .waitSpecKey =>
      if ch = 0x5b then some { shell with stat := .waitFuncKey }
      else shellChar table ch { shell with stat := .waitNormal }
    | .waitFuncKey =>
      let shell := { shell with stat := .waitNormal }
      if ch = 0x41 then shellUpKey shell
      else if ch = 0x42 then shellDownKey shell
      else if ch = 0x44 then shellLeftKey shell
      else if ch = 0x43 then shellRightKey shell
      else shellChar table ch shell

/-- `shell_thread_entry`, from the first prompt on, with the characters it reads. -/
def shellThreadEntry (table : List ShellSyscall) (chars : List UInt8) : Option ShellCmd :=
  chars.foldlM (shellRound table) shellSystemInit

end SKernel.Native
