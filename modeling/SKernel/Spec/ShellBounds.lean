import Mathlib.Data.List.DropRight
import SKernel.Native.Shell
import SKernel.Spec.StringOps

/-!
# The line and the history of the shell

What the shell is for is a line editor with a history: a text, a cursor in it, and the texts that
were submitted. As long as no line grows beyond `SHELL_CMD_SIZE` characters, the structure
`shell_cmd` holds the state of such an editor after every character, and the loop stays inside its
arrays. Nothing checks the length of the line: the character behind the last one that fits leaves
no room for the end of the string, and the one behind it is written outside of the array.
-/

namespace SKernel.Spec

open SKernel.Native List Option

/-! ## The keys -/

/-- What a character is to the shell. -/
inductive Key where
  | ignored
  | up
  | down
  | left
  | right
  | tab
  | backspace
  | endOfLine
  | char
  deriving DecidableEq

/-- A character that is not part of a control key. -/
def plainKey (ch : UInt8) : Key :=
  if ch = 0x00 ∨ ch = 0xff then .ignored
  else if ch = 0x09 then .tab
  else if ch = 0x7f ∨ ch = 0x08 then .backspace
  else if ch = 0x0d ∨ ch = 0x0a ∨ ch = 0x03 then .endOfLine
  else .char

/-- The characters of a control key are told apart by the ones before them. -/
def decodeKey (stat : InputStat) (ch : UInt8) : InputStat × Key :=
  if ch = 0x1b then (.waitSpecKey, .ignored)
  else
    match stat with
    | .waitNormal => (.waitNormal, plainKey ch)
    | .waitSpecKey => if ch = 0x5b then (.waitFuncKey, .ignored) else (.waitNormal, plainKey ch)
    | .waitFuncKey =>
      (.waitNormal,
        if ch = 0x41 then .up
        else if ch = 0x42 then .down
        else if ch = 0x44 then .left
        else if ch = 0x43 then .right
        else plainKey ch)

/-- What the loop does on a key. -/
def onKey (table : List ShellSyscall) (ch : UInt8) (shell : ShellCmd) : Key → Option ShellCmd
  | .ignored => some shell
  | .up => shellUpKey shell
  | .down => shellDownKey shell
  | .left => shellLeftKey shell
  | .right => shellRightKey shell
  | .tab => shellTabKey table shell
  | .backspace => shellBackspaceKey shell
  | .endOfLine => shellEndOfLine table ch shell
  | .char => shellNormalChar ch shell

private theorem shellChar_eq (table : List ShellSyscall) (ch : UInt8) (shell : ShellCmd) :
    shellChar table ch shell = onKey table ch shell (plainKey ch) := by
  rw [shellChar, plainKey]
  split
  · rfl
  split
  · rfl
  split
  · rfl
  split
  · rfl
  · rfl

theorem shellRound_eq (table : List ShellSyscall) (ch : UInt8) (shell : ShellCmd) :
    shellRound table shell ch =
      onKey table ch { shell with stat := (decodeKey shell.stat ch).1 }
        (decodeKey shell.stat ch).2 := by
  obtain ⟨stat, _, _, _, _, _, _, _, _⟩ := shell
  simp only [shellRound, decodeKey]
  split
  · rfl
  cases stat with
  | waitNormal => exact shellChar_eq table ch _
  | waitSpecKey =>
    dsimp only
    split
    · rfl
    · exact shellChar_eq table ch _
  | waitFuncKey =>
    dsimp only
    split
    · rfl
    split
    · rfl
    split
    · rfl
    split
    · rfl
    · exact shellChar_eq table ch _

theorem ne_zero_of_char {stat : InputStat} (h : (decodeKey stat ch).2 = .char) :
    ch ≠ 0 := by
  rintro rfl
  cases stat <;> cases h

/-! ## The editor -/

/-- A text that fits into a line of the shell. -/
def LineText := { t : List UInt8 // t.length ≤ shellCmdSize ∧ 0 ∉ t }
  deriving DecidableEq

namespace LineText

/-- The empty text. -/
def empty : LineText := ⟨[], Nat.zero_le _, not_mem_nil⟩

/-- The text without its last character. -/
def dropLast (t : LineText) : LineText :=
  ⟨t.1.dropLast, by rw [length_dropLast]; exact (Nat.sub_le _ _).trans t.2.1,
    fun h => t.2.2 (dropLast_subset _ h)⟩

/-- The text with one more character. -/
def concat (t : LineText) (ch : UInt8) (hlen : t.1.length < shellCmdSize) (hch : ch ≠ 0) :
    LineText :=
  ⟨t.1 ++ [ch], by rw [length_append]; exact hlen, by simpa using ⟨t.2.2, Ne.symm hch⟩⟩

end LineText

/-- The history after a submit: the last `SHELL_CMD_HISTORY_LINE` texts, without empty and repeated
    ones. -/
def pushText (history : List LineText) (t : LineText) : List LineText :=
  if t.1 = [] ∨ history.getLast? = some t then history
  else (history ++ [t]).rtake shellCmdHistoryLine

variable {history : List LineText} {ch : UInt8} {t : LineText} {i : Nat} {rows : List (List UInt8)}

private theorem length_pushText_le (h : history.length ≤ shellCmdHistoryLine) (t : LineText) :
    (pushText history t).length ≤ shellCmdHistoryLine := by
  rw [pushText]
  split
  · exact h
  · rw [List.rtake, length_drop]
    omega

theorem pushText_of_same (h : history.getLast? = some t) :
    pushText history t = history :=
  if_pos (.inr h)

theorem pushText_of_new (ht : t.1 ≠ []) (h : history.getLast? ≠ some t) :
    pushText history t = (history ++ [t]).rtake shellCmdHistoryLine :=
  if_neg (not_or.mpr ⟨ht, h⟩)

/-- A line editor with a history, oldest text first. `current` is the place that the up and the down
    key move. -/
structure Editor where
  stat : InputStat
  text : LineText
  cursor : Nat
  history : List LineText
  current : Nat
  cursor_le : cursor ≤ text.1.length
  history_le : history.length ≤ shellCmdHistoryLine
  current_le : current ≤ history.length

namespace Editor

/-- The editor at the start. -/
def init : Editor where
  stat := .waitNormal
  text := .empty
  cursor := 0
  history := []
  current := 0
  cursor_le := Nat.zero_le _
  history_le := Nat.zero_le _
  current_le := Nat.zero_le _

/-- A text of the history becomes the line. -/
def recallText (e : Editor) (i : Nat) (hi : i < e.history.length) : Editor :=
  { e with
    text := e.history[i]
    cursor := e.history[i].1.length
    current := i
    cursor_le := le_rfl
    current_le := hi.le }

/-- The line is submitted. -/
def submit (e : Editor) : Editor :=
  { e with
    text := .empty
    cursor := 0
    history := pushText e.history e.text
    current := (pushText e.history e.text).length
    cursor_le := Nat.zero_le _
    history_le := length_pushText_le e.history_le _
    current_le := le_rfl }

/-- The editor on a key. There is none after a character for which the line has no room. -/
def onKey (ch : UInt8) (e : Editor) : Key → Option Editor
  | .ignored => some e
  | .up =>
    if h : 0 < e.current then
      some (e.recallText (e.current - 1) (Nat.lt_of_lt_of_le (Nat.sub_one_lt_of_lt h) e.current_le))
    else some e
  | .down =>
    if h : 0 < e.history.length then
      some (e.recallText (min (e.current + 1) (e.history.length - 1))
        (Nat.lt_of_le_of_lt (Nat.min_le_right _ _) (Nat.sub_one_lt_of_lt h)))
    else some e
  | .left =>
    some { e with cursor := e.cursor - 1, cursor_le := (Nat.sub_le _ _).trans e.cursor_le }
  | .right =>
    some { e with
      cursor := min (e.cursor + 1) e.text.1.length, cursor_le := Nat.min_le_right _ _ }
  | .tab => some { e with cursor := e.text.1.length, cursor_le := le_rfl }
  | .backspace =>
    if e.cursor = 0 then some e
    else
      some { e with
        text := e.text.dropLast
        cursor := e.cursor - 1
        cursor_le := by
          rw [LineText.dropLast, length_dropLast]
          exact Nat.sub_le_sub_right e.cursor_le 1 }
  | .endOfLine => some e.submit
  | .char =>
    if h : e.text.1.length < shellCmdSize ∧ ch ≠ 0 then
      some { e with
        text := e.text.concat ch h.1 h.2
        cursor := e.cursor + 1
        cursor_le := by
          rw [LineText.concat, length_append]
          exact Nat.succ_le_succ e.cursor_le }
    else none

/-- The editor after a character. -/
def round (e : Editor) (ch : UInt8) : Option Editor :=
  onKey ch { e with stat := (decodeKey e.stat ch).1 } (decodeKey e.stat ch).2

end Editor

/-! ## The shell holds the state of the editor -/

/-- The row of the history, or the front of the line, that holds a text. -/
def rowOf (t : LineText) : List UInt8 :=
  t.1.rightpad shellCmdSize 0

/-- The structure holds the state of an editor. -/
structure Holds (shell : ShellCmd) (e : Editor) : Prop where
  stat : shell.stat = e.stat
  line : shell.line = e.text.1.rightpad (shellCmdSize + 1) 0
  position : shell.linePosition = e.text.1.length
  curpos : shell.lineCurpos = e.cursor
  rows_length : shell.cmdHistory.length = shellCmdHistoryLine
  rows : shell.cmdHistory.take e.history.length = e.history.map rowOf
  count : shell.historyCount = e.history.length
  current : shell.currentHistory = e.current

private theorem length_rowOf (t : LineText) : (rowOf t).length = shellCmdSize :=
  length_rightpad_of_le t.2.1

private theorem rowOf_inj {u : LineText} : rowOf t = rowOf u ↔ t = u :=
  (rightpad_inj t.2.2 u.2.2).trans Subtype.ext_iff.symm

private theorem rowOf_concat (t : LineText) : rowOf t ++ [0] = t.1.rightpad (shellCmdSize + 1) 0 :=
  rightpad_concat t.2.1

theorem holds_init : Holds shellSystemInit .init where
  stat := rfl
  line := rfl
  position := rfl
  curpos := rfl
  rows_length := rfl
  rows := rfl
  count := rfl
  current := rfl

namespace Holds

variable {shell : ShellCmd} {e : Editor}

variable (h : Holds shell e)
include h

private theorem output (printed : List ShellOut) (called : List Nat) :
    Holds { shell with printed := printed, called := called } e :=
  ⟨h.stat, h.line, h.position, h.curpos, h.rows_length, h.rows, h.count, h.current⟩

private theorem length_line : shell.line.length = shellCmdSize + 1 := by
  rw [h.line]
  exact length_rightpad_of_le (Nat.le_succ_of_le e.text.2.1)

theorem take_line : shell.line.take shell.linePosition = e.text.1 := by
  rw [h.line, h.position, List.rightpad, take_left]

private theorem skStrlen_line : skStrlen shell.line = some e.text.1.length := by
  rw [h.line]
  exact skStrlen_rightpad e.text.2.2 (Nat.lt_succ_of_le e.text.2.1)

private theorem stringChars_line : stringChars shell.line = some e.text.1 := by
  rw [h.line]
  exact stringChars_rightpad e.text.2.2 (Nat.lt_succ_of_le e.text.2.1)

private theorem getElem?_row (hi : i < e.history.length) :
    shell.cmdHistory[i]? = some (rowOf e.history[i]) := by
  have hrow := congrArg (·[i]?) h.rows
  simpa only [getElem?_take_of_lt hi, getElem?_map, getElem?_eq_getElem hi,
    map_some] using hrow

theorem kprintf (out : List ShellOut) : Holds (shell.kprintf out) e :=
  h.output _ _

/-! ### Recalling a text -/

theorem handleHistory : ∃ shell', shellHandleHistory shell = some shell' ∧ Holds shell' e := by
  simp only [shellHandleHistory, h.stringChars_line, bind_eq_bind, bind_some]
  exact ⟨_, rfl, h.kprintf _⟩

theorem recallLine (hi : i < e.history.length) :
    ∃ shell', Native.recallLine { shell with currentHistory := i } = some shell' ∧
      Holds shell' (e.recallText i hi) := by
  have hline : skMemcpyArray shell.line (rowOf e.history[i]) shellCmdSize =
      some (e.history[i].1.rightpad (shellCmdSize + 1) 0) := by
    rw [skMemcpyArray, if_pos ⟨by rw [h.length_line]; omega, (length_rowOf _).ge⟩,
      take_of_length_le (length_rowOf _).le, h.line, ← rowOf_concat, ← rowOf_concat,
      drop_left' (length_rowOf _)]
  have hheld : Holds
      { shell with
        currentHistory := i
        line := e.history[i].1.rightpad (shellCmdSize + 1) 0
        linePosition := e.history[i].1.length
        lineCurpos := e.history[i].1.length } (e.recallText i hi) :=
    ⟨h.stat, rfl, rfl, rfl, h.rows_length, h.rows, h.count, rfl⟩
  simp only [Native.recallLine, h.getElem?_row hi, bind_eq_bind, bind_some, hline,
    skStrlen_rightpad e.history[i].2.2 (Nat.lt_succ_of_le e.history[i].2.1)]
  exact hheld.handleHistory

private theorem upKey (ch : UInt8) :
    ∃ shell' e', shellUpKey shell = some shell' ∧ e.onKey ch .up = some e' ∧
      Holds shell' e' := by
  simp only [shellUpKey, Editor.onKey, h.current]
  by_cases hpos : 0 < e.current
  · rw [if_pos hpos, dif_pos hpos]
    obtain ⟨shell', hrun, hheld⟩ := h.recallLine
      (Nat.lt_of_lt_of_le (Nat.sub_one_lt_of_lt hpos) e.current_le)
    exact ⟨shell', _, hrun, rfl, hheld⟩
  · rw [if_neg hpos, dif_neg hpos]
    exact ⟨_, e, rfl, rfl,
      ⟨h.stat, h.line, h.position, h.curpos, h.rows_length, h.rows, h.count, by dsimp only; omega⟩⟩

private theorem downKey (ch : UInt8) :
    ∃ shell' e', shellDownKey shell = some shell' ∧ e.onKey ch .down = some e' ∧
      Holds shell' e' := by
  simp only [shellDownKey, Editor.onKey, h.current, h.count]
  by_cases hpos : 0 < e.history.length
  · obtain ⟨shell', hrun, hheld⟩ := h.recallLine (i := min (e.current + 1) (e.history.length - 1))
      (by omega)
    refine ⟨shell', _, ?_, dif_pos hpos, hheld⟩
    rw [← hrun, h.count]
    split
    · rw [show min (e.current + 1) (e.history.length - 1) = e.current + 1 by omega]
    · rw [if_pos (by omega),
        show min (e.current + 1) (e.history.length - 1) = e.history.length - 1 by omega]
  · rw [if_neg (by omega), if_neg (by omega), dif_neg hpos]
    exact ⟨shell, e, rfl, rfl, h⟩

/-! ### Moving the cursor and editing the line -/

private theorem leftKey (ch : UInt8) :
    ∃ shell' e', shellLeftKey shell = some shell' ∧ e.onKey ch .left = some e' ∧
      Holds shell' e' := by
  simp only [shellLeftKey, Editor.onKey, h.curpos]
  split
  · exact ⟨_, _, rfl, rfl,
      ⟨h.stat, h.line, h.position, rfl, h.rows_length, h.rows, h.count, h.current⟩⟩
  · exact ⟨_, _, rfl, rfl,
      ⟨h.stat, h.line, h.position, by dsimp only; rw [h.curpos]; omega, h.rows_length, h.rows,
        h.count, h.current⟩⟩

private theorem rightKey (ch : UInt8) :
    ∃ shell' e', shellRightKey shell = some shell' ∧ e.onKey ch .right = some e' ∧
      Holds shell' e' := by
  have hle := e.cursor_le
  simp only [shellRightKey, Editor.onKey, h.curpos, h.position]
  split
  · rename_i hlt
    have hc : shell.line[e.cursor]? = some e.text.1[e.cursor] := by
      rw [h.line, getElem?_rightpad_of_lt hlt, getElem?_eq_getElem hlt]
    simp only [hc, bind_eq_bind, bind_some]
    exact ⟨_, _, rfl, rfl,
      ⟨h.stat, h.line, h.position, by dsimp only; omega, h.rows_length, h.rows, h.count,
        h.current⟩⟩
  · exact ⟨_, _, rfl, rfl,
      ⟨h.stat, h.line, h.position, by dsimp only; rw [h.curpos]; omega, h.rows_length, h.rows,
        h.count, h.current⟩⟩

private theorem backspaceKey (ch : UInt8) :
    ∃ shell' e', shellBackspaceKey shell = some shell' ∧ e.onKey ch .backspace = some e' ∧
      Holds shell' e' := by
  simp only [shellBackspaceKey, Editor.onKey, h.curpos, h.position]
  split
  · exact ⟨shell, e, rfl, rfl, h⟩
  rename_i hcursor
  have hle := e.cursor_le
  have hlen := e.text.2.1
  have hsize : shellCmdSize = 80 := rfl
  have hpos : (e.text.1.length + (2 ^ 16 - 1)) % 2 ^ 16 = e.text.1.length - 1 := by omega
  have hne : e.text.1 ≠ [] := by
    intro h0
    rw [h0, length_nil] at hle
    omega
  rw [hpos, ShellCmd.setLine, if_pos (by
    show _ < shell.line.length
    rw [h.length_line]
    omega)]
  refine ⟨_, _, rfl, rfl, ⟨h.stat, ?_, ?_, rfl, h.rows_length, h.rows, h.count, h.current⟩⟩
  · show shell.line.set _ 0 = e.text.1.dropLast.rightpad _ 0
    rw [h.line, rightpad_set_pred hne (by omega)]
  · exact length_dropLast.symm

private theorem normalChar (hch : ch ≠ 0) (hroom : shell.linePosition < shellCmdSize) :
    ∃ shell' e', shellNormalChar ch shell = some shell' ∧ e.onKey ch .char = some e' ∧
      Holds shell' e' := by
  rw [h.position] at hroom
  have hset : shell.setLine shell.linePosition ch =
      some { shell with line := (e.text.1 ++ [ch]).rightpad (shellCmdSize + 1) 0 } := by
    rw [ShellCmd.setLine, if_pos (by rw [h.length_line, h.position]; omega), h.position, h.line,
      rightpad_set_length (by omega)]
  simp only [shellNormalChar, hset, bind_eq_bind, bind_some, Editor.onKey,
    dif_pos (And.intro hroom hch)]
  refine ⟨_, _, rfl, rfl,
    ⟨h.stat, rfl, ?_, congrArg (· + 1) h.curpos, h.rows_length, h.rows, h.count, h.current⟩⟩
  show shell.linePosition + 1 = (e.text.1 ++ [ch]).length
  rw [h.position, length_append, length_singleton]

/-! ### The commands -/

/-- The names are compared inside their arrays. -/
theorem exists_autoCompleteLoop (table : List ShellSyscall) :
    ∃ out, autoCompleteLoop shell.line table = some out := by
  induction table with
  | nil => exact ⟨[], rfl⟩
  | cons index rest ih =>
    obtain ⟨out, hout⟩ := ih
    have hlen : e.text.1.length ≤ shell.line.length := by
      rw [h.length_line]
      exact Nat.le_succ_of_le e.text.2.1
    obtain ⟨ret, hret⟩ := exists_skStrncmp _ (.inr hlen) (.inl index.terminated)
    obtain ⟨name, hname⟩ := exists_stringChars index.terminated
    simp only [autoCompleteLoop, h.skStrlen_line, hret, hout, hname, bind_eq_bind,
      bind_some]
    split
    · exact ⟨_, rfl⟩
    · exact ⟨_, rfl⟩

private theorem tabKey (table : List ShellSyscall) (ch : UInt8) :
    ∃ shell' e', shellTabKey table shell = some shell' ∧ e.onKey ch .tab = some e' ∧
      Holds shell' e' := by
  have hback := h.kprintf (List.replicate shell.lineCurpos (.text "\x08"))
  obtain ⟨out, hout⟩ := hback.exists_autoCompleteLoop table
  simp only [shellTabKey, shellAutoComplete, hout, hback.stringChars_line, bind_eq_bind,
    bind_some]
  have hend := hback.kprintf (.text "\n" :: out ++ [.text shellPrompt, .str e.text.1])
  rw [hend.skStrlen_line, bind_some]
  exact ⟨_, _, rfl, rfl,
    ⟨h.stat, h.line, rfl, rfl, h.rows_length, h.rows, h.count, h.current⟩⟩

end Holds

theorem skipBlanks_append (t rest : List UInt8) :
    skipBlanks (t ++ rest) t.length =
      some (t.dropWhile (fun c => c = 0x20 ∨ c = 0x09) ++ rest,
        (t.dropWhile (fun c => c = 0x20 ∨ c = 0x09)).length) := by
  induction t with
  | nil =>
    cases rest with
    | nil => rfl
    | cons c rest => rfl
  | cons c t ih =>
    simp only [cons_append, length_cons, skipBlanks, dropWhile_cons]
    by_cases hc : c = 0x20 ∨ c = 0x09
    · simp only [if_pos hc, decide_eq_true hc, ih, if_true]
    · simp only [if_neg hc, decide_eq_false hc, Bool.false_eq_true, if_false, cons_append,
        length_cons]

private theorem exists_findCommand {cmd : List UInt8} {len : Nat} (hlen : len ≤ cmd.length)
    (table : List ShellSyscall) : ∃ found, findCommand cmd len table = some found := by
  induction table with
  | nil => exact ⟨none, rfl⟩
  | cons index rest ih =>
    obtain ⟨ret, hret⟩ := exists_skStrncmp len (.inl index.terminated) (.inr hlen)
    simp only [findCommand, hret, bind_eq_bind, bind_some]
    split
    · exact ⟨_, rfl⟩
    · exact ih

/-- A command stays inside its line. -/
theorem exists_shellExec (table : List ShellSyscall) (t : List UInt8) {rest : List UInt8}
    (hrest : 0 ∈ rest) (shell : ShellCmd) :
    ∃ ret printed called, shellExec table (t ++ rest) t.length shell =
      some (ret, { shell with printed := printed, called := called }) := by
  have hlen : ∀ u : List UInt8, u.length ≤ (u ++ rest).length := by simp
  obtain ⟨found, hfound⟩ := exists_findCommand
    (hlen (t.dropWhile (fun c => c = 0x20 ∨ c = 0x09))) table
  obtain ⟨text, htext⟩ := exists_stringChars
    (mem_append_right (t.dropWhile (fun c => c = 0x20 ∨ c = 0x09)) hrest)
  simp only [shellExec, skipBlanks_append, hfound, bind_eq_bind, bind_some]
  split
  · exact ⟨0, shell.printed, shell.called, rfl⟩
  cases found with
  | some index => exact ⟨0, shell.printed, shell.called ++ [index.func], rfl⟩
  | none =>
    simp only [htext, bind_some]
    exact ⟨255, _, shell.called, rfl⟩

/-! ### The history -/

private theorem moveRow_spec {dst src : List UInt8} (hdst : rows[i]? = some dst)
    (hsrc : rows[i + 1]? = some src) (hdst' : dst.length = shellCmdSize)
    (hsrc' : src.length = shellCmdSize) :
    moveRow rows i = some (rows.set i src) := by
  have hcopy : skMemcpyArray dst src shellCmdSize = some src := by
    rw [skMemcpyArray, if_pos ⟨hdst'.ge, hsrc'.ge⟩, take_of_length_le hsrc'.le,
      drop_of_length_le hdst'.le, append_nil]
  simp only [moveRow, hdst, hsrc, hcopy, bind_eq_bind, bind_some]

private theorem moveRows (hlen : rows.length = shellCmdHistoryLine)
    (hrows : ∀ row ∈ rows, row.length = shellCmdSize) :
    ∃ last, (List.range (shellCmdHistoryLine - 1)).foldlM moveRow rows =
      some (rows.tail ++ [last]) := by
  match rows, hlen with
  | [a, b, c, d, e], _ =>
    simp only [forall_mem_cons] at hrows
    obtain ⟨ha, hb, hc, hd, he, -⟩ := hrows
    refine ⟨e, ?_⟩
    show [0, 1, 2, 3].foldlM moveRow [a, b, c, d, e] = some [b, c, d, e, e]
    rw [foldlM_cons, moveRow_spec rfl rfl ha hb, bind_eq_bind, bind_some,
      foldlM_cons, moveRow_spec rfl rfl hb hc, bind_eq_bind, bind_some,
      foldlM_cons, moveRow_spec rfl rfl hc hd, bind_eq_bind, bind_some,
      foldlM_cons, moveRow_spec rfl rfl hd he, bind_eq_bind, bind_some]
    rfl

namespace Holds

variable {shell : ShellCmd} {e : Editor}

variable (h : Holds shell e)
include h

theorem storeRow (hi : i < rows.length) :
    Native.storeRow shell rows i = some (rows.set i (rowOf e.text)) := by
  have hcopy : skMemcpyArray (List.replicate shellCmdSize 0) shell.line shell.linePosition =
      some (rowOf e.text) := by
    rw [skMemcpyArray, h.position, if_pos ⟨by rw [length_replicate]; exact e.text.2.1, by
      rw [h.length_line]; exact Nat.le_succ_of_le e.text.2.1⟩, h.line, List.rightpad,
      take_left, drop_replicate, rowOf, List.rightpad]
  simp only [Native.storeRow, getElem?_eq_getElem hi, hcopy, bind_eq_bind,
    bind_some]

private theorem skMemcmp_last (hne : e.history ≠ []) :
    ∃ ret, skMemcmp (rowOf (e.history.getLast hne)) shell.line shellCmdSize = some ret ∧
      (ret = 0 ↔ e.history.getLast? = some e.text) := by
  have hlen : shellCmdSize ≤ shell.line.length := by
    rw [h.length_line]
    exact Nat.le_succ _
  obtain ⟨ret, hret, hzero⟩ := skMemcmp_spec shellCmdSize
    (length_rowOf (e.history.getLast hne)).ge hlen
  refine ⟨ret, hret, hzero.trans ?_⟩
  rw [take_of_length_le (length_rowOf _).le, h.line, ← rowOf_concat,
    take_left' (length_rowOf _), rowOf_inj, getLast?_eq_some_getLast hne,
    some_inj]

theorem pushLine_full (hne : e.text.1 ≠ []) (hfull : e.history.length = shellCmdHistoryLine) :
    ∃ rows, Native.pushLine shell =
        some { shell with
          cmdHistory := rows, historyCount := (pushText e.history e.text).length } ∧
      rows.length = shellCmdHistoryLine ∧
      rows.take (pushText e.history e.text).length = (pushText e.history e.text).map rowOf := by
  have hnil : e.history ≠ [] := ne_nil_of_length_pos (by rw [hfull]; decide)
  have hall : shell.cmdHistory = e.history.map rowOf := by
    rw [← h.rows, hfull, ← h.rows_length, take_length]
  have hlast : shell.cmdHistory[shellCmdHistoryLine - 1]? =
      some (rowOf (e.history.getLast hnil)) := by
    rw [h.getElem?_row (by rw [hfull]; decide), getLast_eq_getElem]
    simp only [hfull]
  obtain ⟨ret, hret, hzero⟩ := h.skMemcmp_last hnil
  simp only [Native.pushLine, h.count, if_pos hfull.ge, hlast, hret, bind_eq_bind,
    bind_some]
  by_cases hsame : ret = 0
  · rw [if_neg (not_not.mpr hsame), pushText_of_same (hzero.mp hsame), ← h.count]
    exact ⟨shell.cmdHistory, rfl, h.rows_length, by rw [h.count, h.rows]⟩
  · have hpush : pushText e.history e.text = e.history.tail ++ [e.text] := by
      rw [pushText_of_new hne (mt hzero.mpr hsame), List.rtake, length_append, hfull,
        ← drop_one, drop_append_of_le_length (by rw [hfull]; exact Nat.le_add_left 1 4)]
      rfl
    have htail : (e.history.map rowOf).tail.length = shellCmdHistoryLine - 1 := by
      rw [length_tail, length_map, hfull]
    obtain ⟨last, hmove⟩ := moveRows h.rows_length (by
      rw [hall]
      exact forall_mem_map.mpr fun t _ => length_rowOf t)
    rw [if_pos hsame, hmove, bind_some, hall, h.storeRow (by
      rw [length_append, htail]
      exact Nat.lt_succ_self _), bind_some, set_append_right _ _ htail.le, htail, hpush,
      length_append, length_tail, hfull]
    refine ⟨_, rfl, ?_, ?_⟩
    · rw [length_append, htail]
      rfl
    · rw [take_of_length_le (by rw [length_append, htail]; exact le_rfl), map_append,
        map_tail]
      rfl

theorem lineIsNew : Native.lineIsNew shell = some (decide (e.history.getLast? ≠ some e.text)) := by
  rw [Native.lineIsNew, h.count]
  split
  · rename_i hlen
    simp [eq_nil_of_length_eq_zero hlen]
  · rename_i hlen
    have hnil : e.history ≠ [] := ne_nil_of_length_pos (Nat.pos_of_ne_zero hlen)
    obtain ⟨ret, hret, hzero⟩ := h.skMemcmp_last hnil
    rw [h.getElem?_row (by omega), ← getLast_eq_getElem hnil]
    simp only [hret, bind_eq_bind, bind_some, ne_eq, hzero]

theorem pushLine_room (hne : e.text.1 ≠ []) (hroom : e.history.length < shellCmdHistoryLine) :
    ∃ rows, Native.pushLine shell =
        some { shell with
          cmdHistory := rows, historyCount := (pushText e.history e.text).length } ∧
      rows.length = shellCmdHistoryLine ∧
      rows.take (pushText e.history e.text).length = (pushText e.history e.text).map rowOf := by
  simp only [Native.pushLine, h.count, if_neg (Nat.not_le.mpr hroom), h.lineIsNew,
    bind_eq_bind,
    bind_some, decide_eq_true_eq]
  by_cases hsame : e.history.getLast? = some e.text
  · rw [if_neg (not_not.mpr hsame), pushText_of_same hsame, ← h.count]
    exact ⟨shell.cmdHistory, rfl, h.rows_length, by rw [h.count, h.rows]⟩
  · have hpush : pushText e.history e.text = e.history ++ [e.text] := by
      rw [pushText_of_new hne hsame, List.rtake, length_append, length_singleton,
        Nat.sub_eq_zero_of_le hroom, drop_zero]
    have hlt : e.history.length < shell.cmdHistory.length := by rw [h.rows_length]; exact hroom
    rw [if_pos hsame, h.storeRow hlt, bind_some, hpush, length_append,
      length_singleton]
    refine ⟨_, rfl, by rw [length_set, h.rows_length], ?_⟩
    rw [set_eq_take_append_cons_drop, if_pos hlt, h.rows, take_append,
      length_map, take_of_length_le (by rw [length_map]; omega),
      Nat.add_sub_cancel_left, map_append]
    rfl

theorem pushHistory :
    ∃ rows, shellPushHistory shell =
        some { shell with
          cmdHistory := rows
          historyCount := (pushText e.history e.text).length
          currentHistory := (pushText e.history e.text).length } ∧
      rows.length = shellCmdHistoryLine ∧
      rows.take (pushText e.history e.text).length = (pushText e.history e.text).map rowOf := by
  by_cases hne : e.text.1 = []
  · have hpos : shell.linePosition = 0 := by rw [h.position, hne, length_nil]
    have hpush : pushText e.history e.text = e.history := if_pos (.inl hne)
    refine ⟨shell.cmdHistory, ?_, h.rows_length, by rw [hpush, h.rows]⟩
    simp only [shellPushHistory, if_neg (not_not.mpr hpos), bind_eq_bind, bind_some,
      hpush, ← h.count]
  · have hpos : shell.linePosition ≠ 0 := by
      rw [h.position]
      exact fun h0 => hne (eq_nil_of_length_eq_zero h0)
    obtain ⟨rows, hrun, hlen, hrows⟩ : ∃ rows, _ ∧ _ ∧ _ := by
      rcases Nat.lt_or_eq_of_le e.history_le with hroom | hfull
      · exact h.pushLine_room hne hroom
      · exact h.pushLine_full hne hfull
    refine ⟨rows, ?_, hlen, hrows⟩
    simp only [shellPushHistory, if_pos hpos, hrun, bind_eq_bind, bind_some]

theorem endOfLine (table : List ShellSyscall) (ch : UInt8) :
    ∃ shell' e', shellEndOfLine table ch shell = some shell' ∧ e.onKey ch .endOfLine = some e' ∧
      Holds shell' e' := by
  obtain ⟨rows, hpush, hlen, hrows⟩ := h.pushHistory
  -- whatever the command prints and calls
  have hsubmit : ∀ printed called, Holds
      { shell with
        cmdHistory := rows
        historyCount := (pushText e.history e.text).length
        currentHistory := (pushText e.history e.text).length
        line := List.replicate (shellCmdSize + 1) 0
        linePosition := 0
        lineCurpos := 0
        printed := printed
        called := called } e.submit := fun _ _ =>
    ⟨h.stat, rfl, rfl, rfl, hlen, hrows, rfl, rfl⟩
  simp only [shellEndOfLine, hpush, bind_eq_bind, bind_some, ShellCmd.kprintf]
  split
  · rw [h.position, h.line, rightpad_eq_append_zero (Nat.lt_succ_of_le e.text.2.1)]
    obtain ⟨ret, printed, called, hexec⟩ := exists_shellExec table e.text.1
      (mem_cons_self (l := List.replicate (shellCmdSize + 1 - e.text.1.length - 1) 0)) _
    rw [hexec, map_some, bind_some]
    exact ⟨_, _, rfl, rfl, hsubmit _ _⟩
  · exact ⟨_, _, rfl, rfl, hsubmit _ _⟩

/-! ### Every key -/

theorem onKey (table : List ShellSyscall) {key : Key}
    (hch : key = .char → ch ≠ 0 ∧ shell.linePosition < shellCmdSize) :
    ∃ shell' e', Spec.onKey table ch shell key = some shell' ∧ e.onKey ch key = some e' ∧
      Holds shell' e' := by
  cases key with
  | ignored => exact ⟨shell, e, rfl, rfl, h⟩
  | up => exact h.upKey ch
  | down => exact h.downKey ch
  | left => exact h.leftKey ch
  | right => exact h.rightKey ch
  | tab => exact h.tabKey table ch
  | backspace => exact h.backspaceKey ch
  | endOfLine => exact h.endOfLine table ch
  | char => exact h.normalChar (hch rfl).1 (hch rfl).2

theorem round (table : List ShellSyscall)
    (hroom : (decodeKey shell.stat ch).2 = .char → shell.linePosition < shellCmdSize) :
    ∃ shell' e', shellRound table shell ch = some shell' ∧ e.round ch = some e' ∧
      Holds shell' e' := by
  have hstat : Holds { shell with stat := (decodeKey shell.stat ch).1 }
      { e with stat := (decodeKey e.stat ch).1 } :=
    ⟨by rw [h.stat], h.line, h.position, h.curpos, h.rows_length, h.rows, h.count, h.current⟩
  rw [shellRound_eq, Editor.round, ← h.stat]
  rw [← h.stat] at hstat
  exact hstat.onKey table fun hkey => ⟨ne_zero_of_char hkey, hroom hkey⟩

end Holds

/-! ## Runs -/

theorem shellThreadEntry_concat (table : List ShellSyscall) (chars : List UInt8) (ch : UInt8) :
    shellThreadEntry table (chars ++ [ch]) =
      (shellThreadEntry table chars).bind (shellRound table · ch) := by
  simp [shellThreadEntry, foldlM_append]

theorem Editor.foldlM_concat (chars : List UInt8) (ch : UInt8) (e : Editor) :
    (chars ++ [ch]).foldlM Editor.round e = (chars.foldlM Editor.round e).bind (·.round ch) := by
  simp [foldlM_append]

/-- The characters are typed at lines with room for them. -/
def LinesFit (table : List ShellSyscall) (chars : List UInt8) : Prop :=
  ∀ before ch shell, before ++ [ch] <+: chars → shellThreadEntry table before = some shell →
    (decodeKey shell.stat ch).2 = .char → shell.linePosition < shellCmdSize

variable {table : List ShellSyscall} {chars : List UInt8}

theorem LinesFit.of_prefix {chars' : List UInt8} (hfit : LinesFit table chars)
    (hpre : chars' <+: chars) : LinesFit table chars' :=
  fun before ch shell hbefore => hfit before ch shell (hbefore.trans hpre)

private theorem linesFit_iff_take :
    LinesFit table chars ↔
      ∀ i (hi : i < chars.length), ∀ shell ∈ shellThreadEntry table (chars.take i),
        (decodeKey shell.stat chars[i]).2 = .char → shell.linePosition < shellCmdSize := by
  constructor
  · intro hfit i hi shell hrun
    have hpre : chars.take i ++ [chars[i]] <+: chars := by
      rw [take_append_getElem]
      exact take_prefix _ _
    exact hfit _ _ shell hpre hrun
  · intro h before ch shell hpre hrun
    obtain ⟨rest, rfl⟩ := hpre
    have hlt : before.length < (before ++ [ch] ++ rest).length := by simp
    have hch : (before ++ [ch] ++ rest)[before.length] = ch := by simp
    have htake : (before ++ [ch] ++ rest).take before.length = before := by simp
    have hi := h before.length hlt shell (by rwa [htake])
    rwa [hch] at hi

instance (table : List ShellSyscall) (chars : List UInt8) : Decidable (LinesFit table chars) :=
  decidable_of_iff _ linesFit_iff_take.symm

/-- The positions are inside the line, which is zero from `line_position` on, and the places inside
    the history. -/
structure LineBounds (shell : ShellCmd) : Prop where
  curpos_le : shell.lineCurpos ≤ shell.linePosition
  position_le : shell.linePosition ≤ shellCmdSize
  length_line : shell.line.length = shellCmdSize + 1
  zeros : ∀ i, shell.linePosition ≤ i → i < shellCmdSize + 1 → shell.line[i]? = some 0
  rows_length : shell.cmdHistory.length = shellCmdHistoryLine
  count_le : shell.historyCount ≤ shellCmdHistoryLine
  current_le : shell.currentHistory ≤ shell.historyCount

private theorem Holds.lineBounds {shell : ShellCmd} {e : Editor} (h : Holds shell e) :
    LineBounds shell where
  curpos_le := by rw [h.curpos, h.position]; exact e.cursor_le
  position_le := by rw [h.position]; exact e.text.2.1
  length_line := h.length_line
  zeros := fun i hi hlt => by
    rw [h.line]
    exact getElem?_rightpad_of_ge (h.position ▸ hi) hlt
  rows_length := h.rows_length
  count_le := by rw [h.count]; exact e.history_le
  current_le := by rw [h.current, h.count]; exact e.current_le

theorem exists_holds (hfit : LinesFit table chars) :
    ∃ shell e, shellThreadEntry table chars = some shell ∧
      chars.foldlM Editor.round .init = some e ∧ Holds shell e := by
  induction chars using List.reverseRecOn with
  | nil => exact ⟨_, _, rfl, rfl, holds_init⟩
  | append_singleton chars ch ih =>
    obtain ⟨shell, e, hrun, hedit, hheld⟩ := ih (hfit.of_prefix (prefix_append _ _))
    obtain ⟨shell', e', hround, hedit', hheld'⟩ :=
      hheld.round table (hfit chars ch shell prefix_rfl hrun)
    refine ⟨shell', e', ?_, ?_, hheld'⟩
    · rw [shellThreadEntry_concat, hrun, bind_some, hround]
    · rw [Editor.foldlM_concat, hedit, bind_some, hedit']

/-- **The loop stays inside its arrays, and the line and the history keep their bounds after every
    character, exactly when no line grows beyond `SHELL_CMD_SIZE` characters.** -/
theorem line_bounds_iff (table : List ShellSyscall) (chars : List UInt8) :
    (∀ before, before <+: chars →
        ∃ shell, shellThreadEntry table before = some shell ∧ LineBounds shell) ↔
      LinesFit table chars := by
  constructor
  · intro hbounds before ch shell hpre hrun hkey
    obtain ⟨shell', hrun', hbounds'⟩ := hbounds _ hpre
    rw [shellThreadEntry_concat, hrun, bind_some, shellRound_eq, hkey] at hrun'
    obtain ⟨shell1, hset, hrun'⟩ := bind_eq_some_iff.mp hrun'
    rw [ShellCmd.setLine] at hset
    split at hset
    · cases hset
      cases hrun'
      exact hbounds'.position_le
    · cases hset
  · intro hfit before hpre
    obtain ⟨shell, e, hrun, -, hheld⟩ := exists_holds (hfit.of_prefix hpre)
    exact ⟨shell, hrun, hheld.lineBounds⟩

/-- 81 letters leave no room for the end of the string, and the next one is written outside of the
    line. -/
theorem line_grows_beyond :
    (∃ shell, shellThreadEntry [] (List.replicate 81 0x61) = some shell ∧
      shellCmdSize < shell.linePosition ∧ shell.line[shell.linePosition]? = none) ∧
    shellThreadEntry [] (List.replicate 82 0x61) = none := by
  have h81 : (shellThreadEntry [] (List.replicate 81 0x61)).map
      (fun shell => (shell.linePosition, shell.line[shell.linePosition]?)) = some (81, none) := by
    decide +kernel
  have h82 : (shellThreadEntry [] (List.replicate 82 0x61)).isNone = true := by decide +kernel
  obtain ⟨shell, hrun, hpos⟩ := map_eq_some_iff.mp h81
  have hposition : shell.linePosition = 81 := congrArg Prod.fst hpos
  refine ⟨⟨shell, hrun, ?_, congrArg Prod.snd hpos⟩, isNone_iff_eq_none.mp h82⟩
  rw [hposition]
  decide

end SKernel.Spec
