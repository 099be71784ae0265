import SKernel.Spec.ShellDispatch
import SKernel.Spec.ShellEditing

/-!
# A session with the shell

What the shell is for, as a whole: the functions it calls are those of the lines that the editor
holds at the ends of lines, whether they were typed, edited or recalled from the history.
-/

namespace SKernel.Spec

open SKernel.Native Option

/-- The function that a line calls: that of the first command whose name begins with the line. -/
def lineCalls (table : List ShellSyscall) (t : List UInt8) : List Nat :=
  if stripBlanks t = [] then []
  else ((table.find? (stripBlanks t <+: nameText ·)).map (·.func)).toList

/-- The function that a character calls. A line that is ended with 0x03 is not executed. -/
def charCalls (table : List ShellSyscall) (e : Editor) (ch : UInt8) : List Nat :=
  if (decodeKey e.stat ch).2 = .endOfLine ∧ ch ≠ 0x03 then lineCalls table e.text.1 else []

/-- The functions that a session calls. -/
def sessionCalls (table : List ShellSyscall) : Editor → List UInt8 → List Nat
  | _, [] => []
  | e, ch :: chars =>
    charCalls table e ch ++
      match e.round ch with
      | some e' => sessionCalls table e' chars
      | none => []

variable {table : List ShellSyscall} {shell shell' : ShellCmd} {e e' : Editor} {ch : UInt8}

theorem called_recallLine (h : recallLine shell = some shell') : shell'.called = shell.called := by
  simp only [recallLine, shellHandleHistory, bind_eq_bind, bind_eq_some_iff] at h
  obtain ⟨row, -, line, -, len, -, text, -, h⟩ := h
  cases h
  rfl

theorem called_setLine {i : Nat} {c : UInt8} (h : shell.setLine i c = some shell') :
    shell'.called = shell.called := by
  unfold ShellCmd.setLine at h
  split at h
  · cases h
    rfl
  · cases h

/-- Only the end of a line calls a function. -/
theorem called_onKey {key : Key} (hkey : key ≠ .endOfLine)
    (h : onKey table ch shell key = some shell') : shell'.called = shell.called := by
  cases key with
  | ignored =>
    cases h
    rfl
  | up =>
    simp only [onKey, shellUpKey] at h
    split at h
    · rw [called_recallLine h]
    · cases h
      rfl
  | down =>
    simp only [onKey, shellDownKey] at h
    split at h
    · rw [called_recallLine h]
    · split at h
      · rw [called_recallLine h]
      · cases h
        rfl
  | left =>
    simp only [onKey, shellLeftKey] at h
    split at h <;> cases h <;> rfl
  | right =>
    simp only [onKey, shellRightKey] at h
    split at h
    · obtain ⟨c, -, h⟩ := bind_eq_some_iff.mp h
      cases h
      rfl
    · cases h
      rfl
  | tab =>
    simp only [onKey, shellTabKey, shellAutoComplete, bind_eq_bind,
      bind_eq_some_iff] at h
    obtain ⟨_, ⟨out, -, text, -, heq⟩, len, -, h⟩ := h
    cases heq
    cases h
    rfl
  | backspace =>
    simp only [onKey, shellBackspaceKey] at h
    split at h
    · cases h
      rfl
    · have hset := called_setLine h
      exact hset
  | endOfLine => exact absurd rfl hkey
  | char =>
    obtain ⟨shell1, hset, h⟩ := bind_eq_some_iff.mp h
    cases h
    have hsame := called_setLine hset
    exact hsame

/-- What is executed is the text that the editor holds. -/
theorem called_endOfLine (hheld : Holds shell e)
    (h : shellEndOfLine table ch shell = some shell') :
    shell'.called = shell.called ++ if ch ≠ 0x03 then lineCalls table e.text.1 else [] := by
  obtain ⟨rows, hpush, -, -⟩ := hheld.pushHistory
  simp only [shellEndOfLine, hpush, bind_eq_bind, bind_some,
    ShellCmd.kprintf] at h
  by_cases hch : ch ≠ 0x03
  · rw [if_pos hch, hheld.position, hheld.line,
      rightpad_eq_append_zero (Nat.lt_succ_of_le e.text.2.1), shellExec_eq table e.text.2.2] at h
    rw [if_pos hch, lineCalls]
    cases h
    split
    · simp
    · cases table.find? (stripBlanks e.text.1 <+: nameText ·) <;> simp [execute, ShellCmd.kprintf]
  · rw [if_neg hch] at h ⊢
    cases h
    simp

theorem called_round (hheld : Holds shell e) (h : shellRound table shell ch = some shell') :
    shell'.called = shell.called ++ charCalls table e ch := by
  rw [shellRound_eq] at h
  rw [charCalls, ← hheld.stat]
  by_cases hkey : (decodeKey shell.stat ch).2 = .endOfLine
  · rw [hkey] at h
    have hstat : Holds { shell with stat := (decodeKey shell.stat ch).1 }
        { e with stat := (decodeKey shell.stat ch).1 } :=
      ⟨rfl, hheld.line, hheld.position, hheld.curpos, hheld.rows_length, hheld.rows, hheld.count,
        hheld.current⟩
    simpa [hkey] using called_endOfLine hstat h
  · rw [called_onKey hkey h]
    simp [hkey]

/-- A session from any state that the editor describes. -/
theorem called_run {chars : List UInt8} (hheld : Holds shell e)
    (hrun : chars.foldlM (shellRound table) shell = some shell')
    (hedit : chars.foldlM Editor.round e = some e') :
    shell'.called = shell.called ++ sessionCalls table e chars := by
  induction chars generalizing shell e with
  | nil =>
    cases hrun
    simp [sessionCalls]
  | cons ch chars ih =>
    rw [List.foldlM_cons] at hrun hedit
    obtain ⟨shell1, hround, hrun⟩ := bind_eq_some_iff.mp hrun
    obtain ⟨e1, hround', hedit⟩ := bind_eq_some_iff.mp hedit
    obtain ⟨shell2, hround2, hheld1⟩ := hheld.round_of_some table hround'
    cases hround.symm.trans hround2
    rw [ih hheld1 hrun hedit, called_round hheld hround, List.append_assoc, sessionCalls, hround']

/-- **A session.** As long as the lines fit, the shell handles every character, and the functions
    it has called are those of the lines at the ends of lines, in order. -/
theorem shell_session (table : List ShellSyscall) (chars : List UInt8)
    (hfit : LinesFit table chars) :
    ∃ shell, shellThreadEntry table chars = some shell ∧
      shell.called = sessionCalls table .init chars := by
  obtain ⟨shell, e, hrun, hedit, -⟩ := exists_holds hfit
  exact ⟨shell, hrun, called_run holds_init hrun hedit⟩

/-- The line "he" is typed, ended with 0x03, recalled with the up key and executed. -/
theorem shell_session_recall :
    ∃ shell, shellThreadEntry [helpCommand] [0x68, 0x65, 0x03, 0x1b, 0x5b, 0x41, 0x0d] =
      some shell ∧ shell.called = [1] := by
  obtain ⟨shell, hrun, hcalled⟩ := shell_session [helpCommand]
    [0x68, 0x65, 0x03, 0x1b, 0x5b, 0x41, 0x0d] (by decide +kernel)
  exact ⟨shell, hrun, hcalled.trans (by decide +kernel)⟩

end SKernel.Spec
