import SKernel.Spec.ShellBounds

/-!
# Which command a line runs

`shell_exec` compares the names with as many characters as the line has, so that a line runs the
first command whose name begins with it. This is the command the line names only if no other name
that begins with it comes first, and none does when there is no such command.
-/

namespace SKernel.Spec

open SKernel.Native List Option

/-- The characters of the name of a command. -/
def nameText (index : ShellSyscall) : List UInt8 :=
  index.name.takeWhile (· ≠ 0)

/-- A line without the blanks in front. -/
def stripBlanks (t : List UInt8) : List UInt8 :=
  t.dropWhile (fun c => c = 0x20 ∨ c = 0x09)

/-- A command is run, or the text reported that no command was found for. -/
def execute (found : Option ShellSyscall) (u : List UInt8) (shell : ShellCmd) : UInt8 × ShellCmd :=
  match found with
  | some index => (0, { shell with called := shell.called ++ [index.func] })
  | none => (255, shell.kprintf [.str u, .text ": command not found.\n"])

/-- What executing a line is for: the first command with that name is run. -/
def dispatch (table : List ShellSyscall) (t : List UInt8) (shell : ShellCmd) : UInt8 × ShellCmd :=
  if stripBlanks t = [] then (0, shell)
  else execute (table.find? (nameText · = stripBlanks t)) (stripBlanks t) shell

variable {u : List UInt8}

theorem skStrncmp_name (index : ShellSyscall) (hu : 0 ∉ u) (rest : List UInt8) :
    ∃ ret, skStrncmp index.name (u ++ 0 :: rest) u.length = some ret ∧
      (ret = 0 ↔ u <+: nameText index) := by
  obtain ⟨more, hname⟩ := exists_eq_takeWhile_append index.terminated
  obtain ⟨ret, hret, hzero⟩ :=
    skStrncmp_append_zero (zero_notMem_takeWhile index.name) hu more rest u.length
  refine ⟨ret, by rw [hname, hret], ?_⟩
  rw [hzero, take_length, prefix_iff_eq_take, eq_comm]
  rfl

theorem findCommand_eq (hu : 0 ∉ u) (rest : List UInt8) (table : List ShellSyscall) :
    findCommand (u ++ 0 :: rest) u.length table =
      some (table.find? (u <+: nameText ·)) := by
  induction table with
  | nil => rfl
  | cons index table ih =>
    obtain ⟨ret, hret, hzero⟩ := skStrncmp_name index hu rest
    simp only [findCommand, hret, bind_eq_bind, bind_some, ih, hzero]
    split
    · rename_i hpre
      simp [hpre]
    · rename_i hpre
      simp [hpre]

theorem zero_notMem_stripBlanks {t : List UInt8} (ht : 0 ∉ t) : 0 ∉ stripBlanks t :=
  fun h => ht ((dropWhile_suffix _).subset h)

theorem shellExec_eq (table : List ShellSyscall) {t : List UInt8} (ht : 0 ∉ t)
    (rest : List UInt8) (shell : ShellCmd) :
    shellExec table (t ++ 0 :: rest) t.length shell =
      some (if stripBlanks t = [] then (0, shell)
        else
          execute (table.find? (stripBlanks t <+: nameText ·)) (stripBlanks t) shell) := by
  have hstrip := zero_notMem_stripBlanks ht
  have htext : stringChars (stripBlanks t ++ 0 :: rest) = some (stripBlanks t) := by
    rw [stringChars, skStrlen_append_zero hstrip, map_some, take_left]
  rw [shellExec, skipBlanks_append, ← stripBlanks]
  simp only [bind_eq_bind, bind_some, length_eq_zero_iff,
    findCommand_eq hstrip]
  split
  · rfl
  · cases table.find? (stripBlanks t <+: nameText ·) with
    | some index => rfl
    | none => simp only [htext, bind_some, execute]

/-- The result tells which function was called. -/
theorem execute_inj {found found' : Option ShellSyscall} {shell : ShellCmd} :
    execute found u shell = execute found' u shell ↔ found.map (·.func) = found'.map (·.func) := by
  cases found with
  | none => cases found' <;> simp [execute]
  | some index => cases found' <;> simp [execute]

/-- **A line runs the first command with its name, or none if there is none, exactly if it is blank
    or the first command whose name begins with it has the same function.** -/
theorem shell_exec_dispatch_iff (table : List ShellSyscall) (t rest : List UInt8) (ht : 0 ∉ t)
    (shell : ShellCmd) :
    shellExec table (t ++ 0 :: rest) t.length shell = some (dispatch table t shell) ↔
      stripBlanks t = [] ∨
        (table.find? (stripBlanks t <+: nameText ·)).map (·.func) =
          (table.find? (nameText · = stripBlanks t)).map (·.func) := by
  rw [shellExec_eq table ht, dispatch, some_inj]
  by_cases hblank : stripBlanks t = []
  · simp [hblank]
  · rw [if_neg hblank, if_neg hblank, execute_inj, or_iff_right hblank]

/-- The command "help". -/
def helpCommand : ShellSyscall where
  name := [0x68, 0x65, 0x6c, 0x70, 0]
  func := 1
  terminated := by decide

/-- The line " help" runs it. -/
theorem shell_exec_dispatch_iff_help :
    shellExec [helpCommand] ([0x20, 0x68, 0x65, 0x6c, 0x70] ++ 0 :: []) 5 shellSystemInit =
        some (dispatch [helpCommand] [0x20, 0x68, 0x65, 0x6c, 0x70] shellSystemInit) :=
  (shell_exec_dispatch_iff [helpCommand] [0x20, 0x68, 0x65, 0x6c, 0x70] [] (by decide)
    shellSystemInit).mpr (by decide)

/-- The line "he" runs it as well, although no command has this name. -/
theorem shell_exec_runs_longer_name :
    (shellExec [helpCommand] [0x68, 0x65, 0] 2 shellSystemInit).map
        (fun r => (r.1, r.2.called)) = some (0, [1]) ∧
      (dispatch [helpCommand] [0x68, 0x65] shellSystemInit).1 = 255 ∧
      (dispatch [helpCommand] [0x68, 0x65] shellSystemInit).2.called = [] := by
  decide +kernel

end SKernel.Spec
