import SKernel.ForStd.BoundedLog
import SKernel.Spec.ShellBounds

/-!
# What the history of the shell holds

The history is a bounded log of the lines that were submitted. `shell_push_history` has one branch
for a log with room and one for a full log, and compares whole rows to find out whether a line
repeats the last one; the rows are nevertheless those of `List.recent`, because the rest of a row
and of the line is always zero (`Holds`).

## Key results

- `isLog_run`: the history of the line editor is a bounded log of the lines that it submits
- `history_rows_recent`: the rows of the shell are those of the log
-/

namespace SKernel.Spec

open SKernel.Native List Option

/-! ## The submitted lines -/

/-- The line at each end of line among the characters, as a line editor with a history holds it:
    typed, edited or recalled. -/
def submittedFrom : Editor → List UInt8 → List (List UInt8)
  | _, [] => []
  | e, ch :: chars =>
    (if (decodeKey e.stat ch).2 = .endOfLine then [e.text.1] else []) ++
      match e.round ch with
      | some e' => submittedFrom e' chars
      | none => []

/-- The lines submitted since the start. -/
def submittedLines (chars : List UInt8) : List (List UInt8) := submittedFrom .init chars

/-- One more character. -/
theorem submittedFrom_concat {e e' : Editor} {chars : List UInt8}
    (hedit : chars.foldlM Editor.round e = some e') (ch : UInt8) :
    submittedFrom e (chars ++ [ch]) = submittedFrom e chars ++
      if (decodeKey e'.stat ch).2 = .endOfLine then [e'.text.1] else [] := by
  induction chars generalizing e with
  | nil =>
    cases hedit
    cases h : e'.round ch <;> simp [submittedFrom, h]
  | cons c chars ih =>
    rw [foldlM_cons] at hedit
    obtain ⟨e1, hround, hrest⟩ := bind_eq_some_iff.mp hedit
    simp only [cons_append, submittedFrom, hround, ih hrest, append_assoc]

/-! ## The log -/

theorem Editor.history_onKey {e e' : Editor} {ch : UInt8} {key : Key}
    (h : e.onKey ch key = some e') :
    e'.history = if key = .endOfLine then pushText e.history e.text else e.history := by
  cases key with
  | ignored | left | right | tab | endOfLine =>
    cases h
    rfl
  | up | down | backspace | char =>
    simp only [Editor.onKey] at h
    split at h <;> cases h <;> rfl

/-- The history is a bounded log: the lines that are not empty, oldest first. -/
def IsLog (history : List LineText) (lines : List (List UInt8)) : Prop :=
  history.map (fun t => t.1) = (lines.filter (· ≠ [])).recent shellCmdHistoryLine

theorem IsLog.pushText {history : List LineText} {lines : List (List UInt8)}
    (h : IsLog history lines) (t : LineText) :
    IsLog (Spec.pushText history t) (lines ++ [t.1]) := by
  unfold IsLog at h ⊢
  rw [filter_append]
  by_cases hempty : t.1 = []
  · simp [Spec.pushText, hempty, h]
  -- the log and the history end with the same text
  have hlast : (history.map (fun t => t.1)).getLast? = some t.1 ↔ history.getLast? = some t := by
    rw [getLast?_map, map_eq_some_iff]
    constructor
    · rintro ⟨u, hu, hut⟩
      rw [hu, Subtype.ext hut]
    · intro hu
      exact ⟨t, hu, rfl⟩
  have hkept : [t.1].filter (· ≠ []) = [t.1] := by simpa using hempty
  rw [hkept, recent_concat (by decide), ← h]
  by_cases hsame : history.getLast? = some t
  · rw [if_pos (hlast.mpr hsame), pushText_of_same hsame]
  · rw [if_neg (mt hlast.mp hsame), pushText_of_new hempty hsame, map_rtake, map_append]
    rfl

theorem isLog_run {chars : List UInt8} {e : Editor}
    (hedit : chars.foldlM Editor.round .init = some e) :
    IsLog e.history (submittedLines chars) := by
  induction chars using List.reverseRecOn generalizing e with
  | nil =>
    cases hedit
    rfl
  | append_singleton chars ch ih =>
    rw [Editor.foldlM_concat] at hedit
    obtain ⟨e0, hedit0, hround⟩ := bind_eq_some_iff.mp hedit
    rw [submittedLines, submittedFrom_concat hedit0, Editor.history_onKey hround]
    have hlog : IsLog e0.history (submittedLines chars) := ih hedit0
    split
    · exact hlog.pushText e0.text
    · rwa [append_nil]

/-- **After every end of a line, the rows of the history are the last submitted lines, with repeated
    ones collapsed.** -/
theorem history_rows_recent (table : List ShellSyscall) (chars before : List UInt8) (ch : UInt8)
    (e : Editor) (hfit : LinesFit table chars) (hpre : before ++ [ch] <+: chars)
    (hbefore : before.foldlM Editor.round .init = some e)
    (hkey : (decodeKey e.stat ch).2 = .endOfLine) :
    ∃ shell, shellThreadEntry table (before ++ [ch]) = some shell ∧
      shell.historyCount = min 5
        (((submittedLines (before ++ [ch])).filter (· ≠ [])).destutter (· ≠ ·)).length ∧
      shell.cmdHistory.take shell.historyCount =
        ((((submittedLines (before ++ [ch])).filter (· ≠ [])).destutter (· ≠ ·)).rtake 5).map
          (·.rightpad 80 0) ∧
      shell.currentHistory = shell.historyCount := by
  obtain ⟨shell, e', hrun, hedit, hheld⟩ := exists_holds (hfit.of_prefix hpre)
  -- the last key is the end of a line, so the place in the history is behind its last text
  have hround : e.round ch = some e' := by
    rwa [Editor.foldlM_concat, hbefore, bind_some] at hedit
  have hcurrent : e'.current = e'.history.length := by
    rw [Editor.round, hkey] at hround
    cases hround
    rfl
  have hlog := isLog_run hedit
  have hlength := congrArg List.length hlog
  rw [length_map, List.recent, length_rtake] at hlength
  refine ⟨shell, hrun, hheld.count.trans hlength, ?_, ?_⟩
  · rw [hheld.count, hheld.rows]
    have hrows := congrArg (List.map (·.rightpad 80 0)) hlog
    rw [List.map_map] at hrows
    exact hrows
  · rw [hheld.current, hheld.count, hcurrent]

/-- The lines "a", "b" and, recalled with the up key, "b" are submitted: the history holds the first
    two. -/
theorem history_rows_recent_recall :
    ∃ shell, shellThreadEntry [] [0x61, 0x0d, 0x62, 0x0d, 0x1b, 0x5b, 0x41, 0x0d] = some shell ∧
      shell.historyCount = 2 ∧
      shell.cmdHistory.take 2 = [0x61 :: List.replicate 79 0, 0x62 :: List.replicate 79 0] ∧
      shell.currentHistory = 2 := by
  have hlines : submittedLines [0x61, 0x0d, 0x62, 0x0d, 0x1b, 0x5b, 0x41, 0x0d] =
      [[0x61], [0x62], [0x62]] := by decide +kernel
  obtain ⟨e, hbefore⟩ : ∃ e, [0x61, 0x0d, 0x62, 0x0d, 0x1b, 0x5b, 0x41].foldlM Editor.round .init =
      some e := isSome_iff_exists.mp (by decide +kernel)
  have hstat : ([0x61, 0x0d, 0x62, 0x0d, 0x1b, 0x5b, 0x41].foldlM Editor.round .init).map (·.stat) =
      some .waitNormal := by decide +kernel
  rw [hbefore, map_some, some_inj] at hstat
  obtain ⟨shell, hrun, hcount, hrows, hcurrent⟩ := history_rows_recent []
    [0x61, 0x0d, 0x62, 0x0d, 0x1b, 0x5b, 0x41, 0x0d] [0x61, 0x0d, 0x62, 0x0d, 0x1b, 0x5b, 0x41] 0x0d
    e (by decide +kernel) prefix_rfl hbefore (by rw [hstat]; decide)
  dsimp only [cons_append, nil_append] at hrun hcount hrows
  rw [hlines] at hcount hrows
  have htwo : shell.historyCount = 2 := hcount.trans (by decide)
  rw [htwo] at hrows hcurrent
  exact ⟨shell, hrun, htwo, hrows.trans (by decide), hcurrent⟩

end SKernel.Spec
