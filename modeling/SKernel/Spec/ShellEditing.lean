import Mathlib.Data.List.Infix
import SKernel.Spec.ShellBounds

/-!
# Editing the line of the shell

A line editor inserts a character at the cursor and deletes the one before it. The shell writes
every character behind the last one and deletes the last one, wherever the cursor is; the cursor and
the length of the line are those of a line editor, but the text is only if the part of it behind
the cursor looks the same either way.
-/

namespace SKernel.Spec

open SKernel.Native List

/-! ## The reference editor -/

/-- A text and a cursor in it. -/
structure EditLine where
  text : List UInt8
  cursor : Nat
  deriving DecidableEq

/-- The editing keys. Terminals send one of two codes for a backspace. -/
inductive EditKey where
  | char (c : UInt8) (printable : 0x20 ≤ c ∧ c ≤ 0x7e)
  | backspace (c : UInt8) (code : c = 0x08 ∨ c = 0x7f)
  | left
  | right

/-- The characters that a key sends. -/
def EditKey.chars : EditKey → List UInt8
  | .char c _ => [c]
  | .backspace c _ => [c]
  | .left => [0x1b, 0x5b, 0x44]
  | .right => [0x1b, 0x5b, 0x43]

namespace EditLine

/-- The reference editor on a key. -/
def edit (s : EditLine) : EditKey → EditLine
  | .char c _ =>
    { text := s.text.take s.cursor ++ c :: s.text.drop s.cursor, cursor := s.cursor + 1 }
  | .backspace _ _ =>
    if s.cursor = 0 then s
    else
      { text := s.text.take (s.cursor - 1) ++ s.text.drop s.cursor, cursor := s.cursor - 1 }
  | .left => { s with cursor := s.cursor - 1 }
  | .right => { s with cursor := min (s.cursor + 1) s.text.length }

/-- What the shell does on a key. -/
def typed (s : EditLine) : EditKey → EditLine
  | .char c _ => { text := s.text ++ [c], cursor := s.cursor + 1 }
  | .backspace _ _ =>
    if s.cursor = 0 then s else { text := s.text.dropLast, cursor := s.cursor - 1 }
  | .left => { s with cursor := s.cursor - 1 }
  | .right => { s with cursor := min (s.cursor + 1) s.text.length }

/-- Behind the cursor there are only copies of the character that is typed or deleted. -/
def Uniform (s : EditLine) : EditKey → Prop
  | .char c _ => ∀ x ∈ s.text.drop s.cursor, x = c
  | .backspace _ _ =>
    s.cursor = 0 ∨ ∀ x ∈ s.text.drop s.cursor, s.text[s.cursor - 1]? = some x
  | .left => True
  | .right => True

end EditLine

/-- The state of the shell's line. -/
def editLine (shell : ShellCmd) : EditLine where
  text := shell.line.take shell.linePosition
  cursor := shell.lineCurpos

/-! ## When the shell edits like the reference -/

private theorem cons_eq_concat_iff {α : Type*} (c : α) (l : List α) :
    c :: l = l ++ [c] ↔ ∀ x ∈ l, x = c := by
  induction l with
  | nil => simp
  | cons a l ih =>
    rw [cons_append, cons.injEq, forall_mem_cons]
    constructor
    · rintro ⟨rfl, h⟩
      exact ⟨rfl, ih.mp h⟩
    · rintro ⟨rfl, h⟩
      exact ⟨rfl, ih.mpr h⟩

private theorem dropLast_cons_eq_iff {α : Type*} (c : α) (l : List α) :
    (c :: l).dropLast = l ↔ ∀ x ∈ l, c = x := by
  induction l generalizing c with
  | nil => simp
  | cons a l ih =>
    rw [dropLast_cons_cons, cons.injEq, ih, forall_mem_cons]
    constructor
    · rintro ⟨rfl, h⟩
      exact ⟨rfl, h⟩
    · rintro ⟨rfl, h⟩
      exact ⟨rfl, h⟩

namespace EditLine

private theorem typed_eq_edit_iff {s : EditLine} (hs : s.cursor ≤ s.text.length) (key : EditKey) :
    s.typed key = s.edit key ↔ s.Uniform key := by
  cases key with
  | char c _ =>
    have hsplit : s.text ++ [c] = s.text.take s.cursor ++ (s.text.drop s.cursor ++ [c]) := by
      rw [← append_assoc, take_append_drop]
    simp only [typed, edit, Uniform, EditLine.mk.injEq, and_true]
    rw [hsplit, append_cancel_left_eq, eq_comm, cons_eq_concat_iff]
  | backspace c _ =>
    simp only [typed, edit, Uniform]
    by_cases hzero : s.cursor = 0
    · simp [hzero]
    have hlt : s.cursor - 1 < s.text.length := by omega
    have hsplit : s.text =
        s.text.take (s.cursor - 1) ++ s.text[s.cursor - 1] :: s.text.drop s.cursor := by
      rw [show s.text.drop s.cursor = s.text.drop (s.cursor - 1 + 1) by congr 1; omega,
        ← drop_eq_getElem_cons hlt, take_append_drop]
    have hlast : s.text.dropLast =
        s.text.take (s.cursor - 1) ++ (s.text[s.cursor - 1] :: s.text.drop s.cursor).dropLast := by
      conv_lhs => rw [hsplit]
      exact dropLast_append_of_ne_nil (cons_ne_nil _ _)
    rw [if_neg hzero, if_neg hzero, EditLine.mk.injEq, hlast, append_cancel_left_eq,
      dropLast_cons_eq_iff, getElem?_eq_getElem hlt]
    simp [hzero]
  | left => simp [typed, edit, Uniform]
  | right => simp [typed, edit, Uniform]

/-- The length of the line and the cursor are right in any case. -/
structure SameShape (s t : EditLine) : Prop where
  length_eq : s.text.length = t.text.length
  cursor_eq : s.cursor = t.cursor
  cursor_le : s.cursor ≤ s.text.length

theorem SameShape.step {s t : EditLine} (h : SameShape s t) (key : EditKey) :
    SameShape (s.typed key) (t.edit key) := by
  obtain ⟨hlen, hcur, hle⟩ := h
  cases key with
  | char c _ =>
    constructor <;>
      simp only [typed, edit, length_append, length_take, length_cons,
        length_drop, length_nil] <;> omega
  | backspace c _ =>
    simp only [typed, edit, ← hcur]
    split
    · exact ⟨hlen, hcur, hle⟩
    · constructor <;>
        simp only [length_append, length_take, length_drop,
          length_dropLast] <;> omega
  | left | right => constructor <;> simp only [typed, edit] <;> omega

theorem SameShape.run {s : EditLine} (hs : s.cursor ≤ s.text.length) (keys : List EditKey) :
    SameShape (keys.foldl typed s) (keys.foldl edit s) := by
  induction keys using List.reverseRecOn with
  | nil => exact ⟨rfl, rfl, hs⟩
  | append_singleton keys key ih =>
    rw [foldl_concat, foldl_concat]
    exact ih.step key

end EditLine

private theorem foldl_agree_iff {σ α : Type*} (f g : σ → α → σ) (s : σ) (l : List α) :
    (∀ pre, pre <+: l → pre.foldl f s = pre.foldl g s) ↔
      ∀ pre a, pre ++ [a] <+: l → f (pre.foldl g s) a = g (pre.foldl g s) a := by
  constructor
  · intro h pre a hpre
    have hstep := h _ hpre
    rwa [foldl_concat, foldl_concat, h pre ((prefix_append _ _).trans hpre)] at hstep
  · intro h pre
    induction pre using List.reverseRecOn with
    | nil => exact fun _ => rfl
    | append_singleton pre a ih =>
      intro hpre
      rw [foldl_concat, foldl_concat, ih ((prefix_append _ _).trans hpre),
        h pre a hpre]

/-! ## The shell on the editing keys -/

namespace Editor

/-- The line of the editor. -/
def line (e : Editor) : EditLine where
  text := e.text.1
  cursor := e.cursor

private theorem decodeKey_printable {c : UInt8} (h : 0x20 ≤ c ∧ c ≤ 0x7e) :
    decodeKey .waitNormal c = (.waitNormal, .char) := by
  have hne : ∀ x : UInt8, x < 0x20 ∨ 0x7e < x → c ≠ x := by
    rintro x hx rfl
    rcases hx with hx | hx
    · exact absurd h.1 (UInt8.not_le.mpr hx)
    · exact absurd h.2 (UInt8.not_le.mpr hx)
  simp [decodeKey, plainKey, hne]

private theorem foldlM_keyChars {e : Editor} (hstat : e.stat = .waitNormal) {key : EditKey}
    (hroom : (e.line.typed key).text.length ≤ shellCmdSize) :
    ∃ e', key.chars.foldlM Editor.round e = some e' ∧ e'.stat = .waitNormal ∧
      e'.line = e.line.typed key := by
  cases key with
  | char c hc =>
    have hlt : e.text.1.length < shellCmdSize := by
      rw [EditLine.typed, length_append] at hroom
      exact hroom
    have hzero : c ≠ 0 := by
      rintro rfl
      exact absurd hc.1 (by decide)
    simp only [EditKey.chars, foldlM_cons, foldlM_nil, Editor.round, hstat,
      decodeKey_printable hc, Editor.onKey, dif_pos (And.intro hlt hzero)]
    exact ⟨_, rfl, rfl, rfl⟩
  | backspace c hc =>
    have hdecode : decodeKey .waitNormal c = (.waitNormal, .backspace) := by
      rcases hc with rfl | rfl <;> rfl
    simp only [EditKey.chars, foldlM_cons, foldlM_nil, Editor.round, hstat, hdecode,
      Editor.onKey]
    by_cases hzero : e.cursor = 0
    · rw [if_pos hzero]
      exact ⟨_, rfl, rfl, (if_pos hzero).symm⟩
    · rw [if_neg hzero]
      exact ⟨_, rfl, rfl, (if_neg hzero).symm⟩
  | left => exact ⟨_, rfl, rfl, rfl⟩
  | right => exact ⟨_, rfl, rfl, rfl⟩

end Editor

namespace Holds

variable {shell : ShellCmd} {e e' : Editor}

private theorem editLine_eq (h : Holds shell e) : editLine shell = e.line := by
  rw [editLine, Editor.line, h.curpos, h.take_line]

theorem round_of_some (h : Holds shell e) (table : List ShellSyscall) {ch : UInt8}
    (hedit : e.round ch = some e') :
    ∃ shell', shellRound table shell ch = some shell' ∧ Holds shell' e' := by
  have hroom : (decodeKey shell.stat ch).2 = .char → shell.linePosition < shellCmdSize := by
    intro hkey
    rw [h.stat] at hkey
    simp only [Editor.round, hkey, Editor.onKey] at hedit
    split at hedit
    · rename_i hlt
      rw [h.position]
      exact hlt.1
    · cases hedit
  obtain ⟨shell', e1, hround, hedit1, hheld⟩ := h.round table hroom
  cases hedit.symm.trans hedit1
  exact ⟨shell', hround, hheld⟩

private theorem run_of_some (h : Holds shell e) (table : List ShellSyscall) {chars : List UInt8}
    (hedit : chars.foldlM Editor.round e = some e') :
    ∃ shell', chars.foldlM (shellRound table) shell = some shell' ∧ Holds shell' e' := by
  induction chars generalizing shell e with
  | nil =>
    cases hedit
    exact ⟨shell, rfl, h⟩
  | cons ch chars ih =>
    rw [foldlM_cons] at hedit
    obtain ⟨e1, hround, hrest⟩ := Option.bind_eq_some_iff.mp hedit
    obtain ⟨shell1, hshell, hheld⟩ := h.round_of_some table hround
    obtain ⟨shell', hrun, hheld'⟩ := ih hheld hrest
    refine ⟨shell', ?_, hheld'⟩
    rw [foldlM_cons, hshell]
    exact hrun

theorem editKeys (h : Holds shell e) (hstat : e.stat = .waitNormal) (table : List ShellSyscall)
    {keys : List EditKey}
    (hfit : ∀ pre, pre <+: keys →
      (pre.foldl EditLine.edit e.line).text.length ≤ shellCmdSize) :
    ∃ shell' e', (keys.flatMap EditKey.chars).foldlM (shellRound table) shell = some shell' ∧
      Holds shell' e' ∧ e'.stat = .waitNormal ∧ e'.line = keys.foldl EditLine.typed e.line := by
  induction keys using List.reverseRecOn with
  | nil => exact ⟨shell, e, rfl, h, hstat, rfl⟩
  | append_singleton keys key ih =>
    obtain ⟨shell1, e1, hrun, hheld, hstat1, hline⟩ := ih fun pre hpre =>
      hfit pre (hpre.trans (prefix_append _ _))
    have hroom : (e1.line.typed key).text.length ≤ shellCmdSize := by
      have hshape := EditLine.SameShape.run (s := e.line) e.cursor_le (keys ++ [key])
      rw [foldl_concat, ← hline] at hshape
      rw [hshape.length_eq]
      exact hfit _ prefix_rfl
    obtain ⟨e2, hedit, hstat2, hline2⟩ := Editor.foldlM_keyChars hstat1 hroom
    obtain ⟨shell2, hrun2, hheld2⟩ := hheld.run_of_some table hedit
    refine ⟨shell2, e2, ?_, hheld2, hstat2, by rw [hline2, hline, foldl_concat]⟩
    rw [flatMap_append, foldlM_append, hrun, flatMap_singleton]
    exact hrun2

end Holds

/-- **The shell edits the line like the reference editor, key for key, exactly if whenever a
    character is typed or deleted, the text from there on consists of copies of that character.** -/
theorem line_editing_iff (table : List ShellSyscall) (before : List UInt8) (shell : ShellCmd)
    (keys : List EditKey) (hfit : LinesFit table before)
    (hrun : shellThreadEntry table before = some shell) (hstat : shell.stat = .waitNormal)
    (hwithin : ∀ pre, pre <+: keys →
      (pre.foldl EditLine.edit (editLine shell)).text.length ≤ shellCmdSize) :
    (∀ pre, pre <+: keys →
        ∃ shell', shellThreadEntry table (before ++ pre.flatMap EditKey.chars) = some shell' ∧
          editLine shell' = pre.foldl EditLine.edit (editLine shell)) ↔
      ∀ pre key, pre ++ [key] <+: keys →
        (pre.foldl EditLine.edit (editLine shell)).Uniform key := by
  obtain ⟨shell1, e, hrun1, -, hheld⟩ := exists_holds hfit
  cases hrun.symm.trans hrun1
  rw [hheld.editLine_eq] at hwithin ⊢
  -- the shell's line after the keys
  have hkeys : ∀ pre, pre <+: keys →
      ∃ shell', shellThreadEntry table (before ++ pre.flatMap EditKey.chars) = some shell' ∧
        editLine shell' = pre.foldl EditLine.typed e.line := by
    intro pre hpre
    obtain ⟨shell', e', hrun', hheld', -, hline⟩ := hheld.editKeys (hheld.stat.symm.trans hstat)
      table fun p hp => hwithin p (hp.trans hpre)
    refine ⟨shell', ?_, by rw [hheld'.editLine_eq, hline]⟩
    rw [shellThreadEntry, foldlM_append, ← shellThreadEntry, hrun]
    exact hrun'
  have hagree : (∀ pre, pre <+: keys →
        ∃ shell', shellThreadEntry table (before ++ pre.flatMap EditKey.chars) = some shell' ∧
          editLine shell' = pre.foldl EditLine.edit e.line) ↔
      ∀ pre, pre <+: keys → pre.foldl EditLine.typed e.line = pre.foldl EditLine.edit e.line := by
    refine forall₂_congr fun pre hpre => ?_
    obtain ⟨shell', hrun', hline⟩ := hkeys pre hpre
    rw [hrun', ← hline]
    simp
  rw [hagree, foldl_agree_iff]
  refine forall₃_congr fun pre key _ => ?_
  have hshape := EditLine.SameShape.run (s := e.line) e.cursor_le pre
  exact EditLine.typed_eq_edit_iff
    (by rw [← hshape.cursor_eq, ← hshape.length_eq]; exact hshape.cursor_le) key

/-- A letter and a backspace are typed at the end of the line. -/
theorem line_editing_iff_letter :
    (∀ pre, pre <+: [EditKey.char 0x61 (by decide), .backspace 0x08 (.inl rfl)] →
        ∃ shell', shellThreadEntry [] ([] ++ pre.flatMap EditKey.chars) = some shell' ∧
          editLine shell' = pre.foldl EditLine.edit (editLine shellSystemInit)) ∧
      ∀ pre key, pre ++ [key] <+: [EditKey.char 0x61 (by decide), .backspace 0x08 (.inl rfl)] →
        (pre.foldl EditLine.edit (editLine shellSystemInit)).Uniform key := by
  have hwithin : ∀ pre ∈ [EditKey.char 0x61 (by decide), .backspace 0x08 (.inl rfl)].inits,
      (pre.foldl EditLine.edit (editLine shellSystemInit)).text.length ≤ shellCmdSize := by
    decide +kernel
  rw [line_editing_iff [] [] shellSystemInit _ (by decide) rfl rfl fun pre hpre =>
    hwithin pre ((mem_inits _ _).mpr hpre), and_self]
  intro pre key hpre
  rcases pre with _ | ⟨first, _ | ⟨second, pre⟩⟩
  · obtain ⟨rfl, -⟩ := cons_prefix_cons.mp hpre
    simp [EditLine.Uniform, editLine, shellSystemInit]
  · obtain ⟨rfl, hrest⟩ := cons_prefix_cons.mp hpre
    obtain ⟨rfl, -⟩ := cons_prefix_cons.mp hrest
    right
    decide +kernel
  · have := hpre.length_le
    simp at this

/-- After "ab" and the left key, the shell puts the "c" behind the "b". -/
theorem line_editing_in_middle :
    (shellThreadEntry [] ([EditKey.char 0x61 (by decide), .char 0x62 (by decide), .left,
        .char 0x63 (by decide)].flatMap EditKey.chars)).map editLine =
      some { text := [0x61, 0x62, 0x63], cursor := 2 } ∧
    [EditKey.char 0x61 (by decide), .char 0x62 (by decide), .left,
        .char 0x63 (by decide)].foldl EditLine.edit (editLine shellSystemInit) =
      { text := [0x61, 0x63, 0x62], cursor := 2 } := by
  decide +kernel

end SKernel.Spec
