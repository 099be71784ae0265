import SKernel.ForStd.Circular
import SKernel.Spec.Itoa

/-!
# Formatted output and its buffer

`sk_vsprintf` writes the formatted text and the zero behind it, wherever they end. `sk_kprintf`
gives it a buffer of `SK_CONSOLE_BUF_SIZE` bytes and looks at the length afterwards.
-/

namespace SKernel.Spec

open SKernel.Native Circular Function List Option

/-! ## The formatted text -/

/-- What a conversion makes of the arguments, and the arguments that are left. -/
def convText (k : UInt8) (args : List KprintfArg) : Option (List UInt8 × List KprintfArg) :=
  if k = 0x64 then
    match args with
    | .int val :: args => some (itoaText 10 val, args)
    | _ => none
  else if k = 0x78 then
    match args with
    | .int val :: args => some (itoaText 16 val, args)
    | _ => none
  else if k = 0x73 then
    match args with
    | .str val :: args => some (val.text, args)
    | _ => none
  else if k = 0x63 then
    match args with
    | .int val :: args => some ([UInt8.ofNat val.toNat], args)
    | _ => none
  else some ([0x25, k], args)

/-- The text that a format makes of its arguments, if they are of the kinds it asks for. -/
def formatText : List UInt8 → List KprintfArg → Option (List UInt8)
  | [], _ => some []
  | [c], _ => some [c]
  | c :: k :: fmt, args =>
    if c = 0x25 then do
      let (text, args) ← convText k args
      let rest ← formatText fmt args
      some (text ++ rest)
    else do
      let rest ← formatText (k :: fmt) args
      some (c :: rest)

/-! ## Stores -/

/-- The memory after a list of stores. -/
def applyStores (m : Nat → UInt8) (stores : List Store) : Nat → UInt8 :=
  stores.foldl (fun m s => update m s.1 s.2) m

private theorem applyStores_append (m : Nat → UInt8) (s t : List Store) :
    applyStores m (s ++ t) = applyStores (applyStores m s) t :=
  foldl_append

/-- The stores write the text to the place `pos`. They may also change the byte behind it. -/
structure Writes (stores : List Store) (pos : Nat) (text : List UInt8) : Prop where
  within : ∀ s ∈ stores, pos ≤ s.1 ∧ s.1 ≤ pos + text.length
  covers : ∀ i < text.length, ∃ byte, (pos + i, byte) ∈ stores
  content : ∀ m x, x ≠ pos + text.length → applyStores m stores x = blit m pos text x

namespace Writes

variable {s t : List Store} {pos : Nat} {text more u temp out : List UInt8} {args : List KprintfArg}

private theorem nul (pos : Nat) : Writes [(pos, 0)] pos [] where
  within := by simp
  covers := by simp
  content := by
    intro m x hx
    rw [blit_nil]
    exact update_of_ne hx _ _

theorem char (pos : Nat) (c : UInt8) : Writes [(pos, c)] pos [c] where
  within := by simp
  covers := by
    intro i hi
    rw [length_singleton, Nat.lt_one_iff] at hi
    exact ⟨c, by simp [hi]⟩
  content := by
    intro m x _
    rw [blit_cons, blit_nil]
    rfl

theorem append (hs : Writes s pos text) (ht : Writes t (pos + text.length) more) :
    Writes (s ++ t) pos (text ++ more) where
  within := by
    intro x hx
    rw [length_append]
    rcases mem_append.mp hx with hx | hx
    · have := hs.within x hx
      omega
    · have := ht.within x hx
      omega
  covers := by
    intro i hi
    rw [length_append] at hi
    by_cases hlt : i < text.length
    · obtain ⟨byte, hbyte⟩ := hs.covers i hlt
      exact ⟨byte, mem_append_left _ hbyte⟩
    · obtain ⟨byte, hbyte⟩ := ht.covers (i - text.length) (by omega)
      rw [show pos + text.length + (i - text.length) = pos + i by omega] at hbyte
      exact ⟨byte, mem_append_right _ hbyte⟩
  content := by
    intro m x hx
    rw [length_append] at hx
    rw [applyStores_append, ht.content _ x (by omega), blit_append]
    apply blit_congr
    by_cases hbehind : x = pos + text.length
    · left
      omega
    · right
      exact hs.content m x hbehind

end Writes

/-- A string is copied with the zero behind it. -/
theorem skStrcpy_writes (hu : 0 ∉ u) (rest : List UInt8) (pos : Nat) :
    ∃ stores, skStrcpy pos (u ++ 0 :: rest) = some stores ∧ Writes stores pos u := by
  induction u generalizing pos with
  | nil => exact ⟨_, rfl, .nul pos⟩
  | cons c u ih =>
    rw [mem_cons, not_or] at hu
    obtain ⟨stores, hstores, hwrites⟩ := ih hu.2 (pos + 1)
    refine ⟨(pos, c) :: stores, ?_, ?_⟩
    · rw [cons_append, skStrcpy, if_neg (Ne.symm hu.1), hstores, map_some]
    · exact (Writes.char pos c).append hwrites

theorem convString_writes (hu : 0 ∉ u) (rest : List UInt8) (pos : Nat) (args : List KprintfArg)
    (temp : List UInt8) :
    ∃ stores, convString (u ++ 0 :: rest) pos args temp =
        some { stores := stores, pos := pos + u.length, args := args, temp := temp } ∧
      Writes stores pos u := by
  obtain ⟨stores, hstores, hwrites⟩ := skStrcpy_writes hu rest pos
  refine ⟨stores, ?_, hwrites⟩
  simp only [convString, hstores, skStrlen_append_zero hu, bind_eq_bind, bind_some]

/-! ## Conversions -/

/-- A conversion has stored the text, and its state fits the arguments that are left. -/
structure ConvRight (conv : ConvEnd) (pos : Nat) (text : List UInt8) (args : List KprintfArg) :
    Prop where
  writes : Writes conv.stores pos text
  pos_eq : conv.pos = pos + text.length
  args_eq : conv.args = args
  temp_le : 12 ≤ conv.temp.length

private theorem convNumber_right {base : Nat} (hlo : 10 ≤ base) (hhi : base ≤ 16) (val : BitVec 32)
    (args : List KprintfArg) (htemp : 12 ≤ temp.length) (pos : Nat) :
    ∃ conv, convNumber base pos temp (.int val :: args) = some conv ∧
      ConvRight conv pos (itoaText base val) args := by
  have hlen := length_itoaText_le hlo val
  obtain ⟨stores, hconv, hwrites⟩ := convString_writes (zero_notMem_itoaText hlo hhi val)
    (temp.drop ((itoaText base val).length + 1)) pos args
    (itoaText base val ++ 0 :: temp.drop ((itoaText base val).length + 1))
  have htemp' : 12 ≤
      (itoaText base val ++ 0 :: temp.drop ((itoaText base val).length + 1)).length := by
    simp only [length_append, length_cons, length_drop]
    omega
  simp only [convNumber, skItoa_eq hlo val htemp, bind_eq_bind, bind_some]
  exact ⟨_, hconv, hwrites, rfl, rfl, htemp'⟩

private theorem conversion_right {k : UInt8} {args' : List KprintfArg} {text : List UInt8}
    (h : convText k args = some (text, args')) (htemp : 12 ≤ temp.length) (pos : Nat) :
    ∃ conv, conversion k pos args temp = some conv ∧ ConvRight conv pos text args' := by
  unfold convText at h
  unfold conversion
  split at h
  · rename_i hk
    rw [if_pos hk]
    split at h
    · cases h
      exact convNumber_right (le_refl 10) (by omega) _ _ htemp pos
    · cases h
  rename_i hd
  rw [if_neg hd]
  split at h
  · rename_i hk
    rw [if_pos hk]
    split at h
    · cases h
      exact convNumber_right (by omega) (le_refl 16) _ _ htemp pos
    · cases h
  rename_i hx
  rw [if_neg hx]
  split at h
  · rename_i hk
    rw [if_pos hk]
    split at h
    · rename_i val args
      cases h
      obtain ⟨rest, hbytes⟩ := exists_eq_takeWhile_append val.terminated
      obtain ⟨stores, hconv, hwrites⟩ := convString_writes (zero_notMem_takeWhile val.bytes) rest
        pos args' temp
      rw [← hbytes] at hconv
      exact ⟨_, hconv, hwrites, rfl, rfl, htemp⟩
    · cases h
  rename_i hs
  rw [if_neg hs]
  split at h
  · rename_i hk
    rw [if_pos hk]
    split at h
    · cases h
      exact ⟨_, rfl, .char pos _, rfl, rfl, htemp⟩
    · cases h
  · rename_i hc
    rw [if_neg hc]
    cases h
    exact ⟨_, rfl, (Writes.char pos 0x25).append (.char (pos + 1) k), rfl, rfl, htemp⟩

/-! ## The whole format -/

private theorem vsprintfLoop_nul (rest : List UInt8) (pos : Nat) (args : List KprintfArg)
    (temp : List UInt8) : vsprintfLoop (0 :: rest) pos args temp = some ([(pos, 0)], pos) := by
  cases rest <;> simp [vsprintfLoop]

theorem vsprintfLoop_writes {fmt : List UInt8} (hfmt : 0 ∉ fmt) (h : formatText fmt args = some out)
    (htemp : 12 ≤ temp.length) (rest : List UInt8) (pos : Nat) :
    ∃ stores, vsprintfLoop (fmt ++ 0 :: rest) pos args temp = some (stores, pos + out.length) ∧
      Writes stores pos out ∧ stores.getLast? = some (pos + out.length, 0) := by
  induction fmt, args using formatText.induct generalizing out temp pos with
  | case1 args =>
    cases h
    exact ⟨_, vsprintfLoop_nul rest pos args temp, .nul pos, rfl⟩
  | case2 c args =>
    -- a percent sign in front of the end is a plain character
    cases h
    rw [mem_singleton] at hfmt
    refine ⟨[(pos, c), (pos + 1, 0)], ?_, (Writes.char pos c).append (.nul (pos + 1)), rfl⟩
    simp [vsprintfLoop, Ne.symm hfmt, vsprintfLoop_nul]
  | case3 k fmt args ih =>
    simp only [mem_cons, not_or] at hfmt
    simp only [formatText, if_true, bind_eq_bind, bind_eq_some_iff] at h
    obtain ⟨⟨text, args'⟩, hconv, more, hmore, hout⟩ := h
    cases hout
    obtain ⟨conv, hconv, hright⟩ := conversion_right hconv htemp pos
    obtain ⟨stores, hstores, hwrites, hlast⟩ := ih args' hfmt.2.2 hmore hright.temp_le conv.pos
    rw [hright.pos_eq] at hstores hwrites hlast
    refine ⟨conv.stores ++ stores, ?_, hright.writes.append hwrites, ?_⟩
    · simp [vsprintfLoop, Ne.symm hfmt.2.1, hconv, hright.pos_eq, hright.args_eq, hstores,
        Nat.add_assoc]
    · simp [getLast?_append, hlast, Nat.add_assoc]
  | case4 c k fmt args hc ih =>
    rw [mem_cons, not_or] at hfmt
    simp only [formatText, if_neg hc, bind_eq_bind, bind_eq_some_iff] at h
    obtain ⟨more, hmore, hout⟩ := h
    cases hout
    obtain ⟨stores, hstores, hwrites, hlast⟩ := ih hfmt.2 hmore htemp (pos + 1)
    refine ⟨(pos, c) :: stores, ?_, (Writes.char pos c).append hwrites, ?_⟩
    · rw [cons_append] at hstores
      simp [vsprintfLoop, Ne.symm hfmt.1, hc, hstores, Nat.add_assoc, Nat.add_comm 1]
    · simp [getLast?_cons, hlast, Nat.add_assoc, Nat.add_comm 1]

private theorem skVsprintf_writes {fmt : CString} (h : formatText fmt.text args = some out)
    (htemp : 12 ≤ temp.length) :
    ∃ stores, skVsprintf fmt args temp = some (stores, out.length) ∧ Writes stores 0 out ∧
      stores.getLast? = some (out.length, 0) := by
  obtain ⟨rest, hbytes⟩ := exists_eq_takeWhile_append fmt.terminated
  have hwrites := vsprintfLoop_writes (zero_notMem_takeWhile fmt.bytes) h htemp rest 0
  rw [← hbytes, Nat.zero_add] at hwrites
  exact hwrites

/-- **The formatted text.** The buffer holds the formatted text and the zero behind it, and nothing
    else has changed. -/
theorem skVsprintf_content {fmt : CString} {args : List KprintfArg} {out temp : List UInt8}
    (h : formatText fmt.text args = some out) (htemp : 12 ≤ temp.length) :
    ∃ stores, skVsprintf fmt args temp = some (stores, out.length) ∧
      ∀ m, applyStores m stores = blit m 0 (out ++ [0]) := by
  obtain ⟨stores, hrun, hwrites, hlast⟩ := skVsprintf_writes h htemp
  refine ⟨stores, hrun, fun m => funext fun x => ?_⟩
  rw [blit_append, Nat.zero_add]
  by_cases hx : x = out.length
  · obtain ⟨front, rfl⟩ := getLast?_eq_some_iff.mp hlast
    rw [applyStores_append, hx, blit_cons, blit_nil, update_self]
    exact update_self _ _ _
  · rw [hwrites.content m x (by omega), blit_cons, blit_nil, update_of_ne hx]

/-- "%s". -/
def stringFormat : CString where
  addr := 0
  bytes := [0x25, 0x73, 0]
  terminated := by decide

/-- A string of `n` letters "a". -/
def letters (n : Nat) : CString where
  addr := 0
  bytes := List.replicate n 0x61 ++ [0]
  terminated := by simp

/-- Two letters are formatted. -/
theorem skVsprintf_content_letters :
    ∃ stores, skVsprintf stringFormat [.str (letters 2)] (List.replicate 32 0) = some (stores, 2) ∧
      ∀ m, applyStores m stores = blit m 0 [0x61, 0x61, 0] :=
  skVsprintf_content (show formatText stringFormat.text [.str (letters 2)] = some [0x61, 0x61] by
    decide) (by decide)

/-- **`sk_kprintf` stays inside its buffer, and the bytes it passes to the console are all written,
    exactly if the formatted text leaves room for the zero behind it.** -/
theorem kprintf_inside_iff (console : Bool) (fmt : CString) (args : List KprintfArg)
    (temp out : List UInt8) (htemp : temp.length = 32)
    (hformat : formatText fmt.text args = some out) :
    ∃ stores passed, skKprintf console fmt args temp = some (stores, passed) ∧
      (((∀ s ∈ stores, s.1 < skConsoleBufSize) ∧
          ∀ n ∈ passed, n ≤ skConsoleBufSize ∧ ∀ i < n, ∃ byte, (i, byte) ∈ stores) ↔
        out.length < skConsoleBufSize) := by
  obtain ⟨stores, hrun, hwrites, hlast⟩ := skVsprintf_writes hformat
    (show 12 ≤ temp.length by omega)
  simp only [skKprintf, hrun, bind_eq_bind, bind_some]
  refine ⟨stores, _, rfl, ?_⟩
  constructor
  · rintro ⟨hinside, -⟩
    exact hinside _ (mem_of_getLast? hlast)
  · intro hlt
    constructor
    · intro s hs
      have := hwrites.within s hs
      omega
    · intro n hn
      split at hn
      · cases hn
        rw [if_neg (by omega)]
        refine ⟨hlt.le, fun i hi => ?_⟩
        obtain ⟨byte, hbyte⟩ := hwrites.covers i hi
        rw [Nat.zero_add] at hbyte
        exact ⟨byte, hbyte⟩
      · cases hn

/-- Three letters are printed. -/
theorem kprintf_inside_iff_letters :
    ∃ stores passed, skKprintf true stringFormat [.str (letters 3)] (List.replicate 32 0) =
        some (stores, passed) ∧ (∀ s ∈ stores, s.1 < skConsoleBufSize) ∧
      ∀ n ∈ passed, n ≤ skConsoleBufSize ∧ ∀ i < n, ∃ byte, (i, byte) ∈ stores := by
  obtain ⟨stores, passed, hrun, hinside⟩ := kprintf_inside_iff true stringFormat
    [.str (letters 3)] (List.replicate 32 0) [0x61, 0x61, 0x61] (by decide) (by decide)
  exact ⟨stores, passed, hrun, hinside.mpr (by decide)⟩

/-- The zero behind 128 letters is written outside of the buffer. -/
theorem kprintf_writes_outside :
    ∃ stores, skKprintf true stringFormat [.str (letters 128)] (List.replicate 32 0) =
        some (stores, some 128) ∧ (128, 0) ∈ stores := by
  have hrun : (skKprintf true stringFormat [.str (letters 128)] (List.replicate 32 0)).map
      (fun r => (r.2, decide ((128, 0) ∈ r.1))) = some (some 128, true) := by
    decide +kernel
  obtain ⟨⟨stores, passed⟩, hkprintf, hr⟩ := map_eq_some_iff.mp hrun
  rw [Prod.mk.injEq, decide_eq_true_eq] at hr
  obtain ⟨rfl, hmem⟩ := hr
  exact ⟨stores, hkprintf, hmem⟩

end SKernel.Spec
