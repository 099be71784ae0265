import SKernel.ForStd.Padded
import SKernel.Native.Kobj
import SKernel.Native.StringOps

/-!
# What the string functions compute

A string in an array is a text without the byte zero, that byte, and what stands behind it.
-/

namespace SKernel.Spec

open SKernel.Native List Option

/-! ## The end of a string -/

variable {t s ta tb : List UInt8} {n : Nat}

theorem skStrlen_append_zero (ht : 0 ∉ t) (rest : List UInt8) :
    skStrlen (t ++ 0 :: rest) = some t.length := by
  induction t with
  | nil => simp [skStrlen]
  | cons c t ih =>
    simp only [mem_cons, not_or] at ht
    simp only [cons_append, skStrlen, if_neg (Ne.symm ht.1), ih ht.2, map_some,
      length_cons]

private theorem takeWhile_append_zero (ht : 0 ∉ t) (rest : List UInt8) :
    (t ++ 0 :: rest).takeWhile (· ≠ 0) = t := by
  rw [takeWhile_append_of_pos fun x hx => decide_eq_true (ne_of_mem_of_not_mem hx ht)]
  simp

/-- A string is what stands in front of the first zero. -/
theorem exists_eq_takeWhile_append (h : 0 ∈ s) :
    ∃ rest, s = s.takeWhile (· ≠ 0) ++ 0 :: rest := by
  obtain ⟨t, rest, hs, ht⟩ := eq_append_cons_of_mem h
  exact ⟨rest, by rw [hs, takeWhile_append_zero ht]⟩

/-- An array holds one string only. -/
theorem append_zero_inj {u a b : List UInt8} (ht : 0 ∉ t) (hu : 0 ∉ u)
    (h : t ++ 0 :: a = u ++ 0 :: b) : t = u := by
  rw [← takeWhile_append_zero ht a, h, takeWhile_append_zero hu]

theorem zero_notMem_takeWhile (s : List UInt8) : 0 ∉ s.takeWhile (· ≠ 0) := by
  intro h
  simpa using mem_takeWhile_imp h

private theorem exists_skStrlen (h : 0 ∈ s) : ∃ len, skStrlen s = some len := by
  obtain ⟨t, rest, rfl, ht⟩ := eq_append_cons_of_mem h
  exact ⟨t.length, skStrlen_append_zero ht rest⟩

theorem exists_stringChars (h : 0 ∈ s) : ∃ t, stringChars s = some t := by
  obtain ⟨len, hlen⟩ := exists_skStrlen h
  exact ⟨s.take len, by rw [stringChars, hlen, map_some]⟩

theorem rightpad_eq_append_zero (h : t.length < n) :
    t.rightpad n 0 = t ++ 0 :: List.replicate (n - t.length - 1) 0 := by
  rw [List.rightpad, ← replicate_succ]
  congr 2
  omega

theorem skStrlen_rightpad (ht : 0 ∉ t) (h : t.length < n) :
    skStrlen (t.rightpad n 0) = some t.length := by
  rw [rightpad_eq_append_zero h, skStrlen_append_zero ht]

theorem stringChars_rightpad (ht : 0 ∉ t) (h : t.length < n) :
    stringChars (t.rightpad n 0) = some t := by
  rw [stringChars, skStrlen_rightpad ht h, map_some, List.rightpad, take_left]

/-! ## Comparisons -/

theorem exists_skStrncmp (count : Nat) : ∀ {cs ct : List UInt8},
    (0 ∈ cs ∨ count ≤ cs.length) → (0 ∈ ct ∨ count ≤ ct.length) →
      ∃ ret, skStrncmp cs ct count = some ret := by
  induction count with
  | zero =>
    intro cs ct _ _
    exact ⟨0, by simp [skStrncmp]⟩
  | succ count ih =>
    intro cs ct hcs hct
    cases cs with
    | nil => simp at hcs
    | cons c cs =>
      cases ct with
      | nil => simp at hct
      | cons d ct =>
        simp only [skStrncmp]
        split
        · exact ⟨_, rfl⟩
        split
        · exact ⟨_, rfl⟩
        rename_i hne
        rw [not_or] at hne
        simp only [mem_cons, Ne.symm hne.1, Ne.symm hne.2, false_or, length_cons,
          Nat.add_le_add_iff_right] at hcs hct
        exact ih hcs hct

/-- The low eight bits of bytes tell them apart. -/
theorem bmod_sub_eq_zero_iff (c d : UInt8) :
    ((c.toNat : Int) - d.toNat).bmod 256 = 0 ↔ c = d := by
  have hc := c.toNat_lt
  have hd := d.toNat_lt
  rw [← Int.dvd_iff_bmod_eq_zero, ← UInt8.toNat_inj]
  omega

private theorem skStrncmp_cons_ne {c d : UInt8} (hcd : c ≠ d) (cs ct : List UInt8) (count : Nat) :
    ∃ ret, skStrncmp (c :: cs) (d :: ct) (count + 1) = some ret ∧ ret ≠ 0 :=
  have hne := mt (bmod_sub_eq_zero_iff c d).mp hcd
  ⟨_, if_pos hne, hne⟩

private theorem skStrncmp_cons_self {c : UInt8} (hc : c ≠ 0) (cs ct : List UInt8) (count : Nat) :
    skStrncmp (c :: cs) (c :: ct) (count + 1) = skStrncmp cs ct count := by
  simp [skStrncmp, hc]

theorem skStrncmp_append_zero (ha : 0 ∉ ta) (hb : 0 ∉ tb) (ra rb : List UInt8) (count : Nat) :
    ∃ ret, skStrncmp (ta ++ 0 :: ra) (tb ++ 0 :: rb) count = some ret ∧
      (ret = 0 ↔ ta.take count = tb.take count) := by
  induction count generalizing ta tb with
  | zero => exact ⟨0, by simp [skStrncmp]⟩
  | succ count ih =>
    -- a string that has ended goes on with the byte zero, which no character is equal to
    cases ta with
    | nil =>
      cases tb with
      | nil => exact ⟨0, by simp [skStrncmp]⟩
      | cons d tb =>
        rw [mem_cons, not_or] at hb
        obtain ⟨ret, hret, hne⟩ := skStrncmp_cons_ne hb.1 ra (tb ++ 0 :: rb) count
        exact ⟨ret, hret, by simp [hne]⟩
    | cons c ta =>
      rw [mem_cons, not_or] at ha
      cases tb with
      | nil =>
        obtain ⟨ret, hret, hne⟩ := skStrncmp_cons_ne (Ne.symm ha.1) (ta ++ 0 :: ra) rb count
        exact ⟨ret, hret, by simp [hne]⟩
      | cons d tb =>
        rw [mem_cons, not_or] at hb
        simp only [cons_append]
        by_cases hcd : c = d
        · subst hcd
          obtain ⟨ret, hret, hzero⟩ := ih ha.2 hb.2
          exact ⟨ret, by rw [skStrncmp_cons_self (Ne.symm ha.1), hret], by simp [hzero]⟩
        · obtain ⟨ret, hret, hne⟩ :=
            skStrncmp_cons_ne hcd (ta ++ 0 :: ra) (tb ++ 0 :: rb) count
          exact ⟨ret, hret, by simp [hne, hcd]⟩

/-- The end of the first string is never passed. -/
theorem skStrcmpArray_eq_skStrncmp (st1 st2 : List UInt8) (count : Nat) :
    skStrcmpArray st1 st2 count = skStrncmp st1 st2 count := by
  induction count generalizing st1 st2 with
  | zero => simp [skStrcmpArray, skStrncmp]
  | succ count ih =>
    cases st1 with
    | nil => simp [skStrcmpArray, skStrncmp]
    | cons c st1 =>
      cases st2 with
      | nil => simp [skStrcmpArray, skStrncmp]
      | cons d st2 =>
        simp only [skStrcmpArray, skStrncmp, ih]
        -- after a difference both stop; equal characters are both zero or both not
        by_cases hcd : c = d
        · subst hcd
          simp
        · rw [if_pos (.inl (mt (bmod_sub_eq_zero_iff c d).mp hcd)),
            if_pos (mt (bmod_sub_eq_zero_iff c d).mp hcd)]

/-- It tells whether the second begins with the first. -/
theorem skStrcmpArray_prefix (a b : CString) :
    ∃ len ret, skStrlen a.bytes = some len ∧ skStrcmpArray a.bytes b.bytes len = some ret ∧
      (ret = 0 ↔ a.text <+: b.text) := by
  have ha : 0 ∉ a.text := zero_notMem_takeWhile a.bytes
  obtain ⟨ra, hra⟩ := exists_eq_takeWhile_append a.terminated
  obtain ⟨rb, hrb⟩ := exists_eq_takeWhile_append b.terminated
  rw [← CString.text] at hra hrb
  obtain ⟨ret, hret, hzero⟩ :=
    skStrncmp_append_zero ha (zero_notMem_takeWhile b.bytes) ra rb a.text.length
  refine ⟨a.text.length, ret, ?_, ?_, ?_⟩
  · rw [hra, skStrlen_append_zero ha]
  · rw [skStrcmpArray_eq_skStrncmp, hra, hrb]
    exact hret
  · rw [hzero, take_length, prefix_iff_eq_take]
    rfl

private theorem take_eq_take_iff_cases {α : Type*} {l l' : List α} :
    l.take n = l'.take n ↔
      (n ≤ l.length ∧ n ≤ l'.length ∧ l.take n = l'.take n) ∨ (l = l' ∧ l.length < n) := by
  constructor
  · intro h
    have hlen := congrArg List.length h
    rw [length_take, length_take] at hlen
    by_cases hn : n ≤ l.length
    · exact .inl ⟨hn, by omega, h⟩
    · rw [take_of_length_le (by omega), take_of_length_le (by omega)] at h
      exact .inr ⟨h, by omega⟩
  · rintro (h | h)
    · exact h.2.2
    · rw [h.1]

private theorem toInt_sub_toBitVec (c d : UInt8) :
    (c.toBitVec - d.toBitVec).toInt = ((c.toNat : Int) - d.toNat).bmod 256 := by
  rw [BitVec.toInt_sub, BitVec.toInt_eq_toNat_bmod, BitVec.toInt_eq_toNat_bmod]
  simp

private theorem skStrncmp_behind_zero (ha : 0 ∉ ta) (hb : 0 ∉ tb) (ra rb ra' rb' : List UInt8)
    (count : Nat) :
    skStrncmp (ta ++ 0 :: ra) (tb ++ 0 :: rb) count =
      skStrncmp (ta ++ 0 :: ra') (tb ++ 0 :: rb') count := by
  induction count generalizing ta tb with
  | zero => simp only [skStrncmp]
  | succ count ih =>
    cases ta with
    | nil => cases tb <;> simp [skStrncmp]
    | cons c ta =>
      rw [mem_cons, not_or] at ha
      cases tb with
      | nil => simp [skStrncmp]
      | cons d tb =>
        rw [mem_cons, not_or] at hb
        simp only [cons_append, skStrncmp, ih ha.2 hb.2]

private theorem skStrcmp_toInt {st1 st2 : List UInt8} {count : Nat} {ret : Int}
    (h : skStrcmpArray st1 st2 count = some ret) :
    (skStrcmp (st1.map UInt8.toBitVec) (st2.map UInt8.toBitVec) count).toInt = ret := by
  induction count generalizing st1 st2 with
  | zero =>
    simp only [skStrcmpArray, some.injEq] at h
    simp [skStrcmp, ← h]
  | succ count ih =>
    cases st1 with
    | nil => simp [skStrcmpArray] at h
    | cons c st1 =>
      cases st2 with
      | nil => simp [skStrcmpArray] at h
      | cons d st2 =>
        have hzero : c.toBitVec - d.toBitVec = 0 ↔ ((c.toNat : Int) - d.toNat).bmod 256 = 0 := by
          rw [bmod_sub_eq_zero_iff, ← UInt8.toBitVec_inj]
          bv_omega
        have hend : d.toBitVec = 0 ↔ d = 0 := UInt8.toBitVec_inj
        simp only [skStrcmpArray] at h
        simp only [map_cons, skStrcmp, ne_eq, hzero, hend]
        split at h
        · rename_i hstop
          rw [if_pos hstop, ← some.inj h, toInt_sub_toBitVec]
        · rename_i hgo
          rw [if_neg hgo]
          exact ih h

/-- **`sk_strcmp` and `sk_strncmp` return zero for the same strings: those that agree on their first
    `count` characters, and equal ones that are shorter.** They do so on arrays that end with the
    strings, so they read nothing behind the ends. -/
theorem string_comparisons_agree (a b : CString) (count : Nat) :
    ∃ r1 r2 : Int,
      (skStrcmpArray (a.text ++ [0]) (b.text ++ [0]) count = some r1 ∧
        skStrcmpArray a.bytes b.bytes count = some r1 ∧
        (skStrcmp (a.bytes.map UInt8.toBitVec) (b.bytes.map UInt8.toBitVec) count).toInt = r1) ∧
      (skStrncmp (a.text ++ [0]) (b.text ++ [0]) count = some r2 ∧
        skStrncmp a.bytes b.bytes count = some r2) ∧
      (r1 = 0 ↔ r2 = 0) ∧
      (r2 = 0 ↔
        (count ≤ a.text.length ∧ count ≤ b.text.length ∧
          a.text.take count = b.text.take count) ∨
        (a.text = b.text ∧ a.text.length < count)) := by
  have ha : 0 ∉ a.text := zero_notMem_takeWhile a.bytes
  have hb : 0 ∉ b.text := zero_notMem_takeWhile b.bytes
  obtain ⟨ra, hra⟩ := exists_eq_takeWhile_append a.terminated
  obtain ⟨rb, hrb⟩ := exists_eq_takeWhile_append b.terminated
  rw [← CString.text] at hra hrb
  obtain ⟨ret, hret, hzero⟩ := skStrncmp_append_zero ha hb ra rb count
  have hshort := skStrncmp_behind_zero ha hb ra rb [] [] count
  rw [← hra, ← hrb] at hret hshort
  have hcmp : skStrcmpArray a.bytes b.bytes count = some ret := by
    rw [skStrcmpArray_eq_skStrncmp, hret]
  refine ⟨ret, ret, ⟨?_, hcmp, skStrcmp_toInt hcmp⟩, ⟨?_, hret⟩, Iff.rfl, ?_⟩
  · rw [skStrcmpArray_eq_skStrncmp, ← hshort, hret]
  · rw [← hshort, hret]
  · rw [hzero]
    exact take_eq_take_iff_cases

theorem skMemcmp_spec (count : Nat) : ∀ {cs ct : List UInt8},
    count ≤ cs.length → count ≤ ct.length →
      ∃ ret, skMemcmp cs ct count = some ret ∧ (ret = 0 ↔ cs.take count = ct.take count) := by
  induction count with
  | zero =>
    intro cs ct _ _
    exact ⟨0, by simp [skMemcmp]⟩
  | succ count ih =>
    intro cs ct hcs hct
    cases cs with
    | nil => simp at hcs
    | cons c cs =>
      cases ct with
      | nil => simp at hct
      | cons d ct =>
        obtain ⟨ret, hret, heq⟩ := ih (Nat.le_of_succ_le_succ hcs) (Nat.le_of_succ_le_succ hct)
        by_cases hcd : c = d
        · subst hcd
          exact ⟨ret, by simp [skMemcmp, hret], by simpa using heq⟩
        · have hne : (c.toNat : Int) - d.toNat ≠ 0 := by
            intro h
            exact hcd (UInt8.toNat_inj.mp (by omega))
          refine ⟨_, by rw [skMemcmp, if_pos hne], ?_⟩
          simp [hne, hcd]

end SKernel.Spec
