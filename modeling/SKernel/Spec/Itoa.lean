import Mathlib.Data.Nat.Digits.Lemmas
import SKernel.Native.Console
import SKernel.Spec.StringOps

/-!
# Numbers as texts

`sk_itoa` writes the digits of a number from the last one to the first one and reverses them. The
remainders of a negative number are negative, and the characters made of them are no digits. In
base 10 the number is made positive before, which does not help the smallest one; in base 16 it is
not, although the number is meant as a word without a sign.
-/

namespace SKernel.Spec

open SKernel.Native List Option

/-! ## Numerals -/

/-- The character of a digit. -/
def digitChar (d : Nat) : UInt8 :=
  if d < 10 then UInt8.ofNat (0x30 + d) else UInt8.ofNat (0x61 + (d - 10))

/-- The digits of a number, the first one not zero unless the number is. -/
def numeral (base n : Nat) : List UInt8 :=
  if n = 0 then [0x30] else (Nat.digits base n).reverse.map digitChar

/-- The decimal representation of a number. -/
def decimalText (num : Int) : List UInt8 :=
  if num < 0 then 0x2d :: numeral 10 num.natAbs else numeral 10 num.natAbs

/-! ## What `sk_itoa` writes -/

/-- The characters that are made of the remainders of a number. -/
def remainderChars (base : Nat) (num : Int) : List UInt8 :=
  ((Nat.digits base num.natAbs).map fun d : Nat => itoaChar (num.sign * d)).reverse

/-- The text that `sk_itoa` writes. -/
def itoaText (base : Nat) (num : BitVec 32) : List UInt8 :=
  if num = 0 then [0x30]
  else if num.toInt < 0 ∧ base = 10 then 0x2d :: remainderChars base (-num).toInt
  else remainderChars base num.toInt

variable {base : Nat}

private theorem itoaLoop_eq (hbase : 1 < base) {s : Int} (hs : s = 1 ∨ s = -1) (n : Nat)
    {cells : List UInt8} (hroom : (Nat.digits base n).length ≤ cells.length) :
    itoaLoop base (s * n) cells =
      some ((Nat.digits base n).map (fun d : Nat => itoaChar (s * d)),
        cells.drop (Nat.digits base n).length) := by
  induction cells generalizing n with
  | nil =>
    have hn : n = 0 := by simpa [Nat.digits_eq_nil_iff_eq_zero] using hroom
    simp [itoaLoop, hn]
  | cons cell cells ih =>
    by_cases hn : n = 0
    · simp [itoaLoop, hn]
    have hne : s * n ≠ 0 := by
      rcases hs with rfl | rfl <;> omega
    -- division and remainder of C go towards zero, so the sign comes out
    have hdiv : (s * n).tdiv base = s * (n / base : Nat) := by
      rcases hs with rfl | rfl <;> simp [Int.neg_tdiv]
    have hmod : (s * n).tmod base = s * (n % base : Nat) := by
      rcases hs with rfl | rfl <;> simp [Int.neg_tmod, Int.tmod_eq_emod_of_nonneg]
    rw [Nat.digits_def' hbase (Nat.pos_of_ne_zero hn)] at hroom ⊢
    have hrest := ih (n / base) (Nat.le_of_succ_le_succ hroom)
    simp only [itoaLoop, if_neg hne, hdiv, hmod, hrest, bind_eq_bind,
      bind_some, map_cons, length_cons, drop_succ_cons]

private theorem set_set_swap {α : Type*} (a m b : List α) (x y : α) :
    ((a ++ x :: (m ++ y :: b)).set a.length y).set (a.length + m.length + 1) x =
      a ++ y :: (m ++ x :: b) := by
  rw [set_append_right _ _ (le_refl _), Nat.sub_self, set_cons_zero,
    set_append_right _ _ (by omega),
    show a.length + m.length + 1 - a.length = m.length + 1 by omega, set_cons_succ,
    set_append_right _ _ (le_refl _), Nat.sub_self, set_cons_zero]

private theorem itoaReverse_eq (m a b : List UInt8) :
    itoaReverse (a ++ (m ++ b)) a.length (a.length + m.length - 1) =
      some (a ++ (m.reverse ++ b)) := by
  induction m using List.bidirectionalRec generalizing a b with
  | nil =>
    rw [itoaReverse, if_neg (by simp)]
    rfl
  | singleton x =>
    rw [itoaReverse, if_neg (by simp)]
    rfl
  | cons_append x m y ih =>
    have hstop : a.length + (x :: (m ++ [y])).length - 1 = a.length + m.length + 1 := by
      simp only [length_cons, length_append, length_nil]
      omega
    have hstr : a ++ (x :: (m ++ [y]) ++ b) = a ++ x :: (m ++ y :: b) := by simp
    have hfirst : (a ++ x :: (m ++ y :: b))[a.length]? = some x := by simp
    have hlast : (a ++ x :: (m ++ y :: b))[a.length + m.length + 1]? = some y := by
      rw [getElem?_append_right (by omega),
        show a.length + m.length + 1 - a.length = m.length + 1 by omega, getElem?_cons_succ]
      simp
    rw [hstop, hstr, itoaReverse, if_pos (by omega), hfirst, hlast]
    simp only [bind_eq_bind, bind_some, set_set_swap, Nat.add_sub_cancel]
    -- the next round has one more element on each side
    have hround := ih (a ++ [y]) (x :: b)
    simpa [Nat.add_right_comm] using hround

private theorem length_digits_le (hbase : 10 ≤ base) (num : BitVec 32) :
    (Nat.digits base num.toInt.natAbs).length ≤ 10 := by
  have hlo := BitVec.le_toInt num
  have hhi := BitVec.toInt_lt (x := num)
  rw [Nat.digits_length_le_iff (by omega)]
  calc num.toInt.natAbs < 10 ^ 10 := by omega
    _ ≤ base ^ 10 := Nat.pow_le_pow_left hbase 10

private theorem length_remainderChars_le (hbase : 10 ≤ base) (num : BitVec 32) :
    (remainderChars base num.toInt).length ≤ 10 := by
  simpa [remainderChars] using length_digits_le hbase num

theorem length_itoaText_le (hbase : 10 ≤ base) (num : BitVec 32) :
    (itoaText base num).length ≤ 11 := by
  unfold itoaText
  split
  · simp
  split
  · exact Nat.succ_le_succ (length_remainderChars_le hbase (-num))
  · exact (length_remainderChars_le hbase num).trans (by omega)

private theorem toInt_ne_zero {num : BitVec 32} (hnum : num ≠ 0) : num.toInt ≠ 0 :=
  fun h => hnum (BitVec.toInt_inj.mp h)

variable {str : List UInt8}

private theorem itoaLoop_toInt (hbase : 10 ≤ base) {num : BitVec 32} (hnum : num ≠ 0)
    (hroom : 10 ≤ str.length) :
    itoaLoop base num.toInt str =
      some ((remainderChars base num.toInt).reverse,
        str.drop (remainderChars base num.toInt).length) := by
  have hsign : num.toInt.sign = 1 ∨ num.toInt.sign = -1 := by
    rcases Int.lt_trichotomy num.toInt 0 with h | h | h
    · exact .inr (Int.sign_eq_neg_one_of_neg h)
    · exact absurd h (toInt_ne_zero hnum)
    · exact .inl (Int.sign_eq_one_of_pos h)
  have hloop := itoaLoop_eq (by omega) hsign num.toInt.natAbs
    ((length_digits_le hbase num).trans hroom)
  rw [Int.sign_mul_natAbs] at hloop
  rw [hloop, remainderChars, reverse_reverse, length_reverse, length_map]

private theorem itoaFinish_drop (text : List UInt8) {k : Nat} (hk : k < str.length) :
    itoaFinish text (str.drop k) = some (text.reverse ++ 0 :: str.drop (k + 1)) := by
  rw [drop_eq_getElem_cons hk, itoaFinish]
  simpa using itoaReverse_eq text [] (0 :: str.drop (k + 1))

/-- The rest of the array is left alone. -/
theorem skItoa_eq (hbase : 10 ≤ base) (num : BitVec 32) (hroom : 12 ≤ str.length) :
    skItoa num str base =
      some (itoaText base num ++ 0 :: str.drop ((itoaText base num).length + 1)) := by
  by_cases hnum : num = 0
  · match str, hroom with
    | _ :: _ :: rest, _ => simp [skItoa, itoaZero, itoaText, hnum]
  rw [skItoa, itoaText, if_neg hnum, if_neg hnum]
  by_cases hneg : num.toInt < 0 ∧ base = 10
  · have hneg' : num.toInt < 0 ∧ (base : Int) = 10 := ⟨hneg.1, by omega⟩
    have hlen := length_remainderChars_le hbase (-num)
    have hloop := itoaLoop_toInt hbase (show -num ≠ 0 by simpa using hnum)
      (show 10 ≤ str.length by omega)
    -- the sign takes the place behind the last digit
    have hsign : itoaSign true (remainderChars base (-num).toInt).reverse
        (str.drop (remainderChars base (-num).toInt).length) =
          some ((0x2d :: remainderChars base (-num).toInt).reverse,
            str.drop (0x2d :: remainderChars base (-num).toInt).length) := by
      rw [drop_eq_getElem_cons (by omega), reverse_cons]
      rfl
    simp only [if_pos hneg, decide_eq_true hneg', if_true, hloop, hsign, bind_eq_bind,
      bind_some]
    rw [itoaFinish_drop _ (by rw [length_cons]; omega), reverse_reverse]
  · have hneg' : ¬(num.toInt < 0 ∧ (base : Int) = 10) := fun h => hneg ⟨h.1, by omega⟩
    have hlen := length_remainderChars_le hbase num
    have hloop := itoaLoop_toInt hbase hnum (show 10 ≤ str.length by omega)
    simp only [if_neg hneg, decide_eq_false hneg', Bool.false_eq_true, if_false, hloop, itoaSign,
      bind_eq_bind, bind_some]
    rw [itoaFinish_drop _ (by omega), reverse_reverse]

/-! ## Which characters are written -/

private theorem itoaChar_eq_digitChar : ∀ d : Nat, d < 16 → itoaChar (1 * d) = digitChar d := by
  decide

theorem itoaChar_ne_zero : ∀ d : Nat, d < 16 → itoaChar (1 * d) ≠ 0 ∧ itoaChar (-1 * d) ≠ 0 := by
  decide

/-- Negative remainders are the letters from `H` to `V`. -/
theorem itoaChar_neg : ∀ d : Nat, d < 16 → d ≠ 0 →
    0x48 ≤ itoaChar (-1 * d) ∧ itoaChar (-1 * d) ≤ 0x56 := by
  decide

private theorem digitChar_ne_zero : ∀ d : Nat, d < 16 → digitChar d ≠ 0 := by
  decide

theorem digitChar_range : ∀ d : Nat, d < 16 → ¬(0x48 ≤ digitChar d ∧ digitChar d ≤ 0x56) := by
  decide

section Chars

variable {base : Nat} (hlo : 10 ≤ base) (hhi : base ≤ 16)
include hlo hhi

private theorem digit_lt {d n : Nat} (hd : d ∈ Nat.digits base n) : d < 16 :=
  (Nat.digits_lt_base (by omega) hd).trans_le hhi

private theorem numeral_range {n : Nat} : ∀ c ∈ numeral base n, ¬(0x48 ≤ c ∧ c ≤ 0x56) := by
  intro c hc
  unfold numeral at hc
  split at hc
  · rw [mem_singleton] at hc
    subst hc
    decide
  · obtain ⟨d, hd, rfl⟩ := List.mem_map.mp hc
    exact digitChar_range d (digit_lt hlo hhi (mem_reverse.mp hd))

private theorem zero_notMem_numeral (n : Nat) : 0 ∉ numeral base n := by
  intro hmem
  unfold numeral at hmem
  split at hmem
  · simp at hmem
  · obtain ⟨d, hd, hzero⟩ := List.mem_map.mp hmem
    exact digitChar_ne_zero d (digit_lt hlo hhi (mem_reverse.mp hd)) hzero

private theorem remainderChars_pos {num : Int} (hpos : 0 < num) :
    remainderChars base num = numeral base num.natAbs := by
  have hchars : (Nat.digits base num.natAbs).map (fun d : Nat => itoaChar (num.sign * d)) =
      (Nat.digits base num.natAbs).map digitChar := by
    apply map_congr_left
    intro d hd
    rw [Int.sign_eq_one_of_pos hpos, itoaChar_eq_digitChar d (digit_lt hlo hhi hd)]
  rw [remainderChars, numeral, if_neg (by omega), hchars, map_reverse]

/-- The first digit of a number is not zero. -/
theorem remainderChars_neg {num : Int} (hneg : num < 0) :
    ∃ c ∈ remainderChars base num, 0x48 ≤ c ∧ c ≤ 0x56 := by
  have hne : Nat.digits base num.natAbs ≠ [] := Nat.digits_ne_nil_iff_ne_zero.mpr (by omega)
  have hfirst := Nat.getLast_digit_ne_zero base (show num.natAbs ≠ 0 by omega)
  have hmem := getLast_mem hne
  refine ⟨itoaChar (-1 * ((Nat.digits base num.natAbs).getLast hne : Nat)), ?_,
    itoaChar_neg _ (digit_lt hlo hhi hmem) hfirst⟩
  rw [remainderChars, mem_reverse, Int.sign_eq_neg_one_of_neg hneg]
  exact List.mem_map_of_mem hmem

private theorem zero_notMem_remainderChars {num : Int} (hnum : num ≠ 0) :
    0 ∉ remainderChars base num := by
  intro hmem
  rw [remainderChars, mem_reverse] at hmem
  obtain ⟨d, hd, hzero⟩ := List.mem_map.mp hmem
  have hne := itoaChar_ne_zero d (digit_lt hlo hhi hd)
  rcases Int.lt_or_gt_of_ne hnum with hneg | hpos
  · rw [Int.sign_eq_neg_one_of_neg hneg] at hzero
    exact hne.2 hzero
  · rw [Int.sign_eq_one_of_pos hpos] at hzero
    exact hne.1 hzero

theorem zero_notMem_itoaText (num : BitVec 32) : 0 ∉ itoaText base num := by
  unfold itoaText
  split
  · decide
  rename_i hnum
  split
  · have hnum' : -num ≠ 0 := by simpa using hnum
    rw [mem_cons, not_or]
    exact ⟨by decide, zero_notMem_remainderChars hlo hhi (toInt_ne_zero hnum')⟩
  · exact zero_notMem_remainderChars hlo hhi (toInt_ne_zero hnum)

end Chars

/-! ## Which numbers are written correctly -/

/-- The smallest number is its own negation. -/
theorem itoaText_intMin :
    itoaText 10 (BitVec.intMin 32) ≠ decimalText (BitVec.intMin 32).toInt := by
  intro h
  have hneg : (BitVec.intMin 32).toInt < 0 := by decide
  rw [itoaText, if_neg (by decide), if_pos ⟨hneg, rfl⟩, decimalText, if_pos hneg,
    BitVec.neg_intMin, cons.injEq] at h
  obtain ⟨c, hc, hrange⟩ := remainderChars_neg (le_refl 10) (by omega) hneg
  rw [h.2] at hc
  exact numeral_range (by omega) (by omega) c hc hrange

private theorem itoaText_decimal_iff (num : BitVec 32) :
    itoaText 10 num = decimalText num.toInt ↔ num ≠ BitVec.intMin 32 := by
  constructor
  · rintro h rfl
    exact itoaText_intMin h
  intro hmin
  by_cases hnum : num = 0
  · rw [hnum]
    rfl
  rw [itoaText, if_neg hnum, decimalText]
  by_cases hneg : num.toInt < 0
  · have hpos : (-num).toInt = -num.toInt := BitVec.toInt_neg_of_ne_intMin hmin
    rw [if_pos ⟨hneg, rfl⟩, if_pos hneg, hpos,
      remainderChars_pos (by omega) (by omega) (by omega), Int.natAbs_neg]
  · have hne := toInt_ne_zero hnum
    rw [if_neg (fun h => hneg h.1), if_neg hneg,
      remainderChars_pos (by omega) (by omega) (by omega)]

private theorem itoaText_hex_iff (num : BitVec 32) :
    itoaText 16 num = numeral 16 num.toNat ↔ 0 ≤ num.toInt := by
  by_cases hnum : num = 0
  · rw [hnum]
    simp [itoaText, numeral]
  rw [itoaText, if_neg hnum, if_neg (by omega)]
  constructor
  · intro h
    by_contra hneg
    obtain ⟨c, hc, hrange⟩ :=
      remainderChars_neg (by omega) (le_refl 16) (not_le.mp hneg)
    rw [h] at hc
    exact numeral_range (by omega) (by omega) c hc hrange
  · intro hpos
    have hne := toInt_ne_zero hnum
    have habs : num.toInt.natAbs = num.toNat := by
      rw [BitVec.toInt_eq_toNat_cond] at hpos ⊢
      split at hpos
      · rename_i hlt
        rw [if_pos hlt, Int.natAbs_natCast]
      · omega
    rw [remainderChars_pos (by omega) (by omega) (by omega), habs]

/-- The text, ended by a zero, is written to the first 12 bytes of the array, and nothing else. -/
def ItoaWrites (num : BitVec 32) (str : List UInt8) (base : Nat) (text : List UInt8) : Prop :=
  text.length + 1 ≤ 12 ∧ skItoa num str base = some (text ++ 0 :: str.drop (text.length + 1))

theorem itoaWrites_iff (hlo : 10 ≤ base) (hhi : base ≤ 16) (num : BitVec 32) {text : List UInt8}
    (hroom : 12 ≤ str.length) (htext : 0 ∉ text) :
    ItoaWrites num str base text ↔ itoaText base num = text := by
  rw [ItoaWrites, skItoa_eq hlo num hroom, some_inj]
  constructor
  · rintro ⟨-, h⟩
    exact append_zero_inj (zero_notMem_itoaText hlo hhi num) htext h
  · rintro rfl
    exact ⟨Nat.succ_le_succ (length_itoaText_le hlo num), rfl⟩

/-- **`sk_itoa` writes the decimal representation of every number but the smallest one, and the
    hexadecimal representation of exactly the words without a sign bit.** -/
theorem itoa_right_iff (num : BitVec 32) (str : List UInt8) (hroom : 12 ≤ str.length) :
    (ItoaWrites num str 10 (decimalText num.toInt) ↔ num ≠ BitVec.intMin 32) ∧
      (ItoaWrites num str 16 (numeral 16 num.toNat) ↔ 0 ≤ num.toInt) := by
  have hdecimal : 0 ∉ decimalText num.toInt := by
    have hdigits := zero_notMem_numeral (le_refl 10) (by omega) num.toInt.natAbs
    unfold decimalText
    split
    · rw [mem_cons, not_or]
      exact ⟨by decide, hdigits⟩
    · exact hdigits
  constructor
  · rw [itoaWrites_iff (by omega) (by omega) num hroom hdecimal, itoaText_decimal_iff]
  · rw [itoaWrites_iff (by omega) (by omega) num hroom
      (zero_notMem_numeral (by omega) (by omega) num.toNat), itoaText_hex_iff]

/-- The number 42 fits an array of 12 bytes in both bases. -/
theorem itoa_right_iff_two_digits :
    ItoaWrites 42 (List.replicate 12 0) 10 (decimalText (42 : BitVec 32).toInt) ∧
      ItoaWrites 42 (List.replicate 12 0) 16 (numeral 16 (42 : BitVec 32).toNat) := by
  obtain ⟨hdecimal, hhex⟩ := itoa_right_iff 42 (List.replicate 12 0) (by decide)
  exact ⟨hdecimal.mpr (by decide), hhex.mpr (by decide)⟩

/-- The number -1 is "V" in base 16, and not "ffffffff". -/
theorem itoa_negative_hex :
    skItoa (-1) (List.replicate 12 0) 16 = some (0x56 :: 0 :: List.replicate 10 0) ∧
      numeral 16 (-1 : BitVec 32).toNat = List.replicate 8 0x66 := by
  constructor
  · decide +kernel
  · simp [numeral, digitChar]

end SKernel.Spec
