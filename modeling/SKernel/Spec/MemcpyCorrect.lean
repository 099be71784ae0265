import SKernel.ForStd.Circular
import SKernel.Native.StringOps

/-!
# Copying between overlapping blocks

`sk_memcpy` compares the addresses and copies from the first byte on, or from the last one. Both
loops write the block that stood at the source when they started, because the bytes they have still
to read are never among those they have written: copying forwards this needs a destination that does
not lie inside the rest of the source, copying backwards one that does not lie in front of it.
-/

namespace SKernel.Spec

open SKernel.Native Circular ByteMem Function List

/-- The pointers wrap behind the last byte only. -/
theorem copyForward_mod (m : Mem) {d s n : Nat} (hd : d + n ≤ 2 ^ 64) (hs : s + n ≤ 2 ^ 64) :
    copyForward m (d % 2 ^ 64) (s % 2 ^ 64) n = copyForward m d s n := by
  cases n with
  | zero => rfl
  | succ n => rw [Nat.mod_eq_of_lt (by omega), Nat.mod_eq_of_lt (by omega)]

theorem copyForward_eq_blit {m : Mem} {d s n : Nat} (hd : d + n ≤ 2 ^ 64) (hs : s + n ≤ 2 ^ 64)
    (hdir : d ≤ s ∨ s + n ≤ d) : copyForward m d s n = blit m d (slice m s n) := by
  induction n generalizing m d s with
  | zero => exact (blit_nil m d).symm
  | succ n ih =>
    -- the byte just written is not read again
    have hrest : slice (update m d (m s)) (s + 1) n = slice m (s + 1) n :=
      slice_congr fun i hi => update_of_ne (by omega) _ _
    rw [copyForward, copyForward_mod _ (by omega) (by omega),
      ih (by omega) (by omega) (by omega), hrest, slice_succ, blit_cons]

theorem copyBackward_eq_blit {m : Mem} {d s n : Nat} (hd : d + n ≤ 2 ^ 64) (hs : s + n ≤ 2 ^ 64)
    (hdir : s ≤ d) : copyBackward m d s n = blit m d (slice m s n) := by
  induction n generalizing m with
  | zero => exact (blit_nil m d).symm
  | succ n ih =>
    have hrest : slice (update m (d + n) (m (s + n))) s n = slice m s n :=
      slice_congr fun i hi => update_of_ne (by omega) _ _
    rw [copyBackward, Nat.mod_eq_of_lt (show d + n < 2 ^ 64 by omega),
      Nat.mod_eq_of_lt (show s + n < 2 ^ 64 by omega), ih (by omega) (by omega), hrest, slice_succ',
      blit_concat, length_slice]

theorem skMemcpy_eq_blit (m : Mem) {d s n : Nat} (hd : d + n ≤ 2 ^ 64) (hs : s + n ≤ 2 ^ 64) :
    skMemcpy m d s n = blit m d (slice m s n) := by
  rw [skMemcpy]
  split
  · rename_i hdir
    -- a source that ends with the address space makes `src + count` zero
    rcases Nat.lt_or_eq_of_le hs with hlt | heq
    · rw [Nat.mod_eq_of_lt hlt] at hdir
      exact copyForward_eq_blit hd hs (by omega)
    · exact copyForward_eq_blit hd hs (by omega)
  · exact copyBackward_eq_blit hd hs (by omega)

/-- For every overlap of the two blocks, the destination holds what the source held, and no other
    byte changes. -/
theorem skMemcpy_copies (m : Mem) (d s count : Nat) (hd : d + count ≤ 2 ^ 64)
    (hs : s + count ≤ 2 ^ 64) :
    (∀ i < count, skMemcpy m d s count (d + i) = m (s + i)) ∧
      ∀ x, x < d ∨ d + count ≤ x → skMemcpy m d s count x = m x := by
  rw [skMemcpy_eq_blit m hd hs]
  constructor
  · intro i hi
    rw [blit_add _ _ _ _ (by rwa [length_slice]), getElem_slice]
  · intro x hx
    exact blit_outside _ _ _ _ (by rwa [length_slice])

/-- A block is moved up by one byte over itself. -/
theorem skMemcpy_copies_overlapping :
    (∀ i < 3, skMemcpy (fun a => UInt8.ofNat a) 2 1 3 (2 + i) = UInt8.ofNat (1 + i)) ∧
      ∀ x, x < 2 ∨ 2 + 3 ≤ x →
        skMemcpy (fun a => UInt8.ofNat a) 2 1 3 x = UInt8.ofNat x :=
  skMemcpy_copies (fun a => UInt8.ofNat a) 2 1 3 (by decide) (by decide)

theorem skMemcpyArray_slice (m : Mem) {d s n k count : Nat} (hd : d + n ≤ 2 ^ 64)
    (hs : s + k ≤ 2 ^ 64) (hn : count ≤ n) (hk : count ≤ k) :
    skMemcpyArray (slice m d n) (slice m s k) count =
      some (slice (skMemcpy m d s count) d n) := by
  rw [skMemcpyArray, if_pos ⟨by rwa [length_slice], by rwa [length_slice]⟩,
    skMemcpy_eq_blit m (by omega) (by omega)]
  congr 1
  apply ext_getElem
  · simp only [length_append, length_take, length_drop, length_slice]
    omega
  · intro i hi hin
    rw [length_slice] at hin
    rw [getElem_slice]
    rcases Nat.lt_or_ge i count with hlt | hge
    · rw [blit_add _ _ _ _ (by rwa [length_slice]), getElem_slice, getElem_append_left (by
        rw [length_take, length_slice]; omega), getElem_take, getElem_slice]
    · have htake : ((slice m s k).take count).length = count := by
        rw [length_take, length_slice]
        omega
      rw [blit_outside _ _ _ _ (.inr (by rw [length_slice]; omega)),
        getElem_append_right (by omega), getElem_drop, getElem_slice]
      congr 1
      omega

end SKernel.Spec
