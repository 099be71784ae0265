import SKernel.Native.Sched

/-!
# `__sk_ffs`

The ready group is searched byte by byte with a table of lowest set bits. The result is the
lowest set bit of the whole word, counted from one.
-/

namespace SKernel.Spec

open Native

/-- The mask of byte `k`. -/
def byteMask (k : Nat) : BitVec 32 := 0xff#32 <<< (8 * k)

private theorem getLsbD_byteMask {k i : Nat} (hk : k < 4) (hi : i < 32) :
    (byteMask k).getLsbD i = decide (8 * k ≤ i ∧ i < 8 * k + 8) := by
  have h : ∀ k < 4, ∀ i < 32, (byteMask k).getLsbD i = decide (8 * k ≤ i ∧ i < 8 * k + 8) := by
    decide
  exact h k hk i hi

private theorem and_byteMask_shift (v : BitVec 32) {k : Nat} (hk : k < 4) :
    (v &&& byteMask k) >>> (8 * k) = (v.extractLsb' (8 * k) 8).setWidth 32 := by
  apply BitVec.eq_of_getLsbD_eq
  intro i hi
  rw [BitVec.getLsbD_ushiftRight, BitVec.getLsbD_and, BitVec.getLsbD_setWidth,
    BitVec.getLsbD_extractLsb']
  by_cases h : 8 * k + i < 32
  · rw [getLsbD_byteMask hk h]
    by_cases hi8 : i < 8 <;> simp [hi, hi8, Bool.and_comm]
  · rw [BitVec.getLsbD_of_ge v _ (by omega)]
    simp

private theorem and_byteMask_eq_zero (v : BitVec 32) {k : Nat} (hk : k < 4) :
    v &&& byteMask k = 0 ↔ v.extractLsb' (8 * k) 8 = 0 := by
  constructor
  · intro h
    have hs := and_byteMask_shift v hk
    rw [h] at hs
    apply BitVec.eq_of_getLsbD_eq
    intro i hi
    have hbit := congrArg (fun w : BitVec 32 => w.getLsbD i) hs
    simpa [hi, show i < 32 by omega] using hbit.symm
  · intro h
    apply BitVec.eq_of_getLsbD_eq
    intro i hi
    rw [BitVec.getLsbD_and, getLsbD_byteMask hk hi]
    by_cases hin : 8 * k ≤ i ∧ i < 8 * k + 8
    · have hbit := congrArg (fun w : BitVec 8 => w.getLsbD (i - 8 * k)) h
      have hsum : 8 * k + (i - 8 * k) = i := by omega
      simp [hsum, show i - 8 * k < 8 by omega] at hbit
      simp [hbit]
    · simp [hin]

private theorem getLsbD_of_byte_zero (v : BitVec 32) {i : Nat} (hi : i < 32)
    (h : v &&& byteMask (i / 8) = 0) : v.getLsbD i = false := by
  have hbyte := (and_byteMask_eq_zero v (show i / 8 < 4 by omega)).mp h
  have hbit := congrArg (fun w : BitVec 8 => w.getLsbD (i % 8)) hbyte
  have hsum : 8 * (i / 8) + i % 8 = i := by omega
  simpa [hsum, Nat.mod_lt] using hbit

private theorem eq_zero_of_bytes (v : BitVec 32) (h : ∀ k < 4, v &&& byteMask k = 0) : v = 0 := by
  apply BitVec.eq_of_getLsbD_eq
  intro i hi
  rw [getLsbD_of_byte_zero v hi (h (i / 8) (by omega))]
  simp

private theorem lowestBitBitmap_spec (b : BitVec 8) (hb : b ≠ 0) :
    lowestBitBitmap.getD b.toNat 0 < 8 ∧ b.getLsbD (lowestBitBitmap.getD b.toNat 0) = true ∧
      ∀ i < lowestBitBitmap.getD b.toNat 0, b.getLsbD i = false := by
  revert b
  decide +kernel

private theorem firstBit_of_byte (v : BitVec 32) {k : Nat} (hk : k < 4) (hb : v &&& byteMask k ≠ 0)
    (hlow : ∀ j < k, v &&& byteMask j = 0) :
    let p := lowestBitBitmap.getD ((v &&& byteMask k) >>> (8 * k)).toNat 0 + 8 * k
    p < 32 ∧ v.getLsbD p = true ∧ ∀ i < p, v.getLsbD i = false := by
  have hne : v.extractLsb' (8 * k) 8 ≠ 0 := fun h => hb ((and_byteMask_eq_zero v hk).mpr h)
  obtain ⟨hlt, hset, hclear⟩ := lowestBitBitmap_spec _ hne
  have hidx : ((v &&& byteMask k) >>> (8 * k)).toNat = (v.extractLsb' (8 * k) 8).toNat := by
    rw [and_byteMask_shift v hk]
    simp
    omega
  rw [hidx]
  generalize lowestBitBitmap.getD (v.extractLsb' (8 * k) 8).toNat 0 = n at hlt hset hclear
  dsimp only
  refine ⟨by omega, ?_, ?_⟩
  · rw [BitVec.getLsbD_extractLsb'] at hset
    simp only [hlt, decide_true, Bool.true_and] at hset
    rw [Nat.add_comm]
    exact hset
  · intro i hi
    by_cases hik : 8 * k ≤ i
    · have hbit := hclear (i - 8 * k) (by omega)
      rw [BitVec.getLsbD_extractLsb'] at hbit
      have hsum : 8 * k + (i - 8 * k) = i := by omega
      simpa [hsum, show i - 8 * k < 8 by omega] using hbit
    · exact getLsbD_of_byte_zero v (by omega) (hlow (i / 8) (by omega))

theorem skFfs_spec (v : BitVec 32) (hv : v ≠ 0) :
    ∃ p, skFfs v = p + 1 ∧ p < 32 ∧ v.getLsbD p = true ∧ ∀ i < p, v.getLsbD i = false := by
  -- the bytes are tried from the lowest one; the last needs no test, as the word is not zero
  have hfirst := fun k hk hb hlow => firstBit_of_byte v (k := k) hk hb hlow
  unfold skFfs
  rw [if_neg hv]
  split
  · rename_i h0
    exact ⟨_, rfl, hfirst 0 (by omega) h0 (by omega)⟩
  · rename_i h0
    have h0' : v &&& byteMask 0 = 0 := not_not.mp h0
    split
    · rename_i h1
      refine ⟨_, rfl, hfirst 1 (by omega) h1 ?_⟩
      intro j hj
      rw [show j = 0 by omega]
      exact h0'
    · rename_i h1
      have h1' : v &&& byteMask 1 = 0 := not_not.mp h1
      split
      · rename_i h2
        refine ⟨_, rfl, hfirst 2 (by omega) h2 ?_⟩
        intro j hj
        obtain rfl | rfl : j = 0 ∨ j = 1 := by omega
        · exact h0'
        · exact h1'
      · rename_i h2
        have h2' : v &&& byteMask 2 = 0 := not_not.mp h2
        have h3 : v &&& byteMask 3 ≠ 0 := by
          intro h3
          apply hv
          apply eq_zero_of_bytes
          intro k hk
          obtain rfl | rfl | rfl | rfl : k = 0 ∨ k = 1 ∨ k = 2 ∨ k = 3 := by omega
          · exact h0'
          · exact h1'
          · exact h2'
          · exact h3
        refine ⟨_, rfl, hfirst 3 (by omega) h3 ?_⟩
        intro j hj
        obtain rfl | rfl | rfl : j = 0 ∨ j = 1 ∨ j = 2 := by omega
        · exact h0'
        · exact h1'
        · exact h2'

end SKernel.Spec
