import Mathlib.Data.List.Rotate
import Mathlib.Order.Monotone.Basic

/-!
# Round robin

A queue whose first element is served. Each element is served for a number of steps of its own,
its slice, and goes to the end of the queue then. Turn number `j` belongs to the element at
position `j` of the first queue, counted cyclically, and lasts for the slice of that element.
-/

namespace RoundRobin

open List

variable {α : Type*} (slice : α → Nat) {as : List α} {a : α} {m : Nat}

/-- One step. The state is the queue, and the number of steps that are left of this turn. -/
def step : List α × Nat → List α × Nat
  | ([], left) => ([], left)
  | (a :: as, left) =>
    if left = 1 then (as ++ [a], (as ++ [a]).head?.elim 0 slice) else (a :: as, left - 1)

/-- The element whose turn is number `j`. -/
def turn (as : List α) (j : Nat) : Option α := as[j % as.length]?

/-- The number of steps before turn number `j`. -/
def turnStart (as : List α) : Nat → Nat
  | 0 => 0
  | j + 1 => turnStart as j + (turn as j).elim 0 slice

theorem turnStart_mono (as : List α) : Monotone (turnStart slice as) :=
  monotone_nat_of_le_succ fun _ => Nat.le_add_right _ _

theorem head?_rotate (hne : as ≠ []) (j : Nat) : (as.rotate j).head? = turn as j := by
  have hpos : 0 < as.length := length_pos_iff.mpr hne
  rw [turn, ← rotate_mod]
  exact List.head?_rotate (Nat.mod_lt j hpos)

/-- The state `st` after `m` steps, when `as` was the queue at the start of the first turn. -/
def Serving (as : List α) (m : Nat) (st : List α × Nat) : Prop :=
  ∃ j, st.1 = as.rotate j ∧ turnStart slice as j ≤ m ∧
    m + st.2 = turnStart slice as (j + 1) ∧ 0 < st.2

variable {slice}

theorem Serving.start (hslice : 0 < slice a) (as : List α) :
    Serving slice (a :: as) 0 (a :: as, slice a) := by
  refine ⟨0, (rotate_zero _).symm, Nat.le_refl 0, ?_, hslice⟩
  simp [turnStart, turn]

/-- A step leads on within the turn, or to the next turn. -/
theorem Serving.step (hslice : ∀ b ∈ as, 0 < slice b) (hne : as ≠ []) {st : List α × Nat}
    (h : Serving slice as m st) : Serving slice as (m + 1) (step slice st) := by
  obtain ⟨j, hqueue, hle, hend, hpos⟩ := h
  obtain ⟨queue, left⟩ := st
  dsimp only at hqueue hend hpos
  cases queue with
  | nil =>
    rw [eq_comm, rotate_eq_nil_iff] at hqueue
    exact absurd hqueue hne
  | cons a rest =>
    simp only [RoundRobin.step]
    split
    · rename_i hone
      subst hone
      -- the queue goes round by one
      have hnext : rest ++ [a] = as.rotate (j + 1) := by
        rw [← rotate_rotate, ← hqueue, rotate_cons_succ, rotate_zero]
      have hhead : (rest ++ [a]).head? = turn as (j + 1) := by
        rw [hnext, head?_rotate hne]
      refine ⟨j + 1, hnext, Nat.le_of_eq hend.symm, ?_, ?_⟩
      · dsimp only
        rw [hend, hhead]
        rfl
      · dsimp only
        obtain ⟨b, hb⟩ := Option.ne_none_iff_exists'.mp
          (show (rest ++ [a]).head? ≠ none by simp)
        rw [hb]
        apply hslice
        rw [← mem_rotate (n := j + 1), ← hnext]
        exact mem_of_head? hb
    · rename_i hmore
      refine ⟨j, hqueue, Nat.le_succ_of_le hle, ?_, ?_⟩
      · dsimp only
        omega
      · dsimp only
        omega

/-- The first of the queue has the turn. -/
theorem Serving.turn (hne : as ≠ []) {st : List α × Nat} (h : Serving slice as m st) :
    ∃ j, turnStart slice as j ≤ m ∧ m + st.2 = turnStart slice as (j + 1) ∧ 0 < st.2 ∧
      st.1.head? = turn as j := by
  obtain ⟨j, hqueue, hle, hend, hpos⟩ := h
  refine ⟨j, hle, hend, hpos, ?_⟩
  rw [hqueue, head?_rotate hne]

end RoundRobin
