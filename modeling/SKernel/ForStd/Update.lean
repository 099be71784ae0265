import Mathlib.Data.List.Basic
import Mathlib.Logic.Function.Basic
import Mathlib.Tactic.Common

/-!
# Tables that change at one index
-/

namespace Function

variable {ι α β : Type*} [DecidableEq ι] {i j : ι}

/-- An entry that is there after another one has been cleared. -/
theorem update_none_eq_some {f : ι → Option α} {a : α} :
    update f i none j = some a ↔ j ≠ i ∧ f j = some a := by
  by_cases hj : j = i
  · simp [hj]
  · simp [hj]

/-- Two tables that change at the same index stay related. -/
theorem forall_update₂ {f : ι → α} {g : ι → β} {a : α} {b : β} (R : ι → α → β → Prop)
    (hi : R i a b) (h : ∀ j, j ≠ i → R j (f j) (g j)) (j : ι) :
    R j (update f i a j) (update g i b j) := by
  by_cases hj : j = i
  · subst hj
    rw [update_self, update_self]
    exact hi
  · rw [update_of_ne hj, update_of_ne hj]
    exact h j hj

/-- Membership after an element has been inserted into one of the lists. -/
theorem mem_update_insert {q : ι → List α} {a b : α} {as bs : List α} (hq : q i = as ++ bs) :
    b ∈ update q i (as ++ a :: bs) j ↔ b ∈ q j ∨ b = a ∧ j = i := by
  by_cases hj : j = i
  · subst hj
    simp only [update_self, hq, List.mem_append, List.mem_cons, and_true]
    tauto
  · rw [update_of_ne hj]
    simp [hj]

/-- Membership after an element has been added at the end. -/
theorem mem_update_snoc {q : ι → List α} {a b : α} :
    b ∈ update q i (q i ++ [a]) j ↔ b ∈ q j ∨ b = a ∧ j = i :=
  mem_update_insert (List.append_nil _).symm

end Function
