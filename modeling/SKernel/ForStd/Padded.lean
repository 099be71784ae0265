import Mathlib.Data.List.TakeWhile
import Mathlib.Tactic.Common

/-!
# Texts padded to a fixed length

`List.rightpad n a t` is what an array of `n` cells holds when the text `t` stands at its front and
`a` in the remaining cells. Typing a character at the end, deleting the last one, copying the array
and comparing two of them act on the text.
-/

namespace List

variable {α : Type*} {n : Nat} {a c : α} {t u : List α}

theorem length_rightpad_of_le (h : t.length ≤ n) : (t.rightpad n a).length = n := by
  simp only [rightpad, length_append, length_replicate]
  omega

/-- An element is put behind the text. -/
theorem rightpad_set_length (h : t.length < n) (c : α) :
    (t.rightpad n a).set t.length c = (t ++ [c]).rightpad n a := by
  obtain ⟨k, hk⟩ : ∃ k, n - t.length = k + 1 := ⟨n - t.length - 1, by omega⟩
  have hk' : n - (t ++ [c]).length = k := by
    simp only [length_append, length_singleton]
    omega
  rw [rightpad, rightpad, hk, hk', set_append_right _ _ (le_refl _), Nat.sub_self,
    replicate_succ, set_cons_zero, append_assoc, singleton_append]

theorem rightpad_set_pred (hne : t ≠ []) (h : t.length ≤ n) :
    (t.rightpad n a).set (t.length - 1) a = t.dropLast.rightpad n a := by
  obtain ⟨s, x, rfl⟩ : ∃ s x, t = s ++ [x] := ⟨_, _, (dropLast_concat_getLast hne).symm⟩
  simp only [length_append, length_singleton] at h ⊢
  have hk : n - s.length = (n - (s.length + 1)) + 1 := by omega
  rw [Nat.add_sub_cancel, dropLast_concat, rightpad, rightpad, length_append, length_singleton, hk,
    replicate_succ, append_assoc, set_append_right _ _ (le_refl _), Nat.sub_self, singleton_append,
    set_cons_zero]

theorem rightpad_concat (h : t.length ≤ n) : t.rightpad n a ++ [a] = t.rightpad (n + 1) a := by
  have hk : n + 1 - t.length = (n - t.length) + 1 := by omega
  rw [rightpad, rightpad, hk, replicate_succ', append_assoc]

theorem getElem?_rightpad_of_ge {i : Nat} (hi : t.length ≤ i) (hn : i < n) :
    (t.rightpad n a)[i]? = some a := by
  rw [rightpad, getElem?_append_right hi, getElem?_replicate_of_lt (by omega)]

theorem getElem?_rightpad_of_lt {i : Nat} (hi : i < t.length) :
    (t.rightpad n a)[i]? = t[i]? := by
  rw [rightpad, getElem?_append_left hi]

/-- A text ends at the first padding element. -/
theorem takeWhile_rightpad [DecidableEq α] (h : a ∉ t) :
    (t.rightpad n a).takeWhile (· ≠ a) = t := by
  rw [rightpad, takeWhile_append_of_pos fun x hx => decide_eq_true (ne_of_mem_of_not_mem hx h)]
  cases n - t.length with
  | zero => simp
  | succ k => simp [replicate_succ]

theorem rightpad_inj [DecidableEq α] (ht : a ∉ t) (hu : a ∉ u) :
    t.rightpad n a = u.rightpad n a ↔ t = u := by
  constructor
  · intro h
    rw [← takeWhile_rightpad (n := n) ht, h, takeWhile_rightpad hu]
  · intro h
    rw [h]

end List
