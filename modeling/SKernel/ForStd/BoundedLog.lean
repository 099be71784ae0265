import Mathlib.Data.List.Destutter
import Mathlib.Data.List.DropRight

/-!
# Logs of bounded length

A log keeps the last `n` entries that were written to it, and writing the entry it ends with again
does not make a new one. `List.recent n l` is what it holds after the entries of `l`. A log can be
kept from entry to entry without looking at `l` again: what `recent` becomes with one more entry
depends on what it was before (`recent_concat`).
-/

namespace List

variable {α : Type*}

private theorem rtake_rtake (l : List α) (n m : Nat) : (l.rtake m).rtake n = l.rtake (min n m) := by
  simp [rtake_eq_reverse_take_reverse, take_take]

theorem map_rtake {β : Type*} (f : α → β) (l : List α) (n : Nat) :
    (l.rtake n).map f = (l.map f).rtake n := by
  simp [rtake]

theorem length_rtake (l : List α) (n : Nat) : (l.rtake n).length = min n l.length := by
  simp only [rtake, length_drop]
  omega

theorem getLast?_rtake_succ (l : List α) (n : Nat) : (l.rtake (n + 1)).getLast? = l.getLast? := by
  rw [rtake_eq_reverse_take_reverse, getLast?_reverse, getLast?_eq_head?_reverse]
  cases l.reverse with
  | nil => rfl
  | cons a l => rfl

variable [DecidableEq α]

private theorem destutter'_ne_concat (a b : α) (l : List α) :
    (l ++ [b]).destutter' (· ≠ ·) a =
      if (l.destutter' (· ≠ ·) a).getLast? = some b then l.destutter' (· ≠ ·) a
      else l.destutter' (· ≠ ·) a ++ [b] := by
  induction l generalizing a with
  | nil => by_cases h : a = b <;> simp [h]
  | cons c l ih =>
    rw [cons_append]
    by_cases h : a ≠ c
    · -- the kept element `a` is not the last one
      have hlast : (a :: l.destutter' (· ≠ ·) c).getLast? =
          (l.destutter' (· ≠ ·) c).getLast? := by
        rw [getLast?_cons, getLast?_eq_some_getLast (destutter'_ne_nil _ _)]
        rfl
      rw [destutter'_cons_pos _ h, destutter'_cons_pos _ h, hlast, ih]
      split
      · rfl
      · rfl
    · rw [destutter'_cons_neg _ h, destutter'_cons_neg _ h, ih]

private theorem destutter_ne_concat (b : α) (l : List α) :
    (l ++ [b]).destutter (· ≠ ·) =
      if (l.destutter (· ≠ ·)).getLast? = some b then l.destutter (· ≠ ·)
      else l.destutter (· ≠ ·) ++ [b] := by
  cases l with
  | nil => simp
  | cons a l => exact destutter'_ne_concat a b l

/-- The last `n` entries, with repeated ones collapsed. -/
def recent (n : Nat) (l : List α) : List α :=
  (l.destutter (· ≠ ·)).rtake n

/-- One more entry. -/
theorem recent_concat {n : Nat} (hn : 0 < n) (l : List α) (b : α) :
    recent n (l ++ [b]) =
      if (recent n l).getLast? = some b then recent n l else (recent n l ++ [b]).rtake n := by
  obtain ⟨n, rfl⟩ := Nat.exists_eq_add_one_of_ne_zero hn.ne'
  rw [recent, recent, destutter_ne_concat, getLast?_rtake_succ]
  split
  · rfl
  · rw [rtake_concat_succ, rtake_concat_succ, rtake_rtake, Nat.min_eq_left (Nat.le_succ n)]

end List
