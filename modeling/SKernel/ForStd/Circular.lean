import Mathlib.Data.List.Basic
import Mathlib.Data.List.DropRight
import Mathlib.Data.Nat.ModEq
import Mathlib.Logic.Function.Basic
import Mathlib.Tactic.Common

/-!
# Block writes and circular windows

Block access to an indexed store `Nat → α` and the circular window of such a store:
`len` cells from position `r`, wrapping at `n`. Writing a block behind a window extends
the window by that block, and dropping cells from its front moves its start. A block that is
longer than the space behind the window overwrites the oldest cells.
-/

namespace Circular

open List

variable {α : Type*} {buf buf' : Nat → α} {n : Nat}

/-! ## Block writes -/

/-- Overwrite the cells from `a` on with the elements of `bs`. -/
def blit (buf : Nat → α) (a : Nat) (bs : List α) : Nat → α := fun x =>
  if a ≤ x then (bs[x - a]?).getD (buf x) else buf x

/-- The `n` cells from `a` on. -/
def slice (buf : Nat → α) (a n : Nat) : List α :=
  (List.range n).map fun i => buf (a + i)

@[simp] theorem length_slice (buf : Nat → α) (a n : Nat) : (slice buf a n).length = n := by
  simp [slice]

@[simp] theorem getElem_slice (buf : Nat → α) (a n i : Nat) (h : i < (slice buf a n).length) :
    (slice buf a n)[i] = buf (a + i) := by
  simp [slice]

theorem slice_congr {a : Nat} (h : ∀ i < n, buf' (a + i) = buf (a + i)) :
    slice buf' a n = slice buf a n :=
  map_congr_left fun i hi => h i (mem_range.mp hi)

theorem take_slice (buf : Nat → α) (a n k : Nat) :
    (slice buf a n).take k = slice buf a (min k n) := by
  unfold slice
  rw [← map_take, take_range]

theorem blit_add (buf : Nat → α) (a : Nat) (bs : List α) (j : Nat) (h : j < bs.length) :
    blit buf a bs (a + j) = bs[j] := by
  simp [blit, h]

/-- Outside the block, `blit` changes nothing. -/
theorem blit_outside (buf : Nat → α) (a : Nat) (bs : List α) (x : Nat)
    (h : x < a ∨ a + bs.length ≤ x) : blit buf a bs x = buf x := by
  unfold blit
  split
  · rename_i hle
    have hlen : bs.length ≤ x - a := by omega
    rw [getElem?_eq_none hlen, Option.getD_none]
  · rfl

@[simp] theorem blit_nil (buf : Nat → α) (a : Nat) : blit buf a [] = buf := by
  funext x
  simp [blit]

theorem blit_cons (buf : Nat → α) (a : Nat) (b : α) (bs : List α) :
    blit buf a (b :: bs) = blit (Function.update buf a b) (a + 1) bs := by
  funext x
  unfold blit
  rcases Nat.lt_trichotomy x a with hx | rfl | hx
  · simp [Function.update_of_ne hx.ne, Nat.not_le.mpr hx, show ¬a + 1 ≤ x by omega]
  · simp
  · have hpos : x - a = (x - (a + 1)) + 1 := by omega
    rw [if_pos hx.le, if_pos (Nat.succ_le_of_lt hx), Function.update_of_ne hx.ne', hpos,
      getElem?_cons_succ]

theorem blit_concat (buf : Nat → α) (a : Nat) (bs : List α) (b : α) :
    blit buf a (bs ++ [b]) = blit (Function.update buf (a + bs.length) b) a bs := by
  induction bs generalizing buf a with
  | nil => rw [nil_append, blit_cons, blit_nil, blit_nil, length_nil, Nat.add_zero]
  | cons c bs ih =>
    rw [cons_append, blit_cons, ih, blit_cons, length_cons,
      Function.update_comm (by omega), show a + 1 + bs.length = a + (bs.length + 1) by omega]

theorem blit_append (buf : Nat → α) (a : Nat) (bs cs : List α) :
    blit buf a (bs ++ cs) = blit (blit buf a bs) (a + bs.length) cs := by
  induction bs generalizing buf a with
  | nil => rw [nil_append, blit_nil, length_nil, Nat.add_zero]
  | cons b bs ih =>
    rw [cons_append, blit_cons, ih, blit_cons, length_cons, Nat.add_assoc,
      Nat.add_comm 1]

theorem blit_congr {a x : Nat} {bs : List α}
    (h : a ≤ x ∧ x < a + bs.length ∨ buf x = buf' x) : blit buf a bs x = blit buf' a bs x := by
  unfold blit
  split
  · rcases h with hin | heq
    · have hlt : x - a < bs.length := by omega
      rw [getElem?_eq_getElem hlt, Option.getD_some, Option.getD_some]
    · rw [heq]
  · rename_i hlt
    rcases h with hin | heq
    · exact absurd hin.1 hlt
    · exact heq

theorem slice_succ (buf : Nat → α) (a n : Nat) :
    slice buf a (n + 1) = buf a :: slice buf (a + 1) n := by
  simp only [slice, range_succ_eq_map, map_cons, List.map_map, Nat.add_zero]
  congr 1
  exact map_congr_left fun i _ => congrArg buf (by simp only [Nat.succ_eq_add_one]; omega)

theorem slice_succ' (buf : Nat → α) (a n : Nat) :
    slice buf a (n + 1) = slice buf a n ++ [buf (a + n)] := by
  simp [slice, range_succ]

/-! ## Windows -/

/-- The `len` cells from position `r` on, in a store that wraps at `n`. -/
def window (buf : Nat → α) (n r len : Nat) : List α :=
  (List.range len).map fun i => buf ((r + i) % n)

@[simp] theorem length_window (buf : Nat → α) (n r len : Nat) :
    (window buf n r len).length = len := by
  simp [window]

@[simp] theorem window_zero (buf : Nat → α) (n r : Nat) : window buf n r 0 = [] := rfl

@[simp] theorem getElem_window (buf : Nat → α) (n r len i : Nat)
    (h : i < (window buf n r len).length) : (window buf n r len)[i] = buf ((r + i) % n) := by
  simp [window]

theorem window_eq_slice (buf : Nat → α) (n r len : Nat) (h : r + len ≤ n) :
    window buf n r len = slice buf r len := by
  apply ext_getElem
  · simp
  · intro i hi _
    rw [length_window] at hi
    rw [getElem_window, getElem_slice, Nat.mod_eq_of_lt (by omega)]

theorem window_mod (buf : Nat → α) (n r len : Nat) :
    window buf n (r % n) len = window buf n r len := by
  simp [window]

theorem window_add (buf : Nat → α) (n r a b : Nat) :
    window buf n r (a + b) = window buf n r a ++ window buf n (r + a) b := by
  simp [window, range_add, Nat.add_assoc, Function.comp_def]

theorem take_window (buf : Nat → α) (n r len k : Nat) (hk : k ≤ len) :
    (window buf n r len).take k = window buf n r k := by
  obtain ⟨b, rfl⟩ := Nat.exists_eq_add_of_le hk
  rw [window_add, take_left' (length_window ..)]

theorem drop_window (buf : Nat → α) (n r len k : Nat) (hk : k ≤ len) :
    (window buf n r len).drop k = window buf n ((r + k) % n) (len - k) := by
  obtain ⟨b, rfl⟩ := Nat.exists_eq_add_of_le hk
  rw [window_add, drop_left' (length_window ..), window_mod, Nat.add_sub_cancel_left]

private theorem add_mod_inj {r i j : Nat} (hi : i < n) (hj : j < n)
    (h : (r + i) % n = (r + j) % n) : i = j := by
  have hmod : Nat.ModEq n i j := Nat.ModEq.add_left_cancel' r h
  rw [Nat.ModEq, Nat.mod_eq_of_lt hi, Nat.mod_eq_of_lt hj] at hmod
  exact hmod

theorem window_append (buf buf' : Nat → α) (n r len : Nat) (bs : List α)
    (hfit : len + bs.length ≤ n)
    (hnew : ∀ j (hj : j < bs.length), buf' ((r + len + j) % n) = bs[j])
    (hold : ∀ x, (∀ j, j < bs.length → x ≠ (r + len + j) % n) → buf' x = buf x) :
    window buf' n r (len + bs.length) = window buf n r len ++ bs := by
  rw [window_add]
  congr 1
  · apply map_congr_left
    intro i hi
    rw [mem_range] at hi
    apply hold
    intro j hj heq
    rw [Nat.add_assoc] at heq
    have := add_mod_inj (by omega) (by omega) heq
    omega
  · apply ext_getElem
    · simp
    · intro j hj hj'
      rw [getElem_window, hnew j hj']

/-- A block written behind a window extends it. -/
theorem window_append_blit (buf : Nat → α) (n r len w : Nat) (bs : List α)
    (hw : (r + len) % n = w) (hfit : len + bs.length ≤ n) (hend : w + bs.length ≤ n) :
    window (blit buf w bs) n r (len + bs.length) = window buf n r len ++ bs := by
  apply window_append _ _ _ _ _ _ hfit
  · intro j hj
    rw [← Nat.mod_add_mod, hw, Nat.mod_eq_of_lt (by omega), blit_add _ _ _ _ hj]
  · intro x hx
    apply blit_outside
    by_contra hin
    apply hx (x - w) (by omega)
    rw [← Nat.mod_add_mod, hw, Nat.mod_eq_of_lt (by omega)]
    omega

private theorem blit_wrap_new (buf : Nat → α) (n e w s : Nat) (bs : List α) (hw : e % n = w)
    (hs : w + s = n) (hle : s ≤ bs.length) (hend : bs.length - s < n) {j : Nat}
    (hj : j < bs.length) (hlast : bs.length ≤ j + n) :
    blit (blit buf w (bs.take s)) 0 (bs.drop s) ((e + j) % n) = bs[j] := by
  have htake : (bs.take s).length = s := length_take_of_le hle
  have hdrop : (bs.drop s).length = bs.length - s := length_drop
  rw [← Nat.mod_add_mod, hw]
  by_cases hjs : j < s
  · rw [Nat.mod_eq_of_lt (by omega), blit_outside _ _ _ _ (by omega),
      blit_add _ _ _ _ (by omega), getElem_take]
  · have hpos : (w + j) % n = 0 + (j - s) := by
      rw [Nat.mod_eq_sub_mod (by omega), Nat.mod_eq_of_lt (by omega)]; omega
    rw [hpos, blit_add _ _ _ _ (by omega), getElem_drop]
    congr 1
    omega

/-- The cells outside such a block. -/
theorem blit_wrap_old (buf : Nat → α) (n e w s : Nat) (bs : List α) (hw : e % n = w)
    (hs : w + s = n) (hle : s ≤ bs.length) (hend : bs.length - s < n) {x : Nat}
    (hx : ∀ j, j < bs.length → x ≠ (e + j) % n) :
    blit (blit buf w (bs.take s)) 0 (bs.drop s) x = buf x := by
  have htake : (bs.take s).length = s := length_take_of_le hle
  have hdrop : (bs.drop s).length = bs.length - s := length_drop
  rw [blit_outside, blit_outside]
  · by_contra hin
    apply hx (x - w) (by omega)
    rw [← Nat.mod_add_mod, hw, Nat.mod_eq_of_lt (by omega)]
    omega
  · by_contra hin
    apply hx (x + s) (by omega)
    rw [← Nat.mod_add_mod, hw, Nat.mod_eq_sub_mod (by omega), Nat.mod_eq_of_lt (by omega)]
    omega

theorem window_append_blit_wrap (buf : Nat → α) (n r len w s : Nat) (bs : List α)
    (hw : (r + len) % n = w) (hfit : len + bs.length ≤ n) (hs : w + s = n)
    (hpos : 0 < s) (hle : s ≤ bs.length) :
    window (blit (blit buf w (bs.take s)) 0 (bs.drop s)) n r (len + bs.length) =
      window buf n r len ++ bs := by
  apply window_append _ _ _ _ _ _ hfit
  · intro j hj
    exact blit_wrap_new buf n _ w s bs hw hs hle (by omega) hj (by omega)
  · intro x hx
    exact blit_wrap_old buf n _ w s bs hw hs hle (by omega) hx

/-! ## Overwriting -/

theorem rtake_append_rtake (as bs : List α) (n : Nat) :
    (as.rtake n ++ bs).rtake n = (as ++ bs).rtake n := by
  simp only [rtake_eq_reverse_take_reverse, reverse_append, reverse_reverse,
    take_append, take_take]
  congr 3
  omega

theorem rtake_of_length_le {as : List α} (h : as.length ≤ n) : as.rtake n = as := by
  unfold List.rtake
  rw [Nat.sub_eq_zero_of_le h, drop_zero]

theorem window_overwrite (buf buf' : Nat → α) (n r len : Nat) (bs : List α)
    (hlen : len ≤ n) (hfull : n ≤ len + bs.length)
    (hnew : ∀ j (hj : j < bs.length), bs.length ≤ j + n → buf' ((r + len + j) % n) = bs[j])
    (hold : ∀ x, (∀ j, j < bs.length → x ≠ (r + len + j) % n) → buf' x = buf x) :
    window buf' n (r + len + bs.length) n = (window buf n r len ++ bs).rtake n := by
  unfold List.rtake
  apply ext_getElem
  · simp only [length_window, length_drop, length_append]
    omega
  · intro i hi _
    rw [length_window] at hi
    simp only [getElem_window, getElem_drop, length_append, length_window]
    by_cases hnewer : len ≤ len + bs.length - n + i
    · -- the cell holds an element of the block
      rw [getElem_append_right (by simpa using hnewer)]
      simp only [length_window]
      rw [← hnew (len + bs.length - n + i - len) (by omega) (by omega),
        show r + len + bs.length + i = r + len + (len + bs.length - n + i - len) + n by omega,
        Nat.add_mod_right]
    · -- the cell is one of the youngest of the old window
      rw [getElem_append_left (by simp; omega), getElem_window,
        show r + len + bs.length + i = r + (len + bs.length - n + i) + n by omega,
        Nat.add_mod_right]
      apply hold
      intro j hj heq
      have hzero : (r + (len + bs.length - n + i) + 0) % n =
          (r + (len + bs.length - n + i) + (len + j - (len + bs.length - n + i))) % n := by
        rw [Nat.add_zero, heq]
        congr 1
        omega
      have := add_mod_inj (by omega) (by omega) hzero
      omega

theorem window_overwrite_blit_wrap (buf : Nat → α) (n r len w s : Nat) (bs : List α)
    (hw : (r + len) % n = w) (hlen : len ≤ n) (hfull : n ≤ len + bs.length) (hs : w + s = n)
    (hle : s ≤ bs.length) (hlt : bs.length - s < n) :
    window (blit (blit buf w (bs.take s)) 0 (bs.drop s)) n (bs.length - s) n =
      (window buf n r len ++ bs).rtake n := by
  have hend : (r + len + bs.length) % n = bs.length - s := by
    rw [← Nat.mod_add_mod, hw, Nat.mod_eq_sub_mod (by omega), Nat.mod_eq_of_lt (by omega)]
    omega
  rw [← window_overwrite buf _ n r len bs hlen hfull, ← window_mod _ _ (r + len + bs.length), hend]
  · intro j hj hlast
    exact blit_wrap_new buf n _ w s bs hw hs hle hlt hj hlast
  · intro x hx
    exact blit_wrap_old buf n _ w s bs hw hs hle hlt hx

end Circular
