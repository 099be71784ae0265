import Mathlib.Data.Set.Basic
import Mathlib.Order.Interval.Set.Basic
import Mathlib.Tactic.Common

/-!
# Maximal runs of a set of numbers

A set of numbers that is a union of finitely many intervals is described by the increasing list
of its maximal runs, pairs of a first number and a length. The list is determined by the set.
`take` removes numbers from the first run that is long enough, and `give` adds an interval,
joining it with the runs it touches.
-/

namespace Runs

open List

/-- `l` is the increasing list of the maximal runs of `F`. -/
structure IsRuns (F : Set Nat) (l : List (Nat × Nat)) : Prop where
  pos : ∀ r ∈ l, 0 < r.2
  sorted : l.Pairwise fun r s => r.1 + r.2 < s.1
  mem : ∀ i, i ∈ F ↔ ∃ r ∈ l, r.1 ≤ i ∧ i < r.1 + r.2

/-- Take `n` numbers from the front of the first run that has as many. -/
def take (n : Nat) : List (Nat × Nat) → Option (Nat × List (Nat × Nat))
  | [] => none
  | (b, k) :: rest =>
    if k > n then some (b, (b + n, k - n) :: rest)
    else if k = n then some (b, rest)
    else (take n rest).map fun r => (r.1, (b, k) :: r.2)

/-- Add the `n` numbers from `a` on, and join them with the runs they touch. -/
def give (a n : Nat) : List (Nat × Nat) → List (Nat × Nat)
  | [] => [(a, n)]
  | (b, k) :: rest =>
    if b + k = a then
      match rest with
      | (c, j) :: rest' =>
        if b + (k + n) = c then (b, k + n + j) :: rest' else (b, k + n) :: (c, j) :: rest'
      | [] => [(b, k + n)]
    else if b = a + n then (a, k + n) :: rest
    else if b > a + n then (a, n) :: (b, k) :: rest
    else (b, k) :: give a n rest

theorem first_of_mem_give {a n : Nat} (hr : r ∈ give a n l) : r.1 = a ∨ ∃ s ∈ l, r.1 = s.1 := by
  induction l with
  | nil =>
    left
    rw [mem_singleton.mp hr]
  | cons s l ih =>
    obtain ⟨b, k⟩ := s
    have hrest : r ∈ l → ∃ s ∈ (b, k) :: l, r.1 = s.1 := fun hin =>
      ⟨r, mem_cons_of_mem _ hin, rfl⟩
    have hfirst : r.1 = b → ∃ s ∈ (b, k) :: l, r.1 = s.1 := fun heq =>
      ⟨(b, k), mem_cons_self, heq⟩
    unfold give at hr
    split at hr
    · -- the interval is joined to the end of the first run
      right
      cases l with
      | nil =>
        rw [mem_singleton.mp hr]
        exact ⟨(b, k), mem_cons_self, rfl⟩
      | cons t l =>
        dsimp only at hr
        split at hr
        · cases mem_cons.mp hr with
          | inl heq => exact hfirst (by rw [heq])
          | inr hin => exact hrest (mem_cons_of_mem _ hin)
        · cases mem_cons.mp hr with
          | inl heq => exact hfirst (by rw [heq])
          | inr hin => exact hrest hin
    · split at hr
      · cases mem_cons.mp hr with
        | inl heq => exact .inl (by rw [heq])
        | inr hin => exact .inr (hrest hin)
      · split at hr
        · cases mem_cons.mp hr with
          | inl heq => exact .inl (by rw [heq])
          | inr hin => exact .inr ⟨r, hin, rfl⟩
        · cases mem_cons.mp hr with
          | inl heq => exact .inr (hfirst (by rw [heq]))
          | inr hin =>
            cases ih hin with
            | inl heq => exact .inl heq
            | inr hex =>
              obtain ⟨s, hs, heq⟩ := hex
              exact .inr ⟨s, mem_cons_of_mem _ hs, heq⟩

/-- Runs begin at or behind where one began. -/
theorem first_le_of_mem_take {a n : Nat} (ht : take n l = some (a, l'))
    (hr : r ∈ l') : ∃ s ∈ l, s.1 ≤ r.1 := by
  induction l generalizing l' with
  | nil => cases ht
  | cons s l ih =>
    obtain ⟨b, k⟩ := s
    simp only [take] at ht
    split at ht
    · cases ht
      cases mem_cons.mp hr with
      | inl heq =>
        rw [heq]
        exact ⟨_, mem_cons_self, Nat.le_add_right _ n⟩
      | inr hin => exact ⟨r, mem_cons_of_mem _ hin, Nat.le_refl _⟩
    · split at ht
      · cases ht
        exact ⟨r, mem_cons_of_mem _ hr, Nat.le_refl _⟩
      · obtain ⟨⟨a', l1⟩, ht', heq⟩ := Option.map_eq_some_iff.mp ht
        cases heq
        cases mem_cons.mp hr with
        | inl heq => exact ⟨(b, k), mem_cons_self, by rw [heq]⟩
        | inr hin =>
          obtain ⟨s, hs, hle⟩ := ih ht' hin
          exact ⟨s, mem_cons_of_mem _ hs, hle⟩

namespace IsRuns

variable {F : Set Nat} {a b k n : Nat} {l l' : List (Nat × Nat)} {r : Nat × Nat}

theorem nil_iff : IsRuns F [] ↔ F = ∅ := by
  constructor
  · intro h
    ext i
    simp [h.mem i]
  · intro h
    subst h
    exact ⟨by simp, List.Pairwise.nil, by simp⟩

/-- A run in front of the runs of numbers beyond it. -/
theorem cons {G : Set Nat} (h : IsRuns G l) (hk : 0 < k) (hG : ∀ i ∈ G, b + k < i)
    (hF : ∀ i, i ∈ F ↔ (b ≤ i ∧ i < b + k) ∨ i ∈ G) : IsRuns F ((b, k) :: l) := by
  refine ⟨forall_mem_cons.mpr ⟨hk, h.pos⟩, pairwise_cons.mpr ⟨?_, h.sorted⟩, ?_⟩
  · intro r hr
    have hpos := h.pos r hr
    exact hG r.1 ((h.mem r.1).mpr ⟨r, hr, Nat.le_refl _, by omega⟩)
  · intro i
    rw [hF, h.mem]
    simp only [mem_cons, exists_eq_or_imp]

/-- The first run, and the set that the others describe. -/
theorem uncons (h : IsRuns F ((b, k) :: l)) : ∃ G, IsRuns G l ∧ 0 < k ∧ (∀ i ∈ G, b + k < i) ∧
    ∀ i, i ∈ F ↔ (b ≤ i ∧ i < b + k) ∨ i ∈ G := by
  obtain ⟨hfirst, hsorted⟩ := pairwise_cons.mp h.sorted
  refine ⟨{i | ∃ r ∈ l, r.1 ≤ i ∧ i < r.1 + r.2},
    ⟨fun r hr => h.pos r (mem_cons_of_mem _ hr), hsorted, fun _ => Iff.rfl⟩,
    h.pos (b, k) mem_cons_self, ?_, ?_⟩
  · intro i hi
    obtain ⟨r, hr, hle, -⟩ := hi
    exact Nat.lt_of_lt_of_le (hfirst r hr) hle
  · intro i
    rw [h.mem i]
    simp only [mem_cons, exists_eq_or_imp, Set.mem_ofPred_eq]

theorem cons_iff : IsRuns F ((b, k) :: l) ↔
    0 < k ∧ (∀ i, b ≤ i → i < b + k → i ∈ F) ∧ (∀ i ∈ F, b ≤ i ∧ i ≠ b + k) ∧
      IsRuns {i ∈ F | b + k < i} l := by
  constructor
  · intro h
    obtain ⟨G, hruns, hk, hG, hF⟩ := h.uncons
    have hset : {i ∈ F | b + k < i} = G := by
      ext i
      simp only [Set.mem_ofPred_eq, hF]
      grind
    rw [hset]
    refine ⟨hk, fun i hb hlt => (hF i).mpr (.inl ⟨hb, hlt⟩), ?_, hruns⟩
    intro i hi
    cases (hF i).mp hi with
    | inl hin => omega
    | inr hin =>
      have := hG i hin
      omega
  · rintro ⟨hpos, hrun, hbound, hrest⟩
    refine hrest.cons hpos (fun i hi => hi.2) ?_
    intro i
    simp only [Set.mem_ofPred_eq]
    grind

/-- The list of maximal runs is determined by the set. -/
theorem unique (h : IsRuns F l) (h' : IsRuns F l') : l = l' := by
  induction l generalizing F l' with
  | nil =>
    rw [nil_iff] at h
    subst h
    cases l' with
    | nil => rfl
    | cons r l' =>
      have hr := h'.pos r mem_cons_self
      have := (h'.mem r.1).mpr ⟨r, mem_cons_self, Nat.le_refl _, by omega⟩
      cases this
  | cons r l ih =>
    obtain ⟨b, k⟩ := r
    cases l' with
    | nil =>
      rw [nil_iff] at h'
      subst h'
      have := (cons_iff.mp h).2.1 b (Nat.le_refl b) (by have := (cons_iff.mp h).1; omega)
      cases this
    | cons r' l' =>
      obtain ⟨b', k'⟩ := r'
      obtain ⟨hpos, hrun, hbound, hrest⟩ := cons_iff.mp h
      obtain ⟨hpos', hrun', hbound', hrest'⟩ := cons_iff.mp h'
      -- both begin with the least number of the set, and end before the first gap
      have hb : b = b' := by
        have h1 := (hbound b' (hrun' b' (Nat.le_refl _) (by omega))).1
        have h2 := (hbound' b (hrun b (Nat.le_refl _) (by omega))).1
        omega
      subst hb
      have hk : k = k' := by
        by_contra hne
        cases Nat.lt_or_gt_of_ne hne with
        | inl hlt => exact (hbound (b + k) (hrun' (b + k) (by omega) (by omega))).2 rfl
        | inr hlt => exact (hbound' (b + k') (hrun (b + k') (by omega) (by omega))).2 rfl
      subst hk
      rw [ih hrest hrest']

theorem end_notMem (h : IsRuns F l) (hr : r ∈ l) : r.1 + r.2 ∉ F := by
  induction l generalizing F with
  | nil => cases hr
  | cons s l ih =>
    obtain ⟨b, k⟩ := s
    obtain ⟨hpos, -, hbound, hrest⟩ := cons_iff.mp h
    intro hin
    cases mem_cons.mp hr with
    | inl heq =>
      rw [heq] at hin
      exact (hbound _ hin).2 rfl
    | inr hr =>
      have hp := hrest.pos r hr
      have hfirst := (hrest.mem r.1).mpr ⟨r, hr, Nat.le_refl _, by omega⟩
      exact ih hrest hr ⟨hin, Nat.lt_of_lt_of_le hfirst.2 (Nat.le_add_right _ _)⟩

theorem exists_run_iff (h : IsRuns F l) (hn : 0 < n) :
    (∃ r ∈ l, n ≤ r.2) ↔ ∃ a, ∀ i, a ≤ i → i < a + n → i ∈ F := by
  constructor
  · intro hex
    obtain ⟨r, hr, hle⟩ := hex
    exact ⟨r.1, fun i hi hin => (h.mem i).mpr ⟨r, hr, hi, by omega⟩⟩
  · intro hex
    obtain ⟨a, ha⟩ := hex
    obtain ⟨r, hr, hle, hlt⟩ := (h.mem a).mp (ha a (Nat.le_refl a) (by omega))
    refine ⟨r, hr, ?_⟩
    -- otherwise the numbers in a row reach beyond the run
    by_contra hshort
    exact h.end_notMem hr (ha _ (by omega) (by omega))

/-- The runs fit side by side below a bound of the set. -/
theorem length_le {N : Nat} (h : IsRuns F l) (hF : ∀ i ∈ F, i < N) : l.length ≤ N := by
  have hfirst : ∀ l : List (Nat × Nat), (∀ r ∈ l, 0 < r.2) →
      (l.Pairwise fun r s => r.1 + r.2 < s.1) → ∀ m, (∀ r ∈ l, m ≤ r.1) →
      (∀ r ∈ l, r.1 < N) → m + l.length ≤ max m N := by
    intro l
    induction l with
    | nil => simp
    | cons r l ih =>
      intro hpos hsorted m hm hN
      obtain ⟨hr, hl⟩ := pairwise_cons.mp hsorted
      have h1 := hm r mem_cons_self
      have h2 := hN r mem_cons_self
      have := ih (fun s hs => hpos s (mem_cons_of_mem r hs)) hl (m + 1)
        (fun s hs => by have := hr s hs; omega) (fun s hs => hN s (mem_cons_of_mem r hs))
      simp only [length_cons]
      omega
  have := hfirst l h.pos h.sorted 0 (fun _ _ => Nat.zero_le _) fun r hr =>
    hF r.1 ((h.mem r.1).mpr ⟨r, hr, Nat.le_refl _, by have := h.pos r hr; omega⟩)
  omega

theorem take_eq_none (n : Nat) (l : List (Nat × Nat)) :
    Runs.take n l = none ↔ ∀ r ∈ l, r.2 < n := by
  induction l with
  | nil => simp [Runs.take]
  | cons r l ih =>
    obtain ⟨b, k⟩ := r
    simp only [Runs.take, forall_mem_cons]
    split
    · simp
      omega
    · split
      · simp
        omega
      · rw [Option.map_eq_none_iff, ih]
        constructor
        · intro h
          exact ⟨by omega, h⟩
        · exact fun h => h.2

theorem take (h : IsRuns F l) (hn : 0 < n) (ht : Runs.take n l = some (a, l')) :
    (∀ i, a ≤ i → i < a + n → i ∈ F) ∧ IsRuns (F \ Set.Ico a (a + n)) l' := by
  induction l generalizing F l' with
  | nil => cases ht
  | cons r l ih =>
    obtain ⟨b, k⟩ := r
    obtain ⟨G, hruns, hk, hG, hF⟩ := h.uncons
    have hfirst : ∀ i, b ≤ i → i < b + k → i ∈ F := fun i hb hlt => (hF i).mpr (.inl ⟨hb, hlt⟩)
    simp only [Runs.take] at ht
    split at ht
    · -- the first run is longer
      rename_i hlong
      cases ht
      refine ⟨fun i hi hin => hfirst i hi (by omega), hruns.cons (by omega) ?_ ?_⟩
      · intro i hi
        have := hG i hi
        omega
      · intro i
        simp only [Set.mem_sdiff, Set.mem_Ico, hF]
        grind
    · split at ht
      · -- the first run is used up
        rename_i hkn
        cases ht
        subst hkn
        have hset : F \ Set.Ico a (a + k) = G := by
          ext i
          simp only [Set.mem_sdiff, Set.mem_Ico, hF]
          grind
        rw [hset]
        exact ⟨hfirst, hruns⟩
      · -- the first run stays
        obtain ⟨⟨a', l1⟩, ht', heq⟩ := Option.map_eq_some_iff.mp ht
        cases heq
        obtain ⟨hin, hruns'⟩ := ih hruns ht'
        have hlt : b + k < a' := hG a' (hin a' (Nat.le_refl a') (by omega))
        refine ⟨fun i hi hia => (hF i).mpr (.inr (hin i hi hia)),
          hruns'.cons hk (fun i hi => hG i hi.1) ?_⟩
        intro i
        simp only [Set.mem_sdiff, Set.mem_Ico, hF]
        grind

theorem give_behind (h : IsRuns F ((b, k) :: l)) (hn : 0 < n)
    (hnew : ∀ i, b + k ≤ i → i < b + k + n → i ∉ F) :
    IsRuns (F ∪ Set.Ico (b + k) (b + k + n)) (Runs.give (b + k) n ((b, k) :: l)) := by
  obtain ⟨G, hruns, hk, hG, hF⟩ := h.uncons
  simp only [Runs.give, ↓reduceIte]
  cases l with
  | nil =>
    refine hruns.cons (by omega) ?_ ?_
    · rw [nil_iff.mp hruns]
      intro i hi
      cases hi
    · intro i
      simp only [Set.mem_union, Set.mem_Ico, hF]
      grind
  | cons r rest =>
    obtain ⟨c, j⟩ := r
    obtain ⟨H, hrest, hj, hH, hG'⟩ := hruns.uncons
    -- the next run begins at or behind the end of the new numbers
    have hcG : c ∈ G := (hG' c).mpr (.inl ⟨Nat.le_refl c, by omega⟩)
    have hbc := hG c hcG
    have hcn : b + k + n ≤ c := by
      by_contra hlt
      exact hnew c (Nat.le_of_lt hbc) (by omega) ((hF c).mpr (.inr hcG))
    dsimp only
    split
    · refine hrest.cons (by omega) ?_ ?_
      · intro i hi
        have := hH i hi
        omega
      · intro i
        simp only [Set.mem_union, Set.mem_Ico, hF, hG']
        grind
    · refine hruns.cons (by omega) ?_ ?_
      · intro i hi
        have := hH i
        rw [hG'] at hi
        grind
      · intro i
        simp only [Set.mem_union, Set.mem_Ico, hF]
        grind

/-- `give` adds exactly its interval. -/
theorem give (h : IsRuns F l) (hn : 0 < n) (hnew : ∀ i, a ≤ i → i < a + n → i ∉ F) :
    IsRuns (F ∪ Set.Ico a (a + n)) (Runs.give a n l) := by
  induction l generalizing F with
  | nil =>
    refine h.cons hn ?_ ?_
    · rw [nil_iff.mp h]
      intro i hi
      cases hi
    · intro i
      simp only [Set.mem_union, Set.mem_Ico]
      tauto
  | cons r l ih =>
    obtain ⟨b, k⟩ := r
    by_cases hbehind : b + k = a
    · subst hbehind
      exact h.give_behind hn hnew
    · obtain ⟨G, hruns, hk, hG, hF⟩ := h.uncons
      unfold Runs.give
      rw [if_neg hbehind]
      split
      · -- the new numbers come right before the first run
        rename_i hbefore
        subst hbefore
        refine hruns.cons (by omega) ?_ ?_
        · intro i hi
          have := hG i hi
          omega
        · intro i
          simp only [Set.mem_union, Set.mem_Ico, hF]
          grind
      · split
        · -- they come before the first run, and do not touch it
          refine h.cons hn ?_ ?_
          · intro i hi
            rw [hF] at hi
            grind
          · intro i
            simp only [Set.mem_union, Set.mem_Ico]
            tauto
        · -- they come after the first run
          have hab : b + k < a := by
            by_contra hle
            have hin : max a b ∈ F := (hF _).mpr (.inl (by omega))
            exact hnew _ (by omega) (by omega) hin
          have hnew' : ∀ i, a ≤ i → i < a + n → i ∉ G := fun i hi hin hiG =>
            hnew i hi hin ((hF i).mpr (.inr hiG))
          refine (ih hruns hnew').cons hk ?_ ?_
          · intro i hi
            simp only [Set.mem_union, Set.mem_Ico] at hi
            grind
          · intro i
            simp only [Set.mem_union, Set.mem_Ico, hF]
            tauto

end IsRuns

end Runs
