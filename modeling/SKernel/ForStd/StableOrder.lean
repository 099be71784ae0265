import Mathlib.Data.List.Basic

/-!
# Stable order by priority

A queue that holds its elements by priority, the smallest number first, and those of one priority
in the order of their arrival. `arrivals` are the elements that are in the queue, in the order in
which they came.
-/

namespace StableOrder

open List

variable {α : Type*} {pri : α → Nat} {arrivals ts as bs : List α} {t : α}

/-- The queue `ts` is sorted, and first come, first served within a priority. -/
structure Ordered (pri : α → Nat) (arrivals ts : List α) : Prop where
  sorted : ts.Pairwise fun a b => pri a ≤ pri b
  stable : ∀ p, ts.filter (pri · = p) = arrivals.filter (pri · = p)

/-- Element `t` is the one that came first among those of the highest priority. -/
def IsNext (pri : α → Nat) (arrivals : List α) (t : α) : Prop :=
  ∃ before after, arrivals = before ++ t :: after ∧ (∀ u ∈ before, pri t < pri u) ∧
    ∀ u ∈ after, pri t ≤ pri u

theorem Ordered.nil : Ordered pri [] [] :=
  ⟨List.Pairwise.nil, fun _ => rfl⟩

theorem Ordered.mem_iff (h : Ordered pri arrivals ts) : t ∈ ts ↔ t ∈ arrivals := by
  have hmem : ∀ l : List α, t ∈ l ↔ t ∈ l.filter (pri · = pri t) := by
    intro l
    simp
  rw [hmem ts, h.stable, ← hmem]

theorem Ordered.perm [DecidableEq α] (h : Ordered pri arrivals ts) : ts.Perm arrivals := by
  rw [perm_iff_count]
  intro a
  have hcount : ∀ l : List α, (l.filter (pri · = pri a)).count a = l.count a :=
    fun l => count_filter (by simp)
  rw [← hcount ts, h.stable, hcount]

/-- A new element goes behind those of its own priority. -/
theorem Ordered.insert (h : Ordered pri arrivals (as ++ bs)) (has : ∀ u ∈ as, pri u ≤ pri t)
    (hhead : ∀ u ∈ bs.head?, pri t < pri u) : Ordered pri (arrivals ++ [t]) (as ++ t :: bs) := by
  obtain ⟨hsas, hsbs, hsab⟩ := pairwise_append.mp h.sorted
  have hbs : ∀ u ∈ bs, pri t < pri u := by
    intro u hu
    cases bs with
    | nil => cases hu
    | cons b bs =>
      have hlt := hhead b rfl
      cases mem_cons.mp hu with
      | inl heq => rw [heq]; exact hlt
      | inr hu => exact Nat.lt_of_lt_of_le hlt ((pairwise_cons.mp hsbs).1 u hu)
  constructor
  · rw [pairwise_append, pairwise_cons]
    refine ⟨hsas, ⟨fun u hu => Nat.le_of_lt (hbs u hu), hsbs⟩, ?_⟩
    intro u hu v hv
    cases mem_cons.mp hv with
    | inl heq => rw [heq]; exact has u hu
    | inr hv => exact hsab u hu v hv
  · intro p
    have hstable := h.stable p
    rw [filter_append] at hstable
    rw [filter_append, filter_append, filter_cons, filter_cons,
      filter_nil, ← hstable]
    by_cases hp : pri t = p
    · -- none of the elements behind has this priority
      have hnone : bs.filter (pri · = p) = [] := by
        rw [filter_eq_nil_iff]
        intro u hu heq
        have hlt := hbs u hu
        have hup : pri u = p := by simpa using heq
        omega
      simp [hp, hnone]
    · simp [hp]

/-- Any element may leave. -/
theorem Ordered.erase [DecidableEq α] (h : Ordered pri arrivals ts) (t : α) :
    Ordered pri (arrivals.erase t) (ts.erase t) := by
  constructor
  · exact h.sorted.sublist erase_sublist
  · intro p
    rw [← erase_filter, ← erase_filter, h.stable p]

/-- The first element of the queue is the next one. -/
theorem Ordered.isNext (h : Ordered pri arrivals (t :: ts)) : IsNext pri arrivals t := by
  have hmin : ∀ u ∈ arrivals, pri t ≤ pri u := by
    intro u hu
    cases mem_cons.mp (h.mem_iff.mpr hu) with
    | inl heq => exact Nat.le_of_eq (by rw [heq])
    | inr hin => exact (pairwise_cons.mp h.sorted).1 u hin
  -- no element of the same priority came before it
  have hfirst := h.stable (pri t)
  rw [filter_cons, if_pos (by simp), eq_comm, filter_eq_cons_iff] at hfirst
  obtain ⟨before, after, hsplit, hbefore, -, -⟩ := hfirst
  refine ⟨before, after, hsplit, ?_, ?_⟩
  · intro u hu
    have hle := hmin u (by rw [hsplit]; exact mem_append_left _ hu)
    have hne : pri u ≠ pri t := by simpa using hbefore u hu
    omega
  · intro u hu
    apply hmin
    rw [hsplit]
    exact mem_append_right _ (mem_cons_of_mem t hu)

end StableOrder
