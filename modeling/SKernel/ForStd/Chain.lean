import Mathlib.Data.List.Nodup
import Mathlib.Logic.Function.Basic
import Mathlib.Tactic.Common

/-!
# Singly linked lists

Nodes are numbers, `0` is the null pointer, and `next` gives the pointer in each node.
`Linked next p l` says that the list that `p` points to is `l` and ends with the null pointer;
`Leads next p l` says only that it begins with `l`.
-/

namespace Chain

open List

/-- The null-terminated list that `p` points to is `l`. -/
def Linked (next : Nat → Nat) : Nat → List Nat → Prop
  | p, [] => p = 0
  | p, a :: l => p = a ∧ a ≠ 0 ∧ Linked next (next a) l

/-- The list that `p` points to begins with `l`. -/
def Leads (next : Nat → Nat) : Nat → List Nat → Prop
  | _, [] => True
  | p, a :: l => p = a ∧ Leads next (next a) l

/-- The first `k` nodes of the list that `p` points to. -/
def walk (next : Nat → Nat) : Nat → Nat → List Nat
  | _, 0 => []
  | p, k + 1 => p :: walk next (next p) k

/-- `a` is a node of the list that `p` points to. -/
inductive OnList (next : Nat → Nat) : Nat → Nat → Prop where
  | head {p : Nat} (hp : p ≠ 0) : OnList next p p
  | next {p a : Nat} (hp : p ≠ 0) (h : OnList next (next p) a) : OnList next p a

variable {next next' : Nat → Nat} {p a b : Nat} {l l1 l2 : List Nat}

theorem linked_cons : Linked next p (a :: l) ↔ p = a ∧ a ≠ 0 ∧ Linked next (next a) l := Iff.rfl

theorem leads_cons : Leads next p (a :: l) ↔ p = a ∧ Leads next (next a) l := Iff.rfl

theorem Linked.congr (h : Linked next p l) (heq : ∀ a ∈ l, next' a = next a) :
    Linked next' p l := by
  induction l generalizing p with
  | nil => exact h
  | cons a l ih =>
    obtain ⟨hp, ha, hl⟩ := h
    refine ⟨hp, ha, ?_⟩
    rw [heq a mem_cons_self]
    exact ih hl fun b hb => heq b (mem_cons_of_mem a hb)

theorem Leads.congr (h : Leads next p l) (heq : ∀ a ∈ l, next' a = next a) :
    Leads next' p l := by
  induction l generalizing p with
  | nil => trivial
  | cons a l ih =>
    obtain ⟨hp, hl⟩ := h
    refine ⟨hp, ?_⟩
    rw [heq a mem_cons_self]
    exact ih hl fun b hb => heq b (mem_cons_of_mem a hb)

theorem Leads.walk (h : Leads next p l) : walk next p l.length = l := by
  induction l generalizing p with
  | nil => rfl
  | cons a l ih =>
    obtain ⟨hp, hl⟩ := h
    subst hp
    show p :: Chain.walk next (next p) l.length = p :: l
    rw [ih hl]

theorem Linked.eq_zero_iff (h : Linked next p l) : p = 0 ↔ l = [] := by
  cases l with
  | nil => exact ⟨fun _ => rfl, fun _ => h⟩
  | cons a l =>
    obtain ⟨hp, ha, -⟩ := h
    subst hp
    simp [ha]

/-- The list is determined by the pointers. -/
theorem Linked.unique (h : Linked next p l1) (h' : Linked next p l2) : l1 = l2 := by
  induction l1 generalizing p l2 with
  | nil => exact (h'.eq_zero_iff.mp h).symm
  | cons a l ih =>
    cases l2 with
    | nil => exact h.eq_zero_iff.mp h'
    | cons b l' =>
      obtain ⟨hp, -, hl⟩ := h
      obtain ⟨hp', -, hl'⟩ := h'
      subst hp
      subst hp'
      rw [ih hl hl']

/-- The list from one of its nodes on. -/
theorem Linked.suffix (h : Linked next p (l1 ++ l2)) : ∃ q, Linked next q l2 := by
  induction l1 generalizing p with
  | nil => exact ⟨p, h⟩
  | cons a l ih => exact ih h.2.2

/-- A list that ends repeats no node. -/
theorem Linked.nodup (h : Linked next p l) : l.Nodup := by
  induction l generalizing p with
  | nil => exact nodup_nil
  | cons a l ih =>
    obtain ⟨hp, ha, hl⟩ := h
    refine nodup_cons.mpr ⟨?_, ih hl⟩
    -- the list from a second occurrence on would be the whole list
    intro hin
    obtain ⟨l1, l2, rfl⟩ := append_of_mem hin
    obtain ⟨q, hq⟩ := hl.suffix
    have hq' : Linked next a (a :: l2) := ⟨rfl, ha, hq.2.2⟩
    have hwhole : Linked next a (a :: (l1 ++ a :: l2)) := ⟨rfl, ha, hl⟩
    have hlen := congrArg List.length (hq'.unique hwhole)
    simp only [length_cons, length_append] at hlen
    omega

theorem Linked.onList_iff (h : Linked next p l) : OnList next p a ↔ a ∈ l := by
  constructor
  · intro hon
    induction hon generalizing l with
    | head hp =>
      cases l with
      | nil => exact absurd h hp
      | cons b l =>
        rw [h.1]
        exact mem_cons_self
    | next hp _ ih =>
      cases l with
      | nil => exact absurd h hp
      | cons b l =>
        obtain ⟨heq, -, hl⟩ := h
        subst heq
        exact mem_cons_of_mem _ (ih hl)
  · intro hin
    induction l generalizing p with
    | nil => cases hin
    | cons b l ih =>
      obtain ⟨heq, hb, hl⟩ := h
      subst heq
      cases mem_cons.mp hin with
      | inl heq =>
        rw [heq]
        exact .head hb
      | inr hin => exact .next hb (ih hl hin)

theorem not_onList_zero : ¬OnList next 0 a :=
  fun h => not_mem_nil ((Linked.onList_iff (l := []) rfl).mp h)

/-- Taking out the node behind `b`. -/
theorem Linked.remove (h : Linked next p (l1 ++ b :: a :: l2)) :
    Linked (Function.update next b (next a)) p (l1 ++ b :: l2) := by
  have hnodup := h.nodup
  induction l1 generalizing p with
  | nil =>
    obtain ⟨hp, hb, ha, ha0, hl⟩ := h
    refine ⟨hp, hb, ?_⟩
    rw [Function.update_self]
    refine hl.congr fun c hc => Function.update_of_ne ?_ ..
    intro heq
    rw [heq] at hc
    exact (nodup_cons.mp hnodup).1 (mem_cons_of_mem a hc)
  | cons c l1 ih =>
    obtain ⟨hp, hc, hl⟩ := h
    have hcb : c ≠ b := by
      intro heq
      rw [cons_append, nodup_cons] at hnodup
      exact hnodup.1 (by simp [heq])
    refine ⟨hp, hc, ?_⟩
    rw [Function.update_of_ne hcb]
    exact ih hl (nodup_cons.mp hnodup).2

/-- Putting a node behind the last one. -/
theorem Linked.snoc (h : Linked next p (l ++ [b])) (ha : a ≠ 0) (hlast : next' b = a)
    (hend : next' a = 0) (heq : ∀ c ∈ l, next' c = next c) : Linked next' p (l ++ [b, a]) := by
  induction l generalizing p with
  | nil =>
    obtain ⟨hp, hb, -⟩ := h
    exact ⟨hp, hb, hlast, ha, hend⟩
  | cons c l ih =>
    obtain ⟨hp, hc, hl⟩ := h
    refine ⟨hp, hc, ?_⟩
    rw [heq c mem_cons_self]
    exact ih hl fun d hd => heq d (mem_cons_of_mem c hd)

end Chain
