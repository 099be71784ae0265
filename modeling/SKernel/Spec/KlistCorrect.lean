import SKernel.ForStd.RingCycles
import SKernel.Native.Klist

/-!
# The list operations on a heap of rings

Every list of the kernel is a ring of nodes, and the operations of `klist.h` get nothing but a node
of it. On any heap that is partitioned into rings they change the rings they are meant to change,
for every shape of these rings, also where the nodes that are written coincide.
-/

namespace SKernel.Spec

open SKernel.Native Links

variable {N : Type*} [DecidableEq N]

/-- **On every heap of rings: `sk_list_empty` tells whether a ring has another node, `sk_list_add`
    and `sk_list_add_tail` put a self-linked node at the front and the back of a ring, `sk_list_del`
    takes a node out of its ring, and all other rings stay.** -/
theorem klist_on_rings (L : Links N) (dom : Set N) (R : Set (Cycle N)) (p : Partition L dom R) :
    (∀ x ∈ dom, ∃ l : List N, ((x :: l : List N) : Cycle N) ∈ R) ∧
    (∀ head l, ((head :: l : List N) : Cycle N) ∈ R → (skListEmpty L head = true ↔ l = [])) ∧
    (∀ head l new, ((head :: l : List N) : Cycle N) ∈ R → new ∈ dom → L.next new = new →
      new ≠ head →
        Partition (skListAdd L head new) dom
          (R \ {((head :: l : List N) : Cycle N), (([new] : List N) : Cycle N)} ∪
            {((head :: new :: l : List N) : Cycle N)}) ∧
        Partition (skListAddTail L head new) dom
          (R \ {((head :: l : List N) : Cycle N), (([new] : List N) : Cycle N)} ∪
            {((head :: (l ++ [new]) : List N) : Cycle N)})) ∧
    (∀ head ∈ dom, L.next head = head →
      skListAdd L head head = L ∧ skListAddTail L head head = L) ∧
    ∀ entry l, ((entry :: l : List N) : Cycle N) ∈ R →
      (skListDel L entry).next entry = entry ∧ (skListDel L entry).prev entry = entry ∧
      (l = [] → skListDel L entry = L) ∧
      (l ≠ [] → Partition (skListDel L entry) dom
        (R \ {((entry :: l : List N) : Cycle N)} ∪
          {(l : Cycle N), (([entry] : List N) : Cycle N)})) := by
  refine ⟨fun x hx => p.exists_cons hx, ?_, ?_, ?_, ?_⟩
  · intro head l hl
    rw [skListEmpty, decide_eq_true_iff, p.next_eq_self_iff hl]
  · intro head l new hl hnew hself hne
    have hsingle := p.singleton_mem hnew hself
    rw [skListAdd_eq, skListAddTail_eq]
    exact ⟨p.insert_front hl hsingle hne, p.insert_back hl hsingle hne⟩
  · intro head hhead hself
    have hlinks := p.self_linked (p.singleton_mem hhead hself)
    rw [skListAdd_eq, skListAddTail_eq, hlinks.1, hlinks.2, insert_self hlinks.1 hlinks.2]
    exact ⟨rfl, rfl⟩
  · intro entry l hl
    rw [skListDel_eq]
    refine ⟨by rw [remove_next, if_pos rfl], by rw [remove_prev, if_pos rfl], ?_, ?_⟩
    · rintro rfl
      exact p.remove_singleton hl
    · intro hne
      exact p.remove hl hne

/-- A ring of two nodes and a self-linked one, which is put in front and behind; and one of the two
    is taken out. -/
theorem klist_on_rings_two_nodes :
    ∃ (L : Links (Option Bool)) (R : Set (Cycle (Option Bool))), Partition L Set.univ R ∧
      (([none, some false] : List (Option Bool)) : Cycle (Option Bool)) ∈ R ∧
      skListEmpty L none = false ∧
      (∃ R', Partition (skListAdd L none (some true)) Set.univ R' ∧
        (([none, some true, some false] : List (Option Bool)) : Cycle (Option Bool)) ∈ R') ∧
      (∃ R', Partition (skListAddTail L none (some true)) Set.univ R' ∧
        (([none, some false, some true] : List (Option Bool)) : Cycle (Option Bool)) ∈ R') ∧
      ∃ R', Partition (skListDel L none) Set.univ R' ∧
        (([none] : List (Option Bool)) : Cycle (Option Bool)) ∈ R' := by
  have p : Partition ⟨id, id⟩ Set.univ
      (Set.range fun x : Option Bool => (([x] : List (Option Bool)) : Cycle (Option Bool))) := by
    constructor
    · rintro _ ⟨x, rfl⟩
      simp
    · rintro _ ⟨x, rfl⟩
      simp
    · rintro _ ⟨x, rfl⟩
      exact (Cycle.chain_singleton _ _).mpr ⟨rfl, rfl⟩
    · intro x
      simp
    · rintro _ ⟨x, rfl⟩ _ ⟨y, rfl⟩ z hx hy
      rw [Cycle.mem_coe_iff, List.mem_singleton] at hx hy
      rw [← hx, ← hy]
  have p' := ((klist_on_rings _ _ _ p).2.2.1 none [] (some false) ⟨none, rfl⟩ trivial rfl
    (by decide)).1
  obtain ⟨-, hempty, hadd, -, hdel⟩ := klist_on_rings _ _ _ p'
  obtain ⟨hfront, hback⟩ := hadd none [some false] (some true) (.inr rfl) trivial rfl (by decide)
  refine ⟨_, _, p', .inr rfl, ?_, ⟨_, hfront, .inr rfl⟩, ⟨_, hback, .inr rfl⟩,
    ⟨_, (hdel none [some false] (.inr rfl)).2.2.2 (by decide), .inr (.inr rfl)⟩⟩
  rw [Bool.eq_false_iff, ne_eq, hempty none [some false] (.inr rfl)]
  decide

end SKernel.Spec
