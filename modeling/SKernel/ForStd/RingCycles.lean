import Mathlib.Data.List.Cycle
import SKernel.ForStd.Ring

/-!
# Partitions of a heap into rings

`Links.Partition L dom R` says that the nodes of `dom` are partitioned into the rings of `R`, each a
cycle of nodes without a first one. A change of the links is a change of a few rings: `replace` says
what has to be shown about them, and that the others stay. The rules for linking and unlinking a
node cut the ring open at a node of it and use `Links.Rings` for this ring alone.
-/

namespace Links

open List

variable {N : Type*} {h x : N} {l : List N}

/-- The nodes of `dom` are partitioned into the rings of `R`. -/
structure Partition (L : Links N) (dom : Set N) (R : Set (Cycle N)) : Prop where
  ne_nil : ∀ c ∈ R, c ≠ Cycle.nil
  nodup : ∀ c ∈ R, c.Nodup
  chain : ∀ c ∈ R, c.Chain L.Linked
  cover : ∀ x, x ∈ dom ↔ ∃ c ∈ R, x ∈ c
  disjoint : ∀ c ∈ R, ∀ c' ∈ R, ∀ x, x ∈ c → x ∈ c' → c = c'

private theorem chain_congr {L L' : Links N} {c : Cycle N}
    (h : ∀ x ∈ c, L'.next x = L.next x ∧ L'.prev x = L.prev x) (hc : c.Chain L.Linked) :
    c.Chain L'.Linked := by
  induction c using Cycle.induction_on with
  | nil => exact Cycle.Chain.nil _
  | cons a l _ =>
    rw [Cycle.chain_coe_cons] at hc ⊢
    exact Rings.isChain_other hc (fun u hu => (h u hu).1) fun v hv => (h v hv).2

namespace Partition

variable {L L' : Links N} {dom : Set N} {R : Set (Cycle N)}

/-! ## Reading a partition -/

section

variable (p : Partition L dom R)
include p

variable {x : N}

theorem exists_cons (hx : x ∈ dom) : ∃ l : List N, ((x :: l : List N) : Cycle N) ∈ R := by
  obtain ⟨c, hc, hxc⟩ := (p.cover x).mp hx
  induction c using Quotient.inductionOn with
  | h l =>
    obtain ⟨as, bs, rfl⟩ := append_of_mem (Cycle.mem_coe_iff.mp hxc)
    refine ⟨bs ++ as, ?_⟩
    have hrot : ((x :: (bs ++ as) : List N) : Cycle N) = ((as ++ x :: bs : List N) : Cycle N) :=
      Cycle.coe_eq_coe.mpr (show (x :: bs) ++ as ~r as ++ (x :: bs) from isRotated_append)
    rw [hrot]
    exact hc

variable {l : List N}

private theorem nodup_list (hl : (l : Cycle N) ∈ R) : l.Nodup :=
  Cycle.nodup_coe_iff.mp (p.nodup _ hl)

section

variable (hl : ((x :: l : List N) : Cycle N) ∈ R)
include hl

private theorem isChain_list : (x :: (l ++ [x])).IsChain L.Linked :=
  (Cycle.chain_coe_cons _ _ _).mp (p.chain _ hl)

/-- One ring and self-linked nodes are a heap of their own. -/
theorem rings {S : Set N} (hS : ∀ y ∈ S, L.next y = y ∧ L.prev y = y) :
    Rings L ({y | y ∈ x :: l} ∪ S) {x} fun _ => l where
  heads_dom := by
    rintro _ rfl
    exact .inl mem_cons_self
  mem_dom := fun _ hy => .inl (mem_cons_of_mem _ hy)
  head_notMem := by
    rintro _ _ rfl -
    exact (nodup_cons.mp (p.nodup_list hl)).1
  nodup := fun _ => (nodup_cons.mp (p.nodup_list hl)).2
  disjoint := by
    rintro _ _ _ rfl rfl - -
    rfl
  ring := by
    rintro _ rfl
    exact p.isChain_list hl
  free := by
    intro y hy hyx hyl
    rcases hy with hy | hy
    · rcases mem_cons.mp hy with rfl | hy
      · exact absurd rfl hyx
      · exact absurd hy (hyl x rfl)
    · exact hS y hy

theorem next_eq_self_iff : L.next x = x ↔ l = [] :=
  (p.rings hl (S := ∅) (fun _ h => h.elim)).next_head_eq_iff rfl

end

theorem self_linked (hx : (([x] : List N) : Cycle N) ∈ R) : L.next x = x ∧ L.prev x = x :=
  (Cycle.chain_singleton _ _).mp (p.chain _ hx)

/-- A self-linked node is a ring of its own. -/
theorem singleton_mem (hx : x ∈ dom) (hself : L.next x = x) :
    (([x] : List N) : Cycle N) ∈ R := by
  obtain ⟨l, hl⟩ := p.exists_cons hx
  rw [(p.next_eq_self_iff hl).mp hself] at hl
  exact hl

/-- A self-linked node is in no other ring. -/
theorem notMem_of_singleton (hl : ((h :: l : List N) : Cycle N) ∈ R)
    (hx : (([x] : List N) : Cycle N) ∈ R) (hne : x ≠ h) : x ∉ h :: l := by
  intro hmem
  have heq := p.disjoint _ hl _ hx x (Cycle.mem_coe_iff.mpr hmem) (by simp)
  rw [Cycle.coe_eq_coe, isRotated_singleton_iff, cons.injEq] at heq
  exact hne heq.1.symm

/-! ## Changing a partition -/

/-- Other rings of the same nodes are put in. -/
theorem replace {A B : Set (Cycle N)} (hA : A ⊆ R)
    (hB : ∀ c ∈ B, c ≠ Cycle.nil ∧ c.Nodup ∧ c.Chain L'.Linked)
    (hsame : ∀ x, (∃ c ∈ A, x ∈ c) ↔ ∃ c ∈ B, x ∈ c)
    (hdisj : ∀ c ∈ B, ∀ c' ∈ B, ∀ x, x ∈ c → x ∈ c' → c = c')
    (hframe : ∀ x, (∀ c ∈ A, x ∉ c) → L'.next x = L.next x ∧ L'.prev x = L.prev x) :
    Partition L' dom (R \ A ∪ B) := by
  -- a ring that stays has no node of the others
  have hout : ∀ c ∈ R \ A, ∀ x ∈ c, ∀ c' ∈ A, x ∉ c' := fun c hc x hx c' hc' hx' =>
    hc.2 (p.disjoint c hc.1 c' (hA hc') x hx hx' ▸ hc')
  have hmixed : ∀ c ∈ R \ A, ∀ c' ∈ B, ∀ x, x ∈ c → x ∉ c' := by
    intro c hc c' hc' x hx hx'
    obtain ⟨c0, hc0, hx0⟩ := (hsame x).mpr ⟨c', hc', hx'⟩
    exact hout c hc x hx c0 hc0 hx0
  constructor
  · rintro c (hc | hc)
    · exact p.ne_nil c hc.1
    · exact (hB c hc).1
  · rintro c (hc | hc)
    · exact p.nodup c hc.1
    · exact (hB c hc).2.1
  · rintro c (hc | hc)
    · exact chain_congr (fun x hx => hframe x (hout c hc x hx)) (p.chain c hc.1)
    · exact (hB c hc).2.2
  · intro x
    rw [p.cover]
    constructor
    · rintro ⟨c, hc, hx⟩
      by_cases hcA : c ∈ A
      · obtain ⟨c', hc', hx'⟩ := (hsame x).mp ⟨c, hcA, hx⟩
        exact ⟨c', .inr hc', hx'⟩
      · exact ⟨c, .inl ⟨hc, hcA⟩, hx⟩
    · rintro ⟨c, hc | hc, hx⟩
      · exact ⟨c, hc.1, hx⟩
      · obtain ⟨c', hc', hx'⟩ := (hsame x).mpr ⟨c, hc, hx⟩
        exact ⟨c', hA hc', hx'⟩
  · rintro c (hc | hc) c' (hc' | hc') x hx hx'
    · exact p.disjoint c hc.1 c' hc'.1 x hx hx'
    · exact absurd hx' (hmixed c hc c' hc' x hx)
    · exact absurd hx (hmixed c' hc' c hc x hx')
    · exact hdisj c hc c' hc' x hx hx'

end

variable [DecidableEq N]

variable (p : Partition L dom R)
include p

/-- A self-linked node is linked into a gap of a ring. -/
theorem insert (as bs : List N) (hl : ((h :: (as ++ bs) : List N) : Cycle N) ∈ R)
    (hx : (([x] : List N) : Cycle N) ∈ R) (hne : x ≠ h) :
    Partition (L.insert x (as.getLastD h) (bs.headD h)) dom
      (R \ {((h :: (as ++ bs) : List N) : Cycle N), (([x] : List N) : Cycle N)} ∪
        {((h :: (as ++ x :: bs) : List N) : Cycle N)}) := by
  have hnot := p.notMem_of_singleton hl hx hne
  have hrings := p.rings hl (S := {x}) (by rintro _ rfl; exact p.self_linked hx)
  have hfree : Free ({y | y ∈ h :: (as ++ bs)} ∪ {x}) {h} (fun _ => as ++ bs) x := by
    refine ⟨.inr rfl, hne, fun _ _ hmem => hnot (mem_cons_of_mem _ hmem)⟩
  apply p.replace
  · rintro c (rfl | rfl)
    · exact hl
    · exact hx
  · -- the longer ring is one
    rintro c rfl
    refine ⟨by simp, ?_, ?_⟩
    · rw [Cycle.nodup_coe_iff, ← cons_append, nodup_middle, nodup_cons]
      exact ⟨hnot, p.nodup_list hl⟩
    · rw [Cycle.chain_coe_cons]
      exact hrings.insert_ring rfl rfl hfree
  · -- the nodes of the two old rings are those of the new one
    intro y
    simp only [Set.mem_insert_iff, Set.mem_singleton_iff, exists_eq_or_imp, exists_eq_left,
      Cycle.mem_coe_iff, mem_cons, mem_append, not_mem_nil, or_false]
    tauto
  · rintro c rfl c' rfl y - -
    rfl
  · -- the four stores reach only nodes of the two rings
    intro y hy
    have hring : y ∉ h :: (as ++ bs) := fun hmem =>
      hy _ (.inl rfl) (Cycle.mem_coe_iff.mpr hmem)
    have hyx : y ≠ x := by
      rintro rfl
      exact hy _ (.inr rfl) (by simp)
    constructor
    · rw [insert_next, if_neg (ne_of_mem_of_not_mem (Rings.getLastD_mem_ring h as bs) hring).symm,
        if_neg hyx]
    · rw [insert_prev, if_neg hyx,
        if_neg (ne_of_mem_of_not_mem (Rings.headD_mem_ring h as bs) hring).symm]

/-- A self-linked node is linked right behind a node. -/
theorem insert_front (hl : ((h :: l : List N) : Cycle N) ∈ R) (hx : (([x] : List N) : Cycle N) ∈ R)
    (hne : x ≠ h) :
    Partition (L.insert x h (L.next h)) dom
      (R \ {((h :: l : List N) : Cycle N), (([x] : List N) : Cycle N)} ∪
        {((h :: x :: l : List N) : Cycle N)}) := by
  have hnext := (p.rings hl (S := ∅) (fun _ hy => hy.elim)).next_head rfl
  rw [hnext]
  exact p.insert [] l hl hx hne

theorem insert_back (hl : ((h :: l : List N) : Cycle N) ∈ R) (hx : (([x] : List N) : Cycle N) ∈ R)
    (hne : x ≠ h) :
    Partition (L.insert x (L.prev h) h) dom
      (R \ {((h :: l : List N) : Cycle N), (([x] : List N) : Cycle N)} ∪
        {((h :: (l ++ [x]) : List N) : Cycle N)}) := by
  have hprev := (p.rings hl (S := ∅) (fun _ hy => hy.elim)).prev_head rfl
  have hinsert := p.insert l [] (by rwa [append_nil]) hx hne
  rw [append_nil] at hinsert
  rw [hprev]
  exact hinsert

/-- A node is unlinked from a ring with other nodes. -/
theorem remove (hl : ((x :: l : List N) : Cycle N) ∈ R) (hne : l ≠ []) :
    Partition (L.remove x) dom
      (R \ {((x :: l : List N) : Cycle N)} ∪ {(l : Cycle N), (([x] : List N) : Cycle N)}) := by
  obtain ⟨b, l, rfl⟩ := exists_cons_of_ne_nil hne
  have hnodup := nodup_cons.mp (p.nodup_list hl)
  have hrings := p.rings hl (S := ∅) (fun _ hy => hy.elim)
  -- the same ring, read from the next node on
  have hrot : ((b :: (l ++ [x]) : List N) : Cycle N) ∈ R := by
    have heq := Cycle.coe_cons_eq_coe_append (b :: l) x
    rw [cons_append] at heq
    rwa [← heq]
  have hrings' := p.rings hrot (S := ∅) (fun _ hy => hy.elim)
  apply p.replace
  · rintro c rfl
    exact hl
  · rintro c (rfl | rfl)
    · refine ⟨by simp, Cycle.nodup_coe_iff.mpr hnodup.2, ?_⟩
      rw [Cycle.chain_coe_cons]
      have hring := hrings'.remove_ring rfl (show l ++ [x] = l ++ x :: [] from rfl)
      rwa [append_nil] at hring
    · refine ⟨by simp, by simp, ?_⟩
      rw [Cycle.chain_singleton]
      exact ⟨by rw [remove_next, if_pos rfl], by rw [remove_prev, if_pos rfl]⟩
  · intro y
    simp only [Set.mem_insert_iff, Set.mem_singleton_iff, exists_eq_or_imp, exists_eq_left,
      Cycle.mem_coe_iff, mem_cons, not_mem_nil, or_false]
    tauto
  · have hcross : ∀ y, y ∈ ((b :: l : List N) : Cycle N) → y ∉ (([x] : List N) : Cycle N) := by
      intro y hy hyx
      rw [Cycle.mem_coe_iff] at hy hyx
      exact hnodup.1 (mem_singleton.mp hyx ▸ hy)
    rintro c (rfl | rfl) c' (rfl | rfl) y hy hy'
    · rfl
    · exact absurd hy' (hcross y hy)
    · exact absurd hy (hcross y hy')
    · rfl
  · intro y hy
    have hring : y ∉ x :: b :: l := fun hmem => hy _ rfl (Cycle.mem_coe_iff.mpr hmem)
    have hnext : L.next x ∈ x :: b :: l := by
      rw [hrings.next_head rfl]
      exact Rings.headD_mem_ring x [] (b :: l)
    have hprev : L.prev x ∈ x :: b :: l := by
      rw [hrings.prev_head rfl]
      have hmem := Rings.getLastD_mem_ring x (b :: l) []
      rwa [append_nil] at hmem
    have hyx : y ≠ x := (ne_of_mem_of_not_mem mem_cons_self hring).symm
    exact ⟨by rw [remove_next, if_neg hyx, if_neg (ne_of_mem_of_not_mem hprev hring).symm],
      by rw [remove_prev, if_neg hyx, if_neg (ne_of_mem_of_not_mem hnext hring).symm]⟩

/-- Unlinking a self-linked node changes nothing. -/
theorem remove_singleton (hx : (([x] : List N) : Cycle N) ∈ R) : L.remove x = L := by
  have hrings : Rings L {x} ∅ fun _ => [] :=
    { heads_dom := Set.empty_subset _
      mem_dom := fun h => h.elim
      head_notMem := fun h => h.elim
      nodup := fun h => h.elim
      disjoint := fun h => h.elim
      ring := fun h => h.elim
      free := by
        rintro _ rfl - -
        exact p.self_linked hx }
  exact hrings.remove_free ⟨rfl, fun h => h.elim, fun _ h => h.elim⟩

end Partition

end Links
