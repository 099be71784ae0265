import Mathlib.Order.Interval.Finset.Nat
import SKernel.ForStd.Simulation
import SKernel.Spec.PageList

/-!
# The page allocator

Pages are allocated and freed, and everybody may write to memory outside the free pages. In
every state reached from `sk_page_init` the list of free pages is the increasing list of the
maximal runs of the set of free pages. `free` is this set: it loses the pages that
`sk_page_alloc` returns, and gains the pages that `sk_page_free` is called with.
-/

namespace SKernel.Spec

open Native ByteMem Runs Function List
open Option hiding or_assoc

/-! ## The system -/

/-- The heap, the area that the page allocator manages, and the set of free pages. -/
structure PageSys where
  heap : Heap
  base : Nat
  npages : Nat
  free : Finset Nat

/-- The events: the two calls, and a write to memory. Pages are freed by page number. -/
inductive PageOp where
  | alloc (npages fuel : Nat)
  | free (i numPages fuel : Nat)
  | write (addr : Nat) (v : UInt8)

namespace PageSys

/-- The pages `i, …, i + n - 1` have been allocated and not been freed since. -/
def Allocated (x : PageSys) (i n : Nat) : Prop :=
  0 < n ∧ i + n ≤ x.npages ∧ ∀ j ∈ Finset.Ico i (i + n), j ∉ x.free

instance (x : PageSys) (i n : Nat) : Decidable (x.Allocated i n) :=
  inferInstanceAs (Decidable (_ ∧ _))

/-- The number of the page at an address. -/
def pageAt (x : PageSys) (addr : Nat) : Nat := (addr - x.base) / pageSize

/-- The state after an event. -/
def step (x : PageSys) : PageOp → Option PageSys
  | .alloc n fuel => (skPageAlloc fuel x.heap n).map fun r =>
    { x with
      heap := r.2
      free := if r.1 = 0 then x.free
        else x.free \ Finset.Ico (x.pageAt r.1) (x.pageAt r.1 + n) }
  | .free i n fuel =>
    if x.Allocated i n then
      (skPageFree fuel x.heap (pageAddr x.base i) n).map fun h =>
        { x with
          heap := h
          free := x.free ∪ Finset.Ico i (i + n) }
    else none
  | .write addr v =>
    if addr < x.base ∨ x.pageAt addr ∉ x.free then
      some { x with heap := { x.heap with mem := update x.heap.mem addr v } }
    else none

end PageSys

/-- The system: at first `sk_page_init` has been called on an area with at least one page. -/
def pageSystem : TransitionSystem PageSys PageOp where
  init x := PageArea x.base x.npages ∧ 0 < x.npages ∧
    (∃ h, x.heap = skPageInit h x.base x.npages) ∧ x.free = Finset.range x.npages
  step := PageSys.step

/-- Free several ranges of pages, one after the other. -/
def freeAll (fuel base : Nat) : Heap → List (Nat × Nat) → Option Heap
  | h, [] => some h
  | h, r :: rs => (skPageFree fuel h (pageAddr base r.1) r.2).bind (freeAll fuel base · rs)

/-- The ranges can be freed: each has been allocated, and they do not overlap. -/
def PageSys.AllAllocated (x : PageSys) (rs : List (Nat × Nat)) : Prop :=
  (∀ r ∈ rs, x.Allocated r.1 r.2) ∧
    rs.Pairwise fun r s => r.1 + r.2 ≤ s.1 ∨ s.1 + s.2 ≤ r.1

/-- The law of the page allocator with the free runs `l`. What is said to return does so with any
    fuel above the number of pages. -/
structure PageLaw (x : PageSys) (l : List (Nat × Nat)) : Prop where
  /-- `l` is the increasing list of the maximal runs of the free pages -/
  runs : IsRuns ↑x.free l
  /-- `sys_page_list` is this list -/
  list : PageChain x.base x.heap x.heap.sysPageList l
  /-- `sk_page_alloc` succeeds exactly when some run has enough pages, and then takes free pages
      in a row and returns the first; freeing them again restores the list -/
  alloc : ∀ n, 0 < n → ∃ r h', (∀ fuel, x.npages < fuel →
      skPageAlloc fuel x.heap n = some (r, h')) ∧
    (r ≠ 0 ↔ ∃ s ∈ l, n ≤ s.2) ∧ (r = 0 → h' = x.heap) ∧
    (r ≠ 0 → ∃ i, r = pageAddr x.base i ∧ Finset.Ico i (i + n) ⊆ x.free ∧
      (∃ l', IsRuns ↑(x.free \ Finset.Ico i (i + n)) l' ∧ PageChain x.base h' h'.sysPageList l') ∧
      ∃ h'', (∀ fuel, x.npages < fuel → skPageFree fuel h' r n = some h'') ∧
        PageChain x.base h'' h''.sysPageList l)
  /-- `sk_page_free` adds exactly its pages -/
  free : ∀ i n, x.Allocated i n → ∃ h', (∀ fuel, x.npages < fuel →
      skPageFree fuel x.heap (pageAddr x.base i) n = some h') ∧
    ∃ l', IsRuns ↑(x.free ∪ Finset.Ico i (i + n)) l' ∧ PageChain x.base h' h'.sysPageList l'
  /-- the order in which ranges are freed does not matter -/
  order : ∀ rs rs', rs.Perm rs' → x.AllAllocated rs → ∃ h1 h2 l', (∀ fuel, x.npages < fuel →
      freeAll fuel x.base x.heap rs = some h1 ∧ freeAll fuel x.base x.heap rs' = some h2) ∧
    PageChain x.base h1 h1.sysPageList l' ∧ PageChain x.base h2 h2.sysPageList l'

/-! ## The invariant -/

/-- The invariant of the runs. -/
structure PageInv (x : PageSys) : Prop where
  area : PageArea x.base x.npages
  list : PageList x.base x.npages ↑x.free x.heap

variable {x x' : PageSys} {i n : Nat}

private theorem pageAt_pageAddr (x : PageSys) (i : Nat) : x.pageAt (pageAddr x.base i) = i := by
  unfold PageSys.pageAt pageAddr pageSize
  omega

private theorem coe_sdiff_Ico (s : Finset Nat) (i n : Nat) :
    (↑(s \ Finset.Ico i (i + n)) : Set Nat) = ↑s \ Set.Ico i (i + n) := by
  rw [Finset.coe_sdiff, Finset.coe_Ico]

private theorem coe_union_Ico (s : Finset Nat) (i n : Nat) :
    (↑(s ∪ Finset.Ico i (i + n)) : Set Nat) = ↑s ∪ Set.Ico i (i + n) := by
  rw [Finset.coe_union, Finset.coe_Ico]

theorem PageSys.Allocated.notMem (h : x.Allocated i n) (j : Nat) (hij : i ≤ j) (hjn : j < i + n) :
    j ∉ (↑x.free : Set Nat) :=
  h.2.2 j (Finset.mem_Ico.mpr ⟨hij, hjn⟩)

namespace PageInv

theorem init (h : pageSystem.init x) : PageInv x := by
  obtain ⟨area, hpos, ⟨h0, hheap⟩, hfree⟩ := h
  refine ⟨area, ?_⟩
  rw [hheap, hfree, Finset.coe_range]
  exact PageList.init area hpos h0

theorem alloc (h : PageInv x) {fuel : Nat} {r : Nat × Heap}
    (hrun : skPageAlloc fuel x.heap n = some r) :
    PageInv { x with
      heap := r.2
      free := if r.1 = 0 then x.free
        else x.free \ Finset.Ico (x.pageAt r.1) (x.pageAt r.1 + n) } := by
  by_cases hn : n = 0
  · unfold skPageAlloc at hrun
    rw [if_pos hn] at hrun
    cases hrun
    exact h
  · have halloc := h.list.alloc h.area (Nat.pos_of_ne_zero hn)
    rcases halloc with ⟨hnull, -⟩ | ⟨a, h', hsome, -, hlist, -⟩
    · cases skPageAlloc_unique hrun (hnull _ (Nat.lt_succ_self _))
      exact h
    · cases skPageAlloc_unique hrun (hsome _ (Nat.lt_succ_self _))
      refine ⟨h.area, ?_⟩
      dsimp only
      rw [if_neg (pageAddr_ne_zero h.area a), pageAt_pageAddr, coe_sdiff_Ico]
      exact hlist

theorem free (h : PageInv x) (ha : x.Allocated i n) :
    ∃ h', (∀ fuel, x.npages < fuel →
      skPageFree fuel x.heap (pageAddr x.base i) n = some h') ∧
    PageInv { x with
      heap := h'
      free := x.free ∪ Finset.Ico i (i + n) } := by
  obtain ⟨h', hrun, hlist, -⟩ := h.list.free h.area ha.1 ha.2.1 ha.notMem
  refine ⟨h', hrun, h.area, ?_⟩
  dsimp only
  rw [coe_union_Ico]
  exact hlist

theorem write (h : PageInv x) {addr : Nat} {v : UInt8}
    (hout : addr < x.base ∨ x.pageAt addr ∉ x.free) :
    PageInv { x with heap := { x.heap with mem := update x.heap.mem addr v } } := by
  refine ⟨h.area, h.list.congr ?_ rfl⟩
  intro i hi y hy hy'
  refine update_of_ne ?_ ..
  intro heq
  subst heq
  -- the address would be in the free page `i`
  have hpage : x.pageAt y = i := by
    unfold PageSys.pageAt
    unfold pageAddr pageSize at *
    omega
  cases hout with
  | inl hlt =>
    unfold pageAddr at hy
    omega
  | inr hnot =>
    rw [hpage] at hnot
    exact hnot hi

/-- Every event keeps the invariant. -/
theorem step (h : PageInv x) {op : PageOp} (hstep : x.step op = some x') : PageInv x' := by
  cases op with
  | alloc n fuel =>
    obtain ⟨r, hrun, rfl⟩ := map_eq_some_iff.mp hstep
    exact h.alloc hrun
  | free =>
    obtain ⟨ha, hstep⟩ := ite_none_right_eq_some.mp hstep
    obtain ⟨h1, hrun, rfl⟩ := map_eq_some_iff.mp hstep
    obtain ⟨h2, hall, hinv⟩ := h.free ha
    cases skPageFree_unique hrun (hall _ (Nat.lt_succ_self _))
    exact hinv
  | write addr v =>
    obtain ⟨hout, hstep⟩ := ite_none_right_eq_some.mp hstep
    cases hstep
    exact h.write hout

end PageInv

/-! ## The law -/

private theorem PageInv.freeAll {rs : List (Nat × Nat)} (h : PageInv x) (hrs : x.AllAllocated rs) :
    ∃ h', (∀ fuel, x.npages < fuel → Spec.freeAll fuel x.base x.heap rs = some h') ∧
      PageList x.base x.npages
        (↑x.free ∪ {j | ∃ r ∈ rs, r.1 ≤ j ∧ j < r.1 + r.2}) h' := by
  induction rs generalizing x with
  | nil =>
    refine ⟨x.heap, fun _ _ => rfl, ?_⟩
    simpa using h.list
  | cons r rs ih =>
    obtain ⟨hall, hapart⟩ := hrs
    obtain ⟨hr, hrest⟩ := pairwise_cons.mp hapart
    obtain ⟨h1, hrun1, hinv1⟩ := h.free (hall r mem_cons_self)
    -- the other ranges are still allocated
    have hrs1 : PageSys.AllAllocated
        { x with heap := h1, free := x.free ∪ Finset.Ico r.1 (r.1 + r.2) } rs := by
      refine ⟨?_, hrest⟩
      intro s hs
      obtain ⟨hpos, hle, hnot⟩ := hall s (mem_cons_of_mem r hs)
      refine ⟨hpos, hle, ?_⟩
      intro j hj hin
      cases Finset.mem_union.mp hin with
      | inl hin => exact hnot j hj hin
      | inr hin =>
        have h2 := hr s hs
        rw [Finset.mem_Ico] at hj hin
        omega
    obtain ⟨h2, hrun2, hlist⟩ := ih hinv1 hrs1
    refine ⟨h2, ?_, ?_⟩
    · intro fuel hfuel
      simp only [Spec.freeAll, hrun1 fuel hfuel, bind_some]
      exact hrun2 fuel hfuel
    · convert hlist using 1
      ext j
      simp only [coe_union_Ico, Set.mem_union, Set.mem_ofPred_eq, Set.mem_Ico, mem_cons,
        exists_eq_or_imp, or_assoc]

/-- The law holds wherever the invariant does. -/
theorem PageInv.law (h : PageInv x) : ∃ l, PageLaw x l := by
  obtain ⟨hF, l, hruns, hch⟩ := h.list
  have hlist := h.list
  refine ⟨l, hruns, hch, ?_, ?_, ?_⟩
  · intro n hn
    rcases hlist.alloc h.area hn with ⟨hnull, hnone⟩ | ⟨a, h', hsome, hin, hlist', -⟩
    · refine ⟨0, x.heap, hnull, ?_, fun _ => rfl, fun hne => absurd rfl hne⟩
      rw [hruns.exists_run_iff hn]
      exact ⟨fun hne => absurd rfl hne, fun hex => absurd hex hnone⟩
    · have hne := pageAddr_ne_zero h.area a
      refine ⟨_, h', hsome, ?_, fun heq => absurd heq hne, fun _ => ⟨a, rfl, ?_, ?_, ?_⟩⟩
      · rw [hruns.exists_run_iff hn]
        exact ⟨fun _ => ⟨a, hin⟩, fun _ => hne⟩
      · intro j hj
        rw [Finset.mem_Ico] at hj
        exact hin j hj.1 hj.2
      · rw [coe_sdiff_Ico]
        exact hlist'.2
      · -- freeing the pages again gives back the same set, so the same list
        have hlast : a + n ≤ x.npages := by
          have := hF (a + n - 1) (hin _ (by omega) (by omega))
          omega
        obtain ⟨h'', hrun, ⟨-, l'', hruns'', hch''⟩, -⟩ := hlist'.free h.area hn hlast
          fun j hj hjn hmem => hmem.2 ⟨hj, hjn⟩
        refine ⟨h'', hrun, ?_⟩
        have hset : (↑x.free \ Set.Ico a (a + n)) ∪ Set.Ico a (a + n) = (↑x.free : Set Nat) := by
          ext j
          simp only [Set.mem_union, Set.mem_sdiff, Set.mem_Ico]
          constructor
          · rintro (hj | hj)
            · exact hj.1
            · exact hin j hj.1 hj.2
          · intro hj
            by_cases hmem : a ≤ j ∧ j < a + n
            · exact .inr hmem
            · exact .inl ⟨hj, hmem⟩
        rw [hset] at hruns''
        rw [hruns.unique hruns'']
        exact hch''
  · intro i n ha
    obtain ⟨h', hrun, hinv⟩ := h.free ha
    exact ⟨h', hrun, hinv.list.2⟩
  · intro rs rs' hperm hrs
    have hrs' : x.AllAllocated rs' :=
      ⟨fun r hr => hrs.1 r (hperm.mem_iff.mpr hr),
        (hperm.pairwise_iff fun hab => hab.symm).mp hrs.2⟩
    obtain ⟨h1, hrun1, -, l1, hruns1, hch1⟩ := h.freeAll hrs
    obtain ⟨h2, hrun2, -, l2, hruns2, hch2⟩ := h.freeAll hrs'
    -- the two sets of free pages are the same
    have hset : {j | ∃ r ∈ rs', r.1 ≤ j ∧ j < r.1 + r.2} =
        {j | ∃ r ∈ rs, r.1 ≤ j ∧ j < r.1 + r.2} := by
      ext j
      simp only [Set.mem_ofPred_eq, hperm.mem_iff]
    rw [hset] at hruns2
    refine ⟨h1, h2, l1, fun fuel hfuel => ⟨hrun1 fuel hfuel, hrun2 fuel hfuel⟩, hch1, ?_⟩
    rw [hruns1.unique hruns2]
    exact hch2

/-- **The page allocator is canonical.** In every state reached from `sk_page_init` by calls of
    `sk_page_alloc` and of `sk_page_free` on allocated pages, the list of free pages is the
    increasing list of the maximal runs of the free pages, and both calls change the set of free
    pages as they should. -/
theorem page_allocator_canonical {x : PageSys}
    (h : pageSystem.Reach (fun _ _ => True) x) : ∃ l, PageLaw x l :=
  (h.invariant (fun _ => PageInv.init) fun _ _ _ hinv _ => hinv.step).law

/-- Four pages: two allocations, and the first one is freed. -/
theorem page_allocator_canonical_four :
    ∃ x, pageSystem.Reach (fun _ _ => True) x ∧ x.free = {0, 3} ∧ ∃ l, PageLaw x l := by
  let h0 : Heap := ⟨fun _ => 0, 0, 0, 0, 0, fun _ => 0, 0, 0, 0, 0, 0⟩
  have hinit : pageSystem.init ⟨skPageInit h0 4096 4, 4096, 4, Finset.range 4⟩ :=
    ⟨⟨by decide, by decide⟩, by decide, ⟨h0, rfl⟩, rfl⟩
  obtain ⟨x, hx, hp⟩ := TransitionSystem.Reach.exists_of_run
    (.init hinit : pageSystem.Reach (fun _ _ => True) _)
    [.alloc 1 2, .alloc 2 2, .write 5000 7, .free 0 1 2] (fun x => x.free = {0, 3})
    (by decide +kernel)
  exact ⟨x, hx, of_decide_eq_true hp, page_allocator_canonical hx⟩

end SKernel.Spec
