import SKernel.ForStd.Chain
import SKernel.ForStd.Runs
import SKernel.Native.Slab

/-!
# The list of free pages

The pages of an area are numbered from its base on. `PageChain base h p l` says that the page
heads from the address `p` on form the list `l` of runs, pairs of a page number and a number of
pages. On such a list `sk_page_alloc` and `sk_page_free` do what `Runs.take` and `Runs.give` do,
and they write to page heads of the list, before or after the call, only.

## Key results

- `PageList.alloc`, `PageList.free`: the calls act on the set of free pages
-/

namespace SKernel.Spec

open Native ByteMem Runs Chain Option
open List hiding take

/-! ## Pages of an area -/

/-- The address of page `i`. -/
def pageAddr (base i : Nat) : Nat := base + i * pageSize

/-- `N` pages from the address `base` on, which is not NULL. -/
structure PageArea (base N : Nat) : Prop where
  ne_zero : base ≠ 0
  lt : base + N * pageSize < 2 ^ 64

section

variable {base N b w : Nat} {i j k v : Nat} {h : Heap}

theorem pageAddr_ne_zero (area : PageArea base N) (i : Nat) : pageAddr base i ≠ 0 := by
  have := area.ne_zero
  unfold pageAddr
  omega

theorem pageAddr_lt (area : PageArea base N) (hi : i ≤ N) : pageAddr base i < 2 ^ 64 := by
  have hlt := area.lt
  have hle := Nat.mul_le_mul_right pageSize hi
  unfold pageAddr
  omega

theorem pageAddr_inj : pageAddr base i = pageAddr base j ↔ i = j := by
  unfold pageAddr pageSize
  omega

private theorem pageAddr_lt_iff : pageAddr base i < pageAddr base j ↔ i < j := by
  unfold pageAddr pageSize
  omega

theorem pageAddr_apart (base : Nat) (h : i ≠ j) :
    pageAddr base i + pageSize ≤ pageAddr base j ∨
      pageAddr base j + pageSize ≤ pageAddr base i := by
  unfold pageAddr pageSize
  omega

private theorem pageAdd_pageAddr (area : PageArea base N) (hk : i + k ≤ N) :
    pageAdd (pageAddr base i) k = pageAddr base (i + k) := by
  have hlt := pageAddr_lt area hk
  unfold pageAdd
  rw [show pageAddr base i + k * pageSize = pageAddr base (i + k) by
    unfold pageAddr
    rw [Nat.add_mul]
    omega]
  exact Nat.mod_eq_of_lt hlt

/-! ## Fields of page heads -/

theorem get64_set64_self (h : Heap) (a : Nat) (hv : v < 2 ^ 64) : (h.set64 a v).get64 a = v :=
  load_store_self (by simpa using hv)

private theorem get64_set64_of_disjoint (h : Heap) {a : Nat} (hab : a + 8 ≤ b ∨ b + 8 ≤ a) :
    (h.set64 b v).get64 a = h.get64 a :=
  load_store_of_disjoint hab

private theorem pageNext_setPageNext (hv : v < 2 ^ 64) :
    (h.setPageNext (pageAddr base i) v).pageNext (pageAddr base j) =
      if j = i then v else h.pageNext (pageAddr base j) := by
  split
  · rename_i heq
    rw [heq]
    exact get64_set64_self h _ hv
  · rename_i hne
    have := pageAddr_apart base hne
    unfold pageSize at this
    exact get64_set64_of_disjoint h (by omega)

private theorem pageCount_setPageCount (hv : v < 2 ^ 64) :
    (h.setPageCount (pageAddr base i) v).pageCount (pageAddr base j) =
      if j = i then v else h.pageCount (pageAddr base j) := by
  split
  · rename_i heq
    rw [heq]
    exact get64_set64_self h _ hv
  · rename_i hne
    have := pageAddr_apart base hne
    unfold pageSize at this
    exact get64_set64_of_disjoint h (by omega)

theorem field_apart : pageAddr base i + 8 ≤ pageAddr base j + 8 ∨
    pageAddr base j + 8 + 8 ≤ pageAddr base i := by
  by_cases hij : i = j
  · rw [hij]
    omega
  · have := pageAddr_apart base hij
    unfold pageSize at this
    omega

private theorem pageNext_setPageCount :
    (h.setPageCount (pageAddr base i) v).pageNext (pageAddr base j) =
      h.pageNext (pageAddr base j) :=
  get64_set64_of_disjoint h field_apart

private theorem pageCount_setPageNext :
    (h.setPageNext (pageAddr base i) v).pageCount (pageAddr base j) =
      h.pageCount (pageAddr base j) :=
  get64_set64_of_disjoint h (Or.symm field_apart)

private theorem pageNext_lt (h : Heap) (b : Nat) : h.pageNext b < 2 ^ 64 := by
  show load h.mem 8 b < 2 ^ 64
  simpa using load_lt h.mem 8 b

/-! ## Cells -/

/-- The cell that points to the rest of the list: the list itself, or `next` of page `c`. -/
def cellAt (base : Nat) : Option Nat → PageCell
  | none => .list
  | some c => .next (pageAddr base c)

variable {c : Option Nat}

private theorem cell_get_set (hv : v < 2 ^ 64) :
    (cellAt base c).get ((cellAt base c).set h v) = v := by
  cases c with
  | none => rfl
  | some c => exact get64_set64_self h _ hv

private theorem pageCount_cell_set :
    ((cellAt base c).set h v).pageCount (pageAddr base j) = h.pageCount (pageAddr base j) := by
  cases c with
  | none => rfl
  | some c => exact pageCount_setPageNext

private theorem pageNext_cell_set (hv : v < 2 ^ 64) (hj : c ≠ some j) :
    ((cellAt base c).set h v).pageNext (pageAddr base j) = h.pageNext (pageAddr base j) := by
  cases c with
  | none => rfl
  | some c =>
    have hjc : j ≠ c := by
      intro heq
      exact hj (by rw [heq])
    show (h.setPageNext (pageAddr base c) v).pageNext (pageAddr base j) = _
    rw [pageNext_setPageNext hv, if_neg hjc]

/-! ## Frames -/

/-- `h'` differs from `h` in the heads of the pages `heads`, and in `sys_page_list`, only. -/
structure PageFrame (base : Nat) (heads : Nat → Prop) (h h' : Heap) : Prop where
  mem : ∀ x, (∀ i, heads i → x < pageAddr base i ∨ pageAddr base i + 16 ≤ x) →
    h'.mem x = h.mem x
  rest : h' = { h with mem := h'.mem, sysPageList := h'.sysPageList }

variable {heads : Nat → Prop} {h1 h2 h3 : Heap}

theorem PageFrame.refl (base : Nat) (heads : Nat → Prop) (h : Heap) : PageFrame base heads h h :=
  ⟨fun _ _ => rfl, rfl⟩

section

variable (h12 : PageFrame base heads h1 h2)
include h12

theorem PageFrame.trans (h23 : PageFrame base heads h2 h3) : PageFrame base heads h1 h3 := by
  refine ⟨fun x hx => (h23.mem x hx).trans (h12.mem x hx), ?_⟩
  rw [h23.rest, h12.rest]

theorem PageFrame.mono {heads' : Nat → Prop} (hsub : ∀ i, heads i → heads' i) :
    PageFrame base heads' h1 h2 :=
  ⟨fun x hx => h12.mem x fun i hi => hx i (hsub i hi), h12.rest⟩

theorem PageFrame.setPageNext (hi : heads i) :
    PageFrame base heads h1 (h2.setPageNext (pageAddr base i) v) := by
  refine h12.trans ⟨?_, rfl⟩
  intro x hx
  have := hx i hi
  exact store_outside (by omega)

theorem PageFrame.setPageCount (hi : heads i) :
    PageFrame base heads h1 (h2.setPageCount (pageAddr base i) v) := by
  refine h12.trans ⟨?_, rfl⟩
  intro x hx
  have := hx i hi
  exact store_outside (by omega)

private theorem PageFrame.cell_set (hc : ∀ i, c = some i → heads i) :
    PageFrame base heads h1 ((cellAt base c).set h2 v) := by
  cases c with
  | none => exact h12.trans ⟨fun _ _ => rfl, rfl⟩
  | some c => exact h12.setPageNext (hc c rfl)

/-- The other page heads keep their fields. -/
theorem PageFrame.pageNext (hj : ¬heads j) :
    h2.pageNext (pageAddr base j) = h1.pageNext (pageAddr base j) := by
  refine load_congr fun x hx hx8 => h12.mem x fun i hi => ?_
  have := pageAddr_apart base (show i ≠ j from fun heq => hj (heq ▸ hi))
  unfold pageSize at this
  omega

theorem PageFrame.pageCount (hj : ¬heads j) :
    h2.pageCount (pageAddr base j) = h1.pageCount (pageAddr base j) := by
  refine load_congr fun x hx hx8 => h12.mem x fun i hi => ?_
  have := pageAddr_apart base (show i ≠ j from fun heq => hj (heq ▸ hi))
  unfold pageSize at this
  omega

end

/-! ## The list -/

/-- The page heads from the address `p` on form the list of runs. -/
def PageChain (base : Nat) (h : Heap) : Nat → List (Nat × Nat) → Prop
  | p, [] => p = 0
  | p, (i, k) :: l => p = pageAddr base i ∧ h.pageCount p = k ∧ PageChain base h (h.pageNext p) l

variable {p : Nat} {l : List (Nat × Nat)}

private theorem pageChain_cons : PageChain base h p ((i, k) :: l) ↔
    p = pageAddr base i ∧ h.pageCount (pageAddr base i) = k ∧
      PageChain base h (h.pageNext (pageAddr base i)) l := by
  constructor
  · intro hch
    obtain ⟨hp, hk, hl⟩ := hch
    subst hp
    exact ⟨rfl, hk, hl⟩
  · intro hch
    obtain ⟨hp, hk, hl⟩ := hch
    subst hp
    exact ⟨rfl, hk, hl⟩

variable {h' : Heap}

theorem PageChain.congr (hch : PageChain base h p l)
    (hnext : ∀ r ∈ l, h'.pageNext (pageAddr base r.1) = h.pageNext (pageAddr base r.1))
    (hcount : ∀ r ∈ l, h'.pageCount (pageAddr base r.1) = h.pageCount (pageAddr base r.1)) :
    PageChain base h' p l := by
  induction l generalizing p with
  | nil => exact hch
  | cons r l ih =>
    obtain ⟨i, k⟩ := r
    obtain ⟨hp, hk, hl⟩ := pageChain_cons.mp hch
    refine pageChain_cons.mpr ⟨hp, ?_, ?_⟩
    · rw [hcount (i, k) mem_cons_self, hk]
    · rw [hnext (i, k) mem_cons_self]
      exact ih hl (fun r hr => hnext r (mem_cons_of_mem _ hr))
        fun r hr => hcount r (mem_cons_of_mem _ hr)

/-- The page heads on the list. -/
theorem PageChain.linked (area : PageArea base N) (hch : PageChain base h p l) :
    Chain.Linked h.pageNext p (l.map fun r => pageAddr base r.1) := by
  induction l generalizing p with
  | nil => exact hch
  | cons r l ih =>
    obtain ⟨i, k⟩ := r
    obtain ⟨hp, -, hl⟩ := pageChain_cons.mp hch
    exact ⟨hp, pageAddr_ne_zero area i, ih hl⟩

variable {r : Nat × Nat}

theorem PageChain.count (hch : PageChain base h p l) (hr : r ∈ l) :
    h.pageCount (pageAddr base r.1) = r.2 := by
  induction l generalizing p with
  | nil => cases hr
  | cons s l ih =>
    obtain ⟨i, k⟩ := s
    obtain ⟨-, hk, hl⟩ := pageChain_cons.mp hch
    cases mem_cons.mp hr with
    | inl heq =>
      subst heq
      exact hk
    | inr hr => exact ih hl hr

/-! ## Writing a page head -/

/-- `h1` is `h` with the count `v` and the link `w` in the head of page `a`. -/
structure HeadSet (base a v w : Nat) (h h1 : Heap) : Prop where
  frame : PageFrame base (· = a) h h1
  list : h1.sysPageList = h.sysPageList
  count : h1.pageCount (pageAddr base a) = v
  next : h1.pageNext (pageAddr base a) = w

namespace HeadSet

variable {a u w : Nat}

theorem refl (base a : Nat) (h : Heap) :
    HeadSet base a (h.pageCount (pageAddr base a)) (h.pageNext (pageAddr base a)) h h :=
  ⟨.refl base _ h, rfl, rfl, rfl⟩

theorem setPageCount (hset : HeadSet base a u w h h1) (hv : v < 2 ^ 64) :
    HeadSet base a v w h (h1.setPageCount (pageAddr base a) v) :=
  ⟨hset.frame.setPageCount rfl, hset.list, by rw [pageCount_setPageCount hv, if_pos rfl],
    pageNext_setPageCount.trans hset.next⟩

theorem setPageNext (hset : HeadSet base a v u h h1) (hw : w < 2 ^ 64) :
    HeadSet base a v w h (h1.setPageNext (pageAddr base a) w) :=
  ⟨hset.frame.setPageNext rfl, hset.list, pageCount_setPageNext.trans hset.count,
    by rw [pageNext_setPageNext hw, if_pos rfl]⟩

private theorem cell_get (hset : HeadSet base a v w h h1) (hca : c ≠ some a) :
    (cellAt base c).get h1 = (cellAt base c).get h := by
  cases c with
  | none => exact hset.list
  | some i =>
    apply hset.frame.pageNext
    intro heq
    exact hca (by rw [heq])

theorem chain (hset : HeadSet base a v w h h1) (hl : PageChain base h w l)
    (hne : ∀ r ∈ l, r.1 ≠ a) : PageChain base h1 (pageAddr base a) ((a, v) :: l) := by
  refine pageChain_cons.mpr ⟨rfl, hset.count, ?_⟩
  rw [hset.next]
  exact hl.congr (fun r hr => hset.frame.pageNext (hne r hr))
    fun r hr => hset.frame.pageCount (hne r hr)

end HeadSet

/-! ## Freeing pages -/

variable {a n : Nat}

/-- The runs of a list that is to take up the pages `a, …, a + n - 1`. -/
structure Room (N a n : Nat) (l : List (Nat × Nat)) : Prop where
  inside : ∀ r ∈ l, 0 < r.2 ∧ r.1 + r.2 ≤ N
  sorted : l.Pairwise fun r s => r.1 + r.2 < s.1
  apart : ∀ r ∈ l, r.1 + r.2 ≤ a ∨ a + n ≤ r.1

theorem Room.tail (hroom : Room N a n (r :: l)) : Room N a n l :=
  ⟨fun s hs => hroom.inside s (mem_cons_of_mem r hs), (pairwise_cons.mp hroom.sorted).2,
    fun s hs => hroom.apart s (mem_cons_of_mem r hs)⟩

/-- A call on the list behind the cell `c` puts `l'` there, and changes the cell and the page heads
    of `l'` only. -/
structure ChainStep (base : Nat) (c : Option Nat) (l' : List (Nat × Nat)) (h h' : Heap) :
    Prop where
  chain : PageChain base h' ((cellAt base c).get h') l'
  frame : PageFrame base (fun i => c = some i ∨ ∃ r ∈ l', i = r.1) h h'
  cell : ∀ i, c = some i → h'.pageCount (pageAddr base i) = h.pageCount (pageAddr base i) ∧
    h'.sysPageList = h.sysPageList

private theorem lt_of_area (area : PageArea base N) : N < 2 ^ 64 := by
  have := area.lt
  unfold pageSize at this
  omega

variable {l' : List (Nat × Nat)}

theorem ChainStep.behind (hstep : ChainStep base (some b) l' h h')
    (hp : (cellAt base c).get h = pageAddr base b) (hk : h.pageCount (pageAddr base b) = k)
    (hc : ∀ i, c = some i → i ≠ b ∧ ∀ r ∈ l', i ≠ r.1) :
    ChainStep base c ((b, k) :: l') h h' := by
  obtain ⟨hcount, hlist⟩ := hstep.cell b rfl
  have hout : ∀ i, c = some i → ¬(some b = some i ∨ ∃ r ∈ l', i = r.1) := by
    intro i hi hin
    obtain ⟨hb, hr⟩ := hc i hi
    rcases hin with heq | ⟨r, hrl, heq⟩
    · exact hb (some.inj heq).symm
    · exact hr r hrl heq
  have hget : (cellAt base c).get h' = (cellAt base c).get h := by
    cases c with
    | none => exact hlist
    | some i => exact hstep.frame.pageNext (hout i rfl)
  refine ⟨pageChain_cons.mpr ⟨hget.trans hp, hcount.trans hk, hstep.chain⟩, ?_, ?_⟩
  · refine hstep.frame.mono ?_
    intro i hi
    rcases hi with heq | ⟨r, hr, heq⟩
    · exact .inr ⟨(b, k), mem_cons_self, (some.inj heq).symm⟩
    · exact .inr ⟨r, mem_cons_of_mem _ hr, heq⟩
  · intro i hi
    exact ⟨hstep.frame.pageCount (hout i hi), hlist⟩

private theorem HeadSet.chainStep_first (hset : HeadSet base a v w h h1)
    (hp : (cellAt base c).get h = pageAddr base a) (hca : c ≠ some a) (hl : PageChain base h w l)
    (hne : ∀ r ∈ l, r.1 ≠ a) :
    ChainStep base c ((a, v) :: l) h h1 := by
  refine ⟨?_, ?_, ?_⟩
  · rw [hset.cell_get hca, hp]
    exact hset.chain hl hne
  · refine hset.frame.mono ?_
    intro i hi
    exact .inr ⟨_, mem_cons_self, hi⟩
  · intro i hi
    refine ⟨hset.frame.pageCount ?_, hset.list⟩
    intro heq
    exact hca (by rw [hi, heq])

private theorem HeadSet.chainStep_insert (hset : HeadSet base a v w h h1) (area : PageArea base N)
    (ha : a ≤ N) (hca : c ≠ some a) (hl : PageChain base h w l)
    (hne : ∀ r ∈ l, r.1 ≠ a ∧ c ≠ some r.1) :
    ChainStep base c ((a, v) :: l) h ((cellAt base c).set h1 (pageAddr base a)) := by
  have haddr : pageAddr base a < 2 ^ 64 := pageAddr_lt area ha
  refine ⟨?_, ?_, ?_⟩
  · rw [cell_get_set haddr]
    refine (hset.chain hl fun r hr => (hne r hr).1).congr ?_ fun r _ => pageCount_cell_set
    intro r hr
    apply pageNext_cell_set haddr
    cases mem_cons.mp hr with
    | inl heq =>
      rw [heq]
      exact hca
    | inr hr => exact (hne r hr).2
  · have hframe : PageFrame base (fun i => c = some i ∨ ∃ r ∈ (a, v) :: l, i = r.1) h h1 :=
      hset.frame.mono fun i hi => .inr ⟨_, mem_cons_self, hi⟩
    exact hframe.cell_set fun i hi => .inl hi
  · intro i hi
    have hia : ¬i = a := by
      intro heq
      exact hca (by rw [hi, heq])
    subst hi
    exact ⟨pageCount_cell_set.trans (hset.frame.pageCount hia), hset.list⟩

/-- The first run is taken off the list. -/
theorem chainStep_drop (hl : PageChain base h (h.pageNext (pageAddr base b)) l)
    (hne : ∀ r ∈ l, c ≠ some r.1) :
    ChainStep base c l h ((cellAt base c).set h (h.pageNext (pageAddr base b))) := by
  have hnext := pageNext_lt h (pageAddr base b)
  refine ⟨?_, (PageFrame.refl base _ h).cell_set fun i hi => .inl hi, ?_⟩
  · rw [cell_get_set hnext]
    exact hl.congr (fun r hr => pageNext_cell_set hnext (hne r hr)) fun r _ => pageCount_cell_set
  · intro i hi
    subst hi
    exact ⟨pageCount_cell_set, rfl⟩

/-- The first run ends where the new pages begin. -/
theorem pageFree_behind (area : PageArea base N) (han : b + k + n ≤ N)
    (hch : PageChain base h ((cellAt base c).get h) ((b, k) :: l))
    (hroom : Room N (b + k) n ((b, k) :: l)) (hcb : c ≠ some b) (fuel : Nat) :
    ∃ h', pageFreeLoop (pageAddr base (b + k)) n (fuel + 1) (cellAt base c) h = some h' ∧
      ChainStep base c (give (b + k) n ((b, k) :: l)) h h' := by
  obtain ⟨hp, hk, hl⟩ := pageChain_cons.mp hch
  have hN := lt_of_area area
  have hkn : k + n < 2 ^ 64 := by omega
  have hfirst : ∀ r ∈ l, r.1 ≠ b := by
    intro r hr
    have := (pairwise_cons.mp hroom.sorted).1 r hr
    dsimp only at this
    omega
  have hgrown := (HeadSet.refl base b h).setPageCount hkn
  unfold pageFreeLoop
  dsimp only
  rw [hp, hk, if_pos ⟨pageAddr_ne_zero area b, pageAdd_pageAddr area (by omega)⟩]
  simp only [give, ↓reduceIte, pageNext_setPageCount, pageCount_setPageCount hkn]
  rw [pageAdd_pageAddr area (by omega)]
  cases l with
  | nil =>
    have hnull : h.pageNext (pageAddr base b) = 0 := hl
    rw [hnull, if_neg (pageAddr_ne_zero area _)]
    exact ⟨_, rfl, hgrown.chainStep_first hp hcb hl hfirst⟩
  | cons r rest =>
    obtain ⟨d, j⟩ := r
    obtain ⟨hd, hj, hrest⟩ := pageChain_cons.mp hl
    have hdb : d ≠ b := hfirst (d, j) mem_cons_self
    rw [hd]
    simp only [pageAddr_inj]
    by_cases hmeet : b + (k + n) = d
    · -- the pages reach the next run, which is taken in
      have hkj : k + n + j < 2 ^ 64 := by
        have := hroom.inside (d, j) (mem_cons_of_mem _ mem_cons_self)
        dsimp only at this
        omega
      rw [if_pos hmeet, if_pos hmeet, pageCount_setPageCount hkn, if_neg hdb, hj]
      simp only [pageNext_setPageCount]
      have hjoined := (hgrown.setPageCount hkj).setPageNext (pageNext_lt h (pageAddr base d))
      exact ⟨_, rfl, hjoined.chainStep_first hp hcb hrest fun r hr =>
        hfirst r (mem_cons_of_mem _ hr)⟩
    · rw [if_neg hmeet, if_neg hmeet]
      exact ⟨_, rfl, hgrown.chainStep_first hp hcb hl hfirst⟩

/-- The new pages go to the front, or join the first run. -/
theorem chainStep_insert (area : PageArea base N) (han : a + n ≤ N) (hv : v < 2 ^ 64)
    (hw : w < 2 ^ 64) (hl' : PageChain base h w l') (hca : c ≠ some a)
    (hne : ∀ r ∈ l', r.1 ≠ a ∧ c ≠ some r.1) :
    ChainStep base c ((a, v) :: l') h
      ((cellAt base c).set ((h.setPageCount (pageAddr base a) v).setPageNext (pageAddr base a) w)
        (pageAddr base a)) :=
  (((HeadSet.refl base a h).setPageCount hv).setPageNext hw).chainStep_insert area (by omega) hca
    hl' hne

private theorem pageFreeLoop_chain (area : PageArea base N) (hn : 0 < n) (han : a + n ≤ N) :
    ∀ {l : List (Nat × Nat)} {fuel : Nat} {c : Option Nat} {h : Heap}, l.length < fuel →
      PageChain base h ((cellAt base c).get h) l → Room N a n l →
      (∀ i, c = some i → i < a ∧ ∀ r ∈ l, i < r.1) →
      ∃ h', pageFreeLoop (pageAddr base a) n fuel (cellAt base c) h = some h' ∧
        ChainStep base c (give a n l) h h' := by
  intro l
  have hN := lt_of_area area
  have hadd := pageAdd_pageAddr area han
  induction l with
  | nil =>
    intro fuel c h hfuel hch _ hc
    obtain ⟨fuel, rfl⟩ := Nat.exists_eq_succ_of_ne_zero (Nat.ne_of_gt hfuel)
    have hnull : (cellAt base c).get h = 0 := hch
    have hca : c ≠ some a := fun heq => Nat.lt_irrefl a (hc a heq).1
    refine ⟨_, ?_, chainStep_insert area han (by omega : n < 2 ^ 64) (by omega : 0 < 2 ^ 64) rfl
      hca (by simp)⟩
    unfold pageFreeLoop
    simp [hnull]
  | cons r l ih =>
    intro fuel c h hfuel hch hroom hc
    obtain ⟨b, k⟩ := r
    obtain ⟨fuel, rfl⟩ := Nat.exists_eq_succ_of_ne_zero (Nat.ne_of_gt (Nat.lt_of_le_of_lt
      (Nat.zero_le _) hfuel))
    have hcb : c ≠ some b := fun heq => Nat.lt_irrefl b ((hc b heq).2 (b, k) mem_cons_self)
    have hca : c ≠ some a := fun heq => Nat.lt_irrefl a (hc a heq).1
    by_cases hbehind : b + k = a
    · subst hbehind
      exact pageFree_behind area han hch hroom hcb fuel
    · obtain ⟨hp, hk, hl⟩ := pageChain_cons.mp hch
      have hin := hroom.inside (b, k) mem_cons_self
      have hap := hroom.apart (b, k) mem_cons_self
      have hafter := (pairwise_cons.mp hroom.sorted).1
      dsimp only at hin hap
      -- no page head of the rest is the new one, or the cell
      have hne : ∀ r ∈ l, r.1 ≠ a ∧ c ≠ some r.1 := by
        intro r hr
        have h1 := hroom.inside r (mem_cons_of_mem _ hr)
        have h2 := hroom.apart r (mem_cons_of_mem _ hr)
        refine ⟨by omega, fun heq => ?_⟩
        exact Nat.lt_irrefl _ ((hc r.1 heq).2 r (mem_cons_of_mem _ hr))
      have hb0 := pageAddr_ne_zero area b
      unfold pageFreeLoop give
      dsimp only
      rw [hp, hk, hadd, pageAdd_pageAddr area hin.2]
      simp only [ne_eq, hb0, not_false_eq_true, true_and, pageAddr_inj, gt_iff_lt,
        pageAddr_lt_iff, if_neg hbehind]
      by_cases hbefore : b = a + n
      · -- the pages end where the first run begins
        rw [if_pos hbefore, if_pos hbefore]
        have hcount : (h.setPageCount (pageAddr base a) (k + n)).pageNext (pageAddr base b) =
            h.pageNext (pageAddr base b) := pageNext_setPageCount
        rw [hcount]
        exact ⟨_, rfl, chainStep_insert area han (by omega) (pageNext_lt h _) hl hca hne⟩
      · rw [if_neg hbefore, if_neg hbefore]
        by_cases hbeyond : a + n < b
        · -- the pages come before the first run
          rw [if_neg (not_not.mpr hbeyond), if_pos hbeyond]
          refine ⟨_, rfl, chainStep_insert area han (by omega) (pageAddr_lt area (by omega))
            (pageChain_cons.mpr ⟨rfl, hk, hl⟩) hca ?_⟩
          intro r hr
          cases mem_cons.mp hr with
          | inl heq =>
            rw [heq]
            exact ⟨by dsimp only; omega, hcb⟩
          | inr hr => exact hne r hr
        · -- the loop goes on behind the first run
          rw [if_pos hbeyond, if_neg hbeyond]
          have hfuel' : l.length < fuel := by
            simp only [length_cons] at hfuel
            omega
          obtain ⟨h', hrun, hstep⟩ := ih (c := some b) hfuel' hl hroom.tail (by
            intro i hi
            cases hi
            exact ⟨by omega, fun r hr => by have := hafter r hr; dsimp only at this; omega⟩)
          refine ⟨h', hrun, hstep.behind hp hk ?_⟩
          intro i hi
          obtain ⟨hia, hil⟩ := hc i hi
          refine ⟨fun heq => hcb (by rw [hi, heq]), fun r hr => ?_⟩
          cases first_of_mem_give hr with
          | inl heq => omega
          | inr hex =>
            obtain ⟨s, hs, heq⟩ := hex
            have := hil s (mem_cons_of_mem _ hs)
            omega

/-! ## Allocating pages -/

/-- The first run with enough pages gives them. -/
theorem pageAllocLoop_chain (area : PageArea base N) (hn : 0 < n) :
    ∀ {l : List (Nat × Nat)} {fuel : Nat} {c : Option Nat} {h : Heap}, l.length < fuel →
      PageChain base h ((cellAt base c).get h) l → (∀ r ∈ l, 0 < r.2 ∧ r.1 + r.2 ≤ N) →
      (l.Pairwise fun r s => r.1 + r.2 < s.1) → (∀ i, c = some i → ∀ r ∈ l, i < r.1) →
      match take n l with
      | none => pageAllocLoop n fuel (cellAt base c) h = some (0, h)
      | some (a, l') => ∃ h', pageAllocLoop n fuel (cellAt base c) h =
            some (pageAddr base a, h') ∧
          ChainStep base c l' h h' := by
  intro l
  have hN := lt_of_area area
  induction l with
  | nil =>
    intro fuel c h hfuel hch _ _ _
    obtain ⟨fuel, rfl⟩ := Nat.exists_eq_succ_of_ne_zero (Nat.ne_of_gt hfuel)
    have hnull : (cellAt base c).get h = 0 := hch
    simp only [take]
    unfold pageAllocLoop
    simp [hnull]
  | cons r l ih =>
    intro fuel c h hfuel hch hin hsorted hc
    obtain ⟨b, k⟩ := r
    obtain ⟨fuel, rfl⟩ := Nat.exists_eq_succ_of_ne_zero (Nat.ne_of_gt (Nat.lt_of_le_of_lt
      (Nat.zero_le _) hfuel))
    obtain ⟨hp, hk, hl⟩ := pageChain_cons.mp hch
    obtain ⟨hpos, hle⟩ := hin (b, k) mem_cons_self
    dsimp only at hpos hle
    obtain ⟨hafter, hsorted'⟩ := pairwise_cons.mp hsorted
    have hcb : ∀ i, c = some i → i < b := fun i hi => hc i hi (b, k) mem_cons_self
    have hcl : ∀ r ∈ l, c ≠ some r.1 := fun r hr heq =>
      Nat.lt_irrefl _ (hc _ heq r (mem_cons_of_mem _ hr))
    have hb0 := pageAddr_ne_zero area b
    simp only [take]
    unfold pageAllocLoop
    dsimp only
    rw [hp, hk, if_neg hb0]
    by_cases hmore : k > n
    · -- the run is split, and its rest put in its place
      rw [if_pos hmore, if_pos hmore]
      dsimp only
      refine ⟨_, rfl, ?_⟩
      rw [pageAdd_pageAddr area (by omega), pageCount_setPageNext, hk]
      have hset := ((HeadSet.refl base (b + n) h).setPageNext
        (pageNext_lt h (pageAddr base b))).setPageCount (show k - n < 2 ^ 64 by omega)
      refine hset.chainStep_insert area (by omega) ?_ hl ?_
      · intro heq
        have := hcb _ heq
        omega
      · intro r hr
        have := hafter r hr
        dsimp only at this
        exact ⟨by omega, hcl r hr⟩
    · rw [if_neg hmore, if_neg hmore]
      by_cases hexact : k = n
      · -- the run is taken off the list
        rw [if_pos hexact, if_pos hexact]
        dsimp only
        exact ⟨_, rfl, chainStep_drop hl hcl⟩
      · rw [if_neg hexact, if_neg hexact]
        have hfuel' : l.length < fuel := by
          simp only [length_cons] at hfuel
          omega
        have hrest := ih (c := some b) hfuel' hl (fun r hr => hin r (mem_cons_of_mem _ hr))
          hsorted' (by
            intro i hi r hr
            cases hi
            have := hafter r hr
            dsimp only at this
            omega)
        cases ht : take n l with
        | none =>
          rw [ht] at hrest
          exact hrest
        | some r =>
          obtain ⟨a, l'⟩ := r
          rw [ht] at hrest
          obtain ⟨h', hrun, hstep⟩ := hrest
          refine ⟨h', hrun, hstep.behind hp hk ?_⟩
          intro i hi
          have hib := hcb i hi
          refine ⟨Nat.ne_of_lt hib, fun r hr => ?_⟩
          obtain ⟨s, hs, hsr⟩ := first_le_of_mem_take ht hr
          have := hc i hi s (mem_cons_of_mem _ hs)
          omega

/-! ## Fuel -/

private theorem pageFreeLoop_mono {p : Nat} : ∀ {fuel : Nat} (extra : Nat) {prev : PageCell}
    {h : Heap}, pageFreeLoop p n fuel prev h = some h' →
      pageFreeLoop p n (fuel + extra) prev h = some h' := by
  intro fuel
  induction fuel with
  | zero =>
    intro extra prev h hrun
    cases hrun
  | succ fuel ih =>
    intro extra prev h hrun
    rw [Nat.succ_add]
    unfold pageFreeLoop at hrun ⊢
    dsimp only at hrun ⊢
    split at hrun
    · rename_i hbehind
      rw [if_pos hbehind]
      exact hrun
    · rename_i hbehind
      rw [if_neg hbehind]
      split at hrun
      · rename_i hbefore
        rw [if_pos hbefore]
        exact hrun
      · rename_i hbefore
        rw [if_neg hbefore]
        split at hrun
        · rename_i hgo
          rw [if_pos hgo]
          exact ih extra hrun
        · rename_i hgo
          rw [if_neg hgo]
          exact hrun

private theorem pageAllocLoop_mono {r : Nat × Heap} : ∀ {fuel : Nat} (extra : Nat) {prev : PageCell}
    {h : Heap}, pageAllocLoop n fuel prev h = some r →
      pageAllocLoop n (fuel + extra) prev h = some r := by
  intro fuel
  induction fuel with
  | zero =>
    intro extra prev h hrun
    cases hrun
  | succ fuel ih =>
    intro extra prev h hrun
    rw [Nat.succ_add]
    unfold pageAllocLoop at hrun ⊢
    dsimp only at hrun ⊢
    split at hrun
    · rename_i hend
      rw [if_pos hend]
      exact hrun
    · rename_i hend
      rw [if_neg hend]
      split at hrun
      · rename_i hmore
        rw [if_pos hmore]
        exact hrun
      · rename_i hmore
        rw [if_neg hmore]
        split at hrun
        · rename_i hexact
          rw [if_pos hexact]
          exact hrun
        · rename_i hexact
          rw [if_neg hexact]
          exact ih extra hrun

theorem skPageFree_unique {f f' p : Nat} {h1 h2 : Heap} (hrun : skPageFree f h p n = some h1)
    (hrun' : skPageFree f' h p n = some h2) : h1 = h2 := by
  have e1 := pageFreeLoop_mono f' hrun
  have e2 := pageFreeLoop_mono f hrun'
  rw [Nat.add_comm f f'] at e1
  exact some.inj (e1.symm.trans e2)

theorem skPageAlloc_unique {f f' : Nat} {r r' : Nat × Heap} (hrun : skPageAlloc f h n = some r)
    (hrun' : skPageAlloc f' h n = some r') : r = r' := by
  unfold skPageAlloc at hrun hrun'
  split at hrun
  · rename_i hn
    rw [if_pos hn] at hrun'
    exact some.inj (hrun.symm.trans hrun')
  · rename_i hn
    rw [if_neg hn] at hrun'
    have e1 := pageAllocLoop_mono f' hrun
    have e2 := pageAllocLoop_mono f hrun'
    rw [Nat.add_comm f f'] at e1
    exact some.inj (e1.symm.trans e2)

/-! ## The set of free pages -/

/-- `sys_page_list` is the list of the maximal runs of the set `F` of free pages. -/
def PageList (base N : Nat) (F : Set Nat) (h : Heap) : Prop :=
  (∀ i ∈ F, i < N) ∧ ∃ l, IsRuns F l ∧ PageChain base h h.sysPageList l

variable {F : Set Nat}

/-- The pages on `sys_page_list`. -/
def ListedPage (h : Heap) (a : Nat) : Prop :=
  ∃ b, OnList h.pageNext h.sysPageList b ∧ ∃ i < h.pageCount b, a = b + i * pageSize

private theorem first_mem (hruns : IsRuns F l) (hr : r ∈ l) : r.1 ∈ F :=
  (hruns.mem r.1).mpr ⟨r, hr, Nat.le_refl _, by have := hruns.pos r hr; omega⟩

private theorem run_inside (hruns : IsRuns F l) (hF : ∀ i ∈ F, i < N) (hr : r ∈ l) :
    0 < r.2 ∧ r.1 + r.2 ≤ N := by
  have hpos := hruns.pos r hr
  have hlast := hF (r.1 + r.2 - 1) ((hruns.mem _).mpr ⟨r, hr, by omega, by omega⟩)
  omega

private theorem ChainStep.frame_list (hstep : ChainStep base none l' h h') (hruns : IsRuns F l') :
    PageFrame base (· ∈ F) h h' := by
  refine hstep.frame.mono ?_
  intro i hi
  rcases hi with heq | ⟨r, hr, heq⟩
  · cases heq
  · rw [heq]
    exact first_mem hruns hr

namespace PageList

theorem listedPage_iff (area : PageArea base N) (hlist : PageList base N F h) :
    ListedPage h a ↔ ∃ i ∈ F, a = pageAddr base i := by
  obtain ⟨-, l, hruns, hch⟩ := hlist
  have hon : ∀ b, OnList h.pageNext h.sysPageList b ↔ ∃ r ∈ l, pageAddr base r.1 = b := by
    intro b
    rw [(hch.linked area).onList_iff, List.mem_map]
  constructor
  · rintro ⟨b, hb, i, hi, rfl⟩
    obtain ⟨r, hr, rfl⟩ := (hon b).mp hb
    rw [hch.count hr] at hi
    refine ⟨r.1 + i, (hruns.mem _).mpr ⟨r, hr, Nat.le_add_right .., by omega⟩, ?_⟩
    unfold pageAddr
    rw [Nat.add_mul, Nat.add_assoc]
  · rintro ⟨i, hi, rfl⟩
    obtain ⟨r, hr, hle, hlt⟩ := (hruns.mem i).mp hi
    refine ⟨pageAddr base r.1, (hon _).mpr ⟨r, hr, rfl⟩, i - r.1, ?_, ?_⟩
    · rw [hch.count hr]
      omega
    · unfold pageAddr
      rw [Nat.add_assoc, ← Nat.add_mul, Nat.add_sub_cancel' hle]

theorem congr {h' : Heap} (hlist : PageList base N F h)
    (hmem : ∀ i ∈ F, ∀ x, pageAddr base i ≤ x → x < pageAddr base i + 16 → h'.mem x = h.mem x)
    (heq : h'.sysPageList = h.sysPageList) : PageList base N F h' := by
  obtain ⟨hF, l, hruns, hch⟩ := hlist
  refine ⟨hF, l, hruns, ?_⟩
  rw [heq]
  refine hch.congr ?_ ?_
  · intro r hr
    exact load_congr fun x hx hx8 => hmem r.1 (first_mem hruns hr) x hx (by omega)
  · intro r hr
    exact load_congr fun x hx hx8 => hmem r.1 (first_mem hruns hr) x (by omega) (by omega)

/-- After `sk_page_init` all pages are free, in one run. -/
theorem init (area : PageArea base N) (hN : 0 < N) (h : Heap) :
    PageList base N (Set.Iio N) (skPageInit h base N) := by
  have hlt := lt_of_area area
  refine ⟨fun i hi => hi, [(0, N)], IsRuns.cons_iff.mpr ⟨hN, ?_, ?_, IsRuns.nil_iff.mpr ?_⟩, ?_⟩
  · intro i _ hi
    rw [Nat.zero_add] at hi
    exact hi
  · intro i hi
    have : i < N := hi
    omega
  · ext i
    simp only [Set.mem_ofPred_eq, Set.mem_Iio, Set.mem_empty_iff_false, iff_false]
    omega
  · have hbase : base = pageAddr base 0 := by simp [pageAddr]
    have hinit : skPageInit h base N = { (h.setPageCount (pageAddr base 0) N).setPageNext
        (pageAddr base 0) 0 with sysPageList := pageAddr base 0 } := by
      rw [← hbase]
      rfl
    rw [hinit]
    refine pageChain_cons.mpr ⟨rfl, ?_, ?_⟩
    · exact pageCount_setPageNext.trans (by rw [pageCount_setPageCount hlt, if_pos rfl])
    · show Heap.pageNext ((h.setPageCount (pageAddr base 0) N).setPageNext (pageAddr base 0) 0)
        (pageAddr base 0) = 0
      rw [pageNext_setPageNext (by decide), if_pos rfl]

/-- Either NULL, or `n` free pages in a row. Only heads of free pages are written. -/
theorem alloc (area : PageArea base N) (hlist : PageList base N F h) (hn : 0 < n) :
    ((∀ fuel, N < fuel → skPageAlloc fuel h n = some (0, h)) ∧
      ¬∃ a, ∀ i, a ≤ i → i < a + n → i ∈ F) ∨
    ∃ a h', (∀ fuel, N < fuel → skPageAlloc fuel h n = some (pageAddr base a, h')) ∧
      (∀ i, a ≤ i → i < a + n → i ∈ F) ∧ PageList base N (F \ Set.Ico a (a + n)) h' ∧
      PageFrame base (· ∈ F \ Set.Ico a (a + n)) h h' := by
  obtain ⟨hF, l, hruns, hch⟩ := hlist
  have hlen := hruns.length_le hF
  have hloop : ∀ fuel, N < fuel → _ := fun fuel hfuel =>
    pageAllocLoop_chain area hn (c := none) (Nat.lt_of_le_of_lt hlen hfuel) hch
      (fun r hr => run_inside hruns hF hr) hruns.sorted (fun i hi => by cases hi)
  have halloc : ∀ fuel, skPageAlloc fuel h n = pageAllocLoop n fuel .list h := by
    intro fuel
    unfold skPageAlloc
    rw [if_neg (by omega)]
  cases ht : take n l with
  | none =>
    left
    simp only [ht] at hloop
    refine ⟨fun fuel hfuel => (halloc fuel).trans (hloop fuel hfuel), ?_⟩
    rw [← hruns.exists_run_iff hn]
    intro hex
    obtain ⟨r, hr, hle⟩ := hex
    have := (IsRuns.take_eq_none n l).mp ht r hr
    omega
  | some r =>
    right
    obtain ⟨a, l'⟩ := r
    simp only [ht] at hloop
    obtain ⟨h', hrun, hstep⟩ := hloop (N + 1) (Nat.lt_succ_self N)
    obtain ⟨hin, hruns'⟩ := hruns.take hn ht
    refine ⟨a, h', ?_, hin, ⟨fun i hi => hF i hi.1, l', hruns', hstep.chain⟩,
      hstep.frame_list hruns'⟩
    intro fuel hfuel
    obtain ⟨h'', hrun', -⟩ := hloop fuel hfuel
    have heq := skPageAlloc_unique ((halloc _).trans hrun) ((halloc _).trans hrun')
    rw [heq]
    exact (halloc fuel).trans hrun'

/-- Only heads of free pages are written. -/
theorem free (area : PageArea base N) (hlist : PageList base N F h) (hn : 0 < n)
    (han : a + n ≤ N) (hnew : ∀ i, a ≤ i → i < a + n → i ∉ F) :
    ∃ h', (∀ fuel, N < fuel → skPageFree fuel h (pageAddr base a) n = some h') ∧
      PageList base N (F ∪ Set.Ico a (a + n)) h' ∧
      PageFrame base (· ∈ F ∪ Set.Ico a (a + n)) h h' := by
  obtain ⟨hF, l, hruns, hch⟩ := hlist
  have hlen := hruns.length_le hF
  have hroom : Room N a n l := by
    refine ⟨fun r hr => run_inside hruns hF hr, hruns.sorted, ?_⟩
    intro r hr
    have hpos := hruns.pos r hr
    -- neither the first page of the run nor the first new page is in both
    by_contra hboth
    by_cases har : a ≤ r.1
    · exact hnew r.1 har (by omega) (first_mem hruns hr)
    · exact hnew a (Nat.le_refl a) (by omega) ((hruns.mem a).mpr ⟨r, hr, by omega, by omega⟩)
  have hloop : ∀ fuel, N < fuel → _ := fun fuel hfuel =>
    pageFreeLoop_chain area hn han (c := none) (Nat.lt_of_le_of_lt hlen hfuel) hch hroom
      (fun i hi => by cases hi)
  obtain ⟨h', hrun, hstep⟩ := hloop (N + 1) (Nat.lt_succ_self N)
  have hruns' := hruns.give hn hnew
  refine ⟨h', ?_, ⟨?_, _, hruns', hstep.chain⟩, hstep.frame_list hruns'⟩
  · intro fuel hfuel
    obtain ⟨h'', hrun', -⟩ := hloop fuel hfuel
    have hfree : skPageFree fuel h (pageAddr base a) n = some h'' := hrun'
    have heq := skPageFree_unique (f := N + 1) hrun hfree
    rw [heq]
    exact hrun'
  · intro i hi
    cases hi with
    | inl hi => exact hF i hi
    | inr hi =>
      have := hi.2
      omega

end PageList

end

end SKernel.Spec
