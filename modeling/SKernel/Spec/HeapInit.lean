import SKernel.Spec.SlabCorrect

/-!
# The range of the heap

`sk_system_mem_init` rounds both ends of the heap up to a page, counts the pages between them in 32
bits, and takes the pages of the usage table from the list of free pages.

The last page therefore reaches beyond the end of the heap when the end is not the start of a page,
unless the page count has been cut off to 32 bits. When the cut-off count is 0, a page head without
pages is on the list and there is no usage table.
-/

namespace SKernel.Spec

open Native ByteMem Chain

/-! ## The pages of an initialised heap -/

/-- The pages on `sys_page_list`: the page heads, and the pages that they count. -/
def FreePage (h : Heap) (a : Nat) : Prop :=
  ∃ b, OnList h.pageNext h.sysPageList b ∧ (a = b ∨ ∃ i < h.pageCount b, a = b + i * pageSize)

/-- The number of pages that `sk_system_mem_init` takes for the usage table. -/
def numTablePages (h : Heap) : Nat := skAlign (numPages h * memUsageSize) pageSize / pageSize

/-- The pages of the usage table, if there is one. -/
def TablePage (h : Heap) (a : Nat) : Prop :=
  h.sysMemUsage ≠ 0 ∧ ∃ i < numTablePages h, a = h.sysMemUsage + i * pageSize

/-- The heap is inside the range that was given, the usage table is apart from the free pages, and
    has an entry for every address of these pages. -/
structure InRange (h : Heap) (beginAddr endAddr : Nat) : Prop where
  free : ∀ a, FreePage h a → beginAddr ≤ a ∧ a + pageSize ≤ endAddr
  table : ∀ a, TablePage h a → beginAddr ≤ a ∧ a + pageSize ≤ endAddr
  apart : ∀ a b, TablePage h a → FreePage h b → a + pageSize ≤ b ∨ b + pageSize ≤ a
  entry : ∀ a, FreePage h a ∨ TablePage h a → ∀ x, a ≤ x → x < a + pageSize →
    ∃ p, TablePage h p ∧ p ≤ h.btokup x ∧ h.btokup x + memUsageSize ≤ p + pageSize

variable {h h0 : Heap} {base N a n x p start last npages zoneSize beginAddr endAddr : Nat}
  {F : Set Nat}

private theorem freePage_iff (area : PageArea base N) (hlist : PageList base N F h) :
    FreePage h a ↔ ∃ i ∈ F, a = pageAddr base i := by
  rw [← hlist.listedPage_iff area]
  constructor
  · rintro ⟨b, hb, rfl | hlisted⟩
    · -- the head of a run is its first page
      obtain ⟨-, l, hruns, hch⟩ := hlist
      obtain ⟨r, hr, rfl⟩ := List.mem_map.mp ((hch.linked area).onList_iff.mp hb)
      refine ⟨pageAddr base r.1, hb, 0, ?_, by omega⟩
      rw [hch.count hr]
      exact hruns.pos r hr
    · exact ⟨b, hb, hlisted⟩
  · rintro ⟨b, hb, hlisted⟩
    exact ⟨b, hb, .inr hlisted⟩

private theorem tablePage_iff (area : PageArea base N) (husage : h.sysMemUsage = pageAddr base n) :
    TablePage h a ↔ ∃ i, n ≤ i ∧ i < n + numTablePages h ∧ a = pageAddr base i := by
  unfold TablePage
  rw [husage]
  constructor
  · rintro ⟨-, i, hi, rfl⟩
    refine ⟨n + i, Nat.le_add_right .., by omega, ?_⟩
    unfold pageAddr
    rw [Nat.add_mul, Nat.add_assoc]
  · rintro ⟨i, hle, hlt, rfl⟩
    refine ⟨pageAddr_ne_zero area n, i - n, by omega, ?_⟩
    unfold pageAddr
    rw [Nat.add_assoc, ← Nat.add_mul, Nat.add_sub_cancel' hle]

private theorem numTablePages_eq (hlt : numPages h < 2 ^ 20) :
    numTablePages h = (numPages h * 4 + 4095) / 4096 := by
  unfold numTablePages
  rw [show pageSize = 2 ^ 12 from rfl, skAlign_two_pow _ (by decide),
    Nat.mul_div_cancel _ (by decide)]
  unfold memUsageSize
  omega

/-! ## A heap with pages -/

/-- The usage table takes the pages from page `n` on, and the other pages are free. -/
structure HasPages (h : Heap) (base N n : Nat) : Prop where
  area : PageArea base N
  start : h.sysMemStart = base
  npages : numPages h = N
  lt : N < 2 ^ 20
  pos : 0 < N
  usage : h.sysMemUsage = pageAddr base n
  fits : n + numTablePages h ≤ N
  list : PageList base N (Set.Iio N \ Set.Ico n (n + numTablePages h)) h

namespace HasPages

private theorem page_iff (hp : HasPages h base N n) :
    FreePage h a ∨ TablePage h a ↔ ∃ i < N, a = pageAddr base i := by
  rw [freePage_iff hp.area hp.list, tablePage_iff hp.area hp.usage]
  have hfits := hp.fits
  constructor
  · rintro (⟨i, hi, rfl⟩ | ⟨i, -, hi, rfl⟩)
    · exact ⟨i, hi.1, rfl⟩
    · exact ⟨i, by omega, rfl⟩
  · rintro ⟨i, hi, rfl⟩
    by_cases htable : n ≤ i ∧ i < n + numTablePages h
    · exact .inr ⟨i, htable.1, htable.2, rfl⟩
    · exact .inl ⟨i, ⟨hi, htable⟩, rfl⟩

theorem btokup_eq (hp : HasPages h base N n) {i : Nat} (hi : i < N) (hle : pageAddr base i ≤ x)
    (hlt : x < pageAddr base i + pageSize) :
    h.btokup x = pageAddr base n + memUsageSize * i := by
  have hend := pageAddr_lt hp.area (show i + 1 ≤ N from hi)
  unfold pageAddr pageSize at hle hlt hend
  unfold Heap.btokup
  rw [hp.start, hp.usage, Nat.shiftRight_eq_div_pow]
  unfold pageShift
  congr 2
  omega

private theorem inRange_iff_end_le (hp : HasPages h base N n) (hbegin : beginAddr ≤ base) :
    InRange h beginAddr endAddr ↔ base + N * pageSize ≤ endAddr := by
  have hpos := hp.pos
  have hinside : base + N * pageSize ≤ endAddr → ∀ a, FreePage h a ∨ TablePage h a →
      beginAddr ≤ a ∧ a + pageSize ≤ endAddr := by
    intro hle a ha
    obtain ⟨i, hi, rfl⟩ := hp.page_iff.mp ha
    unfold pageAddr
    unfold pageSize at hle ⊢
    omega
  constructor
  · intro hrange
    have hlast : FreePage h (pageAddr base (N - 1)) ∨ TablePage h (pageAddr base (N - 1)) :=
      hp.page_iff.mpr ⟨N - 1, by omega, rfl⟩
    have hend := (hlast.elim (hrange.free _) (hrange.table _)).2
    unfold pageAddr at hend
    unfold pageSize at hend ⊢
    omega
  · intro hle
    refine ⟨fun a ha => hinside hle a (.inl ha), fun a ha => hinside hle a (.inr ha), ?_, ?_⟩
    · intro a b ha hb
      obtain ⟨i, hi, hi', rfl⟩ := (tablePage_iff hp.area hp.usage).mp ha
      obtain ⟨j, hj, rfl⟩ := (freePage_iff hp.area hp.list).mp hb
      apply pageAddr_apart
      rintro rfl
      exact hj.2 ⟨hi, hi'⟩
    · -- the entry of page `i` is in page `4 * i / 4096` of the table
      intro a ha x hax hxa
      obtain ⟨i, hi, rfl⟩ := hp.page_iff.mp ha
      have hnum := numTablePages_eq (h := h) (by rw [hp.npages]; exact hp.lt)
      rw [hp.npages] at hnum
      refine ⟨pageAddr base (n + memUsageSize * i / pageSize), ?_, ?_⟩
      · rw [tablePage_iff hp.area hp.usage]
        refine ⟨_, Nat.le_add_right .., ?_, rfl⟩
        unfold memUsageSize pageSize
        omega
      · rw [hp.btokup_eq hi hax hxa]
        unfold pageAddr memUsageSize pageSize
        omega

end HasPages

/-! ## The initialisation -/

private theorem skAlign_page_eq (hle : a + pageSize ≤ 2 ^ 64) :
    skAlign a pageSize = (a + 4095) / 4096 * 4096 := by
  unfold pageSize at hle ⊢
  rw [show (4096 : Nat) = 2 ^ 12 from rfl, skAlign_two_pow _ (by decide)]
  omega

private theorem skSystemMemInit_of_le (h0 : Heap)
    (hle : skAlign beginAddr pageSize ≤ skAlign endAddr pageSize)
    (hN : (skAlign endAddr pageSize - skAlign beginAddr pageSize) % 2 ^ 32 / pageSize = N) :
    ∃ h, h.sysMemStart = skAlign beginAddr pageSize ∧ h.sysPageList = skAlign beginAddr pageSize ∧
      numPages h = N ∧
      (PageArea (skAlign beginAddr pageSize) N → 0 < N →
        PageList (skAlign beginAddr pageSize) N (Set.Iio N) h) ∧
      ∀ fuel r, skPageAlloc fuel h (numTablePages h) = some r →
        skSystemMemInit fuel h0 beginAddr endAddr =
          some (.eok, { r.2 with sysMemUsage := r.1 }) := by
  refine ⟨initPages h0 (skAlign beginAddr pageSize) (skAlign endAddr pageSize) N (zoneSizeLoop
    ((skAlign endAddr pageSize - skAlign beginAddr pageSize) % 2 ^ 32) 2 allocMinZoneSize),
    rfl, rfl, hN, initPages_list, ?_⟩
  intro fuel r hrun
  subst hN
  unfold skSystemMemInit
  dsimp only
  rw [if_neg (Nat.not_lt.mpr hle)]
  exact congrArg (Option.map _) hrun

private theorem HasPages.of_alloc (area : PageArea base N) (hstart : h.sysMemStart = base)
    (hnum : numPages h = N) (hlt : N < 2 ^ 20) (hpos : 0 < N)
    (hlist : PageList base N (Set.Iio N) h) :
    ∃ a h', (∀ fuel, N < fuel →
        skPageAlloc fuel h (numTablePages h) = some (pageAddr base a, h')) ∧
      HasPages { h' with sysMemUsage := pageAddr base a } base N a := by
  have htable : numTablePages h = (N * 4 + 4095) / 4096 := by
    rw [numTablePages_eq (by rw [hnum]; exact hlt), hnum]
  rcases hlist.alloc area (n := numTablePages h) (by omega) with
    ⟨-, hnone⟩ | ⟨a, h', hrun, hin, hlist', hframe⟩
  · exact absurd ⟨0, fun i _ hi => show i < N by omega⟩ hnone
  · refine ⟨a, h', hrun, ?_⟩
    have hlast : a + numTablePages h - 1 < N := hin _ (by omega) (by omega)
    have hend : h'.sysMemEnd = h.sysMemEnd := by rw [hframe.rest]
    have hbegin : h'.sysMemStart = h.sysMemStart := by rw [hframe.rest]
    have hnum' : numPages { h' with sysMemUsage := pageAddr base a } = numPages h := by
      unfold numPages
      rw [← hend, ← hbegin]
    have htable' : numTablePages { h' with sysMemUsage := pageAddr base a } = numTablePages h := by
      unfold numTablePages
      rw [hnum']
    refine ⟨area, hbegin.trans hstart, hnum'.trans hnum, hlt, hpos, rfl, ?_, ?_⟩
    · rw [htable']
      omega
    · rw [htable']
      exact hlist'.congr (fun _ _ _ _ _ => rfl) rfl

/-- NULL, or a range with pages that ends with a page or has more pages than are counted. -/
def RangeFits (beginAddr endAddr : Nat) : Prop :=
  let size := skAlign endAddr pageSize - skAlign beginAddr pageSize
  beginAddr = 0 ∨ 0 < size % 2 ^ 32 ∧ (endAddr % pageSize = 0 ∨ 2 ^ 32 ≤ size)

instance : Decidable (RangeFits beginAddr endAddr) :=
  inferInstanceAs (Decidable (_ ∨ _))

/-- Nothing on the list is out of range. -/
theorem inRange_of_null (hlist : h.sysPageList = 0) (husage : h.sysMemUsage = 0) :
    InRange h beginAddr endAddr := by
  have hfree : ∀ a, ¬ FreePage h a := by
    rintro a ⟨b, hon, -⟩
    rw [hlist] at hon
    cases hon with
    | head hne => exact hne rfl
    | next hne => exact hne rfl
  have htable : ∀ a, ¬ TablePage h a := fun a ha => ha.1 husage
  exact ⟨fun a ha => absurd ha (hfree a), fun a ha => absurd ha (htable a),
    fun a b ha => absurd ha (htable a),
    fun a ha => absurd ha (not_or.mpr ⟨hfree a, htable a⟩)⟩

/-- A page head without a usage table. -/
theorem not_inRange_of_head (hlist : h.sysPageList ≠ 0) (husage : h.sysMemUsage = 0) :
    ¬ InRange h beginAddr endAddr := by
  intro hrange
  have hfree : FreePage h h.sysPageList := ⟨_, .head hlist, .inl rfl⟩
  obtain ⟨p, hp, -⟩ := hrange.entry _ (.inl hfree) _ (Nat.le_refl _)
    (Nat.lt_add_of_pos_right (by decide))
  exact hp.1 husage

private theorem rangeFits_iff (hpos : 0 < beginAddr) (hle : beginAddr ≤ endAddr)
    (hend : endAddr + pageSize ≤ 2 ^ 64)
    (hN : (skAlign endAddr pageSize - skAlign beginAddr pageSize) % 2 ^ 32 / pageSize = N) :
    RangeFits beginAddr endAddr ↔ 0 < N ∧ skAlign beginAddr pageSize + N * pageSize ≤ endAddr := by
  unfold RangeFits
  rw [skAlign_page_eq hend, skAlign_page_eq (by omega)] at *
  unfold pageSize at *
  omega

/-- **When the initialised heap stays in range.** `sk_system_mem_init` accepts every range whose
    rounded ends are 64-bit addresses. Then all pages on `sys_page_list` and of the usage table are
    inside the range, the table is apart from the free pages, and it has an entry for every address
    in these pages, exactly when the range starts at NULL, or has pages and either ends with a page
    or has 4 GiB or more. -/
theorem heap_init_in_range_iff (h0 : Heap) (hle : beginAddr ≤ endAddr)
    (hend : endAddr + pageSize ≤ 2 ^ 64) :
    ∃ h, (∀ fuel, numPages h < fuel →
        skSystemMemInit fuel h0 beginAddr endAddr = some (.eok, h)) ∧
      (InRange h beginAddr endAddr ↔ RangeFits beginAddr endAddr) := by
  have hbegin : skAlign beginAddr pageSize = (beginAddr + 4095) / 4096 * 4096 :=
    skAlign_page_eq (by omega)
  have hlast : skAlign endAddr pageSize = (endAddr + 4095) / 4096 * 4096 := skAlign_page_eq hend
  generalize hN : (skAlign endAddr pageSize - skAlign beginAddr pageSize) % 2 ^ 32 / pageSize = N
  obtain ⟨h, hstart, hhead, hnum, hlist, hinit⟩ :=
    skSystemMemInit_of_le h0 (show skAlign beginAddr pageSize ≤ _ by omega) hN
  by_cases hnull : beginAddr = 0
  · -- the list of free pages starts at NULL, and so is empty
    have hempty : h.sysPageList = 0 := by omega
    refine ⟨{ h with sysMemUsage := 0 }, fun fuel hfuel => ?_, ?_⟩
    · exact hinit fuel (0, h) (skPageAlloc_null hempty (Nat.zero_lt_of_lt hfuel))
    · exact iff_of_true (inRange_of_null hempty rfl) (.inl hnull)
  · have hne : skAlign beginAddr pageSize ≠ 0 := by omega
    rw [rangeFits_iff (Nat.pos_of_ne_zero hnull) hle hend hN]
    by_cases hpos : 0 < N
    · have hbytes : N * pageSize ≤ skAlign endAddr pageSize - skAlign beginAddr pageSize := by
        rw [← hN]
        exact Nat.le_trans (Nat.div_mul_le_self ..) (Nat.mod_le ..)
      have hmax : endAddr + 4096 ≤ 2 ^ 64 := hend
      have area : PageArea (skAlign beginAddr pageSize) N := ⟨hne, by omega⟩
      have hlt : N < 2 ^ 20 := by
        unfold pageSize at hN
        omega
      obtain ⟨a, h', hrun, hpages⟩ := HasPages.of_alloc area hstart hnum hlt hpos (hlist area hpos)
      refine ⟨_, fun fuel hfuel => hinit fuel _ (hrun fuel ?_), ?_⟩
      · exact hpages.npages ▸ hfuel
      · rw [hpages.inRange_iff_end_le (by omega)]
        exact ⟨fun hle => ⟨hpos, hle⟩, fun hfits => hfits.2⟩
    · -- one page head without pages, and no table
      have htable : numTablePages h = 0 := by
        rw [numTablePages_eq (by omega)]
        omega
      refine ⟨{ h with sysMemUsage := 0 }, fun fuel _ => hinit fuel (0, h) ?_, ?_⟩
      · rw [htable]
        rfl
      · refine iff_of_false (not_inRange_of_head ?_ rfl) fun hfits => hpos hfits.1
        show h.sysPageList ≠ 0
        rw [hhead]
        exact hne

/-- A range that starts inside a page and ends with one: two pages, of which the first is the
    table. -/
theorem heap_init_in_range_iff_two :
    ∃ h0 h, (∀ fuel, numPages h < fuel → skSystemMemInit fuel h0 5000 16384 = some (.eok, h)) ∧
      InRange h 5000 16384 := by
  let h0 : Heap := ⟨fun _ => 0, 0, 0, 0, 0, fun _ => 0, 0, 0, 0, 0, 0⟩
  obtain ⟨h, hinit, hiff⟩ :=
    heap_init_in_range_iff h0 (show 5000 ≤ 16384 by decide) (show 16384 + 4096 ≤ 2 ^ 64 by decide)
  exact ⟨h0, h, hinit, hiff.mpr (by decide)⟩

/-- A range that ends one byte behind the start of a page: the free page has one byte in the
    range. -/
theorem heap_init_beyond_end :
    ∃ h0 h, skSystemMemInit 2 h0 4096 8193 = some (.eok, h) ∧ FreePage h 8192 ∧
      ¬ InRange h 4096 8193 := by
  let h0 : Heap := ⟨fun _ => 0, 0, 0, 0, 0, fun _ => 0, 0, 0, 0, 0, 0⟩
  have hlist : (skSystemMemInit 2 h0 4096 8193).map (fun r => (r.1, r.2.sysPageList)) =
      some (.eok, 8192) := by
    decide +kernel
  obtain ⟨⟨code, h⟩, hinit, heq⟩ := Option.map_eq_some_iff.mp hlist
  obtain ⟨rfl, hhead⟩ := Prod.mk.inj heq
  have hfree : FreePage h 8192 := ⟨8192, by rw [hhead]; exact .head (by decide), .inl rfl⟩
  refine ⟨h0, h, hinit, hfree, ?_⟩
  intro hrange
  exact absurd (hrange.free 8192 hfree).2 (by decide)

end SKernel.Spec
