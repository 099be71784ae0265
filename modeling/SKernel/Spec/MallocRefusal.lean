import SKernel.Spec.SlabCorrect

/-!
# Requests that are refused, and large blocks

`sk_malloc` returns NULL on two paths: when no pages are left for a large request, and when none
are left for a new zone. Both come before anything has been written, so a refused request leaves
the heap as it is.

A large block keeps its number of pages in the usage entry of its first page. `sk_free` reads the
number there and gives back the same pages, and the list of free pages is determined by the set of
these pages.

The runs are those of `SlabSys.Keeps`: all calls that release no zone when `fit` is `False`, and
with writes into live blocks, but without requests that do not fit their zones, when it is `True`.
-/

namespace SKernel.Spec

open Native ByteMem Chain

/-! ## Refusal -/

/-- There are `n` pages on `sys_page_list` one behind the other. -/
def ListedRun (h : Heap) (n : Nat) : Prop := ∃ a, ∀ i < n, ListedPage h (a + i * pageSize)

/-- The pages that a request needs when no zone serves it. -/
def numNeededPages (h : Heap) (size : Nat) : Nat :=
  if h.sysZoneLimit ≤ size then numBlockPages size else h.sysZoneSize / pageSize

/-- The request is large, or no zone of its class has a free chunk and none is set aside. -/
def NoZoneServes (h : Heap) (live : List Block) (size : Nat) : Prop :=
  size < h.sysZoneLimit → h.sysZoneFree = 0 ∧ ∀ index chunk, zoneIndex size = some (index, chunk) →
    h.sysZoneArray index = 0 ∧
      ∀ z, IsZone h live z → h.get32 (z + zZoneindex) = index → h.get32 (z + zNfree) = 0

/-- The size is 0, the page count has wrapped around to 0, or there is neither a zone nor a run of
    pages. -/
def Refused (h : Heap) (live : List Block) (size : Nat) : Prop :=
  size = 0 ∨ numBlockPages size = 0 ∨
    NoZoneServes h live size ∧ ¬ListedRun h (numNeededPages h size)

variable {fit : Prop} {G : Geometry} {L L' : Layout G.zoneSize} {h h' : Heap} {live : List Block}
  {i n p size fuel : Nat}

namespace SlabInv

section

variable (hslab : SlabInv fit G L h live)
include hslab

theorem listedPage_iff : ListedPage h p ↔ ∃ i, L.use i = .free ∧ p = G.addr i :=
  hslab.free.listedPage_iff G.area

private theorem freeRun_of_listedRun (hrun : ListedRun h n) : FreeRun L n := by
  obtain ⟨a, ha⟩ := hrun
  by_cases hn : n = 0
  · exact ⟨0, fun i _ hi => by omega⟩
  obtain ⟨i0, -, haddr⟩ := hslab.listedPage_iff.mp (ha 0 (by omega))
  rw [Nat.zero_mul, Nat.add_zero] at haddr
  refine ⟨i0, ?_⟩
  intro i hle hlt
  obtain ⟨k, hk, hkaddr⟩ := hslab.listedPage_iff.mp (ha (i - i0) (by omega))
  have hik : k = i := by
    apply Geometry.addr_inj.mp
    rw [← hkaddr, haddr, Geometry.addr_eq, Geometry.addr_eq, Nat.add_assoc, ← Nat.add_mul,
      Nat.add_sub_cancel' hle]
  rw [← hik]
  exact hk

private theorem nfree_eq_zero {index : Nat} (harray : L.array index = [])
    (hzones : L.freeZones = []) (hz : IsZone h live p) (hindex : h.get32 (p + zZoneindex) = index) :
    h.get32 (p + zNfree) = 0 := by
  obtain ⟨z, rfl, huse⟩ := hslab.isZone hz
  have hmem := hslab.zones z huse
  have hzindex : (L.zone z).index = index := hmem.zoneindex.symm.trans hindex
  have hnfree : h.get32 (G.addr z + zNfree) = (L.zone z).nfree := hmem.nfree
  rw [hnfree]
  by_contra hpos
  have hin : z ∈ L.array index :=
    (hslab.array_mem index z).mpr ⟨huse, hzindex, by omega, by simp [hzones]⟩
  simp [harray] at hin

/-- The reasons of a refusal, in terms of the heap. -/
theorem refused (hreason : Refusal G L size) : Refused h live size := by
  have hlimit := hslab.fits.limit
  cases hreason with
  | zero hsize => exact .inl hsize
  | wraps hpages => exact .inr (.inl hpages)
  | large hsize hpages =>
    refine .inr (.inr ⟨fun hlt => by omega, ?_⟩)
    unfold numNeededPages
    rw [if_pos (by omega)]
    exact fun hrun => hpages (hslab.freeRun_of_listedRun hrun)
  | small index chunk hsize hclass harray hzones hpages =>
    refine .inr (.inr ⟨fun _ => ⟨?_, ?_⟩, ?_⟩)
    · have hlist := hslab.freeZones
      rw [hzones] at hlist
      exact hlist
    · intro k c hk
      rw [hclass, Option.some_inj, Prod.mk.injEq] at hk
      rw [← hk.1]
      have hlist := hslab.array index
      rw [harray] at hlist
      exact ⟨hlist, fun z hz hindex => hslab.nfree_eq_zero harray hzones hz hindex⟩
    · have hzone : h.sysZoneSize / pageSize = G.zonePages := by
        rw [hslab.fits.zoneSize]
        exact Nat.mul_div_cancel _ (by decide)
      unfold numNeededPages
      rw [if_neg (by omega), hzone]
      exact fun hrun => hpages (hslab.freeRun_of_listedRun hrun)

end

/-! ## Large blocks -/

private theorem placed_large (hslab : SlabInv fit G L h (⟨G.addr i, size⟩ :: live))
    (hsize : G.limit ≤ size) :
    0 < numBlockPages size ∧ size ≤ numBlockPages size * pageSize ∧
      L.Holds i (numBlockPages size) (.large i) ∧
      load h.mem 4 (G.entry i) = numBlockPages size * 4 + pageTypeLarge := by
  cases hslab.placed _ List.mem_cons_self with
  | small z j hz hused hptr hsmall =>
    have hlt : size < G.limit := hsmall.1
    omega
  | large y n hn hptr hlarge huse hentry =>
    obtain rfl : i = y := Geometry.addr_inj.mp hptr
    obtain rfl : numBlockPages size = n := hlarge.2.2
    exact ⟨hn, hlarge.1, huse, hentry⟩

private theorem free_large (hslab : SlabInv fit G L h live)
    (hslab' : SlabInv fit G L' h' (⟨G.addr i, size⟩ :: live)) (hfuel : G.npages < fuel)
    (hsize : G.limit ≤ size)
    (hpages : L.Holds i (numBlockPages size) .free)
    (hfree : ∀ k, L'.use k = .free ↔ L.use k = .free ∧ ¬(i ≤ k ∧ k < i + numBlockPages size)) :
    ∃ h'' l, skFree fuel h' (G.addr i) = some h'' ∧ PageChain G.start h h.sysPageList l ∧
      PageChain G.start h'' h''.sysPageList l := by
  obtain ⟨hn, -, huse, hentry⟩ := hslab'.placed_large hsize
  obtain ⟨h'', L'', hrun, hslab'', -, hback⟩ := hslab'.freeLarge hfuel hn huse hentry
  have hset : {k | L''.use k = .free} = {k | L.use k = .free} := by
    ext k
    show L''.use k = .free ↔ L.use k = .free
    rw [hback, hfree]
    constructor
    · intro hk
      cases hk with
      | inl hk => exact hk.1
      | inr hk => exact hpages k hk.1 hk.2
    · intro hk
      by_cases hin : i ≤ k ∧ k < i + numBlockPages size
      · exact .inr hin
      · exact .inl ⟨hk, hin⟩
  obtain ⟨-, l, hruns, hch⟩ := hslab.free
  obtain ⟨-, l'', hruns'', hch''⟩ := hslab''.free
  -- both lists are the maximal runs of one set
  rw [hset] at hruns''
  refine ⟨h'', l, hrun, hch, ?_⟩
  rw [hruns.unique hruns'']
  exact hch''

end SlabInv

/-- The block at `p` has room for `size` bytes, on pages that `sk_malloc` has taken from the
    list. -/
structure HasRoom (h h' : Heap) (p size : Nat) : Prop where
  fits : size ≤ numBlockPages size * pageSize
  before : ∀ i < numBlockPages size, ListedPage h (p + i * pageSize)
  after : ∀ i < numBlockPages size, ¬ListedPage h' (p + i * pageSize)

/-- The pages of a large block. -/
theorem SlabInv.hasRoom (hslab : SlabInv fit G L h live)
    (hslab' : SlabInv fit G L' h' (⟨G.addr i, size⟩ :: live)) (hsize : G.limit ≤ size)
    (hpages : L.Holds i (numBlockPages size) .free)
    (hfree : ∀ k, L'.use k = .free ↔ L.use k = .free ∧ ¬(i ≤ k ∧ k < i + numBlockPages size)) :
    HasRoom h h' (G.addr i) size := by
  have haddr : ∀ k, G.addr i + k * pageSize = G.addr (i + k) := by
    intro k
    rw [Geometry.addr_eq, Geometry.addr_eq, Nat.add_mul, Nat.add_assoc]
  constructor
  · exact (hslab'.placed_large hsize).2.1
  · intro k hk
    rw [haddr]
    exact hslab.listedPage_iff.mpr ⟨i + k, hpages _ (by omega) (by omega), rfl⟩
  · intro k hk hlisted
    rw [haddr] at hlisted
    obtain ⟨y, hy, heq⟩ := hslab'.listedPage_iff.mp hlisted
    obtain rfl := Geometry.addr_inj.mp heq
    exact ((hfree _).mp hy).2 ⟨by omega, by omega⟩

/-! ## Runs -/

theorem SlabInv.weaken (hslab : SlabInv fit G L h live) : SlabInv False G L h live :=
  { hslab with
    placed := by
      intro b hb
      cases hslab.placed b hb with
      | large i n hn hptr hsize huse hentry => exact .large i n hn hptr hsize huse hentry
      | small z j hz hused hptr hsize =>
        exact .small z j hz hused hptr ⟨hsize.1, fun hfalse => hfalse.elim⟩
    exact := fun hfalse => hfalse.elim }

/-- **Refused requests and large blocks.** In every state that is reached without a release,
    `sk_malloc` returns for every size. When it returns NULL, the heap is as it was, and the request
    could not be served. When it returns a large block, the block has room for the request, and
    freeing it at once gives back the same list of free pages. -/
theorem malloc_null_or_restores {x : SlabSys} (h : slabSystem.Reach (SlabSys.Keeps fit) x)
    (hsize : size < 2 ^ 64) :
    ∃ p h', skMalloc x.fuel x.heap size = some (p, h') ∧
      (p = 0 → h' = x.heap ∧ Refused x.heap x.live size) ∧
      (p ≠ 0 → x.heap.sysZoneLimit ≤ size → HasRoom x.heap h' p size ∧
        ∃ h'' l, skFree x.fuel h' p = some h'' ∧
          PageChain x.heap.sysMemStart x.heap x.heap.sysPageList l ∧
          PageChain x.heap.sysMemStart h'' h''.sysPageList l) := by
  cases slabInv_of_reach h with
  | inl hlayout =>
    obtain ⟨G, L, hslab⟩ := hlayout
    -- the request itself may be one that does not fit its zone
    replace hslab := hslab.weaken
    have hfuel := hslab.npages_lt_fuel
    have hlimit := hslab.fits.limit
    obtain ⟨p, h', L', hrun, hslab', heffect⟩ :=
      hslab.malloc_returns hfuel hsize fun hfalse => hfalse.elim
    refine ⟨p, h', hrun, ?_, ?_⟩
    · intro hp
      -- a block never begins at address 0
      cases heffect with
      | refused _ hheap _ hreason => exact ⟨hheap, hslab.refused hreason⟩
      | large i _ hptr => exact absurd (hptr.symm.trans hp) (G.addr_ne_zero i)
      | take _ _ z j w _ _ _ _ _ _ _ hptr =>
        exact absurd (hptr.symm.trans hp) (SlabInv.chunkAddr_ne_zero w z j)
      | create _ z w _ _ _ _ _ _ hptr =>
        exact absurd (hptr.symm.trans hp) (SlabInv.chunkAddr_ne_zero w z 0)
    · intro hp hlarge
      rw [if_neg hp] at hslab'
      cases heffect with
      | refused hnull => exact absurd hnull hp
      | large i hsize hptr _ hpages hfree =>
        subst hptr
        rw [hslab.fits.start]
        exact ⟨hslab.hasRoom hslab' hsize hpages hfree,
          hslab.free_large hslab' hfuel hsize hpages hfree⟩
      | take => omega
      | create => omega
  | inr hdead =>
    obtain ⟨hdead, hlive⟩ := hdead
    refine ⟨0, x.heap, hdead.malloc x.one_lt_fuel, ?_,
      fun hne => absurd rfl hne⟩
    intro _
    refine ⟨rfl, ?_⟩
    by_cases hpages : numBlockPages size = 0
    · exact .inr (.inl hpages)
    · refine .inr (.inr ⟨?_, ?_⟩)
      · intro _
        refine ⟨hdead.zones, fun index _ _ => ⟨congrFun hdead.array index, ?_⟩⟩
        intro z hz
        rw [hlive] at hz
        exact absurd hz (hdead.not_isZone z)
      · rintro ⟨a, ha⟩
        -- no page at all is on the list
        have hneeded : 0 < numNeededPages x.heap size := by
          have := hdead.zoneSize
          unfold numNeededPages
          split <;> omega
        exact hdead.pages _ (ha 0 hneeded)

/-- A request of two pages, when two chunks that overlap and a large block are live. -/
theorem malloc_null_or_restores_two :
    ∃ x, slabSystem.Reach (SlabSys.Keeps False) x ∧
      x.live = [⟨40960, 8192⟩, ⟨9272, 1024⟩, ⟨8248, 1025⟩] ∧
      ∃ p h', skMalloc x.fuel x.heap 8192 = some (p, h') ∧
        (p = 0 → h' = x.heap ∧ Refused x.heap x.live 8192) ∧
        (p ≠ 0 → x.heap.sysZoneLimit ≤ 8192 → HasRoom x.heap h' p 8192 ∧
          ∃ h'' l, skFree x.fuel h' p = some h'' ∧
            PageChain x.heap.sysMemStart x.heap x.heap.sysPageList l ∧
            PageChain x.heap.sysMemStart h'' h''.sysPageList l) := by
  obtain ⟨x, hx, hp⟩ := (reach_smallHeap 14 (by decide +kernel) (SlabSys.Keeps False)).exists_of_run
    [.malloc 1025, .malloc 1024, .malloc 8192]
    (fun x => x.live = [⟨40960, 8192⟩, ⟨9272, 1024⟩, ⟨8248, 1025⟩]) (by decide +kernel)
  exact ⟨x, hx, of_decide_eq_true hp, malloc_null_or_restores hx (by decide)⟩

end SKernel.Spec
