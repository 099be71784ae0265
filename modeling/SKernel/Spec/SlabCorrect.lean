import SKernel.ForStd.Simulation
import SKernel.Spec.SlabCalls

/-!
# Safety of the heap

Runs of `sk_malloc`, `sk_free` and writes into live blocks on a heap that
`sk_system_mem_init` has accepted.

Two defects break safety. The classes of 1024 to 2047 bytes are rounded with
`SK_ALIGN(n, 127)`, so that one class holds zones of different chunk sizes, and `sk_malloc` puts
chunks of one size into a zone of the other. And `--sys_zone_free` moves the pointer to the free
zones instead of their count.

## Key results

- `slab_safety`: without these two, live blocks overlap neither each other nor the data of the
  allocator
- `slab_safety_fails`: two requests of 1025 and 1024 bytes give overlapping blocks
- `slab_release_fails`: a zone header overwrites a live block after a zone has been released
-/

namespace SKernel.Spec

open Native ByteMem Chain List

/-! ## Safety -/

/-- `x` is an address of the block. -/
def Block.Contains (b : Block) (x : Nat) : Prop := b.ptr ≤ x ∧ x < b.ptr + b.size

instance (b : Block) (x : Nat) : Decidable (b.Contains x) := by
  unfold Block.Contains
  infer_instance

/-- The blocks have no address in common. -/
def Block.Disjoint (b c : Block) : Prop := ∀ x, b.Contains x → ¬c.Contains x

/-- The slab zones: those on the lists of zones, and those of the live chunks. -/
inductive IsZone (h : Heap) (live : List Block) : Nat → Prop where
  | array (index : Nat) {z : Nat}
      (hz : OnList (fun a => h.get64 (a + zNext)) (h.sysZoneArray index) z) : IsZone h live z
  | free {z : Nat} (hz : OnList (fun a => h.get64 (a + zNext)) h.sysZoneFree z) : IsZone h live z
  | chunk {b : Block} (hb : b ∈ live)
      (htype : h.usageType (h.btokup (b.ptr - b.ptr % pageSize)) ≠ pageTypeLarge) :
      IsZone h live (zoneOf h b.ptr)

/-- The chunks on the list `z_freechunk`: as many as `z_nfree` counts besides the chunks behind
    `z_uindex`. -/
def freeChunks (h : Heap) (z : Nat) : List Nat :=
  walk h.get64 (h.get64 (z + zFreechunk))
    (h.get32 (z + zNfree) - (h.get32 (z + zNmax) - 1 - h.get32 (z + zUindex)))

/-- The live blocks are apart from each other and from the data of the allocator. -/
structure HeapSafe (h : Heap) (live : List Block) : Prop where
  disjoint : live.Pairwise Block.Disjoint
  inside : ∀ b ∈ live, h.sysMemStart ≤ b.ptr ∧
    b.ptr + b.size ≤ h.sysMemStart + numPages h * pageSize
  headers : ∀ b ∈ live, ∀ z, IsZone h live z → b.Disjoint ⟨z, slabZoneSize⟩
  table : ∀ b ∈ live, b.Disjoint ⟨h.sysMemUsage, memUsageSize * numPages h⟩
  pages : ∀ b ∈ live, ∀ q, OnList h.pageNext h.sysPageList q →
    b.Disjoint ⟨q, h.pageCount q * pageSize⟩
  chunks : ∀ b ∈ live, ∀ z, IsZone h live z → ∀ c ∈ freeChunks h z,
    b.Disjoint ⟨c, h.get32 (z + zChunksize)⟩

/-! ## Runs -/

/-- The heap and the live blocks, with the sizes that were requested. -/
structure SlabSys where
  heap : Heap
  live : List Block

/-- A call, or a write of a client. -/
inductive SlabOp where
  | malloc (size : Nat)
  | free (p : Nat)
  | write (a : Nat) (v : UInt8)

namespace SlabSys

/-- Calls have arguments of their types, only live blocks are freed, and clients write into live
    blocks only. -/
def Called (x : SlabSys) : SlabOp → Prop
  | .malloc size => size < 2 ^ 64
  | .free p => ∃ b ∈ x.live, b.ptr = p
  | .write a _ => ∃ b ∈ x.live, b.Contains a

instance (x : SlabSys) (e : SlabOp) : Decidable (x.Called e) := by
  cases e <;> unfold Called <;> infer_instance

/-- The lists of the allocator are never longer. -/
def fuel (x : SlabSys) : Nat := numPages x.heap + 2

theorem one_lt_fuel (x : SlabSys) : 1 < x.fuel := by
  unfold fuel
  omega

/-- The effect of an operation. -/
def exec (x : SlabSys) : SlabOp → Option SlabSys
  | .malloc size => (skMalloc x.fuel x.heap size).map fun r =>
      { heap := r.2, live := if r.1 = 0 then x.live else ⟨r.1, size⟩ :: x.live }
  | .free p => (skFree x.fuel x.heap p).map fun h =>
      { heap := h, live := SlabInv.without x.live p }
  | .write a v => some { x with heap := { x.heap with mem := Function.update x.heap.mem a v } }

/-- The calls that meet neither of the defects. -/
def Sound (x : SlabSys) : SlabOp → Prop
  | .malloc size => SlabInv.MallocSound x.heap size
  | .free p => SlabInv.FreeSound x.heap p
  | .write _ _ => True

instance (x : SlabSys) (e : SlabOp) : Decidable (x.Sound e) := by
  cases e <;> unfold Sound <;> infer_instance

/-- The calls that do not meet the first defect. -/
def MallocsFit (x : SlabSys) : SlabOp → Prop
  | .malloc size => SlabInv.MallocSound x.heap size
  | .free _ => True
  | .write _ _ => True

instance (x : SlabSys) (e : SlabOp) : Decidable (x.MallocsFit e) := by
  cases e <;> unfold MallocsFit <;> infer_instance

end SlabSys

/-- The static variables before `sk_system_mem_init`. -/
structure ColdHeap (h : Heap) : Prop where
  array : h.sysZoneArray = fun _ => 0
  zones : h.sysZoneFree = 0
  cnt : h.sysZoneFreeCnt = 0

/-- The heap as a transition system. -/
def slabSystem : TransitionSystem SlabSys SlabOp where
  init := fun x => x.live = [] ∧ ∃ fuel h0 beginAddr endAddr, ColdHeap h0 ∧
    skSystemMemInit fuel h0 beginAddr endAddr = some (.eok, x.heap)
  step := fun x e => if x.Called e then x.exec e else none

/-! ## Safety of a layout -/

variable {fit : Prop} {G : Geometry} {L : Layout G.zoneSize} {h : Heap} {live : List Block}
  {b c : Block} {i j n p x z a fuel beginAddr endAddr : Nat} {e : SlabOp}

namespace SlabInv

theorem isZone (hinv : SlabInv fit G L h live) (hz : IsZone h live p) :
    ∃ z, p = G.addr z ∧ L.use z = .zone z := by
  cases hz with
  | array index hon =>
    obtain ⟨z, hz, hzp⟩ := List.mem_map.mp ((Linked.onList_iff (hinv.array index)).mp hon)
    exact ⟨z, hzp.symm, ((hinv.array_mem index z).mp hz).1⟩
  | free hon =>
    obtain ⟨z, hz, hzp⟩ := List.mem_map.mp ((Linked.onList_iff hinv.freeZones).mp hon)
    exact ⟨z, hzp.symm, (hinv.freeZones_mem z hz).1⟩
  | @chunk b hb htype =>
    cases hinv.placed b hb with
    | large i n hn hptr hsize huse hentry =>
      rw [hptr, hinv.usageType_large hn huse hentry] at htype
      exact absurd rfl htype
    | small z j hz hused hptr hsize =>
      refine ⟨z, ?_, hz⟩
      rw [hptr]
      exact hinv.zoneOf_chunk hz hused.1

theorem freeChunks_zone (hinv : SlabInv fit G L h live) (hz : L.use z = .zone z) :
    freeChunks h (G.addr z) = (L.zone z).free.map ((L.zone z).chunkAddr (G.addr z)) := by
  have hmem := hinv.zones z hz
  have hlen : (L.zone z).nfree - ((L.zone z).nmax - 1 - (L.zone z).uindex) =
      ((L.zone z).free.map ((L.zone z).chunkAddr (G.addr z))).length := by
    unfold Zone.nfree
    rw [length_map]
    omega
  unfold freeChunks Heap.get32
  rw [hmem.nfree, hmem.nmax, hmem.uindex, hlen]
  exact hmem.chunks.walk

variable (hinv : SlabInv True G L h live)
include hinv

section

variable (hb : b ∈ live)
include hb

theorem block_owner (hx : b.Contains x) :
    G.start ≤ x ∧ ((∃ i, L.use (G.page x) = .large i ∧ b.ptr = G.addr i) ∨
      ∃ z j, L.use (G.page x) = .zone z ∧ L.use z = .zone z ∧ (L.zone z).Used j ∧
        b.ptr = (L.zone z).chunkAddr (G.addr z) j ∧ b.size ≤ (L.zone z).chunk) := by
  obtain ⟨hle, hlt⟩ := hx
  cases hinv.placed b hb with
  | large i n hn hptr hsize huse hentry =>
    obtain ⟨hstart, howner⟩ := large_owner (G := G) (L := L) (x := x) huse (by omega) (by omega)
    exact ⟨hstart, .inl ⟨i, howner, hptr⟩⟩
  | small z j hz hused hptr hsize =>
    have hfits := hsize.2 trivial
    obtain ⟨hstart, howner⟩ := hinv.chunk_owner (x := x) trivial hz hused.1 (by omega) (by omega)
    exact ⟨hstart, .inr ⟨z, j, howner, hz, hused, hptr, hfits⟩⟩

theorem block_page_ne (hx : b.Contains x) :
    L.use (G.page x) ≠ .table ∧ L.use (G.page x) ≠ .free := by
  obtain ⟨i, hi, -⟩ | ⟨z, j, hz, -⟩ := (hinv.block_owner hb hx).2
  · simp [hi]
  · simp [hz]

theorem block_in_zone (hx : b.Contains x)
    (hz : L.use (G.page x) = .zone z) : ∃ j, (L.zone z).Used j ∧
      b.ptr = (L.zone z).chunkAddr (G.addr z) j ∧ b.size ≤ (L.zone z).chunk := by
  obtain ⟨i, hi, -⟩ | ⟨y, j, hy, -, hused, hptr, hsize⟩ := (hinv.block_owner hb hx).2
  · rw [hz] at hi
    cases hi
  · rw [hz] at hy
    cases hy
    exact ⟨j, hused, hptr, hsize⟩

theorem disjoint_of_ne (hc : c ∈ live) (hne : b.ptr ≠ c.ptr) : b.Disjoint c := by
  intro x hxb hxc
  obtain ⟨i, hi, hptr⟩ | ⟨z, j, hz, hzone, hused, hptr, hsize⟩ := (hinv.block_owner hb hxb).2
  · -- the page belongs to a large block, which is both of them
    obtain ⟨k, hk, hptr'⟩ | ⟨z, j, hz, -⟩ := (hinv.block_owner hc hxc).2
    · rw [hi] at hk
      cases hk
      exact hne (hptr.trans hptr'.symm)
    · rw [hi] at hz
      cases hz
  · -- the page belongs to a zone, of which both are chunks
    obtain ⟨j', hused', hptr', hsize'⟩ := hinv.block_in_zone hc hxc hz
    have hjj : j ≠ j' := by
      intro heq
      rw [heq] at hptr
      exact hne (hptr.trans hptr'.symm)
    have hapart := Zone.chunk_apart (hinv.exact trivial z hzone) (G.addr z) hused.1 hused'.1 hjj
    unfold Block.Contains at hxb hxc
    omega

theorem block_inside : G.start ≤ b.ptr ∧ b.ptr + b.size ≤ G.start + G.npages * pageSize := by
  cases hinv.placed b hb with
  | large i n hn hptr hsize huse hentry =>
    have hlast := hinv.inside (i + n - 1) (by simp [huse (i + n - 1) (by omega) (by omega)])
    have hmul := Nat.mul_le_mul_right pageSize (show i + n ≤ G.npages by omega)
    rw [Nat.add_mul] at hmul
    rw [hptr, Geometry.addr_eq]
    omega
  | small z j hz hused hptr hsize =>
    have hbounds := (L.zone z).chunkAddr_bounds (G.addr z) (Zone.lt_nmax hused.1)
    have hend := Zone.chunk_end_le (hinv.exact trivial z hz) (G.addr z) hused.1
    have hfits := hsize.2 trivial
    have hmul := Nat.mul_le_mul_right pageSize (hinv.zone_inside hz)
    have hzone : G.zoneSize = G.zonePages * pageSize := rfl
    have haddr := G.addr_eq z
    rw [Nat.add_mul] at hmul
    omega

theorem disjoint_header (hz : L.use z = .zone z) : b.Disjoint ⟨G.addr z, slabZoneSize⟩ := by
  intro x hxb hxz
  have hheader := header_le (L.zone z)
  unfold Block.Contains at hxz
  dsimp only at hxz
  have howner := (hinv.zone_owner (x := x) hz (by omega) (by omega)).2
  obtain ⟨j, hused, hptr, -⟩ := hinv.block_in_zone hb hxb howner
  have hbounds := (L.zone z).chunkAddr_bounds (G.addr z) (Zone.lt_nmax hused.1)
  unfold Block.Contains at hxb
  omega

theorem disjoint_freeChunk (hz : L.use z = .zone z) {k : Nat} (hk : k ∈ (L.zone z).free) :
    b.Disjoint ⟨(L.zone z).chunkAddr (G.addr z) k, (L.zone z).chunk⟩ := by
  intro x hxb hxk
  have howner := (hinv.chunk_owner trivial hz ((L.zone z).free_le k hk) hxk.1 hxk.2).2
  obtain ⟨j, hused, hptr, hfit⟩ := hinv.block_in_zone hb hxb howner
  have hkj : k ≠ j := by
    intro heq
    rw [heq] at hk
    exact hused.2 hk
  have hapart := Zone.chunk_apart (hinv.exact trivial z hz) (G.addr z) ((L.zone z).free_le k hk)
    hused.1 hkj
  unfold Block.Contains at hxb hxk
  dsimp only at hxk
  omega

end

/-- A layout is safe. -/
theorem heapSafe : HeapSafe h live where
  disjoint := by
    have hpair := hinv.nodup
    unfold List.Nodup at hpair
    rw [pairwise_map] at hpair
    apply hpair.imp_of_mem
    intro b c hb hc hne
    exact hinv.disjoint_of_ne hb hc hne
  inside := by
    intro b hb
    rw [hinv.fits.start, hinv.fits.npages]
    exact hinv.block_inside hb
  headers := by
    intro b hb p hp
    obtain ⟨z, rfl, hz⟩ := hinv.isZone hp
    exact hinv.disjoint_header hb hz
  table := by
    intro b hb x hxb hxt
    rw [hinv.fits.usage, hinv.fits.npages] at hxt
    exact (hinv.block_page_ne hb hxb).1 (hinv.table x hxt.1 hxt.2).2
  pages := by
    intro b hb q hq x hxb hxq
    obtain ⟨-, l, hruns, hch⟩ := hinv.free
    obtain ⟨r, hr, hrq⟩ := List.mem_map.mp ((hch.linked G.area).onList_iff.mp hq)
    subst hrq
    rw [hch.count hr] at hxq
    -- the address lies in one of the runs of free pages
    obtain ⟨-, hpage⟩ := Geometry.page_of_mem hxq.1 hxq.2
    exact (hinv.block_page_ne hb hxb).2 ((hruns.mem _).mpr ⟨r, hr, hpage.1, hpage.2⟩)
  chunks := by
    intro b hb p hp c hc
    obtain ⟨z, rfl, hz⟩ := hinv.isZone hp
    rw [hinv.freeChunks_zone hz] at hc
    obtain ⟨k, hk, rfl⟩ := List.mem_map.mp hc
    have hsize : h.get32 (G.addr z + zChunksize) = (L.zone z).chunk := (hinv.zones z hz).chunksize
    rw [hsize]
    exact hinv.disjoint_freeChunk hb hz hk

end SlabInv

/-! ## Initialisation -/

/-- A heap without a page to give: it starts at NULL, or holds no page. -/
structure DeadHeap (h : Heap) : Prop where
  array : h.sysZoneArray = fun _ => 0
  zones : h.sysZoneFree = 0
  limit : h.sysZoneLimit = 8192 ∨ h.sysZoneLimit = 16384
  zoneSize : 0 < h.sysZoneSize / pageSize
  alloc : ∀ fuel n, 1 < fuel → 0 < n → skPageAlloc fuel h n = some (0, h)
  pages : ∀ a, ¬ListedPage h a

/-- The zone sizes that `sk_system_mem_init` chooses. -/
theorem zoneSizeLoop_cases (limitSize : Nat) :
    zoneSizeLoop limitSize 2 allocMinZoneSize = 32768 ∨
    zoneSizeLoop limitSize 2 allocMinZoneSize = 65536 ∨
    zoneSizeLoop limitSize 2 allocMinZoneSize = 131072 := by
  unfold zoneSizeLoop
  split
  · unfold zoneSizeLoop
    split
    · exact .inr (.inr rfl)
    · exact .inr (.inl rfl)
  · exact .inl rfl

theorem skAlign_page (a : Nat) :
    skAlign a pageSize % pageSize = 0 ∧ skAlign a pageSize + pageSize ≤ 2 ^ 64 := by
  have heq := skAlign_two_pow a (k := 12) (by decide)
  have hlt : (a + 2 ^ 12 - 1) % 2 ^ 64 < 2 ^ 64 := Nat.mod_lt _ (by decide)
  unfold pageSize
  rw [show (4096 : Nat) = 2 ^ 12 from rfl, heq]
  omega

/-- The layout of a fresh heap: the usage table, and free pages. -/
def freshLayout (G : Geometry) (a n : Nat) : Layout G.zoneSize where
  use := fun k => if a ≤ k ∧ k < a + n then .table else if k < G.npages then .free else .outside
  zone := fun _ => Zone.create G.zoneSize 0 8 G.zoneSize_le (by decide) (Nat.le_refl 8)
    (.inl rfl) (by
    have := G.sizes
    have := zoneOffset_bounds (Nat.le_refl 8) (by decide)
    unfold Geometry.zoneSize pageSize
    unfold slabZoneSize at this
    omega)
  array := fun _ => []
  freeZones := []

theorem freshLayout_free {k : Nat} :
    (freshLayout G a n).use k = .free ↔ k < G.npages ∧ ¬(a ≤ k ∧ k < a + n) := by
  unfold freshLayout
  dsimp only
  split
  · rename_i hk
    simp [hk]
  · rename_i hk
    split
    · rename_i hlt
      exact ⟨fun _ => ⟨hlt, hk⟩, fun _ => rfl⟩
    · rename_i hlt
      simp [hlt]

theorem freshLayout_not_zone (k z : Nat) : (freshLayout G a n).use k ≠ .zone z := by
  unfold freshLayout
  dsimp only
  split
  · simp
  · split <;> simp

/-- A fresh heap has this layout. -/
theorem SlabInv.fresh (hfits : G.Fits h)
    (htable : ∀ x, G.usage ≤ x → x < G.entry G.npages → G.addr a ≤ x ∧ x < G.addr a + n * pageSize)
    (hle : a + n ≤ G.npages)
    (hlist : PageList G.start G.npages (Set.Iio G.npages \ Set.Ico a (a + n)) h)
    (harray : h.sysZoneArray = fun _ => 0) (hzones : h.sysZoneFree = 0)
    (hcnt : h.sysZoneFreeCnt = 0) : SlabInv fit G (freshLayout G a n) h [] := by
  have hnot : ∀ i z, (freshLayout G a n).use i ≠ .zone z := freshLayout_not_zone
  exact {
    fits := hfits
    inside := by
      intro i hi
      unfold freshLayout at hi
      dsimp only at hi
      split at hi
      · omega
      · split at hi
        · assumption
        · exact absurd rfl hi
    table := by
      intro x hx hxlt
      obtain ⟨hxle, hxend⟩ := htable x hx hxlt
      obtain ⟨hstart, hpage⟩ := Geometry.page_of_mem hxle hxend
      exact ⟨hstart, if_pos hpage⟩
    free := by
      have hset : {i | (freshLayout G a n).use i = .free} =
          Set.Iio G.npages \ Set.Ico a (a + n) := by
        ext k
        exact freshLayout_free
      rw [hset]
      exact hlist
    zone_iff := by
      intro i z
      exact ⟨fun hi => absurd hi (hnot i z), fun hi => absurd hi.1 (hnot z z)⟩
    usage := fun i z hi => absurd hi (hnot i z)
    zones := fun z hz => absurd hz (hnot z z)
    array := by
      intro index
      rw [harray]
      rfl
    array_mem := by
      intro index z
      exact ⟨fun hz => absurd hz not_mem_nil, fun hz => absurd hz.1 (hnot z z)⟩
    freeZones := hzones
    freeZones_mem := fun z hz => absurd hz not_mem_nil
    freeCnt := hcnt
    placed := fun b hb => absurd hb not_mem_nil
    nodup := nodup_nil
    exact := fun _ z hz => absurd hz (hnot z z) }

/-- The constants of a heap that has pages. -/
def freshGeometry (start npages usage zoneSize : Nat) (area : PageArea start npages)
    (aligned : start % pageSize = 0) (hlt : npages < 2 ^ 20)
    (hsize : zoneSize = 32768 ∨ zoneSize = 65536 ∨ zoneSize = 131072) : Geometry where
  start := start
  npages := npages
  usage := usage
  zonePages := zoneSize / pageSize
  limit := if zoneSize / 4 > zoneLimit then zoneLimit else zoneSize / 4
  area := area
  aligned := aligned
  npages_lt := hlt
  sizes := by
    unfold zoneLimit pageSize
    split <;> omega

/-- `sk_system_mem_init` up to the usage table. -/
def initPages (h0 : Heap) (start last numPages zoneSize : Nat) : Heap :=
  { skPageInit { h0 with sysMemStart := start, sysMemEnd := last } start numPages with
    sysZoneSize := zoneSize
    sysZoneLimit := if zoneSize / 4 > zoneLimit then zoneLimit else zoneSize / 4
    sysZonePageCnt := zoneSize / pageSize }

theorem skSystemMemInit_eq {h0 h : Heap}
    (hinit : skSystemMemInit fuel h0 beginAddr endAddr = some (.eok, h)) :
    ∃ start last zoneSize r, start % pageSize = 0 ∧ start ≤ last ∧ last < 2 ^ 64 ∧
      (zoneSize = 32768 ∨ zoneSize = 65536 ∨ zoneSize = 131072) ∧
      skPageAlloc fuel (initPages h0 start last ((last - start) % 2 ^ 32 / pageSize) zoneSize)
        (skAlign ((last - start) % 2 ^ 32 / pageSize * memUsageSize) pageSize / pageSize) = some r ∧
      h = { r.2 with sysMemUsage := r.1 } := by
  have hstart := skAlign_page beginAddr
  have hlast := skAlign_page endAddr
  unfold skSystemMemInit at hinit
  dsimp only at hinit
  split at hinit
  · cases hinit
  · rename_i hle
    obtain ⟨r, hrun, heq⟩ := Option.map_eq_some_iff.mp hinit
    simp only [Prod.mk.injEq, true_and] at heq
    refine ⟨_, _, _, r, hstart.1, by omega, ?_, zoneSizeLoop_cases _, hrun, heq.symm⟩
    have hpos : 0 < pageSize := by decide
    omega

theorem skPageAlloc_null (hlist : h.sysPageList = 0) (hfuel : 0 < fuel) :
    skPageAlloc fuel h n = some (0, h) := by
  obtain ⟨fuel, rfl⟩ := Nat.exists_eq_succ_of_ne_zero (Nat.ne_of_gt hfuel)
  unfold skPageAlloc
  split
  · rfl
  · unfold pageAllocLoop PageCell.get
    dsimp only
    rw [hlist, if_pos rfl]

/-- One page head without pages: no allocation. -/
theorem skPageAlloc_empty (hlist : h.sysPageList ≠ 0) (hcount : h.pageCount h.sysPageList = 0)
    (hnext : h.pageNext h.sysPageList = 0) (hfuel : 1 < fuel) (hn : 0 < n) :
    skPageAlloc fuel h n = some (0, h) := by
  obtain ⟨fuel, rfl⟩ := Nat.exists_eq_add_of_le' (show 2 ≤ fuel from hfuel)
  unfold skPageAlloc
  rw [if_neg (by omega)]
  unfold pageAllocLoop PageCell.get
  dsimp only
  rw [if_neg hlist, hcount, if_neg (by omega), if_neg (by omega)]
  unfold pageAllocLoop PageCell.get
  dsimp only
  rw [hnext, if_pos rfl]

variable {h0 : Heap} {start last npages zoneSize fuel : Nat}

/-- The page head of a heap without pages. -/
theorem initPages_empty (h0 : Heap) (start last zoneSize usage : Nat) (hnone : npages = 0) :
    Heap.pageCount { initPages h0 start last npages zoneSize with sysMemUsage := usage } start = 0 ∧
      Heap.pageNext { initPages h0 start last npages zoneSize with sysMemUsage := usage } start =
        0 := by
  subst hnone
  constructor
  · show load (store (store h0.mem 8 (start + 8) 0) 8 start 0) 8 (start + 8) = 0
    rw [load_store_of_disjoint (by omega), load_store, Nat.zero_mod]
  · show load (store (store h0.mem 8 (start + 8) 0) 8 start 0) 8 start = 0
    rw [load_store, Nat.zero_mod]

theorem initPages_dead (hcold : ColdHeap h0)
    (hsize : zoneSize = 32768 ∨ zoneSize = 65536 ∨ zoneSize = 131072)
    (hdead : start = 0 ∨ npages = 0) (usage : Nat) :
    DeadHeap { initPages h0 start last npages zoneSize with sysMemUsage := usage } where
  array := hcold.array
  zones := hcold.zones
  limit := by
    show (if zoneSize / 4 > zoneLimit then zoneLimit else zoneSize / 4) = 8192 ∨
      (if zoneSize / 4 > zoneLimit then zoneLimit else zoneSize / 4) = 16384
    unfold zoneLimit
    split <;> omega
  zoneSize := by
    show 0 < zoneSize / pageSize
    unfold pageSize
    omega
  alloc := by
    intro fuel n hfuel hn
    by_cases hstart : start = 0
    · exact skPageAlloc_null hstart (by omega)
    · have hempty := initPages_empty h0 start last zoneSize usage (hdead.resolve_left hstart)
      exact skPageAlloc_empty hstart hempty.1 hempty.2 hfuel hn
  pages := by
    rintro a ⟨b, hon, i, hi, -⟩
    by_cases hstart : start = 0
    · rw [show Heap.sysPageList _ = 0 from hstart] at hon
      exact not_onList_zero hon
    · have hempty := initPages_empty h0 start last zoneSize usage (hdead.resolve_left hstart)
      cases hon with
      | head _ =>
        rw [show Heap.sysPageList _ = start from rfl, hempty.1] at hi
        exact absurd hi (Nat.not_lt_zero i)
      | next _ hon =>
        rw [show Heap.sysPageList _ = start from rfl, hempty.2] at hon
        exact not_onList_zero hon

theorem initPages_list (area : PageArea start npages) (hpos : 0 < npages) :
    PageList start npages (Set.Iio npages) (initPages h0 start last npages zoneSize) :=
  (PageList.init area hpos _).congr (fun _ _ _ _ _ => rfl) rfl

theorem skSystemMemInit_cases (hcold : ColdHeap h0)
    (hinit : skSystemMemInit fuel h0 beginAddr endAddr = some (.eok, h)) :
    (∃ (G : Geometry) (a n : Nat), SlabInv fit G (freshLayout G a n) h []) ∨
      DeadHeap h ∧ h.sysZoneFreeCnt = 0 := by
  obtain ⟨start, last, zoneSize, r, haligned, hle, hlast, hsize, hrun, heq⟩ :=
    skSystemMemInit_eq hinit
  generalize hnp : (last - start) % 2 ^ 32 / pageSize = npages at hrun
  by_cases hdead : start = 0 ∨ npages = 0
  · -- no pages are taken for the usage table
    right
    have hr : r = (0, initPages h0 start last npages zoneSize) := by
      unfold skPageAlloc at hrun
      split at hrun
      · cases hrun
        rfl
      · rename_i htable
        have hstart : start = 0 := by
          refine hdead.resolve_right fun hnone => htable ?_
          rw [hnone]
          decide
        cases fuel with
        | zero => cases hrun
        | succ fuel =>
          unfold pageAllocLoop PageCell.get at hrun
          rw [if_pos (show (initPages h0 start last npages zoneSize).sysPageList = 0 from hstart)]
            at hrun
          cases hrun
          exact Prod.ext hstart rfl
    rw [heq, hr]
    exact ⟨initPages_dead hcold hsize hdead 0, hcold.cnt⟩
  · left
    have hpos : 0 < npages := by omega
    have hmod : (last - start) % 2 ^ 32 ≤ last - start := Nat.mod_le ..
    have hlt : (last - start) % 2 ^ 32 < 2 ^ 32 := Nat.mod_lt _ (by decide)
    have hdiv : npages * pageSize ≤ (last - start) % 2 ^ 32 := by
      rw [← hnp]
      exact Nat.div_mul_le_self ..
    have area : PageArea start npages := ⟨by omega, by omega⟩
    have hmax : npages < 2 ^ 20 := by
      unfold pageSize at hdiv
      omega
    -- the pages of the usage table
    have htable : skAlign (npages * memUsageSize) pageSize / pageSize =
        (npages * 4 + 4095) / 4096 := by
      rw [show pageSize = 2 ^ 12 from rfl, skAlign_two_pow _ (by decide),
        Nat.mul_div_cancel _ (by decide)]
      unfold memUsageSize
      omega
    rw [htable] at hrun
    generalize hn : (npages * 4 + 4095) / 4096 = n at hrun
    have hpages : PageList start npages (Set.Iio npages)
        (initPages h0 start last npages zoneSize) := initPages_list area hpos
    cases hpages.alloc area (n := n) (by omega) with
    | inl hnone =>
      exact absurd ⟨0, fun i _ hi => show i < npages by omega⟩ hnone.2
    | inr hsome =>
      obtain ⟨a, h', halloc, hin, hlist, hframe⟩ := hsome
      have hr := skPageAlloc_unique hrun (halloc (npages + 1) (by omega))
      have hlast' : a + n - 1 < npages := hin (a + n - 1) (by omega) (by omega)
      let G := freshGeometry start npages (pageAddr start a) zoneSize area haligned hmax hsize
      refine ⟨G, a, n, ?_⟩
      rw [heq, hr]
      refine SlabInv.fresh ?_ ?_ (show a + n ≤ npages by omega) ?_ ?_ ?_ ?_
      · dsimp only
        rw [hframe.rest]
        refine ⟨rfl, hnp, rfl, ?_, rfl, rfl⟩
        show zoneSize = zoneSize / pageSize * pageSize
        unfold pageSize
        omega
      · intro x hx hxlt
        have hx' : x < pageAddr start a + memUsageSize * npages := hxlt
        refine ⟨hx, Nat.lt_of_lt_of_le hx' (Nat.add_le_add_left ?_ _)⟩
        unfold memUsageSize pageSize
        omega
      · exact hlist.congr (fun _ _ _ _ _ => rfl) rfl
      · dsimp only
        rw [hframe.rest]
        exact hcold.array
      · dsimp only
        rw [hframe.rest]
        exact hcold.zones
      · dsimp only
        rw [hframe.rest]
        exact hcold.cnt

/-! ## Runs -/

/-- What holds in every state of a run. -/
def SlabSys.Inv (x : SlabSys) : Prop :=
  (∃ (G : Geometry) (L : Layout G.zoneSize), SlabInv True G L x.heap x.live) ∨
    DeadHeap x.heap ∧ x.live = []

namespace DeadHeap

/-- A heap without a page to give refuses every request. -/
theorem malloc (hdead : DeadHeap h) {size : Nat} (hfuel : 1 < fuel) :
    skMalloc fuel h size = some (0, h) := by
  have hlimit := hdead.limit
  unfold skMalloc
  split
  · rfl
  · rename_i hpos
    split
    · dsimp only
      by_cases hn : skAlign size pageSize >>> pageShift = 0
      · rw [hn]
        rfl
      · rw [hdead.alloc fuel _ hfuel (Nat.pos_of_ne_zero hn)]
        rfl
    · have hlt : size < h.sysZoneLimit := by omega
      obtain ⟨index, chunk, hzone, -⟩ := zoneIndex_bounds hlimit (by omega) hlt
      rw [hzone]
      dsimp only
      rw [hdead.array, if_neg (fun hne => hne rfl)]
      unfold newZone
      dsimp only
      rw [hdead.zones, if_neg (by decide), hdead.alloc fuel _ hfuel hdead.zoneSize]
      rfl

theorem not_isZone (hdead : DeadHeap h) (z : Nat) : ¬IsZone h [] z := by
  intro hz
  cases hz with
  | array index hon =>
    rw [hdead.array] at hon
    exact not_onList_zero hon
  | free hon =>
    rw [hdead.zones] at hon
    exact not_onList_zero hon
  | chunk hb _ => cases hb

end DeadHeap

/-- Every operation on it leaves it as it is. -/
theorem DeadHeap.exec {x : SlabSys} (hdead : DeadHeap x.heap) (hlive : x.live = [])
    (hcalled : x.Called e) : x.exec e = some x := by
  cases e with
  | malloc size =>
    show (skMalloc x.fuel x.heap size).map _ = _
    rw [hdead.malloc x.one_lt_fuel]
    rfl
  | free | write =>
    obtain ⟨b, hb, -⟩ := hcalled
    rw [hlive] at hb
    cases hb

/-- What an operation on the heap `h` does to the zones. -/
inductive SlabEffect (fit : Prop) (G : Geometry) (L L' : Layout G.zoneSize) (h : Heap) :
    SlabOp → Prop where
  | malloc {fuel size p : Nat} {h' : Heap}
      (heffect : SlabInv.MallocEffect fit G L L' fuel h h' size p) :
      SlabEffect fit G L L' h (.malloc size)
  | free {p : Nat} (heffect : SlabInv.FreeEffect G L L' h p) : SlabEffect fit G L L' h (.free p)
  | write {a : Nat} {v : UInt8} (hsame : L.SameZones L') : SlabEffect fit G L L' h (.write a v)

/-- The calls that keep a layout. When chunks may overlap, writes are left out. -/
def SlabSys.Keeps (fit : Prop) (x : SlabSys) : SlabOp → Prop
  | .malloc size => fit → SlabInv.MallocSound x.heap size
  | .free p => SlabInv.FreeSound x.heap p
  | .write _ _ => fit

instance (fit : Prop) [Decidable fit] (x : SlabSys) (e : SlabOp) : Decidable (x.Keeps fit e) := by
  cases e <;> unfold SlabSys.Keeps <;> infer_instance

theorem SlabSys.Sound.keeps {x : SlabSys} (hsound : x.Sound e) : x.Keeps True e := by
  cases e with
  | malloc size => exact fun _ => hsound
  | free p => exact hsound
  | write a v => trivial

theorem SlabInv.npages_lt_fuel {x : SlabSys} (hslab : SlabInv fit G L x.heap x.live) :
    G.npages < x.fuel := by
  have := hslab.fits.npages
  unfold SlabSys.fuel
  omega

/-- Each of these calls returns. -/
theorem SlabInv.exec {x : SlabSys} (hslab : SlabInv fit G L x.heap x.live) (hcalled : x.Called e)
    (hkeeps : x.Keeps fit e) :
    ∃ x' L', x.exec e = some x' ∧ SlabInv fit G L' x'.heap x'.live ∧
      SlabEffect fit G L L' x.heap e := by
  have hfuel := hslab.npages_lt_fuel
  cases e with
  | malloc size =>
    obtain ⟨p, h', L', hrun, hslab', heffect⟩ := hslab.malloc_returns hfuel hcalled hkeeps
    refine ⟨⟨h', if p = 0 then x.live else ⟨p, size⟩ :: x.live⟩, L', ?_, hslab', .malloc heffect⟩
    show (skMalloc x.fuel x.heap size).map _ = _
    rw [hrun]
    rfl
  | free p =>
    obtain ⟨b, hb, hptr⟩ := hcalled
    subst hptr
    obtain ⟨h', L', hrun, hslab', heffect⟩ := hslab.free_returns hfuel hb hkeeps
    refine ⟨⟨h', SlabInv.without x.live b.ptr⟩, L', ?_, hslab', .free heffect⟩
    show (skFree x.fuel x.heap b.ptr).map _ = _
    rw [hrun]
    rfl
  | write a v =>
    obtain ⟨b, hb, hle, hlt⟩ := hcalled
    obtain ⟨L', hslab', hsame⟩ := hslab.write hkeeps hb hle hlt v
    exact ⟨_, L', rfl, hslab', .write hsame⟩

theorem layout_of_reach {guard : SlabSys → SlabOp → Prop}
    {P : (G : Geometry) → Layout G.zoneSize → Prop} (hfresh : ∀ G a n, P G (freshLayout G a n))
    (hkeeps : ∀ (G : Geometry) (L : Layout G.zoneSize) (x : SlabSys) (e : SlabOp),
      SlabInv fit G L x.heap x.live → P G L → guard x e → x.Keeps fit e)
    (hkeep : ∀ (G : Geometry) (L L' : Layout G.zoneSize) (x : SlabSys) (e : SlabOp),
      SlabInv fit G L x.heap x.live → P G L → guard x e → SlabEffect fit G L L' x.heap e → P G L')
    {x : SlabSys} (h : slabSystem.Reach guard x) :
    (∃ (G : Geometry) (L : Layout G.zoneSize), SlabInv fit G L x.heap x.live ∧ P G L) ∨
      DeadHeap x.heap ∧ x.live = [] ∧ x.heap.sysZoneFreeCnt = 0 := by
  induction h with
  | init hinit =>
    obtain ⟨hlive, fuel, h0, beginAddr, endAddr, hcold, hrun⟩ := hinit
    rw [hlive]
    cases skSystemMemInit_cases hcold hrun with
    | inl hlayout =>
      obtain ⟨G, a, n, hslab⟩ := hlayout
      exact .inl ⟨G, _, hslab, hfresh G a n⟩
    | inr hdead => exact .inr ⟨hdead.1, rfl, hdead.2⟩
  | step e _ hguard hstep ih =>
    obtain ⟨hcalled, hexec⟩ := Option.ite_none_right_eq_some.mp hstep
    cases ih with
    | inl hlayout =>
      obtain ⟨G, L, hslab, hP⟩ := hlayout
      obtain ⟨x', L', hexec', hslab', heffect⟩ :=
        hslab.exec hcalled (hkeeps G L _ e hslab hP hguard)
      rw [hexec'] at hexec
      cases hexec
      exact .inl ⟨G, L', hslab', hkeep G L L' _ e hslab hP hguard heffect⟩
    | inr hdead =>
      rw [hdead.1.exec hdead.2.1 hcalled] at hexec
      cases hexec
      exact .inr hdead

theorem slabInv_of_reach {x : SlabSys} (h : slabSystem.Reach (SlabSys.Keeps fit) x) :
    (∃ (G : Geometry) (L : Layout G.zoneSize), SlabInv fit G L x.heap x.live) ∨
      DeadHeap x.heap ∧ x.live = [] := by
  have hlayout := layout_of_reach (P := fun _ _ => True) (fun _ _ _ => trivial)
    (fun _ _ _ _ _ _ hkeeps => hkeeps) (fun _ _ _ _ _ _ _ _ _ => trivial) h
  cases hlayout with
  | inl hslab =>
    obtain ⟨G, L, hslab, -⟩ := hslab
    exact .inl ⟨G, L, hslab⟩
  | inr hdead => exact .inr ⟨hdead.1, hdead.2.1⟩

namespace SlabSys.Inv

theorem heapSafe {x : SlabSys} (hinv : x.Inv) : HeapSafe x.heap x.live := by
  cases hinv with
  | inl hlayout =>
    obtain ⟨G, L, hslab⟩ := hlayout
    exact hslab.heapSafe
  | inr hdead =>
    rw [hdead.2]
    exact ⟨List.Pairwise.nil, fun b hb => absurd hb not_mem_nil,
      fun b hb => absurd hb not_mem_nil, fun b hb => absurd hb not_mem_nil,
      fun b hb => absurd hb not_mem_nil, fun b hb => absurd hb not_mem_nil⟩

/-- Every call that meets neither defect returns. -/
theorem exec {x : SlabSys} (hinv : x.Inv) (hcalled : x.Called e) (hsound : x.Sound e) :
    ∃ x', x.exec e = some x' := by
  cases hinv with
  | inl hlayout =>
    obtain ⟨G, L, hslab⟩ := hlayout
    obtain ⟨x', -, hexec, -⟩ := hslab.exec hcalled hsound.keeps
    exact ⟨x', hexec⟩
  | inr hdead => exact ⟨x, hdead.1.exec hdead.2 hcalled⟩

theorem of_reach {x : SlabSys} (h : slabSystem.Reach SlabSys.Sound x) : x.Inv :=
  slabInv_of_reach (h.mono fun _ _ hsound => hsound.keeps)

end SlabSys.Inv

/-- **Safety of the heap.** In every state reached from an accepted heap by calls that meet
    neither defect, the live blocks are disjoint, inside the managed pages, and apart from the
    zone headers, the usage table, the free pages and the free chunks. And every such call
    returns. -/
theorem slab_safety {x : SlabSys} (h : slabSystem.Reach SlabSys.Sound x) :
    HeapSafe x.heap x.live ∧ ∀ e, x.Called e → x.Sound e → (slabSystem.step x e).isSome := by
  have hinv := SlabSys.Inv.of_reach h
  refine ⟨hinv.heapSafe, ?_⟩
  intro e hcalled hsound
  obtain ⟨x', hexec⟩ := hinv.exec hcalled hsound
  show (if x.Called e then x.exec e else none).isSome
  rw [if_pos hcalled, hexec]
  rfl

/-- Before the heap is initialised. -/
def rawHeap : Heap := ⟨fun _ => 0, 0, 0, 0, 0, fun _ => 0, 0, 0, 0, 0, 0⟩

/-- A heap of zeros with the pages from 4096 on. -/
def smallHeap (npages : Nat) : Heap :=
  ((skSystemMemInit 2 rawHeap 4096 (4096 + npages * 4096)).map Prod.snd).getD rawHeap

theorem init_smallHeap (npages : Nat) (hok : (skSystemMemInit 2 rawHeap 4096
    (4096 + npages * 4096)).map Prod.fst = some .eok) : slabSystem.init ⟨smallHeap npages, []⟩ := by
  refine ⟨rfl, 2, rawHeap, 4096, 4096 + npages * 4096, ⟨rfl, rfl, rfl⟩, ?_⟩
  obtain ⟨r, hr, hfst⟩ := Option.map_eq_some_iff.mp hok
  unfold smallHeap
  rw [hr, ← hfst]
  rfl

theorem reach_smallHeap (npages : Nat) (hok : (skSystemMemInit 2 rawHeap 4096
    (4096 + npages * 4096)).map Prod.fst = some .eok) (guard : SlabSys → SlabOp → Prop) :
    slabSystem.Reach guard ⟨smallHeap npages, []⟩ := .init (init_smallHeap npages hok)

/-- Two chunks of one zone and a large block; a chunk is freed. -/
theorem slab_safety_small : ∃ x, slabSystem.Reach SlabSys.Sound x ∧
    x.live = [⟨40960, 8192⟩, ⟨8456, 195⟩] ∧ HeapSafe x.heap x.live := by
  obtain ⟨x, hx, hp⟩ := (reach_smallHeap 12 (by decide +kernel) SlabSys.Sound).exists_of_run
    [.malloc 200, .malloc 195, .write 8460 7, .malloc 8192, .free 8248]
    (fun x => x.live = [⟨40960, 8192⟩, ⟨8456, 195⟩]) (by decide +kernel)
  exact ⟨x, hx, of_decide_eq_true hp, (slab_safety hx).1⟩

/-- A request of 1024 bytes after one of 1025 bytes: the second block starts on the last byte of
    the first. -/
theorem slab_safety_fails : ∃ x, slabSystem.Reach (fun _ _ => True) x ∧
    x.live = [⟨9272, 1024⟩, ⟨8248, 1025⟩] ∧ ¬HeapSafe x.heap x.live := by
  obtain ⟨x, hx, hp⟩ := (reach_smallHeap 12 (by decide +kernel) (fun _ _ => True)).exists_of_run
    [.malloc 1025, .malloc 1024] (fun x => x.live = [⟨9272, 1024⟩, ⟨8248, 1025⟩])
    (by decide +kernel)
  have hlive := of_decide_eq_true hp
  refine ⟨x, hx, hlive, ?_⟩
  intro hsafe
  have hpair := hsafe.disjoint
  rw [hlive, pairwise_pair] at hpair
  exact hpair 9272 (by decide) (by decide)

theorem slab_release_fails :
    ∃ x, slabSystem.Reach SlabSys.MallocsFit x ∧ ¬HeapSafe x.heap x.live := by
  obtain ⟨x, hx, hp⟩ := (reach_smallHeap 49 (by decide +kernel) SlabSys.MallocsFit).exists_of_run
    (List.replicate 15 (.malloc 8191) ++
      [.free 147456, .free 81920, .free 90112, .free 98304, .free 49152, .free 57344, .free 65536,
        .free 114688, .free 122880, .free 131072, .malloc 10])
    (fun x => (⟨32768, 8191⟩ : Block) ∈ x.live ∧ x.heap.sysZoneArray 1 = 40904)
    (by decide +kernel)
  obtain ⟨hlive, hzone⟩ := of_decide_eq_true hp
  refine ⟨x, hx, ?_⟩
  intro hsafe
  have hon : IsZone x.heap x.live 40904 := by
    refine .array 1 ?_
    rw [hzone]
    exact .head (by decide)
  exact hsafe.headers _ hlive 40904 hon 40904 (by decide) (by decide)

end SKernel.Spec
