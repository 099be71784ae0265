import SKernel.Spec.SlabZone

/-!
# The layout of the heap

What each page of the heap is used for, which zones there are and on which lists they stand.
`SlabInv` says that the memory and the static variables agree with such a layout, and that the
live blocks are chunks that have been handed out or runs of pages.

The memory of a page belongs to the use of the page. A write therefore keeps every fact about
pages of another use, and each lemma here changes the pages of one use only.

## Key results

- `SlabInv.zoneStep`: the layout after one zone has been set up or has changed
- `SlabInv.pageAlloc`, `SlabInv.pageFree`: runs of pages are taken and given back
-/

namespace SKernel.Spec

open Native ByteMem Chain List

/-! ## The heap and its pages -/

/-- The number of pages that `sk_system_mem_init` puts under management. -/
def numPages (h : Heap) : Nat := (h.sysMemEnd - h.sysMemStart) % 2 ^ 32 / pageSize

/-- The constants of a heap. -/
structure Geometry where
  start : Nat
  npages : Nat
  usage : Nat
  zonePages : Nat
  limit : Nat
  area : PageArea start npages
  aligned : start % pageSize = 0
  npages_lt : npages < 2 ^ 20
  sizes : zonePages = 8 ∧ limit = 8192 ∨ (zonePages = 16 ∨ zonePages = 32) ∧ limit = 16384

namespace Geometry

variable {G : Geometry} {h : Heap} {i n x fuel : Nat} {use' : Nat → PageUse}

/-- `sys_zone_size`. -/
def zoneSize (G : Geometry) : Nat := G.zonePages * pageSize

/-- The address of page `i`. -/
def addr (G : Geometry) (i : Nat) : Nat := pageAddr G.start i

/-- The page of an address. -/
def page (G : Geometry) (x : Nat) : Nat := (x - G.start) / pageSize

/-- The address of the usage entry of page `i`. -/
def entry (G : Geometry) (i : Nat) : Nat := G.usage + memUsageSize * i

/-- The usage entries from page `z` on are those of a zone. -/
def ZoneEntries (G : Geometry) (m : Mem) (z : Nat) : Prop :=
  ∀ i, z ≤ i → i < z + G.zonePages → load m 4 (G.entry i) = (i - z) * 4 + pageTypeSmall

/-- The static variables hold the constants. -/
structure Fits (G : Geometry) (h : Heap) : Prop where
  start : h.sysMemStart = G.start
  npages : numPages h = G.npages
  usage : h.sysMemUsage = G.usage
  zoneSize : h.sysZoneSize = G.zoneSize
  pageCnt : h.sysZonePageCnt = G.zonePages
  limit : h.sysZoneLimit = G.limit

theorem Fits.update (hfits : G.Fits h) (m : Mem) (pages : Nat) (array : Nat → Nat) (zones : Nat)
    (cnt : Int) : G.Fits { h with
      mem := m, sysPageList := pages, sysZoneArray := array, sysZoneFree := zones,
      sysZoneFreeCnt := cnt } :=
  ⟨hfits.start, hfits.npages, hfits.usage, hfits.zoneSize, hfits.pageCnt, hfits.limit⟩

theorem addr_eq (G : Geometry) (i : Nat) : G.addr i = G.start + i * pageSize := rfl

theorem addr_ne_zero (G : Geometry) (i : Nat) : G.addr i ≠ 0 := pageAddr_ne_zero G.area i

theorem addr_inj : G.addr i = G.addr n ↔ i = n := pageAddr_inj

theorem addr_end_lt (G : Geometry) (hle : i + n ≤ G.npages) :
    G.addr i + n * pageSize < 2 ^ 64 := by
  have hlt := G.area.lt
  have hmul := Nat.mul_le_mul_right pageSize hle
  rw [Nat.add_mul] at hmul
  rw [addr_eq]
  omega

theorem zonePages_pos (G : Geometry) : 0 < G.zonePages := by
  have := G.sizes
  omega

theorem zoneSize_le (G : Geometry) : G.zoneSize ≤ 2 ^ 17 := by
  have := G.sizes
  unfold zoneSize pageSize
  omega

theorem page_of_mem (hle : G.addr i ≤ x) (hlt : x < G.addr i + n * pageSize) :
    G.start ≤ x ∧ i ≤ G.page x ∧ G.page x < i + n := by
  rw [addr_eq] at hle hlt
  unfold page
  refine ⟨by omega, ?_, ?_⟩
  · exact (Nat.le_div_iff_mul_le (by decide)).mpr (by omega)
  · refine (Nat.div_lt_iff_lt_mul (by decide)).mpr ?_
    rw [Nat.add_mul]
    omega

theorem mem_page (hle : G.start ≤ x) :
    G.addr (G.page x) ≤ x ∧ x < G.addr (G.page x) + pageSize := by
  have hmod := Nat.mod_lt (x - G.start) (show 0 < pageSize by decide)
  have hdiv := Nat.div_add_mod' (x - G.start) pageSize
  rw [addr_eq]
  unfold page
  omega

theorem page_addr (G : Geometry) (i : Nat) : G.page (G.addr i) = i := by
  rw [addr_eq]
  unfold page
  rw [Nat.add_sub_cancel_left, Nat.mul_div_cancel _ (by decide)]

end Geometry

/-- A page is not part of the heap, on the list of free pages, part of the usage table, of the zone
    or large block that starts at a page, or taken from the list and not put to use yet. -/
inductive PageUse where
  | outside
  | free
  | table
  | zone (z : Nat)
  | large (i : Nat)
  | taken
  deriving DecidableEq

/-- The uses whose pages hold something. -/
def PageUse.Kept : PageUse → Prop
  | .table => True
  | .zone _ => True
  | .large _ => True
  | _ => False

/-- A block of memory. -/
structure Block where
  ptr : Nat
  size : Nat
  deriving DecidableEq

/-- The use of the pages, the zones by their first page, and the lists of zones. -/
structure Layout (zs : Nat) where
  use : Nat → PageUse
  zone : Nat → Zone zs
  array : Nat → List Nat
  freeZones : List Nat

/-- `n` pages from page `i` on have the use `u`. -/
def Layout.Holds {zs : Nat} (L : Layout zs) (i n : Nat) (u : PageUse) : Prop :=
  ∀ k, i ≤ k → k < i + n → L.use k = u

/-- `n` pages from page `i` on get another use. -/
def Layout.setUse {zs : Nat} (L : Layout zs) (i n : Nat) (u : PageUse) : Layout zs :=
  { L with use := fun k => if i ≤ k ∧ k < i + n then u else L.use k }

/-- The zone at `z0` becomes `v`, and the lists of zones change. -/
def Layout.setZone {zs : Nat} (L : Layout zs) (zonePages z0 : Nat) (v : Zone zs)
    (array : Nat → List Nat) (freeZones : List Nat) : Layout zs where
  use := fun i => if z0 ≤ i ∧ i < z0 + zonePages then .zone z0 else L.use i
  zone := Function.update L.zone z0 v
  array := array
  freeZones := freeZones

/-- The zones other than the one at `z0` are the same in two layouts. -/
structure Layout.AgreeOff {zs : Nat} (L L' : Layout zs) (z0 : Nat) : Prop where
  use : ∀ z, z ≠ z0 → (L'.use z = .zone z ↔ L.use z = .zone z)
  zone : ∀ z, z ≠ z0 → L'.zone z = L.zone z

/-- The zone at `z0` is `w` in `L'`, and the others are as in `L`. -/
structure Layout.Becomes {zs : Nat} (L L' : Layout zs) (z0 : Nat) (w : Zone zs) : Prop where
  self : L'.use z0 = .zone z0
  zone : L'.zone z0 = w
  other : L.AgreeOff L' z0

/-- All zones are the same in two layouts, and so are those set aside. -/
structure Layout.SameZones {zs : Nat} (L L' : Layout zs) : Prop where
  use : ∀ z, L'.use z = .zone z ↔ L.use z = .zone z
  zone : L'.zone = L.zone
  freeZones : L'.freeZones = L.freeZones

/-- `L'` is `L` with the zone `v` at `z0`, where the zone was before or no page held anything. -/
structure Layout.SetsZone {G : Geometry} (L L' : Layout G.zoneSize) (z0 : Nat)
    (v : Zone G.zoneSize) : Prop where
  self : ∀ i, L'.use i = .zone z0 ↔ z0 ≤ i ∧ i < z0 + G.zonePages
  use : ∀ i u, u ≠ .zone z0 → u ≠ .taken → (L'.use i = u ↔ L.use i = u)
  zone : L'.zone z0 = v
  zone_of_ne : ∀ z, z ≠ z0 → L'.zone z = L.zone z

/-- The list of zones behind a pointer. -/
def ZoneList (G : Geometry) (m : Mem) (p : Nat) (l : List Nat) : Prop :=
  Linked (fun a => load m 8 (a + zNext)) p (l.map G.addr)

/-- The pages that `sk_malloc` takes for a large request. -/
def numBlockPages (size : Nat) : Nat := skAlign size pageSize / pageSize

/-- There are `n` free pages one behind the other. -/
def FreeRun {zs : Nat} (L : Layout zs) (n : Nat) : Prop := ∃ a, L.Holds a n .free

/-- A block is a run of pages, or a chunk that is handed out. `fit` says that the chunks have the
    size of their zones. -/
inductive Placed (fit : Prop) (G : Geometry) (L : Layout G.zoneSize) (m : Mem) (b : Block) :
    Prop where
  | large (i n : Nat) (hn : 0 < n) (hptr : b.ptr = G.addr i)
      (hsize : b.size ≤ n * pageSize ∧ G.limit ≤ b.size ∧ numBlockPages b.size = n)
      (huse : L.Holds i n (.large i)) (hentry : load m 4 (G.entry i) = n * 4 + pageTypeLarge)
  | small (z j : Nat) (hz : L.use z = .zone z) (hused : (L.zone z).Used j)
      (hptr : b.ptr = (L.zone z).chunkAddr (G.addr z) j)
      (hsize : b.size < G.limit ∧ (fit → b.size ≤ (L.zone z).chunk))

/-- The heap has the layout `L`, and the live blocks are in their places. When zones have served
    requests of another rounded size (`fit` fails), chunks may overlap, though not in the pointers
    that link them. -/
structure SlabInv (fit : Prop) (G : Geometry) (L : Layout G.zoneSize) (h : Heap)
    (live : List Block) : Prop where
  fits : G.Fits h
  inside : ∀ i, L.use i ≠ .outside → i < G.npages
  /-- The usage table stands on pages of its own. -/
  table : ∀ x, G.usage ≤ x → x < G.entry G.npages → G.start ≤ x ∧ L.use (G.page x) = .table
  free : PageList G.start G.npages {i | L.use i = .free} h
  zone_iff : ∀ i z, L.use i = .zone z ↔ L.use z = .zone z ∧ z ≤ i ∧ i < z + G.zonePages
  usage : ∀ i z, L.use i = .zone z → load h.mem 4 (G.entry i) = (i - z) * 4 + pageTypeSmall
  zones : ∀ z, L.use z = .zone z → ZoneMem h.mem (G.addr z) (L.zone z).nfree (L.zone z)
  array : ∀ index, ZoneList G h.mem (h.sysZoneArray index) (L.array index)
  /-- A zone array lists the zones of its class that are neither full nor set aside. -/
  array_mem : ∀ index z, z ∈ L.array index ↔ L.use z = .zone z ∧ (L.zone z).index = index ∧
    0 < (L.zone z).nfree ∧ z ∉ L.freeZones
  freeZones : ZoneList G h.mem h.sysZoneFree L.freeZones
  freeZones_mem : ∀ z ∈ L.freeZones, L.use z = .zone z ∧ (L.zone z).nfree = (L.zone z).nmax
  freeCnt : h.sysZoneFreeCnt = L.freeZones.length
  placed : ∀ b ∈ live, Placed fit G L h.mem b
  nodup : (live.map Block.ptr).Nodup
  exact : fit → ∀ z, L.use z = .zone z → (L.zone z).Exact

variable {fit : Prop} {G : Geometry} {L : Layout G.zoneSize} {h h' : Heap} {m m' : Mem}
  {live live' : List Block} {b : Block} {i j n x z z0 p : Nat} {l : List Nat}

namespace Layout

variable {L L1 L2 : Layout G.zoneSize} {w : Zone G.zoneSize}

theorem SameZones.refl (L : Layout G.zoneSize) : L.SameZones L := ⟨fun _ => Iff.rfl, rfl, rfl⟩

theorem SameZones.trans (h : L.SameZones L1) (h' : L1.SameZones L2) : L.SameZones L2 :=
  ⟨fun z => (h'.use z).trans (h.use z), h'.zone.trans h.zone, h'.freeZones.trans h.freeZones⟩

theorem SameZones.agreeOff (h : L.SameZones L1) (z0 : Nat) : L.AgreeOff L1 z0 :=
  ⟨fun z _ => h.use z, fun z _ => congrFun h.zone z⟩

theorem AgreeOff.trans (h : L.AgreeOff L1 z0) (h' : L1.AgreeOff L2 z0) : L.AgreeOff L2 z0 :=
  ⟨fun z hz => (h'.use z hz).trans (h.use z hz), fun z hz => (h'.zone z hz).trans (h.zone z hz)⟩

theorem AgreeOff.becomes (h : L.AgreeOff L1 z0) (h' : L1.Becomes L2 z0 w) : L.Becomes L2 z0 w :=
  ⟨h'.self, h'.zone, h.trans h'.other⟩

theorem SetsZone.first (h : L.SetsZone L1 z0 w) : L1.use z0 = .zone z0 :=
  (h.self z0).mpr ⟨Nat.le_refl z0, Nat.lt_add_of_pos_right G.zonePages_pos⟩

theorem SetsZone.use_zone (h : L.SetsZone L1 z0 w) (hne : z ≠ z0) :
    L1.use i = .zone z ↔ L.use i = .zone z := h.use i _ (by simpa using hne) (by simp)

theorem SetsZone.becomes (h : L.SetsZone L1 z0 w) : L.Becomes L1 z0 w :=
  ⟨h.first, h.zone, fun _ hne => h.use_zone hne, h.zone_of_ne⟩

variable {u u' v : PageUse}

theorem holds_setUse : (L.setUse i n u).Holds i n u := fun _ hle hlt => if_pos ⟨hle, hlt⟩

theorem setUse_iff (hold : L.Holds i n u') (hu : v ≠ u) (hu' : v ≠ u') (k : Nat) :
    (L.setUse i n u).use k = v ↔ L.use k = v := by
  show (if i ≤ k ∧ k < i + n then u else L.use k) = v ↔ _
  split
  · rename_i hk
    rw [hold k hk.1 hk.2]
    exact ⟨fun heq => absurd heq.symm hu, fun heq => absurd heq.symm hu'⟩
  · exact Iff.rfl

theorem sameZones_setUse (hold : L.Holds i n u') (hu : ∀ z, .zone z ≠ u) (hu' : ∀ z, .zone z ≠ u') :
    L.SameZones (L.setUse i n u) :=
  ⟨fun z => setUse_iff hold (hu z) (hu' z) z, rfl, rfl⟩

end Layout

theorem ZoneList.congr (hl : ZoneList G m p l)
    (hnext : ∀ z ∈ l, load m' 8 (G.addr z + zNext) = load m 8 (G.addr z + zNext)) :
    ZoneList G m' p l := by
  refine Linked.congr hl fun a ha => ?_
  obtain ⟨z, hz, hza⟩ := List.mem_map.mp ha
  rw [← hza]
  exact hnext z hz

theorem ZoneList.nodup (hl : ZoneList G m p l) : l.Nodup := (Linked.nodup hl).of_map _

theorem ZoneList.cons (hl : ZoneList G m p l)
    (hnext : ∀ y ∈ l, load m' 8 (G.addr y + zNext) = load m 8 (G.addr y + zNext))
    (hhead : load m' 8 (G.addr z + zNext) = p) : ZoneList G m' (G.addr z) (z :: l) := by
  refine linked_cons.mpr ⟨rfl, G.addr_ne_zero z, ?_⟩
  rw [hhead]
  exact hl.congr hnext

namespace SlabInv

/-! ## Whose memory an address is -/

section

variable (hinv : SlabInv fit G L h live)
include hinv

theorem zone_owner (hz : L.use z = .zone z) (hle : G.addr z ≤ x)
    (hlt : x < G.addr z + G.zoneSize) : G.start ≤ x ∧ L.use (G.page x) = .zone z := by
  obtain ⟨hstart, hpage⟩ := Geometry.page_of_mem hle hlt
  exact ⟨hstart, (hinv.zone_iff _ z).mpr ⟨hz, hpage⟩⟩

theorem zone_holds (hz : L.use z = .zone z) :
    L.Holds z G.zonePages (.zone z) := fun i hle hlt => (hinv.zone_iff i z).mpr ⟨hz, hle, hlt⟩

theorem zone_entries (hz : L.use z = .zone z) :
    G.ZoneEntries h.mem z := fun i hle hlt => hinv.usage i z (hinv.zone_holds hz i hle hlt)

theorem zone_inside (hz : L.use z = .zone z) : z + G.zonePages ≤ G.npages := by
  have hpos := G.zonePages_pos
  have hlast := hinv.zone_holds hz (z + G.zonePages - 1) (by omega) (by omega)
  have := hinv.inside (z + G.zonePages - 1) (by simp [hlast])
  omega

end

theorem chunkAddr_ne_zero (v : Zone G.zoneSize) (z j : Nat) : v.chunkAddr (G.addr z) j ≠ 0 := by
  have := G.addr_ne_zero z
  unfold Zone.chunkAddr
  omega

theorem zone_lt (hinv : SlabInv fit G L h live) (hz : L.use z = .zone z) :
    G.addr z + G.zoneSize < 2 ^ 64 := G.addr_end_lt (hinv.zone_inside hz)

theorem entry_owner (hinv : SlabInv fit G L h live) (hi : i < G.npages) (hle : G.entry i ≤ x)
    (hlt : x < G.entry i + 4) : G.start ≤ x ∧ L.use (G.page x) = .table := by
  unfold Geometry.entry memUsageSize at *
  exact hinv.table x (by omega) (by unfold Geometry.entry memUsageSize; omega)

theorem free_owner (hi : L.use i = .free) (hle : pageAddr G.start i ≤ x)
    (hlt : x < pageAddr G.start i + 16) : G.start ≤ x ∧ L.use (G.page x) = .free := by
  obtain ⟨hstart, hpage⟩ := Geometry.page_of_mem (G := G) (i := i) (n := 1) hle (by
    rw [Nat.one_mul]
    exact Nat.lt_of_lt_of_le hlt (Nat.add_le_add_left (by decide) _))
  rw [show G.page x = i by omega]
  exact ⟨hstart, hi⟩

theorem header_le (v : Zone G.zoneSize) : slabZoneSize ≤ G.zoneSize := by
  have := v.two_fit
  have := v.offset_ge
  omega

theorem zoneMem_congr (hinv : SlabInv fit G L h live) (hz : L.use z = .zone z)
    (hmem : ∀ x, G.addr z ≤ x → x < G.addr z + G.zoneSize →
      (x < G.addr z + zNext ∨ G.addr z + zBaseptr ≤ x) → m' x = h.mem x) :
    ZoneMem m' (G.addr z) (L.zone z).nfree (L.zone z) := by
  have hheader := header_le (L.zone z)
  refine (hinv.zones z hz).congr ?_ ?_
  · intro x hle hlt hnext
    exact hmem x (by omega) (by omega) hnext
  · intro j hj x hle hlt
    have hin := (L.zone z).chunkAddr_bounds (G.addr z)
      (Zone.lt_nmax ((L.zone z).free_le j hj))
    unfold slabZoneSize at hin
    refine hmem x (by omega) (by omega) (.inr ?_)
    unfold zBaseptr
    omega

theorem next_congr (v : Zone G.zoneSize)
    (hmem : ∀ x, G.addr z ≤ x → x < G.addr z + G.zoneSize → m' x = m x) :
    load m' 8 (G.addr z + zNext) = load m 8 (G.addr z + zNext) := by
  have hheader := header_le v
  unfold slabZoneSize at hheader
  unfold zNext
  exact load_congr fun x hle hlt => hmem x (by omega) (by omega)

section

variable (hinv : SlabInv fit G L h live)
include hinv

theorem entry_congr (hi : i < G.npages)
    (hmem : ∀ x, G.start ≤ x → L.use (G.page x) = .table → m' x = h.mem x) :
    load m' 4 (G.entry i) = load h.mem 4 (G.entry i) := by
  refine load_congr fun x hle hlt => ?_
  obtain ⟨hstart, huse⟩ := hinv.entry_owner hi hle hlt
  exact hmem x hstart huse

/-! ## Changes of the layout -/

theorem relayout (hrest : h' = { h with mem := h'.mem, sysPageList := h'.sysPageList })
    (hinside : ∀ i, use' i ≠ .outside → i < G.npages)
    (htable : ∀ i, L.use i = .table → use' i = .table)
    (hzone : ∀ i z, use' i = .zone z ↔ L.use i = .zone z)
    (hmem : ∀ z, L.use z = .zone z → ∀ x, G.addr z ≤ x → x < G.addr z + G.zoneSize →
      h'.mem x = h.mem x)
    (hentry : ∀ i z, L.use i = .zone z → load h'.mem 4 (G.entry i) = load h.mem 4 (G.entry i))
    (hfree : PageList G.start G.npages {i | use' i = .free} h')
    (hplaced : ∀ b ∈ live', Placed fit G { L with use := use' } h'.mem b)
    (hnodup : (live'.map Block.ptr).Nodup) : SlabInv fit G { L with use := use' } h' live' := by
  have harray : h'.sysZoneArray = h.sysZoneArray := by rw [hrest]
  have hzones : h'.sysZoneFree = h.sysZoneFree := by rw [hrest]
  have hcnt : h'.sysZoneFreeCnt = h.sysZoneFreeCnt := by rw [hrest]
  exact {
    fits := by
      rw [hrest]
      exact hinv.fits.update ..
    inside := hinside
    table := by
      intro x hle hlt
      obtain ⟨hstart, huse⟩ := hinv.table x hle hlt
      exact ⟨hstart, htable _ huse⟩
    free := hfree
    zone_iff := by
      intro i z
      rw [hzone, hzone]
      exact hinv.zone_iff i z
    usage := by
      intro i z hi
      have huse := (hzone i z).mp hi
      rw [hentry i z huse]
      exact hinv.usage i z huse
    zones := by
      intro z hz
      have huse := (hzone z z).mp hz
      exact hinv.zoneMem_congr huse fun x hle hlt _ => hmem z huse x hle hlt
    array := by
      intro index
      rw [harray]
      refine (hinv.array index).congr fun z hz => next_congr (L.zone z) ?_
      exact hmem z ((hinv.array_mem index z).mp hz).1
    array_mem := by
      intro index z
      rw [hzone]
      exact hinv.array_mem index z
    freeZones := by
      rw [hzones]
      refine hinv.freeZones.congr fun z hz => next_congr (L.zone z) ?_
      exact hmem z (hinv.freeZones_mem z hz).1
    freeZones_mem := by
      intro z hz
      rw [hzone]
      exact hinv.freeZones_mem z hz
    freeCnt := by
      rw [hcnt]
      exact hinv.freeCnt
    placed := hplaced
    nodup := hnodup
    exact := fun hfit z hz => hinv.exact hfit z ((hzone z z).mp hz) }

/-- Only pages that hold nothing change. -/
theorem repage (hrest : h' = { h with mem := h'.mem, sysPageList := h'.sysPageList })
    (hkept : ∀ i, (L.use i).Kept ∨ (use' i).Kept → use' i = L.use i) (hmem : ∀ x, G.start ≤ x →
      (L.use (G.page x) = .table ∨ ∃ z, L.use (G.page x) = .zone z) → h'.mem x = h.mem x)
    (hinside : ∀ i, use' i ≠ .outside → i < G.npages)
    (hfree : PageList G.start G.npages {i | use' i = .free} h') :
    SlabInv fit G { L with use := use' } h' live := by
  -- the tables, the zones and the large blocks stay where they are
  have hsame : ∀ i u, PageUse.Kept u → (use' i = u ↔ L.use i = u) := by
    intro i u hu
    constructor
    · intro heq
      rw [← hkept i (.inr (by rw [heq]; exact hu))]
      exact heq
    · intro heq
      rw [hkept i (.inl (by rw [heq]; exact hu))]
      exact heq
  have hentry : ∀ i, L.use i ≠ .outside →
      load h'.mem 4 (G.entry i) = load h.mem 4 (G.entry i) := fun i hi =>
    hinv.entry_congr (hinv.inside i hi) fun x hstart huse => hmem x hstart (.inl huse)
  refine hinv.relayout hrest hinside (fun i => (hsame i .table trivial).mpr)
    (fun i z => hsame i (.zone z) trivial) ?_ (fun i z hi => hentry i (by simp [hi])) hfree ?_
    hinv.nodup
  · intro z hz x hle hlt
    obtain ⟨hstart, huse⟩ := hinv.zone_owner hz hle hlt
    exact hmem x hstart (.inr ⟨z, huse⟩)
  · intro b hb
    cases hinv.placed b hb with
    | large i n hn hptr hsize huse hent =>
      refine .large i n hn hptr hsize ?_ ?_
      · intro k hik hkn
        exact (hsame k (.large i) trivial).mpr (huse k hik hkn)
      rw [hentry i (by simp [huse i (Nat.le_refl i) (by omega)])]
      exact hent
    | small z j hz hused hptr hsize =>
      exact .small z j ((hsame z (.zone z) trivial).mpr hz) hused hptr hsize

theorem setUsage (hi : i < G.npages) (huse : L.use i = .taken) (k : Nat) :
    SlabInv fit G L (h.set32 (G.entry i) k) live := by
  -- the memory of other uses is not touched
  have hother : ∀ x, G.start ≤ x → L.use (G.page x) ≠ .table →
      (h.set32 (G.entry i) k).mem x = h.mem x := by
    intro x _ hne
    refine store_outside ?_
    by_contra hin
    exact hne (hinv.entry_owner (x := x) hi (by omega) (by omega)).2
  have hentry : ∀ y, L.use y ≠ .taken →
      load (h.set32 (G.entry i) k).mem 4 (G.entry y) = load h.mem 4 (G.entry y) := by
    intro y hy
    have hne : y ≠ i := fun heq => hy (by rw [heq, huse])
    refine load_store_of_disjoint ?_
    unfold Geometry.entry memUsageSize
    omega
  refine hinv.relayout rfl hinv.inside (fun _ => id) (fun _ _ => Iff.rfl) ?_
    (fun y z hy => hentry y (by simp [hy])) ?_ ?_ hinv.nodup
  · intro z hz x hle hlt
    obtain ⟨hstart, howner⟩ := hinv.zone_owner hz hle hlt
    exact hother x hstart (by simp [howner])
  · refine hinv.free.congr ?_ rfl
    intro y hy x hle hlt
    obtain ⟨hstart, hfree⟩ := free_owner hy hle hlt
    exact hother x hstart (by simp [hfree])
  · intro b hb
    cases hinv.placed b hb with
    | large y n hn hptr hsize hlarge hent =>
      refine .large y n hn hptr hsize hlarge ?_
      rw [hentry y (by simp [hlarge y (Nat.le_refl y) (by omega)])]
      exact hent
    | small z j hz hused hptr hsize => exact .small z j hz hused hptr hsize

end

section

variable {L' : Layout G.zoneSize} {v : Zone G.zoneSize}

/-- The pages from `z0` on can be used for a zone there. -/
def ZoneRoom (G : Geometry) (L : Layout G.zoneSize) (z0 : Nat) : Prop :=
  z0 + G.zonePages ≤ G.npages ∧
    ∀ i, z0 ≤ i → i < z0 + G.zonePages → L.use i = .zone z0 ∨ L.use i = .taken

theorem zoneRoom (hinv : SlabInv fit G L h live) (hz : L.use z = .zone z) : ZoneRoom G L z :=
  ⟨hinv.zone_inside hz, fun i hle hlt => .inl (hinv.zone_holds hz i hle hlt)⟩

theorem setsZone (hinv : SlabInv fit G L h live) (hroom : ZoneRoom G L z0) (v : Zone G.zoneSize)
    (array : Nat → List Nat) (freeZones : List Nat) :
    L.SetsZone (L.setZone G.zonePages z0 v array freeZones) z0 v := by
  refine ⟨?_, ?_, Function.update_self .., fun z hne => Function.update_of_ne hne ..⟩
  · intro i
    show (if _ then _ else _) = _ ↔ _
    split
    · rename_i hin
      exact ⟨fun _ => hin, fun _ => rfl⟩
    · rename_i hout
      exact ⟨fun hi => ((hinv.zone_iff i z0).mp hi).2, fun hin => absurd hin hout⟩
  · intro i u hzone htaken
    show (if _ then _ else _) = _ ↔ _
    split
    · rename_i hin
      have := hroom.2 i hin.1 hin.2
      constructor
      · intro heq
        exact absurd heq.symm hzone
      · intro heq
        rw [heq] at this
        exact absurd this (by simp [hzone, htaken])
    · exact Iff.rfl

/-- What one zone's step may write: its own memory, and `z_next` of other zones. -/
def ZoneFrame (G : Geometry) (L : Layout G.zoneSize) (z0 : Nat) (m m' : Mem) : Prop :=
  ∀ x, (x < G.addr z0 ∨ G.addr z0 + G.zoneSize ≤ x) →
    (∀ z, L.use z = .zone z → x < G.addr z + zNext ∨ G.addr z + zBaseptr ≤ x) → m' x = m x

theorem ZoneFrame.of_outside (hout : SameOutside m m' (G.addr z0) G.zoneSize) :
    ZoneFrame G L z0 m m' := fun x hx _ => hout x hx

theorem ZoneRoom.outside (hroom : ZoneRoom G L z0) (hzone : L.use (G.page x) ≠ .zone z0)
    (htaken : L.use (G.page x) ≠ .taken) : x < G.addr z0 ∨ G.addr z0 + G.zoneSize ≤ x := by
  by_contra hin
  obtain ⟨-, hle, hlt⟩ := Geometry.page_of_mem (G := G) (i := z0) (n := G.zonePages) (x := x)
    (by omega) (by unfold Geometry.zoneSize at hin; omega)
  exact (hroom.2 _ hle hlt).elim hzone htaken

section

variable (hinv : SlabInv fit G L h live)
include hinv

theorem zoneFrame_use (hroom : ZoneRoom G L z0) (hframe : ZoneFrame G L z0 h.mem m')
    (hzone : ∀ z, L.use (G.page x) ≠ .zone z) (htaken : L.use (G.page x) ≠ .taken) :
    m' x = h.mem x := by
  refine hframe x (hroom.outside (hzone z0) htaken) ?_
  intro z hz
  by_contra hin
  have hheader := header_le (L.zone z)
  unfold zNext zBaseptr at hin
  unfold slabZoneSize at hheader
  exact hzone z (hinv.zone_owner (x := x) hz (by omega) (by omega)).2

theorem zoneFrame_zone (hroom : ZoneRoom G L z0) (hframe : ZoneFrame G L z0 h.mem m')
    (hz : L.use z = .zone z) (hne : z ≠ z0) (hle : G.addr z ≤ x) (hlt : x < G.addr z + G.zoneSize)
    (hnext : x < G.addr z + zNext ∨ G.addr z + zBaseptr ≤ x) : m' x = h.mem x := by
  have howner := (hinv.zone_owner hz hle hlt).2
  refine hframe x (hroom.outside (by simp [howner, hne]) (by simp [howner])) ?_
  intro y hy
  by_cases hyz : y = z
  · rw [hyz]
    exact hnext
  · by_contra hin
    have hheader := header_le (L.zone y)
    unfold zNext zBaseptr at hin
    unfold slabZoneSize at hheader
    have hown := (hinv.zone_owner (x := x) hy (by omega) (by omega)).2
    rw [howner] at hown
    cases hown
    exact hyz rfl

theorem zoneFrame_entry (hroom : ZoneRoom G L z0) (hframe : ZoneFrame G L z0 h.mem m')
    (hi : i < G.npages) : load m' 4 (G.entry i) = load h.mem 4 (G.entry i) :=
  hinv.entry_congr hi fun x _ huse =>
    hinv.zoneFrame_use hroom hframe (by simp [huse]) (by simp [huse])

theorem placed_setZone (hroom : ZoneRoom G L z0) (hset : L.SetsZone L' z0 v)
    (hframe : ZoneFrame G L z0 h.mem m') (hb : b ∈ live)
    (hused : L.use z0 = .zone z0 → v.chunk = (L.zone z0).chunk ∧ ∀ j, (L.zone z0).Used j →
      b.ptr = (L.zone z0).chunkAddr (G.addr z0) j →
      v.Used j ∧ v.chunkAddr (G.addr z0) j = (L.zone z0).chunkAddr (G.addr z0) j) :
    Placed fit G L' m' b := by
  cases hinv.placed b hb with
  | large i n hn hptr hsize huse hentry =>
    refine .large i n hn hptr hsize ?_ ?_
    · intro k hik hkn
      exact (hset.use k _ (by simp) (by simp)).mpr (huse k hik hkn)
    · have hi := huse i (Nat.le_refl i) (by omega)
      rw [hinv.zoneFrame_entry hroom hframe (hinv.inside i (by simp [hi]))]
      exact hentry
  | small z j hz hj hptr hsize =>
    by_cases hne : z = z0
    · subst hne
      obtain ⟨hchunk, hkeep⟩ := hused hz
      rw [← hset.zone] at hchunk hkeep
      refine .small z j hset.first (hkeep j hj hptr).1 ?_ ?_
      · rw [(hkeep j hj hptr).2]
        exact hptr
      · rw [hchunk]
        exact hsize
    · rw [← hset.zone_of_ne z hne] at hj hptr hsize
      exact .small z j ((hset.use_zone hne).mpr hz) hj hptr hsize

/-- One zone is set up or changes. -/
theorem zoneStep (hrest : h' = { h with
      mem := h'.mem, sysZoneArray := h'.sysZoneArray, sysZoneFree := h'.sysZoneFree,
      sysZoneFreeCnt := h'.sysZoneFreeCnt }) (hroom : ZoneRoom G L z0)
    (hset : L.SetsZone L' z0 v) (hframe : ZoneFrame G L z0 h.mem h'.mem)
    (hentry : G.ZoneEntries h.mem z0) (hzone : ZoneMem h'.mem (G.addr z0) v.nfree v)
    (harray : ∀ index, ZoneList G h'.mem (h'.sysZoneArray index) (L'.array index))
    (harray_mem : ∀ index z, z ∈ L'.array index ↔ L'.use z = .zone z ∧
      (L'.zone z).index = index ∧ 0 < (L'.zone z).nfree ∧ z ∉ L'.freeZones)
    (hzones : ZoneList G h'.mem h'.sysZoneFree L'.freeZones)
    (hzones_mem : ∀ z ∈ L'.freeZones, L'.use z = .zone z ∧ (L'.zone z).nfree = (L'.zone z).nmax)
    (hcnt : h'.sysZoneFreeCnt = L'.freeZones.length)
    (hplaced : ∀ b ∈ live', Placed fit G L' h'.mem b) (hnodup : (live'.map Block.ptr).Nodup)
    (hexact : fit → v.Exact) : SlabInv fit G L' h' live' where
  fits := by
    rw [hrest]
    exact hinv.fits.update ..
  inside := by
    intro i hi
    exact hinv.inside i fun hout => hi ((hset.use i _ (by simp) (by simp)).mpr hout)
  table := by
    intro x hle hlt
    obtain ⟨hstart, huse⟩ := hinv.table x hle hlt
    exact ⟨hstart, (hset.use _ _ (by simp) (by simp)).mpr huse⟩
  free := by
    have hfree : {i | L'.use i = .free} = {i | L.use i = .free} := by
      ext i
      exact hset.use i _ (by simp) (by simp)
    rw [hfree]
    -- the list nodes inside the free pages are outside the zone
    refine hinv.free.congr ?_ (by rw [hrest])
    intro y hy x hle hlt
    obtain ⟨-, hfree⟩ := free_owner hy hle hlt
    exact hinv.zoneFrame_use hroom hframe (by simp [hfree]) (by simp [hfree])
  -- the zone itself is as the hypotheses say, the others are not touched
  zone_iff := by
    intro i z
    by_cases hne : z = z0
    · subst hne
      rw [hset.self]
      exact ⟨fun hin => ⟨hset.first, hin⟩, fun hin => hin.2⟩
    · rw [hset.use_zone hne, hset.use_zone hne]
      exact hinv.zone_iff i z
  usage := by
    intro i z hi
    by_cases hne : z = z0
    · subst hne
      have hin := (hset.self i).mp hi
      have := hroom.1
      rw [hinv.zoneFrame_entry hroom hframe (by omega)]
      exact hentry i hin.1 hin.2
    · have huse := (hset.use_zone hne).mp hi
      rw [hinv.zoneFrame_entry hroom hframe (hinv.inside i (by simp [huse]))]
      exact hinv.usage i z huse
  zones := by
    intro z hz
    by_cases hne : z = z0
    · subst hne
      rw [hset.zone]
      exact hzone
    · have huse := (hset.use_zone hne).mp hz
      rw [hset.zone_of_ne z hne]
      exact hinv.zoneMem_congr huse fun x hle hlt hnext =>
        hinv.zoneFrame_zone hroom hframe huse hne hle hlt hnext
  array := harray
  array_mem := harray_mem
  freeZones := hzones
  freeZones_mem := hzones_mem
  freeCnt := hcnt
  placed := hplaced
  nodup := hnodup
  exact := by
    intro hfit z hz
    by_cases hne : z = z0
    · subst hne
      rw [hset.zone]
      exact hexact hfit
    · rw [hset.zone_of_ne z hne]
      exact hinv.exact hfit z ((hset.use_zone hne).mp hz)

end

end

/-! ## Pages -/

theorem pageAlloc (hinv : SlabInv fit G L h live) (hn : 0 < n) (hfuel : G.npages < fuel) :
    skPageAlloc fuel h n = some (0, h) ∧ ¬FreeRun L n ∨
    ∃ i h', skPageAlloc fuel h n = some (G.addr i, h') ∧ i + n ≤ G.npages ∧
      L.Holds i n .free ∧ SlabInv fit G (L.setUse i n .taken) h' live := by
  cases hinv.free.alloc G.area hn with
  | inl hnone => exact .inl ⟨hnone.1 fuel hfuel, hnone.2⟩
  | inr hsome =>
    obtain ⟨i, h', hrun, hin, hlist, hframe⟩ := hsome
    refine .inr ⟨i, h', hrun fuel hfuel, ?_, hin, ?_⟩
    · have hlast := hin (i + n - 1) (by omega) (by omega)
      have := hinv.inside (i + n - 1) (by simp [show L.use (i + n - 1) = .free from hlast])
      omega
    · refine hinv.repage hframe.rest ?_ ?_ ?_ ?_
      · intro k hkept
        show (if i ≤ k ∧ k < i + n then PageUse.taken else L.use k) = L.use k
        split
        · rename_i hk
          rw [if_pos hk, show L.use k = .free from hin k hk.1 hk.2] at hkept
          exact (hkept.elim id id).elim
        · rfl
      · intro x hstart hheld
        refine hframe.mem x fun k hk => ?_
        by_contra hhead
        have := (free_owner (x := x) (show L.use k = .free from hk.1) (by omega) (by omega)).2
        simp [this] at hheld
      · intro k hk
        by_cases hkin : i ≤ k ∧ k < i + n
        · exact hinv.inside k (by simp [show L.use k = .free from hin k hkin.1 hkin.2])
        · exact hinv.inside k (by simpa only [if_neg hkin] using hk)
      · have hset : {k | (if i ≤ k ∧ k < i + n then PageUse.taken else L.use k) = .free} =
            {k | L.use k = .free} \ Set.Ico i (i + n) := by
          ext k
          simp only [Set.mem_ofPred_eq, Set.mem_sdiff, Set.mem_Ico]
          split <;> simp_all
        rw [hset]
        exact hlist

/-- `sk_page_free` makes pages free that hold nothing. -/
theorem pageFree (hinv : SlabInv fit G L h live) (hn : 0 < n) (hle : i + n ≤ G.npages)
    (huse : L.Holds i n .taken) (hfuel : G.npages < fuel) :
    ∃ h', skPageFree fuel h (G.addr i) n = some h' ∧ SlabInv fit G (L.setUse i n .free) h' live ∧
      ∀ x, G.start ≤ x → L.use (G.page x) = .table → h'.mem x = h.mem x := by
  have hnew : ∀ k, i ≤ k → k < i + n → k ∉ {k | L.use k = .free} := by
    intro k hik hkn
    simp [huse k hik hkn]
  obtain ⟨h', hrun, hlist, hframe⟩ := hinv.free.free G.area hn hle hnew
  -- only the heads of free pages are written
  have hmem : ∀ x, G.start ≤ x →
      (L.use (G.page x) = .table ∨ ∃ z, L.use (G.page x) = .zone z) → h'.mem x = h.mem x := by
    intro x hstart hheld
    refine hframe.mem x fun k hk => ?_
    by_contra hhead
    have hpage := Geometry.page_of_mem (G := G) (i := k) (n := 1) (x := x)
      (by unfold Geometry.addr; omega) (by unfold Geometry.addr pageSize; omega)
    rw [show G.page x = k by omega] at hheld
    cases hk with
    | inl hfree => simp [show L.use k = .free from hfree] at hheld
    | inr hin => simp [huse k hin.1 hin.2] at hheld
  refine ⟨h', hrun fuel hfuel, ?_, fun x hstart htable => hmem x hstart (.inl htable)⟩
  refine hinv.repage hframe.rest ?_ hmem ?_ ?_
  · intro k hkept
    show (if i ≤ k ∧ k < i + n then PageUse.free else L.use k) = L.use k
    split
    · rename_i hk
      rw [if_pos hk, huse k hk.1 hk.2] at hkept
      exact (hkept.elim id id).elim
    · rfl
  · intro k hk
    by_cases hkin : i ≤ k ∧ k < i + n
    · omega
    · exact hinv.inside k (by simpa only [if_neg hkin] using hk)
  · have hset : {k | (if i ≤ k ∧ k < i + n then PageUse.free else L.use k) = .free} =
        {k | L.use k = .free} ∪ Set.Ico i (i + n) := by
      ext k
      simp only [Set.mem_ofPred_eq, Set.mem_union, Set.mem_Ico]
      split <;> simp_all
    rw [hset]
    exact hlist

/-! ## Blocks -/

theorem large_owner (huse : L.Holds i n (.large i)) (hle : G.addr i ≤ x)
    (hlt : x < G.addr i + n * pageSize) : G.start ≤ x ∧ L.use (G.page x) = .large i := by
  obtain ⟨hstart, hpage⟩ := Geometry.page_of_mem hle hlt
  exact ⟨hstart, huse _ hpage.1 hpage.2⟩

section

variable (hinv : SlabInv fit G L h live)
include hinv

theorem chunk_start (hz : L.use z = .zone z) (hj : j < (L.zone z).nmax)
    (hx : x = (L.zone z).chunkAddr (G.addr z) j) : G.start ≤ x ∧ L.use (G.page x) = .zone z := by
  have hin := (L.zone z).chunkAddr_bounds (G.addr z) hj
  exact hinv.zone_owner hz (by omega) (by omega)

theorem chunk_owner (hfit : fit) (hz : L.use z = .zone z) (hj : j ≤ (L.zone z).uindex)
    (hle : (L.zone z).chunkAddr (G.addr z) j ≤ x)
    (hlt : x < (L.zone z).chunkAddr (G.addr z) j + (L.zone z).chunk) :
    G.start ≤ x ∧ L.use (G.page x) = .zone z := by
  have hin := Zone.chunk_end_le (hinv.exact hfit z hz) (G.addr z) hj
  have hoff := (L.zone z).offset_ge
  have hbounds := (L.zone z).chunkAddr_bounds (G.addr z)
    (Zone.lt_nmax hj)
  exact hinv.zone_owner hz (by omega) (by omega)

/-- No live block starts on a page that holds nothing. -/
theorem ptr_ne_of_taken (hb : b ∈ live) (huse : L.use (G.page x) = .taken) : b.ptr ≠ x := by
  intro heq
  rw [← heq] at huse
  cases hinv.placed b hb with
  | large i n hn hptr hsize hlarge hentry =>
    rw [hptr, Geometry.page_addr, hlarge i (Nat.le_refl i) (by omega)] at huse
    cases huse
  | small z j hz hused hptr hsize =>
    rw [(hinv.chunk_start hz (Zone.lt_nmax hused.1) hptr).2] at huse
    cases huse

theorem ptr_ne_of_not_used (hb : b ∈ live) (hz : L.use z = .zone z) (w : Zone G.zoneSize)
    (hsame : ∀ k, (L.zone z).Used k →
      w.chunkAddr (G.addr z) k = (L.zone z).chunkAddr (G.addr z) k) (hused : ¬(L.zone z).Used j)
    (hj : j < w.nmax) : b.ptr ≠ w.chunkAddr (G.addr z) j := by
  intro heq
  have hin := w.chunkAddr_bounds (G.addr z) hj
  have howner := (hinv.zone_owner (x := b.ptr) hz (by omega) (by omega)).2
  cases hinv.placed b hb with
  | large i n hn hptr hsize hlarge hentry =>
    rw [hptr, Geometry.page_addr, hlarge i (Nat.le_refl i) (by omega)] at howner
    cases howner
  | small y k hy hk hptr hsize =>
    have howner' := (hinv.chunk_start hy (Zone.lt_nmax hk.1) hptr).2
    rw [howner] at howner'
    cases howner'
    rw [heq, ← hsame k hk] at hptr
    rw [Zone.chunkAddr_inj.mp hptr] at hused
    exact hused hk

/-- Between large blocks and pages that hold nothing. -/
theorem relabel (hsame : ∀ k u, u ≠ .taken → (∀ i, u ≠ .large i) → (use' k = u ↔ L.use k = u))
    (hplaced : ∀ b ∈ live', Placed fit G { L with use := use' } h.mem b)
    (hnodup : (live'.map Block.ptr).Nodup) : SlabInv fit G { L with use := use' } h live' := by
  have hset : {i | use' i = .free} = {i | L.use i = .free} := by
    ext i
    exact hsame i .free (by simp) (by simp)
  refine hinv.relayout rfl ?_ (fun i => (hsame i _ (by simp) (by simp)).mpr)
    (fun i z => hsame i _ (by simp) (by simp)) (fun _ _ _ _ _ => rfl) (fun _ _ _ => rfl) ?_ hplaced
    hnodup
  · intro i hi
    exact hinv.inside i fun hout => hi ((hsame i .outside (by simp) (by simp)).mpr hout)
  · rw [hset]
    exact hinv.free

/-- Pages that hold nothing become a large block. -/
theorem addLarge (hn : 0 < n) (huse : L.Holds i n .taken)
    (hentry : load h.mem 4 (G.entry i) = n * 4 + pageTypeLarge) {size : Nat}
    (hsize : size ≤ n * pageSize ∧ G.limit ≤ size ∧ numBlockPages size = n) :
    SlabInv fit G (L.setUse i n (.large i)) h (⟨G.addr i, size⟩ :: live) := by
  have hfirst := huse i (Nat.le_refl i) (by omega)
  refine hinv.relabel (fun k u htaken hlarge => Layout.setUse_iff huse (hlarge i) htaken k) ?_ ?_
  · intro b hb
    cases mem_cons.mp hb with
    | inl heq =>
      subst heq
      exact .large i n hn rfl hsize Layout.holds_setUse hentry
    | inr hb =>
      cases hinv.placed b hb with
      | large y k hk hptr hysize hlarge hyentry =>
        have hy := hlarge y (Nat.le_refl y) (by omega)
        have hne : y ≠ i := by
          intro heq
          rw [heq, hfirst] at hy
          cases hy
        refine .large y k hk hptr hysize ?_ hyentry
        intro w hyw hwk
        exact (Layout.setUse_iff huse (by simp [hne]) (by simp) w).mpr (hlarge w hyw hwk)
      | small z j hz hused hptr hzsize =>
        exact .small z j ((Layout.setUse_iff huse (by simp) (by simp) z).mpr hz) hused hptr hzsize
  · refine nodup_cons.mpr ⟨?_, hinv.nodup⟩
    intro hin
    obtain ⟨b, hb, hptr⟩ := List.mem_map.mp hin
    exact hinv.ptr_ne_of_taken hb (by rw [Geometry.page_addr]; exact hfirst) hptr

end

/-- The live blocks without the one at `p`. -/
def without (live : List Block) (p : Nat) : List Block := live.filter (·.ptr ≠ p)

theorem mem_without : b ∈ without live p ↔ b ∈ live ∧ b.ptr ≠ p := by
  unfold without
  rw [mem_filter, decide_eq_true_iff]

variable (hinv : SlabInv fit G L h live)
include hinv

theorem nodup_without (p : Nat) : ((without live p).map Block.ptr).Nodup :=
  hinv.nodup.sublist (filter_sublist.map Block.ptr)

/-- The pages of a large block come back. -/
theorem removeLarge (huse : L.Holds i n (.large i)) :
    SlabInv fit G (L.setUse i n .taken) h (without live (G.addr i)) := by
  refine hinv.relabel (fun k u htaken hlarge => Layout.setUse_iff huse htaken (hlarge i) k) ?_
    (hinv.nodup_without _)
  intro b hb
  obtain ⟨hb, hne⟩ := mem_without.mp hb
  cases hinv.placed b hb with
  | large y k hk hptr hysize hlarge hyentry =>
    have hyi : y ≠ i := by
      intro heq
      rw [heq] at hptr
      exact hne hptr
    refine .large y k hk hptr hysize ?_ hyentry
    intro w hyw hwk
    exact (Layout.setUse_iff huse (by simp) (by simp [hyi]) w).mpr (hlarge w hyw hwk)
  | small z j hz hused hptr hzsize =>
    exact .small z j ((Layout.setUse_iff huse (by simp) (by simp) z).mpr hz) hused hptr hzsize

/-- Its pages hold nothing then. -/
theorem popFreeZone {rest : List Nat} (hzones : L.freeZones = z0 :: rest) :
    SlabInv fit G { L.setUse z0 G.zonePages .taken with freeZones := rest }
      { h with
        sysZoneFree := load h.mem 8 (G.addr z0 + zNext)
        sysZoneFreeCnt := h.sysZoneFreeCnt - 1 } live := by
  obtain ⟨hz0, hall⟩ := hinv.freeZones_mem z0 (by rw [hzones]; exact mem_cons_self)
  have hlist := hinv.freeZones
  have hnodup := hlist.nodup
  rw [hzones] at hlist hnodup
  have hnot := (nodup_cons.mp hnodup).1
  have hsame : ∀ k u, u ≠ .taken → u ≠ .zone z0 →
      ((L.setUse z0 G.zonePages .taken).use k = u ↔ L.use k = u) := fun k u htaken hzone =>
    Layout.setUse_iff (hinv.zone_holds hz0) htaken hzone k
  -- no page belongs to the zone any more
  have hgone : ∀ k, (L.setUse z0 G.zonePages .taken).use k ≠ .zone z0 := by
    intro k
    show (if z0 ≤ k ∧ k < z0 + G.zonePages then PageUse.taken else L.use k) ≠ _
    split
    · simp
    · rename_i hk
      intro heq
      exact hk ((hinv.zone_iff k z0).mp heq).2
  have hzone : ∀ k z, (L.setUse z0 G.zonePages .taken).use k = .zone z ↔
      z ≠ z0 ∧ L.use k = .zone z := by
    intro k z
    by_cases hz : z = z0
    · rw [hz]
      simp [hgone k]
    · rw [hsame k (.zone z) (by simp) (by simp [hz])]
      simp [hz]
  exact {
    fits := hinv.fits.update ..
    inside := by
      intro i hi
      exact hinv.inside i fun hout => hi ((hsame i .outside (by simp) (by simp)).mpr hout)
    table := by
      intro x hle hlt
      obtain ⟨hstart, huse⟩ := hinv.table x hle hlt
      exact ⟨hstart, (hsame _ .table (by simp) (by simp)).mpr huse⟩
    free := by
      have hset : {i | (L.setUse z0 G.zonePages .taken).use i = .free} = {i | L.use i = .free} := by
        ext i
        exact hsame i .free (by simp) (by simp)
      show PageList G.start G.npages {i | (L.setUse z0 G.zonePages .taken).use i = .free} _
      rw [hset]
      exact hinv.free.congr (fun _ _ _ _ _ => rfl) rfl
    zone_iff := by
      intro i z
      show (L.setUse z0 G.zonePages .taken).use i = _ ↔
        (L.setUse z0 G.zonePages .taken).use z = _ ∧ _
      rw [hzone, hzone, hinv.zone_iff i z, and_assoc]
    usage := fun i z hi => hinv.usage i z ((hzone i z).mp hi).2
    zones := fun z hz => hinv.zones z ((hzone z z).mp hz).2
    array := hinv.array
    array_mem := by
      intro index z
      show z ∈ L.array index ↔ (L.setUse z0 G.zonePages .taken).use z = _ ∧ _
      rw [hzone, hinv.array_mem, hzones, mem_cons, not_or]
      tauto
    freeZones := hlist.2.2
    freeZones_mem := by
      intro z hz
      have hne : z ≠ z0 := by
        intro heq
        rw [heq] at hz
        exact hnot hz
      obtain ⟨huse, hfree⟩ := hinv.freeZones_mem z (by rw [hzones]; exact mem_cons_of_mem _ hz)
      exact ⟨(hzone z z).mpr ⟨hne, huse⟩, hfree⟩
    freeCnt := by
      show h.sysZoneFreeCnt - 1 = (rest.length : Int)
      rw [hinv.freeCnt, hzones, length_cons]
      omega
    placed := by
      intro b hb
      cases hinv.placed b hb with
      | large y k hk hptr hysize hlarge hyentry =>
        exact .large y k hk hptr hysize
          (fun w hyw hwk => (hsame w (.large y) (by simp) (by simp)).mpr (hlarge w hyw hwk))
          hyentry
      | small z j hz hused hptr hzsize =>
        have hne : z ≠ z0 := by
          intro heq
          rw [heq] at hused
          exact Zone.not_used_of_nfree hall j hused
        exact .small z j ((hzone z z).mpr ⟨hne, hz⟩) hused hptr hzsize
    nodup := hinv.nodup
    exact := fun hfit z hz => hinv.exact hfit z ((hzone z z).mp hz).2 }

theorem agreeOff_pop (hz0 : L.use z0 = .zone z0) (rest : List Nat) :
    L.AgreeOff { L.setUse z0 G.zonePages .taken with freeZones := rest } z0 := by
  refine ⟨?_, fun _ _ => rfl⟩
  intro z hne
  exact Layout.setUse_iff (hinv.zone_holds hz0) (by simp) (by simp [hne]) z

end SlabInv

end SKernel.Spec
