import SKernel.Spec.SlabInv

/-!
# `sk_malloc` and `sk_free` on a heap layout

## Key results

- `SlabInv.malloc_returns`, `SlabInv.free_returns`: the calls complete and keep the layout
- `SlabInv.free_releases`: what is left of it when a zone is released
-/

namespace SKernel.Spec

open Native ByteMem Chain Function List Option

variable {fit : Prop} {G : Geometry} {L : Layout G.zoneSize} {h h' : Heap} {m m' : Mem}
  {live : List Block} {b : Block} {i j n x z z0 p index chunk size fuel t : Nat} {l rest : List Nat}
variable {arr f : Nat → Nat} {array : Nat → List Nat}

theorem limit_cases (G : Geometry) : G.limit = 8192 ∨ G.limit = 16384 := by
  have := G.sizes
  omega

namespace SlabInv

/-! ## Allocation from a zone -/

/-- The zone at `z`, which is not set aside, has become `w`. -/
def Served (fit : Prop) (G : Geometry) (L : Layout G.zoneSize) (z : Nat) (w : Zone G.zoneSize)
    (h : Heap) (live : List Block) : Prop :=
  ∃ L', SlabInv fit G L' h live ∧ L.Becomes L' z w ∧ L'.freeZones = L.freeZones

private theorem next_of_outside (hinv : SlabInv fit G L h live) (hroom : ZoneRoom G L z0)
    (hout : SameOutside h.mem m' (G.addr z0) G.zoneSize)
    (hz : L.use z = .zone z) (hne : z ≠ z0) :
    load m' 8 (G.addr z + zNext) = load h.mem 8 (G.addr z + zNext) := by
  refine next_congr (L.zone z) fun x hle hlt => hout x ?_
  have howner := (hinv.zone_owner hz hle hlt).2
  exact hroom.outside (by simp [howner, hne]) (by simp [howner])

section

variable {L' : Layout G.zoneSize} {v w : Zone G.zoneSize}

section

variable (hinv : SlabInv fit G L h live)
include hinv

private theorem freeZones_setZone (hset : L.SetsZone L' z0 v) (hnot : z0 ∉ L.freeZones) :
    ∀ z ∈ L.freeZones, L'.use z = .zone z ∧ (L'.zone z).nfree = (L'.zone z).nmax := by
  intro z hz
  have hne := ne_of_mem_of_not_mem hz hnot
  rw [hset.use_zone hne, hset.zone_of_ne z hne]
  exact hinv.freeZones_mem z hz

private theorem array_mem_setZone (hset : L.SetsZone L' z0 v)
    (hzones : ∀ z, z ≠ z0 → (z ∈ L'.freeZones ↔ z ∈ L.freeZones))
    (hother : ∀ k z, z ≠ z0 → (z ∈ L'.array k ↔ z ∈ L.array k))
    (hself : ∀ k, z0 ∈ L'.array k ↔ v.index = k ∧ 0 < v.nfree ∧ z0 ∉ L'.freeZones) (k z : Nat) :
    z ∈ L'.array k ↔ L'.use z = .zone z ∧ (L'.zone z).index = k ∧ 0 < (L'.zone z).nfree ∧
      z ∉ L'.freeZones := by
  by_cases hne : z = z0
  · subst hne
    rw [hself, hset.zone]
    exact ⟨fun hin => ⟨hset.first, hin⟩, fun hin => hin.2⟩
  · rw [hother k z hne, hinv.array_mem, hset.use_zone hne, hset.zone_of_ne z hne, hzones z hne]

private theorem placed_take (hset : L.SetsZone L' z0 w)
    (hz0 : L.use z0 = .zone z0) (hframe : ZoneFrame G L z0 h.mem m')
    (htakes : (L.zone z0).Takes chunk j w) (hsize : size < G.limit ∧ (fit → size ≤ w.chunk)) :
    ∀ b ∈ (⟨w.chunkAddr (G.addr z0) j, size⟩ :: live : List Block), Placed fit G L' m' b := by
  intro b hb
  cases mem_cons.mp hb with
  | inl heq =>
    have hused : w.Used j := (htakes.used j).mpr (.inr rfl)
    rw [← hset.zone] at heq hused hsize
    subst heq
    exact .small z0 j hset.first hused rfl hsize
  | inr hb =>
    exact hinv.placed_setZone (hinv.zoneRoom hz0) hset hframe hb fun _ =>
      ⟨htakes.chunk, fun k hk _ =>
        ⟨(htakes.used k).mpr (.inl hk), htakes.chunkAddr (G.addr z0) hk.1⟩⟩

private theorem nodup_take (hz0 : L.use z0 = .zone z0) (htakes : (L.zone z0).Takes chunk j w) :
    ((⟨w.chunkAddr (G.addr z0) j, size⟩ :: live : List Block).map Block.ptr).Nodup := by
  have hused : w.Used j := (htakes.used j).mpr (.inr rfl)
  refine nodup_cons.mpr ⟨?_, hinv.nodup⟩
  intro hin
  obtain ⟨b, hb, hptr⟩ := List.mem_map.mp hin
  exact hinv.ptr_ne_of_not_used hb hz0 w (fun k hk => htakes.chunkAddr (G.addr z0) hk.1)
    htakes.fresh (Zone.lt_nmax hused.1) hptr

end

end

section

variable (hinv : SlabInv fit G L h live)
include hinv

private theorem index_of_mem {k : Nat} (hz : z ∈ L.array index) : z ∈ L.array k ↔ k = index := by
  have hindex := ((hinv.array_mem index z).mp hz).2.1
  constructor
  · intro hk
    exact ((hinv.array_mem k z).mp hk).2.1.symm.trans hindex
  · intro heq
    rw [heq]
    exact hz

private theorem array_of_outside (hroom : ZoneRoom G L z0)
    (hout : SameOutside h.mem m' (G.addr z0) G.zoneSize)
    (hl : ZoneList G h.mem p l) (huse : ∀ z ∈ l, L.use z = .zone z) (hnot : z0 ∉ l) :
    ZoneList G m' p l :=
  hl.congr fun z hz =>
    hinv.next_of_outside hroom hout (huse z hz) (ne_of_mem_of_not_mem hz hnot)

private theorem array_keep (hroom : ZoneRoom G L z0)
    (hout : SameOutside h.mem m' (G.addr z0) G.zoneSize)
    (hnext : load m' 8 (G.addr z0 + zNext) = load h.mem 8 (G.addr z0 + zNext)) (k : Nat) :
    ZoneList G m' (h.sysZoneArray k) (L.array k) := by
  refine (hinv.array k).congr fun z hz => ?_
  by_cases hne : z = z0
  · rw [hne]
    exact hnext
  · exact hinv.next_of_outside hroom hout ((hinv.array_mem k z).mp hz).1 hne

private theorem array_join (hroom : ZoneRoom G L z0)
    (hout : SameOutside h.mem m' (G.addr z0) G.zoneSize)
    (hnot : ∀ k, z0 ∉ L.array k) (hnext : load m' 8 (G.addr z0 + zNext) = h.sysZoneArray index)
    (k : Nat) :
    ZoneList G m' (update h.sysZoneArray index (G.addr z0) k)
      (update L.array index (z0 :: L.array index) k) := by
  have hkeep : ∀ k, ZoneList G m' (h.sysZoneArray k) (L.array k) := fun k =>
    hinv.array_of_outside hroom hout (hinv.array k)
      (fun z hz => ((hinv.array_mem k z).mp hz).1) (hnot k)
  exact forall_update₂ (fun _ => ZoneList G m') ((hkeep index).cons (fun _ _ => rfl) hnext)
    (fun k _ => hkeep k) k

end

private theorem mem_array_join (L : Layout G.zoneSize) (index k : Nat) (hne : z ≠ z0) :
    z ∈ update L.array index (z0 :: L.array index) k ↔ z ∈ L.array k := by
  refine (mem_update_insert (nil_append (L.array index)).symm).trans ?_
  simp [hne]

private theorem self_mem_array_join (hnot : ∀ k, z0 ∉ L.array k) (index k : Nat) :
    z0 ∈ update L.array index (z0 :: L.array index) k ↔ index = k := by
  refine (mem_update_insert (nil_append (L.array index)).symm).trans ?_
  simp [hnot k, eq_comm]

section

variable (hinv : SlabInv fit G L h live)
include hinv

/-- The list of a class without its first zone. -/
theorem array_tail (harr : L.array index = z0 :: rest) :
    ZoneList G h.mem (load h.mem 8 (G.addr z0 + zNext)) rest ∧ z0 ∉ rest ∧
      ∀ z ∈ rest, L.use z = .zone z := by
  have hlist := hinv.array index
  have hnodup := hlist.nodup
  rw [harr] at hlist hnodup
  refine ⟨hlist.2.2, (nodup_cons.mp hnodup).1, ?_⟩
  intro z hz
  have hin : z ∈ L.array index := by
    rw [harr]
    exact mem_cons_of_mem _ hz
  exact ((hinv.array_mem index z).mp hin).1

/-- One zone that is not set aside changes. -/
theorem serveStep {live' : List Block} {v : Zone G.zoneSize} (hroom : ZoneRoom G L z0)
    (hnotfree : z0 ∉ L.freeZones) (hout : SameOutside h.mem m' (G.addr z0) G.zoneSize)
    (hentry : G.ZoneEntries h.mem z0) (hzone : ZoneMem m' (G.addr z0) v.nfree v)
    (harray : ∀ k, ZoneList G m' (arr k) (array k))
    (hother : ∀ k z, z ≠ z0 → (z ∈ array k ↔ z ∈ L.array k))
    (hself : ∀ k, z0 ∈ array k ↔ v.index = k ∧ 0 < v.nfree)
    (hplaced : ∀ L', L.SetsZone L' z0 v → ∀ b ∈ live', Placed fit G L' m' b)
    (hnodup : (live'.map Block.ptr).Nodup) (hexact : fit → v.Exact) :
    Served fit G L z0 v { h with mem := m', sysZoneArray := arr } live' := by
  have hset := hinv.setsZone hroom v array L.freeZones
  refine ⟨_, hinv.zoneStep rfl hroom hset (.of_outside hout) hentry hzone harray
    (hinv.array_mem_setZone hset (fun _ _ => Iff.rfl) hother ?_) ?_
    (hinv.freeZones_setZone hset hnotfree) hinv.freeCnt (hplaced _ hset) hnodup hexact,
    hset.becomes, rfl⟩
  · intro k
    exact (hself k).trans ⟨fun hk => ⟨hk.1, hk.2, hnotfree⟩, fun hk => ⟨hk.1, hk.2.1⟩⟩
  · exact hinv.array_of_outside hroom hout hinv.freeZones
      (fun z hz => (hinv.freeZones_mem z hz).1) hnotfree

section

variable {w : Zone G.zoneSize} (hin : z0 ∈ L.array index) (htakes : (L.zone z0).Takes chunk j w)
  (hzone : ZoneMem m' (G.addr z0) w.nfree w)
  (hout : SameOutside h.mem m' (G.addr z0) G.zoneSize)
  (hsize : size < G.limit ∧ (fit → size ≤ w.chunk)) (hexact : fit → w.Exact)
include hin htakes hzone hout hsize hexact

/-- A chunk is handed out by a zone of a class. -/
theorem takeChunk (harray : ∀ k, ZoneList G m' (arr k) (array k))
    (hother : ∀ k z, z ≠ z0 → (z ∈ array k ↔ z ∈ L.array k))
    (hself : ∀ k, z0 ∈ array k ↔ index = k ∧ 0 < w.nfree) :
    Served fit G L z0 w { h with mem := m', sysZoneArray := arr }
      (⟨w.chunkAddr (G.addr z0) j, size⟩ :: live) := by
  obtain ⟨hz0, hindex, -, hnotfree⟩ := (hinv.array_mem index z0).mp hin
  refine hinv.serveStep (hinv.zoneRoom hz0) hnotfree hout (hinv.zone_entries hz0) hzone harray
    hother ?_ (fun _ hset => hinv.placed_take hset hz0 (.of_outside hout) htakes hsize)
    (hinv.nodup_take hz0 htakes) hexact
  intro k
  rw [hself, htakes.index, hindex]

private theorem mallocZone_full (harr : L.array index = z0 :: rest) (hone : (L.zone z0).nfree = 1) :
    Served fit G L z0 w { h with
        mem := m'
        sysZoneArray := update h.sysZoneArray index (load h.mem 8 (G.addr z0 + zNext)) }
      (⟨w.chunkAddr (G.addr z0) j, size⟩ :: live) := by
  obtain ⟨hrest, hnotrest, huse⟩ := hinv.array_tail harr
  have hroom := hinv.zoneRoom ((hinv.array_mem index z0).mp hin).1
  have harray : ∀ k, ZoneList G m'
      (update h.sysZoneArray index (load h.mem 8 (G.addr z0 + zNext)) k)
      (update L.array index rest k) := by
    apply forall_update₂ (fun _ => ZoneList G m')
    · exact hinv.array_of_outside hroom hout hrest huse hnotrest
    · intro k hk
      exact hinv.array_of_outside hroom hout (hinv.array k)
        (fun z hz => ((hinv.array_mem k z).mp hz).1)
        (fun hz => hk ((hinv.index_of_mem hin).mp hz))
  refine hinv.takeChunk hin htakes hzone hout hsize hexact harray ?_ ?_
  · intro k z hne
    by_cases hk : k = index
    · subst hk
      rw [update_self, harr, mem_cons]
      simp [hne]
    · rw [update_of_ne hk]
  · -- the zone is full, and on no list
    intro k
    have := htakes.nfree
    have hnot : z0 ∉ update L.array index rest k := by
      by_cases hk : k = index
      · subst hk
        rw [update_self]
        exact hnotrest
      · rw [update_of_ne hk]
        exact fun hz => hk ((hinv.index_of_mem hin).mp hz)
    exact ⟨fun hz => absurd hz hnot, fun hw => by omega⟩

private theorem mallocZone_more (hone : (L.zone z0).nfree ≠ 1)
    (hnext : load m' 8 (G.addr z0 + zNext) = load h.mem 8 (G.addr z0 + zNext)) :
    Served fit G L z0 w { h with mem := m' } (⟨w.chunkAddr (G.addr z0) j, size⟩ :: live) := by
  obtain ⟨hz0, -, hpos, -⟩ := (hinv.array_mem index z0).mp hin
  refine hinv.takeChunk hin htakes hzone hout hsize hexact
    (hinv.array_keep (hinv.zoneRoom hz0) hout hnext) (fun _ _ _ => Iff.rfl) ?_
  intro k
  have hnfree := htakes.nfree
  rw [hinv.index_of_mem hin]
  exact ⟨fun heq => ⟨heq.symm, by omega⟩, fun heq => heq.1.symm⟩

end

theorem mallocZone (hhead : h.sysZoneArray index ≠ 0) (hclass : InClass index chunk)
    (hchunk : fit → h.get32 (h.sysZoneArray index + zChunksize) = chunk) (hsize : size ≤ chunk)
    (hlt : size < G.limit) :
    ∃ p h' z j w, Native.mallocZone h (h.sysZoneArray index) index chunk = (p, h') ∧ p ≠ 0 ∧
      Served fit G L z w h' (⟨p, size⟩ :: live) ∧ z ∈ L.array index ∧
      h.sysZoneArray index = G.addr z ∧ (fit → w.chunk = chunk) ∧
      (L.zone z).Takes chunk j w ∧ w.free = (L.zone z).free.erase j ∧
      p = w.chunkAddr (G.addr z) j := by
  have hlist := hinv.array index
  cases harr : L.array index with
  | nil =>
    rw [harr] at hlist
    exact absurd hlist hhead
  | cons z0 rest =>
    rw [harr] at hlist
    have hzero : h.sysZoneArray index = G.addr z0 := hlist.1
    have hin : z0 ∈ L.array index := by
      rw [harr]
      exact mem_cons_self
    obtain ⟨hz0, hindex, hpos, -⟩ := (hinv.array_mem index z0).mp hin
    rw [hzero] at hchunk
    have hchunk0 : fit → (L.zone z0).chunk = chunk :=
      fun hfit => (hinv.zones z0 hz0).chunksize.symm.trans (hchunk hfit)
    rw [← hindex] at hclass
    obtain ⟨j, w, m', htakes, hfree, heq, hzone, hout, hnext⟩ :=
      mallocZone_zone (h := h) index (hinv.zones z0 hz0) hclass hpos (hinv.zone_lt hz0)
    have hout' := hout.mono (header_le w)
    have hw : fit → w.chunk = chunk := fun hfit => htakes.chunk.trans (hchunk0 hfit)
    have hsize' : size < G.limit ∧ (fit → size ≤ w.chunk) := by
      refine ⟨hlt, fun hfit => ?_⟩
      rw [hw hfit]
      exact hsize
    have hexact : fit → w.Exact := by
      intro hfit
      rw [← hchunk0 hfit] at htakes
      exact htakes.exact (hinv.exact hfit z0 hz0)
    rw [hzero, heq]
    refine ⟨_, _, z0, j, w, rfl, chunkAddr_ne_zero w z0 j, ?_, mem_cons_self, rfl, hw, htakes,
      hfree, rfl⟩
    -- a zone leaves its class list with its last free chunk
    by_cases hone : (L.zone z0).nfree = 1
    · rw [if_pos hone]
      exact hinv.mallocZone_full hin htakes hzone hout' hsize' hexact harr hone
    · rw [if_neg hone]
      exact hinv.mallocZone_more hin htakes hzone hout' hsize' hexact hone (hnext hone)

theorem zoneList_lt (hl : ZoneList G m p l) (huse : ∀ z ∈ l, L.use z = .zone z) : p < 2 ^ 64 := by
  cases l with
  | nil =>
    rw [show p = 0 from hl]
    decide
  | cons y rest =>
    have := hinv.zone_lt (huse y mem_cons_self)
    rw [show p = G.addr y from hl.1]
    omega

private theorem array_lt (index : Nat) : h.sysZoneArray index < 2 ^ 64 :=
  hinv.zoneList_lt (hinv.array index) fun z hz => ((hinv.array_mem index z).mp hz).1

/-! ## New zones -/

/-- The pages held nothing, and the first chunk is handed out. -/
theorem initZone (hin : z0 + G.zonePages ≤ G.npages)
    (htaken : L.Holds z0 G.zonePages .taken) (hentry : G.ZoneEntries h.mem z0) (hindex : index < 72)
    (hchunk : 8 ≤ chunk) (hclass : InClass index chunk) (hlimit : chunk ≤ G.limit)
    (hsize : size ≤ chunk) (hlt : size < G.limit) :
    ∃ p h' w, Native.initZone h (G.addr z0) index chunk = (p, h') ∧ p ≠ 0 ∧
      Served fit G L z0 w h' (⟨p, size⟩ :: live) ∧ w.index = index ∧ w.chunk = chunk ∧
      w.free = [] ∧ p = w.chunkAddr (G.addr z0) 0 := by
  have hsizes := G.sizes
  have hzs := G.zoneSize_le
  have hoff := zoneOffset_bounds hchunk (by omega)
  have hfit : zoneOffset chunk + 2 * chunk ≤ G.zoneSize := by
    unfold Geometry.zoneSize pageSize
    unfold slabZoneSize at hoff
    omega
  have hpos := G.zonePages_pos
  have hfirst := htaken z0 (Nat.le_refl _) (by omega)
  -- the pages are not part of a zone yet, so no list leads there
  have hnot : ∀ k, z0 ∉ L.array k := by
    intro k hk
    have huse := ((hinv.array_mem k z0).mp hk).1
    rw [hfirst] at huse
    cases huse
  have hnotfree : z0 ∉ L.freeZones := by
    intro hz
    have huse := (hinv.freeZones_mem z0 hz).1
    rw [hfirst] at huse
    cases huse
  have harray := hinv.array_lt index
  obtain ⟨w, m', hw, heq, hzone, hout, hnext⟩ := initZone_zone (h := h) (a := G.addr z0) hzs hindex
    hchunk hclass hfit hinv.fits.zoneSize (G.addr_end_lt hin) harray
  have hwindex : w.index = index := by rw [hw]; rfl
  have hwchunk : w.chunk = chunk := by rw [hw]; rfl
  have hwfree : w.free = [] := by rw [hw]; rfl
  have hwused : w.Used 0 := ⟨Nat.zero_le _, by rw [hwfree]; exact not_mem_nil⟩
  have hwnfree : 0 < w.nfree := by
    rw [hw]
    exact Zone.create_nfree_pos
  have hout' := hout.mono (header_le w)
  have hroom : ZoneRoom G L z0 := ⟨hin, fun i hle hlt => .inr (htaken i hle hlt)⟩
  rw [heq]
  refine ⟨_, _, w, rfl, chunkAddr_ne_zero w z0 0,
    hinv.serveStep hroom hnotfree hout' hentry hzone (hinv.array_join hroom hout' hnot hnext)
      (fun k _ hne => mem_array_join L index k hne) ?_ ?_ ?_ ?_, hwindex, hwchunk, hwfree, rfl⟩
  · intro k
    rw [self_mem_array_join hnot, hwindex]
    simp [hwnfree]
  · intro L' hset b hb
    cases mem_cons.mp hb with
    | inl hnew =>
      rw [← hset.zone] at hnew hwused hwchunk
      subst hnew
      exact .small z0 0 hset.first hwused rfl ⟨hlt, fun _ => by rw [hwchunk]; exact hsize⟩
    | inr hb =>
      refine hinv.placed_setZone hroom hset (.of_outside hout') hb fun huse => ?_
      rw [hfirst] at huse
      cases huse
  · refine nodup_cons.mpr ⟨?_, hinv.nodup⟩
    intro hptr
    obtain ⟨b, hb, hptr⟩ := List.mem_map.mp hptr
    refine hinv.ptr_ne_of_taken hb ?_ hptr
    have hinside := w.chunkAddr_bounds (G.addr z0) (show 0 < w.nmax by have := w.nmax_ge; omega)
    obtain ⟨-, hpage⟩ := Geometry.page_of_mem (G := G) (i := z0) (n := G.zonePages)
      (x := w.chunkAddr (G.addr z0) 0) (by omega)
      (show _ < G.addr z0 + G.zoneSize by omega)
    exact htaken _ hpage.1 hpage.2
  · intro _
    rw [hw]
    exact Zone.create_exact

end

/-! ## Usage entries -/

theorem btokup_addr (hfits : G.Fits h) (hi : i ≤ G.npages) : h.btokup (G.addr i) = G.entry i := by
  have hlt := G.addr_end_lt (i := i) (n := 0) hi
  have heq := G.addr_eq i
  unfold Heap.btokup Geometry.entry
  rw [hfits.start, hfits.usage, Nat.shiftRight_eq_div_pow]
  unfold pageShift
  unfold pageSize at heq
  congr 2
  omega

section

variable (hinv : SlabInv fit G L h live)
include hinv

/-- The entry of a page that holds nothing is set. -/
theorem setEntry (hi : i < G.npages) (huse : L.use i = .taken) (ht : t < 4) (hn : n < 2 ^ 30) :
    SlabInv fit G L ((h.setUsageType (G.entry i) t).setUsageSize (G.entry i) n) live ∧
      load ((h.setUsageType (G.entry i) t).setUsageSize (G.entry i) n).mem 4 (G.entry i) =
        n * 4 + t ∧
      ∀ k, k ≠ i → load ((h.setUsageType (G.entry i) t).setUsageSize (G.entry i) n).mem 4
        (G.entry k) = load h.mem 4 (G.entry k) := by
  refine ⟨(hinv.setUsage hi huse _).setUsage hi huse _, ?_, ?_⟩
  · unfold Heap.setUsageSize Heap.setUsageType Heap.usageType Heap.usageSize Heap.get32 Heap.set32
    dsimp only
    rw [load_store, load_store]
    omega
  · intro k hk
    have hapart : G.entry k + 4 ≤ G.entry i ∨ G.entry i + 4 ≤ G.entry k := by
      unfold Geometry.entry memUsageSize
      omega
    exact (load_store_of_disjoint hapart).trans (load_store_of_disjoint hapart)

private theorem zoneSetUsage_rounds (hin : z0 + G.zonePages ≤ G.npages)
    (htaken : L.Holds z0 G.zonePages .taken) (ht : t < 4) (hf : ∀ off < G.zonePages, f off < 2 ^ 30)
    (hn : n ≤ G.zonePages) :
    ∃ h', (List.range n).foldl (fun h off =>
        (h.setUsageType (G.entry z0 + memUsageSize * off) t).setUsageSize
          (G.entry z0 + memUsageSize * off) (f off)) h = h' ∧ SlabInv fit G L h' live ∧
      ∀ i, z0 ≤ i → i < z0 + n → load h'.mem 4 (G.entry i) = f (i - z0) * 4 + t := by
  induction n with
  | zero => exact ⟨h, rfl, hinv, fun i hle hlt => by omega⟩
  | succ n ih =>
    obtain ⟨h1, heq, hinv1, hentries⟩ := ih (by omega)
    have hpage : G.entry z0 + memUsageSize * n = G.entry (z0 + n) := by
      unfold Geometry.entry
      rw [Nat.mul_add]
      omega
    obtain ⟨hinv2, hnew, hold⟩ := hinv1.setEntry (i := z0 + n) (t := t) (n := f n)
      (by omega) (htaken _ (by omega) (by omega)) ht (hf n hn)
    refine ⟨_, ?_, hinv2, ?_⟩
    · rw [range_succ, foldl_append, heq, foldl_cons, foldl_nil, hpage]
    · intro i hle hlt
      by_cases hi : i = z0 + n
      · rw [hi, hnew, Nat.add_sub_cancel_left]
      · rw [hold i hi]
        exact hentries i hle (by omega)

theorem zoneSetUsage (hin : z0 + G.zonePages ≤ G.npages) (htaken : L.Holds z0 G.zonePages .taken)
    (ht : t < 4) (hf : ∀ off < G.zonePages, f off < 2 ^ 30) :
    SlabInv fit G L (Native.zoneSetUsage h (G.addr z0) t f) live ∧
      ∀ i, z0 ≤ i → i < z0 + G.zonePages →
        load (Native.zoneSetUsage h (G.addr z0) t f).mem 4 (G.entry i) = f (i - z0) * 4 + t := by
  obtain ⟨h', heq, hinv', hentries⟩ := hinv.zoneSetUsage_rounds hin htaken ht hf (Nat.le_refl _)
  unfold Native.zoneSetUsage
  rw [btokup_addr hinv.fits (by omega), hinv.fits.pageCnt, heq]
  exact ⟨hinv', hentries⟩

theorem newZone (hfuel : G.npages < fuel) :
    Native.newZone fuel h = some (0, h) ∧ L.freeZones = [] ∧ ¬FreeRun L G.zonePages ∨
    ∃ z0 h' L', Native.newZone fuel h = some (G.addr z0, h') ∧ SlabInv fit G L' h' live ∧
      z0 + G.zonePages ≤ G.npages ∧ L'.Holds z0 G.zonePages .taken ∧
      G.ZoneEntries h'.mem z0 ∧ L.AgreeOff L' z0 ∧ L'.freeZones = L.freeZones.tail := by
  have hlist := hinv.freeZones
  unfold Native.newZone
  dsimp only
  cases hzones : L.freeZones with
  | nil =>
    -- no zone is set aside: the page allocator is asked, before anything is written
    rw [hzones] at hlist
    have hnull : h.sysZoneFree = 0 := hlist
    rw [if_neg (by simpa using hnull), hinv.fits.zoneSize, show G.zoneSize / pageSize = G.zonePages
      from Nat.mul_div_cancel _ (by decide)]
    cases hinv.pageAlloc G.zonePages_pos hfuel with
    | inl hnone =>
      left
      rw [hnone.1]
      exact ⟨rfl, rfl, hnone.2⟩
    | inr hsome =>
      right
      obtain ⟨z0, h1, hrun, hin, hfree, hinv1⟩ := hsome
      have hlt := G.npages_lt
      obtain ⟨hinv2, hentries⟩ := hinv1.zoneSetUsage hin Layout.holds_setUse (t := pageTypeSmall)
        (f := id) (by decide) fun off hoff => show off < 2 ^ 30 by omega
      refine ⟨z0, _, _, ?_, hinv2, hin, Layout.holds_setUse, hentries,
        (Layout.sameZones_setUse hfree (by simp) (by simp)).agreeOff z0, hzones⟩
      rw [hrun, map_some, if_neg (G.addr_ne_zero z0)]
  | cons z0 rest =>
    -- the usage entries of a zone that is set aside are still those of a zone
    right
    rw [hzones] at hlist
    have hhead : h.sysZoneFree = G.addr z0 := hlist.1
    obtain ⟨hz0, -⟩ := hinv.freeZones_mem z0 (by rw [hzones]; exact mem_cons_self)
    refine ⟨z0, _, _, ?_, hinv.popFreeZone hzones, hinv.zone_inside hz0, Layout.holds_setUse,
      hinv.zone_entries hz0, hinv.agreeOff_pop hz0 rest, rfl⟩
    rw [hhead, if_pos (G.addr_ne_zero z0)]
    rfl

end

/-! ## `sk_malloc` -/

/-- A request that an existing zone will serve fits the chunks of this zone exactly. -/
def MallocSound (h : Heap) (size : Nat) : Prop :=
  0 < size → size < h.sysZoneLimit → ∀ r ∈ zoneIndex size,
    h.sysZoneArray r.1 ≠ 0 → h.get32 (h.sysZoneArray r.1 + zChunksize) = r.2

instance (h : Heap) (size : Nat) : Decidable (MallocSound h size) := by
  unfold MallocSound
  infer_instance

/-- Why a request of `size` bytes is refused. -/
inductive Refusal (G : Geometry) (L : Layout G.zoneSize) (size : Nat) : Prop where
  | zero (hsize : size = 0)
  | wraps (hpages : numBlockPages size = 0)
  | large (hsize : G.limit ≤ size) (hpages : ¬FreeRun L (numBlockPages size))
  | small (index chunk : Nat) (hsize : size < G.limit)
      (hclass : zoneIndex size = some (index, chunk)) (harray : L.array index = [])
      (hzones : L.freeZones = []) (hpages : ¬FreeRun L G.zonePages)

/-- An allocation of `size` bytes that gives `p` is refused, takes pages, or takes a chunk from a
    zone of the class or from a new zone. -/
inductive MallocEffect (fit : Prop) (G : Geometry) (L L' : Layout G.zoneSize) (fuel : Nat)
    (h h' : Heap) (size p : Nat) : Prop where
  | refused (hp : p = 0) (hheap : h' = h) (hlayout : L' = L) (hreason : Refusal G L size)
  | large (i : Nat) (hsize : G.limit ≤ size) (hp : p = G.addr i) (hsame : L.SameZones L')
      (hpages : L.Holds i (numBlockPages size) .free)
      (hfree : ∀ k, L'.use k = .free ↔ L.use k = .free ∧ ¬(i ≤ k ∧ k < i + numBlockPages size))
  | take (index chunk z j : Nat) (w : Zone G.zoneSize) (hsize : 0 < size ∧ size < G.limit)
      (hclass : zoneIndex size = some (index, chunk)) (hz : z ∈ L.array index)
      (hhead : h.sysZoneArray index = G.addr z) (hchunk : fit → w.chunk = chunk)
      (htakes : (L.zone z).Takes chunk j w) (hfree : w.free = (L.zone z).free.erase j)
      (hp : p = w.chunkAddr (G.addr z) j) (hbecomes : L.Becomes L' z w)
      (hzones : L'.freeZones = L.freeZones)
  | create (index z : Nat) (w : Zone G.zoneSize) (hsize : 0 < size ∧ size < G.limit)
      (hclass : zoneIndex size = some (index, w.chunk)) (hhead : h.sysZoneArray index = 0)
      (hnew : (Native.newZone fuel h).map Prod.fst = some (G.addr z)) (hindex : w.index = index)
      (hfree : w.free = []) (hp : p = w.chunkAddr (G.addr z) 0)
      (hbecomes : L.Becomes L' z w) (hzones : L'.freeZones = L.freeZones.tail)

theorem numBlockPages_eq (size : Nat) : numBlockPages size = (size + 4095) % 2 ^ 64 / 4096 := by
  unfold numBlockPages
  rw [show pageSize = 2 ^ 12 from rfl, skAlign_two_pow size (by decide),
    Nat.mul_div_cancel _ (by decide)]
  rfl

section

variable (hinv : SlabInv fit G L h live)
include hinv

/-- A large request takes pages. -/
theorem mallocLarge (hfuel : G.npages < fuel) (hpos : 0 < size) (hlt : size < 2 ^ 64)
    (hlarge : h.sysZoneLimit ≤ size) :
    ∃ p h' L', skMalloc fuel h size = some (p, h') ∧
      SlabInv fit G L' h' (if p = 0 then live else ⟨p, size⟩ :: live) ∧
      MallocEffect fit G L L' fuel h h' size p := by
  have hshift : skAlign size pageSize >>> pageShift = numBlockPages size :=
    Nat.shiftRight_eq_div_pow ..
  have heq := numBlockPages_eq size
  have hlimit : G.limit ≤ size := by
    rw [← hinv.fits.limit]
    exact hlarge
  unfold skMalloc
  rw [if_neg (by omega), if_pos hlarge]
  dsimp only
  rw [hshift]
  by_cases hzero : numBlockPages size = 0
  · -- the rounded size wraps around to nothing
    refine ⟨0, h, L, ?_, by rw [if_pos rfl]; exact hinv, .refused rfl rfl rfl (.wraps hzero)⟩
    rw [hzero]
    rfl
  · cases hinv.pageAlloc (n := numBlockPages size) (by omega) hfuel with
    | inl hnone =>
      refine ⟨0, h, L, ?_, by rw [if_pos rfl]; exact hinv,
        .refused rfl rfl rfl (.large hlimit hnone.2)⟩
      rw [hnone.1]
      rfl
    | inr hsome =>
      obtain ⟨i, h1, hrun, hin, hfree, hinv1⟩ := hsome
      have hmax := G.npages_lt
      have htaken : (L.setUse i (numBlockPages size) .taken).Holds i _ .taken :=
        Layout.holds_setUse
      obtain ⟨hinv2, hentry, -⟩ := hinv1.setEntry (i := i) (t := pageTypeLarge)
        (n := numBlockPages size) (by omega) (htaken i (Nat.le_refl i) (by omega)) (by decide)
        (by omega)
      have hfits : size ≤ numBlockPages size * pageSize := by
        unfold pageSize
        omega
      have hinv3 := hinv2.addLarge (by omega) htaken hentry ⟨hfits, hlimit, rfl⟩
      have hsame1 : L.SameZones (L.setUse i (numBlockPages size) .taken) :=
        Layout.sameZones_setUse hfree (by simp) (by simp)
      have hsame2 := Layout.sameZones_setUse htaken (u := .large i) (by simp) (by simp)
      refine ⟨G.addr i, _, _, ?_, by rw [if_neg (G.addr_ne_zero i)]; exact hinv3,
        .large i hlimit rfl (hsame1.trans hsame2) hfree ?_⟩
      · rw [hrun, map_some, if_neg (G.addr_ne_zero i), btokup_addr hinv1.fits (by omega)]
      · intro k
        by_cases hk : i ≤ k ∧ k < i + numBlockPages size
        · simp [Layout.setUse, hk]
        · simp [Layout.setUse, hk]

theorem malloc_returns (hfuel : G.npages < fuel) (hlt : size < 2 ^ 64)
    (hsound : fit → MallocSound h size) :
    ∃ p h' L', skMalloc fuel h size = some (p, h') ∧
      SlabInv fit G L' h' (if p = 0 then live else ⟨p, size⟩ :: live) ∧
      MallocEffect fit G L L' fuel h h' size p := by
  have hlimit := hinv.fits.limit
  by_cases hzero : size = 0
  · refine ⟨0, h, L, ?_, by rw [if_pos rfl]; exact hinv, .refused rfl rfl rfl (.zero hzero)⟩
    unfold skMalloc
    rw [if_pos hzero]
  by_cases hlarge : h.sysZoneLimit ≤ size
  · exact hinv.mallocLarge hfuel (by omega) hlt hlarge
  have hsmall : 0 < size ∧ size < G.limit := by omega
  obtain ⟨index, chunk, hzone, hindex, hfit, hge, hle⟩ := zoneIndex_bounds
    (limit_cases G) hsmall.1 hsmall.2
  have hclass : InClass index chunk :=
    zoneIndex_inClass hsmall.1 (by have := limit_cases G; omega) hzone
  unfold skMalloc
  rw [if_neg hzero, if_neg hlarge, hzone]
  dsimp only
  by_cases hhead : h.sysZoneArray index = 0
  · -- the class has no zone with a free chunk
    rw [if_neg (by simpa using hhead)]
    cases hinv.newZone hfuel with
    | inl hnew =>
      have hnone : L.array index = [] := by
        have hlist := hinv.array index
        rw [hhead] at hlist
        exact map_eq_nil_iff.mp ((Linked.eq_zero_iff hlist).mp rfl)
      refine ⟨0, h, L, ?_, by rw [if_pos rfl]; exact hinv,
        .refused rfl rfl rfl (.small index chunk hsmall.2 hzone hnone hnew.2.1 hnew.2.2)⟩
      rw [hnew.1]
      rfl
    | inr hsome =>
      obtain ⟨z0, h1, L1, hrun, hinv1, hin, htaken, hentries, hagree, hzones⟩ := hsome
      obtain ⟨p, h2, w, heq, hp, ⟨L2, hinv2, hbecomes, hzones'⟩, hwindex, rfl, hwfree, hptr⟩ :=
        hinv1.initZone hin htaken hentries hindex hge hclass hle hfit hsmall.2
      refine ⟨p, h2, L2, ?_, by rw [if_neg hp]; exact hinv2,
        .create index z0 w hsmall hzone hhead (by rw [hrun]; rfl) hwindex hwfree hptr
          (hagree.becomes hbecomes) (hzones'.trans hzones)⟩
      rw [hrun, map_some, if_neg (G.addr_ne_zero z0), heq]
  · obtain ⟨p, h1, z, j, w, heq, hp, ⟨L1, hinv1, hbecomes, hzones⟩, hz, hfrom, hchunk, htakes,
      hfree, hptr⟩ := hinv.mallocZone hhead hclass
        (fun hfits => hsound hfits hsmall.1 (by omega) (index, chunk) hzone hhead) hfit hsmall.2
    refine ⟨p, h1, L1, ?_, by rw [if_neg hp]; exact hinv1,
      .take index chunk z j w hsmall hzone hz hfrom hchunk htakes hfree hptr hbecomes hzones⟩
    rw [if_pos hhead, heq]

/-! ## Freeing a chunk -/

theorem placed_give {L' : Layout G.zoneSize} {w : Zone G.zoneSize} (hset : L.SetsZone L' z0 w)
    (hz0 : L.use z0 = .zone z0) (hframe : ZoneFrame G L z0 h.mem m')
    (hgives : (L.zone z0).Gives j w) :
    ∀ b ∈ without live ((L.zone z0).chunkAddr (G.addr z0) j), Placed fit G L' m' b := by
  intro b hb
  obtain ⟨hb, hne⟩ := mem_without.mp hb
  refine hinv.placed_setZone (hinv.zoneRoom hz0) hset hframe hb fun _ => ⟨hgives.chunk, ?_⟩
  intro k hk hptr
  refine ⟨(hgives.used k).mpr ⟨hk, ?_⟩, hgives.chunkAddr ..⟩
  intro heq
  rw [heq] at hptr
  exact hne hptr

theorem notMem_freeZones (hused : (L.zone z).Used j) : z ∉ L.freeZones := by
  intro hz
  exact Zone.not_used_of_nfree (hinv.freeZones_mem z hz).2 j hused

section

variable {w : Zone G.zoneSize} (hz0 : L.use z0 = .zone z0) (hused : (L.zone z0).Used j)
  (hgives : (L.zone z0).Gives j w) (hzone : ZoneMem m' (G.addr z0) w.nfree w)
  (hout : SameOutside h.mem m' (G.addr z0) G.zoneSize)
include hz0 hused hgives hzone hout

theorem giveChunk (harray : ∀ k, ZoneList G m' (arr k) (array k))
    (hother : ∀ k z, z ≠ z0 → (z ∈ array k ↔ z ∈ L.array k))
    (hself : ∀ k, z0 ∈ array k ↔ (L.zone z0).index = k) :
    Served fit G L z0 w { h with mem := m', sysZoneArray := arr }
      (without live ((L.zone z0).chunkAddr (G.addr z0) j)) := by
  refine hinv.serveStep (hinv.zoneRoom hz0) (hinv.notMem_freeZones hused) hout
    (hinv.zone_entries hz0) hzone harray hother ?_
    (fun _ hset => hinv.placed_give hset hz0 (.of_outside hout) hgives) (hinv.nodup_without _)
    (fun hfit => hgives.exact (hinv.exact hfit z0 hz0))
  intro k
  have hnfree := hgives.nfree
  rw [hself, hgives.index]
  exact ⟨fun heq => ⟨heq, by omega⟩, fun hz => hz.1⟩

private theorem giveChunk_full (hfull : (L.zone z0).nfree = 0)
    (hnext : load m' 8 (G.addr z0 + zNext) = h.sysZoneArray (L.zone z0).index) :
    Served fit G L z0 w { h with
        mem := m'
        sysZoneArray := update h.sysZoneArray (L.zone z0).index (G.addr z0) }
      (without live ((L.zone z0).chunkAddr (G.addr z0) j)) := by
  have hnot : ∀ k, z0 ∉ L.array k := by
    intro k hk
    have := ((hinv.array_mem k z0).mp hk).2.2.1
    omega
  exact hinv.giveChunk hz0 hused hgives hzone hout
    (hinv.array_join (hinv.zoneRoom hz0) hout hnot hnext)
    (fun k _ hne => mem_array_join L _ k hne) (self_mem_array_join hnot _)

private theorem giveChunk_more (hfull : (L.zone z0).nfree ≠ 0)
    (hnext : load m' 8 (G.addr z0 + zNext) = load h.mem 8 (G.addr z0 + zNext)) :
    Served fit G L z0 w { h with mem := m' }
      (without live ((L.zone z0).chunkAddr (G.addr z0) j)) := by
  have hin : z0 ∈ L.array (L.zone z0).index :=
    (hinv.array_mem _ z0).mpr ⟨hz0, rfl, by omega, hinv.notMem_freeZones hused⟩
  exact hinv.giveChunk hz0 hused hgives hzone hout
    (hinv.array_keep (hinv.zoneRoom hz0) hout hnext) (fun _ _ _ => Iff.rfl)
    fun _ => (hinv.index_of_mem hin).trans eq_comm

end

end

/-! ## Setting a zone aside -/

private theorem findZone_list {l1 l2 : List Nat} : ∀ {fuel : Nat} (pz : ZoneCell),
    ZoneList G h.mem (pz.get h) (l1 ++ z :: l2) → z ∉ l1 → l1.length < fuel →
    findZone h (G.addr z) fuel pz =
      some (match l1.getLast? with
        | none => pz
        | some y => .next (G.addr y)) := by
  induction l1 with
  | nil =>
    intro fuel pz hlist _ hfuel
    cases fuel with
    | zero => cases hfuel
    | succ fuel =>
      unfold findZone
      rw [if_pos (show G.addr z = pz.get h from hlist.1.symm)]
      rfl
  | cons y l1 ih =>
    intro fuel pz hlist hnot hfuel
    cases fuel with
    | zero => cases hfuel
    | succ fuel =>
      have hy : pz.get h = G.addr y := hlist.1
      have hne : G.addr z ≠ G.addr y := by
        intro heq
        exact hnot (by rw [Geometry.addr_inj.mp heq]; exact mem_cons_self)
      unfold findZone
      rw [hy, if_neg hne, ih (.next (G.addr y)) hlist.2.2
        (fun hin => hnot (mem_cons_of_mem y hin)) (by simpa using hfuel)]
      rw [getLast?_cons]
      cases l1.getLast? <;> rfl

private theorem length_le_npages (hnodup : l.Nodup) (hlt : ∀ z ∈ l, z < G.npages) :
    l.length ≤ G.npages := by
  rw [← toFinset_card_of_nodup hnodup]
  have hsub : l.toFinset ⊆ Finset.range G.npages := by
    intro z hz
    exact Finset.mem_range.mpr (hlt z (mem_toFinset.mp hz))
  simpa using Finset.card_le_card hsub

private theorem next_apart (hne : z ≠ z0) :
    G.addr z + zNext + 8 ≤ G.addr z0 + zNext ∨ G.addr z0 + zNext + 8 ≤ G.addr z + zNext := by
  have := pageAddr_apart G.start hne
  unfold Geometry.addr
  unfold pageSize at this
  omega

/-- What is left of a list of zones, and of the memory, when `z0` has been unlinked from it. -/
structure Unlinked (G : Geometry) (L : Layout G.zoneSize) (h : Heap) (index z0 : Nat)
    (l : List Nat) (m : Mem) (array : Nat → Nat) : Prop where
  mem_iff : ∀ z, z ∈ l ↔ z ∈ L.array index ∧ z ≠ z0
  list : ZoneList G m (array index) l
  array : ∀ k, k ≠ index → array k = h.sysZoneArray k
  next : ∀ z, z ∉ l → load m 8 (G.addr z + zNext) = load h.mem 8 (G.addr z + zNext)
  mem : ∀ x, (∀ z ∈ l, x < G.addr z + zNext ∨ G.addr z + zBaseptr ≤ x) → m x = h.mem x

private theorem unlinkZone (hinv : SlabInv fit G L h live) (hz : z0 ∈ L.array index)
    (hfuel : G.npages < fuel) :
    ∃ pz l m' array, findZone h (G.addr z0) fuel (.array index) = some pz ∧
      pz.set h (load h.mem 8 (G.addr z0 + zNext)) = { h with mem := m', sysZoneArray := array } ∧
      Unlinked G L h index z0 l m' array := by
  have hlist := hinv.array index
  have hnodup := hlist.nodup
  have hlen := length_le_npages (G := G) hnodup fun z hz =>
    hinv.inside z (by simp [((hinv.array_mem index z).mp hz).1])
  have hmem_iff : ∀ {l1 l2 : List Nat}, L.array index = l1 ++ z0 :: l2 →
      ∀ z, z ∈ l1 ++ l2 ↔ z ∈ L.array index ∧ z ≠ z0 := by
    intro l1 l2 harr z
    rw [harr] at hnodup ⊢
    have hnot : z0 ∉ l1 ++ l2 := (nodup_middle.mp hnodup |> nodup_cons.mp).1
    simp only [mem_append, mem_cons] at hnot ⊢
    by_cases hne : z = z0
    · simp only [hne, ne_eq, not_true_eq_false, and_false, iff_false]
      exact hnot
    · simp [hne]
  obtain ⟨l1, l2, harr⟩ := append_of_mem hz
  have hnot : z0 ∉ l1 := by
    rw [harr] at hnodup
    exact fun hin => (nodup_middle.mp hnodup |> nodup_cons.mp).1
      (mem_append_left l2 hin)
  have hmem := hmem_iff harr
  rw [harr] at hlist hlen
  have hshort : l1.length < fuel := by
    rw [length_append] at hlen
    omega
  have hfind := findZone_list (.array index) hlist hnot hshort
  cases eq_nil_or_concat l1 with
  | inl hnil =>
    -- the zone is the first of its list
    subst hnil
    refine ⟨_, l2, h.mem, _, hfind, rfl, hmem, ?_, ?_, fun _ _ => rfl, fun _ _ => rfl⟩
    · rw [update_self]
      exact hlist.2.2
    · intro k hk
      rw [update_of_ne hk]
  | inr hcons =>
    obtain ⟨l0, y, hl1⟩ := hcons
    rw [concat_eq_append] at hl1
    subst hl1
    rw [getLast?_concat] at hfind
    have hne : z0 ≠ y := by
      intro heq
      exact hnot (by rw [heq]; exact mem_append_right _ mem_cons_self)
    refine ⟨_, l0 ++ [y] ++ l2, store h.mem 8 (G.addr y + zNext) (load h.mem 8 (G.addr z0 + zNext)),
      h.sysZoneArray, hfind, rfl, hmem, ?_, fun _ _ => rfl, ?_, ?_⟩
    · have hlinked : Linked (fun a => load h.mem 8 (a + zNext)) (h.sysZoneArray index)
          (l0.map G.addr ++ G.addr y :: G.addr z0 :: l2.map G.addr) := by
        have hfull : Linked (fun a => load h.mem 8 (a + zNext)) (h.sysZoneArray index)
          ((l0 ++ [y] ++ z0 :: l2).map G.addr) := hlist
        simpa using hfull
      have hremoved := hlinked.remove
      show Linked _ _ ((l0 ++ [y] ++ l2).map G.addr)
      have hmap : (l0 ++ [y] ++ l2).map G.addr = l0.map G.addr ++ G.addr y :: l2.map G.addr := by
        simp
      rw [hmap]
      refine hremoved.congr fun a ha => ?_
      rw [← hmap] at ha
      obtain ⟨z, hz, hza⟩ := List.mem_map.mp ha
      subst hza
      by_cases hzy : z = y
      · subst hzy
        rw [update_self]
        exact load_store_self (load_lt ..)
      · rw [update_of_ne (fun heq => hzy (Geometry.addr_inj.mp heq))]
        exact load_store_of_disjoint (next_apart hzy)
    · intro z hzl
      refine load_store_of_disjoint (next_apart ?_)
      intro heq
      rw [heq] at hzl
      exact hzl (by simp)
    · intro x hx
      have := hx y (by simp)
      unfold zNext zBaseptr at *
      exact store_outside (by omega)

theorem setAside_mem (hinv : SlabInv fit G L h live) (hz0 : L.use z0 = .zone z0) {array : Nat → Nat}
    (hun : Unlinked G L h index z0 l m array) (hm' : store (store m 4 (G.addr z0 + zMagic)
      (2 ^ 32 - 1)) 8 (G.addr z0 + zNext) h.sysZoneFree = m') :
    ZoneFrame G L z0 h.mem m' ∧ ZoneMem m' (G.addr z0) (L.zone z0).nfree (L.zone z0) ∧
      (∀ z, z ≠ z0 → load m' 8 (G.addr z + zNext) = load m 8 (G.addr z + zNext)) ∧
      load m' 8 (G.addr z0 + zNext) = h.sysZoneFree := by
  have hl : ∀ z ∈ l, L.use z = .zone z ∧ z ≠ z0 := by
    intro z hzl
    obtain ⟨hin, hne⟩ := (hun.mem_iff z).mp hzl
    exact ⟨((hinv.array_mem _ z).mp hin).1, hne⟩
  have hheader := header_le (L.zone z0)
  -- unlinking has not touched the zone itself
  have harea : ∀ x, G.addr z0 ≤ x → x < G.addr z0 + G.zoneSize → m x = h.mem x := by
    intro x hle hlt
    refine hun.mem x fun z hzl => ?_
    by_contra hin
    have hheader' := header_le (L.zone z)
    unfold zNext zBaseptr at hin
    unfold slabZoneSize at hheader'
    have howner := (hinv.zone_owner (x := x) (hl z hzl).1 (by omega) (by omega)).2
    rw [(hinv.zone_owner hz0 hle hlt).2] at howner
    cases howner
    exact (hl z0 hzl).2 rfl
  refine ⟨?_, ?_, ?_, ?_⟩
  · intro x hx hnext
    rw [← hm', ← hun.mem x fun z hzl => hnext z (hl z hzl).1]
    unfold slabZoneSize at hheader
    unfold zMagic zNext
    rw [store_outside (by omega), store_outside (by omega)]
  · rw [← hm']
    exact ((hinv.zoneMem_congr hz0 fun x hle hlt _ => harea x hle hlt).setOther
      (by decide) _).setOther (by decide) _
  · intro z hne
    have hmagic : G.addr z + zNext + 8 ≤ G.addr z0 + zMagic ∨
        G.addr z0 + zMagic + 4 ≤ G.addr z + zNext := by
      have := pageAddr_apart G.start hne
      unfold Geometry.addr zMagic zNext
      unfold pageSize at this
      omega
    rw [← hm']
    exact (load_store_of_disjoint (next_apart hne)).trans (load_store_of_disjoint hmagic)
  · rw [← hm']
    exact load_store_self (hinv.zoneList_lt hinv.freeZones fun z hz => (hinv.freeZones_mem z hz).1)

theorem retireZone (hinv : SlabInv fit G L h live) (hz : z0 ∈ L.array (L.zone z0).index)
    (hall : (L.zone z0).nfree = (L.zone z0).nmax) (hfuel : G.npages < fuel) :
    ∃ h' L', Native.retireZone fuel h (G.addr z0) =
        (if h'.sysZoneFreeCnt > zoneReleaseNum then Native.releaseZone fuel h' else some h') ∧
      h'.sysZoneFreeCnt = h.sysZoneFreeCnt + 1 ∧ SlabInv fit G L' h' live ∧
      L.Becomes L' z0 (L.zone z0) ∧ L'.freeZones = z0 :: L.freeZones := by
  obtain ⟨hz0, -, hpos, hnotfree⟩ := (hinv.array_mem _ z0).mp hz
  obtain ⟨pz, l, m1, arr, hfind, hset, hun⟩ := hinv.unlinkZone hz hfuel
  have hroom := hinv.zoneRoom hz0
  have hset' := hinv.setsZone hroom (L.zone z0) (update L.array (L.zone z0).index l)
    (z0 :: L.freeZones)
  have hnotl : z0 ∉ l := fun hin => ((hun.mem_iff z0).mp hin).2 rfl
  generalize hm2 : store (store m1 4 (G.addr z0 + zMagic) (2 ^ 32 - 1)) 8 (G.addr z0 + zNext)
    h.sysZoneFree = m2
  obtain ⟨hframe, hzone, hnext, hself⟩ := hinv.setAside_mem hz0 hun hm2
  -- the zones set aside before are not on the list of the class
  have hother : ∀ z ∈ L.freeZones, z ≠ z0 ∧ z ∉ l := by
    intro z hzf
    refine ⟨fun heq => hnotfree (heq ▸ hzf), ?_⟩
    intro hzl
    exact ((hinv.array_mem _ z).mp ((hun.mem_iff z).mp hzl).1).2.2.2 hzf
  refine ⟨{ h with
      mem := m2, sysZoneArray := arr, sysZoneFree := G.addr z0
      sysZoneFreeCnt := h.sysZoneFreeCnt + 1 }, _, ?_, rfl,
    hinv.zoneStep rfl hroom hset' hframe (hinv.zone_entries hz0) hzone ?_
      (hinv.array_mem_setZone hset' ?_ ?_ ?_) ?_ ?_ ?_ ?_ hinv.nodup
      (fun hfit => hinv.exact hfit z0 hz0), hset'.becomes, rfl⟩
  · have hindex : h.get32 (G.addr z0 + zZoneindex) = (L.zone z0).index :=
      (hinv.zones z0 hz0).zoneindex
    have hheap : pz.set h (h.get64 (G.addr z0 + zNext)) =
      { h with mem := m1, sysZoneArray := arr } := hset
    unfold Native.retireZone
    rw [hindex, hfind, bind_some, hheap]
    unfold Heap.set32 Heap.set64
    dsimp only
    rw [hm2]
  · intro k
    dsimp only [Layout.setZone]
    by_cases hk : k = (L.zone z0).index
    · subst hk
      rw [update_self]
      exact hun.list.congr fun z hzl => hnext z ((hun.mem_iff z).mp hzl).2
    · -- the lists of other classes have other zones
      rw [update_of_ne hk, hun.array k hk]
      refine (hinv.array k).congr fun z hzk => ?_
      have hzindex := ((hinv.array_mem k z).mp hzk).2.1
      rw [hnext z (fun heq => hk (by rw [← hzindex, heq]))]
      refine hun.next z fun hzl => hk ?_
      rw [← hzindex]
      exact ((hinv.array_mem _ z).mp ((hun.mem_iff z).mp hzl).1).2.1
  · intro z hne
    simp [Layout.setZone, hne]
  · intro k z hne
    dsimp only [Layout.setZone]
    by_cases hk : k = (L.zone z0).index
    · subst hk
      rw [update_self, hun.mem_iff]
      simp [hne]
    · rw [update_of_ne hk]
  · intro k
    have hnot : z0 ∉ update L.array (L.zone z0).index l k := by
      by_cases hk : k = (L.zone z0).index
      · subst hk
        rw [update_self]
        exact hnotl
      · rw [update_of_ne hk]
        exact fun hzk => hk ((hinv.index_of_mem hz).mp hzk)
    exact ⟨fun hin => absurd hin hnot, fun hin => absurd mem_cons_self hin.2.2⟩
  · refine hinv.freeZones.cons (fun z hzf => ?_) hself
    rw [hnext z (hother z hzf).1]
    exact hun.next z (hother z hzf).2
  · intro z hzf
    cases mem_cons.mp hzf with
    | inl heq =>
      subst heq
      rw [hset'.zone]
      exact ⟨hset'.first, hall⟩
    | inr hzf =>
      have hne := (hother z hzf).1
      rw [hset'.use_zone hne, hset'.zone_of_ne z hne]
      exact hinv.freeZones_mem z hzf
  · dsimp only [Layout.setZone]
    rw [hinv.freeCnt, length_cons]
    omega
  · intro b hb
    exact hinv.placed_setZone hroom hset' hframe hb fun _ => ⟨rfl, fun j hj _ => ⟨hj, rfl⟩⟩

/-! ## Releasing a zone -/

/-- The heap with another list of free zones. -/
def withFreeZones (h : Heap) (zones : Nat) (cnt : Int) : Heap :=
  { h with sysZoneFree := zones, sysZoneFreeCnt := cnt }

private theorem skPageFree_withFreeZones (h : Heap) (zones : Nat) (cnt : Int) (a n : Nat) :
    skPageFree fuel (withFreeZones h zones cnt) a n =
      (skPageFree fuel h a n).map (withFreeZones · zones cnt) := by
  unfold skPageFree
  generalize PageCell.list = prev
  induction fuel generalizing prev with
  | zero => rfl
  | succ fuel ih =>
    have hget : prev.get (withFreeZones h zones cnt) = prev.get h := by cases prev <;> rfl
    have hset : ∀ (h : Heap) (v : Nat),
        prev.set (withFreeZones h zones cnt) v = withFreeZones (prev.set h v) zones cnt := by
      intro h v
      cases prev <;> rfl
    have hcount : ∀ (h : Heap) (b : Nat), (withFreeZones h zones cnt).pageCount b = h.pageCount b :=
      fun _ _ => rfl
    have hnext : ∀ (h : Heap) (b : Nat), (withFreeZones h zones cnt).pageNext b = h.pageNext b :=
      fun _ _ => rfl
    have hsetCount : ∀ (h : Heap) (b v : Nat), (withFreeZones h zones cnt).setPageCount b v =
        withFreeZones (h.setPageCount b v) zones cnt := fun _ _ _ => rfl
    have hsetNext : ∀ (h : Heap) (b v : Nat), (withFreeZones h zones cnt).setPageNext b v =
        withFreeZones (h.setPageNext b v) zones cnt := fun _ _ _ => rfl
    unfold pageFreeLoop
    simp only [hget, hset, hcount, hnext, hsetCount, hsetNext, ih]
    split_ifs <;> rfl

private theorem zoneSetUsage_withFreeZones (h : Heap) (zones : Nat) (cnt : Int) (z t : Nat)
    (f : Nat → Nat) :
    Native.zoneSetUsage (withFreeZones h zones cnt) z t f =
      withFreeZones (Native.zoneSetUsage h z t f) zones cnt := by
  have hkup : (withFreeZones h zones cnt).btokup z = h.btokup z := by
    unfold Heap.btokup withFreeZones
    rfl
  have htype : ∀ (h : Heap) (kup t : Nat), (withFreeZones h zones cnt).setUsageType kup t =
      withFreeZones (h.setUsageType kup t) zones cnt := by
    intro h kup t
    unfold Heap.setUsageType Heap.set32 Heap.usageSize Heap.get32 withFreeZones
    rfl
  have hsize : ∀ (h : Heap) (kup n : Nat), (withFreeZones h zones cnt).setUsageSize kup n =
      withFreeZones (h.setUsageSize kup n) zones cnt := by
    intro h kup n
    unfold Heap.setUsageSize Heap.set32 Heap.usageType Heap.get32 withFreeZones
    rfl
  unfold Native.zoneSetUsage
  rw [hkup]
  refine foldl_hom (withFreeZones · zones cnt) ?_
  intro h off
  rw [htype, hsize]

/-- The pointer to the free zones and their count go wrong here, and nothing else. -/
theorem releaseZone (hinv : SlabInv fit G L h live) (hzones : L.freeZones = z0 :: rest)
    (hfuel : G.npages < fuel) :
    ∃ h' L' v, Native.releaseZone fuel h = some (withFreeZones h' v h.sysZoneFreeCnt) ∧
      SlabInv fit G L' h' live ∧ L.AgreeOff L' z0 ∧ L'.use z0 = .free ∧ L'.freeZones = rest ∧
      ∀ i, z0 ≤ i → i < z0 + G.zonePages → load h'.mem 4 (G.entry i) = pageTypeFree := by
  obtain ⟨hz0, -⟩ := hinv.freeZones_mem z0 (by rw [hzones]; exact mem_cons_self)
  have hhead : h.sysZoneFree = G.addr z0 := by
    have hlist := hinv.freeZones
    rw [hzones] at hlist
    exact hlist.1
  have hin := hinv.zone_inside hz0
  have hpos := G.zonePages_pos
  -- with the zone taken off the list as `new_zone` does it, its pages are freed as any others
  have hinv1 := hinv.popFreeZone hzones
  generalize hv : (load h.mem 8 (G.addr z0 + zNext) + (2 ^ 64 - slabZoneSize)) % 2 ^ 64 = v
  generalize hh1 : ({ h with
    sysZoneFree := load h.mem 8 (G.addr z0 + zNext)
    sysZoneFreeCnt := h.sysZoneFreeCnt - 1 } : Heap) = h1 at hinv1
  generalize hL1 : ({ L.setUse z0 G.zonePages .taken with freeZones := rest } :
    Layout G.zoneSize) = L1 at hinv1
  have hagree : L.AgreeOff L1 z0 := by
    rw [← hL1]
    exact hinv.agreeOff_pop hz0 rest
  have htaken : L1.Holds z0 G.zonePages .taken := by
    rw [← hL1]
    exact Layout.holds_setUse
  obtain ⟨hinv2, hentries⟩ := hinv1.zoneSetUsage hin htaken (t := pageTypeFree) (f := fun _ => 0)
    (by decide) (fun _ _ => by decide)
  obtain ⟨h', hrun, hinv3, htable⟩ := hinv2.pageFree hpos hin htaken hfuel
  have hpages : (withFreeZones (Native.zoneSetUsage h1 (G.addr z0) pageTypeFree fun _ => 0) v
      h.sysZoneFreeCnt).sysZoneSize / pageSize = G.zonePages := by
    unfold withFreeZones
    rw [hinv2.fits.zoneSize]
    exact Nat.mul_div_cancel _ (by decide)
  have hsame := Layout.sameZones_setUse htaken (u := .free) (by simp) (by simp)
  have hheap : withFreeZones h1 v h.sysZoneFreeCnt = { h with sysZoneFree := v } := by
    rw [← hh1]
    rfl
  refine ⟨h', _, v, ?_, hinv3, hagree.trans (hsame.agreeOff z0),
    if_pos ⟨Nat.le_refl z0, by omega⟩, ?_, ?_⟩
  · unfold Native.releaseZone Heap.get64
    dsimp only
    rw [hhead, hv, ← hheap, zoneSetUsage_withFreeZones, skPageFree_withFreeZones, hpages, hrun,
      map_some]
  · show L1.freeZones = rest
    rw [← hL1]
  · intro i hle hlt
    rw [hinv2.entry_congr (by omega) htable, hentries i hle hlt, Nat.zero_mul, Nat.zero_add]

/-! ## `sk_free` -/

/-- A chunk whose zone is set aside does not find `SK_ZONE_RELEASE_NUM` zones there before. -/
def FreeSound (h : Heap) (ptr : Nat) : Prop :=
  h.usageType (h.btokup (ptr - ptr % pageSize)) ≠ pageTypeLarge →
  h.get32 (zoneOf h ptr + zNfree) + 1 = h.get32 (zoneOf h ptr + zNmax) →
  h.get64 (zoneOf h ptr + zNext) ≠ 0 ∨
    h.sysZoneArray (h.get32 (zoneOf h ptr + zZoneindex)) ≠ zoneOf h ptr →
  h.sysZoneFreeCnt < zoneReleaseNum

instance (h : Heap) (ptr : Nat) : Decidable (FreeSound h ptr) := by
  unfold FreeSound
  infer_instance

private theorem page_base (hle : G.start ≤ p) : p - p % pageSize = G.addr (G.page p) := by
  have haligned := G.aligned
  have hmem := Geometry.mem_page hle
  have heq := G.addr_eq (G.page p)
  unfold pageSize at *
  omega

section

variable (hinv : SlabInv fit G L h live)
include hinv

theorem zoneOf_chunk (hz : L.use z = .zone z) (hj : j ≤ (L.zone z).uindex) :
    zoneOf h ((L.zone z).chunkAddr (G.addr z) j) = G.addr z := by
  obtain ⟨hstart, howner⟩ := hinv.chunk_start hz (Zone.lt_nmax hj) rfl
  generalize (L.zone z).chunkAddr (G.addr z) j = ptr at *
  have hpage := ((hinv.zone_iff _ z).mp howner).2
  have hlt := hinv.inside (G.page ptr) (by simp [howner])
  unfold zoneOf
  dsimp only
  rw [page_base hstart, btokup_addr hinv.fits (by omega)]
  unfold Heap.usageSize Heap.get32
  rw [hinv.usage _ z howner]
  have hend := G.addr_end_lt (i := z) (n := 0) (by omega)
  have heq := G.addr_eq (G.page ptr)
  have heq' := G.addr_eq z
  unfold pageTypeSmall
  unfold pageSize at *
  omega

private theorem entry_large (hn : 0 < n) (huse : L.Holds i n (.large i))
    (hentry : load h.mem 4 (G.entry i) = n * 4 + pageTypeLarge) :
    h.get32 (h.btokup (G.addr i - G.addr i % pageSize)) = n * 4 + pageTypeLarge := by
  have hi := hinv.inside i (by simp [huse i (Nat.le_refl i) (by omega)])
  have hstart : G.start ≤ G.addr i := by
    rw [Geometry.addr_eq]
    omega
  unfold Heap.get32
  rw [page_base hstart, Geometry.page_addr, btokup_addr hinv.fits (by omega)]
  exact hentry

theorem usageType_large (hn : 0 < n) (huse : L.Holds i n (.large i))
    (hentry : load h.mem 4 (G.entry i) = n * 4 + pageTypeLarge) :
    h.usageType (h.btokup (G.addr i - G.addr i % pageSize)) = pageTypeLarge := by
  unfold Heap.usageType
  rw [hinv.entry_large hn huse hentry]
  unfold pageTypeLarge
  omega

theorem usageSize_large (hn : 0 < n) (huse : L.Holds i n (.large i))
    (hentry : load h.mem 4 (G.entry i) = n * 4 + pageTypeLarge) :
    h.usageSize (h.btokup (G.addr i - G.addr i % pageSize)) = n := by
  unfold Heap.usageSize
  rw [hinv.entry_large hn huse hentry]
  unfold pageTypeLarge
  omega

/-- The pages of a large block become free. -/
theorem freeLarge (hfuel : G.npages < fuel) (hn : 0 < n)
    (huse : L.Holds i n (.large i))
    (hentry : load h.mem 4 (G.entry i) = n * 4 + pageTypeLarge) :
    ∃ h' L', skFree fuel h (G.addr i) = some h' ∧
      SlabInv fit G L' h' (without live (G.addr i)) ∧ L.SameZones L' ∧
      ∀ k, L'.use k = .free ↔ L.use k = .free ∨ i ≤ k ∧ k < i + n := by
  have hfirst := huse i (Nat.le_refl i) (by omega)
  have hlast := huse (i + n - 1) (by omega) (by omega)
  have hi := hinv.inside i (by simp [hfirst])
  have hin := hinv.inside (i + n - 1) (by simp [hlast])
  have hstart : G.start ≤ G.addr i := by
    rw [Geometry.addr_eq]
    omega
  have htaken : (L.setUse i n .taken).Holds i n .taken := Layout.holds_setUse
  have hinv1 := (hinv.removeLarge huse).setUsage hi (htaken i (Nat.le_refl i) (by omega))
    (0 % 2 ^ 30 * 4 + h.usageType (G.entry i))
  obtain ⟨h', hrun, hinv2, -⟩ := hinv1.pageFree hn (by omega) htaken hfuel
  have hsame1 : L.SameZones (L.setUse i n .taken) :=
    Layout.sameZones_setUse huse (by simp) (by simp)
  have hsame2 := Layout.sameZones_setUse htaken (u := .free) (by simp) (by simp)
  refine ⟨h', _, ?_, hinv2, hsame1.trans hsame2, ?_⟩
  rotate_left
  · intro k
    by_cases hk : i ≤ k ∧ k < i + n
    · simp [Layout.setUse, hk]
    · simp [Layout.setUse, hk]
  have htype := hinv.usageType_large hn huse hentry
  have hsize := hinv.usageSize_large hn huse hentry
  unfold skFree
  rw [if_neg (G.addr_ne_zero i)]
  dsimp only
  rw [if_pos htype, hsize, page_base hstart, Geometry.page_addr, btokup_addr hinv.fits (by omega)]
  exact hrun

end

/-- `sk_free` of a large block at `p` does nothing to the zones; otherwise the zone gets the chunk
    back, and may be set aside. -/
inductive FreeEffect (G : Geometry) (L L' : Layout G.zoneSize) (h : Heap) (p : Nat) : Prop where
  | large (hsame : L.SameZones L')
      (htype : h.usageType (h.btokup (p - p % pageSize)) = pageTypeLarge)
  | give (z j : Nat) (hused : (L.zone z).Used j) (hz : L.use z = .zone z)
      (hp : p = (L.zone z).chunkAddr (G.addr z) j)
      (htype : h.usageType (h.btokup (p - p % pageSize)) ≠ pageTypeLarge)
      (hzone : zoneOf h p = G.addr z) (hbecomes : L.Becomes L' z ((L.zone z).push hused))
      (hzones : L'.freeZones = L.freeZones ∨
        L'.freeZones = z :: L.freeZones ∧ h.sysZoneFreeCnt < zoneReleaseNum)

/-- After a release the zone of the chunk at `p` is free pages, and `h'` has the layout `L'` but for
    the pointer to the free zones and their count. -/
structure Released (G : Geometry) (L L' : Layout G.zoneSize) (h h' : Heap) (p z : Nat) : Prop where
  zone : L.use z = .zone z
  zoneOf : zoneOf h p = G.addr z
  other : L.AgreeOff L' z
  use : L'.use z = .free
  freeZones : L'.freeZones = L.freeZones
  entries : ∀ i, z ≤ i → i < z + G.zonePages → load h'.mem 4 (G.entry i) = pageTypeFree
  cnt : zoneReleaseNum ≤ h.sysZoneFreeCnt

variable (hinv : SlabInv fit G L h live)
include hinv

theorem usageType_chunk (hz : L.use z = .zone z) (hj : j ≤ (L.zone z).uindex)
    (hptr : (L.zone z).chunkAddr (G.addr z) j = p) :
    h.usageType (h.btokup (p - p % pageSize)) = pageTypeSmall := by
  obtain ⟨hstart, howner⟩ := hinv.chunk_start hz (Zone.lt_nmax hj) hptr.symm
  have hlt := hinv.inside (G.page p) (by simp [howner])
  unfold Heap.usageType Heap.get32
  rw [page_base hstart, btokup_addr hinv.fits (by omega), hinv.usage _ z howner]
  unfold pageTypeSmall
  omega

/-- The zone may be set aside and released. -/
theorem freeSmall (hfuel : G.npages < fuel) (hz : L.use z = .zone z) (hused : (L.zone z).Used j)
    (hptr : (L.zone z).chunkAddr (G.addr z) j = p) :
    (FreeSound h p ∧ ∃ h' L', skFree fuel h p = some h' ∧ SlabInv fit G L' h' (without live p) ∧
      L.Becomes L' z ((L.zone z).push hused) ∧ (L'.freeZones = L.freeZones ∨
        L'.freeZones = z :: L.freeZones ∧ h.sysZoneFreeCnt < zoneReleaseNum)) ∨
    (¬FreeSound h p ∧ ∃ h' L' v,
      skFree fuel h p = some (withFreeZones h' v (h.sysZoneFreeCnt + 1)) ∧
      SlabInv fit G L' h' (without live p) ∧ Released G L L' h h' p z) := by
  have hmem := hinv.zones z hz
  have htype := hinv.usageType_chunk hz hused.1 hptr
  have hzone : zoneOf h p = G.addr z := by
    rw [← hptr]
    exact hinv.zoneOf_chunk hz hused.1
  have harray : h.sysZoneArray (L.zone z).index < 2 ^ 64 := hinv.array_lt _
  obtain ⟨m', heq, hzmem, hout, hnext⟩ := giveChunk_zone hmem hused (hinv.zone_lt hz) harray
  have hgives := (L.zone z).gives_push hused
  have hnfree := hgives.nfree
  rw [hptr] at heq
  -- the condition on the heap before the call, in terms of the zone
  have hsound : FreeSound h p ↔ ((L.zone z).nfree + 1 = (L.zone z).nmax →
      load h.mem 8 (G.addr z + zNext) ≠ 0 ∨ h.sysZoneArray (L.zone z).index ≠ G.addr z →
      h.sysZoneFreeCnt < zoneReleaseNum) := by
    unfold FreeSound Heap.get32 Heap.get64
    rw [htype, hzone, hmem.nfree, hmem.nmax, hmem.zoneindex]
    exact ⟨fun hs => hs (by decide), fun hs _ => hs⟩
  unfold skFree
  rw [if_neg (by rw [← hptr]; exact chunkAddr_ne_zero _ z j)]
  dsimp only
  rw [htype, if_neg (by decide), hzone, heq]
  unfold Heap.get32 Heap.get64
  dsimp only
  rw [hzmem.nfree, hzmem.nmax, hzmem.zoneindex, hnext]
  by_cases hfull : (L.zone z).nfree = 0
  · obtain ⟨L1, hinv1, hbecomes, hzones1⟩ :=
      hinv.giveChunk_full hz hused hgives hzmem hout hfull (by rw [hnext, if_pos hfull])
    rw [hptr] at hinv1
    have hnmax := ((L.zone z).push hused).nmax_ge
    have hmax : ((L.zone z).push hused).nmax = (L.zone z).nmax := rfl
    rw [if_neg (by omega), if_pos hfull]
    exact .inl ⟨hsound.mpr fun hall => by omega, _, _, rfl, hinv1, hbecomes, .inl hzones1⟩
  · obtain ⟨L1, hinv1, hbecomes, hzones1⟩ :=
      hinv.giveChunk_more hz hused hgives hzmem hout hfull (by rw [hnext, if_neg hfull])
    rw [hptr] at hinv1
    rw [if_neg hfull, if_neg hfull]
    split
    · rename_i hretire
      obtain ⟨hall, hmore⟩ := hretire
      have hin : z ∈ L1.array (L1.zone z).index := by
        rw [hinv1.array_mem, hbecomes.zone, hzones1]
        exact ⟨hbecomes.self, rfl, by omega, hinv.notMem_freeZones hused⟩
      obtain ⟨h2, L2, hrun, hcnt, hinv2, hbecomes2, hzones2⟩ :=
        hinv1.retireZone hin (by rw [hbecomes.zone]; exact hall) hfuel
      rw [hbecomes.zone] at hbecomes2
      rw [hzones1] at hzones2
      have hcnt2 : h2.sysZoneFreeCnt = h.sysZoneFreeCnt + 1 := hcnt
      rw [hrun]
      by_cases hroomleft : h.sysZoneFreeCnt < zoneReleaseNum
      · left
        exact ⟨hsound.mpr fun _ _ => hroomleft, h2, L2, if_neg (by omega), hinv2,
          hbecomes.other.becomes hbecomes2, .inr ⟨hzones2, hroomleft⟩⟩
      · right
        obtain ⟨h3, L3, v, hrelease, hinv3, hagree, huse, hzones3, hentries⟩ :=
          hinv2.releaseZone hzones2 hfuel
        refine ⟨fun hs => hroomleft (hsound.mp hs (by rw [← hnfree]; exact hall) hmore), h3, L3, v,
          ?_, hinv3, hz, hzone, (hbecomes.other.trans hbecomes2.other).trans hagree, huse, hzones3,
          hentries, by omega⟩
        rw [if_pos (by omega), hrelease, hcnt2]
    · rename_i hkeep
      refine .inl ⟨hsound.mpr fun hall hmore => absurd ⟨?_, hmore⟩ hkeep, _, _, rfl, hinv1,
        hbecomes, .inl hzones1⟩
      rw [hnfree]
      exact hall

/-- Without a release the layout is kept. -/
theorem free_returns (hfuel : G.npages < fuel) (hb : b ∈ live) (hsound : FreeSound h b.ptr) :
    ∃ h' L', skFree fuel h b.ptr = some h' ∧ SlabInv fit G L' h' (without live b.ptr) ∧
      FreeEffect G L L' h b.ptr := by
  cases hinv.placed b hb with
  | large i n hn hptr hsize huse hentry =>
    obtain ⟨h', L', hrun, hinv', hsame, -⟩ := hinv.freeLarge hfuel hn huse hentry
    rw [hptr]
    exact ⟨h', L', hrun, hinv', .large hsame (hinv.usageType_large hn huse hentry)⟩
  | small z j hz hused hptr hsize =>
    cases hinv.freeSmall hfuel hz hused hptr.symm with
    | inl hkept =>
      obtain ⟨-, h', L', hrun, hinv', hbecomes, hzones⟩ := hkept
      have htype := hinv.usageType_chunk hz hused.1 hptr.symm
      refine ⟨h', L', hrun, hinv', .give z j hused hz hptr ?_ ?_ hbecomes hzones⟩
      · rw [htype]
        decide
      · rw [hptr]
        exact hinv.zoneOf_chunk hz hused.1
    | inr hreleased => exact absurd hsound hreleased.1

theorem free_releases (hfuel : G.npages < fuel) (hb : b ∈ live) (hsound : ¬FreeSound h b.ptr) :
    ∃ h' L' v z, skFree fuel h b.ptr = some (withFreeZones h' v (h.sysZoneFreeCnt + 1)) ∧
      SlabInv fit G L' h' (without live b.ptr) ∧ Released G L L' h h' b.ptr z := by
  cases hinv.placed b hb with
  | large i n hn hptr hsize huse hentry =>
    -- a large block leads to no release
    refine absurd ?_ hsound
    intro htype
    rw [hptr, hinv.usageType_large hn huse hentry] at htype
    exact absurd rfl htype
  | small z j hz hused hptr hsize =>
    cases hinv.freeSmall hfuel hz hused hptr.symm with
    | inl hkept => exact absurd hkept.1 hsound
    | inr hreleased =>
      obtain ⟨-, h', L', v, hrun, hinv', hreleased⟩ := hreleased
      exact ⟨h', L', v, z, hrun, hinv', hreleased⟩

/-! ## Writes into live blocks -/

private theorem writeSmall (hfit : fit) (hz : L.use z = .zone z) (hused : (L.zone z).Used j)
    (hle : (L.zone z).chunkAddr (G.addr z) j ≤ x)
    (hlt : x < (L.zone z).chunkAddr (G.addr z) j + (L.zone z).chunk) (v : UInt8) :
    Served fit G L z (L.zone z) { h with mem := update h.mem x v } live := by
  have hin := (L.zone z).chunkAddr_bounds (G.addr z) (Zone.lt_nmax hused.1)
  have hend := Zone.chunk_end_le (hinv.exact hfit z hz) (G.addr z) hused.1
  have hroom := hinv.zoneRoom hz
  have hnotfree := hinv.notMem_freeZones hused
  have hbehind : G.addr z + slabZoneSize ≤ x ∧ x < G.addr z + G.zoneSize := by omega
  have hother : ∀ y, y ≠ x → update h.mem x v y = h.mem y :=
    fun y hy => update_of_ne hy ..
  have hout : SameOutside h.mem (update h.mem x v) (G.addr z) G.zoneSize :=
    fun y hy => hother y (by omega)
  have hnext : load (update h.mem x v) 8 (G.addr z + zNext) =
      load h.mem 8 (G.addr z + zNext) := by
    refine load_congr fun k hk hk8 => hother k ?_
    unfold slabZoneSize at hbehind
    unfold zNext at hk8
    omega
  refine hinv.serveStep hroom hnotfree hout (hinv.zone_entries hz) ?_
    (hinv.array_keep hroom hout hnext) (fun _ _ _ => Iff.rfl) ?_ ?_ hinv.nodup
    (fun hfit => hinv.exact hfit z hz)
  · refine (hinv.zones z hz).congr (fun y _ hy _ => hother y (by omega)) ?_
    intro k hk y hyle hylt
    refine hother y ?_
    intro heq
    -- free chunks are other chunks
    have hkj : k ≠ j := by
      intro heq'
      rw [heq'] at hk
      exact hused.2 hk
    have := Zone.chunk_apart (hinv.exact hfit z hz) (G.addr z) ((L.zone z).free_le k hk) hused.1 hkj
    have := (L.zone z).chunk_ge
    omega
  · intro k
    rw [hinv.array_mem]
    exact ⟨fun hk => ⟨hk.2.1, hk.2.2.1⟩, fun hk => ⟨hz, hk.1, hk.2, hnotfree⟩⟩
  · intro L' hset b hb
    exact hinv.placed_setZone hroom hset (.of_outside hout) hb fun _ =>
      ⟨rfl, fun k hk _ => ⟨hk, rfl⟩⟩

/-- A write into a live block keeps the layout. -/
theorem write (hfit : fit) (hb : b ∈ live) (hle : b.ptr ≤ x) (hlt : x < b.ptr + b.size)
    (v : UInt8) :
    ∃ L', SlabInv fit G L' { h with mem := update h.mem x v } live ∧ L.SameZones L' := by
  cases hinv.placed b hb with
  | large i n hn hptr hsize huse hentry =>
    have howner := (large_owner (G := G) (L := L) (x := x) huse (by omega) (by omega)).2
    have hother : ∀ y, L.use (G.page y) ≠ .large i → update h.mem x v y = h.mem y := by
      intro y hy
      refine update_of_ne (fun heq => hy ?_) ..
      rw [heq]
      exact howner
    refine ⟨{ L with use := L.use }, hinv.repage rfl (fun _ _ => rfl) ?_ hinv.inside ?_, .refl L⟩
    · intro y _ hheld
      refine hother y fun heq => ?_
      simp [heq] at hheld
    · refine hinv.free.congr ?_ rfl
      intro k hk y hyle hylt
      exact hother y (by simp [(free_owner hk hyle hylt).2])
  | small z j hz hused hptr hsize =>
    have := hsize.2 hfit
    obtain ⟨L', hinv', hbecomes, hzones⟩ :=
      hinv.writeSmall (x := x) hfit hz hused (by omega) (by omega) v
    refine ⟨L', hinv', ?_, ?_, hzones⟩
    · intro y
      by_cases hyz : y = z
      · rw [hyz]
        exact iff_of_true hbecomes.self hz
      · exact hbecomes.other.use y hyz
    · funext y
      by_cases hyz : y = z
      · rw [hyz]
        exact hbecomes.zone
      · exact hbecomes.other.zone y hyz

end SlabInv

end SKernel.Spec
