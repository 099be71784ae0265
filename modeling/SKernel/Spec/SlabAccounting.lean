import SKernel.Spec.SlabCorrect

/-!
# The books of the slab allocator

Two sets of books are kept in memory. Each zone counts its free chunks in `z_nfree`: those behind
`z_uindex`, which have never been handed out, and those on the list `z_freechunk`, which have come
back. That list has no end mark; only the count tells how many chunks are on it. And
`sys_zone_free_cnt` counts the zones that are set aside on `sys_zone_free`.

Both are right until a zone is released: `--sys_zone_free` then moves the pointer to the list
instead of the count.

## Key results

- `free_zone_accounting`: the zones set aside, and when a free keeps them
- `zone_accounting`: the free chunks of every zone
-/

namespace SKernel.Spec

open Native ByteMem Chain Function List

variable {G : Geometry} {L L' : Layout G.zoneSize} {h h' : Heap} {live : List Block} {z p : Nat}
variable {b : Block} {e : SlabOp} {x : SlabSys} {freed : Nat → List Nat} {fuel : Nat}

/-! ## The zones set aside -/

/-- The list of free zones is `l`: distinct zones, completely free, counted and not too many. -/
structure FreeZones (h : Heap) (live : List Block) (l : List Nat) : Prop where
  linked : Linked (fun a => h.get64 (a + zNext)) h.sysZoneFree l
  nodup : l.Nodup
  allFree : ∀ z ∈ l, h.get32 (z + zNfree) = h.get32 (z + zNmax) ∧
    ∀ b ∈ live, b.Disjoint ⟨z, h.sysZoneSize⟩
  cnt : h.sysZoneFreeCnt = l.length
  le : h.sysZoneFreeCnt ≤ zoneReleaseNum

/-- There are not too many zones set aside. -/
def FewFreeZones (G : Geometry) (L : Layout G.zoneSize) : Prop :=
  (L.freeZones.length : Int) ≤ zoneReleaseNum

namespace SlabInv

private theorem disjoint_freeZone (hslab : SlabInv True G L h live) (hz : z ∈ L.freeZones)
    (hb : b ∈ live) : b.Disjoint ⟨G.addr z, G.zoneSize⟩ := by
  intro x hxb hxz
  obtain ⟨huse, hall⟩ := hslab.freeZones_mem z hz
  have howner := (hslab.zone_owner huse hxz.1 hxz.2).2
  obtain ⟨j, hused, -⟩ := hslab.block_in_zone hb hxb howner
  exact Zone.not_used_of_nfree hall j hused

private theorem freeZones_ok (hslab : SlabInv True G L h live) (hfew : FewFreeZones G L) :
    FreeZones h live (L.freeZones.map G.addr) where
  linked := hslab.freeZones
  nodup := Linked.nodup hslab.freeZones
  allFree := by
    intro a ha
    obtain ⟨z, hz, rfl⟩ := List.mem_map.mp ha
    obtain ⟨huse, hall⟩ := hslab.freeZones_mem z hz
    have hmem := hslab.zones z huse
    refine ⟨?_, ?_⟩
    · unfold Heap.get32
      rw [hmem.nfree, hmem.nmax]
      exact hall
    · intro b hb
      rw [hslab.fits.zoneSize]
      exact hslab.disjoint_freeZone hz hb
  cnt := by
    rw [length_map]
    exact hslab.freeCnt
  le := by
    rw [hslab.freeCnt]
    exact hfew

end SlabInv

theorem FewFreeZones.step (hfew : FewFreeZones G L) (hslab : SlabInv True G L h live)
    (heffect : SlabEffect True G L L' h e) : FewFreeZones G L' := by
  unfold FewFreeZones at *
  cases heffect with
  | malloc heffect =>
    cases heffect with
    | refused _ _ hlayout _ =>
      rw [hlayout]
      exact hfew
    | large _ _ _ hsame _ _ =>
      rw [hsame.freeZones]
      exact hfew
    | take _ _ _ _ _ _ _ _ _ _ _ _ _ _ hzones =>
      rw [hzones]
      exact hfew
    | create _ _ _ _ _ _ _ _ _ _ _ hzones =>
      rw [hzones, length_tail]
      omega
  | free heffect =>
    cases heffect with
    | large hsame _ =>
      rw [hsame.freeZones]
      exact hfew
    | give _ _ _ _ _ _ _ _ hzones =>
      cases hzones with
      | inl hkept =>
        rw [hkept]
        exact hfew
      | inr haside =>
        have hcnt := hslab.freeCnt
        rw [haside.1, length_cons]
        omega
  | write hsame =>
    rw [hsame.freeZones]
    exact hfew

private theorem few_of_reach (hreach : slabSystem.Reach SlabSys.Sound x) :
    (∃ (G : Geometry) (L : Layout G.zoneSize), SlabInv True G L x.heap x.live ∧ FewFreeZones G L) ∨
      DeadHeap x.heap ∧ x.live = [] ∧ x.heap.sysZoneFreeCnt = 0 :=
  layout_of_reach (P := FewFreeZones)
    (fun _ _ _ => by simp [FewFreeZones, freshLayout, zoneReleaseNum])
    (fun _ _ _ _ _ _ hsound => hsound.keeps)
    (fun _ _ _ _ _ hslab hfew _ heffect => hfew.step hslab heffect) hreach

/-- The free zones stay well-formed unless one is released. -/
theorem SlabInv.free_iff (hslab : SlabInv True G L x.heap x.live) (hfew : FewFreeZones G L)
    (hcalled : x.Called (.free p)) :
    ∃ h', skFree x.fuel x.heap p = some h' ∧
      ((∃ l, FreeZones h' (SlabInv.without x.live p) l) ↔ SlabInv.FreeSound x.heap p) ∧
      (¬SlabInv.FreeSound x.heap p → ∀ i < x.heap.sysZonePageCnt,
        h'.usageType (h'.btokup (zoneOf x.heap p + i * pageSize)) = pageTypeFree) := by
  obtain ⟨b, hb, rfl⟩ := hcalled
  have hfuel := hslab.npages_lt_fuel
  by_cases hsound : SlabInv.FreeSound x.heap b.ptr
  · obtain ⟨h', L', hrun, hslab', heffect⟩ := hslab.free_returns hfuel hb hsound
    have hfew' := hfew.step hslab (.free heffect)
    exact ⟨h', hrun, ⟨fun _ => hsound, fun _ => ⟨_, hslab'.freeZones_ok hfew'⟩⟩, fun hnot =>
      absurd hsound hnot⟩
  · obtain ⟨h', L', v, z, hrun, hslab', hreleased⟩ := hslab.free_releases hfuel hb hsound
    refine ⟨_, hrun, ⟨?_, fun hyes => absurd hyes hsound⟩, ?_⟩
    · -- the count is too high
      rintro ⟨l, hzones⟩
      have hle : x.heap.sysZoneFreeCnt + 1 ≤ zoneReleaseNum := hzones.le
      have hcnt := hreleased.cnt
      omega
    · intro _ i hi
      rw [hslab.fits.pageCnt] at hi
      have hin := hslab.zone_inside hreleased.zone
      have haddr : zoneOf x.heap b.ptr + i * pageSize = G.addr (z + i) := by
        rw [hreleased.zoneOf, Geometry.addr_eq, Geometry.addr_eq, Nat.add_mul]
        omega
      have hfits : G.Fits (withFreeZones h' v (x.heap.sysZoneFreeCnt + 1)) :=
        hslab'.fits.update ..
      rw [haddr, SlabInv.btokup_addr hfits (by omega)]
      show load h'.mem 4 (G.entry (z + i)) % 4 = pageTypeFree
      rw [hreleased.entries (z + i) (by omega) (by omega)]
      rfl

/-- **Free-zone accounting.** In every state reached by calls that meet neither defect,
    `sys_zone_free` is a list of distinct, completely free zones, and `sys_zone_free_cnt` is its
    length and at most `SK_ZONE_RELEASE_NUM`. A further call of `sk_free` returns, and keeps this
    exactly when it releases no zone; a release frees the usage entries of the zone. -/
theorem free_zone_accounting {x : SlabSys} (h : slabSystem.Reach SlabSys.Sound x) :
    (∃ l, FreeZones x.heap x.live l) ∧
      ∀ p, x.Called (.free p) → ∃ h', skFree x.fuel x.heap p = some h' ∧
        ((∃ l, FreeZones h' (SlabInv.without x.live p) l) ↔ SlabInv.FreeSound x.heap p) ∧
        (¬SlabInv.FreeSound x.heap p → ∀ i < x.heap.sysZonePageCnt,
          h'.usageType (h'.btokup (zoneOf x.heap p + i * pageSize)) = pageTypeFree) := by
  cases few_of_reach h with
  | inl hlayout =>
    obtain ⟨G, L, hslab, hfew⟩ := hlayout
    exact ⟨⟨_, hslab.freeZones_ok hfew⟩, fun p hcalled => hslab.free_iff hfew hcalled⟩
  | inr hdead =>
    obtain ⟨hdead, hlive, hcnt⟩ := hdead
    refine ⟨⟨[], hdead.zones, nodup_nil, fun _ hz => absurd hz not_mem_nil, hcnt, ?_⟩, ?_⟩
    · rw [hcnt]
      decide
    · rintro p ⟨b, hb, -⟩
      rw [hlive] at hb
      cases hb

/-- Five full zones of three chunks; one chunk of the last zone and all of the third and the second
    are freed. -/
def twoAside : List SlabOp :=
  List.replicate 15 (.malloc 8191) ++
    [.free 147456, .free 81920, .free 90112, .free 98304, .free 49152, .free 57344, .free 65536]

/-- Two zones are set aside. -/
theorem free_zone_accounting_two : ∃ x, slabSystem.Reach SlabSys.Sound x ∧
    x.heap.sysZoneFreeCnt = 2 ∧ ∃ l, FreeZones x.heap x.live l := by
  obtain ⟨x, hx, hp⟩ := (reach_smallHeap 49 (by decide +kernel) SlabSys.Sound).exists_of_run
    twoAside (fun x => x.heap.sysZoneFreeCnt = 2) (by decide +kernel)
  exact ⟨x, hx, of_decide_eq_true hp, (free_zone_accounting hx).1⟩

/-- The chunks of the fourth zone are freed as well: it is released, the count stays 3, and the
    pointer to the free zones moves 56 bytes down from the zone at 40960. -/
theorem free_zone_accounting_fails : ∃ x, slabSystem.Reach SlabSys.MallocsFit x ∧
    x.heap.sysZoneFreeCnt = 3 ∧ x.heap.sysZoneFree = 40904 ∧ ¬∃ l, FreeZones x.heap x.live l := by
  obtain ⟨x, hx, hp⟩ := (reach_smallHeap 49 (by decide +kernel) SlabSys.MallocsFit).exists_of_run
    (twoAside ++ [.free 114688, .free 122880, .free 131072])
    (fun x => x.heap.sysZoneFreeCnt = 3 ∧ x.heap.sysZoneFree = 40904) (by decide +kernel)
  obtain ⟨hcnt, hzones⟩ := of_decide_eq_true hp
  refine ⟨x, hx, hcnt, hzones, ?_⟩
  rintro ⟨l, hl⟩
  have hle := hl.le
  rw [hcnt] at hle
  exact absurd hle (by decide)

/-! ## The chunks of a zone -/

/-- The heap, and the chunks of each zone that have been freed since it was set up and not handed
    out again. -/
structure LedgerSys extends SlabSys where
  freed : Nat → List Nat

namespace LedgerSys

/-- The ledger after `sk_malloc(size)` has returned `p` and left `h'`. The zone is new when its
    class had none. -/
def handOut (y : LedgerSys) (size p : Nat) (h' : Heap) : Nat → List Nat :=
  if p = 0 ∨ y.heap.sysZoneLimit ≤ size then y.freed
  else
    match zoneIndex size with
    | none => y.freed
    | some (index, _) =>
      update y.freed (zoneOf h' p)
        (if y.heap.sysZoneArray index = 0 then [] else (y.freed (zoneOf h' p)).erase p)

/-- The ledger after `sk_free(p)`. -/
def takeBack (y : LedgerSys) (p : Nat) : Nat → List Nat :=
  if y.heap.usageType (y.heap.btokup (p - p % pageSize)) = pageTypeLarge then y.freed
  else update y.freed (zoneOf y.heap p) (p :: y.freed (zoneOf y.heap p))

/-- The effect of an operation. -/
def exec (y : LedgerSys) : SlabOp → Option LedgerSys
  | .malloc size => (skMalloc y.fuel y.heap size).map fun r =>
      { heap := r.2
        live := if r.1 = 0 then y.live else ⟨r.1, size⟩ :: y.live
        freed := y.handOut size r.1 r.2 }
  | .free p => (skFree y.fuel y.heap p).map fun h =>
      { heap := h, live := SlabInv.without y.live p, freed := y.takeBack p }
  | .write a v => some { y with heap := { y.heap with mem := update y.heap.mem a v } }

end LedgerSys

/-- The heap with a ledger as a transition system. -/
def ledgerSystem : TransitionSystem LedgerSys SlabOp where
  init := fun y => slabSystem.init y.toSlabSys ∧ y.freed = fun _ => []
  step := fun y e => if y.Called e then y.exec e else none

/-- The ledger lists the free chunks of every zone. -/
def Books (G : Geometry) (L : Layout G.zoneSize) (freed : Nat → List Nat) : Prop :=
  ∀ z, L.use z = .zone z → freed (G.addr z) = (L.zone z).free.map ((L.zone z).chunkAddr (G.addr z))

namespace Books

variable {freed : Nat → List Nat}

theorem same (hbooks : Books G L freed) (hsame : L.SameZones L') : Books G L' freed := by
  intro z hz
  rw [hsame.zone]
  exact hbooks z ((hsame.use z).mp hz)

theorem update (hbooks : Books G L freed) {z0 : Nat} {w : Zone G.zoneSize}
    (hbecomes : L.Becomes L' z0 w) {l : List Nat} (hl : l = w.free.map (w.chunkAddr (G.addr z0))) :
    Books G L' (update freed (G.addr z0) l) := by
  intro z hz
  by_cases hne : z = z0
  · rw [hne, update_self, hbecomes.zone]
    exact hl
  · rw [update_of_ne (fun heq => hne (Geometry.addr_inj.mp heq)),
      hbecomes.other.zone z hne]
    exact hbooks z ((hbecomes.other.use z hne).mp hz)

end Books

namespace LedgerSys

variable {y y' : LedgerSys} {size : Nat}

private theorem books_handOut (hslab : SlabInv True G L y.heap y.live) (hbooks : Books G L y.freed)
    (hslab' : SlabInv True G L' h' (if p = 0 then y.live else ⟨p, size⟩ :: y.live))
    (heffect : SlabInv.MallocEffect True G L L' y.fuel y.heap h' size p) :
    Books G L' (y.handOut size p h') := by
  have hlimit := hslab.fits.limit
  unfold handOut
  cases heffect with
  | refused hp _ hlayout _ =>
    rw [if_pos (.inl hp), hlayout]
    exact hbooks
  | large i hsize _ hsame _ _ =>
    rw [if_pos (by omega)]
    exact hbooks.same hsame
  | take index chunk z j w hsize hclass hz _ _ htakes hfree hp hbecomes _ =>
    have hused : w.Used j := (htakes.used j).mpr (.inr rfl)
    have hzone : zoneOf h' p = G.addr z := by
      rw [hp, ← hbecomes.zone]
      refine hslab'.zoneOf_chunk hbecomes.self ?_
      rw [hbecomes.zone]
      exact hused.1
    have hhead : y.heap.sysZoneArray index ≠ 0 := by
      intro hnull
      have hnil := (Linked.eq_zero_iff (hslab.array index)).mp hnull
      rw [map_eq_nil_iff.mp hnil] at hz
      cases hz
    have hne : p ≠ 0 := by
      rw [hp]
      exact SlabInv.chunkAddr_ne_zero w z j
    rw [if_neg (by omega), hclass]
    dsimp only
    rw [if_neg hhead, hzone]
    refine hbooks.update hbecomes ?_
    -- the chunk leaves the ledger of its zone; a chunk never handed out was not in it
    have hinj : Function.Injective (w.chunkAddr (G.addr z)) := fun i k => Zone.chunkAddr_inj.mp
    rw [hbooks z ((hslab.array_mem index z).mp hz).1, hfree, map_erase hinj, hp]
    congr 1
    exact (htakes.map_free _).symm
  | create index z w hsize hclass hhead _ hindex hfree hp hbecomes _ =>
    have hzone : zoneOf h' p = G.addr z := by
      rw [hp, ← hbecomes.zone]
      exact hslab'.zoneOf_chunk hbecomes.self (Nat.zero_le _)
    have hne : p ≠ 0 := by
      rw [hp]
      exact SlabInv.chunkAddr_ne_zero w z 0
    rw [if_neg (by omega), hclass]
    dsimp only
    rw [if_pos hhead, hzone]
    refine hbooks.update hbecomes ?_
    rw [hfree]
    rfl

private theorem books_takeBack (hbooks : Books G L y.freed)
    (heffect : SlabInv.FreeEffect G L L' y.heap p) : Books G L' (y.takeBack p) := by
  unfold takeBack
  cases heffect with
  | large hsame htype =>
    rw [if_pos htype]
    exact hbooks.same hsame
  | give z j hused hz hp htype hzone hbecomes _ =>
    rw [if_neg htype, hzone]
    refine hbooks.update hbecomes ?_
    rw [hbooks z hz, hp]
    rfl

/-- The heap has a layout, and the books are right, or there is no page to give. -/
def Inv (y : LedgerSys) : Prop :=
  (∃ (G : Geometry) (L : Layout G.zoneSize), SlabInv True G L y.heap y.live ∧ Books G L y.freed) ∨
    DeadHeap y.heap ∧ y.live = []

theorem Inv.init (hinit : ledgerSystem.init y) : y.Inv := by
  obtain ⟨⟨hlive, fuel, h0, beginAddr, endAddr, hcold, hrun⟩, -⟩ := hinit
  cases skSystemMemInit_cases hcold hrun with
  | inl hlayout =>
    obtain ⟨G, a, n, hslab⟩ := hlayout
    refine .inl ⟨G, _, hlive ▸ hslab, ?_⟩
    intro z hz
    exact absurd hz (freshLayout_not_zone z z)
  | inr hdead => exact .inr ⟨hdead.1, hlive⟩

theorem Inv.step (hinv : y.Inv) (hsound : y.toSlabSys.Sound e)
    (hstep : ledgerSystem.step y e = some y') : y'.Inv := by
  obtain ⟨hcalled, hexec⟩ := Option.ite_none_right_eq_some.mp hstep
  cases hinv with
  | inl hlayout =>
    obtain ⟨G, L, hslab, hbooks⟩ := hlayout
    have hfuel : G.npages < y.fuel := hslab.npages_lt_fuel
    cases e with
    | malloc size =>
      obtain ⟨p, h', L', hrun, hslab', heffect⟩ :=
        hslab.malloc_returns hfuel hcalled fun _ => hsound
      dsimp only [exec] at hexec
      rw [hrun] at hexec
      cases hexec
      exact .inl ⟨G, L', hslab', books_handOut hslab hbooks hslab' heffect⟩
    | free p =>
      obtain ⟨b, hb, rfl⟩ := hcalled
      obtain ⟨h', L', hrun, hslab', heffect⟩ := hslab.free_returns hfuel hb hsound
      dsimp only [exec] at hexec
      rw [hrun] at hexec
      cases hexec
      exact .inl ⟨G, L', hslab', books_takeBack hbooks heffect⟩
    | write a v =>
      obtain ⟨b, hb, hle, hlt⟩ := hcalled
      obtain ⟨L', hslab', hsame⟩ := hslab.write trivial hb hle hlt v
      cases hexec
      exact .inl ⟨G, L', hslab', hbooks.same hsame⟩
  | inr hdead =>
    obtain ⟨hdead, hlive⟩ := hdead
    cases e with
    | malloc size =>
      dsimp only [exec] at hexec
      rw [hdead.malloc y.one_lt_fuel] at hexec
      cases hexec
      exact .inr ⟨hdead, hlive⟩
    | free | write =>
      obtain ⟨b, hb, -⟩ := hcalled
      rw [hlive] at hb
      cases hb

end LedgerSys

/-- The account of the zone at `z`: `freed` have come back, and `aside` says that it is one of the
    free zones. -/
structure ZoneAccount (h : Heap) (live : List Block) (freed : List Nat) (aside : Prop) (z : Nat) :
    Prop where
  two_fit : 2 ≤ h.get32 (z + zNmax)
  uindex_lt : h.get32 (z + zUindex) < h.get32 (z + zNmax)
  nfree : h.get32 (z + zNfree) =
    (h.get32 (z + zNmax) - 1 - h.get32 (z + zUindex)) + freed.length
  listed : OnList (fun a => h.get64 (a + zNext)) (h.sysZoneArray (h.get32 (z + zZoneindex))) z ↔
    0 < h.get32 (z + zNfree) ∧ ¬aside
  /-- When `sk_malloc` goes to the list, a chunk that has come back stands there. -/
  freechunk : 0 < h.get32 (z + zNfree) → h.get32 (z + zUindex) + 1 = h.get32 (z + zNmax) →
    freed.head? = some (h.get64 (z + zFreechunk))
  /-- The chunks that are handed out lie inside the zone, behind its header. -/
  inside : ∀ b ∈ live, h.usageType (h.btokup (b.ptr - b.ptr % pageSize)) ≠ pageTypeLarge →
    zoneOf h b.ptr = z → z + slabZoneSize ≤ b.ptr ∧
      b.ptr + h.get32 (z + zChunksize) ≤ z + h.sysZoneSize
  notLive : ∀ c ∈ freed, ∀ b ∈ live, b.ptr ≠ c

namespace SlabInv

private theorem chunk_between {v : Zone G.zoneSize} (hv : v.Exact) {a j : Nat} (hj : j ≤ v.uindex) :
    a + slabZoneSize ≤ v.chunkAddr a j ∧ v.chunkAddr a j + v.chunk ≤ a + G.zoneSize :=
  ⟨(v.chunkAddr_bounds a (Zone.lt_nmax hj)).1, Zone.chunk_end_le hv a hj⟩

private theorem account (hslab : SlabInv True G L h live) (hbooks : Books G L freed)
    (hz : L.use z = .zone z) {aside : Prop} (haside : aside ↔ z ∈ L.freeZones) :
    ZoneAccount h live (freed (G.addr z)) aside (G.addr z) := by
  have hmem := hslab.zones z hz
  have hnmax : h.get32 (G.addr z + zNmax) = (L.zone z).nmax := hmem.nmax
  have hnfree : h.get32 (G.addr z + zNfree) = (L.zone z).nfree := hmem.nfree
  have huindex : h.get32 (G.addr z + zUindex) = (L.zone z).uindex := hmem.uindex
  have hindex : h.get32 (G.addr z + zZoneindex) = (L.zone z).index := hmem.zoneindex
  have hchunk : h.get32 (G.addr z + zChunksize) = (L.zone z).chunk := hmem.chunksize
  refine ⟨?_, ?_, ?_, ?_, ?_, ?_, ?_⟩
  · rw [hnmax]
    exact (L.zone z).nmax_ge
  · rw [huindex, hnmax]
    exact (L.zone z).uindex_lt_nmax
  · rw [hnfree, hnmax, huindex, hbooks z hz, length_map]
    rfl
  · rw [hindex, hnfree, haside]
    have hon := Linked.onList_iff (a := G.addr z) (hslab.array (L.zone z).index)
    have hin : G.addr z ∈ (L.array (L.zone z).index).map G.addr ↔ z ∈ L.array (L.zone z).index :=
      List.mem_map_of_injective fun i k => Geometry.addr_inj.mp
    refine hon.trans (hin.trans ?_)
    rw [hslab.array_mem]
    simp [hz]
  · -- all chunks have been handed out once, so the free ones are on the list
    rw [hnfree, huindex, hnmax, hbooks z hz]
    intro hpos hlast
    have hchunks := hmem.chunks
    cases hfree : (L.zone z).free with
    | nil =>
      unfold Zone.nfree at hpos
      rw [hfree, length_nil] at hpos
      omega
    | cons j rest =>
      rw [hfree] at hchunks
      exact congrArg some hchunks.1.symm
  · intro b hb htype hzone
    rw [hchunk, hslab.fits.zoneSize]
    cases hslab.placed b hb with
    | large i n hn hptr hsize huse hentry =>
      rw [hptr, hslab.usageType_large hn huse hentry] at htype
      exact absurd rfl htype
    | small y j hy hused hptr hsize =>
      rw [hptr, hslab.zoneOf_chunk hy hused.1] at hzone
      cases Geometry.addr_inj.mp hzone
      rw [hptr]
      exact chunk_between (hslab.exact trivial _ hy) hused.1
  · intro c hc b hb
    rw [hbooks z hz] at hc
    obtain ⟨j, hj, rfl⟩ := List.mem_map.mp hc
    exact hslab.ptr_ne_of_not_used hb hz (L.zone z) (fun _ _ => rfl) (fun hused => hused.2 hj)
      (Zone.lt_nmax ((L.zone z).free_le j hj))

private theorem effect_inside (hslab' : SlabInv True G L' h' live) {size : Nat} (hp : p ≠ 0)
    (hsmall : size < G.limit) (heffect : MallocEffect True G L L' fuel h h' size p) :
    zoneOf h' p + slabZoneSize ≤ p ∧
      p + h'.get32 (zoneOf h' p + zChunksize) ≤ zoneOf h' p + h'.sysZoneSize := by
  have hchunk : ∀ (z j : Nat) (w : Zone G.zoneSize), L'.use z = .zone z → L'.zone z = w → w.Used j →
      p = w.chunkAddr (G.addr z) j → zoneOf h' p + slabZoneSize ≤ p ∧
        p + h'.get32 (zoneOf h' p + zChunksize) ≤ zoneOf h' p + h'.sysZoneSize := by
    rintro z j w hz rfl hused rfl
    have hsize : h'.get32 (G.addr z + zChunksize) = (L'.zone z).chunk :=
      (hslab'.zones z hz).chunksize
    rw [hslab'.zoneOf_chunk hz hused.1, hsize, hslab'.fits.zoneSize]
    exact chunk_between (hslab'.exact trivial z hz) hused.1
  cases heffect with
  | refused hnull _ _ _ => exact absurd hnull hp
  | large => omega
  | take index chunk z j w _ _ _ _ _ htakes _ hptr hbecomes _ =>
    exact hchunk z j w hbecomes.self hbecomes.zone ((htakes.used j).mpr (.inr rfl)) hptr
  | create index z w _ _ _ _ _ hfree hptr hbecomes _ =>
    refine hchunk z 0 w hbecomes.self hbecomes.zone ⟨Nat.zero_le _, ?_⟩ hptr
    rw [hfree]
    exact not_mem_nil

end SlabInv

/-- The zones in service: those on the zone arrays, and those of the live chunks. -/
inductive InService (h : Heap) (live : List Block) : Nat → Prop where
  | array (index : Nat) {z : Nat}
      (hz : OnList (fun a => h.get64 (a + zNext)) (h.sysZoneArray index) z) : InService h live z
  | chunk {b : Block} (hb : b ∈ live)
      (htype : h.usageType (h.btokup (b.ptr - b.ptr % pageSize)) ≠ pageTypeLarge) :
      InService h live (zoneOf h b.ptr)

private theorem SlabInv.inService (hslab : SlabInv True G L h live) (hp : InService h live p) :
    ∃ z, p = G.addr z ∧ L.use z = .zone z ∧ z ∉ L.freeZones := by
  cases hp with
  | array index hon =>
    obtain ⟨z, hz, hzp⟩ := List.mem_map.mp ((Linked.onList_iff (hslab.array index)).mp hon)
    obtain ⟨huse, -, -, hnot⟩ := (hslab.array_mem index z).mp hz
    exact ⟨z, hzp.symm, huse, hnot⟩
  | @chunk b hb htype =>
    cases hslab.placed b hb with
    | large i n hn hptr hsize huse hentry =>
      rw [hptr, hslab.usageType_large hn huse hentry] at htype
      exact absurd rfl htype
    | small z j hz hused hptr hsize =>
      refine ⟨z, ?_, hz, hslab.notMem_freeZones hused⟩
      rw [hptr]
      exact hslab.zoneOf_chunk hz hused.1

private theorem SlabInv.account_release (hslab : SlabInv True G L h live) (hbooks : Books G L freed)
    (hb : b ∈ live) (hsound : ¬SlabInv.FreeSound h b.ptr) (hfuel : G.npages < fuel) :
    ∃ h', skFree fuel h b.ptr = some h' ∧ ∀ z, InService h' (SlabInv.without live b.ptr) z →
      z ≠ zoneOf h b.ptr ∧
        ZoneAccount h' (SlabInv.without live b.ptr) (freed z) False z := by
  obtain ⟨h1, L', v, z0, hrun, hslab', hreleased⟩ := hslab.free_releases hfuel hb hsound
  refine ⟨_, hrun, ?_⟩
  intro z hz
  -- the pointer to the free zones and their count play no part in what follows
  have hservice : InService h1 (SlabInv.without live b.ptr) z := by
    cases hz with
    | array index hon => exact .array index hon
    | chunk hc htype => exact .chunk hc htype
  obtain ⟨y, rfl, huse, hnot⟩ := hslab'.inService hservice
  have hne : y ≠ z0 := by
    rintro rfl
    rw [hreleased.use] at huse
    cases huse
  have hbooks' : Books G L' freed := by
    intro k hk
    have hkne : k ≠ z0 := by
      rintro rfl
      rw [hreleased.use] at hk
      cases hk
    rw [hreleased.other.zone k hkne]
    exact hbooks k ((hreleased.other.use k hkne).mp hk)
  have haccount := hslab'.account hbooks' huse
    (show False ↔ y ∈ L'.freeZones from ⟨False.elim, fun hin => hnot hin⟩)
  refine ⟨?_, haccount.two_fit, haccount.uindex_lt, haccount.nfree, haccount.listed,
    haccount.freechunk, haccount.inside, haccount.notLive⟩
  rw [hreleased.zoneOf]
  exact fun heq => hne (Geometry.addr_inj.mp heq)

/-- **Chunk accounting.** In every state reached by calls that meet neither defect, whatever stood
    in the memory of the zones before, the account of every zone is right. A chunk that `sk_malloc`
    hands out then lies inside its zone, behind the header, and is not live. And a call of `sk_free`
    that releases a zone leaves the accounts of the zones in service right. -/
theorem zone_accounting {y : LedgerSys}
    (h : ledgerSystem.Reach (fun y e => y.toSlabSys.Sound e) y) :
    (∀ z, IsZone y.heap y.live z → ZoneAccount y.heap y.live (y.freed z)
      (OnList (fun a => y.heap.get64 (a + zNext)) y.heap.sysZoneFree z) z) ∧
    (∀ size p h', 0 < size → size < y.heap.sysZoneLimit → SlabInv.MallocSound y.heap size →
      skMalloc y.fuel y.heap size = some (p, h') → p ≠ 0 →
      (∀ b ∈ y.live, b.ptr ≠ p) ∧ zoneOf h' p + slabZoneSize ≤ p ∧
        p + h'.get32 (zoneOf h' p + zChunksize) ≤ zoneOf h' p + h'.sysZoneSize) ∧
    ∀ p, y.Called (.free p) → ¬SlabInv.FreeSound y.heap p →
      ∃ h', skFree y.fuel y.heap p = some h' ∧ ∀ z, InService h' (SlabInv.without y.live p) z →
        z ≠ zoneOf y.heap p ∧ ZoneAccount h' (SlabInv.without y.live p) (y.freed z) False z := by
  have hinv : y.Inv := h.invariant (I := LedgerSys.Inv) (fun _ hinit => .init hinit)
    (fun _ _ _ hinv hsound hstep => hinv.step hsound hstep)
  cases hinv with
  | inl hlayout =>
    obtain ⟨G, L, hslab, hbooks⟩ := hlayout
    have hfuel : G.npages < y.fuel := hslab.npages_lt_fuel
    refine ⟨?_, ?_, ?_⟩
    · intro p hp
      obtain ⟨z, rfl, hz⟩ := hslab.isZone hp
      refine hslab.account hbooks hz ((Linked.onList_iff hslab.freeZones).trans ?_)
      exact List.mem_map_of_injective fun i k => Geometry.addr_inj.mp
    · intro size p h' hpos hlt hsound hrun hp
      have hlimit := limit_cases G
      rw [hslab.fits.limit] at hlt
      obtain ⟨p', h1, L', hrun', hslab', heffect⟩ :=
        hslab.malloc_returns hfuel (by omega) fun _ => hsound
      rw [hrun] at hrun'
      cases hrun'
      rw [if_neg hp] at hslab'
      refine ⟨?_, hslab'.effect_inside hp hlt heffect⟩
      -- the pointers of the live blocks differ, the new one among them
      intro b hb heq
      have hin : b.ptr ∈ y.live.map Block.ptr := List.mem_map_of_mem hb
      rw [heq] at hin
      exact (nodup_cons.mp hslab'.nodup).1 hin
    · rintro p ⟨b, hb, rfl⟩ hsound
      exact hslab.account_release hbooks hb hsound hfuel
  | inr hdead =>
    obtain ⟨hdead, hlive⟩ := hdead
    refine ⟨?_, ?_, ?_⟩
    · intro z hz
      rw [hlive] at hz
      exact absurd hz (hdead.not_isZone z)
    · intro size p h' _ _ _ hrun hp
      rw [hdead.malloc y.one_lt_fuel] at hrun
      cases hrun
      exact absurd rfl hp
    · rintro p ⟨b, hb, -⟩ -
      rw [hlive] at hb
      cases hb

/-- The three chunks of a zone are handed out, two of them come back, and the last one of these is
    handed out again. -/
theorem zone_accounting_three :
    ∃ y, ledgerSystem.Reach (fun y e => y.toSlabSys.Sound e) y ∧ y.freed 8192 = [16384] ∧
      IsZone y.heap y.live 8192 ∧ ZoneAccount y.heap y.live (y.freed 8192)
        (OnList (fun a => y.heap.get64 (a + zNext)) y.heap.sysZoneFree 8192) 8192 := by
  have hinit : ledgerSystem.init ⟨⟨smallHeap 12, []⟩, fun _ => []⟩ :=
    ⟨init_smallHeap 12 (by decide +kernel), rfl⟩
  obtain ⟨y, hy, hp⟩ := TransitionSystem.Reach.exists_of_run
    (.init hinit : ledgerSystem.Reach (fun y e => y.toSlabSys.Sound e) _)
    [.malloc 8191, .malloc 8000, .malloc 8191, .free 16384, .free 24576, .malloc 8100]
    (fun y => y.freed 8192 = [16384] ∧ y.heap.sysZoneArray 63 = 8192) (by decide +kernel)
  obtain ⟨hfreed, harray⟩ := of_decide_eq_true hp
  have hzone : IsZone y.heap y.live 8192 := by
    refine .array 63 ?_
    rw [harray]
    exact .head (by decide)
  exact ⟨y, hy, hfreed, hzone, (zone_accounting hy).1 8192 hzone⟩

/-- After the release of a zone the next new zone is set up 56 bytes below a free zone. The chunk
    that it hands out lies in the header of the zone in which `sk_free` will look for it. -/
theorem zone_accounting_fails :
    ∃ y, ledgerSystem.Reach (fun y e => y.toSlabSys.MallocsFit e) y ∧
      ⟨40968, 10⟩ ∈ y.live ∧ IsZone y.heap y.live 40960 ∧
      ¬ZoneAccount y.heap y.live (y.freed 40960)
        (OnList (fun a => y.heap.get64 (a + zNext)) y.heap.sysZoneFree 40960) 40960 := by
  have hinit : ledgerSystem.init ⟨⟨smallHeap 49, []⟩, fun _ => []⟩ :=
    ⟨init_smallHeap 49 (by decide +kernel), rfl⟩
  obtain ⟨y, hy, hp⟩ := TransitionSystem.Reach.exists_of_run
    (.init hinit : ledgerSystem.Reach (fun y e => y.toSlabSys.MallocsFit e) _)
    (twoAside ++ [.free 114688, .free 122880, .free 131072, .malloc 10])
    (fun y => (⟨40968, 10⟩ : Block) ∈ y.live ∧ zoneOf y.heap 40968 = 40960 ∧
      y.heap.usageType (y.heap.btokup (40968 - 40968 % pageSize)) ≠ pageTypeLarge)
    (by decide +kernel)
  obtain ⟨hlive, hzone, htype⟩ := of_decide_eq_true hp
  refine ⟨y, hy, hlive, ?_, ?_⟩
  · rw [← hzone]
    exact .chunk hlive htype
  · intro haccount
    exact absurd (haccount.inside _ hlive htype hzone).1 (by decide)
end SKernel.Spec
