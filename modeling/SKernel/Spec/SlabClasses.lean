import SKernel.Spec.SlabCorrect

/-!
# The chunk size of a class

`zone_index` gives a request the index of a zone array, its class, and a rounded size. The size
that `sk_malloc` uses as a stride in a zone is the one of the request, so all requests of one class
have to be rounded to the same size.

They are, except for the requests from 1024 to 2047 bytes. These are rounded with
`SK_ALIGN(n, 127)`, which keeps the lowest bit: an odd request is rounded to one byte more than the
even requests of its class (`zoneIndex_class`).
-/

namespace SKernel.Spec

open Native ByteMem Chain

/-! ## Zones of a class -/

/-- The zones of a class have the size of the class. -/
def ZonesOfClass (G : Geometry) (L : Layout G.zoneSize) : Prop :=
  ∀ z, L.use z = .zone z → (L.zone z).chunk = classSize (L.zone z).index

namespace ZonesOfClass

variable {G : Geometry} {L L' : Layout G.zoneSize} {h : Heap} {live : List Block}

theorem fresh (G : Geometry) (a n : Nat) : ZonesOfClass G (freshLayout G a n) := by
  intro z hz
  exact absurd hz (freshLayout_not_zone z z)

theorem same (hzones : ZonesOfClass G L) (hsame : L.SameZones L') : ZonesOfClass G L' := by
  intro z hz
  rw [hsame.zone]
  exact hzones z ((hsame.use z).mp hz)

theorem becomes (hzones : ZonesOfClass G L) {z0 : Nat} {w : Zone G.zoneSize}
    (hbecomes : L.Becomes L' z0 w) (hw : w.chunk = classSize w.index) : ZonesOfClass G L' := by
  intro z hz
  by_cases hne : z = z0
  · rw [hne, hbecomes.zone]
    exact hw
  · rw [hbecomes.other.zone z hne]
    exact hzones z ((hbecomes.other.use z hne).mp hz)

theorem step (hzones : ZonesOfClass G L) (hslab : SlabInv True G L h live) {e : SlabOp}
    (hodd : ∀ size, e = .malloc size → ¬OddClass size) (heffect : SlabEffect True G L L' h e) :
    ZonesOfClass G L' := by
  cases heffect with
  | malloc heffect =>
    cases heffect with
    | refused _ _ hlayout _ =>
      rw [hlayout]
      exact hzones
    | large _ _ _ hsame _ _ => exact hzones.same hsame
    | take index chunk z j w _ _ hz _ _ htakes _ _ hbecomes _ =>
      refine hzones.becomes hbecomes ?_
      rw [htakes.chunk, htakes.index]
      exact hzones z ((hslab.array_mem index z).mp hz).1
    | create index z w hsize hclass _ _ hindex _ _ hbecomes _ =>
      have hlimit := limit_cases G
      obtain ⟨i, hi⟩ := zoneIndex_class hsize.1 (by omega)
      rw [if_neg (hodd _ rfl), hclass, Option.some_inj, Prod.mk.injEq] at hi
      refine hzones.becomes hbecomes ?_
      rw [hindex, hi.1]
      exact hi.2
  | free heffect =>
    cases heffect with
    | large hsame _ => exact hzones.same hsame
    | give z j hused hz _ _ _ hbecomes _ => exact hzones.becomes hbecomes (hzones z hz)
  | write hsame => exact hzones.same hsame

end ZonesOfClass

/-! ## Runs -/

/-- Without odd requests in the range that `SK_ALIGN(n, 127)` rounds, and without a release. -/
def SlabSys.EvenClasses (x : SlabSys) : SlabOp → Prop
  | .malloc size => ¬OddClass size
  | .free p => SlabInv.FreeSound x.heap p
  | .write _ _ => True

instance (x : SlabSys) : (e : SlabOp) → Decidable (x.EvenClasses e)
  | .malloc size => inferInstanceAs (Decidable (¬OddClass size))
  | .free p => inferInstanceAs (Decidable (SlabInv.FreeSound x.heap p))
  | .write _ _ => inferInstanceAs (Decidable True)

/-- Such requests fit the zones that are there. -/
theorem ZonesOfClass.sound {G : Geometry} {L : Layout G.zoneSize} {x : SlabSys} {e : SlabOp}
    (hzones : ZonesOfClass G L) (hslab : SlabInv True G L x.heap x.live) (heven : x.EvenClasses e) :
    x.Sound e := by
  cases e with
  | malloc size =>
    intro hpos hlt r hr hhead
    have hlimit := limit_cases G
    rw [hslab.fits.limit] at hlt
    obtain ⟨index, hindex⟩ := zoneIndex_class hpos (by omega)
    rw [if_neg heven, Nat.add_zero] at hindex
    rw [Option.mem_def, hindex] at hr
    cases hr
    -- the first zone of the class
    have hlist := hslab.array index
    cases harr : L.array index with
    | nil =>
      rw [harr] at hlist
      exact absurd hlist hhead
    | cons z rest =>
      rw [harr] at hlist
      obtain ⟨hz, hzindex, -⟩ := (hslab.array_mem index z).mp
        (by rw [harr]; exact List.mem_cons_self)
      show load x.heap.mem 4 (x.heap.sysZoneArray index + zChunksize) = classSize index
      rw [hlist.1, (hslab.zones z hz).chunksize, hzones z hz, hzindex]
  | free p => exact heven
  | write a v => trivial

/-- **One chunk size per class.** Without odd requests from 1025 to 2047 bytes, and without
    releases: every request below the zone limit is rounded up, and the zones on the list of its
    class have the rounded size as their chunk size, unless the request is such an odd one. -/
theorem slab_one_chunk_size {x : SlabSys} (h : slabSystem.Reach SlabSys.EvenClasses x) {s : Nat}
    (hpos : 0 < s) (hlt : s < x.heap.sysZoneLimit) :
    ∃ index size, zoneIndex s = some (index, size) ∧ s ≤ size ∧
      ∀ z, OnList (fun a => x.heap.get64 (a + zNext)) (x.heap.sysZoneArray index) z →
        (x.heap.get32 (z + zChunksize) = size ↔ ¬OddClass s) := by
  have hlayout := layout_of_reach (P := ZonesOfClass) ZonesOfClass.fresh
    (fun G L x e hslab hzones heven => (hzones.sound hslab heven).keeps)
    (fun G L L' x e hslab hzones heven heffect => hzones.step hslab
      (fun size he => by rw [he] at heven; exact heven) heffect) h
  have hlimit : x.heap.sysZoneLimit = 8192 ∨ x.heap.sysZoneLimit = 16384 := by
    cases hlayout with
    | inl hslab =>
      obtain ⟨G, L, hslab, -⟩ := hslab
      rw [hslab.fits.limit]
      exact limit_cases G
    | inr hdead => exact hdead.1.limit
  obtain ⟨index, hindex⟩ := zoneIndex_class hpos (by omega)
  obtain ⟨i, size, hround, -, hge, -⟩ := zoneIndex_bounds hlimit hpos hlt
  rw [hindex, Option.some_inj, Prod.mk.injEq] at hround
  rw [← hround.2] at hge
  refine ⟨index, _, hindex, hge, ?_⟩
  intro z hz
  cases hlayout with
  | inl hslab =>
    obtain ⟨G, L, hslab, hzones⟩ := hslab
    obtain ⟨y, hy, rfl⟩ := List.mem_map.mp ((Linked.onList_iff (hslab.array index)).mp hz)
    obtain ⟨huse, hyindex, -⟩ := (hslab.array_mem index y).mp hy
    have hchunk : x.heap.get32 (G.addr y + zChunksize) = classSize index := by
      rw [← hyindex, ← hzones y huse]
      exact (hslab.zones y huse).chunksize
    rw [hchunk]
    by_cases hodd : OddClass s
    · rw [if_pos hodd]
      simp [hodd]
    · rw [if_neg hodd]
      simp [hodd]
  | inr hdead =>
    rw [hdead.1.array] at hz
    exact absurd hz not_onList_zero

/-- A zone made for 1030 bytes serves 1100 bytes as well. -/
theorem slab_one_chunk_size_small : ∃ x, slabSystem.Reach SlabSys.EvenClasses x ∧
    x.heap.sysZoneArray 40 = 8192 ∧ ∃ index size, zoneIndex 1100 = some (index, size) ∧
      1100 ≤ size ∧ ∀ z, OnList (fun a => x.heap.get64 (a + zNext)) (x.heap.sysZoneArray index) z →
        (x.heap.get32 (z + zChunksize) = size ↔ ¬OddClass 1100) := by
  obtain ⟨x, hx, hp⟩ := (reach_smallHeap 12 (by decide +kernel) SlabSys.EvenClasses).exists_of_run
    [.malloc 1030] (fun x => x.heap.sysZoneArray 40 = 8192 ∧ 1100 < x.heap.sysZoneLimit)
    (by decide +kernel)
  obtain ⟨harray, hlimit⟩ := of_decide_eq_true hp
  exact ⟨x, hx, harray, slab_one_chunk_size hx (by decide) hlimit⟩

/-- A zone made for 1025 bytes has chunks of 1025 bytes, and is found for a request of 1024 bytes,
    which is rounded to 1024. -/
theorem slab_one_chunk_size_fails : ∃ x, slabSystem.Reach (fun _ _ => True) x ∧
    zoneIndex 1024 = some (39, 1024) ∧ x.heap.sysZoneArray 39 ≠ 0 ∧
      x.heap.get32 (x.heap.sysZoneArray 39 + zChunksize) = 1025 := by
  obtain ⟨x, hx, hp⟩ := (reach_smallHeap 12 (by decide +kernel) (fun _ _ => True)).exists_of_run
    [.malloc 1025] (fun x => x.heap.sysZoneArray 39 ≠ 0 ∧
      x.heap.get32 (x.heap.sysZoneArray 39 + zChunksize) = 1025) (by decide +kernel)
  exact ⟨x, hx, by decide +kernel, of_decide_eq_true hp⟩

end SKernel.Spec
