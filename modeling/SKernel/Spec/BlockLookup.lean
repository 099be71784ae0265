import SKernel.Spec.SlabCorrect

/-!
# Finding a block by its address

`sk_free` gets nothing but a pointer, and asks the usage entry of its page what it points to. The
entries are written when pages are taken from the list of free pages: the first one of a large
block, and all of a zone. They are not cleared when a large block is freed.

Here the heap comes with a record of where each block was taken from, which `sk_malloc` makes when
it returns the block. Since no zone is released, the zones stay where they are, and the entries of
the pages of live blocks agree with the record.

The runs are those of `SlabSys.Keeps`: all calls that release no zone when `fit` is `False`, and
with writes into live blocks, but without requests that do not fit their zones, when it is `True`.
-/

namespace SKernel.Spec

open Native ByteMem Chain Function List Option

/-! ## The record -/

/-- Where a block was taken from: `n` pages of its own, or the zone at `z`. -/
inductive Origin where
  | pages (n : Nat)
  | zone (z : Nat)
  deriving DecidableEq

/-- Where `sk_malloc(size)` takes a block from: the first zone of its class, or a new zone. -/
def mallocOrigin (fuel : Nat) (h : Heap) (size : Nat) : Origin :=
  if h.sysZoneLimit ≤ size then .pages (numBlockPages size)
  else
    match zoneIndex size with
    | none => .zone 0
    | some (index, _) =>
      if h.sysZoneArray index ≠ 0 then .zone (h.sysZoneArray index)
      else .zone (((newZone fuel h).map Prod.fst).getD 0)

/-- The heap with a record of the origins of the blocks, by their addresses. -/
structure OriginSys extends SlabSys where
  origin : Nat → Origin

namespace OriginSys

/-- The effect of an operation. -/
def exec (y : OriginSys) : SlabOp → Option OriginSys
  | .malloc size => (skMalloc y.fuel y.heap size).map fun r =>
      { heap := r.2
        live := if r.1 = 0 then y.live else ⟨r.1, size⟩ :: y.live
        origin := if r.1 = 0 then y.origin
          else update y.origin r.1 (mallocOrigin y.fuel y.heap size) }
  | .free p => (skFree y.fuel y.heap p).map fun h =>
      { y with heap := h, live := SlabInv.without y.live p }
  | .write a v => some { y with heap := { y.heap with mem := update y.heap.mem a v } }

end OriginSys

/-- The heap with the record as a transition system. -/
def originSystem : TransitionSystem OriginSys SlabOp where
  init := fun y => slabSystem.init y.toSlabSys
  step := fun y e => if y.Called e then y.exec e else none

/-- The usage entry of the page of `p` tells the origin of a block. -/
def Identifies (h : Heap) (p : Nat) : Origin → Prop
  | .pages n => h.usageType (h.btokup (p - p % pageSize)) = pageTypeLarge ∧
      h.usageSize (h.btokup (p - p % pageSize)) = n
  | .zone z => h.usageType (h.btokup (p - p % pageSize)) = pageTypeSmall ∧ zoneOf h p = z

/-! ## The zones stay -/

variable {fit : Prop} {G : Geometry} {L L' : Layout G.zoneSize} {h : Heap}
  {live live' : List Block} {b : Block} {origin : Nat → Origin} {z p size : Nat}

private theorem Layout.Becomes.stays {z0 : Nat} {w : Zone G.zoneSize} (hbecomes : L.Becomes L' z0 w)
    (hz : L.use z = .zone z) : L'.use z = .zone z := by
  by_cases hne : z = z0
  · rw [hne]
    exact hbecomes.self
  · exact (hbecomes.other.use z hne).mpr hz

/-- `sk_malloc` takes no pages of a zone away. -/
theorem SlabInv.MallocEffect.stays {h' : Heap} {fuel : Nat}
    (heffect : MallocEffect fit G L L' fuel h h' size p) (hz : L.use z = .zone z) :
    L'.use z = .zone z := by
  cases heffect with
  | refused _ _ hlayout =>
    rw [hlayout]
    exact hz
  | large _ _ _ hsame => exact (hsame.use z).mpr hz
  | take _ _ _ _ _ _ _ _ _ _ _ _ _ hbecomes => exact hbecomes.stays hz
  | create _ _ _ _ _ _ _ _ _ _ hbecomes => exact hbecomes.stays hz

/-- Nor does `sk_free`, when no zone is released. -/
theorem SlabInv.FreeEffect.stays (heffect : FreeEffect G L L' h p) (hz : L.use z = .zone z) :
    L'.use z = .zone z := by
  cases heffect with
  | large hsame => exact (hsame.use z).mpr hz
  | give _ _ _ _ _ _ _ hbecomes => exact hbecomes.stays hz

/-! ## The record agrees with the layout -/

/-- A large block comes from the pages its size needs, a small one from the zone it lies in. -/
def Traced (G : Geometry) (L : Layout G.zoneSize) (live : List Block) (origin : Nat → Origin) :
    Prop :=
  ∀ b ∈ live, G.limit ≤ b.size ∧ origin b.ptr = .pages (numBlockPages b.size) ∨
    b.size < G.limit ∧ ∃ z, origin b.ptr = .zone (G.addr z) ∧ L.use z = .zone z ∧
      G.addr z ≤ b.ptr ∧ b.ptr < G.addr z + G.zoneSize

namespace Traced

theorem mono (htraced : Traced G L live origin)
    (hstays : ∀ z, L.use z = .zone z → L'.use z = .zone z) (hsub : ∀ b ∈ live', b ∈ live) :
    Traced G L' live' origin := by
  intro b hb
  cases htraced b (hsub b hb) with
  | inl hlarge => exact .inl hlarge
  | inr hsmall =>
    obtain ⟨hsize, z, horigin, hz, hin⟩ := hsmall
    exact .inr ⟨hsize, z, horigin, hstays z hz, hin⟩

theorem add {o : Origin} (htraced : Traced G L live origin) (hfresh : p ∉ live.map Block.ptr)
    (hnew : Traced G L [⟨p, size⟩] fun _ => o) :
    Traced G L (⟨p, size⟩ :: live) (update origin p o) := by
  intro b hb
  cases mem_cons.mp hb with
  | inl heq =>
    subst heq
    rw [update_self]
    exact hnew _ mem_cons_self
  | inr hb =>
    have hne : b.ptr ≠ p := by
      intro heq
      rw [← heq] at hfresh
      exact hfresh (List.mem_map_of_mem hb)
    rw [update_of_ne hne]
    exact htraced b hb

private theorem of_malloc {h' : Heap} {fuel : Nat} (hlimit : h.sysZoneLimit = G.limit) (hp : p ≠ 0)
    (heffect : SlabInv.MallocEffect fit G L L' fuel h h' size p) :
    Traced G L' [⟨p, size⟩] fun _ => mallocOrigin fuel h size := by
  intro b hb
  obtain rfl := mem_singleton.mp hb
  unfold mallocOrigin
  rw [hlimit]
  cases heffect with
  | refused hnull => exact absurd hnull hp
  | large i hsize =>
    rw [if_pos hsize]
    exact .inl ⟨hsize, rfl⟩
  | take index chunk z j w hsize hclass hz hhead _ htakes _ hptr hbecomes =>
    have hused := (htakes.used j).mpr (.inr rfl)
    have hin := w.chunkAddr_bounds (G.addr z) (Zone.lt_nmax hused.1)
    rw [if_neg (by omega), hclass]
    dsimp only
    rw [hhead, if_pos (G.addr_ne_zero z)]
    exact .inr ⟨hsize.2, z, rfl, hbecomes.self, by omega, by omega⟩
  | create index z w hsize hclass hhead hnew _ _ hptr hbecomes =>
    have hin := w.chunkAddr_bounds (G.addr z) (show 0 < w.nmax by have := w.nmax_ge; omega)
    rw [if_neg (by omega), hclass]
    dsimp only
    rw [if_neg (by simpa using hhead), hnew]
    exact .inr ⟨hsize.2, z, rfl, hbecomes.self, by omega, by omega⟩

private theorem identifies (htraced : Traced G L live origin) (hslab : SlabInv fit G L h live)
    (hb : b ∈ live) : Identifies h b.ptr (origin b.ptr) := by
  have hfrom := htraced b hb
  cases hslab.placed b hb with
  | large i n hn hptr hsize huse hentry =>
    have horigin : origin b.ptr = .pages n := by
      cases hfrom with
      | inl hlarge => rw [hlarge.2, hsize.2.2]
      | inr hsmall => omega
    rw [horigin, hptr]
    exact ⟨hslab.usageType_large hn huse hentry, hslab.usageSize_large hn huse hentry⟩
  | small z j hz hused hptr hsize =>
    cases hfrom with
    | inl hlarge => omega
    | inr hsmall =>
      obtain ⟨-, y, horigin, hy, hle, hlt⟩ := hsmall
      -- the block lies in its zone, and in the zone of the record
      have howner := (hslab.chunk_start hz (Zone.lt_nmax hused.1) hptr).2
      rw [(hslab.zone_owner hy hle hlt).2] at howner
      cases howner
      rw [horigin]
      refine ⟨hslab.usageType_chunk hz hused.1 hptr.symm, ?_⟩
      rw [hptr]
      exact hslab.zoneOf_chunk hz hused.1

end Traced

/-! ## Runs -/

namespace OriginSys

variable {y y' : OriginSys}

/-- The heap has a layout, and the record agrees with it, or there is no page to give. -/
def Inv (fit : Prop) (y : OriginSys) : Prop :=
  (∃ (G : Geometry) (L : Layout G.zoneSize), SlabInv fit G L y.heap y.live ∧
    Traced G L y.live y.origin) ∨ DeadHeap y.heap ∧ y.live = []

theorem Inv.init (hinit : originSystem.init y) : y.Inv fit := by
  obtain ⟨hlive, fuel, h0, beginAddr, endAddr, hcold, hrun⟩ := hinit
  cases skSystemMemInit_cases hcold hrun with
  | inl hlayout =>
    obtain ⟨G, a, n, hslab⟩ := hlayout
    refine .inl ⟨G, _, hlive ▸ hslab, ?_⟩
    rw [hlive]
    exact fun b hb => absurd hb not_mem_nil
  | inr hdead => exact .inr ⟨hdead.1, hlive⟩

/-- The record makes no difference to the call. -/
theorem exec_toSlabSys {e : SlabOp} (hexec : y.exec e = some y') :
    y.toSlabSys.exec e = some y'.toSlabSys := by
  cases e with
  | malloc size =>
    obtain ⟨r, hrun, rfl⟩ := map_eq_some_iff.mp hexec
    exact map_eq_some_iff.mpr ⟨r, hrun, rfl⟩
  | free p =>
    obtain ⟨h', hrun, rfl⟩ := map_eq_some_iff.mp hexec
    exact map_eq_some_iff.mpr ⟨h', hrun, rfl⟩
  | write a v =>
    cases hexec
    rfl

theorem Inv.step (hinv : y.Inv fit) {e : SlabOp} (hkeeps : y.toSlabSys.Keeps fit e)
    (hstep : originSystem.step y e = some y') : y'.Inv fit := by
  obtain ⟨hcalled, hexec⟩ := ite_none_right_eq_some.mp hstep
  cases hinv with
  | inl hlayout =>
    obtain ⟨G, L, hslab, htraced⟩ := hlayout
    have hfuel : G.npages < y.fuel := hslab.npages_lt_fuel
    cases e with
    | malloc size =>
      obtain ⟨p, h', L', hrun, hslab', heffect⟩ := hslab.malloc_returns hfuel hcalled hkeeps
      dsimp only [exec] at hexec
      rw [hrun] at hexec
      cases hexec
      refine .inl ⟨G, L', hslab', ?_⟩
      -- no zone is released, so the origins of the old blocks stay right
      have hstays : Traced G L' y.live y.origin :=
        htraced.mono (fun z hz => heffect.stays hz) fun _ hb => hb
      dsimp only
      by_cases hp : p = 0
      · rw [if_pos hp, if_pos hp]
        exact hstays
      · rw [if_neg hp] at hslab'
        rw [if_neg hp, if_neg hp]
        exact hstays.add (nodup_cons.mp hslab'.nodup).1
          (.of_malloc hslab.fits.limit hp heffect)
    | free p =>
      obtain ⟨b, hb, rfl⟩ := hcalled
      obtain ⟨h', L', hrun, hslab', heffect⟩ := hslab.free_returns hfuel hb hkeeps
      dsimp only [exec] at hexec
      rw [hrun] at hexec
      cases hexec
      exact .inl ⟨G, L', hslab', htraced.mono (fun z hz => heffect.stays hz)
        fun _ hc => (SlabInv.mem_without.mp hc).1⟩
    | write a v =>
      obtain ⟨b, hb, hle, hlt⟩ := hcalled
      obtain ⟨L', hslab', hsame⟩ := hslab.write hkeeps hb hle hlt v
      cases hexec
      exact .inl ⟨G, L', hslab', htraced.mono (fun z hz => (hsame.use z).mpr hz) fun _ hc => hc⟩
  | inr hdead =>
    have hsame := exec_toSlabSys hexec
    rw [hdead.1.exec hdead.2 hcalled, some_inj] at hsame
    right
    rw [← hsame]
    exact hdead

end OriginSys

/-- **Finding a block by its address.** In every state that is reached without a release, the usage
    entry of the page of a live block tells where `sk_malloc` has taken the block from: the exact
    number of its pages, or the address of its zone. -/
theorem block_lookup {y : OriginSys}
    (h : originSystem.Reach (fun y e => y.toSlabSys.Keeps fit e) y) (hb : b ∈ y.live) :
    Identifies y.heap b.ptr (y.origin b.ptr) := by
  have hinv : y.Inv fit := h.invariant (I := OriginSys.Inv fit) (fun _ hinit => .init hinit)
    (fun _ _ _ hinv hkeeps hstep => hinv.step hkeeps hstep)
  cases hinv with
  | inl hlayout =>
    obtain ⟨G, L, hslab, htraced⟩ := hlayout
    exact htraced.identifies hslab hb
  | inr hdead =>
    rw [hdead.2] at hb
    cases hb

/-- A large block is freed, a zone is set up on its pages, and a large block behind it. -/
theorem block_lookup_reused :
    ∃ y, originSystem.Reach (fun y e => y.toSlabSys.Keeps False e) y ∧
      y.live = [⟨40960, 8192⟩, ⟨9272, 1024⟩, ⟨8248, 1025⟩] ∧
      y.origin 40960 = .pages 2 ∧ Identifies y.heap 40960 (y.origin 40960) ∧
      y.origin 9272 = .zone 8192 ∧ Identifies y.heap 9272 (y.origin 9272) := by
  obtain ⟨y, hy, hp⟩ := TransitionSystem.Reach.exists_of_run
    (.init (init_smallHeap 12 (by decide +kernel)) :
      originSystem.Reach (fun y e => y.toSlabSys.Keeps False e)
        ⟨⟨smallHeap 12, []⟩, fun _ => .pages 0⟩)
    [.malloc 20000, .free 8192, .malloc 1025, .malloc 1024, .malloc 8192]
    (fun y => y.live = [⟨40960, 8192⟩, ⟨9272, 1024⟩, ⟨8248, 1025⟩] ∧
      y.origin 40960 = .pages 2 ∧ y.origin 9272 = .zone 8192) (by decide +kernel)
  obtain ⟨hlive, hlarge, hsmall⟩ := of_decide_eq_true hp
  refine ⟨y, hy, hlive, hlarge, ?_, hsmall, ?_⟩
  · exact block_lookup hy (show ⟨40960, 8192⟩ ∈ y.live by simp [hlive])
  · exact block_lookup hy (show ⟨9272, 1024⟩ ∈ y.live by simp [hlive])

end SKernel.Spec
