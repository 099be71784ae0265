import SKernel.Native.ThreadStack
import SKernel.Spec.SlabCorrect

/-!
# The initial frame of a thread and its stack

`__thread_stack_init` stores 34 words below the last word of the stack, so that the frame lies in
the stack exactly when the stack has at least 280 bytes. Nothing checks the size, and the stack of
the idle thread has 128 bytes: its frame covers the header of the slab zone that the stack comes
from.
-/

namespace SKernel.Spec

open Native ByteMem List Option

/-! ## The stores -/

private theorem stackDown_eq {stk : Nat} (hstk : ubaseSize ≤ stk) (hlt : stk < 2 ^ 64) :
    stackDown stk = stk - ubaseSize := by
  simp only [stackDown, ubaseSize] at *
  omega

theorem stackAfter_cons (stk v : Nat) (vs : List Nat) :
    stackAfter stk (v :: vs) = stackAfter (stackDown stk) vs := by
  simp only [stackAfter, foldl_cons]

private theorem stackAfter_eq (vs : List Nat) : ∀ stk < 2 ^ 64,
    stackAfter stk vs = (stk + vs.length * (2 ^ 64 - ubaseSize)) % 2 ^ 64 := by
  induction vs with
  | nil =>
    intro stk hlt
    simp only [stackAfter, foldl_nil, length_nil, Nat.zero_mul, Nat.add_zero]
    exact (Nat.mod_eq_of_lt hlt).symm
  | cons v vs ih =>
    intro stk _
    have hlt : stackDown stk < 2 ^ 64 := Nat.mod_lt _ (by decide)
    rw [stackAfter_cons, ih _ hlt, stackDown, Nat.mod_add_mod, length_cons, Nat.succ_mul]
    congr 1
    omega

private theorem pushWords_range (vs : List Nat) : ∀ stk < 2 ^ 64, ubaseSize * vs.length ≤ stk →
    ∀ w ∈ pushWords stk vs,
      stk - ubaseSize * vs.length ≤ w.1 ∧ w.1 + ubaseSize ≤ stk := by
  induction vs with
  | nil =>
    intro stk _ _ w hw
    cases hw
  | cons v vs ih =>
    intro stk hlt hroom w hw
    simp only [length_cons, Nat.mul_succ] at hroom ⊢
    rw [pushWords, stackDown_eq (by omega) hlt] at hw
    rcases mem_cons.mp hw with rfl | hw
    · dsimp only
      omega
    · have hrest := ih (stk - ubaseSize) (by omega) (by omega) w hw
      omega

private theorem storeWords_outside {mem : Mem} {a : Nat} {stores : List (Nat × Nat)}
    (h : ∀ w ∈ stores, a < w.1 ∨ w.1 + ubaseSize ≤ a) : storeWords mem stores a = mem a := by
  induction stores generalizing mem with
  | nil => rfl
  | cons w stores ih =>
    show storeWords (store mem ubaseSize w.1 w.2) stores a = mem a
    rw [ih fun w' hw' => h w' (mem_cons_of_mem _ hw'),
      store_outside (h w mem_cons_self)]

/-! ## The frame -/

/-- The words of the frame, and the stack pointer, are in the stack. -/
structure FrameInside (t : NewThread) (stackSize : Nat) : Prop where
  stores : ∀ w ∈ t.stores, t.stackAddr ≤ w.1 ∧ w.1 + ubaseSize ≤ t.stackAddr + stackSize
  sp_ge : t.stackAddr ≤ t.sp
  sp_lt : t.sp < t.stackAddr + stackSize

private theorem threadCreateHeap_some {fuel entry param stackSize exit : Nat} {h h' : Heap}
    {t : NewThread}
    (hcreate : threadCreateHeap fuel h entry param stackSize exit = some (some t, h')) :
    ∃ h1 h2, skMalloc fuel h (objSize .thread) = some (t.thread, h1) ∧
      skMalloc fuel h1 stackSize = some (t.stackAddr, h2) ∧ t.stackAddr ≠ 0 ∧
      (t.stores, t.sp) = threadStackInit entry param
        ((t.stackAddr + stackSize + (2 ^ 64 - ubaseSize)) % 2 ^ 64) exit ∧
      h' = { h2 with mem := storeWords h2.mem t.stores } := by
  obtain ⟨⟨thread, h1⟩, hthread, hrest⟩ := bind_eq_some_iff.mp hcreate
  dsimp only at hrest
  split at hrest
  · cases hrest
  obtain ⟨⟨stackStart, h2⟩, hstack, hrest⟩ := bind_eq_some_iff.mp hrest
  dsimp only at hrest
  split at hrest
  · obtain ⟨_, _, heq⟩ := map_eq_some_iff.mp hrest
    cases heq
  · rename_i hne
    cases hrest
    exact ⟨h1, h2, hthread, hstack, hne, rfl, rfl⟩

theorem skThreadCreate_heap {fuel n stackSize priority tick thread : Nat}
    {name : List (BitVec 8)} {st st' : ObjectState Heap}
    (hcreate : st.skThreadCreate (slabAllocator fuel) n name stackSize priority tick =
      some (thread, st')) (hne : thread ≠ 0) (entry param exit : Nat) :
    ∃ t, threadCreateHeap fuel st.heap entry param stackSize exit =
        some (some t, { st'.heap with mem := storeWords st'.heap.mem t.stores }) ∧
      t.thread = thread := by
  obtain ⟨⟨obj, st1⟩, halloc, hrest⟩ := bind_eq_some_iff.mp hcreate
  obtain ⟨⟨obj', objects, heap⟩, hskAlloc, heq⟩ := map_eq_some_iff.mp halloc
  obtain ⟨⟨p, h1⟩, hthread, hobj⟩ := map_eq_some_iff.mp hskAlloc
  dsimp only at hrest hobj
  by_cases hp : p = 0
  · -- no memory for the thread
    rw [if_pos hp] at hobj
    cases hobj
    cases heq
    cases hrest
    exact absurd rfl hne
  rw [if_neg hp] at hobj
  cases hobj
  cases heq
  rw [if_neg hp] at hrest
  obtain ⟨⟨stackStart, st2⟩, hmalloc, hrest⟩ := bind_eq_some_iff.mp hrest
  obtain ⟨⟨q, h2⟩, hstack, heq⟩ := map_eq_some_iff.mp hmalloc
  cases heq
  dsimp only at hrest
  by_cases hq : stackStart = 0
  · -- no memory for the stack
    rw [if_pos hq] at hrest
    obtain ⟨_, _, heq⟩ := map_eq_some_iff.mp hrest
    cases heq
    exact absurd rfl hne
  rw [if_neg hq] at hrest
  obtain ⟨st3, hinit, heq⟩ := map_eq_some_iff.mp hrest
  obtain ⟨objects', _, rfl⟩ := map_eq_some_iff.mp hinit
  cases heq
  have hthread' : skMalloc fuel st.heap (objSize .thread) = _ := hthread
  have hstack' : skMalloc fuel _ stackSize = _ := hstack
  simp only [threadCreateHeap, hthread', bind_some, if_neg hp, hstack', if_neg hq]
  exact ⟨_, rfl, rfl⟩

/-- Blocks are in the address space without the defects. -/
theorem block_in_space {x : SlabSys} (hx : slabSystem.Reach SlabSys.Sound x) {b : Block}
    (hb : b ∈ x.live) : b.ptr + b.size ≤ 2 ^ 64 := by
  cases SlabSys.Inv.of_reach hx with
  | inl hlayout =>
    obtain ⟨G, L, hslab⟩ := hlayout
    exact (hslab.block_inside hb).2.trans G.area.lt.le
  | inr hdead =>
    rw [hdead.2] at hb
    exact absurd hb not_mem_nil

theorem length_initialFrame (entry param exit : Nat) :
    (initialFrame entry param exit).length = 34 := by
  simp only [initialFrame, length_cons, length_nil]

private theorem stackAfter_initialFrame {entry param exit stackAddr stackSize : Nat} :
    stackAfter ((stackAddr + stackSize + (2 ^ 64 - ubaseSize)) % 2 ^ 64)
        (initialFrame entry param exit) =
      (stackAddr + stackSize + (2 ^ 64 - 280)) % 2 ^ 64 := by
  rw [stackAfter_eq _ _ (Nat.mod_lt _ (by decide)), length_initialFrame, ubaseSize]
  omega

/-- **The frame of a new thread lies in its stack exactly when the stack has at least 280 bytes,
    and then the bytes outside of the stack are those that the allocator left.** -/
theorem frame_inside_iff {fuel entry param stackSize exit : Nat} {h h' : Heap} {t : NewThread}
    (hcreate : threadCreateHeap fuel h entry param stackSize exit = some (some t, h'))
    (hspace : t.stackAddr + stackSize ≤ 2 ^ 64) :
    (FrameInside t stackSize ↔ 280 ≤ stackSize) ∧
      (280 ≤ stackSize → ∃ h1 h2, skMalloc fuel h (objSize .thread) = some (t.thread, h1) ∧
        skMalloc fuel h1 stackSize = some (t.stackAddr, h2) ∧
        ∀ a, a < t.stackAddr ∨ t.stackAddr + stackSize ≤ a → h'.mem a = h2.mem a) := by
  obtain ⟨h1, h2, hthread, hstack, hne, hframe, rfl⟩ := threadCreateHeap_some hcreate
  obtain ⟨hstores, hsp⟩ := Prod.mk.inj hframe
  rw [stackAfter_initialFrame] at hsp
  have hinside : 280 ≤ stackSize → FrameInside t stackSize := by
    intro hsize
    have htop : (t.stackAddr + stackSize + (2 ^ 64 - ubaseSize)) % 2 ^ 64 =
        t.stackAddr + stackSize - ubaseSize := by
      simp only [ubaseSize]
      omega
    rw [htop] at hstores
    refine ⟨?_, by omega, by omega⟩
    intro w hw
    rw [hstores] at hw
    have hrange := pushWords_range _ _ (by rw [ubaseSize]; omega)
      (by rw [length_initialFrame, ubaseSize]; omega) w hw
    rw [length_initialFrame, ubaseSize] at hrange
    rw [ubaseSize]
    omega
  refine ⟨⟨?_, hinside⟩, ?_⟩
  · intro hframe
    have hge := hframe.sp_ge
    have hlt := hframe.sp_lt
    omega
  · intro hsize
    refine ⟨h1, h2, hthread, hstack, ?_⟩
    intro a ha
    refine storeWords_outside ?_
    intro w hw
    have hw' := (hinside hsize).stores w hw
    omega

/-- A thread with the stack size of the shell, on a heap of 49 pages. -/
theorem frame_inside_iff_shell : ∃ t h',
    threadCreateHeap 51 (smallHeap 49) 0 0 4096 0 = some (some t, h') ∧
      t.stackAddr + 4096 ≤ 2 ^ 64 ∧ FrameInside t 4096 := by
  have hrun : (threadCreateHeap 51 (smallHeap 49) 0 0 4096 0).map
      (fun r => r.1.map NewThread.stackAddr) = some (some 45056) := by decide +kernel
  obtain ⟨⟨t, h'⟩, hcreate, hrest⟩ := map_eq_some_iff.mp hrun
  obtain ⟨t, rfl, haddr⟩ := map_eq_some_iff.mp hrest
  have hspace : t.stackAddr + 4096 ≤ 2 ^ 64 := by
    rw [haddr]
    decide
  exact ⟨t, h', hcreate, hspace, (frame_inside_iff hcreate hspace).1.mpr (by decide)⟩

/-- The idle thread on the same heap: the stack pointer is below the stack, and the frame has
    overwritten the header of the zone that the stack comes from. -/
theorem idle_frame_outside : ∃ t h',
    threadCreateHeap 51 (smallHeap 49) 0 0 idleThreadStackSize 0 = some (some t, h') ∧
      t.stackAddr + idleThreadStackSize ≤ 2 ^ 64 ∧ ¬FrameInside t idleThreadStackSize ∧
      h'.get32 (zoneOf h' t.stackAddr + zMagic) ≠ allocSlabMagic := by
  have hrun : (threadCreateHeap 51 (smallHeap 49) 0 0 idleThreadStackSize 0).map
      (fun r => r.1.map fun t =>
        (t.stackAddr, t.sp, r.2.get32 (zoneOf r.2 t.stackAddr + zMagic))) =
      some (some (41088, 40936, 0)) := by decide +kernel
  obtain ⟨⟨t, h'⟩, hcreate, hrest⟩ := map_eq_some_iff.mp hrun
  obtain ⟨t, rfl, heq⟩ := map_eq_some_iff.mp hrest
  simp only [Prod.mk.injEq] at heq
  obtain ⟨haddr, hsp, hmagic⟩ := heq
  refine ⟨t, h', hcreate, by rw [haddr]; decide, ?_, by rw [hmagic]; decide⟩
  intro hinside
  have hge := hinside.sp_ge
  rw [haddr, hsp] at hge
  exact absurd hge (by decide)

end SKernel.Spec
