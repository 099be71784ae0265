import SKernel.Native.ObjectState
import SKernel.Spec.MsgQueueSlots
import SKernel.Spec.SchedCorrect
import SKernel.Spec.SlabCorrect

/-!
# Creation of IPC objects

Semaphores, mutexes, events, mailboxes and message queues can be created on the heap, or
initialised in memory of the caller. Both ways set up the same fields. But the column `obj_size`
of `_object_container` is 0 for these objects, and `sk_malloc(0)` returns the null pointer, so
that no object is ever created. `sk_mailbox_create` and `sk_msg_queue_create` moreover give up
when they did get their pool, and go on with the null pointer when they did not.
-/

namespace SKernel.Spec

open Native ByteMem Option

/-! ## The live blocks -/

/-- `sk_malloc` and `sk_free`, with fuel for every list of the heap. -/
def slab : Allocator Heap where
  malloc h size := skMalloc (numPages h + 2) h size
  free h p := skFree (numPages h + 2) h p

/-- The heap, the live blocks of `sk_malloc`, and whether a pointer has been freed that is none of
    them. -/
structure Tracked where
  heap : Heap
  live : List Nat
  badFree : Bool

/-- The allocator, with a record of the live blocks. Freeing anything else is left open. -/
def tracked : Allocator Tracked where
  malloc m size := (slab.malloc m.heap size).map fun (p, h) =>
    (p, { m with heap := h, live := if p = 0 then m.live else p :: m.live })
  free m p :=
    if p ∈ m.live then
      (slab.free m.heap p).map fun h => { m with heap := h, live := m.live.erase p }
    else some { m with badFree := true }

/-- `sk_malloc(0)` returns the null pointer. -/
theorem tracked_malloc_zero (m : Tracked) : tracked.malloc m 0 = some (0, m) := rfl

/-! ## Creation and initialisation -/

/-- The kinds of IPC objects, with the arguments that describe an object. -/
inductive IpcArgs where
  | sem (value : BitVec 16) (flag : BitVec 8)
  | mutex (flag : BitVec 8)
  | event (flag : BitVec 8)
  | mailbox (size : Nat) (flag : BitVec 8)
  | msgQueue (msgSize maxMsgs : Nat) (flag : BitVec 8)

namespace IpcArgs

variable {σ : Type*}

/-- `sk_X_create`. -/
def create (A : Allocator σ) (st : ObjectState σ) (name : List (BitVec 8)) :
    IpcArgs → Option (Nat × ObjectState σ)
  | .sem value flag => st.skSemCreate A name value flag
  | .mutex _ => st.skMutexCreate A name
  | .event flag => st.skEventCreate A name flag
  | .mailbox size flag => st.skMailboxCreate A name size flag
  | .msgQueue msgSize maxMsgs flag => st.skMsgQueueCreate A name msgSize maxMsgs flag

/-- `sk_X_init` for the object `obj`, with a pool of the size that `sk_X_create` asks for. -/
def init (fuel : Nat) (st : ObjectState σ) (obj pool : Nat) (name : List (BitVec 8)) :
    IpcArgs → Option (ObjectState σ)
  | .sem value flag => st.skSemInit fuel obj name value flag
  | .mutex _ => st.skMutexInit fuel obj name
  | .event flag => st.skEventInit fuel obj name flag
  | .mailbox size flag => st.skMailboxInit fuel obj name pool size flag
  | .msgQueue msgSize maxMsgs flag =>
    some (st.skMsgQueueInit obj pool msgSize (ObjectState.msgPoolSize msgSize maxMsgs) flag)

/-- The size of the structure. -/
def objectSize : IpcArgs → Nat
  | .sem .. => 64
  | .mutex _ => 72
  | .event _ => 64
  | .mailbox .. => 88
  | .msgQueue .. => 112

/-- The size of the message pool. -/
def poolSize : IpcArgs → Nat
  | .sem .. | .mutex _ | .event _ => 0
  | .mailbox size _ => size % 2 ^ 16 * 8
  | .msgQueue msgSize maxMsgs _ => ObjectState.msgPoolSize msgSize maxMsgs

/-- The message pool of an object. -/
def pool (st : ObjectState σ) (obj : Nat) : IpcArgs → Nat
  | .sem .. | .mutex _ | .event _ => 0
  | .mailbox .. => (st.mailbox obj).msgPool
  | .msgQueue .. => (st.msgQueue obj).msgPool

/-- The wait lists of an object. -/
def lists (obj : Nat) : IpcArgs → List ListHead
  | .sem .. | .mutex _ | .event _ => [suspendThread obj]
  | .mailbox .. => [suspendThread obj, mailboxSenders obj]
  | .msgQueue .. => [suspendThread obj, msgQueueSenders obj]

/-- The structures of an object are equal. -/
def SameFields (obj : Nat) (st st' : ObjectState σ) : IpcArgs → Prop
  | .sem .. => st.sem obj = st'.sem obj
  | .mutex _ => st.mutex obj = st'.mutex obj
  | .event _ => st.event obj = st'.event obj
  | .mailbox .. => st.mailbox obj = st'.mailbox obj
  | .msgQueue .. => st.msgQueue obj = st'.msgQueue obj

/-- The object `obj` is in the same state: its flag, its structure, its wait lists, and the
    memory of its pool. -/
structure Same (args : IpcArgs) (obj : Nat) (st st' : ObjectState σ) : Prop where
  flag : (st.objects.obj obj).flag = (st'.objects.obj obj).flag
  fields : args.SameFields obj st st'
  lists : ∀ list ∈ args.lists obj,
    st.k.sched.links.next (.head list) = st'.k.sched.links.next (.head list) ∧
      st.k.sched.links.prev (.head list) = st'.k.sched.links.prev (.head list)
  pool : st.mem = st'.mem

end IpcArgs

/-! ## The two ways agree -/

namespace IpcArgs

variable {σ : Type*} {A : Allocator σ} {st st' st'' : ObjectState σ} {name : List (BitVec 8)}
variable {obj fuel : Nat} {args : IpcArgs}

theorem setFlag_flag (st : ObjectState σ) (obj : Nat) (flag : BitVec 8) :
    ((st.setFlag obj flag).objects.obj obj).flag = flag := by
  simp [ObjectState.setFlag]

variable {type : ObjectType}

theorem ipcCreate_cases {setUp : Nat → ObjectState σ → Option (Nat × ObjectState σ)}
    (h : st.ipcCreate A type name setUp = some (obj, st')) (hobj : obj ≠ 0) :
    ∃ obj1 objects heap,
      setUp obj1 { st with objects := objects, heap := heap } = some (obj, st') := by
  obtain ⟨r, halloc, hsetUp⟩ := bind_eq_some_iff.mp h
  obtain ⟨⟨obj1, objects, heap⟩, -, rfl⟩ := map_eq_some_iff.mp halloc
  dsimp only at hsetUp
  split at hsetUp
  · cases hsetUp
    exact absurd rfl hobj
  · exact ⟨obj1, objects, heap, hsetUp⟩

theorem objectInit_cases {f : ObjectState σ → ObjectState σ}
    (h : (st.objectInit fuel obj type name).map f = some st') :
    ∃ objects, st' = f { st with objects := objects } := by
  obtain ⟨st1, hinit, rfl⟩ := map_eq_some_iff.mp h
  obtain ⟨objects, -, rfl⟩ := map_eq_some_iff.mp hinit
  exact ⟨objects, rfl⟩

theorem poolCreate_cases {obj1 size : Nat} {setUp : Nat → ObjectState σ → ObjectState σ}
    (h : st.poolCreate A obj1 size setUp = some (obj, st')) (hobj : obj ≠ 0) :
    ∃ heap, obj1 = obj ∧ st' = setUp 0 { st with heap := heap } := by
  obtain ⟨r, hmalloc, hrest⟩ := bind_eq_some_iff.mp h
  obtain ⟨⟨msgPool, heap⟩, -, rfl⟩ := map_eq_some_iff.mp hmalloc
  dsimp only at hrest
  split at hrest
  · obtain ⟨st1, -, heq⟩ := map_eq_some_iff.mp hrest
    cases heq
    exact absurd rfl hobj
  · rename_i hnull
    rw [not_not.mp hnull] at hrest
    cases hrest
    exact ⟨heap, rfl, rfl⟩

theorem skMsgQueueInit_msgPoolSize (mem : Mem) (pool msgSize maxMsgs : Nat) (flag : BitVec 8) :
    skMsgQueueInit mem pool msgSize (ObjectState.msgPoolSize msgSize maxMsgs) flag =
      msgQueueFreeLoop
        { msgPool := pool
          msgSize := msgSize % 2 ^ 16
          maxMsgs := maxMsgs % 2 ^ 16
          entry := 0
          msgQueueHead := 0
          msgQueueTail := 0
          msgQueueFree := 0
          flag := flag } mem (maxMsgs % 2 ^ 16) := by
  have hmax : ObjectState.msgPoolSize msgSize maxMsgs / (msgSize % 2 ^ 16 + mqMessageSize) %
      2 ^ 16 = maxMsgs % 2 ^ 16 := by
    unfold ObjectState.msgPoolSize
    rw [Nat.mul_div_cancel_left _ (Nat.add_pos_right _ (by decide)), Nat.mod_mod]
  simp only [skMsgQueueInit, hmax]

/-- Creating is initialising at the address, whatever the allocator returns. -/
theorem create_same (hcreate : args.create A st name = some (obj, st')) (hobj : obj ≠ 0)
    (hinit : args.init fuel st obj (args.pool st' obj) name = some st'') :
    args.Same obj st' st'' := by
  cases args with
  | sem value flag | mutex flag | event flag =>
    simp only [create, ObjectState.skSemCreate, ObjectState.skMutexCreate,
      ObjectState.skEventCreate] at hcreate
    obtain ⟨obj1, objects, heap, hsetUp⟩ := ipcCreate_cases hcreate hobj
    obtain ⟨objects', rfl⟩ := objectInit_cases hinit
    cases hsetUp
    exact ⟨(setFlag_flag ..).trans (setFlag_flag ..).symm, rfl, fun _ _ => ⟨rfl, rfl⟩, rfl⟩
  | mailbox =>
    simp only [create, ObjectState.skMailboxCreate] at hcreate
    obtain ⟨obj1, objects, heap, hsetUp⟩ := ipcCreate_cases hcreate hobj
    obtain ⟨objects', rfl⟩ := objectInit_cases hinit
    obtain ⟨heap', rfl, rfl⟩ := poolCreate_cases hsetUp hobj
    refine ⟨(setFlag_flag ..).trans (setFlag_flag ..).symm, ?_, fun _ _ => ⟨rfl, rfl⟩, rfl⟩
    simp [SameFields, pool, ObjectState.setUpMailbox, ObjectState.listInit, Native.skMailboxInit]
  | msgQueue =>
    simp only [create, ObjectState.skMsgQueueCreate] at hcreate
    obtain ⟨obj1, objects, heap, hsetUp⟩ := ipcCreate_cases hcreate hobj
    obtain ⟨heap', rfl, rfl⟩ := poolCreate_cases hsetUp hobj
    -- the loop does not change the pool, which is the null pointer
    have hpool : ∀ mq mem n, (msgQueueFreeLoop mq mem n).1.msgPool = mq.msgPool := by
      intro mq mem n
      obtain ⟨free, heq⟩ := msgQueueFreeLoop_mq mq mem n
      rw [heq]
    simp only [init, pool, ObjectState.setUpMsgQueue, ObjectState.listInit, Function.update_self,
      hpool, ObjectState.skMsgQueueInit, skMsgQueueInit_msgPoolSize, some.injEq] at hinit
    subst hinit
    refine ⟨(setFlag_flag ..).trans (setFlag_flag ..).symm, ?_, fun _ _ => ⟨rfl, rfl⟩, rfl⟩
    simp only [SameFields, ObjectState.setUpMsgQueue, ObjectState.listInit, Function.update_self]
    rfl

/-! ## No object is created -/

theorem objectAlloc_null {st : ObjectState Tracked} (hsize : objSize type = 0)
    (name : List (BitVec 8)) : st.objectAlloc tracked type name = some (0, st) := by
  unfold ObjectState.objectAlloc skObjectAlloc
  rw [hsize, tracked_malloc_zero]
  rfl

/-- No object is created, and nothing changes. -/
theorem create_null (args : IpcArgs) (st : ObjectState Tracked) (name : List (BitVec 8)) :
    args.create tracked st name = some (0, st) := by
  have hnull : ∀ type setUp, objSize type = 0 →
      st.ipcCreate tracked type name setUp = some (0, st) := by
    intro type setUp hsize
    unfold ObjectState.ipcCreate
    rw [objectAlloc_null hsize]
    rfl
  cases args with
  | sem => rw [create, ObjectState.skSemCreate, hnull .semaphore _ rfl]
  | mutex flag => rw [create, ObjectState.skMutexCreate, hnull .mutex _ rfl]
  | event flag => rw [create, ObjectState.skEventCreate, hnull .event _ rfl]
  | mailbox => rw [create, ObjectState.skMailboxCreate, hnull .mailbox _ rfl]
  | msgQueue => rw [create, ObjectState.skMsgQueueCreate, hnull .msque _ rfl]

end IpcArgs

/-! ## Creation as initialisation -/

/-- The heap can supply the object and its pool. -/
def IpcArgs.CanSupply (args : IpcArgs) (h : Heap) : Prop :=
  ∃ obj h1, slab.malloc h args.objectSize = some (obj, h1) ∧ obj ≠ 0 ∧
    (args.poolSize = 0 ∨
      ∃ pool h2, slab.malloc h1 args.poolSize = some (pool, h2) ∧ pool ≠ 0)

/-- The object is on the list of its class. -/
def OnObjectList (o : Objects) (type : ObjectType) (obj : Nat) : Prop :=
  ∃ n, o.links.next^[n] (.objList type) = .list obj

/-- Creation returns, and is initialisation on the heap: if there is memory, the object is in the
    state that initialisation gives; if not, no block and no list entry is left behind. -/
def IpcArgs.CreatesAsInit (args : IpcArgs) (st : ObjectState Tracked) (name : List (BitVec 8)) :
    Prop :=
  ∃ obj st', args.create tracked st name = some (obj, st') ∧
    (args.CanSupply st.heap.heap → obj ≠ 0 ∧ ∃ fuel st'',
      args.init fuel st obj (args.pool st' obj) name = some st'' ∧ args.Same obj st' st'') ∧
    (obj = 0 → st'.heap.live = st.heap.live ∧
      ∀ type a, OnObjectList st'.objects type a → OnObjectList st.objects type a)

/-- **Creation of IPC objects.** Creation is initialisation exactly when the heap cannot supply the
    memory: it always returns the null pointer and leaves nothing behind. -/
theorem ipc_create_iff (args : IpcArgs) (st : ObjectState Tracked) (name : List (BitVec 8)) :
    args.CreatesAsInit st name ↔ ¬args.CanSupply st.heap.heap := by
  have hnull := args.create_null st name
  constructor
  · rintro ⟨obj, st', hcreate, hsupply, -⟩ hcan
    cases hnull.symm.trans hcreate
    exact (hsupply hcan).1 rfl
  · intro hcan
    exact ⟨0, st, hnull, fun h => absurd h hcan, fun _ => ⟨rfl, fun _ _ hon => hon⟩⟩

/-- A state with a fresh heap of 12 pages and no objects. -/
def bareState : ObjectState Tracked where
  objects :=
    { links := { next := id, prev := id }
      obj := fun _ => { name := [], type := none, flag := 0 } }
  k := startedKernel 32
  sem := fun _ => skSemInit 0 0
  mutex := fun _ => skMutexInit
  event := fun _ => skEventInit 0
  mailbox := fun _ => skMailboxInit 0 0 0
  msgQueue := fun _ => (skMsgQueueInit (fun _ => 0) 0 0 0 0).1
  device := fun _ => { type := .char, flag := 0, refCnt := 0 }
  mem := fun _ => 0
  heap := { heap := smallHeap 12, live := [], badFree := false }

/-- The heap is empty, and still `sk_sem_create` returns the null pointer. -/
theorem ipc_create_fails :
    slabSystem.init ⟨bareState.heap.heap, []⟩ ∧
      ¬(IpcArgs.sem 1 ipcFlagFifo).CreatesAsInit bareState [] := by
  refine ⟨init_smallHeap 12 (by decide +kernel), ?_⟩
  have hmalloc : (slab.malloc (smallHeap 12) 64).map (fun r => decide (r.1 ≠ 0)) = some true := by
    decide +kernel
  obtain ⟨⟨obj, h1⟩, hsome, hne⟩ := map_eq_some_iff.mp hmalloc
  have hcan : (IpcArgs.sem 1 ipcFlagFifo).CanSupply bareState.heap.heap :=
    ⟨obj, h1, hsome, of_decide_eq_true hne, .inl rfl⟩
  rintro ⟨obj', st', hcreate, hsupply, -⟩
  have hnull := (IpcArgs.sem 1 ipcFlagFifo).create_null bareState []
  cases hnull.symm.trans hcreate
  exact (hsupply hcan).1 rfl

end SKernel.Spec
