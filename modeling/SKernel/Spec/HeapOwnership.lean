import Mathlib.Data.List.Basic
import SKernel.ForStd.Simulation
import SKernel.Spec.IpcCreate

/-!
# Heap ownership

Kernel objects are created on the heap, initialised in memory of the caller, or are part of
another object, and all of them are deleted by `sk_object_delete`, which frees their address. So
the timer of a thread that exits is freed although it lies inside the thread, an object that was
only initialised is freed although it is not on the heap, and `sk_device_destroy` frees a device
that `sk_object_delete` has freed before.

`timers` and `devices` list the timers and the devices that have been created and not deleted.

## Key results

- `OwnSys.step_owned`: a call whose deletes are right keeps the objects on the heap
- `heap_ownership`: no run of such calls frees an address that is not allocated
-/

namespace SKernel.Spec

open Native List Option

/-! ## Live blocks and their owners -/

variable {m m' : Tracked} {owned : List Nat} {p size tick dev : Nat} {flag : BitVec 8}
variable {timer : TimerRef} {code : SkErr}

/-- `sk_malloc` has returned the pointer `p`. -/
structure Allocates (m : Tracked) (p : Nat) (m' : Tracked) : Prop where
  badFree : m'.badFree = m.badFree
  live : m'.live = if p = 0 then m.live else p :: m.live

/-- The live block `p` has been freed. -/
structure Frees (m : Tracked) (p : Nat) (m' : Tracked) : Prop where
  badFree : m'.badFree = m.badFree
  live : m'.live = m.live.erase p

/-- A block becomes live. -/
theorem tracked_malloc_spec (h : tracked.malloc m size = some (p, m')) : Allocates m p m' := by
  obtain ⟨⟨q, heap⟩, -, heq⟩ := map_eq_some_iff.mp h
  cases heq
  exact ⟨rfl, rfl⟩

/-- A live block is freed; the free of any other address would be recorded. -/
theorem tracked_free_spec (hp : p ∈ m.live) (h : tracked.free m p = some m') : Frees m p m' := by
  unfold tracked at h
  dsimp only at h
  rw [if_pos hp] at h
  obtain ⟨heap, -, rfl⟩ := map_eq_some_iff.mp h
  exact ⟨rfl, rfl⟩

/-- Only live blocks have been freed, and those of `owned` are live, each as often as it occurs. -/
structure Owned (m : Tracked) (owned : List Nat) : Prop where
  good : m.badFree = false
  live : owned.Subperm m.live

namespace Owned

/-- Fewer blocks have an owner. -/
theorem mono {owned' : List Nat} (h : Owned m owned) (hsub : owned'.Subperm owned) :
    Owned m owned' := ⟨h.good, hsub.trans h.live⟩

/-- A block that is allocated need not have an owner. -/
theorem malloc (h : Owned m owned) (hm : Allocates m p m') : Owned m' owned := by
  refine ⟨hm.badFree.trans h.good, ?_⟩
  rw [hm.live]
  split
  · exact h.live
  · exact h.live.cons_right p

/-- A block that is allocated has a new owner. -/
theorem create (h : Owned m owned) (hm : Allocates m p m') (hp : p ≠ 0) :
    Owned m' (p :: owned) := by
  refine ⟨hm.badFree.trans h.good, ?_⟩
  rw [hm.live, if_neg hp]
  exact (subperm_cons p).mpr h.live

theorem mem_live (h : Owned m owned) (hp : p ∈ owned) : p ∈ m.live := h.live.subset hp

/-- A block is freed by its owner. -/
theorem free (h : Owned m owned) (hm : Frees m p m') : Owned m' (owned.erase p) := by
  refine ⟨hm.badFree.trans h.good, ?_⟩
  rw [hm.live]
  exact h.live.erase p

end Owned

/-! ## What the functions allocate and free -/

section Functions

variable {st st' : ObjectState Tracked} {type : ObjectType} {name : List (BitVec 8)}
variable {obj fuel : Nat}

/-- `sk_object_alloc` allocates the object, unless it returns the null pointer. -/
private theorem objectAlloc_allocates (h : st.objectAlloc tracked type name = some (obj, st')) :
    Allocates st.heap obj st'.heap := by
  obtain ⟨r, halloc, heq⟩ := map_eq_some_iff.mp h
  obtain ⟨⟨p, m⟩, hmalloc, rfl⟩ := map_eq_some_iff.mp halloc
  dsimp only at heq
  split at heq
  · rename_i hnull
    cases heq
    rw [hnull] at hmalloc
    exact tracked_malloc_spec hmalloc
  · cases heq
    exact tracked_malloc_spec hmalloc

/-- `sk_malloc`, in the state of the objects. -/
private theorem malloc_allocates (h : st.malloc tracked size = some (p, st')) :
    Allocates st.heap p st'.heap := by
  obtain ⟨⟨q, m⟩, hmalloc, heq⟩ := map_eq_some_iff.mp h
  cases heq
  exact tracked_malloc_spec hmalloc

/-- An object in memory of the caller takes nothing from the heap. -/
private theorem objectInit_heap (h : st.objectInit fuel obj type name = some st') :
    st'.heap = st.heap := by
  obtain ⟨objects, -, rfl⟩ := map_eq_some_iff.mp h
  rfl

/-- `sk_object_delete` frees the address of the object, whatever lies there. -/
private theorem objectDelete_frees (hobj : obj ∈ st.heap.live)
    (h : st.objectDelete tracked obj = some st') : Frees st.heap obj st'.heap := by
  obtain ⟨r, hdelete, rfl⟩ := map_eq_some_iff.mp h
  obtain ⟨m, hfree, rfl⟩ := map_eq_some_iff.mp hdelete
  exact tracked_free_spec hobj hfree

/-- A thread without a stack is freed again. -/
private theorem skThreadCreate_owned {stackSize priority : Nat} (h : Owned st.heap owned)
    (hcreate : st.skThreadCreate tracked fuel name stackSize priority tick = some (obj, st')) :
    Owned st'.heap owned := by
  obtain ⟨⟨thread, st1⟩, halloc, hrest⟩ := bind_eq_some_iff.mp hcreate
  have hthread := objectAlloc_allocates halloc
  dsimp only at hrest
  split at hrest
  · cases hrest
    exact h.malloc hthread
  · rename_i hne
    obtain ⟨⟨stackStart, st2⟩, hmalloc, hrest⟩ := bind_eq_some_iff.mp hrest
    have hstack := malloc_allocates hmalloc
    have howned := (h.create hthread hne).malloc hstack
    dsimp only at hrest
    split at hrest
    · -- no stack: the block of the thread is the newest one, and is freed
      obtain ⟨st3, hdelete, heq⟩ := map_eq_some_iff.mp hrest
      cases heq
      have hfree := objectDelete_frees (howned.mem_live mem_cons_self) hdelete
      have hold := howned.free hfree
      rwa [erase_cons_head] at hold
    · -- the timer is part of the thread, so its object takes no memory
      obtain ⟨st3, hinit, heq⟩ := map_eq_some_iff.mp hrest
      cases heq
      have hheap : st3.heap = st2.heap := objectInit_heap hinit
      show Owned st3.heap owned
      rw [hheap]
      exact (h.malloc hthread).malloc hstack

/-- A new timer is a block of its own. -/
private theorem skTimerCreate_allocates
    (h : st.skTimerCreate tracked name tick flag = some (obj, st')) :
    Allocates st.heap obj st'.heap := by
  obtain ⟨⟨timer, st1⟩, halloc, heq⟩ := map_eq_some_iff.mp h
  have htimer := objectAlloc_allocates halloc
  dsimp only at heq
  split at heq
  · rename_i hnull
    cases heq
    rwa [hnull] at htimer
  · cases heq
    exact htimer

private theorem skTimerDelete_frees (hp : timer.addr ∈ st.heap.live)
    (h : st.skTimerDelete tracked timer = some st') : Frees st.heap timer.addr st'.heap := by
  unfold ObjectState.skTimerDelete at h
  have hfree := objectDelete_frees ?_ h
  · exact hfree
  · exact hp

/-- A new device is a block of its own, with the attached data behind it. -/
private theorem skDeviceCreate_allocates {type : DeviceType} {attachSize : Nat}
    (h : st.skDeviceCreate tracked type attachSize = some (obj, st')) :
    Allocates st.heap obj st'.heap := by
  obtain ⟨r, hcreate, heq⟩ := map_eq_some_iff.mp h
  obtain ⟨⟨p, m⟩, hmalloc, rfl⟩ := map_eq_some_iff.mp hcreate
  have hdevice := tracked_malloc_spec hmalloc
  dsimp only at heq
  by_cases hnull : p = 0
  · rw [if_pos hnull] at heq
    cases heq
    exact hdevice
  · rw [if_neg hnull] at heq
    cases heq
    exact hdevice

private theorem init_heap {args : IpcArgs} {pool : Nat}
    (h : args.init fuel st obj pool name = some st') : st'.heap = st.heap := by
  cases args with
  | sem | mutex | event | mailbox =>
    obtain ⟨objects, rfl⟩ := IpcArgs.objectInit_cases h
    rfl
  | msgQueue =>
    cases h
    rfl

private theorem skTimerInit_heap
    (h : st.skTimerInit fuel timer name tick flag = some st') : st'.heap = st.heap := by
  obtain ⟨objects, rfl⟩ := IpcArgs.objectInit_cases h
  rfl

private theorem skDeviceRegister_heap {flag : BitVec 16}
    (h : st.skDeviceRegister fuel dev name flag = some (code, st')) : st'.heap = st.heap := by
  obtain ⟨r, -, heq⟩ := map_eq_some_iff.mp h
  cases heq
  rfl

/-- A device that is not registered is refused, any other one is freed. -/
private theorem skDeviceUnregister_cases
    (hlive : (st.objects.obj dev).type = some .device → dev ∈ st.heap.live)
    (h : st.skDeviceUnregister tracked dev = some (code, st')) :
    st'.heap = st.heap ∧ code ≠ .eok ∨
      Frees st.heap dev st'.heap ∧ code = .eok ∧ (st.objects.obj dev).type = some .device := by
  obtain ⟨r, hunreg, heq⟩ := map_eq_some_iff.mp h
  unfold Native.skDeviceUnregister at hunreg
  split at hunreg
  · cases hunreg
    cases heq
    exact .inl ⟨rfl, by decide⟩
  · rename_i htype
    obtain ⟨r', hdelete, rfl⟩ := map_eq_some_iff.mp hunreg
    obtain ⟨m, hfree, rfl⟩ := map_eq_some_iff.mp hdelete
    cases heq
    exact .inr ⟨tracked_free_spec (hlive (not_not.mp htype)) hfree, rfl, not_not.mp htype⟩

end Functions

/-! ## Runs -/

/-- The kinds of IPC objects. -/
inductive IpcKind where
  | sem
  | mutex
  | event
  | mailbox
  | msgQueue
  deriving DecidableEq

/-- `sk_X_delete` or `sk_X_destroy`. -/
def IpcKind.delete (fuel : Nat) (st : ObjectState Tracked) (obj : Nat) :
    IpcKind → Option (ObjectState Tracked)
  | .sem => st.skSemDestroy tracked fuel obj
  | .mutex => st.skMutexDelete tracked fuel obj
  | .event => st.skEventDestroy tracked fuel obj
  | .mailbox => st.skMailboxDelete tracked fuel obj
  | .msgQueue => st.skMsgQueueDelete tracked fuel obj

/-- The kernel objects, and the timers and devices that have been created and not deleted. -/
structure OwnSys where
  st : ObjectState Tracked
  timers : List Nat
  devices : List Nat

/-- The calls, and any change of the rest of the kernel. -/
inductive OwnOp where
  | threadCreate (fuel : Nat) (name : List (BitVec 8)) (stackSize priority tick : Nat)
  | threadExit
  | timerCreate (name : List (BitVec 8)) (tick : Nat) (flag : BitVec 8)
  | timerInit (fuel : Nat) (timer : TimerRef) (name : List (BitVec 8)) (tick : Nat)
      (flag : BitVec 8)
  | timerDelete (timer : TimerRef)
  | ipcCreate (name : List (BitVec 8)) (args : IpcArgs)
  | ipcInit (fuel obj pool : Nat) (name : List (BitVec 8)) (args : IpcArgs)
  | msgQueueInit (mq msgpool msgSize poolSize : Nat) (flag : BitVec 8)
  | ipcDelete (fuel : Nat) (kind : IpcKind) (obj : Nat)
  | deviceCreate (type : DeviceType) (attachSize : Nat)
  | deviceRegister (fuel dev : Nat) (name : List (BitVec 8)) (flag : BitVec 16)
  | deviceUnregister (dev : Nat)
  | deviceDestroy (dev : Nat)
  | kernel (f : Kernel → Kernel)

namespace OwnSys

/-- Add a created object to a list, unless creation has failed. -/
def addNew (obj : Nat) (l : List Nat) : List Nat := if obj = 0 then l else obj :: l

/-- The state after a call. -/
def step (x : OwnSys) : OwnOp → Option OwnSys
  | .threadCreate fuel name stackSize priority tick =>
    (x.st.skThreadCreate tracked fuel name stackSize priority tick).map fun (_, st) =>
      { x with st := st }
  | .threadExit => (x.st.threadExit tracked).map fun st => { x with st := st }
  | .timerCreate name tick flag =>
    (x.st.skTimerCreate tracked name tick flag).map fun (timer, st) =>
      { x with st := st, timers := addNew timer x.timers }
  | .timerInit fuel timer name tick flag =>
    (x.st.skTimerInit fuel timer name tick flag).map fun st => { x with st := st }
  | .timerDelete timer =>
    (x.st.skTimerDelete tracked timer).map fun st =>
      { x with st := st, timers := x.timers.erase timer.addr }
  | .ipcCreate name args => (args.create tracked x.st name).map fun (_, st) => { x with st := st }
  | .ipcInit fuel obj pool name args =>
    (args.init fuel x.st obj pool name).map fun st => { x with st := st }
  | .msgQueueInit mq msgpool msgSize poolSize flag =>
    some { x with st := x.st.skMsgQueueInit mq msgpool msgSize poolSize flag }
  | .ipcDelete fuel kind obj => (kind.delete fuel x.st obj).map fun st => { x with st := st }
  | .deviceCreate type attachSize =>
    (x.st.skDeviceCreate tracked type attachSize).map fun (dev, st) =>
      { x with st := st, devices := addNew dev x.devices }
  | .deviceRegister fuel dev name flag =>
    (x.st.skDeviceRegister fuel dev name flag).map fun (_, st) => { x with st := st }
  | .deviceUnregister dev =>
    (x.st.skDeviceUnregister tracked dev).map fun (code, st) =>
      { x with st := st, devices := if code = .eok then x.devices.erase dev else x.devices }
  | .deviceDestroy dev =>
    (x.st.skDeviceDestroy tracked dev).map fun st =>
      { x with st := st, devices := x.devices.erase dev }
  | .kernel f => some { x with st := { x.st with k := f x.st.k } }

/-- Created timers and created registered devices are deleted, and nothing else. -/
def DeletesOwn (x : OwnSys) : OwnOp → Prop
  | .threadExit => False
  | .timerDelete timer => ∃ a ∈ x.timers, timer = .own a
  | .ipcDelete _ _ obj => obj = 0
  | .deviceUnregister dev => (x.st.objects.obj dev).type = some .device → dev ∈ x.devices
  | .deviceDestroy dev => dev = 0
  | _ => True

instance (x : OwnSys) (op : OwnOp) : Decidable (x.DeletesOwn op) :=
  match op with
  | .threadExit => isFalse not_false
  | .timerDelete timer => inferInstanceAs (Decidable (∃ a ∈ x.timers, timer = .own a))
  | .ipcDelete _ _ obj => inferInstanceAs (Decidable (obj = 0))
  | .deviceUnregister _ => inferInstanceAs (Decidable (_ → _))
  | .deviceDestroy dev => inferInstanceAs (Decidable (dev = 0))
  | .threadCreate .. | .timerCreate .. | .timerInit .. | .ipcCreate .. | .ipcInit ..
  | .msgQueueInit .. | .deviceCreate .. | .deviceRegister .. | .kernel _ => isTrue trivial

end OwnSys

namespace OwnSys

variable {x x' : OwnSys} {op : OwnOp}

/-- The objects that have been created and not deleted. -/
def created (x : OwnSys) : List Nat := x.timers ++ x.devices

/-- Deleting a device leaves the other objects. -/
private theorem erase_devices_perm (hdev : dev ∈ x.devices) :
    (x.timers ++ x.devices.erase dev).Perm (x.created.erase dev) := by
  have hcomm : (x.devices ++ x.timers).Perm x.created := perm_append_comm
  have herase : (x.devices ++ x.timers).erase dev = x.devices.erase dev ++ x.timers :=
    erase_append_left _ hdev
  exact perm_append_comm.trans (herase ▸ hcomm.erase dev)

/-- Every call that deletes only what has been created keeps the objects live. -/
theorem step_owned (h : Owned x.st.heap x.created) (hguard : x.DeletesOwn op)
    (hstep : x.step op = some x') : Owned x'.st.heap x'.created := by
  cases op with
  | threadCreate =>
    obtain ⟨⟨thread, st⟩, hcreate, rfl⟩ := map_eq_some_iff.mp hstep
    exact skThreadCreate_owned h hcreate
  | threadExit => exact hguard.elim
  | timerCreate name tick flag =>
    obtain ⟨⟨timer, st⟩, hcreate, rfl⟩ := map_eq_some_iff.mp hstep
    have halloc := skTimerCreate_allocates hcreate
    show Owned st.heap (addNew timer x.timers ++ x.devices)
    unfold addNew
    split
    · exact h.malloc halloc
    · rename_i hne
      exact h.create halloc hne
  | timerInit =>
    obtain ⟨st, hinit, rfl⟩ := map_eq_some_iff.mp hstep
    exact skTimerInit_heap hinit ▸ h
  | timerDelete timer =>
    obtain ⟨st, hdelete, rfl⟩ := map_eq_some_iff.mp hstep
    obtain ⟨a, ha, rfl⟩ := hguard
    have hlive : (TimerRef.own a).addr ∈ x.st.heap.live :=
      h.mem_live (mem_append_left x.devices ha)
    have hfree := h.free (skTimerDelete_frees hlive hdelete)
    rwa [created, TimerRef.addr, erase_append_left _ ha] at hfree
  | ipcCreate name args =>
    have hnull := args.create_null x.st name
    obtain ⟨⟨obj, st⟩, hcreate, rfl⟩ := map_eq_some_iff.mp hstep
    cases hnull.symm.trans hcreate
    exact h
  | ipcInit =>
    obtain ⟨st, hinit, rfl⟩ := map_eq_some_iff.mp hstep
    exact init_heap hinit ▸ h
  | msgQueueInit =>
    cases hstep
    exact h
  | ipcDelete fuel kind obj =>
    obtain ⟨st, hdelete, rfl⟩ := map_eq_some_iff.mp hstep
    cases hguard
    -- deleting the null pointer does nothing
    have hsame : st = x.st := by
      cases kind with
      | sem | mutex | event | mailbox | msgQueue =>
        cases hdelete
        rfl
    rw [hsame]
    exact h
  | deviceCreate type attachSize =>
    obtain ⟨⟨dev, st⟩, hcreate, rfl⟩ := map_eq_some_iff.mp hstep
    have halloc := skDeviceCreate_allocates hcreate
    show Owned st.heap (x.timers ++ addNew dev x.devices)
    unfold addNew
    split
    · exact h.malloc halloc
    · rename_i hne
      exact (h.create halloc hne).mono perm_middle.subperm
  | deviceRegister =>
    obtain ⟨⟨code, st⟩, hreg, rfl⟩ := map_eq_some_iff.mp hstep
    exact skDeviceRegister_heap hreg ▸ h
  | deviceUnregister dev =>
    obtain ⟨⟨code, st⟩, hunreg, rfl⟩ := map_eq_some_iff.mp hstep
    have hlive : (x.st.objects.obj dev).type = some .device → dev ∈ x.st.heap.live :=
      fun htype => h.mem_live (mem_append_right x.timers (hguard htype))
    show Owned st.heap (x.timers ++ if code = .eok then x.devices.erase dev else x.devices)
    rcases skDeviceUnregister_cases hlive hunreg with ⟨hheap, hcode⟩ | ⟨hfree, hcode, htype⟩
    · rw [hheap, if_neg hcode]
      exact h
    · rw [if_pos hcode]
      exact (h.free hfree).mono (erase_devices_perm (hguard htype)).subperm
  | deviceDestroy dev =>
    obtain ⟨st, hdestroy, rfl⟩ := map_eq_some_iff.mp hstep
    cases hguard
    -- destroying the null pointer does nothing
    have hsame : st = x.st := by
      cases hdestroy
      rfl
    rw [hsame]
    exact h.mono ((erase_sublist ..).append_left x.timers).subperm
  | kernel f =>
    cases hstep
    exact h

end OwnSys

/-- The system: at first nothing has been allocated. -/
def ownSystem : TransitionSystem OwnSys OwnOp where
  init x := x.timers = [] ∧ x.devices = [] ∧ x.st.heap.live = [] ∧ x.st.heap.badFree = false
  step := OwnSys.step

/-- **Heap ownership.** Along the runs in which no thread exits and the functions delete only
    timers and registered devices that have been created and not deleted, only live blocks are
    freed. -/
theorem heap_ownership {x : OwnSys} (h : ownSystem.Reach OwnSys.DeletesOwn x) :
    x.st.heap.badFree = false := by
  have howned : Owned x.st.heap x.created := by
    refine h.invariant (I := fun x => Owned x.st.heap x.created) ?_
      fun _ _ _ howned => OwnSys.step_owned howned
    rintro y ⟨htimers, hdevices, -, hgood⟩
    refine ⟨hgood, ?_⟩
    rw [OwnSys.created, htimers, hdevices]
    exact nil_subperm
  exact howned.good

/-- Nothing has been allocated yet. -/
def bareSys : OwnSys where
  st := bareState
  timers := []
  devices := []

theorem reach_bareSys (guard : OwnSys → OwnOp → Prop) : ownSystem.Reach guard bareSys :=
  .init ⟨rfl, rfl, rfl, rfl⟩

/-- A timer and a device are created; the device is registered and unregistered, and the timer is
    deleted. -/
theorem heap_ownership_device :
    ∃ x, ownSystem.Reach OwnSys.DeletesOwn x ∧ x.st.heap.live = [] ∧
      x.st.heap.badFree = false := by
  obtain ⟨x, hx, hp⟩ := (reach_bareSys OwnSys.DeletesOwn).exists_of_run
    [.timerCreate [] 10 0, .deviceCreate .char 0, .deviceRegister 5 8328 [] 0,
      .deviceUnregister 8328, .timerDelete (.own 8248)]
    (fun x => x.st.heap.live = []) (by decide +kernel)
  exact ⟨x, hx, of_decide_eq_true hp, heap_ownership hx⟩

/-- A thread is created, is scheduled and exits: its timer is freed, which is no block of its
    own. -/
theorem heap_ownership_exit_fails :
    ∃ x, ownSystem.Reach (fun _ _ => True) x ∧ x.st.heap.live = [40960, 8248] ∧
      x.st.heap.badFree = true := by
  obtain ⟨x, hx, hp⟩ := (reach_bareSys fun _ _ => True).exists_of_run
    [.threadCreate 5 [] 8192 3 10, .kernel fun k => (thenSchedule k).getD k, .threadExit]
    (fun x => x.st.heap.live = [40960, 8248] ∧ x.st.heap.badFree = true) (by decide +kernel)
  obtain ⟨hlive, hbad⟩ := of_decide_eq_true hp
  exact ⟨x, hx, hlive, hbad⟩

end SKernel.Spec
