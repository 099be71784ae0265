import SKernel.Native.Device
import SKernel.Native.Event
import SKernel.Native.Mailbox
import SKernel.Native.MsgQueue
import SKernel.Native.Mutex
import SKernel.Native.Semaphore

/-!
# Creating and deleting kernel objects

Model of the functions that set up, create and delete threads, timers, IPC objects and devices.
An object is named by its address, and the lists inside an IPC object by their addresses. A
created object comes from `sk_malloc`; an object that is only initialised belongs to the caller.
Either way it is deleted by `sk_object_delete`, which passes its address to `sk_free`.

The flag of an object is kept in its header and, where the calls read it, in its structure.
-/

namespace SKernel.Native

open ByteMem

/-- The object lists, the scheduler and the timers, the structures by address, the memory of the
    message pools, and the heap. -/
structure ObjectState (σ : Type*) where
  objects : Objects
  k : Kernel
  sem : Nat → Sem
  mutex : Nat → Mutex
  event : Nat → Event
  mailbox : Nat → Mailbox
  msgQueue : Nat → MsgQueue
  device : Nat → Device
  mem : Mem
  heap : σ

/-- `&obj->parent.suspend_thread`. -/
def suspendThread (obj : Nat) : ListHead := .wait (obj + 40)

/-- `&mb->suspend_sender_thread`. -/
def mailboxSenders (mb : Nat) : ListHead := .wait (mb + 72)

/-- `&mq->suspend_sender_thread`. -/
def msgQueueSenders (mq : Nat) : ListHead := .wait (mq + 96)

/-- A timer: the timer of a thread, or a timer of its own. -/
inductive TimerRef where
  | ofThread (thread : Nat)
  | own (timer : Nat)
  deriving DecidableEq

/-- The address of a timer. -/
def TimerRef.addr : TimerRef → Nat
  | .ofThread thread => thread + 120
  | .own timer => timer

/-- The name of a timer on the timer list, where the timer of a thread goes by its thread. -/
def TimerRef.id : TimerRef → Nat
  | .ofThread thread => thread
  | .own timer => timer

/-- `__ipc_list_resume_all`. -/
def ipcListResumeAll : Nat → Kernel → ListHead → Option Kernel
  | 0, _, _ => none
  | fuel + 1, k, list =>
    if skListEmpty k.sched.links (.head list) then some k
    else
      (ipcFirstThread k.sched list).bind fun thread =>
        ipcListResumeAll fuel (skThreadResume k thread).2 list

namespace ObjectState

variable {σ : Type*}

/-! ## Parts that the functions share -/

/-- `obj->flag = flag`. -/
def setFlag (st : ObjectState σ) (obj : Nat) (flag : BitVec 8) : ObjectState σ :=
  { st with objects := { st.objects with
      obj := Function.update st.objects.obj obj { st.objects.obj obj with flag := flag } } }

/-- `sk_list_init` on the head of a wait list. -/
def listInit (st : ObjectState σ) (list : ListHead) : ObjectState σ :=
  { st with k := { st.k with sched := { st.k.sched with
      links := skListInit st.k.sched.links (.head list) } } }

/-- `__ipc_object_init`. -/
def ipcObjectInit (st : ObjectState σ) (obj : Nat) : ObjectState σ :=
  st.listInit (suspendThread obj)

def malloc (A : Allocator σ) (st : ObjectState σ) (size : Nat) : Option (Nat × ObjectState σ) :=
  (A.malloc st.heap size).map fun (p, heap) => (p, { st with heap := heap })

def free (A : Allocator σ) (st : ObjectState σ) (p : Nat) : Option (ObjectState σ) :=
  (A.free st.heap p).map fun heap => { st with heap := heap }

def objectAlloc (A : Allocator σ) (st : ObjectState σ) (type : ObjectType)
    (name : List (BitVec 8)) : Option (Nat × ObjectState σ) :=
  (skObjectAlloc A st.objects st.heap type name).map fun (obj, objects, heap) =>
    (obj, { st with objects := objects, heap := heap })

def objectInit (fuel : Nat) (st : ObjectState σ) (obj : Nat) (type : ObjectType)
    (name : List (BitVec 8)) : Option (ObjectState σ) :=
  (skObjectInit fuel st.objects obj type name).map fun objects => { st with objects := objects }

def objectDelete (A : Allocator σ) (st : ObjectState σ) (obj : Nat) : Option (ObjectState σ) :=
  (skObjectDelete A st.objects st.heap obj).map fun (objects, heap) =>
    { st with objects := objects, heap := heap }

/-- The functions `sk_X_create` of the IPC objects: allocate the object and set it up. -/
def ipcCreate (A : Allocator σ) (st : ObjectState σ) (type : ObjectType) (name : List (BitVec 8))
    (setUp : Nat → ObjectState σ → Option (Nat × ObjectState σ)) :
    Option (Nat × ObjectState σ) :=
  (st.objectAlloc A type name).bind fun (obj, st) =>
    if obj = 0 then some (0, st) else setUp obj st

/-- `sk_mailbox_create` and `sk_msg_queue_create` from the request of the pool on. The test of the
    pool is the wrong way round. -/
def poolCreate (A : Allocator σ) (st : ObjectState σ) (obj size : Nat)
    (setUp : Nat → ObjectState σ → ObjectState σ) : Option (Nat × ObjectState σ) :=
  (st.malloc A size).bind fun (msgPool, st) =>
    if msgPool ≠ 0 then (st.objectDelete A obj).map fun st => (0, st)
    else some (obj, setUp msgPool st)

/-- `sk_X_delete` and `sk_X_destroy` of the IPC objects: wake up all suspended threads, free the
    message pool, and delete the object. -/
def ipcDelete (A : Allocator σ) (fuel : Nat) (st : ObjectState σ) (obj : Nat)
    (lists : List ListHead) (pool : Nat) : Option (ObjectState σ) :=
  if obj = 0 then some st
  else
    (lists.foldlM (ipcListResumeAll fuel) st.k).bind fun k =>
      let st := { st with k := k }
      (if pool ≠ 0 then st.free A pool else some st).bind fun st => st.objectDelete A obj

/-! ## Threads -/

/-- `sk_thread_create`. -/
def skThreadCreate (A : Allocator σ) (fuel : Nat) (st : ObjectState σ) (name : List (BitVec 8))
    (stackSize priority tick : Nat) : Option (Nat × ObjectState σ) :=
  (st.objectAlloc A .thread name).bind fun (thread, st) =>
    if thread = 0 then some (0, st)
    else
      (st.malloc A stackSize).bind fun (stackStart, st) =>
        if stackStart = 0 then
          -- delete allocated object
          (st.objectDelete A thread).map fun st => (0, st)
        else
          -- `__thread_init`, with the object of the thread timer
          let timer := TimerRef.ofThread thread
          (st.objectInit fuel timer.addr .timer name).map fun st =>
            (thread, { st.setFlag timer.addr timerFlagOneShot with
              k := Native.skThreadCreate st.k thread priority tick })

/-- `sk_timer_delete`. -/
def skTimerDelete (A : Allocator σ) (st : ObjectState σ) (timer : TimerRef) :
    Option (ObjectState σ) :=
  let st := { st with k := { st.k with timers := timerDelete st.k.timers timer.id } }
  -- stop timer
  let st := st.setFlag timer.addr ((st.objects.obj timer.addr).flag &&& ~~~timerFlagActive)
  st.objectDelete A timer.addr

/-- `__thread_exit`, with `thread->cleanup` `SK_NULL` as `__thread_init` leaves it. -/
def threadExit (A : Allocator σ) (st : ObjectState σ) : Option (ObjectState σ) :=
  st.k.sched.currentThread.bind fun thread =>
    -- remove from schedule, change thread state
    let s := (skScheduleRemoveThread st.k.sched thread).setStat thread threadClose
    let st := { st with k := { st.k with sched := s } }
    -- remove it from system tick list
    (st.skTimerDelete A (.ofThread thread)).bind fun st =>
      (thenSchedule st.k).map fun k => { st with k := k }

/-! ## Timers -/

/-- `__timer_init`. -/
def initTimer (st : ObjectState σ) (timer : TimerRef) (tick : Nat) (flag : BitVec 8) :
    ObjectState σ :=
  { st.setFlag timer.addr flag with
    k := { st.k with timers := timerInit st.k.timers timer.id tick flag } }

/-- `sk_timer_create`. -/
def skTimerCreate (A : Allocator σ) (st : ObjectState σ) (name : List (BitVec 8)) (tick : Nat)
    (flag : BitVec 8) : Option (Nat × ObjectState σ) :=
  (st.objectAlloc A .timer name).map fun (timer, st) =>
    if timer = 0 then (0, st) else (timer, st.initTimer (.own timer) tick flag)

/-- `sk_timer_init`. -/
def skTimerInit (fuel : Nat) (st : ObjectState σ) (timer : TimerRef) (name : List (BitVec 8))
    (tick : Nat) (flag : BitVec 8) : Option (ObjectState σ) :=
  (st.objectInit fuel timer.addr .timer name).map fun st => st.initTimer timer tick flag

/-! ## Semaphores -/

/-- `__ipc_object_init`, the value and the flag. -/
def setUpSem (st : ObjectState σ) (sem : Nat) (value : BitVec 16) (flag : BitVec 8) :
    ObjectState σ :=
  let st := st.ipcObjectInit sem
  { st with sem := Function.update st.sem sem (Native.skSemInit value.toNat flag) }.setFlag sem flag

/-- `sk_sem_init`. -/
def skSemInit (fuel : Nat) (st : ObjectState σ) (sem : Nat) (name : List (BitVec 8))
    (value : BitVec 16) (flag : BitVec 8) : Option (ObjectState σ) :=
  (st.objectInit fuel sem .semaphore name).map fun st => st.setUpSem sem value flag

/-- `sk_sem_create`. -/
def skSemCreate (A : Allocator σ) (st : ObjectState σ) (name : List (BitVec 8))
    (value : BitVec 16) (flag : BitVec 8) : Option (Nat × ObjectState σ) :=
  st.ipcCreate A .semaphore name fun sem st => some (sem, st.setUpSem sem value flag)

/-- `sk_sem_destroy`. -/
def skSemDestroy (A : Allocator σ) (fuel : Nat) (st : ObjectState σ) (sem : Nat) :
    Option (ObjectState σ) :=
  st.ipcDelete A fuel sem [suspendThread sem] 0

/-! ## Mutexes -/

/-- `__ipc_object_init` and the fields of the mutex. The flag can only be
    `SK_IPC_FLAG_PRIO`. -/
def setUpMutex (st : ObjectState σ) (mutex : Nat) : ObjectState σ :=
  let st := st.ipcObjectInit mutex
  { st with mutex := Function.update st.mutex mutex Native.skMutexInit }.setFlag mutex ipcFlagPrio

/-- `sk_mutex_init`. -/
def skMutexInit (fuel : Nat) (st : ObjectState σ) (mutex : Nat) (name : List (BitVec 8)) :
    Option (ObjectState σ) :=
  (st.objectInit fuel mutex .mutex name).map fun st => st.setUpMutex mutex

/-- `sk_mutex_create`. -/
def skMutexCreate (A : Allocator σ) (st : ObjectState σ) (name : List (BitVec 8)) :
    Option (Nat × ObjectState σ) :=
  st.ipcCreate A .mutex name fun mutex st => some (mutex, st.setUpMutex mutex)

/-- `sk_mutex_delete`. -/
def skMutexDelete (A : Allocator σ) (fuel : Nat) (st : ObjectState σ) (mutex : Nat) :
    Option (ObjectState σ) :=
  st.ipcDelete A fuel mutex [suspendThread mutex] 0

/-! ## Events -/

/-- `__ipc_object_init`, the set and the flag. -/
def setUpEvent (st : ObjectState σ) (event : Nat) (flag : BitVec 8) : ObjectState σ :=
  let st := st.ipcObjectInit event
  { st with event := Function.update st.event event (Native.skEventInit flag) }.setFlag event flag

/-- `sk_event_init`. -/
def skEventInit (fuel : Nat) (st : ObjectState σ) (event : Nat) (name : List (BitVec 8))
    (flag : BitVec 8) : Option (ObjectState σ) :=
  (st.objectInit fuel event .event name).map fun st => st.setUpEvent event flag

/-- `sk_event_create`. -/
def skEventCreate (A : Allocator σ) (st : ObjectState σ) (name : List (BitVec 8))
    (flag : BitVec 8) : Option (Nat × ObjectState σ) :=
  st.ipcCreate A .event name fun event st => some (event, st.setUpEvent event flag)

/-- `sk_event_destroy`. -/
def skEventDestroy (A : Allocator σ) (fuel : Nat) (st : ObjectState σ) (event : Nat) :
    Option (ObjectState σ) :=
  st.ipcDelete A fuel event [suspendThread event] 0

/-! ## Mailboxes -/

/-- The fields of the mailbox, and the list of the senders. -/
def setUpMailbox (st : ObjectState σ) (mb msgpool size : Nat) (flag : BitVec 8) :
    ObjectState σ :=
  { st with
    mailbox := Function.update st.mailbox mb (Native.skMailboxInit msgpool size flag) }.listInit
      (mailboxSenders mb)

/-- `sk_mailbox_init`. -/
def skMailboxInit (fuel : Nat) (st : ObjectState σ) (mb : Nat) (name : List (BitVec 8))
    (msgpool size : Nat) (flag : BitVec 8) : Option (ObjectState σ) :=
  (st.objectInit fuel mb .mailbox name).map fun st =>
    ((st.setFlag mb flag).ipcObjectInit mb).setUpMailbox mb msgpool size flag

/-- `sk_mailbox_create`. -/
def skMailboxCreate (A : Allocator σ) (st : ObjectState σ) (name : List (BitVec 8)) (size : Nat)
    (flag : BitVec 8) : Option (Nat × ObjectState σ) :=
  st.ipcCreate A .mailbox name fun mb st =>
    ((st.setFlag mb flag).ipcObjectInit mb).poolCreate A mb (size % 2 ^ 16 * 8)
      fun msgPool st => st.setUpMailbox mb msgPool size flag

/-- `sk_mailbox_delete`. -/
def skMailboxDelete (A : Allocator σ) (fuel : Nat) (st : ObjectState σ) (mb : Nat) :
    Option (ObjectState σ) :=
  st.ipcDelete A fuel mb [suspendThread mb, mailboxSenders mb] (st.mailbox mb).msgPool

/-! ## Message queues -/

/-- The message queue with its free list in the pool, and the list of the senders. -/
def setUpMsgQueue (st : ObjectState σ) (mq : Nat) (q : MsgQueue) (mem : Mem) : ObjectState σ :=
  { st with
    msgQueue := Function.update st.msgQueue mq q
    mem := mem }.listInit (msgQueueSenders mq)

/-- `sk_msg_queue_init`, which does not call `sk_object_init`. -/
def skMsgQueueInit (st : ObjectState σ) (mq msgpool msgSize poolSize : Nat) (flag : BitVec 8) :
    ObjectState σ :=
  let st := (st.setFlag mq flag).ipcObjectInit mq
  let (q, mem) := Native.skMsgQueueInit st.mem msgpool msgSize poolSize flag
  st.setUpMsgQueue mq q mem

/-- The number of bytes that `sk_msg_queue_create` requests for the pool. -/
def msgPoolSize (msgSize maxMsgs : Nat) : Nat :=
  (msgSize % 2 ^ 16 + mqMessageSize) * (maxMsgs % 2 ^ 16)

/-- `sk_msg_queue_create`. -/
def skMsgQueueCreate (A : Allocator σ) (st : ObjectState σ) (name : List (BitVec 8))
    (msgSize maxMsgs : Nat) (flag : BitVec 8) : Option (Nat × ObjectState σ) :=
  st.ipcCreate A .msque name fun mq st =>
    ((st.setFlag mq flag).ipcObjectInit mq).poolCreate A mq (msgPoolSize msgSize maxMsgs)
      fun msgPool st =>
        let (q, mem) := msgQueueFreeLoop
          { msgPool := msgPool
            msgSize := msgSize % 2 ^ 16
            maxMsgs := maxMsgs % 2 ^ 16
            entry := 0
            msgQueueHead := 0
            msgQueueTail := 0
            msgQueueFree := 0
            flag := flag } st.mem (maxMsgs % 2 ^ 16)
        st.setUpMsgQueue mq q mem

/-- `sk_msg_queue_delete`. -/
def skMsgQueueDelete (A : Allocator σ) (fuel : Nat) (st : ObjectState σ) (mq : Nat) :
    Option (ObjectState σ) :=
  st.ipcDelete A fuel mq [suspendThread mq, msgQueueSenders mq] (st.msgQueue mq).msgPool

/-! ## Devices -/

/-- `sk_device_create`, which clears the header too. -/
def skDeviceCreate (A : Allocator σ) (st : ObjectState σ) (type : DeviceType) (attachSize : Nat) :
    Option (Nat × ObjectState σ) :=
  (Native.skDeviceCreate A st.heap type attachSize).map fun
    | (device, none, heap) => (device, { st with heap := heap })
    | (device, some dev, heap) =>
      -- 0 is `SK_OBJECT_THREAD`
      let parent : Object :=
        { name := List.replicate nameMax 0, type := some .thread, flag := 0 }
      (device, { st with
        objects := { st.objects with obj := Function.update st.objects.obj device parent }
        device := Function.update st.device device dev
        heap := heap })

/-- `sk_device_register`. -/
def skDeviceRegister (fuel : Nat) (st : ObjectState σ) (dev : Nat) (name : List (BitVec 8))
    (flag : BitVec 16) : Option (SkErr × ObjectState σ) :=
  (Native.skDeviceRegister fuel st.objects dev (st.device dev) name flag).map
    fun (code, objects, device) =>
      (code, { st with
        objects := objects
        device := Function.update st.device dev device })

/-- `sk_device_unregister`. -/
def skDeviceUnregister (A : Allocator σ) (st : ObjectState σ) (dev : Nat) :
    Option (SkErr × ObjectState σ) :=
  (Native.skDeviceUnregister A st.objects st.heap dev).map fun (code, objects, heap) =>
    (code, { st with objects := objects, heap := heap })

/-- `sk_device_destroy`. -/
def skDeviceDestroy (A : Allocator σ) (st : ObjectState σ) (dev : Nat) :
    Option (ObjectState σ) :=
  (Native.skDeviceDestroy A st.objects st.heap dev).map fun (objects, heap) =>
    { st with objects := objects, heap := heap }

end ObjectState

end SKernel.Native
