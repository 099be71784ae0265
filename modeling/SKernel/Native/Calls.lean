import SKernel.Native.Cpu

/-!
# Kernel calls with the interrupt mask

The functions of `thread/schedule.c`, `thread/thread.c`, `init/sys_tick.c` and `ipc/` once more,
as code that runs on the processor: every `hw_interrupt_disable` and `hw_interrupt_enable` stands
where the source has it, on every return path, and calls are made as calls. What such a function
does to the data of the kernel between two of these points is taken from the modules that model
the data.

A thread may lose the processor where it has not masked interrupts, and in `sk_schedule`. The
functions that look at a field before they mask interrupts therefore look at it once more when
they have, if the source does.

That both models agree is proved in `Spec.IpcSections` and, for the tick, in `Spec.DeferredSwitch`.
-/

namespace SKernel.Native.Call

open ByteMem

variable {σ : Type}

/-! ## Scheduler -/

/-- `sk_current_thread`. -/
def skCurrentThread : KernM σ (Option Tid) := do
  let s ← getSched
  pure s.currentThread

/-- `sk_schedule_remove_thread`. -/
def skScheduleRemoveThread (thread : Tid) : KernM σ Unit := do
  let level ← hwInterruptDisable
  modifySched (Native.skScheduleRemoveThread · thread)
  hwInterruptEnable level

/-- `sk_schedule_insert_thread`. -/
def skScheduleInsertThread (thread : Tid) : KernM σ Unit := do
  let level ← hwInterruptDisable
  let s ← getSched
  modifySched (Native.skScheduleInsertThread · thread)
  -- if thread is current running thread, break
  if s.currentThread = some thread then pure ()
  else hwInterruptEnable level

/-- `sk_schedule` between the mask and the switch: the threads to switch from and to, if they
    differ. -/
def scheduleSelect : KernM σ (Option (Tid × Tid)) := do
  let s ← getSched
  if s.readyPrioGroup ≠ 0 then
    let fromThread ← fromOption s.currentThread
    let (hp, readyHpPrio) ← fromOption (scheduleGetHpThread s)
    let r := s.thread fromThread
    let toThread :=
      if r.stat = threadRunning ∧ r.currentPri ≤ readyHpPrio then fromThread else hp
    if fromThread ≠ toThread then
      modifySched fun s => { s with currentThread := some toThread }
      -- insert thread to ready list
      if r.stat ≠ threadSuspend ∧ r.stat ≠ threadClose then
        skScheduleInsertThread fromThread
      else pure ()
      modifySched fun s => s.setStat toThread ((s.thread toThread).stat &&& ~~~threadYield)
      -- remove thread from ready list, change thread status
      skScheduleRemoveThread toThread
      modifySched fun s => s.setStat toThread threadRunning
      pure (some (fromThread, toThread))
    else pure none
  else pure none

/-- `hw_context_switch` as its caller sees it: it returns when a later switch restores its
    context. -/
def contextSwitch (fromThread toThread : Tid) : KernM σ Unit := do
  let c ← getCpu
  hwContextSwitch fromThread toThread
  modifyCpu fun c' => (c'.othersRun (some fromThread)).restoreContext c.saveContext

/-- The context switch of `sk_schedule`. -/
def scheduleSwitch : Option (Tid × Tid) → KernM σ Unit
  | none => pure ()
  | some (fromThread, toThread) => do
    let c ← getCpu
    if c.skIsInInterrupt then hwContextSwitchInterrupt fromThread toThread
    else contextSwitch fromThread toThread

/-- `sk_schedule`. -/
def skSchedule : KernM σ Unit := do
  let level ← hwInterruptDisable
  let target ← scheduleSelect
  scheduleSwitch target
  hwInterruptEnable level

/-! ## Timers -/

/-- `sk_object_alloc`. -/
def skObjectAlloc (A : Allocator σ) (type : ObjectType) (name : List (BitVec 8)) :
    KernM σ Nat := do
  let d ← getData
  let (obj, heap) ← fromOption (A.malloc d.heap (objSize type))
  modifyData fun d => { d with heap := heap }
  if obj = 0 then pure 0
  else
    modifyData fun d => { d with objects := { d.objects with
      obj := Function.update d.objects.obj obj
        { name := name.take nameMax, type := some type, flag := 0 } } }
    let level ← hwInterruptDisable
    modifyData fun d => { d with objects := { d.objects with
      links := skListAdd d.objects.links (.objList type) (.list obj) } }
    hwInterruptEnable level
    pure obj

/-- `sk_object_delete`. -/
def skObjectDelete (A : Allocator σ) (obj : Nat) : KernM σ Unit := do
  -- reset object type
  modifyData fun d => { d with objects := { d.objects with
    obj := Function.update d.objects.obj obj { d.objects.obj obj with type := none } } }
  let level ← hwInterruptDisable
  modifyData fun d => { d with objects := { d.objects with
    links := skListDel d.objects.links (.list obj) } }
  hwInterruptEnable level
  -- free the memory of object
  let d ← getData
  let heap ← fromOption (A.free d.heap obj)
  modifyData fun d => { d with heap := heap }

/-- `sk_timer_create`. -/
def skTimerCreate (A : Allocator σ) (name : List (BitVec 8)) (tick : Nat) (flag : BitVec 8) :
    KernM σ Nat := do
  let timer ← skObjectAlloc A .timer name
  if timer = 0 then pure 0
  else
    modifyData fun d => { d with toObjectState := d.initTimer (.own timer) tick flag }
    pure timer

/-- `sk_timer_init`. -/
def skTimerInit (fuel : Nat) (timer : TimerRef) (name : List (BitVec 8)) (tick : Nat)
    (flag : BitVec 8) : KernM σ Unit := do
  let d ← getData
  let st ← fromOption (ObjectState.skTimerInit fuel d.toObjectState timer name tick flag)
  modifyData fun d => { d with toObjectState := st }

/-- `sk_timer_delete`. -/
def skTimerDelete (A : Allocator σ) (timer : TimerRef) : KernM σ SkErr := do
  let level ← hwInterruptDisable
  modifyTimers (timerDelete · timer.id)
  -- stop timer
  modifyData fun d =>
    let flag := (d.objects.obj timer.addr).flag &&& ~~~timerFlagActive
    { d with toObjectState := d.setFlag timer.addr flag }
  hwInterruptEnable level
  skObjectDelete A timer.addr
  pure .eok

/-- `sk_timer_start`. -/
def skTimerStart (timer : TimerRef) : KernM σ SkErr := do
  let level ← hwInterruptDisable
  modifyTimers (Native.skTimerStart · timer.id)
  hwInterruptEnable level
  pure .eok

/-- `sk_timer_stop`. -/
def skTimerStop (timer : TimerRef) : KernM σ SkErr := do
  let d ← getData
  if (d.k.timers.timer timer.id).isActive then
    let level ← hwInterruptDisable
    modifyTimers fun tm => timerRemove (timerDeactivate tm timer.id) timer.id
    hwInterruptEnable level
    pure .eok
  else pure .error

/-- `sk_timer_control`, with what it stores in `*arg`. -/
def skTimerControl (timer : TimerRef) (cmd : TimerCtrl) : KernM σ (SkErr × Option Nat) := do
  let level ← hwInterruptDisable
  let d ← getData
  modifyTimers fun tm => (Native.skTimerControl tm timer.id cmd).2
  hwInterruptEnable level
  pure (.eok, (Native.skTimerControl d.k.timers timer.id cmd).1)

/-- `sk_timer_check`: call the timeout function of a timer that is active. -/
def timerTimeout (timeoutFunc : Tid → KernM σ Unit) (i : Tid) : KernM σ Unit := do
  let d ← getData
  if (d.k.timers.timer i).isActive then timeoutFunc i else pure ()

/-- `sk_timer_check`: start a periodic timer once more, deactivate any other. -/
def timerRestart (i : Tid) : KernM σ Unit := do
  let d ← getData
  if (d.k.timers.timer i).isPeriodic then
    let _ ← skTimerStart (.own i)
  else modifyTimers (timerDeactivate · i)

/-- The loop of `sk_timer_check` from the list position `list1` on, with `level` to go back to. -/
def timerCheckLoop (timeoutFunc : Tid → KernM σ Unit) (level : Daif) :
    Nat → TimerNode Tid → KernM σ Unit
  | 0, _ => fromOption none
  | _ + 1, .head => hwInterruptEnable level
  | fuel + 1, .timer i => do
    let d ← getData
    if d.k.timers.skTick ≥ (d.k.timers.timer i).timeoutTick then
      timerTimeout timeoutFunc i
      -- if timer is stopped in timeout function, break
      let d ← getData
      if d.k.timers.links.next (.timer i) = d.k.timers.links.prev (.timer i) then
        hwInterruptEnable level
      else
        timerRestart i
        let d ← getData
        timerCheckLoop timeoutFunc level fuel (d.k.timers.links.next (.timer i))
    else timerCheckLoop timeoutFunc level fuel (d.k.timers.links.next (.timer i))

/-- `sk_timer_check`. -/
def skTimerCheck (timeoutFunc : Tid → KernM σ Unit) (fuel : Nat) : KernM σ Unit := do
  let level ← hwInterruptDisable
  let d ← getData
  timerCheckLoop timeoutFunc level fuel (d.k.timers.links.next .head)

/-- The time-slice part of `sk_tick_increase`, with `level` to go back to. -/
def tickSlice (level : Daif) : KernM σ Unit := do
  let s ← getSched
  let thread ← fromOption s.currentThread
  let r := s.thread thread
  if remainTickDec r = 0 then
    modifySched (sliceExpired · thread)
    hwInterruptEnable level
    -- schedule next ready thread
    skSchedule
  else
    modifySched fun s => s.setThread thread { r with remainTick := remainTickDec r }
    hwInterruptEnable level

/-- `sk_tick_increase`. -/
def skTickIncrease (timeoutFunc : Tid → KernM σ Unit) (fuel : Nat) : KernM σ Unit := do
  let level ← hwInterruptDisable
  modifyTimers fun tm => { tm with skTick := tm.tickAfter 1 }
  tickSlice level
  skTimerCheck timeoutFunc fuel

/-! ## Threads -/

/-- Take a thread off its list, and insert it to the schedule ready list. -/
def threadWake (thread : Tid) : KernM σ Unit := do
  modifySched fun s => { s with links := skListDel s.links (.tlist thread) }
  skScheduleInsertThread thread

/-- `sk_thread_timeout`. -/
def skThreadTimeout (thread : Tid) : KernM σ Unit := do
  let level ← hwInterruptDisable
  threadWake thread
  hwInterruptEnable level
  skSchedule

/-- `sk_thread_resume`. -/
def skThreadResume (thread : Tid) : KernM σ SkErr := do
  let s ← getSched
  if (s.thread thread).stat ≠ threadSuspend then pure .error
  else
    let level ← hwInterruptDisable
    threadWake thread
    hwInterruptEnable level
    pure .eok

/-- `sk_thead_suspend`. -/
def skTheadSuspend (thread : Tid) : KernM σ SkErr := do
  let s ← getSched
  if (s.thread thread).stat ≠ threadReady ∧ (s.thread thread).stat ≠ threadRunning then
    pure .error
  else
    let level ← hwInterruptDisable
    let s ← getSched
    if (s.thread thread).stat = threadRunning ∧ s.currentThread = some thread then
      -- not support suspend
      pure .error
    else
      skScheduleRemoveThread thread
      modifySched (·.setStat thread threadSuspend)
      hwInterruptEnable level
      pure .eok

/-- `sk_thread_suspend`. -/
def skThreadSuspend (thread : Tid) : KernM σ SkErr := do
  let s ← getSched
  let stat := (s.thread thread).stat &&& threadMask
  if stat ≠ threadReady ∧ stat ≠ threadRunning then pure .error
  else
    let level ← hwInterruptDisable
    skScheduleRemoveThread thread
    modifySched (·.setStat thread threadSuspend)
    -- stop thread timer
    let _ ← skTimerStop (.ofThread thread)
    hwInterruptEnable level
    pure .eok

/-- Reset the thread timer to `time` ticks and start it. -/
def threadTimerStart (thread : Tid) (time : Nat) : KernM σ Unit := do
  let _ ← skTimerControl (.ofThread thread) (.setTime time)
  let _ ← skTimerStart (.ofThread thread)

/-- `sk_thread_sleep`. -/
def skThreadSleep (tick : Nat) : KernM σ SkErr := do
  let current ← skCurrentThread
  let thread ← fromOption current
  let level ← hwInterruptDisable
  let _ ← skThreadSuspend thread
  threadTimerStart thread tick
  hwInterruptEnable level
  skSchedule
  pure .eok

/-! ## IPC -/

/-- `__ipc_list_suspend`. -/
def ipcListSuspend (fuel : Nat) (list : ListHead) (thread : Tid) (flag : BitVec 8) :
    KernM σ Unit := do
  let _ ← skThreadSuspend thread
  if flag = ipcFlagFifo then
    modifySched fun s => { s with links := skListAddTail s.links (.head list) (.tlist thread) }
  else if flag = ipcFlagPrio then
    let s ← getSched
    let n ← fromOption (ipcListPosition s list thread fuel (s.links.next (.head list)))
    modifySched fun s => { s with links := skListAddTail s.links n (.tlist thread) }
  else pure ()

/-- The blocking part of an IPC call: suspend the thread on the list and perhaps start its timer. -/
def ipcBlock (fuel : Nat) (list : ListHead) (current : Option Tid) (flag : BitVec 8)
    (time : Int) : KernM σ Unit := do
  let thread ← fromOption current
  ipcListSuspend fuel list thread flag
  if time > 0 then threadTimerStart thread time.toNat else pure ()

/-- Resume the first thread of a list. -/
def ipcResume (list : ListHead) : KernM σ Unit := do
  let s ← getSched
  let thread ← fromOption (ipcFirstThread s list)
  let _ ← skThreadResume thread

/-- The end of the calls that resume the first thread of a list, if there is one. -/
def ipcResumeFirst (list : ListHead) (level : Daif) : KernM σ SkErr := do
  let s ← getSched
  if skListEmpty s.links (.head list) then
    hwInterruptEnable level
    pure .eok
  else
    ipcResume list
    hwInterruptEnable level
    skSchedule
    pure .eok

/-- `sk_sem_wait`. -/
def skSemWait (fuel : Nat) (sem : Nat) (time : Int) : KernM σ SkErr := do
  let thread ← skCurrentThread
  let level ← hwInterruptDisable
  let d ← getData
  let s := d.sem sem
  if s.value > 0 then
    -- sem is available
    modifyData fun d => { d with sem := Function.update d.sem sem { s with value := s.value - 1 } }
    hwInterruptEnable level
    pure .eok
  else if time = 0 then
    hwInterruptEnable level
    pure .etimeout
  else
    ipcBlock fuel (suspendThread sem) thread s.flag time
    hwInterruptEnable level
    skSchedule
    pure .eok

/-- `sk_sem_trywait`. -/
def skSemTrywait (fuel : Nat) (sem : Nat) : KernM σ SkErr := skSemWait fuel sem 0

/-- `sk_sem_post`. -/
def skSemPost (sem : Nat) : KernM σ SkErr := do
  let level ← hwInterruptDisable
  let d ← getData
  let s := d.sem sem
  if skListEmpty d.k.sched.links (.head (suspendThread sem)) then
    if s.value < semValueMax then
      modifyData fun d =>
        { d with sem := Function.update d.sem sem { s with value := s.value + 1 } }
      hwInterruptEnable level
      pure .eok
    else
      hwInterruptEnable level
      pure .efull
  else
    ipcResume (suspendThread sem)
    hwInterruptEnable level
    skSchedule
    pure .eok

/-- Replace a mutex. -/
def setMutex (mutex : Nat) (m : Mutex) : KernM σ Unit :=
  modifyData fun d => { d with mutex := Function.update d.mutex mutex m }

/-- The part of `sk_mutex_lock` that counts the hold. -/
def mutexHold (mutex : Nat) (m : Mutex) (level : Daif) : KernM σ SkErr := do
  if m.hold < mutexHoldMax then
    setMutex mutex { m with hold := m.hold + 1 }
    hwInterruptEnable level
    pure .eok
  else
    setMutex mutex m
    hwInterruptEnable level
    pure .efull

/-- `sk_mutex_lock`. -/
def skMutexLock (fuel : Nat) (mutex : Nat) (time : Int) : KernM σ SkErr := do
  let current ← skCurrentThread
  let thread ← fromOption current
  let level ← hwInterruptDisable
  let d ← getData
  let m := d.mutex mutex
  if m.owner = some thread then mutexHold mutex m level
  else if m.value > 0 then
    -- mutex is available: set mutex owner and original priority
    mutexHold mutex { m with
      value := m.value - 1
      owner := some thread
      originalPri := (d.k.sched.thread thread).currentPri } level
  else if time = 0 then
    hwInterruptEnable level
    pure .etimeout
  else
    ipcBlock fuel (suspendThread mutex) current ipcFlagPrio time
    hwInterruptEnable level
    skSchedule
    pure .eok

/-- `sk_mutex_trylock`. -/
def skMutexTrylock (fuel : Nat) (mutex : Nat) : KernM σ SkErr := skMutexLock fuel mutex 0

/-- `sk_mutex_unlock`. -/
def skMutexUnlock (mutex : Nat) : KernM σ SkErr := do
  let current ← skCurrentThread
  let thread ← fromOption current
  let level ← hwInterruptDisable
  let d ← getData
  let m := d.mutex mutex
  -- mutex only can be released by owner
  if m.owner ≠ some thread then
    hwInterruptEnable level
    pure .error
  else
    let m := { m with hold := (m.hold + 0xFF) % 0x100 }
    if m.hold = 0 then
      if skListEmpty d.k.sched.links (.head (suspendThread mutex)) then
        setMutex mutex { m with
          value := (m.value + 1) % 0x10000
          owner := none
          originalPri := 0xFF }
        hwInterruptEnable level
        pure .eok
      else
        -- set new owner and priority, resume thread
        let thread ← fromOption (ipcFirstThread d.k.sched (suspendThread mutex))
        setMutex mutex { m with
          owner := some thread
          originalPri := (d.k.sched.thread thread).currentPri
          hold := m.hold + 1 }
        let _ ← skThreadResume thread
        hwInterruptEnable level
        skSchedule
        pure .eok
    else
      setMutex mutex m
      hwInterruptEnable level
      pure .eok

/-- Replace an event. -/
def setEvent (event : Nat) (e : Event) : KernM σ Unit :=
  modifyData fun d => { d with event := Function.update d.event event e }

/-- Replace the event fields of a thread. -/
def setWait (thread : Tid) (w : EventWait) : KernM σ Unit :=
  modifyData fun d => { d with wait := Function.update d.wait thread w }

/-- The end of `sk_event_send`, with the value of `need_schedule`. -/
def eventSendEnd (level : Daif) (needSchedule : Bool) : KernM σ SkErr := do
  hwInterruptEnable level
  if needSchedule then
    skSchedule
    pure .eok
  else pure .eok

/-- `sk_event_send`. The local variable `need_schedule` is not initialised: `needSchedule` is the
    value it happens to have. -/
def skEventSend (event : Nat) (set : BitVec 16) (needSchedule : Bool) : KernM σ SkErr := do
  if set = 0 then pure .error
  else
    let level ← hwInterruptDisable
    let d ← getData
    let e := { d.event event with set := (d.event event).set ||| set.setWidth 32 }
    setEvent event e
    if skListEmpty d.k.sched.links (.head (suspendThread event)) then
      eventSendEnd level needSchedule
    else
      let thread ← fromOption (ipcFirstThread d.k.sched (suspendThread event))
      let w := d.wait thread
      match eventMatch w.eventInfo w.eventSet e.set with
      | none =>
        hwInterruptEnable level
        pure .einval
      | some false => eventSendEnd level needSchedule
      | some true =>
        -- save the received event set of an OR event
        let w := if w.eventInfo &&& eventFlagAnd ≠ 0 then w
          else { w with eventSet := w.eventSet &&& e.set }
        setWait thread w
        -- clear event
        setEvent event (if w.eventInfo &&& eventFlagClear ≠ 0
          then { e with set := e.set &&& ~~~w.eventSet } else e)
        let _ ← skThreadResume thread
        eventSendEnd level true

/-- `sk_event_recv`, with what it stores in `*recved`. -/
def skEventRecv (fuel : Nat) (event : Nat) (set : BitVec 32) (option : BitVec 8)
    (timeout : Int) : KernM σ (SkErr × Option (BitVec 32)) := do
  if set = 0 then pure (.error, none)
  else
    let current ← skCurrentThread
    let thread ← fromOption current
    let level ← hwInterruptDisable
    let d ← getData
    let e := d.event event
    match eventMatch option set e.set with
    | none =>
      hwInterruptEnable level
      pure (.einval, none)
    | some true =>
      -- fill thread event info
      setWait thread { eventSet := e.set &&& set, eventInfo := option }
      -- received event
      setEvent event (if option &&& eventFlagClear ≠ 0
        then { e with set := e.set &&& ~~~set } else e)
      hwInterruptEnable level
      pure (.eok, some (e.set &&& set))
    | some false =>
      if timeout = 0 then
        hwInterruptEnable level
        pure (.etimeout, none)
      else
        setWait thread { eventSet := set, eventInfo := option }
        ipcBlock fuel (suspendThread event) current e.flag timeout
        hwInterruptEnable level
        skSchedule
        let level ← hwInterruptDisable
        let d ← getData
        hwInterruptEnable level
        pure (.eok, some (eventRecvReturn d.wait thread))

/-- Replace a mailbox. -/
def setMailbox (mb : Nat) (m : Mailbox) : KernM σ Unit :=
  modifyData fun d => { d with mailbox := Function.update d.mailbox mb m }

/-- `sk_mailbox_send_wait` from the second test on. -/
def mailboxSendRest (mb : Nat) (value : BitVec 64) (level : Daif) : KernM σ SkErr := do
  let d ← getData
  let m := d.mailbox mb
  -- thread timer timeout and thread rerun, check mailbox is full
  if m.entry = m.size then pure .efull
  else
    modifyData fun d =>
      { d with mem := store d.mem 8 (m.msgPool + 8 * m.inOffset) value.toNat }
    let m := { m with inOffset := mailboxNext m.size m.inOffset }
    if m.entry < m.size then
      setMailbox mb { m with entry := (m.entry + 1) % 2 ^ 16 }
      -- resume suspended thread
      ipcResumeFirst (suspendThread mb) level
    else
      setMailbox mb m
      hwInterruptEnable level
      pure .efull

/-- `sk_mailbox_send_wait`. -/
def skMailboxSendWait (fuel : Nat) (mb : Nat) (value : BitVec 64) (timeout : Int) :
    KernM σ SkErr := do
  let thread ← skCurrentThread
  let level ← hwInterruptDisable
  let d ← getData
  let m := d.mailbox mb
  -- for non-blocking call
  if m.entry = m.size ∧ timeout = 0 then
    hwInterruptEnable level
    pure .efull
  else if m.entry = m.size then
    ipcBlock fuel (mailboxSenders mb) thread m.flag timeout
    hwInterruptEnable level
    skSchedule
    mailboxSendRest mb value level
  else mailboxSendRest mb value level

/-- `sk_mailbox_send`. -/
def skMailboxSend (fuel : Nat) (mb : Nat) (value : BitVec 64) : KernM σ SkErr :=
  skMailboxSendWait fuel mb value 0

/-- `sk_mailbox_recv` from the second test on. The mail is `*value`. -/
def mailboxRecvRest (mb : Nat) (level : Daif) : KernM σ (SkErr × Option (BitVec 64)) := do
  let d ← getData
  let m := d.mailbox mb
  -- thread timer timeout and thread rerun, check mailbox is empty
  if m.entry = 0 then pure (.etimeout, none)
  else
    let value := BitVec.ofNat 64 (load d.mem 8 (m.msgPool + 8 * m.outOffset))
    let m := { m with outOffset := mailboxNext m.size m.outOffset }
    setMailbox mb (if m.entry > 0 then { m with entry := m.entry - 1 } else m)
    -- resume suspended thread
    let code ← ipcResumeFirst (suspendThread mb) level
    pure (code, some value)

/-- `sk_mailbox_recv`. -/
def skMailboxRecv (fuel : Nat) (mb : Nat) (timeout : Int) :
    KernM σ (SkErr × Option (BitVec 64)) := do
  let thread ← skCurrentThread
  let level ← hwInterruptDisable
  let d ← getData
  let m := d.mailbox mb
  -- for non-blocking call
  if m.entry = 0 ∧ timeout = 0 then
    hwInterruptEnable level
    pure (.etimeout, none)
  else if m.entry = 0 then
    ipcBlock fuel (suspendThread mb) thread m.flag timeout
    hwInterruptEnable level
    skSchedule
    mailboxRecvRest mb level
  else mailboxRecvRest mb level

/-- Replace a message queue. -/
def setMsgQueue (mq : Nat) (q : MsgQueue) : KernM σ Unit :=
  modifyData fun d => { d with msgQueue := Function.update d.msgQueue mq q }

/-- Replace the memory. -/
def setMem (mem : Mem) : KernM σ Unit := modifyData fun d => { d with mem := mem }

/-- `sk_msg_queue_send_wait`. The buffer is as long as the size says. -/
def skMsgQueueSendWait (mq : Nat) (buffer : List UInt8) (timeout : Int) : KernM σ SkErr := do
  let d ← getData
  -- greater than one message size
  if buffer.length > (d.msgQueue mq).msgSize then pure .error
  else
    let level ← hwInterruptDisable
    let d ← getData
    let q := d.msgQueue mq
    let msg := q.msgQueueFree
    -- for non-blocking call
    if msg = 0 ∧ timeout = 0 then
      hwInterruptEnable level
      pure .efull
    else if msg = 0 then fromOption none
    else
      -- move free list pointer
      setMsgQueue mq { q with msgQueueFree := load d.mem 8 msg }
      hwInterruptEnable level
      let d ← getData
      setMem (msgQueueSendFill d.mem msg buffer)
      let level ← hwInterruptDisable
      -- link msg to message queue
      let d ← getData
      let q := d.msgQueue mq
      setMem (if q.msgQueueTail ≠ 0 then store d.mem 8 q.msgQueueTail msg else d.mem)
      setMsgQueue mq { q with
        msgQueueTail := msg
        msgQueueHead := if q.msgQueueHead = 0 then msg else q.msgQueueHead
        entry := (q.entry + 1) % 2 ^ 16 }
      ipcResumeFirst (suspendThread mq) level

/-- `sk_msg_queue_send`. -/
def skMsgQueueSend (mq : Nat) (buffer : List UInt8) : KernM σ SkErr :=
  skMsgQueueSendWait mq buffer 0

/-- `sk_msg_queue_recv` from the second test on, with the bytes it copies out. -/
def msgQueueRecvRest (mq size : Nat) (level : Daif) : KernM σ (SkErr × List UInt8) := do
  let d ← getData
  match ← fromOption (msgQueueRecvUnlink (d.msgQueue mq) d.mem) with
  | .error code => pure (code, [])
  | .ok (msg, q) =>
    setMsgQueue mq q
    hwInterruptEnable level
    -- copy message
    let d ← getData
    let bytes := msgQueueRecvCopy (d.msgQueue mq) d.mem msg size
    let level ← hwInterruptDisable
    -- put message to free list
    let d ← getData
    let q := d.msgQueue mq
    setMem (store d.mem 8 msg q.msgQueueFree)
    setMsgQueue mq { q with msgQueueFree := msg }
    let code ← ipcResumeFirst (suspendThread mq) level
    pure (code, bytes)

/-- `sk_msg_queue_recv`. -/
def skMsgQueueRecv (fuel : Nat) (mq size : Nat) (timeout : Int) :
    KernM σ (SkErr × List UInt8) := do
  let thread ← skCurrentThread
  let level ← hwInterruptDisable
  let d ← getData
  let q := d.msgQueue mq
  -- for non-blocking call
  if q.entry = 0 ∧ timeout = 0 then
    hwInterruptEnable level
    pure (.etimeout, [])
  else if q.entry = 0 then
    ipcBlock fuel (suspendThread mq) thread q.flag timeout
    hwInterruptEnable level
    skSchedule
    msgQueueRecvRest mq size level
  else msgQueueRecvRest mq size level

end SKernel.Native.Call
