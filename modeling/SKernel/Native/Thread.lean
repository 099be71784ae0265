import SKernel.Native.Sched
import SKernel.Native.Timer

/-!
# Threads

Model of `thread/thread.c`, of `ipc/ipc_base.c` and of the time slice in
`init/sys_tick.c`. Every thread has a one-shot timer that calls `sk_thread_timeout`.

A blocking call suspends the current thread with interrupts disabled, enables interrupts and
then calls `sk_schedule`; the two parts are separate definitions here. Walks over a list are
bounded by fuel and give `none` when it runs out.
-/

namespace SKernel.Native

/-- The scheduler and the timers of the threads. -/
structure Kernel where
  sched : Sched
  timers : Timers Tid

/-- `SK_TIMER_FLAG_ONE_SHOT`. -/
def timerFlagOneShot : BitVec 8 := 0x0

/-- `__thread_init`, run by `sk_thread_create` on a thread it has allocated. -/
def skThreadCreate (k : Kernel) (thread : Tid) (priority tick : Nat) : Kernel :=
  let s := k.sched
  let s := { s with links := skListInit s.links (.tlist thread) }
  let s := s.setThread thread
    { stat := threadInit
      currentPri := priority
      numberMask := (1 : BitVec 32) <<< priority
      initTick := tick
      remainTick := tick }
  -- insert to schedule ready list
  { sched := skScheduleInsertThread s thread
    timers := timerInit k.timers thread 0 timerFlagOneShot }

/-- Take a thread off its list and make it ready, as `sk_thread_timeout` and `sk_thread_resume`
    do. -/
def threadWake (s : Sched) (thread : Tid) : Sched :=
  skScheduleInsertThread { s with links := skListDel s.links (.tlist thread) } thread

/-- `sk_thread_timeout`. -/
def skThreadTimeout (s : Sched) (thread : Tid) : Option Sched :=
  skSchedule (threadWake s thread)

/-- `sk_thread_resume`. -/
def skThreadResume (k : Kernel) (thread : Tid) : SkErr × Kernel :=
  if (k.sched.thread thread).stat ≠ threadSuspend then (.error, k)
  else (.eok, { k with sched := threadWake k.sched thread })

/-- `sk_thread_startup`. -/
def skThreadStartup (k : Kernel) (thread : Tid) : Option Kernel :=
  let s := k.sched.setStat thread threadSuspend
  if s.currentThread ≠ none then
    (skSchedule s).map fun s => { k with sched := s }
  else some { k with sched := s }

/-- `sk_thread_suspend`. -/
def skThreadSuspend (k : Kernel) (thread : Tid) : SkErr × Kernel :=
  let stat := (k.sched.thread thread).stat &&& threadMask
  if stat ≠ threadReady ∧ stat ≠ threadRunning then (.error, k)
  else
    (.eok,
      { sched := (skScheduleRemoveThread k.sched thread).setStat thread threadSuspend
        timers := skTimerStop k.timers thread })

/-- `sk_thead_suspend`, the other function to suspend a thread. -/
def skTheadSuspend (k : Kernel) (thread : Tid) : SkErr × Kernel :=
  let stat := (k.sched.thread thread).stat
  if stat ≠ threadReady ∧ stat ≠ threadRunning then (.error, k)
  else if stat = threadRunning ∧ k.sched.currentThread = some thread then
    -- not support suspend
    (.error, k)
  else
    (.eok,
      { k with sched := (skScheduleRemoveThread k.sched thread).setStat thread threadSuspend })

/-- Reset the thread timer to `time` ticks and start it. -/
def threadTimerStart (k : Kernel) (thread : Tid) (time : Nat) : Kernel :=
  { k with timers := skTimerStart (skTimerSetTime k.timers thread time) thread }

/-- `sk_thread_sleep` up to the point where it enables interrupts again. -/
def threadSleepBlock (k : Kernel) (tick : Nat) : Option Kernel :=
  k.sched.currentThread.map fun thread =>
    threadTimerStart (skThreadSuspend k thread).2 thread tick

/-- `SK_IPC_FLAG_FIFO`. -/
def ipcFlagFifo : BitVec 8 := 0x00

/-- `SK_IPC_FLAG_PRIO`. -/
def ipcFlagPrio : BitVec 8 := 0x01

/-- The search of `__ipc_list_suspend` from `n` on: the node before which the thread is linked. -/
def ipcListPosition (s : Sched) (list : ListHead) (thread : Tid) :
    Nat → ThreadNode → Option ThreadNode
  | 0, _ => none
  | fuel + 1, n =>
    if n = .head list then some n
    else
      match n with
      | .tlist t =>
        if (s.thread thread).currentPri < (s.thread t).currentPri then some n
        else ipcListPosition s list thread fuel (s.links.next n)
      | .head _ => none

/-- `__ipc_list_suspend`. -/
def ipcListSuspend (fuel : Nat) (k : Kernel) (list : ListHead) (thread : Tid)
    (flag : BitVec 8) : Option Kernel :=
  let k := (skThreadSuspend k thread).2
  let s := k.sched
  if flag = ipcFlagFifo then
    some { k with sched := { s with
      links := skListAddTail s.links (.head list) (.tlist thread) } }
  else if flag = ipcFlagPrio then
    (ipcListPosition s list thread fuel (s.links.next (.head list))).map fun n =>
      { k with sched := { s with links := skListAddTail s.links n (.tlist thread) } }
  else some k

/-- The blocking part of an IPC call, up to `hw_interrupt_enable`: suspend the current thread on the
    list and, for a positive time, start its timer. -/
def ipcBlock (fuel : Nat) (k : Kernel) (list : ListHead) (flag : BitVec 8) (time : Int) :
    Option Kernel :=
  match k.sched.currentThread with
  | none => none
  | some thread =>
    (ipcListSuspend fuel k list thread flag).map fun k =>
      if time > 0 then threadTimerStart k thread time.toNat else k

/-- The first thread of a wait list, `sk_list_entry(list->next, struct sk_thread, tlist)`. -/
def ipcFirstThread (s : Sched) (list : ListHead) : Option Tid :=
  match s.links.next (.head list) with
  | .tlist t => some t
  | .head _ => none

/-- After its part with interrupts disabled an IPC call returns a code, or calls `sk_schedule` and
    returns `SK_EOK`. -/
inductive CallEnd where
  | ret (code : SkErr)
  | schedule
  deriving DecidableEq

/-- The code that a call returns in the end. -/
def CallEnd.code : CallEnd → SkErr
  | .ret code => code
  | .schedule => .eok

/-- A call that looks again after it has blocked comes to an end, or calls `sk_schedule` and goes
    on. -/
inductive SegEnd where
  | done (e : CallEnd)
  | block
  deriving DecidableEq

/-- Resuming the first thread of a list: the code from `if(!sk_list_empty(list))` on. -/
def ipcResumeFirst (k : Kernel) (list : ListHead) : Option (CallEnd × Kernel) :=
  if skListEmpty k.sched.links (.head list) then some (.ret .eok, k)
  else
    (ipcFirstThread k.sched list).map fun thread => (.schedule, (skThreadResume k thread).2)

/-- The call of `sk_schedule` that follows a part with interrupts disabled. -/
def thenSchedule (k : Kernel) : Option Kernel :=
  (skSchedule k.sched).map fun s => { k with sched := s }

/-- `sk_thread_sleep`. -/
def skThreadSleep (k : Kernel) (tick : Nat) : Option Kernel :=
  (threadSleepBlock k tick).bind thenSchedule

/-- `__thread_exit`, with `thread->cleanup` `SK_NULL`, without the deletion of the timer's
    object. -/
def threadExit (k : Kernel) : Option Kernel :=
  k.sched.currentThread.bind fun thread =>
    thenSchedule
      { sched := (skScheduleRemoveThread k.sched thread).setStat thread threadClose
        timers := timerDelete k.timers thread }

/-- `--thread->remain_tick`. -/
def remainTickDec (r : Thread) : Nat := (r.remainTick + (2 ^ 64 - 1)) % 2 ^ 64

/-- The current thread's time slice is over: change to the initialized tick, and yield. -/
def sliceExpired (s : Sched) (thread : Tid) : Sched :=
  let r := s.thread thread
  s.setThread thread { r with remainTick := r.initTick, stat := r.stat ||| threadYield }

/-- The time-slice part of `sk_tick_increase`. -/
def tickSlice (s : Sched) : Option Sched :=
  match s.currentThread with
  | none => none
  | some thread =>
    let r := s.thread thread
    if remainTickDec r = 0 then
      -- schedule next ready thread
      skSchedule (sliceExpired s thread)
    else some (s.setThread thread { r with remainTick := remainTickDec r })

/-- `sk_tick_increase`. -/
def skTickIncrease (fuel : Nat) (k : Kernel) : Option Kernel :=
  match tickIncrease (fun s => s.bind tickSlice) (fun t s => s.bind (skThreadTimeout · t))
      fuel k.timers (some k.sched) with
  | some (timers, some sched) => some { sched, timers }
  | _ => none

end SKernel.Native
