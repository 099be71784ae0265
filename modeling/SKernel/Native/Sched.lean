import Mathlib.Data.BitVec
import SKernel.Native.BaseDef
import SKernel.Native.Klist

/-!
# Scheduler

Model of `thread/schedule.c` and of `__sk_ffs`. A thread is named by an identifier that
stands for the address of its `struct sk_thread`; its `tlist` node hangs on an entry of
`sk_thread_prio_table` while the thread is ready, or on the suspend list of an IPC object
while it waits there. A function that would read a thread through a list head, or through a
NULL `current_thread`, gives `none`.

The functions run with interrupts disabled, so each of them is one step. The context switch
itself shows as the change of `current_thread`.
-/

namespace SKernel.Native

/-- A thread, by the address of its `struct sk_thread`. -/
abbrev Tid := Nat

/-- `SK_THREAD_INIT`. -/
def threadInit : BitVec 8 := 0x00

/-- `SK_THREAD_READY`. -/
def threadReady : BitVec 8 := 0x01

/-- `SK_THREAD_SUSPEND`. -/
def threadSuspend : BitVec 8 := 0x02

/-- `SK_THREAD_RUNNING`. -/
def threadRunning : BitVec 8 := 0x04

/-- `SK_THREAD_CLOSE`. -/
def threadClose : BitVec 8 := 0x08

/-- `SK_THREAD_MASK`. -/
def threadMask : BitVec 8 := 0x0F

/-- `SK_THREAD_YIELD`. -/
def threadYield : BitVec 8 := 0x10

/-- `SK_THREAD_PRIORITY_MAX`. -/
def threadPriorityMax : Nat := 32

/-- The lists a thread can be linked on. -/
inductive ListHead where
  /-- `sk_thread_prio_table[p]` -/
  | prio (p : Nat)
  /-- the suspend list of an IPC object -/
  | wait (o : Nat)
  deriving DecidableEq

/-- The list nodes of the scheduler: the list heads and each thread's `tlist`. -/
inductive ThreadNode where
  | head (l : ListHead)
  | tlist (t : Tid)
  deriving DecidableEq

/-- `struct sk_thread`, the fields the scheduler uses. -/
structure Thread where
  stat : BitVec 8
  currentPri : Nat
  numberMask : BitVec 32
  initTick : Nat
  remainTick : Nat

/-- The schedule management data and the threads. -/
structure Sched where
  links : Links ThreadNode
  thread : Tid → Thread
  currentThread : Option Tid
  /-- `sk_thread_ready_prio_group` -/
  readyPrioGroup : BitVec 32

namespace Sched

/-- Replace the record of one thread. -/
def setThread (s : Sched) (t : Tid) (r : Thread) : Sched :=
  { s with thread := Function.update s.thread t r }

/-- `thread->stat = stat`. -/
def setStat (s : Sched) (t : Tid) (stat : BitVec 8) : Sched :=
  s.setThread t { s.thread t with stat }

end Sched

/-- `__lowest_bit_bitmap`. -/
def lowestBitBitmap : List Nat := [
  0, 0, 1, 0, 2, 0, 1, 0, 3, 0, 1, 0, 2, 0, 1, 0,
  4, 0, 1, 0, 2, 0, 1, 0, 3, 0, 1, 0, 2, 0, 1, 0,
  5, 0, 1, 0, 2, 0, 1, 0, 3, 0, 1, 0, 2, 0, 1, 0,
  4, 0, 1, 0, 2, 0, 1, 0, 3, 0, 1, 0, 2, 0, 1, 0,
  6, 0, 1, 0, 2, 0, 1, 0, 3, 0, 1, 0, 2, 0, 1, 0,
  4, 0, 1, 0, 2, 0, 1, 0, 3, 0, 1, 0, 2, 0, 1, 0,
  5, 0, 1, 0, 2, 0, 1, 0, 3, 0, 1, 0, 2, 0, 1, 0,
  4, 0, 1, 0, 2, 0, 1, 0, 3, 0, 1, 0, 2, 0, 1, 0,
  7, 0, 1, 0, 2, 0, 1, 0, 3, 0, 1, 0, 2, 0, 1, 0,
  4, 0, 1, 0, 2, 0, 1, 0, 3, 0, 1, 0, 2, 0, 1, 0,
  5, 0, 1, 0, 2, 0, 1, 0, 3, 0, 1, 0, 2, 0, 1, 0,
  4, 0, 1, 0, 2, 0, 1, 0, 3, 0, 1, 0, 2, 0, 1, 0,
  6, 0, 1, 0, 2, 0, 1, 0, 3, 0, 1, 0, 2, 0, 1, 0,
  4, 0, 1, 0, 2, 0, 1, 0, 3, 0, 1, 0, 2, 0, 1, 0,
  5, 0, 1, 0, 2, 0, 1, 0, 3, 0, 1, 0, 2, 0, 1, 0,
  4, 0, 1, 0, 2, 0, 1, 0, 3, 0, 1, 0, 2, 0, 1, 0]

/-- `__sk_ffs`. -/
def skFfs (value : BitVec 32) : Nat :=
  if value = 0 then 0
  else if value &&& 0xff ≠ 0 then
    lowestBitBitmap.getD (value &&& 0xff).toNat 0 + 1
  else if value &&& 0xff00 ≠ 0 then
    lowestBitBitmap.getD ((value &&& 0xff00) >>> 8).toNat 0 + 9
  else if value &&& 0xff0000 ≠ 0 then
    lowestBitBitmap.getD ((value &&& 0xff0000) >>> 16).toNat 0 + 17
  else
    -- `0xff000000` is unsigned, so this shift brings in no copies of the sign
    lowestBitBitmap.getD ((value &&& 0xff000000) >>> 24).toNat 0 + 25

/-- `__schedule_get_hp_thread`: the thread and its priority. -/
def scheduleGetHpThread (s : Sched) : Option (Tid × Nat) :=
  match skFfs s.readyPrioGroup with
  | 0 => none
  | readyPrio + 1 =>
    match s.links.next (.head (.prio readyPrio)) with
    | .tlist t => some (t, readyPrio)
    | .head _ => none

/-- `sk_schedule_remove_thread`. -/
def skScheduleRemoveThread (s : Sched) (thread : Tid) : Sched :=
  let s := { s with links := skListDel s.links (.tlist thread) }
  let r := s.thread thread
  if skListEmpty s.links (.head (.prio r.currentPri)) then
    { s with readyPrioGroup := s.readyPrioGroup &&& ~~~r.numberMask }
  else s

/-- `sk_schedule_insert_thread`. -/
def skScheduleInsertThread (s : Sched) (thread : Tid) : Sched :=
  if s.currentThread = some thread then
    s.setStat thread threadRunning
  else
    let s := s.setStat thread threadReady
    let r := s.thread thread
    { s with
      links := skListAddTail s.links (.head (.prio r.currentPri)) (.tlist thread)
      readyPrioGroup := s.readyPrioGroup ||| r.numberMask }

/-- `sk_system_scheduler_init`. -/
def skSystemSchedulerInit (s : Sched) : Sched :=
  { s with
    links := (List.range threadPriorityMax).foldl
      (fun L index => skListInit L (.head (.prio index))) s.links
    readyPrioGroup := 0 }

/-- The part of `sk_schedule` that switches from `fromThread` to `toThread`. -/
def scheduleSwitch (s : Sched) (fromThread toThread : Tid) : Sched :=
  let s := { s with currentThread := some toThread }
  -- insert thread to ready list
  let stat := (s.thread fromThread).stat
  let s := if stat ≠ threadSuspend ∧ stat ≠ threadClose then
      skScheduleInsertThread s fromThread
    else s
  let s := s.setStat toThread ((s.thread toThread).stat &&& ~~~threadYield)
  -- remove thread from ready list, change thread status
  let s := skScheduleRemoveThread s toThread
  s.setStat toThread threadRunning

/-- `sk_schedule`. -/
def skSchedule (s : Sched) : Option Sched :=
  if s.readyPrioGroup ≠ 0 then
    match s.currentThread, scheduleGetHpThread s with
    | some current, some (hp, readyHpPrio) =>
      let r := s.thread current
      let toThread :=
        if r.stat = threadRunning ∧ r.currentPri ≤ readyHpPrio then current else hp
      some (if current ≠ toThread then scheduleSwitch s current toThread else s)
    | _, _ => none
  else some s

/-- `sk_system_scheduler_start`. -/
def skSystemSchedulerStart (s : Sched) : Option Sched :=
  match scheduleGetHpThread s with
  | some (toThread, _) =>
    let s := { s with currentThread := some toThread }
    some ((skScheduleRemoveThread s toThread).setStat toThread threadRunning)
  | none => none

end SKernel.Native
