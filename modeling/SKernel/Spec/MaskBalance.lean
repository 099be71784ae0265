import SKernel.Spec.ScheduleCalls

/-!
# The interrupt mask across kernel calls

A call returns with the mask that it found, with three exceptions. Two calls have a return path
that forgets it. And a thread that makes a call with interrupts masked may give up the processor
in it: the context of the thread is restored with the mask in its SPSR, where it is clear. The data
of the kernel at the call say whether it does.

## Key results

- `KernelCall.exec_cases`: what every call does to the mask
- `mask_balance`: when a call returns with the mask at its entry
-/

namespace SKernel.Spec

open Native Option

variable {σ α β : Type} {c c' : Cpu σ}

/-! ## The calls -/

/-- The calls of the scheduler, the threads, the timers and the IPC objects. -/
inductive KernelCall where
  | schedule
  | insertThread (thread : Tid)
  | removeThread (thread : Tid)
  | suspend (thread : Tid)
  | theadSuspend (thread : Tid)
  | resume (thread : Tid)
  | sleep (tick : Nat)
  | threadTimeout (thread : Tid)
  | timerCreate (name : List (BitVec 8)) (tick : Nat) (flag : BitVec 8)
  | timerInit (fuel : Nat) (timer : TimerRef) (name : List (BitVec 8)) (tick : Nat)
      (flag : BitVec 8)
  | timerDelete (timer : TimerRef)
  | timerStart (timer : TimerRef)
  | timerStop (timer : TimerRef)
  | timerControl (timer : TimerRef) (cmd : TimerCtrl)
  | timerCheck (fuel : Nat)
  | tickIncrease (fuel : Nat)
  | semWait (fuel sem : Nat) (time : Int)
  | semTrywait (fuel sem : Nat)
  | semPost (sem : Nat)
  | mutexLock (fuel mutex : Nat) (time : Int)
  | mutexTrylock (fuel mutex : Nat)
  | mutexUnlock (mutex : Nat)
  | eventSend (event : Nat) (set : BitVec 16) (needSchedule : Bool)
  | eventRecv (fuel event : Nat) (set : BitVec 32) (option : BitVec 8) (timeout : Int)
  | mailboxSendWait (fuel mb : Nat) (value : BitVec 64) (timeout : Int)
  | mailboxSend (fuel mb : Nat) (value : BitVec 64)
  | mailboxRecv (fuel mb : Nat) (timeout : Int)
  | msgQueueSendWait (mq : Nat) (buffer : List UInt8) (timeout : Int)
  | msgQueueSend (mq : Nat) (buffer : List UInt8)
  | msgQueueRecv (fuel mq size : Nat) (timeout : Int)

/-- Run some code and drop its result. -/
def dropResult (x : KernM σ α) : KernM σ Unit := x >>= fun _ => pure ()

/-- The call, without its result. `timeoutFunc` gives the timeout function of each timer. -/
def KernelCall.exec (A : Allocator σ) (timeoutFunc : Tid → KernM σ Unit) :
    KernelCall → KernM σ Unit
  | .schedule => dropResult Call.skSchedule
  | .insertThread thread => dropResult (Call.skScheduleInsertThread thread)
  | .removeThread thread => dropResult (Call.skScheduleRemoveThread thread)
  | .suspend thread => dropResult (Call.skThreadSuspend thread)
  | .theadSuspend thread => dropResult (Call.skTheadSuspend thread)
  | .resume thread => dropResult (Call.skThreadResume thread)
  | .sleep tick => dropResult (Call.skThreadSleep tick)
  | .threadTimeout thread => dropResult (Call.skThreadTimeout thread)
  | .timerCreate name tick flag => dropResult (Call.skTimerCreate A name tick flag)
  | .timerInit fuel timer name tick flag =>
    dropResult (Call.skTimerInit fuel timer name tick flag)
  | .timerDelete timer => dropResult (Call.skTimerDelete A timer)
  | .timerStart timer => dropResult (Call.skTimerStart timer)
  | .timerStop timer => dropResult (Call.skTimerStop timer)
  | .timerControl timer cmd => dropResult (Call.skTimerControl timer cmd)
  | .timerCheck fuel => dropResult (Call.skTimerCheck timeoutFunc fuel)
  | .tickIncrease fuel => dropResult (Call.skTickIncrease timeoutFunc fuel)
  | .semWait fuel sem time => dropResult (Call.skSemWait fuel sem time)
  | .semTrywait fuel sem => dropResult (Call.skSemTrywait fuel sem)
  | .semPost sem => dropResult (Call.skSemPost sem)
  | .mutexLock fuel mutex time => dropResult (Call.skMutexLock fuel mutex time)
  | .mutexTrylock fuel mutex => dropResult (Call.skMutexTrylock fuel mutex)
  | .mutexUnlock mutex => dropResult (Call.skMutexUnlock mutex)
  | .eventSend event set needSchedule => dropResult (Call.skEventSend event set needSchedule)
  | .eventRecv fuel event set option timeout =>
    dropResult (Call.skEventRecv fuel event set option timeout)
  | .mailboxSendWait fuel mb value timeout =>
    dropResult (Call.skMailboxSendWait fuel mb value timeout)
  | .mailboxSend fuel mb value => dropResult (Call.skMailboxSend fuel mb value)
  | .mailboxRecv fuel mb timeout => dropResult (Call.skMailboxRecv fuel mb timeout)
  | .msgQueueSendWait mq buffer timeout => dropResult (Call.skMsgQueueSendWait mq buffer timeout)
  | .msgQueueSend mq buffer => dropResult (Call.skMsgQueueSend mq buffer)
  | .msgQueueRecv fuel mq size timeout => dropResult (Call.skMsgQueueRecv fuel mq size timeout)

/-- The call takes a return path that does not restore the mask. -/
def Forgets (c : Cpu σ) : KernelCall → Prop
  | .insertThread thread => c.sched.currentThread = some thread
  | .theadSuspend thread => FindsRunning c thread
  | _ => False

/-- The states in which a call that a thread makes with interrupts masked calls `sk_schedule`, one
    after the other until one of them selects another thread. -/
def KernelCall.scheduleCalls (T : Timeouts σ) (d : KernelData σ) : KernelCall → List Sched
  | .schedule => (Outline.schedule d).calls
  | .sleep tick => (Outline.ofSection .ofEnd (threadSleepSection tick d)).calls
  | .threadTimeout thread => (threadTimeouts thread d).calls
  | .timerCheck fuel => (timerCheckOutline T fuel d).calls
  | .tickIncrease fuel => (tickOutline T fuel d).calls
  | .semWait fuel sem time => (Outline.ofSection .ofEnd (semWaitSection fuel sem time d)).calls
  | .semTrywait fuel sem => (Outline.ofSection .ofEnd (semWaitSection fuel sem 0 d)).calls
  | .semPost sem => (Outline.ofSection .ofEnd (semPostSection sem d)).calls
  | .mutexLock fuel mutex time =>
    (Outline.ofSection .ofEnd (mutexLockSection fuel mutex time d)).calls
  | .mutexTrylock fuel mutex =>
    (Outline.ofSection .ofEnd (mutexLockSection fuel mutex 0 d)).calls
  | .mutexUnlock mutex => (Outline.ofSection .ofEnd (mutexUnlockSection mutex d)).calls
  | .eventSend event set needSchedule => (eventSendOutline event set needSchedule d).calls
  | .eventRecv fuel event set option timeout =>
    (eventRecvOutline fuel event set option timeout d).calls
  | .mailboxSendWait fuel mb value timeout =>
    (Outline.ofSection (.ofSegEnd (mailboxSendRestOutline mb value))
      (mailboxSendSection fuel mb value timeout d)).calls
  | .mailboxSend fuel mb value =>
    (Outline.ofSection (.ofSegEnd (mailboxSendRestOutline mb value))
      (mailboxSendSection fuel mb value 0 d)).calls
  | .mailboxRecv fuel mb timeout =>
    (Outline.ofSection (fun r => .ofSegEnd (mailboxRecvRestOutline mb) r.1)
      (mailboxRecvSection fuel mb timeout d)).calls
  | .msgQueueSendWait mq buffer timeout => (msgQueueSendOutline mq buffer timeout d).calls
  | .msgQueueSend mq buffer => (msgQueueSendOutline mq buffer 0 d).calls
  | .msgQueueRecv fuel mq _ timeout =>
    (Outline.ofSection (msgQueueRecvTail mq) (msgQueueRecvSection fuel mq timeout d)).calls
  | .insertThread _ | .removeThread _ | .suspend _ | .theadSuspend _ | .resume _
  | .timerCreate .. | .timerInit .. | .timerDelete _ | .timerStart _ | .timerStop _
  | .timerControl .. => []

/-! ## Every call -/

/-- The code restores the mask, and when a thread runs it with interrupts masked it gives up the
    processor if one of these calls of `sk_schedule` selects another thread. -/
structure Described (x : KernM σ Unit) (calls : KernelData σ → List Sched) : Prop where
  restores : RestoresMask x
  switches_iff : ∀ {c c' : Cpu σ}, InSection c → x c = some ((), c') →
    (c.switches < c'.switches ↔ ∃ s ∈ calls c.data, SelectsOther s)

namespace Described

variable {x : KernM σ α}

theorem follows {o : KernelData σ → Outline σ} (hr : RestoresMask x) (hf : Follows x o) :
    Described (dropResult x) fun d => (o d).calls where
  restores := hr.bind fun _ => .pure _
  switches_iff hc hrun := ((hf _ hc).map fun _ => ()).switches_iff hrun

theorem critical {sec : KernelData σ → Option (CallEnd × KernelData σ)} {x : KernM σ SkErr}
    (h : x = critical sec) :
    Described (dropResult x) fun d => (Outline.ofSection .ofEnd (sec d)).calls :=
  follows (h ▸ .critical sec) (h ▸ .critical sec)

theorem quiet (h : ∀ q, Restores q x) : Described (dropResult x) fun _ => [] where
  restores := (h False).bind fun _ => .pure _
  switches_iff {c c'} hc hrun := by
    have hret := ((h True).bind fun _ => .pure ()) c () c' ⟨hc.spsr, .inl hc.daif⟩ hrun
    simp [hret.same trivial]

end Described

section

variable (A : Allocator σ) {timeoutFunc : Tid → KernM σ Unit} {T : Timeouts σ}
  (h : ∀ i, RestoresMask (timeoutFunc i)) (hT : ∀ i, Follows (timeoutFunc i) (T i))
include h hT

theorem KernelCall.described (call : KernelCall) (hinsert : ∀ thread, call ≠ .insertThread thread)
    (hthead : ∀ thread, call ≠ .theadSuspend thread) :
    Described (call.exec A timeoutFunc) fun d => call.scheduleCalls T d := by
  cases call with
  | insertThread thread => exact absurd rfl (hinsert thread)
  | theadSuspend thread => exact absurd rfl (hthead thread)
  -- these do not call `sk_schedule`
  | removeThread => exact .quiet fun _ => .skScheduleRemoveThread
  | suspend => exact .quiet fun _ => .skThreadSuspend
  | resume => exact .quiet fun _ => .skThreadResume
  | timerCreate => exact .quiet fun _ => .skTimerCreate
  | timerInit => exact .quiet fun _ => .skTimerInit
  | timerDelete => exact .quiet fun _ => .skTimerDelete
  | timerStart => exact .quiet fun _ => .skTimerStart
  | timerStop => exact .quiet fun _ => .skTimerStop
  | timerControl => exact .quiet fun _ => .skTimerControl
  -- one critical section
  | sleep => exact .critical skThreadSleep_eq
  | semWait | semTrywait => exact .critical skSemWait_eq
  | semPost => exact .critical skSemPost_eq
  | mutexLock | mutexTrylock => exact .critical skMutexLock_eq
  | mutexUnlock => exact .critical skMutexUnlock_eq
  -- several parts
  | schedule => exact .follows .skSchedule .skSchedule
  | threadTimeout => exact .follows .skThreadTimeout .skThreadTimeout
  | timerCheck => exact .follows (.skTimerCheck h) (.skTimerCheck h hT _)
  | tickIncrease => exact .follows (.skTickIncrease h) (.skTickIncrease h hT)
  | eventSend => exact .follows .skEventSend .skEventSend
  | eventRecv => exact .follows .skEventRecv .skEventRecv
  | mailboxSendWait | mailboxSend => exact .follows .skMailboxSendWait .skMailboxSendWait
  | mailboxRecv => exact .follows .skMailboxRecv .skMailboxRecv
  | msgQueueSendWait | msgQueueSend => exact .follows .skMsgQueueSendWait .skMsgQueueSendWait
  | msgQueueRecv => exact .follows .skMsgQueueRecv .skMsgQueueRecv

/-- Every call restores the mask or takes a path that forgets it, and when a thread makes it with
    interrupts masked the data tell whether it gives up the processor. -/
theorem KernelCall.exec_cases (hc : Sane c) (call : KernelCall)
    (hrun : call.exec A timeoutFunc c = some ((), c')) :
    ((Forgets c call ∧ Masked c c') ∨ (¬Forgets c call ∧ Returned False c c')) ∧
      (InSection c →
        (c.switches < c'.switches ↔ ∃ s ∈ call.scheduleCalls T c.data, SelectsOther s)) := by
  -- the two calls that may forget the mask do not call `sk_schedule`
  have hnone : c'.switches = c.switches →
      (c.switches < c'.switches ↔ ∃ s ∈ ([] : List Sched), SelectsOther s) := by
    intro hsame
    simp [hsame]
  have hquiet : Returned True c c' → Returned False c c' ∧ c'.switches = c.switches := fun hr =>
    ⟨⟨hr.nest, hr.spsr, hr.count, hr.daif, False.elim⟩, hr.same trivial⟩
  by_cases hinsert : ∃ thread, call = .insertThread thread
  · obtain ⟨thread, rfl⟩ := hinsert
    obtain ⟨⟨u, c1⟩, hins, hend⟩ := bind_eq_some_iff.mp hrun
    cases hend
    by_cases hcur : c.sched.currentThread = some thread
    · have hm := skScheduleInsertThread_current hcur hins
      exact ⟨.inl ⟨hcur, hm⟩, fun _ => hnone hm.switches⟩
    · obtain ⟨hr, hsame⟩ := hquiet (skScheduleInsertThread_other hc hcur hins)
      exact ⟨.inr ⟨hcur, hr⟩, fun _ => hnone hsame⟩
  by_cases hthead : ∃ thread, call = .theadSuspend thread
  · obtain ⟨thread, rfl⟩ := hthead
    obtain ⟨⟨code, c1⟩, hsus, hend⟩ := bind_eq_some_iff.mp hrun
    cases hend
    have hcases := skTheadSuspend_cases (q := True) hc hsus
    split at hcases
    · exact ⟨.inl ⟨‹_›, hcases⟩, fun _ => hnone hcases.switches⟩
    · obtain ⟨hr, hsame⟩ := hquiet hcases
      exact ⟨.inr ⟨‹_›, hr⟩, fun _ => hnone hsame⟩
  · have hinsert' : ∀ thread, call ≠ .insertThread thread := fun t ht => hinsert ⟨t, ht⟩
    have hthead' : ∀ thread, call ≠ .theadSuspend thread := fun t ht => hthead ⟨t, ht⟩
    have hno : ¬Forgets c call := by
      cases call with
      | insertThread thread => exact absurd rfl (hinsert' thread)
      | theadSuspend thread => exact absurd rfl (hthead' thread)
      | _ => exact not_false
    have hdesc := call.described A h hT hinsert' hthead'
    exact ⟨.inr ⟨hno, hdesc.restores c () c' hc hrun⟩, fun hsec => hdesc.switches_iff hsec hrun⟩

end

/-! ## Runs of a thread -/

/-- A thread makes a call, works on the data, or masks and unmasks interrupts; an interrupt is
    taken, and the handler does the same until it returns. -/
inductive MaskEvent (σ : Type) where
  | call (call : KernelCall)
  | work (data : KernelData σ)
  | disable
  | enable (level : Daif)
  | irqEnter
  | irqLeave

/-- One event. A level is one that `hw_interrupt_disable` can have returned. -/
def maskStep (A : Allocator σ) (timeoutFunc : Tid → KernM σ Unit) (c : Cpu σ) :
    MaskEvent σ → Option (Cpu σ)
  | .call call => (call.exec A timeoutFunc c).map Prod.snd
  | .work data => some { c with data := data }
  | .disable => (hwInterruptDisable c).map Prod.snd
  | .enable level =>
    if level = .masked ∨ level = .unmasked then (hwInterruptEnable level c).map Prod.snd else none
  | .irqEnter => if c.daif.i = false then some (irqEntry c) else none
  | .irqLeave =>
    if c.skIsInInterrupt then
      some ({ c with interruptNest := (c.interruptNest + (2 ^ 8 - 1)) % 2 ^ 8 }.restoreContext
        c.saveContext)
    else none

/-- A thread from its start on, with the mask of `INITIAL_SPSR_EL1`. -/
def maskSystem (A : Allocator σ) (timeoutFunc : Tid → KernM σ Unit) :
    TransitionSystem (Cpu σ) (MaskEvent σ) where
  init c := c.daif = .unmasked ∧ c.spsr = .unmasked ∧ c.interruptNest = 0
  step := maskStep A timeoutFunc

theorem Sane.masked (hc : Sane c) (h : Masked c c') : Sane c' :=
  ⟨h.spsr.trans hc.1, .inl h.daif⟩

section

variable {A : Allocator σ} {timeoutFunc : Tid → KernM σ Unit} {T : Timeouts σ}
  (h : ∀ i, RestoresMask (timeoutFunc i)) (hT : ∀ i, Follows (timeoutFunc i) (T i))
include h hT

theorem Sane.step (hc : Sane c) (e : MaskEvent σ)
    (hstep : maskStep A timeoutFunc c e = some c') : Sane c' := by
  cases e with
  | call call =>
    obtain ⟨⟨u, c1⟩, hrun, rfl⟩ := map_eq_some_iff.mp hstep
    obtain ⟨-, hm⟩ | ⟨-, hr⟩ := (call.exec_cases A h hT hc hrun).1
    · exact hc.masked hm
    · exact hc.returned hr
  | work data =>
    cases hstep
    exact hc
  | disable =>
    dsimp only [maskStep] at hstep
    rw [disable_eq] at hstep
    cases hstep
    exact hc.masked (maskNow_masked c)
  | enable level =>
    dsimp only [maskStep] at hstep
    split at hstep
    · rename_i hlevel
      obtain rfl | rfl := hlevel
      · cases hstep
        exact hc
      · cases hstep
        exact ⟨hc.1, .inr rfl⟩
    · cases hstep
  | irqEnter =>
    dsimp only [maskStep] at hstep
    obtain ⟨hi, hstep⟩ := ite_none_right_eq_some.mp hstep
    cases hstep
    -- an interrupt is only taken when the mask is clear
    have hdaif : c.daif = .unmasked := by
      obtain hm | hu := hc.2
      · rw [hm] at hi
        cases hi
      · exact hu
    exact ⟨hdaif, .inl rfl⟩
  | irqLeave =>
    dsimp only [maskStep] at hstep
    split at hstep
    · cases hstep
      exact ⟨hc.1, .inr hc.1⟩
    · cases hstep

theorem Sane.of_reach (hc : (maskSystem A timeoutFunc).Reach (fun _ _ => True) c) : Sane c := by
  refine hc.invariant (fun _ hinit => ⟨hinit.2.1, .inr hinit.1⟩) ?_
  exact fun _ e _ hs _ hstep => Sane.step h hT hs e hstep

end

/-- **Interrupt-mask balance.** In every state that a thread or a handler can reach, a call that
    returns does so with the mask at its entry, except that the mask is left set by
    `sk_schedule_insert_thread` of the current thread and by `sk_thead_suspend` of the running
    thread, and that it is left clear by a call that a thread makes with interrupts masked when one
    of its calls of `sk_schedule` selects another thread. -/
theorem mask_balance (A : Allocator σ) {timeoutFunc : Tid → KernM σ Unit} {T : Timeouts σ}
    (h : ∀ i, RestoresMask (timeoutFunc i)) (hT : ∀ i, Follows (timeoutFunc i) (T i))
    {c c' : Cpu σ} (hc : (maskSystem A timeoutFunc).Reach (fun _ _ => True) c) (call : KernelCall)
    (hrun : call.exec A timeoutFunc c = some ((), c')) :
    c'.daif = c.daif ↔
      ¬(c.daif = .unmasked ∧ Forgets c call) ∧
        ¬(c.daif = .masked ∧ c.interruptNest = 0 ∧
          ∃ s ∈ call.scheduleCalls T c.data, SelectsOther s) := by
  have hsane := Sane.of_reach h hT hc
  have hne : Daif.masked ≠ .unmasked := by decide
  obtain ⟨hcases, hswitch⟩ := call.exec_cases A h hT hsane hrun
  -- the third case, by what the call has done
  have hthird : (c.daif = .masked ∧ c.interruptNest = 0 ∧
      ∃ s ∈ call.scheduleCalls T c.data, SelectsOther s) ↔
      c.daif = .masked ∧ c.interruptNest = 0 ∧ c.switches < c'.switches :=
    and_congr_right fun hmask => and_congr_right fun hnest =>
      (hswitch ⟨hmask, hnest, hsane.1⟩).symm
  rw [hthird]
  obtain ⟨hf, hm⟩ | ⟨hf, hr⟩ := hcases
  · -- interrupts stay masked
    have hcount := hm.switches
    rw [hm.daif]
    obtain hd | hd := hsane.2
    · rw [hd]
      simp only [hne, false_and, not_false_eq_true, true_and, true_iff]
      omega
    · rw [hd]
      simp only [hne, hf, and_self, not_true_eq_false, false_and]
  · rw [hr.daif]
    obtain hd | hd := hsane.2
    · rw [hd]
      by_cases hsw : c.interruptNest = 0 ∧ c.switches < c'.switches
      · rw [if_pos hsw]
        simp only [hne.symm, hsw, and_self, not_true_eq_false, and_false]
      · rw [if_neg hsw]
        simp only [hne, false_and, not_false_eq_true, true_and, hsw, not_false_eq_true]
    · rw [hd, ite_self]
      simp only [hf, and_false, not_false_eq_true, hne.symm, false_and, and_self]

/-- A heap that is never used. -/
def unusedHeap : Allocator Unit := ⟨fun _ _ => none, fun _ _ => none⟩

/-- The timers of the threads. -/
def threadTimers : Tid → KernM Unit Unit := Call.skThreadTimeout

theorem reach_firstCpu (k : Kernel) :
    (maskSystem unusedHeap threadTimers).Reach (fun _ _ => True) (firstCpu k) :=
  .init ⟨rfl, rfl, rfl⟩

theorem exec_of_test (call : KernelCall) (c : Cpu Unit) (p : Cpu Unit → Bool)
    (h : (call.exec unusedHeap threadTimers c).map (fun r => p r.2) = some true) :
    ∃ c', call.exec unusedHeap threadTimers c = some ((), c') ∧ p c' = true := by
  obtain ⟨⟨u, c'⟩, hrun, hp⟩ := map_eq_some_iff.mp h
  exact ⟨c', hrun, hp⟩

theorem reach_mask (k : Kernel) :
    (maskSystem unusedHeap threadTimers).Reach (fun _ _ => True) (maskNow (firstCpu k)) := by
  refine (reach_firstCpu k).step .disable trivial ?_
  show (hwInterruptDisable _).map Prod.snd = _
  rw [disable_eq]
  rfl

/-- Thread 1 goes to sleep and comes back with the mask it had. With interrupts masked it keeps the
    mask when `sk_schedule` leaves the processor to it, and loses the mask when it goes to sleep. -/
theorem mask_balance_sleep :
    (∃ c', (KernelCall.sleep 3).exec unusedHeap threadTimers (firstCpu (startedKernel 5)) =
        some ((), c') ∧ c'.switches = 1 ∧ c'.daif = .unmasked) ∧
    (∃ c', (KernelCall.schedule).exec unusedHeap threadTimers
        (maskNow (firstCpu (startedKernel 5))) = some ((), c') ∧ c'.daif = .masked) ∧
    ∃ c', (KernelCall.sleep 3).exec unusedHeap threadTimers
        (maskNow (firstCpu (startedKernel 5))) = some ((), c') ∧ c'.daif ≠ .masked := by
  have hrestore : ∀ i, RestoresMask (threadTimers i) := fun _ => .skThreadTimeout
  have hlines : ∀ i, Follows (threadTimers i) (threadTimeouts i) := fun _ => .skThreadTimeout
  refine ⟨?_, ?_, ?_⟩
  · obtain ⟨c', hrun, hsw⟩ := exec_of_test (.sleep 3) (firstCpu (startedKernel 5))
      (fun c' => c'.switches = 1) (by decide +kernel)
    refine ⟨c', hrun, of_decide_eq_true hsw, ?_⟩
    have hiff := mask_balance unusedHeap hrestore hlines (reach_firstCpu _) _ hrun
    exact hiff.mpr ⟨fun h => h.2, fun h => absurd h.1 (by decide)⟩
  · obtain ⟨c', hrun, -⟩ := exec_of_test .schedule (maskNow (firstCpu (startedKernel 5)))
      (fun _ => true) (by decide +kernel)
    have hiff := mask_balance unusedHeap hrestore hlines (reach_mask _) _ hrun
    exact ⟨c', hrun, hiff.mpr ⟨fun h => h.2, fun h => absurd h.2.2 (by decide +kernel)⟩⟩
  · obtain ⟨c', hrun, -⟩ := exec_of_test (.sleep 3) (maskNow (firstCpu (startedKernel 5)))
      (fun _ => true) (by decide +kernel)
    have hiff := mask_balance unusedHeap hrestore hlines (reach_mask _) _ hrun
    exact ⟨c', hrun, fun hd => (hiff.mp hd).2 ⟨rfl, rfl, by decide +kernel⟩⟩

/-- The two return paths that forget the mask, and a thread that goes to sleep with interrupts
    masked. -/
theorem mask_balance_fails :
    (∃ c c' : Cpu Unit, (maskSystem unusedHeap threadTimers).Reach (fun _ _ => True) c ∧
      (KernelCall.theadSuspend 1).exec unusedHeap threadTimers c = some ((), c') ∧
      c.daif = .unmasked ∧ c'.daif = .masked) ∧
    (∃ c c' : Cpu Unit, (maskSystem unusedHeap threadTimers).Reach (fun _ _ => True) c ∧
      (KernelCall.insertThread 1).exec unusedHeap threadTimers c = some ((), c') ∧
      c.daif = .unmasked ∧ c'.daif = .masked) ∧
    (∃ c c' : Cpu Unit, (maskSystem unusedHeap threadTimers).Reach (fun _ _ => True) c ∧
      (KernelCall.sleep 3).exec unusedHeap threadTimers c = some ((), c') ∧
      c.daif = .masked ∧ c'.daif = .unmasked) := by
  refine ⟨?_, ?_, ?_⟩
  · obtain ⟨c', hrun, hd⟩ := exec_of_test (.theadSuspend 1)
      (firstCpu (startedKernel 5)) (fun c' => c'.daif = .masked) (by decide +kernel)
    exact ⟨_, c', reach_firstCpu _, hrun, rfl, of_decide_eq_true hd⟩
  · obtain ⟨c', hrun, hd⟩ := exec_of_test (.insertThread 1)
      (firstCpu (startedKernel 5)) (fun c' => c'.daif = .masked) (by decide +kernel)
    exact ⟨_, c', reach_firstCpu _, hrun, rfl, of_decide_eq_true hd⟩
  · obtain ⟨c', hrun, hd⟩ := exec_of_test (.sleep 3)
      (maskNow (firstCpu (startedKernel 5))) (fun c' => c'.daif = .unmasked)
      (by decide +kernel)
    exact ⟨_, c', reach_mask _, hrun, rfl, of_decide_eq_true hd⟩

end SKernel.Spec
