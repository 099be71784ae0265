import SKernel.Native.Mailbox
import SKernel.Native.MsgQueue
import SKernel.Spec.EventCorrect
import SKernel.Spec.MutexCorrect
import SKernel.Spec.SemaphoreWaiters

/-!
# What the IPC calls do to the threads

The calls of semaphores, mutexes, events, mailboxes and message queues, each up to the point where
it enables interrupts again. Whatever the state of the object is, a call leaves the threads alone,
blocks the current thread on a wait list, or resumes the first thread of a wait list.

## Key results

- `IpcCall.run_cases`: every call does one of the three
-/

namespace SKernel.Spec

open Native ByteMem Option

/-- The calls that block or resume threads, each up to the point where it enables interrupts
    again, on an object in any state. The object's wait lists are given by their numbers. -/
inductive IpcCall where
  | semWait (sem : Sem) (o : Nat) (time : Int)
  | semPost (sem : Sem) (o : Nat)
  | mutexLock (mutex : Mutex) (o : Nat) (time : Int)
  | mutexUnlock (mutex : Mutex) (o : Nat)
  | eventRecv (event : Event) (wait : Tid → EventWait) (o : Nat) (set : BitVec 32)
      (option : BitVec 8) (timeout : Int)
  | eventSend (event : Event) (wait : Tid → EventWait) (o : Nat) (set : BitVec 16)
      (needSchedule : Bool)
  | mailboxSend (mb : Mailbox) (mem : Mem) (receivers senders : Nat) (value : BitVec 64)
      (timeout : Int)
  | mailboxSendRest (mb : Mailbox) (mem : Mem) (receivers : Nat) (value : BitVec 64)
  | mailboxRecv (mb : Mailbox) (mem : Mem) (receivers : Nat) (timeout : Int)
  | mailboxRecvRest (mb : Mailbox) (mem : Mem) (receivers : Nat)
  | msgQueueSend (mq : MsgQueue) (mem : Mem) (receivers msg : Nat)
  | msgQueueRecv (mq : MsgQueue) (mem : Mem) (receivers : Nat) (timeout : Int)
  | msgQueueRecvFree (mq : MsgQueue) (mem : Mem) (receivers msg : Nat)

namespace IpcCall

/-- The state of the kernel after a call. -/
def run (fuel : Nat) (k : Kernel) : IpcCall → Option Kernel
  | semWait sem o time => (skSemWait fuel k sem (.wait o) time).map (·.2.1)
  | semPost sem o => (skSemPost k sem (.wait o)).map (·.2.1)
  | mutexLock mutex o time => (skMutexLock fuel k mutex (.wait o) time).map (·.2.1)
  | mutexUnlock mutex o => (skMutexUnlock k mutex (.wait o)).map (·.2.1)
  | eventRecv event wait o set option timeout =>
    (skEventRecv fuel k event wait (.wait o) set option timeout).map (·.2.1)
  | eventSend event wait o set needSchedule =>
    (skEventSend k event wait (.wait o) set needSchedule).map (·.2.1)
  | mailboxSend mb mem receivers senders value timeout =>
    (skMailboxSendWait fuel k mb mem (.wait receivers) (.wait senders) value timeout).map (·.2.1)
  | mailboxSendRest mb mem receivers value =>
    (Native.mailboxSendRest k mb mem (.wait receivers) value).map (·.2.1)
  | mailboxRecv mb mem receivers timeout =>
    (skMailboxRecv fuel k mb mem (.wait receivers) timeout).map (·.2.2.1)
  | mailboxRecvRest mb mem receivers =>
    (Native.mailboxRecvRest k mb mem (.wait receivers)).map (·.2.2.1)
  | msgQueueSend mq mem receivers msg =>
    (msgQueueSendLink k mq mem (.wait receivers) msg).map (·.2.1)
  | msgQueueRecv mq mem receivers timeout =>
    (msgQueueRecvBegin fuel k mq mem (.wait receivers) timeout).map fun
      | .block k => k
      | .ret _ | .took _ _ => k
  | msgQueueRecvFree mq mem receivers msg =>
    (Native.msgQueueRecvFree k mq mem (.wait receivers) msg).map (·.2.1)

/-- The timeout of a call that may block. -/
def timeout? : IpcCall → Option Int
  | semWait _ _ time | mutexLock _ _ time | eventRecv _ _ _ _ _ time
  | mailboxSend _ _ _ _ _ time | mailboxRecv _ _ _ time | msgQueueRecv _ _ _ time => some time
  | semPost .. | mutexUnlock .. | eventSend .. | mailboxSendRest .. | mailboxRecvRest ..
  | msgQueueSend .. | msgQueueRecvFree .. => none

variable {k k' : Kernel} {fuel : Nat} {mutex : Mutex} {r : CallEnd × Kernel × Mutex} {event : Event}
variable {wait : Tid → EventWait} {mb : Mailbox} {mem : Mem}

/-- The threads are left alone, the current one blocks, or the first one of a wait list is
    resumed. -/
def Does (k k' : Kernel) (fuel : Nat) (timeout : Option Int) : Prop :=
  k' = k ∨
  (∃ o flag time, timeout = some time ∧ ipcBlock fuel k (.wait o) flag time = some k') ∨
  ∃ o t, ipcFirstThread k.sched (.wait o) = some t ∧ k' = (skThreadResume k t).2

variable {o : Nat} {timeout : Option Int}

private theorem ipcResumeFirst_does {e : CallEnd} (h : ipcResumeFirst k (.wait o) = some (e, k')) :
    Does k k' fuel timeout := by
  unfold ipcResumeFirst at h
  split at h
  · cases h
    exact .inl rfl
  · obtain ⟨t, ht, heq⟩ := map_eq_some_iff.mp h
    cases heq
    exact .inr (.inr ⟨o, t, ht, rfl⟩)

private theorem skMutexLock_does {time : Int} (h : skMutexLock fuel k mutex
    (.wait o) time = some r) : Does k r.2.1 fuel (some time) := by
  obtain ⟨e, k1, m⟩ := r
  cases hc : k.sched.currentThread with
  | none =>
    rw [skMutexLock, hc] at h
    cases h
  | some c =>
    cases skMutexLock_cases hc h with
    | relock | relockFull | take | takeFull | timeout => exact .inl rfl
    | block _ _ hblock => exact .inr (.inl ⟨o, _, time, rfl, hblock⟩)

private theorem skMutexUnlock_does (h : skMutexUnlock k mutex
    (.wait o) = some r) : Does k r.2.1 fuel none := by
  obtain ⟨e, k1, m⟩ := r
  cases hc : k.sched.currentThread with
  | none =>
    rw [skMutexUnlock, hc] at h
    cases h
  | some c =>
    cases skMutexUnlock_cases hc h with
    | notOwner | once | release => exact .inl rfl
    | handOver t _ _ _ hfirst => exact .inr (.inr ⟨o, t, hfirst, rfl⟩)

private theorem skEventRecv_does {set : BitVec 32} {option : BitVec 8} {timeout : Int}
    {r : CallEnd × Kernel × Event × (Tid → EventWait) × Option (BitVec 32)}
    (h : skEventRecv fuel k event wait (.wait o) set option timeout = some r) :
    Does k r.2.1 fuel (some timeout) := by
  cases hc : k.sched.currentThread with
  | none =>
    rw [skEventRecv, hc] at h
    split at h <;> cases h
    exact .inl rfl
  | some c =>
    cases recvOutcome hc h with
    | refused | received => exact .inl rfl
    | blocks _ _ _ hblock => exact .inr (.inl ⟨o, _, timeout, rfl, hblock⟩)

private theorem skEventSend_does {set : BitVec 16} {needSchedule : Bool}
    {r : CallEnd × Kernel × Event × (Tid → EventWait)}
    (h : skEventSend k event wait (.wait o) set needSchedule = some r) :
    Does k r.2.1 fuel none := by
  unfold skEventSend at h
  split at h
  · cases h
    exact .inl rfl
  · dsimp only at h
    split at h
    · cases h
      exact .inl rfl
    · obtain ⟨t, ht, rfl⟩ := map_eq_some_iff.mp h
      -- only a thread whose events have come is resumed
      split
      · exact .inl rfl
      · exact .inl rfl
      · exact .inr (.inr ⟨o, t, ht, rfl⟩)

private theorem mailboxSendRest_does {value : BitVec 64} {r : CallEnd × Kernel × Mailbox × Mem}
    (h : Native.mailboxSendRest k mb mem (.wait o) value = some r) :
    Does k r.2.1 fuel timeout := by
  unfold Native.mailboxSendRest at h
  split at h
  · cases h
    exact .inl rfl
  · dsimp only at h
    split at h
    · obtain ⟨⟨e, k1⟩, hresume, rfl⟩ := map_eq_some_iff.mp h
      exact ipcResumeFirst_does hresume
    · cases h
      exact .inl rfl

private theorem mailboxRecvRest_does {r : CallEnd × Option (BitVec 64) × Kernel × Mailbox}
    (h : Native.mailboxRecvRest k mb mem (.wait o) = some r) : Does k r.2.2.1 fuel timeout := by
  unfold Native.mailboxRecvRest at h
  split at h
  · cases h
    exact .inl rfl
  · obtain ⟨⟨e, k1⟩, hresume, rfl⟩ := map_eq_some_iff.mp h
    exact ipcResumeFirst_does hresume

theorem run_cases {call : IpcCall} (h : call.run fuel k = some k') :
    Does k k' fuel call.timeout? := by
  cases call with
  | semWait sem o time =>
    obtain ⟨r, hr, rfl⟩ := map_eq_some_iff.mp h
    rcases skSemWait_cases hr with ⟨-, rfl⟩ | ⟨-, rfl⟩ | ⟨-, k1, hblock, rfl⟩
    · exact .inl rfl
    · exact .inl rfl
    · exact .inr (.inl ⟨o, _, time, rfl, hblock⟩)
  | semPost sem o =>
    obtain ⟨r, hr, rfl⟩ := map_eq_some_iff.mp h
    rcases skSemPost_cases hr with ⟨-, -, rfl⟩ | ⟨-, rfl⟩ | ⟨t, ht, rfl⟩
    · exact .inl rfl
    · exact .inl rfl
    · exact .inr (.inr ⟨o, t, ht, rfl⟩)
  | mutexLock =>
    obtain ⟨r, hr, rfl⟩ := map_eq_some_iff.mp h
    exact skMutexLock_does hr
  | mutexUnlock mutex o =>
    obtain ⟨r, hr, rfl⟩ := map_eq_some_iff.mp h
    exact skMutexUnlock_does hr
  | eventRecv =>
    obtain ⟨r, hr, rfl⟩ := map_eq_some_iff.mp h
    exact skEventRecv_does hr
  | eventSend =>
    obtain ⟨r, hr, rfl⟩ := map_eq_some_iff.mp h
    exact skEventSend_does hr
  | mailboxSend mb mem receivers senders value timeout =>
    obtain ⟨r, hr, rfl⟩ := map_eq_some_iff.mp h
    unfold skMailboxSendWait at hr
    split at hr
    · cases hr
      exact .inl rfl
    · split at hr
      · obtain ⟨k1, hblock, rfl⟩ := map_eq_some_iff.mp hr
        exact .inr (.inl ⟨senders, _, timeout, rfl, hblock⟩)
      · obtain ⟨⟨e, r⟩, hrest, rfl⟩ := map_eq_some_iff.mp hr
        exact mailboxSendRest_does hrest
  | mailboxSendRest =>
    obtain ⟨r, hr, rfl⟩ := map_eq_some_iff.mp h
    exact mailboxSendRest_does hr
  | mailboxRecv mb mem receivers timeout =>
    obtain ⟨r, hr, rfl⟩ := map_eq_some_iff.mp h
    unfold skMailboxRecv at hr
    split at hr
    · cases hr
      exact .inl rfl
    · split at hr
      · obtain ⟨k1, hblock, rfl⟩ := map_eq_some_iff.mp hr
        exact .inr (.inl ⟨receivers, _, timeout, rfl, hblock⟩)
      · obtain ⟨⟨e, r⟩, hrest, rfl⟩ := map_eq_some_iff.mp hr
        exact mailboxRecvRest_does hrest
  | mailboxRecvRest =>
    obtain ⟨r, hr, rfl⟩ := map_eq_some_iff.mp h
    exact mailboxRecvRest_does hr
  | msgQueueSend | msgQueueRecvFree =>
    obtain ⟨r, hr, rfl⟩ := map_eq_some_iff.mp h
    obtain ⟨⟨e, k1⟩, hresume, rfl⟩ := map_eq_some_iff.mp hr
    exact ipcResumeFirst_does hresume
  | msgQueueRecv mq mem receivers timeout =>
    obtain ⟨r, hr, rfl⟩ := map_eq_some_iff.mp h
    unfold msgQueueRecvBegin at hr
    split at hr
    · cases hr
      exact .inl rfl
    · split at hr
      · obtain ⟨k1, hblock, rfl⟩ := map_eq_some_iff.mp hr
        exact .inr (.inl ⟨receivers, _, timeout, rfl, hblock⟩)
      · obtain ⟨r, -, rfl⟩ := map_eq_some_iff.mp hr
        left
        cases r <;> rfl

end IpcCall

end SKernel.Spec
