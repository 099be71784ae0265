import SKernel.Spec.CallSections

/-!
# The IPC calls as critical sections

Each IPC call, with its mask on every return path, is a critical section in which the data of the
kernel changes as the model of the data says, followed by the rest of the call. A call that has
blocked goes on without the mask.

## Key results

- `skThreadSleep_eq`, `skSemWait_eq`, `skSemPost_eq`, `skMutexLock_eq`, `skMutexUnlock_eq`,
  `skEventSend_eq`, `skEventRecv_eq`, `skMailboxSendWait_eq`, `skMailboxRecv_eq`,
  `skMsgQueueSendWait_eq`, `skMsgQueueRecv_eq`: the code of a call with its mask is the model of
  the data in a critical section
-/

namespace SKernel.Spec

open Native ByteMem Function
open StateT (bind_apply ite_apply)
open Option hiding bind_apply bind_assoc bind_congr

variable {σ : Type} {c : Cpu σ}

-- the arguments of the calls
variable {tick fuel sem mutex event mb mq msg size : Nat} {set : BitVec 32} {option : BitVec 8}
  {value : BitVec 64} {time timeout : Int} {level : Daif}

/-! ## Thread -/

/-- `sk_thread_sleep` up to the point where it restores the mask. -/
def threadSleepSection (tick : Nat) (d : KernelData σ) : Option (CallEnd × KernelData σ) :=
  (threadSleepBlock d.k tick).map fun k => (.schedule, { d with k := k })

theorem skThreadSleep_eq :
    (Call.skThreadSleep tick : KernM σ SkErr) = critical (threadSleepSection tick) := by
  unfold Call.skThreadSleep
  simp only [fromOption_disable]
  rw [current_disable]
  apply disable_bind_congr
  intro level c h
  unfold runSection threadSleepSection threadSleepBlock
  rw [bind_apply, bind_apply, skCurrentThread_apply, bind_some,
    bind_apply, fromOption_apply]
  cases c.data.k.sched.currentThread with
  | none => rfl
  | some thread =>
    simp only [map_some, bind_some, bind_apply]
    rw [skThreadSuspend_of_masked h, bind_some, threadTimerStart_of_masked (by exact h)]
    rfl

/-! ## Semaphore -/

/-- `sk_sem_wait` up to the point where it restores the mask. -/
def semWaitSection (fuel sem : Nat) (time : Int) (d : KernelData σ) :
    Option (CallEnd × KernelData σ) :=
  (skSemWait fuel d.k (d.sem sem) (suspendThread sem) time).map fun (e, k, s) =>
    (e, { d with k := k, sem := update d.sem sem s })

theorem skSemWait_eq :
    (Call.skSemWait fuel sem time : KernM σ SkErr) = critical (semWaitSection fuel sem time) := by
  unfold Call.skSemWait
  rw [current_disable]
  apply disable_bind_congr
  intro level c h
  unfold runSection semWaitSection skSemWait
  simp only [bind_apply, skCurrentThread_apply, getData_apply, bind_some,
    ite_apply]
  split_ifs
  · rfl
  · simp only [map_some, update_eq_self, bind_some]
    rfl
  · rw [ipcBlock_of_masked h]
    cases ipcBlock fuel c.data.k (suspendThread sem) (c.data.sem sem).flag time with
    | none => rfl
    | some k =>
      simp only [map_some, update_eq_self, bind_some]
      rfl

/-- `sk_sem_post` up to the point where it restores the mask. -/
def semPostSection (sem : Nat) (d : KernelData σ) : Option (CallEnd × KernelData σ) :=
  (skSemPost d.k (d.sem sem) (suspendThread sem)).map fun (e, k, s) =>
    (e, { d with k := k, sem := update d.sem sem s })

theorem skSemPost_eq :
    (Call.skSemPost sem : KernM σ SkErr) = critical (semPostSection sem) := by
  apply disable_bind_congr
  intro level c h
  unfold runSection semPostSection skSemPost
  simp only [bind_apply, getData_apply, bind_some, ite_apply]
  split_ifs
  · rfl
  · simp only [map_some, update_eq_self, bind_some]
    rfl
  · rw [ipcResume_of_masked h]
    cases ipcFirstThread c.data.k.sched (suspendThread sem) with
    | none => rfl
    | some thread =>
      simp only [map_some, update_eq_self, bind_some]
      rfl

/-! ## Mutex -/

/-- `sk_mutex_lock` up to the point where it restores the mask. -/
def mutexLockSection (fuel mutex : Nat) (time : Int) (d : KernelData σ) :
    Option (CallEnd × KernelData σ) :=
  (skMutexLock fuel d.k (d.mutex mutex) (suspendThread mutex) time).map fun (e, k, m) =>
    (e, { d with k := k, mutex := update d.mutex mutex m })

theorem skMutexLock_eq :
    (Call.skMutexLock fuel mutex time : KernM σ SkErr) =
      critical (mutexLockSection fuel mutex time) := by
  unfold Call.skMutexLock
  simp only [fromOption_disable]
  rw [current_disable]
  apply disable_bind_congr
  intro level c h
  unfold runSection mutexLockSection skMutexLock
  have hblock := ipcBlock_of_masked h fuel (suspendThread mutex) ipcFlagPrio time
  rw [bind_apply, bind_apply, skCurrentThread_apply, bind_some,
    bind_apply, fromOption_apply]
  cases hcur : c.data.k.sched.currentThread with
  | none => rfl
  | some thread =>
    simp only [map_some, bind_apply, getData_apply, bind_some,
      ite_apply, Call.mutexHold]
    rw [hcur] at hblock
    split_ifs
    · rfl
    · rfl
    · rfl
    · rfl
    · simp only [map_some, update_eq_self, bind_some]
      rfl
    · rw [hblock]
      cases ipcBlock fuel c.data.k (suspendThread mutex) ipcFlagPrio time with
      | none => rfl
      | some k =>
        simp only [map_some, update_eq_self, bind_some]
        rfl

/-- `sk_mutex_unlock` up to the point where it restores the mask. -/
def mutexUnlockSection (mutex : Nat) (d : KernelData σ) : Option (CallEnd × KernelData σ) :=
  (skMutexUnlock d.k (d.mutex mutex) (suspendThread mutex)).map fun (e, k, m) =>
    (e, { d with k := k, mutex := update d.mutex mutex m })

theorem skMutexUnlock_eq :
    (Call.skMutexUnlock mutex : KernM σ SkErr) = critical (mutexUnlockSection mutex) := by
  unfold Call.skMutexUnlock
  simp only [fromOption_disable]
  rw [current_disable]
  apply disable_bind_congr
  intro level c h
  unfold runSection mutexUnlockSection skMutexUnlock
  rw [bind_apply, bind_apply, skCurrentThread_apply, bind_some,
    bind_apply, fromOption_apply]
  cases c.data.k.sched.currentThread with
  | none => rfl
  | some thread =>
    simp only [map_some, bind_apply, getData_apply, bind_some,
      ite_apply, fromOption_apply]
    split_ifs
    · simp only [map_some, update_eq_self, bind_some]
      rfl
    · rfl
    · cases ipcFirstThread c.data.k.sched (suspendThread mutex) with
      | none => rfl
      | some first =>
        dsimp only [map_some, bind_some, Call.setMutex, modifyData, modifyCpu]
        rw [skThreadResume_of_masked (by exact h)]
        rfl
    · rfl

/-! ## Event -/

/-- `sk_event_send` up to the point where it restores the mask. -/
def eventSendSection (event : Nat) (set : BitVec 16) (needSchedule : Bool) (d : KernelData σ) :
    Option (CallEnd × KernelData σ) :=
  (skEventSend d.k (d.event event) d.wait (suspendThread event) set needSchedule).map
    fun (e, k, ev, wait) =>
      (e, { d with k := k, event := update d.event event ev, wait := wait })

theorem eventSendEnd_eq (needSchedule : Bool) :
    (Call.eventSendEnd level needSchedule : KernM σ SkErr) =
      finish level (if needSchedule then .schedule else .ret .eok) := by
  cases needSchedule <;> rfl

theorem skEventSend_eq {set : BitVec 16} {needSchedule : Bool} :
    (Call.skEventSend event set needSchedule : KernM σ SkErr) =
      if set = 0 then pure .error else critical (eventSendSection event set needSchedule) := by
  unfold Call.skEventSend
  split
  · rfl
  · rename_i hset
    apply disable_bind_congr
    intro level c h
    unfold runSection eventSendSection skEventSend
    simp only [bind_apply, getData_apply, bind_some, ite_apply,
      fromOption_apply, if_neg hset, eventSendEnd_eq]
    by_cases hempty : skListEmpty c.data.k.sched.links (.head (suspendThread event)) = true
    · simp only [if_pos hempty]
      rfl
    · simp only [if_neg hempty]
      cases ipcFirstThread c.data.k.sched (suspendThread event) with
      | none => rfl
      | some thread =>
        dsimp only [Call.setEvent, modifyData, modifyCpu, bind_some, map_some]
        cases eventMatch (c.data.wait thread).eventInfo (c.data.wait thread).eventSet
            ((c.data.event event).set ||| set.setWidth 32) with
        | none => rfl
        | some b =>
          cases b with
          | false => rfl
          | true =>
            dsimp only [bind_apply, Call.setWait, modifyData, modifyCpu, bind_some]
            rw [skThreadResume_of_masked (by exact h)]
            simp only [bind_some, update_idem]
            rfl

/-- `sk_event_recv` up to the point where it restores the mask, with what it has received. -/
def eventRecvSection (fuel event : Nat) (set : BitVec 32) (option : BitVec 8) (timeout : Int)
    (d : KernelData σ) : Option ((CallEnd × Option (BitVec 32)) × KernelData σ) :=
  (skEventRecv fuel d.k (d.event event) d.wait (suspendThread event) set option timeout).map
    fun (e, k, ev, wait, recved) =>
      ((e, recved),
        { d with k := k, event := update d.event event ev, wait := wait })

/-- `sk_event_recv` from there on. -/
def eventRecvFinish (thread : Tid) (level : Daif) :
    CallEnd × Option (BitVec 32) → KernM σ (SkErr × Option (BitVec 32))
  | (.ret code, recved) => do
    hwInterruptEnable level
    pure (code, recved)
  | (.schedule, _) => do
    hwInterruptEnable level
    Call.skSchedule
    let level ← hwInterruptDisable
    let d ← getData
    hwInterruptEnable level
    pure (.eok, some (eventRecvReturn d.wait thread))

theorem skEventRecv_eq :
    (Call.skEventRecv fuel event set option timeout : KernM σ (SkErr × Option (BitVec 32))) =
      if set = 0 then pure (.error, none)
      else (do
        let current ← Call.skCurrentThread
        let thread ← fromOption current
        let level ← hwInterruptDisable
        let r ← runSection (eventRecvSection fuel event set option timeout)
        eventRecvFinish thread level r) := by
  unfold Call.skEventRecv
  split
  · rfl
  · rename_i hset
    simp only [fromOption_disable]
    rw [current_disable, current_disable]
    apply disable_bind_congr
    intro level c h
    unfold runSection eventRecvSection skEventRecv
    rw [bind_apply, bind_apply, skCurrentThread_apply, bind_some,
      bind_some, bind_apply, bind_apply, fromOption_apply]
    cases hcur : c.data.k.sched.currentThread with
    | none => rfl
    | some thread =>
      simp only [map_some, bind_some, bind_apply, getData_apply, hcur,
        if_neg hset]
      cases eventMatch option set (c.data.event event).set with
      | none =>
        simp only [map_some, update_eq_self, bind_some]
        rfl
      | some b =>
        cases b with
        | true => rfl
        | false =>
          dsimp only
          rw [ite_apply]
          split_ifs
          · simp only [map_some, update_eq_self, bind_some]
            rfl
          · -- the fields of the thread are set before it is suspended
            have hblock := ipcBlock_of_masked (c := { c with data := { c.data with
                wait := update c.data.wait thread ⟨set, option⟩ } })
              h fuel (suspendThread event) (c.data.event event).flag timeout
            dsimp only at hblock
            rw [hcur] at hblock
            dsimp only [bind_apply, Call.setWait, modifyData, modifyCpu, bind_some]
            rw [hblock]
            cases ipcBlock fuel c.data.k (suspendThread event) (c.data.event event).flag
                timeout with
            | none => rfl
            | some k =>
              simp only [map_some, update_eq_self, bind_some]
              rfl

/-! ## Mailbox -/

theorem ipcResumeFirst_of_masked (h : c.daif = .masked) (list : ListHead) :
    Call.ipcResumeFirst list level c = (ipcResumeFirst c.data.k list).bind fun (e, k) =>
      finish level e (setKernel c k) := by
  unfold Call.ipcResumeFirst ipcResumeFirst
  rw [bind_apply, getSched_apply, bind_some, ite_apply]
  split
  · rfl
  · rw [bind_apply, ipcResume_of_masked h]
    cases ipcFirstThread c.data.k.sched list <;> rfl

/-- `sk_mailbox_send_wait` up to the point where it restores the mask. -/
def mailboxSendSection (fuel mb : Nat) (value : BitVec 64) (timeout : Int) (d : KernelData σ) :
    Option (SegEnd × KernelData σ) :=
  (skMailboxSendWait fuel d.k (d.mailbox mb) d.mem (suspendThread mb) (mailboxSenders mb) value
    timeout).map fun (e, k, m, mem) =>
      (e, { d with k := k, mailbox := update d.mailbox mb m, mem := mem })

/-- `sk_mailbox_send_wait` from the second test on, up to the point where it restores the mask. -/
def mailboxSendRestSection (mb : Nat) (value : BitVec 64) (d : KernelData σ) :
    Option (CallEnd × KernelData σ) :=
  (mailboxSendRest d.k (d.mailbox mb) d.mem (suspendThread mb) value).map fun (e, k, m, mem) =>
    (e, { d with k := k, mailbox := update d.mailbox mb m, mem := mem })

/-- The return path of a full mailbox does not restore the mask, which makes no difference if it
    was set. -/
theorem mailboxSendRest_of_masked (h : c.daif = .masked)
    (hlevel : level = .masked ∨ (c.data.mailbox mb).entry ≠ (c.data.mailbox mb).size) :
    Call.mailboxSendRest mb value level c =
      (runSection (mailboxSendRestSection mb value) >>= finish level) c := by
  unfold Call.mailboxSendRest runSection mailboxSendRestSection mailboxSendRest
  simp only [bind_apply, getData_apply, bind_some, ite_apply]
  split_ifs with hfull
  · obtain rfl := hlevel.resolve_right (not_not.mpr hfull)
    simp only [map_some, update_eq_self, bind_some]
    rfl
  · dsimp only [Call.setMailbox, modifyData, modifyCpu, bind_some]
    rw [ipcResumeFirst_of_masked (by exact h)]
    cases ipcResumeFirst c.data.k (suspendThread mb) <;> rfl
  · rfl

/-- How a call goes on that may block and look again. -/
def resumeOrFinish (level : Daif) (rest : KernM σ SkErr) : SegEnd → KernM σ SkErr
  | .done e => finish level e
  | .block => do
    hwInterruptEnable level
    Call.skSchedule
    rest

theorem skMailboxSendWait_eq :
    (Call.skMailboxSendWait fuel mb value timeout : KernM σ SkErr) = (do
      let level ← hwInterruptDisable
      let e ← runSection (mailboxSendSection fuel mb value timeout)
      resumeOrFinish level (Call.mailboxSendRest mb value level) e) := by
  unfold Call.skMailboxSendWait
  rw [current_disable]
  apply disable_bind_congr
  intro level c h
  unfold runSection mailboxSendSection skMailboxSendWait
  simp only [bind_apply, skCurrentThread_apply, getData_apply, bind_some,
    ite_apply]
  split_ifs with hnow hfull
  · simp only [map_some, update_eq_self, bind_some]
    rfl
  · rw [ipcBlock_of_masked h]
    cases ipcBlock fuel c.data.k (mailboxSenders mb) (c.data.mailbox mb).flag timeout with
    | none => rfl
    | some k =>
      simp only [map_some, update_eq_self, bind_some]
      rfl
  · -- the mailbox is not full, and the call goes on with interrupts masked
    rw [mailboxSendRest_of_masked h (.inr hfull)]
    unfold runSection mailboxSendRestSection
    dsimp only [bind_apply]
    cases mailboxSendRest c.data.k (c.data.mailbox mb) c.data.mem (suspendThread mb) value <;> rfl

/-- `sk_mailbox_recv` up to the point where it restores the mask, with the mail. -/
def mailboxRecvSection (fuel mb : Nat) (timeout : Int) (d : KernelData σ) :
    Option ((SegEnd × Option (BitVec 64)) × KernelData σ) :=
  (skMailboxRecv fuel d.k (d.mailbox mb) d.mem (suspendThread mb) timeout).map
    fun (e, value, k, m) =>
      ((e, value), { d with k := k, mailbox := update d.mailbox mb m })

/-- `sk_mailbox_recv` from the second test on, up to the point where it restores the mask. -/
def mailboxRecvRestSection (mb : Nat) (d : KernelData σ) :
    Option ((CallEnd × Option (BitVec 64)) × KernelData σ) :=
  (mailboxRecvRest d.k (d.mailbox mb) d.mem (suspendThread mb)).map fun (e, value, k, m) =>
    ((e, value), { d with k := k, mailbox := update d.mailbox mb m })

/-- The end of `sk_mailbox_recv`. -/
def mailboxRecvRestEnd (level : Daif) :
    CallEnd × Option (BitVec 64) → KernM σ (SkErr × Option (BitVec 64))
  | (e, value) => do
    let code ← finish level e
    pure (code, value)

theorem mailboxRecvRest_of_masked (h : c.daif = .masked)
    (hlevel : level = .masked ∨ (c.data.mailbox mb).entry ≠ 0) :
    Call.mailboxRecvRest mb level c =
      (runSection (mailboxRecvRestSection mb) >>= mailboxRecvRestEnd level) c := by
  unfold Call.mailboxRecvRest runSection mailboxRecvRestSection mailboxRecvRest
  simp only [bind_apply, getData_apply, bind_some, ite_apply]
  by_cases hempty : (c.data.mailbox mb).entry = 0
  · obtain rfl := hlevel.resolve_right (not_not.mpr hempty)
    simp only [if_pos hempty, map_some, update_eq_self, bind_some]
    rfl
  · simp only [if_neg hempty]
    dsimp only [Call.setMailbox, modifyData, modifyCpu, bind_some]
    rw [ipcResumeFirst_of_masked (by exact h)]
    cases ipcResumeFirst c.data.k (suspendThread mb) <;> rfl

/-- `sk_mailbox_recv` from there on. -/
def mailboxRecvFinish (mb : Nat) (level : Daif) :
    SegEnd × Option (BitVec 64) → KernM σ (SkErr × Option (BitVec 64))
  | (.done e, value) => mailboxRecvRestEnd level (e, value)
  | (.block, _) => do
    hwInterruptEnable level
    Call.skSchedule
    Call.mailboxRecvRest mb level

theorem skMailboxRecv_eq :
    (Call.skMailboxRecv fuel mb timeout : KernM σ (SkErr × Option (BitVec 64))) = (do
      let level ← hwInterruptDisable
      let r ← runSection (mailboxRecvSection fuel mb timeout)
      mailboxRecvFinish mb level r) := by
  unfold Call.skMailboxRecv
  rw [current_disable]
  apply disable_bind_congr
  intro level c h
  unfold runSection mailboxRecvSection skMailboxRecv
  simp only [bind_apply, skCurrentThread_apply, getData_apply, bind_some,
    ite_apply]
  split_ifs with hnow hempty
  · simp only [map_some, update_eq_self, bind_some]
    dsimp only [mailboxRecvFinish, mailboxRecvRestEnd, finish, bind_apply]
    cases hwInterruptEnable level c <;> rfl
  · rw [ipcBlock_of_masked h]
    cases ipcBlock fuel c.data.k (suspendThread mb) (c.data.mailbox mb).flag timeout with
    | none => rfl
    | some k =>
      simp only [map_some, update_eq_self, bind_some]
      rfl
  · -- there is a mail, and the call goes on with interrupts masked
    rw [mailboxRecvRest_of_masked h (.inr hempty)]
    unfold runSection mailboxRecvRestSection
    dsimp only [bind_apply]
    cases mailboxRecvRest c.data.k (c.data.mailbox mb) c.data.mem (suspendThread mb) <;> rfl

/-! ## Message queue -/

/-- `sk_msg_queue_send_wait`: take a slot for a message whose size has been checked. -/
def msgQueueTakeSection (mq : Nat) (timeout : Int) (d : KernelData σ) :
    Option (Except SkErr Nat × KernelData σ) :=
  (msgQueueSendTake (d.msgQueue mq) d.mem 0 timeout).map fun
    | .error code => (.error code, d)
    | .ok (msg, q) => (.ok msg, { d with msgQueue := update d.msgQueue mq q })

/-- `sk_msg_queue_send_wait`: link the slot, up to the point where the mask is restored. -/
def msgQueueLinkSection (mq msg : Nat) (d : KernelData σ) : Option (CallEnd × KernelData σ) :=
  (msgQueueSendLink d.k (d.msgQueue mq) d.mem (suspendThread mq) msg).map fun (e, k, q, mem) =>
    (e, { d with k := k, msgQueue := update d.msgQueue mq q, mem := mem })

theorem msgQueueLink_eq :
    (do
      let level ← hwInterruptDisable
      let d ← getData
      let q := d.msgQueue mq
      Call.setMem (if q.msgQueueTail ≠ 0 then store d.mem 8 q.msgQueueTail msg else d.mem)
      Call.setMsgQueue mq { q with
        msgQueueTail := msg
        msgQueueHead := if q.msgQueueHead = 0 then msg else q.msgQueueHead
        entry := (q.entry + 1) % 2 ^ 16 }
      Call.ipcResumeFirst (suspendThread mq) level : KernM σ SkErr) =
      critical (msgQueueLinkSection mq msg) := by
  apply disable_bind_congr
  intro level c h
  dsimp only [bind_apply, getData_apply, bind_some, Call.setMem, Call.setMsgQueue,
    modifyData, modifyCpu]
  rw [ipcResumeFirst_of_masked (by exact h)]
  unfold runSection msgQueueLinkSection msgQueueSendLink
  dsimp only
  cases ipcResumeFirst c.data.k (suspendThread mq) <;> rfl

/-- `sk_msg_queue_send_wait` after it has taken a slot, or not. -/
def msgQueueSendFinish (mq : Nat) (buffer : List UInt8) (level : Daif) :
    Except SkErr Nat → KernM σ SkErr
  | .error code => do
    hwInterruptEnable level
    pure code
  | .ok msg => do
    hwInterruptEnable level
    let d ← getData
    Call.setMem (msgQueueSendFill d.mem msg buffer)
    critical (msgQueueLinkSection mq msg)

theorem runSection_msgQueueTake (c : Cpu σ) :
    runSection (msgQueueTakeSection mq timeout) c =
      if (c.data.msgQueue mq).msgQueueFree = 0 ∧ timeout = 0 then some (.error .efull, c)
      else if (c.data.msgQueue mq).msgQueueFree = 0 then none
      else
        some (.ok (c.data.msgQueue mq).msgQueueFree,
          { c with
            data := { c.data with
              msgQueue := update c.data.msgQueue mq
                { c.data.msgQueue mq with
                  msgQueueFree := load c.data.mem 8 (c.data.msgQueue mq).msgQueueFree } } }) := by
  unfold runSection msgQueueTakeSection msgQueueSendTake
  rw [if_neg (Nat.not_lt_zero _)]
  dsimp only
  split_ifs
  · rfl
  · rfl
  · rfl

theorem skMsgQueueSendWait_eq {buffer : List UInt8} :
    (Call.skMsgQueueSendWait mq buffer timeout : KernM σ SkErr) = (do
      let d ← getData
      if buffer.length > (d.msgQueue mq).msgSize then pure .error
      else
        let level ← hwInterruptDisable
        let r ← runSection (msgQueueTakeSection mq timeout)
        msgQueueSendFinish mq buffer level r) := by
  unfold Call.skMsgQueueSendWait
  apply bind_congr
  intro d
  split
  · rfl
  · apply disable_bind_congr
    intro level c h
    rw [bind_apply, getData_apply, bind_some, ite_apply, ite_apply,
      bind_apply (runSection _), runSection_msgQueueTake]
    dsimp only
    split_ifs
    · rfl
    · rfl
    · rw [bind_some]
      dsimp only [msgQueueSendFinish]
      rw [← msgQueueLink_eq]
      rfl

/-- `sk_msg_queue_recv`: put the slot on the free list, up to the point where the mask is
    restored. -/
def msgQueueFreeSection (mq msg : Nat) (d : KernelData σ) : Option (CallEnd × KernelData σ) :=
  (msgQueueRecvFree d.k (d.msgQueue mq) d.mem (suspendThread mq) msg).map fun (e, k, q, mem) =>
    (e, { d with k := k, msgQueue := update d.msgQueue mq q, mem := mem })

theorem msgQueueFree_eq :
    (do
      let level ← hwInterruptDisable
      let d ← getData
      let q := d.msgQueue mq
      Call.setMem (store d.mem 8 msg q.msgQueueFree)
      Call.setMsgQueue mq { q with msgQueueFree := msg }
      Call.ipcResumeFirst (suspendThread mq) level : KernM σ SkErr) =
      critical (msgQueueFreeSection mq msg) := by
  apply disable_bind_congr
  intro level c h
  dsimp only [bind_apply, getData_apply, bind_some, Call.setMem, Call.setMsgQueue,
    modifyData, modifyCpu]
  rw [ipcResumeFirst_of_masked (by exact h)]
  unfold runSection msgQueueFreeSection msgQueueRecvFree
  dsimp only
  cases ipcResumeFirst c.data.k (suspendThread mq) <;> rfl

/-- `sk_msg_queue_recv` after it has unlinked a slot. -/
def msgQueueRecvTook (mq size : Nat) (level : Daif) (msg : Nat) : KernM σ (SkErr × List UInt8) := do
  hwInterruptEnable level
  let d ← getData
  let bytes := msgQueueRecvCopy (d.msgQueue mq) d.mem msg size
  let code ← critical (msgQueueFreeSection mq msg)
  pure (code, bytes)

/-- `sk_msg_queue_recv` after it has tried to unlink a slot. -/
def msgQueueRecvFinish (mq size : Nat) (level : Daif) :
    Except SkErr (Nat × MsgQueue) → KernM σ (SkErr × List UInt8)
  | .error code => pure (code, [])
  | .ok (msg, q) => do
    Call.setMsgQueue mq q
    msgQueueRecvTook mq size level msg

theorem msgQueueRecvRest_eq :
    (Call.msgQueueRecvRest mq size level : KernM σ (SkErr × List UInt8)) = (do
      let d ← getData
      let r ← fromOption (msgQueueRecvUnlink (d.msgQueue mq) d.mem)
      msgQueueRecvFinish mq size level r) := by
  unfold Call.msgQueueRecvRest
  apply bind_congr
  intro d
  apply bind_congr
  intro r
  cases r with
  | error code => rfl
  | ok p =>
    dsimp only [msgQueueRecvFinish, msgQueueRecvTook]
    simp only [← msgQueueFree_eq, bind_assoc]

/-- The first part of `sk_msg_queue_recv`, which returns an error, blocks or takes a slot. -/
def msgQueueRecvSection (fuel mq : Nat) (timeout : Int) (d : KernelData σ) :
    Option (Except SkErr (Option Nat) × KernelData σ) :=
  (msgQueueRecvBegin fuel d.k (d.msgQueue mq) d.mem (suspendThread mq) timeout).map fun
    | .ret code => (.error code, d)
    | .block k => (.ok none, { d with k := k })
    | .took msg q => (.ok (some msg), { d with msgQueue := update d.msgQueue mq q })

/-- `sk_msg_queue_recv` from there on. -/
def msgQueueRecvEnd (mq size : Nat) (level : Daif) :
    Except SkErr (Option Nat) → KernM σ (SkErr × List UInt8)
  | .error code => do
    hwInterruptEnable level
    pure (code, [])
  | .ok none => do
    hwInterruptEnable level
    Call.skSchedule
    Call.msgQueueRecvRest mq size level
  | .ok (some msg) => msgQueueRecvTook mq size level msg

theorem skMsgQueueRecv_eq :
    (Call.skMsgQueueRecv fuel mq size timeout : KernM σ (SkErr × List UInt8)) = (do
      let level ← hwInterruptDisable
      let r ← runSection (msgQueueRecvSection fuel mq timeout)
      msgQueueRecvEnd mq size level r) := by
  unfold Call.skMsgQueueRecv
  rw [current_disable]
  apply disable_bind_congr
  intro level c h
  unfold runSection msgQueueRecvSection msgQueueRecvBegin
  simp only [bind_apply, skCurrentThread_apply, getData_apply, bind_some,
    ite_apply]
  split_ifs with hnow hempty
  · rfl
  · rw [ipcBlock_of_masked h]
    cases ipcBlock fuel c.data.k (suspendThread mq) (c.data.msgQueue mq).flag timeout <;> rfl
  · -- there is a message, so that unlinking a slot does not return an error
    rw [msgQueueRecvRest_eq]
    unfold msgQueueRecvUnlink
    dsimp only [bind_apply, getData_apply, bind_some, fromOption_apply]
    rw [if_neg hempty]
    split_ifs <;> rfl

end SKernel.Spec
