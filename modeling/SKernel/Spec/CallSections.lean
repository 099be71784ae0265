import SKernel.ForStd.Triple
import SKernel.Native.Calls
import SKernel.Spec.SchedQueues

/-!
# Critical sections

While interrupts are masked nobody else runs, and a call that a function makes there does to the
data of the kernel what the model of the data says. A function that masks interrupts, works on the
data, and restores the mask before it goes on is a critical section.

## Key results

- `scheduleSelect_of_masked`, `ipcBlock_of_masked`, `ipcResume_of_masked`: what a call does to
  the data when interrupts are masked
- `disable_bind_congr`: functions that agree behind the mask agree
-/

namespace SKernel.Spec

open Native ByteMem
open Option hiding bind_apply
open StateT (bind_apply ite_apply)

variable {σ α β : Type} {c c' : Cpu σ}

/-! ## The state -/

/-- Replace the scheduler and the timers. -/
def setKernel (c : Cpu σ) (k : Kernel) : Cpu σ :=
  { c with data := { c.data with k := k } }

@[simp]
theorem k_setKernel (c : Cpu σ) (k : Kernel) : (setKernel c k).data.k = k := rfl

@[simp]
theorem setKernel_setKernel (c : Cpu σ) (k k' : Kernel) :
    setKernel (setKernel c k) k' = setKernel c k' := rfl

@[simp]
theorem setKernel_daif (c : Cpu σ) (k : Kernel) : (setKernel c k).daif = c.daif := rfl

@[simp]
theorem getSched_apply (c : Cpu σ) : getSched c = some (c.data.k.sched, c) := rfl

@[simp]
theorem getData_apply (c : Cpu σ) : getData c = some (c.data, c) := rfl

@[simp]
theorem getCpu_apply (c : Cpu σ) : getCpu c = some (c, c) := rfl

@[simp]
theorem modifyCpu_apply (f : Cpu σ → Cpu σ) (c : Cpu σ) : modifyCpu f c = some ((), f c) := rfl

@[simp]
theorem modifySched_apply (f : Sched → Sched) (c : Cpu σ) :
    modifySched f c =
      some ((), setKernel c { c.data.k with sched := f c.data.k.sched }) := rfl

@[simp]
theorem fromOption_apply (a : Option α) (c : Cpu σ) :
    (fromOption a : KernM σ α) c = a.map (·, c) := rfl

/-! ## Code that only reads -/

theorem getSched_reads (a : Sched) (h : getSched c = some (a, c')) : c' = c := by
  cases h
  rfl

theorem getData_reads (a : KernelData σ) (h : getData c = some (a, c')) : c' = c := by
  cases h
  rfl

theorem fromOption_reads (a : Option α) (b : α) (h : fromOption a c = some (b, c')) : c' = c := by
  obtain ⟨_, _, hb⟩ := map_eq_some_iff.mp h
  cases hb
  rfl

/-! ## Calls while interrupts are masked -/

theorem disable_of_masked (h : c.daif = .masked) :
    hwInterruptDisable c = some (.masked, c) := by
  cases c
  cases h
  rfl

theorem disable_bind_of_masked (h : c.daif = .masked) (f : Daif → KernM σ β) :
    (hwInterruptDisable >>= f) c = f .masked c := by
  rw [bind_apply, disable_of_masked h]
  rfl

theorem removeThread_of_masked (h : c.daif = .masked) (thread : Tid) :
    Call.skScheduleRemoveThread thread c =
      some ((), setKernel c { c.data.k with
        sched := skScheduleRemoveThread c.data.k.sched thread }) := by
  rw [Call.skScheduleRemoveThread, disable_bind_of_masked h]
  rfl

theorem insertThread_of_masked (h : c.daif = .masked) (thread : Tid) :
    Call.skScheduleInsertThread thread c =
      some ((), setKernel c { c.data.k with
        sched := skScheduleInsertThread c.data.k.sched thread }) := by
  rw [Call.skScheduleInsertThread, disable_bind_of_masked h]
  simp only [bind_apply, getSched_apply, bind_some, modifySched_apply]
  -- whether the level is restored makes no difference, since it is the mask
  split <;> rfl

/-- The threads that `sk_schedule` switches from and to, when it takes `s` to `s'`. -/
def switchTarget (s s' : Sched) : Option (Tid × Tid) :=
  match s.currentThread, s'.currentThread with
  | some fromThread, some toThread =>
    if fromThread ≠ toThread then some (fromThread, toThread) else none
  | _, _ => none

theorem switchTarget_self (s : Sched) : switchTarget s s = none := by
  unfold switchTarget
  split
  · rename_i fromThread toThread hfrom hto
    cases hfrom.symm.trans hto
    exact if_neg fun h => h rfl
  · rfl

theorem skSchedule_keeps_or_switches {s s' : Sched} (h : skSchedule s = some s') :
    s' = s ∨ ∃ fromThread toThread, s.currentThread = some fromThread ∧
      fromThread ≠ toThread ∧ s' = scheduleSwitch s fromThread toThread := by
  unfold skSchedule at h
  split at h
  · split at h
    · rename_i fromThread hp readyHpPrio hcur _
      dsimp only at h
      generalize (if (s.thread fromThread).stat = threadRunning ∧
        (s.thread fromThread).currentPri ≤ readyHpPrio then fromThread else hp) = toThread at h
      split at h
      · rename_i hne
        exact .inr ⟨fromThread, toThread, hcur, hne, (some.inj h).symm⟩
      · exact .inl (some.inj h).symm
    · cases h
  · exact .inl (some.inj h).symm

theorem switchTarget_of_skSchedule {s s' : Sched} (h : skSchedule s = some s') :
    (switchTarget s s' = none ∧ s' = s) ∨ ∃ fromThread toThread,
      switchTarget s s' = some (fromThread, toThread) ∧ s.currentThread = some fromThread ∧
        s'.currentThread = some toThread := by
  obtain rfl | ⟨fromThread, toThread, hcur, hne, rfl⟩ := skSchedule_keeps_or_switches h
  · exact .inl ⟨switchTarget_self s', rfl⟩
  · refine .inr ⟨fromThread, toThread, ?_, hcur, scheduleSwitch_currentThread s _ _⟩
    simp only [switchTarget, hcur, scheduleSwitch_currentThread, if_pos hne]

section

variable (h : c.daif = .masked)
include h

theorem scheduleSelect_switch {s : Sched} (hs : c.data.k.sched = s) (fromThread toThread : Tid) :
    (do
      modifySched fun s => { s with currentThread := some toThread }
      if (s.thread fromThread).stat ≠ threadSuspend ∧ (s.thread fromThread).stat ≠ threadClose then
        Call.skScheduleInsertThread fromThread
      else pure ()
      modifySched fun s => s.setStat toThread ((s.thread toThread).stat &&& ~~~threadYield)
      Call.skScheduleRemoveThread toThread
      modifySched fun s => s.setStat toThread threadRunning
      pure (some (fromThread, toThread)) : KernM σ (Option (Tid × Tid))) c =
    some (some (fromThread, toThread), setKernel c { c.data.k with
      sched := scheduleSwitch s fromThread toThread }) := by
  simp only [bind_apply, modifySched_apply, bind_some, ite_apply,
    StateT.pure_apply, hs]
  unfold scheduleSwitch
  by_cases hstat : (s.thread fromThread).stat ≠ threadSuspend ∧
      (s.thread fromThread).stat ≠ threadClose
  · simp only [if_pos hstat, insertThread_of_masked, removeThread_of_masked, setKernel_daif, h,
      bind_some, k_setKernel, setKernel_setKernel]
  · simp only [if_neg hstat, removeThread_of_masked, setKernel_daif, h, bind_some,
      k_setKernel, setKernel_setKernel]

theorem scheduleSelect_of_masked :
    Call.scheduleSelect c = (skSchedule c.data.k.sched).map fun s =>
      (switchTarget c.data.k.sched s, setKernel c { c.data.k with sched := s }) := by
  obtain ⟨s, hs⟩ : ∃ s, c.data.k.sched = s := ⟨_, rfl⟩
  have hself : setKernel c { c.data.k with sched := s } = c := by
    subst hs
    rfl
  unfold Call.scheduleSelect skSchedule
  rw [bind_apply, getSched_apply, bind_some]
  dsimp only
  rw [hs]
  by_cases hgroup : s.readyPrioGroup ≠ 0
  · rw [if_pos hgroup, if_pos hgroup]
    cases hcur : s.currentThread with
    | none => rfl
    | some fromThread =>
      cases hhp : scheduleGetHpThread s with
      | none => rfl
      | some r =>
        obtain ⟨hp, readyHpPrio⟩ := r
        simp only [bind_apply, fromOption_apply, map_some, bind_some]
        generalize (if (s.thread fromThread).stat = threadRunning ∧
          (s.thread fromThread).currentPri ≤ readyHpPrio then fromThread else hp) = toThread
        by_cases hne : fromThread ≠ toThread
        · rw [if_pos hne, if_pos hne]
          have hto : switchTarget s (scheduleSwitch s fromThread toThread) =
              some (fromThread, toThread) := by
            simp only [switchTarget, hcur, scheduleSwitch_currentThread, if_pos hne]
          rw [hto]
          exact scheduleSelect_switch h hs fromThread toThread
        · rw [if_neg hne, if_neg hne, switchTarget_self, hself]
          rfl
  · rw [if_neg hgroup, if_neg hgroup, map_some, switchTarget_self, hself]
    rfl

theorem threadWake_of_masked (thread : Tid) :
    Call.threadWake thread c =
      some ((), setKernel c { c.data.k with sched := threadWake c.data.k.sched thread }) := by
  simp only [Call.threadWake, bind_apply, modifySched_apply, bind_some,
    insertThread_of_masked, setKernel_daif, h, k_setKernel, setKernel_setKernel]
  rfl

theorem skThreadResume_of_masked (thread : Tid) :
    Call.skThreadResume thread c = some ((skThreadResume c.data.k thread).1,
      setKernel c (skThreadResume c.data.k thread).2) := by
  unfold Call.skThreadResume skThreadResume
  rw [bind_apply, getSched_apply, bind_some, ite_apply,
    disable_bind_of_masked h]
  split
  · rfl
  · rw [bind_apply, threadWake_of_masked h]
    rfl

theorem skTimerStart_of_masked (timer : TimerRef) :
    Call.skTimerStart timer c = some (.eok, setKernel c { c.data.k with
      timers := skTimerStart c.data.k.timers timer.id }) := by
  rw [Call.skTimerStart, disable_bind_of_masked h]
  rfl

theorem skTimerStop_of_masked (timer : TimerRef) :
    ∃ code, Call.skTimerStop timer c = some (code, setKernel c { c.data.k with
      timers := skTimerStop c.data.k.timers timer.id }) := by
  unfold Call.skTimerStop skTimerStop
  rw [bind_apply, getData_apply, bind_some, ite_apply,
    disable_bind_of_masked h]
  show ∃ code, (if (c.data.k.timers.timer timer.id).isActive = true then _ else _) = _
  split
  · exact ⟨_, rfl⟩
  · exact ⟨_, rfl⟩

theorem skTimerControl_of_masked (timer : TimerRef) (cmd : TimerCtrl) :
    Call.skTimerControl timer cmd c =
      some ((.eok, (skTimerControl c.data.k.timers timer.id cmd).1),
        setKernel c { c.data.k with
          timers := (skTimerControl c.data.k.timers timer.id cmd).2 }) := by
  rw [Call.skTimerControl, disable_bind_of_masked h]
  rfl

theorem skThreadSuspend_of_masked (thread : Tid) :
    Call.skThreadSuspend thread c = some ((skThreadSuspend c.data.k thread).1,
      setKernel c (skThreadSuspend c.data.k thread).2) := by
  unfold Call.skThreadSuspend skThreadSuspend
  rw [bind_apply, getSched_apply, bind_some]
  dsimp only
  rw [ite_apply, disable_bind_of_masked h]
  split
  · rfl
  · rw [bind_apply, removeThread_of_masked h, bind_some, bind_apply,
      modifySched_apply, bind_some, bind_apply]
    obtain ⟨code, hstop⟩ := skTimerStop_of_masked (c := setKernel c { c.data.k with
      sched := (skScheduleRemoveThread c.data.k.sched thread).setStat thread threadSuspend })
      h (.ofThread thread)
    dsimp only [k_setKernel, setKernel_setKernel] at hstop ⊢
    rw [hstop]
    rfl

theorem threadTimerStart_of_masked (thread : Tid) (time : Nat) :
    Call.threadTimerStart thread time c =
      some ((), setKernel c (threadTimerStart c.data.k thread time)) := by
  rw [Call.threadTimerStart, bind_apply, skTimerControl_of_masked h, bind_some,
    bind_apply, skTimerStart_of_masked (by exact h), bind_some]
  rfl

theorem ipcListSuspend_of_masked (fuel : Nat) (list : ListHead) (thread : Tid) (flag : BitVec 8) :
    Call.ipcListSuspend fuel list thread flag c =
      (ipcListSuspend fuel c.data.k list thread flag).map fun k => ((), setKernel c k) := by
  unfold Call.ipcListSuspend ipcListSuspend
  rw [bind_apply, skThreadSuspend_of_masked h, bind_some, ite_apply,
    ite_apply]
  generalize (skThreadSuspend c.data.k thread).2 = k
  dsimp only
  split_ifs
  · rfl
  · rw [bind_apply, getSched_apply, bind_some, bind_apply, fromOption_apply]
    dsimp only [k_setKernel]
    cases ipcListPosition k.sched list thread fuel (k.sched.links.next (.head list)) <;> rfl
  · rfl

theorem ipcBlock_of_masked (fuel : Nat) (list : ListHead) (flag : BitVec 8) (time : Int) :
    Call.ipcBlock fuel list c.data.k.sched.currentThread flag time c =
      (ipcBlock fuel c.data.k list flag time).map fun k => ((), setKernel c k) := by
  unfold Call.ipcBlock ipcBlock
  rw [bind_apply, fromOption_apply]
  cases c.data.k.sched.currentThread with
  | none => rfl
  | some thread =>
    rw [map_some, bind_some, bind_apply, ipcListSuspend_of_masked h]
    dsimp only
    cases ipcListSuspend fuel c.data.k list thread flag with
    | none => rfl
    | some k =>
      rw [map_some, bind_some, ite_apply,
        threadTimerStart_of_masked (by exact h)]
      dsimp only [map_some, k_setKernel, setKernel_setKernel]
      split <;> rfl

theorem ipcResume_of_masked (list : ListHead) :
    Call.ipcResume list c = (ipcFirstThread c.data.k.sched list).map fun thread =>
      ((), setKernel c (skThreadResume c.data.k thread).2) := by
  unfold Call.ipcResume
  rw [bind_apply, getSched_apply, bind_some, bind_apply, fromOption_apply]
  cases ipcFirstThread c.data.k.sched list with
  | none => rfl
  | some thread =>
    rw [map_some, bind_some, bind_apply, skThreadResume_of_masked h]
    rfl

end

/-! ## Calls as critical sections -/

/-- A part of a call that only works on the data. -/
def runSection (sec : KernelData σ → Option (α × KernelData σ)) : KernM σ α := fun c =>
  (sec c.data).map fun r => (r.1, { c with data := r.2 })

/-- How a call goes on after the part in which it masks interrupts. -/
def finish (level : Daif) : CallEnd → KernM σ SkErr
  | .ret code => do
    hwInterruptEnable level
    pure code
  | .schedule => do
    hwInterruptEnable level
    Call.skSchedule
    pure .eok

/-- A call that works with interrupts masked, restores the mask, and returns or calls
    `sk_schedule`. -/
def critical (sec : KernelData σ → Option (CallEnd × KernelData σ)) : KernM σ SkErr := do
  let level ← hwInterruptDisable
  let e ← runSection sec
  finish level e

theorem disable_apply (c : Cpu σ) : ∃ c1, hwInterruptDisable c = some (c.daif, c1) ∧
    c1.daif = .masked ∧ c1.sched.currentThread = c.sched.currentThread := by
  unfold hwInterruptDisable
  dsimp only
  split
  · exact ⟨_, rfl, rfl, rfl⟩
  · exact ⟨_, rfl, rfl, rfl⟩

theorem disable_bind_congr {f g : Daif → KernM σ β}
    (h : ∀ level c, c.daif = .masked → f level c = g level c) :
    (hwInterruptDisable >>= f) = (hwInterruptDisable >>= g) := by
  funext c
  obtain ⟨c1, hc1, hmask, -⟩ := disable_apply c
  rw [bind_apply, bind_apply, hc1, bind_some, bind_some]
  exact h _ _ hmask

theorem current_disable (f : Option Tid → Daif → KernM σ β) :
    (Call.skCurrentThread >>= fun current => hwInterruptDisable >>= f current) =
      (hwInterruptDisable >>= fun level => Call.skCurrentThread >>= fun current =>
        f current level) := by
  funext c
  obtain ⟨c1, hc1, -, hcur⟩ := disable_apply c
  rw [bind_apply, bind_apply, hc1, bind_some]
  show (hwInterruptDisable >>= f c.sched.currentThread) c = f c1.sched.currentThread c.daif c1
  rw [bind_apply, hc1, bind_some, hcur]

theorem fromOption_disable (a : Option α) (f : α → Daif → KernM σ β) :
    (fromOption a >>= fun a => hwInterruptDisable >>= f a) =
      (hwInterruptDisable >>= fun level => fromOption a >>= fun a => f a level) := by
  funext c
  obtain ⟨c1, hc1, -, -⟩ := disable_apply c
  cases a with
  | none =>
    rw [bind_apply, bind_apply, hc1]
    rfl
  | some a =>
    show (hwInterruptDisable >>= f a) c = _
    rw [bind_apply, bind_apply, hc1]
    rfl

@[simp]
theorem skCurrentThread_apply (c : Cpu σ) :
    Call.skCurrentThread c = some (c.data.k.sched.currentThread, c) := rfl

/-! ## A processor without objects -/

/-- The first thread runs: there are no objects but the threads, and nobody else runs. -/
def firstCpu (k : Kernel) : Cpu Unit where
  data :=
    { objects := { links := ⟨id, id⟩, obj := fun _ => ⟨[], none, 0⟩ }
      k := k
      sem := fun _ => ⟨0, 0⟩
      mutex := fun _ => skMutexInit
      event := fun _ => ⟨0, 0⟩
      mailbox := fun _ => ⟨0, 0, 0, 0, 0, 0⟩
      msgQueue := fun _ => ⟨0, 0, 0, 0, 0, 0, 0, 0⟩
      device := fun _ => ⟨.char, 0, 0⟩
      mem := fun _ => 0
      heap := ()
      wait := fun _ => ⟨0, 0⟩ }
  sp := fun thread => ⟨thread, .unmasked⟩
  spEl0 := 100
  daif := .unmasked
  spsr := .unmasked
  interruptNest := 0
  threadSwitchInterruptFlag := 0
  interruptFromThread := 0
  interruptToThread := 0
  others := fun _ => none
  occasion := 0
  switches := 0

end SKernel.Spec
