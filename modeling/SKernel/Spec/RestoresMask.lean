import SKernel.Spec.DeferredSwitch
import SKernel.Spec.IpcSections

/-!
# Calls that restore the interrupt mask

A call restores the mask that it found when it returns, unless it is one of two calls with a
return path that forgets it, or it was made with interrupts masked and gave up the processor: the
context of the calling thread is restored with the mask in its SPSR, where it is clear.

## Key results

- `Restores.disable_bind`: the rule for a part with interrupts masked
- `Restores.critical`: a critical section restores the mask
-/

namespace SKernel.Spec

open Native
open StateT (bind_apply ite_apply)
open Option hiding bind_apply or_self

variable {σ α β : Type} {c c' c'' c0 : Cpu σ} {q : Prop} {x : KernM σ α} {level : Daif}
variable {fromThread toThread : Tid} {f : Unit → KernM σ α}

-- the arguments of the calls
variable {A : Allocator σ} {thread : Tid} {timer : TimerRef} {type : ObjectType}
  {name : List (BitVec 8)} {flag option : BitVec 8} {cmd : TimerCtrl} {list : ListHead}
  {obj tick fuel event mb mq size msg : Nat} {set : BitVec 32} {value : BitVec 64} {timeout : Int}
  {buffer : List UInt8}

/-! ## Return with the mask restored -/

/-- The masks that occur: the SPSR has a clear mask, and IRQ and FIQ are masked together. -/
def Sane (c : Cpu σ) : Prop :=
  c.spsr = .unmasked ∧ (c.daif = .masked ∨ c.daif = .unmasked)

/-- A call from `c` has come to `c'` with its mask restored. A context switch of a thread leaves
    the mask clear; a quiet call asks for none. -/
structure Returned (quiet : Prop) (c c' : Cpu σ) : Prop where
  nest : c'.interruptNest = c.interruptNest
  spsr : c'.spsr = c.spsr
  count : c.switches ≤ c'.switches
  daif : c'.daif =
    if c.interruptNest = 0 ∧ c.switches < c'.switches then .unmasked else c.daif
  same : quiet → c'.switches = c.switches

theorem Returned.refl (c : Cpu σ) : Returned q c c :=
  ⟨rfl, rfl, Nat.le_refl _, (if_neg fun h => Nat.lt_irrefl _ h.2).symm, fun _ => rfl⟩

theorem Returned.trans (h : Returned q c c') (h' : Returned q c' c'') : Returned q c c'' where
  same hq := (h'.same hq).trans (h.same hq)
  nest := h'.nest.trans h.nest
  spsr := h'.spsr.trans h.spsr
  count := Nat.le_trans h.count h'.count
  daif := by
    have hle := h.count
    have hle' := h'.count
    rw [h'.daif, h.nest, h.daif]
    by_cases hnest : c.interruptNest = 0
    · by_cases hlt : c.switches < c'.switches
      · simp only [hnest, hlt, true_and, if_true, ite_self]
        rw [if_pos (by omega)]
      · rw [if_neg (show ¬(c.interruptNest = 0 ∧ c.switches < c'.switches) from fun h => hlt h.2)]
        have heq : c'.switches = c.switches := by omega
        rw [heq]
    · simp only [hnest, false_and, if_false]

theorem Sane.returned (h : Sane c) (hr : Returned q c c') : Sane c' := by
  refine ⟨hr.spsr.trans h.1, ?_⟩
  rw [hr.daif]
  split
  · exact .inr rfl
  · exact h.2

/-- The code restores the mask whenever it returns. -/
def Restores (quiet : Prop) (x : KernM σ α) : Prop := Effects Sane (Returned quiet) x

/-- The code may ask for a context switch. -/
abbrev RestoresMask (x : KernM σ α) : Prop := Restores False x

/-- A call from `c0` has masked interrupts, and nothing else has happened to the processor. -/
structure Masked (c0 c : Cpu σ) : Prop where
  nest : c.interruptNest = c0.interruptNest
  spsr : c.spsr = c0.spsr
  switches : c.switches = c0.switches
  daif : c.daif = .masked

/-- The state `c` with interrupts masked. -/
def mask (c : Cpu σ) : Cpu σ := { c with daif := .masked }

theorem Masked.returned (h : Masked c0 c) : Returned q (mask c0) c where
  same _ := h.switches
  nest := h.nest
  spsr := h.spsr
  count := Nat.le_of_eq h.switches.symm
  daif := by
    rw [if_neg fun hlt => Nat.lt_irrefl _ (h.switches ▸ hlt.2)]
    exact h.daif

theorem Sane.mask (h : Sane c) : Sane (mask c) := ⟨h.1, .inl rfl⟩

/-- After `hw_interrupt_disable`: interrupts and other threads may have run before. -/
def maskNow (c : Cpu σ) : Cpu σ := mask (if c.daif = .masked then c else c.interrupted)

theorem disable_eq (c : Cpu σ) : hwInterruptDisable c = some (c.daif, maskNow c) := by
  unfold hwInterruptDisable maskNow
  dsimp only
  split <;> rfl

theorem maskNow_masked (c : Cpu σ) : Masked c (maskNow c) := by
  unfold maskNow
  split
  · exact ⟨rfl, rfl, rfl, rfl⟩
  · exact ⟨rfl, rfl, rfl, rfl⟩

theorem maskNow_currentThread (c : Cpu σ) :
    (maskNow c).sched.currentThread = c.sched.currentThread := by
  unfold maskNow
  split <;> rfl

/-! ## Rules -/

theorem Returned.of_data {d : KernelData σ} (h : c' = { c with data := d }) : Returned q c c' := by
  rw [h]
  exact ⟨rfl, rfl, Nat.le_refl _, (if_neg fun h => Nat.lt_irrefl _ h.2).symm, fun _ => rfl⟩

namespace Restores

theorem composable : Composable (Sane (σ := σ)) (Returned q) where
  refl := .refl
  trans _ _ _ h h' := h.trans h'
  keeps _ _ h hr := h.returned hr

theorem pure (a : α) : Restores q (pure a : KernM σ α) := Effects.pure composable a

theorem bind {f : α → KernM σ β} (hx : Restores q x) (hf : ∀ a, Restores q
    (f a)) : Restores q (x >>= f) := Effects.bind composable hx hf

theorem ite {p : Prop} [Decidable p] {y : KernM σ α} (hx : Restores q x) (hy : Restores q y) :
    Restores q (if p then x else y) := Effects.ite hx hy

theorem getSched : Restores q (getSched : KernM σ Sched) :=
  Effects.read composable fun _ a _ h => getSched_reads a h

theorem getData : Restores q (getData : KernM σ (KernelData σ)) :=
  Effects.read composable fun _ a _ h => getData_reads a h

theorem fromOption (a : Option α) : Restores q (fromOption a : KernM σ α) :=
  Effects.read composable fun _ b _ h => fromOption_reads a b h

theorem skCurrentThread : Restores q (Call.skCurrentThread : KernM σ (Option Tid)) :=
  getSched.bind fun _ => pure _

theorem modifyData (f : KernelData σ → KernelData σ) : Restores q (modifyData f) := by
  intro c a c' _ hrun
  cases hrun
  exact .of_data rfl

theorem modifyTimers (f : Timers Tid → Timers Tid) :
    Restores q (modifyTimers f : KernM σ Unit) := modifyData _

theorem disable_bind {f : Daif → KernM σ β}
    (h : ∀ c0, Sane c0 → Triple (Masked c0) (f c0.daif) fun _ => Returned q c0) :
    Restores q (hwInterruptDisable >>= f) := by
  intro c b c' hc hrun
  rw [bind_apply, disable_eq, bind_some] at hrun
  exact (h c hc).run _ b c' (maskNow_masked c) hrun

end Restores

/-! ## Inside a call -/

theorem mask_eq_self (h : c.daif = .masked) : mask c = c := by
  cases c
  cases h
  rfl

/-- Restored inside the masked part, or once more outside. -/
theorem enable_returned (h0 : Sane c0) :
    Triple (fun c => Returned q (mask c0) c ∨ Returned q c0 c) (hwInterruptEnable c0.daif)
      fun _ => Returned q c0 := by
  constructor
  intro c u c' h hrun
  obtain hm | hu := h0.2
  · -- interrupts stay masked
    rw [mask_eq_self hm, or_self] at h
    rw [hm] at hrun
    cases hrun
    exact h
  · rw [hu] at hrun
    cases hrun
    have hcommon : c.interruptNest = c0.interruptNest ∧ c.spsr = c0.spsr ∧
        c0.switches ≤ c.switches ∧ (q → c.switches = c0.switches) := by
      obtain h | h := h
      · exact ⟨h.nest, h.spsr, h.count, h.same⟩
      · exact ⟨h.nest, h.spsr, h.count, h.same⟩
    refine ⟨hcommon.1, hcommon.2.1, hcommon.2.2.1, ?_, hcommon.2.2.2⟩
    rw [hu, ite_self]
    rfl

theorem enable_of_masked (h0 : Sane c0) :
    Triple (Masked c0) (hwInterruptEnable c0.daif) fun _ => Returned q c0 :=
  (enable_returned h0).weaken (fun _ h => .inl h.returned) fun _ _ h => h

/-- The level is the mask at the entry of the call, or nothing is enabled. -/
theorem enable_again (h0 : Sane c0) (hlevel : level = .masked ∨ level = c0.daif) :
    Triple (Returned q c0) (hwInterruptEnable level) fun _ => Returned q c0 := by
  obtain rfl | rfl := hlevel
  · constructor
    intro c u c' h hrun
    cases hrun
    exact h
  · exact (enable_returned h0).weaken (fun _ h => .inr h) fun _ _ h => h

theorem Restores.after (h0 : Sane c0) (h : Restores q x) :
    Triple (Returned q c0) x fun _ => Returned q c0 :=
  ⟨fun c a c' hr hrun => hr.trans (h c a c' (h0.returned hr) hrun)⟩

/-- A call made while the mask has not been restored. -/
theorem Restores.inside (h0 : Sane c0) (h : Restores q x) :
    Triple (Returned q (mask c0)) x fun _ => Returned q (mask c0) :=
  h.after h0.mask

theorem runSection_masked (sec : KernelData σ → Option (α × KernelData σ)) :
    Triple (Masked c0) (runSection sec) fun _ => Masked c0 := by
  constructor
  intro c a c' h hrun
  obtain ⟨r, _, hr⟩ := map_eq_some_iff.mp hrun
  cases hr
  exact ⟨h.nest, h.spsr, h.switches, h.daif⟩

theorem getSched_masked : Triple (Masked c0) (getSched : KernM σ Sched) fun _ => Masked c0 :=
  ⟨fun _ a _ h hrun => (getSched_reads a hrun).symm ▸ h⟩

theorem getData_masked :
    Triple (Masked c0) (getData : KernM σ (KernelData σ)) fun _ => Masked c0 :=
  ⟨fun _ a _ h hrun => (getData_reads a hrun).symm ▸ h⟩

theorem fromOption_masked (a : Option α) :
    Triple (Masked c0) (fromOption a : KernM σ α) fun _ => Masked c0 :=
  ⟨fun _ b _ h hrun => (fromOption_reads a b hrun).symm ▸ h⟩

theorem modifyData_masked (f : KernelData σ → KernelData σ) :
    Triple (Masked c0) (modifyData f) fun _ => Masked c0 := by
  constructor
  intro c a c' h hrun
  cases hrun
  exact ⟨h.nest, h.spsr, h.switches, h.daif⟩

theorem modifySched_masked (f : Sched → Sched) :
    Triple (Masked c0) (modifySched f : KernM σ Unit) fun _ => Masked c0 :=
  modifyData_masked fun d => { d with k := { d.k with sched := f d.k.sched } }

theorem masked_of_eq (h : ∀ c, c.daif = .masked → ∃ o : Option (α × Kernel),
      x c = o.map fun r => (r.1, setKernel c r.2)) :
    Triple (Masked c0) x fun _ => Masked c0 := by
  constructor
  intro c a c' hc hrun
  obtain ⟨o, ho⟩ := h c hc.daif
  rw [ho] at hrun
  obtain ⟨r, _, hr⟩ := map_eq_some_iff.mp hrun
  cases hr
  exact ⟨hc.nest, hc.spsr, hc.switches, hc.daif⟩

/-! ## The scheduler -/

theorem scheduleSelect_masked :
    Triple (Masked c0) (Call.scheduleSelect : KernM σ _) fun _ => Masked c0 := by
  constructor
  intro c a c' h hrun
  rw [scheduleSelect_of_masked h.daif] at hrun
  obtain ⟨s, _, hs⟩ := map_eq_some_iff.mp hrun
  cases hs
  exact ⟨h.nest, h.spsr, h.switches, h.daif⟩

variable {u : Unit}

theorem hwContextSwitchInterrupt_cpu
    (h : hwContextSwitchInterrupt fromThread toThread c = some (u, c')) :
    c'.interruptNest = c.interruptNest ∧ c'.spsr = c.spsr ∧ c'.daif = c.daif ∧
      c'.switches = c.switches + 1 := by
  cases h
  dsimp only
  split <;> exact ⟨rfl, rfl, rfl, rfl⟩

theorem contextSwitch_cpu (h : Call.contextSwitch fromThread toThread c = some (u, c')) :
    c'.interruptNest = c.interruptNest ∧ c'.spsr = c.spsr ∧ c'.daif = c.spsr ∧
      c'.switches = c.switches + 1 := by
  cases h
  exact ⟨rfl, rfl, rfl, rfl⟩

theorem scheduleSwitch_returned (h0 : Sane c0) (target : Option (Tid × Tid)) :
    Triple (Masked c0) (Call.scheduleSwitch target) fun _ => Returned False (mask c0) := by
  constructor
  intro c a c' h hrun
  cases target with
  | none =>
    cases hrun
    exact h.returned
  | some r =>
    obtain ⟨fromThread, toThread⟩ := r
    dsimp only [Call.scheduleSwitch] at hrun
    rw [bind_apply, getCpu_apply, bind_some, ite_apply] at hrun
    dsimp only at hrun
    have hcount := h.switches
    split at hrun
    · rename_i hirq
      -- in an interrupt the switch is recorded
      obtain ⟨hnest, hspsr, hdaif, hswitches⟩ := hwContextSwitchInterrupt_cpu hrun
      have hnest0 : c0.interruptNest ≠ 0 := h.nest ▸ hirq
      refine ⟨hnest.trans h.nest, hspsr.trans h.spsr, ?_, ?_, False.elim⟩
      · show c0.switches ≤ c'.switches
        omega
      · rw [if_neg fun hlt => hnest0 hlt.1]
        exact hdaif.trans h.daif
    · rename_i hthread
      -- a thread gives up the processor
      obtain ⟨hnest, hspsr, hdaif, hswitches⟩ := contextSwitch_cpu hrun
      have hnest0 : c0.interruptNest = 0 := by
        rw [← h.nest]
        exact not_not.mp hthread
      have hlt : c0.switches < c'.switches := by omega
      refine ⟨hnest.trans h.nest, hspsr.trans h.spsr, Nat.le_of_lt hlt, ?_, False.elim⟩
      rw [if_pos ⟨hnest0, hlt⟩, hdaif, h.spsr]
      exact h0.1

theorem Restores.skSchedule : RestoresMask (Call.skSchedule : KernM σ Unit) := by
  apply Restores.disable_bind
  intro c0 h0
  apply scheduleSelect_masked.bind
  intro target
  apply (scheduleSwitch_returned h0 target).bind
  intro _
  exact (enable_returned h0).weaken (fun _ h => .inl h) fun _ _ h => h

theorem skScheduleRemoveThread_masked :
    Triple (Masked c0) (Call.skScheduleRemoveThread thread : KernM σ Unit) fun _ => Masked c0 :=
  masked_of_eq fun _ h => ⟨some ((), _), removeThread_of_masked h thread⟩

theorem threadWake_masked :
    Triple (Masked c0) (Call.threadWake thread : KernM σ Unit) fun _ => Masked c0 :=
  masked_of_eq fun _ h => ⟨some ((), _), threadWake_of_masked h thread⟩

theorem skTimerStop_masked :
    Triple (Masked c0) (Call.skTimerStop timer : KernM σ SkErr) fun _ => Masked c0 := by
  apply masked_of_eq
  intro c h
  obtain ⟨code, hstop⟩ := skTimerStop_of_masked h timer
  exact ⟨some (code, _), hstop⟩

theorem enable_then (h0 : Sane c0) (hf : ∀ u, Restores q (f u)) :
    Triple (Masked c0) (hwInterruptEnable c0.daif >>= f) fun _ => Returned q c0 :=
  (enable_of_masked h0).bind fun u => (hf u).after h0

/-- A call that has blocked restores the mask once more. -/
theorem enable_again_then (h0 : Sane c0) (hlevel : level = .masked ∨ level = c0.daif)
    (hf : ∀ u, Restores q (f u)) :
    Triple (Returned q c0) (hwInterruptEnable level >>= f) fun _ => Returned q c0 :=
  (enable_again h0 hlevel).bind fun u => (hf u).after h0

theorem finish_returned (h0 : Sane c0) (e : CallEnd) :
    Triple (Masked c0) (finish c0.daif e) fun _ => Returned False c0 := by
  cases e with
  | ret code => exact enable_then h0 fun _ => .pure _
  | schedule => exact enable_then h0 fun _ => .bind .skSchedule fun _ => .pure _

/-! ## The calls -/

namespace Restores

theorem critical (sec : KernelData σ → Option (CallEnd × KernelData σ)) :
    RestoresMask (critical sec) := by
  apply disable_bind
  intro c0 h0
  exact (runSection_masked sec).bind fun e => finish_returned h0 e

theorem skScheduleRemoveThread :
    Restores q (Call.skScheduleRemoveThread thread : KernM σ Unit) := by
  apply disable_bind
  intro c0 h0
  exact (modifySched_masked _).bind fun _ => enable_of_masked h0

theorem skThreadTimeout : RestoresMask (Call.skThreadTimeout thread : KernM σ Unit) := by
  apply disable_bind
  intro c0 h0
  exact threadWake_masked.bind fun _ => enable_then h0 fun _ => skSchedule

theorem skThreadResume : Restores q (Call.skThreadResume thread : KernM σ SkErr) := by
  apply getSched.bind
  intro s
  apply ite (pure _)
  apply disable_bind
  intro c0 h0
  exact threadWake_masked.bind fun _ => enable_then h0 fun _ => pure _

theorem skThreadSuspend : Restores q (Call.skThreadSuspend thread : KernM σ SkErr) := by
  apply getSched.bind
  intro s
  apply ite (pure _)
  apply disable_bind
  intro c0 h0
  apply skScheduleRemoveThread_masked.bind
  intro _
  apply (modifySched_masked _).bind
  intro _
  exact skTimerStop_masked.bind fun _ => enable_then h0 fun _ => pure _

/-! ### Timers -/

theorem skObjectAlloc : Restores q (Call.skObjectAlloc A type name) := by
  apply getData.bind
  intro d
  apply (fromOption _).bind
  intro r
  apply (modifyData _).bind
  intro _
  apply ite (pure _)
  apply (modifyData _).bind
  intro _
  apply disable_bind
  intro c0 h0
  exact (modifyData_masked _).bind fun _ => enable_then h0 fun _ => pure _

theorem skObjectDelete : Restores q (Call.skObjectDelete A obj) := by
  apply (modifyData _).bind
  intro _
  apply disable_bind
  intro c0 h0
  apply (modifyData_masked _).bind
  intro _
  exact enable_then h0 fun _ => getData.bind fun _ => (fromOption _).bind fun _ => modifyData _

theorem skTimerCreate : Restores q (Call.skTimerCreate A name tick flag) := by
  apply skObjectAlloc.bind
  intro timer
  apply ite (pure _)
  exact (modifyData _).bind fun _ => pure _

theorem skTimerInit :
    Restores q (Call.skTimerInit fuel timer name tick flag : KernM σ Unit) :=
  getData.bind fun _ => (fromOption _).bind fun _ => modifyData _

theorem skTimerDelete : Restores q (Call.skTimerDelete A timer) := by
  apply disable_bind
  intro c0 h0
  apply (modifyData_masked _).bind
  intro _
  apply (modifyData_masked _).bind
  intro _
  exact enable_then h0 fun _ => skObjectDelete.bind fun _ => pure _

theorem skTimerStart : Restores q (Call.skTimerStart timer : KernM σ SkErr) := by
  apply disable_bind
  intro c0 h0
  exact (modifyData_masked _).bind fun _ => enable_then h0 fun _ => pure _

theorem skTimerStop : Restores q (Call.skTimerStop timer : KernM σ SkErr) := by
  apply getData.bind
  intro d
  refine ite ?_ (pure _)
  apply disable_bind
  intro c0 h0
  exact (modifyData_masked _).bind fun _ => enable_then h0 fun _ => pure _

theorem skTimerControl :
    Restores q (Call.skTimerControl timer cmd : KernM σ (SkErr × Option Nat)) := by
  apply disable_bind
  intro c0 h0
  apply getData_masked.bind
  intro d
  exact (modifyData_masked _).bind fun _ => enable_then h0 fun _ => pure _

variable {timeoutFunc : Tid → KernM σ Unit}

theorem timerTimeout (h : ∀ i, RestoresMask (timeoutFunc i)) (i : Tid) :
    RestoresMask (Call.timerTimeout timeoutFunc i) :=
  getData.bind fun _ => ite (h i) (pure ())

theorem timerRestart (i : Tid) : Restores q (Call.timerRestart i : KernM σ Unit) :=
  getData.bind fun _ => ite (skTimerStart.bind fun _ => pure ()) (modifyTimers _)

/-- What all the calls in the loop preserve, the loop preserves until it restores the mask. -/
theorem timerCheckLoop {P Q : Cpu σ → Prop} (h : ∀ i, RestoresMask (timeoutFunc i))
    (hP : ∀ {α : Type} {x : KernM σ α}, RestoresMask x → Triple P x fun _ => P)
    (hQ : Triple P (hwInterruptEnable level) fun _ => Q) (fuel : Nat) (list1 : TimerNode Tid) :
    Triple P (Call.timerCheckLoop timeoutFunc level fuel list1) fun _ => Q := by
  induction fuel generalizing list1 with
  | zero => exact ⟨fun _ _ _ _ hrun => nomatch hrun⟩
  | succ fuel ih =>
    cases list1 with
    | head => exact hQ
    | timer i =>
      apply (hP getData).bind
      intro d
      apply Triple.ite
      · -- the timer is due
        intro _
        apply (hP (timerTimeout h i)).bind
        intro _
        apply (hP getData).bind
        intro d
        apply Triple.ite
        · intro _
          exact hQ
        · intro _
          exact (hP (timerRestart i)).bind fun _ => (hP getData).bind fun _ => ih _
      · intro _
        exact ih _

theorem skTimerCheck (h : ∀ i, RestoresMask (timeoutFunc i)) :
    RestoresMask (Call.skTimerCheck timeoutFunc fuel) := by
  apply disable_bind
  intro c0 h0
  apply getData_masked.bind
  intro d
  have hloop := timerCheckLoop h (fun hx => hx.inside h0)
    ((enable_returned h0).weaken (fun _ hr => .inl hr) fun _ _ hr => hr) fuel
    (d.k.timers.links.next .head)
  exact hloop.weaken (fun _ hm => hm.returned) fun _ _ hr => hr

theorem tickSlice (h0 : Sane c0) :
    Triple (Masked c0) (Call.tickSlice c0.daif : KernM σ Unit) fun _ => Returned False c0 := by
  apply getSched_masked.bind
  intro s
  apply (fromOption_masked s.currentThread).bind
  intro thread
  apply Triple.ite
  · intro _
    exact (modifySched_masked _).bind fun _ => enable_then h0 fun _ => skSchedule
  · intro _
    exact (modifySched_masked _).bind fun _ => enable_of_masked h0

theorem skTickIncrease (h : ∀ i, RestoresMask (timeoutFunc i)) :
    RestoresMask (Call.skTickIncrease timeoutFunc fuel) := by
  apply disable_bind
  intro c0 h0
  apply (modifyData_masked _).bind
  intro _
  exact (tickSlice h0).bind fun _ => (skTimerCheck h).after h0

/-! ### IPC -/

theorem skEventSend {set : BitVec 16} {needSchedule : Bool} :
    RestoresMask (Call.skEventSend event set needSchedule : KernM σ SkErr) := by
  rw [skEventSend_eq]
  exact ite (pure _) (critical _)

/-- The second part of `sk_event_recv` reads what has been received, with a mask of its own. -/
theorem eventRecvRead :
    RestoresMask (do
      let level ← hwInterruptDisable
      let d ← Native.getData
      hwInterruptEnable level
      Pure.pure (SkErr.eok, some (eventRecvReturn d.wait thread)) :
        KernM σ (SkErr × Option (BitVec 32))) := by
  apply disable_bind
  intro c0 h0
  exact getData_masked.bind fun _ => enable_then h0 fun _ => pure _

theorem skEventRecv :
    RestoresMask (Call.skEventRecv fuel event set option timeout :
      KernM σ (SkErr × Option (BitVec 32))) := by
  rw [skEventRecv_eq]
  apply ite (pure _)
  apply skCurrentThread.bind
  intro current
  apply (fromOption current).bind
  intro thread
  apply disable_bind
  intro c0 h0
  apply (runSection_masked _).bind
  rintro ⟨e, recved⟩
  cases e with
  | ret code => exact enable_then h0 fun _ => pure _
  | schedule => exact enable_then h0 fun _ => skSchedule.bind fun _ => eventRecvRead

theorem msgQueueRecvCopied :
    RestoresMask (do
      let d ← Native.getData
      let bytes := msgQueueRecvCopy (d.msgQueue mq) d.mem msg size
      let code ← Spec.critical (msgQueueFreeSection mq msg)
      Pure.pure (code, bytes) : KernM σ (SkErr × List UInt8)) :=
  getData.bind fun _ => (critical _).bind fun _ => pure _

theorem ipcResume : Restores q (Call.ipcResume list : KernM σ Unit) :=
  getSched.bind fun _ => (fromOption _).bind fun _ => skThreadResume.bind fun _ => pure _

section

variable (h0 : Sane c0) {level : Daif} (hlevel : level = .masked ∨ level = c0.daif)
include h0 hlevel

theorem ipcResumeFirst :
    Triple (Returned False c0) (Call.ipcResumeFirst list level : KernM σ SkErr) fun _ =>
      Returned False c0 := by
  apply (getSched.after h0).bind
  intro s
  apply Triple.ite
  · intro _
    exact enable_again_then h0 hlevel fun _ => pure _
  · intro _
    apply (ipcResume.after h0).bind
    intro _
    exact enable_again_then h0 hlevel fun _ => skSchedule.bind fun _ => pure _

theorem mailboxSendRest :
    Triple (Returned False c0) (Call.mailboxSendRest mb value level : KernM σ SkErr)
      fun _ => Returned False c0 := by
  apply (getData.after h0).bind
  intro d
  apply Triple.ite
  · intro _
    exact (pure _).after h0
  · intro _
    apply ((modifyData _).after h0).bind
    intro _
    apply Triple.ite
    · intro _
      exact ((modifyData _).after h0).bind fun _ => ipcResumeFirst h0 hlevel
    · intro _
      exact ((modifyData _).after h0).bind fun _ => enable_again_then h0 hlevel fun _ => pure _

theorem mailboxRecvRest :
    Triple (Returned False c0)
      (Call.mailboxRecvRest mb level : KernM σ (SkErr × Option (BitVec 64)))
      fun _ => Returned False c0 := by
  apply (getData.after h0).bind
  intro d
  apply Triple.ite
  · intro _
    exact (pure _).after h0
  · intro _
    apply ((modifyData _).after h0).bind
    intro _
    exact (ipcResumeFirst h0 hlevel).bind fun _ => (pure _).after h0

theorem msgQueueRecvRest :
    Triple (Returned False c0) (Call.msgQueueRecvRest mq size level : KernM σ (SkErr × List UInt8))
      fun _ => Returned False c0 := by
  rw [msgQueueRecvRest_eq]
  apply (getData.after h0).bind
  intro d
  apply ((fromOption _).after h0).bind
  intro r
  cases r with
  | error code => exact (pure _).after h0
  | ok r =>
    exact ((modifyData _).after h0).bind fun _ =>
      enable_again_then h0 hlevel fun _ => msgQueueRecvCopied

end

theorem skMailboxSendWait :
    RestoresMask (Call.skMailboxSendWait fuel mb value timeout : KernM σ SkErr) := by
  rw [skMailboxSendWait_eq]
  apply disable_bind
  intro c0 h0
  apply (runSection_masked _).bind
  intro e
  cases e with
  | done e => exact finish_returned h0 e
  | block =>
    exact (enable_of_masked h0).bind fun _ => (skSchedule.after h0).bind fun _ =>
      mailboxSendRest h0 (.inr rfl)

theorem skMailboxRecv :
    RestoresMask (Call.skMailboxRecv fuel mb timeout :
      KernM σ (SkErr × Option (BitVec 64))) := by
  rw [skMailboxRecv_eq]
  apply disable_bind
  intro c0 h0
  apply (runSection_masked _).bind
  rintro ⟨e, value⟩
  cases e with
  | done e => exact (finish_returned h0 e).bind fun _ => (pure _).after h0
  | block =>
    exact (enable_of_masked h0).bind fun _ => (skSchedule.after h0).bind fun _ =>
      mailboxRecvRest h0 (.inr rfl)

theorem skMsgQueueSendWait :
    RestoresMask (Call.skMsgQueueSendWait mq buffer timeout : KernM σ SkErr) := by
  rw [skMsgQueueSendWait_eq]
  apply getData.bind
  intro d
  apply ite (pure _)
  apply disable_bind
  intro c0 h0
  apply (runSection_masked _).bind
  intro r
  cases r with
  | error code => exact enable_then h0 fun _ => pure _
  | ok msg =>
    exact enable_then h0 fun _ => getData.bind fun _ => (modifyData _).bind fun _ => critical _

theorem skMsgQueueRecv :
    RestoresMask (Call.skMsgQueueRecv fuel mq size timeout : KernM σ (SkErr × List UInt8)) := by
  rw [skMsgQueueRecv_eq]
  apply disable_bind
  intro c0 h0
  apply (runSection_masked _).bind
  intro r
  match r with
  | .error code => exact enable_then h0 fun _ => pure _
  | .ok none =>
    exact (enable_of_masked h0).bind fun _ => (skSchedule.after h0).bind fun _ =>
      msgQueueRecvRest h0 (.inr rfl)
  | .ok (some msg) => exact enable_then h0 fun _ => msgQueueRecvCopied

end Restores

/-! ## The return paths that forget the mask -/

theorem skScheduleInsertThread_current (hcur : c.sched.currentThread = some thread)
    (hrun : Call.skScheduleInsertThread thread c = some (u, c')) : Masked c c' := by
  rw [Call.skScheduleInsertThread, bind_apply, disable_eq] at hrun
  dsimp only [bind_some, bind_apply, getSched_apply, modifySched_apply] at hrun
  rw [if_pos (by exact (maskNow_currentThread c).trans hcur)] at hrun
  cases hrun
  have h := maskNow_masked c
  exact ⟨h.nest, h.spsr, h.switches, h.daif⟩

theorem skScheduleInsertThread_other (hc : Sane c)
    (hcur : c.sched.currentThread ≠ some thread)
    (hrun : Call.skScheduleInsertThread thread c = some (u, c')) : Returned q c c' := by
  rw [Call.skScheduleInsertThread, bind_apply, disable_eq] at hrun
  dsimp only [bind_some, bind_apply, getSched_apply, modifySched_apply] at hrun
  rw [if_neg (by rw [← maskNow_currentThread c] at hcur; exact hcur)] at hrun
  have h := maskNow_masked c
  refine (enable_of_masked hc).run _ u c' ?_ hrun
  exact ⟨h.nest, h.spsr, h.switches, h.daif⟩

/-- `sk_thead_suspend` finds, with interrupts masked, that the thread is the running one. -/
def FindsRunning (c : Cpu σ) (thread : Tid) : Prop :=
  ((c.sched.thread thread).stat = threadReady ∨ (c.sched.thread thread).stat = threadRunning) ∧
    ((maskNow c).sched.thread thread).stat = threadRunning ∧
    c.sched.currentThread = some thread

instance (c : Cpu σ) (thread : Tid) : Decidable (FindsRunning c thread) :=
  inferInstanceAs (Decidable (_ ∧ _ ∧ _))

theorem skTheadSuspend_cases (hc : Sane c) {code : SkErr}
    (hrun : Call.skTheadSuspend thread c = some (code, c')) :
    if FindsRunning c thread then Masked c c' else Returned q c c' := by
  rw [Call.skTheadSuspend, bind_apply, getSched_apply, bind_some,
    ite_apply] at hrun
  split at hrun
  · -- the thread is neither ready nor running
    rename_i hstat
    cases hrun
    rw [if_neg fun h => h.1.elim hstat.1 hstat.2]
    exact .refl c
  · rename_i hstat
    rw [bind_apply, disable_eq, bind_some, bind_apply, getSched_apply,
      bind_some, ite_apply] at hrun
    split at hrun
    · rename_i hrunning
      cases hrun
      have hcur : c.sched.currentThread = some thread :=
        (maskNow_currentThread c).symm.trans hrunning.2
      have hready : (c.sched.thread thread).stat = threadReady ∨
          (c.sched.thread thread).stat = threadRunning := by
        by_contra hno
        exact hstat ⟨fun h => hno (.inl h), fun h => hno (.inr h)⟩
      rw [if_pos ⟨hready, hrunning.1, hcur⟩]
      exact maskNow_masked c
    · rename_i hrunning
      have hno : ¬FindsRunning c thread :=
        fun h => hrunning ⟨h.2.1, (maskNow_currentThread c).trans h.2.2⟩
      rw [if_neg hno]
      have hrest : Triple (Masked c) (do
          Call.skScheduleRemoveThread thread
          modifySched (·.setStat thread threadSuspend)
          hwInterruptEnable c.daif
          Pure.pure SkErr.eok : KernM σ SkErr) fun _ => Returned q c := by
        apply skScheduleRemoveThread_masked.bind
        intro _
        exact (modifySched_masked _).bind fun _ => enable_then hc fun _ => .pure _
      exact hrest.run _ code c' (maskNow_masked c) hrun

end SKernel.Spec
