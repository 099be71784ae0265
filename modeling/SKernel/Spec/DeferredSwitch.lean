import Mathlib.Logic.Relation
import SKernel.ForStd.Simulation
import SKernel.Spec.CallSections
import SKernel.Spec.SchedCorrect

/-!
# The deferred context switch

In an interrupt `sk_schedule` changes `current_thread` at once and only records the switch of the
contexts; `vector_irq` makes it up when the handler is done. However often the handler calls
`sk_schedule`, the threads between the first and the last never run: the context of the
interrupted thread is saved in its own `sp` and the context of the current thread is restored.

## Key results

- `tick_on_kernel`: the code of `sk_tick_increase` acts on the data as its model
- `Deferred.run`: the recorded switch is from the interrupted thread to the current one
-/

namespace SKernel.Spec

open Native Function
open Option hiding bind_apply
open StateT (bind_apply ite_apply)

variable {σ α β : Type} {c c' c0 : Cpu σ} {A : Tid} {k : Kernel} {x : KernM σ α}
variable {f : Kernel → Option Kernel} {irq : Nat}

/-! ## What a handler does -/

/-- The processor is in an interrupt, and interrupts are masked. -/
def InIrq (c : Cpu σ) : Prop := c.daif = .masked ∧ c.interruptNest ≠ 0

/-- Work on the data of the kernel that leaves the current thread alone. -/
structure Work (c c' : Cpu σ) : Prop where
  cpu : c' = { c with data := c'.data }
  current : c'.sched.currentThread = c.sched.currentThread

/-- A handler works on the data, or calls `sk_schedule`. -/
inductive HandlerStep : Cpu σ → Cpu σ → Prop where
  | work {c c' : Cpu σ} (h : Work c c') : HandlerStep c c'
  | schedule {c c' : Cpu σ} (h : Call.skSchedule c = some ((), c')) : HandlerStep c c'

/-- Any number of such steps, in any order. -/
def HandlerRun : Cpu σ → Cpu σ → Prop := Relation.ReflTransGen HandlerStep

/-- Everything that the code does in an interrupt is such a run. -/
def Handles (x : KernM σ α) : Prop := Effects InIrq HandlerRun x

theorem work_setKernel (h : k.sched.currentThread = c.sched.currentThread) :
    Work c (setKernel c k) := ⟨rfl, h⟩

theorem InIrq.work (h : InIrq c) (hw : Work c c') : InIrq c' := by
  rw [hw.cpu]
  exact h

/-- Nothing happens, or a switch is recorded. -/
theorem skSchedule_irq_cases (h : InIrq c) (hrun : Call.skSchedule c = some ((), c')) :
    c' = c ∨ ∃ fromThread toThread k, c.sched.currentThread = some fromThread ∧
      k.sched.currentThread = some toThread ∧
      hwContextSwitchInterrupt fromThread toThread (setKernel c k) = some ((), c') := by
  rw [Call.skSchedule, disable_bind_of_masked h.1, bind_apply,
    scheduleSelect_of_masked h.1] at hrun
  obtain ⟨r, hr, hrun⟩ := bind_eq_some_iff.mp hrun
  obtain ⟨s, hs, rfl⟩ := map_eq_some_iff.mp hr
  obtain ⟨ht, rfl⟩ | ⟨fromThread, toThread, ht, hfrom, hto⟩ := switchTarget_of_skSchedule hs
  · rw [ht] at hrun
    cases hrun
    exact .inl rfl
  · refine .inr ⟨fromThread, toThread, { c.data.k with sched := s }, hfrom, hto, ?_⟩
    rw [ht, bind_apply] at hrun
    dsimp only [Call.scheduleSwitch] at hrun
    rw [bind_apply, getCpu_apply, bind_some, if_pos (by exact h.2)] at hrun
    obtain ⟨⟨u, c1⟩, hsw, hen⟩ := bind_eq_some_iff.mp hrun
    cases hen
    exact hsw

theorem InIrq.step (h : InIrq c) (hstep : HandlerStep c c') : InIrq c' := by
  cases hstep with
  | work hw => exact h.work hw
  | schedule hs =>
    obtain rfl | ⟨fromThread, toThread, k, _, _, hsw⟩ := skSchedule_irq_cases h hs
    · exact h
    · cases hsw
      unfold InIrq
      dsimp only
      split <;> exact h

theorem InIrq.run (h : InIrq c) (hrun : HandlerRun c c') : InIrq c' := by
  induction hrun with
  | refl => exact h
  | tail _ hstep ih => exact ih.step hstep

/-! ## Code of a handler -/

namespace Handles

theorem composable : Composable (InIrq (σ := σ)) HandlerRun where
  refl _ := .refl
  trans _ _ _ h h' := Relation.ReflTransGen.trans h h'
  keeps _ _ h hrun := h.run hrun

theorem pure (a : α) : Handles (pure a : KernM σ α) := Effects.pure composable a

theorem bind {f : α → KernM σ β} (hx : Handles x) (hf : ∀ a, Handles (f a)) :
    Handles (x >>= f) := Effects.bind composable hx hf

theorem ite {p : Prop} [Decidable p] {y : KernM σ α} (hx : Handles x) (hy : Handles y) :
    Handles (if p then x else y) := Effects.ite hx hy

theorem disable_bind {f : Daif → KernM σ β} (h : Handles (f .masked)) :
    Handles (hwInterruptDisable >>= f) := by
  intro c b c' hc hrun
  rw [disable_bind_of_masked hc.1] at hrun
  exact h c b c' hc hrun

theorem enable : Handles (hwInterruptEnable .masked : KernM σ Unit) := by
  intro c a c' _ hrun
  cases hrun
  exact .refl

theorem getSched : Handles (getSched : KernM σ Sched) :=
  Effects.read composable fun _ a _ h => getSched_reads a h

theorem getData : Handles (getData : KernM σ (KernelData σ)) :=
  Effects.read composable fun _ a _ h => getData_reads a h

theorem fromOption (a : Option α) : Handles (fromOption a : KernM σ α) :=
  Effects.read composable fun _ b _ h => fromOption_reads a b h

theorem modifySched {f : Sched → Sched} (h : ∀ s, (f s).currentThread = s.currentThread) :
    Handles (modifySched f : KernM σ Unit) := by
  intro c a c' _ hrun
  cases hrun
  exact .single (.work (work_setKernel (h c.sched)))

theorem modifyTimers (f : Timers Tid → Timers Tid) : Handles (modifyTimers f : KernM σ Unit) := by
  intro c a c' _ hrun
  cases hrun
  exact .single (.work (work_setKernel rfl))

theorem skSchedule : Handles (Call.skSchedule : KernM σ Unit) := by
  intro c a c' _ hrun
  exact .single (.schedule hrun)

theorem skScheduleInsertThread (thread : Tid) :
    Handles (Call.skScheduleInsertThread thread : KernM σ Unit) := by
  intro c a c' hc hrun
  rw [insertThread_of_masked hc.1] at hrun
  cases hrun
  exact .single (.work (work_setKernel (skScheduleInsertThread_currentThread _ _)))

theorem skThreadTimeout (thread : Tid) : Handles (Call.skThreadTimeout thread : KernM σ Unit) := by
  have hwake : Handles (Call.threadWake thread : KernM σ Unit) :=
    Handles.bind (modifySched fun _ => rfl) fun _ => skScheduleInsertThread thread
  exact disable_bind (hwake.bind fun _ => enable.bind fun _ => skSchedule)

theorem skTimerStart (timer : TimerRef) : Handles (Call.skTimerStart timer : KernM σ SkErr) :=
  disable_bind ((modifyTimers _).bind fun _ => enable.bind fun _ => pure _)

variable {timeoutFunc : Tid → KernM σ Unit}

theorem timerTimeout (h : ∀ i, Handles (timeoutFunc i)) (i : Tid) :
    Handles (Call.timerTimeout timeoutFunc i) :=
  getData.bind fun _ => ite (h i) (pure ())

theorem timerRestart (i : Tid) : Handles (Call.timerRestart i : KernM σ Unit) :=
  getData.bind fun _ => ite ((skTimerStart _).bind fun _ => pure ()) (modifyTimers _)

theorem timerCheckLoop (h : ∀ i, Handles (timeoutFunc i)) (fuel : Nat) (list1 : TimerNode Tid) :
    Handles (Call.timerCheckLoop timeoutFunc .masked fuel list1) := by
  induction fuel generalizing list1 with
  | zero => exact fromOption none
  | succ fuel ih =>
    cases list1 with
    | head => exact enable
    | timer i =>
      apply getData.bind
      intro d
      apply ite
      · -- the timer is due
        apply (timerTimeout h i).bind
        intro _
        apply getData.bind
        intro d
        apply ite enable
        exact (timerRestart i).bind fun _ => getData.bind fun _ => ih _
      · exact ih _

theorem tickSlice : Handles (Call.tickSlice .masked : KernM σ Unit) := by
  apply getSched.bind
  intro s
  apply (fromOption s.currentThread).bind
  intro thread
  apply ite
  · exact Handles.bind (modifySched fun _ => rfl) fun _ => enable.bind fun _ => skSchedule
  · exact Handles.bind (modifySched fun _ => rfl) fun _ => enable

theorem skTickIncrease (h : ∀ i, Handles (timeoutFunc i)) (fuel : Nat) :
    Handles (Call.skTickIncrease timeoutFunc fuel) := by
  have hcheck : Handles (Call.skTimerCheck timeoutFunc fuel) :=
    disable_bind (getData.bind fun _ => timerCheckLoop h fuel _)
  exact disable_bind ((modifyTimers _).bind fun _ => tickSlice.bind fun _ => hcheck)

end Handles

/-! ## The tick as the model of the data has it -/

/-- In an interrupt the code does to the scheduler and the timers what `f` does. -/
def OnKernel (x : KernM σ α) (f : Kernel → Option Kernel) : Prop :=
  ∀ c, InIrq c → ((x c).map fun r => r.2.data.k) = f c.data.k

theorem OnKernel.bind {y : α → KernM σ β} {g : Kernel → Option Kernel} (hx : OnKernel x f)
    (hrun : Handles x) (hy : ∀ a, OnKernel (y a) g) :
    OnKernel (x >>= y) fun k => (f k).bind g := by
  intro c hc
  have hk := hx c hc
  show _ = (f c.data.k).bind g
  rw [bind_apply, ← hk]
  cases hxc : x c with
  | none => rfl
  | some r => exact hy r.1 r.2 (hc.run (hrun c r.1 r.2 hc hxc))

theorem OnKernel.disable_bind {y : Daif → KernM σ β} (h : OnKernel
    (y .masked) f) : OnKernel (hwInterruptDisable >>= y) f := by
  intro c hc
  rw [disable_bind_of_masked hc.1]
  exact h c hc

theorem OnKernel.skSchedule : OnKernel (Call.skSchedule : KernM σ Unit) thenSchedule := by
  intro c hc
  unfold thenSchedule
  rw [Call.skSchedule, disable_bind_of_masked hc.1, bind_apply,
    scheduleSelect_of_masked hc.1]
  cases hs : Native.skSchedule c.data.k.sched with
  | none => rfl
  | some s =>
    obtain ⟨ht, -⟩ | ⟨fromThread, toThread, ht, -, -⟩ := switchTarget_of_skSchedule hs
    · dsimp only [map_some, bind_some]
      rw [ht]
      rfl
    · dsimp only [map_some, bind_some, bind_apply]
      rw [ht]
      dsimp only [Call.scheduleSwitch, bind_apply, getCpu_apply, bind_some]
      -- recording the switch leaves the data alone
      rw [if_pos (by exact hc.2)]
      dsimp only [hwContextSwitchInterrupt, modifyCpu, bind_some]
      split <;> rfl

theorem OnKernel.skThreadTimeout (thread : Tid) :
    OnKernel (Call.skThreadTimeout thread : KernM σ Unit) fun k =>
      (skThreadTimeout k.sched thread).map fun s => { k with sched := s } := by
  apply OnKernel.disable_bind
  intro c hc
  rw [bind_apply, threadWake_of_masked hc.1]
  exact OnKernel.skSchedule _ (hc.work (work_setKernel (skScheduleInsertThread_currentThread _ _)))

theorem timerRestart_of_masked (h : c.daif = .masked) (i : Tid) :
    Call.timerRestart i c = some ((), setKernel c { c.data.k with
      timers := if (c.data.k.timers.timer i).isPeriodic then skTimerStart c.data.k.timers i
        else timerDeactivate c.data.k.timers i }) := by
  rw [Call.timerRestart, bind_apply, getData_apply, bind_some, ite_apply,
    bind_apply, skTimerStart_of_masked h]
  dsimp only
  split <;> rfl

/-- The scheduler and the timers at the end of a tick, if no null pointer has been followed. -/
def tickEnd : Option (Timers Tid × Option Sched) → Option Kernel
  | some (timers, some sched) => some { sched, timers }
  | _ => none

/-- What `sk_timer_check` does to the scheduler for a thread whose timer has run out. -/
def timeoutOf (thread : Tid) (s : Option Sched) : Option Sched :=
  s.bind (skThreadTimeout · thread)

/-- There is no way back from a null pointer. -/
theorem tickEnd_none (fuel : Nat) (list1 : TimerNode Tid) (tm : Timers Tid) :
    tickEnd (timerCheckLoop timeoutOf fuel list1 tm none) = none := by
  induction fuel generalizing list1 tm with
  | zero => rfl
  | succ fuel ih =>
    cases list1 with
    | head => rfl
    | timer i =>
      dsimp only [timerCheckLoop]
      rw [show timeoutOf i none = none from rfl, ite_self]
      split_ifs
      · rfl
      · exact ih _ _
      · exact ih _ _
      · exact ih _ _

/-- The loop of `sk_timer_check` after the timeout function of timer `i`. -/
def timerCheckRest (fuel : Nat) (i : Tid) (tm : Timers Tid) (s : Option Sched) :
    Option (Timers Tid × Option Sched) :=
  if tm.links.next (.timer i) = tm.links.prev (.timer i) then some (tm, s)
  else
    let tm := if (tm.timer i).isPeriodic then skTimerStart tm i else timerDeactivate tm i
    timerCheckLoop timeoutOf fuel (tm.links.next (.timer i)) tm s

theorem tickEnd_rest_none (fuel : Nat) (i : Tid) (tm : Timers Tid) :
    tickEnd (timerCheckRest fuel i tm none) = none := by
  unfold timerCheckRest
  split
  · rfl
  · exact tickEnd_none _ _ _

theorem OnKernel.timerTimeout (i : Tid) :
    OnKernel (Call.timerTimeout Call.skThreadTimeout i : KernM σ Unit) fun k =>
      (if (k.timers.timer i).isActive then timeoutOf i (some k.sched) else some k.sched).map
        fun s => { k with sched := s } := by
  intro c hc
  dsimp only [Call.timerTimeout, bind_apply, getData_apply, bind_some]
  rw [ite_apply]
  split
  · exact OnKernel.skThreadTimeout i c hc
  · rfl

theorem OnKernel.timerCheckLoop (fuel : Nat) (list1 : TimerNode Tid) :
    OnKernel (Call.timerCheckLoop Call.skThreadTimeout .masked fuel list1 : KernM σ Unit) fun k =>
      tickEnd (timerCheckLoop timeoutOf fuel list1 k.timers (some k.sched)) := by
  induction fuel generalizing list1 with
  | zero => exact fun _ _ => rfl
  | succ fuel ih =>
    cases list1 with
    | head => exact fun _ _ => rfl
    | timer i =>
      -- the part after the timeout function
      have hrest : OnKernel (do
          let d ← getData
          if d.k.timers.links.next (.timer i) = d.k.timers.links.prev (.timer i) then
            hwInterruptEnable .masked
          else
            Call.timerRestart i
            let d ← getData
            Call.timerCheckLoop Call.skThreadTimeout .masked fuel
              (d.k.timers.links.next (.timer i)) : KernM σ Unit) fun k =>
          tickEnd (timerCheckRest fuel i k.timers (some k.sched)) := by
        intro c hc
        unfold timerCheckRest
        dsimp only [bind_apply, getData_apply, bind_some]
        rw [ite_apply, bind_apply, timerRestart_of_masked hc.1]
        split
        · rfl
        · exact ih _ _ (hc.work (work_setKernel rfl))
      intro c hc
      have hdue := (OnKernel.timerTimeout i).bind (.timerTimeout .skThreadTimeout i)
        (fun _ => hrest) c hc
      dsimp only [Call.timerCheckLoop, Native.timerCheckLoop, bind_apply, getData_apply,
        bind_some]
      rw [ite_apply]
      split
      · apply hdue.trans
        show _ = tickEnd (timerCheckRest fuel i c.data.k.timers _)
        dsimp only
        generalize (if (c.data.k.timers.timer i).isActive = true then
          timeoutOf i (some c.data.k.sched) else some c.data.k.sched) = s
        cases s with
        | none => exact (tickEnd_rest_none _ _ _).symm
        | some s => rfl
      · exact ih _ c hc

/-- The arithmetic of the count stays closed. -/
theorem call_tickSlice_eq {thread : Tid} (hcur : c.data.k.sched.currentThread = some thread) :
    Call.tickSlice .masked c =
      if remainTickDec (c.data.k.sched.thread thread) = 0 then
        Call.skSchedule (setKernel c { c.data.k with
          sched := sliceExpired c.data.k.sched thread })
      else
        some ((), setKernel c { c.data.k with
          sched := c.data.k.sched.setThread thread { c.data.k.sched.thread thread with
            remainTick := remainTickDec (c.data.k.sched.thread thread) } }) := by
  unfold Call.tickSlice
  rw [bind_apply, getSched_apply, bind_some, bind_apply, fromOption_apply,
    hcur, map_some, bind_some, ite_apply]
  by_cases hdec : remainTickDec (c.data.k.sched.thread thread) = 0
  · rw [if_pos hdec, if_pos hdec]
    rfl
  · rw [if_neg hdec, if_neg hdec]
    rfl

theorem OnKernel.tickSlice :
    OnKernel (Call.tickSlice .masked : KernM σ Unit) fun k =>
      (tickSlice k.sched).map fun s => { k with sched := s } := by
  intro c hc
  show _ = (Native.tickSlice c.data.k.sched).map _
  cases hcur : c.data.k.sched.currentThread with
  | none =>
    have hcall : Call.tickSlice .masked c = none := by
      rw [Call.tickSlice, bind_apply, getSched_apply, bind_some, bind_apply,
        fromOption_apply, hcur]
      rfl
    have hnative : Native.tickSlice c.data.k.sched = none := by
      unfold Native.tickSlice
      rw [hcur]
    rw [hcall, hnative]
    rfl
  | some thread =>
    rw [call_tickSlice_eq hcur, tickSlice_of_current hcur]
    split
    · exact OnKernel.skSchedule _ (hc.work (work_setKernel rfl))
    · rfl

theorem tickEnd_of_slice (fuel : Nat) (tm : Timers Tid) (s : Option Sched) :
    ((s.map fun s => ({ sched := s, timers := tm } : Kernel)).bind fun k =>
      tickEnd (skTimerCheck timeoutOf fuel k.timers (some k.sched))) =
      tickEnd (skTimerCheck timeoutOf fuel tm s) := by
  cases s with
  | none => exact (tickEnd_none _ _ _).symm
  | some s => rfl

theorem OnKernel.skTimerCheck (fuel : Nat) :
    OnKernel (Call.skTimerCheck Call.skThreadTimeout fuel : KernM σ Unit) fun k =>
      tickEnd (skTimerCheck timeoutOf fuel k.timers (some k.sched)) := by
  apply OnKernel.disable_bind
  intro c hc
  exact OnKernel.timerCheckLoop fuel _ c hc

/-- **The tick in an interrupt.** In an interrupt `sk_tick_increase` does to the scheduler and the
    timers what its model without masks and contexts does. -/
theorem tick_on_kernel (fuel : Nat) :
    OnKernel (Call.skTickIncrease Call.skThreadTimeout fuel : KernM σ Unit)
      (skTickIncrease fuel) := by
  apply OnKernel.disable_bind
  intro c hc
  have hrest := OnKernel.tickSlice.bind .tickSlice (fun _ => OnKernel.skTimerCheck fuel)
    (setKernel c { c.data.k with
      timers := { c.data.k.timers with skTick := c.data.k.timers.tickAfter 1 } })
    (hc.work (work_setKernel rfl))
  exact hrest.trans (tickEnd_of_slice _ _ _)

/-! ## The recorded switch -/

/-- What a handler that interrupted the thread `A` in state `c0` has recorded at `c`: nothing, or a
    switch from `A` to the current thread. -/
structure Deferred (c0 : Cpu σ) (A : Tid) (c : Cpu σ) : Prop where
  sp : c.sp = c0.sp
  nest : c.interruptNest = c0.interruptNest
  recorded :
    (c.threadSwitchInterruptFlag = 0 ∧ c.switches = c0.switches ∧
      c.sched.currentThread = some A) ∨
    (c.threadSwitchInterruptFlag = 1 ∧ c0.switches < c.switches ∧ c.interruptFromThread = A ∧
      c.sched.currentThread = some c.interruptToThread)

theorem Deferred.work (h : Deferred c0 A c) (hw : Work c c') : Deferred c0 A c' := by
  have hcur := hw.current
  obtain ⟨hsp, hnest, hrec⟩ := h
  rw [hw.cpu] at hcur ⊢
  exact ⟨hsp, hnest, by rw [hcur]; exact hrec⟩

theorem hwContextSwitchInterrupt_first (fromThread toThread : Tid)
    (h : c.threadSwitchInterruptFlag ≠ 1) :
    hwContextSwitchInterrupt fromThread toThread c =
      some ((), { c with
        threadSwitchInterruptFlag := 1
        interruptFromThread := fromThread
        interruptToThread := toThread
        switches := c.switches + 1 }) := by
  rw [hwContextSwitchInterrupt, modifyCpu_apply]
  simp only [if_pos h]

theorem hwContextSwitchInterrupt_again (fromThread toThread : Tid)
    (h : c.threadSwitchInterruptFlag = 1) :
    hwContextSwitchInterrupt fromThread toThread c =
      some ((), { c with interruptToThread := toThread, switches := c.switches + 1 }) := by
  rw [hwContextSwitchInterrupt, modifyCpu_apply]
  simp only [h, ne_eq, not_true_eq_false, if_false]

theorem Deferred.switch {fromThread toThread : Tid} (h : Deferred c0 A c)
    (hfrom : c.sched.currentThread = some fromThread) (hto : k.sched.currentThread = some toThread)
    (hsw : hwContextSwitchInterrupt fromThread toThread (setKernel c k) = some ((), c')) :
    Deferred c0 A c' := by
  obtain ⟨hflag, hcount, hcur⟩ | ⟨hflag, hcount, hA, _⟩ := h.recorded
  · have hfirst : (setKernel c k).threadSwitchInterruptFlag ≠ 1 := by
      show c.threadSwitchInterruptFlag ≠ 1
      omega
    rw [hwContextSwitchInterrupt_first _ _ hfirst] at hsw
    cases hsw
    have hfromA : fromThread = A := some.inj (hfrom.symm.trans hcur)
    exact ⟨h.sp, h.nest, .inr ⟨rfl, by show _ < c.switches + 1; omega, hfromA, hto⟩⟩
  · rw [hwContextSwitchInterrupt_again (c := setKernel c k) _ _ hflag] at hsw
    cases hsw
    exact ⟨h.sp, h.nest, .inr ⟨hflag, by show _ < c.switches + 1; omega, hA, hto⟩⟩

theorem Deferred.step (h : Deferred c0 A c) (hc : InIrq c) (hstep : HandlerStep c c') :
    Deferred c0 A c' := by
  cases hstep with
  | work hw => exact h.work hw
  | schedule hs =>
    obtain rfl | ⟨fromThread, toThread, k, hfrom, hto, hsw⟩ := skSchedule_irq_cases hc hs
    · exact h
    · exact h.switch hfrom hto hsw

/-- However often the handler calls `sk_schedule`. -/
theorem Deferred.run (h : Deferred c0 A c) (hc : InIrq c) (hrun : HandlerRun c c') :
    Deferred c0 A c' := by
  induction hrun with
  | refl => exact h
  | tail hrun hstep ih => exact ih.step (hc.run hrun) hstep

/-! ## The interrupt as a whole -/

/-- The state in which the handler starts. -/
def irqEntry (c : Cpu σ) : Cpu σ :=
  { c.takeException with interruptNest := (c.interruptNest + 1) % 2 ^ 8 }

/-- Between interrupts: no interrupt is being handled, and no switch is recorded. -/
structure Settled (c : Cpu σ) : Prop where
  nest : c.interruptNest = 0
  flag : c.threadSwitchInterruptFlag = 0

theorem Settled.inIrq (h : Settled c) : InIrq (irqEntry c) := by
  refine ⟨rfl, ?_⟩
  show (c.interruptNest + 1) % 2 ^ 8 ≠ 0
  rw [h.nest]
  decide

theorem Settled.deferred (h : Settled c) (hA : c.sched.currentThread = some A) :
    Deferred (irqEntry c) A (irqEntry c) :=
  ⟨rfl, rfl, .inl ⟨h.flag, rfl, hA⟩⟩

/-- The handlers of the table do nothing but work on the data and call `sk_schedule`. -/
def HandlerTable (isrTable : Nat → Option (KernM σ Unit)) : Prop :=
  ∀ irq isr, isrTable irq = some isr → Handles isr

theorem skInterruptEnter_of_masked (h : c.daif = .masked) :
    skInterruptEnter c =
      some ((), { c with interruptNest := (c.interruptNest + 1) % 2 ^ 8 }) := by
  rw [skInterruptEnter, disable_bind_of_masked h]
  rfl

theorem skInterruptLeave_of_masked (h : c.daif = .masked) :
    skInterruptLeave c =
      some ((), { c with interruptNest := (c.interruptNest + (2 ^ 8 - 1)) % 2 ^ 8 }) := by
  rw [skInterruptLeave, disable_bind_of_masked h]
  rfl

variable {isrTable : Nat → Option (KernM σ Unit)}

theorem HandlerTable.trap (h : HandlerTable isrTable) (irq : Nat) :
    Handles (skHwTrapIrq isrTable irq) := by
  unfold skHwTrapIrq
  split
  · exact .pure ()
  · split
    · exact h irq _ ‹_›
    · exact .pure ()

theorem vectorIrq_run (hisr : HandlerTable isrTable) (h : Settled c)
    (hv : vectorIrq isrTable irq c = some ((), c')) :
    ∃ c1, HandlerRun (irqEntry c) c1 ∧
      vectorIrqEnd ⟨c.spEl0, c.daif⟩ { c1 with
        interruptNest := (c1.interruptNest + (2 ^ 8 - 1)) % 2 ^ 8 } = some ((), c') := by
  unfold vectorIrq at hv
  simp only [bind_apply, modifyCpu_apply, getCpu_apply, bind_some] at hv
  rw [skInterruptEnter_of_masked rfl, bind_some] at hv
  obtain ⟨⟨u, c1⟩, htrap, hv⟩ := bind_eq_some_iff.mp hv
  have hrun : HandlerRun (irqEntry c) c1 := hisr.trap irq _ u c1 h.inIrq htrap
  refine ⟨c1, hrun, ?_⟩
  rw [skInterruptLeave_of_masked (h.inIrq.run hrun).1, bind_some] at hv
  exact hv

/-- What an interrupt does to the contexts. -/
structure Switched (c : Cpu σ) (A : Tid) (c' : Cpu σ) : Prop where
  settled : Settled c'
  /-- the interrupted context is saved in `sp` of `A` if there has been a switch, and no other
      thread's `sp` is changed -/
  sp : c'.sp =
    if c.switches < c'.switches then update c.sp A ⟨c.spEl0, c.daif⟩ else c.sp
  /-- without a switch `A` is still the current thread -/
  current : ¬c.switches < c'.switches → c'.sched.currentThread = some A
  /-- the context that is restored is the one of the current thread -/
  restored : ∃ B, c'.sched.currentThread = some B ∧
    c'.saveContext = update c.sp A ⟨c.spEl0, c.daif⟩ B ∧ c'.daif = c'.spsr

theorem Settled.vectorIrq (h : Settled c) (hisr : HandlerTable isrTable)
    (hA : c.sched.currentThread = some A) (hv : vectorIrq isrTable irq c = some
    ((), c')) : Switched c A c' := by
  obtain ⟨c1, hrun, hend⟩ := vectorIrq_run hisr h hv
  obtain ⟨hsp, hnest, hrec⟩ := (h.deferred hA).run h.inIrq hrun
  have hnest1 : (c1.interruptNest + (2 ^ 8 - 1)) % 2 ^ 8 = 0 := by
    rw [hnest]
    show ((c.interruptNest + 1) % 2 ^ 8 + (2 ^ 8 - 1)) % 2 ^ 8 = 0
    rw [h.nest]
    rfl
  rw [vectorIrqEnd, modifyCpu_apply] at hend
  obtain ⟨hflag, hcount, hcur⟩ | ⟨hflag, hcount, hfrom, hcur⟩ := hrec
  · -- nothing is recorded, and the context of `A` is restored
    rw [if_neg (by show ¬c1.threadSwitchInterruptFlag = 1; omega)] at hend
    cases hend
    have hno : ¬c.switches < c1.switches := by
      show ¬(irqEntry c).switches < c1.switches
      omega
    have hslots : c1.sp =
        if c.switches < c1.switches then update c.sp A ⟨c.spEl0, c.daif⟩ else c.sp := by
      rw [if_neg hno]
      exact hsp
    have hown : (⟨c.spEl0, c.daif⟩ : Context) = update c.sp A ⟨c.spEl0, c.daif⟩ A := by
      rw [update_self]
    exact ⟨⟨hnest1, hflag⟩, hslots, fun _ => hcur, A, hcur, hown, rfl⟩
  · -- a switch from `A` to the current thread is recorded
    rw [if_pos (by exact hflag)] at hend
    cases hend
    have hyes : c.switches < c1.switches := hcount
    have hslots : update c1.sp c1.interruptFromThread ⟨c.spEl0, c.daif⟩ =
        update c.sp A ⟨c.spEl0, c.daif⟩ := by
      rw [hfrom, hsp]
      rfl
    exact ⟨⟨hnest1, rfl⟩, hslots.trans (if_pos hyes).symm, fun hno => absurd hyes hno,
      c1.interruptToThread, hcur, congrFun hslots c1.interruptToThread, rfl⟩

/-! ## Runs of the processor -/

/-- The running thread works on the data, moves its stack pointer and sets the mask, or calls
    `sk_schedule`; or an interrupt is taken. -/
inductive CpuEvent (σ : Type) where
  | work (data : KernelData σ) (spEl0 : Nat) (daif : Daif)
  | schedule
  | irq (irq : Nat)

/-- A thread calls `sk_schedule`, until the thread runs that is switched to. -/
def scheduleOut : KernM σ Unit := do
  modifyCpu fun c => { c with daif := .masked }
  let target ← Call.scheduleSelect
  match target with
  | none => pure ()
  | some (fromThread, toThread) => hwContextSwitch fromThread toThread

/-- One event, with the table of the handlers. -/
def cpuStep (isrTable : Nat → Option (KernM σ Unit)) (c : Cpu σ) : CpuEvent σ → Option (Cpu σ)
  | .work data spEl0 daif =>
    if data.k.sched.currentThread = c.sched.currentThread then
      some { c with data := data, spEl0 := spEl0, daif := daif }
    else none
  | .schedule => (scheduleOut c).map Prod.snd
  | .irq irq =>
    if c.daif.i = false then (vectorIrq isrTable irq c).map Prod.snd else none

/-- The processor from the time on when the scheduler has been started. -/
def cpuSystem (isrTable : Nat → Option (KernM σ Unit)) :
    TransitionSystem (Cpu σ) (CpuEvent σ) where
  init c := Settled c ∧ ∃ A, c.sched.currentThread = some A
  step := cpuStep isrTable

/-- `sk_schedule` in a thread records nothing. -/
theorem Settled.scheduleOut (h : Settled c) (hA : c.sched.currentThread = some A)
    (hrun : scheduleOut c = some ((), c')) :
    Settled c' ∧ ∃ B, c'.sched.currentThread = some B := by
  unfold Spec.scheduleOut at hrun
  rw [bind_apply, modifyCpu_apply, bind_some, bind_apply,
    scheduleSelect_of_masked rfl] at hrun
  obtain ⟨r, hr, hrun⟩ := bind_eq_some_iff.mp hrun
  obtain ⟨s, hs, rfl⟩ := map_eq_some_iff.mp hr
  obtain ⟨ht, rfl⟩ | ⟨fromThread, toThread, ht, -, hto⟩ := switchTarget_of_skSchedule hs
  · rw [ht] at hrun
    cases hrun
    exact ⟨⟨h.nest, h.flag⟩, A, hA⟩
  · rw [ht] at hrun
    cases hrun
    exact ⟨⟨h.nest, h.flag⟩, toThread, hto⟩

theorem Settled.of_reach (hisr : HandlerTable isrTable)
    (hc : (cpuSystem isrTable).Reach (fun _ _ => True) c) :
    Settled c ∧ ∃ A, c.sched.currentThread = some A := by
  refine hc.invariant (I := fun c => Settled c ∧ ∃ A, c.sched.currentThread = some A)
    (fun _ h => h) ?_
  rintro c e c' ⟨h, A, hA⟩ - hstep
  cases e with
  | work data spEl0 daif =>
    dsimp only [cpuSystem, cpuStep] at hstep
    split at hstep
    · rename_i hcur
      cases hstep
      exact ⟨⟨h.nest, h.flag⟩, A, hcur.trans hA⟩
    · cases hstep
  | schedule =>
    obtain ⟨⟨u, c1⟩, hrun, rfl⟩ := map_eq_some_iff.mp hstep
    exact h.scheduleOut hA hrun
  | irq irq =>
    dsimp only [cpuSystem, cpuStep] at hstep
    split at hstep
    · obtain ⟨⟨u, c1⟩, hrun, rfl⟩ := map_eq_some_iff.mp hstep
      have hsw := h.vectorIrq hisr hA hrun
      obtain ⟨B, hB, -⟩ := hsw.restored
      exact ⟨hsw.settled, B, hB⟩
    · cases hstep

/-- **Deferred switch.** An interrupt is taken while the thread `A` runs, and its handler works
    on the data of the kernel and calls `sk_schedule` any number of times. When `vector_irq` is
    done, the interrupted context has been saved in `sp` of `A` if some call has switched threads,
    and not otherwise; no other `sp` has changed; and the context restored is the one of the
    current thread, which is the interrupted context when this is `A`. The tick of the timer is
    such a handler, with its time slice and its timeouts. -/
theorem deferred_switch {isrTable : Nat → Option (KernM σ Unit)} (hisr : HandlerTable isrTable)
    {c c' : Cpu σ} (hc : (cpuSystem isrTable).Reach (fun _ _ => True) c) {A : Tid}
    (hA : c.sched.currentThread = some A) {irq : Nat}
    (hv : vectorIrq isrTable irq c = some ((), c')) :
    (c'.sp =
        if c.switches < c'.switches then update c.sp A ⟨c.spEl0, c.daif⟩ else c.sp) ∧
      (¬c.switches < c'.switches → c'.sched.currentThread = some A) ∧
      (∃ B, c'.sched.currentThread = some B ∧
        c'.saveContext = update c.sp A ⟨c.spEl0, c.daif⟩ B ∧ c'.daif = c'.spsr) ∧
      ∀ fuel, Handles (Call.skTickIncrease Call.skThreadTimeout fuel : KernM σ Unit) := by
  have h := (Settled.of_reach hisr hc).1.vectorIrq hisr hA hv
  exact ⟨h.sp, h.current, h.restored, fun fuel => .skTickIncrease .skThreadTimeout fuel⟩

/-- Thread 1 is in the last tick of its slice, thread 0 of a lower priority is ready, and thread 2
    of a still lower one sleeps for one more tick. -/
def lastTickKernel : Kernel :=
  let k := skThreadCreate bootKernel 0 10 32
  let k := skThreadCreate (skThreadCreate k 1 5 1) 2 20 32
  let k := { k with sched := (skSystemSchedulerStart k.sched).getD k.sched }
  threadTimerStart (skThreadSuspend k 2).2 2 1

/-- The timer interrupt. -/
def timerTable : Nat → Option (KernM Unit Unit) := fun irq =>
  if irq = 27 then some (Call.skTickIncrease Call.skThreadTimeout 4) else none

theorem timerTable_handlers : HandlerTable timerTable := by
  intro irq isr h
  unfold timerTable at h
  split at h
  · cases h
    exact .skTickIncrease .skThreadTimeout 4
  · cases h

/-- The time slice switches away from thread 1 and the timeout of thread 2 back to it: its context
    is saved, and restored. -/
theorem deferred_switch_back :
    ∃ c', vectorIrq timerTable 27 (firstCpu lastTickKernel) = some ((), c') ∧ c'.switches = 2 ∧
      c'.sp = update (firstCpu lastTickKernel).sp 1 ⟨100, .unmasked⟩ ∧
      c'.saveContext = ⟨100, .unmasked⟩ := by
  have hc : (cpuSystem timerTable).Reach (fun _ _ => True) (firstCpu lastTickKernel) :=
    .init ⟨⟨rfl, rfl⟩, 1, by decide +kernel⟩
  have hrun : (vectorIrq timerTable 27 (firstCpu lastTickKernel)).map
      (fun r => decide (r.2.switches = 2 ∧ r.2.sched.currentThread = some 1)) = some true := by
    decide +kernel
  obtain ⟨⟨u, c'⟩, hv, hend⟩ := map_eq_some_iff.mp hrun
  obtain ⟨hswitches, hcur⟩ := of_decide_eq_true hend
  obtain ⟨hsp, -, ⟨B, hB, hrest, -⟩, -⟩ :=
    deferred_switch timerTable_handlers hc (show _ = some 1 by decide +kernel) hv
  cases hB.symm.trans hcur
  refine ⟨c', hv, hswitches, ?_, ?_⟩
  · rw [hsp, hswitches]
    rfl
  · rw [hrest, update_self]
    rfl

end SKernel.Spec
