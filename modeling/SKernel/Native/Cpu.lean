import SKernel.Native.ObjectState

/-!
# Processor

Model of the interrupt mask and the context switch in `arch/aarch64/src/context.S`, of
`vector_irq` in `arch/aarch64/src/vector.S`, of `sk_hw_trap_irq` and of `init/irq.c`. Kernel code
is a state transformer over the processor and the data of the kernel; it does not return when it
follows a null pointer.

A context is saved on the stack of its thread and goes by the stack pointer. Of the registers in
it only the mask bits of the SPSR show here.

Interrupts and other threads run between any two steps of a thread that has not masked
interrupts. What they leave behind is given by `others`, with an entry for each occasion. The
thread goes on when it is the current thread again.
-/

namespace SKernel.Native

/-- The bits I and F of `daif`, which mask IRQ and FIQ. -/
structure Daif where
  i : Bool
  f : Bool
  deriving DecidableEq

/-- The mask that `msr daifset, #3` sets. -/
def Daif.masked : Daif := ⟨true, true⟩

/-- The mask that `msr daifclr, #3` leaves, which is also the one in `INITIAL_SPSR_EL1`. -/
def Daif.unmasked : Daif := ⟨false, false⟩

/-- A context on the stack of a thread. -/
structure Context where
  sp : Nat
  spsr : Daif
  deriving DecidableEq

/-- The data of the kernel: the objects, and the fields of the threads that events use. -/
structure KernelData (σ : Type) extends ObjectState σ where
  wait : Tid → EventWait

/-- The processor, the data of the kernel and the `sp` fields of the threads. -/
structure Cpu (σ : Type) where
  data : KernelData σ
  /-- the field `sp` of each thread -/
  sp : Tid → Context
  /-- the stack pointer under which the context of the running thread would be saved -/
  spEl0 : Nat
  daif : Daif
  spsr : Daif
  /-- `interrupt_nest` -/
  interruptNest : Nat
  /-- `thread_switch_interrupt_flag` -/
  threadSwitchInterruptFlag : Nat
  /-- `interrupt_from_thread`, by the thread whose `sp` it points to -/
  interruptFromThread : Tid
  /-- `interrupt_to_thread`, by the thread whose `sp` it points to -/
  interruptToThread : Tid
  /-- what interrupts and other threads leave behind on each occasion -/
  others : Nat → Option (KernelData σ × (Tid → Context))
  /-- how many occasions there have been -/
  occasion : Nat
  /-- how many times a context switch has been asked for -/
  switches : Nat

/-- Code of the kernel. -/
abbrev KernM (σ : Type) := StateT (Cpu σ) Option

variable {σ α : Type}

namespace Cpu

/-- The scheduler's data. -/
def sched (c : Cpu σ) : Sched := c.data.k.sched

/-- Replace the scheduler's data. -/
def setSched (c : Cpu σ) (s : Sched) : Cpu σ :=
  { c with data := { c.data with k := { c.data.k with sched := s } } }

/-- Let interrupts and other threads run until `thread` is the current thread. -/
def othersRun (c : Cpu σ) (thread : Option Tid) : Cpu σ :=
  let (data, sp) := (c.others c.occasion).getD (c.data, c.sp)
  let c := { c with data := data, sp := sp, occasion := c.occasion + 1 }
  c.setSched { c.sched with currentThread := thread }

/-- Let interrupts and other threads run in between. -/
def interrupted (c : Cpu σ) : Cpu σ := c.othersRun c.sched.currentThread

/-- The context that `save_context` and `save_context_t` save. -/
def saveContext (c : Cpu σ) : Context := ⟨c.spEl0, c.spsr⟩

/-- `restore_context`. -/
def restoreContext (c : Cpu σ) (x0 : Context) : Cpu σ :=
  { c with spEl0 := x0.sp, spsr := x0.spsr, daif := x0.spsr }

end Cpu

/-! ## Access to the state -/

def getCpu : KernM σ (Cpu σ) := fun c => some (c, c)

def modifyCpu (f : Cpu σ → Cpu σ) : KernM σ Unit := fun c => some ((), f c)

def getData : KernM σ (KernelData σ) := fun c => some (c.data, c)

def modifyData (f : KernelData σ → KernelData σ) : KernM σ Unit :=
  modifyCpu fun c => { c with data := f c.data }

def getSched : KernM σ Sched := fun c => some (c.sched, c)

def modifySched (f : Sched → Sched) : KernM σ Unit := modifyCpu fun c => c.setSched (f c.sched)

def modifyTimers (f : Timers Tid → Timers Tid) : KernM σ Unit :=
  modifyData fun d => { d with k := { d.k with timers := f d.k.timers } }

/-- A value that is there, unless a null pointer is followed. -/
def fromOption (a : Option α) : KernM σ α := fun c => a.map (·, c)

/-! ## Interrupts -/

/-- `hw_interrupt_disable`. -/
def hwInterruptDisable : KernM σ Daif := fun c =>
  let c := if c.daif = .masked then c else c.interrupted
  some (c.daif, { c with daif := .masked })

/-- `hw_interrupt_enable`. -/
def hwInterruptEnable (level : Daif) : KernM σ Unit := fun c =>
  if level.i || level.f then some ((), c)
  else some ((), { c with daif := .unmasked }.interrupted)

/-- `sk_interrupt_enter`. -/
def skInterruptEnter : KernM σ Unit := do
  let level ← hwInterruptDisable
  modifyCpu fun c => { c with interruptNest := (c.interruptNest + 1) % 2 ^ 8 }
  hwInterruptEnable level

/-- `sk_interrupt_leave`. -/
def skInterruptLeave : KernM σ Unit := do
  let level ← hwInterruptDisable
  modifyCpu fun c => { c with interruptNest := (c.interruptNest + (2 ^ 8 - 1)) % 2 ^ 8 }
  hwInterruptEnable level

/-- `sk_is_in_interrupt`. -/
def Cpu.skIsInInterrupt (c : Cpu σ) : Prop := c.interruptNest ≠ 0

instance (c : Cpu σ) : Decidable c.skIsInInterrupt := inferInstanceAs (Decidable (_ ≠ _))

/-! ## The context switch -/

/-- `hw_context_switch`, up to the point where the thread `toThread` runs. -/
def hwContextSwitch (fromThread toThread : Tid) : KernM σ Unit := modifyCpu fun c =>
  -- store sp in preempted tasks TCB
  let c := { c with
    sp := Function.update c.sp fromThread c.saveContext
    switches := c.switches + 1 }
  -- get new task stack pointer
  c.restoreContext (c.sp toThread)

/-- `hw_context_switch_interrupt`. -/
def hwContextSwitchInterrupt (fromThread toThread : Tid) : KernM σ Unit := modifyCpu fun c =>
  let c :=
    if c.threadSwitchInterruptFlag ≠ 1 then
      { c with interruptFromThread := fromThread, threadSwitchInterruptFlag := 1 }
    else c
  { c with interruptToThread := toThread, switches := c.switches + 1 }

/-- `sk_hw_trap_irq`, for the interrupt `irq` of the controller. -/
def skHwTrapIrq (isrTable : Nat → Option (KernM σ Unit)) (irq : Nat) : KernM σ Unit :=
  if irq = 1023 then pure ()
  else
    match isrTable irq with
    | some isrFunc => isrFunc
    | none => pure ()

/-- An interrupt is taken: the processor keeps the mask in the SPSR and masks interrupts. -/
def Cpu.takeException (c : Cpu σ) : Cpu σ := { c with spsr := c.daif, daif := .masked }

/-- The end of `vector_irq`, with the saved context in `x0`. -/
def vectorIrqEnd (x0 : Context) : KernM σ Unit := modifyCpu fun c =>
  if c.threadSwitchInterruptFlag = 1 then
    let c := { c with threadSwitchInterruptFlag := 0 }
    -- store sp in preempted task's TCB
    let c := { c with sp := Function.update c.sp c.interruptFromThread x0 }
    -- get new task's pointer
    c.restoreContext (c.sp c.interruptToThread)
  else c.restoreContext x0

/-- `vector_irq`. -/
def vectorIrq (isrTable : Nat → Option (KernM σ Unit)) (irq : Nat) : KernM σ Unit := do
  modifyCpu Cpu.takeException
  let c ← getCpu
  let x0 := c.saveContext
  skInterruptEnter
  skHwTrapIrq isrTable irq
  skInterruptLeave
  vectorIrqEnd x0

end SKernel.Native
