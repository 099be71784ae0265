import SKernel.ForStd.WordStack

/-!
# Saved contexts

Model of `arch/aarch64/include/context_macro.h`, of `hw_context_switch` in `context.S` and of
`vector_irq` in `vector.S`. The macros are lists of instructions, as in the source, and the
processor is the state that these instructions read and write. It runs at EL1. The C functions that
`vector_irq` calls are left open, so it is modelled in two parts: the code before the first call,
and the code behind the last one.

Memory has an address space of 64 bits, and the bytes behind the last address are the first ones.
The kernel disables the alignment checks of the stack pointer at its start, so no access faults.
`eret` takes the program counter and the processor state from `elr_el1` and `spsr_el1`; the returns
that the processor refuses, because of the mode in `spsr_el1`, do not show.
-/

namespace SKernel.Native

/-- An operand of an instruction: `x0`, …, `x30` or `xzr`. -/
inductive XReg where
  | x (i : Fin 31)
  | xzr
  deriving DecidableEq

/-- The system registers that hold a return address and a processor state. -/
inductive SysReg where
  | spsrEl1
  | elrEl1
  deriving DecidableEq

/-- Instructions. -/
inductive Instr where
  /-- `msr spsel, #imm` -/
  | msrSpsel (imm : Bool)
  /-- `stp rt1, rt2, [sp, #imm]!` -/
  | stp (rt1 rt2 : XReg) (imm : Int)
  /-- `ldp rt1, rt2, [sp], #imm` -/
  | ldp (rt1 rt2 : XReg) (imm : Int)
  /-- `mrs rt, sys` -/
  | mrs (rt : XReg) (sys : SysReg)
  /-- `msr sys, rt` -/
  | msr (sys : SysReg) (rt : XReg)
  /-- `mov rd, rm` -/
  | mov (rd rm : XReg)
  /-- `mov rd, sp` -/
  | movFromSp (rd : XReg)
  /-- `mov sp, rn` -/
  | movToSp (rn : XReg)
  /-- `eret` -/
  | eret
  deriving DecidableEq

/-- The registers and the memory. -/
structure Processor where
  x : Fin 31 → BitVec 64
  spEl0 : BitVec 64
  spEl1 : BitVec 64
  pc : BitVec 64
  /-- the processor state, in the format of `spsr_el1`: bit 0 selects the stack pointer -/
  pstate : BitVec 64
  spsrEl1 : BitVec 64
  elrEl1 : BitVec 64
  mem : WordStack.Mem 64

/-- The 64-bit word at an address. -/
def readWord (mem : WordStack.Mem 64) (a : BitVec 64) : BitVec 64 :=
  BitVec.ofNat 64 (WordStack.load mem 8 a)

/-- The memory after a 64-bit word is stored. -/
def writeWord (mem : WordStack.Mem 64) (a v : BitVec 64) : WordStack.Mem 64 :=
  WordStack.store mem 8 a v.toNat

/-- The memory after the stores of C code: addresses and values. -/
def writeWords (mem : WordStack.Mem 64) (stores : List (Nat × Nat)) : WordStack.Mem 64 :=
  stores.foldl (fun mem s => writeWord mem (BitVec.ofNat 64 s.1) (BitVec.ofNat 64 s.2)) mem

namespace Processor

def reg (m : Processor) : XReg → BitVec 64
  | .x i => m.x i
  | .xzr => 0

def setReg (m : Processor) (r : XReg) (v : BitVec 64) : Processor :=
  match r with
  | .x i => { m with x := Function.update m.x i v }
  | .xzr => m

/-- `sp`. -/
def sp (m : Processor) : BitVec 64 :=
  if m.pstate.getLsbD 0 then m.spEl1 else m.spEl0

def setSp (m : Processor) (v : BitVec 64) : Processor :=
  if m.pstate.getLsbD 0 then { m with spEl1 := v } else { m with spEl0 := v }

def sysReg (m : Processor) : SysReg → BitVec 64
  | .spsrEl1 => m.spsrEl1
  | .elrEl1 => m.elrEl1

def setSysReg (m : Processor) (r : SysReg) (v : BitVec 64) : Processor :=
  match r with
  | .spsrEl1 => { m with spsrEl1 := v }
  | .elrEl1 => { m with elrEl1 := v }

/-- Select the stack pointer of EL1 or that of EL0. -/
def setSpsel (m : Processor) (imm : Bool) : Processor :=
  { m with pstate := if imm then m.pstate ||| 1 else m.pstate &&& ~~~1 }

/-- One instruction. -/
def exec (m : Processor) : Instr → Processor
  | .msrSpsel imm => m.setSpsel imm
  | .stp rt1 rt2 imm =>
    let address := m.sp + BitVec.ofInt 64 imm
    let mem := writeWord m.mem address (m.reg rt1)
    let mem := writeWord mem (address + 8) (m.reg rt2)
    { m with mem }.setSp address
  | .ldp rt1 rt2 imm =>
    let address := m.sp
    let data1 := readWord m.mem address
    let data2 := readWord m.mem (address + 8)
    ((m.setReg rt1 data1).setReg rt2 data2).setSp (address + BitVec.ofInt 64 imm)
  | .mrs rt sys => m.setReg rt (m.sysReg sys)
  | .msr sys rt => m.setSysReg sys (m.reg rt)
  | .mov rd rm => m.setReg rd (m.reg rm)
  | .movFromSp rd => m.setReg rd m.sp
  | .movToSp rn => m.setSp (m.reg rn)
  | .eret => { m with pc := m.elrEl1, pstate := m.spsrEl1 }

/-- A sequence of instructions. -/
def run (m : Processor) (prog : List Instr) : Processor := prog.foldl exec m

end Processor

namespace Asm

/-- The context macros that save, up to the instruction that puts the return address into `x2`. -/
def saveContextWith (returnAddress : Instr) : List Instr := [
  -- switch to use the EL0 stack pointer
  .msrSpsel false,
  -- save the entire context
  .stp (.x 0) (.x 1) (-0x10),
  .stp (.x 2) (.x 3) (-0x10),
  .stp (.x 4) (.x 5) (-0x10),
  .stp (.x 6) (.x 7) (-0x10),
  .stp (.x 8) (.x 9) (-0x10),
  .stp (.x 10) (.x 11) (-0x10),
  .stp (.x 12) (.x 13) (-0x10),
  .stp (.x 14) (.x 15) (-0x10),
  .stp (.x 16) (.x 17) (-0x10),
  .stp (.x 18) (.x 19) (-0x10),
  .stp (.x 20) (.x 21) (-0x10),
  .stp (.x 22) (.x 23) (-0x10),
  .stp (.x 24) (.x 25) (-0x10),
  .stp (.x 26) (.x 27) (-0x10),
  .stp (.x 28) (.x 29) (-0x10),
  .stp (.x 30) .xzr (-0x10),
  .mrs (.x 3) .spsrEl1,
  returnAddress,
  .stp (.x 2) (.x 3) (-0x10),
  .movFromSp (.x 0),
  -- switch to use the ELx stack pointer
  .msrSpsel true]

/-- `save_context`: the return address is that of the exception. -/
def saveContext : List Instr := saveContextWith (.mrs (.x 2) .elrEl1)

/-- `save_context_t`: the return address is that of the function call. -/
def saveContextT : List Instr := saveContextWith (.mov (.x 2) (.x 30))

/-- `restore_context`. -/
def restoreContext : List Instr := [
  -- switch to use the EL0 stack pointer
  .msrSpsel false,
  -- set the SP to pointer to the stack of the task being restored
  .movToSp (.x 0),
  .ldp (.x 2) (.x 3) 0x10,
  .msr .spsrEl1 (.x 3),
  .msr .elrEl1 (.x 2),
  .ldp (.x 30) .xzr 0x10,
  .ldp (.x 28) (.x 29) 0x10,
  .ldp (.x 26) (.x 27) 0x10,
  .ldp (.x 24) (.x 25) 0x10,
  .ldp (.x 22) (.x 23) 0x10,
  .ldp (.x 20) (.x 21) 0x10,
  .ldp (.x 18) (.x 19) 0x10,
  .ldp (.x 16) (.x 17) 0x10,
  .ldp (.x 14) (.x 15) 0x10,
  .ldp (.x 12) (.x 13) 0x10,
  .ldp (.x 10) (.x 11) 0x10,
  .ldp (.x 8) (.x 9) 0x10,
  .ldp (.x 6) (.x 7) 0x10,
  .ldp (.x 4) (.x 5) 0x10,
  .ldp (.x 2) (.x 3) 0x10,
  .ldp (.x 0) (.x 1) 0x10,
  -- switch to use the ELx stack pointer
  .msrSpsel true,
  .eret]

end Asm

/-! ## Switching contexts -/

namespace Processor

/-- `ldr rt, [rn]`. -/
def ldr (m : Processor) (rt rn : XReg) : Processor := m.setReg rt (readWord m.mem (m.reg rn))

/-- `str rt, [rn]`. -/
def str (m : Processor) (rt rn : XReg) : Processor :=
  { m with mem := writeWord m.mem (m.reg rn) (m.reg rt) }

/-- The link register. -/
def lr (m : Processor) : BitVec 64 := m.x 30

/-- The first instructions of `hw_context_switch(fromSp, toSp)`. -/
def hwContextSwitchEntry (m : Processor) (fromSp toSp : BitVec 64) : Processor :=
  ((m.setReg (.x 0) fromSp).setReg (.x 1) toSp).run [.mov (.x 8) (.x 0), .mov (.x 9) (.x 1)]

/-- `hw_context_switch(fromSp, toSp)`. -/
def hwContextSwitch (m : Processor) (fromSp toSp : BitVec 64) : Processor :=
  let m := m.hwContextSwitchEntry fromSp toSp
  let m := m.run Asm.saveContextT
  -- store sp in preempted tasks TCB
  let m := m.str (.x 0) (.x 8)
  -- get new task stack pointer
  let m := m.ldr (.x 0) (.x 9)
  m.run Asm.restoreContext

/-- An IRQ is taken to EL1: on to `vector`, with its own stack pointer and interrupts masked. -/
def takeIrq (m : Processor) (vector : BitVec 64) : Processor :=
  { m with spsrEl1 := m.pstate, elrEl1 := m.pc, pstate := 0x3c5, pc := vector }

/-- `vector_irq`, up to the call of `sk_interrupt_enter`. -/
def vectorIrqEnter (m : Processor) (vector : BitVec 64) : Processor :=
  ((m.takeIrq vector).run Asm.saveContext).run [.stp (.x 0) (.x 1) (-0x10)]

end Processor

/-- The addresses of `thread_switch_interrupt_flag`, `interrupt_from_thread` and
    `interrupt_to_thread`. -/
structure SwitchWords where
  flag : BitVec 64
  fromThread : BitVec 64
  toThread : BitVec 64

/-- `vector_irq`, from the return of `sk_interrupt_leave` to `vector_irq_exit`. -/
def Processor.vectorIrqSwitch (w : SwitchWords) (m : Processor) : Processor :=
  let m := m.run [.ldp (.x 0) (.x 1) 0x10]
  let m := m.setReg (.x 1) w.flag
  let m := m.ldr (.x 2) (.x 1)
  if m.x 2 = 1 then
    let m := m.setReg (.x 2) 0
    let m := m.str (.x 2) (.x 1)
    let m := m.setReg (.x 3) w.fromThread
    -- get the from thread sp
    let m := m.ldr (.x 4) (.x 3)
    -- store sp in preempted task's TCB
    let m := m.str (.x 0) (.x 4)
    let m := m.setReg (.x 3) w.toThread
    let m := m.ldr (.x 4) (.x 3)
    -- get new task's pointer
    m.ldr (.x 0) (.x 4)
  else m

/-- `vector_irq`, when `sk_interrupt_leave` has returned. -/
def Processor.vectorIrqLeave (w : SwitchWords) (m : Processor) : Processor :=
  (m.vectorIrqSwitch w).run Asm.restoreContext

end SKernel.Native
