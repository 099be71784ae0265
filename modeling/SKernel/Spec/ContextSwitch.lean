import SKernel.ForStd.Simulation
import SKernel.ForStd.Update
import SKernel.Spec.ContextFrames

/-!
# Isolation of contexts

Threads run, give up the processor through `hw_context_switch` and are interrupted through
`vector_irq`, in any order. A thread that does not run is a frame on its own stack, and the field
`sp` that points to it. The stacks are disjoint, and whoever runs keeps off the stacks of the others
and off the fields. Then a thread that is resumed finds the registers and the stack pointer with
which it was suspended. If it was interrupted it goes on at the same instruction with the same
processor state. If it called `hw_context_switch` it returns from the call, and its processor state
is what SPSR_EL1 was at the call: `save_context_t` saves that register, not the processor state.
-/

namespace SKernel.Spec

open SKernel.Native WordStack Function

/-! ## Words -/

/-- The bytes of the word at an address. -/
def wordAt (a : BitVec 64) : Set (BitVec 64) := {x | (x - a).toNat < 8}

/-- Two sets of addresses have none in common. -/
def Apart (s t : Set (BitVec 64)) : Prop := ∀ a ∈ s, a ∉ t

variable {a v : BitVec 64} {mem : Mem 64} {c' : ThreadContext}

private theorem writeWord_of_notMem {x : BitVec 64} (h : x ∉ wordAt a) :
    writeWord mem a v x = mem x :=
  store_outside (Nat.le_of_not_lt h)

private theorem readWord_congr {mem' : Mem 64} (h : ∀ x ∈ wordAt a, mem' x = mem x) :
    readWord mem' a = readWord mem a := by
  apply congrArg (BitVec.ofNat 64)
  apply load_congr
  intro i hi
  apply h
  show (a + BitVec.ofNat 64 i - a).toNat < 8
  rwa [toNat_add_ofNat_sub a (by omega)]

private theorem readWord_writeWord (mem : Mem 64) (a v : BitVec 64) :
    readWord (writeWord mem a v) a = v := by
  rw [readWord, writeWord, load_store (by decide) v.isLt, BitVec.ofNat_toNat, BitVec.setWidth_eq]

private theorem readWord_writeWord_of_apart (mem : Mem 64) {b : BitVec 64} (v : BitVec 64)
    (h : Apart (wordAt a) (wordAt b)) : readWord (writeWord mem a v) b = readWord mem b :=
  readWord_congr fun _ hx => writeWord_of_notMem fun ha => h _ ha hx

/-! ## The system -/

/-- The fields `sp` of the threads, and the three words of `hw_context_switch_interrupt`. -/
inductive SwitchCell (T : Type*) where
  | sp (t : T)
  | flag
  | fromThread
  | toThread

/-- Where the words and the stacks are. -/
structure StackLayout (T : Type*) where
  addr : SwitchCell T → BitVec 64
  stack : T → Set (BitVec 64)
  cells_apart : ∀ {c d}, c ≠ d → Apart (wordAt (addr c)) (wordAt (addr d))
  cells_off_stacks : ∀ c t, Apart (wordAt (addr c)) (stack t)
  stacks_apart : ∀ {t u}, t ≠ u → Apart (stack t) (stack u)

namespace StackLayout

variable {T : Type*} (L : StackLayout T)

def words : SwitchWords := ⟨L.addr .flag, L.addr .fromThread, L.addr .toThread⟩

/-- Memory has changed, but not on the stacks of some threads and not in the fields `sp`. -/
structure Keeps (others : T → Prop) (mem mem' : Mem 64) : Prop where
  stack : ∀ u, others u → ∀ a ∈ L.stack u, mem' a = mem a
  field : ∀ t, readWord mem' (L.addr (.sp t)) = readWord mem (L.addr (.sp t))

/-- The field `sp` of a thread points to a frame on its stack that holds a context. -/
def Parked (mem : Mem 64) (t : T) (c : ThreadContext) : Prop :=
  c.Holds mem (readWord mem (L.addr (.sp t))) ∧ below c.sp 272 ⊆ L.stack t

/-- What `hw_context_switch_interrupt` has left: a switch from `r`, or none. -/
def Asks (mem : Mem 64) (r : T) : Option T → Prop
  | none => readWord mem (L.addr .flag) ≠ 1
  | some t => readWord mem (L.addr .flag) = 1 ∧
    readWord mem (L.addr .fromThread) = L.addr (.sp r) ∧
    readWord mem (L.addr .toThread) = L.addr (.sp t)

end StackLayout

/-- The processor, the thread that runs, and the contexts with which the others were suspended. -/
structure SwitchSys (T : Type*) where
  proc : Processor
  running : T
  parked : T → Option ThreadContext

inductive SwitchOp (T : Type*) where
  /-- the running thread works on, and leaves the processor like this -/
  | work (m : Processor)
  /-- the running thread calls `hw_context_switch` -/
  | yield (t : T)
  /-- an interrupt, whose handler leaves the processor like this and switches to a thread or not -/
  | irq (vector : BitVec 64) (m : Processor) (t : Option T)

namespace SwitchSys

variable {T : Type*} [DecidableEq T] (L : StackLayout T) (x : SwitchSys T)

/-- In `hw_context_switch(&running->sp, &t->sp)`, before the context is saved. -/
def atCall (t : T) : Processor :=
  x.proc.hwContextSwitchEntry (L.addr (.sp x.running)) (L.addr (.sp t))

/-- The context with which the running thread is suspended. In `hw_context_switch` its program
    counter is the return address and its processor state the value of SPSR_EL1. -/
def suspended : SwitchOp T → ThreadContext
  | .yield t => context (x.atCall L t) (x.atCall L t).lr
  | _ => ⟨x.proc.x, x.proc.pstate, x.proc.pc, x.proc.spEl0⟩

/-- The contexts of all threads at the moment of a switch. -/
def saved (op : SwitchOp T) : T → Option ThreadContext :=
  update x.parked x.running (some (x.suspended L op))

/-- The thread that runs after a step. -/
def next : SwitchOp T → T
  | .work _ => x.running
  | .yield t => t
  | .irq _ _ t => t.getD x.running

def step (op : SwitchOp T) : SwitchSys T where
  proc := match op with
    | .work m => m
    | .yield t => x.proc.hwContextSwitch (L.addr (.sp x.running)) (L.addr (.sp t))
    | .irq _ m _ => m.vectorIrqLeave L.words
  running := x.next op
  parked := update (x.saved L op) (x.next op) none

/-- The handler leaves the stacks, the fields `sp` and what `vector_irq` has pushed alone. -/
structure Handled (vector : BitVec 64) (m : Processor) (t : Option T) : Prop where
  apart : ∀ a ∈ below x.proc.spEl1 16, (∀ u, a ∉ L.stack u) ∧ ∀ c, a ∉ wordAt (L.addr c)
  spEl1 : m.spEl1 = (x.proc.vectorIrqEnter vector).spEl1
  spsel : m.pstate.getLsbD 0 = true
  frame : readWord m.mem m.spEl1 = readWord (x.proc.vectorIrqEnter vector).mem m.spEl1
  keeps : L.Keeps (fun _ => True) (x.proc.vectorIrqEnter vector).mem m.mem
  switch : L.Asks m.mem x.running t

/-- The running thread stays within its stack, and a thread that is resumed is there. -/
def Disciplined (op : SwitchOp T) : Prop :=
  (x.saved L op (x.next op)).isSome ∧ match op with
    | .work m => L.Keeps (· ≠ x.running) x.proc.mem m.mem
    | .yield _ => below x.proc.spEl0 272 ⊆ L.stack x.running
    | .irq vector m t => below x.proc.spEl0 272 ⊆ L.stack x.running ∧ x.Handled L vector m t

end SwitchSys

/-- The processor goes on with a context. -/
def Resumes (m : Processor) (c : ThreadContext) : Prop :=
  m.x = c.x ∧ m.spEl0 = c.sp ∧ m.pc = c.elr ∧ m.pstate = c.spsr

/-- At first one thread runs and has no frame, and every other thread that is parked has the frame
    of some context on its stack: `__thread_stack_init` makes one for a new thread. -/
def switchSystem {T : Type*} [DecidableEq T] (L : StackLayout T) :
    TransitionSystem (SwitchSys T) (SwitchOp T) where
  init x := x.parked x.running = none ∧ ∀ t c, x.parked t = some c → L.Parked x.proc.mem t c
  step x op := some (x.step L op)

/-! ## The invariant -/

variable {T : Type*} {L : StackLayout T} {mem mem' : Mem 64} {t r : T} {c : ThreadContext}

private theorem ThreadContext.Holds.mem_below (h : c.Holds mem a) {i : Nat} (hi : i < 272) :
    a + BitVec.ofNat 64 i ∈ below c.sp 272 := by
  show (c.sp - 1 - (a + BitVec.ofNat 64 i)).toNat < 272
  rw [h.2]
  bv_omega

namespace StackLayout.Parked

/-- Changes elsewhere leave a frame alone. -/
theorem keep (h : L.Parked mem t c) (hstack : ∀ a ∈ L.stack t, mem' a = mem a)
    (hfield : readWord mem' (L.addr (.sp t)) = readWord mem (L.addr (.sp t))) :
    L.Parked mem' t c := by
  obtain ⟨hholds, hframe⟩ := h
  refine ⟨?_, hframe⟩
  rw [hfield]
  apply hholds.congr
  intro i hi
  exact hstack _ (hframe (hholds.mem_below hi))

/-- The frame that has just been saved gets its pointer. -/
theorem of_holds {a : BitVec 64} (h : c.Holds mem a) (hroom : below c.sp 272 ⊆ L.stack r) :
    L.Parked (writeWord mem (L.addr (.sp r)) a) r c := by
  refine ⟨?_, hroom⟩
  rw [readWord_writeWord]
  apply h.congr
  intro i hi
  exact writeWord_of_notMem fun ha => L.cells_off_stacks _ r _ ha (hroom (h.mem_below hi))

/-- The cell is not the field `sp` of a thread. -/
theorem write_cell {d : SwitchCell T} (h : L.Parked mem t c) (hd : d ≠ .sp t) :
    L.Parked (writeWord mem (L.addr d) v) t c :=
  h.keep
    (fun _ ha => writeWord_of_notMem fun hd => L.cells_off_stacks d t _ hd ha)
    (readWord_writeWord_of_apart mem v (L.cells_apart hd))

end StackLayout.Parked

/-- The stores stay on the stack of the running thread. -/
theorem keeps_of_saved (hroom : below a 272 ⊆ L.stack r) (h : ∀ b ∉ below a 272, mem' b = mem b) :
    L.Keeps (· ≠ r) mem mem' where
  stack _ hu _ hb := h _ fun hin => L.stacks_apart hu _ hb (hroom hin)
  field _ := readWord_congr fun _ hb =>
    h _ fun hin => L.cells_off_stacks _ r _ hb (hroom hin)

variable {m : Processor}

private theorem resumes_restoreContext (h : c.Holds m.mem (m.x 0)) :
    Resumes (m.run Asm.restoreContext) c ∧ (m.run Asm.restoreContext).mem = m.mem := by
  rw [run_restoreContext h]
  exact ⟨⟨rfl, rfl, rfl, rfl⟩, rfl⟩

/-- Every suspended thread is where its field `sp` says. -/
def AllParked (L : StackLayout T) (saved : T → Option ThreadContext) (mem : Mem 64) : Prop :=
  ∀ t c, saved t = some c → L.Parked mem t c

variable {parked : T → Option ThreadContext}

private theorem AllParked.keep (h : AllParked L parked mem) (hr : parked r = none)
    (hkeeps : L.Keeps (· ≠ r) mem mem') : AllParked L parked mem' := by
  intro t c ht
  have hne : t ≠ r := by
    rintro rfl
    rw [hr] at ht
    cases ht
  exact (h t c ht).keep (hkeeps.stack t hne) (hkeeps.field t)

variable [DecidableEq T] {x : SwitchSys T}

/-- The thread that ran is suspended like the others. -/
theorem AllParked.park (h : AllParked L parked mem) (hholds : c.Holds mem a)
    (hroom : below c.sp 272 ⊆ L.stack r) :
    AllParked L (update parked r (some c)) (writeWord mem (L.addr (.sp r)) a) := by
  intro u c' hu
  by_cases hur : u = r
  · subst hur
    rw [update_self] at hu
    cases hu
    exact .of_holds hholds hroom
  · rw [update_of_ne hur] at hu
    exact (h u c' hu).write_cell fun heq => hur (SwitchCell.sp.inj heq).symm

/-- The thread that is resumed is suspended no more. -/
theorem AllParked.unpark (h : AllParked L parked mem) (t : T) :
    AllParked L (update parked t none) mem := by
  intro u c hu
  exact h u c (update_none_eq_some.mp hu).2

/-- The end of a switch: `x0` points to the frame. -/
theorem AllParked.resume (h : AllParked L parked mem) (ht : parked t = some c) (hmem : m.mem = mem)
    (hx0 : m.x 0 = readWord mem (L.addr (.sp t))) :
    Resumes (m.run Asm.restoreContext) c ∧
      AllParked L (update parked t none) (m.run Asm.restoreContext).mem := by
  have hholds := (h t c ht).1
  rw [← hx0, ← hmem] at hholds
  obtain ⟨hres, hsame⟩ := resumes_restoreContext hholds
  rw [hsame, hmem]
  exact ⟨hres, h.unpark t⟩

/-- `hw_context_switch` between its two macros. -/
theorem AllParked.switch (h : AllParked L parked m.mem) (hholds : c.Holds m.mem (m.x 0))
    (hroom : below c.sp 272 ⊆ L.stack r) (hx8 : m.x 8 = L.addr (.sp r))
    (hx9 : m.x 9 = L.addr (.sp t)) (ht : update parked r (some c) t = some c') :
    let m' := ((m.str (.x 0) (.x 8)).ldr (.x 0) (.x 9)).run Asm.restoreContext
    Resumes m' c' ∧
      AllParked L (update (update parked r (some c)) t none) m'.mem := by
  have hstr : (m.str (.x 0) (.x 8)).mem = writeWord m.mem (L.addr (.sp r)) (m.x 0) := by
    rw [← hx8]
    rfl
  refine (h.park hholds hroom).resume ht hstr ?_
  rw [← hstr, ← hx9]
  rfl

/-! ## Interrupts -/

/-- A pair of registers is stored on the stack of EL1. -/
theorem exec_stp_el1 (hsel : m.pstate.getLsbD 0 = true) (r1 r2 : XReg) :
    let m' := m.exec (.stp r1 r2 (-0x10))
    readWord m'.mem m'.spEl1 = m.reg r1 ∧ ∀ a ∉ below m.spEl1 16, m'.mem a = m.mem a := by
  have haddr : m.spEl1 + BitVec.ofInt 64 (-0x10) = m.spEl1 - 16 := by
    rw [sub_eq_add_neg]
    rfl
  simp only [Processor.exec, Processor.sp, Processor.setSp, hsel, if_true, haddr]
  constructor
  · have hapart : Apart (wordAt (m.spEl1 - 16 + 8)) (wordAt (m.spEl1 - 16)) := by
      intro a (ha : (a - _).toNat < 8) (ha' : (a - _).toNat < 8)
      bv_omega
    rw [readWord_writeWord_of_apart _ _ hapart, readWord_writeWord]
  · intro a ha
    have hfar : 16 ≤ (m.spEl1 - 1 - a).toNat := Nat.le_of_not_lt ha
    rw [writeWord_of_notMem, writeWord_of_notMem]
    · show ¬(a - (m.spEl1 - 16)).toNat < 8
      bv_omega
    · show ¬(a - (m.spEl1 - 16 + 8)).toNat < 8
      bv_omega

section

variable {m : Processor} (hsel : m.pstate.getLsbD 0 = true) (w : SwitchWords)
include hsel

private theorem run_ldp_el1 : ∃ sp, m.run [.ldp (.x 0) (.x 1) 0x10] =
    { (m.setReg (.x 0) (readWord m.mem m.spEl1)).setReg (.x 1) (readWord m.mem (m.spEl1 + 8)) with
      spEl1 := sp } := by
  refine ⟨m.spEl1 + 16, ?_⟩
  simp only [Processor.run, List.foldl_cons, List.foldl_nil, Processor.exec, Processor.sp, hsel,
    if_true, Processor.setSp, Processor.setReg]
  rfl

/-- No switch has been asked for. -/
theorem vectorIrqSwitch_same (hflag : readWord m.mem w.flag ≠ 1) :
    (m.vectorIrqSwitch w).mem = m.mem ∧
      (m.vectorIrqSwitch w).x 0 = readWord m.mem m.spEl1 := by
  obtain ⟨sp, hldp⟩ := run_ldp_el1 hsel
  unfold Processor.vectorIrqSwitch
  rw [hldp]
  dsimp only
  rw [if_neg (by exact hflag)]
  exact ⟨rfl, rfl⟩

/-- One frame is stored, and the other one is taken. -/
theorem vectorIrqSwitch_other (hflag : readWord m.mem w.flag = 1) :
    let mem1 := writeWord m.mem w.flag 0
    let mem2 := writeWord mem1 (readWord mem1 w.fromThread) (readWord m.mem m.spEl1)
    (m.vectorIrqSwitch w).mem = mem2 ∧
      (m.vectorIrqSwitch w).x 0 = readWord mem2 (readWord mem2 w.toThread) := by
  obtain ⟨sp, hldp⟩ := run_ldp_el1 hsel
  unfold Processor.vectorIrqSwitch
  rw [hldp]
  dsimp only
  rw [if_pos (by exact hflag)]
  exact ⟨rfl, rfl⟩

end

/-- The end of `vector_irq`, with a frame on the stack of EL1. -/
theorem AllParked.vectorIrq (h : AllParked L parked m.mem) (hsel : m.pstate.getLsbD 0 = true)
    (hholds : c.Holds m.mem (readWord m.mem m.spEl1)) (hroom : below c.sp 272 ⊆ L.stack r)
    {t : Option T} (hwords : L.Asks m.mem r t) (ht : update parked r (some c)
    (t.getD r) = some c') :
    Resumes (m.vectorIrqLeave L.words) c' ∧
      AllParked L (update (update parked r (some c)) (t.getD r) none)
        (m.vectorIrqLeave L.words).mem := by
  cases t with
  | none =>
    obtain ⟨hmem, hx0⟩ := vectorIrqSwitch_same hsel L.words hwords
    rw [Option.getD_none, update_self] at ht
    cases ht
    rw [← hx0, ← hmem] at hholds
    obtain ⟨hres, hsame⟩ := resumes_restoreContext hholds
    refine ⟨hres, ?_⟩
    rw [Option.getD_none, update_idem, Processor.vectorIrqLeave, hsame, hmem]
    exact h.unpark r
  | some t =>
    obtain ⟨hflag, hfrom, hto⟩ := hwords
    obtain ⟨hmem, hx0⟩ := vectorIrqSwitch_other hsel L.words hflag
    -- clearing the flag touches neither a frame nor another cell
    have hall : AllParked L parked (writeWord m.mem (L.addr .flag) 0) :=
      fun u c hu => (h u c hu).write_cell nofun
    have hholds' : c.Holds (writeWord m.mem (L.addr .flag) 0) (readWord m.mem m.spEl1) := by
      apply hholds.congr
      intro i hi
      exact writeWord_of_notMem fun ha => L.cells_off_stacks _ r _ ha (hroom (hholds.mem_below hi))
    have hflag_from : (SwitchCell.flag : SwitchCell T) ≠ .fromThread := nofun
    have hflag_to : (SwitchCell.flag : SwitchCell T) ≠ .toThread := nofun
    have hsp_to : SwitchCell.sp r ≠ .toThread := nofun
    dsimp only [StackLayout.words] at hmem hx0
    rw [readWord_writeWord_of_apart _ _ (L.cells_apart hflag_from), hfrom] at hmem hx0
    rw [readWord_writeWord_of_apart _ _ (L.cells_apart hsp_to),
      readWord_writeWord_of_apart _ _ (L.cells_apart hflag_to), hto] at hx0
    exact (hall.park hholds' hroom).resume ht hmem hx0

omit [DecidableEq T] in
/-- The frame is still there when the handler returns. -/
theorem SwitchSys.Handled.holds {vector : BitVec 64} {t : Option T} (hm : x.Handled L vector m t)
    (hroom : below x.proc.spEl0 272 ⊆ L.stack x.running) :
    L.Keeps (· ≠ x.running) x.proc.mem m.mem ∧
      (x.suspended L (.irq vector m t)).Holds m.mem (readWord m.mem m.spEl1) := by
  obtain ⟨hholds, hmem, -, hsp, hsel⟩ := saveContext_saved (x.proc.takeIrq vector)
  obtain ⟨hpair, hoff⟩ := exec_stp_el1 hsel (.x 0) (.x 1)
  rw [hsp] at hoff
  have hkeeps :
      L.Keeps (fun _ => True) ((x.proc.takeIrq vector).run Asm.saveContext).mem m.mem := by
    constructor
    · intro u _ a ha
      rw [hm.keeps.stack u trivial a ha]
      exact hoff a fun hin => (hm.apart a hin).1 u ha
    · intro u
      rw [hm.keeps.field u]
      exact readWord_congr fun a ha => hoff a fun hin => (hm.apart a hin).2 _ ha
  constructor
  · have hpush : L.Keeps (· ≠ x.running) x.proc.mem
        ((x.proc.takeIrq vector).run Asm.saveContext).mem := keeps_of_saved hroom hmem
    exact ⟨fun u hu a ha => (hkeeps.stack u trivial a ha).trans (hpush.stack u hu a ha),
      fun u => (hkeeps.field u).trans (hpush.field u)⟩
  · rw [hm.frame, hm.spEl1]
    rw [show readWord (x.proc.vectorIrqEnter vector).mem (x.proc.vectorIrqEnter vector).spEl1 =
      ((x.proc.takeIrq vector).run Asm.saveContext).x 0 from hpair]
    apply hholds.congr
    intro i hi
    exact hkeeps.stack x.running trivial _ (hroom (hholds.mem_below hi))

/-! ## Runs -/

/-- Every suspended thread is in its place, and the running one is not suspended. -/
def Isolated (L : StackLayout T) (x : SwitchSys T) : Prop :=
  AllParked L x.parked x.proc.mem ∧ x.parked x.running = none

/-- What one step does. -/
theorem Isolated.step (h : Isolated L x) {op : SwitchOp T} (hop : x.Disciplined L op) :
    Isolated L (x.step L op) ∧ ((∀ m, op ≠ .work m) →
      ∃ c, x.saved L op (x.step L op).running = some c ∧ Resumes (x.step L op).proc c) := by
  obtain ⟨hsome, hrest⟩ := hop
  obtain ⟨c', hc'⟩ := Option.isSome_iff_exists.mp hsome
  have hself : (x.step L op).parked (x.step L op).running = none := update_self ..
  cases op with
  | work m =>
    refine ⟨⟨?_, hself⟩, fun hne => absurd rfl (hne m)⟩
    show AllParked L (update (update x.parked _ _) x.running none) m.mem
    rw [update_idem]
    exact (h.1.keep h.2 hrest).unpark x.running
  | yield t =>
    obtain ⟨hholds, hmem, hreg, -, -⟩ := saveContextT_saved (x.atCall L t)
    have hkept := h.1.keep h.2 (keeps_of_saved hrest hmem)
    have hres := hkept.switch hholds hrest (hreg 8 (by decide) (by decide) (by decide))
      (hreg 9 (by decide) (by decide) (by decide)) hc'
    exact ⟨⟨hres.2, hself⟩, fun _ => ⟨c', hc', hres.1⟩⟩
  | irq vector m t =>
    obtain ⟨hroom, hm⟩ := hrest
    obtain ⟨hkeeps, hholds⟩ := hm.holds hroom
    have hres := (h.1.keep h.2 hkeeps).vectorIrq hm.spsel hholds hroom hm.switch hc'
    exact ⟨⟨hres.2, hself⟩, fun _ => ⟨c', hc', hres.1⟩⟩

/-- **Isolation of contexts.** Along every run in which the threads give up the processor and are
    interrupted in any order, and keep off each other's stacks: whichever thread a switch or the end
    of an interrupt resumes, it finds the registers and the stack pointer with which it was last
    suspended. It goes on where it was interrupted, with the processor state of then, or behind its
    call of `hw_context_switch`, with the value of SPSR_EL1 at the call as its processor state. -/
theorem context_isolation (h : (switchSystem L).Reach (SwitchSys.Disciplined L) x)
    (op : SwitchOp T) (hop : x.Disciplined L op) (hswitch : ∀ m, op ≠ .work m) :
    ∃ c, x.saved L op (x.step L op).running = some c ∧ Resumes (x.step L op).proc c := by
  have hinv : Isolated L x := by
    apply h.invariant
    · exact fun x hx => ⟨hx.2, hx.1⟩
    · intro x op x' hx hop hstep
      cases hstep
      exact (hx.step hop).1
  exact (hinv.step hop).2 hswitch

/-- Two threads, each with a page for its stack. -/
def twoStacks : StackLayout Bool where
  addr
    | .sp true => 0
    | .sp false => 8
    | .flag => 16
    | .fromThread => 24
    | .toThread => 32
  stack t := {a | a.toNat / 4096 = if t then 1 else 2}
  cells_apart := by
    rintro ((_ | _) | _ | _ | _) ((_ | _) | _ | _ | _) hne <;> first
      | exact absurd rfl hne
      | exact fun a (ha : (a - _).toNat < 8) (hb : (a - _).toNat < 8) => by
          bv_omega
  cells_off_stacks := by
    rintro ((_ | _) | _ | _ | _) (_ | _) <;>
      exact fun a (ha : (a - _).toNat < 8) (hb : a.toNat / 4096 = _) => by
        simp at hb
        bv_omega
  stacks_apart := by
    rintro (_ | _) (_ | _) hne <;> first
      | exact absurd rfl hne
      | exact fun a (ha : a.toNat / 4096 = _) (hb : a.toNat / 4096 = _) => by
          simp_all

/-- One of them runs, and the other has just been created. -/
def twoThreads : SwitchSys Bool where
  proc :=
    let frame := threadStackInit 0x40 7 0x2000 0x80
    { x := fun _ => 0, spEl0 := 0x3000, spEl1 := 0x8000, pc := 0, pstate := 4, spsrEl1 := 4,
      elrEl1 := 0
      mem := writeWord (writeWords (fun _ => 0) frame.1) (twoStacks.addr (.sp true))
        (BitVec.ofNat 64 frame.2) }
  running := false
  parked := update (fun _ => none) true (some (initialContext 0x40 7 0x2000 0x80))

/-- The thread that was created starts at its entry, with its parameter in `x0`. -/
theorem context_isolation_start :
    (twoThreads.step twoStacks (.yield true)).proc.pc = 0x40 ∧
      (twoThreads.step twoStacks (.yield true)).proc.x 0 = 7 := by
  have hinit : (switchSystem twoStacks).init twoThreads := by
    refine ⟨rfl, fun t c ht => ?_⟩
    cases t with
    | false => cases ht
    | true =>
      cases ht
      apply StackLayout.Parked.of_holds (holds_threadStackInit _ 0x40 7 0x2000 0x80)
      intro a (ha : (0x2000 - 1 - a).toNat < 272)
      show a.toNat / 4096 = 1
      bv_omega
  have hroom : below (0x3000 : BitVec 64) 272 ⊆ twoStacks.stack false := by
    intro a (ha : (0x3000 - 1 - a).toNat < 272)
    show a.toNat / 4096 = 2
    bv_omega
  obtain ⟨c, hc, hx, -, hpc, -⟩ :=
    context_isolation (.init hinit) (.yield true) ⟨rfl, hroom⟩ nofun
  cases hc
  exact ⟨hpc, congrFun hx 0⟩

end SKernel.Spec
