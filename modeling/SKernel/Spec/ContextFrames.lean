import Mathlib.Data.Fin.VecNotation
import SKernel.Native.Context
import SKernel.Spec.ThreadStack

/-!
# The frames of saved contexts

A frame is 34 words: the return address, the processor state, and the pairs of registers in the
order in which `restore_context` loads them. `save_context` and `save_context_t` store these words
from the other end, two at a time, and `__thread_stack_init` stores them one at a time. The order
agrees, so a context that is restored is the one that was saved, wherever on the stack the frame
stands, and whatever ran in between, as long as nothing wrote into the frame.
-/

namespace SKernel.Spec

open SKernel.Native WordStack List

/-! ## Words -/

/-- The 64-bit words at an address and behind it. -/
def FrameAt (mem : Mem 64) (a : BitVec 64) (ws : List (BitVec 64)) : Prop :=
  Words mem 8 a (ws.map BitVec.toNat)

variable {ws : List (BitVec 64)} {mem mem' : Mem 64} {a elr : BitVec 64} {c : ThreadContext}
variable {returnAddress : Instr}

private theorem frameAt_cons {v : BitVec 64} :
    FrameAt mem a (v :: ws) ↔ readWord mem a = v ∧ FrameAt mem (a + 8) ws := by
  have hlt : load mem 8 a < 2 ^ 64 := load_lt mem 8 a
  have hword : load mem 8 a = v.toNat ↔ readWord mem a = v := by
    rw [readWord, ← BitVec.toNat_inj, BitVec.toNat_ofNat, Nat.mod_eq_of_lt hlt]
  exact and_congr_left' hword

theorem FrameAt.drop_two {v1 v2 : BitVec 64} (h : FrameAt mem a (v1 :: v2 :: ws)) :
    FrameAt mem (a + 16) ws := by
  have htail := (frameAt_cons.mp (frameAt_cons.mp h).2).2
  rwa [add_assoc] at htail

theorem FrameAt.congr (h : FrameAt mem a ws)
    (hsame : ∀ i < 8 * ws.length, mem' (a + BitVec.ofNat 64 i) = mem (a + BitVec.ofNat 64 i)) :
    FrameAt mem' a ws :=
  Words.congr h fun i hi => hsame i (by rwa [length_map] at hi)

/-! ## Pairs of registers -/

/-- The registers of some pairs, in order. -/
def pairRegs : List (XReg × XReg) → List XReg
  | [] => []
  | p :: ps => p.1 :: p.2 :: pairRegs ps

private theorem pairRegs_concat (ps : List (XReg × XReg)) (p : XReg × XReg) :
    pairRegs (ps ++ [p]) = pairRegs ps ++ [p.1, p.2] := by
  induction ps with
  | nil => rfl
  | cons q ps ih => simp only [cons_append, pairRegs, ih]

theorem length_pairRegs (ps : List (XReg × XReg)) : (pairRegs ps).length = 2 * ps.length := by
  induction ps with
  | nil => rfl
  | cons p ps ih =>
    simp only [pairRegs, length_cons, ih]
    omega

/-- Store the pairs, from the first to the last. -/
def stps (ps : List (XReg × XReg)) : List Instr := ps.map fun p => .stp p.1 p.2 (-0x10)

/-- Load the pairs, from the first to the last. -/
def ldps (ps : List (XReg × XReg)) : List Instr := ps.map fun p => .ldp p.1 p.2 0x10

private theorem run_append (m : Processor) (p q : List Instr) : m.run (p ++ q) = (m.run p).run q :=
  foldl_append

theorem run_cons (m : Processor) (i : Instr) (p : List Instr) : m.run (i :: p) = (m.exec i).run p :=
  rfl

private theorem setReg_eq (m : Processor) (r : XReg) (v : BitVec 64) :
    m.setReg r v = { m with x := fun i => if .x i = r then v else m.x i } := by
  cases r with
  | x j =>
    have hx : Function.update m.x j v = fun i => if XReg.x i = .x j then v else m.x i := by
      funext i
      simp only [Function.update_apply, XReg.x.injEq]
    rw [Processor.setReg, hx]
  | xzr => simp [Processor.setReg]

/-- The `n` bytes below an address. -/
def below (a : BitVec 64) (n : Nat) : Set (BitVec 64) := {x | (a - 1 - x).toNat < n}

private theorem notMem_below_add {x : BitVec 64} {k n : Nat} (h : x ∉ below a (k + n)) :
    x ∉ below a k ∧ x ∉ below (a - BitVec.ofNat 64 k) n := by
  have hfar : k + n ≤ (a - 1 - x).toNat := Nat.le_of_not_lt h
  constructor
  · exact Nat.not_lt.mpr (Nat.le_trans (Nat.le_add_right k n) hfar)
  · show ¬(a - BitVec.ofNat 64 k - 1 - x).toNat < n
    bv_omega

variable {m : Processor}

private theorem exec_stp (hsel : m.pstate.getLsbD 0 = false) (r1 r2 : XReg)
    (hframe : FrameAt m.mem m.spEl0 ws) (hroom : 8 * (ws.length + 2) ≤ 2 ^ 64) :
    ∃ mem', m.exec (.stp r1 r2 (-0x10)) = { m with spEl0 := m.spEl0 - 16, mem := mem' } ∧
      FrameAt mem' (m.spEl0 - 16) (m.reg r1 :: m.reg r2 :: ws) ∧
      ∀ a ∉ below m.spEl0 16, mem' a = m.mem a := by
  have haddr : m.spEl0 + BitVec.ofInt 64 (-0x10) = m.spEl0 - 16 := by
    rw [sub_eq_add_neg]
    rfl
  have hback : m.spEl0 - 16 + 8 + 8 = m.spEl0 := by bv_omega
  refine ⟨_, ?_, Words.push_pair (m := m.mem) ?_ (m.reg r1).isLt (m.reg r2).isLt ?_, ?_⟩
  · simp only [Processor.exec, Processor.sp, Processor.setSp, hsel, Bool.false_eq_true, if_false,
      haddr]
    rfl
  · show Words m.mem 8 (m.spEl0 - 16 + 8 + 8) _
    rw [hback]
    exact hframe
  · show 8 * ((ws.map BitVec.toNat).length + 2) ≤ 2 ^ 64
    rwa [length_map]
  · intro a ha
    have hfar : 16 ≤ (m.spEl0 - 1 - a).toNat := Nat.le_of_not_lt ha
    rw [store_outside, store_outside]
    · bv_omega
    · bv_omega

private theorem exec_ldp (hsel : m.pstate.getLsbD 0 = false) (r1 r2 : XReg) {v1 v2 : BitVec 64}
    (hframe : FrameAt m.mem m.spEl0 (v1 :: v2 :: ws)) :
    m.exec (.ldp r1 r2 0x10) =
      { m with
        x := fun i => if .x i = r2 then v2 else if .x i = r1 then v1 else m.x i
        spEl0 := m.spEl0 + 16 } := by
  rw [frameAt_cons, frameAt_cons] at hframe
  simp only [Processor.exec, Processor.sp, Processor.setSp, setReg_eq, hsel, Bool.false_eq_true,
    if_false, hframe.1, hframe.2.1]
  rfl

private theorem run_stps (ps : List (XReg × XReg)) : ∀ (m : Processor) {ws : List (BitVec 64)},
    m.pstate.getLsbD 0 = false → FrameAt m.mem m.spEl0 ws →
    8 * (2 * ps.length + ws.length) ≤ 2 ^ 64 →
    ∃ mem', m.run (stps ps) =
        { m with spEl0 := m.spEl0 - BitVec.ofNat 64 (16 * ps.length), mem := mem' } ∧
      FrameAt mem' (m.spEl0 - BitVec.ofNat 64 (16 * ps.length))
        ((pairRegs ps.reverse).map m.reg ++ ws) ∧
      ∀ a ∉ below m.spEl0 (16 * ps.length), mem' a = m.mem a := by
  induction ps with
  | nil =>
    intro m ws _ hframe _
    refine ⟨m.mem, ?_, ?_, fun _ _ => rfl⟩
    · simp [stps, Processor.run]
    · simpa [pairRegs] using hframe
  | cons p ps ih =>
    intro m ws hsel hframe hroom
    rw [length_cons] at hroom ⊢
    -- for the rest, the first pair is part of what is on the stack
    obtain ⟨mem1, hexec, hframe1, hkeep1⟩ := exec_stp hsel p.1 p.2 hframe (by omega)
    obtain ⟨mem', hrun, hframe', hkeep'⟩ := ih { m with spEl0 := m.spEl0 - 16, mem := mem1 } hsel
      hframe1 (by simp only [length_cons]; omega)
    have hsp : m.spEl0 - 16 - BitVec.ofNat 64 (16 * ps.length) =
        m.spEl0 - BitVec.ofNat 64 (16 * (ps.length + 1)) := by bv_omega
    refine ⟨mem', ?_, ?_, ?_⟩
    · show (m.exec (.stp p.1 p.2 (-0x10))).run (stps ps) = _
      rw [hexec, hrun, ← hsp]
    · rw [← hsp, reverse_cons, pairRegs_concat, map_append, append_assoc]
      exact hframe'
    · intro a ha
      rw [Nat.mul_succ, Nat.add_comm] at ha
      obtain ⟨hfirst, hrest⟩ := notMem_below_add ha
      exact (hkeep' a hrest).trans (hkeep1 a hfirst)

private theorem run_ldps (ps : List (XReg × XReg)) : ∀ (m : Processor) {value : XReg → BitVec 64}
    {ws : List (BitVec 64)}, m.pstate.getLsbD 0 = false →
    FrameAt m.mem m.spEl0 ((pairRegs ps).map value ++ ws) →
    m.run (ldps ps) =
      { m with
        x := fun i => if .x i ∈ pairRegs ps then value (.x i) else m.x i
        spEl0 := m.spEl0 + BitVec.ofNat 64 (16 * ps.length) } := by
  induction ps with
  | nil =>
    intro m value ws _ _
    simp [ldps, pairRegs, Processor.run]
  | cons p ps ih =>
    intro m value ws hsel hframe
    have hexec := exec_ldp hsel p.1 p.2 hframe
    have hrun := ih (m.exec (.ldp p.1 p.2 0x10)) (by rw [hexec]; exact hsel)
      (by rw [hexec]; exact hframe.drop_two)
    rw [hexec] at hrun
    show (m.exec (.ldp p.1 p.2 0x10)).run (ldps ps) = _
    rw [hexec, hrun]
    -- a register that is loaded again gets the same value
    have hx : (fun i => if XReg.x i ∈ pairRegs ps then value (.x i) else
        if .x i = p.2 then value p.2 else if .x i = p.1 then value p.1 else m.x i) =
        fun i => if XReg.x i ∈ pairRegs (p :: ps) then value (.x i) else m.x i := by
      funext i
      simp only [pairRegs, mem_cons]
      by_cases hin : XReg.x i ∈ pairRegs ps
      · rw [if_pos hin, if_pos (.inr (.inr hin))]
      by_cases h2 : XReg.x i = p.2
      · rw [if_neg hin, if_pos h2, if_pos (.inr (.inl h2)), h2]
      by_cases h1 : XReg.x i = p.1
      · rw [if_neg hin, if_neg h2, if_pos h1, if_pos (.inl h1), h1]
      · rw [if_neg hin, if_neg h2, if_neg h1, if_neg (by simp [h1, h2, hin])]
    have hsp : m.spEl0 + 16 + BitVec.ofNat 64 (16 * ps.length) =
        m.spEl0 + BitVec.ofNat 64 (16 * (p :: ps).length) := by
      rw [length_cons]
      bv_omega
    simp only [hx, hsp]

/-! ## Contexts -/

/-- The pairs of registers that a sequence of instructions loads. -/
def loadedPairs : List Instr → List (XReg × XReg)
  | [] => []
  | .ldp r1 r2 _ :: prog => (r1, r2) :: loadedPairs prog
  | _ :: prog => loadedPairs prog

/-- The pairs of a frame, in the order of `restore_context`. The first two words go to the system
    registers. -/
def savedPairs : List (XReg × XReg) := (loadedPairs Asm.restoreContext).tail

/-- What a thread finds again when it goes on: its registers, and where and how it goes on. -/
structure ThreadContext where
  x : Fin 31 → BitVec 64
  spsr : BitVec 64
  elr : BitVec 64
  sp : BitVec 64

namespace ThreadContext

def reg (c : ThreadContext) : XReg → BitVec 64
  | .x i => c.x i
  | .xzr => 0

/-- The words of a frame, from the lowest address on. -/
def words (c : ThreadContext) : List (BitVec 64) :=
  c.elr :: c.spsr :: (pairRegs savedPairs).map c.reg

/-- The frame at `a` holds a context, and the stack goes on behind it. -/
def Holds (c : ThreadContext) (mem : Mem 64) (a : BitVec 64) : Prop :=
  FrameAt mem a c.words ∧ c.sp = a + 272

theorem Holds.congr (h : c.Holds mem a)
    (hsame : ∀ i < 272, mem' (a + BitVec.ofNat 64 i) = mem (a + BitVec.ofNat 64 i)) :
    c.Holds mem' a :=
  ⟨h.1.congr hsame, h.2⟩

end ThreadContext

private theorem saveContextWith_eq (returnAddress : Instr) :
    Asm.saveContextWith returnAddress =
      [.msrSpsel false] ++ (stps savedPairs.reverse ++
        [.mrs (.x 3) .spsrEl1, returnAddress, .stp (.x 2) (.x 3) (-0x10), .movFromSp (.x 0)]) ++
      [.msrSpsel true] := rfl

private theorem restoreContext_eq :
    Asm.restoreContext =
      [.msrSpsel false] ++
        ([.movToSp (.x 0), .ldp (.x 2) (.x 3) 0x10, .msr .spsrEl1 (.x 3), .msr .elrEl1 (.x 2)] ++
          ldps savedPairs) ++
      [.msrSpsel true, .eret] := rfl

private theorem setSpsel_false (m : Processor) : (m.setSpsel false).pstate.getLsbD 0 = false := by
  simp [Processor.setSpsel]

/-- The context of a thread that goes on at `elr`. -/
def context (m : Processor) (elr : BitVec 64) : ThreadContext := ⟨m.x, m.spsrEl1, elr, m.spEl0⟩

theorem run_saveBody {m : Processor} (hsel : m.pstate.getLsbD 0 = false)
    (hexec : ∀ m' : Processor, m'.elrEl1 = m.elrEl1 → m'.x 30 = m.x 30 →
      m'.exec returnAddress = m'.setReg (.x 2) elr) :
    ∃ mem', m.run (stps savedPairs.reverse ++
        [.mrs (.x 3) .spsrEl1, returnAddress, .stp (.x 2) (.x 3) (-0x10), .movFromSp (.x 0)]) =
        { m with
          x := fun i => if i = 0 then m.spEl0 - 272 else if i = 2 then elr else
            if i = 3 then m.spsrEl1 else m.x i
          spEl0 := m.spEl0 - 272
          mem := mem' } ∧
      FrameAt mem' (m.spEl0 - 272) (context m elr).words ∧
      ∀ a ∉ below m.spEl0 272, mem' a = m.mem a := by
  have hempty : FrameAt m.mem m.spEl0 [] := trivial
  obtain ⟨mem1, hrun1, hframe1, hkeep1⟩ :=
    run_stps savedPairs.reverse m hsel hempty (by decide)
  rw [reverse_reverse, append_nil] at hframe1
  have hlen : m.spEl0 - BitVec.ofNat 64 (16 * savedPairs.reverse.length) = m.spEl0 - 256 := rfl
  rw [hlen] at hrun1 hframe1
  -- the two words in front of the registers go through registers that are on the stack by now
  have hregs : (({ m with spEl0 := m.spEl0 - 256, mem := mem1 } : Processor).exec
      (.mrs (.x 3) .spsrEl1)).exec returnAddress =
      { m with
        x := fun i => if i = 2 then elr else if i = 3 then m.spsrEl1 else m.x i
        spEl0 := m.spEl0 - 256
        mem := mem1 } := by
    refine (hexec _ ?_ ?_).trans ?_
    · rfl
    · rfl
    · simp only [Processor.exec, Processor.sysReg, setReg_eq, XReg.x.injEq]
  obtain ⟨mem', hstp, hframe', hkeep'⟩ := exec_stp
    (m := { m with
      x := fun i => if i = 2 then elr else if i = 3 then m.spsrEl1 else m.x i
      spEl0 := m.spEl0 - 256
      mem := mem1 }) hsel (.x 2) (.x 3) hframe1 (by rw [length_map, length_pairRegs]; decide)
  have hsp : m.spEl0 - 256 - 16 = m.spEl0 - 272 := by bv_omega
  rw [hsp] at hstp hframe'
  refine ⟨mem', ?_, hframe', ?_⟩
  · rw [run_append, hrun1, run_cons, run_cons, hregs, run_cons, hstp]
    simp only [run_cons, Processor.exec, Processor.sp, hsel, setReg_eq, XReg.x.injEq]
    rfl
  · intro a ha
    obtain ⟨hfirst, hrest⟩ := notMem_below_add (k := 16 * savedPairs.reverse.length) (n := 16) ha
    exact (hkeep' a hrest).trans (hkeep1 a hfirst)

/-- A context is in a frame whose address is in `x0`. Otherwise only bytes below the stack pointer
    of EL0 and three registers have changed, and the stack pointer of EL1 is selected. -/
structure Saved (m saved : Processor) (c : ThreadContext) : Prop where
  holds : c.Holds saved.mem (saved.x 0)
  mem : ∀ a ∉ below m.spEl0 272, saved.mem a = m.mem a
  reg : ∀ i, i ≠ 0 → i ≠ 2 → i ≠ 3 → saved.x i = m.x i
  spEl1 : saved.spEl1 = m.spEl1
  spsel : saved.pstate.getLsbD 0 = true

private theorem saveContextWith_saved (m : Processor)
    (hexec : ∀ m' : Processor, m'.elrEl1 = m.elrEl1 → m'.x 30 = m.x 30 →
      m'.exec returnAddress = m'.setReg (.x 2) elr) :
    Saved m (m.run (Asm.saveContextWith returnAddress)) (context m elr) := by
  obtain ⟨mem', hrun, hframe, hkeep⟩ := run_saveBody (setSpsel_false m) hexec
  have hsel : m.run [.msrSpsel false] = m.setSpsel false := rfl
  rw [saveContextWith_eq, run_append, run_append, hsel, hrun]
  refine ⟨⟨hframe, (sub_add_cancel m.spEl0 272).symm⟩, hkeep, ?_, rfl, ?_⟩
  · intro i h0 h2 h3
    show (if i = 0 then _ else if i = 2 then _ else if i = 3 then _ else m.x i) = m.x i
    rw [if_neg h0, if_neg h2, if_neg h3]
  · simp [Processor.run, Processor.exec, Processor.setSpsel]

theorem saveContext_saved (m : Processor) :
    Saved m (m.run Asm.saveContext) (context m m.elrEl1) := by
  apply saveContextWith_saved
  intro m' helr _
  exact congrArg (m'.setReg (.x 2)) helr

theorem saveContextT_saved (m : Processor) :
    Saved m (m.run Asm.saveContextT) (context m (m.x 30)) := by
  apply saveContextWith_saved
  intro m' _ hx30
  exact congrArg (m'.setReg (.x 2)) hx30

private theorem saveContext_holds (m : Processor) :
    let saved := m.run Asm.saveContext
    (context m m.elrEl1).Holds saved.mem (saved.x 0) :=
  (saveContext_saved m).holds

private theorem run_restoreBody (hsel : m.pstate.getLsbD 0 = false) (h : c.Holds m.mem (m.x 0)) :
    m.run ([.movToSp (.x 0), .ldp (.x 2) (.x 3) 0x10, .msr .spsrEl1 (.x 3), .msr .elrEl1 (.x 2)] ++
        ldps savedPairs) =
      { m with x := c.x, spEl0 := c.sp, spsrEl1 := c.spsr, elrEl1 := c.elr } := by
  obtain ⟨hframe, hsp⟩ := h
  have hmov : m.exec (.movToSp (.x 0)) = { m with spEl0 := m.x 0 } := by
    rw [Processor.exec, Processor.setSp, hsel]
    rfl
  have hldp := exec_ldp (m := { m with spEl0 := m.x 0 }) hsel (.x 2) (.x 3) hframe
  -- the two words in front go to the system registers, through registers that are loaded later
  obtain ⟨x1, hfront⟩ : ∃ x1, m.run [.movToSp (.x 0), .ldp (.x 2) (.x 3) 0x10,
      .msr .spsrEl1 (.x 3), .msr .elrEl1 (.x 2)] =
      { m with x := x1, spEl0 := m.x 0 + 16, spsrEl1 := c.spsr, elrEl1 := c.elr } := by
    refine ⟨fun i => if XReg.x i = .x 3 then c.spsr else if XReg.x i = .x 2 then c.elr else m.x i,
      ?_⟩
    rw [run_cons, run_cons, hmov, hldp]
    rfl
  have hframe' : FrameAt m.mem (m.x 0 + 16) ((pairRegs savedPairs).map c.reg ++ []) := by
    rw [append_nil]
    exact hframe.drop_two
  have hloads := run_ldps savedPairs
    { m with x := x1, spEl0 := m.x 0 + 16, spsrEl1 := c.spsr, elrEl1 := c.elr } hsel hframe'
  have hall : ∀ i : Fin 31, XReg.x i ∈ pairRegs savedPairs := by decide
  have hend : m.x 0 + 16 + BitVec.ofNat 64 (16 * savedPairs.length) = c.sp := by
    rw [hsp, add_assoc]
    rfl
  simp only [hall, if_true, hend] at hloads
  rw [run_append, hfront, hloads]
  rfl

theorem run_restoreContext (h : c.Holds m.mem (m.x 0)) :
    m.run Asm.restoreContext =
      { m with
        x := c.x, spEl0 := c.sp, spsrEl1 := c.spsr, elrEl1 := c.elr, pc := c.elr,
        pstate := c.spsr } := by
  have hbody := run_restoreBody (setSpsel_false m) h
  have hsel : m.run [.msrSpsel false] = m.setSpsel false := rfl
  rw [restoreContext_eq, run_append, run_append, hsel, hbody]
  rfl

/-! ## The frame of a new thread -/

private theorem ofNat_stackDown (stk : Nat) :
    BitVec.ofNat 64 (stackDown stk) + BitVec.ofNat 64 8 = BitVec.ofNat 64 stk := by
  rw [← BitVec.ofNat_add]
  apply BitVec.eq_of_toNat_eq
  rw [BitVec.toNat_ofNat, BitVec.toNat_ofNat, stackDown, ubaseSize, Nat.mod_add_mod, Nat.add_assoc,
    Nat.sub_add_cancel (by decide), Nat.add_mod_right]

private theorem writeWords_push (mem : Mem 64) (stk v : Nat) (vs : List Nat) :
    writeWords mem (pushWords stk (v :: vs)) =
      writeWords (writeWord mem (BitVec.ofNat 64 (stackDown stk)) (BitVec.ofNat 64 v))
        (pushWords (stackDown stk) vs) := by
  rw [pushWords, writeWords, foldl_cons, ← writeWords]

private theorem ofNat_stackAfter (vs : List Nat) : ∀ stk : Nat,
    BitVec.ofNat 64 (stackAfter stk vs) + BitVec.ofNat 64 (8 * vs.length) =
      BitVec.ofNat 64 stk := by
  induction vs with
  | nil =>
    intro stk
    exact add_zero _
  | cons v vs ih =>
    intro stk
    rw [stackAfter_cons, length_cons, Nat.mul_succ, BitVec.ofNat_add, ← add_assoc, ih,
      ofNat_stackDown]

theorem frameAt_pushWords (vs : List Nat) : ∀ (stk : Nat) (mem : Mem 64) {ws : List (BitVec 64)},
    FrameAt mem (BitVec.ofNat 64 stk) ws → 8 * (vs.length + ws.length) ≤ 2 ^ 64 →
    FrameAt (writeWords mem (pushWords stk vs)) (BitVec.ofNat 64 (stackAfter stk vs))
      ((vs.map (BitVec.ofNat 64)).reverse ++ ws) := by
  induction vs with
  | nil =>
    intro stk mem ws hframe _
    exact hframe
  | cons v vs ih =>
    intro stk mem ws hframe hroom
    rw [length_cons] at hroom
    -- the first word joins those that are on the stack, as in `run_stps`
    have hpush : FrameAt (writeWord mem (BitVec.ofNat 64 (stackDown stk)) (BitVec.ofNat 64 v))
        (BitVec.ofNat 64 (stackDown stk)) (BitVec.ofNat 64 v :: ws) := by
      rw [← ofNat_stackDown stk] at hframe
      refine Words.push hframe (BitVec.ofNat 64 v).isLt ?_
      rw [length_map]
      omega
    rw [stackAfter_cons, writeWords_push, map_cons, reverse_cons, append_assoc]
    exact ih (stackDown stk) _ hpush (by rw [length_append, length_singleton]; omega)

/-- The context with which a thread starts. -/
def initialContext (entry param top exit : BitVec 64) : ThreadContext where
  x := ![param, 11, 22, 33, 44, 55, 66, 77, 88, 99, 10, 11, 12, 13, 14, 15, 16, 17, 18, 19, 20, 21,
    22, 23, 24, 25, 26, 27, 28, 29, exit]
  spsr := BitVec.ofNat 64 initialSpsrEl1
  elr := entry
  sp := top

theorem holds_threadStackInit (mem : Mem 64) (entry param top exit : BitVec 64) :
    (initialContext entry param top exit).Holds
      (writeWords mem
        (threadStackInit entry.toNat param.toNat top.toNat exit.toNat).1)
      (BitVec.ofNat 64 (threadStackInit entry.toNat param.toNat top.toNat exit.toNat).2) := by
  -- the last word that is pushed is the first one of the frame
  have hwords : ((initialFrame entry.toNat param.toNat exit.toNat).map (BitVec.ofNat 64)).reverse =
      (initialContext entry param top exit).words := by
    simp only [initialFrame, map_cons, BitVec.ofNat_toNat, BitVec.setWidth_eq]
    rfl
  constructor
  · have hempty : FrameAt mem (BitVec.ofNat 64 top.toNat) [] := trivial
    have hframe := frameAt_pushWords (initialFrame entry.toNat param.toNat exit.toNat) top.toNat mem
      hempty (by rw [length_initialFrame]; decide)
    rwa [hwords, append_nil] at hframe
  · have hsp := ofNat_stackAfter (initialFrame entry.toNat param.toNat exit.toNat) top.toNat
    rw [BitVec.ofNat_toNat, BitVec.setWidth_eq] at hsp
    exact hsp.symm

/-- **A context that is restored from its frame is the one that was saved, or the one with which the
    thread starts.** Between the two, anything may change but `x0` and the frame. -/
theorem context_frames_agree :
    (∀ m later : Processor,
      let saved := m.run Asm.saveContext
      later.x 0 = saved.x 0 →
      (∀ i < 272, later.mem (saved.x 0 + BitVec.ofNat 64 i) =
        saved.mem (saved.x 0 + BitVec.ofNat 64 i)) →
      let restored := later.run Asm.restoreContext
      (∀ i, restored.x i = m.x i) ∧ restored.spsrEl1 = m.spsrEl1 ∧ restored.elrEl1 = m.elrEl1 ∧
        restored.spEl0 = m.spEl0) ∧
    ∀ (entry param top exit : BitVec 64) (mem : Mem 64) (later : Processor),
      let (stores, sp) := threadStackInit entry.toNat param.toNat top.toNat exit.toNat
      later.x 0 = BitVec.ofNat 64 sp →
      (∀ i < 272, later.mem (later.x 0 + BitVec.ofNat 64 i) =
        writeWords mem stores (later.x 0 + BitVec.ofNat 64 i)) →
      let restored := later.run Asm.restoreContext
      restored.elrEl1 = entry ∧ restored.spsrEl1 = BitVec.ofNat 64 initialSpsrEl1 ∧
        restored.x 0 = param ∧ restored.x 30 = exit ∧ restored.spEl0 = top := by
  constructor
  · intro m later saved hx0 hsame restored
    have hholds : (context m m.elrEl1).Holds later.mem (later.x 0) := by
      rw [hx0]
      exact (saveContext_holds m).congr hsame
    have hrestored : restored = _ := run_restoreContext hholds
    rw [hrestored]
    exact ⟨fun _ => rfl, rfl, rfl, rfl⟩
  · intro entry param top exit mem later
    dsimp only
    intro hx0 hsame
    have hholds : (initialContext entry param top exit).Holds later.mem (later.x 0) := by
      rw [hx0] at hsame ⊢
      exact (holds_threadStackInit mem entry param top exit).congr hsame
    rw [run_restoreContext hholds]
    exact ⟨rfl, rfl, rfl, rfl, rfl⟩

/-- The registers of an interrupted thread come back although the handler has used all others. -/
theorem context_frames_agree_interrupted :
    let m : Processor :=
      { x := fun i => BitVec.ofNat 64 i, spEl0 := 0x1000, spEl1 := 0x8000, pc := 0, pstate := 5,
        spsrEl1 := 4, elrEl1 := 0x40, mem := fun _ => 0 }
    let saved := m.run Asm.saveContext
    let later : Processor :=
      { saved with x := fun i => if i = 0 then saved.x 0 else 7, spsrEl1 := 9, elrEl1 := 9 }
    (later.run Asm.restoreContext).x 30 = 30 ∧ (later.run Asm.restoreContext).spEl0 = 0x1000 := by
  intro m saved later
  obtain ⟨hx, -, -, hsp⟩ := context_frames_agree.1 m later rfl fun _ _ => rfl
  exact ⟨hx 30, hsp⟩

end SKernel.Spec
