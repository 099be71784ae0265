import SKernel.Native.Serial
import SKernel.Spec.RingBufferCorrect

/-!
# The receive stream of a serial device

The interrupt handler takes characters from `getc` and puts them into the receive ring;
`sk_serial_read` takes them out. A character that finds the ring full is dropped. The system
records what has been taken from `getc`, with the state of the ring at that moment, and what has
been read.
-/

namespace SKernel.Spec

open Circular Native List Option

/-! ## The system -/

/-- A character from `getc`, and whether the ring was full when it was taken. -/
structure TakenChar where
  ch : Int
  full : Bool
  deriving DecidableEq

/-- A serial device, the characters taken from `getc` and the bytes returned by reads. -/
structure SerialSys where
  serial : SerialDevice
  taken : List TakenChar
  reads : List UInt8

inductive SerialOp where
  /-- `sk_hw_serial_isr` with `SK_SERIAL_EVENT_RX_IND`, and what `getc` returns before -1 -/
  | rxInd (input : List Int)
  /-- `sk_serial_read` of that many bytes -/
  | read (size : Nat)

/-- The characters that the loop of the handler takes from `getc`. -/
def takenChars : RingBuffer → List Int → List TakenChar
  | _, [] => []
  | rb, ch :: input =>
    if ch = -1 then []
    else
      { ch, full := skGetRingBufferStatus rb = .full } ::
        takenChars (skRingBufferPutchar rb (UInt8.ofInt ch)).2 input

/-- The characters that were taken while the ring was not full, as bytes. -/
def keptBytes (taken : List TakenChar) : List UInt8 :=
  (taken.filter fun c => !c.full).map fun c => UInt8.ofInt c.ch

namespace SerialSys

/-- What one interrupt takes from `getc`. The handler does not call `getc` when it finds the ring
    full. -/
def takes (x : SerialSys) (input : List Int) : List TakenChar :=
  match x.serial.serialRx with
  | none => []
  | some rb => if skRingBufferDataLen rb = toSize rb.bufferSize then [] else takenChars rb input

/-- The state after an interrupt or a read. -/
def step (x : SerialSys) : SerialOp → Option SerialSys
  | .rxInd input =>
    (skHwSerialIsr x.serial .rxInd input).map fun r =>
      { x with serial := r.1, taken := x.taken ++ x.takes input }
  | .read size =>
    (skSerialRead x.serial size []).map fun r =>
      { x with serial := r.2.2.1, reads := x.reads ++ r.2.1 }

end SerialSys

/-- The interrupts and reads of a serial device with a receive buffer of `n` bytes, from
    `sk_serial_open` on. -/
def serialSystem (n : Nat) : TransitionSystem SerialSys SerialOp where
  init x := x.taken = [] ∧ x.reads = [] ∧ ∃ serial flag rxMem txMem ret,
    serial.config.rxBufSize = n ∧ serial.serialRx = none ∧
    serial.parent.flag &&& deviceFlagOpen = 0 ∧
    skSerialOpen serial flag (some rxMem) txMem = some (ret, x.serial)
  step := SerialSys.step

/-! ## The handler -/

variable {rb : RingBuffer} {n : Nat} {q : List UInt8}

theorem keptBytes_append (a b : List TakenChar) :
    keptBytes (a ++ b) = keptBytes a ++ keptBytes b := by
  simp [keptBytes]

/-- The characters that find the ring full are lost. -/
theorem serialRxLoop_repr (h : Repr rb n q) (input : List Int) :
    Repr (serialRxLoop rb input).1 n (q ++ keptBytes (takenChars rb input)) := by
  induction input generalizing rb q with
  | nil => simpa [serialRxLoop, takenChars, keptBytes] using h
  | cons ch input ih =>
    unfold serialRxLoop takenChars
    by_cases hend : ch = -1
    · simpa [hend, keptBytes] using h
    · have hput := ih (putchar_repr h (UInt8.ofInt ch)).2
      simp only [hend, ↓reduceIte]
      have hq := h.length_le
      by_cases hfull : q.length = n
      · -- the ring is full and the character is dropped
        have hspace : n - q.length = 0 := by omega
        simp only [hspace, take_zero, append_nil] at hput
        simpa [keptBytes, h.full_iff.mpr hfull] using hput
      · have htake : [UInt8.ofInt ch].take (n - q.length) = [UInt8.ofInt ch] :=
          take_of_length_le (by simp; omega)
        have hnot : skGetRingBufferStatus rb ≠ .full := fun hst => hfull (h.full_iff.mp hst)
        rw [htake] at hput
        simpa [keptBytes, hnot] using hput

/-! ## Runs -/

/-- The invariant of the runs: the ring holds what has been kept and not yet been read. -/
structure SerialInv (n : Nat) (x : SerialSys) : Prop where
  size : x.serial.config.rxBufSize = n
  pos : 0 < n
  ring : ∃ rb q, x.serial.serialRx = some rb ∧ Repr rb n q ∧ x.reads ++ q = keptBytes x.taken

namespace SerialInv

variable {x x' : SerialSys}

/-- Opening the device sets up an empty ring. -/
theorem init (hpos : 1 ≤ n) (hle : n ≤ 32767) (h : (serialSystem n).init x) : SerialInv n x := by
  obtain ⟨htaken, hreads, serial, flag, rxMem, txMem, ret, hsize, hrx, hflag, hopen⟩ := h
  unfold skSerialOpen at hopen
  rw [if_neg (not_not.mpr hflag)] at hopen
  have hsome : ¬(serial.config.rxBufSize = 0 ∧
      (serial.parent.flag ||| flag) &&& serialRxNonBlock ≠ 0) := by omega
  simp only [hrx, isNone_none, ↓reduceIte, skSerialRxEnable, hsome, map_some,
    bind_some] at hopen
  obtain ⟨serial', htx, heq⟩ := map_eq_some_iff.mp hopen
  -- setting up the transmit side leaves the receive side alone
  have hkeep : serial'.config.rxBufSize = n ∧
      serial'.serialRx = some (skRingBufferInit rxMem n) := by
    rw [hsize] at htx
    unfold skSerialTxEnable at htx
    split at htx
    · split at htx
      · cases htx
        exact ⟨hsize, rfl⟩
      · obtain ⟨mem, -, hmem⟩ := map_eq_some_iff.mp htx
        rw [← hmem]
        exact ⟨hsize, rfl⟩
    · cases htx
      exact ⟨hsize, rfl⟩
  cases heq
  refine ⟨hkeep.1, hpos, _, [], hkeep.2, init_repr rxMem n hpos hle, ?_⟩
  rw [htaken, hreads]
  rfl

/-- What an interrupt keeps is appended. -/
theorem rxInd (h : SerialInv n x) (input : List Int) :
    ∃ x', x.step (.rxInd input) = some x' ∧ SerialInv n x' := by
  obtain ⟨rb, q, hrx, hrepr, hlaw⟩ := h.ring
  simp only [SerialSys.step, SerialSys.takes, skHwSerialIsr, hrx, map_some]
  by_cases hfull : skRingBufferDataLen rb = toSize rb.bufferSize
  · simp only [hfull, ↓reduceIte, append_nil]
    exact ⟨_, rfl, h.size, h.pos, rb, q, hrx, hrepr, hlaw⟩
  · simp only [hfull, ↓reduceIte]
    refine ⟨_, rfl, h.size, h.pos, _, _, rfl, serialRxLoop_repr hrepr input, ?_⟩
    rw [← append_assoc, hlaw, keptBytes_append]

/-- The oldest bytes move to the reader. -/
theorem read (h : SerialInv n x) (size : Nat) :
    ∃ x', x.step (.read size) = some x' ∧ SerialInv n x' := by
  obtain ⟨rb, q, hrx, hrepr, hlaw⟩ := h.ring
  have hne : x.serial.config.rxBufSize ≠ 0 := by
    have := h.size
    have := h.pos
    omega
  obtain ⟨-, hbytes, hrest⟩ := get_repr hrepr (toUInt16 size)
  simp only [SerialSys.step, skSerialRead, hne, ne_eq, not_false_eq_true, ↓reduceIte, hrx,
    map_some]
  refine ⟨_, rfl, h.size, h.pos, _, _, rfl, hrest, ?_⟩
  rw [hbytes, append_assoc, take_append_drop, hlaw]

theorem step (h : SerialInv n x) (op : SerialOp) :
    ∃ x', x.step op = some x' ∧ SerialInv n x' := by
  cases op with
  | rxInd input => exact h.rxInd input
  | read size => exact h.read size

end SerialInv

/-- **Serial receive stream.** Along every run of receive interrupts and reads of a device with a
    receive buffer of 1 to 32767 bytes: the bytes returned by the reads, followed by the bytes
    still in the ring, are the characters taken from `getc`, in order, without those that were
    taken while the ring was full; and every further call returns. -/
theorem serial_receive_stream (hpos : 1 ≤ n) (hle : n ≤ 32767) {x : SerialSys}
    (h : (serialSystem n).Reach (fun _ _ => True) x) :
    ∃ rb, x.serial.serialRx = some rb ∧ x.reads ++ ringBytes rb = keptBytes x.taken ∧
      ∀ op, (x.step op).isSome := by
  have hinv : SerialInv n x := by
    refine h.invariant (fun _ => SerialInv.init hpos hle) ?_
    intro x op x' hx _ hstep
    obtain ⟨x1, heq, hx1⟩ := hx.step op
    rw [show x1 = x' from some.inj (heq.symm.trans hstep)] at hx1
    exact hx1
  obtain ⟨rb, q, hrx, hrepr, hlaw⟩ := hinv.ring
  refine ⟨rb, hrx, ?_, ?_⟩
  · rw [hrepr.ringBytes_eq, hlaw]
  · intro op
    obtain ⟨x', heq, -⟩ := hinv.step op
    rw [heq]
    rfl

/-- A serial device with a receive buffer of two bytes that has just been opened. -/
def openedSerial : SerialSys where
  serial :=
    { parent := { type := .char, flag := 0, refCnt := 0 }
      rxIndicate := false
      config := { rxBufSize := 2, txBufSize := 0 }
      serialRx := some (skRingBufferInit (fun _ => 0) 2)
      serialTx := none }
  taken := []
  reads := []

/-- Three characters arrive, of which the third is dropped, one byte is read, and one more
    character arrives. -/
theorem serial_receive_stream_two :
    ∃ x rb, (serialSystem 2).Reach (fun _ _ => True) x ∧ x.serial.serialRx = some rb ∧
      keptBytes x.taken = [97, 98, 100] ∧ x.reads ++ ringBytes rb = keptBytes x.taken := by
  have hinit : (serialSystem 2).Reach (fun _ _ => True) openedSerial := by
    refine .init ⟨rfl, rfl, { openedSerial.serial with serialRx := none }, 0, fun _ => 0, none,
      .eok, rfl, rfl, rfl, rfl⟩
  obtain ⟨x, hx, hp⟩ := hinit.exists_of_run [.rxInd [97, 98, 99], .read 1, .rxInd [100]]
    (fun x => keptBytes x.taken = [97, 98, 100]) (by decide +kernel)
  obtain ⟨rb, hrx, hlaw, -⟩ := serial_receive_stream (by decide) (by decide) hx
  exact ⟨x, rb, hx, hrx, of_decide_eq_true hp, hlaw⟩

end SKernel.Spec
