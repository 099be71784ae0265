import SKernel.Native.RingSteps
import SKernel.Spec.SerialCorrect
import SKernel.Spec.ShellBounds

/-!
# The shell reads while characters arrive

The receive interrupt may come between any two steps of the loop of the shell thread. The length
that `sk_ring_buffer_data_len` computes can then be wrong, but for a read of one character only
whether it is zero matters, and bytes are only ever added behind the reader's back. The one place
where an interrupt does harm is between the stores to `read_mirror` and `read_index` when the read
wraps around: there a full ring looks empty to the handler.
-/

namespace SKernel.Spec

open Circular Native List Option

/-! ## Without interrupts -/

/-- One step, of the ring and the reader together. -/
def getNext (len : Nat) (s : RingBuffer × GetPc) : RingBuffer × GetPc :=
  getStep len s.1 s.2

/-- The first steps compute the length. -/
theorem getNext_dataLen (len : Nat) (rb : RingBuffer) :
    ∃ k, (getNext len)^[k] (rb, .indices) = (rb, .sized len (skRingBufferDataLen rb)) := by
  by_cases hidx : rb.readIndex = rb.writeIndex
  · use 2
    by_cases hmir : rb.readMirror = rb.writeMirror
    · simp [getNext, getStep, skRingBufferDataLen, skGetRingBufferStatus, hidx, hmir]
    · simp [getNext, getStep, skRingBufferDataLen, skGetRingBufferStatus, hidx, hmir]
  · use 3
    by_cases hlt : rb.readIndex < rb.writeIndex
    · simp [getNext, getStep, skRingBufferDataLen, skGetRingBufferStatus, hidx, hlt]
    · simp [getNext, getStep, skRingBufferDataLen, skGetRingBufferStatus, hidx, hlt]

theorem getNext_iterate (len : Nat) (rb : RingBuffer) :
    ∃ k, (getNext len)^[k] (rb, .indices) =
      ((skRingBufferGet rb len).2.2, .done (skRingBufferGet rb len).2.1) := by
  obtain ⟨k, hk⟩ := getNext_dataLen len rb
  obtain ⟨j, hj⟩ : ∃ j, (getNext len)^[j] (rb, .sized len (skRingBufferDataLen rb)) =
      ((skRingBufferGet rb len).2.2, .done (skRingBufferGet rb len).2.1) := by
    unfold skRingBufferGet GetPc.sized
    by_cases hzero : toUInt16 (skRingBufferDataLen rb) = 0
    · exact ⟨0, by simp [hzero]⟩
    simp only [hzero, ↓reduceIte]
    generalize (if toUInt16 (skRingBufferDataLen rb) < len then _ else len) = getLen
    by_cases hside : getLen < toUInt16 (rb.bufferSize - rb.readIndex)
    · exact ⟨2, by simp [getNext, getStep, hside]⟩
    · exact ⟨3, by simp [getNext, getStep, hside]⟩
  exact ⟨j + k, by rw [Function.iterate_add_apply, hk, hj]⟩

/-! ## The system -/

/-- The bytes that `sk_ring_buffer_get` returns with. -/
def returnedBytes : GetPc → List UInt8
  | .done bytes => bytes
  | _ => []

/-- Between the stores to `read_mirror` and `read_index`. -/
def betweenStores : GetPc → Bool
  | .index .. => true
  | _ => false

/-- The shell thread, its device, what has been taken from `getc` and what the shell has read. -/
structure TermSys extends SerialSys where
  pc : GetPc
  shell : ShellCmd

inductive TermOp where
  /-- the receive interrupt, and what `getc` returns before -1 -/
  | rxInd (input : List Int)
  /-- a step of the shell thread -/
  | thread

namespace TermSys

/-- What the next step of the shell thread returns with from the ring. -/
def returned (x : TermSys) : List UInt8 :=
  match x.serial.serialRx with
  | some rb => returnedBytes (getStep 1 rb x.pc).2
  | none => []

/-- The state after an interrupt or a step of the thread. -/
def step (table : List ShellSyscall) (x : TermSys) : TermOp → Option TermSys
  | .rxInd input => (x.toSerialSys.step (.rxInd input)).map fun s => { x with toSerialSys := s }
  | .thread =>
    (Terminal.threadStep table ⟨x.serial, x.pc, x.shell⟩).map fun t =>
      { serial := t.serial, taken := x.taken, reads := x.reads ++ x.returned
        pc := t.pc, shell := t.shell }

/-- An interrupt between the two stores takes no more characters than the ring has room for when
    the read is over. -/
def InRoom (n : Nat) (x : TermSys) : TermOp → Prop
  | .rxInd input =>
    betweenStores x.pc → (keptBytes (x.taken ++ x.takes input)).length ≤ x.reads.length + 1 + n
  | .thread => True

instance (n : Nat) (x : TermSys) (op : TermOp) : Decidable (x.InRoom n op) :=
  match op with
  | .rxInd _ => inferInstanceAs (Decidable (_ → _))
  | .thread => isTrue trivial

end TermSys

/-- The shell thread with its receive interrupt, from the first prompt on. -/
def terminalSystem (table : List ShellSyscall) (n : Nat) : TransitionSystem TermSys TermOp where
  init x := (serialSystem n).init x.toSerialSys ∧ x.pc = .indices ∧ x.shell = shellSystemInit
  step := TermSys.step table

/-! ## The reader -/

/-- What the reader has found out about the bytes in the ring, and copied from them. -/
def Found (q : List UInt8) : GetPc → Prop
  | .indices | .mirrors => True
  | .order | .ahead | .behind => q ≠ []
  | .copy getLen => getLen = 1 ∧ q ≠ []
  | .advance getLen bytes => getLen = 1 ∧ bytes.length = 1 ∧ bytes <+: q
  | .mirror getLen sideLen bytes | .index getLen sideLen bytes =>
    getLen = 1 ∧ sideLen = 1 ∧ bytes.length = 1 ∧ bytes <+: q
  | .done bytes => bytes.length ≤ 1 ∧ bytes <+: q

/-- Where the read index is. -/
def IndexAt (n i : Nat) : GetPc → Prop
  | .advance .. => i + 1 < n
  | .mirror .. | .index .. => i + 1 = n
  | _ => True

/-- The number of bytes that the reader has given up. -/
def consumed : GetPc → Nat
  | .index .. => 1
  | .done bytes => bytes.length
  | _ => 0

/-- The read index when the store that has been begun is finished. -/
def settledIndex (i : Nat) : GetPc → Nat
  | .index .. => 0
  | _ => i

/-- The ring and the reader, when the ring holds the bytes `q` and those being read. -/
structure Reading (n : Nat) (rb : RingBuffer) (q : List UInt8) (pc : GetPc) : Prop where
  found : Found q pc
  indexAt : IndexAt n rb.readIndex pc
  read_lt : rb.readIndex < n
  repr : Repr { rb with readIndex := settledIndex rb.readIndex pc } n (q.drop (consumed pc))

section

variable {n : Nat} {rb : RingBuffer} {q : List UInt8} {pc : GetPc}

theorem Found.append (h : Found q pc) (bs : List UInt8) : Found (q ++ bs) pc := by
  have hpre : q <+: q ++ bs := prefix_append q bs
  cases pc with
  | indices | mirrors => trivial
  | order | ahead | behind => exact append_ne_nil_of_left_ne_nil h bs
  | copy => exact ⟨h.1, append_ne_nil_of_left_ne_nil h.2 bs⟩
  | advance => exact ⟨h.1, h.2.1, h.2.2.trans hpre⟩
  | mirror | index => exact ⟨h.1, h.2.1, h.2.2.1, h.2.2.2.trans hpre⟩
  | done => exact ⟨h.1, h.2.trans hpre⟩

private theorem Found.consumed_le (h : Found q pc) : consumed pc ≤ q.length := by
  cases pc with
  | index =>
    obtain ⟨-, -, hone, hpre⟩ := h
    have hle := hpre.length_le
    show 1 ≤ q.length
    omega
  | done bytes => exact h.2.length_le
  | indices | mirrors | order | ahead | behind | copy | advance | mirror => exact Nat.zero_le _

private theorem sized_one (d : Nat) : GetPc.sized 1 d = .done [] ∨ GetPc.sized 1 d = .copy 1 := by
  unfold GetPc.sized
  by_cases hzero : toUInt16 d = 0
  · simp [hzero]
  · have hlen : ¬toUInt16 d < 1 := by omega
    simp [hzero, hlen]

theorem Repr.ne_nil (h : Repr rb n q)
    (hne : rb.readIndex ≠ rb.writeIndex ∨ rb.readMirror ≠ rb.writeMirror) : q ≠ [] := by
  rintro rfl
  have hm := h.mirror
  have hr := h.read_lt
  have hw := h.write_lt
  simp only [length_nil] at hm
  split at hm
  · simp_all
  · omega

/-- The oldest byte is at the read index. -/
theorem Repr.slice_one (h : Repr rb n q) (hne : q ≠ []) :
    slice rb.buffer rb.readIndex 1 <+: q := by
  have hr := h.read_lt
  have hpos : 1 ≤ q.length := length_pos_of_ne_nil hne
  rw [← window_eq_slice _ n _ _ (by omega), ← take_window _ _ _ q.length _ hpos, h.items]
  exact take_prefix _ _

namespace Reading

/-- After the length has been computed. -/
theorem sized (h : Repr rb n q) (hne : q ≠ []) (d : Nat) : Reading n rb q (.sized 1 d) := by
  rcases sized_one d with hd | hd
  · rw [hd]
    exact ⟨⟨Nat.zero_le _, nil_prefix⟩, trivial, h.read_lt, h⟩
  · rw [hd]
    exact ⟨⟨rfl, hne⟩, trivial, h.read_lt, h⟩

/-- A step of the reader. -/
theorem step (h : Reading n rb q pc) : Reading n (getStep 1 rb pc).1 q (getStep 1 rb pc).2 := by
  have hlt := h.read_lt
  have hn := h.repr.size_le
  cases pc with
  | indices =>
    have hrepr : Repr rb n q := h.repr
    by_cases hidx : rb.readIndex = rb.writeIndex
    · simp only [getStep, hidx, ↓reduceIte]
      exact ⟨trivial, trivial, hlt, hrepr⟩
    · simp only [getStep, hidx, ↓reduceIte]
      exact ⟨hrepr.ne_nil (.inl hidx), trivial, hlt, hrepr⟩
  | mirrors =>
    have hrepr : Repr rb n q := h.repr
    by_cases hmir : rb.readMirror = rb.writeMirror
    · simp only [getStep, hmir, ↓reduceIte]
      exact ⟨⟨Nat.zero_le _, nil_prefix⟩, trivial, hlt, hrepr⟩
    · exact sized hrepr (hrepr.ne_nil (.inr hmir)) _
  | order =>
    have hrepr : Repr rb n q := h.repr
    have hne : q ≠ [] := h.found
    by_cases hlt' : rb.writeIndex > rb.readIndex
    · simp only [getStep, hlt', ↓reduceIte]
      exact ⟨hne, trivial, hlt, hrepr⟩
    · simp only [getStep, hlt', ↓reduceIte]
      exact ⟨hne, trivial, hlt, hrepr⟩
  | ahead => exact sized h.repr h.found _
  | behind => exact sized h.repr h.found _
  | copy getLen =>
    have hrepr : Repr rb n q := h.repr
    obtain ⟨rfl, hne⟩ := h.found
    have hbyte := hrepr.slice_one hne
    have hside := hrepr.sideLen_eq hlt
    by_cases hwrap : n - rb.readIndex > 1
    · simp only [getStep, hside, hwrap, ↓reduceIte]
      exact ⟨⟨rfl, length_slice _ _ _, hbyte⟩, show rb.readIndex + 1 < n by omega, hlt, hrepr⟩
    · -- the byte is in the last cell, and nothing is copied from the start of the buffer
      have hone : n - rb.readIndex = 1 := by omega
      simp only [getStep, hside, hone, Nat.lt_irrefl, ↓reduceIte, Nat.sub_self, gt_iff_lt]
      refine ⟨⟨rfl, rfl, ?_, ?_⟩, show rb.readIndex + 1 = n by omega, hlt, hrepr⟩
      · simp
      · simpa [slice] using hbyte
  | advance getLen bytes =>
    obtain ⟨rfl, hone, hpre⟩ := h.found
    have hnext : rb.readIndex + 1 < n := h.indexAt
    have hpos := hpre.length_le
    simp only [getStep, toIndex_of_le (show rb.readIndex + 1 ≤ 32767 by omega)]
    refine ⟨⟨hone.le, hpre⟩, trivial, hnext, ?_⟩
    show Repr _ n (q.drop bytes.length)
    rw [hone]
    have hrepr : Repr rb n q := h.repr
    exact hrepr.drop (by omega) ⟨hnext, .inl ⟨rfl, rfl⟩⟩
  | mirror =>
    obtain ⟨rfl, rfl, hone, hpre⟩ := h.found
    have hlast : rb.readIndex + 1 = n := h.indexAt
    have hpos := hpre.length_le
    refine ⟨⟨rfl, rfl, hone, hpre⟩, hlast, hlt, ?_⟩
    have hrepr : Repr rb n q := h.repr
    have hround : IndexAhead n rb.readIndex 1 0 rb.readMirror (!rb.readMirror) :=
      ⟨by omega, .inr ⟨by omega, rfl⟩⟩
    exact hrepr.drop (k := 1) (by omega) hround
  | index getLen sideLen bytes =>
    obtain ⟨rfl, rfl, hone, hpre⟩ := h.found
    refine ⟨⟨hone.le, hpre⟩, trivial, h.repr.read_lt, ?_⟩
    show Repr _ n (q.drop bytes.length)
    rw [hone]
    exact h.repr
  | done bytes => exact h

end Reading

/-! ## The interrupt -/

/-- A ring that looks full drops characters, whatever is in it. -/
theorem spaceLen_eq_zero_iff (hsize : rb.bufferSize = n) (hn : n ≤ 32767)
    (hr : rb.readIndex < n) (hw : rb.writeIndex < n) :
    skRingBufferSpaceLen rb = 0 ↔ skGetRingBufferStatus rb = .full := by
  unfold skRingBufferSpaceLen skRingBufferDataLen
  cases hst : skGetRingBufferStatus rb with
  | empty =>
    simp only [hsize, toSize, reduceCtorEq, iff_false]
    omega
  | full =>
    simp only [hsize, toSize, iff_true]
    omega
  | halffull =>
    have hne : rb.readIndex ≠ rb.writeIndex := by
      intro heq
      simp only [skGetRingBufferStatus, heq, ↓reduceIte] at hst
      split at hst <;> cases hst
    simp only [hsize, toSize, reduceCtorEq, iff_false]
    split <;> omega

/-- Storing a character does not look at the read index. -/
theorem putchar_view (m : Bool) (i : Nat) (c : UInt8) (h : skRingBufferSpaceLen rb ≠ 0)
    (h' : skRingBufferSpaceLen { rb with readMirror := m, readIndex := i } ≠ 0) :
    (skRingBufferPutchar { rb with readMirror := m, readIndex := i } c).2 =
      { (skRingBufferPutchar rb c).2 with readMirror := m, readIndex := i } := by
  simp only [skRingBufferPutchar, h, h', ↓reduceIte]
  split <;> rfl

private theorem putchar_readIndex (rb : RingBuffer) (c : UInt8) :
    (skRingBufferPutchar rb c).2.readIndex = rb.readIndex ∧
      (skRingBufferPutchar rb c).2.readMirror = rb.readMirror := by
  unfold skRingBufferPutchar
  split
  · exact ⟨rfl, rfl⟩
  · split <;> exact ⟨rfl, rfl⟩

private theorem serialRxLoop_readIndex (rb : RingBuffer) (input : List Int) :
    (serialRxLoop rb input).1.readIndex = rb.readIndex ∧
      (serialRxLoop rb input).1.readMirror = rb.readMirror := by
  induction input generalizing rb with
  | nil => exact ⟨rfl, rfl⟩
  | cons ch input ih =>
    unfold serialRxLoop
    split
    · exact ⟨rfl, rfl⟩
    · obtain ⟨hi, hm⟩ := ih (skRingBufferPutchar rb (UInt8.ofInt ch)).2
      rw [hi, hm]
      exact putchar_readIndex rb _

/-- Between the two stores of a read the handler sees another read index. What it stores is in place
    as long as there is room. -/
theorem serialRxLoop_view {m : Bool} {i : Nat} (hr : rb.readIndex < n) (input : List Int)
    (h : Repr { rb with readMirror := m, readIndex := i } n q)
    (hroom : q.length + (keptBytes (takenChars rb input)).length ≤ n) :
    Repr { (serialRxLoop rb input).1 with readMirror := m, readIndex := i } n
      (q ++ keptBytes (takenChars rb input)) := by
  induction input generalizing rb q with
  | nil => simpa [serialRxLoop, takenChars, keptBytes] using h
  | cons ch input ih =>
    unfold serialRxLoop
    unfold takenChars at hroom ⊢
    by_cases hend : ch = -1
    · simpa [hend, keptBytes] using h
    simp only [hend, ↓reduceIte] at hroom ⊢
    have hfull_iff : skRingBufferSpaceLen rb = 0 ↔ skGetRingBufferStatus rb = .full :=
      spaceLen_eq_zero_iff h.size_eq h.size_le hr h.write_lt
    by_cases hfull : skGetRingBufferStatus rb = .full
    · -- the ring looks full and stays as it is
      have hsame : (skRingBufferPutchar rb (UInt8.ofInt ch)).2 = rb := by
        rw [skRingBufferPutchar, if_pos (hfull_iff.mpr hfull)]
      rw [hsame] at hroom ⊢
      simp only [keptBytes, hfull, decide_true, Bool.not_true, Bool.false_eq_true,
        not_false_eq_true, filter_cons_of_neg] at hroom ⊢
      exact ih hr h hroom
    · simp only [keptBytes, hfull, decide_false, Bool.not_false, filter_cons_of_pos,
        map_cons, length_cons] at hroom ⊢
      have hspace : n - q.length ≠ 0 := by omega
      obtain ⟨-, hput⟩ := putchar_repr h (UInt8.ofInt ch)
      have hone : [UInt8.ofInt ch].take (n - q.length) = [UInt8.ofInt ch] :=
        take_of_length_le (by simp; omega)
      rw [putchar_view m i _ (mt hfull_iff.mp hfull) (by rwa [h.spaceLen_eq]), hone] at hput
      have hrest := ih (by rwa [(putchar_readIndex rb _).1]) hput
      rw [append_cons]
      apply hrest
      simp only [keptBytes, length_append, length_singleton]
      omega

namespace Reading

/-- The interrupt between two steps of the reader. -/
theorem rxLoop (h : Reading n rb q pc) (input : List Int)
    (hroom : betweenStores pc → q.length + (keptBytes (takenChars rb input)).length ≤ n + 1) :
    Reading n (serialRxLoop rb input).1 (q ++ keptBytes (takenChars rb input)) pc := by
  obtain ⟨hindex, hmirror⟩ := serialRxLoop_readIndex rb input
  have hle := h.found.consumed_le
  refine ⟨h.found.append _, by rw [hindex]; exact h.indexAt, by rw [hindex]; exact h.read_lt, ?_⟩
  rw [drop_append_of_le_length hle]
  cases pc with
  | index =>
    have hview := serialRxLoop_view (m := rb.readMirror) (i := 0) h.read_lt input h.repr
    rw [← hmirror] at hview
    apply hview
    have hroom := hroom rfl
    simp only [consumed, length_drop] at hle ⊢
    omega
  | indices | mirrors | order | ahead | behind | copy | advance | mirror | done =>
    exact serialRxLoop_repr h.repr input

end Reading

end

/-! ## Runs -/

/-- The ring holds what has been kept and not yet read, and the shell has handled what has been
    read. -/
structure TermInv (table : List ShellSyscall) (n : Nat) (x : TermSys) : Prop where
  ring : ∃ rb q, x.serial.serialRx = some rb ∧ Reading n rb q x.pc ∧
    x.reads ++ q = keptBytes x.taken
  shell : shellThreadEntry table x.reads = some x.shell

namespace TermInv

variable {table : List ShellSyscall} {n : Nat} {x x' : TermSys}

theorem init (hpos : 1 ≤ n) (hle : n ≤ 32767) (h : (terminalSystem table n).init x) :
    TermInv table n x := by
  obtain ⟨hserial, hpc, hshell⟩ := h
  obtain ⟨rb, q, hrx, hrepr, hlaw⟩ := (SerialInv.init hpos hle hserial).ring
  refine ⟨⟨rb, q, hrx, ?_, hlaw⟩, ?_⟩
  · rw [hpc]
    exact ⟨trivial, trivial, hrepr.read_lt, hrepr⟩
  · rw [hserial.2.1, hshell]
    rfl

/-- The interrupt returns, wherever the reader is. -/
theorem rxInd (h : TermInv table n x) (input : List Int) :
    ∃ x', x.step table (.rxInd input) = some x' ∧
      (x.InRoom n (.rxInd input) → TermInv table n x') := by
  obtain ⟨rb, q, hrx, hread, hlaw⟩ := h.ring
  have hlength := congrArg List.length hlaw
  rw [length_append] at hlength
  simp only [TermSys.step, TermSys.InRoom, SerialSys.step, SerialSys.takes, skHwSerialIsr, hrx,
    map_some]
  by_cases hfull : skRingBufferDataLen rb = toSize rb.bufferSize
  · simp only [hfull, ↓reduceIte, append_nil]
    exact ⟨_, rfl, fun _ => ⟨⟨rb, q, hrx, hread, hlaw⟩, h.shell⟩⟩
  · simp only [hfull, ↓reduceIte]
    refine ⟨_, rfl, fun hroom => ⟨⟨_, _, rfl, hread.rxLoop input ?_, ?_⟩, h.shell⟩⟩
    · intro hpc
      have hroom := hroom hpc
      rw [keptBytes_append, length_append] at hroom
      omega
    · rw [← append_assoc, hlaw, keptBytes_append]

/-- A step of the shell thread. -/
theorem thread (h : TermInv table n x) (hstep : x.step table .thread = some x') :
    TermInv table n x' := by
  obtain ⟨rb, q, hrx, hread, hlaw⟩ := h.ring
  have hnext := hread.step
  simp only [TermSys.step, Terminal.threadStep, TermSys.returned, hrx, bind_some,
    map_eq_some_iff] at hstep
  obtain ⟨t, ht, rfl⟩ := hstep
  generalize getStep 1 rb x.pc = s at hnext ht
  obtain ⟨rb', pc⟩ := s
  cases pc with
  | done bytes =>
    obtain ⟨⟨hle, hpre⟩, -, hlt, hrepr⟩ := hnext
    cases bytes with
    | nil =>
      cases ht
      refine ⟨⟨rb', q, rfl, ⟨trivial, trivial, hlt, hrepr⟩, ?_⟩, ?_⟩
      · simpa [returnedBytes] using hlaw
      · simpa [returnedBytes] using h.shell
    | cons ch rest =>
      -- the character moves from the ring to the shell
      obtain rfl : rest = [] := eq_nil_of_length_eq_zero (by simpa using hle)
      obtain ⟨shell', hround, rfl⟩ := map_eq_some_iff.mp ht
      obtain ⟨q', rfl⟩ := hpre
      refine ⟨⟨rb', q', rfl, ⟨trivial, trivial, hlt, hrepr⟩, ?_⟩, ?_⟩
      · simpa [returnedBytes] using hlaw
      · simp only [returnedBytes]
        rw [shellThreadEntry_concat, h.shell, bind_some, hround]
  | indices | mirrors | order | ahead | behind | copy | advance | mirror | index =>
    cases ht
    refine ⟨⟨rb', q, rfl, hnext, ?_⟩, ?_⟩
    · simpa [returnedBytes] using hlaw
    · simpa [returnedBytes] using h.shell

/-- The shell thread goes on while its line has room. -/
theorem exists_thread (h : TermInv table n x) (hfit : LinesFit table (x.reads ++ x.returned)) :
    (x.step table .thread).isSome := by
  obtain ⟨rb, q, hrx, hread, hlaw⟩ := h.ring
  have hnext := hread.step
  simp only [TermSys.returned, hrx] at hfit
  simp only [TermSys.step, Terminal.threadStep, hrx, bind_some, isSome_map]
  generalize getStep 1 rb x.pc = s at hnext hfit
  obtain ⟨rb', pc⟩ := s
  cases pc with
  | done bytes =>
    cases bytes with
    | nil => rfl
    | cons ch rest =>
      obtain rfl : rest = [] :=
        eq_nil_of_length_eq_zero (by simpa using hnext.found.1)
      obtain ⟨shell', -, hrun, -⟩ := exists_holds hfit
      rw [returnedBytes, shellThreadEntry_concat, h.shell, bind_some] at hrun
      simp only [hrun, map_some, isSome_some]
  | indices | mirrors | order | ahead | behind | copy | advance | mirror | index => rfl

end TermInv

/-- **The shell and the receive interrupt.** Along every run in which the interrupt comes between
    any two steps of the loop of the shell thread, as long as no interrupt between the stores to
    `read_mirror` and `read_index` takes more characters than there will be room for: the shell
    handles the characters that the handler keeps, in order and each once; between two reads the
    ring holds the others; every interrupt returns, and so does every step of the shell thread while
    the line has room. -/
theorem terminal_stream (table : List ShellSyscall) {n : Nat} (hpos : 1 ≤ n) (hle : n ≤ 32767)
    {x : TermSys} (h : (terminalSystem table n).Reach (TermSys.InRoom n) x) :
    shellThreadEntry table x.reads = some x.shell ∧ x.reads <+: keptBytes x.taken ∧
      (x.pc = .indices →
        ∃ rb, x.serial.serialRx = some rb ∧ x.reads ++ ringBytes rb = keptBytes x.taken) ∧
      (∀ input, (x.step table (.rxInd input)).isSome) ∧
      (LinesFit table (x.reads ++ x.returned) → (x.step table .thread).isSome) := by
  have hinv : TermInv table n x := by
    apply h.invariant (fun _ => TermInv.init hpos hle)
    intro x op x' hx hguard hstep
    cases op with
    | rxInd input =>
      obtain ⟨x1, heq, hx1⟩ := hx.rxInd input
      cases heq.symm.trans hstep
      exact hx1 hguard
    | thread => exact hx.thread hstep
  obtain ⟨rb, q, hrx, hread, hlaw⟩ := hinv.ring
  refine ⟨hinv.shell, hlaw ▸ prefix_append _ _, ?_, ?_, hinv.exists_thread⟩
  · intro hpc
    rw [hpc] at hread
    have hrepr : Repr rb n q := hread.repr
    exact ⟨rb, hrx, by rw [hrepr.ringBytes_eq, hlaw]⟩
  · intro input
    obtain ⟨x', heq, -⟩ := hinv.rxInd input
    rw [heq]
    rfl

/-- The shell in front of a device that has just been opened. -/
def openedTerminal : TermSys :=
  { openedSerial with pc := .indices, shell := shellSystemInit }

private theorem openedTerminal_init : (terminalSystem [] 2).init openedTerminal :=
  ⟨⟨rfl, rfl, { openedSerial.serial with serialRx := none }, 0, fun _ => 0, none, .eok, rfl, rfl,
    rfl, rfl⟩, rfl, rfl⟩

/-- A ring of two bytes. The second read wraps around, and a character arrives between its two
    stores. -/
theorem terminal_stream_wrap :
    ∃ x rb, (terminalSystem [] 2).Reach (TermSys.InRoom 2) x ∧ x.reads = [97, 98] ∧
      x.serial.serialRx = some rb ∧ x.reads ++ ringBytes rb = keptBytes x.taken := by
  have hinit : (terminalSystem [] 2).Reach (TermSys.InRoom 2) openedTerminal :=
    .init openedTerminal_init
  obtain ⟨x, hx, hp⟩ := hinit.exists_of_run
    (.rxInd [97, 98] :: List.replicate 9 .thread ++ [.rxInd [99], .thread])
    (fun x => x.pc = .indices ∧ x.reads = [97, 98]) (by decide +kernel)
  obtain ⟨hpc, hreads⟩ := of_decide_eq_true hp
  obtain ⟨rb, hrx, hlaw⟩ := (terminal_stream [] (by decide) (by decide) hx).2.2.1 hpc
  exact ⟨x, rb, hx, hreads, hrx, hlaw⟩

-- The ring is full when the second read begins. Between its two stores it looks empty, and the
-- handler overwrites the byte 99, which has not been read.
example : ((terminalSystem [] 2).run (fun _ _ => True) openedTerminal
    (.rxInd [97, 98] :: List.replicate 4 .thread ++ .rxInd [99] :: List.replicate 4 .thread ++
      [.rxInd [100, 101], .thread])).map
      (fun x => (x.reads, x.serial.serialRx.map ringBytes, keptBytes x.taken)) =
    some ([97, 98], some [101], [97, 98, 99, 100, 101]) := by
  decide +kernel

end SKernel.Spec
