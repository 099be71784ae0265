import SKernel.ForStd.Simulation
import SKernel.Native.RingBuffer

/-!
# Ring buffer ↔ bounded FIFO correspondence

The ring buffer keeps its fill level only implicitly: two equal indices mean empty or full,
told apart by the mirror bits. `Repr rb n q` relates a ring buffer of `n` bytes to the
queue `q` it stands for, and every operation of the ring buffer is shown to act on `q` as
the same operation of a bounded FIFO queue does.
-/

namespace SKernel.Spec

open Circular Native List

/-! ## The bounded FIFO queue -/

/-- A FIFO queue that holds at most `cap` elements. -/
structure Fifo (α : Type*) (cap : Nat) where
  items : List α
  le_cap : items.length ≤ cap

namespace Fifo

variable {α : Type*} {cap : Nat}

/-- The empty queue. -/
def empty : Fifo α cap := ⟨[], Nat.zero_le _⟩

/-- The number of free places. -/
def space (q : Fifo α cap) : Nat := cap - q.items.length

/-- Append as many of the elements of `bs` as there is space for. -/
def put (q : Fifo α cap) (bs : List α) : Fifo α cap where
  items := q.items ++ bs.take q.space
  le_cap := by
    have := q.le_cap
    simp only [space, length_append, length_take]
    omega

/-- Remove the oldest `len` elements, or all if there are fewer. -/
def get (q : Fifo α cap) (len : Nat) : Fifo α cap where
  items := q.items.drop len
  le_cap := by
    have := q.le_cap
    simp only [length_drop]
    omega

end Fifo

/-! ## The representation relation -/

/-- `rb` has `n` bytes and holds `q`, oldest first. With equal mirrors the write index is ahead of
    the read index, with different ones it has wrapped once more. -/
structure Repr (rb : RingBuffer) (n : Nat) (q : List UInt8) : Prop where
  size_eq : rb.bufferSize = n
  size_le : n ≤ 32767
  read_lt : rb.readIndex < n
  write_lt : rb.writeIndex < n
  length_le : q.length ≤ n
  mirror : rb.writeIndex + (if rb.readMirror = rb.writeMirror then 0 else n) =
    rb.readIndex + q.length
  items : window rb.buffer n rb.readIndex q.length = q

/-- The bytes in a ring, oldest first. -/
def ringBytes (rb : RingBuffer) : List UInt8 :=
  window rb.buffer rb.bufferSize.toNat rb.readIndex (skRingBufferDataLen rb)

namespace Repr

variable {rb : RingBuffer} {n : Nat} {q : List UInt8}

variable (h : Repr rb n q)
include h

theorem write_eq : (rb.readIndex + q.length) % n = rb.writeIndex := by
  have hm := h.mirror
  split at hm
  · rw [← hm, Nat.add_zero, Nat.mod_eq_of_lt h.write_lt]
  · rw [← hm, Nat.add_mod_right, Nat.mod_eq_of_lt h.write_lt]

theorem dataLen_eq : skRingBufferDataLen rb = q.length := by
  have hm := h.mirror
  have hr := h.read_lt
  have hw := h.write_lt
  have hn := h.size_le
  have hq := h.length_le
  simp only [skRingBufferDataLen, skGetRingBufferStatus, h.size_eq, toSize]
  by_cases hidx : rb.readIndex = rb.writeIndex
  · by_cases hmir : rb.readMirror = rb.writeMirror
    · simp only [hidx, hmir, ↓reduceIte] at hm ⊢
      omega
    · simp only [hidx, hmir, ↓reduceIte] at hm ⊢
      omega
  · simp only [hidx, ↓reduceIte]
    split at hm <;> split <;> omega

theorem spaceLen_eq : skRingBufferSpaceLen rb = n - q.length := by
  have hn := h.size_le
  have hq := h.length_le
  rw [skRingBufferSpaceLen, h.dataLen_eq, h.size_eq, toSize]
  omega

theorem status_eq : skGetRingBufferStatus rb =
      if q.length = 0 then .empty else if q.length = n then .full else .halffull := by
  have hm := h.mirror
  have hr := h.read_lt
  have hw := h.write_lt
  have hq := h.length_le
  unfold skGetRingBufferStatus
  by_cases hidx : rb.readIndex = rb.writeIndex
  · by_cases hmir : rb.readMirror = rb.writeMirror
    · simp only [hidx, hmir, ↓reduceIte] at hm ⊢
      rw [if_pos (by omega)]
    · simp only [hidx, hmir, ↓reduceIte] at hm ⊢
      rw [if_neg (by omega), if_pos (by omega)]
  · rw [if_neg hidx]
    split at hm
    · rw [if_neg (by omega), if_neg (by omega)]
    · rw [if_neg (by omega), if_neg (by omega)]

theorem full_iff : skGetRingBufferStatus rb = .full ↔ q.length = n := by
  have hr := h.read_lt
  rw [h.status_eq]
  split
  · simp only [reduceCtorEq, false_iff]
    omega
  · simp

theorem sideLen_eq {i : Nat} (hi : i < n) : toUInt16 (rb.bufferSize - i) = n - i := by
  have hn := h.size_le
  rw [h.size_eq, toUInt16]
  omega

theorem last_iff (i : Nat) : (i : Int) = rb.bufferSize ↔ i = n := by
  rw [h.size_eq, Int.natCast_inj]

theorem spaceSize_eq : toUInt16 (skRingBufferSpaceLen rb) = n - q.length := by
  have hn := h.size_le
  rw [h.spaceLen_eq, toUInt16]
  omega

theorem ringBytes_eq : ringBytes rb = q := by
  unfold ringBytes
  rw [h.dataLen_eq, h.size_eq]
  exact h.items

end Repr

theorem init_repr (mem : Nat → UInt8) (n : Nat) (hpos : 1 ≤ n) (hle : n ≤ 32767) :
    Repr (skRingBufferInit mem n) n [] where
  size_eq := by
    simp only [skRingBufferInit]
    rw [Int.bmod_eq_of_le] <;> omega
  size_le := hle
  read_lt := hpos
  write_lt := hpos
  length_le := Nat.zero_le _
  mirror := rfl
  items := rfl

/-! ## Moving an index -/

/-- The index `j` is `k` bytes ahead of `i`, on the other side of the mirror beyond the end of the
    buffer. -/
def IndexAhead (n i k j : Nat) (m m' : Bool) : Prop :=
  j < n ∧ (j = i + k ∧ m' = m ∨ j + n = i + k ∧ m' = !m)

section

variable {rb : RingBuffer} {n i : Nat} {q : List UInt8} {m : Bool}

/-- Bytes are taken out. -/
theorem Repr.drop (h : Repr rb n q) {k : Nat} (hk : k ≤ q.length)
    (ha : IndexAhead n rb.readIndex k i rb.readMirror m) :
    Repr { rb with readMirror := m, readIndex := i } n (q.drop k) := by
  obtain ⟨hi, ha⟩ := ha
  have hw := h.write_lt
  have hq := h.length_le
  have hm := h.mirror
  have hlen : (q.drop k).length = q.length - k := length_drop
  refine ⟨h.size_eq, h.size_le, hi, hw, by omega, ?_, ?_⟩
  · dsimp only
    rw [hlen]
    obtain ⟨rfl, rfl⟩ | ⟨hround, rfl⟩ := ha
    · omega
    · by_cases hmir : rb.readMirror = rb.writeMirror
      · rw [if_pos hmir] at hm
        omega
      · rw [if_neg hmir] at hm
        rw [if_pos (Bool.not_eq.mpr hmir)]
        omega
  · have hmod : (rb.readIndex + k) % n = i := by
      obtain ⟨rfl, -⟩ | ⟨hround, -⟩ := ha
      · exact Nat.mod_eq_of_lt hi
      · rw [← hround, Nat.add_mod_right, Nat.mod_eq_of_lt hi]
    rw [hlen, ← hmod, ← drop_window _ _ _ _ _ hk, h.items]

/-- Bytes are put behind the others. -/
theorem Repr.append (h : Repr rb n q) {bs : List UInt8} {buffer : Nat → UInt8}
    (hfit : q.length + bs.length ≤ n)
    (ha : IndexAhead n rb.writeIndex bs.length i rb.writeMirror m)
    (hitems : window buffer n rb.readIndex (q.length + bs.length) =
      window rb.buffer n rb.readIndex q.length ++ bs) :
    Repr { rb with buffer := buffer, writeMirror := m, writeIndex := i } n (q ++ bs) := by
  obtain ⟨hi, ha⟩ := ha
  have hr := h.read_lt
  have hm := h.mirror
  refine ⟨h.size_eq, h.size_le, hr, hi, ?_, ?_, ?_⟩
  · rwa [length_append]
  · rw [length_append]
    dsimp only
    obtain ⟨rfl, rfl⟩ | ⟨hround, rfl⟩ := ha
    · omega
    · by_cases hmir : rb.readMirror = rb.writeMirror
      · rw [if_pos hmir] at hm
        have hne : rb.readMirror ≠ !rb.writeMirror := by simp [hmir]
        rw [if_neg hne]
        omega
      · rw [if_neg hmir] at hm
        omega
  · rw [length_append, hitems, h.items]

end

theorem toIndex_of_le {x : Nat} (h : x ≤ 32767) : toIndex x = x := by
  rw [toIndex]
  omega

/-! ## Single operations -/

variable {rb : RingBuffer} {n : Nat} {q : List UInt8}

theorem put_repr (h : Repr rb n q) (buf : List UInt8) (hlen : buf.length < 2 ^ 16) :
    (skRingBufferPut rb buf buf.length).1 = min buf.length (n - q.length) ∧
      Repr (skRingBufferPut rb buf buf.length).2 n (q ++ buf.take (n - q.length)) := by
  have hw := h.write_lt
  have hn := h.size_le
  have hq := h.length_le
  simp only [skRingBufferPut, h.spaceSize_eq, h.sideLen_eq hw]
  by_cases hfull : n - q.length = 0
  · simpa [hfull] using h
  simp only [hfull, ↓reduceIte]
  -- the bytes that are stored
  generalize hput : (if n - q.length < buf.length then n - q.length else buf.length) = putLen
  have hmin : putLen = min buf.length (n - q.length) := by
    rw [← hput]; split <;> omega
  have htake : buf.take (n - q.length) = buf.take putLen := by
    rw [hmin, take_eq_take_iff]
    omega
  have hbs : (buf.take putLen).length = putLen := by
    rw [length_take]; omega
  rw [htake]
  by_cases hwrap : n - rb.writeIndex > putLen
  · -- the block ends before the end of the buffer
    simp only [hwrap, ↓reduceIte, toIndex_of_le (show rb.writeIndex + putLen ≤ 32767 by omega)]
    refine ⟨hmin, h.append (by omega) ⟨by omega, .inl ⟨by rw [hbs], rfl⟩⟩ ?_⟩
    exact window_append_blit _ _ _ _ _ _ h.write_eq (by omega) (by omega)
  · -- the block reaches the end of the buffer and goes on at its start
    have hhead : buf.take (n - rb.writeIndex) =
        (buf.take putLen).take (n - rb.writeIndex) := by
      rw [take_take, Nat.min_eq_left (by omega)]
    simp only [hwrap, ↓reduceIte,
      toIndex_of_le (show putLen - (n - rb.writeIndex) ≤ 32767 by omega)]
    rw [hhead, ← drop_take]
    refine ⟨hmin, h.append (by omega) ⟨by omega, .inr ⟨by omega, rfl⟩⟩ ?_⟩
    exact window_append_blit_wrap _ _ _ _ _ (n - rb.writeIndex) _ h.write_eq (by omega)
      (by omega) (by omega) (by omega)

theorem get_repr (h : Repr rb n q) (len : Nat) :
    (skRingBufferGet rb len).1 = min len q.length ∧
      (skRingBufferGet rb len).2.1 = q.take len ∧
      Repr (skRingBufferGet rb len).2.2 n (q.drop len) := by
  have hr := h.read_lt
  have hn := h.size_le
  have hq := h.length_le
  have hsize : toUInt16 (skRingBufferDataLen rb) = q.length := by
    rw [h.dataLen_eq, toUInt16]; omega
  simp only [skRingBufferGet, hsize, h.sideLen_eq hr]
  by_cases hempty : q.length = 0
  · have hnil : q = [] := length_eq_zero_iff.mp hempty
    subst hnil
    simpa using h
  simp only [hempty, ↓reduceIte]
  -- the bytes that are taken out
  generalize hget : (if q.length < len then q.length else len) = getLen
  have hmin : getLen = min len q.length := by
    rw [← hget]; split <;> omega
  have htake : q.take len = window rb.buffer n rb.readIndex getLen := by
    rw [← take_window _ _ _ q.length _ (by omega), h.items, hmin, take_eq_take_iff]
    omega
  have hdrop : q.drop len = q.drop getLen := by
    by_cases hle : len ≤ q.length
    · congr 1; omega
    · rw [drop_eq_nil_of_le (by omega), drop_eq_nil_of_le (by omega)]
  rw [htake, hdrop]
  by_cases hwrap : n - rb.readIndex > getLen
  · -- the block ends before the end of the buffer
    simp only [hwrap, ↓reduceIte, toIndex_of_le (show rb.readIndex + getLen ≤ 32767 by omega)]
    refine ⟨hmin, ?_, h.drop (by omega) ⟨by omega, .inl ⟨rfl, rfl⟩⟩⟩
    rw [window_eq_slice _ _ _ _ (by omega)]
  · -- the block reaches the end of the buffer and goes on at its start
    simp only [hwrap, ↓reduceIte,
      toIndex_of_le (show getLen - (n - rb.readIndex) ≤ 32767 by omega)]
    refine ⟨hmin, ?_, h.drop (by omega) ⟨by omega, .inr ⟨by omega, rfl⟩⟩⟩
    have hsplit : getLen = (n - rb.readIndex) + (getLen - (n - rb.readIndex)) := by omega
    have hend : (rb.readIndex + (n - rb.readIndex)) % n = 0 := by
      rw [show rb.readIndex + (n - rb.readIndex) = n by omega, Nat.mod_self]
    conv_rhs => rw [hsplit]
    rw [window_add, window_eq_slice _ _ _ _ (by omega), ← window_mod _ _ (_ + _), hend,
      window_eq_slice _ _ _ _ (by omega)]

/-- Nothing happens if the buffer is full. -/
theorem putchar_repr (h : Repr rb n q) (data : UInt8) :
    (skRingBufferPutchar rb data).1 = min 1 (n - q.length) ∧
      Repr (skRingBufferPutchar rb data).2 n (q ++ [data].take (n - q.length)) := by
  have hw := h.write_lt
  have hn := h.size_le
  have hq := h.length_le
  simp only [skRingBufferPutchar, h.spaceLen_eq]
  by_cases hfull : n - q.length = 0
  · simpa [hfull] using h
  have htake : [data].take (n - q.length) = [data] := take_of_length_le (by simp; omega)
  have hitems := window_append_blit rb.buffer n rb.readIndex q.length rb.writeIndex [data]
    h.write_eq (by simp; omega) (by simp; omega)
  simp only [hfull, ↓reduceIte, htake, h.last_iff]
  by_cases hwrap : rb.writeIndex + 1 = n
  · -- the byte lands in the last cell
    simp only [hwrap, ↓reduceIte]
    refine ⟨by omega, h.append (by simp; omega) ⟨by omega, .inr ⟨?_, rfl⟩⟩ hitems⟩
    rw [Nat.zero_add, ← hwrap, length_singleton]
  · simp only [hwrap, ↓reduceIte, toIndex_of_le (show rb.writeIndex + 1 ≤ 32767 by omega)]
    exact ⟨by omega, h.append (by simp; omega) ⟨by omega, .inl ⟨rfl, rfl⟩⟩ hitems⟩

/-- Nothing happens if there is no byte. -/
theorem getchar_repr (h : Repr rb n q) :
    (skRingBufferGetchar rb).1 = min 1 q.length ∧
      (skRingBufferGetchar rb).2.1.toList = q.take 1 ∧
      Repr (skRingBufferGetchar rb).2.2 n (q.drop 1) := by
  have hr := h.read_lt
  have hn := h.size_le
  simp only [skRingBufferGetchar, h.dataLen_eq]
  by_cases hempty : q.length = 0
  · have hnil : q = [] := length_eq_zero_iff.mp hempty
    subst hnil
    simpa using h
  have hhead : [rb.buffer rb.readIndex] = q.take 1 := by
    rw [← h.items, take_window _ _ _ _ _ (by omega)]
    simp [window, Nat.mod_eq_of_lt hr]
  simp only [hempty, ↓reduceIte, h.last_iff]
  by_cases hwrap : rb.readIndex + 1 = n
  · -- the byte was in the last cell
    simp only [hwrap, ↓reduceIte]
    exact ⟨by omega, hhead, h.drop (k := 1) (by omega) ⟨by omega, .inr ⟨by omega, rfl⟩⟩⟩
  · simp only [hwrap, ↓reduceIte, toIndex_of_le (show rb.readIndex + 1 ≤ 32767 by omega)]
    exact ⟨by omega, hhead, h.drop (k := 1) (by omega) ⟨by omega, .inl ⟨rfl, rfl⟩⟩⟩

/-! ## Sequences of operations -/

/-- A call of the ring buffer interface. The length arguments are `sk_uint16_t`. -/
inductive RingOp where
  | put (buf : { bs : List UInt8 // bs.length < 2 ^ 16 })
  | get (len : UInt16)
  | putchar (data : UInt8)
  | getchar

/-- What a call gives back: the returned count and the bytes stored through its pointer. -/
abbrev RingOut := Nat × List UInt8

/-- One call on the ring buffer. -/
def ringStep (rb : RingBuffer) : RingOp → RingOut × RingBuffer
  | .put buf =>
    let r := skRingBufferPut rb buf.1 buf.1.length
    ((r.1, []), r.2)
  | .get len =>
    let r := skRingBufferGet rb len.toNat
    ((r.1, r.2.1), r.2.2)
  | .putchar data =>
    let r := skRingBufferPutchar rb data
    ((r.1, []), r.2)
  | .getchar =>
    let r := skRingBufferGetchar rb
    ((r.1, r.2.1.toList), r.2.2)

/-- The same call on a bounded FIFO queue. -/
def fifoStep {cap : Nat} (q : Fifo UInt8 cap) : RingOp → RingOut × Fifo UInt8 cap
  | .put buf => ((min buf.1.length q.space, []), q.put buf.1)
  | .get len => ((min len.toNat q.items.length, q.items.take len.toNat), q.get len.toNat)
  | .putchar data => ((min 1 q.space, []), q.put [data])
  | .getchar => ((min 1 q.items.length, q.items.take 1), q.get 1)

theorem ringStep_repr (rb : RingBuffer) (q : Fifo UInt8 n) (op : RingOp) (h : Repr rb n q.items) :
    (ringStep rb op).1 = (fifoStep q op).1 ∧
      Repr (ringStep rb op).2 n (fifoStep q op).2.items := by
  cases op with
  | put buf =>
    obtain ⟨hcount, hrepr⟩ := put_repr h buf.1 buf.2
    exact ⟨by simp only [ringStep, fifoStep, hcount, Fifo.space], hrepr⟩
  | get len =>
    obtain ⟨hcount, hbytes, hrepr⟩ := get_repr h len.toNat
    exact ⟨by simp only [ringStep, fifoStep, hcount, hbytes], hrepr⟩
  | putchar data =>
    obtain ⟨hcount, hrepr⟩ := putchar_repr h data
    exact ⟨by simp only [ringStep, fifoStep, hcount, Fifo.space], hrepr⟩
  | getchar =>
    obtain ⟨hcount, hbytes, hrepr⟩ := getchar_repr h
    exact ⟨by simp only [ringStep, fifoStep, hcount, hbytes], hrepr⟩

/-- A ring buffer of any size its `buffer_size` field can hold behaves as a FIFO queue of
    that capacity: on every sequence of calls it gives the answers of the queue, its length
    functions measure the queue, and its indices stay inside the buffer. -/
theorem ringBuffer_refines_fifo (mem : Nat → UInt8) (n : Nat) (hpos : 1 ≤ n)
    (hle : n ≤ 32767) (ops : List RingOp) :
    let code := Machine.run ringStep (skRingBufferInit mem n) ops
    let spec := Machine.run fifoStep (Fifo.empty : Fifo UInt8 n) ops
    code.1 = spec.1 ∧
      skRingBufferDataLen code.2 = spec.2.items.length ∧
      skRingBufferDataLen code.2 + skRingBufferSpaceLen code.2 = n ∧
      code.2.readIndex < n ∧ code.2.writeIndex < n := by
  intro code spec
  obtain ⟨houts, hrepr⟩ :=
    Machine.run_simulates (fun rb (q : Fifo UInt8 n) => Repr rb n q.items) ringStep_repr ops
      (skRingBufferInit mem n) Fifo.empty (init_repr mem n hpos hle)
  have hlen := hrepr.length_le
  exact ⟨houts, hrepr.dataLen_eq, by rw [hrepr.dataLen_eq, hrepr.spaceLen_eq]; omega,
    hrepr.read_lt, hrepr.write_lt⟩

/-- The theorem at a buffer of three bytes: a put of four bytes and a get of two. -/
theorem ringBuffer_refines_fifo_three :
    let ops : List RingOp := [.put ⟨[1, 2, 3, 4], by decide⟩, .get 2]
    let code := Machine.run ringStep (skRingBufferInit (fun _ => 0) 3) ops
    code.1 = [(3, []), (2, [1, 2])] ∧ skRingBufferDataLen code.2 = 1 := by
  intro ops code
  obtain ⟨houts, hlen, -⟩ :=
    ringBuffer_refines_fifo (fun _ => 0) 3 (by decide) (by decide) ops
  exact ⟨houts.trans (by decide), hlen.trans (by decide)⟩

end SKernel.Spec
