import SKernel.Spec.RingBufferCorrect

/-!
# Forced writes to a ring buffer

`sk_ring_buffer_putchar_force` and `sk_ring_buffer_put_force` never refuse a byte: when the ring
buffer is full, the oldest bytes are meant to be dropped. The first does this for one byte. The
second writes a whole block with two calls of `sk_memcpy` and corrects the read side afterwards,
but only if the block reaches the end of the buffer, and by a comparison of the two indices that
does not always tell whether the read side has wrapped.
-/

namespace SKernel.Spec

open Circular Native List

/-! ## The queue that drops its oldest elements -/

/-- Append all elements of `bs` and drop the oldest ones that are too many. -/
def Fifo.force {α : Type*} {cap : Nat} (q : Fifo α cap) (bs : List α) : Fifo α cap where
  items := (q.items ++ bs).rtake cap
  le_cap := by
    rw [List.rtake, length_drop]
    omega

/-- The status of a queue. -/
def Fifo.status {α : Type*} {cap : Nat} (q : Fifo α cap) : RingBufferState :=
  if q.items.length = 0 then .empty else if q.items.length = cap then .full else .halffull

/-- A full queue drops its oldest element. -/
theorem rtake_concat {α : Type*} {n : Nat} {q : List α} (hpos : 1 ≤ n) (hq : q.length ≤ n)
    (data : α) :
    (q ++ [data]).rtake n = (if q.length = n then q.tail else q) ++ [data] := by
  split
  · rename_i hfull
    rw [List.rtake, length_append, length_singleton, hfull, Nat.add_sub_cancel_left,
      drop_append_of_le_length (by omega), drop_one]
  · exact rtake_of_length_le (by simp; omega)

/-! ## One byte -/

variable {rb : RingBuffer} {n : Nat} {q : List UInt8}

private theorem Repr.full_eq (h : Repr rb n q) (hfull : q.length = n) :
    rb.readIndex = rb.writeIndex ∧ rb.readMirror ≠ rb.writeMirror := by
  have hm := h.mirror
  have hr := h.read_lt
  have hw := h.write_lt
  split at hm
  · omega
  · rename_i hmir
    exact ⟨by omega, hmir⟩

private theorem putcharForce_eq_putchar (h : Repr rb n q) (hspace : q.length < n) (data : UInt8) :
    skRingBufferPutcharForce rb data = skRingBufferPutchar rb data := by
  have hnot : skGetRingBufferStatus rb ≠ .full := by
    rw [ne_eq, h.full_iff]
    omega
  have hspace' : skRingBufferSpaceLen rb ≠ 0 := by
    rw [h.spaceLen_eq]
    omega
  unfold skRingBufferPutcharForce skRingBufferPutchar
  simp only [hnot, hspace', ↓reduceIte]

/-- A full buffer drops its oldest byte. -/
theorem putcharForce_repr (h : Repr rb n q) (data : UInt8) :
    (skRingBufferPutcharForce rb data).1 = 1 ∧
      Repr (skRingBufferPutcharForce rb data).2 n ((q ++ [data]).rtake n) := by
  have hr := h.read_lt
  have hw := h.write_lt
  have hn := h.size_le
  have hq := h.length_le
  by_cases hfull : q.length = n
  · obtain ⟨hidx, hmir⟩ := h.full_eq hfull
    have hlen : ((q ++ [data]).rtake n).length = n := by
      rw [List.rtake, length_drop, length_append, length_singleton]
      omega
    -- the byte goes where the oldest one was
    have hitems : window (blit rb.buffer rb.writeIndex [data]) n (rb.readIndex + n + 1) n =
        (q ++ [data]).rtake n := by
      have hover := window_overwrite rb.buffer (blit rb.buffer rb.writeIndex [data]) n
        rb.readIndex q.length [data] hq (by simp; omega) ?_ ?_
      · rw [h.items, hfull] at hover
        exact hover
      · intro j hj _
        obtain rfl : j = 0 := by simpa using hj
        rw [Nat.add_zero, h.write_eq]
        exact blit_add rb.buffer rb.writeIndex [data] 0 hj
      · intro x hx
        have hne := hx 0 (by simp)
        rw [Nat.add_zero, h.write_eq] at hne
        apply blit_outside
        simp only [length_singleton]
        omega
    have hstatus := h.full_iff.mpr hfull
    -- both indices go on by one byte, and in the last cell the write mirror is flipped twice
    have hforce : skRingBufferPutcharForce rb data =
        (1, { rb with
          buffer := blit rb.buffer rb.writeIndex [data]
          writeIndex := (rb.writeIndex + 1) % n
          readIndex := (rb.writeIndex + 1) % n }) := by
      simp only [skRingBufferPutcharForce, hstatus, ↓reduceIte, h.last_iff, Bool.not_not]
      split
      · rename_i hwrap
        rw [hwrap, Nat.mod_self]
      · rw [toIndex_of_le (by omega), Nat.mod_eq_of_lt (by omega)]
    have hnext : (rb.writeIndex + 1) % n < n := Nat.mod_lt _ (by omega)
    rw [hforce]
    refine ⟨rfl, h.size_eq, hn, hnext, hnext, hlen.le, ?_, ?_⟩
    · dsimp only
      rw [hlen, if_neg hmir]
    · dsimp only
      rw [hlen, ← hitems, window_mod, ← window_mod _ _ (rb.readIndex + n + 1), hidx,
        Nat.add_right_comm, Nat.add_mod_right, window_mod]
  · obtain ⟨hcount, hrepr⟩ := putchar_repr h data
    rw [putcharForce_eq_putchar h (by omega) data, rtake_of_length_le (by simp; omega)]
    rw [take_of_length_le (by simp; omega)] at hrepr
    exact ⟨by omega, hrepr⟩

/-- The state after the bytes have been put by `sk_ring_buffer_putchar_force` one by one. -/
def putEachForce (rb : RingBuffer) (buf : List UInt8) : RingBuffer :=
  buf.foldl (fun rb data => (skRingBufferPutcharForce rb data).2) rb

private theorem putEachForce_repr (h : Repr rb n q) (buf : List UInt8) :
    Repr (putEachForce rb buf) n ((q ++ buf).rtake n) := by
  induction buf generalizing rb q with
  | nil =>
    rw [append_nil, rtake_of_length_le h.length_le]
    exact h
  | cons data buf ih =>
    have hrest := ih (putcharForce_repr h data).2
    rw [rtake_append_rtake, append_assoc, singleton_append] at hrest
    exact hrest

/-! ## A block -/

/-- There is space for the block; or, with equal mirrors, it goes round the end of the buffer, but
    not twice; or, with different mirrors, it reaches the end and does not go beyond the read index
    again. -/
def ForceFits (n : Nat) (rb : RingBuffer) (len : Nat) : Prop :=
  len ≤ skRingBufferSpaceLen rb ∨
    if rb.readMirror = rb.writeMirror then rb.writeIndex + len < 2 * n
    else n ≤ rb.writeIndex + len ∧ rb.writeIndex + len ≤ n + rb.readIndex

instance (n : Nat) (rb : RingBuffer) (len : Nat) : Decidable (ForceFits n rb len) :=
  inferInstanceAs (Decidable (_ ∨ _))

/-- Every byte that `sk_ring_buffer_put_force` writes is inside the buffer. -/
def ForceInside (n : Nat) (rb : RingBuffer) (len : Nat) : Prop :=
  ∀ b ∈ putForceBlocks rb len, b.1 + b.2 ≤ n

private theorem putForce_outside (rb : RingBuffer) (buf : List UInt8) {x : Nat}
    (hx : ∀ b ∈ putForceBlocks rb buf.length, x < b.1 ∨ b.1 + b.2 ≤ x) :
    (skRingBufferPutForce rb buf buf.length).2.buffer x = rb.buffer x := by
  unfold putForceBlocks at hx
  unfold skRingBufferPutForce
  dsimp only at hx ⊢
  split
  · rename_i hside
    rw [if_pos hside] at hx
    apply blit_outside
    rw [length_take]
    have := hx _ mem_cons_self
    omega
  · rename_i hside
    rw [if_neg hside] at hx
    have hfirst := hx _ mem_cons_self
    have hsecond := hx _ (mem_cons_of_mem _ mem_cons_self)
    have hbuffer : blit (blit rb.buffer rb.writeIndex
        (buf.take (toUInt16 (rb.bufferSize - rb.writeIndex)))) 0
        ((buf.drop (toUInt16 (rb.bufferSize - rb.writeIndex))).take
          (buf.length - toUInt16 (rb.bufferSize - rb.writeIndex))) x = rb.buffer x := by
      rw [blit_outside, blit_outside]
      · rw [length_take]
        omega
      · rw [length_take, length_drop]
        omega
    split <;> exact hbuffer

private theorem putForce_eq_put (h : Repr rb n q) (buf : List UInt8) (hspace : q.length < n)
    (hfit : buf.length ≤ n - q.length) :
    skRingBufferPutForce rb buf buf.length = skRingBufferPut rb buf buf.length := by
  unfold skRingBufferPutForce skRingBufferPut
  have hnone : ¬n - q.length = 0 := by omega
  have hall : ¬n - q.length < buf.length := by omega
  simp only [h.spaceSize_eq, h.sideLen_eq h.write_lt, hnone, hall, ↓reduceIte]

theorem putForce_repr_of_space (h : Repr rb n q) (buf : List UInt8) (hlen : buf.length < 2 ^ 16)
    (hfit : buf.length ≤ n - q.length) :
    Repr (skRingBufferPutForce rb buf buf.length).2 n ((q ++ buf).rtake n) := by
  have hq := h.length_le
  rw [rtake_of_length_le (by simp; omega)]
  by_cases hspace : q.length < n
  · have hput := (put_repr h buf hlen).2
    rw [take_of_length_le hfit] at hput
    rw [putForce_eq_put h buf hspace hfit]
    exact hput
  · -- nothing is put into a full buffer
    have hnil : buf = [] := length_eq_zero_iff.mp (by omega)
    subst hnil
    have hw := h.write_lt
    have hn := h.size_le
    have hsame : (skRingBufferPutForce rb [] 0).2 = rb := by
      unfold skRingBufferPutForce
      rw [h.sideLen_eq h.write_lt, if_pos (by omega)]
      have hidx : toIndex (rb.writeIndex + 0) = rb.writeIndex := toIndex_of_le (by omega)
      have hbuf : blit rb.buffer rb.writeIndex [] = rb.buffer :=
        funext fun x => blit_outside _ _ _ _ (by simp; omega)
      dsimp only
      rw [hidx, take_nil, hbuf]
    rw [append_nil, length_nil, hsame]
    exact h

private theorem correctedMirror_ne_iff (c : Prop) [Decidable c] (r w : Bool) :
    (if c then !r else r) ≠ (!w) ↔ (c ↔ r ≠ w) := by
  by_cases hc : c
  · simp only [hc, ↓reduceIte, true_iff, ne_eq, Bool.not_inj_iff]
  · simp only [hc, ↓reduceIte, false_iff, ne_eq, not_not]
    cases r <;> cases w <;> decide

section

variable (h : Repr rb n q)
include h

private theorem length_append_rtake {buf : List UInt8}
    (hover : n - q.length < buf.length) : ((q ++ buf).rtake n).length = n := by
  have hq := h.length_le
  rw [List.rtake, length_drop, length_append]
  omega

/-- The read index is not corrected without a wrap. -/
theorem not_putForce_repr_of_side (buf : List UInt8)
    (hover : n - q.length < buf.length) (hside : n - rb.writeIndex > buf.length) :
    ¬Repr (skRingBufferPutForce rb buf buf.length).2 n ((q ++ buf).rtake n) := by
  intro hrepr
  have hw := h.write_lt
  have hn := h.size_le
  have hq := h.length_le
  have hm := h.mirror
  have hm' := hrepr.mirror
  unfold skRingBufferPutForce at hm'
  rw [h.sideLen_eq h.write_lt, if_pos hside, length_append_rtake h hover] at hm'
  dsimp only at hm'
  rw [toIndex_of_le (by omega)] at hm'
  split at hm
  · omega
  · rename_i hmir
    rw [if_neg hmir] at hm'
    omega

private theorem putForce_repr_of_wrap (buf : List UInt8)
    (hover : n - q.length < buf.length) (hside : n - rb.writeIndex ≤ buf.length)
    (hle : buf.length - (n - rb.writeIndex) ≤ n) :
    Repr (skRingBufferPutForce rb buf buf.length).2 n ((q ++ buf).rtake n) ↔
      buf.length - (n - rb.writeIndex) < n ∧
        (buf.length - (n - rb.writeIndex) ≤ rb.readIndex ↔ rb.readMirror ≠ rb.writeMirror) := by
  have hw := h.write_lt
  have hn := h.size_le
  have hq := h.length_le
  have hlast := length_append_rtake h hover
  have hindex : toIndex (buf.length - (n - rb.writeIndex)) = buf.length - (n - rb.writeIndex) :=
    toIndex_of_le (by omega)
  have hdrop : (buf.drop (n - rb.writeIndex)).take (buf.length - (n - rb.writeIndex)) =
      buf.drop (n - rb.writeIndex) := take_of_length_le (by simp)
  unfold skRingBufferPutForce
  rw [h.sideLen_eq h.write_lt, h.spaceSize_eq, if_neg (Nat.not_lt.mpr hside)]
  dsimp only
  rw [if_pos hover, hindex, hdrop]
  rw [← correctedMirror_ne_iff (buf.length - (n - rb.writeIndex) ≤ rb.readIndex)]
  constructor
  · intro hrepr
    have hlt := hrepr.write_lt
    have hm := hrepr.mirror
    dsimp only at hlt hm
    rw [hlast] at hm
    refine ⟨hlt, ?_⟩
    intro heq
    rw [if_pos heq] at hm
    omega
  · intro ⟨hlt, hne⟩
    refine ⟨h.size_eq, hn, hlt, hlt, hlast.le, ?_, ?_⟩
    · dsimp only
      rw [hlast, if_neg hne]
    · rw [hlast]
      dsimp only
      rw [window_overwrite_blit_wrap rb.buffer n rb.readIndex q.length rb.writeIndex
        (n - rb.writeIndex) buf h.write_eq hq (by omega) (by omega) hside hlt, h.items]

private theorem forceInside_wrap_iff {len : Nat} (hside : n - rb.writeIndex ≤ len) :
    ForceInside n rb len ↔ len - (n - rb.writeIndex) ≤ n := by
  have hw := h.write_lt
  unfold ForceInside putForceBlocks
  rw [h.sideLen_eq h.write_lt]
  dsimp only
  rw [if_neg (Nat.not_lt.mpr hside)]
  simp only [mem_cons, not_mem_nil, or_false, forall_eq_or_imp, forall_eq, Nat.zero_add]
  omega

/-- It must reach the end, once, and the mirrors must differ. -/
theorem putForce_repr_of_over (buf : List UInt8) (hover : n - q.length < buf.length) :
    ForceInside n rb buf.length ∧
      Repr (skRingBufferPutForce rb buf buf.length).2 n ((q ++ buf).rtake n) ↔
    n - rb.writeIndex ≤ buf.length ∧ buf.length - (n - rb.writeIndex) < n ∧
      (buf.length - (n - rb.writeIndex) ≤ rb.readIndex ↔ rb.readMirror ≠ rb.writeMirror) := by
  by_cases hside : n - rb.writeIndex ≤ buf.length
  · rw [forceInside_wrap_iff h hside]
    constructor
    · intro ⟨hle, hrepr⟩
      exact ⟨hside, (putForce_repr_of_wrap h buf hover hside hle).mp hrepr⟩
    · intro ⟨_, hwrap⟩
      have hle := hwrap.1.le
      exact ⟨hle, (putForce_repr_of_wrap h buf hover hside hle).mpr hwrap⟩
  · constructor
    · intro ⟨_, hrepr⟩
      exact absurd hrepr (not_putForce_repr_of_side h buf hover (Nat.not_le.mp hside))
    · intro ⟨hle, _⟩
      exact absurd hle hside

theorem forceInside_of_space {len : Nat} (hfit : len ≤ n - q.length) : ForceInside n rb len := by
  have hw := h.write_lt
  intro b hb
  unfold putForceBlocks at hb
  rw [h.sideLen_eq h.write_lt] at hb
  dsimp only at hb
  split at hb
  · rw [mem_singleton.mp hb]
    dsimp only
    omega
  · cases mem_cons.mp hb with
    | inl heq =>
      rw [heq]
      dsimp only
      omega
    | inr hb =>
      rw [mem_singleton.mp hb]
      dsimp only
      omega

private theorem putForce_repr_iff (buf : List UInt8) (hlen : buf.length < 2 ^ 16) :
    ForceInside n rb buf.length ∧
      Repr (skRingBufferPutForce rb buf buf.length).2 n ((q ++ buf).rtake n) ↔
    ForceFits n rb buf.length := by
  unfold ForceFits
  rw [h.spaceLen_eq]
  by_cases hfit : buf.length ≤ n - q.length
  · simp only [hfit, true_or, iff_true]
    exact ⟨forceInside_of_space h hfit, putForce_repr_of_space h buf hlen hfit⟩
  · have hr := h.read_lt
    have hw := h.write_lt
    have hq := h.length_le
    have hm := h.mirror
    rw [putForce_repr_of_over h buf (by omega)]
    simp only [hfit, false_or]
    split at hm
    · rename_i hmir
      simp only [hmir, ↓reduceIte, ne_eq, not_true_eq_false, iff_false]
      omega
    · rename_i hmir
      simp only [hmir, ↓reduceIte, ne_eq, not_false_eq_true, iff_true]
      omega

end

/-! ## Sequences of operations -/

/-- A call of the ring buffer interface, with forced bytes. -/
inductive ForceOp where
  | call (op : RingOp)
  | putcharForce (data : UInt8)

/-- One call on the ring buffer. -/
def forceStep (rb : RingBuffer) : ForceOp → RingOut × RingBuffer
  | .call op => ringStep rb op
  | .putcharForce data =>
    let r := skRingBufferPutcharForce rb data
    ((r.1, []), r.2)

/-- The same call on a queue that drops its oldest elements. -/
def fifoForceStep {cap : Nat} (q : Fifo UInt8 cap) : ForceOp → RingOut × Fifo UInt8 cap
  | .call op => fifoStep q op
  | .putcharForce data => ((1, []), q.force [data])

private theorem forceStep_repr (rb : RingBuffer) (q : Fifo UInt8 n) (op : ForceOp)
    (h : Repr rb n q.items) :
    (forceStep rb op).1 = (fifoForceStep q op).1 ∧
      Repr (forceStep rb op).2 n (fifoForceStep q op).2.items := by
  cases op with
  | call op => exact ringStep_repr rb q op h
  | putcharForce data =>
    obtain ⟨hcount, hrepr⟩ := putcharForce_repr h data
    exact ⟨by simp only [forceStep, fifoForceStep, hcount], hrepr⟩

/-- **Forced bytes.** A ring buffer of any size its `buffer_size` field can hold behaves as a queue
    of that capacity on every sequence of calls with forced bytes: it gives the same answers, its
    status is that of the queue and it holds the bytes of the queue. A forced byte is appended, and
    the oldest byte is dropped exactly if the ring buffer is full. -/
theorem putchar_force_drops_oldest (mem : Nat → UInt8) (n : Nat) (hpos : 1 ≤ n)
    (hle : n ≤ 32767) (ops : List ForceOp) (data : UInt8) :
    let code := Machine.run forceStep (skRingBufferInit mem n) ops
    let spec := Machine.run fifoForceStep (Fifo.empty : Fifo UInt8 n) ops
    code.1 = spec.1 ∧ skGetRingBufferStatus code.2 = spec.2.status ∧
      ringBytes code.2 = spec.2.items ∧
      ringBytes (skRingBufferPutcharForce code.2 data).2 =
        (if skGetRingBufferStatus code.2 = .full then (ringBytes code.2).tail
          else ringBytes code.2) ++ [data] := by
  intro code spec
  obtain ⟨houts, hrepr⟩ :=
    Machine.run_simulates (fun rb (q : Fifo UInt8 n) => Repr rb n q.items) forceStep_repr ops
      (skRingBufferInit mem n) Fifo.empty (init_repr mem n hpos hle)
  refine ⟨houts, hrepr.status_eq, hrepr.ringBytes_eq, ?_⟩
  rw [(putcharForce_repr hrepr data).2.ringBytes_eq, hrepr.ringBytes_eq,
    rtake_concat hpos hrepr.length_le]
  exact congrArg (· ++ [data]) (if_congr hrepr.full_iff.symm rfl rfl)

/-- Three forced bytes in a buffer of two bytes: the first one is dropped. -/
theorem putchar_force_drops_oldest_two :
    let ops : List ForceOp := [.putcharForce 1, .call (.putchar 2)]
    let code := Machine.run forceStep (skRingBufferInit (fun _ => 0) 2) ops
    skGetRingBufferStatus code.2 = .full ∧
      ringBytes (skRingBufferPutcharForce code.2 3).2 = [2, 3] := by
  intro ops code
  obtain ⟨-, hstatus, -, hforced⟩ :=
    putchar_force_drops_oldest (fun _ => 0) 2 (by decide) (by decide) ops 3
  exact ⟨hstatus.trans (by decide), hforced.trans (by decide)⟩

/-! ## Runs with forced blocks -/

/-- A call of the ring buffer interface, with forced blocks. -/
inductive BlockOp where
  | call (op : ForceOp)
  | putForce (buf : { bs : List UInt8 // bs.length < 2 ^ 16 })

/-- The ring buffers of `n` bytes, from `sk_ring_buffer_init` on. -/
def ringSystem (n : Nat) : TransitionSystem RingBuffer BlockOp where
  init rb := ∃ mem, rb = skRingBufferInit mem n
  step rb
    | .call op => some (forceStep rb op).2
    | .putForce buf => some (skRingBufferPutForce rb buf.1 buf.1.length).2

/-- The forced blocks are such that `sk_ring_buffer_put_force` works. -/
def BlockFits (n : Nat) (rb : RingBuffer) : BlockOp → Prop
  | .call _ => True
  | .putForce buf => ForceFits n rb buf.1.length

instance (n : Nat) (rb : RingBuffer) (op : BlockOp) : Decidable (BlockFits n rb op) :=
  match op with
  | .call _ => isTrue trivial
  | .putForce buf => inferInstanceAs (Decidable (ForceFits n rb buf.1.length))

/-- Along these runs the ring buffer holds a queue. -/
theorem repr_of_reach (hpos : 1 ≤ n) (hle : n ≤ 32767)
    (h : (ringSystem n).Reach (BlockFits n) rb) : Repr rb n (ringBytes rb) := by
  have hex : ∃ q, Repr rb n q := by
    refine h.invariant (I := fun rb => ∃ q, Repr rb n q) ?_ ?_
    · intro rb hinit
      obtain ⟨mem, rfl⟩ := hinit
      exact ⟨[], init_repr mem n hpos hle⟩
    · intro rb op rb' hex hfits hstep
      obtain ⟨q, hq⟩ := hex
      cases op with
      | call op =>
        cases hstep
        exact ⟨_, (forceStep_repr rb ⟨q, hq.length_le⟩ op hq).2⟩
      | putForce buf =>
        cases hstep
        exact ⟨_, ((putForce_repr_iff hq buf.1 buf.2).mpr hfits).2⟩
  obtain ⟨q, hq⟩ := hex
  rw [hq.ringBytes_eq]
  exact hq

/-- **Forced blocks.** In every state that is reached, and for every block: putting the bytes one by
    one by `sk_ring_buffer_putchar_force` keeps the newest bytes. `sk_ring_buffer_put_force` returns
    the length of the block and writes nothing but its two blocks of cells; these are inside the
    buffer, and the newest bytes are kept, exactly if the block is one of `ForceFits`. -/
theorem put_force_iff (hpos : 1 ≤ n) (hle : n ≤ 32767)
    (h : (ringSystem n).Reach (BlockFits n) rb) {buf : List UInt8} (hlen : buf.length < 2 ^ 16) :
    Repr (putEachForce rb buf) n ((ringBytes rb ++ buf).rtake n) ∧
      (skRingBufferPutForce rb buf buf.length).1 = buf.length ∧
      (∀ x, (∀ b ∈ putForceBlocks rb buf.length, x < b.1 ∨ b.1 + b.2 ≤ x) →
        (skRingBufferPutForce rb buf buf.length).2.buffer x = rb.buffer x) ∧
      (ForceInside n rb buf.length ∧
        Repr (skRingBufferPutForce rb buf buf.length).2 n ((ringBytes rb ++ buf).rtake n) ↔
      ForceFits n rb buf.length) := by
  have hrepr := repr_of_reach hpos hle h
  refine ⟨putEachForce_repr hrepr buf, ?_, fun x => putForce_outside rb buf,
    putForce_repr_iff hrepr buf hlen⟩
  unfold skRingBufferPutForce
  dsimp only
  split
  · rfl
  · split <;> rfl

/-- A block of three bytes in a buffer of four bytes of which two are stored and one has been read:
    the oldest byte is dropped. -/
theorem put_force_iff_four :
    ∃ rb, (ringSystem 4).Reach (BlockFits 4) rb ∧ ringBytes rb = [2, 3] ∧
      ForceInside 4 rb 3 ∧
      Repr (skRingBufferPutForce rb [4, 5, 6] 3).2 4 [3, 4, 5, 6] := by
  have hinit : (ringSystem 4).Reach (BlockFits 4) (skRingBufferInit (fun _ => 0) 4) :=
    .init ⟨_, rfl⟩
  obtain ⟨rb, hrb, hp⟩ := hinit.exists_of_run
    [.call (.call (.put ⟨[1, 2, 3], by decide⟩)), .call (.call .getchar)]
    (fun rb => ringBytes rb = [2, 3] ∧ ForceFits 4 rb 3) (by decide)
  obtain ⟨hbytes, hfits⟩ := of_decide_eq_true hp
  obtain ⟨-, -, -, hiff⟩ := put_force_iff (by decide) (by decide) hrb
    (show ([4, 5, 6] : List UInt8).length < 2 ^ 16 by decide)
  obtain ⟨hinside, hrepr⟩ := hiff.mpr hfits
  rw [hbytes] at hrepr
  exact ⟨rb, hrb, hbytes, hinside, hrepr⟩

/-- A full buffer of four bytes whose indices are 0: after one forced byte the status is no longer
    full, and only the new byte is left. -/
theorem put_force_loses_bytes :
    ∃ rb, (ringSystem 4).Reach (BlockFits 4) rb ∧ ringBytes rb = [1, 2, 3, 4] ∧
      ringBytes (putEachForce rb [5]) = [2, 3, 4, 5] ∧
      ringBytes (skRingBufferPutForce rb [5] 1).2 = [5] := by
  have hinit : (ringSystem 4).Reach (BlockFits 4) (skRingBufferInit (fun _ => 0) 4) :=
    .init ⟨_, rfl⟩
  obtain ⟨rb, hrb, hp⟩ := hinit.exists_of_run [.call (.call (.put ⟨[1, 2, 3, 4], by decide⟩))]
    (fun rb => ringBytes rb = [1, 2, 3, 4] ∧ ringBytes (putEachForce rb [5]) = [2, 3, 4, 5] ∧
      ringBytes (skRingBufferPutForce rb [5] 1).2 = [5]) (by decide)
  exact ⟨rb, hrb, of_decide_eq_true hp⟩

end SKernel.Spec
