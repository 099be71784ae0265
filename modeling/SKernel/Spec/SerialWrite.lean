import SKernel.Native.Serial
import SKernel.Spec.RingBufferCorrect

/-!
# Writing to a serial device

With a transmit buffer `sk_serial_write` puts the bytes into the transmit ring, takes out
everything that is there into the local array `send_data` and hands that to the driver's
`transmit`. Nothing bounds the ring by the 64 bytes of this array, and the size is cut to 16 bits on
the way. Without a transmit buffer it calls the driver's `putc` for each byte, and returns the
counter of this loop.
-/

namespace SKernel.Spec

open Circular Native List

variable {serial : SerialDevice} {fifo : SerialTxFifo} {rb : RingBuffer} {n : Nat}
  {buf : List UInt8}

/-! ## A write through the ring -/

theorem put_take (rb : RingBuffer) (buf : List UInt8) {len : Nat} (hlen : len ≤ buf.length) :
    skRingBufferPut rb buf len = skRingBufferPut rb (buf.take len) (buf.take len).length := by
  have hlength : (buf.take len).length = len := length_take_of_le hlen
  rw [hlength]
  unfold skRingBufferPut
  dsimp only
  split
  · rfl
  · generalize hput : (if toUInt16 (skRingBufferSpaceLen rb) < len
      then toUInt16 (skRingBufferSpaceLen rb) else len) = putLen
    have hle : putLen ≤ len := by
      rw [← hput]
      split <;> omega
    split
    · rw [take_take, Nat.min_eq_left hle]
    · rename_i hside
      rw [take_take, Nat.min_eq_left (by omega), drop_take, take_take,
        Nat.min_eq_left (by omega)]

private theorem toUInt16_natCast (size : Nat) : toUInt16 size = size % 2 ^ 16 := by
  rw [toUInt16]
  omega

/-- Everything that fits is sent at once. -/
theorem skSerialWrite_buffered (hsize : serial.config.txBufSize = n)
    (htx : serial.serialTx = some fifo) (hrepr : Repr fifo.rb n []) (hbuf : buf ≠ []) :
    ∃ rb', Repr rb' n [] ∧
      skSerialWrite serial buf buf.length =
        if min (buf.length % 2 ^ 16) n > sendDataSize then none
        else some (min (buf.length % 2 ^ 16) n,
          [.transmit (buf.take (min (buf.length % 2 ^ 16) n))],
          { serial with serialTx := some { rb := rb', activated := true } }) := by
  have hlen : buf.length ≠ 0 := fun hnil => hbuf (length_eq_zero_iff.mp hnil)
  have hpos := hrepr.read_lt
  have hn := hrepr.size_le
  have hmod : buf.length % 2 ^ 16 ≤ buf.length := Nat.mod_le _ _
  have htake : (buf.take (buf.length % 2 ^ 16)).length = buf.length % 2 ^ 16 :=
    length_take_of_le hmod
  -- the bytes go into the ring
  obtain ⟨hcount, hput⟩ := put_repr hrepr (buf.take (buf.length % 2 ^ 16)) (by omega)
  rw [← put_take fifo.rb buf hmod] at hcount hput
  rw [nil_append, length_nil, Nat.sub_zero, take_take, Nat.min_comm] at hput
  rw [htake, length_nil, Nat.sub_zero] at hcount
  have hq : (buf.take (min (buf.length % 2 ^ 16) n)).length = min (buf.length % 2 ^ 16) n :=
    length_take_of_le (by omega)
  -- and all of them out again
  have hget : ∃ rb', Repr rb' n [] ∧
      skSerialGetRingbuf (skRingBufferPut fifo.rb buf (buf.length % 2 ^ 16)).2 =
        (min (buf.length % 2 ^ 16) n, buf.take (min (buf.length % 2 ^ 16) n), rb') := by
    unfold skSerialGetRingbuf
    rw [hput.dataLen_eq, hq]
    dsimp only
    split
    · rename_i hnone
      refine ⟨_, ?_, by rw [hnone, take_zero]⟩
      rw [hnone, take_zero] at hput
      exact hput
    · have hsize : toUInt16 (min (buf.length % 2 ^ 16) n : Nat) = min (buf.length % 2 ^ 16) n := by
        rw [toUInt16_natCast]
        exact Nat.mod_eq_of_lt (by omega)
      obtain ⟨hgot, hbytes, hrest⟩ := get_repr hput (min (buf.length % 2 ^ 16) n)
      rw [hsize]
      rw [hq, Nat.min_self] at hgot
      rw [take_of_length_le (by omega)] at hbytes
      rw [drop_of_length_le (by omega)] at hrest
      exact ⟨_, hrest, Prod.ext hgot (Prod.ext hbytes rfl)⟩
  obtain ⟨rb', hrepr', hring⟩ := hget
  refine ⟨rb', hrepr', ?_⟩
  unfold skSerialWrite
  rw [if_neg hlen, if_neg (by omega), htx, Option.bind_some, toUInt16_natCast]
  dsimp only
  rw [hring]
  dsimp only
  rw [hq, hcount, take_of_length_le (by omega)]

/-- The first bytes that the buffer can hold go to `transmit` in one call, their number is returned,
    and the ring is empty afterwards. -/
def WritesBuffered (serial : SerialDevice) (n : Nat) (buf : List UInt8) : Prop :=
  ∃ serial' fifo', skSerialWrite serial buf buf.length =
      some (min buf.length n,
        if buf = [] then [] else [.transmit (buf.take (min buf.length n))], serial') ∧
    serial'.serialTx = some fifo' ∧ Repr fifo'.rb n []

/-- **Buffered serial write.** A device with a transmit buffer of 1 to 32767 bytes whose ring is
    empty. A write does what it should, and stays inside `send_data`, exactly if the bytes that
    the buffer can hold are at most 64, and the 16-bit size does not cut them. -/
theorem serial_write_iff (hsize : serial.config.txBufSize = n)
    (htx : serial.serialTx = some fifo) (hrepr : Repr fifo.rb n []) (buf : List UInt8) :
    WritesBuffered serial n buf ↔
      min (buf.length % 2 ^ 16) n = min buf.length n ∧ min buf.length n ≤ sendDataSize := by
  by_cases hbuf : buf = []
  · subst hbuf
    have hwrite : WritesBuffered serial n [] :=
      ⟨serial, fifo, by simp [skSerialWrite], htx, hrepr⟩
    simp [hwrite]
  · obtain ⟨rb', hrepr', hrun⟩ := skSerialWrite_buffered hsize htx hrepr hbuf
    unfold WritesBuffered
    rw [hrun, if_neg hbuf]
    constructor
    · rintro ⟨serial', fifo', hwrite, -⟩
      split at hwrite
      · cases hwrite
      · rename_i hle
        simp only [Option.some.injEq, Prod.mk.injEq] at hwrite
        omega
    · rintro ⟨hcut, hle⟩
      rw [hcut, if_neg (by omega)]
      exact ⟨_, _, rfl, rfl, hrepr'⟩

/-- A serial device with a transmit ring of `n` bytes that has just been opened. -/
def txSerial (n : Nat) : SerialDevice where
  parent := { type := .char, flag := 0, refCnt := 0 }
  rxIndicate := false
  config := { rxBufSize := 0, txBufSize := n }
  serialRx := none
  serialTx := some { rb := skRingBufferInit (fun _ => 0) n, activated := false }

private theorem txSerial_serialTx (n : Nat) : (txSerial n).serialTx =
    some { rb := skRingBufferInit (fun _ => 0) n, activated := false } := rfl

/-- Three bytes through a ring of two. -/
theorem serial_write_iff_two : WritesBuffered (txSerial 2) 2 [97, 98, 99] :=
  (serial_write_iff rfl (txSerial_serialTx 2) (init_repr _ 2 (by decide) (by decide)) _).mpr
    (by decide)

/-- With the default buffer of 128 bytes a write of 65 bytes copies all of them to `send_data`. -/
theorem serial_write_overflows :
    skSerialWrite (txSerial 128) (List.replicate 65 97) 65 = none := by
  obtain ⟨rb', -, hrun⟩ := skSerialWrite_buffered rfl (txSerial_serialTx 128)
    (init_repr _ 128 (by decide) (by decide)) (show List.replicate 65 (97 : UInt8) ≠ [] by simp)
  rw [length_replicate] at hrun
  rw [hrun]
  exact if_pos (by decide)

/-! ## The two ways to write -/

private theorem serialPollTx_eq (buf : List UInt8) :
    serialPollTx buf buf.length = (buf.map .putc, 0) := by
  induction buf with
  | nil => rfl
  | cons c buf ih => simp [serialPollTx, ih]

private theorem uartTransmit_eq (dr : List UInt32) (buf : List UInt8) :
    uartTransmit dr buf = dr ++ buf.map (·.toUInt32) := by
  induction buf generalizing dr with
  | nil => simp [uartTransmit]
  | cons c buf ih => simp [uartTransmit, uartPutc, ih]

private theorem foldl_uartCall_putc (dr : List UInt32) (buf : List UInt8) :
    (buf.map SerialTxCall.putc).foldl uartCall dr = dr ++ buf.map (·.toUInt32) := by
  induction buf generalizing dr with
  | nil => simp
  | cons c buf ih => simp [uartCall, uartPutc, ih]

/-- A ring for `n` bytes that holds nothing, for every size that `tx_buf_size` can have. -/
structure EmptyRing (rb : RingBuffer) (n : Nat) : Prop where
  size_eq : rb.bufferSize = Int.bmod n (2 ^ 16)
  index_eq : rb.readIndex = rb.writeIndex
  mirror_eq : rb.readMirror = rb.writeMirror
  write_lt : rb.writeIndex < n

/-- Up to 32767 bytes, as `buffer_size` is an `int16`. -/
theorem EmptyRing.repr (h : EmptyRing rb n) (hle : n ≤ 32767) : Repr rb n [] where
  size_eq := by
    rw [h.size_eq, Int.bmod_eq_of_le] <;> omega
  size_le := hle
  read_lt := by
    rw [h.index_eq]
    exact h.write_lt
  write_lt := h.write_lt
  length_le := Nat.zero_le _
  mirror := by
    rw [if_pos h.mirror_eq, h.index_eq]
    rfl
  items := rfl

private theorem emptyRing_init (mem : Nat → UInt8) (hpos : 0 < n) :
    EmptyRing (skRingBufferInit mem n) n where
  size_eq := by simp only [skRingBufferInit]
  index_eq := rfl
  mirror_eq := rfl
  write_lt := hpos

/-- The two devices emit the same bytes, and both writes return their number. -/
def PathsAgree (polled buffered : SerialDevice) (buf : List UInt8) : Prop :=
  ∃ calls serial calls' serial',
    skSerialWrite polled buf buf.length = some (buf.length, calls, serial) ∧
    skSerialWrite buffered buf buf.length = some (buf.length, calls', serial') ∧
    ∀ dr, calls.foldl uartCall dr = calls'.foldl uartCall dr

private theorem skSerialWrite_polled (hpolled : serial.config.txBufSize = 0) (buf : List UInt8) :
    skSerialWrite serial buf buf.length = some (0, buf.map .putc, serial) := by
  unfold skSerialWrite
  by_cases hnil : buf.length = 0
  · rw [if_pos hnil, length_eq_zero_iff.mp hnil]
    rfl
  · rw [if_neg hnil, if_pos hpolled, serialPollTx_eq]

/-- **Polled and buffered output.** A device without a transmit buffer, one with a transmit buffer
    of `n` bytes and an empty ring, and at most 64 bytes that fit into it. Both emit the same bytes
    in the same order, the buffered write returns their number and the polled write 0, so that the
    two agree exactly if there is nothing to write. -/
theorem serial_paths_agree_iff {polled : SerialDevice} (hpolled : polled.config.txBufSize = 0)
    (hsize : serial.config.txBufSize = n) (hn : n < 2 ^ 16) (htx : serial.serialTx = some fifo)
    (hempty : EmptyRing fifo.rb n) (hlen : buf.length ≤ 64) (hfit : buf.length ≤ n) :
    (PathsAgree polled serial buf ↔ buf = []) ∧
      (n ≤ 32767 → ∃ calls calls' serial',
        skSerialWrite polled buf buf.length = some (0, calls, polled) ∧
        skSerialWrite serial buf buf.length = some (buf.length, calls', serial') ∧
        ∀ dr, calls.foldl uartCall dr = dr ++ buf.map (·.toUInt32) ∧
          calls'.foldl uartCall dr = dr ++ buf.map (·.toUInt32)) := by
  have hpoll := skSerialWrite_polled hpolled buf
  refine ⟨?_, ?_⟩
  · constructor
    · rintro ⟨calls, polled', calls', serial', hwrite, -⟩
      rw [hpoll] at hwrite
      simp only [Option.some.injEq, Prod.mk.injEq] at hwrite
      exact length_eq_zero_iff.mp hwrite.1.symm
    · rintro rfl
      exact ⟨[], polled, [], serial, rfl, rfl, fun _ => rfl⟩
  · intro hle
    by_cases hbuf : buf = []
    · subst hbuf
      exact ⟨[], [], serial, rfl, rfl, fun dr => by simp⟩
    · obtain ⟨rb', -, hrun⟩ := skSerialWrite_buffered hsize htx (hempty.repr hle) hbuf
      have hall : min (buf.length % 2 ^ 16) n = buf.length := by omega
      rw [hall, if_neg (show ¬buf.length > sendDataSize from Nat.not_lt.mpr hlen),
        take_length] at hrun
      refine ⟨_, _, _, hpoll, hrun, ?_⟩
      intro dr
      refine ⟨foldl_uartCall_putc dr buf, ?_⟩
      rw [foldl_cons, foldl_nil, uartCall, uartTransmit_eq]

/-- A device without a transmit buffer. -/
def polledSerial : SerialDevice := { txSerial 0 with serialTx := none }

/-- Two bytes: the polled write emits them and returns 0. -/
theorem serial_paths_agree_iff_two :
    (PathsAgree polledSerial (txSerial 64) [97, 98] ↔ ([97, 98] : List UInt8) = []) ∧
      ∃ calls calls' serial',
        skSerialWrite polledSerial [97, 98] 2 = some (0, calls, polledSerial) ∧
        skSerialWrite (txSerial 64) [97, 98] 2 = some (2, calls', serial') ∧
        calls.foldl uartCall [] = [97, 98] ∧ calls'.foldl uartCall [] = [97, 98] := by
  obtain ⟨hiff, hsame⟩ := serial_paths_agree_iff (show polledSerial.config.txBufSize = 0 from rfl)
    (show (txSerial 64).config.txBufSize = 64 from rfl) (by decide) (txSerial_serialTx 64)
    (emptyRing_init _ (by decide)) (show ([97, 98] : List UInt8).length ≤ 64 by decide) (by decide)
  obtain ⟨calls, calls', serial', hpoll, hwrite, hout⟩ := hsame (by decide)
  exact ⟨hiff, calls, calls', serial', hpoll, hwrite, hout []⟩

/-- One byte: the buffered write returns 1, the polled write 0. -/
theorem serial_paths_differ :
    (skSerialWrite polledSerial [97] 1).map Prod.fst = some 0 ∧
      (skSerialWrite (txSerial 64) [97] 1).map Prod.fst = some 1 := by
  decide

end SKernel.Spec
