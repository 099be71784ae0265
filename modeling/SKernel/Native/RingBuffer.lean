import SKernel.ForStd.Circular

/-!
# Ring buffer

Model of `common/ring_buffer.c`. The two indices are 15-bit fields and the two mirrors
one-bit fields; `buffer_size` is a signed 16-bit field. `buffer` is the memory seen from
the buffer pointer: cell `i` is `rb->buffer[i]`, also for `i` outside the buffer.
-/

namespace SKernel.Native

open Circular

/-- Conversion of a signed value to `sk_size_t`. -/
def toSize (x : Int) : Nat := (x % 2 ^ 64).toNat

/-- Conversion to `sk_uint16_t`. -/
def toUInt16 (x : Int) : Nat := (x % 2 ^ 16).toNat

/-- Conversion to a 15-bit field. -/
def toIndex (x : Nat) : Nat := x % 2 ^ 15

/-- `struct sk_ring_buffer`. -/
structure RingBuffer where
  buffer : Nat → UInt8
  readMirror : Bool
  readIndex : Nat
  writeMirror : Bool
  writeIndex : Nat
  bufferSize : Int

/-- `enum sk_ring_buffer_state`. -/
inductive RingBufferState where
  | empty
  | full
  | halffull
  deriving Repr, DecidableEq

/-- `sk_get_ring_buffer_status`. -/
def skGetRingBufferStatus (rb : RingBuffer) : RingBufferState :=
  if rb.readIndex = rb.writeIndex then
    if rb.readMirror = rb.writeMirror then .empty else .full
  else .halffull

/-- `sk_ring_buffer_data_len`. -/
def skRingBufferDataLen (rb : RingBuffer) : Nat :=
  match skGetRingBufferStatus rb with
  | .empty => 0
  | .full => toSize rb.bufferSize
  | .halffull =>
    if rb.writeIndex > rb.readIndex then
      toSize ((rb.writeIndex : Int) - rb.readIndex)
    else
      toSize (rb.bufferSize - ((rb.readIndex : Int) - rb.writeIndex))

/-- `sk_ring_buffer_space_len`. -/
def skRingBufferSpaceLen (rb : RingBuffer) : Nat :=
  toSize (rb.bufferSize - skRingBufferDataLen rb)

/-- `sk_ring_buffer_init`. `mem` is what the buffer memory holds before. -/
def skRingBufferInit (mem : Nat → UInt8) (size : Nat) : RingBuffer where
  buffer := mem
  readMirror := false
  readIndex := 0
  writeMirror := false
  writeIndex := 0
  -- `sk_uint16_t` stored in a `sk_int16_t`
  bufferSize := Int.bmod size (2 ^ 16)

/-- `sk_ring_buffer_put`: the number of bytes stored and the new state. `buf` holds `len` bytes or
    more. -/
def skRingBufferPut (rb : RingBuffer) (buf : List UInt8) (len : Nat) : Nat × RingBuffer :=
  let size := toUInt16 (skRingBufferSpaceLen rb)
  if size = 0 then
    (0, rb)
  else
    -- drop some data
    let putLen := if size < len then size else len
    let sideLen := toUInt16 (rb.bufferSize - rb.writeIndex)
    if sideLen > putLen then
      (putLen,
        { rb with
          buffer := blit rb.buffer rb.writeIndex (buf.take putLen)
          writeIndex := toIndex (rb.writeIndex + putLen) })
    else
      (putLen,
        { rb with
          buffer :=
            blit (blit rb.buffer rb.writeIndex (buf.take sideLen)) 0
              ((buf.drop sideLen).take (putLen - sideLen))
          -- need to use other side of the mirror
          writeMirror := !rb.writeMirror
          writeIndex := toIndex (putLen - sideLen) })

/-- `sk_ring_buffer_get`: the returned count, the bytes copied out and the new state. -/
def skRingBufferGet (rb : RingBuffer) (len : Nat) : Nat × List UInt8 × RingBuffer :=
  let size := toUInt16 (skRingBufferDataLen rb)
  if size = 0 then
    (0, [], rb)
  else
    -- less data
    let getLen := if size < len then size else len
    let sideLen := toUInt16 (rb.bufferSize - rb.readIndex)
    if sideLen > getLen then
      (getLen, slice rb.buffer rb.readIndex getLen,
        { rb with readIndex := toIndex (rb.readIndex + getLen) })
    else
      (getLen,
        slice rb.buffer rb.readIndex sideLen ++ slice rb.buffer 0 (getLen - sideLen),
        { rb with
          -- need to use other side of the mirror
          readMirror := !rb.readMirror
          readIndex := toIndex (getLen - sideLen) })

/-- `sk_ring_buffer_putchar`. -/
def skRingBufferPutchar (rb : RingBuffer) (data : UInt8) : Nat × RingBuffer :=
  if skRingBufferSpaceLen rb = 0 then
    (0, rb)
  else
    let buffer := blit rb.buffer rb.writeIndex [data]
    if ((rb.writeIndex + 1 : Nat) : Int) = rb.bufferSize then
      (1, { rb with buffer, writeIndex := 0, writeMirror := !rb.writeMirror })
    else
      (1, { rb with buffer, writeIndex := toIndex (rb.writeIndex + 1) })

/-- `sk_ring_buffer_getchar`: the returned count, the byte stored through `data`, if any, and the
    new state. -/
def skRingBufferGetchar (rb : RingBuffer) : Nat × Option UInt8 × RingBuffer :=
  if skRingBufferDataLen rb = 0 then
    (0, none, rb)
  else
    let data := rb.buffer rb.readIndex
    if ((rb.readIndex + 1 : Nat) : Int) = rb.bufferSize then
      (1, some data, { rb with readIndex := 0, readMirror := !rb.readMirror })
    else
      (1, some data, { rb with readIndex := toIndex (rb.readIndex + 1) })

/-- `sk_ring_buffer_put_force`. -/
def skRingBufferPutForce (rb : RingBuffer) (buf : List UInt8) (len : Nat) : Nat × RingBuffer :=
  let spaceSize := toUInt16 (skRingBufferSpaceLen rb)
  let sideLen := toUInt16 (rb.bufferSize - rb.writeIndex)
  if sideLen > len then
    (len,
      { rb with
        buffer := blit rb.buffer rb.writeIndex (buf.take len)
        writeIndex := toIndex (rb.writeIndex + len) })
  else
    let rb := { rb with
      buffer :=
        blit (blit rb.buffer rb.writeIndex (buf.take sideLen)) 0
          ((buf.drop sideLen).take (len - sideLen))
      -- need to use other side of the mirror
      writeMirror := !rb.writeMirror
      writeIndex := toIndex (len - sideLen) }
    if len > spaceSize then
      (len,
        { rb with
          readMirror := if rb.writeIndex ≤ rb.readIndex then !rb.readMirror else rb.readMirror
          readIndex := rb.writeIndex })
    else (len, rb)

/-- The blocks of `rb->buffer` that `sk_ring_buffer_put_force` writes: first index and number of
    bytes. -/
def putForceBlocks (rb : RingBuffer) (len : Nat) : List (Nat × Nat) :=
  let sideLen := toUInt16 (rb.bufferSize - rb.writeIndex)
  if sideLen > len then [(rb.writeIndex, len)]
  else [(rb.writeIndex, sideLen), (0, len - sideLen)]

/-- `sk_ring_buffer_putchar_force`. -/
def skRingBufferPutcharForce (rb : RingBuffer) (data : UInt8) : Nat × RingBuffer :=
  let state := skGetRingBufferStatus rb
  let rb := { rb with buffer := blit rb.buffer rb.writeIndex [data] }
  if ((rb.writeIndex + 1 : Nat) : Int) = rb.bufferSize then
    let rb := { rb with writeIndex := 0, writeMirror := !rb.writeMirror }
    if state = .full then
      (1, { rb with writeMirror := !rb.writeMirror, readIndex := rb.writeIndex })
    else (1, rb)
  else
    let rb := { rb with writeIndex := toIndex (rb.writeIndex + 1) }
    if state = .full then (1, { rb with readIndex := rb.writeIndex })
    else (1, rb)

end SKernel.Native
