import SKernel.Native.Serial
import SKernel.Native.Shell

/-!
# Reading a ring buffer with interrupts enabled

`sk_serial_read` does not disable the interrupts, and the handler of the receive interrupt puts
characters into the ring that `sk_ring_buffer_get` reads. Here `sk_ring_buffer_get` is cut at the
places where an interrupt makes a difference: before every access to a field that the handler
writes, and between the stores to the fields that the handler reads. The calls of `sk_memcpy` are
one step.
-/

namespace SKernel.Native

open Circular

/-- What `sk_ring_buffer_get` does next, with its local variables. -/
inductive GetPc where
  /-- compare the indices -/
  | indices
  /-- they were the same: compare the mirrors -/
  | mirrors
  /-- they were different: which one is ahead -/
  | order
  /-- the write index was ahead: subtract -/
  | ahead
  /-- the read index was ahead: subtract -/
  | behind
  /-- copy the bytes -/
  | copy (getLen : Nat)
  /-- add to the read index -/
  | advance (getLen : Nat) (bytes : List UInt8)
  /-- invert the mirror -/
  | mirror (getLen sideLen : Nat) (bytes : List UInt8)
  /-- store the read index -/
  | index (getLen sideLen : Nat) (bytes : List UInt8)
  /-- return, with these bytes stored through `buf` -/
  | done (bytes : List UInt8)
  deriving DecidableEq

/-- `sk_ring_buffer_data_len` returns to `sk_ring_buffer_get`. -/
def GetPc.sized (len dataLen : Nat) : GetPc :=
  let size := toUInt16 dataLen
  if size = 0 then .done []
  -- less data
  else .copy (if size < len then size else len)

/-- One step of `sk_ring_buffer_get` of `len` bytes. -/
def getStep (len : Nat) (rb : RingBuffer) : GetPc → RingBuffer × GetPc
  | .indices => (rb, if rb.readIndex = rb.writeIndex then .mirrors else .order)
  | .mirrors =>
    (rb, .sized len (if rb.readMirror = rb.writeMirror then 0 else toSize rb.bufferSize))
  | .order => (rb, if rb.writeIndex > rb.readIndex then .ahead else .behind)
  | .ahead => (rb, .sized len (toSize ((rb.writeIndex : Int) - rb.readIndex)))
  | .behind =>
    (rb, .sized len (toSize (rb.bufferSize - ((rb.readIndex : Int) - rb.writeIndex))))
  | .copy getLen =>
    let sideLen := toUInt16 (rb.bufferSize - rb.readIndex)
    (rb,
      if sideLen > getLen then .advance getLen (slice rb.buffer rb.readIndex getLen)
      else
        .mirror getLen sideLen
          (slice rb.buffer rb.readIndex sideLen ++ slice rb.buffer 0 (getLen - sideLen)))
  | .advance getLen bytes =>
    ({ rb with readIndex := toIndex (rb.readIndex + getLen) }, .done bytes)
  | .mirror getLen sideLen bytes =>
    ({ rb with readMirror := !rb.readMirror }, .index getLen sideLen bytes)
  | .index getLen sideLen bytes =>
    ({ rb with readIndex := toIndex (getLen - sideLen) }, .done bytes)
  | .done bytes => (rb, .done bytes)

/-- The shell thread and the device it reads from. -/
structure Terminal where
  serial : SerialDevice
  pc : GetPc
  shell : ShellCmd

/-- One step of the loop of `shell_thread_entry`: a step of the `sk_ring_buffer_get` that
    `shell_getchar` calls for one character, and when it has returned with one, what the loop does
    with it. -/
def Terminal.threadStep (table : List ShellSyscall) (x : Terminal) : Option Terminal :=
  x.serial.serialRx.bind fun rb =>
    let (rb, pc) := getStep 1 rb x.pc
    let x := { x with serial := { x.serial with serialRx := some rb } }
    match pc with
    | .done [] => some { x with pc := .indices }
    | .done (ch :: _) =>
      (shellRound table x.shell ch).map fun shell => { x with pc := .indices, shell }
    | pc => some { x with pc }

end SKernel.Native
