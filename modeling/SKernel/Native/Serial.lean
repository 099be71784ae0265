import SKernel.Native.Device
import SKernel.Native.RingBuffer

/-!
# Serial devices

Model of `driver/serial/serial.c`: opening a serial device, reading from it, writing to it and its
interrupt handler, and of the output functions of `bsp/driver/drv_uart.c`. What the driver's `getc`
returns is a list: `getc` takes the first value off, and returns -1 when there is none. What is
written is the list of the calls of the driver's `putc` and `transmit`. A call that goes through a
null pointer, or writes past the end of a local array, is `none`.
-/

namespace SKernel.Native

/-- `SK_SERIAL_RX_NON_BLOCK`. -/
def serialRxNonBlock : BitVec 16 := 0x200

/-- `struct sk_serial_configure`, the sizes of the buffers. -/
structure SerialConfigure where
  rxBufSize : Nat
  txBufSize : Nat

/-- `struct sk_serial_tx_fifo`, without its completion and `put_size`, which is read only where it
    has just been set. -/
structure SerialTxFifo where
  rb : RingBuffer
  activated : Bool

/-- `struct sk_serial_device`. `rxIndicate` says whether the callback `rx_indicate` is set. The
    receive fifo is its ring buffer. -/
structure SerialDevice where
  parent : Device
  rxIndicate : Bool
  config : SerialConfigure
  serialRx : Option RingBuffer
  serialTx : Option SerialTxFifo

/-- The events of `sk_hw_serial_isr`. -/
inductive SerialEvent where
  | rxInd
  | txDone
  | rxDmadone
  | txDmadone
  | rxTimeout
  deriving DecidableEq

/-- `sk_serial_rx_enable`. `mem` is what `sk_malloc` returns. Nothing reads the return value. -/
def skSerialRxEnable (serial : SerialDevice) (mem : Option (Nat → UInt8)) : Option SerialDevice :=
  if serial.config.rxBufSize = 0 ∧ serial.parent.flag &&& serialRxNonBlock ≠ 0 then some serial
  else
    mem.map fun mem =>
      { serial with serialRx := some (skRingBufferInit mem serial.config.rxBufSize) }

/-- `sk_serial_tx_enable`, in the same way. -/
def skSerialTxEnable (serial : SerialDevice) (mem : Option (Nat → UInt8)) : Option SerialDevice :=
  if serial.config.txBufSize = 0 then some serial
  else
    mem.map fun mem =>
      { serial with
        serialTx := some
          { rb := skRingBufferInit mem serial.config.txBufSize, activated := false } }

/-- `sk_serial_open`, with the memory for the two fifos. -/
def skSerialOpen (serial : SerialDevice) (flag : BitVec 16) (rxMem txMem : Option (Nat → UInt8)) :
    Option (SkErr × SerialDevice) :=
  -- check the device has been open
  if serial.parent.flag &&& deviceFlagOpen ≠ 0 then some (.eok, serial)
  else
    let serial := { serial with
      parent := { serial.parent with flag := serial.parent.flag ||| flag } }
    let rx := if serial.serialRx.isNone then skSerialRxEnable serial rxMem else some serial
    rx.bind fun serial =>
      let tx := if serial.serialTx.isNone then skSerialTxEnable serial txMem else some serial
      tx.map fun serial => (.eok, serial)

/-- `sk_serial_read` without a buffer: at most `size` bytes of `getc`, and what it will return
    afterwards. -/
def serialPollRx : List Int → Nat → List UInt8 × List Int
  | input, 0 => ([], input)
  | [], _ + 1 => ([], [])
  | ch :: input, size + 1 =>
    if ch = -1 then ([], input)
    else
      let (bytes, rest) := serialPollRx input size
      (UInt8.ofInt ch :: bytes, rest)

/-- `sk_serial_read`: the returned count, the bytes stored through `buf`, the device and what
    `getc` will return afterwards. -/
def skSerialRead (serial : SerialDevice) (size : Nat) (input : List Int) :
    Option (Nat × List UInt8 × SerialDevice × List Int) :=
  if serial.config.rxBufSize ≠ 0 then
    serial.serialRx.map fun rb =>
      -- the size is converted to `sk_uint16_t`
      let (recvLen, bytes, rb) := skRingBufferGet rb (toUInt16 size)
      (recvLen, bytes, { serial with serialRx := some rb }, input)
  else
    let (bytes, rest) := serialPollRx input size
    some (bytes.length, bytes, serial, rest)

/-- The loop of `sk_hw_serial_isr`: characters go to the ring until `getc` returns -1. -/
def serialRxLoop : RingBuffer → List Int → RingBuffer × List Int
  | rb, [] => (rb, [])
  | rb, ch :: input =>
    if ch = -1 then (rb, input)
    else serialRxLoop (skRingBufferPutchar rb (UInt8.ofInt ch)).2 input

/-- `sk_hw_serial_isr`: the device, what `getc` will return, and the size given to `rx_indicate`. -/
def skHwSerialIsr (serial : SerialDevice) (event : SerialEvent) (input : List Int) :
    Option (SerialDevice × List Int × Option Nat) :=
  match event with
  | .rxInd | .rxDmadone =>
    serial.serialRx.map fun rb =>
      let rxLength := skRingBufferDataLen rb
      if rxLength = toSize rb.bufferSize then (serial, input, none)
      else
        let (rb, rest) := serialRxLoop rb input
        ({ serial with serialRx := some rb }, rest,
          if serial.rxIndicate then some rxLength else none)
  | .txDone | .txDmadone | .rxTimeout => some (serial, input, none)

/-! ## Output -/

/-- A call of the driver by `sk_serial_write`. -/
inductive SerialTxCall where
  | putc (c : UInt8)
  | transmit (buf : List UInt8)
  deriving DecidableEq

/-- The size of the local array `send_data` of `sk_serial_write`. -/
def sendDataSize : Nat := 64

/-- `__serial_poll_tx`: the calls of `putc` and the final `size`, which is returned. `buf` holds
    `size` bytes or more. -/
def serialPollTx : List UInt8 → Nat → List SerialTxCall × Nat
  | c :: buf, size + 1 =>
    let r := serialPollTx buf size
    (.putc c :: r.1, r.2)
  | _, size => ([], size)

/-- `sk_serial_get_ringbuf`: the returned count, the bytes stored through `ptr` and the ring. -/
def skSerialGetRingbuf (rb : RingBuffer) : Nat × List UInt8 × RingBuffer :=
  let size := skRingBufferDataLen rb
  if size = 0 then (0, [], rb)
  else skRingBufferGet rb (toUInt16 size)

/-- `sk_serial_write`: the returned count, the calls of the driver and the device. -/
def skSerialWrite (serial : SerialDevice) (buf : List UInt8) (size : Nat) :
    Option (Nat × List SerialTxCall × SerialDevice) :=
  if size = 0 then some (0, [], serial)
  else if serial.config.txBufSize = 0 then
    let (calls, ret) := serialPollTx buf size
    some (ret, calls, serial)
  else
    serial.serialTx.bind fun fifo =>
      -- copy data to ring buffer; the size is converted to `sk_uint16_t`
      let (length, rb) := skRingBufferPut fifo.rb buf (toUInt16 size)
      let (putSize, sendData, rb) := skSerialGetRingbuf rb
      if sendData.length > sendDataSize then none
      else
        some (length, [.transmit (sendData.take putSize)],
          { serial with serialTx := some { rb, activated := true } })

/-- `uart_putc`: one more value is written to the data register. A `char` is unsigned. -/
def uartPutc (dr : List UInt32) (c : UInt8) : List UInt32 := dr ++ [c.toUInt32]

/-- `uart_transmit`. -/
def uartTransmit : List UInt32 → List UInt8 → List UInt32
  | dr, [] => dr
  | dr, c :: buf => uartTransmit (uartPutc dr c) buf

/-- What the UART driver does in a call. -/
def uartCall (dr : List UInt32) : SerialTxCall → List UInt32
  | .putc c => uartPutc dr c
  | .transmit buf => uartTransmit dr buf

end SKernel.Native
