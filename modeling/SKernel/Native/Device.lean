import Mathlib.Data.BitVec
import SKernel.Native.Kobj

/-!
# Devices

Model of `init/device.c`. A device is named by its address, which is also the address of its
object header. The driver is a state `σ` and the operations of `struct sk_device_ops`: they may
read the device and change the state of the driver, and return any `sk_err_t`. The operation
`ioctl`, which nothing calls, is left out.
-/

namespace SKernel.Native

/-- `SK_DEVICE_FLAG_CLOSE`. -/
def deviceFlagClose : BitVec 16 := 0x000

/-- `SK_DEVICE_FLAG_ACTIVATED`. -/
def deviceFlagActivated : BitVec 16 := 0x010

/-- `SK_DEVICE_FLAG_OPEN`. -/
def deviceFlagOpen : BitVec 16 := 0x020

/-- `enum sk_device_type`. -/
inductive DeviceType where
  | char
  | block
  | net
  deriving DecidableEq

/-- `struct sk_device`, without its object header and the fields not used here. -/
structure Device where
  type : DeviceType
  flag : BitVec 16
  refCnt : BitVec 8
  deriving DecidableEq

/-- `struct sk_device_ops`. An operation that is `SK_NULL` is `none`. -/
structure DeviceOps (σ : Type*) where
  init : Option (Device → σ → Int × σ)
  openOp : Option (Device → BitVec 16 → σ → Int × σ)
  closeOp : Option (Device → σ → Int × σ)
  read : Option (Device → Nat → Nat → Nat → σ → Nat × σ)
  write : Option (Device → Nat → Nat → Nat → σ → Nat × σ)

variable {σ μ : Type*}

/-- `sk_device_find`. -/
def skDeviceFind (fuel : Nat) (o : Objects) (name : List (BitVec 8)) : Option (Option Nat) :=
  skObjectFind fuel o name .device

/-- `sk_device_create`: the address of the device, and the device. `SK_ALIGN_SIZE` is `4U`. -/
def skDeviceCreate (A : Allocator μ) (m : μ) (type : DeviceType) (attachSize : Nat) :
    Option (Nat × Option Device × μ) :=
  -- use the total size, include user private data size
  let size := skAlignUint (objSize .device) alignSize + skAlignUint attachSize alignSize
  (A.malloc m (size % 2 ^ 64)).map fun (device, m) =>
    (device, if device = 0 then none else some { type, flag := 0, refCnt := 0 }, m)

/-- `sk_device_destroy`. -/
def skDeviceDestroy (A : Allocator μ) (o : Objects) (m : μ) (dev : Nat) : Option (Objects × μ) :=
  if dev = 0 then some (o, m)
  else
    (skObjectDelete A o m dev).bind fun (o, m) =>
      -- release this device object
      (A.free m dev).map fun m => (o, m)

/-- `sk_device_init`. -/
def skDeviceInit (ops : DeviceOps σ) (dev : Device) (s : σ) : Int × Device × σ :=
  if dev.flag &&& deviceFlagActivated ≠ 0 then (SkErr.eok.code, dev, s)
  else
    match ops.init with
    | none => (SkErr.eok.code, dev, s)
    | some init =>
      let (ret, s) := init dev s
      if ret = SkErr.eok.code then (ret, { dev with flag := dev.flag ||| deviceFlagActivated }, s)
      else (ret, dev, s)

/-- `sk_device_open`: call the driver's `open`. -/
def deviceOpenOp (ops : DeviceOps σ) (dev : Device) (flag : BitVec 16) (s : σ) : Int × σ :=
  match ops.openOp with
  | none => (SkErr.eok.code, s)
  | some op => op dev flag s

/-- `sk_device_open`. -/
def skDeviceOpen (ops : DeviceOps σ) (parent : Object) (dev : Device) (flag : BitVec 16) (s : σ) :
    Int × Device × σ :=
  if parent.type ≠ some .device then (SkErr.einval.code, dev, s)
  else
    -- if device is not initialized, initialize it
    let (ret, dev, s) :=
      if dev.flag &&& deviceFlagActivated = 0 then skDeviceInit ops dev s
      else (SkErr.eok.code, dev, s)
    let (ret, s) := if ret = SkErr.eok.code then deviceOpenOp ops dev flag s else (ret, s)
    if ret = SkErr.eok.code then
      (ret, { dev with flag := dev.flag ||| deviceFlagOpen, refCnt := dev.refCnt + 1 }, s)
    else (ret, dev, s)

/-- `sk_device_close`: call the driver's `close`. -/
def deviceCloseOp (ops : DeviceOps σ) (dev : Device) (s : σ) : Int × σ :=
  match ops.closeOp with
  | none => (SkErr.eok.code, s)
  | some op => op dev s

/-- `sk_device_close`. -/
def skDeviceClose (ops : DeviceOps σ) (parent : Object) (dev : Device) (s : σ) :
    Int × Device × σ :=
  if parent.type ≠ some .device then (SkErr.einval.code, dev, s)
  else if dev.refCnt = 0 then (SkErr.error.code, dev, s)
  else
    let dev := { dev with refCnt := dev.refCnt - 1 }
    if dev.refCnt ≠ 0 then (SkErr.eok.code, dev, s)
    else
      let (ret, s) := deviceCloseOp ops dev s
      if ret = SkErr.eok.code then (ret, { dev with flag := deviceFlagClose }, s)
      else (ret, dev, s)

/-- `sk_device_read` and `sk_device_write`. An error code is returned as a `sk_size_t`. -/
def deviceTransfer (op : Option (Device → Nat → Nat → Nat → σ → Nat × σ)) (parent : Object)
    (dev : Device) (pos buf size : Nat) (s : σ) : Nat × σ :=
  if parent.type ≠ some .device then ((SkErr.einval.code % 2 ^ 64).toNat, s)
  -- check device reference count, if 0, the device has been closed
  else if dev.refCnt = 0 then (0, s)
  else
    match op with
    | none => (0, s)
    | some op => op dev pos buf size s

/-- `sk_device_read`. -/
def skDeviceRead (ops : DeviceOps σ) := deviceTransfer ops.read

/-- `sk_device_write`. -/
def skDeviceWrite (ops : DeviceOps σ) := deviceTransfer ops.write

/-- `sk_device_register`: the return value, the objects and the device. -/
def skDeviceRegister (fuel : Nat) (o : Objects) (addr : Nat) (dev : Device)
    (name : List (BitVec 8)) (flag : BitVec 16) : Option (SkErr × Objects × Device) :=
  (skDeviceFind fuel o name).bind fun
    | some _ => some (.error, o, dev)
    | none =>
      (skObjectInit fuel o addr .device name).map fun o =>
        (.eok, o, { dev with flag, refCnt := 0 })

/-- `sk_device_unregister`. -/
def skDeviceUnregister (A : Allocator μ) (o : Objects) (m : μ) (dev : Nat) :
    Option (SkErr × Objects × μ) :=
  if (o.obj dev).type ≠ some .device then some (.error, o, m)
  else (skObjectDelete A o m dev).map fun (o, m) => (.eok, o, m)

end SKernel.Native
