import SKernel.Native.Mutex

/-!
# File descriptors of the virtual file system

Model of the descriptor table and of the file system lock in `fs/vfs/vfs.c`. A pointer to a
descriptor is its index in `fds`. The functions on the table take and release the lock around
their work; they do not look at the result of that, so the table and the lock are modelled side by
side.
-/

namespace SKernel.Native

/-- `VFS_MAX_FD`. -/
def vfsMaxFd : Nat := 16

/-- `VFS_FD_MAGIC`. -/
def vfsFdMagic : BitVec 32 := 0x142431

/-- `struct sk_vfs_fd`, without the fields that describe the file. -/
structure VfsFd where
  magic : BitVec 32
  refCount : BitVec 32
  deriving DecidableEq

/-- `struct sk_vfs_fdtable`. -/
structure VfsFdtable where
  maxFd : Nat
  fds : Nat → VfsFd

/-- The table that `sk_fdt_init` is meant to make: descriptors that are cleared. `VFS_MAX_FD` is a
    parameter. In the source `fds` is a pointer that `sk_vfs_init` has just cleared, so that the
    descriptors are stored through `SK_NULL`. -/
def skFdtInit (maxFd : Nat) : VfsFdtable where
  maxFd := maxFd
  fds := fun _ => { magic := 0, refCount := 0 }

/-- The loop of `sk_fd_alloc`, with that many entries left from `idx` on. -/
def fdAllocLoop (fdt : VfsFdtable) : Nat → Nat → Nat
  | 0, idx => idx
  | left + 1, idx =>
    if (fdt.fds idx).refCount = 0 then idx else fdAllocLoop fdt left (idx + 1)

/-- `sk_fd_alloc`. -/
def skFdAlloc (fdt : VfsFdtable) (startFd : Nat) : Int :=
  let idx := fdAllocLoop fdt (fdt.maxFd - startFd) startFd
  -- file descriptor is full
  if idx = fdt.maxFd then -1 else idx

/-- `sk_fd_new`. -/
def skFdNew (fdTab : VfsFdtable) : Int × VfsFdtable :=
  let index := skFdAlloc fdTab 0
  if index = -1 then (-1, fdTab)
  else
    -- configure file descriptor
    (index,
      { fdTab with
        fds := Function.update fdTab.fds index.toNat { refCount := 1, magic := vfsFdMagic } })

/-- `sk_get_fd`. -/
def skGetFd (fdTab : VfsFdtable) (fd : Int) : Option Nat × VfsFdtable :=
  if fd < 0 ∨ fd ≥ fdTab.maxFd then (none, fdTab)
  else
    let d := fdTab.fds fd.toNat
    if d.magic ≠ vfsFdMagic then (none, fdTab)
    else
      -- increase the reference count
      (some fd.toNat,
        { fdTab with
          fds := Function.update fdTab.fds fd.toNat { d with refCount := d.refCount + 1 } })

/-- `sk_put_fd`. -/
def skPutFd (fdTab : VfsFdtable) (fd : Nat) : VfsFdtable :=
  let d := fdTab.fds fd
  if d.refCount > 0 then
    { fdTab with fds := Function.update fdTab.fds fd { d with refCount := d.refCount - 1 } }
  else fdTab

/-- `sk_vfs_lock`: `sk_mutex_lock` with a time of 0 never blocks. Its result is ignored. -/
def skVfsLock (k : Kernel) (fsLock : Mutex) (list : ListHead) : Option (Kernel × Mutex) :=
  (skMutexLock 0 k fsLock list 0).map fun r => r.2

/-- `sk_vfs_unlock`. -/
def skVfsUnlock (k : Kernel) (fsLock : Mutex) (list : ListHead) :
    Option (CallEnd × Kernel × Mutex) :=
  skMutexUnlock k fsLock list

end SKernel.Native
