import SKernel.Native.BaseDef
import SKernel.Native.StringOps

/-!
# Files of the virtual file system

Model of `fs/vfs/vfs_fs.c`, of `sk_fd_is_open` in `fs/vfs/vfs.c`, and of the functions of
`fs/vfs/vfs_file.c` that open, close and remove a file. A pointer to a mounted file system is its
index in `file_system`, and one to a `struct sk_vfs_file_ops` the number of the driver it belongs
to. The operations of a driver are functions, which may be missing. A call through a pointer that is
`SK_NULL` is `none`. The lock is left out: the functions release it whatever they find.
-/

namespace SKernel.Native

/-- `SK_EBUSY`. -/
def skEbusy : Int := -6

/-- `FT_REGULAR`. -/
def ftRegular : BitVec 16 := 1

/-- `FT_DIRECTORY`. -/
def ftDirectory : BitVec 16 := 4

/-- `VFS_F_OPEN`. -/
def vfsFOpen : BitVec 32 := 0x100

/-- `VFS_F_DIRECTORY`. -/
def vfsFDirectory : BitVec 32 := 0x200

/-- What the `data` of a descriptor points to. -/
inductive VoidPtr where
  | filesystem (fs : Nat)
  | other (addr : Nat)
  deriving DecidableEq

/-- `struct sk_vfs_fd`, the fields that describe the file. -/
structure VfsFile where
  type : BitVec 16
  path : Option CString
  fs : Option Nat
  fops : Option Nat
  flag : BitVec 32
  size : Nat
  pos : Nat
  data : Option VoidPtr
  deriving DecidableEq

/-- `struct sk_vfs_file_ops`, the operations that are called here. They may change the
    descriptor. -/
structure VfsFileOps where
  openFile : Option (VfsFile → Int × VfsFile)
  closeFile : Option (VfsFile → Int × VfsFile)

/-- `struct sk_vfs_filesystem_ops`, the operations that are called here. -/
structure VfsFilesystemOps where
  fops : Option Nat
  unlink : Option (Nat → CString → Int)

/-- `struct sk_vfs_filesystem`, the mount point and the operations. -/
structure VfsFilesystem where
  path : Option CString
  ops : Option VfsFilesystemOps

/-- The loop of `sk_vfs_filesystem_lookup`, from the entry `i` on. -/
def lookupLoop (path : CString) : List VfsFilesystem → Nat → Option (Option Nat)
  | [], _ => some none
  | iter :: rest, i =>
    match iter.path, iter.ops with
    | some mount, some _ => do
      let len ← skStrlen mount.bytes
      let ret ← skStrcmpArray mount.bytes path.bytes len
      if ret = 0 then some (some i) else lookupLoop path rest (i + 1)
    | _, _ => lookupLoop path rest (i + 1)

/-- `sk_vfs_filesystem_lookup`. -/
def skVfsFilesystemLookup (fileSystem : List VfsFilesystem) (path : CString) :
    Option (Option Nat) :=
  lookupLoop path fileSystem 0

/-- The loop of `sk_fd_is_open` over the descriptors. -/
def isOpenLoop (fs : Nat) (path : CString) : List VfsFile → Option Int
  | [] => some (-1)
  | fd :: rest =>
    match fd.fops, fd.path with
    | some _, some fdPath =>
      if fd.fs = some fs then do
        let len ← skStrlen fdPath.bytes
        let ret ← skStrcmpArray fdPath.bytes path.bytes len
        if ret ≠ 0 then some 0 else isOpenLoop fs path rest
      else isOpenLoop fs path rest
    | _, _ => isOpenLoop fs path rest

/-- `sk_fd_is_open`, with the descriptors of `fd_tab`. -/
def skFdIsOpen (fileSystem : List VfsFilesystem) (fds : List VfsFile) (path : CString) :
    Option Int := do
  match ← skVfsFilesystemLookup fileSystem path with
  | none => some (-1)
  | some fs => isOpenLoop fs path fds

/-- `sk_vfs_file_unlink`: the return value, and the calls of the driver. -/
def skVfsFileUnlink (fileSystem : List VfsFilesystem) (fds : List VfsFile) (path : CString) :
    Option (Int × List (Nat × CString)) := do
  match ← skVfsFilesystemLookup fileSystem path with
  | none => some (SkErr.einval.code, [])
  | some fs => do
    if (← skFdIsOpen fileSystem fds path) = 0 then some (skEbusy, [])
    else do
      let entry ← fileSystem[fs]?
      let ops ← entry.ops
      -- `!fs->ops->unlink != SK_NULL` is true if there is no function
      if ops.unlink.isNone then do
        let unlink ← ops.unlink
        some (unlink fs path, [(fs, path)])
      else some (SkErr.error.code, [])

/-- The return value, the descriptor if there is one, and the addresses given to `sk_free`. -/
structure FileCallEnd where
  ret : Int
  fd : Option VfsFile
  freed : List Nat
  deriving DecidableEq

/-- `sk_free(path)`, which does nothing with `SK_NULL`: the address that is freed. -/
def freePath (path : Option CString) : List Nat :=
  (path.map (·.addr)).toList

/-- `sk_vfs_file_open`, the descriptor before the driver is called. -/
def initFd (fs : Nat) (fops : Option Nat) (path : CString) (flag : BitVec 32) : VfsFile where
  fs := some fs
  fops := fops
  type := ftRegular
  flag := flag
  size := 0
  pos := 0
  data := some (.filesystem fs)
  path := some path

/-- `sk_vfs_file_open`, when the driver could not open the file. -/
def openFailed (fd : VfsFile) : FileCallEnd where
  ret := SkErr.error.code
  fd := some { fd with path := none }
  freed := freePath fd.path

/-- `sk_vfs_file_open`, when the driver has opened the file. -/
def openDone (fd : VfsFile) (flag : BitVec 32) : FileCallEnd where
  ret := 0
  fd :=
    let fd := { fd with flag := fd.flag ||| vfsFOpen }
    if flag &&& vfsFDirectory ≠ 0 then
      some { fd with type := ftDirectory, flag := fd.flag ||| vfsFDirectory }
    else some fd
  freed := []

/-- `sk_vfs_file_open`. -/
def skVfsFileOpen (fileSystem : List VfsFilesystem) (drivers : Nat → VfsFileOps)
    (fd : Option VfsFile) (path : CString) (flag : BitVec 32) : Option FileCallEnd :=
  match fd with
  | none => some { ret := SkErr.einval.code, fd := none, freed := [] }
  | some before => do
    match ← skVfsFilesystemLookup fileSystem path with
    | none => some { ret := SkErr.error.code, fd := some before, freed := [] }
    | some fs => do
      let entry ← fileSystem[fs]?
      let ops ← entry.ops
      let fops ← ops.fops
      let fd := initFd fs ops.fops path flag
      match (drivers fops).openFile with
      | none => some (openFailed fd)
      | some openFile =>
        let (ret, fd) := openFile fd
        if ret < 0 then some (openFailed fd) else some (openDone fd flag)

/-- `sk_vfs_file_close`. -/
def skVfsFileClose (drivers : Nat → VfsFileOps) (fd : Option VfsFile) : Option FileCallEnd :=
  match fd with
  | none => some { ret := SkErr.einval.code, fd := none, freed := [] }
  | some before => do
    let fops ← before.fops
    let (ret, fd) :=
      match (drivers fops).closeFile with
      | some closeFile => closeFile before
      | none => (0, before)
    if ret < 0 then some { ret := ret, fd := some fd, freed := [] }
    else some { ret := ret, fd := some { fd with path := none }, freed := freePath fd.path }

end SKernel.Native
