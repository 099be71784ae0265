import SKernel.Spec.MountLookup

/-!
# Opening and removing files

A file that is open must not be removed, and an attempt to open a file that fails must leave no
trace. Neither holds: `sk_fd_is_open` looks for a descriptor with another path, `sk_vfs_file_unlink`
calls the driver's function if there is none, and `sk_vfs_file_open` has overwritten the descriptor
when the driver fails, and frees the path that its caller gave it.

## Key results

- `unlink_right_iff`: when `sk_vfs_file_unlink` does what it should
- `failed_open_clean_iff`: when a failed open leaves no trace
-/

namespace SKernel.Spec

open SKernel.Native Option

/-! ## Open files -/

/-- Some descriptor of the file system has the path. -/
def FileOpen (fds : List VfsFile) (fs : Nat) (path : List UInt8) : Prop :=
  ∃ fd ∈ fds, fd.fs = some fs ∧ ∃ fdPath ∈ fd.path, fdPath.text = path

/-- A descriptor in use, of the file system, whose path is not a prefix of the given one. -/
def OtherFile (fs : Nat) (path : List UInt8) (fd : VfsFile) : Prop :=
  fd.fops.isSome ∧ fd.fs = some fs ∧ ∃ fdPath ∈ fd.path, ¬fdPath.text <+: path

instance (fs : Nat) (path : List UInt8) : DecidablePred (OtherFile fs path) := fun fd =>
  inferInstanceAs (Decidable (fd.fops.isSome ∧ fd.fs = some fs ∧ ∃ fdPath ∈ fd.path, ¬_))

/-- Only as many bytes as the path of the descriptor has are compared, so a prefix passes. -/
private theorem isOpenLoop_cons (fs : Nat) (path : CString) (fd : VfsFile) (rest : List VfsFile) :
    isOpenLoop fs path (fd :: rest) =
      if OtherFile fs path.text fd then some 0 else isOpenLoop fs path rest := by
  obtain ⟨_, fdPath, fdFs, fops, _, _, _, _⟩ := fd
  cases fops with
  | none => simp [isOpenLoop, OtherFile]
  | some fops =>
    cases fdPath with
    | none => simp [isOpenLoop, OtherFile]
    | some fdPath =>
      obtain ⟨len, ret, hlen, hret, hzero⟩ := skStrcmpArray_prefix fdPath path
      by_cases hfs : fdFs = some fs
      · simp [isOpenLoop, OtherFile, hfs, hlen, hret, hzero]
      · simp [isOpenLoop, OtherFile, hfs]

/-- The loop stops at the first descriptor with another path. -/
private theorem isOpenLoop_eq (fs : Nat) (path : CString) (fds : List VfsFile) :
    isOpenLoop fs path fds =
      if ∃ fd ∈ fds, OtherFile fs path.text fd then some 0 else some (-1) := by
  induction fds with
  | nil => simp [isOpenLoop]
  | cons fd rest ih =>
    rw [isOpenLoop_cons, ih]
    by_cases hfd : OtherFile fs path.text fd
    · simp [hfd]
    · simp [hfd]

section Unlink

variable {fileSystem : List VfsFilesystem} {fds : List VfsFile} {path : CString} {fs : Nat}
variable {before fd : VfsFile} {flag : BitVec 32} {r : FileCallEnd}

variable (h : skVfsFilesystemLookup fileSystem path = some (some fs))
include h

/-- Only a file system that is mounted is found. -/
private theorem exists_ops_of_lookup :
    ∃ entry ops, fileSystem[fs]? = some entry ∧ entry.ops = some ops := by
  rw [skVfsFilesystemLookup_eq, some_inj, List.findIdx?_eq_some_iff_getElem] at h
  obtain ⟨hlt, hmatch, -⟩ := h
  obtain ⟨mount, hmount, -⟩ := of_decide_eq_true hmatch
  cases hops : fileSystem[fs].ops with
  | some ops => exact ⟨_, ops, List.getElem?_eq_getElem hlt, hops⟩
  | none =>
    rw [mountPoint, hops] at hmount
    simp at hmount

/-- `sk_fd_is_open` says yes if another file is open. -/
private theorem skFdIsOpen_eq :
    skFdIsOpen fileSystem fds path =
      if ∃ fd ∈ fds, OtherFile fs path.text fd then some 0 else some (-1) := by
  simp only [skFdIsOpen, h, bind_eq_bind, bind_some, isOpenLoop_eq]

/-- While another file is open, nothing is removed. -/
private theorem skVfsFileUnlink_busy (hother : ∃ fd ∈ fds, OtherFile fs path.text fd) :
    skVfsFileUnlink fileSystem fds path = some (skEbusy, []) := by
  simp only [skVfsFileUnlink, h, skFdIsOpen_eq h, if_pos hother, bind_eq_bind,
    bind_some, if_true]

/-- Otherwise the driver is called if it has no function for it. -/
private theorem skVfsFileUnlink_free (hother : ¬∃ fd ∈ fds, OtherFile fs path.text fd)
    {entry : VfsFilesystem} {ops : VfsFilesystemOps} (hentry : fileSystem[fs]? = some entry)
    (hops : entry.ops = some ops) :
    skVfsFileUnlink fileSystem fds path =
      if ops.unlink.isSome then some (SkErr.error.code, []) else none := by
  simp only [skVfsFileUnlink, h, skFdIsOpen_eq h, if_neg hother, hentry, hops,
    bind_eq_bind, bind_some]
  cases ops.unlink with
  | none => rfl
  | some unlink => rfl

end Unlink

/-- Removing a file is refused while it is open, and otherwise left to the driver, if it can do
    it. -/
structure UnlinkRight (fileSystem : List VfsFilesystem) (fds : List VfsFile) (path : CString)
    (fs : Nat) : Prop where
  isOpen_iff : skFdIsOpen fileSystem fds path = some 0 ↔ FileOpen fds fs path.text
  busy : FileOpen fds fs path.text → skVfsFileUnlink fileSystem fds path = some (skEbusy, [])
  removed : ¬FileOpen fds fs path.text → ∀ entry ops, fileSystem[fs]? = some entry →
    entry.ops = some ops → ops.unlink.isSome →
      ∃ ret, skVfsFileUnlink fileSystem fds path = some (ret, [(fs, path)])
  missing : ¬FileOpen fds fs path.text → ∀ entry ops, fileSystem[fs]? = some entry →
    entry.ops = some ops → ops.unlink = none →
      skVfsFileUnlink fileSystem fds path = some (SkErr.error.code, [])

/-- **Removing a file is right exactly if it is open, and so is another file of the file system
    whose path is not a prefix of the path.** -/
theorem unlink_right_iff (fileSystem : List VfsFilesystem) (fds : List VfsFile) (path : CString)
    (fs : Nat) (hlookup : skVfsFilesystemLookup fileSystem path = some (some fs)) :
    UnlinkRight fileSystem fds path fs ↔
      FileOpen fds fs path.text ∧ ∃ fd ∈ fds, OtherFile fs path.text fd := by
  obtain ⟨entry, ops, hentry, hops⟩ := exists_ops_of_lookup hlookup
  constructor
  · intro hright
    by_cases hopen : FileOpen fds fs path.text
    · refine ⟨hopen, ?_⟩
      by_contra hother
      have hfound := hright.isOpen_iff.mpr hopen
      rw [skFdIsOpen_eq hlookup, if_neg hother] at hfound
      cases hfound
    · -- no result is right for a file that is not open
      exfalso
      by_cases hother : ∃ fd ∈ fds, OtherFile fs path.text fd
      · exact hopen (hright.isOpen_iff.mp (by rw [skFdIsOpen_eq hlookup, if_pos hother]))
      · have hfree := skVfsFileUnlink_free hlookup hother hentry hops
        cases hunlink : ops.unlink with
        | some unlink =>
          obtain ⟨ret, hcall⟩ := hright.removed hopen entry ops hentry hops (by rw [hunlink]; rfl)
          rw [hfree, hunlink] at hcall
          simp at hcall
        | none =>
          have herror := hright.missing hopen entry ops hentry hops hunlink
          rw [hfree, hunlink] at herror
          simp at herror
  · rintro ⟨hopen, hother⟩
    exact
      { isOpen_iff := by simp [skFdIsOpen_eq hlookup, hother, hopen]
        busy := fun _ => skVfsFileUnlink_busy hlookup hother
        removed := fun h => absurd hopen h
        missing := fun h => absurd hopen h }

/-- A descriptor that describes no file. -/
def clearedFile : VfsFile where
  type := 0
  path := none
  fs := none
  fops := none
  flag := 0
  size := 0
  pos := 0
  data := none

/-- The file "/mnt/a" of the first file system is open. -/
def openedFile : VfsFile :=
  { clearedFile with path := some filePath, fs := some 0, fops := some 0 }

/-- A file system on "/", with or without a function that removes files. -/
def rootMount (unlink : Option (Nat → CString → Int)) : List VfsFilesystem :=
  [{ path := some rootPath, ops := some { fops := some 0, unlink := unlink } },
    { path := none, ops := none }, { path := none, ops := none }]

/-- With "/" and "/mnt/a" open, "/" is not removed, as it should be. -/
theorem unlink_right_iff_open :
    UnlinkRight (rootMount (some fun _ _ => 0))
      [openedFile, { openedFile with path := some rootPath }] rootPath 0 := by
  refine (unlink_right_iff _ _ rootPath 0 (by decide)).mpr ⟨?_, openedFile, ?_, by decide⟩
  · exact ⟨{ openedFile with path := some rootPath }, by simp, rfl, rootPath, rfl, rfl⟩
  · exact List.mem_cons_self

/-- With no file open, the function of the driver is not called, and if there is none it is. With
    the file open, `sk_fd_is_open` does not find it. -/
theorem unlink_wrong_way_round :
    skVfsFileUnlink (rootMount (some fun _ _ => 0)) [clearedFile] filePath =
        some (SkErr.error.code, []) ∧
      skVfsFileUnlink (rootMount none) [clearedFile] filePath = none ∧
      skFdIsOpen (rootMount none) [openedFile] filePath = some (-1) := by
  decide +kernel

/-! ## Opening a file -/

/-- The descriptor as the driver leaves it, if it is called. -/
def afterDriver (fileSystem : List VfsFilesystem) (drivers : Nat → VfsFileOps) (path : CString)
    (flag : BitVec 32) : Option VfsFile := do
  let fs ← (skVfsFilesystemLookup fileSystem path).join
  let entry ← fileSystem[fs]?
  let ops ← entry.ops
  let fops ← ops.fops
  let openFile ← (drivers fops).openFile
  some (openFile (initFd fs ops.fops path flag)).2

/-- The open fails before the lookup, behind it, or in the driver, or it succeeds. -/
private theorem skVfsFileOpen_cases {fileSystem : List VfsFilesystem} {drivers : Nat → VfsFileOps}
    (h : skVfsFileOpen fileSystem drivers (some before) path flag = some r) :
    (skVfsFilesystemLookup fileSystem path = some none ∧
        r = { ret := SkErr.error.code, fd := some before, freed := [] }) ∨
      ∃ fs, skVfsFilesystemLookup fileSystem path = some (some fs) ∧
        ((∃ fd, afterDriver fileSystem drivers path flag = none ∧ fd.path = some path ∧
            r = openFailed fd) ∨
          ∃ fd, afterDriver fileSystem drivers path flag = some fd ∧
            (r = openFailed fd ∨ r = openDone fd flag)) := by
  simp only [skVfsFileOpen, bind_eq_bind] at h
  obtain ⟨found, hlookup, h⟩ := bind_eq_some_iff.mp h
  cases found with
  | none => exact .inl ⟨hlookup, (some.inj h).symm⟩
  | some fs =>
    refine .inr ⟨fs, hlookup, ?_⟩
    obtain ⟨entry, hentry, h⟩ := bind_eq_some_iff.mp h
    obtain ⟨ops, hops, h⟩ := bind_eq_some_iff.mp h
    obtain ⟨fops, hfops, h⟩ := bind_eq_some_iff.mp h
    simp only [afterDriver, hlookup, join_some, hentry, hops, hfops, bind_eq_bind,
      bind_some]
    cases hopen : (drivers fops).openFile with
    | none =>
      rw [hopen] at h
      exact .inl ⟨_, rfl, rfl, (some.inj h).symm⟩
    | some =>
      simp only [hopen, hfops] at h
      refine .inr ⟨_, rfl, ?_⟩
      split at h
      · exact .inl (some.inj h).symm
      · exact .inr (some.inj h).symm

/-- The driver has to leave the descriptor without a path. -/
private theorem openFailed_clean_iff :
    ((openFailed fd).freed = [] ∧ (openFailed fd).fd = some before) ↔
      fd = before ∧ before.path = none := by
  have hfreed : (openFailed fd).freed = [] ↔ fd.path = none := by
    simp [openFailed, freePath]
  have hsame : fd.path = none → (openFailed fd).fd = some fd := by
    intro hpath
    rw [openFailed, ← hpath]
  rw [hfreed]
  constructor
  · rintro ⟨hpath, hfd⟩
    rw [hsame hpath, some_inj] at hfd
    subst hfd
    exact ⟨rfl, hpath⟩
  · rintro ⟨rfl, hpath⟩
    exact ⟨hpath, hsame hpath⟩

/-- **An attempt to open a file that fails is clean exactly if it fails before the file system is
    found, or the driver puts a descriptor without a path back as it was.** -/
theorem failed_open_clean_iff (fileSystem : List VfsFilesystem) (drivers : Nat → VfsFileOps)
    (fd : Option VfsFile) (path : CString) (flag : BitVec 32) (r : FileCallEnd)
    (hopen : skVfsFileOpen fileSystem drivers fd path flag = some r) (herror : r.ret < 0) :
    (r.freed = [] ∧ r.fd = fd) ↔
      fd = none ∨ skVfsFilesystemLookup fileSystem path = some none ∨
        ∃ before, fd = some before ∧ before.path = none ∧
          afterDriver fileSystem drivers path flag = some before := by
  cases fd with
  | none =>
    cases hopen
    simp
  | some before =>
    rcases skVfsFileOpen_cases hopen with ⟨hlookup, rfl⟩ | ⟨fs, hlookup, hend⟩
    · simp [hlookup]
    rcases hend with ⟨fd, hdriver, hpath, rfl⟩ | ⟨fd, hdriver, rfl | rfl⟩
    · -- there is no function, and the path is the caller's
      rw [openFailed_clean_iff]
      constructor
      · rintro ⟨rfl, hnone⟩
        rw [hpath] at hnone
        cases hnone
      · simp [hlookup, hdriver]
    · rw [openFailed_clean_iff]
      simp [hlookup, hdriver, and_comm]
    · exact absurd herror (lt_irrefl 0)

/-- A driver that fails and clears the descriptor leaves no trace. -/
theorem failed_open_clean_iff_cleared :
    ∃ r, skVfsFileOpen (rootMount none)
        (fun _ => { openFile := some fun _ => (-1, clearedFile), closeFile := none })
        (some clearedFile) filePath 0 = some r ∧ r.freed = [] ∧ r.fd = some clearedFile :=
  ⟨_, rfl, (failed_open_clean_iff (rootMount none)
    (fun _ => { openFile := some fun _ => (-1, clearedFile), closeFile := none })
    (some clearedFile) filePath 0 _ rfl (by decide)).mpr
      (.inr (.inr ⟨clearedFile, rfl, rfl, rfl⟩))⟩

/-- The driver has no function to open files: the path of the caller is freed, and the descriptor
    says that it belongs to the file system. -/
theorem failed_open_frees_path :
    (skVfsFileOpen (rootMount none) (fun _ => { openFile := none, closeFile := none })
        (some clearedFile) filePath 0).map (fun r => (r.ret, r.freed, r.fd.map (·.fs))) =
      some (SkErr.error.code, [filePath.addr], some (some 0)) := by
  decide +kernel

/-! ## Closing a file -/

section Close

variable {drivers : Nat → VfsFileOps}
  (hkeeps : ∀ fops f fd, (drivers fops).openFile = some f ∨ (drivers fops).closeFile = some f →
    (f fd).2.path = fd.path)
include hkeeps

variable {fileSystem : List VfsFilesystem}

/-- The driver gets the descriptor with the path of the caller. -/
private theorem path_afterDriver (h : afterDriver fileSystem drivers path flag = some fd) :
    fd.path = some path := by
  simp only [afterDriver, bind_eq_bind, bind_eq_some_iff] at h
  obtain ⟨fs, -, entry, -, ops, -, fops, -, openFile, hopen, hfd⟩ := h
  rw [← some.inj hfd, hkeeps fops openFile _ (.inl hopen)]
  rfl

/-- A close frees the path of the descriptor. -/
private theorem freed_skVfsFileClose (h : skVfsFileClose drivers (some fd) = some r)
    (hret : 0 ≤ r.ret) :
    r.freed = freePath fd.path := by
  simp only [skVfsFileClose, bind_eq_bind] at h
  obtain ⟨fops, -, h⟩ := bind_eq_some_iff.mp h
  cases hclose : (drivers fops).closeFile with
  | none =>
    simp only [hclose] at h
    cases h
    rfl
  | some closeFile =>
    simp only [hclose] at h
    split at h
    · rename_i hneg
      cases h
      exact absurd hret (not_le.mpr hneg)
    · cases h
      exact congrArg freePath (hkeeps fops closeFile fd (.inr hclose))

/-- A path that has been opened is freed when it is closed. -/
theorem close_frees_path {r' : FileCallEnd}
    (hopen : skVfsFileOpen fileSystem drivers (some before) path flag = some r) (hret : r.ret = 0)
    (hclose : skVfsFileClose drivers r.fd = some r') (hret' : 0 ≤ r'.ret) :
    r'.freed = [path.addr] := by
  rcases skVfsFileOpen_cases hopen with ⟨-, rfl⟩ | ⟨fs, -, hend⟩
  · cases hret
  rcases hend with ⟨fd, -, -, rfl⟩ | ⟨fd, hdriver, rfl | rfl⟩
  · cases hret
  · cases hret
  -- the flags and the type are set, and the path is not touched
  have hpath := path_afterDriver hkeeps hdriver
  have hdone : ∃ fd', (openDone fd flag).fd = some fd' ∧ fd'.path = some path := by
    simp only [openDone]
    split
    · exact ⟨_, rfl, hpath⟩
    · exact ⟨_, rfl, hpath⟩
  obtain ⟨fd', hfd, hpath'⟩ := hdone
  rw [hfd] at hclose
  rw [freed_skVfsFileClose hkeeps hclose hret', hpath']
  rfl

end Close

end SKernel.Spec
