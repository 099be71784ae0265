import SKernel.Native.VfsFile
import SKernel.Spec.StringOps

/-!
# Which file system a path belongs to

A path belongs to the file system with the longest mount point that leads to it: one that is a
prefix of the path and ends where a component of the path ends. `sk_vfs_filesystem_lookup` takes the
first mount point in the table that is a prefix of the path as a string.
-/

namespace SKernel.Spec

open SKernel.Native

/-- The mount point of an entry of the table that is in use. -/
def mountPoint (fs : VfsFilesystem) : Option (List UInt8) :=
  match fs.path, fs.ops with
  | some mount, some _ => some mount.text
  | _, _ => none

/-- The mount point is a prefix of the path that ends at a component: at the end of the path, or in
    front of or behind a slash. -/
def Covers (mount path : List UInt8) : Prop :=
  mount <+: path ∧
    (mount.length = path.length ∨ path[mount.length]? = some 0x2f ∨ mount.getLast? = some 0x2f)

instance (mount path : List UInt8) : Decidable (Covers mount path) := by
  unfold Covers
  infer_instance

/-- The entry `i` is mounted on the path, and no mount point on the path is longer. -/
def LongestMount (fileSystem : List VfsFilesystem) (path : List UInt8) (i : Nat) : Prop :=
  ∃ fs mount, fileSystem[i]? = some fs ∧ mountPoint fs = some mount ∧ Covers mount path ∧
    ∀ fs' ∈ fileSystem, ∀ mount' ∈ mountPoint fs', Covers mount' path →
      mount'.length ≤ mount.length

/-- What the lookup is for. -/
def LookupRight (fileSystem : List VfsFilesystem) (path : List UInt8) : Option Nat → Prop
  | some i => LongestMount fileSystem path i
  | none => ∀ fs ∈ fileSystem, ∀ mount ∈ mountPoint fs, ¬Covers mount path

/-- The entry is in use, and its mount point is a prefix of the path. -/
def MountsPrefix (path : List UInt8) (fs : VfsFilesystem) : Prop :=
  ∃ mount ∈ mountPoint fs, mount <+: path

instance (path : List UInt8) : DecidablePred (MountsPrefix path) := fun fs =>
  inferInstanceAs (Decidable (∃ mount ∈ mountPoint fs, mount <+: path))

theorem lookupLoop_cons (path : CString) (iter : VfsFilesystem) (rest : List VfsFilesystem)
    (i : Nat) :
    lookupLoop path (iter :: rest) i =
      if MountsPrefix path.text iter then some (some i) else lookupLoop path rest (i + 1) := by
  obtain ⟨fsPath, fsOps⟩ := iter
  cases fsPath with
  | none => simp [lookupLoop, MountsPrefix, mountPoint]
  | some mount =>
    cases fsOps with
    | none => simp [lookupLoop, MountsPrefix, mountPoint]
    | some ops =>
      obtain ⟨len, ret, hlen, hret, hzero⟩ := skStrcmpArray_prefix mount path
      simp [lookupLoop, MountsPrefix, mountPoint, hlen, hret, hzero]

theorem lookupLoop_eq (path : CString) (fileSystem : List VfsFilesystem) (i : Nat) :
    lookupLoop path fileSystem i =
      some ((fileSystem.findIdx? (MountsPrefix path.text ·)).map (· + i)) := by
  induction fileSystem generalizing i with
  | nil => rfl
  | cons iter rest ih =>
    rw [lookupLoop_cons, List.findIdx?_cons]
    by_cases hmatch : MountsPrefix path.text iter
    · simp [hmatch]
    · simp [hmatch, ih, Function.comp_def, Nat.add_comm, Nat.add_left_comm]

theorem skVfsFilesystemLookup_eq (fileSystem : List VfsFilesystem) (path : CString) :
    skVfsFilesystemLookup fileSystem path =
      some (fileSystem.findIdx? (MountsPrefix path.text ·)) := by
  rw [skVfsFilesystemLookup, lookupLoop_eq]
  simp

/-- **The lookup is right exactly if the first mount point that is a prefix of the path, when there
    is one, ends at a boundary of the path and is the longest that does.** -/
theorem lookup_right_iff (fileSystem : List VfsFilesystem) (path : CString) :
    (∃ r, skVfsFilesystemLookup fileSystem path = some r ∧
        LookupRight fileSystem path.text r) ↔
      ∀ i, fileSystem.findIdx? (MountsPrefix path.text ·) = some i →
        LongestMount fileSystem path.text i := by
  rw [skVfsFilesystemLookup_eq]
  cases hfind : fileSystem.findIdx? (MountsPrefix path.text ·) with
  | some i =>
    simp only [Option.some.injEq, exists_eq_left', LookupRight]
    constructor
    · rintro hlongest j rfl
      exact hlongest
    · intro h
      exact h i rfl
  | none =>
    -- a mount point that covers the path is a prefix of it
    have hnone : ∀ fs ∈ fileSystem, ∀ mount ∈ mountPoint fs, ¬Covers mount path.text := by
      intro fs hfs mount hmount hcovers
      have hno := List.findIdx?_eq_none_iff.mp hfind fs hfs
      exact of_decide_eq_false hno ⟨mount, hmount, hcovers.1⟩
    constructor
    · intro _ i hi
      cases hi
    · intro _
      exact ⟨none, rfl, hnone⟩

/-- "/". -/
def rootPath : CString where
  addr := 100
  bytes := [0x2f, 0]
  terminated := by decide

/-- "/mnt". -/
def mntPath : CString where
  addr := 200
  bytes := [0x2f, 0x6d, 0x6e, 0x74, 0]
  terminated := by decide

/-- "/mnt/a". -/
def filePath : CString where
  addr := 300
  bytes := [0x2f, 0x6d, 0x6e, 0x74, 0x2f, 0x61, 0]
  terminated := by decide

/-- File systems on "/" and on "/mnt", in this order. -/
def nestedMounts : List VfsFilesystem :=
  [{ path := some rootPath, ops := some { fops := none, unlink := none } },
    { path := some mntPath, ops := some { fops := none, unlink := none } },
    { path := none, ops := none }]

/-- "/mnt/a" is on the file system of "/mnt", but that of "/" is found. -/
theorem lookup_finds_outer_mount :
    skVfsFilesystemLookup nestedMounts filePath = some (some 0) ∧
      ¬LookupRight nestedMounts filePath.text (some 0) := by
  refine ⟨by decide, ?_⟩
  rintro ⟨fs, mount, hfs, hmount, -, hmax⟩
  cases hfs
  cases hmount
  have hlonger := hmax { path := some mntPath, ops := some { fops := none, unlink := none } }
    (by simp [nestedMounts]) mntPath.text rfl (by decide)
  exact absurd hlonger (by decide)

end SKernel.Spec
