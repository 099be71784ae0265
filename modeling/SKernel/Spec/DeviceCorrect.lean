import SKernel.ForStd.Simulation
import SKernel.Native.Device

/-!
# The open count of a device

A registered device is opened and closed, with a driver whose operations return anything. The
calls that have returned `SK_EOK` are counted. `ref_cnt` is meant to be the number of opens less
the number of closes, and the device is meant to be open while this number is positive.

`ref_cnt` is eight bits wide, so 256 opens are too many; and `sk_device_close` counts down before
it calls the driver, so a last close that the driver refuses leaves the device marked as open
with a `ref_cnt` of 0. A device registered with the flag `SK_DEVICE_FLAG_OPEN` is marked as open
from the start.
-/

namespace SKernel.Spec

open Native

variable {σ : Type*} {r : Int × Device × σ} {fuel obj : Nat} {op : DeviceOp}

/-! ## The system -/

/-- A device with its object header and its driver, and the opens and closes that have returned
    `SK_EOK`. -/
structure DeviceSys (σ : Type*) where
  parent : Object
  dev : Device
  driver : σ
  opens : Nat
  closes : Nat

inductive DeviceOp where
  | openDevice (flag : BitVec 16)
  | closeDevice

/-- The objects on a list have the type of the list. -/
def ObjectsTyped (o : Objects) : Prop :=
  ∀ type n obj, o.links.next^[n + 1] (.objList type) = .list obj → (o.obj obj).type = some type

/-- The driver's `init`, if it is called, and `open` return `SK_EOK`. -/
def DriverAccepts (ops : DeviceOps σ) (dev : Device) (flag : BitVec 16) (s : σ) : Prop :=
  let r := if dev.flag &&& deviceFlagActivated = 0 then skDeviceInit ops dev s
    else (SkErr.eok.code, dev, s)
  r.1 = SkErr.eok.code ∧ (deviceOpenOp ops r.2.1 flag r.2.2).1 = SkErr.eok.code

instance (ops : DeviceOps σ) (dev : Device) (flag : BitVec 16) (s : σ) :
    Decidable (DriverAccepts ops dev flag s) :=
  inferInstanceAs (Decidable ((_ : Int) = _ ∧ (_ : Int) = _))

/-- The driver's operation `op` is reached if `reaches` holds; otherwise 0 is returned. -/
def ReachesDriver (op : Option (Device → Nat → Nat → Nat → σ → Nat × σ)) (dev : Device)
    (transfer : Nat → Nat → Nat → σ → Nat × σ) (reaches : Prop) : Prop :=
  ∀ f, op = some f → ∀ pos buf size s,
    (reaches → transfer pos buf size s = f dev pos buf size s) ∧
    (¬reaches → transfer pos buf size s = (0, s))

namespace DeviceSys

/-- The return value of a call, the device and the state of the driver. -/
def call (ops : DeviceOps σ) (x : DeviceSys σ) : DeviceOp → Int × Device × σ
  | .openDevice flag => skDeviceOpen ops x.parent x.dev flag x.driver
  | .closeDevice => skDeviceClose ops x.parent x.dev x.driver

/-- The state after a call. -/
def step (ops : DeviceOps σ) (x : DeviceSys σ) (op : DeviceOp) : Option (DeviceSys σ) :=
  let r := x.call ops op
  let y := { x with dev := r.2.1, driver := r.2.2 }
  if r.1 = SkErr.eok.code then
    match op with
    | .openDevice _ => some { y with opens := x.opens + 1 }
    | .closeDevice => some { y with closes := x.closes + 1 }
  else some y

/-- No accepted open at `ref_cnt` 255, and no last close that the driver refuses. -/
def Sound (ops : DeviceOps σ) (x : DeviceSys σ) : DeviceOp → Prop
  | .openDevice flag => x.dev.refCnt = 255 → ¬DriverAccepts ops x.dev flag x.driver
  | .closeDevice => x.dev.refCnt = 1 →
    (deviceCloseOp ops { x.dev with refCnt := 0 } x.driver).1 = SkErr.eok.code

instance (ops : DeviceOps σ) (x : DeviceSys σ) (op : DeviceOp) : Decidable (x.Sound ops op) :=
  match op with
  | .openDevice flag => inferInstanceAs (Decidable (_ = _ → ¬DriverAccepts ops x.dev flag x.driver))
  | .closeDevice => inferInstanceAs (Decidable (_ = _ → (_ : Int) = _))

/-- The successful opens less the successful closes. -/
def openCount (x : DeviceSys σ) : Int := x.opens - x.closes

/-- `ref_cnt`, the flag and the calls that need an open device agree with the count. -/
structure Counted (ops : DeviceOps σ) (x : DeviceSys σ) : Prop where
  count : (x.dev.refCnt.toNat : Int) = x.openCount
  flag : x.dev.flag &&& deviceFlagOpen ≠ 0 ↔ 0 < x.openCount
  read : ReachesDriver ops.read x.dev (skDeviceRead ops x.parent x.dev) (0 < x.openCount)
  write : ReachesDriver ops.write x.dev (skDeviceWrite ops x.parent x.dev) (0 < x.openCount)

/-- A call that returns an error leaves `ref_cnt` and the flag alone. -/
def ErrorKeeps (ops : DeviceOps σ) (x : DeviceSys σ) (op : DeviceOp) : Prop :=
  (x.call ops op).1 ≠ SkErr.eok.code →
    (x.call ops op).2.1.refCnt = x.dev.refCnt ∧
    (x.call ops op).2.1.flag &&& deviceFlagOpen = x.dev.flag &&& deviceFlagOpen

end DeviceSys

/-- The calls on a device after it has been registered with `flag`. -/
def deviceSystem (ops : DeviceOps σ) (flag : BitVec 16) :
    TransitionSystem (DeviceSys σ) DeviceOp where
  init x := x.opens = 0 ∧ x.closes = 0 ∧ ∃ fuel o addr dev name o', ObjectsTyped o ∧
    skDeviceRegister fuel o addr dev name flag = some (.eok, o', x.dev) ∧ x.parent = o'.obj addr
  step := DeviceSys.step ops

/-! ## The calls -/

variable {ops : DeviceOps σ} {dev : Device} {s : σ} {flag : BitVec 16} {parent : Object}

private theorem activated_and_open (f : BitVec 16) :
    (f ||| deviceFlagActivated) &&& deviceFlagOpen = f &&& deviceFlagOpen := by
  have h : deviceFlagActivated &&& deviceFlagOpen = 0 := by decide
  rw [BitVec.and_or_distrib_right, h]
  simp

private theorem or_open_and_open (f : BitVec 16) :
    (f ||| deviceFlagOpen) &&& deviceFlagOpen = deviceFlagOpen := by
  ext i hi
  simp only [BitVec.getElem_and, BitVec.getElem_or]
  cases deviceFlagOpen[i] <;> simp

private theorem skDeviceInit_spec (ops : DeviceOps σ) (dev : Device) (s : σ) :
    (skDeviceInit ops dev s).2.1.refCnt = dev.refCnt ∧
      (skDeviceInit ops dev s).2.1.flag &&& deviceFlagOpen = dev.flag &&& deviceFlagOpen := by
  unfold skDeviceInit
  split
  · exact ⟨rfl, rfl⟩
  · split
    · exact ⟨rfl, rfl⟩
    · dsimp only
      split
      · exact ⟨rfl, activated_and_open dev.flag⟩
      · exact ⟨rfl, rfl⟩

private theorem skDeviceOpen_spec (hparent : parent.type = some .device)
    (hr : skDeviceOpen ops parent dev flag s = r) :
    (DriverAccepts ops dev flag s ∧ r.1 = SkErr.eok.code ∧ r.2.1.refCnt = dev.refCnt + 1 ∧
      r.2.1.flag &&& deviceFlagOpen = deviceFlagOpen) ∨
    (¬DriverAccepts ops dev flag s ∧ r.1 ≠ SkErr.eok.code ∧ r.2.1.refCnt = dev.refCnt ∧
      r.2.1.flag &&& deviceFlagOpen = dev.flag &&& deviceFlagOpen) := by
  subst hr
  unfold skDeviceOpen DriverAccepts
  rw [if_neg (not_not.mpr hparent)]
  -- whether or not the device is activated first, it is as open as before
  have hinit : ∀ r1 : Int × Device × σ,
      (if dev.flag &&& deviceFlagActivated = 0 then skDeviceInit ops dev s
        else (SkErr.eok.code, dev, s)) = r1 →
      r1.2.1.refCnt = dev.refCnt ∧
        r1.2.1.flag &&& deviceFlagOpen = dev.flag &&& deviceFlagOpen := by
    intro r1 h
    subst h
    split
    · exact skDeviceInit_spec ops dev s
    · exact ⟨rfl, rfl⟩
  generalize hr1 : (if dev.flag &&& deviceFlagActivated = 0 then skDeviceInit ops dev s
    else (SkErr.eok.code, dev, s)) = r1
  obtain ⟨hcnt, hflag⟩ := hinit r1 hr1
  obtain ⟨ret, dev', s'⟩ := r1
  dsimp only at hcnt hflag ⊢
  by_cases hret : ret = SkErr.eok.code
  · rw [if_pos hret]
    generalize deviceOpenOp ops dev' flag s' = r2
    by_cases hopen : r2.1 = SkErr.eok.code
    · left
      rw [if_pos hopen]
      refine ⟨⟨hret, hopen⟩, hopen, ?_, or_open_and_open _⟩
      rw [hcnt]
    · right
      rw [if_neg hopen]
      exact ⟨fun h => hopen h.2, hopen, hcnt, hflag⟩
  · right
    rw [if_neg hret]
    dsimp only
    rw [if_neg hret]
    exact ⟨fun h => hret h.1, hret, hcnt, hflag⟩

/-- Not open, opened more than once, and the last close. -/
theorem skDeviceClose_spec (hparent : parent.type = some .device)
    (hr : skDeviceClose ops parent dev s = r) :
    (dev.refCnt = 0 ∧ r.1 ≠ SkErr.eok.code ∧ r.2.1 = dev) ∨
    (dev.refCnt ≠ 0 ∧ dev.refCnt ≠ 1 ∧ r.1 = SkErr.eok.code ∧
      r.2.1 = { dev with refCnt := dev.refCnt - 1 }) ∨
    (dev.refCnt = 1 ∧ r.1 = (deviceCloseOp ops { dev with refCnt := 0 } s).1 ∧
      (r.1 = SkErr.eok.code → r.2.1 = { dev with refCnt := 0, flag := deviceFlagClose })) := by
  subst hr
  unfold skDeviceClose
  rw [if_neg (not_not.mpr hparent)]
  by_cases hzero : dev.refCnt = 0
  · left
    rw [if_pos hzero]
    exact ⟨hzero, show SkErr.error.code ≠ SkErr.eok.code by decide, rfl⟩
  · right
    rw [if_neg hzero]
    dsimp only
    by_cases hone : dev.refCnt = 1
    · right
      -- the last close: the flags are cleared only when the driver accepts it
      have hlast : dev.refCnt - 1 = 0 := by rw [hone]; rfl
      rw [hlast, if_neg (not_not.mpr rfl)]
      generalize deviceCloseOp ops { dev with refCnt := 0 } s = r1
      split
      · exact ⟨hone, rfl, fun _ => rfl⟩
      · rename_i hret
        exact ⟨hone, rfl, fun h => absurd h hret⟩
    · left
      have hmore : dev.refCnt - 1 ≠ 0 := by
        intro h
        apply hone
        bv_omega
      rw [if_pos hmore]
      exact ⟨hzero, hone, rfl, rfl⟩

private theorem deviceTransfer_reaches (op : Option (Device → Nat → Nat → Nat → σ → Nat × σ))
    (hparent : parent.type = some .device) {reaches : Prop}
    (hreaches : reaches ↔ dev.refCnt ≠ 0) :
    ReachesDriver op dev (deviceTransfer op parent dev) reaches := by
  intro f hf pos buf size s
  subst hf
  unfold deviceTransfer
  rw [if_neg (not_not.mpr hparent)]
  constructor
  · intro h
    rw [if_neg (hreaches.mp h)]
  · intro h
    rw [if_pos (not_not.mp fun hne => h (hreaches.mpr hne))]

theorem objectFindLoop_mem {L : Links ObjNode} {found : Nat → Bool} {node : ObjNode}
    (h : objectFindLoop L found fuel node = some (some obj)) :
    found obj = true ∧ ∃ n, L.next^[n] node = .list obj := by
  induction fuel generalizing node with
  | zero => cases h
  | succ fuel ih =>
    cases node with
    | objList type => cases h
    | list a =>
      unfold objectFindLoop at h
      split at h
      · rename_i ha
        cases h
        exact ⟨ha, 0, rfl⟩
      · obtain ⟨hfound, n, hn⟩ := ih h
        exact ⟨hfound, n + 1, hn⟩

private theorem skObjectInit_type {o o' : Objects} {type : ObjectType} {name : List (BitVec 8)}
    (ho : ObjectsTyped o)
    (h : skObjectInit fuel o obj type name = some o') : (o'.obj obj).type = some type := by
  unfold skObjectInit at h
  obtain ⟨r, hloop, hr⟩ := Option.map_eq_some_iff.mp h
  cases r with
  | some a =>
    -- the object is registered already
    cases hr
    obtain ⟨ha, n, hn⟩ := objectFindLoop_mem hloop
    rw [of_decide_eq_true ha] at hn
    exact ho type n obj hn
  | none =>
    cases hr
    simp

/-! ## The invariant -/

/-- The invariant of the runs. -/
structure DeviceInv (x : DeviceSys σ) : Prop where
  parent : x.parent.type = some .device
  count : x.dev.refCnt.toNat + x.closes = x.opens
  flag : x.dev.flag &&& deviceFlagOpen ≠ 0 ↔ x.dev.refCnt ≠ 0

namespace DeviceInv

variable {x x' : DeviceSys σ}

theorem init (hflag : flag &&& deviceFlagOpen = 0) (h : (deviceSystem ops flag).init x) :
    DeviceInv x := by
  obtain ⟨hopens, hcloses, fuel, o, addr, dev, name, o', ho, hreg, hparent⟩ := h
  unfold skDeviceRegister at hreg
  obtain ⟨r, -, hr⟩ := Option.bind_eq_some_iff.mp hreg
  cases r with
  | some a => cases hr
  | none =>
    obtain ⟨o1, hinit, heq⟩ := Option.map_eq_some_iff.mp hr
    simp only [Prod.mk.injEq, true_and] at heq
    obtain ⟨rfl, hdev⟩ := heq
    refine ⟨?_, ?_, ?_⟩
    · rw [hparent]
      exact skObjectInit_type ho hinit
    · rw [← hdev, hopens, hcloses]
      rfl
    · rw [← hdev]
      simp [hflag]

private theorem openDevice (h : DeviceInv x) (hsound : x.Sound ops (.openDevice flag))
    (hstep : x.step ops (.openDevice flag) = some x') : DeviceInv x' := by
  unfold DeviceSys.step at hstep
  generalize hr : x.call ops (.openDevice flag) = r at hstep
  cases skDeviceOpen_spec h.parent hr with
  | inl hok =>
    obtain ⟨haccepts, hret, hcnt, hopen⟩ := hok
    -- `ref_cnt` does not wrap around
    have hlt : x.dev.refCnt ≠ 255 := fun heq => hsound heq haccepts
    rw [if_pos hret] at hstep
    cases hstep
    have hcount := h.count
    refine ⟨h.parent, ?_, ?_⟩
    · dsimp only
      rw [hcnt]
      bv_omega
    · dsimp only
      rw [hopen, hcnt]
      have hne : x.dev.refCnt + 1 ≠ 0 := by bv_omega
      exact ⟨fun _ => hne, fun _ => by decide⟩
  | inr herr =>
    obtain ⟨-, hret, hcnt, hopen⟩ := herr
    rw [if_neg hret] at hstep
    cases hstep
    refine ⟨h.parent, ?_, ?_⟩
    · dsimp only
      rw [hcnt]
      exact h.count
    · dsimp only
      rw [hcnt, hopen]
      exact h.flag

private theorem closeDevice (h : DeviceInv x) (hsound : x.Sound ops .closeDevice)
    (hstep : x.step ops .closeDevice = some x') : DeviceInv x' := by
  unfold DeviceSys.step at hstep
  generalize hr : x.call ops .closeDevice = r at hstep
  have hcount := h.count
  obtain hclosed | hmore | hlast := skDeviceClose_spec h.parent hr
  · obtain ⟨-, hret, hdev⟩ := hclosed
    rw [if_neg hret, hdev] at hstep
    cases hstep
    exact ⟨h.parent, h.count, h.flag⟩
  · obtain ⟨hzero, hone, hret, hdev⟩ := hmore
    rw [if_pos hret, hdev] at hstep
    cases hstep
    refine ⟨h.parent, ?_, ?_⟩
    · dsimp only
      bv_omega
    · have hne : x.dev.refCnt - 1 ≠ 0 := by bv_omega
      exact ⟨fun _ => hne, fun _ => h.flag.mpr hzero⟩
  · obtain ⟨hone, hret, hdev⟩ := hlast
    -- the driver does not refuse the last close
    have hok : r.1 = SkErr.eok.code := by
      rw [hret]
      exact hsound hone
    rw [if_pos hok, hdev hok] at hstep
    cases hstep
    refine ⟨h.parent, ?_, ?_⟩
    · rw [hone] at hcount
      change 1 + x.closes = x.opens at hcount
      show 0 + (x.closes + 1) = x.opens
      omega
    · show deviceFlagClose &&& deviceFlagOpen ≠ 0 ↔ (0 : BitVec 8) ≠ 0
      decide

/-- Every sound call keeps the invariant. -/
theorem step (h : DeviceInv x) (hsound : x.Sound ops op)
    (hstep : x.step ops op = some x') : DeviceInv x' := by
  cases op with
  | openDevice flag => exact h.openDevice hsound hstep
  | closeDevice => exact h.closeDevice hsound hstep

private theorem counted (h : DeviceInv x) : x.Counted ops := by
  have hcount : (x.dev.refCnt.toNat : Int) = x.openCount := by
    have := h.count
    unfold DeviceSys.openCount
    omega
  have hpos : 0 < x.openCount ↔ x.dev.refCnt ≠ 0 := by
    rw [← hcount]
    constructor
    · intro hlt heq
      rw [heq] at hlt
      exact absurd hlt (by decide)
    · intro hne
      bv_omega
  exact ⟨hcount, h.flag.trans hpos.symm, deviceTransfer_reaches ops.read h.parent hpos,
    deviceTransfer_reaches ops.write h.parent hpos⟩

/-- An error of a sound call has changed nothing that counts. -/
theorem errorKeeps (h : DeviceInv x) (hsound : x.Sound ops op) :
    x.ErrorKeeps ops op := by
  intro herr
  cases op with
  | openDevice flag =>
    cases skDeviceOpen_spec h.parent (rfl : x.call ops (.openDevice flag) = _) with
    | inl hok => exact absurd hok.2.1 herr
    | inr hkeeps => exact hkeeps.2.2
  | closeDevice =>
    obtain hclosed | hmore | hlast := skDeviceClose_spec h.parent
      (rfl : x.call ops .closeDevice = _)
    · rw [hclosed.2.2]
      exact ⟨rfl, rfl⟩
    · exact absurd hmore.2.2.1 herr
    · exact absurd (hlast.2.1.trans (hsound hlast.1)) herr

end DeviceInv

/-- **Device open count.** A device is registered without the flag `SK_DEVICE_FLAG_OPEN`. Along
    every run of opens and closes, in which the driver accepts no open when `ref_cnt` is 255 and
    refuses no last close: `ref_cnt` is the number of successful opens less the number of
    successful closes, the device is marked as open, and can be read and written, exactly when
    this number is positive, and a call that fails leaves the count and the mark alone. -/
theorem device_open_count (hflag : flag &&& deviceFlagOpen = 0) {x : DeviceSys σ}
    (h : (deviceSystem ops flag).Reach (DeviceSys.Sound ops) x) :
    x.Counted ops ∧ ∀ op, x.Sound ops op → x.ErrorKeeps ops op := by
  have hinv : DeviceInv x :=
    h.invariant (fun _ => DeviceInv.init hflag) fun _ _ _ hinv => hinv.step
  exact ⟨hinv.counted, fun _ => hinv.errorKeeps⟩

/-- A driver without state that returns `ret` when it is closed. -/
def closingDriver (ret : Int) : DeviceOps Unit where
  init := none
  openOp := none
  closeOp := some fun _ s => (ret, s)
  read := some fun _ _ _ size s => (size, s)
  write := none

/-- A device that has just been registered, as the only one. -/
def registeredDevice : DeviceSys Unit where
  parent := { name := [], type := some .device, flag := 0 }
  dev := { type := .char, flag := 0, refCnt := 0 }
  driver := ()
  opens := 0
  closes := 0

private theorem reach_registeredDevice (ret : Int)
    (guard : DeviceSys Unit → DeviceOp → Prop) :
    (deviceSystem (closingDriver ret) 0).Reach guard registeredDevice := by
  refine .init ⟨rfl, rfl, 1, ⟨⟨id, id⟩, fun _ => ⟨[], none, 0⟩⟩, 8, ⟨.char, 0, 0⟩, [], _, ?_,
    rfl, rfl⟩
  intro type n obj h
  simp at h

/-- A device that has been opened twice and closed once. -/
theorem device_open_count_twice :
    ∃ x, (deviceSystem (closingDriver 0) 0).Reach (DeviceSys.Sound (closingDriver 0)) x ∧
      x.openCount = 1 ∧ x.Counted (closingDriver 0) := by
  obtain ⟨x, hx, hp⟩ := (reach_registeredDevice 0 (DeviceSys.Sound (closingDriver 0))).exists_of_run
    [.openDevice 0, .openDevice 3, .closeDevice] (fun x => x.openCount = 1) (by decide +kernel)
  exact ⟨x, hx, of_decide_eq_true hp, (device_open_count (by decide) hx).1⟩

/-- The driver refuses to be closed: `ref_cnt` is 0, although the device is open. -/
theorem device_open_count_fails :
    ∃ x, (deviceSystem (closingDriver (-7)) 0).Reach (fun _ _ => True) x ∧
      ¬x.Counted (closingDriver (-7)) := by
  obtain ⟨x, hx, hp⟩ := (reach_registeredDevice (-7) fun _ _ => True).exists_of_run
    [.openDevice 0, .closeDevice] (fun x => x.openCount = 1 ∧ x.dev.refCnt = 0)
    (by decide +kernel)
  obtain ⟨hcount, hcnt⟩ := of_decide_eq_true hp
  refine ⟨x, hx, fun h => ?_⟩
  have hone := h.count
  rw [hcount, hcnt] at hone
  cases hone

theorem device_open_count_wraps :
    ∃ x, (deviceSystem (closingDriver 0) 0).Reach (fun _ _ => True) x ∧
      ¬x.Counted (closingDriver 0) := by
  obtain ⟨x, hx, hp⟩ := (reach_registeredDevice 0 fun _ _ => True).exists_of_run
    (List.replicate 256 (.openDevice 0)) (fun x => x.openCount = 256 ∧ x.dev.refCnt = 0)
    (by decide +kernel)
  obtain ⟨hcount, hcnt⟩ := of_decide_eq_true hp
  refine ⟨x, hx, fun h => ?_⟩
  have hmany := h.count
  rw [hcount, hcnt] at hmany
  cases hmany

end SKernel.Spec
