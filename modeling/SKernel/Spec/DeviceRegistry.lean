import SKernel.ForStd.Simulation
import SKernel.Native.Device

/-!
# The device registry

Devices are registered and unregistered under names. The registry is meant to be a map from names
to devices: `sk_device_register` refuses a name that is in use, and `sk_device_find` finds the
device of a name. Names count up to their first 16 characters.

`sk_object_init` returns early when the object is on its list already. `sk_device_register` does
not see this and returns `SK_EOK`, so a device that is registered under a second name cannot be
found under it.
-/

namespace SKernel.Spec

open Native Function List
open Option hiding or_self

/-! ## Names -/

/-- A name with its terminator, and what lies behind it in memory. -/
structure CName where
  chars : List (BitVec 8)
  terminated : 0 ∈ chars
  deriving DecidableEq

/-- The characters before the terminator, at most `n`. -/
def nameChars (n : Nat) (chars : List (BitVec 8)) : List (BitVec 8) :=
  (chars.take n).takeWhile (· ≠ 0)

/-- The part of a name that counts. -/
def nameKey (chars : List (BitVec 8)) : List (BitVec 8) := nameChars nameMax chars

/-- There is a terminator, or there are `n` characters. -/
def Readable (n : Nat) (chars : List (BitVec 8)) : Prop := 0 ∈ chars ∨ n ≤ chars.length

private theorem nameChars_cons (n : Nat) (c : BitVec 8) (chars : List (BitVec 8)) :
    nameChars (n + 1) (c :: chars) = if c = 0 then [] else c :: nameChars n chars := by
  unfold nameChars
  rw [take_succ_cons, takeWhile_cons]
  by_cases hc : c = 0 <;> simp [hc]

theorem Readable.tail {n : Nat} {c : BitVec 8} {chars : List (BitVec 8)}
    (h : Readable (n + 1) (c :: chars)) (hc : c ≠ 0) : Readable n chars := by
  cases h with
  | inl hzero =>
    left
    exact (mem_cons.mp hzero).resolve_left (Ne.symm hc)
  | inr hlen =>
    right
    simpa using hlen

private theorem skStrcmp_eq_zero_iff {n : Nat} {a b : List (BitVec 8)} (ha : Readable n a)
    (hb : Readable n b) : skStrcmp a b n = 0 ↔ nameChars n a = nameChars n b := by
  induction n generalizing a b with
  | zero => simp [skStrcmp, nameChars]
  | succ n ih =>
    cases a with
    | nil => simp [Readable] at ha
    | cons c a =>
      cases b with
      | nil => simp [Readable] at hb
      | cons d b =>
        rw [nameChars_cons, nameChars_cons]
        unfold skStrcmp
        by_cases hcd : c = d
        · subst hcd
          by_cases hc : c = 0
          · simp [hc]
          · simp only [sub_self, ne_eq, not_true_eq_false, hc, or_self, ↓reduceIte, cons.injEq,
              true_and]
            exact ih (ha.tail hc) (hb.tail hc)
        · have hsub : c - d ≠ 0 := fun h => hcd (by bv_omega)
          simp only [hsub, ne_eq, not_false_eq_true, true_or, ↓reduceIte, false_iff]
          intro heq
          by_cases hc : c = 0
          · rw [if_pos hc, if_neg (fun hd => hcd (hc.trans hd.symm))] at heq
            cases heq
          · rw [if_neg hc] at heq
            split at heq
            · cases heq
            · exact hcd (cons.inj heq).1

theorem nameKey_take (chars : List (BitVec 8)) : nameKey (chars.take nameMax) = nameKey chars := by
  unfold nameKey nameChars
  rw [take_take, Nat.min_self]

theorem CName.readable (name : CName) (n : Nat) : Readable n name.chars := .inl name.terminated

theorem CName.readable_take (name : CName) : Readable nameMax (name.chars.take nameMax) := by
  by_cases hlen : nameMax ≤ name.chars.length
  · right
    simp [hlen]
  · left
    rw [take_of_length_le (by omega)]
    exact name.terminated

/-! ## The system -/

variable {μ : Type*} {fuel : Nat} {found : Nat → Bool} {r : Option Nat} {flag : BitVec 16}

/-- A device, and a name it was registered under. -/
structure Binding where
  dev : Nat
  name : CName
  deriving DecidableEq

/-- The objects, the devices and the heap; and the successful calls of `sk_device_register`, without
    those of devices unregistered since. -/
structure RegistrySys (μ : Type*) where
  objects : Objects
  device : Nat → Device
  heap : μ
  bound : List Binding

inductive RegistryOp where
  /-- `sk_device_register`, with fuel for its walks over the list -/
  | register (fuel dev : Nat) (name : CName) (flag : BitVec 16)
  | unregister (dev : Nat)

namespace RegistrySys

/-- The state after a call. -/
def step (A : Allocator μ) (x : RegistrySys μ) : RegistryOp → Option (RegistrySys μ)
  | .register fuel dev name flag =>
    (skDeviceRegister fuel x.objects dev (x.device dev) name.chars flag).map fun r =>
      { x with
        objects := r.2.1
        device := update x.device dev r.2.2
        bound := if r.1 = .eok then ⟨dev, name⟩ :: x.bound else x.bound }
  | .unregister dev =>
    (skDeviceUnregister A x.objects x.heap dev).map fun r =>
      { x with
        objects := r.2.1
        heap := r.2.2
        bound := if r.1 = .eok then x.bound.filter (·.dev ≠ dev) else x.bound }

/-- A device that is registered is not registered again under a name that is not in use. -/
def Sound (x : RegistrySys μ) : RegistryOp → Prop
  | .register _ dev name _ => (∃ b ∈ x.bound, b.dev = dev) →
    ∃ b ∈ x.bound, nameKey b.name.chars = nameKey name.chars
  | .unregister _ => True

instance (x : RegistrySys μ) (op : RegistryOp) : Decidable (x.Sound op) :=
  match op with
  | .register _ dev name _ => inferInstanceAs (Decidable ((∃ b ∈ x.bound, b.dev = dev) →
      ∃ b ∈ x.bound, nameKey b.name.chars = nameKey name.chars))
  | .unregister _ => .isTrue trivial

/-- The walk over the device list meets the device. -/
def Registered (x : RegistrySys μ) (dev : Nat) : Prop :=
  ∃ fuel, objectFindLoop x.objects.links (fun obj => obj = dev) fuel
    (x.objects.links.next (.objList .device)) = some (some dev)

/-- Registered devices have different names, and are found under the name of their registration. -/
structure IsMap (x : RegistrySys μ) : Prop where
  names : ∀ dev dev', x.Registered dev → x.Registered dev' → dev ≠ dev' →
    nameKey (x.objects.obj dev).name ≠ nameKey (x.objects.obj dev').name
  find : ∀ b ∈ x.bound, ∃ n, ∀ fuel, n < fuel →
    skDeviceFind fuel x.objects b.name.chars = some (some b.dev)

end RegistrySys

/-- The registrations from an empty device list on. -/
def registrySystem (A : Allocator μ) : TransitionSystem (RegistrySys μ) RegistryOp where
  init x := x.bound = [] ∧
    x.objects.links.next (.objList .device) = .objList .device ∧
    x.objects.links.prev (.objList .device) = .objList .device ∧
    ∀ obj, (x.objects.obj obj).type ≠ some .device
  step := RegistrySys.step A

/-! ## The device list -/

open Links

/-- The ring of the device list, with the devices `l`. -/
def DeviceList (L : Links ObjNode) (dom : Set ObjNode) (l : List Nat) : Prop :=
  Rings L dom {.objList .device} fun _ => l.map .list

variable {L : Links ObjNode} {dom : Set ObjNode} {l : List Nat} {obj : Nat}

/-- The walk goes over the devices of the list in order. -/
theorem DeviceList.walk (h : DeviceList L dom l) (found : Nat → Bool) :
    ∀ (as bs : List Nat) (fuel : Nat), l = as ++ bs → bs.length < fuel →
      objectFindLoop L found fuel ((bs.map ObjNode.list).headD (.objList .device)) =
        some (bs.find? found) := by
  intro as bs
  induction bs generalizing as with
  | nil =>
    intro fuel _ hfuel
    cases fuel with
    | zero => cases hfuel
    | succ fuel => rfl
  | cons b bs ih =>
    intro fuel hl hfuel
    cases fuel with
    | zero => cases hfuel
    | succ fuel =>
      have hnext : L.next (.list b) = (bs.map ObjNode.list).headD (.objList .device) :=
        h.next_mem (Set.mem_singleton _)
          (show l.map ObjNode.list = as.map .list ++ .list b :: bs.map .list by simp [hl])
      show (if found b then some (some b) else objectFindLoop L found fuel (L.next (.list b))) = _
      rw [hnext, find?_cons]
      by_cases hb : found b = true
      · simp [hb]
      · rw [if_neg hb, ih (as ++ [b]) fuel (by simp [hl]) (by simpa using hfuel)]
        simp [hb]

/-- The walk from the head on. -/
theorem DeviceList.find (h : DeviceList L dom l) (found : Nat → Bool) (hfuel : l.length < fuel) :
    objectFindLoop L found fuel (L.next (.objList .device)) = some (l.find? found) := by
  rw [h.next_head (Set.mem_singleton _)]
  exact h.walk found [] l fuel rfl hfuel

private theorem objectFindLoop_mono {fuel' : Nat} {node : ObjNode}
    (h : objectFindLoop L found fuel node = some r) (hle : fuel ≤ fuel') :
    objectFindLoop L found fuel' node = some r := by
  induction fuel generalizing fuel' node with
  | zero => cases h
  | succ fuel ih =>
    cases fuel' with
    | zero => omega
    | succ fuel' =>
      cases node with
      | objList type => exact h
      | list a =>
        unfold objectFindLoop at h ⊢
        split
        · rename_i ha
          rw [if_pos ha] at h
          exact h
        · rename_i ha
          rw [if_neg ha] at h
          exact ih h (by omega)

private theorem DeviceList.find_eq (h : DeviceList L dom l)
    (hr : objectFindLoop L found fuel (L.next (.objList .device)) = some r) :
    r = l.find? found := by
  have hmore := objectFindLoop_mono hr (Nat.le_max_left fuel (l.length + 1))
  rw [h.find found (by omega)] at hmore
  exact (some.inj hmore).symm

theorem DeviceList.cons (h : DeviceList L dom l) (hobj : obj ∉ l) :
    DeviceList (skListAdd L (.objList .device) (.list obj)) (insert (.list obj) dom)
      (obj :: l) := by
  have hin := h.insert_first_new (x := ObjNode.list obj) (Set.mem_singleton _) (by simp)
    (by simpa using hobj)
  rw [← skListAdd_eq] at hin
  exact hin.congr fun _ hh => by simp [Set.mem_singleton_iff.mp hh]

theorem DeviceList.erase (h : DeviceList L dom l) (hobj : obj ∈ l) :
    DeviceList (skListDel L (.list obj)) dom (l.erase obj) := by
  have hmem : ObjNode.list obj ∈ l.map ObjNode.list := List.mem_map_of_mem hobj
  have hout := h.remove (h.mem_dom (Set.mem_singleton _) hmem) (by simp)
  rw [← skListDel_eq] at hout
  refine hout.congr fun _ _ => ?_
  exact map_erase (fun _ _ => ObjNode.list.inj) l

/-! ## The invariant -/

/-- The invariant of the runs. -/
structure RegistryInv (x : RegistrySys μ) (dom : Set ObjNode) (l : List Nat) : Prop where
  list : DeviceList x.objects.links dom l
  typed : ∀ dev, (x.objects.obj dev).type = some .device ↔ dev ∈ l
  readable : ∀ dev ∈ l, Readable nameMax (x.objects.obj dev).name
  names : (l.map fun dev => nameKey (x.objects.obj dev).name).Nodup
  bound : ∀ b ∈ x.bound, b.dev ∈ l ∧ nameKey (x.objects.obj b.dev).name = nameKey b.name.chars
  registered : ∀ dev ∈ l, ∃ b ∈ x.bound, b.dev = dev

namespace RegistryInv

variable {A : Allocator μ} {x x' : RegistrySys μ} {dev : Nat} {name : CName}

theorem init (h : (registrySystem A).init x) : RegistryInv x {.objList .device} [] := by
  obtain ⟨hbound, hnext, hprev, htype⟩ := h
  refine ⟨?_, ?_, by simp, by simp, by simp [hbound], by simp⟩
  · refine Rings.of_isolated subset_rfl ?_
    intro node hnode
    rw [Set.mem_singleton_iff.mp hnode]
    exact ⟨hnext, hprev⟩
  · intro dev
    simp [htype dev]

variable (h : RegistryInv x dom l)
include h

theorem nodup : l.Nodup := List.Nodup.of_map _ h.names

private theorem eq_of_key {dev dev' : Nat} (hdev : dev ∈ l) (hdev' : dev' ∈ l)
    (hkey : nameKey (x.objects.obj dev).name = nameKey (x.objects.obj dev').name) : dev = dev' :=
  inj_on_of_nodup_map h.names hdev hdev' hkey

private theorem strcmp_iff (hdev : dev ∈ l) (name : CName) :
    skStrcmp (x.objects.obj dev).name name.chars nameMax = 0 ↔
      nameKey (x.objects.obj dev).name = nameKey name.chars :=
  skStrcmp_eq_zero_iff (h.readable dev hdev) (name.readable nameMax)

variable {fuel : Nat}

theorem find_some (hdev : dev ∈ l) (hkey : nameKey (x.objects.obj dev).name = nameKey name.chars)
    (hfuel : l.length < fuel) :
    skDeviceFind fuel x.objects name.chars = some (some dev) := by
  unfold skDeviceFind skObjectFind
  rw [h.list.find _ hfuel]
  cases hfind : l.find? fun obj => skStrcmp (x.objects.obj obj).name name.chars nameMax = 0 with
  | none =>
    have hnone := find?_eq_none.mp hfind dev hdev
    exact absurd (decide_eq_true ((h.strcmp_iff hdev name).mpr hkey)) hnone
  | some dev' =>
    have hdev' := mem_of_find?_eq_some hfind
    have hcmp := find?_some hfind
    have hkey' := (h.strcmp_iff hdev' name).mp (of_decide_eq_true hcmp)
    rw [h.eq_of_key hdev' hdev (hkey'.trans hkey.symm)]

private theorem find_none (hkey : ∀ dev ∈ l, nameKey (x.objects.obj dev).name ≠ nameKey name.chars)
    (hfuel : l.length < fuel) :
    skDeviceFind fuel x.objects name.chars = some none := by
  unfold skDeviceFind skObjectFind
  rw [h.list.find _ hfuel]
  congr 1
  refine find?_eq_none.mpr ?_
  intro dev hdev hcmp
  exact hkey dev hdev ((h.strcmp_iff hdev name).mp (of_decide_eq_true hcmp))

/-- The device list, as its walks see it. -/
theorem mem_of_registered (hdev : x.Registered dev) : dev ∈ l := by
  obtain ⟨fuel, hwalk⟩ := hdev
  have hfind := h.list.find_eq hwalk
  exact mem_of_find?_eq_some hfind.symm

private theorem isMap : x.IsMap := by
  constructor
  · intro dev dev' hdev hdev' hne hkey
    exact hne (h.eq_of_key (h.mem_of_registered hdev) (h.mem_of_registered hdev') hkey)
  · intro b hb
    obtain ⟨hdev, hkey⟩ := h.bound b hb
    exact ⟨l.length, fun fuel hfuel => h.find_some hdev hkey hfuel⟩

private theorem register_cases (hstep : x.step A (.register fuel dev name flag) = some x') :
    (∃ dev' ∈ l, nameKey (x.objects.obj dev').name = nameKey name.chars ∧
      x'.objects = x.objects ∧ x'.bound = x.bound) ∨
    ((∀ dev' ∈ l, nameKey (x.objects.obj dev').name ≠ nameKey name.chars) ∧
      x'.bound = ⟨dev, name⟩ :: x.bound ∧
      ((dev ∈ l ∧ x'.objects = x.objects) ∨
       (dev ∉ l ∧ x'.objects =
        { links := skListAdd x.objects.links (.objList .device) (.list dev)
          obj := update x.objects.obj dev
            { x.objects.obj dev with
              name := name.chars.take nameMax, type := some .device } }))) := by
  obtain ⟨r, hreg, heq⟩ := map_eq_some_iff.mp hstep
  unfold skDeviceRegister at hreg
  obtain ⟨found, hfind, hrest⟩ := bind_eq_some_iff.mp hreg
  have hfound := h.list.find_eq hfind
  cases found with
  | some dev' =>
    left
    have hdev' := mem_of_find?_eq_some hfound.symm
    have hcmp := find?_some hfound.symm
    cases hrest
    subst heq
    exact ⟨dev', hdev', (h.strcmp_iff hdev' name).mp (of_decide_eq_true hcmp), rfl, rfl⟩
  | none =>
    right
    have hunused : ∀ dev' ∈ l, nameKey (x.objects.obj dev').name ≠ nameKey name.chars := by
      intro dev' hdev' hkey
      have hnone := find?_eq_none.mp hfound.symm dev' hdev'
      exact hnone (decide_eq_true ((h.strcmp_iff hdev' name).mpr hkey))
    obtain ⟨o, hinit, hr⟩ := map_eq_some_iff.mp hrest
    obtain ⟨self, hself, ho⟩ := map_eq_some_iff.mp hinit
    have hselfEq := h.list.find_eq hself
    subst hr heq
    refine ⟨hunused, rfl, ?_⟩
    cases self with
    | some obj =>
      -- the early return of `sk_object_init`
      left
      have hobj := mem_of_find?_eq_some hselfEq.symm
      have htest := find?_some hselfEq.symm
      rw [of_decide_eq_true htest] at hobj
      exact ⟨hobj, ho.symm⟩
    | none =>
      right
      refine ⟨fun hdev => ?_, ho.symm⟩
      exact find?_eq_none.mp hselfEq.symm dev hdev (decide_eq_true rfl)

private theorem register_new (hdev : dev ∉ l)
    (hunused : ∀ dev' ∈ l, nameKey (x.objects.obj dev').name ≠ nameKey name.chars)
    (hbound : x'.bound = ⟨dev, name⟩ :: x.bound)
    (ho : x'.objects =
      { links := skListAdd x.objects.links (.objList .device) (.list dev)
        obj := update x.objects.obj dev
          { x.objects.obj dev with name := name.chars.take nameMax, type := some .device } }) :
    RegistryInv x' (insert (.list dev) dom) (dev :: l) := by
  -- the header keeps the first `nameMax` characters, and these are what names are compared by
  have hself : (x'.objects.obj dev).name = name.chars.take nameMax := by simp [ho]
  have hother : ∀ dev' ∈ l, x'.objects.obj dev' = x.objects.obj dev' := by
    intro dev' hdev'
    rw [ho]
    refine update_of_ne ?_ ..
    rintro rfl
    exact hdev hdev'
  have hkeys : (l.map fun dev' => nameKey (x'.objects.obj dev').name) =
      l.map fun dev' => nameKey (x.objects.obj dev').name :=
    map_congr_left fun dev' hdev' => by rw [hother dev' hdev']
  refine ⟨?_, ?_, ?_, ?_, ?_, ?_⟩
  · rw [ho]
    exact h.list.cons hdev
  · intro dev'
    rw [ho]
    by_cases heq : dev' = dev
    · simp [heq]
    · simp [heq, h.typed dev']
  · intro dev' hdev'
    cases mem_cons.mp hdev' with
    | inl heq =>
      rw [heq, hself]
      exact name.readable_take
    | inr hin =>
      rw [hother dev' hin]
      exact h.readable dev' hin
  · rw [map_cons, hkeys, nodup_cons]
    refine ⟨?_, h.names⟩
    rw [hself, nameKey_take]
    intro hin
    obtain ⟨dev', hdev', hkey⟩ := List.mem_map.mp hin
    exact hunused dev' hdev' hkey
  · intro b hb
    rw [hbound] at hb
    cases mem_cons.mp hb with
    | inl heq =>
      subst heq
      exact ⟨mem_cons_self, by rw [hself, nameKey_take]⟩
    | inr hb =>
      obtain ⟨hin, hkey⟩ := h.bound b hb
      rw [hother b.dev hin]
      exact ⟨mem_cons_of_mem _ hin, hkey⟩
  · intro dev' hdev'
    rw [hbound]
    cases mem_cons.mp hdev' with
    | inl heq => exact ⟨_, mem_cons_self, heq.symm⟩
    | inr hin =>
      obtain ⟨b, hb, heq⟩ := h.registered dev' hin
      exact ⟨b, mem_cons_of_mem _ hb, heq⟩

private theorem used_iff :
    (∃ b ∈ x.bound, nameKey b.name.chars = nameKey name.chars) ↔
      ∃ dev ∈ l, nameKey (x.objects.obj dev).name = nameKey name.chars := by
  constructor
  · rintro ⟨b, hb, hkey⟩
    obtain ⟨hin, hname⟩ := h.bound b hb
    exact ⟨b.dev, hin, hname.trans hkey⟩
  · rintro ⟨dev, hdev, hkey⟩
    obtain ⟨b, hb, heq⟩ := h.registered dev hdev
    obtain ⟨-, hname⟩ := h.bound b hb
    rw [heq] at hname
    exact ⟨b, hb, hname.symm.trans hkey⟩

private theorem bound_iff : (∃ b ∈ x.bound, b.dev = dev) ↔ dev ∈ l := by
  constructor
  · rintro ⟨b, hb, heq⟩
    rw [← heq]
    exact (h.bound b hb).1
  · exact h.registered dev

/-- A registered device must not get a new name. -/
theorem register (hstep : x.step A (.register fuel dev name flag) = some x') :
    (x.Sound (.register fuel dev name flag) → ∃ dom' l', RegistryInv x' dom' l') ∧
    (¬x.Sound (.register fuel dev name flag) → ¬x'.IsMap) := by
  dsimp only [RegistrySys.Sound]
  rw [h.used_iff, h.bound_iff]
  obtain ⟨dev', hdev', hkey, ho, hbound⟩ | ⟨hunused, hbound, hcases⟩ := h.register_cases hstep
  · -- the name is in use, and nothing changes
    constructor
    · intro _
      refine ⟨dom, l, ?_⟩
      have hlist := h.list
      have htyped := h.typed
      have hreadable := h.readable
      have hnames := h.names
      rw [← ho] at hlist htyped hreadable hnames
      refine ⟨hlist, htyped, hreadable, hnames, ?_, ?_⟩
      · rw [hbound, ho]
        exact h.bound
      · rw [hbound]
        exact h.registered
    · intro hnot
      exact absurd (fun _ => ⟨dev', hdev', hkey⟩) hnot
  · cases hcases with
    | inr hnew =>
      exact ⟨fun _ => ⟨_, _, h.register_new hnew.1 hunused hbound hnew.2⟩,
        fun hnot => absurd (fun hdev => absurd hdev hnew.1) hnot⟩
    | inl hold =>
      constructor
      · intro hsound
        obtain ⟨dev', hdev', hkey⟩ := hsound hold.1
        exact absurd hkey (hunused dev' hdev')
      · -- the device is bound to the new name, but keeps its old one
        intro _ hmap
        obtain ⟨n, hfind⟩ := hmap.find ⟨dev, name⟩ (by rw [hbound]; exact mem_cons_self)
        have hfound := hfind (n + l.length + 1) (by omega)
        rw [hold.2] at hfound
        rw [h.find_none hunused (by omega)] at hfound
        cases hfound

/-- A call of `sk_device_unregister`. -/
theorem unregister (hstep : x.step A (.unregister dev) = some x') :
    ∃ dom' l', RegistryInv x' dom' l' := by
  obtain ⟨r, hunreg, heq⟩ := map_eq_some_iff.mp hstep
  unfold skDeviceUnregister at hunreg
  split at hunreg
  · cases hunreg
    subst heq
    exact ⟨dom, l, h.list, h.typed, h.readable, h.names, h.bound, h.registered⟩
  · rename_i htype
    have hdev : dev ∈ l := (h.typed dev).mp (not_not.mp htype)
    obtain ⟨⟨o, m⟩, hdelete, hr⟩ := map_eq_some_iff.mp hunreg
    obtain ⟨m', -, ho⟩ := map_eq_some_iff.mp hdelete
    cases ho
    subst hr heq
    -- the header of the device loses its type; all other headers stay
    have hmem : ∀ dev', dev' ∈ l.erase dev ↔ dev' ≠ dev ∧ dev' ∈ l := fun dev' =>
      h.nodup.mem_erase_iff
    have hother : ∀ dev', dev' ≠ dev → update x.objects.obj dev
        { x.objects.obj dev with type := none } dev' = x.objects.obj dev' :=
      fun dev' hne => update_of_ne hne ..
    refine ⟨dom, l.erase dev, h.list.erase hdev, ?_, ?_, ?_, ?_, ?_⟩
    · intro dev'
      rw [hmem]
      by_cases hne : dev' = dev
      · simp [hne]
      · dsimp only
        rw [hother dev' hne, h.typed dev']
        simp [hne]
    · intro dev' hdev'
      obtain ⟨hne, hin⟩ := (hmem dev').mp hdev'
      dsimp only
      rw [hother dev' hne]
      exact h.readable dev' hin
    · have hsub := (erase_sublist (a := dev) (l := l)).map fun dev' =>
        nameKey (x.objects.obj dev').name
      have hkeys : ((l.erase dev).map fun dev' => nameKey (update x.objects.obj dev
          { x.objects.obj dev with type := none } dev').name) =
          (l.erase dev).map fun dev' => nameKey (x.objects.obj dev').name :=
        map_congr_left fun dev' hdev' => by rw [hother dev' ((hmem dev').mp hdev').1]
      dsimp only
      rw [hkeys]
      exact h.names.sublist hsub
    · intro b hb
      simp only [↓reduceIte, mem_filter, ne_eq, decide_not, Bool.not_eq_eq_eq_not,
        Bool.not_true, decide_eq_false_iff_not] at hb
      obtain ⟨hin, hkey⟩ := h.bound b hb.1
      dsimp only
      rw [hother b.dev hb.2]
      exact ⟨(hmem b.dev).mpr ⟨hb.2, hin⟩, hkey⟩
    · intro dev' hdev'
      obtain ⟨hne, hin⟩ := (hmem dev').mp hdev'
      obtain ⟨b, hb, heq⟩ := h.registered dev' hin
      refine ⟨b, ?_, heq⟩
      simp only [↓reduceIte, mem_filter, ne_eq, decide_not, Bool.not_eq_eq_eq_not,
        Bool.not_true, decide_eq_false_iff_not]
      exact ⟨hb, fun heq' => hne (heq.symm.trans heq')⟩

/-- A sound call keeps the invariant. -/
theorem step (op : RegistryOp) (hsound : x.Sound op) (hstep : x.step A op = some x') :
    ∃ dom' l', RegistryInv x' dom' l' := by
  cases op with
  | register => exact (h.register hstep).1 hsound
  | unregister dev => exact h.unregister hstep

theorem isMap_iff (op : RegistryOp) (hstep : x.step A op = some x') : x'.IsMap ↔ x.Sound op := by
  constructor
  · intro hmap
    by_contra hnot
    cases op with
    | register => exact (h.register hstep).2 hnot hmap
    | unregister dev => exact hnot trivial
  · intro hsound
    obtain ⟨dom', l', h'⟩ := h.step op hsound hstep
    exact h'.isMap

theorem register_returns (hfuel : l.length < fuel) (dev : Nat) (name : CName) (flag : BitVec 16) :
    (x.step A (.register fuel dev name flag)).isSome := by
  simp only [RegistrySys.step, skDeviceRegister, skDeviceFind, skObjectFind, skObjectInit,
    isSome_map]
  rw [h.list.find _ hfuel, h.list.find _ hfuel, bind_some]
  split <;> simp

end RegistryInv

/-- **The device registry is a map.** Along every run of registrations and unregistrations in
    which no registered device is registered under a name that is not in use: registered devices
    have different names, and a device that was registered with `SK_EOK` is found under its name
    until it is unregistered. Every further registration returns; and the registry is a map after
    a further call exactly when this call is no such registration. -/
theorem device_registry_is_map {A : Allocator μ} {x : RegistrySys μ}
    (h : (registrySystem A).Reach RegistrySys.Sound x) :
    x.IsMap ∧
    (∃ n, ∀ fuel, n < fuel → ∀ dev name flag, (x.step A (.register fuel dev name flag)).isSome) ∧
    ∀ op x', x.step A op = some x' → (x'.IsMap ↔ x.Sound op) := by
  obtain ⟨dom, l, hinv⟩ : ∃ dom l, RegistryInv x dom l := by
    refine h.invariant (I := fun x => ∃ dom l, RegistryInv x dom l)
      (fun _ hinit => ⟨_, _, RegistryInv.init hinit⟩) ?_
    rintro x op x' ⟨dom, l, hx⟩ hsound hstep
    exact hx.step op hsound hstep
  exact ⟨hinv.isMap, ⟨l.length, fun _ hfuel _ _ _ => hinv.register_returns hfuel _ _ _⟩,
    fun op _ hstep => hinv.isMap_iff op hstep⟩

/-- A heap that nothing is taken from. -/
def noHeap : Allocator Unit where
  malloc m _ := some (0, m)
  free m _ := some m

/-- Nothing is registered. -/
def emptyRegistry : RegistrySys Unit where
  objects := { links := ⟨id, id⟩, obj := fun _ => ⟨[], none, 0⟩ }
  device := fun _ => ⟨.char, 0, 0⟩
  heap := ()
  bound := []

private theorem init_emptyRegistry : (registrySystem noHeap).init emptyRegistry :=
  ⟨rfl, rfl, rfl, fun _ => by simp [emptyRegistry]⟩

/-- A name of one character. -/
def oneChar (c : BitVec 8) : CName := ⟨[c, 0], by simp⟩

/-- Two devices are registered, and one is unregistered and registered again under another
    name. -/
theorem device_registry_is_map_two :
    ∃ x, (registrySystem noHeap).Reach RegistrySys.Sound x ∧
      x.bound = [⟨8, oneChar 99⟩, ⟨16, oneChar 98⟩] ∧ x.IsMap := by
  have hinit : (registrySystem noHeap).Reach RegistrySys.Sound emptyRegistry :=
    .init init_emptyRegistry
  obtain ⟨x, hx, hp⟩ := hinit.exists_of_run
    [.register 4 8 (oneChar 97) 0, .register 4 16 (oneChar 98) 3, .unregister 8,
      .register 4 8 (oneChar 99) 0]
    (fun x => x.bound = [⟨8, oneChar 99⟩, ⟨16, oneChar 98⟩]) (by decide +kernel)
  exact ⟨x, hx, of_decide_eq_true hp, (device_registry_is_map hx).1⟩

/-- A device is registered under a second name. -/
theorem device_registry_is_map_fails :
    ∃ x, (registrySystem noHeap).Reach (fun _ _ => True) x ∧ ¬x.IsMap := by
  have hinit : (registrySystem noHeap).Reach (fun _ _ => True) emptyRegistry :=
    .init init_emptyRegistry
  have hsound : emptyRegistry.Sound (.register 4 8 (oneChar 97) 0) := by decide
  obtain ⟨dom, l, hinv⟩ := (RegistryInv.init init_emptyRegistry).step (A := noHeap) _ hsound rfl
  refine ⟨_, (hinit.step (.register 4 8 (oneChar 97) 0) trivial rfl).step
    (.register 4 8 (oneChar 98) 0) trivial rfl, ?_⟩
  rw [hinv.isMap_iff (A := noHeap) (.register 4 8 (oneChar 98) 0) rfl]
  decide +kernel

end SKernel.Spec
