import SKernel.ForStd.Simulation
import SKernel.Native.Vfs

/-!
# The life of a file descriptor

References to descriptors are obtained from `sk_fd_new` and `sk_get_fd` and given back with
`sk_put_fd`. `refs i` counts those of descriptor `i` that are outstanding. `sk_fd_new` looks for a
descriptor whose `ref_count` is 0, and `sk_get_fd` for one with the magic number. Nothing clears
the magic number when the last reference is given back, so from then on `sk_get_fd` finds a
descriptor that is not in use.
-/

namespace SKernel.Spec

open Native Function

/-! ## The system -/

/-- The descriptor table, the outstanding references, and the descriptors ever returned by
    `sk_fd_new`. -/
structure FdSys where
  tab : VfsFdtable
  refs : Nat → Nat
  handedOut : Nat → Bool

inductive FdOp where
  | fdNew
  | getFd (fd : Int)
  | putFd (fd : Nat)

namespace FdSys

/-- The state after a call. -/
def step (x : FdSys) : FdOp → Option FdSys
  | .fdNew =>
    let r := skFdNew x.tab
    some (if r.1 = -1 then { x with tab := r.2 }
      else
        { tab := r.2
          refs := update x.refs r.1.toNat (x.refs r.1.toNat + 1)
          handedOut := update x.handedOut r.1.toNat true })
  | .getFd fd =>
    match skGetFd x.tab fd with
    | (none, tab) => some { x with tab := tab }
    | (some d, tab) => some { x with tab := tab, refs := update x.refs d (x.refs d + 1) }
  | .putFd fd =>
    some { x with
      tab := skPutFd x.tab fd
      refs := update x.refs fd (x.refs fd - 1) }

/-- A reference is given back only when there is one, and there are never `2 ^ 32` of them. -/
def Counted (x : FdSys) : FdOp → Prop
  | .fdNew => True
  | .getFd fd => x.refs fd.toNat + 1 < 2 ^ 32
  | .putFd fd => 0 < x.refs fd

instance (x : FdSys) (op : FdOp) : Decidable (x.Counted op) :=
  match op with
  | .fdNew => .isTrue trivial
  | .getFd fd => inferInstanceAs (Decidable (x.refs fd.toNat + 1 < 2 ^ 32))
  | .putFd fd => inferInstanceAs (Decidable (0 < x.refs fd))

/-- `sk_fd_new` returns an unreferenced descriptor, and -1 exactly when there is none. -/
structure NewOk (x : FdSys) : Prop where
  range : (skFdNew x.tab).1 = -1 ∨ ∃ i : Nat, (skFdNew x.tab).1 = i ∧ i < x.tab.maxFd
  unreferenced : ∀ i : Nat, (skFdNew x.tab).1 = i → x.refs i = 0
  full : (skFdNew x.tab).1 = -1 ↔ ∀ i < x.tab.maxFd, 0 < x.refs i

/-- `sk_get_fd` finds a descriptor exactly when it is in range and referenced. -/
def GetOk (x : FdSys) (fd : Int) : Prop :=
  (skGetFd x.tab fd).1 ≠ none ↔ 0 ≤ fd ∧ fd < x.tab.maxFd ∧ 0 < x.refs fd.toNat

/-- The descriptor has been handed out, and all references to it have been given back. -/
def Stale (x : FdSys) (fd : Int) : Prop :=
  0 ≤ fd ∧ fd < x.tab.maxFd ∧ x.handedOut fd.toNat = true ∧ x.refs fd.toNat = 0

end FdSys

/-- The calls on a table of `maxFd` descriptors. -/
def fdSystem (maxFd : Nat) : TransitionSystem FdSys FdOp where
  init x := x.tab = skFdtInit maxFd ∧ x.refs = (fun _ => 0) ∧ x.handedOut = fun _ => false
  step := FdSys.step

/-! ## The search -/

private theorem fdAllocLoop_spec (fdt : VfsFdtable) (left idx : Nat) :
    idx ≤ fdAllocLoop fdt left idx ∧ fdAllocLoop fdt left idx ≤ idx + left ∧
      (∀ j, idx ≤ j → j < fdAllocLoop fdt left idx → (fdt.fds j).refCount ≠ 0) ∧
      (fdAllocLoop fdt left idx < idx + left →
        (fdt.fds (fdAllocLoop fdt left idx)).refCount = 0) := by
  induction left generalizing idx with
  | zero =>
    show idx ≤ idx ∧ idx ≤ idx + 0 ∧ (∀ j, idx ≤ j → j < idx → _) ∧ (idx < idx + 0 → _)
    refine ⟨Nat.le_refl _, Nat.le_refl _, ?_, ?_⟩
    · intro j hle hlt
      omega
    · intro hlt
      omega
  | succ left ih =>
    unfold fdAllocLoop
    by_cases hfree : (fdt.fds idx).refCount = 0
    · rw [if_pos hfree]
      refine ⟨Nat.le_refl _, by omega, ?_, fun _ => hfree⟩
      intro j hle hlt
      omega
    · rw [if_neg hfree]
      obtain ⟨hge, hle, hskip, hstop⟩ := ih (idx + 1)
      refine ⟨by omega, by omega, ?_, fun hlt => hstop (by omega)⟩
      intro j hj hlt
      by_cases heq : j = idx
      · rw [heq]
        exact hfree
      · exact hskip j (by omega) hlt

private theorem skFdAlloc_spec (fdt : VfsFdtable) :
    (skFdAlloc fdt 0 = -1 ∧ ∀ i < fdt.maxFd, (fdt.fds i).refCount ≠ 0) ∨
    ∃ i : Nat, skFdAlloc fdt 0 = i ∧ i < fdt.maxFd ∧ (fdt.fds i).refCount = 0 := by
  obtain ⟨-, hle, hskip, hstop⟩ := fdAllocLoop_spec fdt (fdt.maxFd - 0) 0
  unfold skFdAlloc
  dsimp only
  generalize fdAllocLoop fdt (fdt.maxFd - 0) 0 = idx at *
  by_cases hfull : idx = fdt.maxFd
  · left
    rw [if_pos hfull]
    exact ⟨rfl, fun i hi => hskip i (Nat.zero_le i) (by omega)⟩
  · right
    rw [if_neg hfull]
    exact ⟨idx, rfl, by omega, hstop (by omega)⟩

private theorem skFdNew_cases (fdt : VfsFdtable) :
    (skFdNew fdt = (-1, fdt) ∧ ∀ i < fdt.maxFd, (fdt.fds i).refCount ≠ 0) ∨
    ∃ i : Nat, i < fdt.maxFd ∧ (fdt.fds i).refCount = 0 ∧ skFdNew fdt =
      ((i : Int), { fdt with fds := update fdt.fds i ⟨vfsFdMagic, 1⟩ }) := by
  unfold skFdNew
  cases skFdAlloc_spec fdt with
  | inl hnone =>
    left
    simp only [hnone.1, ↓reduceIte, true_and]
    exact hnone.2
  | inr hsome =>
    obtain ⟨i, heq, hlt, hfree⟩ := hsome
    right
    have hne : ((i : Nat) : Int) ≠ -1 := by omega
    refine ⟨i, hlt, hfree, ?_⟩
    simp only [heq, hne, ↓reduceIte, Int.toNat_natCast]

private theorem skGetFd_cases (fdt : VfsFdtable) (fd : Int) :
    (0 ≤ fd ∧ fd < fdt.maxFd ∧ (fdt.fds fd.toNat).magic = vfsFdMagic ∧ skGetFd fdt fd =
      (some fd.toNat,
        { fdt with
          fds := update fdt.fds fd.toNat
            ⟨(fdt.fds fd.toNat).magic, (fdt.fds fd.toNat).refCount + 1⟩ })) ∨
    (¬(0 ≤ fd ∧ fd < fdt.maxFd ∧ (fdt.fds fd.toNat).magic = vfsFdMagic) ∧
      skGetFd fdt fd = (none, fdt)) := by
  unfold skGetFd
  by_cases hrange : fd < 0 ∨ fd ≥ fdt.maxFd
  · right
    rw [if_pos hrange]
    exact ⟨by omega, rfl⟩
  · rw [if_neg hrange]
    by_cases hmagic : (fdt.fds fd.toNat).magic = vfsFdMagic
    · left
      simp only [hmagic, ne_eq, not_true_eq_false, ↓reduceIte]
      exact ⟨by omega, by omega, trivial, trivial⟩
    · right
      simp only [hmagic, ne_eq, not_false_eq_true, ↓reduceIte]
      exact ⟨fun h => h.2.2, trivial⟩

/-! ## The invariant -/

/-- `ref_count` counts the references, and the magic number marks what has been handed out. -/
structure FdInv (x : FdSys) : Prop where
  count : ∀ i, (x.tab.fds i).refCount.toNat = x.refs i
  magic : ∀ i, (x.tab.fds i).magic = vfsFdMagic ↔ x.handedOut i = true
  used : ∀ i, 0 < x.refs i → x.handedOut i = true

namespace FdInv

variable {x x' : FdSys} {fd : Int} {n : Nat}

theorem init (h : (fdSystem n).init x) : FdInv x := by
  obtain ⟨htab, hrefs, hout⟩ := h
  refine ⟨?_, ?_, ?_⟩
  · simp [htab, hrefs, skFdtInit]
  · simp [htab, hout, skFdtInit, vfsFdMagic]
  · simp [hrefs]

variable (h : FdInv x)
include h

private theorem refCount_eq_zero_iff (i : Nat) : (x.tab.fds i).refCount = 0 ↔ x.refs i = 0 := by
  have hcount := h.count i
  constructor
  · intro hzero
    rw [hzero] at hcount
    exact hcount.symm
  · intro hzero
    rw [hzero] at hcount
    exact BitVec.eq_of_toNat_eq hcount

/-- One descriptor changes. -/
theorem update {i : Nat} {d : VfsFd} {n : Nat} {b : Bool} (hcount : d.refCount.toNat = n)
    (hmagic : d.magic = vfsFdMagic ↔ b = true) (hused : 0 < n → b = true) (maxFd : Nat) :
    FdInv
      { tab := { maxFd, fds := update x.tab.fds i d }
        refs := update x.refs i n
        handedOut := update x.handedOut i b } := by
  refine ⟨?_, ?_, ?_⟩ <;> intro j <;> dsimp only <;> by_cases hj : j = i
  · subst hj
    simpa using hcount
  · simpa [hj] using h.count j
  · subst hj
    simpa using hmagic
  · simpa [hj] using h.magic j
  · subst hj
    simpa using hused
  · simpa [hj] using h.used j

private theorem fdNew (hstep : x.step .fdNew = some x') : FdInv x' := by
  cases skFdNew_cases x.tab with
  | inl hnone =>
    simp only [FdSys.step, hnone.1, ↓reduceIte] at hstep
    cases hstep
    exact h
  | inr hsome =>
    obtain ⟨i, -, hfree, heq⟩ := hsome
    have hne : ((i : Nat) : Int) ≠ -1 := by omega
    simp only [FdSys.step, heq, hne, ↓reduceIte, Int.toNat_natCast] at hstep
    cases hstep
    rw [(h.refCount_eq_zero_iff i).mp hfree]
    exact h.update rfl (by simp) (by simp) _

private theorem getFd (hsound : x.Counted (.getFd fd)) (hstep : x.step (.getFd fd) = some x') :
    FdInv x' := by
  cases skGetFd_cases x.tab fd with
  | inr hnone =>
    simp only [FdSys.step, hnone.2] at hstep
    cases hstep
    exact h
  | inl hsome =>
    obtain ⟨-, -, hmagic, heq⟩ := hsome
    simp only [FdSys.step, heq] at hstep
    cases hstep
    have hout := (h.magic fd.toNat).mp hmagic
    have hcount := h.count fd.toNat
    have hlt : x.refs fd.toNat + 1 < 2 ^ 32 := hsound
    have hinv := h.update (i := fd.toNat)
      (d := ⟨(x.tab.fds fd.toNat).magic, (x.tab.fds fd.toNat).refCount + 1⟩)
      (n := x.refs fd.toNat + 1) (b := x.handedOut fd.toNat)
      (by rw [BitVec.toNat_add, hcount]; exact Nat.mod_eq_of_lt hlt) (h.magic fd.toNat)
      (fun _ => hout) x.tab.maxFd
    rw [update_eq_self] at hinv
    exact hinv

theorem putFd {d : Nat} (hsound : x.Counted (.putFd d)) (hstep : x.step (.putFd d) = some x') :
    FdInv x' := by
  have hpos : 0 < x.refs d := hsound
  have hcount := h.count d
  have hgt : (x.tab.fds d).refCount > 0 := by
    show (0 : BitVec 32).toNat < (x.tab.fds d).refCount.toNat
    rw [hcount]
    exact hpos
  simp only [FdSys.step, skPutFd, hgt, ↓reduceIte] at hstep
  cases hstep
  have hinv := h.update (i := d) (d := ⟨(x.tab.fds d).magic, (x.tab.fds d).refCount - 1⟩)
    (n := x.refs d - 1) (b := x.handedOut d)
    (by rw [← hcount]; exact BitVec.toNat_sub_of_le (by bv_omega)) (h.magic d)
    (fun _ => h.used d hpos) x.tab.maxFd
  rw [update_eq_self] at hinv
  exact hinv

/-- Every call keeps the invariant. -/
theorem step (op : FdOp) (hsound : x.Counted op) (hstep : x.step op = some x') : FdInv x' := by
  cases op with
  | fdNew => exact h.fdNew hstep
  | getFd fd => exact h.getFd hsound hstep
  | putFd fd => exact h.putFd hsound hstep

private theorem newOk : x.NewOk := by
  have hpos : ∀ i, (x.tab.fds i).refCount ≠ 0 ↔ 0 < x.refs i := by
    intro i
    rw [ne_eq, h.refCount_eq_zero_iff i]
    omega
  cases skFdNew_cases x.tab with
  | inl hnone =>
    refine ⟨?_, ?_, ?_⟩
    · left
      rw [hnone.1]
    · intro i hi
      rw [hnone.1] at hi
      dsimp only at hi
      omega
    · rw [hnone.1]
      exact ⟨fun _ i hi => (hpos i).mp (hnone.2 i hi), fun _ => rfl⟩
  | inr hsome =>
    obtain ⟨i, hlt, hfree, heq⟩ := hsome
    have hzero := (h.refCount_eq_zero_iff i).mp hfree
    refine ⟨?_, ?_, ?_⟩
    · right
      exact ⟨i, by rw [heq], hlt⟩
    · intro j hj
      rw [heq] at hj
      rw [← Int.ofNat.inj hj]
      exact hzero
    · rw [heq]
      constructor
      · intro hneg
        dsimp only at hneg
        omega
      · intro hall
        have := hall i hlt
        omega

private theorem getOk_iff (fd : Int) : x.GetOk fd ↔ ¬x.Stale fd := by
  have hused := h.used fd.toNat
  have hmagic := h.magic fd.toNat
  unfold FdSys.GetOk FdSys.Stale
  cases skGetFd_cases x.tab fd with
  | inl hsome =>
    obtain ⟨hge, hlt, hfd, heq⟩ := hsome
    have hout := hmagic.mp hfd
    simp only [heq, ne_eq, reduceCtorEq, not_false_eq_true, hge, hlt, hout, true_and, true_iff]
    omega
  | inr hnone =>
    obtain ⟨hnot, heq⟩ := hnone
    rw [heq, hmagic] at *
    simp only [ne_eq, not_true_eq_false, false_iff]
    constructor
    · intro _ hstale
      exact hnot ⟨hstale.1, hstale.2.1, hstale.2.2.1⟩
    · intro _ href
      exact hnot ⟨href.1, href.2.1, hused href.2.2⟩

end FdInv

/-- **File-descriptor lifecycle.** Along every run of `sk_fd_new`, `sk_get_fd` and `sk_put_fd`, in
    which each reference is given back at most once and no descriptor has `2 ^ 32` references:
    `sk_fd_new` returns an unreferenced descriptor, and -1 exactly when there is none, and
    `ref_count` is the number of references. `sk_get_fd` finds descriptor `fd` exactly when it is
    in range and referenced, unless it has been handed out and all its references have been given
    back; for these descriptors it is wrong. -/
theorem fd_lifecycle_iff {n : Nat} {x : FdSys} (h : (fdSystem n).Reach FdSys.Counted x) :
    x.NewOk ∧ (∀ i, (x.tab.fds i).refCount.toNat = x.refs i) ∧
      ∀ fd, x.GetOk fd ↔ ¬x.Stale fd := by
  have hinv : FdInv x :=
    h.invariant (fun _ => FdInv.init) fun _ op _ hinv hsound => hinv.step op hsound
  exact ⟨hinv.newOk, hinv.count, hinv.getOk_iff⟩

/-- The table of `sk_fdt_init`. -/
def initialFds : FdSys where
  tab := skFdtInit vfsMaxFd
  refs := fun _ => 0
  handedOut := fun _ => false

private theorem reach_initialFds (guard : FdSys → FdOp → Prop) :
    (fdSystem vfsMaxFd).Reach guard initialFds :=
  .init ⟨rfl, rfl, rfl⟩

/-- Two descriptors are handed out, and a second reference to the first one is obtained. -/
theorem fd_lifecycle_iff_two :
    ∃ x, (fdSystem vfsMaxFd).Reach FdSys.Counted x ∧ x.refs 0 = 2 ∧ x.refs 1 = 1 ∧ x.NewOk := by
  obtain ⟨x, hx, hp⟩ := (reach_initialFds FdSys.Counted).exists_of_run
    [.fdNew, .fdNew, .getFd 0, .getFd 7] (fun x => x.refs 0 = 2 ∧ x.refs 1 = 1) (by decide +kernel)
  obtain ⟨h0, h1⟩ := of_decide_eq_true hp
  exact ⟨x, hx, h0, h1, (fd_lifecycle_iff hx).1⟩

/-- A descriptor is handed out and given back; `sk_get_fd` still finds it. -/
theorem fd_lifecycle_fails :
    ∃ x, (fdSystem vfsMaxFd).Reach FdSys.Counted x ∧ x.refs 0 = 0 ∧
      (skGetFd x.tab 0).1 = some 0 ∧ ¬x.GetOk 0 := by
  obtain ⟨x, hx, hp⟩ := (reach_initialFds FdSys.Counted).exists_of_run [.fdNew, .putFd 0]
    (fun x => x.refs 0 = 0 ∧ (skGetFd x.tab 0).1 = some 0) (by decide +kernel)
  obtain ⟨hrefs, hget⟩ := of_decide_eq_true hp
  refine ⟨x, hx, hrefs, hget, ?_⟩
  intro hok
  have href := (hok.mp (by simp [hget])).2.2
  rw [show (0 : Int).toNat = 0 from rfl, hrefs] at href
  cases href

end SKernel.Spec
