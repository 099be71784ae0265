import SKernel.Native.Mutex
import SKernel.Spec.IpcWait

/-!
# Mutual exclusion

Threads lock and unlock mutexes, sleep, and are interrupted by the timer at any point where
interrupts are enabled. `held o t` counts the calls of `sk_mutex_lock` on mutex `o` that have
returned `SK_EOK` to thread `t` and have not been matched by a `sk_mutex_unlock` yet. At most
one thread is meant to hold a mutex, and it is its `owner`.

A blocked `sk_mutex_lock` returns `SK_EOK` without looking at what woke it up. When the timer of
the thread has expired, this is wrong: the owner is another thread. The same happens when a tick
ends the time slice of a thread that has blocked and has not called `sk_schedule` yet.
-/

namespace SKernel.Spec

open Native Function Option

/-! ## The calls -/

section

variable {c : Tid} {k k' : Kernel} {m m' : Mutex} {l : ListHead} {time : Int} {fuel : Nat}
variable {e : CallEnd}

/-- The mutex after thread `c` has taken it, except for `hold`. -/
def takenMutex (k : Kernel) (m : Mutex) (c : Tid) : Mutex :=
  { m with
    value := m.value - 1
    owner := some c
    originalPri := (k.sched.thread c).currentPri }

/-- What `sk_mutex_lock` can do when thread `c` calls it. -/
inductive MutexLock (c : Tid) (k : Kernel) (m : Mutex) (l : ListHead) (time : Int) (fuel : Nat) :
    CallEnd → Kernel → Mutex → Prop where
  | relock (howner : m.owner = some c) (hmax : m.hold < mutexHoldMax) :
      MutexLock c k m l time fuel (.ret .eok) k { m with hold := m.hold + 1 }
  | relockFull (howner : m.owner = some c) :
      MutexLock c k m l time fuel (.ret .efull) k m
  | take (howner : m.owner ≠ some c) (hvalue : m.value > 0) :
      MutexLock c k m l time fuel (.ret .eok) k { takenMutex k m c with hold := m.hold + 1 }
  | takeFull (hvalue : m.value > 0) (hmax : ¬m.hold < mutexHoldMax) :
      MutexLock c k m l time fuel (.ret .efull) k (takenMutex k m c)
  | timeout : MutexLock c k m l time fuel (.ret .etimeout) k m
  | block (howner : m.owner ≠ some c) (hvalue : ¬m.value > 0) {k' : Kernel}
      (hblock : ipcBlock fuel k l ipcFlagPrio time = some k') :
      MutexLock c k m l time fuel .schedule k' m

theorem skMutexLock_cases (hc : k.sched.currentThread = some c)
    (h : skMutexLock fuel k m l time = some (e, k', m')) :
    MutexLock c k m l time fuel e k' m' := by
  unfold skMutexLock at h
  rw [hc] at h
  dsimp only at h
  by_cases howner : m.owner = some c
  · rw [if_pos howner] at h
    split at h
    · cases h
      exact .relock howner ‹_›
    · cases h
      exact .relockFull howner
  · rw [if_neg howner] at h
    by_cases hvalue : m.value > 0
    · rw [if_pos hvalue] at h
      split at h
      · cases h
        exact .take howner hvalue
      · cases h
        exact .takeFull hvalue ‹_›
    · rw [if_neg hvalue] at h
      split at h
      · cases h
        exact .timeout
      · obtain ⟨k1, hblock, heq⟩ := map_eq_some_iff.mp h
        cases heq
        exact .block howner hvalue hblock

/-- What `sk_mutex_unlock` can do when thread `c` calls it. -/
inductive MutexUnlock (c : Tid) (k : Kernel) (m : Mutex) (l : ListHead) :
    CallEnd → Kernel → Mutex → Prop where
  | notOwner (howner : m.owner ≠ some c) : MutexUnlock c k m l (.ret .error) k m
  | once (howner : m.owner = some c) (hhold : (m.hold + 0xFF) % 0x100 ≠ 0) :
      MutexUnlock c k m l (.ret .eok) k { m with hold := (m.hold + 0xFF) % 0x100 }
  | release (howner : m.owner = some c) (hhold : (m.hold + 0xFF) % 0x100 = 0)
      (hempty : skListEmpty k.sched.links (.head l) = true) :
      MutexUnlock c k m l (.ret .eok) k
        { value := (m.value + 1) % 0x10000
          originalPri := 0xFF
          hold := (m.hold + 0xFF) % 0x100
          owner := none }
  | handOver (t : Tid) (howner : m.owner = some c) (hhold : (m.hold + 0xFF) % 0x100 = 0)
      (hempty : skListEmpty k.sched.links (.head l) = false)
      (hfirst : ipcFirstThread k.sched l = some t) :
      MutexUnlock c k m l .schedule (skThreadResume k t).2
        { value := m.value
          originalPri := (k.sched.thread t).currentPri
          hold := (m.hold + 0xFF) % 0x100 + 1
          owner := some t }

theorem skMutexUnlock_cases (hc : k.sched.currentThread = some c)
    (h : skMutexUnlock k m l = some (e, k', m')) : MutexUnlock c k m l e k' m' := by
  unfold skMutexUnlock at h
  rw [hc] at h
  dsimp only at h
  by_cases howner : m.owner = some c
  · rw [if_neg (not_not.mpr howner)] at h
    by_cases hhold : (m.hold + 0xFF) % 0x100 = 0
    · rw [if_pos hhold] at h
      split at h
      · cases h
        exact .release howner hhold ‹_›
      · rename_i hempty
        obtain ⟨t, hfirst, heq⟩ := map_eq_some_iff.mp h
        cases heq
        exact .handOver t howner hhold (Bool.eq_false_iff.mpr hempty) hfirst
    · rw [if_neg hhold] at h
      cases h
      exact .once howner hhold
  · rw [if_pos howner] at h
    cases h
    exact .notOwner howner

end

/-! ## The system -/

/-- The kernel, the mutexes, the threads blocked in `sk_mutex_lock`, and its successful calls that
    are not matched yet. Mutex `o` has the wait list `o`. -/
structure MutexSys where
  sys : BlockSys
  mutex : Nat → Mutex
  waits : Tid → Option Nat
  held : Nat → Tid → Nat

/-- Calls of the running thread, and the return from a `sk_mutex_lock` that has blocked. -/
inductive MutexCall where
  | lock (o : Nat) (time : Int) (fuel : Nat)
  | lockReturn
  | unlock (o : Nat)

namespace MutexSys

/-- The mutex has been handed to the thread. -/
def Owns (x : MutexSys) (t : Tid) (o : Nat) : Prop := (x.mutex o).owner = some t

instance (x : MutexSys) (t : Tid) (o : Nat) : Decidable (x.Owns t o) :=
  inferInstanceAs (Decidable ((x.mutex o).owner = some t))

/-- Add `n` to the calls that thread `t` holds mutex `o` by. -/
def addHeld (x : MutexSys) (o : Nat) (t : Tid) (n : Int) : Nat → Tid → Nat :=
  update x.held o (update (x.held o) t ((x.held o t : Int) + n).toNat)

/-- `sk_mutex_lock` by thread `c`. -/
def lock (x : MutexSys) (c : Tid) (o : Nat) (time : Int) (fuel : Nat) : Option MutexSys :=
  match skMutexLock fuel x.sys.k (x.mutex o) (.wait o) time with
  | none => none
  | some (.ret code, k, m) => some
    { x with
      sys := { x.sys with k := k }
      mutex := update x.mutex o m
      held := if code = .eok then x.addHeld o c 1 else x.held }
  | some (.schedule, k, m) => some
    { x with
      sys := x.sys.wait c o ipcFlagPrio k
      mutex := update x.mutex o m
      waits := update x.waits c (some o) }

/-- The return of `SK_EOK` from a call of `sk_mutex_lock` by thread `c` that has blocked. -/
def lockReturn (x : MutexSys) (c : Tid) : Option MutexSys :=
  (x.waits c).map fun o =>
    { x with
      waits := update x.waits c none
      held := x.addHeld o c 1 }

/-- `sk_mutex_unlock` by thread `c`. If `sk_schedule` follows, the new owner has been resumed. -/
def unlock (x : MutexSys) (c : Tid) (o : Nat) : Option MutexSys :=
  match skMutexUnlock x.sys.k (x.mutex o) (.wait o) with
  | none => none
  | some (.ret code, k, m) => some
    { x with
      sys := { x.sys with k := k }
      mutex := update x.mutex o m
      held := if code = .eok then x.addHeld o c (-1) else x.held }
  | some (.schedule, k, m) =>
    m.owner.map fun t =>
      { x with
        sys := x.sys.resume t k
        mutex := update x.mutex o m
        held := x.addHeld o c (-1) }

/-- The state after an event. -/
def step (idle : Tid) (x : MutexSys) : IpcOp MutexCall → Option MutexSys
  | .call (.lock o time fuel) =>
    (x.sys.free idle x.waits).bind fun c => x.lock c o time fuel
  | .call .lockReturn => (x.sys.caller idle).bind x.lockReturn
  | .call (.unlock o) => (x.sys.free idle x.waits).bind fun c => x.unlock c o
  | op => (x.sys.elapse idle x.waits op).map fun sys => { x with sys := sys }

/-- The ticks are harmless. -/
def NoTimeout (x : MutexSys) (op : IpcOp MutexCall) : Prop :=
  op.OnTick (TickHarmless x.sys x.waits x.Owns)

instance (x : MutexSys) (op : IpcOp MutexCall) : Decidable (x.NoTimeout op) :=
  inferInstanceAs (Decidable (op.OnTick _))

/-- At most one thread holds a mutex, and it is the owner. -/
def MutualExclusion (x : MutexSys) : Prop :=
  ∀ o t, 0 < x.held o t → (x.mutex o).owner = some t ∧ ∀ u, 0 < x.held o u → u = t

end MutexSys

/-- At first the scheduler has been started and every mutex has been initialised. -/
def mutexSystem (idle : Tid) : TransitionSystem MutexSys (IpcOp MutexCall) where
  init x := x.sys.Started idle ∧ x.mutex = (fun _ => skMutexInit) ∧ x.waits = (fun _ => none) ∧
    x.held = fun _ _ => 0
  step := MutexSys.step idle

/-! ## The invariant -/

/-- A mutex is free, or its owner holds it `hold` times, counting a hand-over before `sk_mutex_lock`
    has returned. -/
inductive MutexState (waits : Tid → Option Nat) (o : Nat) (m : Mutex) (held : Tid → Nat) : Prop
  | free (hvalue : m.value = 1) (howner : m.owner = none) (hhold : m.hold = 0)
      (hheld : ∀ t, held t = 0) : MutexState waits o m held
  | owned (t : Tid) (hvalue : m.value = 0) (howner : m.owner = some t) (hpos : 0 < m.hold)
      (hle : m.hold ≤ mutexHoldMax)
      (hhold : m.hold = held t + if waits t = some o then 1 else 0)
      (hheld : ∀ u, u ≠ t → held u = 0) : MutexState waits o m held

/-- The invariant of the runs. -/
structure MutexInv (idle : Tid) (x : MutexSys) : Prop where
  ipc : IpcInv idle x.sys x.waits x.Owns
  state : ∀ o, MutexState x.waits o (x.mutex o) (x.held o)

variable {idle : Tid} {x x' : MutexSys} {c t : Tid} {o : Nat}

theorem MutexState.congr {waits waits' : Tid → Option Nat} {held : Tid → Nat}
    (h : MutexState waits o m held)
    (hw : ∀ t, m.owner = some t → (waits' t = some o ↔ waits t = some o)) :
    MutexState waits' o m held := by
  cases h with
  | free hvalue howner hhold hheld => exact .free hvalue howner hhold hheld
  | owned t hvalue howner hpos hle hhold hheld =>
    refine .owned t hvalue howner hpos hle ?_ hheld
    simp only [hw t howner]
    exact hhold

namespace MutexSys

theorem addHeld_of_ne (x : MutexSys) {o' : Nat} (ho : o' ≠ o) (t : Tid) (n : Int) :
    x.addHeld o t n o' = x.held o' :=
  update_of_ne ho ..

theorem addHeld_self (x : MutexSys) (o : Nat) (t u : Tid) (n : Int) :
    x.addHeld o t n o u = if u = t then ((x.held o t : Int) + n).toNat else x.held o u := by
  unfold addHeld
  rw [update_self, update_apply]

end MutexSys

namespace MutexInv

theorem owns_update {u : Tid} (hm : m.owner = some u ↔ (x.mutex o).owner = some u) (o' : Nat) :
    (update x.mutex o m o').owner = some u ↔ x.Owns u o' := by
  unfold MutexSys.Owns
  by_cases hoo : o' = o
  · rw [hoo, update_self]
    exact hm
  · rw [update_of_ne hoo]

/-- A call on mutex `o` leaves the other mutexes alone. -/
theorem setMutex (h : MutexInv idle x) {sys : BlockSys} {n : Int}
    (hipc : IpcInv idle sys x.waits fun t o' => (update x.mutex o m o').owner = some t)
    (ho : MutexState x.waits o m (x.addHeld o c n o)) :
    MutexInv idle ⟨sys, update x.mutex o m, x.waits, x.addHeld o c n⟩ := by
  refine ⟨hipc, ?_⟩
  intro o'
  dsimp only
  by_cases hoo : o' = o
  · subst hoo
    rw [update_self]
    exact ho
  · rw [update_of_ne hoo, x.addHeld_of_ne hoo]
    exact h.state o'

theorem ne_of_waits {waits : Tid → Option Nat} (hc : waits c = none) (ht : waits t = some o) :
    c ≠ t := by
  intro heq
  rw [← heq, hc] at ht
  cases ht

section

variable (h : MutexInv idle x)
include h

theorem of_owner (howner : (x.mutex o).owner = some c) (hwc : x.waits c = none) :
    (x.mutex o).value = 0 ∧ 0 < (x.mutex o).hold ∧ (x.mutex o).hold ≤ mutexHoldMax ∧
      (x.mutex o).hold = x.held o c ∧ ∀ u, u ≠ c → x.held o u = 0 := by
  cases h.state o with
  | free _ hnone =>
    rw [hnone] at howner
    cases howner
  | owned t hvalue howner' hpos hle hhold hheld =>
    cases howner'.symm.trans howner
    rw [hwc] at hhold
    exact ⟨hvalue, hpos, hle, hhold, hheld⟩

theorem setHold (hwc : x.waits c = none) (howner : (x.mutex o).owner = some c) {n : Nat} {d : Int}
    (hpos : 0 < n) (hmax : n ≤ mutexHoldMax) (hcount : (n : Int) = (x.mutex o).hold + d) :
    MutexInv idle
      { x with
        mutex := update x.mutex o { x.mutex o with hold := n }
        held := x.addHeld o c d } := by
  obtain ⟨hvalue, -, -, hhold, hheld⟩ := h.of_owner howner hwc
  refine h.setMutex (h.ipc.congr fun u o' _ => owns_update (by rfl) o') ?_
  refine .owned c hvalue howner hpos hmax ?_ ?_
  · rw [x.addHeld_self, if_pos rfl, hwc]
    simp only [reduceCtorEq, ↓reduceIte]
    omega
  · intro u hu
    rw [x.addHeld_self, if_neg hu]
    exact hheld u hu

/-- A thread locks a free mutex. -/
theorem acquire (hwc : x.waits c = none) (hvalue : (x.mutex o).value > 0) (pri : Nat) :
    (x.mutex o).hold < mutexHoldMax ∧
    MutexInv idle
      { x with
        mutex := update x.mutex o
          { value := (x.mutex o).value - 1
            originalPri := pri
            hold := (x.mutex o).hold + 1
            owner := some c }
        held := x.addHeld o c 1 } := by
  cases h.state o with
  | owned => omega
  | free hvalue' hnone hhold hheld =>
    rw [hhold, hvalue']
    refine ⟨by decide, h.setMutex ?_ ?_⟩
    · -- the new owner waits for nothing, so no waiting thread has been granted anything
      refine h.ipc.congr fun u o' hu => owns_update ?_ o'
      have hcu := ne_of_waits hwc hu
      simp [hnone, hcu]
    · refine .owned c rfl rfl (Nat.succ_pos _) (show 0 + 1 ≤ 0xFF by decide) ?_ ?_
      · rw [x.addHeld_self, if_pos rfl, hwc, hheld c]
        rfl
      · intro u hu
        rw [x.addHeld_self, if_neg hu]
        exact hheld u

/-- A thread blocks on a mutex that another thread owns. -/
theorem lockWait (hrun : x.sys.Runs idle c) (hwc : x.waits c = none)
    (howner : (x.mutex o).owner ≠ some c) {k : Kernel}
    (hblock : ipcBlock fuel x.sys.k (.wait o) ipcFlagPrio time = some k) :
    MutexInv idle
      { x with
        sys := x.sys.wait c o ipcFlagPrio k
        waits := update x.waits c (some o) } := by
  refine ⟨h.ipc.wait hrun hblock howner, ?_⟩
  intro o'
  refine (h.state o').congr ?_
  intro t ht
  by_cases htc : t = c
  · -- the mutexes that the caller owns are others
    subst htc
    have hoo : o ≠ o' := by
      intro heq
      exact howner (heq ▸ ht)
    simp [hwc, hoo]
  · show update x.waits c (some o) t = some o' ↔ _
    rw [update_of_ne htc]

theorem lock (hc : x.sys.free idle x.waits = some c)
    (hlock : x.lock c o time fuel = some x') : MutexInv idle x' := by
  obtain ⟨-, hrun, hwc⟩ := BlockSys.of_free hc
  unfold MutexSys.lock at hlock
  cases hcall : skMutexLock fuel x.sys.k (x.mutex o) (.wait o) time with
  | none =>
    rw [hcall] at hlock
    cases hlock
  | some r =>
    obtain ⟨e, k, m⟩ := r
    rw [hcall] at hlock
    cases skMutexLock_cases hrun.1 hcall with
    | relock howner hmax =>
      cases hlock
      exact h.setHold hwc howner (Nat.succ_pos _) hmax (Nat.cast_succ _)
    | relockFull | timeout =>
      simp only [update_eq_self, reduceCtorEq, ↓reduceIte] at hlock
      cases hlock
      exact h
    | take howner hvalue =>
      cases hlock
      exact (h.acquire hwc hvalue (x.sys.k.sched.thread c).currentPri).2
    | takeFull hvalue hmax =>
      -- a free mutex is not locked `0xFF` times
      exact absurd (h.acquire hwc hvalue (x.sys.k.sched.thread c).currentPri).1 hmax
    | block howner hvalue hblock =>
      simp only [update_eq_self] at hlock
      cases hlock
      exact h.lockWait hrun hwc howner hblock

theorem lockReturn (hrun : x.sys.Runs idle c) (hret : x.lockReturn c = some x') :
    MutexInv idle x' := by
  unfold MutexSys.lockReturn at hret
  obtain ⟨o, hwc, rfl⟩ := map_eq_some_iff.mp hret
  have howner : (x.mutex o).owner = some c := h.ipc.granted_of_runs hrun hwc
  refine ⟨h.ipc.ret hrun fun _ _ _ _ => Iff.rfl, ?_⟩
  intro o'
  dsimp only
  have hstate := h.state o'
  by_cases hoo : o' = o
  · subst hoo
    cases hstate with
    | free _ hnone =>
      rw [hnone] at howner
      cases howner
    | owned t hvalue howner' hpos hle hhold hheld =>
      cases howner'.symm.trans howner
      -- the lock that had been handed over is counted from now on
      rw [if_pos hwc] at hhold
      refine .owned c hvalue howner hpos hle ?_ ?_
      · rw [x.addHeld_self, if_pos rfl, update_self]
        simp only [reduceCtorEq, ↓reduceIte]
        omega
      · intro u hu
        rw [x.addHeld_self, if_neg hu]
        exact hheld u hu
  · rw [x.addHeld_of_ne hoo]
    refine hstate.congr ?_
    intro t _
    by_cases htc : t = c
    · subst htc
      simp [hwc, Ne.symm hoo]
    · rw [update_of_ne htc]

theorem unlockFree (hwc : x.waits c = none) (howner : (x.mutex o).owner = some c)
    (hhold : ((x.mutex o).hold + 0xFF) % 0x100 = 0) :
    MutexInv idle
      { x with
        mutex := update x.mutex o
          { value := ((x.mutex o).value + 1) % 0x10000
            originalPri := 0xFF
            hold := ((x.mutex o).hold + 0xFF) % 0x100
            owner := none }
        held := x.addHeld o c (-1) } := by
  obtain ⟨hvalue, hpos, hle, hheld, hother⟩ := h.of_owner howner hwc
  have hmax : (x.mutex o).hold ≤ 0xFF := hle
  refine h.setMutex (h.ipc.congr fun u o' hu => owns_update ?_ o') (.free ?_ rfl hhold ?_)
  · have hcu := ne_of_waits hwc hu
    simp [howner, hcu]
  · rw [hvalue]
  · intro u
    rw [x.addHeld_self]
    split
    · omega
    · rename_i hu
      exact hother u hu

theorem unlockHandOver (hrun : x.sys.Runs idle c) (hwc : x.waits c = none)
    (howner : (x.mutex o).owner = some c) (hhold : ((x.mutex o).hold + 0xFF) % 0x100 = 0)
    (ht : x.sys.FirstWaits o t) {pri : Nat} :
    MutexInv idle
      { x with
        sys := x.sys.resume t (skThreadResume x.sys.k t).2
        mutex := update x.mutex o
          { value := (x.mutex o).value
            originalPri := pri
            hold := ((x.mutex o).hold + 0xFF) % 0x100 + 1
            owner := some t }
        held := x.addHeld o c (-1) } := by
  obtain ⟨hvalue, hpos, hle, hheld, hother⟩ := h.of_owner howner hwc
  have hmax : (x.mutex o).hold ≤ 0xFF := hle
  obtain ⟨hwt, hnt⟩ := h.ipc.linked t o ht.linked
  have htc := (ne_of_waits hwc hwt).symm
  refine h.setMutex (h.ipc.handOver hrun ht ?_ ?_) (.owned t hvalue rfl ?_ ?_ ?_ ?_)
  · rw [update_self]
  · intro u hut o' hu
    refine owns_update ?_ o'
    have hcu := ne_of_waits hwc hu
    simp [howner, hcu, Ne.symm hut]
  · exact Nat.succ_pos _
  · rw [hhold]
    exact show 0 + 1 ≤ 0xFF by decide
  · -- the new owner has not returned from `sk_mutex_lock`, so it has no locks yet
    rw [x.addHeld_self, if_neg htc, hother t htc, if_pos hwt, hhold]
  · intro u hu
    rw [x.addHeld_self]
    split
    · omega
    · rename_i huc
      exact hother u huc

theorem unlock (hc : x.sys.free idle x.waits = some c)
    (hunlock : x.unlock c o = some x') :
    MutexInv idle x' := by
  obtain ⟨-, hrun, hwc⟩ := BlockSys.of_free hc
  unfold MutexSys.unlock at hunlock
  cases hcall : skMutexUnlock x.sys.k (x.mutex o) (.wait o) with
  | none =>
    rw [hcall] at hunlock
    cases hunlock
  | some r =>
    obtain ⟨e, k, m⟩ := r
    rw [hcall] at hunlock
    cases skMutexUnlock_cases hrun.1 hcall with
    | notOwner =>
      simp only [update_eq_self, reduceCtorEq, ↓reduceIte] at hunlock
      cases hunlock
      exact h
    | once howner hhold =>
      cases hunlock
      obtain ⟨-, hpos, hle, -⟩ := h.of_owner howner hwc
      have hmax : (x.mutex o).hold ≤ 0xFF := hle
      refine h.setHold hwc howner (Nat.pos_of_ne_zero hhold) ?_ ?_
      · unfold mutexHoldMax
        omega
      · omega
    | release howner hhold =>
      cases hunlock
      exact h.unlockFree hwc howner hhold
    | handOver t howner hhold hempty hfirst =>
      obtain ⟨u, hu⟩ := h.ipc.block.firstThread hempty
      cases hfirst.symm.trans hu.first
      cases hunlock
      exact h.unlockHandOver hrun hwc howner hhold hu

theorem step {op : IpcOp MutexCall} (hguard : x.NoTimeout op)
    (hstep : x.step idle op = some x') : MutexInv idle x' := by
  cases op with
  | call call =>
    cases call with
    | lock =>
      obtain ⟨c, hc, hlock⟩ := bind_eq_some_iff.mp hstep
      exact h.lock hc hlock
    | lockReturn =>
      obtain ⟨c, hc, hret⟩ := bind_eq_some_iff.mp hstep
      exact h.lockReturn (BlockSys.runs_of_caller hc) hret
    | unlock o =>
      obtain ⟨c, hc, hunlock⟩ := bind_eq_some_iff.mp hstep
      exact h.unlock hc hunlock
  | sleep | schedule | tick =>
    obtain ⟨sys, hsys, rfl⟩ := map_eq_some_iff.mp hstep
    exact ⟨h.ipc.elapse hguard hsys, h.state⟩

theorem mutualExclusion : x.MutualExclusion := by
  intro o t ht
  cases h.state o with
  | free _ _ _ hheld =>
    rw [hheld t] at ht
    cases ht
  | owned u _ howner _ _ _ hheld =>
    have hholder : ∀ v, 0 < x.held o v → v = u := by
      intro v hv
      by_contra hvu
      rw [hheld v hvu] at hv
      cases hv
    rw [hholder t ht]
    exact ⟨howner, hholder⟩

end

theorem init (h : (mutexSystem idle).init x) : MutexInv idle x := by
  obtain ⟨hsys, hmutex, hwaits, hheld⟩ := h
  constructor
  · rw [hwaits]
    exact IpcInv.init hsys
  · intro o
    rw [hmutex, hheld]
    exact .free rfl rfl rfl fun _ => rfl

end MutexInv

/-- **Mutual exclusion.** Along every run of locks, unlocks, sleeps and ticks, in which no tick
    times out a thread that still waits for a mutex or ends the time slice of a suspended
    thread: at most one thread holds a mutex, and it is the owner. -/
theorem mutual_exclusion {x : MutexSys} (h : (mutexSystem idle).Reach MutexSys.NoTimeout x) :
    x.MutualExclusion :=
  (h.invariant (fun _ => MutexInv.init) fun _ _ _ hinv => hinv.step).mutualExclusion

/-- Two threads and free mutexes. -/
def pairMutexSys : MutexSys where
  sys := pairSys
  mutex := fun _ => skMutexInit
  waits := fun _ => none
  held := fun _ _ => 0

theorem reach_pairMutexSys (guard : MutexSys → IpcOp MutexCall → Prop) :
    (mutexSystem 0).Reach guard pairMutexSys :=
  .init ⟨pairSys_started, rfl, rfl, rfl⟩

/-- Thread 1 locks mutex 0 and sleeps, thread 2 waits for the mutex without a timeout, a tick
    wakes thread 1, which unlocks the mutex and sleeps again, and thread 2 has locked it. -/
theorem mutual_exclusion_hand_over :
    ∃ x, (mutexSystem 0).Reach MutexSys.NoTimeout x ∧ x.held 0 2 = 1 ∧ x.MutualExclusion := by
  obtain ⟨x, hx, hp⟩ := (reach_pairMutexSys MutexSys.NoTimeout).exists_of_run
    [.call (.lock 0 0 0), .sleep 1, .schedule, .call (.lock 0 (-1) 1), .schedule, .tick 2,
      .call (.unlock 0), .schedule, .sleep 5, .schedule, .call .lockReturn]
    (fun x => x.held 0 2 = 1) (by decide +kernel)
  exact ⟨x, hx, of_decide_eq_true hp, mutual_exclusion hx⟩

/-- Thread 1 locks mutex 0 and sleeps, thread 2 waits for the mutex for one tick; then both
    threads hold the mutex. -/
theorem mutual_exclusion_fails :
    ∃ x, (mutexSystem 0).Reach (fun _ _ => True) x ∧ ¬x.MutualExclusion := by
  obtain ⟨x, hx, hp⟩ := (reach_pairMutexSys fun _ _ => True).exists_of_run
    [.call (.lock 0 0 0), .sleep 10, .schedule, .call (.lock 0 1 1), .schedule, .tick 3,
      .call .lockReturn]
    (fun x => x.held 0 1 = 1 ∧ x.held 0 2 = 1) (by decide +kernel)
  obtain ⟨h1, h2⟩ := of_decide_eq_true hp
  refine ⟨x, hx, ?_⟩
  intro hexcl
  have h := (hexcl 0 1 (by omega)).2 2 (by omega)
  cases h

end SKernel.Spec
