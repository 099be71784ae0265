import SKernel.Native.Vfs
import SKernel.Spec.MutexCorrect

/-!
# The lock of the virtual file system

Threads enter the file system with `sk_vfs_lock` and leave it with `sk_vfs_unlock`. `inside t`
counts the calls of `sk_vfs_lock` that have returned to thread `t` and have no matching
`sk_vfs_unlock` yet. At most one thread is meant to be inside, and to own `fs_lock`.

`sk_vfs_lock` calls `sk_mutex_lock` with a time of 0, which is a single attempt, and ignores what
it returns: a thread that finds the lock taken goes on into the file system.

Nobody ever blocks on `fs_lock`, so its wait list stays empty. This holds whatever happens to the
other lists of the kernel, and is shown without assuming that these are well formed
(`SchedClosed`): no list operation on other nodes writes to the head of this list.
-/

namespace SKernel.Spec

open Native Function Option

/-! ## A wait list that nobody uses -/

/-- The list nodes other than the head of wait list `fs`. -/
def otherNodes (fs : Nat) (created : List Tid) : Set ThreadNode :=
  listNodes created \ {.head (.wait fs)}

/-- Wait list `fs` is empty, and no other list leads there. -/
structure SchedClosed (fs : Nat) (created : List Tid) (s : Sched) : Prop where
  closed : s.links.Closed (otherNodes fs created)
  empty : s.links.next (.head (.wait fs)) = .head (.wait fs)
  pri : ∀ t ∈ created, (s.thread t).currentPri < threadPriorityMax
  current : ∀ c, s.currentThread = some c → c ∈ created

variable {fs : Nat} {created : List Tid} {s s' : Sched} {t c : Tid} {k k' : Kernel}

private theorem tlist_mem_otherNodes (ht : t ∈ created) : .tlist t ∈ otherNodes fs created :=
  ⟨tlist_mem_listNodes.mpr ht, by simp⟩

private theorem head_mem_otherNodes {l : ListHead} (hl : ListHead.Valid l) (hne : l ≠ .wait fs) :
    .head l ∈ otherNodes fs created :=
  ⟨.inl (head_mem_listHeads.mpr hl), by simpa using hne⟩

private theorem head_notMem_otherNodes : .head (.wait fs) ∉ otherNodes fs created := by
  simp [otherNodes]

namespace SchedClosed

variable (h : SchedClosed fs created s)
include h

theorem setThread (t : Tid) {r : Thread} (hr : r.currentPri = (s.thread t).currentPri) :
    SchedClosed fs created (s.setThread t r) := by
  refine ⟨h.closed, h.empty, ?_, h.current⟩
  intro u hu
  show (update s.thread t r u).currentPri < _
  by_cases hut : u = t
  · rw [hut, update_self, hr, ← hut]
    exact h.pri u hu
  · rw [update_of_ne hut]
    exact h.pri u hu

theorem setStat (t : Tid) (stat : BitVec 8) : SchedClosed fs created (s.setStat t stat) :=
  h.setThread t rfl

private theorem setGroup (g : BitVec 32) : SchedClosed fs created { s with readyPrioGroup := g } :=
  ⟨h.closed, h.empty, h.pri, h.current⟩

/-- A thread is taken off whatever list it is on. -/
theorem del (ht : t ∈ created) :
    SchedClosed fs created { s with links := skListDel s.links (.tlist t) } := by
  have hin : .tlist t ∈ otherNodes fs created := tlist_mem_otherNodes ht
  refine ⟨?_, ?_, h.pri, h.current⟩
  · rw [skListDel_eq]
    exact h.closed.remove hin
  · rw [skListDel_eq, h.closed.remove_next_outside hin head_notMem_otherNodes]
    exact h.empty

/-- A thread is linked before another node. -/
theorem addTail (ht : t ∈ created) {n : ThreadNode} (hn : n ∈ otherNodes fs created) :
    SchedClosed fs created { s with links := skListAddTail s.links n (.tlist t) } := by
  have hin : .tlist t ∈ otherNodes fs created := tlist_mem_otherNodes ht
  have hprev := (h.closed n hn).2
  refine ⟨?_, ?_, h.pri, h.current⟩
  · rw [skListAddTail_eq]
    exact h.closed.insert hin hprev hn
  · rw [skListAddTail_eq,
      Links.Closed.insert_next_outside hin hprev head_notMem_otherNodes]
    exact h.empty

theorem insertThread (ht : t ∈ created) : SchedClosed fs created (skScheduleInsertThread s t) := by
  unfold skScheduleInsertThread
  split
  · exact h.setStat t _
  · have hready := h.setStat t threadReady
    exact (hready.addTail ht (head_mem_otherNodes (l := .prio _) (hready.pri t ht)
      (by simp))).setGroup _

theorem removeThread (ht : t ∈ created) : SchedClosed fs created (skScheduleRemoveThread s t) := by
  unfold skScheduleRemoveThread
  dsimp only
  split
  · exact (h.del ht).setGroup _
  · exact h.del ht

private theorem switchTo (hc : c ∈ created) (ht : t ∈ created) :
    SchedClosed fs created (scheduleSwitch s c t) := by
  have hto : SchedClosed fs created { s with currentThread := some t } := by
    refine ⟨h.closed, h.empty, h.pri, ?_⟩
    intro u hu
    cases hu
    exact ht
  unfold scheduleSwitch
  dsimp only
  split
  · exact (((hto.insertThread hc).setStat t _).removeThread ht).setStat t _
  · exact ((hto.setStat t _).removeThread ht).setStat t _

private theorem hpThread {p : Nat} (hhp : scheduleGetHpThread s = some (t, p)) : t ∈ created := by
  unfold scheduleGetHpThread at hhp
  split at hhp
  · cases hhp
  · rename_i p' hffs
    have hlt : p' < threadPriorityMax := by
      have hne : s.readyPrioGroup ≠ 0 := by
        intro hzero
        rw [hzero] at hffs
        cases hffs
      obtain ⟨p1, heq, hlt, -⟩ := skFfs_spec _ hne
      rw [hffs] at heq
      cases heq
      exact hlt
    have hhead : .head (.prio p') ∈ otherNodes fs created :=
      head_mem_otherNodes (l := .prio p') hlt (by simp)
    have hnext := (h.closed _ hhead).1
    split at hhp
    · rename_i u hu
      cases hhp
      rw [hu] at hnext
      exact tlist_mem_listNodes.mp hnext.1
    · cases hhp

theorem schedule (hs : skSchedule s = some s') : SchedClosed fs created s' := by
  unfold skSchedule at hs
  split at hs
  · split at hs
    · rename_i c hp p hc hhp
      cases hs
      have hcin := h.current c hc
      generalize hto : (if (s.thread c).stat = threadRunning ∧ (s.thread c).currentPri ≤ p then c
        else hp) = d
      have htoin : d ∈ created := by
        rw [← hto]
        split
        · exact hcin
        · exact h.hpThread hhp
      split
      · exact h.switchTo hcin htoin
      · exact h
    · cases hs
  · cases hs
    exact h

theorem timeout (ht : t ∈ created) (hs : skThreadTimeout s t = some s') :
    SchedClosed fs created s' :=
  ((h.del ht).insertThread ht).schedule hs

theorem tickSlice (hs : Native.tickSlice s = some s') : SchedClosed fs created s' := by
  unfold Native.tickSlice at hs
  split at hs
  · cases hs
  · dsimp only at hs
    split at hs
    · refine SchedClosed.schedule (h.setThread _ ?_) hs
      rfl
    · cases hs
      exact h.setThread _ rfl

end SchedClosed

/-- The same of the kernel, whose timers are those of the created threads. -/
structure KernelClosed (fs : Nat) (created : List Tid) (k : Kernel) : Prop where
  sched : SchedClosed fs created k.sched
  timers : ThreadTimers created k.timers

namespace KernelClosed

section

variable (h : KernelClosed fs created k)
include h

theorem suspend (ht : t ∈ created) : KernelClosed fs created (skThreadSuspend k t).2 := by
  unfold skThreadSuspend
  dsimp only
  split
  · exact h
  · exact ⟨(h.sched.removeThread ht).setStat t _, h.timers.stop t⟩

theorem timerStart (ht : t ∈ created) (time : Nat) :
    KernelClosed fs created (threadTimerStart k t time) :=
  ⟨h.sched, h.timers.start ht time⟩

theorem resume (ht : t ∈ created) : KernelClosed fs created (skThreadResume k t).2 := by
  unfold skThreadResume
  split
  · exact h
  · exact ⟨(h.sched.del ht).insertThread ht, h.timers⟩

theorem sleep {ticks : Nat}
    (hs : threadSleepBlock k ticks = some k') : KernelClosed fs created k' := by
  unfold threadSleepBlock at hs
  obtain ⟨c, hc, rfl⟩ := map_eq_some_iff.mp hs
  have hin := h.sched.current c hc
  exact (h.suspend hin).timerStart hin ticks

end

/-- The search never ends at the head of `fs`. -/
theorem position (h : SchedClosed fs created s) {l : ListHead} {fuel : Nat} {n n' : ThreadNode}
    (hn : n ∈ otherNodes fs created) (hpos : ipcListPosition s l t fuel n = some n') :
    n' ∈ otherNodes fs created := by
  induction fuel generalizing n with
  | zero => cases hpos
  | succ fuel ih =>
    unfold ipcListPosition at hpos
    split at hpos
    · cases hpos
      exact hn
    · cases n with
      | head l' => cases hpos
      | tlist u =>
        dsimp only at hpos
        split at hpos
        · cases hpos
          exact hn
        · exact ih (h.closed _ hn).1 hpos

/-- The current thread blocks on another wait list. -/
theorem wait (h : KernelClosed fs created k) {o fuel : Nat} (hne : o ≠ fs) {flag : BitVec 8}
    {time : Int} (hs : ipcBlock fuel k (.wait o) flag time = some k') :
    KernelClosed fs created k' := by
  unfold ipcBlock at hs
  split at hs
  · cases hs
  · rename_i c hc
    have hin := h.sched.current c hc
    have hsusp := h.suspend hin
    have hhead : ThreadNode.head (.wait o) ∈ otherNodes fs created :=
      head_mem_otherNodes trivial (by simpa using hne)
    obtain ⟨k1, hlist, rfl⟩ := map_eq_some_iff.mp hs
    have hk1 : KernelClosed fs created k1 := by
      unfold ipcListSuspend at hlist
      dsimp only at hlist
      split at hlist
      · cases hlist
        exact ⟨hsusp.sched.addTail hin hhead, hsusp.timers⟩
      · split at hlist
        · obtain ⟨n, hpos, rfl⟩ := map_eq_some_iff.mp hlist
          have hn := position hsusp.sched (hsusp.sched.closed _ hhead).1 hpos
          exact ⟨hsusp.sched.addTail hin hn, hsusp.timers⟩
        · cases hlist
          exact hsusp
    split
    · exact hk1.timerStart hin _
    · exact hk1

theorem schedule (h : KernelClosed fs created k) (hs : thenSchedule k = some k') :
    KernelClosed fs created k' := by
  unfold thenSchedule at hs
  obtain ⟨s, hsched, rfl⟩ := map_eq_some_iff.mp hs
  exact ⟨h.sched.schedule hsched, h.timers⟩

/-- A tick: its time slice and any number of timeouts. -/
theorem tick (h : KernelClosed fs created k) {fuel : Nat} {fired : List Tid}
    (hs : loggedTick fuel k = some (k', fired)) : KernelClosed fs created k' := by
  -- the property that the callbacks keep
  let P : Option Sched × List Tid → Prop := fun r =>
    ∀ s, r.1 = some s → SchedClosed fs created s
  obtain ⟨htimers, hsched⟩ : _ ∧ P (some k'.sched, fired) := by
    refine h.timers.loggedTick hs ?_ ?_
    · intro t ht _ r hr s hrun
      obtain ⟨s1, hs1, hs⟩ := bind_eq_some_iff.mp hrun
      exact (hr s1 hs1).timeout ht hs
    · intro s hslice
      exact h.sched.tickSlice hslice
  exact ⟨hsched _ rfl, htimers⟩

/-- A started scheduler with empty wait lists. -/
theorem init {idle : Tid} {x : BlockSys} (h : x.Started idle) (fs : Nat) :
    KernelClosed fs x.created x.k := by
  obtain ⟨hreach, -, hwait, -⟩ := h
  obtain ⟨q, hinv⟩ := hreach.inv.sched
  have hlists := hinv.queues.lists
  have hempty := (hlists.skListEmpty_iff (l := .wait fs) trivial).mp (hwait fs)
  refine ⟨⟨?_, of_decide_eq_true (hwait fs), hinv.queues.pri, hinv.current_created⟩,
    hreach.inv.timers⟩
  exact hlists.rings.closed (head_mem_listHeads.mpr trivial) (by simp [nodeLists, hempty])

end KernelClosed

/-! ## The system -/

/-- The kernel, `fs_lock`, and how often each thread has entered the file system. `fs_lock` has the
    wait list `fs`. -/
structure VfsSys where
  sys : BlockSys
  fsLock : Mutex
  inside : Tid → Nat

/-- The events: the two calls, other calls of the running thread, and the timer interrupt. -/
inductive VfsOp where
  | lock
  | unlock
  | sleep (ticks : Nat)
  /-- a blocking call on another object -/
  | wait (o : Nat) (flag : BitVec 8) (time : Int) (fuel : Nat)
  | suspend (t : Tid)
  | resume (t : Tid)
  | schedule
  | tick (fuel : Nat)

namespace VfsSys

/-- `sk_vfs_lock` by thread `c`. -/
def lock (fs : Nat) (x : VfsSys) (c : Tid) : Option VfsSys :=
  (skVfsLock x.sys.k x.fsLock (.wait fs)).map fun r =>
    { sys := { x.sys with k := r.1 }
      fsLock := r.2
      inside := update x.inside c (x.inside c + 1) }

/-- `sk_vfs_unlock` by thread `c`, which is inside. If `sk_schedule` follows, the new owner has been
    resumed. -/
def unlock (fs : Nat) (x : VfsSys) (c : Tid) : Option VfsSys :=
  if x.inside c = 0 then none
  else
    (skVfsUnlock x.sys.k x.fsLock (.wait fs)).map fun r =>
      { sys :=
          match r.1, r.2.2.owner with
          | .schedule, some t => x.sys.resume t r.2.1
          | _, _ => { x.sys with k := r.2.1 }
        fsLock := r.2.2
        inside := update x.inside c (x.inside c - 1) }

/-- The state after an event. -/
def step (idle : Tid) (fs : Nat) (x : VfsSys) : VfsOp → Option VfsSys
  | .lock => (x.sys.caller idle).bind (x.lock fs)
  | .unlock => (x.sys.caller idle).bind (x.unlock fs)
  | .sleep ticks => (x.sys.sleep idle ticks).map fun sys => { x with sys := sys }
  | .wait o flag time fuel =>
    if o = fs then none
    else
      (x.sys.caller idle).bind fun c =>
        (ipcBlock fuel x.sys.k (.wait o) flag time).map fun k =>
          { x with sys := x.sys.wait c o flag k }
  | .suspend t =>
    if t ∈ x.sys.created then
      (x.sys.caller idle).map fun _ =>
        { x with sys := { x.sys with k := (skThreadSuspend x.sys.k t).2 } }
    else none
  | .resume t =>
    if t ∈ x.sys.created then
      (x.sys.caller idle).map fun _ =>
        { x with sys := x.sys.resume t (skThreadResume x.sys.k t).2 }
    else none
  | .schedule => x.sys.schedule.map fun sys => { x with sys := sys }
  | .tick fuel => (x.sys.tick fuel).map fun sys => { x with sys := sys }

/-- `fs_lock` is free, or thread `c` owns it. -/
def Takes (x : VfsSys) (c : Tid) : Prop := x.fsLock.owner = none ∨ x.fsLock.owner = some c

instance (x : VfsSys) (c : Tid) : Decidable (x.Takes c) :=
  inferInstanceAs (Decidable (_ ∨ _))

/-- `sk_vfs_lock` is called only when the lock can be taken, at most `SK_MUTEX_HOLD_MAX` times in a
    row. -/
def Uncontended (x : VfsSys) : VfsOp → Prop
  | .lock => ∀ c ∈ x.sys.k.sched.currentThread, x.Takes c ∧ x.fsLock.hold < mutexHoldMax
  | _ => True

instance (x : VfsSys) (op : VfsOp) : Decidable (x.Uncontended op) :=
  match op with
  | .lock => inferInstanceAs (Decidable (∀ c ∈ x.sys.k.sched.currentThread,
      x.Takes c ∧ x.fsLock.hold < mutexHoldMax))
  | .unlock | .sleep _ | .wait .. | .suspend _ | .resume _ | .schedule | .tick _ => isTrue trivial

/-- The threads inside own the lock, so there is at most one. -/
structure Exclusive (x : VfsSys) : Prop where
  owner : ∀ t, 0 < x.inside t → x.fsLock.owner = some t
  unique : ∀ t u, 0 < x.inside t → 0 < x.inside u → t = u

end VfsSys

/-- From a started scheduler and an initialised lock on, with the wait list `fs` of `fs_lock`. -/
def vfsSystem (idle : Tid) (fs : Nat) : TransitionSystem VfsSys VfsOp where
  init x := x.sys.Started idle ∧ x.fsLock = skMutexInit ∧ x.inside = fun _ => 0
  step := VfsSys.step idle fs

/-! ## The invariant -/

/-- The state of the lock agrees with the threads inside, and nobody waits for it. -/
structure VfsInv (fs : Nat) (x : VfsSys) : Prop where
  kernel : KernelClosed fs x.sys.created x.sys.k
  state : MutexState (fun _ => none) fs x.fsLock x.inside

namespace VfsInv

variable {idle : Tid} {x x' : VfsSys}

theorem init (h : (vfsSystem idle fs).init x) : VfsInv fs x := by
  obtain ⟨hsys, hlock, hinside⟩ := h
  refine ⟨KernelClosed.init hsys fs, ?_⟩
  rw [hlock, hinside]
  exact .free rfl rfl rfl fun _ => rfl

variable (h : VfsInv fs x)
include h

private theorem exclusive : x.Exclusive := by
  have howner : ∀ t, 0 < x.inside t → x.fsLock.owner = some t := by
    intro t ht
    cases h.state with
    | free _ _ _ hnobody =>
      rw [hnobody t] at ht
      cases ht
    | owned u _ hu _ _ _ hothers =>
      by_cases htu : t = u
      · rw [htu]
        exact hu
      · rw [hothers t htu] at ht
        cases ht
  refine ⟨howner, ?_⟩
  intro t u ht hu
  have heq := (howner t ht).symm.trans (howner u hu)
  exact some.inj heq

private theorem lock_takes (hrun : x.sys.Runs idle c) (htakes : x.Takes c)
    (hmax : x.fsLock.hold < mutexHoldMax) (hlock : x.lock fs c = some x') : VfsInv fs x' := by
  obtain ⟨⟨k, m⟩, hcall, rfl⟩ := map_eq_some_iff.mp hlock
  unfold skVfsLock at hcall
  obtain ⟨⟨e, k', m'⟩, hmutex, heq⟩ := map_eq_some_iff.mp hcall
  cases heq
  have hself : update x.inside c (x.inside c + 1) c = x.inside c + 1 :=
    update_self ..
  have hother : ∀ u, u ≠ c → update x.inside c (x.inside c + 1) u = x.inside u :=
    fun u hu => update_of_ne hu ..
  cases h.state with
  | free hvalue howner hhold hnobody =>
    unfold skMutexLock at hmutex
    rw [hrun.1] at hmutex
    simp only [howner, reduceCtorEq, ↓reduceIte, hvalue, gt_iff_lt, hmax,
      zero_lt_one] at hmutex
    cases hmutex
    refine ⟨h.kernel, .owned c rfl rfl (Nat.succ_pos _) hmax ?_ ?_⟩
    · dsimp only
      rw [hself, hhold, hnobody c]
      rfl
    · intro u hu
      dsimp only
      rw [hother u hu]
      exact hnobody u
  | owned t hvalue howner hpos hle hhold hothers =>
    -- the lock is recursive: the owner takes it once more
    have htc : t = c := by
      cases htakes with
      | inl hnone =>
        rw [hnone] at howner
        cases howner
      | inr hc => exact some.inj (howner.symm.trans hc)
    subst htc
    unfold skMutexLock at hmutex
    rw [hrun.1] at hmutex
    simp only [howner, ↓reduceIte, hmax] at hmutex
    cases hmutex
    refine ⟨h.kernel, .owned t hvalue rfl (Nat.succ_pos _) hmax ?_ ?_⟩
    · dsimp only
      rw [hself, hhold]
      simp
    · intro u hu
      dsimp only
      rw [hother u hu]
      exact hothers u hu

/-- The caller is inside as well. -/
theorem lock_contended (hrun : x.sys.Runs idle c) (hnot : ¬x.Takes c)
    (hlock : x.lock fs c = some x') : ¬x'.Exclusive := by
  obtain ⟨⟨k, m⟩, hcall, rfl⟩ := map_eq_some_iff.mp hlock
  unfold skVfsLock at hcall
  obtain ⟨⟨e, k', m'⟩, hmutex, heq⟩ := map_eq_some_iff.mp hcall
  cases heq
  cases h.state with
  | free _ howner => exact absurd (.inl howner) hnot
  | owned t hvalue howner =>
    have htc : t ≠ c := by
      rintro rfl
      exact hnot (.inr howner)
    unfold skMutexLock at hmutex
    rw [hrun.1] at hmutex
    simp only [howner, some.injEq, htc, ↓reduceIte, hvalue, gt_iff_lt, lt_self_iff_false]
      at hmutex
    cases hmutex
    intro hexcl
    have hin := hexcl.owner c (by simp)
    rw [howner] at hin
    exact htc (some.inj hin)

/-- `sk_vfs_unlock` by the thread inside. -/
theorem unlock (hrun : x.sys.Runs idle c) (hunlock : x.unlock fs c = some x') : VfsInv fs x' := by
  unfold VfsSys.unlock at hunlock
  split at hunlock
  · cases hunlock
  · rename_i hin
    obtain ⟨⟨e, k, m⟩, hcall, rfl⟩ := map_eq_some_iff.mp hunlock
    have howner := h.exclusive.owner c (by omega)
    have hempty : skListEmpty x.sys.k.sched.links (.head (.wait fs)) = true :=
      decide_eq_true h.kernel.sched.empty
    have hself : update x.inside c (x.inside c - 1) c = x.inside c - 1 :=
      update_self ..
    have hother : ∀ u, u ≠ c → update x.inside c (x.inside c - 1) u = x.inside u :=
      fun u hu => update_of_ne hu ..
    cases h.state with
    | free _ hnone =>
      rw [hnone] at howner
      cases howner
    | owned t hvalue howner' hpos hle hhold hothers =>
      cases howner'.symm.trans howner
      unfold mutexHoldMax at hle
      simp only [reduceCtorEq, ↓reduceIte, Nat.add_zero] at hhold
      cases skMutexUnlock_cases hrun.1 hcall with
      | notOwner hne => exact absurd howner hne
      | once _ hmore =>
        refine ⟨h.kernel, .owned c hvalue howner (Nat.pos_of_ne_zero hmore) ?_ ?_ ?_⟩
        · dsimp only
          unfold mutexHoldMax
          omega
        · dsimp only
          rw [hself]
          simp only [reduceCtorEq, ↓reduceIte, Nat.add_zero]
          omega
        · intro u hu
          dsimp only
          rw [hother u hu]
          exact hothers u hu
      | release _ hlast =>
        refine ⟨h.kernel, .free ?_ rfl hlast ?_⟩
        · dsimp only
          rw [hvalue]
        · intro u
          dsimp only
          by_cases hu : u = c
          · rw [hu, hself]
            omega
          · rw [hother u hu]
            exact hothers u hu
      | handOver t _ _ hmore =>
        -- nobody waits for the lock
        rw [hempty] at hmore
        cases hmore

/-- Everything else leaves the lock alone. -/
theorem other {sys : BlockSys} (hcreated : sys.created = x.sys.created)
    (hk : KernelClosed fs x.sys.created sys.k) : VfsInv fs { x with sys := sys } := by
  refine ⟨?_, h.state⟩
  dsimp only
  rw [hcreated]
  exact hk

theorem step (op : VfsOp) (hguard : x.Uncontended op) (hstep : x.step idle fs op = some x') :
    VfsInv fs x' := by
  cases op with
  | lock =>
    obtain ⟨c, hc, hlock⟩ := bind_eq_some_iff.mp hstep
    have hrun := BlockSys.runs_of_caller hc
    obtain ⟨htakes, hmax⟩ := hguard c hrun.1
    exact h.lock_takes hrun htakes hmax hlock
  | unlock =>
    obtain ⟨c, hc, hunlock⟩ := bind_eq_some_iff.mp hstep
    exact h.unlock (BlockSys.runs_of_caller hc) hunlock
  | sleep ticks =>
    obtain ⟨sys, hsleep, rfl⟩ := map_eq_some_iff.mp hstep
    obtain ⟨c, -, hmap⟩ := bind_eq_some_iff.mp hsleep
    obtain ⟨k, hk, rfl⟩ := map_eq_some_iff.mp hmap
    exact h.other rfl (h.kernel.sleep hk)
  | wait o flag time fuel =>
    dsimp only [VfsSys.step] at hstep
    split at hstep
    · cases hstep
    · rename_i hne
      obtain ⟨c, -, hmap⟩ := bind_eq_some_iff.mp hstep
      obtain ⟨k, hk, rfl⟩ := map_eq_some_iff.mp hmap
      exact h.other rfl (h.kernel.wait hne hk)
  | suspend t =>
    dsimp only [VfsSys.step] at hstep
    split at hstep
    · rename_i ht
      obtain ⟨c, -, rfl⟩ := map_eq_some_iff.mp hstep
      exact h.other rfl (h.kernel.suspend ht)
    · cases hstep
  | resume t =>
    dsimp only [VfsSys.step] at hstep
    split at hstep
    · rename_i ht
      obtain ⟨c, -, rfl⟩ := map_eq_some_iff.mp hstep
      exact h.other rfl (h.kernel.resume ht)
    · cases hstep
  | schedule =>
    obtain ⟨sys, hsched, rfl⟩ := map_eq_some_iff.mp hstep
    obtain ⟨c, -, hmap⟩ := bind_eq_some_iff.mp hsched
    obtain ⟨k, hk, rfl⟩ := map_eq_some_iff.mp hmap
    exact h.other rfl (h.kernel.schedule hk)
  | tick fuel =>
    obtain ⟨sys, htick, rfl⟩ := map_eq_some_iff.mp hstep
    obtain ⟨⟨k, fired⟩, hk, rfl⟩ := map_eq_some_iff.mp htick
    exact h.other rfl (h.kernel.tick hk)

private theorem lock_iff (hc : x.sys.caller idle = some c) (hmax : x.fsLock.hold < mutexHoldMax)
    (hstep : x.step idle fs .lock = some x') : x'.Exclusive ↔ x.Takes c := by
  have hrun := BlockSys.runs_of_caller hc
  have hlock : x.lock fs c = some x' := by
    unfold VfsSys.step at hstep
    rw [hc] at hstep
    exact hstep
  by_cases htakes : x.Takes c
  · simp only [htakes, iff_true]
    exact (h.lock_takes hrun htakes hmax hlock).exclusive
  · simp only [htakes, iff_false]
    exact h.lock_contended hrun htakes hlock

end VfsInv

/-- **VFS lock exclusion.** Along every run of `sk_vfs_lock` and `sk_vfs_unlock` by any threads,
    with sleeps, blocking calls on other objects, suspensions, resumptions and ticks at any point,
    in which `sk_vfs_lock` is called only when `fs_lock` is free or the caller's own, and at most
    255 times in a row: a thread that is inside owns `fs_lock`, and there is at most one. A
    further call of `sk_vfs_lock` keeps this exactly when `fs_lock` is free or the caller's own. -/
theorem vfs_lock_exclusion {idle : Tid} {x : VfsSys}
    (h : (vfsSystem idle fs).Reach VfsSys.Uncontended x) :
    x.Exclusive ∧
    ∀ c x', x.sys.caller idle = some c → x.fsLock.hold < mutexHoldMax →
      x.step idle fs .lock = some x' → (x'.Exclusive ↔ x.Takes c) := by
  have hinv : VfsInv fs x :=
    h.invariant (fun _ => VfsInv.init) fun _ op _ hinv hguard => hinv.step op hguard
  exact ⟨hinv.exclusive, fun _ _ hc hmax hstep => hinv.lock_iff hc hmax hstep⟩

/-- Two threads, and nobody inside. -/
def pairVfsSys : VfsSys where
  sys := pairSys
  fsLock := skMutexInit
  inside := fun _ => 0

private theorem reach_pairVfsSys (guard : VfsSys → VfsOp → Prop) :
    (vfsSystem 0 0).Reach guard pairVfsSys :=
  .init ⟨pairSys_started, rfl, rfl⟩

/-- Thread 1 enters and leaves the file system and sleeps, and thread 2 is inside when a tick
    comes. -/
theorem vfs_lock_exclusion_two :
    ∃ x, (vfsSystem 0 0).Reach VfsSys.Uncontended x ∧ x.inside 2 = 1 ∧ x.Exclusive := by
  obtain ⟨x, hx, hp⟩ := (reach_pairVfsSys VfsSys.Uncontended).exists_of_run
    [.lock, .unlock, .sleep 10, .schedule, .lock, .tick 2] (fun x => x.inside 2 = 1)
    (by decide +kernel)
  exact ⟨x, hx, of_decide_eq_true hp, (vfs_lock_exclusion hx).1⟩

/-- Thread 1 sleeps, thread 2 enters the file system, a tick wakes thread 1, which enters as
    well. -/
theorem vfs_lock_exclusion_fails :
    ∃ x, (vfsSystem 0 0).Reach (fun _ _ => True) x ∧ 0 < x.inside 1 ∧ 0 < x.inside 2 ∧
      ¬x.Exclusive := by
  obtain ⟨x, hx, hp⟩ := (reach_pairVfsSys fun _ _ => True).exists_of_run
    [.sleep 1, .schedule, .lock, .tick 2, .lock] (fun x => 0 < x.inside 1 ∧ 0 < x.inside 2)
    (by decide +kernel)
  obtain ⟨h1, h2⟩ := of_decide_eq_true hp
  refine ⟨x, hx, h1, h2, ?_⟩
  intro hexcl
  have heq := hexcl.unique 1 2 h1 h2
  cases heq

end SKernel.Spec
