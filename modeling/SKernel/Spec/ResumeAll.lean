import SKernel.Native.ObjectState
import SKernel.Spec.WaitOrder

/-!
# Releasing the waiting threads of an object

The functions that delete an IPC object call `__ipc_list_resume_all` first. Its loop goes on until
the wait list is empty, and takes a thread off the list only if `sk_thread_resume` accepts it,
which looks at `stat` only. It ends because the threads on the wait lists are suspended between
completed calls.
-/

namespace SKernel.Spec

open Native List Option

variable {idle : Tid} {created : List Tid} {s s' : Sched} {k k' : Kernel}
  {q : ListHead → List Tid} {c t : Tid} {o : Nat}

/-! ## Runs of completed calls -/

/-- The states reached by completed calls: those of `SchedOp`, and `sk_thead_suspend` and
    `__thread_exit` for threads other than the idle thread. -/
inductive CallReach (idle : Tid) : List Tid → Kernel → Prop where
  | boot {k : Kernel} (h : Booted k) : CallReach idle [] k
  | step {created : List Tid} {k k' : Kernel} (op : SchedOp) (fuel : Nat)
      (h : CallReach idle created k) (hallowed : op.Allowed idle created k)
      (hstep : op.step fuel k = some k') : CallReach idle (op.creates ++ created) k'
  | theadSuspend {created : List Tid} {k : Kernel} {t : Tid} (h : CallReach idle created k)
      (ht : t ∈ created) (hti : t ≠ idle) : CallReach idle created (skTheadSuspend k t).2
  | exit {created : List Tid} {k k' : Kernel} (h : CallReach idle created k)
      (hidle : k.sched.currentThread ≠ some idle) (hexit : threadExit k = some k') :
      CallReach idle created k'

/-- Without the object of the thread's timer. -/
theorem threadExit_k {σ : Type*} {A : Allocator σ} {st st' : ObjectState σ}
    (h : st.threadExit A = some st') : threadExit st.k = some st'.k := by
  unfold ObjectState.threadExit at h
  obtain ⟨c, hc, hrest⟩ := bind_eq_some_iff.mp h
  obtain ⟨st1, hdelete, hsched⟩ := bind_eq_some_iff.mp hrest
  obtain ⟨k1, hk1, rfl⟩ := map_eq_some_iff.mp hsched
  unfold ObjectState.skTimerDelete ObjectState.objectDelete at hdelete
  obtain ⟨r, -, rfl⟩ := map_eq_some_iff.mp hdelete
  unfold threadExit
  rw [hc]
  exact hk1

theorem ThreadTimers.delete {tm : Timers Tid} (h : ThreadTimers created tm) (t : Tid) :
    ThreadTimers created (timerDelete tm t) := by
  obtain ⟨xs, hlist, hcr, hone⟩ := h
  refine ⟨xs.erase t, hlist.remove (Set.mem_univ _),
    fun u hu => hcr u (mem_of_mem_erase hu), ?_⟩
  intro u hu
  unfold timerDelete
  rw [timerDeactivate_isPeriodic]
  exact hone u hu

private theorem SchedInv.close (h : SchedInv idle created s q) (hc : s.currentThread = some c)
    (hci : c ≠ idle) :
    AtSchedule idle created ((skScheduleRemoveThread s c).setStat c threadClose) q c := by
  have hat := h.atSchedule hc
  have hqueues := (h.queues.remove hat.current_created).setStat c threadClose
  have herase : (fun l => (q l).erase c) = q := by
    funext l
    exact erase_of_not_mem (h.current_free c hc l)
  rw [herase] at hqueues
  have hthread : ∀ u, ((skScheduleRemoveThread s c).setStat c threadClose).thread u =
      if u = c then { s.thread c with stat := threadClose } else s.thread u := by
    intro u
    rw [setStat_thread, skScheduleRemoveThread_thread]
  refine ⟨hqueues, ?_, hat.current_created, hat.off_ready, fun _ => h.current_free c hc,
    fun heq => absurd heq hci, ?_, hat.idle_created⟩
  · rw [setStat_currentThread, skScheduleRemoveThread_currentThread, hc]
  · intro _
    rw [hthread idle, if_neg (Ne.symm hci)]
    exact hat.idle_ready hci

/-- `__thread_exit`, when it completes, keeps the invariant. -/
theorem KernelInv.exit (h : KernelInv idle created k) (hidle : k.sched.currentThread ≠ some idle)
    (hexit : threadExit k = some k') : KernelInv idle created k' := by
  obtain ⟨q, hinv⟩ := h.sched
  unfold threadExit at hexit
  obtain ⟨c, hc, hsched⟩ := bind_eq_some_iff.mp hexit
  have hci : c ≠ idle := fun heq => hidle (heq ▸ hc)
  obtain ⟨k1, hk1, hinv1⟩ := KernelInv.thenSchedule
    (k := ⟨(skScheduleRemoveThread k.sched c).setStat c threadClose, timerDelete k.timers c⟩)
    (hinv.close hc hci) (h.timers.delete c)
  cases hk1.symm.trans hsched
  exact hinv1

theorem KernelInv.theadSuspend (h : KernelInv idle created k) (ht : t ∈ created)
    (hti : t ≠ idle) : KernelInv idle created (skTheadSuspend k t).2 := by
  obtain ⟨q, hinv⟩ := h.sched
  unfold skTheadSuspend
  dsimp only
  split
  · exact h
  · split
    · exact h
    · exact ⟨⟨_, hinv.remove ht hti⟩, h.timers⟩

/-! ## The threads on the wait lists -/

namespace WaitInv

/-- The thread may be linked on a wait list. -/
theorem block (h : WaitInv created s q) {q' : ListHead → List Tid}
    (hsusp : Suspended idle created s s' q' c)
    (hlists : ∀ o u, u ∈ q' (.wait o) → u ∈ q (.wait o) ∨ u = c) : WaitInv created s' q' := by
  have hat := hsusp.atSchedule
  refine ⟨hat.queues, ?_, ?_, ?_⟩
  · intro e he
    rw [hat.current] at he
    cases he
    exact hat.current_created
  · intro e he
    rw [hat.current] at he
    cases he
    exact hat.off_ready
  · intro o u hu
    by_cases huc : u = c
    · rw [huc]
      exact hsusp.stat
    · rw [hsusp.thread u huc]
      exact h.wait_stat o u ((hlists o u hu).resolve_right huc)

/-- `sk_tick_increase`. -/
theorem tick (h : WaitInv created k.sched q) (htm : ThreadTimers created k.timers)
    (hc : k.sched.currentThread = some c) (hfree : ∀ o, c ∉ q (.wait o)) {fuel : Nat}
    (hrun : skTickIncrease fuel k = some k') : ∃ q', WaitInv created k'.sched q' := by
  -- the property that the callbacks keep
  let P : Option Sched → Prop := fun r => ∀ s, r = some s → ∃ q, WaitInv created s q
  have hP : ∀ t ∈ created, ∀ r, P r → P (r.bind (skThreadTimeout · t)) := by
    intro t ht r hr s hs
    obtain ⟨s0, hs0, hstep⟩ := bind_eq_some_iff.mp hs
    obtain ⟨q0, hinv0⟩ := hr s0 hs0
    obtain ⟨q', hinv', -⟩ := hinv0.timeout ht hstep
    exact ⟨q', hinv'⟩
  have hP1 : P ((some k.sched).bind Native.tickSlice) := by
    intro s hs
    obtain ⟨q', hinv, -⟩ := h.tickSlice hc (fun o hin => absurd hin (hfree o)) hs
    exact ⟨q', hinv⟩
  obtain ⟨-, hres⟩ :=
    htm.check (fun t r => r.bind (skThreadTimeout · t)) (k.timers.tickAfter 1)
      (fun t ht _ => hP t ht) hP1
  unfold skTickIncrease tickIncrease at hrun
  split at hrun
  · rename_i tm' s' hcheck
    cases hrun
    exact (hres _ _ _ hcheck).2 s' rfl
  · cases hrun

theorem thenSchedule (h : WaitInv created k.sched q) (hrun : Native.thenSchedule k = some k') :
    ∃ q', WaitInv created k'.sched q' := by
  obtain ⟨s', hs, rfl⟩ := map_eq_some_iff.mp hrun
  obtain ⟨q', hinv', -⟩ := h.schedule hs
  exact ⟨q', hinv'⟩

private theorem ipcWait (h : WaitInv created k.sched q) (hsched : SchedInv idle created k.sched q)
    (hc : k.sched.currentThread = some c) (hci : c ≠ idle) {o : Nat} {flag : BitVec 8} {time : Int}
    {fuel : Nat} (hrun : (ipcBlock fuel k (.wait o) flag time).bind Native.thenSchedule = some k') :
    ∃ q', WaitInv created k'.sched q' := by
  obtain ⟨k1, hblock, hthen⟩ := bind_eq_some_iff.mp hrun
  unfold ipcBlock at hblock
  rw [hc] at hblock
  obtain ⟨k2, hsuspend, rfl⟩ := map_eq_some_iff.mp hblock
  rcases hsched.ipcListSuspend hc hci o flag fuel with
    ⟨hnone, -⟩ | ⟨k3, q', hsome, -, hsusp, hlists⟩
  · rw [hnone] at hsuspend
    cases hsuspend
  · cases hsome.symm.trans hsuspend
    have hinv : WaitInv created k2.sched q' := by
      apply h.block hsusp
      intro o' u hu
      rcases hlists with ⟨rfl, -⟩ | ⟨-, henlisted⟩
      · exact .inl hu
      · rcases (henlisted.mem_iff u _).mp hu with hold | ⟨hnew, -⟩
        · exact .inl hold
        · exact .inr hnew
    split at hthen
    · exact WaitInv.thenSchedule (k := threadTimerStart k2 c time.toNat) hinv hthen
    · exact hinv.thenSchedule hthen

theorem start (h : WaitInv created s q) (hsched : SchedInv idle created s q)
    (hidle : idle ∈ created) (hc : s.currentThread = none)
    (hrun : skSystemSchedulerStart s = some s') : ∃ q', WaitInv created s' q' := by
  obtain ⟨s1, q', hs1, hinv', hwait, hthread⟩ := hsched.start hidle hc
  cases hs1.symm.trans hrun
  refine ⟨q', hinv'.queues, hinv'.current_created, fun c hc p => hinv'.current_free c hc _, ?_⟩
  intro o u hu
  rw [hwait o] at hu
  have hready : ∀ p, u ∉ q (.prio p) := fun p => h.queues.lists.notMem_of_ne hu (by simp)
  rw [hthread u hready]
  exact h.wait_stat o u hu

theorem step (hkernel : KernelInv idle created k) (h : WaitInv created k.sched q) {op : SchedOp}
    (ha : op.Allowed idle created k) {fuel : Nat} (hstep : op.step fuel k = some k') :
    ∃ q', WaitInv (op.creates ++ created) k'.sched q' := by
  obtain ⟨q0, hsched⟩ := hkernel.sched
  cases hsched.queues.lists.unique h.queues.lists
  cases op with
  | create t priority slice =>
    cases hstep
    exact ⟨_, h.create ha.1 ha.2 slice⟩
  | startup t =>
    have hsusp : WaitInv created (k.sched.setStat t threadSuspend) q :=
      h.setThread rfl rfl fun _ _ => rfl
    simp only [SchedOp.step, skThreadStartup] at hstep
    split at hstep
    · exact WaitInv.thenSchedule (k := { k with sched := k.sched.setStat t threadSuspend }) hsusp
        hstep
    · cases hstep
      exact ⟨q, hsusp⟩
  | suspend t =>
    cases hstep
    show ∃ q', WaitInv created (skThreadSuspend k t).2.sched q'
    rcases skThreadSuspend_cases k t with herror | ⟨-, hrun⟩
    · rw [herror]
      exact ⟨q, h⟩
    · rw [hrun]
      exact ⟨_, h.remove ha.1 _⟩
  | resume t =>
    cases hstep
    show ∃ q', WaitInv created (skThreadResume k t).2.sched q'
    unfold skThreadResume
    split
    · exact ⟨q, h⟩
    · exact ⟨_, h.wake ha⟩
  | timeout t =>
    obtain ⟨s', hs, rfl⟩ := map_eq_some_iff.mp hstep
    obtain ⟨q', hinv', -⟩ := h.timeout ha.1 hs
    exact ⟨q', hinv'⟩
  | sleep ticks =>
    obtain ⟨c, hc⟩ := ne_none_iff_exists'.mp ha.1
    have hci : c ≠ idle := fun heq => ha.2 (heq ▸ hc)
    obtain ⟨k1, hblock, hsched'⟩ := bind_eq_some_iff.mp hstep
    unfold threadSleepBlock at hblock
    rw [hc] at hblock
    cases hblock
    have hsusp := hsched.suspended_current hc hci
    have hinv := h.block hsusp fun _ _ hu => .inl hu
    exact WaitInv.thenSchedule (k := threadTimerStart (skThreadSuspend k c).2 c ticks) hinv hsched'
  | wait =>
    obtain ⟨c, hc⟩ := ne_none_iff_exists'.mp ha.1
    have hci : c ≠ idle := fun heq => ha.2 (heq ▸ hc)
    exact h.ipcWait hsched hc hci hstep
  | schedule => exact h.thenSchedule hstep
  | tick =>
    obtain ⟨c, hc⟩ := ne_none_iff_exists'.mp ha
    exact h.tick hkernel.timers hc (fun o => hsched.current_free c hc _) hstep
  | start =>
    obtain ⟨s', hs, rfl⟩ := map_eq_some_iff.mp hstep
    exact h.start hsched ha.2 ha.1 hs

end WaitInv

theorem CallReach.inv (h : CallReach idle created k) :
    KernelInv idle created k ∧ ∃ q, WaitInv created k.sched q := by
  induction h with
  | boot hboot =>
    have hinv : SchedInv idle [] _ _ := hboot.schedInv
    refine ⟨hboot.inv, _, hinv.queues, hinv.current_created,
      fun c hc p => hinv.current_free c hc (.prio p), ?_⟩
    intro o u hu
    cases hu
  | step op fuel _ hallowed hstep ih =>
    obtain ⟨hkernel, q, hinv⟩ := ih
    exact ⟨(hkernel.step op hallowed).2 fuel _ hstep, hinv.step hkernel hallowed hstep⟩
  | @theadSuspend created k t _ ht hti ih =>
    obtain ⟨hkernel, q, hinv⟩ := ih
    refine ⟨hkernel.theadSuspend ht hti, ?_⟩
    unfold skTheadSuspend
    dsimp only
    split
    · exact ⟨q, hinv⟩
    · split
      · exact ⟨q, hinv⟩
      · exact ⟨_, hinv.remove ht _⟩
  | exit _ hidle hexit ih =>
    obtain ⟨hkernel, q, hinv⟩ := ih
    refine ⟨hkernel.exit hidle hexit, ?_⟩
    unfold threadExit at hexit
    obtain ⟨c, hc, hsched⟩ := bind_eq_some_iff.mp hexit
    obtain ⟨s', hs, rfl⟩ := map_eq_some_iff.mp hsched
    obtain ⟨q', hinv', -⟩ := (hinv.remove (hinv.current_created c hc) threadClose).schedule hs
    exact ⟨q', hinv'⟩

/-! ## The loop -/

/-- The threads of wait list `o` have been made ready, in the order of the list. -/
def releasedQueues (s : Sched) (o : Nat) (q : ListHead → List Tid) : ListHead → List Tid
  | .prio p => q (.prio p) ++ (q (.wait o)).filter fun t => priOf s t = p
  | .wait o' => if o' = o then [] else q (.wait o')

/-- One round of the loop. -/
theorem releasedQueues_wake (h : WaitInv created s q) (ht : s.currentThread ≠ some t)
    {ts : List Tid} (hq : q (.wait o) = t :: ts) :
    releasedQueues (threadWake s t) o (wokenQueues s t q) = releasedQueues s o q := by
  have hin : t ∈ q (.wait o) := by
    rw [hq]
    exact mem_cons_self
  have hsame : ∀ l, l ≠ .wait o → (q l).erase t = q l := fun l hl =>
    erase_of_not_mem (h.queues.lists.notMem_of_ne hin hl)
  have hrest : wokenQueues s t q (.wait o) = ts := by
    rw [wokenQueues_wait, hq, erase_cons_head]
  funext l
  cases l with
  | prio p =>
    simp only [releasedQueues, hrest, priOf_threadWake, hq, filter_cons]
    unfold wokenQueues
    rw [if_neg ht]
    dsimp only
    by_cases hp : priOf s t = p
    · subst hp
      simp [priOf, hsame]
    · rw [Function.update_of_ne (by simpa [priOf] using Ne.symm hp), hsame _ (by simp)]
      simp [hp]
  | wait o' =>
    simp only [releasedQueues]
    split
    · rfl
    · rename_i ho
      rw [wokenQueues_wait, hsame _ (by simpa using ho)]

private theorem ipcListResumeAll_spec {ts : List Tid} (h : WaitInv created k.sched q)
    (hcur : ∀ c, k.sched.currentThread = some c → c ∉ q (.wait o)) (hq : q (.wait o) = ts) :
    ∃ k', ipcListResumeAll (ts.length + 1) k (.wait o) = some k' ∧
      WaitInv created k'.sched (releasedQueues k.sched o q) ∧ k'.timers = k.timers ∧
      k'.sched.currentThread = k.sched.currentThread ∧
      ∀ u, k'.sched.thread u =
        if u ∈ ts then { k.sched.thread u with stat := threadReady } else k.sched.thread u := by
  induction ts generalizing k q with
  | nil =>
    have hempty := (h.queues.lists.skListEmpty_iff (l := .wait o) trivial).mpr hq
    have hnone : releasedQueues k.sched o q = q := by
      funext l
      cases l with
      | prio p => simp [releasedQueues, hq]
      | wait o' =>
        simp only [releasedQueues]
        split
        · rename_i ho
          rw [ho, hq]
        · rfl
    rw [hnone]
    refine ⟨k, ?_, h, rfl, rfl, fun u => by simp⟩
    simp [ipcListResumeAll, hempty]
  | cons t ts ih =>
    obtain ⟨hne, hfirst, hok⟩ := h.first hq
    have hin : t ∈ q (.wait o) := by
      rw [hq]
      exact mem_cons_self
    -- a waiting thread is not the current one, so waking it puts it on its ready queue
    have ht : k.sched.currentThread ≠ some t := fun hc => hcur t hc hin
    have hresume : (skThreadResume k t).2 = { k with sched := threadWake k.sched t } := by
      unfold skThreadResume
      rw [if_neg (by rw [h.wait_stat o t hin]; simp)]
    have hinv := h.wake (h.queues.lists.mem_created hin)
    have hrest : wokenQueues k.sched t q (.wait o) = ts := by
      rw [wokenQueues_wait, hq, erase_cons_head]
    obtain ⟨k', hrun, hinv', htimers, hcur', hthread⟩ :=
      ih (k := { k with sched := threadWake k.sched t }) hinv (by
        intro c hc
        dsimp only at hc
        rw [threadWake_currentThread] at hc
        rw [wokenQueues_wait]
        exact fun hin => hcur c hc (mem_of_mem_erase hin)) hrest
    rw [releasedQueues_wake h ht hq] at hinv'
    refine ⟨k', ?_, hinv', htimers, hcur'.trans (threadWake_currentThread _ _), ?_⟩
    · rw [length_cons, ipcListResumeAll, hne, hfirst, bind_some, hresume]
      exact hrun
    · intro u
      have hnodup := h.queues.lists.nodup (.wait o)
      rw [hq, nodup_cons] at hnodup
      rw [hthread u]
      dsimp only
      rw [threadWake_thread, if_neg ht]
      by_cases hut : u = t
      · subst hut
        simp [hnodup.1]
      · simp [hut]

/-- **Releasing the waiting threads.** In every state reached by completed calls, with the idle
    thread never suspended, the threads on the wait lists are suspended. So
    `__ipc_list_resume_all` ends on every wait list. The list is empty then, its threads have been
    appended to the ready queues of their priorities in the order of the list, and have become
    ready; all other lists, threads and timers are as before. -/
theorem resume_all_releases (h : CallReach idle created k) :
    ∃ q, ThreadLists k.sched.links created q ∧
      (∀ o, ∀ t ∈ q (.wait o), (k.sched.thread t).stat = threadSuspend) ∧
      ∀ o, ∃ fuel k', ipcListResumeAll fuel k (.wait o) = some k' ∧
        (∃ q', ThreadLists k'.sched.links created q' ∧ q' (.wait o) = [] ∧
          (∀ o', o' ≠ o → q' (.wait o') = q (.wait o')) ∧
          ∀ p, q' (.prio p) = q (.prio p) ++
            (q (.wait o)).filter fun t => (k.sched.thread t).currentPri = p) ∧
        k'.timers = k.timers ∧ k'.sched.currentThread = k.sched.currentThread ∧
        ∀ u, k'.sched.thread u =
          if u ∈ q (.wait o) then { k.sched.thread u with stat := threadReady }
          else k.sched.thread u := by
  obtain ⟨hkernel, q, hinv⟩ := h.inv
  obtain ⟨q0, hsched⟩ := hkernel.sched
  cases hsched.queues.lists.unique hinv.queues.lists
  refine ⟨q, hinv.queues.lists, hinv.wait_stat, ?_⟩
  intro o
  obtain ⟨k', hrun, hinv', htimers, hcur, hthread⟩ :=
    ipcListResumeAll_spec hinv (fun c hc => hsched.current_free c hc (.wait o)) rfl
  refine ⟨_, k', hrun, ⟨_, hinv'.queues.lists, ?_, ?_, fun p => rfl⟩, htimers, hcur, hthread⟩
  · simp [releasedQueues]
  · intro o' ho
    simp [releasedQueues, ho]

private theorem CallReach.of_sched (h : SchedReach idle created k) : CallReach idle created k := by
  induction h with
  | boot hboot => exact .boot hboot
  | step op fuel _ hallowed hstep ih => exact ih.step op fuel hallowed hstep

/-- The threads 1 and 2 wait for an object while the idle thread runs; they are released. -/
theorem resume_all_releases_two :
    ∃ (created : List Tid) (k k' : Kernel) (q q' : ListHead → List Tid) (fuel : Nat),
      CallReach 0 created k ∧ ThreadLists k.sched.links created q ∧ q (.wait 0) = [1, 2] ∧
      ipcListResumeAll fuel k (.wait 0) = some k' ∧ ThreadLists k'.sched.links created q' ∧
      q' (.wait 0) = [] := by
  obtain ⟨created, k, hreach, hwalk⟩ := SchedReach.exists_of_run 0 4
    [.create 0 31 32, .create 1 5 32, .create 2 6 32, .start, .wait 0 ipcFlagPrio (-1),
      .wait 0 ipcFlagPrio (-1)]
    (fun _ k => ThreadLists.threadsFrom k.sched.links 3 (k.sched.links.next (.head (.wait 0))) =
      some [1, 2]) (by decide +kernel)
  obtain ⟨q, hlists, -, hall⟩ := resume_all_releases (CallReach.of_sched hreach)
  obtain ⟨fuel, k', hrun, ⟨q', hlists', hempty, -⟩, -⟩ := hall 0
  exact ⟨created, k, k', q, q', fuel, .of_sched hreach, hlists,
    hlists.eq_of_threadsFrom (l := .wait 0) trivial hwalk, hrun, hlists', hempty⟩

end SKernel.Spec
