import SKernel.ForStd.StableOrder
import SKernel.Native.Mutex
import SKernel.Native.Semaphore
import SKernel.Spec.IpcWait

/-!
# The order of the wait lists

Runs of `__ipc_list_suspend`, `sk_thread_resume`, `sk_thread_timeout` and `sk_schedule` in any
order, on any number of wait lists. `arrivals o` are the threads that have been suspended on list
`o` and not been resumed or timed out since, in the order in which they came.

A list that is used with `SK_IPC_FLAG_PRIO` holds these threads by priority, and those of one
priority in the order of their arrival. The calls that resume the first thread of the list thus
choose the one that has waited longest among those of the highest priority.
-/

namespace SKernel.Spec

open Native StableOrder Function List Option

variable {created : List Tid} {s s' : Sched} {k : Kernel} {q : ListHead → List Tid} {c d t : Tid}
  {o : Nat}

/-! ## Threads on wait lists -/

/-- The current thread is on no ready queue, and the threads on the wait lists are suspended. The
    current thread may be on one until it calls `sk_schedule`. -/
structure WaitInv (created : List Tid) (s : Sched) (q : ListHead → List Tid) : Prop where
  queues : Queues created s q
  current_created : ∀ c, s.currentThread = some c → c ∈ created
  off_ready : ∀ c, s.currentThread = some c → ∀ p, c ∉ q (.prio p)
  wait_stat : ∀ o, ∀ t ∈ q (.wait o), (s.thread t).stat = threadSuspend

/-- No thread waits, and the current thread is on no ready queue. -/
def NoneWaiting (created : List Tid) (s : Sched) : Prop :=
  ∃ q, Queues created s q ∧ (∀ o, q (.wait o) = []) ∧
    ∀ c, s.currentThread = some c → c ∈ created ∧ ∀ p, c ∉ q (.prio p)

theorem NoneWaiting.waitInv (h : NoneWaiting created s) :
    ∃ q, WaitInv created s q ∧ ∀ o, q (.wait o) = [] := by
  obtain ⟨q, hqueues, hwait, hcur⟩ := h
  refine ⟨q, ⟨hqueues, fun c hc => (hcur c hc).1, fun c hc => (hcur c hc).2, ?_⟩, hwait⟩
  intro o t ht
  rw [hwait o] at ht
  cases ht

/-- The current thread may make a call that blocks: it has not been suspended already. -/
def CallerRuns (k : Kernel) : Prop :=
  ∃ c ∈ k.sched.currentThread, (skThreadSuspend k c).1 = .eok

instance (k : Kernel) : Decidable (CallerRuns k) :=
  inferInstanceAs (Decidable (∃ c ∈ k.sched.currentThread, (skThreadSuspend k c).1 = .eok))

/-- Thread `t` runs, or is ready to run. -/
def Awake (s : Sched) (q : ListHead → List Tid) (t : Tid) : Prop :=
  (s.currentThread = some t ∧
    ((s.thread t).stat = threadRunning ∨ (s.thread t).stat = threadRunning ||| threadYield)) ∨
  (s.currentThread ≠ some t ∧ (s.thread t).stat = threadReady ∧ ∃ p, t ∈ q (.prio p))

namespace Awake

variable {u : Tid}

/-- Waking a thread, or another one. -/
theorem wake (hq : Queues created s q) (h : u = t ∨ Awake s q u) :
    Awake (threadWake s t) (wokenQueues s t q) u := by
  simp only [Awake, threadWake_currentThread, threadWake_thread, hq.mem_wokenQueues_prio]
  by_cases hut : u = t
  · subst hut
    by_cases hc : s.currentThread = some u
    · exact .inl ⟨hc, by simp [hc]⟩
    · exact .inr ⟨hc, by simp [hc], _, .inr ⟨rfl, hc, rfl⟩⟩
  · rcases h.resolve_left hut with ⟨hc, hstat⟩ | ⟨hc, hstat, p, hin⟩
    · exact .inl ⟨hc, by simpa [hut] using hstat⟩
    · exact .inr ⟨hc, by simpa [hut] using hstat, p, .inl ⟨hut, hin⟩⟩

/-- A switch to a ready thread. -/
theorem switch (hq : Queues created s q) (hc : s.currentThread = some c)
    (hoff : ∀ p, c ∉ q (.prio p)) (hcd : c ≠ d) (h : Awake s q u) :
    Awake (scheduleSwitch s c d) (switchedQueues s c d q) u := by
  simp only [Awake, scheduleSwitch_currentThread, scheduleSwitch_thread s hcd,
    hq.mem_switchedQueues_prio hoff]
  by_cases hud : u = d
  · exact .inl ⟨by rw [hud], by simp [hud]⟩
  · right
    refine ⟨fun heq => hud (some.inj heq).symm, ?_⟩
    rw [if_neg hud]
    rcases h with ⟨hcur, hstat⟩ | ⟨hcur, hstat, p, hin⟩
    · -- the thread that is switched away from goes to the end of its queue
      obtain rfl : c = u := some.inj (hc.symm.trans hcur)
      have hre := requeued_of_running hstat
      exact ⟨by simp [hre], _, hud, .inr ⟨rfl, hre, rfl⟩⟩
    · have huc : u ≠ c := fun heq => hcur (heq ▸ hc)
      exact ⟨by simpa [huc] using hstat, p, hud, .inl hin⟩

theorem congr {q' : ListHead → List Tid} (hcur : s'.currentThread = s.currentThread)
    (hstat : (s'.thread u).stat = (s.thread u).stat) (hready : ∀ p, q' (.prio p) = q (.prio p))
    (h : Awake s q u) : Awake s' q' u := by
  simp only [Awake, hcur, hstat, hready]
  exact h

end Awake

/-- The priorities of the threads. -/
def priOf (s : Sched) (t : Tid) : Nat := (s.thread t).currentPri

theorem priOf_eq (h : ∀ u, (s'.thread u).currentPri = (s.thread u).currentPri) :
    priOf s' = priOf s :=
  funext h

theorem priOf_threadWake (s : Sched) (t : Tid) : priOf (threadWake s t) = priOf s := by
  apply priOf_eq
  intro u
  exact threadWake_currentPri s t u

theorem priOf_scheduleSwitch (hcd : c ≠ d) : priOf (scheduleSwitch s c d) = priOf s := by
  apply priOf_eq
  intro u
  rw [scheduleSwitch_thread s hcd]
  split
  · rename_i hu
    rw [hu]
  · split
    · rename_i hu
      rw [hu.1]
    · rfl

theorem priOf_setStat (s : Sched) (t : Tid) (st : BitVec 8) : priOf (s.setStat t st) = priOf s := by
  apply priOf_eq
  intro u
  rw [setStat_thread]
  split
  · rename_i hu
    rw [hu]
  · rfl

namespace WaitInv

/-- Taking a thread off its list and making it ready. -/
theorem wake (h : WaitInv created s q) (ht : t ∈ created) :
    WaitInv created (threadWake s t) (wokenQueues s t q) := by
  have hcur := threadWake_currentThread s t
  refine ⟨h.queues.wake ht (h.off_ready t), ?_, ?_, ?_⟩
  · rw [hcur]
    exact h.current_created
  · intro c hc p hin
    rw [hcur] at hc
    cases h.queues.mem_wokenQueues_prio.mp hin with
    | inl hold => exact h.off_ready c hc p hold.2
    | inr hnew => exact hnew.2.1 (hnew.1 ▸ hc)
  · intro o u hu
    rw [wokenQueues_wait, (h.queues.lists.nodup _).mem_erase_iff] at hu
    rw [threadWake_thread, if_neg hu.1]
    exact h.wait_stat o u hu.2

/-- A switch to a ready thread. -/
theorem switch (h : WaitInv created s q) (hc : s.currentThread = some c) {p : Nat}
    (hd : d ∈ q (.prio p)) (hcd : c ≠ d) :
    WaitInv created (scheduleSwitch s c d) (switchedQueues s c d q) := by
  have hcur := scheduleSwitch_currentThread s c d
  have hoff := h.off_ready c hc
  -- a thread that goes back to the ready queues is not suspended
  have hnot : Requeued s c → ∀ o, c ∉ q (.wait o) := fun hre o hin => hre.1 (h.wait_stat o c hin)
  have hfree : Requeued s c → ∀ l, c ∉ q l := by
    intro hre l
    cases l with
    | prio p => exact hoff p
    | wait o => exact hnot hre o
  refine ⟨h.queues.switch (h.current_created c hc) hd hcd hfree, ?_, ?_, ?_⟩
  · intro e he
    rw [hcur] at he
    cases he
    exact h.queues.lists.mem_created hd
  · intro e he p'
    rw [hcur] at he
    cases he
    exact h.queues.notMem_switchedQueues hd hoff _
  · intro o u hu
    rw [h.queues.switchedQueues_wait hd] at hu
    have hud : u ≠ d := by
      rintro rfl
      exact h.queues.lists.notMem_of_ne hd (by simp) hu
    have huc : ¬ (u = c ∧ Requeued s c) := by
      rintro ⟨rfl, hre⟩
      exact hnot hre o hu
    rw [scheduleSwitch_thread s hcd, if_neg hud, if_neg huc]
    exact h.wait_stat o u hu

/-- `sk_schedule` leaves the wait lists alone. -/
theorem schedule (h : WaitInv created s q) (hs : skSchedule s = some s') :
    ∃ q', WaitInv created s' q' ∧ (∀ o, q' (.wait o) = q (.wait o)) ∧ priOf s' = priOf s ∧
      (∀ u, Awake s q u → Awake s' q' u) ∧
      (s.currentThread ≠ none → s'.currentThread ≠ none) := by
  cases hc : s.currentThread with
  | none =>
    cases skSchedule_of_none hc hs
    exact ⟨q, h, fun _ => rfl, rfl, fun _ hu => hu, fun hne => absurd rfl hne⟩
  | some c =>
    rcases h.queues.skSchedule hc (h.off_ready c hc) with
      ⟨hrun, -⟩ | ⟨hrun, -, -⟩ | ⟨d, p, ts, hrun, hcd, hq, -, -⟩
    · cases hrun.symm.trans hs
      exact ⟨q, h, fun _ => rfl, rfl, fun _ hu => hu, fun _ => by simp [hc]⟩
    · cases hrun.symm.trans hs
      exact ⟨q, h, fun _ => rfl, rfl, fun _ hu => hu, fun _ => by simp [hc]⟩
    · cases hrun.symm.trans hs
      have hd : d ∈ q (.prio p) := by
        rw [hq]
        exact mem_cons_self
      exact ⟨_, h.switch hc hd hcd, h.queues.switchedQueues_wait hd, priOf_scheduleSwitch hcd,
        fun _ hu => hu.switch h.queues hc (h.off_ready c hc) hcd, fun _ => by simp⟩

/-- `sk_thread_timeout`. -/
theorem timeout (h : WaitInv created s q) (ht : t ∈ created) (hs : skThreadTimeout s t = some s') :
    ∃ q', WaitInv created s' q' ∧ (∀ o, q' (.wait o) = (q (.wait o)).erase t) ∧
      priOf s' = priOf s ∧ (∀ u, u = t ∨ Awake s q u → Awake s' q' u) ∧
      (s.currentThread ≠ none → s'.currentThread ≠ none) := by
  obtain ⟨q', hinv, hwait, hpri, hawake, hcur⟩ := (h.wake ht).schedule hs
  refine ⟨q', hinv, ?_, hpri.trans (priOf_threadWake s t), fun u hu => hawake u (.wake h.queues hu),
    fun hne => hcur (by rw [threadWake_currentThread]; exact hne)⟩
  intro o
  rw [hwait o, wokenQueues_wait]

theorem resume (h : WaitInv created k.sched q) (ht : t ∈ created)
    (hok : (skThreadResume k t).1 = .eok) :
    WaitInv created (skThreadResume k t).2.sched (wokenQueues k.sched t q) ∧
      priOf (skThreadResume k t).2.sched = priOf k.sched := by
  unfold skThreadResume at hok ⊢
  split
  · rename_i hstat
    rw [if_pos hstat] at hok
    cases hok
  · exact ⟨h.wake ht, priOf_threadWake k.sched t⟩

/-- A thread on a wait list stays suspended. -/
theorem setThread (h : WaitInv created s q) {r : Thread}
    (hpri : r.currentPri = (s.thread t).currentPri) (hmask : r.numberMask = (s.thread t).numberMask)
    (hstat : ∀ o, t ∈ q (.wait o) → r.stat = threadSuspend) :
    WaitInv created (s.setThread t r) q := by
  refine ⟨h.queues.setThread hpri hmask, h.current_created, h.off_ready, ?_⟩
  intro o u hu
  rw [setThread_thread]
  split
  · rename_i hut
    exact hstat o (hut ▸ hu)
  · exact h.wait_stat o u hu

theorem remove (h : WaitInv created s q) (ht : t ∈ created) (st : BitVec 8) :
    WaitInv created ((skScheduleRemoveThread s t).setStat t st) (fun l => (q l).erase t) := by
  have hremoved : WaitInv created (skScheduleRemoveThread s t) (fun l => (q l).erase t) := by
    refine ⟨h.queues.remove ht, ?_, ?_, ?_⟩
    · rw [skScheduleRemoveThread_currentThread]
      exact h.current_created
    · intro c hc p hin
      rw [skScheduleRemoveThread_currentThread] at hc
      exact h.off_ready c hc p (mem_of_mem_erase hin)
    · intro o u hu
      rw [skScheduleRemoveThread_thread]
      exact h.wait_stat o u (mem_of_mem_erase hu)
  exact hremoved.setThread rfl rfl fun o hin => absurd hin (h.queues.lists.nodup _).not_mem_erase

/-- Suspended, and on no list. -/
theorem suspend (h : WaitInv created k.sched q) (ht : t ∈ created)
    (hok : (skThreadSuspend k t).1 = .eok) :
    WaitInv created (skThreadSuspend k t).2.sched (fun l => (q l).erase t) ∧
      ((skThreadSuspend k t).2.sched.thread t).stat = threadSuspend ∧
      (∀ o, t ∉ q (.wait o)) ∧ priOf (skThreadSuspend k t).2.sched = priOf k.sched := by
  rcases skThreadSuspend_cases k t with herror | ⟨hstat, hrun⟩
  · rw [herror] at hok
    cases hok
  · rw [hrun]
    refine ⟨h.remove ht _, by rw [setStat_thread, if_pos rfl], ?_, ?_⟩
    · -- a thread on a wait list is refused
      intro o hin
      exact hstat (h.wait_stat o t hin)
    · rw [priOf_setStat]
      exact priOf_eq fun u => by rw [skScheduleRemoveThread_thread]

theorem enlist (h : WaitInv created s q) (ht : t ∈ created) (hfree : ∀ l, t ∉ q l)
    (hstat : (s.thread t).stat = threadSuspend) {as bs : List Tid} (hq : q (.wait o) = as ++ bs) :
    WaitInv created
      { s with links := skListAddTail s.links (firstThread (.wait o) bs) (.tlist t) }
      (update q (.wait o) (as ++ t :: bs)) := by
  have hL := h.queues.lists.insertAt (l := .wait o) trivial hq ht hfree
  refine ⟨h.queues.enlist hL, h.current_created, ?_, ?_⟩
  · intro c hc p
    rw [update_of_ne (by simp)]
    exact h.off_ready c hc p
  · intro o' u hu
    cases (mem_update_insert hq).mp hu with
    | inl hu => exact h.wait_stat o' u hu
    | inr hu =>
      rw [hu.1]
      exact hstat

/-- `sk_thread_create`. -/
theorem create (h : WaitInv created k.sched q) (ht : t ∉ created) {priority : Nat}
    (hp : priority < threadPriorityMax) (slice : Nat) :
    WaitInv (t :: created) (skThreadCreate k t priority slice).sched
      (update q (.prio priority) (q (.prio priority) ++ [t])) := by
  have hcur : k.sched.currentThread ≠ some t := fun hc => ht (h.current_created t hc)
  refine ⟨h.queues.create hcur ht hp slice, ?_, ?_, ?_⟩
  · rw [skThreadCreate_currentThread]
    exact fun c hc => mem_cons_of_mem t (h.current_created c hc)
  · intro c hc p hin
    rw [skThreadCreate_currentThread] at hc
    cases mem_update_snoc.mp hin with
    | inl hin => exact h.off_ready c hc p hin
    | inr hin => exact hcur (hin.1 ▸ hc)
  · intro o u hu
    rw [update_of_ne (by simp)] at hu
    have hut : u ≠ t := by
      rintro rfl
      exact ht (h.queues.lists.mem_created hu)
    rw [skThreadCreate_thread hcur, if_neg hut]
    exact h.wait_stat o u hu

theorem ipcListSuspend (h : WaitInv created k.sched q) (ht : t ∈ created)
    (hok : (skThreadSuspend k t).1 = .eok) (o : Nat) (flag : BitVec 8) (fuel : Nat) :
    (Native.ipcListSuspend fuel k (.wait o) t flag = none ∧ fuel ≤ (q (.wait o)).length) ∨
    ∃ k' q', Native.ipcListSuspend fuel k (.wait o) t flag = some k' ∧
      WaitInv created k'.sched q' ∧ priOf k'.sched = priOf k.sched ∧
      (∀ o', o' ≠ o → q' (.wait o') = q (.wait o')) ∧
      (∀ p, q' (.prio p) = (q (.prio p)).erase t) ∧
      (flag = ipcFlagPrio → ∃ as bs, q (.wait o) = as ++ bs ∧ q' (.wait o) = as ++ t :: bs ∧
        (∀ u ∈ as, priOf k.sched u ≤ priOf k.sched t) ∧
        ∀ u ∈ bs.head?, priOf k.sched t < priOf k.sched u) := by
  obtain ⟨hinv, hstat, hnot, hpri⟩ := h.suspend ht hok
  have hfree : ∀ l, t ∉ (q l).erase t := fun l => (h.queues.lists.nodup l).not_mem_erase
  have hsame : ∀ o, (q (.wait o)).erase t = q (.wait o) := fun o => erase_of_not_mem (hnot o)
  have hother : ∀ ts o', o' ≠ o → update (fun l => (q l).erase t) (.wait o) ts
      (.wait o') = q (.wait o') := by
    intro ts o' ho
    rw [update_of_ne (by simpa using ho)]
    exact hsame o'
  have hready : ∀ ts p, update (fun l => (q l).erase t) (.wait o) ts (.prio p) =
      (q (.prio p)).erase t := by
    intro ts p
    rw [update_of_ne (by simp)]
  unfold Native.ipcListSuspend
  dsimp only
  split
  · -- at the end of the list
    rename_i hfifo
    right
    have hend : (q (.wait o)).erase t = q (.wait o) ++ [] := by
      rw [hsame o, append_nil]
    refine ⟨_, _, rfl, hinv.enlist ht hfree hstat hend, hpri, hother _, hready _, ?_⟩
    intro hprio
    rw [hfifo] at hprio
    exact absurd hprio (by decide)
  · split
    · have hlists := hinv.queues.lists
      rw [hlists.next_head (l := .wait o) trivial]
      rcases ipcListPosition_spec hlists t fuel [] _ (nil_append _).symm with
        ⟨hnone, hfuel⟩ | ⟨passed, behind, hsplit, hpos, hpassed, hbehind⟩
      · left
        rw [hnone]
        rw [hsame o] at hfuel
        exact ⟨rfl, hfuel⟩
      · right
        rw [hpos]
        refine ⟨_, _, rfl, hinv.enlist ht hfree hstat hsplit, hpri, hother _, hready _, fun _ => ?_⟩
        refine ⟨passed, behind, by rw [← hsplit, hsame o], update_self .., ?_, ?_⟩
        · rw [← hpri]
          exact hpassed
        · rw [← hpri]
          exact hbehind
    · rename_i hprio
      exact .inr ⟨_, _, rfl, hinv, hpri, fun o' _ => hsame o', fun _ => rfl,
        fun heq => absurd heq hprio⟩

theorem tickSlice (h : WaitInv created s q) (hc : s.currentThread = some c)
    (hwait : ∀ o, c ∈ q (.wait o) → remainTickDec (s.thread c) ≠ 0)
    (hs : Native.tickSlice s = some s') :
    ∃ q', WaitInv created s' q' ∧ (∀ u, Awake s q u → Awake s' q' u) ∧
      s'.currentThread ≠ none := by
  rw [tickSlice_of_current hc] at hs
  split at hs
  · rename_i hover
    have hexpired : WaitInv created (sliceExpired s c) q :=
      h.setThread rfl rfl fun o hin => absurd hover (hwait o hin)
    obtain ⟨q', hinv, -, -, hawake, hcur⟩ := hexpired.schedule hs
    refine ⟨q', hinv, fun u hu => hawake u ?_, hcur (by simp [sliceExpired, hc])⟩
    -- the current thread gets the yield flag
    rcases hu with ⟨hcu, hstat⟩ | ⟨hcu, hstat, hin⟩
    · left
      refine ⟨hcu, .inr ?_⟩
      cases hc.symm.trans hcu
      rw [sliceExpired_thread, if_pos rfl]
      rcases hstat with hstat | hstat
      · rw [hstat]
      · rw [hstat]
        rfl
    · right
      have huc : u ≠ c := fun heq => hcu (heq ▸ hc)
      refine ⟨hcu, ?_, hin⟩
      rw [sliceExpired_thread, if_neg huc]
      exact hstat
  · cases hs
    refine ⟨q, h.setThread rfl rfl fun o hin => h.wait_stat o c hin, ?_, by simp [hc]⟩
    intro u hu
    refine Awake.congr (setThread_currentThread s c _) ?_ (fun _ => rfl) hu
    rw [setThread_thread]
    split
    · rename_i huc
      rw [huc]
    · rfl

end WaitInv

/-! ## The system -/

/-- The kernel, the threads, and for each wait list the threads suspended on it and not woken since,
    in the order in which they came. -/
structure WaitSys where
  k : Kernel
  created : List Tid
  arrivals : Nat → List Tid

/-- The calls. -/
inductive WaitOp where
  /-- `__ipc_list_suspend` on the list `o` -/
  | suspend (fuel o : Nat) (t : Tid)
  | resume (t : Tid)
  | timeout (t : Tid)
  | schedule

/-- Thread arguments are created threads, and `__ipc_list_suspend` is called for ready or running
    threads, with the flag of the object. -/
def WaitSys.step (flags : Nat → BitVec 8) (x : WaitSys) : WaitOp → Option WaitSys
  | .suspend fuel o t =>
    if t ∈ x.created ∧ (skThreadSuspend x.k t).1 = .eok then
      (ipcListSuspend fuel x.k (.wait o) t (flags o)).map fun k =>
        { x with k := k, arrivals := update x.arrivals o (x.arrivals o ++ [t]) }
    else none
  | .resume t =>
    if t ∈ x.created then
      some { x with
        k := (skThreadResume x.k t).2
        arrivals := if (skThreadResume x.k t).1 = .eok then fun o => (x.arrivals o).erase t
          else x.arrivals }
    else none
  | .timeout t =>
    if t ∈ x.created then
      (skThreadTimeout x.k.sched t).map fun s =>
        { x with k := { x.k with sched := s }, arrivals := fun o => (x.arrivals o).erase t }
    else none
  | .schedule => (thenSchedule x.k).map ({ x with k := · })

/-- At first no thread waits. -/
def waitSystem (flags : Nat → BitVec 8) : TransitionSystem WaitSys WaitOp where
  init x := NoneWaiting x.created x.k.sched ∧ x.arrivals = fun _ => []
  step := WaitSys.step flags

/-- The invariant of a run. -/
def WaitSys.Inv (flags : Nat → BitVec 8) (x : WaitSys) : Prop :=
  ∃ q, WaitInv x.created x.k.sched q ∧ ∀ o, flags o = ipcFlagPrio →
    Ordered (priOf x.k.sched) (x.arrivals o) (q (.wait o))

variable {flags : Nat → BitVec 8} {x x' : WaitSys}

theorem WaitSys.Inv.init (h : (waitSystem flags).init x) : x.Inv flags := by
  obtain ⟨hnone, harrivals⟩ := h
  obtain ⟨q, hinv, hempty⟩ := hnone.waitInv
  refine ⟨q, hinv, ?_⟩
  intro o _
  rw [harrivals, hempty o]
  exact .nil

/-- Every call keeps the order. -/
theorem WaitSys.Inv.step (h : x.Inv flags) {e : WaitOp} (hstep : x.step flags e = some x') :
    x'.Inv flags := by
  obtain ⟨q, hinv, horder⟩ := h
  cases e with
  | suspend fuel o t =>
    obtain ⟨hallowed, hstep⟩ := ite_none_right_eq_some.mp hstep
    obtain ⟨ht, hok⟩ := hallowed
    rcases hinv.ipcListSuspend ht hok o (flags o) fuel with
      ⟨hnone, -⟩ | ⟨k', q', hsome, hinv', hpri, hother, -, hplace⟩
    · rw [hnone] at hstep
      cases hstep
    · rw [hsome] at hstep
      cases hstep
      refine ⟨q', hinv', ?_⟩
      intro o' hflag
      dsimp only
      rw [hpri]
      by_cases ho : o' = o
      · subst ho
        obtain ⟨as, bs, hq, hq', hpassed, hbehind⟩ := hplace hflag
        have hold := horder o' hflag
        rw [hq] at hold
        rw [update_self, hq']
        exact hold.insert hpassed hbehind
      · rw [update_of_ne ho, hother o' ho]
        exact horder o' hflag
  | resume t =>
    obtain ⟨ht, hstep⟩ := ite_none_right_eq_some.mp hstep
    cases hstep
    by_cases hok : (skThreadResume x.k t).1 = .eok
    · obtain ⟨hinv', hpri⟩ := hinv.resume ht hok
      refine ⟨_, hinv', ?_⟩
      intro o hflag
      dsimp only
      rw [if_pos hok, hpri, wokenQueues_wait]
      exact (horder o hflag).erase t
    · -- a thread that is not suspended is left alone
      have hsame : (skThreadResume x.k t).2 = x.k := by
        unfold skThreadResume at hok ⊢
        split
        · rfl
        · rename_i hstat
          rw [if_neg hstat] at hok
          exact absurd rfl hok
      rw [if_neg hok, hsame]
      exact ⟨q, hinv, horder⟩
  | timeout t =>
    obtain ⟨ht, hstep⟩ := ite_none_right_eq_some.mp hstep
    obtain ⟨s', hs, rfl⟩ := map_eq_some_iff.mp hstep
    obtain ⟨q', hinv', hwait, hpri, -⟩ := hinv.timeout ht hs
    refine ⟨q', hinv', ?_⟩
    intro o hflag
    dsimp only
    rw [hpri, hwait o]
    exact (horder o hflag).erase t
  | schedule =>
    simp only [WaitSys.step, thenSchedule, Option.map_map] at hstep
    obtain ⟨s', hs, rfl⟩ := map_eq_some_iff.mp hstep
    obtain ⟨q', hinv', hwait, hpri, -⟩ := hinv.schedule hs
    refine ⟨q', hinv', ?_⟩
    intro o hflag
    show Ordered (priOf s') (x.arrivals o) (q' (.wait o))
    rw [hpri, hwait o]
    exact horder o hflag

theorem WaitSys.Inv.of_reach {guard : WaitSys → WaitOp → Prop}
    (h : (waitSystem flags).Reach guard x) : x.Inv flags :=
  h.invariant (fun _ => WaitSys.Inv.init) fun _ _ _ hinv _ hstep => hinv.step hstep

/-! ## What the calls choose -/

theorem ThreadLists.mem_of_ipcFirstThread (h : ThreadLists s.links created q)
    (hfirst : ipcFirstThread s (.wait o) = some t) : t ∈ q (.wait o) := by
  apply h.mem_of_next_head (l := .wait o) trivial
  unfold ipcFirstThread at hfirst
  split at hfirst
  · rename_i hnext
    cases hfirst
    exact hnext
  · cases hfirst

theorem WaitInv.resume_eok (h : WaitInv created k.sched q) (ht : t ∈ q (.wait o)) :
    (skThreadResume k t).1 = .eok := by
  unfold skThreadResume
  rw [if_neg (by rw [h.wait_stat o t ht]; simp)]

theorem WaitInv.first (h : WaitInv created k.sched q) {ts : List Tid} (hq : q (.wait o) = t :: ts) :
    skListEmpty k.sched.links (.head (.wait o)) = false ∧
      ipcFirstThread k.sched (.wait o) = some t ∧ (skThreadResume k t).1 = .eok := by
  have hlists := h.queues.lists
  have hin : t ∈ q (.wait o) := by
    rw [hq]
    exact mem_cons_self
  refine ⟨?_, ?_, h.resume_eok hin⟩
  · cases hempty : skListEmpty k.sched.links (.head (.wait o)) with
    | false => rfl
    | true =>
      rw [(hlists.skListEmpty_iff (l := .wait o) trivial).mp hempty] at hq
      cases hq
  · unfold ipcFirstThread
    rw [hlists.next_head (l := .wait o) trivial, hq]
    rfl

theorem skSemPost_first {sem : Sem} (hne : skListEmpty k.sched.links (.head (.wait o)) = false)
    (hfirst : ipcFirstThread k.sched (.wait o) = some t) :
    skSemPost k sem (.wait o) = some (.schedule, (skThreadResume k t).2, sem) := by
  unfold skSemPost
  rw [hne, hfirst]
  rfl

theorem skMutexUnlock_first {mutex : Mutex} (hc : k.sched.currentThread = some c)
    (howner : mutex.owner = some c) (hhold : mutex.hold = 1)
    (hne : skListEmpty k.sched.links (.head (.wait o)) = false)
    (hfirst : ipcFirstThread k.sched (.wait o) = some t) :
    skMutexUnlock k mutex (.wait o) = some (.schedule, (skThreadResume k t).2,
      { mutex with owner := some t, originalPri := (k.sched.thread t).currentPri }) := by
  unfold skMutexUnlock
  rw [hc]
  simp [howner, hhold, hne, hfirst]

/-- **Order of the wait lists.** In every state reached by `__ipc_list_suspend`,
    `sk_thread_resume`, `sk_thread_timeout` and `sk_schedule` in any order, a wait list that is
    used with `SK_IPC_FLAG_PRIO` holds exactly the threads that have been suspended on it and not
    been resumed or timed out since, each once, sorted by priority, and those of one priority in
    the order of their arrival. If it is not empty, `sk_sem_post` and `sk_mutex_unlock` resume the
    thread that has waited longest among those of the highest priority. Suspending a further
    thread on the list completes. -/
theorem wait_list_stably_ordered (h : (waitSystem flags).Reach (fun _ _ => True) x)
    (ho : flags o = ipcFlagPrio) :
    ∃ q, ThreadLists x.k.sched.links x.created q ∧
      (q (.wait o)).Perm (x.arrivals o) ∧ (q (.wait o)).Nodup ∧
      Ordered (priOf x.k.sched) (x.arrivals o) (q (.wait o)) ∧
      (q (.wait o) ≠ [] → ∃ t, IsNext (priOf x.k.sched) (x.arrivals o) t ∧
        (skThreadResume x.k t).1 = .eok ∧
        (∀ sem, skSemPost x.k sem (.wait o) = some (.schedule, (skThreadResume x.k t).2, sem)) ∧
        ∀ c mutex, x.k.sched.currentThread = some c → mutex.owner = some c → mutex.hold = 1 →
          ∃ mutex', skMutexUnlock x.k mutex (.wait o) =
            some (.schedule, (skThreadResume x.k t).2, mutex') ∧ mutex'.owner = some t) ∧
      ∀ t ∈ x.created, (skThreadSuspend x.k t).1 = .eok →
        ∃ fuel k', ipcListSuspend fuel x.k (.wait o) t ipcFlagPrio = some k' := by
  obtain ⟨q, hinv, horder⟩ := WaitSys.Inv.of_reach h
  refine ⟨q, hinv.queues.lists, (horder o ho).perm, hinv.queues.lists.nodup _, horder o ho, ?_, ?_⟩
  · intro hne
    obtain ⟨t, ts, hq⟩ := exists_cons_of_ne_nil hne
    have hnext := horder o ho
    rw [hq] at hnext
    obtain ⟨hnonempty, hfirst, hok⟩ := hinv.first hq
    refine ⟨t, hnext.isNext, hok, fun sem => skSemPost_first hnonempty hfirst, ?_⟩
    intro c mutex hc howner hhold
    exact ⟨_, skMutexUnlock_first hc howner hhold hnonempty hfirst, rfl⟩
  · intro t ht hok
    rcases hinv.ipcListSuspend ht hok o ipcFlagPrio ((q (.wait o)).length + 1) with
      ⟨-, hfuel⟩ | ⟨k', -, hsome, -⟩
    · omega
    · exact ⟨_, k', hsome⟩

/-- Thread 1 of priority 5 runs, and the threads 2 and 3 of priorities 6 and 7 are ready. -/
def trioWaitSys : WaitSys where
  k := trioSys.k
  created := trioSys.created
  arrivals := fun _ => []

theorem BlockSys.Started.noneWaiting {idle : Tid} {y : BlockSys} (h : y.Started idle) :
    NoneWaiting y.created y.k.sched := by
  obtain ⟨hreach, -, hwait, -⟩ := h
  obtain ⟨q, hq⟩ := hreach.inv.sched
  refine ⟨q, hq.queues, ?_, ?_⟩
  · intro o
    exact (hq.queues.lists.skListEmpty_iff (l := .wait o) trivial).mp (hwait o)
  · intro c hc
    exact ⟨hq.current_created c hc, fun p => hq.current_free c hc _⟩

/-- Thread 3 is suspended first, then the threads 1 and 2: they are on the list by priority, and
    `sk_sem_post` resumes one of them. -/
theorem wait_list_stably_ordered_three :
    ∃ (x : WaitSys) (q : ListHead → List Tid),
      (waitSystem fun _ => ipcFlagPrio).Reach (fun _ _ => True) x ∧
      ThreadLists x.k.sched.links x.created q ∧ q (.wait 0) = [1, 2, 3] ∧
      Ordered (priOf x.k.sched) [3, 1, 2] [1, 2, 3] ∧
      ∃ t, IsNext (priOf x.k.sched) [3, 1, 2] t ∧ ∀ sem,
        skSemPost x.k sem (.wait 0) = some (.schedule, (skThreadResume x.k t).2, sem) := by
  have hinit : (waitSystem fun _ => ipcFlagPrio).Reach (fun _ _ => True) trioWaitSys :=
    .init ⟨trioSys_started.noneWaiting, rfl⟩
  obtain ⟨x, hx, hp⟩ := hinit.exists_of_run [.suspend 4 0 3, .suspend 4 0 1, .suspend 4 0 2]
    (fun x => x.arrivals 0 = [3, 1, 2] ∧
      ThreadLists.threadsFrom x.k.sched.links 4 (x.k.sched.links.next (.head (.wait 0))) =
        some [1, 2, 3])
    (by decide +kernel)
  obtain ⟨harrivals, hwalk⟩ := of_decide_eq_true hp
  obtain ⟨q, hlists, -, -, horder, hfirst, -⟩ := wait_list_stably_ordered hx (o := 0) rfl
  have hq : q (.wait 0) = [1, 2, 3] := hlists.eq_of_threadsFrom (l := .wait 0) trivial hwalk
  rw [hq, harrivals] at horder
  obtain ⟨t, hnext, -, hpost, -⟩ := hfirst (by rw [hq]; simp)
  rw [harrivals] at hnext
  exact ⟨x, q, hx, hlists, hq, horder, t, hnext, hpost⟩

end SKernel.Spec
