import SKernel.Spec.SchedInv

/-!
# What the thread calls do to the queues

The interrupt-disabled parts of the thread and IPC calls, each described by its effect on the
lists: suspending a thread, linking the current thread on a wait list, the time slice, a new
thread, and the start of the scheduler.

## Key results

- `SchedInv.suspend`, `SchedInv.ipcListSuspend`, `SchedInv.tickSlice`, `SchedInv.create`,
  `SchedInv.start`: the calls complete and keep the invariant
-/

namespace SKernel.Spec

open Native Function List

variable {idle : Tid} {created : List Tid} {s : Sched} {k : Kernel}
variable {q q' : ListHead → List Tid} {c t : Tid} {l : ListHead} {o priority : Nat}

/-! ## Suspending a thread -/

theorem skThreadSuspend_cases (k : Kernel) (t : Tid) :
    skThreadSuspend k t = (.error, k) ∨
      (k.sched.thread t).stat ≠ threadSuspend ∧
        skThreadSuspend k t =
          (.eok,
            { sched := (skScheduleRemoveThread k.sched t).setStat t threadSuspend
              timers := skTimerStop k.timers t }) := by
  unfold skThreadSuspend
  dsimp only
  split
  · exact .inl rfl
  · rename_i hstat
    refine .inr ⟨?_, rfl⟩
    intro heq
    rw [heq] at hstat
    exact hstat (by decide)

namespace SchedInv

/-- `sk_thread_suspend`. -/
theorem suspend (h : SchedInv idle created k.sched q) (ht : t ∈ created) (hti : t ≠ idle) :
    ∃ q', SchedInv idle created (skThreadSuspend k t).2.sched q' := by
  unfold skThreadSuspend
  dsimp only
  split
  · exact ⟨q, h⟩
  · exact ⟨_, h.remove ht hti⟩

theorem suspend_current (h : SchedInv idle created k.sched q)
    (hc : k.sched.currentThread = some c) (hci : c ≠ idle) :
    SchedInv idle created (skThreadSuspend k c).2.sched q ∧
      (skThreadSuspend k c).2.sched.currentThread = some c ∧
      ∀ u, (skThreadSuspend k c).2.sched.thread u =
        if u = c then { k.sched.thread c with stat := threadSuspend } else k.sched.thread u := by
  have hcc := h.current_created c hc
  have hfree := h.current_free c hc
  have herase : (fun l => (q l).erase c) = q := by
    funext l
    exact erase_of_not_mem (hfree l)
  have hrem := h.remove hcc hci
  rw [herase] at hrem
  unfold skThreadSuspend
  dsimp only
  split
  · -- refused: the current thread was suspended already
    rename_i hstat
    have hsusp : (k.sched.thread c).stat = threadSuspend := by
      rcases h.current_stat c hc with (hst | hst) | hst
      · rw [hst] at hstat
        exact absurd rfl hstat.2
      · rw [hst] at hstat
        exact absurd (by decide) hstat.2
      · exact hst.1
    refine ⟨h, hc, ?_⟩
    intro u
    split
    · rename_i hu
      rw [hu, ← hsusp]
    · rfl
  · refine ⟨hrem, by rw [setStat_currentThread, skScheduleRemoveThread_currentThread, hc], ?_⟩
    intro u
    rw [setStat_thread, skScheduleRemoveThread_thread]

end SchedInv

/-! ## Linking on a wait list -/

theorem ipcListPosition_spec (h : ThreadLists s.links created q) (t : Tid) :
    ∀ (fuel : Nat) (as bs : List Tid), q l = as ++ bs →
      (ipcListPosition s l t fuel (firstThread l bs) = none ∧ fuel ≤ bs.length) ∨
      ∃ passed behind, bs = passed ++ behind ∧
        ipcListPosition s l t fuel (firstThread l bs) = some (firstThread l behind) ∧
        (∀ u ∈ passed, (s.thread u).currentPri ≤ (s.thread t).currentPri) ∧
        ∀ u ∈ behind.head?, (s.thread t).currentPri < (s.thread u).currentPri := by
  intro fuel
  induction fuel with
  | zero =>
    intro as bs _
    exact .inl ⟨rfl, Nat.zero_le _⟩
  | succ fuel ih =>
    intro as bs hq
    cases bs with
    | nil =>
      right
      refine ⟨[], [], rfl, ?_, by simp, by simp⟩
      simp only [firstThread, ipcListPosition, ↓reduceIte]
    | cons u bs =>
      simp only [firstThread, ipcListPosition, reduceCtorEq, ↓reduceIte]
      split
      · rename_i hlt
        exact .inr ⟨[], u :: bs, rfl, rfl, by simp, by simpa using hlt⟩
      · rename_i hge
        rw [h.next_tlist hq]
        rw [append_cons] at hq
        rcases ih (as ++ [u]) bs hq with
          ⟨hnone, hfuel⟩ | ⟨passed, behind, hsplit, hpos, hpassed, hbehind⟩
        · exact .inl ⟨hnone, Nat.succ_le_succ hfuel⟩
        · refine .inr ⟨u :: passed, behind, by rw [hsplit]; rfl, hpos, ?_, hbehind⟩
          intro v hv
          cases mem_cons.mp hv with
          | inl heq => rw [heq]; exact Nat.le_of_not_lt hge
          | inr hv => exact hpassed v hv

theorem ipcResumeFirst_code {k k' : Kernel} {e : CallEnd} (h : ipcResumeFirst k l = some
    (e, k')) : e.code = .eok := by
  unfold ipcResumeFirst at h
  split at h
  · cases h
    rfl
  · obtain ⟨t, -, heq⟩ := Option.map_eq_some_iff.mp h
    cases heq
    rfl

theorem Queues.enlist (h : Queues created s q) {ts : List Tid} {L : Links ThreadNode}
    (hL : ThreadLists L created (update q (.wait o) ts)) :
    Queues created { s with links := L } (update q (.wait o) ts) := by
  have hprio : ∀ p, update q (.wait o) ts (.prio p) = q (.prio p) := by
    intro p
    rw [update_of_ne (by simp)]
  refine ⟨hL, ?_, h.pri, h.mask, ?_⟩
  · intro p hp
    rw [hprio p]
    exact h.bit p hp
  · intro p u hu
    rw [hprio p] at hu
    exact h.queued p u hu

/-- The lists after thread `c` has been linked somewhere on wait list `o`. -/
def Enlisted (q q' : ListHead → List Tid) (o : Nat) (c : Tid) : Prop :=
  ∃ as bs, q (.wait o) = as ++ bs ∧ q' = update q (.wait o) (as ++ c :: bs)

theorem Enlisted.mem_iff (h : Enlisted q q' o c) (u : Tid)
    (l : ListHead) : u ∈ q' l ↔ u ∈ q l ∨ u = c ∧ l = .wait o := by
  obtain ⟨as, bs, hq, rfl⟩ := h
  exact mem_update_insert hq

theorem Enlisted.prio (h : Enlisted q q' o c) (p : Nat) :
    q' (.prio p) = q (.prio p) := by
  obtain ⟨as, bs, -, rfl⟩ := h
  rw [update_of_ne (by simp)]

/-- The current thread has been suspended, and is about to call `sk_schedule`. -/
structure Suspended (idle : Tid) (created : List Tid) (s s' : Sched)
    (q' : ListHead → List Tid) (c : Tid) : Prop where
  atSchedule : AtSchedule idle created s' q' c
  stat : (s'.thread c).stat = threadSuspend
  thread : ∀ u, u ≠ c → s'.thread u = s.thread u

theorem not_requeued_of_suspend (h : (s.thread c).stat = threadSuspend) : ¬ Requeued s c :=
  fun hre => hre.1 h

namespace SchedInv

theorem suspended_current (h : SchedInv idle created k.sched q)
    (hc : k.sched.currentThread = some c) (hci : c ≠ idle) :
    Suspended idle created k.sched (skThreadSuspend k c).2.sched q c := by
  obtain ⟨hinv, hcur, hthread⟩ := h.suspend_current hc hci
  refine ⟨hinv.atSchedule hcur, ?_, ?_⟩
  · rw [hthread c, if_pos rfl]
  · intro u hu
    rw [hthread u, if_neg hu]

theorem ipcListSuspend (h : SchedInv idle created k.sched q)
    (hc : k.sched.currentThread = some c) (hci : c ≠ idle) (o : Nat) (flag : BitVec 8)
    (fuel : Nat) :
    (Native.ipcListSuspend fuel k (.wait o) c flag = none ∧ fuel ≤ (q (.wait o)).length) ∨
    ∃ k' q', Native.ipcListSuspend fuel k (.wait o) c flag = some k' ∧
      k'.timers = (skThreadSuspend k c).2.timers ∧
      Suspended idle created k.sched k'.sched q' c ∧
      (q' = q ∧ ¬ (flag = ipcFlagFifo ∨ flag = ipcFlagPrio) ∨
        (flag = ipcFlagFifo ∨ flag = ipcFlagPrio) ∧ Enlisted q q' o c) := by
  have hsusp := h.suspended_current hc hci
  have hlists := hsusp.atSchedule.queues.lists
  have hcc := h.current_created c hc
  have hfree := h.current_free c hc
  -- linking the suspended thread at any position of the wait list
  have hlink : ∀ as bs, q (.wait o) = as ++ bs →
      Suspended idle created k.sched
        { (skThreadSuspend k c).2.sched with
          links := skListAddTail (skThreadSuspend k c).2.sched.links (firstThread (.wait o) bs)
            (.tlist c) }
        (update q (.wait o) (as ++ c :: bs)) c := by
    intro as bs hq
    have hL := hlists.insertAt (l := .wait o) trivial hq hcc hfree
    have hprio : ∀ p, update q (.wait o) (as ++ c :: bs) (.prio p) = q (.prio p) := by
      intro p
      rw [update_of_ne (by simp)]
    have hat := hsusp.atSchedule
    refine ⟨⟨hat.queues.enlist hL, hat.current, hcc, ?_, ?_, hat.idle_stat, ?_,
      hat.idle_created⟩, hsusp.stat, hsusp.thread⟩
    · intro p
      rw [hprio p]
      exact hat.off_ready p
    · intro hre
      exact absurd hre (not_requeued_of_suspend hsusp.stat)
    · intro hne
      rw [hprio]
      exact hat.idle_ready hne
  unfold Native.ipcListSuspend
  dsimp only
  split
  · rename_i hfifo
    have hq := (append_nil (q (.wait o))).symm
    exact .inr ⟨_, _, rfl, rfl, hlink _ _ hq, .inr ⟨.inl hfifo, _, _, hq, rfl⟩⟩
  · split
    · rename_i hprio
      rw [hlists.next_head (l := .wait o) trivial]
      rcases ipcListPosition_spec hlists c fuel [] (q (.wait o)) (nil_append _).symm with
        ⟨hnone, hfuel⟩ | ⟨as, bs, hq, hpos, -, -⟩
      · left
        rw [hnone]
        exact ⟨rfl, hfuel⟩
      · right
        rw [hpos]
        exact ⟨_, _, rfl, rfl, hlink _ _ hq, .inr ⟨.inr hprio, _, _, hq, rfl⟩⟩
    · rename_i hfifo hprio
      refine .inr ⟨_, q, rfl, rfl, hsusp, .inl ⟨rfl, ?_⟩⟩
      rintro (h | h)
      · exact hfifo h
      · exact hprio h

end SchedInv

/-! ## The time slice -/

theorem sliceExpired_thread (s : Sched) (c u : Tid) :
    (sliceExpired s c).thread u =
      if u = c then
        { s.thread c with
          remainTick := (s.thread c).initTick, stat := (s.thread c).stat ||| threadYield }
      else s.thread u :=
  setThread_thread s c u _

theorem AtSchedule.countDown (h : AtSchedule idle created s q c) (n : Nat) :
    AtSchedule idle created (s.setThread c { s.thread c with remainTick := n }) q c := by
  have hthread : ∀ u, (s.setThread c { s.thread c with remainTick := n }).thread u =
      if u = c then { s.thread c with remainTick := n } else s.thread u := fun u =>
    setThread_thread s c u _
  have hpri : ((s.setThread c { s.thread c with remainTick := n }).thread idle).currentPri =
      (s.thread idle).currentPri := by
    rw [hthread idle]
    split <;> simp_all
  have hstat : ((s.setThread c { s.thread c with remainTick := n }).thread c).stat =
      (s.thread c).stat := by
    rw [hthread c, if_pos rfl]
  refine ⟨h.queues.setThread rfl rfl, h.current, h.current_created, h.off_ready, ?_, ?_,
    ?_, h.idle_created⟩
  · intro hre
    unfold Requeued at hre
    rw [hstat] at hre
    exact h.free hre
  · rw [hstat]
    exact h.idle_stat
  · rw [hpri]
    exact h.idle_ready

namespace SchedInv

theorem sliceExpired (h : SchedInv idle created s q) (hc : s.currentThread = some c) :
    AtSchedule idle created (Native.sliceExpired s c) q c := by
  have hat := h.atSchedule hc
  have hthread := sliceExpired_thread s c
  have hpri : ((Native.sliceExpired s c).thread idle).currentPri = (s.thread idle).currentPri := by
    rw [hthread idle]
    split <;> simp_all
  refine ⟨hat.queues.setThread rfl rfl, hc, hat.current_created, hat.off_ready,
    fun _ => h.current_free c hc, ?_, ?_, hat.idle_created⟩
  · intro hci
    right
    rw [hthread c, if_pos rfl]
    cases hat.idle_stat hci with
    | inl hst => rw [hst]
    | inr hst => rw [hst]; rfl
  · rw [hpri]
    exact hat.idle_ready

/-- The time-slice part of `sk_tick_increase`. -/
theorem tickSlice (h : SchedInv idle created s q) (hc : s.currentThread = some c) :
    ∃ s' q', Native.tickSlice s = some s' ∧ SchedInv idle created s' q' ∧
      s'.currentThread ≠ none := by
  rw [tickSlice_of_current hc]
  split
  · obtain ⟨s', q', d, hrun, hinv, hres⟩ := (h.sliceExpired hc).schedule
    refine ⟨s', q', hrun, hinv, ?_⟩
    rw [hres.current]
    exact Option.some_ne_none d
  · refine ⟨_, q, rfl, ?_, by rw [setThread_currentThread, hc]; exact Option.some_ne_none c⟩
    have hat := (h.atSchedule hc).countDown (remainTickDec (s.thread c))
    refine h.of_stat hat.queues rfl ?_ ?_
    · intro u
      rw [setThread_thread]
      split <;> simp_all
    · intro e he
      rw [hc] at he
      cases he
      rw [setThread_thread, if_pos rfl]
      exact h.current_stat c hc

end SchedInv

/-! ## Creating threads and starting the scheduler -/

@[simp] theorem skThreadCreate_currentThread (k : Kernel) (t : Tid) (priority tick : Nat) :
    (skThreadCreate k t priority tick).sched.currentThread = k.sched.currentThread := by
  unfold skThreadCreate
  dsimp only
  rw [skScheduleInsertThread_currentThread, setThread_currentThread]

theorem skThreadCreate_thread (hcur : k.sched.currentThread ≠ some t) (priority tick : Nat)
    (u : Tid) :
    (skThreadCreate k t priority tick).sched.thread u =
      if u = t then
        { stat := threadReady
          currentPri := priority
          numberMask := (1 : BitVec 32) <<< priority
          initTick := tick
          remainTick := tick }
      else k.sched.thread u := by
  unfold skThreadCreate
  dsimp only
  rw [skScheduleInsertThread_thread, setThread_currentThread, if_neg hcur, setThread_thread,
    setThread_thread, if_pos rfl]
  split <;> rfl

theorem Queues.create (h : Queues created k.sched q) (hcur : k.sched.currentThread ≠ some t)
    (ht : t ∉ created) (hp : priority < threadPriorityMax) (tick : Nat) :
    Queues (t :: created) (skThreadCreate k t priority tick).sched
      (update q (.prio priority) (q (.prio priority) ++ [t])) := by
  have hfree : ∀ l, t ∉ q l := fun l hin => ht (h.lists.mem_created hin)
  have hne : ∀ u ∈ created, u ≠ t := by
    intro u hu heq
    exact ht (heq ▸ hu)
  -- the thread record is set up, but not linked yet
  have hmid : Queues (t :: created)
      (({ k.sched with links := skListInit k.sched.links (.tlist t) } : Sched).setThread t
        { stat := threadInit, currentPri := priority,
          numberMask := (1 : BitVec 32) <<< priority, initTick := tick, remainTick := tick })
      q := by
    refine ⟨h.lists.create ht, h.bit, ?_, ?_, ?_⟩
    · intro u hu
      rw [setThread_thread]
      split
      · exact hp
      · rename_i hut
        exact h.pri u ((mem_cons.mp hu).resolve_left hut)
    · intro u hu
      rw [setThread_thread]
      split
      · rfl
      · rename_i hut
        exact h.mask u ((mem_cons.mp hu).resolve_left hut)
    · intro p u hu
      rw [setThread_thread, if_neg (hne u (h.lists.mem_created hu))]
      exact h.queued p u hu
  have hins := hmid.insert mem_cons_self hfree hcur
  rw [setThread_thread, if_pos rfl] at hins
  exact hins

/-- `sk_system_scheduler_start` takes a ready thread off its queue. -/
theorem Queues.start (h : Queues created s q) (hg : s.readyPrioGroup ≠ 0) :
    ∃ d p s', d ∈ q (.prio p) ∧ skSystemSchedulerStart s = some s' ∧
      s'.currentThread = some d ∧
      (∀ u, s'.thread u =
        if u = d then { s.thread d with stat := threadRunning } else s.thread u) ∧
      Queues created s' (fun l => (q l).erase d) := by
  obtain ⟨d, p, ts, hhp, hq, -⟩ := h.scheduleGetHpThread hg
  have hd : d ∈ q (.prio p) := by
    rw [hq]
    exact mem_cons_self
  have h1 : Queues created { s with currentThread := some d } q :=
    h.of_eq rfl rfl (fun _ => rfl) (fun _ => rfl)
  refine ⟨d, p, _, hd, by rw [skSystemSchedulerStart, hhp], ?_, ?_,
    (h1.remove (h.lists.mem_created hd)).setStat d _⟩
  · rw [setStat_currentThread, skScheduleRemoveThread_currentThread]
  · intro u
    rw [setStat_thread, skScheduleRemoveThread_thread]

namespace SchedInv

theorem create (h : SchedInv idle created k.sched q) (ht : t ∉ created)
    (hp : priority < threadPriorityMax) (tick : Nat) :
    SchedInv idle (t :: created) (skThreadCreate k t priority tick).sched
      (update q (.prio priority) (q (.prio priority) ++ [t])) := by
  have hcur : k.sched.currentThread ≠ some t := fun hc => ht (h.current_created t hc)
  have hthread := skThreadCreate_thread hcur priority tick
  have hcur' := skThreadCreate_currentThread k t priority tick
  have hct : ∀ c, k.sched.currentThread = some c → c ≠ t := by
    intro c hc heq
    exact hcur (heq ▸ hc)
  refine ⟨h.queues.create hcur ht hp tick, ?_, ?_, ?_, ?_, ?_⟩
  · intro c hc
    rw [hcur'] at hc
    exact mem_cons_of_mem t (h.current_created c hc)
  · intro c hc l hin
    rw [hcur'] at hc
    cases mem_update_snoc.mp hin with
    | inl hin => exact h.current_free c hc l hin
    | inr hin => exact hct c hc hin.1
  · intro c hc
    rw [hcur'] at hc
    rw [hthread c, if_neg (hct c hc)]
    exact h.current_stat c hc
  · rw [hcur']
    intro hc
    exact mem_cons_of_mem t (h.idle_created hc)
  · intro hid
    rw [hcur', mem_update_snoc]
    by_cases hti : idle = t
    · rw [hthread idle, if_pos hti]
      exact .inr (.inr ⟨hti, rfl⟩)
    · rw [hthread idle, if_neg hti]
      exact (h.idle_ready ((mem_cons.mp hid).resolve_left hti)).imp_right .inl

theorem start (h : SchedInv idle created s q) (hid : idle ∈ created)
    (hc : s.currentThread = none) :
    ∃ s' q', skSystemSchedulerStart s = some s' ∧ SchedInv idle created s' q' ∧
      (∀ o, q' (.wait o) = q (.wait o)) ∧
      ∀ u, (∀ p, u ∉ q (.prio p)) → s'.thread u = s.thread u := by
  -- the idle thread is ready, so there is a thread to start
  have hin : idle ∈ q (.prio (s.thread idle).currentPri) := by
    cases h.idle_ready hid with
    | inl hcid =>
      rw [hc] at hcid
      cases hcid
    | inr hin => exact hin
  have hg : s.readyPrioGroup ≠ 0 := by
    intro hg
    rw [h.queues.prio_eq_nil hg] at hin
    cases hin
  obtain ⟨d, p, s', hd, hstart, hcur, hthread, hqueues⟩ := h.queues.start hg
  have hdc := h.queues.lists.mem_created hd
  refine ⟨_, fun l => (q l).erase d, hstart, ⟨hqueues, ?_, ?_, ?_, fun _ => hid, ?_⟩, ?_, ?_⟩
  · intro c hc'
    rw [hcur] at hc'
    cases hc'
    exact hdc
  · intro c hc' l hin
    rw [hcur] at hc'
    cases hc'
    exact (h.queues.lists.nodup l).not_mem_erase hin
  · intro c hc'
    rw [hcur] at hc'
    cases hc'
    rw [hthread d, if_pos rfl]
    exact .inl (.inl rfl)
  · intro _
    by_cases hdi : d = idle
    · rw [← hdi]
      exact .inl hcur
    · right
      rw [hthread idle, if_neg (Ne.symm hdi)]
      exact (mem_erase_of_ne (Ne.symm hdi)).mpr hin
  · intro o
    exact erase_of_not_mem (h.queues.lists.notMem_of_ne hd (by simp))
  · intro u hu
    rw [hthread, if_neg]
    rintro rfl
    exact hu p hd

end SchedInv

end SKernel.Spec
