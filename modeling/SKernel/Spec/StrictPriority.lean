import SKernel.ForStd.Simulation
import SKernel.Spec.BlockingCorrect

/-!
# Strict priority

`sk_schedule` is called by threads, for every thread whose timer has run out, and at the end of a
time slice. It is meant to leave no ready thread with a higher priority than the current one.

This is lost in one way, along the runs in which no tick ends the time slice of a suspended thread.
A thread whose time slice is over calls `sk_schedule` with the yield flag in its `stat`; the
comparison of priorities is then skipped, and a ready thread of lower priority is switched to
(`YieldsToLower`).

## Key results

- `AtSchedule.strictPriority`: one call of `sk_schedule`
- `BlockInv.atSchedule`: every call of a run is made in order
- `strict_priority_iff`: when `sk_schedule` respects the priorities
-/

namespace SKernel.Spec

open Native List

variable {idle : Tid} {created : List Tid} {k : Kernel} {x : BlockSys}

/-! ## The calls of `sk_schedule` -/

/-- The states in which the time slice of a tick calls `sk_schedule`. -/
def sliceCalls (s : Sched) : List Sched :=
  match s.currentThread with
  | none => []
  | some c => if remainTickDec (s.thread c) = 0 then [sliceExpired s c] else []

/-- The states in which a tick calls `sk_schedule`: at the end of the time slice, and for each timer
    that has run out. -/
def tickCalls (fuel : Nat) (k : Kernel) : List Sched :=
  match tickIncrease
      (fun r => (r.1.bind tickSlice, r.2 ++ (r.1.map sliceCalls).getD []))
      (fun t r => (r.1.bind (skThreadTimeout · t), r.2 ++ (r.1.map (threadWake · t)).toList))
      fuel k.timers (some k.sched, []) with
  | some (_, _, calls) => calls
  | none => []

private theorem sliceCalls_expired {s : Sched} {c : Tid} (hc : s.currentThread = some c)
    (hdec : remainTickDec (s.thread c) = 0) : sliceCalls s = [sliceExpired s c] := by
  unfold sliceCalls
  rw [hc]
  simp only [hdec, ↓reduceIte]

private theorem tickCalls_of_no_timers (h : k.timers.links.next .head = .head) {fuel : Nat} :
    tickCalls (fuel + 1) k = sliceCalls k.sched := by
  unfold tickCalls tickIncrease skTimerCheck
  rw [h]
  simp [timerCheckLoop]

/-- `sk_schedule` is called in the state `s`: by the current thread, by `sk_thread_timeout`, or in a
    tick, which does not end the time slice of a suspended thread. -/
inductive ScheduleCall (x : BlockSys) : Sched → Prop where
  | thread : ScheduleCall x x.k.sched
  | timeout {t : Tid} (ht : t ∈ x.created) : ScheduleCall x (threadWake x.k.sched t)
  | tick {s : Sched} (fuel : Nat) (hguard : NoYieldInWindow x.k.sched)
      (hs : s ∈ tickCalls fuel x.k) : ScheduleCall x s

/-! ## One call -/

/-- No thread on a ready queue has a strictly higher priority than the current thread. -/
def StrictPriority (created : List Tid) (s : Sched) : Prop :=
  ∃ q, Queues created s q ∧ ∀ c, s.currentThread = some c → ∀ p, ∀ t ∈ q (.prio p),
    (s.thread c).currentPri ≤ (s.thread t).currentPri

/-- The current thread is requeued without being in the running state, and only lower priorities are
    ready. -/
def YieldsToLower (s : Sched) : Prop :=
  ∃ c d p, s.currentThread = some c ∧ scheduleGetHpThread s = some (d, p) ∧
    (s.thread c).stat ≠ threadRunning ∧ Requeued s c ∧ (s.thread c).currentPri < p

section StrictPriority

variable {s : Sched} {q : ListHead → List Tid} {c : Tid}

private theorem strictPriority_iff (h : Queues created s q) (hc : s.currentThread = some c) :
    StrictPriority created s ↔
      ∀ p, ∀ t ∈ q (.prio p), (s.thread c).currentPri ≤ p := by
  constructor
  · rintro ⟨q', hq', hle⟩ p t ht
    rw [← h.queued p t ht]
    rw [h.lists.unique hq'.lists] at ht
    exact hle c hc p t ht
  · intro hle
    refine ⟨q, h, ?_⟩
    intro c' hc' p t ht
    rw [hc] at hc'
    cases hc'
    rw [h.queued p t ht]
    exact hle p t ht

theorem AtSchedule.strictPriority (h : AtSchedule idle created s q c) :
    ∃ s', skSchedule s = some s' ∧ (StrictPriority created s' ↔ ¬ YieldsToLower s) := by
  rcases h.queues.skSchedule h.current h.off_ready with
    ⟨hrun, hnone⟩ | ⟨hrun, hstat, hle⟩ | ⟨d, p, ts, hrun, hcd, hq, hlow, hstay⟩
  · refine ⟨s, hrun, ?_⟩
    rw [strictPriority_iff h.queues h.current]
    constructor
    · -- no thread is ready, so none can be selected
      rintro - ⟨c', d, p, -, hhp, -⟩
      by_cases hg : s.readyPrioGroup = 0
      · unfold scheduleGetHpThread at hhp
        rw [hg] at hhp
        cases hhp
      · obtain ⟨d', p', ts, -, hq, -⟩ := h.queues.scheduleGetHpThread hg
        rw [hnone] at hq
        cases hq
    · intro _ p t ht
      rw [hnone] at ht
      cases ht
  · refine ⟨s, hrun, ?_⟩
    rw [strictPriority_iff h.queues h.current]
    constructor
    · rintro - ⟨c', d, p, hc', -, hstat', -⟩
      rw [h.current] at hc'
      cases hc'
      exact hstat' hstat
    · intro _
      exact hle
  · have hd : d ∈ q (.prio p) := by
      rw [hq]
      exact mem_cons_self
    have hg : s.readyPrioGroup ≠ 0 := by
      intro hg
      rw [h.queues.prio_eq_nil hg] at hd
      cases hd
    have hhp : scheduleGetHpThread s = some (d, p) := by
      obtain ⟨d', p', ts', hhp, hq', hlow'⟩ := h.queues.scheduleGetHpThread hg
      have hpp : p' = p := by
        by_contra hne
        rcases Nat.lt_or_gt_of_ne hne with hlt | hgt
        · rw [hlow p' hlt] at hq'
          cases hq'
        · rw [hlow' p hgt] at hq
          cases hq
      subst hpp
      rw [hq] at hq'
      cases hq'
      exact hhp
    -- after the switch the current thread has priority `p`
    have hpri : ((scheduleSwitch s c d).thread d).currentPri = p := by
      rw [scheduleSwitch_thread s hcd, if_pos rfl]
      exact h.queues.queued p d hd
    refine ⟨_, hrun, ?_⟩
    rw [strictPriority_iff (h.queues.switch h.current_created hd hcd h.free)
      (scheduleSwitch_currentThread s c d), hpri]
    constructor
    · rintro hle ⟨c', d', p', hc', hhp', -, hre, hlt⟩
      rw [h.current] at hc'
      cases hc'
      rw [hhp] at hhp'
      cases hhp'
      have hmem : c ∈ switchedQueues s c d q (.prio (s.thread c).currentPri) :=
        (h.queues.mem_switchedQueues_prio h.off_ready).mpr ⟨hcd, .inr ⟨rfl, hre, rfl⟩⟩
      have hge := hle _ c hmem
      omega
    · intro hny p' t ht
      rcases ((h.queues.mem_switchedQueues_prio h.off_ready).mp ht).2 with hin | ⟨-, hre, hp'⟩
      · by_contra hlt
        rw [hlow p' (by omega)] at hin
        cases hin
      · -- the thread switched away from: running and preempted, or yielding
        rw [hp']
        by_contra hlt
        by_cases hrunning : (s.thread c).stat = threadRunning
        · exact hstay ⟨hrunning, by omega⟩
        · exact hny ⟨c, d, p, h.current, hhp, hrunning, hre, by omega⟩

end StrictPriority

/-! ## Every call of a run -/

/-- The calls of `sk_schedule` in a tick are made in order. -/
theorem BlockInv.atSchedule_tick (h : BlockInv idle x) (hguard : NoYieldInWindow x.k.sched)
    {fuel : Nat} {s : Sched} (hs : s ∈ tickCalls fuel x.k) :
    ∃ q c, AtSchedule idle x.created s q c := by
  obtain ⟨q, c, hcore, htm⟩ := h
  obtain ⟨s1, q1, d1, hslice, hcore1⟩ := hcore.tickSlice hguard
  -- the property that the callbacks keep: the state and the calls so far
  let P : Option Sched × List Sched → Prop := fun r =>
    (∃ s q blocked d, r.1 = some s ∧ BlockCore idle x.created x.window s q blocked d) ∧
      ∀ s ∈ r.2, ∃ q c, AtSchedule idle x.created s q c
  have hP : ∀ t ∈ x.created, ∀ r, P r →
      P (r.1.bind (skThreadTimeout · t), r.2 ++ (r.1.map (threadWake · t)).toList) := by
    rintro t ht ⟨r, calls⟩ ⟨⟨s, q, blocked, d, hr, hcore⟩, hcalls⟩
    dsimp only at hr
    subst hr
    obtain ⟨s', q', d', hrun, hcore'⟩ := hcore.timeout ht
    refine ⟨⟨s', q', _, d', hrun, hcore'⟩, ?_⟩
    exact forall_mem_snoc hcalls ⟨_, d, hcore.atSchedule.wake ht⟩
  have hP1 : P ((some x.k.sched).bind tickSlice,
      [] ++ ((some x.k.sched).map sliceCalls).getD []) := by
    refine ⟨⟨s1, q1, _, d1, hslice, hcore1⟩, ?_⟩
    intro u hu
    change u ∈ sliceCalls x.k.sched at hu
    unfold sliceCalls at hu
    rw [hcore.atSchedule.current] at hu
    dsimp only at hu
    split at hu
    · rename_i hdec
      rw [mem_singleton.mp hu]
      exact ⟨q, c, hcore.sliceExpired hguard hdec⟩
    · cases hu
  obtain ⟨-, hres⟩ := htm.check
    (fun t r => (r.1.bind (skThreadTimeout · t), r.2 ++ (r.1.map (threadWake · t)).toList))
    (x.k.timers.tickAfter 1) (fun t ht _ => hP t ht) hP1
  unfold tickCalls tickIncrease at hs
  split at hs
  · rename_i hrun
    exact (hres _ _ _ hrun).2.2 s hs
  · cases hs

theorem BlockInv.atSchedule (h : BlockInv idle x) {s : Sched} (hs : ScheduleCall x s) :
    ∃ q c, AtSchedule idle x.created s q c := by
  cases hs with
  | thread =>
    obtain ⟨q, c, hcore, -⟩ := h
    exact ⟨q, c, hcore.atSchedule⟩
  | timeout ht =>
    obtain ⟨q, c, hcore, -⟩ := h
    exact ⟨_, c, hcore.atSchedule.wake ht⟩
  | tick fuel hguard hs => exact h.atSchedule_tick hguard hs

/-- **Strict priority.** Along every run in which the timer interrupt comes at any point, but
    never ends the time slice of a current thread that is suspended, and for every call of
    `sk_schedule` made in it (by a thread, for a timer that has run out or at the end of a time
    slice): after the call no ready thread has a higher priority than the current thread, if and
    only if the current thread did not yield to a lower priority. -/
theorem strict_priority_iff (h : BlockReach idle NoYieldInWindow x) {s : Sched}
    (hs : ScheduleCall x s) :
    ∃ s', skSchedule s = some s' ∧ (StrictPriority x.created s' ↔ ¬ YieldsToLower s) := by
  obtain ⟨q, c, hat⟩ := h.inv.atSchedule hs
  exact hat.strictPriority

/-- Thread 1 blocks, the timer interrupts it without ending its time slice, and it calls
    `sk_schedule`: the idle thread runs, and no thread of higher priority is ready. -/
theorem strict_priority_iff_window :
    ∃ x s', BlockReach 0 NoYieldInWindow x ∧ x.blocked 1 = some (.linked 0) ∧
      skSchedule x.k.sched = some s' ∧ s'.currentThread = some 0 ∧ StrictPriority [1, 0] s' := by
  have hdec : remainTickDec ((windowSys 2).k.sched.thread 1) ≠ 0 := by decide +kernel
  have hguard : NoYieldInWindow (windowSys 2).k.sched := by
    intro c hc _
    cases hc
    exact hdec
  have hwindow := reach_windowSys NoYieldInWindow
    (show (startedKernel 2).sched.currentThread = some 1 from rfl) rfl
  have htick := loggedTick_of_no_timers (k := (windowSys 2).k) rfl (n := 0)
  rw [tickSlice_of_current (c := 1) rfl, if_neg hdec] at htick
  have hx := hwindow.step (.tick 1 hguard htick)
  obtain ⟨s', hrun, hiff⟩ := strict_priority_iff hx .thread
  refine ⟨_, s', hx, rfl, hrun, ?_, hiff.mpr ?_⟩
  · cases hrun
    rfl
  · -- thread 1 is suspended, so it is not put back on a ready queue
    rintro ⟨c, d, p, hc, -, -, hre, -⟩
    cases hc
    exact hre.1 rfl

/-- At the end of its time slice thread 1, of priority 5, is switched away from although only
    the idle thread is ready: thread 1 is then on a ready queue while the idle thread runs. -/
theorem strict_priority_fails :
    ∃ x s s', BlockReach 0 NoYieldInWindow x ∧ ScheduleCall x s ∧ skSchedule s = some s' ∧
      s'.currentThread = some 0 ∧ ¬ StrictPriority x.created s' := by
  have hdec : remainTickDec ((startedKernel 1).sched.thread 1) = 0 := by decide +kernel
  have hcalls : sliceExpired (startedKernel 1).sched 1 ∈ tickCalls 5 (startedKernel 1) := by
    rw [tickCalls_of_no_timers rfl, sliceCalls_expired rfl hdec]
    exact mem_cons_self
  have hguard : NoYieldInWindow (startedKernel 1).sched := by
    intro c hc hstat
    cases hc
    exact absurd hstat (by decide +kernel)
  refine ⟨_, sliceExpired (startedKernel 1).sched 1,
    scheduleSwitch (sliceExpired (startedKernel 1).sched 1) 1 0, reach_startedSys _ rfl,
    .tick 5 hguard hcalls, rfl, rfl, ?_⟩
  rintro ⟨q, hq, hle⟩
  -- thread 1 is ready again, and the idle thread is current
  have hready : 1 ∈ q (.prio 5) := hq.lists.mem_of_next_head (show 5 < 32 by decide) rfl
  exact absurd (hle 0 rfl 5 1 hready) (by decide)

end SKernel.Spec
