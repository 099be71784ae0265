import SKernel.ForStd.Simulation
import SKernel.Spec.WaitOrder

/-!
# Thread states and ready queues

Runs of completed thread calls, with or without an idle thread. A thread other than the current
one is meant to be linked on a ready queue exactly when its `stat` is `SK_THREAD_READY`;
`sk_thread_suspend` and `sk_thread_resume` look at `stat` only.

`sk_thread_create` links a new thread on a ready queue. `sk_thread_startup` then marks it as
suspended but leaves it there, unless the `sk_schedule` that follows switches to it at once.
-/

namespace SKernel.Spec

open Native Function List Option

/-! ## The system -/

/-- The kernel and the threads created so far. -/
structure ThreadSys where
  k : Kernel
  created : List Tid

/-- The calls. -/
inductive ThreadOp where
  | create (t : Tid) (priority slice : Nat)
  | startup (t : Tid)
  | suspend (t : Tid)
  | resume (t : Tid)
  | sleep (ticks : Nat)
  | timeout (t : Tid)
  | schedule
  /-- `sk_system_scheduler_start` -/
  | start

/-- Thread `t` is the first of the highest ready priority, and the current thread does not run
    on. -/
def SwitchesTo (s : Sched) (t : Tid) : Prop :=
  match s.currentThread, scheduleGetHpThread s with
  | some c, some (hp, p) =>
    hp = t ∧ ¬((s.thread c).stat = threadRunning ∧ (s.thread c).currentPri ≤ p)
  | _, _ => False

instance (s : Sched) (t : Tid) : Decidable (SwitchesTo s t) := by
  unfold SwitchesTo
  split <;> infer_instance

namespace ThreadSys

/-- Thread arguments are created threads, and new threads have a priority below
    `SK_THREAD_PRIORITY_MAX`. -/
def step (x : ThreadSys) : ThreadOp → Option ThreadSys
  | .create t priority slice =>
    if t ∉ x.created ∧ priority < threadPriorityMax then
      some { k := skThreadCreate x.k t priority slice, created := t :: x.created }
    else none
  | .startup t => if t ∈ x.created then (skThreadStartup x.k t).map ({ x with k := · }) else none
  | .suspend t => if t ∈ x.created then some { x with k := (skThreadSuspend x.k t).2 } else none
  | .resume t => if t ∈ x.created then some { x with k := (skThreadResume x.k t).2 } else none
  | .sleep ticks => (skThreadSleep x.k ticks).map ({ x with k := · })
  | .timeout t =>
    if t ∈ x.created then
      (skThreadTimeout x.k.sched t).map fun s => { x with k := { x.k with sched := s } }
    else none
  | .schedule => (thenSchedule x.k).map ({ x with k := · })
  | .start =>
    if x.k.sched.currentThread = none then
      (skSystemSchedulerStart x.k.sched).map fun s => { x with k := { x.k with sched := s } }
    else none

/-- `sk_thread_startup` is called on unlinked threads, or on one that `sk_schedule` switches to at
    once. -/
def SoundStartup (x : ThreadSys) : ThreadOp → Prop
  | .startup t =>
    x.k.sched.links.next (.tlist t) = .tlist t ∨ SwitchesTo x.k.sched t
  | _ => True

instance (x : ThreadSys) (op : ThreadOp) : Decidable (x.SoundStartup op) :=
  match op with
  | .startup t => inferInstanceAs (Decidable (_ = _ ∨ SwitchesTo x.k.sched t))
  | .create .. | .suspend _ | .resume _ | .sleep _ | .timeout _ | .schedule | .start =>
    isTrue trivial

/-- The threads other than the current one are on a ready queue exactly when they are ready, and can
    then be suspended. -/
def StatAgrees (x : ThreadSys) : Prop :=
  ∃ q, ThreadLists x.k.sched.links x.created q ∧
    (∀ t ∈ x.created, x.k.sched.currentThread ≠ some t →
      ((∃ p, t ∈ q (.prio p)) ↔ (x.k.sched.thread t).stat = threadReady)) ∧
    ∀ t p, t ∈ q (.prio p) → (skThreadSuspend x.k t).1 = .eok

end ThreadSys

/-- At first no thread has been created. -/
def threadSystem : TransitionSystem ThreadSys ThreadOp where
  init x := Booted x.k ∧ x.created = []
  step := ThreadSys.step

/-! ## The invariant -/

private theorem threadSuspend_ne_ready : threadSuspend ≠ threadReady := by decide

/-- The queues and the states agree, and the wait lists are empty. -/
structure Agrees (created : List Tid) (s : Sched) (q : ListHead → List Tid) : Prop where
  queues : Queues created s q
  current_created : ∀ c, s.currentThread = some c → c ∈ created
  off_ready : ∀ c, s.currentThread = some c → ∀ p, c ∉ q (.prio p)
  no_wait : ∀ o, q (.wait o) = []
  agree : ∀ t ∈ created, s.currentThread ≠ some t →
    ((∃ p, t ∈ q (.prio p)) ↔ (s.thread t).stat = threadReady)

variable {created : List Tid} {s : Sched} {k : Kernel} {q : ListHead → List Tid} {c d t : Tid}

namespace Agrees

theorem current_free (h : Agrees created s q) (hc : s.currentThread = some c) (l : ListHead) :
    c ∉ q l := by
  cases l with
  | prio p => exact h.off_ready c hc p
  | wait o =>
    rw [h.no_wait o]
    exact not_mem_nil

theorem waitInv (h : Agrees created s q) : WaitInv created s q := by
  refine ⟨h.queues, h.current_created, h.off_ready, ?_⟩
  intro o t ht
  rw [h.no_wait o] at ht
  cases ht

theorem switched (hq : Queues created s q) (hcc : c ∈ created) (hfree : ∀ l, c ∉ q l)
    (hwait : ∀ o, q (.wait o) = []) {p : Nat} (hd : d ∈ q (.prio p)) (hcd : c ≠ d)
    (hagree : ∀ t ∈ created, t ≠ c → t ≠ d →
      ((∃ p, t ∈ q (.prio p)) ↔ (s.thread t).stat = threadReady)) :
    Agrees created (scheduleSwitch s c d) (switchedQueues s c d q) := by
  have hcur := scheduleSwitch_currentThread s c d
  have hoff : ∀ p, c ∉ q (.prio p) := fun p => hfree _
  refine ⟨hq.switch hcc hd hcd fun _ => hfree, ?_, ?_, ?_, ?_⟩
  · intro e he
    cases hcur.symm.trans he
    exact hq.lists.mem_created hd
  · intro e he p'
    cases hcur.symm.trans he
    exact hq.notMem_switchedQueues hd hoff _
  · intro o
    rw [hq.switchedQueues_wait hd, hwait o]
  · intro t ht hne
    have htd : t ≠ d := by
      intro heq
      exact hne (by rw [heq]; exact hcur)
    simp only [hq.mem_switchedQueues_prio hoff]
    rw [scheduleSwitch_thread s hcd, if_neg htd]
    by_cases htc : t = c
    · -- the thread that is switched away from is queued, unless it is suspended
      subst htc
      by_cases hre : Requeued s t
      · rw [if_pos ⟨rfl, hre⟩]
        exact ⟨fun _ => rfl, fun _ => ⟨_, htd, .inr ⟨rfl, hre, rfl⟩⟩⟩
      · rw [if_neg fun h => hre h.2]
        constructor
        · rintro ⟨p', -, hin | hin⟩
          · exact absurd hin (hoff p')
          · exact absurd hin.2.1 hre
        · intro hready
          refine absurd ?_ hre
          unfold Requeued
          rw [hready]
          decide
    · rw [if_neg fun h => htc h.1, ← hagree t ht htc htd]
      simp [htd, htc]

section

variable (h : Agrees created s q)
include h

/-- `sk_schedule` keeps the agreement. -/
theorem schedule (hc : s.currentThread = some c) :
    ∃ s' q', skSchedule s = some s' ∧ Agrees created s' q' := by
  rcases h.queues.skSchedule hc (h.off_ready c hc) with
    ⟨hrun, -⟩ | ⟨hrun, -, -⟩ | ⟨d, p, ts, hrun, hcd, hq, -, -⟩
  · exact ⟨s, q, hrun, h⟩
  · exact ⟨s, q, hrun, h⟩
  · have hd : d ∈ q (.prio p) := by
      rw [hq]
      exact mem_cons_self
    refine ⟨_, _, hrun, switched h.queues (h.current_created c hc) (h.current_free hc) h.no_wait
      hd hcd ?_⟩
    intro t ht htc _
    refine h.agree t ht ?_
    rw [hc]
    exact fun heq => htc (some.inj heq).symm

private theorem schedule_of_some {s' : Sched} (hs : skSchedule s = some s') :
    ∃ q', Agrees created s' q' := by
  cases hc : s.currentThread with
  | some c =>
    obtain ⟨s1, q1, hs1, h1⟩ := h.schedule hc
    cases hs1.symm.trans hs
    exact ⟨q1, h1⟩
  | none =>
    rw [skSchedule_of_none hc hs]
    exact ⟨q, h⟩

/-- Taking a thread off its list and making it ready. -/
theorem wake (ht : t ∈ created) : Agrees created (threadWake s t) (wokenQueues s t q) := by
  obtain ⟨hqueues, hcreated, hoff, -⟩ := h.waitInv.wake ht
  refine ⟨hqueues, hcreated, hoff, ?_, ?_⟩
  · intro o
    rw [wokenQueues_wait, h.no_wait o]
    rfl
  · intro u hu hne
    rw [threadWake_currentThread] at hne
    simp only [h.queues.mem_wokenQueues_prio]
    rw [threadWake_thread]
    by_cases hut : u = t
    · subst hut
      rw [if_pos rfl, if_neg hne]
      exact ⟨fun _ => rfl, fun _ => ⟨_, .inr ⟨rfl, hne, rfl⟩⟩⟩
    · rw [if_neg hut, ← h.agree u hu hne]
      simp [hut]

private theorem setSuspend (hfree : ∀ p, t ∉ q (.prio p)) :
    Agrees created (s.setStat t threadSuspend) q := by
  refine ⟨h.queues.setStat t _, h.current_created, h.off_ready, h.no_wait, ?_⟩
  intro u hu hne
  rw [setStat_thread]
  by_cases hut : u = t
  · subst hut
    rw [if_pos rfl]
    exact ⟨fun ⟨p, hin⟩ => absurd hin (hfree p), fun heq => absurd heq threadSuspend_ne_ready⟩
  · rw [if_neg hut]
    exact h.agree u hu hne

theorem remove (ht : t ∈ created) :
    Agrees created ((skScheduleRemoveThread s t).setStat t threadSuspend)
      (fun l => (q l).erase t) := by
  obtain ⟨hqueues, hcreated, hoff, -⟩ := h.waitInv.remove ht threadSuspend
  refine ⟨hqueues, hcreated, hoff, ?_, ?_⟩
  · intro o
    show (q (.wait o)).erase t = []
    rw [h.no_wait o]
    rfl
  · intro u hu hne
    rw [setStat_currentThread, skScheduleRemoveThread_currentThread] at hne
    rw [setStat_thread]
    by_cases hut : u = t
    · subst hut
      rw [if_pos rfl]
      refine ⟨fun ⟨p, hin⟩ => absurd hin (h.queues.lists.nodup _).not_mem_erase, ?_⟩
      exact fun heq => absurd heq threadSuspend_ne_ready
    · rw [if_neg hut, skScheduleRemoveThread_thread, ← h.agree u hu hne]
      simp [mem_erase_of_ne hut]

end

theorem suspend (h : Agrees created k.sched q) (ht : t ∈ created) :
    ∃ q', Agrees created (skThreadSuspend k t).2.sched q' := by
  unfold skThreadSuspend
  dsimp only
  split
  · exact ⟨q, h⟩
  · exact ⟨_, h.remove ht⟩

theorem create (h : Agrees created k.sched q) (ht : t ∉ created) {priority : Nat}
    (hp : priority < threadPriorityMax) (slice : Nat) :
    Agrees (t :: created) (skThreadCreate k t priority slice).sched
      (update q (.prio priority) (q (.prio priority) ++ [t])) := by
  have hcur : k.sched.currentThread ≠ some t := fun hc => ht (h.current_created t hc)
  obtain ⟨hqueues, hcreated, hoff, -⟩ := h.waitInv.create ht hp slice
  refine ⟨hqueues, hcreated, hoff, ?_, ?_⟩
  · intro o
    rw [update_of_ne (by simp), h.no_wait o]
  · intro u hu hne
    rw [skThreadCreate_currentThread] at hne
    simp only [mem_update_snoc]
    rw [skThreadCreate_thread hcur]
    by_cases hut : u = t
    · subst hut
      rw [if_pos rfl]
      exact ⟨fun _ => rfl, fun _ => ⟨priority, .inr ⟨rfl, rfl⟩⟩⟩
    · rw [if_neg hut, ← h.agree u ((mem_cons.mp hu).resolve_left hut) hne]
      simp [hut]

theorem start (h : Agrees created s q) (hc : s.currentThread = none) {s' : Sched}
    (hs : skSystemSchedulerStart s = some s') : ∃ q', Agrees created s' q' := by
  by_cases hg : s.readyPrioGroup = 0
  · -- no thread is ready
    have hnone : scheduleGetHpThread s = none := by
      unfold scheduleGetHpThread
      rw [hg]
      rfl
    unfold skSystemSchedulerStart at hs
    rw [hnone] at hs
    cases hs
  · obtain ⟨d, p, s1, hd, hstart, hcur, hthread, hqueues⟩ := h.queues.start hg
    cases hstart.symm.trans hs
    refine ⟨_, hqueues, ?_, ?_, ?_, ?_⟩
    · intro e he
      cases hcur.symm.trans he
      exact h.queues.lists.mem_created hd
    · intro e he p' hin
      cases hcur.symm.trans he
      exact (h.queues.lists.nodup _).not_mem_erase hin
    · intro o
      show (q (.wait o)).erase d = []
      rw [h.no_wait o]
      rfl
    · intro u hu hne
      have hud : u ≠ d := by
        intro heq
        exact hne (by rw [heq]; exact hcur)
      rw [hthread, if_neg hud, ← h.agree u hu (by rw [hc]; exact (some_ne_none u).symm)]
      simp [mem_erase_of_ne hud]

end Agrees

/-! ## Startup -/

/-- It stays off the ready queues. -/
theorem Agrees.startup_unlinked (h : Agrees created k.sched q)
    (hself : k.sched.links.next (.tlist t) = .tlist t) {k' : Kernel}
    (hrun : skThreadStartup k t = some k') : ∃ q', Agrees created k'.sched q' := by
  have hsusp := h.setSuspend fun p => h.queues.lists.notMem_of_next_self hself (.prio p)
  unfold skThreadStartup at hrun
  dsimp only at hrun
  split at hrun
  · obtain ⟨s', hs', rfl⟩ := map_eq_some_iff.mp hrun
    exact hsusp.schedule_of_some hs'
  · cases hrun
    exact ⟨q, hsusp⟩

private theorem switchesTo_iff : SwitchesTo s t ↔ ∃ c p, s.currentThread = some c ∧
    scheduleGetHpThread s = some (t, p) ∧
    ¬((s.thread c).stat = threadRunning ∧ (s.thread c).currentPri ≤ p) := by
  unfold SwitchesTo
  constructor
  · intro h
    split at h
    · next c hp p hc hget =>
      obtain ⟨rfl, hnot⟩ := h
      exact ⟨c, p, hc, hget, hnot⟩
    · exact h.elim
  · rintro ⟨c, p, hc, hget, hnot⟩
    rw [hc, hget]
    exact ⟨rfl, hnot⟩

private theorem Agrees.startup_switch (h : Agrees created k.sched q) (hsw : SwitchesTo k.sched t)
    {k' : Kernel} (hrun : skThreadStartup k t = some k') : ∃ q', Agrees created k'.sched q' := by
  obtain ⟨c, p, hc, hget, hnot⟩ := switchesTo_iff.mp hsw
  have hg : k.sched.readyPrioGroup ≠ 0 := by
    intro hz
    unfold Native.scheduleGetHpThread at hget
    rw [hz] at hget
    cases hget
  -- the first thread of the highest ready priority is on its ready queue
  obtain ⟨d, p', ts, hget', hq, -⟩ := h.queues.scheduleGetHpThread hg
  cases hget'.symm.trans hget
  have ht : t ∈ q (.prio p) := by
    rw [hq]
    exact mem_cons_self
  have hct : c ≠ t := by
    intro heq
    exact h.off_ready c hc p (heq ▸ ht)
  have hsched : skSchedule (k.sched.setStat t threadSuspend) =
      some (scheduleSwitch (k.sched.setStat t threadSuspend) c t) := by
    have hc' : (k.sched.setStat t threadSuspend).currentThread = some c := hc
    have hget' : scheduleGetHpThread (k.sched.setStat t threadSuspend) = some (t, p) := hget
    have hg' : (k.sched.setStat t threadSuspend).readyPrioGroup ≠ 0 := hg
    unfold skSchedule
    rw [if_pos hg', hc', hget']
    dsimp only
    rw [setStat_thread, if_neg hct, if_neg hnot, if_pos hct]
  unfold skThreadStartup at hrun
  dsimp only at hrun
  rw [setStat_currentThread, hc, if_pos (some_ne_none c), hsched] at hrun
  cases hrun
  refine ⟨_, switched (h.queues.setStat t _) (h.current_created c hc) (h.current_free hc)
    h.no_wait ht hct ?_⟩
  intro u hu huc hut
  rw [setStat_thread, if_neg hut]
  refine h.agree u hu ?_
  rw [hc]
  exact fun heq => huc (some.inj heq).symm

/-! ## Runs -/

/-- Each call keeps the agreement. -/
theorem Agrees.step {x x' : ThreadSys} {op : ThreadOp} (h : ∃ q, Agrees x.created x.k.sched q)
    (hguard : x.SoundStartup op) (hstep : x.step op = some x') :
    ∃ q, Agrees x'.created x'.k.sched q := by
  obtain ⟨q, h⟩ := h
  cases op <;> simp only [ThreadSys.step, ite_none_right_eq_some] at hstep
  case create t priority slice =>
    obtain ⟨hnew, heq⟩ := hstep
    cases heq
    exact ⟨_, h.create hnew.1 hnew.2 slice⟩
  case startup t =>
    obtain ⟨k', hrun, rfl⟩ := map_eq_some_iff.mp hstep.2
    cases hguard with
    | inl hself => exact h.startup_unlinked hself hrun
    | inr hsw => exact h.startup_switch hsw hrun
  case suspend t =>
    obtain ⟨ht, heq⟩ := hstep
    cases heq
    exact h.suspend ht
  case resume t =>
    obtain ⟨ht, heq⟩ := hstep
    cases heq
    unfold skThreadResume
    split
    · exact ⟨q, h⟩
    · exact ⟨_, h.wake ht⟩
  case sleep ticks =>
    obtain ⟨k', hrun, rfl⟩ := map_eq_some_iff.mp hstep
    unfold skThreadSleep threadSleepBlock at hrun
    obtain ⟨k1, hk1, hrun⟩ := bind_eq_some_iff.mp hrun
    obtain ⟨c, hc, rfl⟩ := map_eq_some_iff.mp hk1
    obtain ⟨s', hs', rfl⟩ := map_eq_some_iff.mp hrun
    obtain ⟨q1, h1⟩ := h.suspend (h.current_created c hc)
    exact h1.schedule_of_some hs'
  case timeout t =>
    obtain ⟨ht, hrun⟩ := hstep
    obtain ⟨s', hs', rfl⟩ := map_eq_some_iff.mp hrun
    exact (h.wake ht).schedule_of_some hs'
  case schedule =>
    obtain ⟨k', hrun, rfl⟩ := map_eq_some_iff.mp hstep
    obtain ⟨s', hs', rfl⟩ := map_eq_some_iff.mp hrun
    exact h.schedule_of_some hs'
  case start =>
    obtain ⟨hc, hrun⟩ := hstep
    obtain ⟨s', hs', rfl⟩ := map_eq_some_iff.mp hrun
    exact h.start hc hs'

/-- At boot there is no thread. -/
theorem Agrees.init {x : ThreadSys} (h : threadSystem.init x) :
    ∃ q, Agrees x.created x.k.sched q := by
  obtain ⟨hboot, hnone⟩ := h
  have hinv : SchedInv 0 [] x.k.sched (fun _ => []) := hboot.schedInv
  rw [hnone]
  exact ⟨_, hinv.queues, hinv.current_created, fun _ _ _ => not_mem_nil, fun _ => rfl,
    by simp⟩

/-- In a run whose startups are sound, a thread other than the current one is on a ready queue
    exactly when its `stat` is `SK_THREAD_READY`, and `sk_thread_suspend` succeeds on every thread
    of a ready queue. -/
theorem stat_queue_agreement {x : ThreadSys} (h : threadSystem.Reach ThreadSys.SoundStartup x) :
    x.StatAgrees := by
  have hinv : ∃ q, Agrees x.created x.k.sched q := by
    refine TransitionSystem.Reach.invariant (I := fun x => ∃ q, Agrees x.created x.k.sched q)
      (fun _ => Agrees.init) ?_ h
    intro y op y' hy hguard hstep
    exact Agrees.step hy hguard hstep
  obtain ⟨q, hq⟩ := hinv
  refine ⟨q, hq.queues.lists, hq.agree, ?_⟩
  intro t p ht
  have hcur : x.k.sched.currentThread ≠ some t := fun hc => hq.off_ready t hc p ht
  have hready := (hq.agree t (hq.queues.lists.mem_created ht) hcur).mp ⟨p, ht⟩
  unfold skThreadSuspend
  dsimp only
  rw [hready, if_neg (by decide)]

private theorem threadSystem_boot : threadSystem.init { k := bootKernel, created := [] } :=
  ⟨bootKernel_booted, rfl⟩

/-- Threads 0 and 1 are created and the scheduler is started. Thread 1 creates a thread 2 of a
    higher priority and starts it up, which runs at once; thread 1 is then ready. -/
theorem stat_queue_agreement_three :
    ∃ x, threadSystem.Reach ThreadSys.SoundStartup x ∧ x.k.sched.currentThread = some 2 ∧
      (x.k.sched.thread 1).stat = threadReady ∧ x.StatAgrees := by
  have hboot : threadSystem.Reach ThreadSys.SoundStartup _ := .init threadSystem_boot
  obtain ⟨x, hreach, hx⟩ := hboot.exists_of_run
    [.create 0 31 32, .create 1 5 10, .start, .create 2 3 10, .startup 2]
    (fun x => decide (x.k.sched.currentThread = some 2 ∧
      (x.k.sched.thread 1).stat = threadReady)) (by decide +kernel)
  have hfacts := of_decide_eq_true hx
  exact ⟨x, hreach, hfacts.1, hfacts.2, stat_queue_agreement hreach⟩

/-- The first thread, created and started up as in `sk_thread_idle_init`: it is linked on its
    ready queue, its `stat` is `SK_THREAD_SUSPEND`, and `sk_thread_suspend` fails on it. -/
theorem stat_queue_agreement_fails :
    ∃ x, threadSystem.Reach (fun _ _ => True) x ∧
      (x.k.sched.thread 0).stat = threadSuspend ∧ (skThreadSuspend x.k 0).1 = .error ∧
      x.k.sched.links.next (.head (.prio 31)) = .tlist 0 ∧ ¬x.StatAgrees := by
  have hboot : threadSystem.Reach (fun _ _ => True) _ := .init threadSystem_boot
  obtain ⟨x, hreach, hx⟩ := hboot.exists_of_run
    [.create 0 31 32, .startup 0]
    (fun x => decide ((x.k.sched.thread 0).stat = threadSuspend ∧
      (skThreadSuspend x.k 0).1 = .error ∧
      x.k.sched.links.next (.head (.prio 31)) = .tlist 0)) (by decide +kernel)
  obtain ⟨hstat, hfail, hnext⟩ := of_decide_eq_true hx
  refine ⟨x, hreach, hstat, hfail, hnext, ?_⟩
  rintro ⟨q, hlists, -, hok⟩
  have hmem := hlists.mem_of_next_head (l := .prio 31) (show 31 < 32 by decide) hnext
  rw [hok 0 31 hmem] at hfail
  cases hfail

end SKernel.Spec
