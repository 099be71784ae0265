import SKernel.Spec.ThreadCalls
import SKernel.Spec.TimerList

/-!
# Scheduler

Runs of completed thread and scheduler calls, from `sk_system_scheduler_init` on. Threads are
created and started up, the scheduler is started, and from then on threads call into the
kernel and ticks happen. The idle thread is never suspended: nobody names it, and while it
runs only ticks happen.

## Key results

- `SchedReach.inv`: the invariant of all runs
- `scheduler_structure`: bitmap, queues and lists agree, and every call completes
-/

namespace SKernel.Spec

open Native Function List Option

/-! ## Calls and runs -/

/-- The calls, by the running thread or by the timer interrupt. -/
inductive SchedOp where
  | create (t : Tid) (priority slice : Nat)
  | startup (t : Tid)
  | suspend (t : Tid)
  | resume (t : Tid)
  | timeout (t : Tid)
  | sleep (ticks : Nat)
  /-- a blocking IPC call on wait list `o` -/
  | wait (o : Nat) (flag : BitVec 8) (time : Int)
  | schedule
  | tick
  /-- `sk_system_scheduler_start` -/
  | start

namespace SchedOp

/-- A completed call. -/
def step (fuel : Nat) (k : Kernel) : SchedOp → Option Kernel
  | create t priority slice => some (skThreadCreate k t priority slice)
  | startup t => skThreadStartup k t
  | suspend t => some (skThreadSuspend k t).2
  | resume t => some (skThreadResume k t).2
  | timeout t => (skThreadTimeout k.sched t).map fun s => { k with sched := s }
  | sleep ticks => skThreadSleep k ticks
  | wait o flag time => (ipcBlock fuel k (.wait o) flag time).bind thenSchedule
  | schedule => thenSchedule k
  | tick => skTickIncrease fuel k
  | start => (skSystemSchedulerStart k.sched).map fun s => { k with sched := s }

/-- The threads a call creates. -/
def creates : SchedOp → List Tid
  | create t _ _ => [t]
  | _ => []

/-- Thread arguments are created threads, priorities are below `SK_THREAD_PRIORITY_MAX`, and the
    idle thread neither makes the call nor is suspended. -/
def Allowed (idle : Tid) (created : List Tid) (k : Kernel) : SchedOp → Prop
  | create t priority _ => t ∉ created ∧ priority < threadPriorityMax
  | startup t => t ∈ created ∧ (t = idle → k.sched.currentThread = none)
  | suspend t => t ∈ created ∧ t ≠ idle
  | resume t => t ∈ created
  | timeout t => t ∈ created ∧ k.sched.currentThread ≠ none
  | sleep _ => k.sched.currentThread ≠ none ∧ k.sched.currentThread ≠ some idle
  | wait _ _ _ => k.sched.currentThread ≠ none ∧ k.sched.currentThread ≠ some idle
  | schedule => k.sched.currentThread ≠ none
  | tick => k.sched.currentThread ≠ none
  | start => k.sched.currentThread = none ∧ idle ∈ created

instance (idle : Tid) (created : List Tid) (k : Kernel) :
    (op : SchedOp) → Decidable (op.Allowed idle created k)
  | create _ _ _ => inferInstanceAs (Decidable (_ ∧ _))
  | startup _ => inferInstanceAs (Decidable (_ ∧ (_ → _)))
  | suspend _ => inferInstanceAs (Decidable (_ ∧ _))
  | resume _ => inferInstanceAs (Decidable (_ ∈ _))
  | timeout _ => inferInstanceAs (Decidable (_ ∧ _))
  | sleep _ => inferInstanceAs (Decidable (_ ∧ _))
  | wait _ _ _ => inferInstanceAs (Decidable (_ ∧ _))
  | schedule => inferInstanceAs (Decidable (_ ≠ _))
  | tick => inferInstanceAs (Decidable (_ ≠ _))
  | start => inferInstanceAs (Decidable (_ ∧ _))

end SchedOp

/-- Before the first thread: the wait lists and the timer list are initialised, and
    `sk_system_scheduler_init` has run. -/
structure Booted (k : Kernel) : Prop where
  sched : ∃ s : Sched, k.sched = skSystemSchedulerInit s ∧ s.currentThread = none ∧
    ∀ o, s.links.next (.head (.wait o)) = .head (.wait o) ∧
      s.links.prev (.head (.wait o)) = .head (.wait o)
  timers : TimerList k.timers []

/-- The states reached by completed calls, with the threads created so far. -/
inductive SchedReach (idle : Tid) : List Tid → Kernel → Prop where
  | boot {k : Kernel} (h : Booted k) : SchedReach idle [] k
  | step {created : List Tid} {k k' : Kernel} (op : SchedOp) (fuel : Nat)
      (h : SchedReach idle created k) (hallowed : op.Allowed idle created k)
      (hstep : op.step fuel k = some k') : SchedReach idle (op.creates ++ created) k'

/-! ## The timers of the threads -/

/-- The timer list holds one-shot timers of created threads. -/
def ThreadTimers (created : List Tid) (tm : Timers Tid) : Prop :=
  ∃ xs, TimerList tm xs ∧ (∀ t ∈ xs, t ∈ created) ∧
    ∀ t ∈ created, (tm.timer t).isPeriodic = false

namespace ThreadTimers

variable {created : List Tid} {tm : Timers Tid} {t : Tid}

theorem stop (h : ThreadTimers created tm) (t : Tid) :
    ThreadTimers created (skTimerStop tm t) := by
  obtain ⟨xs, hlist, hcr, hone⟩ := h
  obtain ⟨xs', hlist', hsub⟩ := skTimerStop_list hlist t
  refine ⟨xs', hlist', fun u hu => hcr u (hsub u hu), ?_⟩
  intro u hu
  unfold skTimerStop
  split
  · show ((timerDeactivate tm t).timer u).isPeriodic = false
    rw [timerDeactivate_isPeriodic]
    exact hone u hu
  · exact hone u hu

theorem start (h : ThreadTimers created tm) (ht : t ∈ created) (time : Nat) :
    ThreadTimers created (skTimerStart (skTimerSetTime tm t time) t) := by
  obtain ⟨xs, hlist, hcr, hone⟩ := h
  have hset : TimerList (skTimerSetTime tm t time) xs := hlist.congr_links rfl
  refine ⟨_, skTimerStart_list hset t, ?_, ?_⟩
  · intro u hu
    cases mem_cons.mp hu with
    | inl hut => rw [hut]; exact ht
    | inr hu => exact hcr u (mem_of_mem_erase hu)
  · intro u hu
    rw [skTimerStart_isPeriodic]
    by_cases hut : u = t
    · subst hut
      simpa [skTimerSetTime, Timers.setTimer, SysTimer.isPeriodic] using hone u hu
    · simpa [skTimerSetTime, Timers.setTimer, update_of_ne hut] using hone u hu

theorem create (h : ThreadTimers created tm) (ht : t ∉ created) :
    ThreadTimers (t :: created) (timerInit tm t 0 timerFlagOneShot) := by
  obtain ⟨xs, hlist, hcr, hone⟩ := h
  refine ⟨xs, timerInit_list hlist (fun hin => ht (hcr t hin)) _ _,
    fun u hu => mem_cons_of_mem t (hcr u hu), ?_⟩
  intro u hu
  by_cases hut : u = t
  · subst hut
    simp only [timerInit, Timers.setTimer, update_self]
    decide
  · simpa [timerInit, Timers.setTimer, update_of_ne hut] using
      hone u ((mem_cons.mp hu).resolve_left hut)

theorem check {σ : Type} (h : ThreadTimers created tm) (timeoutFunc : Tid → σ → σ) (n : Nat)
    {P : σ → Prop}
    (hP : ∀ t ∈ created, isDue { tm with skTick := n } t = true → ∀ s, P s → P (timeoutFunc t s))
    {s : σ} (hs : P s) :
    (∃ fuel r, skTimerCheck timeoutFunc fuel { tm with skTick := n } s = some r) ∧
    ∀ fuel tm' s', skTimerCheck timeoutFunc fuel { tm with skTick := n } s = some (tm', s') →
      ThreadTimers created tm' ∧ P s' := by
  obtain ⟨xs, hlist, hcr, hone⟩ := h
  have hstart : TimerListOn Set.univ { tm with skTick := n } ([] ++ xs) := hlist
  obtain ⟨tm', s', hloop, hlinks, hper, hend⟩ := timerCheckLoop_oneShot hstart
    (fun t ht => hone t (hcr t ht)) (fun t ht => hP t (hcr t ht)) hs
  have hcheck : skTimerCheck timeoutFunc (xs.length + 1) { tm with skTick := n } s =
      some (tm', s') := by
    rw [skTimerCheck, hlist.next_head, hloop]
  refine ⟨⟨_, _, hcheck⟩, ?_⟩
  intro fuel tm'' s'' hrun
  cases skTimerCheck_unique hcheck hrun
  exact ⟨⟨xs, hlist.congr_links hlinks, hcr, fun t ht => by rw [hper t]; exact hone t ht⟩, hend⟩

end ThreadTimers

/-! ## The invariant of a run -/

/-- The invariant of the kernel between completed calls. -/
structure KernelInv (idle : Tid) (created : List Tid) (k : Kernel) : Prop where
  sched : ∃ q, SchedInv idle created k.sched q
  timers : ThreadTimers created k.timers

variable {idle : Tid} {created : List Tid} {k : Kernel}

theorem initTable_prio (L : Links ThreadNode) (n : Nat) :
    ∀ p < n, ((List.range n).foldl (fun L i => skListInit L (.head (.prio i))) L).next
        (.head (.prio p)) = .head (.prio p) ∧
      ((List.range n).foldl (fun L i => skListInit L (.head (.prio i))) L).prev
        (.head (.prio p)) = .head (.prio p) := by
  induction n with
  | zero =>
    intro p hp
    omega
  | succ n ih =>
    intro p hp
    rw [range_succ, foldl_append, foldl_cons, foldl_nil, skListInit_eq,
      Links.isolate_next, Links.isolate_prev]
    by_cases hpn : p = n
    · subst hpn
      simp
    · have hne : ThreadNode.head (.prio p) ≠ .head (.prio n) := by simpa using hpn
      rw [if_neg hne, if_neg hne]
      exact ih p (by omega)

theorem initTable_wait (L : Links ThreadNode) (n o : Nat) :
    ((List.range n).foldl (fun L i => skListInit L (.head (.prio i))) L).next
        (.head (.wait o)) = L.next (.head (.wait o)) ∧
      ((List.range n).foldl (fun L i => skListInit L (.head (.prio i))) L).prev
        (.head (.wait o)) = L.prev (.head (.wait o)) := by
  induction n with
  | zero => exact ⟨rfl, rfl⟩
  | succ n ih =>
    have hne : ThreadNode.head (.wait o) ≠ .head (.prio n) := by simp
    rw [range_succ, foldl_append, foldl_cons, foldl_nil, skListInit_eq,
      Links.isolate_next, Links.isolate_prev, if_neg hne, if_neg hne]
    exact ih

theorem Booted.threadLists (h : Booted k) : ThreadLists k.sched.links [] (fun _ => []) := by
  obtain ⟨s, hs, -, hwait⟩ := h.sched
  constructor
  · have hself : ∀ n ∈ listNodes [],
        k.sched.links.next n = n ∧ k.sched.links.prev n = n := by
      intro n hn
      rw [hs]
      simp only [listNodes, not_mem_nil, false_and, exists_false] at hn
      obtain ⟨l, hl, rfl⟩ := hn.resolve_right (by simp)
      cases l with
      | prio p => exact initTable_prio s.links threadPriorityMax p hl
      | wait o =>
        obtain ⟨hn, hp⟩ := initTable_wait s.links threadPriorityMax o
        exact ⟨hn.trans (hwait o).1, hp.trans (hwait o).2⟩
    refine (Links.Rings.of_isolated Set.subset_union_left hself).congr ?_
    intro n _
    cases n <;> rfl
  · intro l _
    rfl

theorem Booted.schedInv (h : Booted k) : SchedInv idle [] k.sched (fun _ => []) := by
  obtain ⟨s, hs, hcur, -⟩ := h.sched
  have hnone : k.sched.currentThread = none := by
    rw [hs]
    exact hcur
  have hgroup : k.sched.readyPrioGroup = 0 := by
    rw [hs]
    rfl
  refine ⟨⟨h.threadLists, ?_, by simp, by simp, by simp⟩, ?_, ?_, ?_, ?_, ?_⟩
  · intro p _
    rw [hgroup]
    simp
  · intro c hc
    rw [hnone] at hc
    cases hc
  · intro c hc
    rw [hnone] at hc
    cases hc
  · intro c hc
    rw [hnone] at hc
    cases hc
  · intro hc
    exact absurd hnone hc
  · intro hid
    cases hid

theorem Booted.inv (h : Booted k) : KernelInv idle [] k :=
  ⟨⟨_, h.schedInv⟩, [], h.timers, by simp, by simp⟩

namespace KernelInv

variable {q : ListHead → List Tid} {c t : Tid}

theorem thenSchedule (hat : AtSchedule idle created k.sched q c)
    (htm : ThreadTimers created k.timers) :
    ∃ k', Native.thenSchedule k = some k' ∧ KernelInv idle created k' := by
  obtain ⟨s', q', d, hrun, hinv, -⟩ := hat.schedule
  refine ⟨{ k with sched := s' }, ?_, ⟨q', hinv⟩, htm⟩
  unfold Native.thenSchedule
  rw [hrun]
  rfl

theorem suspend_timers (htm : ThreadTimers created k.timers) (t : Tid) :
    ThreadTimers created (skThreadSuspend k t).2.timers := by
  unfold skThreadSuspend
  dsimp only
  split
  · exact htm
  · exact htm.stop t

section

variable (h : KernelInv idle created k)
include h

/-- `sk_thread_startup`. -/
theorem startup (ht : t = idle → k.sched.currentThread = none) :
    ∃ k', skThreadStartup k t = some k' ∧ KernelInv idle created k' := by
  obtain ⟨q, hinv⟩ := h.sched
  have hinv' := hinv.startup ht
  unfold skThreadStartup
  dsimp only
  split
  · rename_i hne
    obtain ⟨c, hc⟩ := ne_none_iff_exists'.mp hne
    obtain ⟨s', q', d, hrun, hinv'', -⟩ := (hinv'.atSchedule hc).schedule
    rw [hrun]
    exact ⟨_, rfl, ⟨q', hinv''⟩, h.timers⟩
  · exact ⟨_, rfl, ⟨q, hinv'⟩, h.timers⟩

/-- `sk_thread_resume`. -/
theorem resume (ht : t ∈ created) : KernelInv idle created (skThreadResume k t).2 := by
  obtain ⟨q, hinv⟩ := h.sched
  unfold skThreadResume
  split
  · exact h
  · exact ⟨⟨_, hinv.wake ht⟩, h.timers⟩

/-- `sk_thread_sleep`. -/
theorem sleep (hc : k.sched.currentThread = some c) (hci : c ≠ idle) (ticks : Nat) :
    ∃ k', skThreadSleep k ticks = some k' ∧ KernelInv idle created k' := by
  obtain ⟨q, hinv⟩ := h.sched
  have hsusp := hinv.suspended_current hc hci
  have htm := (suspend_timers h.timers c).start (hinv.current_created c hc) ticks
  obtain ⟨k', hrun, hinv'⟩ :=
    thenSchedule (k := threadTimerStart (skThreadSuspend k c).2 c ticks) hsusp.atSchedule htm
  refine ⟨k', ?_, hinv'⟩
  unfold skThreadSleep threadSleepBlock
  rw [hc]
  exact hrun

/-- The search for a position has to end. -/
theorem ipcBlock (hinv : SchedInv idle created k.sched q)
    (hc : k.sched.currentThread = some c) (hci : c ≠ idle) (o : Nat) (flag : BitVec 8)
    (time : Int) (fuel : Nat) :
    (Native.ipcBlock fuel k (.wait o) flag time = none ∧ fuel ≤ (q (.wait o)).length) ∨
    ∃ k' q', Native.ipcBlock fuel k (.wait o) flag time = some k' ∧
      AtSchedule idle created k'.sched q' c ∧ ThreadTimers created k'.timers := by
  unfold Native.ipcBlock
  rw [hc]
  dsimp only
  rcases hinv.ipcListSuspend hc hci o flag fuel with
    ⟨hnone, hfuel⟩ | ⟨k', q', hrun, htm, hsusp, -⟩
  · left
    rw [hnone]
    exact ⟨rfl, hfuel⟩
  · right
    have htm' : ThreadTimers created k'.timers := by
      rw [htm]
      exact suspend_timers h.timers c
    rw [hrun]
    refine ⟨_, q', rfl, ?_⟩
    split
    · exact ⟨hsusp.atSchedule, htm'.start (hinv.current_created c hc) _⟩
    · exact ⟨hsusp.atSchedule, htm'⟩

end

theorem timeout {s : Sched} (hinv : SchedInv idle created s q) (hne : s.currentThread ≠ none)
    (ht : t ∈ created) :
    ∃ s' q', skThreadTimeout s t = some s' ∧ SchedInv idle created s' q' ∧
      s'.currentThread ≠ none := by
  obtain ⟨c, hc⟩ := ne_none_iff_exists'.mp hne
  have hc' : (threadWake s t).currentThread = some c := by
    rw [threadWake_currentThread, hc]
  obtain ⟨s', q', d, hrun, hinv', hres⟩ := ((hinv.wake ht).atSchedule hc').schedule
  refine ⟨s', q', hrun, hinv', ?_⟩
  rw [hres.current]
  exact some_ne_none d

theorem tick (h : KernelInv idle created k) (hne : k.sched.currentThread ≠ none) :
    (∃ fuel k', skTickIncrease fuel k = some k') ∧
    ∀ fuel k', skTickIncrease fuel k = some k' → KernelInv idle created k' := by
  obtain ⟨q, hinv⟩ := h.sched
  obtain ⟨c, hc⟩ := ne_none_iff_exists'.mp hne
  obtain ⟨s1, q1, hslice, hinv1, hne1⟩ := hinv.tickSlice hc
  -- the property that the callbacks keep
  let P : Option Sched → Prop := fun r =>
    ∃ s q, r = some s ∧ SchedInv idle created s q ∧ s.currentThread ≠ none
  have hP : ∀ t ∈ created, ∀ r, P r → P (r.bind (skThreadTimeout · t)) := by
    intro t ht r hr
    obtain ⟨s, q, rfl, hinv, hne⟩ := hr
    obtain ⟨s', q', hrun, hinv', hne'⟩ := timeout hinv hne ht
    exact ⟨s', q', hrun, hinv', hne'⟩
  have hP1 : P ((some k.sched).bind tickSlice) := ⟨s1, q1, hslice, hinv1, hne1⟩
  obtain ⟨⟨fuel, r, hrun⟩, hres⟩ :=
    h.timers.check (fun t r => r.bind (skThreadTimeout · t)) (k.timers.tickAfter 1)
      (fun t ht _ => hP t ht) hP1
  constructor
  · obtain ⟨tm', s', rfl⟩ : ∃ tm' s', r = (tm', s') := ⟨r.1, r.2, rfl⟩
    obtain ⟨-, s2, q2, rfl, -, -⟩ := hres _ _ _ hrun
    refine ⟨fuel, { sched := s2, timers := tm' }, ?_⟩
    unfold skTickIncrease tickIncrease
    rw [hrun]
  · intro fuel' k' hk'
    unfold skTickIncrease tickIncrease at hk'
    split at hk'
    · rename_i tm' s' hrun'
      cases hk'
      obtain ⟨htm, s2, q2, heq, hinv2, -⟩ := hres _ _ _ hrun'
      cases heq
      exact ⟨⟨q2, hinv2⟩, htm⟩
    · cases hk'

theorem step (h : KernelInv idle created k) (op : SchedOp)
    (ha : op.Allowed idle created k) :
    (∃ fuel k', op.step fuel k = some k') ∧
    ∀ fuel k', op.step fuel k = some k' → KernelInv idle (op.creates ++ created) k' := by
  obtain ⟨q, hinv⟩ := h.sched
  -- a call that needs no fuel
  have hfree : ∀ r : Option Kernel, (∃ k', r = some k' ∧ KernelInv idle created k') →
      (∃ (_ : Nat) (k' : Kernel), r = some k') ∧
      ∀ (_ : Nat) (k' : Kernel), r = some k' → KernelInv idle created k' := by
    intro r hr
    obtain ⟨k', rfl, hinv'⟩ := hr
    refine ⟨⟨0, k', rfl⟩, ?_⟩
    intro _ k'' hk''
    cases hk''
    exact hinv'
  cases op with
  | create t priority slice =>
    refine ⟨⟨0, _, rfl⟩, ?_⟩
    intro _ k' hk'
    cases hk'
    exact ⟨⟨_, hinv.create ha.1 ha.2 slice⟩, h.timers.create ha.1⟩
  | startup t => exact hfree _ (h.startup ha.2)
  | suspend t =>
    refine hfree _ ⟨_, rfl, hinv.suspend ha.1 ha.2, suspend_timers h.timers t⟩
  | resume t => exact hfree _ ⟨_, rfl, h.resume ha⟩
  | timeout t =>
    obtain ⟨s', q', hrun, hinv', -⟩ := timeout hinv ha.2 ha.1
    exact hfree _ ⟨{ k with sched := s' }, by rw [hrun], ⟨q', hinv'⟩, h.timers⟩
  | sleep ticks =>
    obtain ⟨c, hc⟩ := ne_none_iff_exists'.mp ha.1
    have hci : c ≠ idle := by
      intro heq
      exact ha.2 (heq ▸ hc)
    exact hfree _ (h.sleep hc hci ticks)
  | wait o flag time =>
    obtain ⟨c, hc⟩ := ne_none_iff_exists'.mp ha.1
    have hci : c ≠ idle := by
      intro heq
      exact ha.2 (heq ▸ hc)
    have hblock := h.ipcBlock hinv hc hci o flag time
    have hdone : ∀ fuel k', Native.ipcBlock fuel k (.wait o) flag time = some k' →
        ∃ k'', Native.thenSchedule k' = some k'' ∧ KernelInv idle created k'' := by
      intro fuel k' hk'
      rcases hblock fuel with ⟨hnone, -⟩ | ⟨k1, q1, hrun, hat, htm⟩
      · rw [hnone] at hk'
        cases hk'
      · rw [hrun] at hk'
        cases hk'
        exact thenSchedule hat htm
    constructor
    · -- fuel for the whole wait list is enough
      refine ⟨(q (.wait o)).length + 1, ?_⟩
      rcases hblock ((q (.wait o)).length + 1) with ⟨-, hfuel⟩ | ⟨k1, q1, hrun, -⟩
      · omega
      · obtain ⟨k'', hsched, -⟩ := hdone _ _ hrun
        refine ⟨k'', ?_⟩
        show (Native.ipcBlock _ k (.wait o) flag time).bind Native.thenSchedule = some k''
        rw [hrun]
        exact hsched
    · intro fuel k'' hk''
      change (Native.ipcBlock fuel k (.wait o) flag time).bind Native.thenSchedule = some k''
        at hk''
      cases hrun : Native.ipcBlock fuel k (.wait o) flag time with
      | none =>
        rw [hrun] at hk''
        cases hk''
      | some k1 =>
        obtain ⟨k2, hsched, hinv2⟩ := hdone fuel k1 hrun
        rw [hrun] at hk''
        cases hsched.symm.trans hk''
        exact hinv2
  | schedule =>
    obtain ⟨c, hc⟩ := ne_none_iff_exists'.mp ha
    exact hfree _ (thenSchedule (hinv.atSchedule hc) h.timers)
  | tick => exact h.tick ha
  | start =>
    obtain ⟨s', q', hrun, hinv', -⟩ := hinv.start ha.2 ha.1
    exact hfree _ ⟨{ k with sched := s' }, by rw [hrun], ⟨q', hinv'⟩, h.timers⟩

end KernelInv

/-- The invariant holds along every run. -/
theorem SchedReach.inv (h : SchedReach idle created k) : KernelInv idle created k := by
  induction h with
  | boot hboot => exact hboot.inv
  | step op fuel _ hallowed hstep ih => exact (ih.step op hallowed).2 fuel _ hstep

/-- The state before the first thread is created. -/
def bootKernel : Kernel where
  sched := skSystemSchedulerInit
    { links := ⟨id, id⟩
      thread := fun _ => ⟨0, 0, 0, 0, 0⟩
      currentThread := none
      readyPrioGroup := 0 }
  timers := { skTick := 0, links := ⟨id, id⟩, timer := fun _ => ⟨0, 0, 0⟩ }

/-- The idle thread 0 and a thread 1 of priority 5, which runs. -/
def startedKernel (slice : Nat) : Kernel :=
  let k := skThreadCreate (skThreadCreate bootKernel 0 31 32) 1 5 slice
  { k with sched := (skSystemSchedulerStart k.sched).getD k.sched }

/-- Make the calls one after the other, as long as they are allowed and complete. -/
def SchedOp.run (idle : Tid) (fuel : Nat) :
    List SchedOp → List Tid → Kernel → Option (List Tid × Kernel)
  | [], created, k => some (created, k)
  | op :: ops, created, k =>
    if op.Allowed idle created k then
      (op.step fuel k).bind fun k => SchedOp.run idle fuel ops (op.creates ++ created) k
    else none

theorem SchedReach.run {fuel : Nat} {ops : List SchedOp} {x : List Tid × Kernel}
    (h : SchedReach idle created k) (hrun : SchedOp.run idle fuel ops created k = some x) :
    SchedReach idle x.1 x.2 := by
  induction ops generalizing created k with
  | nil =>
    cases hrun
    exact h
  | cons op ops ih =>
    simp only [SchedOp.run] at hrun
    split at hrun
    · rename_i hallowed
      obtain ⟨k', hstep, hrest⟩ := bind_eq_some_iff.mp hrun
      exact ih (h.step op fuel hallowed hstep) hrest
    · cases hrun

theorem bootKernel_booted : Booted bootKernel where
  sched := ⟨_, rfl, rfl, fun _ => ⟨rfl, rfl⟩⟩
  timers := Links.Rings.of_isolated (Set.subset_univ _) fun _ _ => ⟨rfl, rfl⟩

theorem startedKernel_start (slice : Nat) :
    ∃ q, SchedInv 0 [1, 0] (startedKernel slice).sched q ∧ (∀ o, q (.wait o) = []) ∧
      skSystemSchedulerStart (skThreadCreate (skThreadCreate bootKernel 0 31 32) 1 5 slice).sched =
        some (startedKernel slice).sched := by
  have h0 : SchedInv 0 [] bootKernel.sched (fun _ => []) := bootKernel_booted.schedInv
  have h1 := h0.create (t := 0) (by decide) (show 31 < 32 by decide) 32
  have h2 := h1.create (t := 1) (by decide) (show 5 < 32 by decide) slice
  obtain ⟨s, q, hs, hinv, hwait, -⟩ := h2.start (by decide) rfl
  have hsched : (startedKernel slice).sched = s := by
    unfold startedKernel
    dsimp only
    rw [hs]
    rfl
  refine ⟨q, by rw [hsched]; exact hinv, ?_, by rw [hsched]; exact hs⟩
  intro o
  rw [hwait o, update_of_ne (by simp), update_of_ne (by simp)]

theorem reach_startedKernel (slice : Nat) : SchedReach 0 [1, 0] (startedKernel slice) := by
  have h0 : SchedReach 0 [] bootKernel := .boot bootKernel_booted
  have h1 := h0.step (.create 0 31 32) 0 (by decide) rfl
  have h2 := h1.step (.create 1 5 slice) 0 ⟨by decide, by decide⟩ rfl
  refine h2.step .start 0 ⟨rfl, by decide⟩ ?_
  obtain ⟨q, -, -, hs⟩ := startedKernel_start slice
  show Option.map _ _ = _
  rw [hs]
  rfl

theorem SchedReach.exists_of_run (idle : Tid) (fuel : Nat) (ops : List SchedOp)
    (p : List Tid → Kernel → Prop) [∀ created k, Decidable (p created k)]
    (hp : (SchedOp.run idle fuel ops [] bootKernel).map (fun x => decide (p x.1 x.2)) =
      some true) : ∃ created k, SchedReach idle created k ∧ p created k := by
  obtain ⟨x, hrun, hx⟩ := map_eq_some_iff.mp hp
  exact ⟨x.1, x.2, (SchedReach.boot bootKernel_booted).run hrun, of_decide_eq_true hx⟩

/-- **Scheduler structure.** In every state reached by completed calls, bit `p` of the ready
    group is set exactly when queue `p` is not empty, the threads on queue `p` have priority
    `p` and the mask of bit `p`, every thread is on at most one list and there at most once,
    the current thread is on no ready queue; and every allowed call completes. -/
theorem scheduler_structure (h : SchedReach idle created k) :
    (∃ q, ThreadLists k.sched.links created q ∧
      (∀ p < threadPriorityMax,
        k.sched.readyPrioGroup.getLsbD p = true ↔ q (.prio p) ≠ []) ∧
      (∀ p, ∀ t ∈ q (.prio p), (k.sched.thread t).currentPri = p ∧
        (k.sched.thread t).numberMask = (1 : BitVec 32) <<< p) ∧
      (∀ l, (q l).Nodup) ∧ (∀ t l l', t ∈ q l → t ∈ q l' → l = l') ∧
      ∀ c, k.sched.currentThread = some c → ∀ p, c ∉ q (.prio p)) ∧
    ∀ op : SchedOp, op.Allowed idle created k → ∃ fuel k', op.step fuel k = some k' := by
  have hinv := h.inv
  obtain ⟨q, hq⟩ := hinv.sched
  have hlists := hq.queues.lists
  refine ⟨⟨q, hlists, hq.queues.bit, ?_, hlists.nodup, fun t l l' => hlists.disjoint,
    fun c hc p => hq.current_free c hc (.prio p)⟩, fun op hop => (hinv.step op hop).1⟩
  intro p t ht
  have hpri := hq.queues.queued p t ht
  refine ⟨hpri, ?_⟩
  rw [hq.queues.mask t (hlists.mem_created ht), hpri]

/-- The started scheduler; its running thread can block on an IPC object. -/
theorem scheduler_structure_started :
    (∃ q, ThreadLists (startedKernel 1).sched.links [1, 0] q ∧ ∀ p, 1 ∉ q (.prio p)) ∧
      ∃ fuel k', (SchedOp.wait 0 ipcFlagPrio 10).step fuel (startedKernel 1) = some k' := by
  obtain ⟨⟨q, hlists, -, -, -, -, hcur⟩, hstep⟩ := scheduler_structure (reach_startedKernel 1)
  exact ⟨⟨q, hlists, hcur 1 rfl⟩, hstep _ (by decide)⟩

end SKernel.Spec
