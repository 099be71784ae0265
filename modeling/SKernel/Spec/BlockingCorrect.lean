import SKernel.Spec.SchedCorrect
import SKernel.Spec.TimerCorrect

/-!
# Blocking under interrupts

A blocking call has two parts: with interrupts disabled the current thread suspends itself
and possibly links itself on a wait list, then interrupts are enabled and it calls
`sk_schedule`. The timer interrupt may come in between. Here the parts are separate steps, and
a tick may happen between any two of them; `window t` says that thread `t` has finished the
first part of a blocking call but has not called `sk_schedule` yet.

A thread that has blocked is meant to stay off the ready queues, and on the wait list it has
joined, until it is resumed or timed out. A tick that ends the time slice of a thread in its
window breaks this: the yield flag makes its `stat` different from `SK_THREAD_SUSPEND`, so
`sk_schedule` puts the thread on a ready queue while it is still linked on the wait list.

## Key results

- `BlockInv.step`: every step without such a tick keeps the invariant
- `skTickIncrease_eq_loggedTick`: the tick of the runs is `sk_tick_increase`
-/

namespace SKernel.Spec

open Native Function List Option

/-! ## Steps -/

/-- A thread has blocked by calling `sk_thread_suspend`, which does not call `sk_schedule`, or in a
    blocking call, on no list or on the wait list of an IPC object. -/
inductive Blocking where
  | suspended
  | unlinked
  | linked (o : Nat)
  deriving DecidableEq

/-- The kernel, the threads between the two parts of a blocking call, and the threads that have
    suspended themselves and not been woken since. -/
structure BlockSys where
  k : Kernel
  created : List Tid
  window : Tid → Bool
  blocked : Tid → Option Blocking

/-- Thread `c` runs, is not the idle thread, and is free to make a call. -/
def BlockSys.Runs (x : BlockSys) (idle c : Tid) : Prop :=
  x.k.sched.currentThread = some c ∧ c ≠ idle ∧ x.window c = false

/-- `sk_tick_increase`, with the threads that `sk_thread_timeout` was called for. -/
def loggedTick (fuel : Nat) (k : Kernel) : Option (Kernel × List Tid) :=
  match tickIncrease (fun r => (r.1.bind tickSlice, r.2))
      (logged fun t s => s.bind (skThreadTimeout · t)) fuel k.timers (some k.sched, []) with
  | some (timers, some sched, fired) => some ({ sched, timers }, fired)
  | _ => none

/-- The parts of the calls of the running thread, and the timer interrupt, in states that meet
    `guard`. -/
inductive BlockStep (idle : Tid) (guard : Sched → Prop) : BlockSys → BlockSys → Prop where
  | create {x : BlockSys} {c t : Tid} {priority : Nat} (slice : Nat) (hrun : x.Runs idle c)
      (ht : t ∉ x.created) (hp : priority < threadPriorityMax) :
      BlockStep idle guard x
        { x with k := skThreadCreate x.k t priority slice, created := t :: x.created }
  /-- `sk_thread_startup` up to its call of `sk_schedule` -/
  | startup {x : BlockSys} {c t : Tid} (hrun : x.Runs idle c) (ht : t ∈ x.created)
      (hti : t ≠ idle) :
      BlockStep idle guard x
        { x with k := { x.k with sched := x.k.sched.setStat t threadSuspend } }
  | suspend {x : BlockSys} {c t : Tid} (hrun : x.Runs idle c) (ht : t ∈ x.created)
      (hti : t ≠ idle) :
      BlockStep idle guard x
        { x with
          k := (skThreadSuspend x.k t).2
          blocked := if t = c ∧ (skThreadSuspend x.k t).1 = .eok
            then update x.blocked c (some .suspended) else x.blocked }
  | resume {x : BlockSys} {c t : Tid} (hrun : x.Runs idle c) (ht : t ∈ x.created) :
      BlockStep idle guard x
        { x with
          k := (skThreadResume x.k t).2
          blocked := if (skThreadResume x.k t).1 = .eok
            then update x.blocked t none else x.blocked }
  | sleep {x : BlockSys} {c : Tid} {k' : Kernel} (ticks : Nat) (hrun : x.Runs idle c)
      (hsleep : threadSleepBlock x.k ticks = some k') :
      BlockStep idle guard x
        { x with
          k := k'
          window := update x.window c true
          blocked := update x.blocked c (some .unlinked) }
  | wait {x : BlockSys} {c : Tid} {k' : Kernel} (fuel o : Nat) (flag : BitVec 8) (time : Int)
      (hrun : x.Runs idle c) (hwait : ipcBlock fuel x.k (.wait o) flag time = some k') :
      BlockStep idle guard x
        { x with
          k := k'
          window := update x.window c true
          blocked := update x.blocked c
            (some (if flag = ipcFlagFifo ∨ flag = ipcFlagPrio then .linked o else .unlinked)) }
  /-- the call of `sk_schedule` that ends a blocking call, or any other call of it -/
  | schedule {x : BlockSys} {c : Tid} {k' : Kernel} (hc : x.k.sched.currentThread = some c)
      (hci : c ≠ idle) (hsched : thenSchedule x.k = some k') :
      BlockStep idle guard x { x with k := k', window := update x.window c false }
  | tick {x : BlockSys} {k' : Kernel} {fired : List Tid} (fuel : Nat)
      (hguard : guard x.k.sched) (htick : loggedTick fuel x.k = some (k', fired)) :
      BlockStep idle guard x
        { x with k := k', blocked := fun t => if t ∈ fired then none else x.blocked t }

/-- The states reached from a started scheduler with empty wait lists. -/
inductive BlockReach (idle : Tid) (guard : Sched → Prop) : BlockSys → Prop where
  | init {created : List Tid} {k : Kernel} (h : SchedReach idle created k)
      (hstarted : k.sched.currentThread ≠ none)
      (hwait : ∀ o, skListEmpty k.sched.links (.head (.wait o)) = true) :
      BlockReach idle guard ⟨k, created, fun _ => false, fun _ => none⟩
  | step {x x' : BlockSys} (h : BlockReach idle guard x) (hstep : BlockStep idle guard x x') :
      BlockReach idle guard x'

/-- The tick does not both find the current thread suspended and end its time slice. -/
def NoYieldInWindow (s : Sched) : Prop :=
  ∀ c, s.currentThread = some c → (s.thread c).stat = threadSuspend →
    remainTickDec (s.thread c) ≠ 0

/-! ## The invariant -/

/-- What the blocked threads look like. -/
structure BlockedThreads (created : List Tid) (s : Sched) (q : ListHead → List Tid)
    (blocked : Tid → Option Blocking) : Prop where
  created : ∀ t b, blocked t = some b → t ∈ created
  stat : ∀ t b, blocked t = some b → (s.thread t).stat = threadSuspend
  off_ready : ∀ t b, blocked t = some b → ∀ p, t ∉ q (.prio p)
  linked : ∀ t o, t ∈ q (.wait o) ↔ blocked t = some (.linked o)

/-- The part of the invariant that does not concern the timers; `c` is the current thread. -/
structure BlockCore (idle : Tid) (created : List Tid) (window : Tid → Bool) (s : Sched)
    (q : ListHead → List Tid) (blocked : Tid → Option Blocking) (c : Tid) : Prop where
  atSchedule : AtSchedule idle created s q c
  current_stat :
    ((s.thread c).stat = threadRunning ∨ (s.thread c).stat = threadRunning ||| threadYield) ∨
      ((s.thread c).stat = threadSuspend ∧ c ≠ idle)
  threads : BlockedThreads created s q blocked
  outside : window c = false → blocked c = none ∨ blocked c = some .suspended

variable {idle : Tid} {created fired : List Tid} {window : Tid → Bool} {s : Sched}
variable {q : ListHead → List Tid} {blocked : Tid → Option Blocking} {c t : Tid} {k : Kernel}
variable {fuel slice : Nat}

/-- Outside a window the current thread is on no list. -/
theorem BlockCore.free (h : BlockCore idle created window s q blocked c)
    (hw : window c = false) (l : ListHead) : c ∉ q l := by
  cases l with
  | prio p => exact h.atSchedule.off_ready p
  | wait o =>
    rw [h.threads.linked]
    intro hb
    cases h.outside hw with
    | inl hnone =>
      rw [hnone] at hb
      cases hb
    | inr hsusp =>
      rw [hsusp] at hb
      cases hb

theorem BlockCore.schedInv (h : BlockCore idle created window s q blocked c)
    (hfree : ∀ l, c ∉ q l) : SchedInv idle created s q := by
  have hat := h.atSchedule
  have hcur : ∀ e, s.currentThread = some e → e = c := by
    intro e he
    rw [hat.current] at he
    exact (some.inj he).symm
  refine ⟨hat.queues, ?_, ?_, ?_, fun _ => hat.idle_created, ?_⟩
  · intro e he
    rw [hcur e he]
    exact hat.current_created
  · intro e he
    rw [hcur e he]
    exact hfree
  · intro e he
    rw [hcur e he]
    exact h.current_stat
  · intro _
    by_cases hci : c = idle
    · rw [← hci]
      exact .inl hat.current
    · exact .inr (hat.idle_ready hci)

/-- The invariant from that of completed calls. -/
theorem SchedInv.blockCore (h : SchedInv idle created s q) (hc : s.currentThread = some c)
    (hb : BlockedThreads created s q blocked)
    (hout : window c = false → blocked c = none ∨ blocked c = some .suspended) :
    BlockCore idle created window s q blocked c :=
  ⟨h.atSchedule hc, h.current_stat c hc, hb, hout⟩

namespace BlockedThreads

variable (h : BlockedThreads created s q blocked)
include h

variable {s' : Sched} {q' : ListHead → List Tid}

theorem reschedule {d : Tid} (hres : Rescheduled s s' q q' c d) :
    BlockedThreads created s' q' blocked := by
  have hnot : ∀ t b, blocked t = some b → ¬ (t = c ∧ Requeued s c) := by
    rintro t b hb ⟨rfl, hre⟩
    exact hre.1 (h.stat t b hb)
  refine ⟨h.created, ?_, ?_, ?_⟩
  · intro t b hb
    by_cases htd : t = d
    · -- the selected thread was ready, or nothing has changed
      subst htd
      by_cases htc : t = c
      · rw [(hres.stay htc).1]
        exact h.stat t b hb
      · obtain ⟨p, hp⟩ := hres.selected htc
        exact absurd hp (h.off_ready t b hb p)
    · rw [hres.thread t htd (hnot t b hb)]
      exact h.stat t b hb
  · intro t b hb p hin
    cases hres.ready t p hin with
    | inl hold => exact h.off_ready t b hb p hold
    | inr hnew => exact hnot t b hb hnew
  · intro t o
    rw [hres.wait o]
    exact h.linked t o

/-- A thread that `sk_schedule` selects is not blocked. -/
theorem unblocked {d : Tid} (hres : Rescheduled s s' q q' c d) : blocked d = none := by
  cases hb : blocked d with
  | none => rfl
  | some b =>
    by_cases hdc : d = c
    · have hstat := h.stat d b hb
      rw [hdc] at hstat
      exact absurd hstat (hres.stay hdc).2.1
    · obtain ⟨p, hp⟩ := hres.selected hdc
      exact absurd hp (h.off_ready d b hb p)

theorem wake (hq : Queues created s q) (t : Tid) :
    BlockedThreads created (threadWake s t) (wokenQueues s t q)
      (update blocked t none) := by
  have hne : ∀ u b, update blocked t none u = some b → u ≠ t ∧ blocked u = some b :=
    fun _ _ => update_none_eq_some.mp
  refine ⟨?_, ?_, ?_, ?_⟩
  · intro u b hb
    exact h.created u b (hne u b hb).2
  · intro u b hb
    obtain ⟨hut, hb'⟩ := hne u b hb
    rw [threadWake_thread, if_neg hut]
    exact h.stat u b hb'
  · intro u b hb p hin
    obtain ⟨hut, hb'⟩ := hne u b hb
    cases hq.mem_wokenQueues_prio.mp hin with
    | inl hold => exact h.off_ready u b hb' p hold.2
    | inr hnew => exact hut hnew.1
  · intro u o
    rw [wokenQueues_wait, (hq.lists.nodup _).mem_erase_iff]
    by_cases hut : u = t
    · subst hut
      simp
    · rw [update_of_ne hut, h.linked u o]
      simp [hut]

theorem congr {created' : List Tid} (hsub : ∀ t ∈ created, t ∈ created')
    (hstat : ∀ t b, blocked t = some b → (s'.thread t).stat = threadSuspend)
    (hready : ∀ t b, blocked t = some b → ∀ p, t ∈ q' (.prio p) → t ∈ q (.prio p))
    (hwait : ∀ t o, t ∈ q' (.wait o) ↔ t ∈ q (.wait o)) : BlockedThreads created' s' q' blocked :=
  ⟨fun t b hb => hsub t (h.created t b hb), hstat,
    fun t b hb p hin => h.off_ready t b hb p (hready t b hb p hin),
    fun t o => (hwait t o).trans (h.linked t o)⟩

/-- The current thread blocks. -/
theorem block {b : Blocking} (hc : c ∈ created) (hstat : (s'.thread c).stat = threadSuspend)
    (hthread : ∀ u, u ≠ c → s'.thread u = s.thread u) (hoff : ∀ p, c ∉ q (.prio p))
    (hready : ∀ p, q' (.prio p) = q (.prio p))
    (hwait : ∀ t o, t ∈ q' (.wait o) ↔ if t = c then b = .linked o else t ∈ q (.wait o)) :
    BlockedThreads created s' q' (update blocked c (some b)) := by
  refine ⟨?_, ?_, ?_, ?_⟩
  · intro t b' hb
    by_cases htc : t = c
    · rw [htc]
      exact hc
    · rw [update_of_ne htc] at hb
      exact h.created t b' hb
  · intro t b' hb
    by_cases htc : t = c
    · rw [htc]
      exact hstat
    · rw [update_of_ne htc] at hb
      rw [hthread t htc]
      exact h.stat t b' hb
  · intro t b' hb p
    rw [hready p]
    by_cases htc : t = c
    · rw [htc]
      exact hoff p
    · rw [update_of_ne htc] at hb
      exact h.off_ready t b' hb p
  · intro t o
    rw [hwait t o]
    by_cases htc : t = c
    · subst htc
      simp
    · rw [if_neg htc, update_of_ne htc]
      exact h.linked t o

end BlockedThreads

namespace BlockCore

variable (h : BlockCore idle created window s q blocked c)
include h

theorem schedule : ∃ s' q' d, skSchedule s = some s' ∧ SchedInv idle created s' q' ∧
      s'.currentThread = some d ∧ BlockedThreads created s' q' blocked ∧ blocked d = none := by
  obtain ⟨s', q', d, hrun, hinv, hres⟩ := h.atSchedule.schedule
  exact ⟨s', q', d, hrun, hinv, hres.current, h.threads.reschedule hres, h.threads.unblocked hres⟩

theorem timeout (ht : t ∈ created) : ∃ s' q' d, skThreadTimeout s t = some s' ∧
      BlockCore idle created window s' q' (update blocked t none) d := by
  have hat := h.atSchedule.wake ht
  have hthreads := h.threads.wake h.atSchedule.queues t
  obtain ⟨s', q', d, hrun, hinv, hres⟩ := hat.schedule
  exact ⟨s', q', d, hrun, hinv.blockCore hres.current (hthreads.reschedule hres)
    fun _ => .inl (hthreads.unblocked hres)⟩

/-- A current thread whose time slice ends is not suspended. -/
theorem requeued (hguard : NoYieldInWindow s)
    (hdec : remainTickDec (s.thread c) = 0) : Requeued s c := by
  apply requeued_of_running
  cases h.current_stat with
  | inl hst => exact hst
  | inr hst => exact absurd hdec (hguard c h.atSchedule.current hst.1)

/-- At the end of a time slice `sk_schedule` finds the current thread on no list. -/
theorem sliceExpired (hguard : NoYieldInWindow s) (hdec : remainTickDec (s.thread c) = 0) :
    AtSchedule idle created (Native.sliceExpired s c) q c :=
  (h.schedInv (h.atSchedule.free (h.requeued hguard hdec))).sliceExpired h.atSchedule.current

theorem tickSlice (hguard : NoYieldInWindow s) : ∃ s' q' d, Native.tickSlice s = some s' ∧
      BlockCore idle created window s' q' blocked d := by
  have hat := h.atSchedule
  rw [tickSlice_of_current hat.current]
  split
  · rename_i hdec
    have hre := h.requeued hguard hdec
    have hexp := h.sliceExpired hguard hdec
    have hthreads : BlockedThreads created (Native.sliceExpired s c) q blocked := by
      refine h.threads.congr (fun _ ht => ht) ?_ (fun _ _ _ _ hin => hin) (fun _ _ => Iff.rfl)
      intro t b hb
      have htc : t ≠ c := by
        intro heq
        exact hre.1 (heq ▸ h.threads.stat t b hb)
      rw [sliceExpired_thread, if_neg htc]
      exact h.threads.stat t b hb
    obtain ⟨s', q', d, hrun, hinv, hres⟩ := hexp.schedule
    exact ⟨s', q', d, hrun, hinv.blockCore hres.current (hthreads.reschedule hres)
    fun _ => .inl (hthreads.unblocked hres)⟩
  · refine ⟨_, q, c, rfl, hat.countDown _, ?_, ?_, h.outside⟩
    · rw [setThread_thread, if_pos rfl]
      exact h.current_stat
    · refine h.threads.congr (fun _ ht => ht) ?_ (fun _ _ _ _ hin => hin) (fun _ _ => Iff.rfl)
      intro t b hb
      rw [setThread_thread]
      split
      · rename_i htc
        rw [← htc]
        exact h.threads.stat t b hb
      · exact h.threads.stat t b hb

end BlockCore

/-! ## Runs -/

theorem ThreadTimers.loggedTick {created : List Tid} {k' : Kernel}
    (h : ThreadTimers created k.timers) (htick : Spec.loggedTick fuel k = some (k', fired))
    {P : Option Sched × List Tid → Prop}
    (hP : ∀ t ∈ created, isDue { k.timers with skTick := k.timers.tickAfter 1 } t = true →
      ∀ r, P r → P (logged (fun t s => s.bind (skThreadTimeout · t)) t r))
    (hP0 : P ((some k.sched).bind tickSlice, [])) :
    ThreadTimers created k'.timers ∧ P (some k'.sched, fired) := by
  obtain ⟨-, hres⟩ := h.check _ (k.timers.tickAfter 1) hP hP0
  unfold Spec.loggedTick tickIncrease at htick
  split at htick
  · rename_i hrun
    cases htick
    exact hres _ _ _ hrun
  · cases htick

theorem skTickIncrease_eq_loggedTick (fuel : Nat) (k : Kernel) :
    skTickIncrease fuel k = (loggedTick fuel k).map Prod.fst := by
  let cb : Tid → Option Sched → Option Sched := fun t s => s.bind (skThreadTimeout · t)
  have hcb : ∀ t r, Prod.fst (logged cb t r) = cb t r.1 := fun _ _ => rfl
  have hmap := timerCheckLoop_map (f := Prod.fst) hcb fuel
    (k.timers.links.next .head) { k.timers with skTick := k.timers.tickAfter 1 }
    ((some k.sched).bind tickSlice, [])
  unfold skTickIncrease loggedTick tickIncrease skTimerCheck
  dsimp only at hmap ⊢
  rw [hmap]
  split
  · rename_i heq
    rw [map_eq_some_iff] at heq
    obtain ⟨⟨tm, r, fired⟩, hrun, heq⟩ := heq
    cases heq
    rw [hrun]
    rfl
  · rename_i hnone
    split
    · rename_i heq
      exact absurd (by rw [heq]; rfl) (hnone _ _)
    · rfl

/-- The invariant of the runs. -/
def BlockInv (idle : Tid) (x : BlockSys) : Prop :=
  ∃ q c, BlockCore idle x.created x.window x.k.sched q x.blocked c ∧
    ThreadTimers x.created x.k.timers

namespace BlockInv

variable {x : BlockSys}

section

variable (h : BlockInv idle x)
include h

section

variable (hrun : x.Runs idle c)
include hrun

/-- Outside a window the current thread is on no list. -/
theorem running : ∃ q, BlockCore idle x.created x.window x.k.sched q x.blocked c ∧
      ThreadTimers x.created x.k.timers ∧ (∀ l, c ∉ q l) ∧
      SchedInv idle x.created x.k.sched q := by
  obtain ⟨q, e, hcore, htm⟩ := h
  obtain ⟨hc, -, hw⟩ := hrun
  cases hcore.atSchedule.current.symm.trans hc
  have hfree := hcore.free hw
  exact ⟨q, hcore, htm, hfree, hcore.schedInv hfree⟩

theorem create (ht : t ∉ x.created) {priority : Nat}
    (hp : priority < threadPriorityMax) (slice : Nat) :
    BlockInv idle
      { x with k := skThreadCreate x.k t priority slice, created := t :: x.created } := by
  obtain ⟨q, hcore, htm, hfree, hinv⟩ := h.running hrun
  obtain ⟨hc, hci, -⟩ := hrun
  have hne : ∀ u b, x.blocked u = some b → u ≠ t := by
    intro u b hb heq
    exact ht (heq ▸ hcore.threads.created u b hb)
  have hcur : (skThreadCreate x.k t priority slice).sched.currentThread = some c := by
    unfold skThreadCreate
    dsimp only
    rw [skScheduleInsertThread_currentThread, setThread_currentThread, hc]
  refine ⟨_, c, (hinv.create ht hp slice).blockCore hcur ?_ hcore.outside, htm.create ht⟩
  refine hcore.threads.congr (fun u hu => mem_cons_of_mem t hu) ?_ ?_ ?_
  · intro u b hb
    unfold skThreadCreate
    dsimp only
    rw [skScheduleInsertThread_thread, if_neg (hne u b hb), setThread_thread,
      if_neg (hne u b hb)]
    exact hcore.threads.stat u b hb
  · intro u b hb p hin
    exact (mem_update_snoc.mp hin).resolve_right fun hu => hne u b hb hu.1
  · intro u o
    rw [update_of_ne (by simp)]

theorem startup (hti : t ≠ idle) :
    BlockInv idle { x with k := { x.k with sched := x.k.sched.setStat t threadSuspend } } := by
  obtain ⟨q, hcore, htm, hfree, hinv⟩ := h.running hrun
  obtain ⟨hc, hci, -⟩ := hrun
  refine ⟨q, c, (hinv.startup fun heq => absurd heq hti).blockCore hc ?_ hcore.outside, htm⟩
  refine hcore.threads.congr (fun _ hu => hu) ?_ (fun _ _ _ _ hin => hin) (fun _ _ => Iff.rfl)
  intro u b hb
  rw [setStat_thread]
  split
  · rfl
  · exact hcore.threads.stat u b hb

theorem suspend (ht : t ∈ x.created) (hti : t ≠ idle) : BlockInv idle
      { x with
        k := (skThreadSuspend x.k t).2
        blocked := if t = c ∧ (skThreadSuspend x.k t).1 = .eok
          then update x.blocked c (some .suspended) else x.blocked } := by
  obtain ⟨q, hcore, htm, hfree, hinv⟩ := h.running hrun
  obtain ⟨hc, hci, -⟩ := hrun
  have htm' := KernelInv.suspend_timers htm t
  rcases skThreadSuspend_cases x.k t with hsame | ⟨hstat, hok⟩
  · rw [hsame]
    simp only [reduceCtorEq, and_false, ↓reduceIte]
    exact ⟨q, c, hcore, htm⟩
  · -- a thread that can be suspended is not blocked
    have hnb : x.blocked t = none := by
      cases hb : x.blocked t with
      | none => rfl
      | some b => exact absurd (hcore.threads.stat t b hb) hstat
    have hnw : ∀ o, t ∉ q (.wait o) := by
      intro o hin
      rw [hcore.threads.linked, hnb] at hin
      cases hin
    rw [hok] at htm' ⊢
    have hinv' := hinv.remove ht hti
    have hcur : ((skScheduleRemoveThread x.k.sched t).setStat t threadSuspend).currentThread =
        some c := by
      rw [setStat_currentThread, skScheduleRemoveThread_currentThread, hc]
    have hthread : ∀ u, u ≠ t →
        ((skScheduleRemoveThread x.k.sched t).setStat t threadSuspend).thread u =
          x.k.sched.thread u := by
      intro u hu
      rw [setStat_thread, if_neg hu, skScheduleRemoveThread_thread]
    have hthreads : BlockedThreads x.created
        ((skScheduleRemoveThread x.k.sched t).setStat t threadSuspend)
        (fun l => (q l).erase t) x.blocked := by
      refine hcore.threads.congr (fun _ hu => hu) ?_ ?_ ?_
      · intro u b hb
        have hut : u ≠ t := by
          intro heq
          rw [heq, hnb] at hb
          cases hb
        rw [hthread u hut]
        exact hcore.threads.stat u b hb
      · intro u b hb p hin
        exact mem_of_mem_erase hin
      · intro u o
        rw [erase_of_not_mem (hnw o)]
    by_cases htc : t = c
    · subst htc
      simp only [and_self, ↓reduceIte]
      refine ⟨_, t, hinv'.blockCore hcur ?_ fun _ => .inr (update_self ..), htm'⟩
      refine hthreads.block ht (by rw [setStat_thread, if_pos rfl]) (fun _ _ => rfl)
        (fun p hin => hfree _ (mem_of_mem_erase hin)) (fun _ => rfl) ?_
      intro u o
      by_cases hut : u = t
      · subst hut
        simp [(hinv.queues.lists.nodup _).not_mem_erase]
      · simp [hut]
    · simp only [htc, false_and, ↓reduceIte]
      exact ⟨_, c, hinv'.blockCore hcur hthreads hcore.outside, htm'⟩

theorem resume (ht : t ∈ x.created) : BlockInv idle
      { x with
        k := (skThreadResume x.k t).2
        blocked := if (skThreadResume x.k t).1 = .eok
          then update x.blocked t none else x.blocked } := by
  obtain ⟨q, hcore, htm, hfree, hinv⟩ := h.running hrun
  obtain ⟨hc, hci, -⟩ := hrun
  unfold skThreadResume
  by_cases hstat : (x.k.sched.thread t).stat = threadSuspend
  · rw [if_neg (not_not.mpr hstat)]
    simp only [↓reduceIte]
    refine ⟨_, c, (hinv.wake ht).blockCore ?_ (hcore.threads.wake hinv.queues t) ?_, htm⟩
    · rw [threadWake_currentThread, hc]
    · intro hw
      dsimp only
      by_cases hct : c = t
      · rw [hct, update_self]
        exact .inl rfl
      · rw [update_of_ne hct]
        exact hcore.outside hw
  · rw [if_pos hstat]
    simp only [reduceCtorEq, ↓reduceIte]
    exact ⟨q, c, hcore, htm⟩

end

variable {k' : Kernel}

theorem sleep (hrun : x.Runs idle c) {ticks : Nat} (hsleep : threadSleepBlock x.k ticks = some k') :
    BlockInv idle
      { x with
        k := k'
        window := update x.window c true
        blocked := update x.blocked c (some .unlinked) } := by
  obtain ⟨q, hcore, htm, hfree, hinv⟩ := h.running hrun
  obtain ⟨hc, hci, -⟩ := hrun
  have hsusp := hinv.suspended_current hc hci
  have hcc := hcore.atSchedule.current_created
  unfold threadSleepBlock at hsleep
  rw [hc] at hsleep
  cases hsleep
  refine ⟨q, c, ⟨hsusp.atSchedule, .inr ⟨hsusp.stat, hci⟩, ?_, by simp⟩,
    (KernelInv.suspend_timers htm c).start hcc ticks⟩
  refine hcore.threads.block hcc hsusp.stat hsusp.thread (fun p => hfree _) (fun _ => rfl) ?_
  intro u o
  by_cases huc : u = c
  · subst huc
    simp [hfree]
  · simp [huc]

theorem wait (hrun : x.Runs idle c) {o : Nat} {flag : BitVec 8} {time : Int}
    (hwait : ipcBlock fuel x.k (.wait o) flag time = some k') :
    BlockInv idle
      { x with
        k := k'
        window := update x.window c true
        blocked := update x.blocked c
          (some (if flag = ipcFlagFifo ∨ flag = ipcFlagPrio then .linked o else .unlinked)) } := by
  obtain ⟨q, hcore, htm, hfree, hinv⟩ := h.running hrun
  obtain ⟨hc, hci, -⟩ := hrun
  have hcc := hcore.atSchedule.current_created
  unfold ipcBlock at hwait
  rw [hc] at hwait
  dsimp only at hwait
  rcases hinv.ipcListSuspend hc hci o flag fuel with
    ⟨hnone, -⟩ | ⟨k1, q1, hsome, htm1, hsusp, hlists⟩
  · rw [hnone] at hwait
    cases hwait
  · rw [hsome] at hwait
    have htm' : ThreadTimers x.created k1.timers := by
      rw [htm1]
      exact KernelInv.suspend_timers htm c
    -- starting the timer does not change the scheduler
    have hk' : k'.sched = k1.sched ∧ ThreadTimers x.created k'.timers := by
      simp only [map_some, some.injEq] at hwait
      rw [← hwait]
      split
      · exact ⟨rfl, htm'.start hcc _⟩
      · exact ⟨rfl, htm'⟩
    refine ⟨q1, c, ?_, hk'.2⟩
    dsimp only
    rw [hk'.1]
    refine ⟨hsusp.atSchedule, .inr ⟨hsusp.stat, hci⟩, ?_, by simp⟩
    rcases hlists with ⟨rfl, hflag⟩ | ⟨hflag, hen⟩
    · refine hcore.threads.block hcc hsusp.stat hsusp.thread (fun p => hfree _) (fun _ => rfl) ?_
      intro u o'
      by_cases huc : u = c
      · subst huc
        simp [hfree, hflag]
      · simp [huc]
    · refine hcore.threads.block hcc hsusp.stat hsusp.thread (fun p => hfree _) hen.prio ?_
      intro u o'
      rw [hen.mem_iff]
      by_cases huc : u = c
      · subst huc
        simp [hfree, hflag, eq_comm]
      · simp [huc]

theorem schedule (hc : x.k.sched.currentThread = some c) (hsched : thenSchedule x.k = some k') :
    BlockInv idle { x with k := k', window := update x.window c false } := by
  obtain ⟨q, e, hcore, htm⟩ := h
  cases hcore.atSchedule.current.symm.trans hc
  obtain ⟨s', q', d, hrun, hinv, hd, hthreads, hnone⟩ := hcore.schedule
  unfold thenSchedule at hsched
  rw [hrun] at hsched
  cases hsched
  exact ⟨q', d, hinv.blockCore hd hthreads fun _ => .inl hnone, htm⟩

theorem tick (hguard : NoYieldInWindow x.k.sched) (htick : loggedTick fuel x.k = some (k', fired)) :
    BlockInv idle
      { x with k := k', blocked := fun t => if t ∈ fired then none else x.blocked t } := by
  obtain ⟨q, e, hcore, htm⟩ := h
  obtain ⟨s1, q1, d1, hslice, hcore1⟩ := hcore.tickSlice hguard
  -- the threads timed out so far are not blocked any more
  let P : Option Sched × List Tid → Prop := fun r => ∃ s q d, r.1 = some s ∧
    BlockCore idle x.created x.window s q (fun t => if t ∈ r.2 then none else x.blocked t) d
  have hP : ∀ t ∈ x.created, ∀ r, P r →
      P (logged (fun t s => s.bind (skThreadTimeout · t)) t r) := by
    rintro t ht ⟨r, log⟩ ⟨s, q, d, hr, hcore⟩
    dsimp only at hr hcore
    subst hr
    obtain ⟨s', q', d', hrun, hcore'⟩ := hcore.timeout ht
    refine ⟨s', q', d', hrun, ?_⟩
    have hlog : update (fun u => if u ∈ log then none else x.blocked u) t none =
        fun u => if u ∈ log ++ [t] then none else x.blocked u := by
      funext u
      by_cases hut : u = t
      · subst hut
        simp
      · simp [hut]
    rw [hlog] at hcore'
    exact hcore'
  have hP1 : P ((some x.k.sched).bind tickSlice, []) := by
    refine ⟨s1, q1, d1, hslice, ?_⟩
    simpa using hcore1
  obtain ⟨htm', s2, q2, d2, heq, hcore2⟩ := htm.loggedTick htick (fun t ht _ => hP t ht) hP1
  cases heq
  exact ⟨q2, d2, hcore2, htm'⟩

theorem step {x' : BlockSys} (hstep : BlockStep idle NoYieldInWindow x x') : BlockInv idle x' := by
  cases hstep with
  | create slice hrun ht hp => exact h.create hrun ht hp slice
  | startup hrun _ hti => exact h.startup hrun hti
  | suspend hrun ht hti => exact h.suspend hrun ht hti
  | resume hrun ht => exact h.resume hrun ht
  | sleep ticks hrun hsleep => exact h.sleep hrun hsleep
  | wait fuel o flag time hrun hwait => exact h.wait hrun hwait
  | schedule hc _ hsched => exact h.schedule hc hsched
  | tick fuel hguard htick => exact h.tick hguard htick

end

/-- A started scheduler with empty wait lists. -/
theorem init (h : SchedReach idle created k) (hstarted : k.sched.currentThread ≠ none)
    (hwait : ∀ o, skListEmpty k.sched.links (.head (.wait o)) = true) :
    BlockInv idle ⟨k, created, fun _ => false, fun _ => none⟩ := by
  have hinv := h.inv
  obtain ⟨q, hq⟩ := hinv.sched
  obtain ⟨c, hc⟩ := ne_none_iff_exists'.mp hstarted
  refine ⟨q, c, hq.blockCore hc ⟨?_, ?_, ?_, ?_⟩ fun _ => .inl rfl, hinv.timers⟩
  · intro t b hb
    cases hb
  · intro t b hb
    cases hb
  · intro t b hb
    cases hb
  · intro t o
    rw [(hq.queues.lists.skListEmpty_iff (l := .wait o) trivial).mp (hwait o)]
    simp

end BlockInv

theorem BlockReach.inv {x : BlockSys} (h : BlockReach idle NoYieldInWindow x) :
    BlockInv idle x := by
  induction h with
  | init h hstarted hwait => exact BlockInv.init h hstarted hwait
  | step _ hstep ih => exact ih.step hstep

theorem loggedTick_of_no_timers (h : k.timers.links.next .head = .head) {n : Nat} :
    loggedTick (n + 1) k = (tickSlice k.sched).map fun s =>
      ({ sched := s, timers := { k.timers with skTick := k.timers.tickAfter 1 } }, []) := by
  unfold loggedTick tickIncrease skTimerCheck
  rw [h]
  simp only [timerCheckLoop, bind_some]
  cases tickSlice k.sched <;> rfl

/-- Thread 1 has blocked on wait list 0 for good, and is about to call `sk_schedule`. -/
def windowSys (slice : Nat) : BlockSys where
  k := (ipcBlock 0 (startedKernel slice) (.wait 0) ipcFlagFifo (-1)).getD (startedKernel slice)
  created := [1, 0]
  window := update (fun _ => false) 1 true
  blocked := update (fun _ => none) 1 (some (.linked 0))

/-- The idle thread, and thread 1, which runs. -/
theorem reach_startedSys (guard : Sched → Prop)
    (hc : (startedKernel slice).sched.currentThread = some 1) :
    BlockReach 0 guard ⟨startedKernel slice, [1, 0], fun _ => false, fun _ => none⟩ := by
  obtain ⟨q, hq, hwait, -⟩ := startedKernel_start slice
  refine .init (reach_startedKernel slice) (by rw [hc]; exact some_ne_none 1) ?_
  intro o
  exact (hq.queues.lists.skListEmpty_iff (l := .wait o) trivial).mpr (hwait o)

theorem reach_windowSys (guard : Sched → Prop)
    (hc : (startedKernel slice).sched.currentThread = some 1)
    (hblock : ipcBlock 0 (startedKernel slice) (.wait 0) ipcFlagFifo (-1) =
      some (windowSys slice).k) :
    BlockReach 0 guard (windowSys slice) :=
  (reach_startedSys guard hc).step (.wait 0 0 ipcFlagFifo (-1) ⟨hc, by decide, rfl⟩ hblock)

end SKernel.Spec
