import SKernel.ForStd.RoundRobin
import SKernel.Spec.SchedCorrect
import SKernel.Spec.TimerTermination

/-!
# Round robin among threads of one priority

While no timer is active, a tick only counts down the time slice of the current thread. When the
slice is over, the thread goes to the end of the queue of its priority, with its slice refilled,
and `sk_schedule` takes the first thread of that queue, as long as no queue of a higher priority
is in use. The threads of the highest priority are thus served in turn, as in
`SKernel.ForStd.RoundRobin`.
-/

namespace SKernel.Spec

open Native Function List

/-! ## Ticks without active timers -/

section Timers

variable {I : Type*} [DecidableEq I] {σ : Type*} {tm tm' : Timers I} {done rest xs : List I}
  {dom : Set (TimerNode I)} {i : I} {timeoutFunc : I → σ → σ} {fuel : Nat} {s s' : σ}

/-- No timer on the list is active. -/
def Quiet (dom : Set (TimerNode I)) (tm : Timers I) : Prop :=
  ∃ xs, TimerListOn dom tm xs ∧ ∀ i ∈ xs, (tm.timer i).isActive = false

private theorem skTimerStart_isActive (tm : Timers I) (i : I) :
    ((skTimerStart tm i).timer i).isActive = true := by
  simp [skTimerStart, timerRemove, Timers.setTimer]

variable (h : TimerListOn dom tm (done ++ rest))
include h

private theorem timerCheckLoop_active (hi : i ∈ done ++ rest)
    (hper : (tm.timer i).isPeriodic = true) (hactive : (tm.timer i).isActive = true)
    (hrun : timerCheckLoop timeoutFunc fuel (firstNode rest) tm s = some (tm', s')) :
    ¬ Quiet dom tm' := by
  induction fuel generalizing tm done rest s with
  | zero => cases hrun
  | succ fuel ih =>
    -- the list holds an active timer when the walk stops
    have hstop : ∀ s1, some (tm, s1) = some (tm', s') → ¬ Quiet dom tm' := by
      intro s1 heq hquiet
      cases heq
      obtain ⟨ys, hys, hinactive⟩ := hquiet
      have hmap := Links.Rings.unique hys h (Set.mem_singleton _)
      have heq : ys = done ++ rest := timer_injective.list_map hmap
      rw [heq] at hinactive
      rw [hinactive i hi] at hactive
      cases hactive
    cases rest with
    | nil => exact hstop s hrun
    | cons j rest =>
      simp only [firstNode] at hrun
      have happend : done ++ j :: rest = done ++ [j] ++ rest := append_cons done j rest
      obtain ⟨-, -, -, hloop⟩ | ⟨-, -, hloop⟩ | ⟨-, hshot, hloop⟩ | ⟨-, hloop⟩ :=
        timerCheckLoop_cases h timeoutFunc fuel s
      · rw [hloop] at hrun
        exact hstop _ hrun
      · rw [hloop] at hrun
        have hlist : TimerListOn dom (skTimerStart tm j) ([j] ++ (done ++ rest)) := h.restart
        have hi' : i ∈ [j] ++ (done ++ rest) := by
          simp only [mem_append, mem_cons] at hi ⊢
          tauto
        refine ih hlist hi' (by simpa using hper) ?_ hrun
        by_cases hij : i = j
        · rw [hij]
          exact skTimerStart_isActive tm j
        · rw [skTimerStart_timer_of_ne hij]
          exact hactive
      · -- timer `j` is not the periodic one
        rw [hloop] at hrun
        have hij : i ≠ j := by
          rintro rfl
          rw [hper] at hshot
          cases hshot
        have hsame : (timerDeactivate tm j).timer i = tm.timer i := by
          simp [timerDeactivate, Timers.setTimer, update_of_ne hij]
        rw [happend] at h hi
        have hlist : TimerListOn dom (timerDeactivate tm j) (done ++ [j] ++ rest) := h
        exact ih hlist hi (by rw [hsame]; exact hper) (by rw [hsame]; exact hactive) hrun
      · rw [hloop] at hrun
        rw [happend] at h hi
        exact ih h hi hper hactive hrun

/-- Nothing has been called back or restarted. -/
theorem timerCheckLoop_quiet (hinactive : ∀ i ∈ done ++ rest, (tm.timer i).isActive = false)
    (hrun : timerCheckLoop timeoutFunc fuel (firstNode rest) tm s = some (tm', s'))
    (hquiet : Quiet dom tm') : tm' = tm ∧ s' = s := by
  induction fuel generalizing done rest with
  | zero => cases hrun
  | succ fuel ih =>
    cases rest with
    | nil =>
      cases hrun
      exact ⟨rfl, rfl⟩
    | cons i rest =>
      simp only [firstNode] at hrun
      have hi := hinactive i (by simp)
      have happend : done ++ i :: rest = done ++ [i] ++ rest := append_cons done i rest
      obtain ⟨-, -, -, hloop⟩ | ⟨-, hper, hloop⟩ | ⟨-, -, hloop⟩ | ⟨-, hloop⟩ :=
        timerCheckLoop_cases h timeoutFunc fuel s
      · rw [hloop, afterCall_of_inactive hi] at hrun
        cases hrun
        exact ⟨rfl, rfl⟩
      · -- the restarted timer would be active afterwards
        rw [hloop] at hrun
        have hlist : TimerListOn dom (skTimerStart tm i) ([i] ++ (done ++ rest)) := h.restart
        exact absurd hquiet (timerCheckLoop_active hlist (by simp) (by simpa using hper)
          (skTimerStart_isActive tm i) hrun)
      · rw [hloop, timerDeactivate_of_inactive hi, afterCall_of_inactive hi] at hrun
        rw [happend] at h hinactive
        exact ih h hinactive hrun
      · rw [hloop] at hrun
        rw [happend] at h hinactive
        exact ih h hinactive hrun

private theorem timerCheckLoop_oneShots (hidle : ∀ i ∈ done ++ rest,
      (tm.timer i).isActive = false ∧ (tm.timer i).isPeriodic = false) :
    timerCheckLoop timeoutFunc (rest.length + 1) (firstNode rest) tm s = some (tm, s) := by
  induction rest generalizing done with
  | nil => rfl
  | cons i rest ih =>
    simp only [firstNode, length_cons]
    obtain ⟨hi, hshot⟩ := hidle i (by simp)
    have happend : done ++ i :: rest = done ++ [i] ++ rest := append_cons done i rest
    obtain ⟨-, -, -, hloop⟩ | ⟨-, hper, -⟩ | ⟨-, -, hloop⟩ | ⟨-, hloop⟩ :=
      timerCheckLoop_cases h timeoutFunc (rest.length + 1) s
    · rw [hloop, afterCall_of_inactive hi]
    · rw [hshot] at hper
      cases hper
    · rw [hloop, timerDeactivate_of_inactive hi, afterCall_of_inactive hi]
      rw [happend] at h hidle
      exact ih h hidle
    · rw [hloop]
      rw [happend] at h hidle
      exact ih h hidle

end Timers

variable {dom : Set (TimerNode Tid)} {xs : List Tid} {k k' : Kernel} {fuel m : Nat}

private theorem skTickIncrease_quiet (hquiet : Quiet dom k.timers) (hquiet' : Quiet dom k'.timers)
    (hrun : skTickIncrease fuel k = some k') :
    tickSlice k.sched = some k'.sched ∧
      k'.timers = { k.timers with skTick := k.timers.tickAfter 1 } := by
  obtain ⟨xs, hlist, hinactive⟩ := hquiet
  unfold skTickIncrease tickIncrease skTimerCheck at hrun
  split at hrun
  · rename_i tm' s' hcheck
    cases hrun
    have hstart : TimerListOn dom { k.timers with skTick := k.timers.tickAfter 1 } ([] ++ xs) :=
      hlist
    rw [hlist.next_head] at hcheck
    obtain ⟨htm, hs⟩ := timerCheckLoop_quiet hstart hinactive hcheck hquiet'
    exact ⟨hs.symm, htm⟩
  · cases hrun

private theorem skTickIncrease_oneShots {s' : Sched} (hlist : TimerListOn dom k.timers xs)
    (hidle : ∀ i ∈ xs,
      (k.timers.timer i).isActive = false ∧ (k.timers.timer i).isPeriodic = false)
    (hslice : tickSlice k.sched = some s') :
    skTickIncrease (xs.length + 1) k =
      some { sched := s', timers := { k.timers with skTick := k.timers.tickAfter 1 } } := by
  have hstart : TimerListOn dom { k.timers with skTick := k.timers.tickAfter 1 } ([] ++ xs) :=
    hlist
  unfold skTickIncrease tickIncrease skTimerCheck
  rw [hlist.next_head,
    timerCheckLoop_oneShots hstart hidle]
  simp only [Option.bind_some, hslice]

/-! ## The rotation -/

variable {created : List Tid} {p : Nat} {slice : Tid → Nat} {s : Sched}
  {q : ListHead → List Tid} {c : Tid} {rest : List Tid} {left : Nat}

private theorem scheduleSwitch_ticks (s : Sched) {c d : Tid} (hcd : c ≠ d) (t : Tid) :
    ((scheduleSwitch s c d).thread t).initTick = (s.thread t).initTick ∧
      ((scheduleSwitch s c d).thread t).remainTick = (s.thread t).remainTick := by
  rw [scheduleSwitch_thread s hcd]
  split
  · rename_i htd
    subst htd
    exact ⟨rfl, rfl⟩
  · split
    · rename_i htc
      rw [htc.1]
      exact ⟨rfl, rfl⟩
    · exact ⟨rfl, rfl⟩

/-- Thread `c` runs with `left` ticks of its slice left, `rest` are queued behind it with full
    slices, all of priority `p`, and no thread of a higher priority is ready. The other lists may
    hold any threads. -/
structure Rotation (created : List Tid) (p : Nat) (slice : Tid → Nat) (s : Sched)
    (q : ListHead → List Tid) (c : Tid) (rest : List Tid) (left : Nat) : Prop where
  queues : Queues created s q
  current : s.currentThread = some c
  current_created : c ∈ created
  current_free : ∀ l, c ∉ q l
  current_pri : (s.thread c).currentPri = p
  running : (s.thread c).stat = threadRunning ∨
    (s.thread c).stat = threadRunning ||| threadYield
  ready : q (.prio p) = rest
  highest : ∀ i < p, q (.prio i) = []
  /-- `init_tick` is at least 1 and fits its type -/
  initTick : ∀ t ∈ c :: rest,
    (s.thread t).initTick = slice t ∧ 1 ≤ slice t ∧ slice t < 2 ^ 64
  full : ∀ t ∈ rest, (s.thread t).remainTick = slice t
  remain : (s.thread c).remainTick = left ∧ 1 ≤ left ∧ left ≤ slice c

namespace Rotation

section

variable (h : Rotation created p slice s q c rest left)
include h

theorem nodup : (c :: rest).Nodup := by
  rw [nodup_cons, ← h.ready]
  exact ⟨h.current_free _, h.queues.lists.nodup _⟩

theorem remainTickDec : Native.remainTickDec (s.thread c) = left - 1 := by
  obtain ⟨hleft, hpos, hle⟩ := h.remain
  have hlt := (h.initTick c mem_cons_self).2.2
  unfold Native.remainTickDec
  rw [hleft]
  omega

/-- The slice is not over. -/
theorem countDown (hmore : left ≠ 1) :
    Rotation created p slice (s.setThread c { s.thread c with remainTick := left - 1 }) q c rest
      (left - 1) := by
  obtain ⟨hleft, hpos, hle⟩ := h.remain
  have hthread : ∀ u, (s.setThread c { s.thread c with remainTick := left - 1 }).thread u =
      if u = c then { s.thread c with remainTick := left - 1 } else s.thread u := fun u =>
    setThread_thread s c u _
  refine ⟨h.queues.setThread rfl rfl, h.current, h.current_created, h.current_free, ?_, ?_,
    h.ready, h.highest, ?_, ?_, ?_⟩
  · rw [hthread, if_pos rfl]
    exact h.current_pri
  · rw [hthread, if_pos rfl]
    exact h.running
  · intro t ht
    rw [hthread]
    split
    · rename_i htc
      subst htc
      exact h.initTick t ht
    · exact h.initTick t ht
  · intro t ht
    have htc : t ≠ c := by
      rintro rfl
      exact (nodup_cons.mp h.nodup).1 ht
    rw [hthread, if_neg htc]
    exact h.full t ht
  · rw [hthread, if_pos rfl]
    exact ⟨rfl, by omega, by omega⟩

theorem expired_stat : ((sliceExpired s c).thread c).stat = threadRunning ||| threadYield := by
  rw [sliceExpired_thread, if_pos rfl]
  rcases h.running with hrun | hrun
  · rw [hrun]
  · rw [hrun]
    rfl

private theorem expired_pri : ((sliceExpired s c).thread c).currentPri = p := by
  rw [sliceExpired_thread, if_pos rfl]
  exact h.current_pri

private theorem expired_ticks {t : Tid} (ht : t ∈ c :: rest) :
    ((sliceExpired s c).thread t).initTick = slice t ∧
      ((sliceExpired s c).thread t).remainTick = slice t := by
  rw [sliceExpired_thread]
  split
  · rename_i htc
    subst htc
    exact ⟨(h.initTick t ht).1, (h.initTick t ht).1⟩
  · rename_i htc
    exact ⟨(h.initTick t ht).1, h.full t (mem_of_ne_of_mem htc ht)⟩

end

private theorem eq_of_first {d d' : Tid} {p' : Nat} {ts : List Tid}
    (h : Rotation created p slice s q c (d :: rest) left) (hq : q (.prio p') = d' :: ts)
    (hlow : ∀ i, i < p' → q (.prio i) = []) : p' = p := by
  have hready := h.ready
  by_contra hne
  rcases lt_or_gt_of_ne hne with hlt | hgt
  · rw [h.highest p' hlt] at hq
    cases hq
  · rw [hlow p hgt] at hready
    cases hready

/-- The expired thread goes behind its equals. -/
theorem switchedQueues_ready {d : Tid} (h : Rotation created p slice s q c (d :: rest) left) :
    switchedQueues (sliceExpired s c) c d q (.prio p) = rest ++ [c] := by
  unfold switchedQueues
  rw [if_pos (requeued_of_running (.inr h.expired_stat)), h.expired_pri, update_self,
    h.ready, cons_append, erase_cons_head]

private theorem switchedQueues_other {d : Tid} (h : Rotation created p slice s q c (d :: rest) left)
    {l : ListHead} (hl : l ≠ .prio p) : switchedQueues (sliceExpired s c) c d q l = q l := by
  have hd : d ∈ q (.prio p) := by
    rw [h.ready]
    exact mem_cons_self
  unfold switchedQueues
  rw [if_pos (requeued_of_running (.inr h.expired_stat)), h.expired_pri, update_of_ne hl]
  exact erase_of_not_mem (h.queues.lists.notMem_of_ne hd hl)

/-- The expired thread goes to the end, with its slice refilled. -/
theorem switch {d : Tid} (h : Rotation created p slice s q c (d :: rest) 1) :
    ∃ s' q', skSchedule (sliceExpired s c) = some s' ∧
      Rotation created p slice s' q' d (rest ++ [c]) (slice d) ∧
      ∀ l, l ≠ .prio p → q' l = q l := by
  have hqueues : Queues created (sliceExpired s c) q := h.queues.setThread rfl rfl
  have hcd : c ≠ d := (ne_of_not_mem_cons (nodup_cons.mp h.nodup).1)
  rcases hqueues.skSchedule h.current (fun i => h.current_free _) with
    ⟨-, hnone⟩ | ⟨-, hrunning, -⟩ | ⟨d', p', ts, hrun, -, hq, hlow, -⟩
  · have hready := h.ready
    rw [hnone] at hready
    cases hready
  · -- the yield flag is set
    rw [h.expired_stat] at hrunning
    exact absurd hrunning (by decide)
  · have hp := h.eq_of_first hq hlow
    subst hp
    have hcons := h.ready.symm.trans hq
    cases hcons
    have hd : d ∈ q (.prio p') := by
      rw [h.ready]
      exact mem_cons_self
    have hticks : ∀ t ∈ c :: d :: rest,
        ((scheduleSwitch (sliceExpired s c) c d).thread t).initTick = slice t ∧
          ((scheduleSwitch (sliceExpired s c) c d).thread t).remainTick = slice t := by
      intro t ht
      obtain ⟨hinit, hremain⟩ := scheduleSwitch_ticks (sliceExpired s c) hcd t
      rw [hinit, hremain]
      exact h.expired_ticks ht
    -- the same threads, in another order
    have hmem : ∀ t ∈ d :: (rest ++ [c]), t ∈ c :: d :: rest := by
      intro t ht
      simp only [mem_cons, mem_append, not_mem_nil, or_false] at ht ⊢
      tauto
    have hd' : d ∈ c :: d :: rest := hmem d mem_cons_self
    refine ⟨_, _, hrun, ⟨hqueues.switch h.current_created hd hcd fun _ => h.current_free,
      scheduleSwitch_currentThread _ _ _, h.queues.lists.mem_created hd,
      hqueues.notMem_switchedQueues hd fun i => h.current_free _, ?_, ?_,
      h.switchedQueues_ready, ?_, ?_, ?_, ?_⟩, fun _ => h.switchedQueues_other⟩
    · rw [scheduleSwitch_thread _ hcd, if_pos rfl]
      exact hqueues.queued p' d hd
    · rw [scheduleSwitch_thread _ hcd, if_pos rfl]
      exact .inl rfl
    · intro i hi
      rw [h.switchedQueues_other (by simpa using Nat.ne_of_lt hi)]
      exact h.highest i hi
    · intro t ht
      exact ⟨(hticks t (hmem t ht)).1, (h.initTick t (hmem t ht)).2⟩
    · intro t ht
      exact (hticks t (hmem t (mem_cons_of_mem _ ht))).2
    · exact ⟨(hticks d hd').2, (h.initTick d hd').2.1, Nat.le_refl _⟩

theorem tick (h : Rotation created p slice s q c rest left) (hne : rest ≠ []) :
    ∃ s' q' c' rest' left', tickSlice s = some s' ∧
      RoundRobin.step slice (c :: rest, left) = (c' :: rest', left') ∧
      Rotation created p slice s' q' c' rest' left' ∧ rest' ≠ [] := by
  rw [tickSlice_of_current h.current, h.remainTickDec]
  by_cases hone : left = 1
  · subst hone
    obtain ⟨d, rest, rfl⟩ := exists_cons_of_ne_nil hne
    obtain ⟨s', q', hrun, hrot, -⟩ := h.switch
    exact ⟨s', q', d, rest ++ [c], slice d, hrun, rfl, hrot, by simp⟩
  · have hpos := h.remain.2.1
    rw [if_neg (by omega)]
    refine ⟨_, q, c, rest, left - 1, rfl, ?_, h.countDown hone, hne⟩
    simp only [RoundRobin.step, if_neg hone]

end Rotation

/-! ## Runs of ticks -/

/-- `m` ticks lead from `k` to `k'`, and no timer is active before or after any of them. -/
inductive TickRun (dom : Set (TimerNode Tid)) (k : Kernel) : Nat → Kernel → Prop where
  | start (h : Quiet dom k.timers) : TickRun dom k 0 k
  | tick {m : Nat} {k1 k2 : Kernel} {fuel : Nat} (h : TickRun dom k m k1)
      (hrun : skTickIncrease fuel k1 = some k2) (hquiet : Quiet dom k2.timers) :
      TickRun dom k (m + 1) k2

theorem TickRun.quiet (h : TickRun dom k m k') : Quiet dom k'.timers := by
  cases h with
  | start h => exact h
  | tick h hrun hquiet => exact hquiet

/-- After `m` ticks the round robin has done `m` steps. -/
theorem TickRun.rotation (h : TickRun dom k m k')
    (hrot : Rotation created p slice k.sched q c rest (slice c)) (hne : rest ≠ []) :
    ∃ q' c' rest' left', Rotation created p slice k'.sched q' c' rest' left' ∧ rest' ≠ [] ∧
      RoundRobin.Serving slice (c :: rest) m (c' :: rest', left') := by
  induction h with
  | start h =>
    have hpos := (hrot.initTick c mem_cons_self).2.1
    exact ⟨q, c, rest, slice c, hrot, hne, .start hpos rest⟩
  | tick h hrun hquiet ih =>
    obtain ⟨q1, c1, rest1, left1, hrot1, hne1, hserving⟩ := ih
    obtain ⟨s', q', c', rest', left', hslice, hstep, hrot', hne'⟩ := hrot1.tick hne1
    obtain ⟨hslice', -⟩ := skTickIncrease_quiet h.quiet hquiet hrun
    rw [hslice] at hslice'
    cases hslice'
    refine ⟨q', c', rest', left', hrot', hne', ?_⟩
    rw [← hstep]
    exact hserving.step (fun t ht => (hrot.initTick t ht).2.1) (cons_ne_nil c rest)

private theorem exists_tickRun (hrot : Rotation created p slice k.sched q c rest (slice c))
    (hne : rest ≠ []) (hlist : TimerListOn dom k.timers xs)
    (hidle : ∀ i ∈ xs,
      (k.timers.timer i).isActive = false ∧ (k.timers.timer i).isPeriodic = false) (m : Nat) :
    ∃ k', TickRun dom k m k' ∧ k'.timers.links = k.timers.links ∧
      k'.timers.timer = k.timers.timer := by
  induction m with
  | zero => exact ⟨k, .start ⟨xs, hlist, fun i hi => (hidle i hi).1⟩, rfl, rfl⟩
  | succ m ih =>
    obtain ⟨k1, hrun, hlinks, htimer⟩ := ih
    obtain ⟨q1, c1, rest1, left1, hrot1, hne1, -⟩ := hrun.rotation hrot hne
    obtain ⟨s', -, -, -, -, hslice, -⟩ := hrot1.tick hne1
    have hlist1 : TimerListOn dom k1.timers xs := by
      rw [TimerListOn, hlinks]
      exact hlist
    rw [← htimer] at hidle
    have htick := skTickIncrease_oneShots hlist1 hidle hslice
    exact ⟨_, .tick hrun htick ⟨xs, hlist1, fun i hi => (hidle i hi).1⟩, hlinks, htimer⟩

/-- **Round robin.** Two or more threads share the highest ready priority: `c` runs and the others
    are queued, with full slices of at least one tick. In every run of ticks without active timers
    the threads run in the cyclic order of the queue: after `m` ticks the current thread is the
    one whose turn it is, where turn number `j` belongs to the thread at position `j`, counted
    cyclically, and lasts for as many ticks as this thread's `init_tick`. No thread occurs twice
    in the order. With inactive one-shot timers there are such runs of any length. -/
theorem round_robin (hrot : Rotation created p slice k.sched q c rest (slice c))
    (hne : rest ≠ []) :
    (c :: rest).Nodup ∧
    (∀ dom m k', TickRun dom k m k' → ∃ j,
      RoundRobin.turnStart slice (c :: rest) j ≤ m ∧
      m < RoundRobin.turnStart slice (c :: rest) (j + 1) ∧
      k'.sched.currentThread = RoundRobin.turn (c :: rest) j) ∧
    ∀ dom xs, TimerListOn dom k.timers xs →
      (∀ i ∈ xs, (k.timers.timer i).isActive = false ∧ (k.timers.timer i).isPeriodic = false) →
      ∀ m, ∃ k', TickRun dom k m k' := by
  refine ⟨hrot.nodup, ?_, ?_⟩
  · intro dom m k' hrun
    obtain ⟨q', c', rest', left', hrot', -, hserving⟩ := hrun.rotation hrot hne
    obtain ⟨j, hle, hend, hpos, hturn⟩ := hserving.turn (cons_ne_nil c rest)
    dsimp only at hend hpos hturn
    refine ⟨j, hle, by omega, ?_⟩
    rw [hrot'.current, ← hturn, head?_cons]
  · intro dom xs hlist hidle m
    obtain ⟨k', hrun, -⟩ := exists_tickRun hrot hne hlist hidle m
    exact ⟨k', hrun⟩

/-- Threads 1 and 2 of priority 5 have slices of 2 and 3 ticks. Thread 1 runs, thread 2 is ready,
    none of a higher priority is, and no timer has been started. -/
def TwoThreads (created : List Tid) (k : Kernel) : Prop :=
  created = [2, 1, 0] ∧ k.sched.currentThread = some 1 ∧
  ThreadLists.threadsFrom k.sched.links 3 (k.sched.links.next (.head (.prio 5))) = some [2] ∧
  (∀ i < 5, k.sched.readyPrioGroup.getLsbD i = false) ∧
  (k.sched.thread 1).stat = threadRunning ∧ (k.sched.thread 1).currentPri = 5 ∧
  (∀ t ∈ [1, 2], (k.sched.thread t).initTick = t + 1 ∧ (k.sched.thread t).remainTick = t + 1) ∧
  k.timers.links.next .head = .head

instance (created : List Tid) (k : Kernel) : Decidable (TwoThreads created k) :=
  inferInstanceAs (Decidable (_ ∧ _))

private theorem exists_twoThreads :
    ∃ (k : Kernel) (q : ListHead → List Tid),
      Rotation [2, 1, 0] 5 (fun t => t + 1) k.sched q 1 [2] 2 ∧
      TimerListOn Set.univ k.timers [] := by
  obtain ⟨created, k, hreach, hk⟩ := SchedReach.exists_of_run 0 4
    [.create 0 31 32, .create 1 5 2, .create 2 5 3, .start] TwoThreads (by decide +kernel)
  obtain ⟨rfl, hcur, hready, hhigh, hstat, hpri, hticks, htimers⟩ := hk
  obtain ⟨q, hq⟩ := hreach.inv.sched
  have hvalid : ListHead.Valid (.prio 5) := by
    unfold ListHead.Valid
    decide
  refine ⟨k, q, ⟨hq.queues, hcur, by decide, hq.current_free 1 hcur, hpri, .inl hstat,
    hq.queues.lists.eq_of_threadsFrom hvalid hready, ?_, ?_, ?_, ?_⟩, ?_⟩
  · intro i hi
    by_contra hne
    have hbit := (hq.queues.bit i (Nat.lt_trans hi (by decide))).mpr hne
    rw [hhigh i hi] at hbit
    cases hbit
  · intro t ht
    refine ⟨(hticks t ht).1, Nat.succ_pos t, ?_⟩
    have hsmall : ∀ u ∈ [1, 2], u + 1 < 2 ^ 64 := by decide
    exact hsmall t ht
  · intro t ht
    exact (hticks t (mem_cons_of_mem 1 ht)).2
  · exact ⟨(hticks 1 (by simp)).2, by decide, by decide⟩
  · obtain ⟨xs, hxs, -⟩ := hreach.inv.timers
    have hnil : xs = [] := by
      rw [hxs.next_head] at htimers
      cases xs with
      | nil => rfl
      | cons i xs => cases htimers
    rw [← hnil]
    exact hxs

/-- Thread 2 runs in the third, fourth and fifth tick period. -/
theorem round_robin_two :
    ∃ (k : Kernel) (q : ListHead → List Tid),
      Rotation [2, 1, 0] 5 (fun t => t + 1) k.sched q 1 [2] 2 ∧
      (∀ m, ∃ k', TickRun Set.univ k m k') ∧
      ∀ k', TickRun Set.univ k 2 k' → k'.sched.currentThread = some 2 := by
  obtain ⟨k, q, hrot, hlist⟩ := exists_twoThreads
  obtain ⟨-, hturns, hruns⟩ := round_robin hrot (by simp)
  refine ⟨k, q, hrot, hruns _ _ hlist (by simp), ?_⟩
  intro k' hrun
  obtain ⟨j, hle, hlt, hcur⟩ := hturns _ _ _ hrun
  -- the turns before tick 2 and after tick 4 are those of thread 1
  have hone : j = 1 := by
    have hmono := RoundRobin.turnStart_mono (fun t : Tid => t + 1) [1, 2]
    by_contra hne
    rcases Nat.lt_or_gt_of_ne hne with hlow | hhigh
    · have hend : RoundRobin.turnStart _ _ (j + 1) ≤ 2 := hmono (show j + 1 ≤ 1 from hlow)
      exact Nat.not_lt_of_le hend hlt
    · have hstart : 5 ≤ RoundRobin.turnStart _ _ j := hmono (show 2 ≤ j from hhigh)
      exact absurd (Nat.le_trans hstart hle) (by decide)
  rw [hcur, hone]
  rfl

end SKernel.Spec
