import SKernel.Spec.WaitOrder

/-!
# Permits and waiters of a semaphore

Runs of `sk_sem_wait`, `sk_sem_trywait` and `sk_sem_post` on any number of semaphores, of
`sk_thread_timeout` on any thread and of `sk_schedule`, in any order. A call that blocks is
followed by `sk_schedule` at some later point.

As long as a semaphore has a permit, no thread waits for it: a wait takes the permit, and only a
post that finds the wait list empty leaves one.
-/

namespace SKernel.Spec

open Native Function Option

/-! ## The system -/

/-- The kernel, the threads and the semaphores. Semaphore `o` has the wait list `o`. -/
structure PermitSys where
  k : Kernel
  created : List Tid
  sem : Nat → Sem

/-- The calls, and the expiry of a thread's timer. -/
inductive PermitOp where
  | wait (o : Nat) (time : Int) (fuel : Nat)
  | trywait (o : Nat)
  | post (o : Nat)
  | timeout (t : Tid)
  | schedule

namespace PermitSys

/-- The state after a call on semaphore `o`, up to its call of `sk_schedule`. -/
def afterCall (x : PermitSys) (o : Nat) (r : CallEnd × Kernel × Sem) : PermitSys :=
  { x with k := r.2.1, sem := update x.sem o r.2.2 }

/-- The state after an event. Only a running thread waits. -/
def step (x : PermitSys) : PermitOp → Option PermitSys
  | .wait o time fuel =>
    if CallerRuns x.k then
      (skSemWait fuel x.k (x.sem o) (.wait o) time).map (x.afterCall o)
    else none
  | .trywait o =>
    if CallerRuns x.k then (skSemTrywait 0 x.k (x.sem o) (.wait o)).map (x.afterCall o) else none
  | .post o => (skSemPost x.k (x.sem o) (.wait o)).map (x.afterCall o)
  | .timeout t =>
    if t ∈ x.created then
      (skThreadTimeout x.k.sched t).map fun s => { x with k := { x.k with sched := s } }
    else none
  | .schedule => (thenSchedule x.k).map ({ x with k := · })

end PermitSys

/-- At first no thread waits, and every semaphore has some value and one of the two flags. -/
def permitSystem : TransitionSystem PermitSys PermitOp where
  init x := NoneWaiting x.created x.k.sched ∧
    ∀ o, ∃ value ≤ semValueMax, ∃ flag, (flag = ipcFlagFifo ∨ flag = ipcFlagPrio) ∧
      x.sem o = skSemInit value flag
  step := PermitSys.step

/-! ## The invariant -/

/-- The semaphore has a legal value, and a permit only if nobody waits. -/
def Exclusive (sem : Sem) (waiters : List Tid) : Prop :=
  sem.value ≤ semValueMax ∧ (0 < sem.value → waiters = [])

/-- The invariant of a run. -/
def PermitInv (x : PermitSys) (q : ListHead → List Tid) : Prop :=
  WaitInv x.created x.k.sched q ∧ ∀ o, Exclusive (x.sem o) (q (.wait o))

variable {x x' : PermitSys} {q : ListHead → List Tid} {o fuel : Nat} {t : Tid}
  {r : CallEnd × Kernel × Sem} {sem : Sem} {k : Kernel} {time : Int} {e : PermitOp}

theorem Exclusive.erase {waiters : List Tid} (h : Exclusive sem waiters) (t : Tid) :
    Exclusive sem (waiters.erase t) := by
  refine ⟨h.1, ?_⟩
  intro hpos
  rw [h.2 hpos]
  rfl

theorem skSemWait_cases (h : skSemWait fuel k sem (.wait o) time = some r) :
    (0 < sem.value ∧ r = (.ret .eok, k, { sem with value := sem.value - 1 })) ∨
    (sem.value = 0 ∧ r = (.ret .etimeout, k, sem)) ∨
    (sem.value = 0 ∧ ∃ k', ipcBlock fuel k (.wait o) sem.flag time = some k' ∧
      r = (.schedule, k', sem)) := by
  unfold skSemWait at h
  split at h
  · rename_i hpos
    cases h
    exact .inl ⟨hpos, rfl⟩
  · rename_i hzero
    have hvalue : sem.value = 0 := by omega
    split at h
    · cases h
      exact .inr (.inl ⟨hvalue, rfl⟩)
    · obtain ⟨k', hblock, rfl⟩ := map_eq_some_iff.mp h
      exact .inr (.inr ⟨hvalue, k', hblock, rfl⟩)

theorem skSemPost_cases (h : skSemPost k sem (.wait o) = some r) :
    (skListEmpty k.sched.links (.head (.wait o)) = true ∧ sem.value < semValueMax ∧
      r = (.ret .eok, k, { sem with value := sem.value + 1 })) ∨
    (semValueMax ≤ sem.value ∧ r = (.ret .efull, k, sem)) ∨
    ∃ t, ipcFirstThread k.sched (.wait o) = some t ∧
      r = (.schedule, (skThreadResume k t).2, sem) := by
  unfold skSemPost at h
  split at h
  · rename_i hempty
    split at h
    · rename_i hmax
      cases h
      exact .inl ⟨hempty, hmax, rfl⟩
    · rename_i hmax
      cases h
      exact .inr (.inl ⟨Nat.le_of_not_lt hmax, rfl⟩)
  · obtain ⟨t, hfirst, rfl⟩ := map_eq_some_iff.mp h
    exact .inr (.inr ⟨t, hfirst, rfl⟩)

namespace PermitInv

theorem setValue (h : PermitInv x q) (ho : Exclusive sem (q (.wait o)))
    (code : CallEnd) : PermitInv (x.afterCall o (code, x.k, sem)) q := by
  refine ⟨h.1, ?_⟩
  intro o'
  by_cases hoo : o' = o
  · subst hoo
    simpa [PermitSys.afterCall] using ho
  · simpa [PermitSys.afterCall, update_of_ne hoo] using h.2 o'

theorem of_lists {q' : ListHead → List Tid} (hinv : WaitInv x.created k.sched q')
    (hlists : ∀ o', Exclusive (x.sem o') (q' (.wait o'))) (code : CallEnd) :
    PermitInv (x.afterCall o (code, k, x.sem o)) q' := by
  refine ⟨hinv, ?_⟩
  intro o'
  simpa [PermitSys.afterCall] using hlists o'

/-- `sk_sem_wait` by a running thread. -/
theorem wait (h : PermitInv x q) (hrun : CallerRuns x.k)
    (hwait : skSemWait fuel x.k (x.sem o) (.wait o) time = some r) :
    ∃ q', PermitInv (x.afterCall o r) q' := by
  obtain ⟨hle, hexcl⟩ := h.2 o
  rcases skSemWait_cases hwait with ⟨hpos, rfl⟩ | ⟨-, rfl⟩ | ⟨hzero, k', hblock, rfl⟩
  · refine ⟨q, h.setValue ⟨?_, fun _ => hexcl hpos⟩ _⟩
    dsimp only
    omega
  · exact ⟨q, h.setValue (h.2 o) _⟩
  · -- there is no permit, so there may be one more waiting thread
    obtain ⟨c, hc, hok⟩ := hrun
    unfold ipcBlock at hblock
    rw [Option.mem_def.mp hc] at hblock
    obtain ⟨k1, hsuspend, rfl⟩ := map_eq_some_iff.mp hblock
    rcases h.1.ipcListSuspend (h.1.current_created c hc) hok o (x.sem o).flag fuel with
      ⟨hnone, -⟩ | ⟨k2, q', hsome, hinv, -, hother, -⟩
    · rw [hnone] at hsuspend
      cases hsuspend
    · cases hsome.symm.trans hsuspend
      refine ⟨q', .of_lists ?_ ?_ _⟩
      · split
        · exact hinv
        · exact hinv
      · intro o'
        by_cases hoo : o' = o
        · subst hoo
          exact ⟨hle, fun hpos => by omega⟩
        · rw [hother o' hoo]
          exact h.2 o'

theorem post (h : PermitInv x q) (hpost : skSemPost x.k (x.sem o) (.wait o) = some r) :
    ∃ q', PermitInv (x.afterCall o r) q' := by
  have hlists := h.1.queues.lists
  rcases skSemPost_cases hpost with ⟨hempty, hmax, rfl⟩ | ⟨-, rfl⟩ | ⟨t, hfirst, rfl⟩
  · have hnone := (hlists.skListEmpty_iff (l := .wait o) trivial).mp hempty
    have hnew : Exclusive { x.sem o with value := (x.sem o).value + 1 } (q (.wait o)) :=
      ⟨hmax, fun _ => hnone⟩
    exact ⟨q, h.setValue hnew _⟩
  · exact ⟨q, h.setValue (h.2 o) _⟩
  · have hin := hlists.mem_of_ipcFirstThread hfirst
    refine ⟨_, .of_lists (h.1.resume (hlists.mem_created hin) (h.1.resume_eok hin)).1 ?_ _⟩
    intro o'
    rw [wokenQueues_wait]
    exact (h.2 o').erase t

theorem timeout (h : PermitInv x q) (ht : t ∈ x.created) {s : Sched}
    (hs : skThreadTimeout x.k.sched t = some s) :
    ∃ q', PermitInv { x with k := { x.k with sched := s } } q' := by
  obtain ⟨q', hinv, hwait, -⟩ := h.1.timeout ht hs
  refine ⟨q', hinv, ?_⟩
  intro o
  rw [hwait o]
  exact (h.2 o).erase t

/-- Every event keeps the invariant. -/
theorem step (h : PermitInv x q) (hstep : x.step e = some x') :
    ∃ q', PermitInv x' q' := by
  cases e with
  | wait | trywait =>
    obtain ⟨hrun, hstep⟩ := ite_none_right_eq_some.mp hstep
    obtain ⟨r, hwait, rfl⟩ := map_eq_some_iff.mp hstep
    exact h.wait hrun hwait
  | post o =>
    obtain ⟨r, hpost, rfl⟩ := map_eq_some_iff.mp hstep
    exact h.post hpost
  | timeout t =>
    obtain ⟨ht, hstep⟩ := ite_none_right_eq_some.mp hstep
    obtain ⟨s, hs, rfl⟩ := map_eq_some_iff.mp hstep
    exact h.timeout ht hs
  | schedule =>
    simp only [PermitSys.step, thenSchedule, Option.map_map] at hstep
    obtain ⟨s, hs, rfl⟩ := map_eq_some_iff.mp hstep
    obtain ⟨q', hinv, hwait, -⟩ := h.1.schedule hs
    refine ⟨q', hinv, ?_⟩
    intro o
    rw [hwait o]
    exact h.2 o

theorem of_reach {guard : PermitSys → PermitOp → Prop} (h : permitSystem.Reach guard x) :
    ∃ q, PermitInv x q := by
  refine h.invariant (I := fun x => ∃ q, PermitInv x q) ?_ ?_
  · rintro x ⟨hnone, hsem⟩
    obtain ⟨q, hinv, hempty⟩ := hnone.waitInv
    refine ⟨q, hinv, ?_⟩
    intro o
    obtain ⟨value, hle, flag, -, hinit⟩ := hsem o
    rw [hinit, hempty o]
    exact ⟨hle, fun _ => rfl⟩
  · rintro x e x' ⟨q, hinv⟩ - hstep
    exact hinv.step hstep

end PermitInv

/-! ## The result -/

/-- By one at most, and never between 0 and the maximum. -/
theorem PermitSys.value_step (hstep : x.step e = some x') (o : Nat) :
    (x'.sem o).value = (x.sem o).value ∨ (x'.sem o).value = (x.sem o).value + 1 ∨
      (x.sem o).value = (x'.sem o).value + 1 := by
  -- the calls on one semaphore leave the others alone
  have hcall : ∀ o' (r : CallEnd × Kernel × Sem),
      (r.2.2.value = (x.sem o').value ∨ r.2.2.value = (x.sem o').value + 1 ∨
        (x.sem o').value = r.2.2.value + 1) →
      ((x.afterCall o' r).sem o).value = (x.sem o).value ∨
        ((x.afterCall o' r).sem o).value = (x.sem o).value + 1 ∨
        (x.sem o).value = ((x.afterCall o' r).sem o).value + 1 := by
    intro o' r hr
    by_cases hoo : o = o'
    · subst hoo
      simpa [PermitSys.afterCall] using hr
    · left
      simp [PermitSys.afterCall, update_of_ne hoo]
  have hwait : ∀ o' fuel time r, skSemWait fuel x.k (x.sem o') (.wait o') time = some r →
      r.2.2.value = (x.sem o').value ∨ r.2.2.value = (x.sem o').value + 1 ∨
        (x.sem o').value = r.2.2.value + 1 := by
    intro o' fuel time r hr
    rcases skSemWait_cases hr with ⟨hpos, rfl⟩ | ⟨-, rfl⟩ | ⟨-, k', -, rfl⟩
    · right
      right
      dsimp only
      omega
    · exact .inl rfl
    · exact .inl rfl
  cases e with
  | wait o' time fuel =>
    obtain ⟨-, hstep⟩ := ite_none_right_eq_some.mp hstep
    obtain ⟨r, hr, rfl⟩ := map_eq_some_iff.mp hstep
    exact hcall o' r (hwait o' fuel time r hr)
  | trywait o' =>
    obtain ⟨-, hstep⟩ := ite_none_right_eq_some.mp hstep
    obtain ⟨r, hr, rfl⟩ := map_eq_some_iff.mp hstep
    exact hcall o' r (hwait o' 0 0 r hr)
  | post o' =>
    obtain ⟨r, hr, rfl⟩ := map_eq_some_iff.mp hstep
    apply hcall o' r
    rcases skSemPost_cases hr with ⟨-, -, rfl⟩ | ⟨-, rfl⟩ | ⟨t, -, rfl⟩
    · exact .inr (.inl rfl)
    · exact .inl rfl
    · exact .inl rfl
  | timeout t =>
    obtain ⟨-, hstep⟩ := ite_none_right_eq_some.mp hstep
    obtain ⟨s, -, rfl⟩ := map_eq_some_iff.mp hstep
    exact .inl rfl
  | schedule =>
    obtain ⟨k, -, rfl⟩ := map_eq_some_iff.mp hstep
    exact .inl rfl

/-- **Semaphores never strand a waiter.** In every state reached by waits, posts, timer expiries and
    calls of `sk_schedule` in any order, a semaphore with a permit has an empty wait list, and its
    value is at most 65535. No event lets the value wrap: it changes by one at most. A post that
    returns `SK_EFULL` and a wait that returns `SK_ETIMEOUT` leave the semaphore and the kernel
    with all its lists as they are. -/
theorem semaphore_never_strands (h : permitSystem.Reach (fun _ _ => True) x) (o : Nat) :
    (∃ q, ThreadLists x.k.sched.links x.created q ∧ (0 < (x.sem o).value → q (.wait o) = [])) ∧
    (x.sem o).value ≤ 65535 ∧
    (∀ e x', x.step e = some x' → (x'.sem o).value = (x.sem o).value ∨
      (x'.sem o).value = (x.sem o).value + 1 ∨ (x.sem o).value = (x'.sem o).value + 1) ∧
    (∀ k sem, skSemPost x.k (x.sem o) (.wait o) = some (.ret .efull, k, sem) →
      k = x.k ∧ sem = x.sem o) ∧
    (∀ fuel time k sem,
      skSemWait fuel x.k (x.sem o) (.wait o) time = some (.ret .etimeout, k, sem) →
      k = x.k ∧ sem = x.sem o) ∧
    ∀ fuel k sem, skSemTrywait fuel x.k (x.sem o) (.wait o) = some (.ret .etimeout, k, sem) →
      k = x.k ∧ sem = x.sem o := by
  obtain ⟨q, hinv, hexcl⟩ := PermitInv.of_reach h
  -- a wait that times out at once has changed nothing
  have hwait : ∀ fuel time k sem,
      skSemWait fuel x.k (x.sem o) (.wait o) time = some (.ret .etimeout, k, sem) →
      k = x.k ∧ sem = x.sem o := by
    intro fuel time k sem hr
    rcases skSemWait_cases hr with ⟨-, heq⟩ | ⟨-, heq⟩ | ⟨-, k', -, heq⟩
    · cases heq
    · cases heq
      exact ⟨rfl, rfl⟩
    · cases heq
  refine ⟨⟨q, hinv.queues.lists, (hexcl o).2⟩, (hexcl o).1,
    fun e x' hstep => PermitSys.value_step hstep o, ?_, hwait, fun fuel => hwait fuel 0⟩
  intro k sem hr
  rcases skSemPost_cases hr with ⟨-, -, heq⟩ | ⟨-, heq⟩ | ⟨t, -, heq⟩
  · cases heq
  · cases heq
    exact ⟨rfl, rfl⟩
  · cases heq

/-- Three threads and semaphores without permits. -/
def trioPermitSys : PermitSys where
  k := trioSys.k
  created := trioSys.created
  sem := fun _ => skSemInit 0 ipcFlagPrio

/-- The threads 1 and 2 wait; the timer of thread 1 expires, and thread 1 posts twice: the first
    post resumes thread 2, and the second one leaves a permit. -/
theorem semaphore_never_strands_two :
    ∃ x, permitSystem.Reach (fun _ _ => True) x ∧ (x.sem 0).value = 1 ∧
      ∃ q, ThreadLists x.k.sched.links x.created q ∧ q (.wait 0) = [] := by
  have hinit : permitSystem.Reach (fun _ _ => True) trioPermitSys :=
    .init ⟨trioSys_started.noneWaiting, fun _ => ⟨0, by decide, ipcFlagPrio, .inr rfl, rfl⟩⟩
  obtain ⟨x, hx, hp⟩ := hinit.exists_of_run
    [.wait 0 10 4, .schedule, .wait 0 (-1) 4, .schedule, .timeout 1, .post 0, .schedule, .post 0]
    (fun x => (x.sem 0).value = 1) (by decide +kernel)
  have hvalue : (x.sem 0).value = 1 := of_decide_eq_true hp
  obtain ⟨⟨q, hlists, hempty⟩, -⟩ := semaphore_never_strands hx 0
  exact ⟨x, hx, hvalue, q, hlists, hempty (by omega)⟩

end SKernel.Spec
