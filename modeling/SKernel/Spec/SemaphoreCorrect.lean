import SKernel.Native.Semaphore
import SKernel.Spec.IpcWait

/-!
# Conservation of semaphore permits

Threads wait for and post to semaphores, sleep, and are interrupted by the timer at any point
where interrupts are enabled. For each semaphore a tally is kept of the wait calls that have
returned `SK_EOK` or have been granted by a post, of the posts that succeed, and of the wait
calls that have returned `SK_EOK` although they have not consumed a permit. A post is counted
when it has changed the value or handed its permit over.

A blocked `sk_sem_wait` returns `SK_EOK` without looking at what woke it up. When the timer of
the thread has expired, this is wrong: no permit has been consumed. The same happens when a tick
ends the time slice of a thread that has blocked and has not called `sk_schedule` yet.
-/

namespace SKernel.Spec

open Native Function Option

/-! ## The system -/

/-- What has happened to a semaphore. -/
structure SemTally where
  /-- the value it was initialised with -/
  initial : Nat
  /-- the wait calls that have returned `SK_EOK` or have been granted by a post -/
  served : Nat
  /-- the posts that succeed -/
  posts : Nat
  /-- the wait calls that have returned `SK_EOK` without having consumed a permit -/
  unpaid : Nat

/-- The kernel, the semaphores, the threads blocked in `sk_sem_wait`, and those of them that a post
    has granted a permit. Semaphore `o` has the wait list `o`. -/
structure SemSys where
  sys : BlockSys
  sem : Nat → Sem
  waits : Tid → Option Nat
  granted : Tid → Bool
  tally : Nat → SemTally

/-- Calls of the running thread, and the return from a `sk_sem_wait` that has blocked. -/
inductive SemCall where
  | wait (o : Nat) (time : Int) (fuel : Nat)
  | trywait (o : Nat)
  | waitReturn
  | post (o : Nat)

namespace SemSys

/-- The thread has been granted a permit. -/
def Granted (x : SemSys) (t : Tid) (_ : Nat) : Prop := x.granted t = true

instance (x : SemSys) (t : Tid) (o : Nat) : Decidable (x.Granted t o) :=
  inferInstanceAs (Decidable (x.granted t = true))

/-- The state after the call `r` of `sk_sem_wait` or `sk_sem_trywait` by thread `c`. -/
def afterWait (x : SemSys) (c : Tid) (o : Nat) : CallEnd × Kernel × Sem → SemSys
  | (.ret code, k, s) =>
    { x with
      sys := { x.sys with k := k }
      sem := update x.sem o s
      tally := if code = .eok
        then update x.tally o { x.tally o with served := (x.tally o).served + 1 }
        else x.tally }
  | (.schedule, k, s) =>
    { x with
      sys := x.sys.wait c o (x.sem o).flag k
      sem := update x.sem o s
      waits := update x.waits c (some o) }

/-- A blocked `sk_sem_wait` by thread `c` returns `SK_EOK`. A permit granted to it has been counted
    already. -/
def waitReturn (x : SemSys) (c : Tid) : Option SemSys :=
  (x.waits c).map fun o =>
    { x with
      waits := update x.waits c none
      granted := update x.granted c false
      tally := if x.granted c then x.tally
        else update x.tally o
          { x.tally o with
            served := (x.tally o).served + 1
            unpaid := (x.tally o).unpaid + 1 } }

/-- `sk_sem_post`. If `sk_schedule` follows, the first waiting thread has been granted the
    permit. -/
def post (x : SemSys) (o : Nat) : Option SemSys :=
  match skSemPost x.sys.k (x.sem o) (.wait o) with
  | none => none
  | some (.ret code, k, s) => some
    { x with
      sys := { x.sys with k := k }
      sem := update x.sem o s
      tally := if code = .eok
        then update x.tally o { x.tally o with posts := (x.tally o).posts + 1 }
        else x.tally }
  | some (.schedule, k, s) =>
    (ipcFirstThread x.sys.k.sched (.wait o)).map fun t =>
      { x with
        sys := x.sys.resume t k
        sem := update x.sem o s
        granted := update x.granted t true
        tally := update x.tally o
          { x.tally o with
            served := (x.tally o).served + 1
            posts := (x.tally o).posts + 1 } }

/-- The state after an event. -/
def step (idle : Tid) (x : SemSys) : IpcOp SemCall → Option SemSys
  | .call (.wait o time fuel) => (x.sys.free idle x.waits).bind fun c =>
    (skSemWait fuel x.sys.k (x.sem o) (.wait o) time).map (x.afterWait c o)
  | .call (.trywait o) => (x.sys.free idle x.waits).bind fun c =>
    (skSemTrywait 0 x.sys.k (x.sem o) (.wait o)).map (x.afterWait c o)
  | .call .waitReturn => (x.sys.caller idle).bind x.waitReturn
  | .call (.post o) => (x.sys.free idle x.waits).bind fun _ => x.post o
  | op => (x.sys.elapse idle x.waits op).map fun sys => { x with sys := sys }

/-- The ticks are harmless. -/
def NoTimeout (x : SemSys) (op : IpcOp SemCall) : Prop :=
  op.OnTick (TickHarmless x.sys x.waits x.Granted)

instance (x : SemSys) (op : IpcOp SemCall) : Decidable (x.NoTimeout op) :=
  inferInstanceAs (Decidable (op.OnTick _))

/-- The waits served are the initial value and the posts, less the present value, and none has
    returned `SK_EOK` without a permit. -/
def Conserved (x : SemSys) : Prop :=
  ∀ o, ((x.tally o).served : Int) =
      (x.tally o).initial + (x.tally o).posts - (x.sem o).value ∧
    (x.tally o).unpaid = 0

end SemSys

/-- At first the scheduler has been started and every semaphore has been initialised. -/
def semSystem (idle : Tid) : TransitionSystem SemSys (IpcOp SemCall) where
  init x := x.sys.Started idle ∧ x.waits = (fun _ => none) ∧ x.granted = (fun _ => false) ∧
    ∀ o, ∃ value ≤ semValueMax, ∃ flag, x.sem o = skSemInit value flag ∧
      x.tally o = { initial := value, served := 0, posts := 0, unpaid := 0 }
  step := SemSys.step idle

/-! ## The invariant -/

/-- The permits of one semaphore are conserved. -/
def Balanced (s : Sem) (n : SemTally) : Prop :=
  n.served + s.value = n.initial + n.posts ∧ n.unpaid = 0

/-- The invariant of the runs. -/
structure SemInv (idle : Tid) (x : SemSys) : Prop where
  ipc : IpcInv idle x.sys x.waits x.Granted
  granted : ∀ t, x.granted t = true → x.waits t ≠ none
  balanced : ∀ o, Balanced (x.sem o) (x.tally o)

variable {idle : Tid} {x x' : SemSys} {c t : Tid} {o : Nat}

namespace SemInv

section

variable (h : SemInv idle x)
include h

theorem balanced_update {s : Sem} {n : SemTally} (ho : Balanced s n) (o' : Nat) :
    Balanced (update x.sem o s o') (update x.tally o n o') :=
  forall_update₂ (fun _ => Balanced) ho (fun o' _ => h.balanced o') o'

theorem wait (hc : x.sys.free idle x.waits = some c) {time : Int} {fuel : Nat}
    {r : CallEnd × Kernel × Sem}
    (hwait : skSemWait fuel x.sys.k (x.sem o) (.wait o) time = some r) :
    SemInv idle (x.afterWait c o r) := by
  obtain ⟨-, hrun, hwc⟩ := BlockSys.of_free hc
  obtain ⟨hsum, hunpaid⟩ := h.balanced o
  unfold skSemWait at hwait
  split at hwait
  · -- a permit is consumed at once
    rename_i hpos
    cases hwait
    refine ⟨h.ipc, h.granted, h.balanced_update ⟨?_, hunpaid⟩⟩
    dsimp only
    omega
  · split at hwait
    · cases hwait
      unfold SemSys.afterWait
      simp only [update_eq_self, reduceCtorEq, ↓reduceIte]
      exact h
    · -- the caller blocks, and has not been granted a permit
      obtain ⟨k, hblock, rfl⟩ := map_eq_some_iff.mp hwait
      have hng : ¬x.Granted c o := by
        intro hg
        exact h.granted c hg hwc
      unfold SemSys.afterWait
      simp only [update_eq_self]
      refine ⟨h.ipc.wait hrun hblock hng, ?_, h.balanced⟩
      intro t ht
      by_cases htc : t = c
      · simp [htc]
      · simpa [update_of_ne htc] using h.granted t ht

theorem waitReturn (hrun : x.sys.Runs idle c) (hret : x.waitReturn c = some x') :
    SemInv idle x' := by
  unfold SemSys.waitReturn at hret
  obtain ⟨o, hwc, rfl⟩ := map_eq_some_iff.mp hret
  have hg : x.granted c = true := h.ipc.granted_of_runs hrun hwc
  refine ⟨h.ipc.ret hrun ?_, ?_, ?_⟩
  · intro u huc o' _
    simp [SemSys.Granted, update_of_ne huc]
  · intro t ht
    dsimp only at ht ⊢
    have htc : t ≠ c := by
      intro heq
      rw [heq, update_self] at ht
      cases ht
    rw [update_of_ne htc] at ht ⊢
    exact h.granted t ht
  · simp only [hg, ↓reduceIte]
    exact h.balanced

/-- A post hands its permit to the first waiting thread. -/
theorem grant (hrun : x.sys.Runs idle c) (ht : x.sys.FirstWaits o t) :
    SemInv idle
      { x with
        sys := x.sys.resume t (skThreadResume x.sys.k t).2
        granted := update x.granted t true
        tally := update x.tally o
          { x.tally o with
            served := (x.tally o).served + 1
            posts := (x.tally o).posts + 1 } } := by
  obtain ⟨hsum, hunpaid⟩ := h.balanced o
  obtain ⟨hwt, -⟩ := h.ipc.linked t o ht.linked
  refine ⟨h.ipc.handOver hrun ht ?_ ?_, ?_, ?_⟩
  · exact update_self ..
  · intro u hut o' _
    simp [SemSys.Granted, update_of_ne hut]
  · intro u hu
    by_cases hut : u = t
    · rw [hut, hwt]
      exact some_ne_none o
    · exact h.granted u (by simpa [update_of_ne hut] using hu)
  · -- the value stays: the permit is posted and consumed in one step
    have hbal := h.balanced_update (o := o) (s := x.sem o)
      (n := { x.tally o with
        served := (x.tally o).served + 1
        posts := (x.tally o).posts + 1 }) ⟨by dsimp only; omega, hunpaid⟩
    simpa only [update_eq_self] using hbal

theorem post (hc : x.sys.free idle x.waits = some c) (hpost : x.post o = some x') :
    SemInv idle x' := by
  obtain ⟨-, hrun, hwc⟩ := BlockSys.of_free hc
  obtain ⟨hsum, hunpaid⟩ := h.balanced o
  unfold SemSys.post skSemPost at hpost
  by_cases hempty : skListEmpty x.sys.k.sched.links (.head (.wait o)) = true
  · -- nobody waits: the permit is kept, unless there are too many
    rw [if_pos hempty] at hpost
    by_cases hmax : (x.sem o).value < semValueMax
    · rw [if_pos hmax] at hpost
      cases hpost
      refine ⟨h.ipc, h.granted, h.balanced_update ⟨?_, hunpaid⟩⟩
      dsimp only
      omega
    · rw [if_neg hmax] at hpost
      simp only [update_eq_self, reduceCtorEq, ↓reduceIte] at hpost
      cases hpost
      exact h
  · obtain ⟨t, ht⟩ := h.ipc.block.firstThread (Bool.eq_false_iff.mpr hempty)
    rw [if_neg hempty, ht.first] at hpost
    simp only [map_some, update_eq_self] at hpost
    cases hpost
    exact h.grant hrun ht

theorem step {op : IpcOp SemCall} (hguard : x.NoTimeout op)
    (hstep : x.step idle op = some x') : SemInv idle x' := by
  cases op with
  | call call =>
    cases call with
    | wait | trywait =>
      obtain ⟨c, hc, hmap⟩ := bind_eq_some_iff.mp hstep
      obtain ⟨r, hwait, rfl⟩ := map_eq_some_iff.mp hmap
      exact h.wait hc hwait
    | waitReturn =>
      obtain ⟨c, hc, hret⟩ := bind_eq_some_iff.mp hstep
      exact h.waitReturn (BlockSys.runs_of_caller hc) hret
    | post o =>
      obtain ⟨c, hc, hpost⟩ := bind_eq_some_iff.mp hstep
      exact h.post hc hpost
  | sleep | schedule | tick =>
    obtain ⟨sys, hsys, rfl⟩ := map_eq_some_iff.mp hstep
    exact ⟨h.ipc.elapse hguard hsys, h.granted, h.balanced⟩

end

theorem init (h : (semSystem idle).init x) : SemInv idle x := by
  obtain ⟨hsys, hwaits, hgranted, hsem⟩ := h
  refine ⟨?_, ?_, ?_⟩
  · rw [hwaits]
    exact IpcInv.init hsys
  · intro t ht
    rw [hgranted] at ht
    cases ht
  · intro o
    obtain ⟨value, -, flag, hs, hn⟩ := hsem o
    rw [hs, hn]
    exact ⟨Nat.zero_add _, rfl⟩

theorem conserved (h : SemInv idle x) : x.Conserved := by
  intro o
  obtain ⟨hsum, hunpaid⟩ := h.balanced o
  exact ⟨by omega, hunpaid⟩

end SemInv

/-- **Semaphore conservation.** Along every run of waits, posts, sleeps and ticks, in which no
    tick times out a thread that still waits for a permit or ends the time slice of a suspended
    thread: the wait calls that have returned `SK_EOK` or have been granted are the initial value
    and the posts, less the present value, and each has consumed a permit. -/
theorem semaphore_conservation {x : SemSys} (h : (semSystem idle).Reach SemSys.NoTimeout x) :
    x.Conserved :=
  (h.invariant (fun _ => SemInv.init) fun _ _ _ hinv => hinv.step).conserved

/-- Two threads and semaphores of value 0. -/
def pairSemSys : SemSys where
  sys := pairSys
  sem := fun _ => skSemInit 0 ipcFlagFifo
  waits := fun _ => none
  granted := fun _ => false
  tally := fun _ => { initial := 0, served := 0, posts := 0, unpaid := 0 }

theorem reach_pairSemSys (guard : SemSys → IpcOp SemCall → Prop) :
    (semSystem 0).Reach guard pairSemSys :=
  .init ⟨pairSys_started, rfl, rfl, fun _ => ⟨0, by decide, ipcFlagFifo, rfl, rfl⟩⟩

/-- Thread 1 waits without a timeout, thread 2 posts after a tick, and thread 1 returns. -/
theorem semaphore_conservation_grant :
    ∃ x, (semSystem 0).Reach SemSys.NoTimeout x ∧ (x.tally 0).served = 1 ∧ x.Conserved := by
  obtain ⟨x, hx, hp⟩ := (reach_pairSemSys SemSys.NoTimeout).exists_of_run
    [.call (.wait 0 (-1) 0), .schedule, .tick 1, .call (.post 0), .schedule, .call .waitReturn]
    (fun x => (x.tally 0).served = 1) (by decide +kernel)
  exact ⟨x, hx, of_decide_eq_true hp, semaphore_conservation hx⟩

/-- Thread 1 waits for one tick and returns `SK_EOK`, although nobody has posted. -/
theorem semaphore_conservation_fails :
    ∃ x, (semSystem 0).Reach (fun _ _ => True) x ∧ ¬x.Conserved := by
  obtain ⟨x, hx, hp⟩ := (reach_pairSemSys fun _ _ => True).exists_of_run
    [.call (.wait 0 1 0), .schedule, .tick 2, .call .waitReturn]
    (fun x => (x.tally 0).unpaid = 1) (by decide +kernel)
  refine ⟨x, hx, ?_⟩
  intro hcons
  have hunpaid := (hcons 0).2
  rw [of_decide_eq_true hp] at hunpaid
  cases hunpaid

end SKernel.Spec
