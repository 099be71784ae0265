import SKernel.ForStd.Simulation
import SKernel.Spec.BlockingCorrect

/-!
# Waiting in IPC calls

The part that the blocking calls of the IPC objects have in common. A thread that has blocked
in a call on object `o` is suspended, and on the wait list of `o`, until the object is handed
to it; then it is resumed, runs again at some point and returns from the call. `waits t` is the
object whose call thread `t` has blocked in and not returned from, and `granted t o` says that
`o` has been handed to `t`.

This holds along the runs in which no tick puts a thread back on a ready queue that has
suspended itself, or times out a thread that is still waiting (`TickHarmless`).

## Key results

- `IpcInv.granted_of_runs`: a waiting thread that runs has been handed the object
- `IpcInv.wait`, `IpcInv.handOver`, `IpcInv.ret`, `IpcInv.elapse`: what keeps the invariant
-/

namespace SKernel.Spec

open Native Function Option

variable {idle : Tid} {x : BlockSys} {waits : Tid → Option Nat} {granted : Tid → Nat → Prop}
variable {c t : Tid} {o fuel ticks : Nat} {α κ : Type} {calls : Tid → Option α} {k : Kernel}

/-! ## The parts of the calls -/

/-- The events of a system with an IPC object: a call on it or the rest of one, and what the running
    thread and the timer do besides. -/
inductive IpcOp (κ : Type) where
  | call (call : κ)
  | sleep (ticks : Nat)
  | schedule
  | tick (fuel : Nat)

/-- The ticks come under a condition. -/
def IpcOp.OnTick (p : Prop) : IpcOp κ → Prop
  | .tick _ => p
  | _ => True

variable {op : IpcOp κ}

instance {p : Prop} [Decidable p] (op : IpcOp κ) : Decidable (op.OnTick p) :=
  match op with
  | .tick _ => inferInstanceAs (Decidable p)
  | .call _ | .sleep _ | .schedule => isTrue trivial

namespace BlockSys

/-- The thread that runs and is free to make a call. -/
def caller (idle : Tid) (x : BlockSys) : Option Tid :=
  x.k.sched.currentThread.filter fun c => c ≠ idle ∧ x.window c = false

theorem runs_of_caller (h : x.caller idle = some c) : x.Runs idle c := by
  unfold caller at h
  rw [filter_eq_some_iff] at h
  obtain ⟨hc, hfree⟩ := h
  simp only [Bool.decide_and, Bool.and_eq_true, decide_eq_true_eq] at hfree
  exact ⟨hc, hfree⟩

/-- The thread that runs and is in no call. -/
def free (idle : Tid) (x : BlockSys) (calls : Tid → Option α) : Option Tid :=
  (x.caller idle).filter fun c => (calls c).isNone

theorem of_free (h : x.free idle calls = some c) :
    x.caller idle = some c ∧ x.Runs idle c ∧ calls c = none := by
  unfold free at h
  rw [filter_eq_some_iff] at h
  exact ⟨h.1, runs_of_caller h.1, isNone_iff_eq_none.mp h.2⟩

/-- The caller has blocked on object `o`, and is about to call `sk_schedule`. -/
def wait (x : BlockSys) (c : Tid) (o : Nat) (flag : BitVec 8) (k : Kernel) : BlockSys :=
  { x with
    k := k
    window := update x.window c true
    blocked := update x.blocked c
      (some (if flag = ipcFlagFifo ∨ flag = ipcFlagPrio then .linked o else .unlinked)) }

/-- The caller has resumed thread `t`. -/
def resume (x : BlockSys) (t : Tid) (k : Kernel) : BlockSys :=
  { x with
    k := k
    blocked := update x.blocked t none }

/-- The running thread calls `sk_schedule`. -/
def schedule (x : BlockSys) : Option BlockSys :=
  x.k.sched.currentThread.bind fun c =>
    (thenSchedule x.k).map fun k => { x with k := k, window := update x.window c false }

/-- The caller goes to sleep, and is about to call `sk_schedule`. -/
def sleep (idle : Tid) (x : BlockSys) (ticks : Nat) : Option BlockSys :=
  (x.caller idle).bind fun c =>
    (threadSleepBlock x.k ticks).map fun k =>
      { x with
        k := k
        window := update x.window c true
        blocked := update x.blocked c (some .unlinked) }

/-- The timer interrupt. -/
def tick (x : BlockSys) (fuel : Nat) : Option BlockSys :=
  (loggedTick fuel x.k).map fun r =>
    { x with k := r.1, blocked := fun t => if t ∈ r.2 then none else x.blocked t }

/-- What happens besides the calls. -/
def elapse (idle : Tid) (x : BlockSys) (calls : Tid → Option α) : IpcOp κ → Option BlockSys
  | .call _ => none
  | .sleep ticks => (x.free idle calls).bind fun _ => x.sleep idle ticks
  | .schedule => x.schedule
  | .tick fuel => x.tick fuel

/-- A started scheduler with empty wait lists. -/
def Started (idle : Tid) (x : BlockSys) : Prop :=
  SchedReach idle x.created x.k ∧ x.k.sched.currentThread ≠ none ∧
    (∀ o, skListEmpty x.k.sched.links (.head (.wait o)) = true) ∧
    x.window = (fun _ => false) ∧ x.blocked = fun _ => none

end BlockSys

/-- The tick neither ends the slice of a suspended current thread, nor finds the timer of a waiting
    thread due. -/
def TickHarmless (x : BlockSys) (waits : Tid → Option Nat) (granted : Tid → Nat → Prop) : Prop :=
  NoYieldInWindow x.k.sched ∧
    ∀ t ∈ x.created, ∀ o ∈ waits t, ¬granted t o →
      isDue { x.k.timers with skTick := x.k.timers.tickAfter 1 } t = false

instance (s : Sched) : Decidable (NoYieldInWindow s) :=
  inferInstanceAs (Decidable (∀ c ∈ s.currentThread, (s.thread c).stat = threadSuspend →
    remainTickDec (s.thread c) ≠ 0))

instance [∀ t o, Decidable (granted t o)] : Decidable (TickHarmless x waits granted) :=
  inferInstanceAs (Decidable (_ ∧ _))

/-- The threads that have blocked stay suspended until they are woken. -/
def BlockSys.StaySuspended (x : BlockSys) (op : IpcOp κ) : Prop :=
  op.OnTick (NoYieldInWindow x.k.sched)

instance (x : BlockSys) (op : IpcOp κ) : Decidable (x.StaySuspended op) :=
  inferInstanceAs (Decidable (op.OnTick _))

theorem isDue_of_loggedTick {created : List Tid} {k' : Kernel} {fired : List Tid}
    (h : ThreadTimers created k.timers) (htick : loggedTick fuel k = some (k', fired))
    (ht : t ∈ fired) : isDue { k.timers with skTick := k.timers.tickAfter 1 } t = true := by
  -- the check calls back due timers only, which is an invariant of the logged calls
  let P : Option Sched × List Tid → Prop := fun r =>
    ∀ t ∈ r.2, isDue { k.timers with skTick := k.timers.tickAfter 1 } t = true
  refine (h.loggedTick (P := P) htick ?_ ?_).2 t ht
  · intro t _ hdue r hr
    exact List.forall_mem_snoc hr hdue
  · intro u hu
    cases hu

/-! ## The wait lists -/

/-- Thread `t` is on the wait list of object `o`. -/
def BlockSys.OnWaitList (x : BlockSys) (o : Nat) (t : Tid) : Prop :=
  ∃ q, ThreadLists x.k.sched.links x.created q ∧ t ∈ q (.wait o)

/-- Thread `t` is the first one on the wait list of object `o`. -/
structure BlockSys.FirstWaits (x : BlockSys) (o : Nat) (t : Tid) : Prop where
  first : ipcFirstThread x.k.sched (.wait o) = some t
  created : t ∈ x.created
  linked : x.blocked t = some (.linked o)
  stat : (x.k.sched.thread t).stat = threadSuspend

/-- No thread has joined a wait list. -/
def BlockSys.JoinsNone (x x' : BlockSys) : Prop :=
  ∀ t o, x'.blocked t = some (.linked o) → x.blocked t = some (.linked o)

namespace BlockInv

theorem onWaitList_iff (h : BlockInv idle x) :
    x.OnWaitList o t ↔ x.blocked t = some (.linked o) := by
  obtain ⟨q, e, hcore, -⟩ := h
  have hlists := hcore.atSchedule.queues.lists
  constructor
  · intro ⟨q', hlists', hin⟩
    cases hlists'.unique hlists
    exact (hcore.threads.linked t o).mp hin
  · intro hb
    exact ⟨q, hlists, (hcore.threads.linked t o).mpr hb⟩

theorem firstThread (h : BlockInv idle x)
    (hne : skListEmpty x.k.sched.links (.head (.wait o)) = false) :
    ∃ t, x.FirstWaits o t := by
  obtain ⟨q, e, hcore, -⟩ := h
  have hlists := hcore.atSchedule.queues.lists
  have hnext := hlists.next_head (l := .wait o) trivial
  cases hq : q (.wait o) with
  | nil =>
    rw [(hlists.skListEmpty_iff (l := .wait o) trivial).mpr hq] at hne
    cases hne
  | cons t ts =>
    rw [hq] at hnext
    have hin : t ∈ q (.wait o) := by
      rw [hq]
      exact List.mem_cons_self
    have hb := (hcore.threads.linked t o).mp hin
    refine ⟨t, ?_, hlists.mem_created hin, hb, hcore.threads.stat t _ hb⟩
    unfold ipcFirstThread
    rw [hnext]
    rfl

/-- Nobody is on an empty wait list. -/
theorem of_empty (h : BlockInv idle x)
    (hempty : skListEmpty x.k.sched.links (.head (.wait o)) = true) :
    ipcFirstThread x.k.sched (.wait o) = none ∧ ∀ t, x.blocked t ≠ some (.linked o) := by
  obtain ⟨q, e, hcore, -⟩ := h
  have hlists := hcore.atSchedule.queues.lists
  have hq := (hlists.skListEmpty_iff (l := .wait o) trivial).mp hempty
  constructor
  · unfold ipcFirstThread
    rw [of_decide_eq_true hempty]
  · intro t hb
    have hin := (hcore.threads.linked t o).mpr hb
    rw [hq] at hin
    cases hin

theorem not_blocked (h : BlockInv idle x) (hrun : x.Runs idle c) :
    x.blocked c ≠ some .unlinked ∧ ∀ o, x.blocked c ≠ some (.linked o) := by
  obtain ⟨q, e, hcore, -⟩ := h
  obtain ⟨hc, -, hw⟩ := hrun
  cases hcore.atSchedule.current.symm.trans hc
  cases hcore.outside hw with
  | inl hnone => simp [hnone]
  | inr hsusp => simp [hsusp]

theorem of_started (h : x.Started idle) : BlockInv idle x := by
  obtain ⟨hreach, hstarted, hwait, hwindow, hblocked⟩ := h
  obtain ⟨k, created, window, blocked⟩ := x
  dsimp only at hreach hstarted hwait hwindow hblocked
  subst hwindow hblocked
  exact BlockInv.init hreach hstarted hwait

theorem resume_blocked (h : BlockInv idle x) (hrun : x.Runs idle c) (ht : x.FirstWaits o t) :
    BlockInv idle (x.resume t (skThreadResume x.k t).2) := by
  have hresumed := h.resume hrun ht.created
  have hok : (skThreadResume x.k t).1 = .eok := by
    unfold skThreadResume
    rw [if_neg (not_not.mpr ht.stat)]
  rw [hok, if_pos rfl] at hresumed
  exact hresumed

variable {x' : BlockSys}

variable (h : BlockInv idle x)
include h

/-- A thread that goes to sleep joins no wait list. -/
theorem sleep_linked (hsleep : x.sleep idle ticks = some x') :
    BlockInv idle x' ∧ x.JoinsNone x' := by
  unfold BlockSys.sleep at hsleep
  obtain ⟨c, hc, hmap⟩ := bind_eq_some_iff.mp hsleep
  obtain ⟨k, hk, rfl⟩ := map_eq_some_iff.mp hmap
  refine ⟨h.sleep (BlockSys.runs_of_caller hc) hk, ?_⟩
  intro t o hb
  by_cases htc : t = c
  · simp only [htc, update_self, reduceCtorEq, some.injEq] at hb
  · simpa only [update_of_ne htc] using hb

/-- A tick lets no thread join a wait list. -/
theorem tick_linked (hguard : NoYieldInWindow x.k.sched)
    (htick : x.tick fuel = some x') : BlockInv idle x' ∧ x.JoinsNone x' := by
  unfold BlockSys.tick at htick
  obtain ⟨⟨k, fired⟩, hk, rfl⟩ := map_eq_some_iff.mp htick
  refine ⟨h.tick hguard hk, ?_⟩
  intro t o hb
  dsimp only at hb
  split at hb
  · cases hb
  · exact hb

theorem schedule_returns :
    ∃ x', x.schedule = some x' ∧ BlockInv idle x' ∧ x'.blocked = x.blocked := by
  obtain ⟨q, c, hcore, htm⟩ := h
  obtain ⟨s', q', d, hrun, hinv, hd, hthreads, hnone⟩ := hcore.schedule
  refine ⟨{ x with
    k := { x.k with sched := s' }
    window := update x.window c false }, ?_, ?_, rfl⟩
  · unfold BlockSys.schedule thenSchedule
    rw [hcore.atSchedule.current, hrun]
    rfl
  · exact ⟨q', d, hinv.blockCore hd hthreads fun _ => .inl hnone, htm⟩

theorem schedule_blocked (hsched : x.schedule = some x') :
    BlockInv idle x' ∧ x'.blocked = x.blocked := by
  obtain ⟨y, hy, hblock⟩ := h.schedule_returns
  cases hy.symm.trans hsched
  exact hblock

/-- Only a call lets a thread join a wait list. -/
theorem elapse (hguard : x.StaySuspended op)
    (he : x.elapse idle calls op = some x') : BlockInv idle x' ∧ x.JoinsNone x' := by
  cases op with
  | call => cases he
  | sleep ticks =>
    obtain ⟨c, -, hsleep⟩ := bind_eq_some_iff.mp he
    exact h.sleep_linked hsleep
  | schedule =>
    obtain ⟨hblock, heq⟩ := h.schedule_blocked he
    exact ⟨hblock, fun t o hb => heq ▸ hb⟩
  | tick fuel => exact h.tick_linked hguard he

end BlockInv

/-! ## The invariant -/

/-- The kernel runs as it should, and the threads on a wait list are those that are blocked in a
    call on its object. -/
structure IpcInv (idle : Tid) (x : BlockSys) (waits : Tid → Option Nat)
    (granted : Tid → Nat → Prop) : Prop where
  block : BlockInv idle x
  waiting : ∀ t o, waits t = some o → ¬granted t o →
    x.blocked t = some .unlinked ∨ x.blocked t = some (.linked o)
  linked : ∀ t o, x.blocked t = some (.linked o) → waits t = some o ∧ ¬granted t o

namespace IpcInv

theorem init (h : x.Started idle) : IpcInv idle x (fun _ => none) granted := by
  refine ⟨BlockInv.of_started h, by simp, ?_⟩
  intro t o hb
  rw [h.2.2.2.2] at hb
  cases hb

variable (h : IpcInv idle x waits granted)
include h

theorem granted_of_runs (hrun : x.Runs idle c) (hw : waits c = some o) : granted c o := by
  obtain ⟨hunlinked, hlinked⟩ := h.block.not_blocked hrun
  by_contra hg
  cases h.waiting c o hw hg with
  | inl hb => exact hunlinked hb
  | inr hb => exact hlinked o hb

theorem wait (hrun : x.Runs idle c) {flag : BitVec 8} {time : Int}
    (hblock : ipcBlock fuel x.k (.wait o) flag time = some k) (hg : ¬granted c o) :
    IpcInv idle (x.wait c o flag k) (update waits c (some o)) granted := by
  refine ⟨h.block.wait hrun hblock, ?_, ?_⟩
  · intro t o' hw hg'
    show update x.blocked c _ t = _ ∨ update x.blocked c _ t = _
    by_cases htc : t = c
    · subst htc
      rw [update_self] at hw ⊢
      cases hw
      split
      · exact .inr rfl
      · exact .inl rfl
    · rw [update_of_ne htc] at hw ⊢
      exact h.waiting t o' hw hg'
  · intro t o' hb
    change update x.blocked c _ t = _ at hb
    by_cases htc : t = c
    · subst htc
      rw [update_self] at hb ⊢
      split at hb
      · cases hb
        exact ⟨rfl, hg⟩
      · cases hb
    · rw [update_of_ne htc] at hb ⊢
      exact h.linked t o' hb

variable {granted' : Tid → Nat → Prop}

/-- For the threads other than the new one nothing changes. -/
theorem handOver (hrun : x.Runs idle c) (ht : x.FirstWaits o t) (hnew : granted' t o)
    (hold : ∀ u, u ≠ t → ∀ o', waits u = some o' → (granted' u o' ↔ granted u o')) :
    IpcInv idle (x.resume t (skThreadResume x.k t).2) waits granted' := by
  refine ⟨h.block.resume_blocked hrun ht, ?_, ?_⟩
  · intro u o' hw hg
    show update x.blocked t none u = _ ∨ update x.blocked t none u = _
    -- the new one waits for `o` only, and that has been granted
    have hut : u ≠ t := by
      intro heq
      subst heq
      rw [(h.linked u o ht.linked).1] at hw
      cases hw
      exact hg hnew
    rw [update_of_ne hut]
    exact h.waiting u o' hw (fun hg' => hg ((hold u hut o' hw).mpr hg'))
  · intro u o' hb'
    obtain ⟨hut, hb'⟩ := update_none_eq_some.mp hb'
    obtain ⟨hw, hg⟩ := h.linked u o' hb'
    exact ⟨hw, fun hg' => hg ((hold u hut o' hw).mp hg')⟩

/-- The caller returns with the object. -/
theorem ret (hrun : x.Runs idle c)
    (hold : ∀ u, u ≠ c → ∀ o', waits u = some o' → (granted' u o' ↔ granted u o')) :
    IpcInv idle x (update waits c none) granted' := by
  refine ⟨h.block, ?_, ?_⟩
  · intro u o' hw hg
    have huc : u ≠ c := by
      intro heq
      rw [heq, update_self] at hw
      cases hw
    rw [update_of_ne huc] at hw
    exact h.waiting u o' hw (fun hg' => hg ((hold u huc o' hw).mpr hg'))
  · intro u o' hb
    have huc : u ≠ c := by
      intro heq
      rw [heq] at hb
      exact (h.block.not_blocked hrun).2 o' hb
    rw [update_of_ne huc]
    obtain ⟨hw, hg⟩ := h.linked u o' hb
    exact ⟨hw, fun hg' => hg ((hold u huc o' hw).mp hg')⟩

/-- The caller waits for nothing, and no waiting thread is concerned. -/
theorem congr (hold : ∀ u o', waits u = some o' → (granted' u o' ↔ granted u o')) :
    IpcInv idle x waits granted' := by
  refine ⟨h.block, ?_, ?_⟩
  · intro u o' hw hg
    exact h.waiting u o' hw (fun hg' => hg ((hold u o' hw).mpr hg'))
  · intro u o' hb
    obtain ⟨hw, hg⟩ := h.linked u o' hb
    exact ⟨hw, fun hg' => hg ((hold u o' hw).mp hg')⟩

variable {x' : BlockSys}

theorem schedule (hsched : x.schedule = some x') :
    IpcInv idle x' waits granted := by
  unfold BlockSys.schedule at hsched
  obtain ⟨c, hc, hmap⟩ := bind_eq_some_iff.mp hsched
  obtain ⟨k, hk, rfl⟩ := map_eq_some_iff.mp hmap
  exact ⟨h.block.schedule hc hk, h.waiting, h.linked⟩

theorem sleep (hwaits : ∀ c, x.caller idle = some c → waits c = none)
    (hsleep : x.sleep idle ticks = some x') : IpcInv idle x' waits granted := by
  obtain ⟨hblock, hlinked⟩ := h.block.sleep_linked hsleep
  unfold BlockSys.sleep at hsleep
  obtain ⟨c, hc, hmap⟩ := bind_eq_some_iff.mp hsleep
  obtain ⟨k, -, rfl⟩ := map_eq_some_iff.mp hmap
  refine ⟨hblock, ?_, fun u o' hb => h.linked u o' (hlinked u o' hb)⟩
  intro u o' hw hg
  have huc : u ≠ c := by
    intro heq
    rw [heq, hwaits c hc] at hw
    cases hw
  simpa only [update_of_ne huc] using h.waiting u o' hw hg

theorem tick (hguard : TickHarmless x waits granted) (htick : x.tick fuel = some x') :
    IpcInv idle x' waits granted := by
  obtain ⟨hblock, hlinked⟩ := h.block.tick_linked hguard.1 htick
  unfold BlockSys.tick at htick
  obtain ⟨⟨k, fired⟩, hk, rfl⟩ := map_eq_some_iff.mp htick
  refine ⟨hblock, ?_, fun u o' hb => h.linked u o' (hlinked u o' hb)⟩
  intro u o' hw hg
  have hb := h.waiting u o' hw hg
  have hfired : u ∉ fired := by
    intro hin
    obtain ⟨q, e, hcore, htm⟩ := h.block
    have hcr : u ∈ x.created := by
      cases hb with
      | inl hb => exact hcore.threads.created u _ hb
      | inr hb => exact hcore.threads.created u _ hb
    have hdue := isDue_of_loggedTick htm hk hin
    rw [hguard.2 u hcr o' hw hg] at hdue
    cases hdue
  simpa only [if_neg hfired] using hb

theorem elapse (hguard : op.OnTick (TickHarmless x waits granted))
    (he : x.elapse idle waits op = some x') : IpcInv idle x' waits granted := by
  cases op with
  | call => cases he
  | sleep ticks =>
    obtain ⟨c, hc, hsleep⟩ := bind_eq_some_iff.mp he
    obtain ⟨hcaller, -, hwc⟩ := BlockSys.of_free hc
    refine h.sleep ?_ hsleep
    intro e he
    cases hcaller.symm.trans he
    exact hwc
  | schedule => exact h.schedule he
  | tick fuel => exact h.tick hguard he

end IpcInv

/-! ## Two and three threads -/

/-- The idle thread 0, a thread 1 of priority 5, which runs, and a thread 2 of priority 6. -/
def pairSys : BlockSys where
  k := skThreadCreate (startedKernel 32) 2 6 32
  created := [2, 1, 0]
  window := fun _ => false
  blocked := fun _ => none

theorem pairSys_started : pairSys.Started 0 := by
  obtain ⟨q, hq, hwait, -⟩ := startedKernel_start 32
  have hcreate := hq.create (t := 2) (by decide) (show 6 < 32 by decide) 32
  refine ⟨(reach_startedKernel 32).step (.create 2 6 32) 0 ⟨by decide, by decide⟩ rfl, ?_, ?_,
    rfl, rfl⟩
  · show (skThreadCreate (startedKernel 32) 2 6 32).sched.currentThread ≠ none
    decide
  · intro o
    refine (hcreate.queues.lists.skListEmpty_iff (l := .wait o) trivial).mpr ?_
    rw [update_of_ne (by simp), hwait o]

/-- A thread 3 of priority 7 besides. -/
def trioSys : BlockSys where
  k := skThreadCreate pairSys.k 3 7 32
  created := [3, 2, 1, 0]
  window := fun _ => false
  blocked := fun _ => none

theorem trioSys_started : trioSys.Started 0 := by
  obtain ⟨hreach, -, hwait, -⟩ := pairSys_started
  obtain ⟨q, hq⟩ := hreach.inv.sched
  have hcreate := hq.create (t := 3) (by decide) (show 7 < 32 by decide) 32
  refine ⟨hreach.step (.create 3 7 32) 0 ⟨by decide, by decide⟩ rfl, ?_, ?_, rfl, rfl⟩
  · show (skThreadCreate pairSys.k 3 7 32).sched.currentThread ≠ none
    decide
  · intro o
    refine (hcreate.queues.lists.skListEmpty_iff (l := .wait o) trivial).mpr ?_
    rw [update_of_ne (by simp)]
    exact (hq.queues.lists.skListEmpty_iff (l := .wait o) trivial).mp (hwait o)

end SKernel.Spec
