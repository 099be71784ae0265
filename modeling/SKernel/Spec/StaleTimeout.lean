import SKernel.Spec.IpcCalls
import SKernel.Spec.TimerTermination

/-!
# Timeouts of waits that are over

A thread that blocks in an IPC call with a positive timeout has its timer started. When the thread
is resumed by a post, an unlock or a send, `sk_thread_resume` leaves the timer alone. The timer is
only stopped when the thread is suspended the next time. If it expires before that,
`sk_thread_timeout` moves the thread to the end of its ready queue, or lets it go on when it runs,
and calls `sk_schedule`.

The runs here are made of the calls of the IPC objects, of the thread calls, and of the steps of
`sk_tick_increase`: the time slice, and the visits of `sk_timer_check` to the timers one by one.

## Key results

- `ExpiryInv.step`: a thread that has been woken up before its timer runs or is ready
- `stale_timeout_iff`: when the late timeout changes nothing
-/

namespace SKernel.Spec

open Native Function List Option

/-! ## The system -/

/-- What the timer of a thread has been started for since the thread was last suspended. -/
inductive Armed where
  /-- a timed wait, in which the thread is still blocked -/
  | waiting
  /-- a timed wait, from which the thread has been resumed by a call on the object -/
  | woken
  /-- a sleep, or a wait that has ended in another way -/
  | other
  deriving DecidableEq

/-- The thread has been resumed by a call on the object. -/
def Armed.wake : Armed → Armed
  | .waiting => .woken
  | .woken => .woken
  | .other => .other

/-- The thread has been resumed in another way, or timed out. -/
def Armed.leave : Armed → Armed
  | .waiting => .other
  | .woken => .woken
  | .other => .other

/-- The kernel, the threads, where `sk_timer_check` stands, and what the timers have been started
    for. A thread's timer has its number. -/
structure ExpirySys where
  k : Kernel
  created : List Tid
  pc : CheckPc Tid
  armed : Tid → Option Armed

/-- The calls, and the steps of `sk_tick_increase`. -/
inductive ExpiryOp where
  | call (call : IpcCall) (fuel : Nat)
  | sleep (ticks : Nat)
  | suspend (t : Tid)
  | resume (t : Tid)
  | create (t : Tid) (priority slice : Nat)
  | schedule
  /-- the time slice, and the start of `sk_timer_check` -/
  | tick
  | visit
  | called

namespace ExpirySys

/-- No check of the timers is going on. -/
def atRest (x : ExpirySys) : Bool :=
  match x.pc with
  | .idle => true
  | .visit _ | .called _ => false

/-- The thread whose timer has expired, when `sk_timer_check` is about to call
    `sk_thread_timeout`. -/
def expiring (x : ExpirySys) : Option Tid :=
  match x.pc with
  | .called i => if (x.k.timers.timer i).isActive = true ∧ i ∈ x.created then some i else none
  | .idle | .visit _ => none

/-- What the timer of thread `t` has been started for, after a call with result `k`. -/
def armedAfter (x : ExpirySys) (call : IpcCall) (k : Kernel) (t : Tid) : Option Armed :=
  if (x.k.sched.thread t).stat = threadSuspend then
    if (k.sched.thread t).stat = threadSuspend then x.armed t else (x.armed t).map Armed.wake
  else if (k.sched.thread t).stat = threadSuspend then
    if 0 < call.timeout?.getD 0 then some .waiting else none
  else x.armed t

/-- The callback of the timer that has expired. The timers that do not belong to a thread leave the
    scheduler alone. -/
def callback (x : ExpirySys) : Option Sched :=
  match x.expiring with
  | some t => skThreadTimeout x.k.sched t
  | none => some x.k.sched

/-- What the timer of thread `t` has been started for, after the callback. -/
def armedLeft (x : ExpirySys) (t : Tid) : Option Armed :=
  if x.expiring = some t then (x.armed t).map Armed.leave else x.armed t

/-- No call is made during a check of the timers, and only a thread that runs makes a call that may
    block. -/
def step (x : ExpirySys) : ExpiryOp → Option ExpirySys
  | .call call fuel =>
    if x.atRest ∧ (call.timeout? ≠ none → CallerRuns x.k) then
      (call.run fuel x.k).map fun k => { x with k := k, armed := x.armedAfter call k }
    else none
  | .sleep ticks =>
    if x.atRest ∧ CallerRuns x.k then
      x.k.sched.currentThread.bind fun c => (threadSleepBlock x.k ticks).map fun k =>
        { x with k := k, armed := update x.armed c (some .other) }
    else none
  | .suspend t =>
    if x.atRest ∧ t ∈ x.created then
      some { x with
        k := (skThreadSuspend x.k t).2
        armed := if (skThreadSuspend x.k t).1 = .eok then update x.armed t none
          else x.armed }
    else none
  | .resume t =>
    if x.atRest ∧ t ∈ x.created then
      some { x with
        k := (skThreadResume x.k t).2
        armed := if (skThreadResume x.k t).1 = .eok
          then update x.armed t ((x.armed t).map Armed.leave) else x.armed }
    else none
  | .create t priority slice =>
    if x.atRest ∧ t ∉ x.created ∧ priority < threadPriorityMax then
      some { x with
        k := skThreadCreate x.k t priority slice
        created := t :: x.created
        armed := update x.armed t none }
    else none
  | .schedule => if x.atRest then (thenSchedule x.k).map fun k => { x with k := k } else none
  | .tick =>
    if x.atRest then
      (tickSlice x.k.sched).map fun s =>
        { x with
          k := { sched := s, timers := { x.k.timers with skTick := x.k.timers.tickAfter 1 } }
          pc := .visit (x.k.timers.links.next .head) }
    else none
  | .visit =>
    match x.pc with
    | .visit n => some { x with pc := timerCheckVisit x.k.timers n }
    | .idle | .called _ => none
  | .called =>
    match x.pc with
    | .called i =>
      x.callback.map fun s =>
        { x with
          k := { sched := s, timers := (timerCheckCalled x.k.timers i).2 }
          pc := (timerCheckCalled x.k.timers i).1
          armed := x.armedLeft }
    | .idle | .visit _ => none

/-- No tick ends the time slice of a thread that has been suspended and not called `sk_schedule`
    yet. -/
def NoYield (x : ExpirySys) : ExpiryOp → Prop
  | .tick => NoYieldInWindow x.k.sched
  | _ => True

instance (x : ExpirySys) (op : ExpiryOp) : Decidable (x.NoYield op) :=
  match op with
  | .tick => inferInstanceAs (Decidable (NoYieldInWindow x.k.sched))
  | .call .. | .sleep _ | .suspend _ | .resume _ | .create .. | .schedule | .visit | .called =>
    isTrue trivial

end ExpirySys

/-- At first the scheduler has been started and no thread waits. Some of the one-shot timers of the
    threads may have been started for a sleep. -/
def expirySystem : TransitionSystem ExpirySys ExpiryOp where
  init x := NoneWaiting x.created x.k.sched ∧ x.k.sched.currentThread ≠ none ∧ x.pc = .idle ∧
    (∀ t ∈ x.created, (x.k.timers.timer t).isPeriodic = false) ∧
    x.armed = fun t => if (x.k.timers.timer t).isActive then some .other else none
  step := ExpirySys.step

/-! ## The timers of the threads -/

section Timers

variable {tm : Timers Tid} {armed armed' : Tid → Option Armed} {created : List Tid} {t u : Tid}
variable {k : Kernel} {fuel : Nat} {flag : BitVec 8} {s : Sched}

/-- The threads have one-shot timers, and the active ones were started for something since the last
    suspension. -/
def TimersArmed (created : List Tid) (tm : Timers Tid) (armed : Tid → Option Armed) : Prop :=
  ∀ t ∈ created, (tm.timer t).isPeriodic = false ∧
    ((tm.timer t).isActive = true → armed t ≠ none)

private theorem skTimerStop_timer (tm : Timers Tid) (t u : Tid) :
    ((skTimerStop tm t).timer u).isPeriodic = (tm.timer u).isPeriodic ∧
      (((skTimerStop tm t).timer u).isActive = true →
        u ≠ t ∧ (tm.timer u).isActive = true) := by
  unfold skTimerStop
  by_cases hactive : (tm.timer t).isActive = true
  · rw [if_pos hactive]
    refine ⟨timerDeactivate_isPeriodic tm t u, ?_⟩
    show ((timerDeactivate tm t).timer u).isActive = true → _
    by_cases hut : u = t
    · subst hut
      simp [timerDeactivate, Timers.setTimer]
    · simp [timerDeactivate, Timers.setTimer, hut]
  · rw [if_neg hactive]
    refine ⟨rfl, fun h => ⟨?_, h⟩⟩
    rintro rfl
    exact hactive h

namespace TimersArmed

variable (h : TimersArmed created tm armed)
include h

theorem congr {tm' : Timers Tid}
    (hper : ∀ t ∈ created, (tm'.timer t).isPeriodic = (tm.timer t).isPeriodic)
    (hactive : ∀ t ∈ created, (tm'.timer t).isActive = true → armed' t = none →
      (tm.timer t).isActive = true ∧ armed t = none) : TimersArmed created tm' armed' := by
  intro t ht
  rw [hper t ht]
  refine ⟨(h t ht).1, fun htm hnone => ?_⟩
  obtain ⟨hold, harmed⟩ := hactive t ht htm hnone
  exact (h t ht).2 hold harmed

/-- A thread is suspended: its timer is stopped. -/
theorem stop (harmed : ∀ u, u ≠ t → armed' u = armed u) :
    TimersArmed created (skTimerStop tm t) armed' := by
  apply h.congr
  · intro u _
    exact (skTimerStop_timer tm t u).1
  · intro u _ hactive hnone
    obtain ⟨hut, hold⟩ := (skTimerStop_timer tm t u).2 hactive
    exact ⟨hold, by rw [← harmed u hut]; exact hnone⟩

theorem start (time : Nat) (hself : armed' t ≠ none) (harmed : ∀ u, u ≠ t → armed' u = armed u) :
    TimersArmed created (skTimerStart (skTimerSetTime tm t time) t) armed' := by
  have hset : ∀ u, ((skTimerSetTime tm t time).timer u).isPeriodic = (tm.timer u).isPeriodic := by
    intro u
    by_cases hut : u = t
    · subst hut
      simp [skTimerSetTime, Timers.setTimer, SysTimer.isPeriodic]
    · simp [skTimerSetTime, Timers.setTimer, update_of_ne hut]
  apply h.congr
  · intro u _
    rw [skTimerStart_isPeriodic, hset]
  · intro u _ hactive hnone
    have hut : u ≠ t := fun heq => hself (heq ▸ hnone)
    rw [skTimerStart_timer_of_ne hut] at hactive
    refine ⟨?_, by rw [← harmed u hut]; exact hnone⟩
    simpa [skTimerSetTime, Timers.setTimer, update_of_ne hut] using hactive

/-- No timer of a thread is started. -/
theorem called (i : Tid) (harmed : ∀ u, armed' u = none → armed u = none) :
    TimersArmed created (timerCheckCalled tm i).2 armed' := by
  unfold timerCheckCalled
  split
  · exact h.congr (fun _ _ => rfl) fun u _ hactive hnone => ⟨hactive, harmed u hnone⟩
  · dsimp only
    split
    · rename_i hper
      apply h.congr
      · intro u _
        rw [skTimerStart_isPeriodic]
      · intro u hu hactive hnone
        have hui : u ≠ i := by
          rintro rfl
          rw [(h u hu).1] at hper
          cases hper
        rw [skTimerStart_timer_of_ne hui] at hactive
        exact ⟨hactive, harmed u hnone⟩
    · apply h.congr
      · intro u _
        rw [timerDeactivate_isPeriodic]
      · intro u _ hactive hnone
        refine ⟨?_, harmed u hnone⟩
        by_cases hui : u = i
        · subst hui
          simp [timerDeactivate, Timers.setTimer] at hactive
        · simpa [timerDeactivate, Timers.setTimer, update_of_ne hui] using hactive

theorem create (harmed : ∀ u, u ≠ t → armed' u = armed u) :
    TimersArmed (t :: created) (timerInit tm t 0 timerFlagOneShot) armed' := by
  intro u hu
  by_cases hut : u = t
  · subst hut
    have hflag : (timerFlagOneShot &&& timerFlagPeriodic = 0) ∧
        timerFlagOneShot &&& timerFlagActive = 0 := by decide
    simp [timerInit, Timers.setTimer, SysTimer.isPeriodic, SysTimer.isActive, hflag]
  · rw [harmed u hut]
    simpa [timerInit, Timers.setTimer, update_of_ne hut] using
      h u ((mem_cons.mp hu).resolve_left hut)

end TimersArmed

end Timers

/-! ## What a run keeps -/

/-- A thread that has been resumed from a timed wait runs or is ready, until it is suspended
    again. -/
structure ExpiryInv (x : ExpirySys) (q : ListHead → List Tid) : Prop where
  wait : WaitInv x.created x.k.sched q
  started : x.k.sched.currentThread ≠ none
  awake : ∀ t, x.armed t = some .woken → Awake x.k.sched q t
  timers : TimersArmed x.created x.k.timers x.armed

theorem skThreadSuspend_of_eok {t : Tid} (hok : (skThreadSuspend k t).1 = .eok) :
    (k.sched.thread t).stat ≠ threadSuspend ∧
      (skThreadSuspend k t).2 =
        ⟨(skScheduleRemoveThread k.sched t).setStat t threadSuspend, skTimerStop k.timers t⟩ := by
  rcases skThreadSuspend_cases k t with herror | ⟨hstat, hrun⟩
  · rw [herror] at hok
    cases hok
  · rw [hrun]
    exact ⟨hstat, rfl⟩

private theorem ipcListSuspend_frame {k' : Kernel} {l : ListHead} {t : Tid}
    (h : ipcListSuspend fuel k l t flag = some k') :
    k'.timers = (skThreadSuspend k t).2.timers ∧
      k'.sched.thread = (skThreadSuspend k t).2.sched.thread ∧
      k'.sched.currentThread = (skThreadSuspend k t).2.sched.currentThread := by
  unfold ipcListSuspend at h
  dsimp only at h
  split at h
  · cases h
    exact ⟨rfl, rfl, rfl⟩
  · split at h
    · obtain ⟨n, -, rfl⟩ := map_eq_some_iff.mp h
      exact ⟨rfl, rfl, rfl⟩
    · cases h
      exact ⟨rfl, rfl, rfl⟩

namespace ExpirySys

variable {x x' : ExpirySys} {q : ListHead → List Tid} {t : Tid} {k : Kernel}

private theorem armedAfter_of_stat (call : IpcCall)
    (h : (k.sched.thread t).stat = (x.k.sched.thread t).stat) :
    x.armedAfter call k t = x.armed t := by
  unfold armedAfter
  rw [h]
  split
  · rfl
  · rfl

theorem armedAfter_suspended (call : IpcCall) (hold : (x.k.sched.thread t).stat ≠ threadSuspend)
    (hnew : (k.sched.thread t).stat = threadSuspend) :
    x.armedAfter call k t = if 0 < call.timeout?.getD 0 then some .waiting else none := by
  unfold armedAfter
  rw [if_neg hold, if_pos hnew]

theorem armedAfter_resumed (call : IpcCall) (hold : (x.k.sched.thread t).stat = threadSuspend) :
    x.armedAfter call k t = none → x.armed t = none := by
  unfold armedAfter
  rw [if_pos hold]
  split
  · exact id
  · exact map_eq_none_iff.mp

private theorem mem_of_expiring (h : x.expiring = some t) :
    x.pc = .called t ∧ (x.k.timers.timer t).isActive = true ∧ t ∈ x.created := by
  unfold expiring at h
  split at h
  · rename_i i hpc
    split at h
    · rename_i hactive
      cases h
      exact ⟨hpc, hactive⟩
    · cases h
  · cases h
  · cases h

private theorem armedLeft_eq_none (h : x.armedLeft t = none) : x.armed t = none := by
  unfold armedLeft at h
  split at h
  · exact map_eq_none_iff.mp h
  · exact h

private theorem armedLeft_eq_woken (h : x.armedLeft t = some .woken) : x.armed t = some .woken := by
  unfold armedLeft at h
  split at h
  · obtain ⟨a, ha, hleave⟩ := map_eq_some_iff.mp h
    cases a with
    | waiting => cases hleave
    | woken => exact ha
    | other => cases hleave
  · exact h

end ExpirySys

namespace ExpiryInv

variable {x x' : ExpirySys} {q q' : ListHead → List Tid} {c t : Tid} {k : Kernel}
  {armed : Tid → Option Armed}

section

variable (h : ExpiryInv x q)
include h

/-- Its timer may be started again. -/
theorem suspended (hinv : WaitInv x.created k.sched q')
    (hcur : k.sched.currentThread = x.k.sched.currentThread)
    (hstat : ∀ u, u ≠ t → (k.sched.thread u).stat = (x.k.sched.thread u).stat)
    (hready : ∀ p, q' (.prio p) = (q (.prio p)).erase t) (harmed : ∀ u, u ≠ t → armed u = x.armed u)
    (hself : armed t ≠ some .woken) (htm : TimersArmed x.created k.timers armed) :
    ExpiryInv { x with k := k, armed := armed } q' := by
  refine ⟨hinv, ?_, ?_, htm⟩
  · show k.sched.currentThread ≠ none
    rw [hcur]
    exact h.started
  · intro u hu
    have hut : u ≠ t := fun heq => hself (heq ▸ hu)
    have hold := h.awake u ((harmed u hut).symm.trans hu)
    show Awake k.sched q' u
    simp only [Awake, hcur, hstat u hut, hready, mem_erase_of_ne hut]
    exact hold

/-- Thread `t` is resumed. Its timer goes on. -/
theorem resumed (ht : t ∈ x.created) (harmed : ∀ u, u ≠ t → armed u = x.armed u)
    (hself : armed t = none → x.armed t = none) :
    ExpiryInv { x with k := { x.k with sched := threadWake x.k.sched t }, armed := armed }
      (wokenQueues x.k.sched t q) := by
  refine ⟨h.wait.wake ht, ?_, ?_, ?_⟩
  · show (threadWake x.k.sched t).currentThread ≠ none
    rw [threadWake_currentThread]
    exact h.started
  · intro u hu
    apply Awake.wake h.wait.queues
    by_cases hut : u = t
    · exact .inl hut
    · exact .inr (h.awake u ((harmed u hut).symm.trans hu))
  · apply h.timers.congr (fun _ _ => rfl)
    intro u _ hactive hnone
    refine ⟨hactive, ?_⟩
    by_cases hut : u = t
    · rw [hut] at hnone ⊢
      exact hself hnone
    · rw [← harmed u hut]
      exact hnone

/-- A call that blocks the current thread. -/
theorem block (hrun : CallerRuns x.k) {call : IpcCall} {o : Nat} {time : Int}
    (htime : call.timeout? = some time) (hblock : ipcBlock fuel x.k (.wait o) flag time = some k) :
    ∃ q', ExpiryInv { x with k := k, armed := x.armedAfter call k } q' := by
  obtain ⟨c, hc, hok⟩ := hrun
  unfold ipcBlock at hblock
  rw [Option.mem_def.mp hc] at hblock
  obtain ⟨k1, hsuspend, hk⟩ := map_eq_some_iff.mp hblock
  obtain ⟨hold, hsusp⟩ := skThreadSuspend_of_eok hok
  obtain ⟨htm, hthread, hcur⟩ := ipcListSuspend_frame hsuspend
  rw [hsusp] at htm hthread hcur
  rcases h.wait.ipcListSuspend (h.wait.current_created c hc) hok o flag fuel with
    ⟨hnone, -⟩ | ⟨k2, q', hsome, hinv, -, -, hready, -⟩
  · rw [hnone] at hsuspend
    cases hsuspend
  · cases hsome.symm.trans hsuspend
    -- starting the timer leaves the scheduler alone
    have hsched : k.sched = k1.sched := by
      rw [← hk]
      split
      · rfl
      · rfl
    have hstat : ∀ u, (k.sched.thread u).stat =
        if u = c then threadSuspend else (x.k.sched.thread u).stat := by
      intro u
      rw [hsched, hthread, setStat_thread, skScheduleRemoveThread_thread]
      split
      · rfl
      · rfl
    have hne : ∀ u, u ≠ c → (k.sched.thread u).stat = (x.k.sched.thread u).stat := by
      intro u hu
      rw [hstat, if_neg hu]
    have hother : ∀ u, u ≠ c → x.armedAfter call k u = x.armed u := fun u hu =>
      ExpirySys.armedAfter_of_stat call (hne u hu)
    have hself : x.armedAfter call k c = if 0 < time then some .waiting else none := by
      rw [ExpirySys.armedAfter_suspended call hold (by rw [hstat, if_pos rfl]), htime]
      rfl
    refine ⟨q', h.suspended ?_ ?_ hne hready hother ?_ ?_⟩
    · rw [hsched]
      exact hinv
    · rw [hsched, hcur, setStat_currentThread, skScheduleRemoveThread_currentThread]
    · rw [hself]
      split
      · simp
      · simp
    · rw [← hk]
      by_cases hpos : time > 0
      · rw [if_pos hpos] at hk ⊢
        have hstop : TimersArmed x.created k1.timers (update x.armed c none) := by
          rw [htm]
          exact h.timers.stop fun u hu => update_of_ne hu _ _
        apply hstop.start
        · rw [hk, hself, if_pos hpos]
          simp
        · intro u hu
          rw [hk, hother u hu, update_of_ne hu]
      · rw [if_neg hpos] at hk ⊢
        rw [htm, hk]
        exact h.timers.stop hother

private theorem resumeFirst (call : IpcCall) {o : Nat}
    (hfirst : ipcFirstThread x.k.sched (.wait o) = some t) :
    ∃ q', ExpiryInv
      { x with
        k := (skThreadResume x.k t).2
        armed := x.armedAfter call (skThreadResume x.k t).2 } q' := by
  have hin := h.wait.queues.lists.mem_of_ipcFirstThread hfirst
  have hstat := h.wait.wait_stat o t hin
  have hk : (skThreadResume x.k t).2 = { x.k with sched := threadWake x.k.sched t } := by
    unfold skThreadResume
    rw [if_neg (not_not.mpr hstat)]
  rw [hk]
  refine ⟨_, h.resumed (h.wait.queues.lists.mem_created hin) ?_ ?_⟩
  · intro u hu
    apply ExpirySys.armedAfter_of_stat
    show ((threadWake x.k.sched t).thread u).stat = _
    rw [threadWake_thread, if_neg hu]
  · exact ExpirySys.armedAfter_resumed call hstat

/-- The calls of the IPC objects. -/
theorem call {call : IpcCall} (hcaller : call.timeout? ≠ none → CallerRuns x.k)
    (hrun : call.run fuel x.k = some k) :
    ∃ q', ExpiryInv { x with k := k, armed := x.armedAfter call k } q' := by
  rcases IpcCall.run_cases hrun with rfl | ⟨o, flag, time, htime, hblock⟩ | ⟨o, t, hfirst, rfl⟩
  · have harmed : x.armedAfter call x.k = x.armed :=
      funext fun t => ExpirySys.armedAfter_of_stat call rfl
    rw [harmed]
    exact ⟨q, h⟩
  · exact h.block (hcaller (by simp [htime])) htime hblock
  · exact h.resumeFirst call hfirst

theorem suspend (ht : t ∈ x.created) (hok : (skThreadSuspend x.k t).1 = .eok) :
    ExpiryInv
      { x with k := (skThreadSuspend x.k t).2, armed := update x.armed t none }
      (fun l => (q l).erase t) := by
  have hinv := (h.wait.suspend ht hok).1
  obtain ⟨-, hsusp⟩ := skThreadSuspend_of_eok hok
  have hother : ∀ u, u ≠ t → update x.armed t none u = x.armed u := fun u hu =>
    update_of_ne hu _ _
  rw [hsusp] at hinv ⊢
  refine h.suspended hinv ?_ ?_ (fun _ => rfl) hother ?_ (h.timers.stop hother)
  · rw [setStat_currentThread, skScheduleRemoveThread_currentThread]
  · intro u hu
    rw [setStat_thread, if_neg hu, skScheduleRemoveThread_thread]
  · simp

theorem sleep (hc : c ∈ x.created) (hok : (skThreadSuspend x.k c).1 = .eok) (ticks : Nat) :
    ExpiryInv
      { x with
        k := threadTimerStart (skThreadSuspend x.k c).2 c ticks
        armed := update x.armed c (some .other) }
      (fun l => (q l).erase c) := by
  have hsusp := h.suspend hc hok
  refine ⟨hsusp.wait, hsusp.started, ?_, ?_⟩
  · intro u hu
    have huc : u ≠ c := by
      rintro rfl
      simp at hu
    apply hsusp.awake u
    simpa [update_of_ne huc] using hu
  · apply hsusp.timers.start
    · simp
    · intro u hu
      simp [update_of_ne hu]

/-- `sk_thread_create`. -/
theorem create (ht : t ∉ x.created) {priority : Nat} (hp : priority < threadPriorityMax)
    (slice : Nat) :
    ExpiryInv
      { x with
        k := skThreadCreate x.k t priority slice
        created := t :: x.created
        armed := update x.armed t none }
      (update q (.prio priority) (q (.prio priority) ++ [t])) := by
  have hcur : x.k.sched.currentThread ≠ some t := fun hc => ht (h.wait.current_created t hc)
  refine ⟨h.wait.create ht hp slice, ?_, ?_, ?_⟩
  · rw [skThreadCreate_currentThread]
    exact h.started
  · intro u hu
    have hut : u ≠ t := by
      rintro rfl
      simp at hu
    have hold : x.armed u = some .woken := by simpa [update_of_ne hut] using hu
    unfold Awake
    rw [skThreadCreate_currentThread, skThreadCreate_thread hcur, if_neg hut]
    exact (h.awake u hold).imp_right fun hready =>
      ⟨hready.1, hready.2.1, hready.2.2.imp fun _ hin => mem_update_snoc.mpr (.inl hin)⟩
  · exact h.timers.create fun u hu => update_of_ne hu _ _

theorem reschedule (hinv : WaitInv x.created s q') (hcur : s.currentThread ≠ none)
    (hawake : ∀ u, Awake x.k.sched q u → Awake s q' u) (htm : TimersArmed x.created tm armed)
    (harmed : ∀ u, armed u = some .woken → x.armed u = some .woken) (pc : CheckPc Tid) :
    ExpiryInv { x with k := ⟨s, tm⟩, pc := pc, armed := armed } q' :=
  ⟨hinv, hcur, fun u hu => hawake u (h.awake u (harmed u hu)), htm⟩

/-- The time slice, and the start of the check. -/
theorem tick (hguard : NoYieldInWindow x.k.sched) (hs : tickSlice x.k.sched = some s) (ticks : Nat)
    (pc : CheckPc Tid) :
    ∃ q', ExpiryInv
      { x with k := ⟨s, { x.k.timers with skTick := ticks }⟩, pc := pc } q' := by
  obtain ⟨c, hc⟩ := ne_none_iff_exists'.mp h.started
  obtain ⟨q', hinv, hawake, hcur⟩ :=
    h.wait.tickSlice hc (fun o hin => hguard c hc (h.wait.wait_stat o c hin)) hs
  have htm : TimersArmed x.created { x.k.timers with skTick := ticks } x.armed := h.timers
  exact ⟨q', h.reschedule hinv hcur hawake htm (fun _ hu => hu) pc⟩

theorem called (hs : x.callback = some s) (i : Tid) (pc : CheckPc Tid) :
    ∃ q', ExpiryInv
      { x with
        k := ⟨s, (timerCheckCalled x.k.timers i).2⟩
        pc := pc
        armed := x.armedLeft } q' := by
  have htm := h.timers.called i fun _ => ExpirySys.armedLeft_eq_none
  have hwoken : ∀ u, x.armedLeft u = some .woken → x.armed u = some .woken :=
    fun _ => ExpirySys.armedLeft_eq_woken
  unfold ExpirySys.callback at hs
  split at hs
  · rename_i t hexp
    obtain ⟨-, -, ht⟩ := ExpirySys.mem_of_expiring hexp
    obtain ⟨q', hinv, -, -, hawake, hcur⟩ := h.wait.timeout ht hs
    exact ⟨q', h.reschedule hinv (hcur h.started) (fun u hu => hawake u (.inr hu)) htm hwoken pc⟩
  · cases hs
    exact ⟨q, h.reschedule h.wait h.started (fun _ hu => hu) htm hwoken pc⟩

theorem step {op : ExpiryOp} (hguard : x.NoYield op) (hstep : x.step op = some x') :
    ∃ q', ExpiryInv x' q' := by
  cases op with
  | call =>
    obtain ⟨hcan, hstep⟩ := ite_none_right_eq_some.mp hstep
    obtain ⟨k, hrun, rfl⟩ := map_eq_some_iff.mp hstep
    exact h.call hcan.2 hrun
  | sleep ticks =>
    obtain ⟨hcan, hstep⟩ := ite_none_right_eq_some.mp hstep
    obtain ⟨c, hc, hok⟩ := hcan.2
    rw [threadSleepBlock, Option.mem_def.mp hc] at hstep
    cases hstep
    exact ⟨_, h.sleep (h.wait.current_created c hc) hok ticks⟩
  | suspend t =>
    obtain ⟨hcan, hstep⟩ := ite_none_right_eq_some.mp hstep
    cases hstep
    by_cases hok : (skThreadSuspend x.k t).1 = .eok
    · rw [if_pos hok]
      exact ⟨_, h.suspend hcan.2 hok⟩
    · rw [if_neg hok]
      rcases skThreadSuspend_cases x.k t with herror | ⟨-, hrun⟩
      · rw [herror]
        exact ⟨q, h⟩
      · rw [hrun] at hok
        exact absurd rfl hok
  | resume t =>
    obtain ⟨hcan, hstep⟩ := ite_none_right_eq_some.mp hstep
    cases hstep
    unfold skThreadResume
    split
    · exact ⟨q, h⟩
    · refine ⟨_, h.resumed hcan.2 ?_ ?_⟩
      · intro u hu
        exact update_of_ne hu _ _
      · intro hnone
        simpa using hnone
  | create t priority slice =>
    obtain ⟨hcan, hstep⟩ := ite_none_right_eq_some.mp hstep
    cases hstep
    exact ⟨_, h.create hcan.2.1 hcan.2.2 slice⟩
  | schedule =>
    simp only [ExpirySys.step, thenSchedule, Option.map_map] at hstep
    split at hstep
    · obtain ⟨s, hs, rfl⟩ := map_eq_some_iff.mp hstep
      obtain ⟨q', hinv, -, -, hawake, hcur⟩ := h.wait.schedule hs
      exact ⟨q', h.reschedule hinv (hcur h.started) hawake h.timers (fun _ hu => hu) x.pc⟩
    · cases hstep
  | tick =>
    obtain ⟨-, hstep⟩ := ite_none_right_eq_some.mp hstep
    obtain ⟨s, hs, rfl⟩ := map_eq_some_iff.mp hstep
    exact h.tick hguard hs _ _
  | visit =>
    simp only [ExpirySys.step] at hstep
    split at hstep
    · cases hstep
      exact ⟨q, h.wait, h.started, h.awake, h.timers⟩
    · cases hstep
    · cases hstep
  | called =>
    simp only [ExpirySys.step] at hstep
    split at hstep
    · obtain ⟨s, hs, rfl⟩ := map_eq_some_iff.mp hstep
      exact h.called hs _ _
    · cases hstep
    · cases hstep

end

theorem of_reach (h : expirySystem.Reach ExpirySys.NoYield x) : ∃ q, ExpiryInv x q := by
  refine h.invariant (I := fun x => ∃ q, ExpiryInv x q) ?_ ?_
  · rintro x ⟨hnone, hstarted, -, hone, harmed⟩
    obtain ⟨q, hinv, -⟩ := hnone.waitInv
    refine ⟨q, hinv, hstarted, ?_, ?_⟩
    · intro t ht
      rw [harmed] at ht
      dsimp only at ht
      split at ht
      · cases ht
      · cases ht
    · intro t ht
      refine ⟨hone t ht, fun hactive => ?_⟩
      rw [harmed]
      simp [hactive]
  · rintro x op x' ⟨q, hinv⟩ hguard hstep
    exact hinv.step hguard hstep

end ExpiryInv

/-! ## The steps are those of `sk_tick_increase` -/

/-- The callbacks of the timers: `sk_thread_timeout` for those of the threads. -/
def threadCallback (created : List Tid) (t : Tid) (s : Option Sched) : Option Sched :=
  if t ∈ created then s.bind (skThreadTimeout · t) else s

namespace ExpirySys

variable {x : ExpirySys}

theorem step_called {i : Tid} (hpc : x.pc = .called i) (hs : x.callback = some s) :
    expirySystem.step x .called = some
      { x with
        k := ⟨s, (timerCheckCalled x.k.timers i).2⟩
        pc := (timerCheckCalled x.k.timers i).1
        armed := x.armedLeft } := by
  show x.step .called = _
  unfold step
  rw [hpc]
  dsimp only
  rw [hs]
  rfl

private theorem step_tick (hpc : x.pc = .idle) (hs : tickSlice x.k.sched = some s) :
    expirySystem.step x .tick = some
      { x with
        k := ⟨s, { x.k.timers with skTick := x.k.timers.tickAfter 1 }⟩
        pc := .visit (x.k.timers.links.next .head) } := by
  show x.step .tick = _
  simp only [step, atRest, hpc, if_true, hs, map_some]

private theorem callback_eq {i : Tid} (hpc : x.pc = .called i) :
    x.callback = if (x.k.timers.timer i).isActive then threadCallback x.created i (some x.k.sched)
      else some x.k.sched := by
  unfold callback expiring threadCallback
  rw [hpc]
  by_cases hactive : (x.k.timers.timer i).isActive = true
  · by_cases hi : i ∈ x.created
    · simp [hactive, hi]
    · simp [hactive, hi]
  · simp [hactive]

/-- Nothing follows a callback that does not return. -/
theorem reach_timerCheckLoop {n : TimerNode Tid} {tm0 : Timers Tid} {r : Option Sched}
    (hx : ∀ s0, r = some s0 → expirySystem.Reach NoYield { x with k := ⟨s0, tm0⟩, pc := .visit n })
    (hloop : timerCheckLoop (threadCallback x.created) fuel n tm0 r = some (tm, some s)) :
    ∃ armed, expirySystem.Reach NoYield { x with k := ⟨s, tm⟩, pc := .idle, armed := armed } := by
  refine timerCheckLoop_invariant (fun pc tm r => ∀ s, r = some s → ∃ armed,
    expirySystem.Reach NoYield { x with k := ⟨s, tm⟩, pc := pc, armed := armed })
    ?_ ?_ ?_ hloop s rfl
  · intro n tm r hreach s hs
    obtain ⟨armed, hreach⟩ := hreach s hs
    exact ⟨armed, hreach.step .visit trivial rfl⟩
  · intro i tm r hreach s hs
    cases r with
    | none => simp [threadCallback] at hs
    | some s0 =>
      obtain ⟨armed, hreach⟩ := hreach s0 rfl
      refine ⟨_, hreach.step .called trivial (step_called rfl ?_)⟩
      rw [callback_eq rfl]
      exact hs
  · intro s0 hs0
    exact ⟨x.armed, hx s0 hs0⟩

theorem reach_tickIncrease {x : ExpirySys} (hx : expirySystem.Reach NoYield x) (hpc : x.pc = .idle)
    (hguard : NoYieldInWindow x.k.sched)
    (htick : tickIncrease (fun s => s.bind tickSlice) (threadCallback x.created) fuel
      x.k.timers (some x.k.sched) = some (tm, some s)) :
    ∃ armed, expirySystem.Reach NoYield { x with k := ⟨s, tm⟩, pc := .idle, armed := armed } := by
  refine reach_timerCheckLoop ?_ htick
  intro s0 hs0
  exact hx.step ExpiryOp.tick hguard (step_tick hpc hs0)

end ExpirySys

/-! ## The expiry -/

section Expiry

variable {created : List Tid} {s s' : Sched} {q : ListHead → List Tid} {c t : Tid}

/-- The state of every thread, the order of every ready queue and every wait list are the same. -/
def Unchanged (created : List Tid) (s s' : Sched) : Prop :=
  (∀ t, (s'.thread t).stat = (s.thread t).stat) ∧
    ∃ q, ThreadLists s.links created q ∧ ThreadLists s'.links created q

/-- The current thread is RUNNING, no ready thread has a higher priority, and `t` is the current
    thread, or the last one of its ready queue. -/
def Harmless (created : List Tid) (s : Sched) (t : Tid) : Prop :=
  ∃ q c, ThreadLists s.links created q ∧ s.currentThread = some c ∧
    (s.thread c).stat = threadRunning ∧
    (∀ p, ∀ u ∈ q (.prio p), (s.thread c).currentPri ≤ p) ∧
    (t = c ∨ (q (.prio (s.thread t).currentPri)).getLast? = some t)

theorem harmless_iff (hlists : ThreadLists s.links created q) (hc : s.currentThread = some c) :
    Harmless created s t ↔
      (s.thread c).stat = threadRunning ∧ (∀ p, ∀ u ∈ q (.prio p), (s.thread c).currentPri ≤ p) ∧
      (t = c ∨ (q (.prio (s.thread t).currentPri)).getLast? = some t) := by
  constructor
  · rintro ⟨q', c', hlists', hc', hrest⟩
    cases hlists.unique hlists'
    cases hc.symm.trans hc'
    exact hrest
  · intro hrest
    exact ⟨q, c, hlists, hc, hrest⟩

private theorem unchanged_iff {q' : ListHead → List Tid} (hlists : ThreadLists s.links created q)
    (hlists' : ThreadLists s'.links created q') :
    Unchanged created s s' ↔ (∀ t, (s'.thread t).stat = (s.thread t).stat) ∧ q' = q := by
  refine and_congr_right fun _ => ?_
  constructor
  · rintro ⟨q1, h, h'⟩
    rw [hlists.unique h, hlists'.unique h']
  · rintro rfl
    exact ⟨q', hlists, hlists'⟩

private theorem erase_concat_eq_iff {l : List Tid} (hnd : l.Nodup) :
    l.erase t ++ [t] = l ↔ l.getLast? = some t := by
  constructor
  · intro heq
    rw [← heq]
    exact getLast?_concat
  · intro hlast
    obtain ⟨front, rfl⟩ := getLast?_eq_some_iff.mp hlast
    have hfront : t ∉ front := by
      rw [nodup_append] at hnd
      exact fun hin => hnd.2.2 t hin t mem_cons_self rfl
    rw [erase_append_right _ hfront]
    simp

private theorem wokenQueues_eq_iff (h : Queues created s q) (hcur : s.currentThread ≠ some t)
    (hin : t ∈ q (.prio (s.thread t).currentPri)) :
    wokenQueues s t q = q ↔ (q (.prio (s.thread t).currentPri)).getLast? = some t := by
  rw [← erase_concat_eq_iff (h.lists.nodup _)]
  unfold wokenQueues
  rw [if_neg hcur]
  constructor
  · intro heq
    have hat := congrFun heq (.prio (s.thread t).currentPri)
    rw [update_self] at hat
    exact hat
  · intro heq
    funext l
    by_cases hl : l = .prio (s.thread t).currentPri
    · rw [hl, update_self]
      exact heq
    · rw [update_of_ne hl]
      exact erase_of_not_mem (h.lists.notMem_of_ne hin hl)

theorem WaitInv.wokenQueues_current (h : WaitInv created s q) (hc : s.currentThread = some t)
    (hstat : (s.thread t).stat ≠ threadSuspend) : wokenQueues s t q = q := by
  unfold wokenQueues
  rw [if_pos hc]
  funext l
  apply erase_of_not_mem
  cases l with
  | prio p => exact h.off_ready t hc p
  | wait o => exact fun hin => hstat (h.wait_stat o t hin)

private theorem Awake.stat_ne (h : Awake s q t) : (s.thread t).stat ≠ threadSuspend := by
  rcases h with ⟨-, hstat | hstat⟩ | ⟨-, hstat, -⟩
  · rw [hstat]
    decide
  · rw [hstat]
    decide
  · rw [hstat]
    decide

theorem Awake.mem_wokenQueues (h : Awake s q t) (hinv : WaitInv created s q) (u : Tid) (p : Nat) :
    u ∈ wokenQueues s t q (.prio p) ↔ u ∈ q (.prio p) := by
  rcases h with ⟨hc, -⟩ | ⟨hc, -, p', hin⟩
  · have hoff : t ∉ q (.prio p) := hinv.off_ready t hc p
    rw [hinv.queues.mem_wokenQueues_prio]
    constructor
    · rintro (⟨-, hu⟩ | ⟨-, hne, -⟩)
      · exact hu
      · exact absurd hc hne
    · intro hu
      exact .inl ⟨fun heq => hoff (heq ▸ hu), hu⟩
  · have hp' := hinv.queues.queued p' t hin
    rw [hinv.queues.mem_wokenQueues_prio]
    constructor
    · rintro (⟨-, hu⟩ | ⟨rfl, -, rfl⟩)
      · exact hu
      · rw [hp']
        exact hin
    · intro hu
      by_cases hut : u = t
      · subst hut
        exact .inr ⟨rfl, hc, (hinv.queues.queued p u hu).symm⟩
      · exact .inl ⟨hut, hu⟩

/-- Nothing changes for a thread found RUNNING or last in its queue. -/
theorem Awake.unchanged_wake_iff (h : Awake s q t) (hinv : WaitInv created s q)
    (ht : t ∈ created) (hc : s.currentThread = some c)
    (hrun : c ≠ t → (s.thread c).stat = threadRunning)
    (hlow : ∀ p, ∀ u ∈ q (.prio p), (s.thread c).currentPri ≤ p) :
    Unchanged created s (threadWake s t) ↔ Harmless created s t := by
  have hlists := hinv.queues.lists
  rw [unchanged_iff hlists (hinv.wake ht).queues.lists, harmless_iff hlists hc]
  have hstat : ∀ u, ((threadWake s t).thread u).stat = if u = t then
      (if s.currentThread = some t then threadRunning else threadReady)
      else (s.thread u).stat := by
    intro u
    rw [threadWake_thread]
    split
    · rfl
    · rfl
  by_cases htc : t = c
  · -- the current thread may have lost its yield flag
    subst htc
    simp only [hinv.wokenQueues_current hc h.stat_ne, hstat, hc, if_true, and_true, true_or]
    constructor
    · intro hall
      have hself := hall t
      rw [if_pos rfl] at hself
      exact ⟨hself.symm, hlow⟩
    · rintro ⟨hself, -⟩ u
      split
      · rename_i hut
        rw [hut]
        exact hself.symm
      · rfl
  · rcases h with ⟨hcur, -⟩ | ⟨hcur, hready, p, hin⟩
    · exact absurd (some.inj (hcur.symm.trans hc)) htc
    · have hin' : t ∈ q (.prio (s.thread t).currentPri) := by
        rw [hinv.queues.queued p t hin]
        exact hin
      rw [wokenQueues_eq_iff hinv.queues hcur hin']
      constructor
      · rintro ⟨-, hlast⟩
        exact ⟨hrun (Ne.symm htc), hlow, .inr hlast⟩
      · rintro ⟨-, -, hlast⟩
        refine ⟨fun u => ?_, hlast.resolve_left htc⟩
        rw [hstat, if_neg hcur]
        split
        · rename_i hut
          rw [hut]
          exact hready.symm
        · rfl

private theorem Awake.timeout_unchanged_iff (h : Awake s q t) (hinv : WaitInv created s q)
    (ht : t ∈ created) (hc : s.currentThread = some c) :
    ∃ s', skThreadTimeout s t = some s' ∧ (Unchanged created s s' ↔ Harmless created s t) := by
  have hlists := hinv.queues.lists
  have hwake := hinv.wake ht
  have hc' : (threadWake s t).currentThread = some c := by
    rw [threadWake_currentThread, hc]
  have hmem := h.mem_wokenQueues hinv
  have hpri := threadWake_currentPri s t c
  have hstat : c ≠ t → ((threadWake s t).thread c).stat = (s.thread c).stat := by
    intro hct
    rw [threadWake_thread, if_neg hct]
  rcases hwake.queues.skSchedule hc' (hwake.off_ready c hc') with
    ⟨hrun, hempty⟩ | ⟨hrun, hrunning, hlow⟩ | ⟨d, p, ts, hrun, hcd, hd, -, hnot⟩
  · -- no thread is ready, so it is the current one
    have hnone : ∀ p u, u ∉ q (.prio p) := by
      intro p u hu
      rw [← hmem, hempty p] at hu
      cases hu
    refine ⟨_, hrun, h.unchanged_wake_iff hinv ht hc ?_ ?_⟩
    · intro hct
      rcases h with ⟨hcur, -⟩ | ⟨-, -, p, hin⟩
      · exact absurd (some.inj (hc.symm.trans hcur)) hct
      · exact absurd hin (hnone p t)
    · intro p u hu
      exact absurd hu (hnone p u)
  · refine ⟨_, hrun, h.unchanged_wake_iff hinv ht hc ?_ ?_⟩
    · intro hct
      rw [← hstat hct]
      exact hrunning
    · intro p u hu
      rw [← hpri]
      exact hlow p u ((hmem u p).mpr hu)
  · -- a switch takes a ready thread off its queue
    have hin : d ∈ wokenQueues s t q (.prio p) := by
      rw [hd]
      exact mem_cons_self
    have hswitch := hwake.switch hc' hin hcd
    refine ⟨_, hrun, iff_of_false ?_ ?_⟩
    · rw [unchanged_iff hlists hswitch.queues.lists]
      rintro ⟨-, heq⟩
      have hold := (hmem d p).mp hin
      rw [← heq] at hold
      exact hwake.queues.notMem_switchedQueues hin (hwake.off_ready c hc') _ hold
    · rw [harmless_iff hlists hc]
      rintro ⟨hrunning, hlow, -⟩
      apply hnot
      rw [hpri]
      refine ⟨?_, hlow p d ((hmem d p).mp hin)⟩
      by_cases hct : c = t
      · rw [threadWake_thread, if_pos hct, if_pos (hct ▸ hc)]
      · rw [hstat hct]
        exact hrunning

end Expiry

/-! ## The result -/

variable {x : ExpirySys}

/-- **When a wake-up cancels its timeout.** Thread `t` has blocked in an IPC call with a positive
    timeout and been resumed by a call on the object, and now the timer started for the wait
    expires. No wait list changes. The state of every thread and the order of the ready queues
    stay the same exactly when the current thread is RUNNING, no ready thread has a higher priority,
    and `t` is the current thread or the last one of its ready queue. Once `t` has been suspended
    again its timer does not expire, unless it has been started again. -/
theorem stale_timeout_iff (h : expirySystem.Reach ExpirySys.NoYield x) :
    (∀ t, x.expiring = some t → x.armed t = some .woken →
      ∃ s', skThreadTimeout x.k.sched t = some s' ∧
        (Unchanged x.created x.k.sched s' ↔ Harmless x.created x.k.sched t) ∧
        ∃ q q', ThreadLists x.k.sched.links x.created q ∧ ThreadLists s'.links x.created q' ∧
          ∀ o, q' (.wait o) = q (.wait o)) ∧
    ∀ t, x.armed t = none → x.expiring ≠ some t := by
  obtain ⟨q, hinv⟩ := ExpiryInv.of_reach h
  constructor
  · intro t hexp hwoken
    obtain ⟨-, -, ht⟩ := ExpirySys.mem_of_expiring hexp
    obtain ⟨c, hc⟩ := ne_none_iff_exists'.mp hinv.started
    have hawake := hinv.awake t hwoken
    obtain ⟨s', hs, hiff⟩ := hawake.timeout_unchanged_iff hinv.wait ht hc
    obtain ⟨q', hinv', hwait, -⟩ := hinv.wait.timeout ht hs
    refine ⟨s', hs, hiff, q, q', hinv.wait.queues.lists, hinv'.queues.lists, ?_⟩
    intro o
    rw [hwait o]
    exact erase_of_not_mem fun hin => hawake.stat_ne (hinv.wait.wait_stat o t hin)
  · intro t hnone hexp
    obtain ⟨-, hactive, ht⟩ := ExpirySys.mem_of_expiring hexp
    exact (hinv.timers t ht).2 hactive hnone

/-! ## Three threads -/

/-- Thread 1 of priority 5 runs, and the threads 2 and 3 of priorities 6 and 7 are ready. -/
def trioExpirySys : ExpirySys where
  k := trioSys.k
  created := trioSys.created
  pc := .idle
  armed := fun t => if (trioSys.k.timers.timer t).isActive then some .other else none

private theorem reach_trioExpirySys : expirySystem.Reach ExpirySys.NoYield trioExpirySys := by
  refine .init ⟨trioSys_started.noneWaiting, ?_, rfl, ?_, rfl⟩
  · exact trioSys_started.2.1
  · show ∀ t ∈ [3, 2, 1, 0], (trioSys.k.timers.timer t).isPeriodic = false
    decide +kernel

/-- An empty semaphore. -/
def emptySem : Sem := skSemInit 0 ipcFlagPrio

/-- Thread 1 waits on semaphore 1, thread 2 on semaphore 0 for two ticks at most. Thread 3 posts
    semaphore 1, thread 1 semaphore 0. -/
def wokenRun : List ExpiryOp :=
  [.call (.semWait emptySem 1 (-1)) 4, .schedule, .call (.semWait emptySem 0 2) 4, .schedule,
    .call (.semPost emptySem 1) 0, .schedule, .call (.semPost emptySem 0) 0, .schedule]

/-- The threads of ready queue 6. -/
def readySix (s : Sched) : Option (List Tid) :=
  ThreadLists.threadsFrom s.links 4 (s.links.next (.head (.prio 6)))

private theorem eq_of_readySix {created ts : List Tid} {q : ListHead → List Tid}
    (h : ThreadLists s.links created q) (hwalk : readySix s = some ts) : q (.prio 6) = ts := by
  apply h.eq_of_threadsFrom (l := .prio 6) ?_ hwalk
  unfold ListHead.Valid
  decide

/-- The timer of thread 2 expires while thread 1 runs and thread 2 is alone in its ready queue:
    nothing changes. -/
theorem stale_timeout_iff_alone :
    ∃ x, expirySystem.Reach ExpirySys.NoYield x ∧ x.expiring = some 2 ∧
      x.armed 2 = some .woken ∧ Harmless x.created x.k.sched 2 ∧
      ∃ s', skThreadTimeout x.k.sched 2 = some s' ∧ Unchanged x.created x.k.sched s' := by
  obtain ⟨x, hx, hp⟩ := reach_trioExpirySys.exists_of_run
    (wokenRun ++ [.tick, .visit, .visit, .tick, .visit])
    (fun x => x.expiring = some 2 ∧ x.armed 2 = some .woken ∧
      x.k.sched.currentThread = some 1 ∧ (x.k.sched.thread 1).stat = threadRunning ∧
      (x.k.sched.thread 1).currentPri = 5 ∧ (x.k.sched.thread 2).currentPri = 6 ∧
      ((List.range 5).all fun p => skListEmpty x.k.sched.links (.head (.prio p))) = true ∧
      readySix x.k.sched = some [2]) (by decide +kernel)
  obtain ⟨hexp, hwoken, hc, hstat, hpri, hpri', hempty, hsix⟩ := of_decide_eq_true hp
  obtain ⟨q, hinv⟩ := ExpiryInv.of_reach hx
  have hlists := hinv.wait.queues.lists
  have hharmless : Harmless x.created x.k.sched 2 := by
    rw [harmless_iff hlists hc, hpri, hpri', eq_of_readySix hlists hsix]
    refine ⟨hstat, ?_, .inr rfl⟩
    intro p u hu
    by_contra hlt
    have hvalid : ListHead.Valid (.prio p) := show p < 32 by omega
    have hnil := (hlists.skListEmpty_iff hvalid).mp
      (all_eq_true.mp hempty p (mem_range.mpr (by omega)))
    rw [hnil] at hu
    cases hu
  obtain ⟨s', hs, hiff, -⟩ := (stale_timeout_iff hx).1 2 hexp hwoken
  exact ⟨x, hx, hexp, hwoken, hharmless, s', hs, hiff.mpr hharmless⟩

/-- Thread 1 creates thread 4 of priority 6 before the timer of thread 2 expires. Thread 2, which is
    first in the ready queue, is then moved behind thread 4. -/
theorem stale_timeout_reorders :
    ∃ x s' q q', expirySystem.Reach ExpirySys.NoYield x ∧ x.expiring = some 2 ∧
      x.armed 2 = some .woken ∧ skThreadTimeout x.k.sched 2 = some s' ∧
      ThreadLists x.k.sched.links x.created q ∧ ThreadLists s'.links x.created q' ∧
      q (.prio 6) = [2, 4] ∧ q' (.prio 6) = [4, 2] ∧ ¬ Unchanged x.created x.k.sched s' := by
  obtain ⟨x, hx, hp⟩ := reach_trioExpirySys.exists_of_run
    (wokenRun ++ [.create 4 6 32, .tick, .visit, .visit, .tick, .visit])
    (fun x => x.expiring = some 2 ∧ x.armed 2 = some .woken ∧
      readySix x.k.sched = some [2, 4] ∧
      ((skThreadTimeout x.k.sched 2).bind readySix) = some [4, 2]) (by decide +kernel)
  obtain ⟨hexp, hwoken, hbefore, hafter⟩ := of_decide_eq_true hp
  obtain ⟨s', hs, hsix⟩ := bind_eq_some_iff.mp hafter
  obtain ⟨q, hinv⟩ := ExpiryInv.of_reach hx
  obtain ⟨-, -, ht⟩ := ExpirySys.mem_of_expiring hexp
  obtain ⟨q', hinv', -⟩ := hinv.wait.timeout ht hs
  have hlists := hinv.wait.queues.lists
  have hlists' := hinv'.queues.lists
  have hq := eq_of_readySix hlists hbefore
  have hq' := eq_of_readySix hlists' hsix
  refine ⟨x, s', q, q', hx, hexp, hwoken, hs, hlists, hlists', hq, hq', ?_⟩
  rw [unchanged_iff hlists hlists']
  rintro ⟨-, heq⟩
  rw [heq, hq] at hq'
  cases hq'

end SKernel.Spec
