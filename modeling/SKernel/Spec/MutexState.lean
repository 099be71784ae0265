import SKernel.Spec.MutexCorrect

/-!
# The state of a mutex

The fields of a mutex belong together: it is free, or its owner holds it `hold` times and does
not wait for it. `since` records what the owner has done since it gained the mutex, by a lock or
by a hand-over. Threads that wait may be timed out, and then return from `sk_mutex_lock` without
the mutex; the fields do not suffer from that.

The runs are those in which a thread that has blocked stays suspended until it is woken: no tick
ends the time slice of a thread that has suspended itself and not called `sk_schedule` yet.
-/

namespace SKernel.Spec

open Native Function Option

/-! ## The system -/

/-- What the owner of a mutex has done since it gained it. -/
structure MutexHistory where
  relocks : Nat
  unlocks : Nat
  deriving DecidableEq

/-- The system of the mutexes with the histories of the owners. -/
structure MutexTrack where
  x : MutexSys
  since : Nat → MutexHistory

namespace MutexTrack

/-- How a call of `sk_mutex_lock` goes on. -/
def lockEnd (y : MutexTrack) (o : Nat) (time : Int) (fuel : Nat) : Option CallEnd :=
  (skMutexLock fuel y.x.sys.k (y.x.mutex o) (.wait o) time).map (·.1)

/-- How a call of `sk_mutex_unlock` goes on. -/
def unlockEnd (y : MutexTrack) (o : Nat) : Option CallEnd :=
  (skMutexUnlock y.x.sys.k (y.x.mutex o) (.wait o)).map (·.1)

/-- The history of mutex `o`, of which `m` is the new state: a new owner has done nothing yet. -/
def history (y : MutexTrack) (o : Nat) (m : Mutex) (same : MutexHistory) :
    Nat → MutexHistory :=
  update y.since o (if m.owner = (y.x.mutex o).owner then same else ⟨0, 0⟩)

/-- The histories after an event that leads to `x'`: successful locks and unlocks count. -/
def note (y : MutexTrack) (x' : MutexSys) : IpcOp MutexCall → Nat → MutexHistory
  | .call (.lock o time fuel) =>
    let h := y.since o
    y.history o (x'.mutex o)
      (if y.lockEnd o time fuel = some (.ret .eok) then { h with relocks := h.relocks + 1 } else h)
  | .call (.unlock o) =>
    let h := y.since o
    y.history o (x'.mutex o)
      (if y.unlockEnd o = some (.ret .error) then h else { h with unlocks := h.unlocks + 1 })
  | _ => y.since

/-- The state after an event. -/
def step (idle : Tid) (y : MutexTrack) (op : IpcOp MutexCall) : Option MutexTrack :=
  (y.x.step idle op).map fun x' => { x := x', since := y.note x' op }

/-- The relation of the fields of mutex `o`, its wait list and its history. -/
structure WellFormed (y : MutexTrack) (o : Nat) : Prop where
  value : (y.x.mutex o).value = 0 ∨ (y.x.mutex o).value = 1
  value_iff : (y.x.mutex o).value = 1 ↔ (y.x.mutex o).owner = none
  hold_iff : (y.x.mutex o).hold = 0 ↔ (y.x.mutex o).owner = none
  waiting : ∀ t, y.x.sys.OnWaitList o t →
    ∃ c, (y.x.mutex o).owner = some c ∧ ¬y.x.sys.OnWaitList o c
  hold : (y.x.mutex o).owner ≠ none →
    ((y.x.mutex o).hold : Int) = 1 + (y.since o).relocks - (y.since o).unlocks
  hold_le : (y.x.mutex o).hold ≤ 255

/-- Calls on mutex `o` that return an error leave it and the thread lists unchanged. -/
structure ErrorsKeep (y : MutexTrack) (o : Nat) : Prop where
  lock : ∀ time fuel code k m,
    skMutexLock fuel y.x.sys.k (y.x.mutex o) (.wait o) time = some (.ret code, k, m) →
    code ≠ .eok → m = y.x.mutex o ∧ k = y.x.sys.k
  unlock : ∀ code k m,
    skMutexUnlock y.x.sys.k (y.x.mutex o) (.wait o) = some (.ret code, k, m) →
    code ≠ .eok → m = y.x.mutex o ∧ k = y.x.sys.k

end MutexTrack

/-- The system of the mutexes, at first without histories. -/
def mutexTrackSystem (idle : Tid) : TransitionSystem MutexTrack (IpcOp MutexCall) where
  init y := (mutexSystem idle).init y.x ∧ y.since = fun _ => ⟨0, 0⟩
  step := MutexTrack.step idle

/-! ## One mutex -/

/-- A mutex is free and nobody waits, or its owner holds it and does not wait for it. -/
inductive MutexShape (blocked : Tid → Option Blocking) (o : Nat) (m : Mutex) (h : MutexHistory) :
    Prop
  | free (hvalue : m.value = 1) (howner : m.owner = none) (hhold : m.hold = 0)
      (hwait : ∀ t, blocked t ≠ some (.linked o)) : MutexShape blocked o m h
  | owned (c : Tid) (hvalue : m.value = 0) (howner : m.owner = some c) (hpos : 0 < m.hold)
      (hle : m.hold ≤ mutexHoldMax) (hhold : m.hold + h.unlocks = 1 + h.relocks)
      (hwait : blocked c ≠ some (.linked o)) : MutexShape blocked o m h

namespace MutexShape

variable {blocked blocked' : Tid → Option Blocking} {o : Nat} {m : Mutex} {h : MutexHistory}
variable {c t : Tid}

variable (hm : MutexShape blocked o m h)
include hm

/-- Threads may leave the wait list. -/
theorem mono (hsub : ∀ t, blocked' t = some (.linked o) → blocked t = some (.linked o)) :
    MutexShape blocked' o m h := by
  cases hm with
  | free hvalue howner hhold hwait =>
    exact .free hvalue howner hhold fun t hb => hwait t (hsub t hb)
  | owned c hvalue howner hpos hle hhold hwait =>
    exact .owned c hvalue howner hpos hle hhold fun hb => hwait (hsub c hb)

theorem of_owner (howner : m.owner = some c) :
    m.value = 0 ∧ 0 < m.hold ∧ m.hold ≤ mutexHoldMax ∧ m.hold + h.unlocks = 1 + h.relocks ∧
      blocked c ≠ some (.linked o) := by
  cases hm with
  | free _ hnone =>
    rw [hnone] at howner
    cases howner
  | owned c' hvalue howner' hpos hle hhold hwait =>
    cases howner'.symm.trans howner
    exact ⟨hvalue, hpos, hle, hhold, hwait⟩

private theorem of_value (hvalue : m.value > 0) :
    m.value = 1 ∧ m.owner = none ∧ m.hold = 0 ∧ ∀ t, blocked t ≠ some (.linked o) := by
  cases hm with
  | free hvalue' howner hhold hwait => exact ⟨hvalue', howner, hhold, hwait⟩
  | owned => omega

theorem join (hvalue : ¬m.value > 0) (howner : m.owner ≠ some c)
    (hsub : ∀ t, t ≠ c → blocked' t = some (.linked o) → blocked t = some (.linked o)) :
    MutexShape blocked' o m h := by
  cases hm with
  | free hvalue' => omega
  | owned c' hvalue' howner' hpos hle hhold hwait =>
    refine .owned c' hvalue' howner' hpos hle hhold fun hb => hwait (hsub c' ?_ hb)
    intro heq
    exact howner (heq ▸ howner')

end MutexShape

/-! ## The invariant -/

/-- The kernel runs as it should and every mutex is in shape. -/
structure MutexTrackInv (idle : Tid) (y : MutexTrack) : Prop where
  block : BlockInv idle y.x.sys
  shape : ∀ o, MutexShape y.x.sys.blocked o (y.x.mutex o) (y.since o)

namespace MutexTrackInv

variable {idle : Tid} {y y' : MutexTrack} {c t : Tid} {o : Nat}

section

variable (h : MutexTrackInv idle y)
include h

private theorem track {x' : MutexSys} {m : Mutex} {same : MutexHistory}
    (hblock : BlockInv idle x'.sys) (hmutex : x'.mutex = update y.x.mutex o m)
    (hother : ∀ t o', o' ≠ o → x'.sys.blocked t = some (.linked o') →
      y.x.sys.blocked t = some (.linked o'))
    (ho : MutexShape x'.sys.blocked o m
      (if m.owner = (y.x.mutex o).owner then same else ⟨0, 0⟩)) :
    MutexTrackInv idle { x := x', since := y.history o (x'.mutex o) same } := by
  refine ⟨hblock, ?_⟩
  dsimp only [MutexTrack.history]
  rw [hmutex, update_self]
  exact forall_update₂ (MutexShape x'.sys.blocked) ho fun o' hoo =>
    (h.shape o').mono fun t => hother t o' hoo

/-- A lock. -/
theorem lock (hrun : y.x.sys.Runs idle c) {time : Int} {fuel : Nat}
    {x' : MutexSys} (hlock : y.x.lock c o time fuel = some x') :
    MutexTrackInv idle { x := x', since := y.note x' (.call (.lock o time fuel)) } := by
  unfold MutexSys.lock at hlock
  cases hcall : skMutexLock fuel y.x.sys.k (y.x.mutex o) (.wait o) time with
  | none =>
    rw [hcall] at hlock
    cases hlock
  | some r =>
    obtain ⟨e, k, m⟩ := r
    rw [hcall] at hlock
    have hshape := h.shape o
    have hend : y.lockEnd o time fuel = some e := by
      unfold MutexTrack.lockEnd
      rw [hcall]
      rfl
    dsimp only [MutexTrack.note]
    rw [hend]
    cases skMutexLock_cases hrun.1 hcall with
    | relock howner hmax =>
      cases hlock
      obtain ⟨hvalue, -, -, hhold, hwait⟩ := hshape.of_owner howner
      refine h.track h.block rfl (fun _ _ _ hb => hb) ?_
      simp only [↓reduceIte]
      exact .owned c hvalue howner (Nat.succ_pos _) hmax (by dsimp only; omega) hwait
    | relockFull | timeout =>
      cases hlock
      refine h.track h.block rfl (fun _ _ _ hb => hb) ?_
      simpa using hshape
    | take howner hvalue =>
      cases hlock
      obtain ⟨hone, hnone, hhold, hwait⟩ := hshape.of_value hvalue
      have hgain : (takenMutex y.x.sys.k (y.x.mutex o) c).owner ≠ (y.x.mutex o).owner := by
        simp [takenMutex, hnone]
      refine h.track h.block rfl (fun _ _ _ hb => hb) ?_
      simp only [if_neg hgain]
      refine .owned c ?_ rfl (Nat.succ_pos _) ?_ ?_ (hwait c)
      · simp [takenMutex, hone]
      · simp [hhold, mutexHoldMax]
      · simp [hhold]
    | takeFull hvalue hmax =>
      -- a free mutex is held 0 times
      obtain ⟨-, -, hhold, -⟩ := hshape.of_value hvalue
      rw [hhold] at hmax
      exact absurd (show 0 < mutexHoldMax by decide) hmax
    | block howner hvalue hblock =>
      cases hlock
      -- the caller joins the threads that wait for this mutex, and for no other one
      have hwait := h.block.wait hrun hblock
      refine h.track hwait rfl ?_ ?_
      · intro t o' hoo hb
        change update y.x.sys.blocked c _ t = _ at hb
        by_cases htc : t = c
        · rw [htc, update_self, if_pos (.inr rfl)] at hb
          cases hb
          exact absurd rfl hoo
        · rwa [update_of_ne htc] at hb
      · simp only [reduceCtorEq, some.injEq, ↓reduceIte]
        refine hshape.join hvalue howner ?_
        intro t htc hb
        change update y.x.sys.blocked c _ t = _ at hb
        rwa [update_of_ne htc] at hb

/-- An unlock. -/
theorem unlock (hrun : y.x.sys.Runs idle c) {x' : MutexSys} (hunlock : y.x.unlock c o = some x') :
    MutexTrackInv idle { x := x', since := y.note x' (.call (.unlock o)) } := by
  unfold MutexSys.unlock at hunlock
  cases hcall : skMutexUnlock y.x.sys.k (y.x.mutex o) (.wait o) with
  | none =>
    rw [hcall] at hunlock
    cases hunlock
  | some r =>
    obtain ⟨e, k, m⟩ := r
    rw [hcall] at hunlock
    have hshape := h.shape o
    have hend : y.unlockEnd o = some e := by
      unfold MutexTrack.unlockEnd
      rw [hcall]
      rfl
    dsimp only [MutexTrack.note]
    rw [hend]
    cases skMutexUnlock_cases hrun.1 hcall with
    | notOwner =>
      cases hunlock
      refine h.track h.block rfl (fun _ _ _ hb => hb) ?_
      simpa using hshape
    | once howner hhold =>
      cases hunlock
      obtain ⟨hvalue, hpos, hle, hcount, hwait⟩ := hshape.of_owner howner
      have hmax : (y.x.mutex o).hold ≤ 0xFF := hle
      refine h.track h.block rfl (fun _ _ _ hb => hb) ?_
      simp only [reduceCtorEq, some.injEq, CallEnd.ret.injEq, ↓reduceIte]
      refine .owned c hvalue howner (Nat.pos_of_ne_zero hhold) ?_ ?_ hwait
      · show (_ + 0xFF) % 0x100 ≤ 0xFF
        omega
      · dsimp only
        omega
    | release howner hhold hempty =>
      cases hunlock
      obtain ⟨hvalue, -⟩ := hshape.of_owner howner
      refine h.track h.block rfl (fun _ _ _ hb => hb) ?_
      refine .free ?_ rfl hhold (h.block.of_empty hempty).2
      rw [hvalue]
    | handOver t howner hhold hempty hfirst =>
      obtain ⟨u, hu⟩ := h.block.firstThread hempty
      cases hfirst.symm.trans hu.first
      cases hunlock
      obtain ⟨hvalue, -, -, -, hwait⟩ := hshape.of_owner howner
      -- the owner does not wait for its own mutex, so the ownership changes
      have hct : some t ≠ (y.x.mutex o).owner := by
        rw [howner]
        intro heq
        cases heq
        exact hwait hu.linked
      refine h.track (h.block.resume_blocked hrun hu) rfl ?_ ?_
      · intro u o' _ hb'
        exact (update_none_eq_some.mp hb').2
      · rw [if_neg hct]
        refine .owned t hvalue rfl (Nat.succ_pos _) ?_ ?_ ?_
        · show (_ + 0xFF) % 0x100 + 1 ≤ 0xFF
          omega
        · dsimp only
          omega
        · show update y.x.sys.blocked t none t ≠ _
          rw [update_self]
          simp

/-- Every event keeps the mutexes in shape. -/
theorem step {op : IpcOp MutexCall}
    (hguard : y.x.sys.StaySuspended op) (hstep : y.step idle op = some y') :
    MutexTrackInv idle y' := by
  obtain ⟨x', hx', rfl⟩ := map_eq_some_iff.mp hstep
  cases op with
  | call call =>
    cases call with
    | lock =>
      obtain ⟨c, hc, hlock⟩ := bind_eq_some_iff.mp hx'
      exact h.lock (BlockSys.of_free hc).2.1 hlock
    | unlock o =>
      obtain ⟨c, hc, hunlock⟩ := bind_eq_some_iff.mp hx'
      exact h.unlock (BlockSys.of_free hc).2.1 hunlock
    | lockReturn =>
      obtain ⟨c, -, hret⟩ := bind_eq_some_iff.mp hx'
      obtain ⟨o, -, rfl⟩ := map_eq_some_iff.mp hret
      exact ⟨h.block, h.shape⟩
  | sleep | schedule | tick =>
    obtain ⟨sys, hsys, rfl⟩ := map_eq_some_iff.mp hx'
    obtain ⟨hblock, hlinked⟩ := h.block.elapse hguard hsys
    exact ⟨hblock, fun o => (h.shape o).mono fun t => hlinked t o⟩

end

theorem init (h : (mutexTrackSystem idle).init y) : MutexTrackInv idle y := by
  obtain ⟨⟨hsys, hmutex, -⟩, -⟩ := h
  refine ⟨BlockInv.of_started hsys, ?_⟩
  intro o
  rw [hmutex]
  refine .free rfl rfl rfl ?_
  intro t hb
  rw [hsys.2.2.2.2] at hb
  cases hb

theorem of_reach (h : (mutexTrackSystem idle).Reach (·.x.sys.StaySuspended ·) y) :
    MutexTrackInv idle y :=
  h.invariant (fun _ => init) fun _ _ _ hinv => hinv.step

/-! ## What the invariant says -/

private theorem wellFormed (h : MutexTrackInv idle y) (o : Nat) : y.WellFormed o := by
  have hon := fun t => h.block.onWaitList_iff (o := o) (t := t)
  cases h.shape o with
  | free hvalue howner hhold hwait =>
    refine ⟨.inr hvalue, by simp [hvalue, howner], by simp [hhold, howner], ?_, ?_, by omega⟩
    · intro t ht
      exact absurd ((hon t).mp ht) (hwait t)
    · exact fun hne => absurd howner hne
  | owned c hvalue howner hpos hle hhold hwait =>
    refine ⟨.inl hvalue, by simp [hvalue, howner], ?_, ?_, ?_, hle⟩
    · simp only [howner, reduceCtorEq, iff_false]
      omega
    · exact fun _ _ => ⟨c, howner, fun hc => hwait ((hon c).mp hc)⟩
    · intro _
      omega

private theorem errorsKeep (h : MutexTrackInv idle y) (o : Nat) : y.ErrorsKeep o := by
  have hcurrent : ∃ c, y.x.sys.k.sched.currentThread = some c := by
    obtain ⟨q, c, hcore, -⟩ := h.block
    exact ⟨c, hcore.atSchedule.current⟩
  obtain ⟨c, hc⟩ := hcurrent
  constructor
  · intro time fuel code k m hcall herr
    cases skMutexLock_cases hc hcall with
    | relock | take => exact absurd rfl herr
    | relockFull | timeout => exact ⟨rfl, rfl⟩
    | takeFull hvalue hmax =>
      -- a mutex that can be taken has `hold` 0
      obtain ⟨-, -, hhold, -⟩ := (h.shape o).of_value hvalue
      rw [hhold] at hmax
      exact absurd (show 0 < mutexHoldMax by decide) hmax
  · intro code k m hcall herr
    cases skMutexUnlock_cases hc hcall with
    | notOwner => exact ⟨rfl, rfl⟩
    | once | release => exact absurd rfl herr

end MutexTrackInv

variable {idle : Tid} {y : MutexTrack}

/-- **Mutex state.** Along every run of locks, unlocks, sleeps and ticks, in which the threads
    that have blocked stay suspended until they are woken: the value, the owner, the wait list
    and `hold` of every mutex belong together, and the calls that return an error leave the
    mutex unchanged. -/
theorem mutex_state_invariant
    (h : (mutexTrackSystem idle).Reach (·.x.sys.StaySuspended ·) y) (o : Nat) :
    y.WellFormed o ∧ y.ErrorsKeep o :=
  ⟨(MutexTrackInv.of_reach h).wellFormed o, (MutexTrackInv.of_reach h).errorsKeep o⟩

/-- Thread 1 locks mutex 0 twice and sleeps; thread 2 waits for it for one tick, is timed out
    and returns without the mutex. -/
theorem mutex_state_invariant_timeout :
    ∃ y, (mutexTrackSystem 0).Reach (·.x.sys.StaySuspended ·) y ∧ (y.x.mutex 0).hold = 2 ∧
      y.x.held 0 2 = 1 ∧ y.WellFormed 0 ∧ y.ErrorsKeep 0 := by
  have hinit : (mutexTrackSystem 0).Reach (·.x.sys.StaySuspended ·)
      { x := pairMutexSys, since := fun _ => ⟨0, 0⟩ } :=
    .init ⟨⟨pairSys_started, rfl, rfl, rfl⟩, rfl⟩
  obtain ⟨y, hy, hp⟩ := hinit.exists_of_run
    [.call (.lock 0 0 0), .call (.lock 0 0 0), .sleep 10, .schedule, .call (.lock 0 1 1),
      .schedule, .tick 3, .call .lockReturn]
    (fun y => (y.x.mutex 0).hold = 2 ∧ y.x.held 0 2 = 1) (by decide +kernel)
  obtain ⟨hhold, hheld⟩ := of_decide_eq_true hp
  obtain ⟨hwf, herr⟩ := mutex_state_invariant hy 0
  exact ⟨y, hy, hhold, hheld, hwf, herr⟩

end SKernel.Spec
