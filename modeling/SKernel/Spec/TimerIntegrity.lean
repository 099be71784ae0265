import SKernel.ForStd.Simulation
import SKernel.Spec.TimerList

/-!
# Integrity of the timer list

Timers are initialised, started, stopped, controlled and deleted, and the timer list is checked,
in any order; the callbacks of a check may call the timer functions as well. The list is meant to
stay a well-formed ring that holds every active timer exactly once.

`__timer_init` makes the list node of the timer point to itself. When the timer is on the list,
its neighbours still point to it, and the walk from the head does not return any more. It also
takes over the flag it is given, which may say that the timer is active.
-/

namespace SKernel.Spec

open Native Links Function List Option

variable {I σ : Type*} [DecidableEq I] {tm : Timers I} {flag : BitVec 8} {n : TimerNode I}
variable {fuel : Nat}

/-! ## The system -/

/-- The timers, those of them that have been initialised, and where `sk_timer_check` stands. -/
structure TimerUse (I : Type*) where
  tm : Timers I
  inited : List I
  pc : CheckPc I

/-- The calls of the timer functions, the steps of `sk_timer_check`, and the passing of time. -/
inductive TimerCall (I : Type*) where
  | init (i : I) (tick : Nat) (flag : BitVec 8)
  | start (i : I)
  | stop (i : I)
  | control (i : I) (cmd : TimerCtrl)
  | delete (i : I)
  | check
  | visit
  | called
  | tick

/-- The timer that a call is about. -/
def TimerCall.target : TimerCall I → Option I
  | .init i _ _ | .start i | .stop i | .control i _ | .delete i => some i
  | .check | .visit | .called | .tick => none

namespace TimerUse

/-- A timer function is called on an initialised timer, between the checks or by a callback. -/
def use (x : TimerUse I) (i : I) (f : Timers I → Timers I) : Option (TimerUse I) :=
  match x.pc with
  | .visit _ => none
  | .idle | .called _ => if i ∈ x.inited then some { x with tm := f x.tm } else none

/-- The state after a call or a step. -/
def step (x : TimerUse I) : TimerCall I → Option (TimerUse I)
  | .init i tick flag =>
    match x.pc with
    | .visit _ => none
    | .idle | .called _ =>
      some { x with tm := timerInit x.tm i tick flag, inited := i :: x.inited }
  | .start i => x.use i (skTimerStart · i)
  | .stop i => x.use i (skTimerStop · i)
  | .control i cmd => x.use i fun tm => (skTimerControl tm i cmd).2
  | .delete i => x.use i (timerDelete · i)
  | .check =>
    match x.pc with
    | .idle => some { x with pc := .visit (x.tm.links.next .head) }
    | .visit _ | .called _ => none
  | .visit =>
    match x.pc with
    | .visit list1 => some { x with pc := timerCheckVisit x.tm list1 }
    | .idle | .called _ => none
  | .called =>
    match x.pc with
    | .called i =>
      some { x with pc := (timerCheckCalled x.tm i).1, tm := (timerCheckCalled x.tm i).2 }
    | .idle | .visit _ => none
  | .tick => some { x with tm := { x.tm with skTick := x.tm.tickAfter 1 } }

/-- No timer is initialised while it is on the list, or as an active one. -/
def Careful (x : TimerUse I) : TimerCall I → Prop
  | .init i _ flag =>
    (i ∈ x.inited → x.tm.links.next (.timer i) = .timer i) ∧ flag &&& timerFlagActive = 0
  | _ => True

instance (x : TimerUse I) (e : TimerCall I) : Decidable (x.Careful e) :=
  match e with
  | .init i _ flag => inferInstanceAs (Decidable
      ((i ∈ x.inited → x.tm.links.next (.timer i) = .timer i) ∧ flag &&& timerFlagActive = 0))
  | .start _ | .stop _ | .control .. | .delete _ | .check | .visit | .called | .tick =>
    isTrue trivial

/-- `__timer_list` is a ring that holds no timer twice and every active timer. -/
def Integrity (x : TimerUse I) : Prop :=
  ∃ xs : List I, (.head :: (xs.map .timer ++ [.head])).IsChain x.tm.links.Linked ∧ xs.Nodup ∧
    ∀ i ∈ x.inited, (x.tm.timer i).isActive = true → i ∈ xs

end TimerUse

/-- At first the list is empty, and no timer has been initialised. -/
def timerSystem (I : Type*) [DecidableEq I] : TransitionSystem (TimerUse I) (TimerCall I) where
  init x := ∃ L, x.tm.links = skListInit L .head ∧ x.inited = [] ∧ x.pc = .idle
  step := TimerUse.step

/-! ## The invariant -/

/-- The head and the list nodes of the timers that have been initialised. -/
def timerNodes (inited : List I) : Set (TimerNode I) :=
  {n | ∀ i, n = .timer i → i ∈ inited}

omit [DecidableEq I] in
theorem timer_mem_timerNodes {inited : List I} {i : I} :
    .timer i ∈ timerNodes inited ↔ i ∈ inited := by
  simp [timerNodes]

omit [DecidableEq I] in
theorem head_mem_timerNodes (inited : List I) : .head ∈ timerNodes inited := by
  simp [timerNodes]

omit [DecidableEq I] in
private theorem timerNodes_cons (inited : List I) (i : I) :
    timerNodes (i :: inited) = insert (.timer i) (timerNodes inited) := by
  ext n
  cases n with
  | head => simp [timerNodes]
  | timer j => simp [timerNodes, eq_comm]

/-- The check stands at a node that has been set up. -/
def CheckPc.InNodes (inited : List I) : CheckPc I → Prop
  | .idle => True
  | .visit n => n ∈ timerNodes inited
  | .called i => i ∈ inited

/-- The invariant of the runs: the list holds the timers `xs`. -/
structure TimerRing (x : TimerUse I) (xs : List I) : Prop where
  ring : TimerListOn (timerNodes x.inited) x.tm xs
  active : ∀ i ∈ x.inited, (x.tm.timer i).isActive = true → i ∈ xs
  pc : CheckPc.InNodes x.inited x.pc

/-- A call on timer `k` leaves the list, takes the timer off it or moves it to the front. -/
inductive Relinks (k : I) (xs : List I) : List I → Prop where
  | same : Relinks k xs xs
  | off : Relinks k xs (xs.erase k)
  | front : Relinks k xs (k :: xs.erase k)

variable {x x' : TimerUse I} {xs : List I} {i k : I}

private theorem skTimerControl_skTick (tm : Timers I) (i : I) (cmd : TimerCtrl) :
    (skTimerControl tm i cmd).2.skTick = tm.skTick := by
  cases cmd <;> rfl

private theorem skTimerControl_timer_of_ne {j : I} (hj : j ≠ i) {cmd : TimerCtrl} :
    (skTimerControl tm i cmd).2.timer j = tm.timer j := by
  cases cmd with
  | setTime _ | setOnshot | setPeriodic => exact update_of_ne hj _ _
  | getTime | getState | other _ => rfl

theorem TimerUse.use_eq {f : Timers I → Timers I} (h : x.use i f = some x') :
    (∀ n, x.pc ≠ .visit n) ∧ i ∈ x.inited ∧ x' = { x with tm := f x.tm } := by
  unfold TimerUse.use at h
  cases hpc : x.pc with
  | visit n => simp [hpc] at h
  | idle | called j =>
    simp only [hpc, ite_none_right_eq_some, some.injEq] at h
    exact ⟨by simp, h.1, h.2.symm⟩

private theorem TimerUse.init_eq {tick : Nat} (h : x.step (.init i tick flag) = some x') :
    (∀ n, x.pc ≠ .visit n) ∧
      x' = { x with tm := timerInit x.tm i tick flag, inited := i :: x.inited } := by
  unfold TimerUse.step at h
  cases hpc : x.pc with
  | visit n => simp [hpc] at h
  | idle | called j =>
    simp only [hpc, some.injEq] at h
    exact ⟨by simp, h.symm⟩

namespace TimerRing

omit [DecidableEq I] in
theorem notMem_of_self (h : TimerRing x xs) (hself : x.tm.links.next (.timer i) = .timer i) :
    i ∉ xs := by
  intro hi
  obtain ⟨as, bs, rfl⟩ := append_of_mem hi
  have hnext := h.ring.next_timer
  rw [hself] at hnext
  cases bs with
  | nil => cases hnext
  | cons b bs =>
    cases hnext
    have hcons := (nodup_append.mp h.ring.nodup).2.1
    exact (nodup_cons.mp hcons).1 mem_cons_self

theorem init (h : TimerRing x xs) (tick : Nat)
    (hself : i ∈ x.inited → x.tm.links.next (.timer i) = .timer i)
    (hflag : flag &&& timerFlagActive = 0) :
    TimerRing { x with tm := timerInit x.tm i tick flag, inited := i :: x.inited } xs := by
  refine ⟨?_, ?_, ?_⟩
  · show Rings (x.tm.links.isolate (.timer i)) (timerNodes (i :: x.inited)) _ _
    rw [timerNodes_cons]
    by_cases hi : i ∈ x.inited
    · have hmem := timer_mem_timerNodes.mpr hi
      have hnot := h.notMem_of_self (hself hi)
      rw [Rings.isolate_free h.ring ⟨hmem, by simp, fun _ _ => by simpa using hnot⟩,
        Set.insert_eq_of_mem hmem]
      exact h.ring
    · exact h.ring.isolate (fun hmem => hi (timer_mem_timerNodes.mp hmem))
  · intro j hj hactive
    by_cases hji : j = i
    · -- the flag of the timer itself says that it is not active
      subst hji
      simp [timerInit, Timers.setTimer, SysTimer.isActive, hflag] at hactive
    · simp only [timerInit, Timers.setTimer, update_of_ne hji] at hactive
      exact h.active j ((mem_cons.mp hj).resolve_left hji) hactive
  · have hpc := h.pc
    cases hx : x.pc with
    | idle => exact trivial
    | visit n =>
      rw [hx] at hpc
      show n ∈ timerNodes (i :: x.inited)
      rw [timerNodes_cons]
      exact Set.mem_insert_of_mem _ hpc
    | called j =>
      rw [hx] at hpc
      exact mem_cons_of_mem i hpc

theorem start (h : TimerRing x xs) (hi : i ∈ x.inited) :
    TimerRing { x with tm := skTimerStart x.tm i } (i :: xs.erase i) := by
  refine ⟨h.ring.start (timer_mem_timerNodes.mpr hi), ?_, h.pc⟩
  intro j hj hactive
  by_cases hji : j = i
  · rw [hji]
    exact mem_cons_self
  · simp only [skTimerStart, timerRemove, Timers.setTimer, update_of_ne hji] at hactive
    exact mem_cons_of_mem i ((mem_erase_of_ne hji).mpr (h.active j hj hactive))

private theorem isActive_of_timerDeactivate {j : I}
    (hactive : ((timerDeactivate tm i).timer j).isActive = true) :
    j ≠ i ∧ (tm.timer j).isActive = true := by
  have hji : j ≠ i := by
    intro heq
    subst heq
    simp [timerDeactivate, Timers.setTimer] at hactive
  simp only [timerDeactivate, Timers.setTimer, update_of_ne hji] at hactive
  exact ⟨hji, hactive⟩

theorem deactivate (h : TimerRing x xs) : TimerRing { x with tm := timerDeactivate x.tm i } xs :=
  ⟨h.ring, fun j hj hactive => h.active j hj (isActive_of_timerDeactivate hactive).2, h.pc⟩

theorem delete (h : TimerRing x xs) (hi : i ∈ x.inited) :
    TimerRing { x with tm := timerDelete x.tm i } (xs.erase i) := by
  refine ⟨h.ring.remove (timer_mem_timerNodes.mpr hi), ?_, h.pc⟩
  intro j hj hactive
  obtain ⟨hji, hold⟩ := isActive_of_timerDeactivate hactive
  exact (mem_erase_of_ne hji).mpr (h.active j hj hold)

private theorem isActive_setTimer (tm : Timers I) {t : SysTimer}
    (h : t.flag &&& timerFlagActive = (tm.timer i).flag &&& timerFlagActive) (j : I) :
    ((tm.setTimer i t).timer j).isActive = (tm.timer j).isActive := by
  unfold Timers.setTimer SysTimer.isActive
  by_cases hji : j = i
  · subst hji
    simp only [update_self, h]
  · simp only [update_of_ne hji]

private theorem isActive_skTimerControl (tm : Timers I) (i j : I) (cmd : TimerCtrl) :
    ((skTimerControl tm i cmd).2.timer j).isActive = (tm.timer j).isActive := by
  have hflags : ∀ f : BitVec 8,
      (f &&& ~~~timerFlagPeriodic) &&& timerFlagActive = f &&& timerFlagActive ∧
      (f ||| timerFlagPeriodic) &&& timerFlagActive = f &&& timerFlagActive := by decide
  cases cmd with
  | getTime => rfl
  | setTime tick =>
    exact isActive_setTimer tm (t := { tm.timer i with initTick := tick }) rfl j
  | setOnshot => exact isActive_setTimer tm (hflags _).1 j
  | setPeriodic => exact isActive_setTimer tm (hflags _).2 j
  | getState => rfl
  | other cmd => rfl

theorem control (h : TimerRing x xs) (cmd : TimerCtrl) :
    TimerRing { x with tm := (skTimerControl x.tm i cmd).2 } xs := by
  refine ⟨?_, ?_, h.pc⟩
  · cases cmd <;> exact h.ring
  · intro j hj hactive
    rw [isActive_skTimerControl] at hactive
    exact h.active j hj hactive

omit [DecidableEq I] in
theorem visit (h : TimerRing x xs) (hn : n ∈ timerNodes x.inited) :
    TimerRing { x with pc := timerCheckVisit x.tm n } xs := by
  refine ⟨h.ring, h.active, ?_⟩
  cases n with
  | head => exact trivial
  | timer i =>
    show CheckPc.InNodes x.inited (timerCheckVisit x.tm (.timer i))
    dsimp only [timerCheckVisit]
    split
    · exact timer_mem_timerNodes.mp hn
    · exact h.ring.next_mem_dom hn

/-- The timer is left alone, restarted or deactivated. -/
theorem called (h : TimerRing x xs) (hi : i ∈ x.inited) :
    ∃ xs', TimerRing
      { x with pc := (timerCheckCalled x.tm i).1, tm := (timerCheckCalled x.tm i).2 } xs' := by
  unfold timerCheckCalled
  split
  · exact ⟨xs, h.ring, h.active, trivial⟩
  · have hnode := timer_mem_timerNodes.mpr hi
    split
    · have hstart := h.start hi
      exact ⟨_, hstart.ring, hstart.active, hstart.ring.next_mem_dom hnode⟩
    · have hoff := h.deactivate (i := i)
      exact ⟨_, hoff.ring, hoff.active, hoff.ring.next_mem_dom hnode⟩

theorem call (h : TimerRing x xs) {e : TimerCall I} (htarget : e.target = some k)
    (hcareful : x.Careful e) (hstep : x.step e = some x') :
    (∀ n, x.pc ≠ .visit n) ∧ x'.pc = x.pc ∧ x'.tm.skTick = x.tm.skTick ∧
      (∀ j, j ≠ k → x'.tm.timer j = x.tm.timer j) ∧ ∃ xs', TimerRing x' xs' ∧ Relinks k xs xs' := by
  cases e with
  | init i tick flag =>
    cases htarget
    obtain ⟨hpc, rfl⟩ := TimerUse.init_eq hstep
    exact ⟨hpc, rfl, rfl, fun j hj => update_of_ne hj _ _, xs,
      h.init tick hcareful.1 hcareful.2, .same⟩
  | start i =>
    cases htarget
    obtain ⟨hpc, hi, rfl⟩ := TimerUse.use_eq (f := (skTimerStart · k)) hstep
    exact ⟨hpc, rfl, rfl, fun j hj => update_of_ne hj _ _, _, h.start hi, .front⟩
  | stop i =>
    cases htarget
    obtain ⟨hpc, hi, rfl⟩ := TimerUse.use_eq (f := (skTimerStop · k)) hstep
    -- an active timer is stopped in the same way as it is deleted
    dsimp only [skTimerStop]
    split
    · exact ⟨hpc, rfl, rfl, fun j hj => update_of_ne hj _ _, _, h.delete hi, .off⟩
    · exact ⟨hpc, rfl, rfl, fun _ _ => rfl, xs, h, .same⟩
  | control i cmd =>
    cases htarget
    obtain ⟨hpc, hi, rfl⟩ := TimerUse.use_eq (f := fun tm => (skTimerControl tm k cmd).2) hstep
    exact ⟨hpc, rfl, skTimerControl_skTick .., fun j hj => skTimerControl_timer_of_ne hj, xs,
      h.control cmd, .same⟩
  | delete i =>
    cases htarget
    obtain ⟨hpc, hi, rfl⟩ := TimerUse.use_eq (f := (timerDelete · k)) hstep
    exact ⟨hpc, rfl, rfl, fun j hj => update_of_ne hj _ _, _, h.delete hi, .off⟩
  | check | visit | called | tick => cases htarget

theorem step (h : TimerRing x xs) {e : TimerCall I} (hcareful : x.Careful e)
    (hstep : x.step e = some x') : ∃ xs', TimerRing x' xs' := by
  cases e with
  | init i _ _ | start i | stop i | control i _ | delete i =>
    obtain ⟨-, -, -, -, xs', hring, -⟩ := h.call rfl hcareful hstep
    exact ⟨xs', hring⟩
  | check =>
    unfold TimerUse.step at hstep
    cases hpc : x.pc with
    | visit n | called j => simp [hpc] at hstep
    | idle =>
      simp only [hpc, some.injEq] at hstep
      rw [← hstep]
      exact ⟨xs, h.ring, h.active, h.ring.next_mem_dom (head_mem_timerNodes _)⟩
  | visit =>
    have hin := h.pc
    unfold TimerUse.step at hstep
    cases hpc : x.pc with
    | idle | called j => simp [hpc] at hstep
    | visit n =>
      simp only [hpc, some.injEq] at hstep
      rw [hpc] at hin
      rw [← hstep]
      exact ⟨xs, h.visit hin⟩
  | called =>
    have hin := h.pc
    unfold TimerUse.step at hstep
    cases hpc : x.pc with
    | idle | visit n => simp [hpc] at hstep
    | called i =>
      simp only [hpc, some.injEq] at hstep
      rw [hpc] at hin
      rw [← hstep]
      exact h.called hin
  | tick =>
    cases hstep
    exact ⟨xs, h.ring, h.active, h.pc⟩

private theorem of_init (h : (timerSystem I).init x) : TimerRing x [] := by
  obtain ⟨L, hlinks, hinited, hpc⟩ := h
  refine ⟨?_, ?_, ?_⟩
  · rw [TimerListOn, hlinks, hinited, skListInit_eq]
    have hnodes : timerNodes ([] : List I) = {.head} := by
      ext n
      cases n <;> simp [timerNodes]
    rw [hnodes]
    refine Rings.of_isolated (Set.Subset.refl _) ?_
    intro n hn
    simp [isolate_next, isolate_prev, Set.mem_singleton_iff.mp hn]
  · simp [hinited]
  · rw [hpc]
    trivial

omit [DecidableEq I] in
private theorem integrity (h : TimerRing x xs) : x.Integrity :=
  ⟨xs, Rings.ring h.ring (Set.mem_singleton _), h.ring.nodup, h.active⟩

theorem of_reach (h : (timerSystem I).Reach TimerUse.Careful x) : ∃ xs, TimerRing x xs :=
  h.invariant (I := fun x => ∃ xs, TimerRing x xs) (fun _ hx => ⟨[], of_init hx⟩)
    fun _ _ _ ⟨_, hinv⟩ => hinv.step

end TimerRing

/-- **Timer list integrity.** Along every run of timer calls and checks, in which no timer is
    initialised while it is on the list or with the active flag: the list is a well-formed ring
    that holds no timer twice, and every active timer. -/
theorem timer_list_integrity (h : (timerSystem I).Reach TimerUse.Careful x) : x.Integrity := by
  obtain ⟨xs, hring⟩ := TimerRing.of_reach h
  exact hring.integrity

/-! ## The checks are those of the source -/

variable {guard : TimerUse I → TimerCall I → Prop}

theorem reach_timerCheckLoop (hguard : ∀ x, guard x .visit ∧ guard x .called)
    (timeoutFunc : I → σ → σ) {s s' : σ} (hx : (timerSystem I).Reach guard x)
    (hpc : x.pc = .visit n) (hloop : timerCheckLoop timeoutFunc fuel n x.tm s = some (tm, s')) :
    (timerSystem I).Reach guard { x with tm := tm, pc := .idle } := by
  refine timerCheckLoop_invariant
    (fun pc tm _ => (timerSystem I).Reach guard { x with tm := tm, pc := pc }) ?_ ?_ ?_ hloop
  · intro n tm s hreach
    exact hreach.step .visit (hguard _).1 rfl
  · intro i tm s hreach
    exact hreach.step .called (hguard _).2 rfl
  · rw [← hpc]
    exact hx

theorem reach_check (hguard : ∀ x, guard x .check ∧ guard x .visit ∧ guard x .called)
    {timeoutFunc : I → σ → σ} {s s' : σ} (hx : (timerSystem I).Reach guard x) (hpc : x.pc = .idle)
    (hcheck : skTimerCheck timeoutFunc fuel x.tm s = some (tm, s')) :
    (timerSystem I).Reach guard { x with tm := tm, pc := .idle } := by
  have hbegin : (timerSystem I).Reach guard { x with pc := .visit (x.tm.links.next .head) } := by
    refine hx.step .check (hguard x).1 ?_
    show x.step .check = _
    unfold TimerUse.step
    rw [hpc]
  have hwalk := reach_timerCheckLoop (fun x => (hguard x).2) timeoutFunc hbegin rfl hcheck
  exact hwalk

/-! ## Two timers -/

/-- No timer has been initialised yet. -/
def noTimers : TimerUse Nat where
  tm :=
    { skTick := 0
      links := ⟨fun _ => .head, fun _ => .head⟩
      timer := fun _ => { flag := 0, initTick := 0, timeoutTick := 0 } }
  inited := []
  pc := .idle

private theorem reach_noTimers (guard : TimerUse Nat → TimerCall Nat → Prop) :
    (timerSystem Nat).Reach guard noTimers := by
  refine .init ⟨noTimers.tm.links, ?_, rfl, rfl⟩
  rw [skListInit_eq]
  unfold isolate setPrev setNext noTimers
  simp

/-- Timers 0 and 1 are started, a check comes one tick later, and timer 0 is stopped by its
    callback. -/
theorem timer_list_integrity_two :
    ∃ x, (timerSystem Nat).Reach TimerUse.Careful x ∧ (x.tm.timer 1).isActive = true ∧
      x.Integrity := by
  obtain ⟨x, hx, hp⟩ := (reach_noTimers TimerUse.Careful).exists_of_run
    [.init 0 1 0, .init 1 2 2, .start 1, .start 0, .tick, .check, .visit, .stop 0, .called]
    (fun x => (x.tm.timer 1).isActive = true) (by decide +kernel)
  exact ⟨x, hx, of_decide_eq_true hp, timer_list_integrity hx⟩

/-- Timers 0 and 1 are started and timer 0 is initialised again: the walk from the head never
    returns to it. -/
theorem timer_list_integrity_fails :
    ∃ x, (timerSystem Nat).Reach (fun _ _ => True) x ∧ ¬x.Integrity := by
  obtain ⟨x, hx, hp⟩ := (reach_noTimers fun _ _ => True).exists_of_run
    [.init 0 1 0, .init 1 1 0, .start 1, .start 0, .init 0 1 0]
    (fun x => x.tm.links.next .head = .timer 0 ∧ x.tm.links.next (.timer 0) = .timer 0)
    (by decide +kernel)
  obtain ⟨hhead, hself⟩ := of_decide_eq_true hp
  refine ⟨x, hx, ?_⟩
  rintro ⟨xs, hring, -, -⟩
  cases xs with
  | nil =>
    simp only [map_nil, nil_append, isChain_cons_cons, Linked, hhead] at hring
    cases hring.1.1
  | cons i xs =>
    simp only [map_cons, cons_append, isChain_cons_cons, Linked, hhead] at hring
    obtain ⟨⟨hi, hprev⟩, hrest⟩ := hring
    cases hi
    -- the node after timer 0 is timer 0, so the head would have to be behind it
    cases xs with
    | nil =>
      simp only [map_nil, nil_append, isChain_cons_cons, Linked, hself] at hrest
      cases hrest.1.1
    | cons j xs =>
      simp only [map_cons, cons_append, isChain_cons_cons, Linked, hself] at hrest
      obtain ⟨⟨hj, hprev'⟩, -⟩ := hrest
      rw [← hj, hprev] at hprev'
      cases hprev'

end SKernel.Spec
