import SKernel.Spec.TimerIntegrity
import SKernel.Spec.TimerTermination

/-!
# Timers and the wrap-around of the tick counter

`sk_timer_start` adds `init_tick` to the tick modulo `2 ^ 32`, and `sk_timer_check` compares the
sum with the tick as an absolute number. The two agree as long as the sum does not wrap. When it
does, the timer has expired at once: it is called back at the next tick, unless that tick wraps
the counter to 0 itself.

A timer is watched from its start on. Between the ticks and in the callbacks every call is
allowed on the other timers.
-/

namespace SKernel.Spec

open Native Links List Option

variable {I : Type*} [DecidableEq I] {e : TimerCall I} {done rest : List I} {d : Nat}

/-! ## Watching a timer -/

/-- The step of `sk_timer_check` after a callback. -/
def TimerCall.isCalled : TimerCall I → Bool
  | .called => true
  | .init .. | .start _ | .stop _ | .control .. | .delete _ | .check | .visit | .tick => false

/-- The timers, the ticks since the watched timer was started, and the ticks at which it was called
    back. -/
structure Watch (I : Type*) where
  sys : TimerUse I
  elapsed : Nat
  calls : List Nat

namespace Watch

/-- The check is about to invoke the callback of timer `X`. -/
def aboutToCall (w : Watch I) (X : I) : Bool :=
  match w.sys.pc with
  | .visit (.timer i) => i = X && isDue w.sys.tm X
  | .visit .head | .idle | .called _ => false

/-- A tick is followed by a check of the timers, as in `sk_tick_increase`. -/
def step (X : I) (w : Watch I) : TimerCall I → Option (Watch I)
  | .tick => (w.sys.step .tick).bind fun sys => (sys.step .check).map fun sys =>
      { w with sys := sys, elapsed := w.elapsed + 1 }
  | .check => none
  | .visit => (w.sys.step .visit).map fun sys =>
      { w with sys := sys, calls := if w.aboutToCall X then w.calls ++ [w.elapsed] else w.calls }
  | e => (w.sys.step e).map fun sys => { w with sys := sys }

/-- The callback that has been invoked has not taken its own timer off the list. -/
def StillLinked (w : Watch I) : Prop :=
  match w.sys.pc with
  | .called j => w.sys.tm.links.next (.timer j) ≠ .timer j
  | .idle | .visit _ => True

instance (w : Watch I) : Decidable w.StillLinked :=
  match h : w.sys.pc with
  | .called j => decidable_of_iff (w.sys.tm.links.next (.timer j) ≠ .timer j) (by
      rw [StillLinked, h])
  | .idle | .visit _ => isTrue (by rw [StillLinked, h]; trivial)

/-- Timers are initialised with care, the watched one is left alone, and no callback unlinks its own
    timer. -/
def Allowed (X : I) (w : Watch I) (e : TimerCall I) : Prop :=
  w.sys.Careful e ∧ e.target ≠ some X ∧ (e.isCalled = true → w.StillLinked)

instance (X : I) (w : Watch I) (e : TimerCall I) : Decidable (w.Allowed X e) :=
  inferInstanceAs (Decidable (_ ∧ _ ∧ _))

end Watch

variable {x x' : TimerUse I} {xs xs' : List I} {X i j k : I}

theorem Relinks.mem (h : Relinks k xs xs') (hk : k ≠ X) (hX : X ∈ xs) : X ∈ xs' := by
  have herase : X ∈ xs.erase k := (mem_erase_of_ne hk.symm).mpr hX
  cases h with
  | same => exact hX
  | off => exact herase
  | front => exact mem_cons_of_mem k herase

theorem Relinks.before (h : Relinks k xs xs') (hk : k ≠ X) (hX : X ∈ xs) (hnd : xs.Nodup)
    (hj : j ∈ xs → [j, X].Sublist xs) (hj' : j ∈ xs') : [j, X].Sublist xs' := by
  have herase : j ≠ k → j ∈ xs.erase k → [j, X].Sublist (xs.erase k) := by
    intro hjk hmem
    have hsub := (hj (mem_of_mem_erase hmem)).erase k
    rwa [erase_of_not_mem (by simp [hjk.symm, hk])] at hsub
  cases h with
  | same => exact hj hj'
  | off =>
    have hjk : j ≠ k := fun heq => hnd.not_mem_erase (heq ▸ hj')
    exact herase hjk hj'
  | front =>
    by_cases hjk : j = k
    · rw [hjk]
      have hmem : X ∈ xs.erase k := (mem_erase_of_ne hk.symm).mpr hX
      exact (singleton_sublist.mpr hmem).cons_cons k
    · cases mem_cons.mp hj' with
      | inl heq => exact absurd heq hjk
      | inr hmem => exact (herase hjk hmem).cons k

omit [DecidableEq I] in
private theorem mem_of_pair_sublist {as bs : List I} (hnd : (as ++ j :: bs).Nodup)
    (hsub : [j, X].Sublist (as ++ j :: bs)) : X ∈ bs := by
  have hnot := (nodup_cons.mp (nodup_middle.mp hnd)).1
  obtain ⟨l1, l2, hl, has, hbs⟩ := sublist_append_iff.mp hsub
  cases l1 with
  | cons a l1 =>
    -- timer `j` is not among the timers in front of it
    rw [cons_append, cons.injEq] at hl
    rw [← hl.1] at has
    exact absurd (mem_append_left bs (has.subset mem_cons_self)) hnot
  | nil =>
    rw [nil_append] at hl
    subst hl
    cases hbs with
    | cons _ hbs => exact absurd (mem_append_right as (hbs.subset mem_cons_self)) hnot
    | cons_cons _ hbs => exact singleton_sublist.mp hbs

/-- The walk is still to visit timer `X`, at a callback if its timer is on the list when it
    returns. -/
def Ahead (X : I) (xs : List I) : CheckPc I → Prop
  | .idle => False
  | .visit n => ∃ as bs, xs = as ++ bs ∧ n = firstNode bs ∧ X ∈ bs
  | .called j => j ∈ xs → [j, X].Sublist xs

/-! ## Until the callback -/

/-- Timer `X`, started in state `x` with timeout `timeout`, has not been called back. It is first
    due after `m` ticks, and the walk will visit it then. -/
structure Waiting (x : TimerUse I) (X : I) (timeout m : Nat) (w : Watch I) (xs : List I) :
    Prop where
  ring : TimerRing w.sys xs
  mem : X ∈ xs
  calls : w.calls = []
  active : (w.sys.tm.timer X).isActive = true
  timeoutTick : (w.sys.tm.timer X).timeoutTick = timeout
  skTick : w.sys.tm.skTick = (x.tm.skTick + w.elapsed) % 2 ^ 32
  pc_ne : w.sys.pc ≠ .called X
  idle : w.elapsed = 0 → x.pc = .idle → w.sys.pc = .idle
  le : w.elapsed ≤ m
  ahead : w.elapsed = m → Ahead X xs w.sys.pc

/-- Timer `X` has been called back, for the first time after `m` ticks. -/
structure CalledBack (m : Nat) (w : Watch I) : Prop where
  mem : m ∈ w.calls
  le : ∀ c ∈ w.calls, m ≤ c
  elapsed : m ≤ w.elapsed

/-- The timer started in state `x` is first due after `m` ticks. No check comes before the first
    tick when it is started between two checks. -/
structure FirstDue (x : TimerUse I) (timeout m : Nat) : Prop where
  pos : 0 < m
  due : timeout ≤ (x.tm.skTick + m) % 2 ^ 32
  early : ∀ n < m, (x.tm.skTick + n) % 2 ^ 32 < timeout ∨ n = 0 ∧ x.pc = .idle

variable {w w' : Watch I} {timeout m : Nat}

namespace Waiting

/-- A call on another timer. -/
theorem call (h : Waiting x X timeout m w xs) (htarget : e.target = some k)
    (hallowed : Watch.Allowed X w e) {sys : TimerUse I} (hstep : w.sys.step e = some sys) :
    ∃ xs', Waiting x X timeout m { w with sys := sys } xs' := by
  have hk : k ≠ X := by
    intro heq
    rw [heq] at htarget
    exact hallowed.2.1 htarget
  obtain ⟨hvisit, hpc, htick, htimer, xs', hring, hrel⟩ := h.ring.call htarget hallowed.1 hstep
  refine ⟨xs', hring, hrel.mem hk h.mem, h.calls, ?_, ?_, ?_, ?_, ?_, h.le, ?_⟩
  · rw [htimer X hk.symm]
    exact h.active
  · rw [htimer X hk.symm]
    exact h.timeoutTick
  · exact htick.trans h.skTick
  · rw [hpc]
    exact h.pc_ne
  · rw [hpc]
    exact h.idle
  · intro hm
    have hahead := h.ahead hm
    rw [hpc]
    cases hx : w.sys.pc with
    | idle =>
      rw [hx] at hahead
      exact hahead.elim
    | visit n => exact absurd hx (hvisit n)
    | called j =>
      rw [hx] at hahead
      exact hrel.before hk h.mem h.ring.ring.nodup hahead

omit [DecidableEq I] in
theorem tick (h : Waiting x X timeout m w xs) (hpc : w.sys.pc = .idle) :
    Waiting x X timeout m
      { w with
        sys := { w.sys with
          tm := { w.sys.tm with skTick := w.sys.tm.tickAfter 1 }
          pc := .visit (w.sys.tm.links.next .head) }
        elapsed := w.elapsed + 1 } xs := by
  have hlt : w.elapsed < m := by
    apply Nat.lt_of_le_of_ne h.le
    intro hm
    have hahead := h.ahead hm
    rw [hpc] at hahead
    exact hahead
  have hhead : w.sys.tm.links.next .head = firstNode xs := by
    rw [h.ring.ring.next_head]
  refine ⟨⟨h.ring.ring, h.ring.active, ?_⟩, h.mem, h.calls, h.active, h.timeoutTick, ?_, ?_, ?_,
    hlt, ?_⟩
  · exact h.ring.ring.next_mem_dom (head_mem_timerNodes _)
  · show (w.sys.tm.skTick + 1) % 2 ^ 32 = (x.tm.skTick + (w.elapsed + 1)) % 2 ^ 32
    rw [h.skTick, Nat.mod_add_mod, Nat.add_assoc]
  · simp
  · intro hzero
    cases hzero
  · intro _
    exact ⟨[], xs, rfl, hhead, h.mem⟩

omit [DecidableEq I] in
/-- Only the position of the walk changes. -/
theorem move (h : Waiting x X timeout m w xs) {pc : CheckPc I}
    (hring : TimerRing { w.sys with pc := pc } xs) (hne : pc ≠ .called X)
    (hstarted : w.elapsed = 0 → x.pc ≠ .idle) (hahead : w.elapsed = m → Ahead X xs pc) :
    Waiting x X timeout m { w with sys := { w.sys with pc := pc } } xs :=
  ⟨hring, h.mem, h.calls, h.active, h.timeoutTick, h.skTick, hne,
    fun hzero hidle => absurd hidle (hstarted hzero), h.le, hahead⟩

/-- The callback is invoked after `m` ticks, not earlier. -/
theorem visit (h : Waiting x X timeout m w xs) (hdue : FirstDue x timeout m) {n : TimerNode I}
    (hpc : w.sys.pc = .visit n) :
    (w.aboutToCall X = true ∧ w.elapsed = m) ∨
      w.aboutToCall X = false ∧ Waiting x X timeout m
        { w with sys := { w.sys with pc := timerCheckVisit w.sys.tm n } } xs := by
  have hin := h.ring.pc
  have hahead := h.ahead
  rw [hpc] at hin hahead
  have hring := h.ring.visit hin
  have hstarted : w.elapsed = 0 → x.pc ≠ .idle := by
    intro hzero hidle
    have hw := h.idle hzero hidle
    rw [hpc] at hw
    cases hw
  cases n with
  | head =>
    refine .inr ⟨by simp [Watch.aboutToCall, hpc], h.move hring (by simp [timerCheckVisit])
      hstarted ?_⟩
    intro hm
    obtain ⟨as, bs, -, hfirst, hX⟩ := hahead hm
    cases bs with
    | nil => cases hX
    | cons b bs => cases hfirst
  | timer i =>
    -- where the walk is when it is still to visit timer `X`
    have hrest : w.elapsed = m → ∃ as bs, xs = as ++ i :: bs ∧ (i ≠ X → X ∈ bs) := by
      intro hm
      obtain ⟨as, bs, hxs, hfirst, hX⟩ := hahead hm
      cases bs with
      | nil => cases hX
      | cons b bs =>
        cases hfirst
        refine ⟨as, bs, hxs, ?_⟩
        intro hne
        exact (mem_cons.mp hX).resolve_left hne.symm
    by_cases hiX : i = X
    · subst hiX
      have habout : w.aboutToCall i = decide (timeout ≤ (x.tm.skTick + w.elapsed) % 2 ^ 32) := by
        simp [Watch.aboutToCall, hpc, isDue, h.active, h.timeoutTick, h.skTick]
      by_cases hm : w.elapsed = m
      · left
        rw [habout, hm]
        exact ⟨decide_eq_true hdue.due, rfl⟩
      · right
        have hlt : (x.tm.skTick + w.elapsed) % 2 ^ 32 < timeout := by
          cases hdue.early w.elapsed (Nat.lt_of_le_of_ne h.le hm) with
          | inl hlt => exact hlt
          | inr hzero => exact absurd hzero.2 (hstarted hzero.1)
        have hnot : ¬ w.sys.tm.skTick ≥ (w.sys.tm.timer i).timeoutTick := by
          rw [h.skTick, h.timeoutTick]
          omega
        refine ⟨by rw [habout]; exact decide_eq_false (by omega), h.move hring ?_ hstarted ?_⟩
        · simp [timerCheckVisit, hnot]
        · intro hm'
          exact absurd hm' hm
    · right
      refine ⟨by simp [Watch.aboutToCall, hpc, hiX], h.move hring ?_ hstarted ?_⟩
      · dsimp only [timerCheckVisit]
        split <;> simp [hiX]
      · intro hm
        obtain ⟨as, bs, hxs, hX⟩ := hrest hm
        have hX := hX hiX
        dsimp only [timerCheckVisit]
        split
        · intro _
          rw [hxs]
          exact ((singleton_sublist.mpr hX).cons_cons i).trans (sublist_append_right as _)
        · have hring' := h.ring.ring
          rw [hxs] at hring'
          exact ⟨as ++ [i], bs, by rw [hxs, append_assoc]; rfl, hring'.next_timer, hX⟩

/-- The callback has left its timer on the list. -/
theorem called (h : Waiting x X timeout m w xs) (hpc : w.sys.pc = .called j)
    (hlinked : w.sys.tm.links.next (.timer j) ≠ .timer j) :
    ∃ xs', Waiting x X timeout m
      { w with sys := { w.sys with
        pc := (timerCheckCalled w.sys.tm j).1, tm := (timerCheckCalled w.sys.tm j).2 } } xs' := by
  have hjX : j ≠ X := by
    intro heq
    subst heq
    exact h.pc_ne hpc
  have hin := h.ring.pc
  have hahead := h.ahead
  have hidle := h.idle
  rw [hpc] at hin hahead hidle
  have hnode : .timer j ∈ timerNodes w.sys.inited := timer_mem_timerNodes.mpr hin
  have hj : j ∈ xs := by
    by_contra hnot
    exact hlinked (h.ring.ring.free hnode (by simp) (by simpa using hnot)).1
  obtain ⟨as, bs, hxs⟩ := append_of_mem hj
  have hring := h.ring.ring
  rw [hxs] at hring
  -- there are two timers on the list, so the early return is not taken
  have hcont : ¬ w.sys.tm.links.next (.timer j) = w.sys.tm.links.prev (.timer j) := by
    rw [hring.next_eq_prev_iff]
    rintro ⟨rfl, rfl⟩
    have hX := h.mem
    rw [hxs] at hX
    exact hjX (mem_singleton.mp hX).symm
  unfold timerCheckCalled
  rw [if_neg hcont]
  by_cases hper : (w.sys.tm.timer j).isPeriodic = true
  · -- the walk starts over behind the timer
    have hstart := h.ring.start hin
    have hX : X ∈ xs.erase j := (mem_erase_of_ne hjX.symm).mpr h.mem
    have hnext : (skTimerStart w.sys.tm j).links.next (.timer j) = firstNode (xs.erase j) :=
      hstart.ring.next_first
    simp only [if_pos hper]
    refine ⟨j :: xs.erase j, ⟨hstart.ring, hstart.active, hstart.ring.next_mem_dom hnode⟩,
      mem_cons_of_mem j hX, h.calls, ?_, ?_, h.skTick, by simp, ?_, h.le, ?_⟩
    · rw [skTimerStart_timer_of_ne hjX.symm]
      exact h.active
    · rw [skTimerStart_timer_of_ne hjX.symm]
      exact h.timeoutTick
    · intro hzero hx
      cases hidle hzero hx
    · intro _
      exact ⟨[j], xs.erase j, rfl, hnext, hX⟩
  · have hoff := h.ring.deactivate (i := j)
    have htimer : (timerDeactivate w.sys.tm j).timer X = w.sys.tm.timer X :=
      Function.update_of_ne hjX.symm _ _
    simp only [if_neg hper]
    refine ⟨xs, ⟨hoff.ring, hoff.active, hoff.ring.next_mem_dom hnode⟩, h.mem, h.calls, ?_, ?_,
      h.skTick, by simp, ?_, h.le, ?_⟩
    · rw [htimer]
      exact h.active
    · rw [htimer]
      exact h.timeoutTick
    · intro hzero hx
      cases hidle hzero hx
    · intro hm
      have hsub := hahead hm hj
      have hnd := h.ring.ring.nodup
      rw [hxs] at hsub hnd
      exact ⟨as ++ [j], bs, by rw [hxs, append_assoc]; rfl, hring.next_timer,
        mem_of_pair_sublist hnd hsub⟩

theorem step (h : Waiting x X timeout m w xs) (hdue : FirstDue x timeout m)
    (hallowed : Watch.Allowed X w e) (hstep : w.step X e = some w') :
    (∃ xs', Waiting x X timeout m w' xs') ∨ CalledBack m w' := by
  cases e with
  | init i _ _ | start i | stop i | control i _ | delete i =>
    obtain ⟨sys, hsys, rfl⟩ := map_eq_some_iff.mp hstep
    exact .inl (h.call rfl hallowed hsys)
  | tick =>
    simp only [Watch.step, TimerUse.step, bind_some] at hstep
    cases hpc : w.sys.pc with
    | idle =>
      simp only [hpc, map_some, some.injEq] at hstep
      subst hstep
      exact .inl ⟨xs, h.tick hpc⟩
    | visit n | called j => simp [hpc] at hstep
  | check => cases hstep
  | visit =>
    obtain ⟨sys, hsys, rfl⟩ := map_eq_some_iff.mp hstep
    unfold TimerUse.step at hsys
    cases hpc : w.sys.pc with
    | idle | called j => simp [hpc] at hsys
    | visit n =>
      simp only [hpc, some.injEq] at hsys
      subst hsys
      obtain ⟨habout, hm⟩ | ⟨habout, hwait⟩ := h.visit hdue hpc
      · -- the visit finds timer `X` due: its callback is next
        right
        rw [if_pos habout, h.calls, hm]
        exact ⟨by simp, by simp, Nat.le_refl m⟩
      · left
        rw [if_neg (by simp [habout])]
        exact ⟨xs, hwait⟩
  | called =>
    obtain ⟨sys, hsys, rfl⟩ := map_eq_some_iff.mp hstep
    have hlinked := hallowed.2.2 rfl
    unfold TimerUse.step at hsys
    unfold Watch.StillLinked at hlinked
    cases hpc : w.sys.pc with
    | idle | visit n => simp [hpc] at hsys
    | called j =>
      simp only [hpc, some.injEq] at hsys hlinked
      subst hsys
      exact .inl (h.called hpc hlinked)

end Waiting

private theorem Watch.elapsed_le (hstep : w.step X e = some w') :
    w.elapsed ≤ w'.elapsed ∧ (w'.calls = w.calls ∨ w'.calls = w.calls ++ [w.elapsed]) := by
  cases e with
  | init i _ _ | start i | stop i | control i _ | delete i | called =>
    obtain ⟨sys, -, rfl⟩ := map_eq_some_iff.mp hstep
    exact ⟨Nat.le_refl _, .inl rfl⟩
  | tick =>
    simp only [Watch.step, bind_eq_some_iff, map_eq_some_iff] at hstep
    obtain ⟨-, -, sys, -, rfl⟩ := hstep
    exact ⟨Nat.le_succ _, .inl rfl⟩
  | check => cases hstep
  | visit =>
    obtain ⟨sys, -, rfl⟩ := map_eq_some_iff.mp hstep
    refine ⟨Nat.le_refl _, ?_⟩
    dsimp only
    split
    · exact .inr rfl
    · exact .inl rfl

/-- After the callback, the numbers of ticks only grow. -/
theorem CalledBack.step (h : CalledBack m w) (hstep : w.step X e = some w') :
    CalledBack m w' := by
  obtain ⟨hle, hcalls | hcalls⟩ := Watch.elapsed_le hstep
  · refine ⟨?_, ?_, Nat.le_trans h.elapsed hle⟩
    · rw [hcalls]
      exact h.mem
    · rw [hcalls]
      exact h.le
  · refine ⟨?_, ?_, Nat.le_trans h.elapsed hle⟩
    · rw [hcalls]
      exact mem_append_left _ h.mem
    · intro c hc
      rw [hcalls] at hc
      cases mem_append.mp hc with
      | inl hc => exact h.le c hc
      | inr hc =>
        rw [mem_singleton.mp hc]
        exact h.elapsed

end SKernel.Spec
