import SKernel.Spec.TimerList

/-!
# Termination of `sk_timer_check`

A periodic timer that has expired is restarted, which links it to the front of the list, and the
walk of `sk_timer_check` starts over behind it. Most timers are ahead of their timeout afterwards
and are passed the next time. A timer comes back when it has still expired after the restart:
its `init_tick` is 0, or the sum of the tick and its `init_tick` wraps. One such timer does no
harm, since the walk starts behind it. Two of them send the walk from one to the other for ever.
-/

namespace SKernel.Spec

open Native Links Function List

variable {I : Type*} [DecidableEq I] {σ : Type*} {tm tm' : Timers I} {xs done rest : List I}
  {dom : Set (TimerNode I)} {i j : I}

/-! ## Timers that have expired -/

/-- The timer would have expired if it were restarted now. -/
def expiredAgain (tm : Timers I) (i : I) : Bool :=
  tm.tickAfter (tm.timer i).initTick ≤ tm.skTick

/-- The loop restarts the timer, which is ahead of its timeout then. -/
def restarts (tm : Timers I) (i : I) : Bool :=
  (tm.timer i).isPeriodic && expired tm i && !expiredAgain tm i

/-- The loop restarts the timer, and it has still expired then. -/
def comesBack (tm : Timers I) (i : I) : Bool :=
  (tm.timer i).isPeriodic && expired tm i && expiredAgain tm i

omit [DecidableEq I] in
private theorem tickAfter_congr (h : tm'.skTick = tm.skTick) (ticks : Nat) :
    tm'.tickAfter ticks = tm.tickAfter ticks := by
  rw [Timers.tickAfter, Timers.tickAfter, h]

/-- Two states of the timers that differ in the active flags and the list only. -/
structure SameTimes (tm tm' : Timers I) : Prop where
  skTick : tm'.skTick = tm.skTick
  timeoutTick : ∀ j, (tm'.timer j).timeoutTick = (tm.timer j).timeoutTick
  initTick : ∀ j, (tm'.timer j).initTick = (tm.timer j).initTick
  isPeriodic : ∀ j, (tm'.timer j).isPeriodic = (tm.timer j).isPeriodic

omit [DecidableEq I] in
theorem SameTimes.refl (tm : Timers I) : SameTimes tm tm :=
  ⟨rfl, fun _ => rfl, fun _ => rfl, fun _ => rfl⟩

omit [DecidableEq I] in
theorem SameTimes.expired (h : SameTimes tm tm') (j : I) :
    Spec.expired tm' j = Spec.expired tm j := by
  simp only [Spec.expired, h.timeoutTick, h.skTick]

omit [DecidableEq I] in
private theorem SameTimes.expiredAgain (h : SameTimes tm tm') (j : I) :
    Spec.expiredAgain tm' j = Spec.expiredAgain tm j := by
  rw [Spec.expiredAgain, Spec.expiredAgain, tickAfter_congr h.skTick, h.initTick, h.skTick]

omit [DecidableEq I] in
theorem SameTimes.restarts (h : SameTimes tm tm') : Spec.restarts tm' = Spec.restarts tm := by
  funext j
  simp only [Spec.restarts, h.isPeriodic, h.expired, h.expiredAgain]

omit [DecidableEq I] in
theorem SameTimes.comesBack (h : SameTimes tm tm') : Spec.comesBack tm' = Spec.comesBack tm := by
  funext j
  simp only [Spec.comesBack, h.isPeriodic, h.expired, h.expiredAgain]

private theorem sameTimes_timerDeactivate (tm : Timers I) (i : I) :
    SameTimes tm (timerDeactivate tm i) := by
  refine ⟨rfl, ?_, ?_, timerDeactivate_isPeriodic tm i⟩
  · intro j
    by_cases hj : j = i
    · subst hj
      simp [timerDeactivate, Timers.setTimer]
    · simp [timerDeactivate, Timers.setTimer, update_of_ne hj]
  · intro j
    by_cases hj : j = i
    · subst hj
      simp [timerDeactivate, Timers.setTimer]
    · simp [timerDeactivate, Timers.setTimer, update_of_ne hj]

theorem skTimerStart_timer_self (tm : Timers I) (i : I) :
    ((skTimerStart tm i).timer i).timeoutTick = tm.tickAfter (tm.timer i).initTick ∧
      ((skTimerStart tm i).timer i).initTick = (tm.timer i).initTick := by
  simp [skTimerStart, timerRemove, Timers.setTimer, Timers.tickAfter]

theorem skTimerStart_timer_of_ne (hj : j ≠ i) :
    (skTimerStart tm i).timer j = tm.timer j := by
  simp [skTimerStart, timerRemove, Timers.setTimer, update_of_ne hj]

private theorem expired_skTimerStart_of_ne (hj : j ≠ i) :
    expired (skTimerStart tm i) j = expired tm j := by
  simp only [expired, skTimerStart_timer_of_ne hj, skTimerStart_skTick]

private theorem expired_skTimerStart_self : expired (skTimerStart tm i) i = expiredAgain tm i := by
  simp only [expired, expiredAgain, (skTimerStart_timer_self tm i).1, skTimerStart_skTick]

private theorem expiredAgain_skTimerStart (j : I) :
    expiredAgain (skTimerStart tm i) j = expiredAgain tm j := by
  by_cases hj : j = i
  · subst hj
    rw [expiredAgain, expiredAgain, tickAfter_congr (skTimerStart_skTick tm j),
      (skTimerStart_timer_self tm j).2, skTimerStart_skTick]
  · rw [expiredAgain, expiredAgain, tickAfter_congr (skTimerStart_skTick tm i),
      skTimerStart_timer_of_ne hj, skTimerStart_skTick]

private theorem comesBack_skTimerStart (hexp : expired tm i = true) :
    comesBack (skTimerStart tm i) = comesBack tm := by
  funext j
  by_cases hj : j = i
  · subst hj
    simp [comesBack, expired_skTimerStart_self, expiredAgain_skTimerStart, hexp]
  · simp only [comesBack, skTimerStart_isPeriodic, expired_skTimerStart_of_ne hj,
      expiredAgain_skTimerStart]

private theorem restarts_skTimerStart_self : restarts (skTimerStart tm i) i = false := by
  simp [restarts, expired_skTimerStart_self, expiredAgain_skTimerStart]

private theorem restarts_skTimerStart_of_ne (hj : j ≠ i) :
    restarts (skTimerStart tm i) j = restarts tm j := by
  simp only [restarts, skTimerStart_isPeriodic, expired_skTimerStart_of_ne hj,
    expiredAgain_skTimerStart]

/-! ## One round of the loop -/

private theorem timerCheckLoop_round (h : TimerListOn dom tm (done ++ i :: rest))
    (timeoutFunc : I → σ → σ) (fuel : Nat) (s : σ) :
    (done = [] ∧ rest = [] ∧
      ∃ r, timerCheckLoop timeoutFunc (fuel + 1) (.timer i) tm s = some r) ∨
    (expired tm i = true ∧ (tm.timer i).isPeriodic = true ∧
      ∃ s', timerCheckLoop timeoutFunc (fuel + 1) (.timer i) tm s =
        timerCheckLoop timeoutFunc fuel (firstNode (done ++ rest)) (skTimerStart tm i) s') ∨
    ((expired tm i = false ∨ (tm.timer i).isPeriodic = false) ∧
      ∃ tm' s', SameTimes tm tm' ∧ tm'.links = tm.links ∧
        timerCheckLoop timeoutFunc (fuel + 1) (.timer i) tm s =
          timerCheckLoop timeoutFunc fuel (firstNode rest) tm' s') := by
  obtain ⟨-, hdone, hrest, hloop⟩ | ⟨hexp, hper, hloop⟩ | ⟨-, hper, hloop⟩ | ⟨hexp, hloop⟩ :=
    timerCheckLoop_cases h timeoutFunc fuel s
  · exact .inl ⟨hdone, hrest, _, hloop⟩
  · exact .inr (.inl ⟨hexp, hper, _, hloop⟩)
  · exact .inr (.inr ⟨.inr hper, _, _, sameTimes_timerDeactivate tm i, rfl, hloop⟩)
  · exact .inr (.inr ⟨.inl hexp, _, _, SameTimes.refl tm, rfl, hloop⟩)

/-! ## Walks that end -/

/-- The rounds a walk over `all` still needs, at most, with `rest` ahead. A restart, and the timer
    that comes back, costs a whole walk. -/
def roundsLeft (tm : Timers I) (all rest : List I) : Nat :=
  all.countP (restarts tm) * (2 * (all.length + 1)) +
    rest.countP (comesBack tm) * (all.length + 1) + rest.length

private theorem roundsLeft_restart (hnd : (done ++ i :: rest).Nodup)
    (hone : (done ++ i :: rest).countP (comesBack tm) ≤ 1) (hexp : expired tm i = true)
    (hper : (tm.timer i).isPeriodic = true) :
    roundsLeft (skTimerStart tm i) (i :: (done ++ rest)) (done ++ rest) <
      roundsLeft tm (done ++ i :: rest) (i :: rest) := by
  have hnot : i ∉ done ++ rest := (nodup_cons.mp (nodup_middle.mp hnd)).1
  have hother : (done ++ rest).countP (restarts (skTimerStart tm i)) =
      (done ++ rest).countP (restarts tm) := by
    apply countP_congr
    intro j hj
    have hji : j ≠ i := fun heq => hnot (heq ▸ hj)
    rw [restarts_skTimerStart_of_ne hji]
  have hmiddle : ∀ p : I → Bool, (done ++ i :: rest).countP p = (i :: (done ++ rest)).countP p :=
    fun p => perm_middle.countP_eq p
  have hlen : (done ++ i :: rest).length = (done ++ rest).length + 1 := by
    simp only [length_append, length_cons]
    omega
  rw [hmiddle] at hone
  simp only [roundsLeft, comesBack_skTimerStart hexp, hmiddle, countP_cons, hother,
    restarts_skTimerStart_self, hlen, length_cons, Nat.add_mul] at hone ⊢
  cases hagain : expiredAgain tm i with
  | true =>
    have hback : comesBack tm i = true := by simp [comesBack, hper, hexp, hagain]
    have hstart : restarts tm i = false := by simp [restarts, hagain]
    simp only [hback, hstart, if_true, Bool.false_eq_true, if_false] at hone ⊢
    have hzero : (done ++ rest).countP (comesBack tm) = 0 := by omega
    rw [hzero]
    omega
  | false =>
    have hback : comesBack tm i = false := by simp [comesBack, hagain]
    have hstart : restarts tm i = true := by simp [restarts, hper, hexp, hagain]
    simp only [hback, hstart, if_true, Bool.false_eq_true, if_false] at hone ⊢
    rw [Nat.add_zero] at hone
    have hle := Nat.mul_le_mul_right ((done ++ rest).length + 1 + 1) hone
    omega

theorem timerCheckLoop_ends (timeoutFunc : I → σ → σ) {fuel : Nat} {s : σ}
    (h : TimerListOn dom tm (done ++ rest)) (hone : (done ++ rest).countP (comesBack tm) ≤ 1)
    (hfuel : roundsLeft tm (done ++ rest) rest < fuel) :
    ∃ r, timerCheckLoop timeoutFunc fuel (firstNode rest) tm s = some r := by
  induction fuel generalizing tm done rest s with
  | zero => omega
  | succ fuel ih =>
    cases rest with
    | nil => exact ⟨(tm, s), rfl⟩
    | cons i rest =>
      simp only [firstNode]
      obtain ⟨-, -, r, hr⟩ | ⟨hexp, hper, s', hloop⟩ | ⟨-, tm', s', hsame, hlinks, hloop⟩ :=
        timerCheckLoop_round h timeoutFunc fuel s
      · exact ⟨r, hr⟩
      · -- the walk starts over behind the timer
        have hless := roundsLeft_restart h.nodup hone hexp hper
        rw [perm_middle.countP_eq, ← comesBack_skTimerStart hexp] at hone
        rw [hloop]
        have hlist : TimerListOn dom (skTimerStart tm i) ([i] ++ (done ++ rest)) := h.restart
        exact ih hlist hone (Nat.lt_of_lt_of_le hless (Nat.le_of_lt_succ hfuel))
      · have hlist : TimerListOn dom tm' (done ++ [i] ++ rest) := by
          rw [← append_cons, TimerListOn, hlinks]
          exact h
        rw [hloop]
        apply ih hlist
        · rw [hsame.comesBack, ← append_cons]
          exact hone
        · rw [← append_cons]
          simp only [roundsLeft, hsame.restarts, hsame.comesBack, countP_cons,
            length_cons] at hfuel ⊢
          have hle := Nat.mul_le_mul_right ((done ++ i :: rest).length + 1)
            (Nat.le_add_right (rest.countP (comesBack tm)) (if comesBack tm i = true then 1 else 0))
          omega

/-! ## Walks that do not end -/

private theorem timerCheckLoop_diverges (timeoutFunc : I → σ → σ) {fuel : Nat} {s : σ}
    (h : TimerListOn dom tm (done ++ rest)) (htwo : 2 ≤ (done ++ rest).countP (comesBack tm))
    (hahead : ∃ j ∈ rest, comesBack tm j = true) :
    timerCheckLoop timeoutFunc fuel (firstNode rest) tm s = none := by
  induction fuel generalizing tm done rest s with
  | zero => rfl
  | succ fuel ih =>
    obtain ⟨j, hj, hback⟩ := hahead
    cases rest with
    | nil => cases hj
    | cons i rest =>
      simp only [firstNode]
      obtain ⟨hdone, hrest, -⟩ | ⟨hexp, hper, s', hloop⟩ | ⟨hpass, tm', s', hsame, hlinks, hloop⟩ :=
        timerCheckLoop_round h timeoutFunc fuel s
      · -- a list with two timers is not left early
        have hle := countP_le_length (p := comesBack tm) (l := done ++ i :: rest)
        rw [hdone, hrest, nil_append, length_singleton] at hle
        rw [hdone, hrest, nil_append] at htwo
        omega
      · -- timer `i` is one of the two at most
        rw [perm_middle.countP_eq] at htwo
        have hpos : 0 < (done ++ rest).countP (comesBack tm) := by
          rw [countP_cons] at htwo
          split at htwo <;> omega
        have hlist : TimerListOn dom (skTimerStart tm i) ([i] ++ (done ++ rest)) := h.restart
        rw [hloop]
        apply ih hlist
        · rw [comesBack_skTimerStart hexp]
          exact htwo
        · rw [comesBack_skTimerStart hexp]
          exact countP_pos_iff.mp hpos
      · -- the timer that is passed does not come back
        have hnot : comesBack tm i = false := by
          cases hpass with
          | inl hexp => simp [comesBack, hexp]
          | inr hper => simp [comesBack, hper]
        have hlist : TimerListOn dom tm' (done ++ [i] ++ rest) := by
          rw [← append_cons, TimerListOn, hlinks]
          exact h
        rw [hloop]
        apply ih hlist
        · rw [hsame.comesBack, ← append_cons]
          exact htwo
        · rw [hsame.comesBack]
          cases mem_cons.mp hj with
          | inl heq =>
            rw [heq, hnot] at hback
            cases hback
          | inr hj => exact ⟨j, hj, hback⟩

/-- **Termination of the timer check.** On every well-formed timer list, with callbacks that do not
    touch the timers, `sk_timer_check` returns exactly when at most one timer of the list comes
    back: it is periodic, it has expired, and it would have expired again if it were restarted at
    the present tick. -/
theorem timer_check_terminates_iff (h : TimerList tm xs) (timeoutFunc : I → σ → σ) (s : σ) :
    (∃ fuel r, skTimerCheck timeoutFunc fuel tm s = some r) ↔ xs.countP (comesBack tm) ≤ 1 := by
  simp only [skTimerCheck, h.next_head]
  have hstart : TimerListOn Set.univ tm ([] ++ xs) := h
  constructor
  · rintro ⟨fuel, r, hr⟩
    by_contra htwo
    have hpos : 0 < xs.countP (comesBack tm) := by omega
    rw [timerCheckLoop_diverges timeoutFunc hstart (Nat.lt_of_not_le htwo)
      (countP_pos_iff.mp hpos)] at hr
    cases hr
  · intro hone
    exact ⟨_, timerCheckLoop_ends timeoutFunc hstart hone (Nat.lt_succ_self _)⟩

/-- Unlinked periodic timers at tick 0: timer 0 has `init_tick` 0, the others `d`. -/
def unlinkedPeriodic (d : Nat) : Timers Nat where
  skTick := 0
  links := ⟨id, id⟩
  timer := fun i =>
    { flag := timerFlagPeriodic, initTick := if i = 0 then 0 else d, timeoutTick := 0 }

/-- Timers 1 and 0 are started. -/
def twoPeriodic (d : Nat) : Timers Nat := skTimerStart (skTimerStart (unlinkedPeriodic d) 1) 0

private theorem twoPeriodic_list (d : Nat) : TimerList (twoPeriodic d) [0, 1] := by
  have hempty : TimerList (unlinkedPeriodic d) [] :=
    Rings.of_isolated (Set.subset_univ _) fun _ _ => ⟨rfl, rfl⟩
  exact skTimerStart_list (skTimerStart_list hempty 1) 0

/-- When the other timer has `init_tick` 1, only timer 0 comes back, and the check returns. -/
theorem timer_check_terminates_one :
    TimerList (twoPeriodic 1) [0, 1] ∧ comesBack (twoPeriodic 1) 0 = true ∧
      ∃ fuel r, skTimerCheck (fun _ (n : Nat) => n + 1) fuel (twoPeriodic 1) 0 = some r := by
  refine ⟨twoPeriodic_list 1, by decide +kernel, ?_⟩
  exact (timer_check_terminates_iff (twoPeriodic_list 1) _ 0).mpr (by decide +kernel)

/-- When both have `init_tick` 0, the check does not return. -/
theorem timer_check_terminates_fails :
    TimerList (twoPeriodic 0) [0, 1] ∧
      ∀ fuel, skTimerCheck (fun _ (n : Nat) => n + 1) fuel (twoPeriodic 0) 0 = none := by
  refine ⟨twoPeriodic_list 0, ?_⟩
  intro fuel
  rw [skTimerCheck, (twoPeriodic_list 0).next_head]
  exact timerCheckLoop_diverges _ (show TimerListOn Set.univ (twoPeriodic 0) ([] ++ [0, 1]) from
    twoPeriodic_list 0) (by decide +kernel) ⟨0, by decide +kernel⟩

end SKernel.Spec
