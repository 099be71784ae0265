import SKernel.Native.Timer

/-!
# The timer list and the walk of `sk_timer_check`

`TimerList tm xs` says that `__timer_list` is a well-formed ring holding the timers `xs` in
order. The walk of `sk_timer_check` changes the list under its own feet: a periodic timer is
re-linked to the front and the walk starts over behind it, an expired one-shot timer stays
linked. On a list of two or more timers the walk nevertheless ends, and calls back exactly
the timers that are due, each once.

## Key results

- `skTimerStart_list`: starting a timer moves it to the front
- `timerCheckLoop_spec`: the walk from any position
- `skTimerCheck_spec`: the whole function, unless its only timer is due
-/

namespace SKernel.Spec

open Native Links Function List

variable {I : Type*} {σ : Type*} {i : I} {done rest xs0 : List I} {dom : Set (TimerNode I)}
variable {tm0 : Timers I}

/-! ## Timer flags -/

@[simp] theorem isActive_or (t : SysTimer) (x : Nat) :
    SysTimer.isActive { t with timeoutTick := x, flag := t.flag ||| timerFlagActive } = true := by
  have h : ∀ f : BitVec 8, (f ||| timerFlagActive) &&& timerFlagActive ≠ 0 := by decide
  simpa only [SysTimer.isActive, decide_eq_true_eq] using h t.flag

@[simp] theorem isPeriodic_or (t : SysTimer) (x : Nat) :
    SysTimer.isPeriodic { t with timeoutTick := x, flag := t.flag ||| timerFlagActive } =
      t.isPeriodic := by
  have h : ∀ f : BitVec 8, ((f ||| timerFlagActive) &&& timerFlagPeriodic ≠ 0) ↔
      (f &&& timerFlagPeriodic ≠ 0) := by decide
  simpa only [SysTimer.isPeriodic, decide_eq_decide] using h t.flag

@[simp] theorem isActive_clear (t : SysTimer) :
    SysTimer.isActive { t with flag := t.flag &&& ~~~timerFlagActive } = false := by
  have h : ∀ f : BitVec 8, f &&& ~~~timerFlagActive &&& timerFlagActive = 0 := by decide
  simpa only [SysTimer.isActive, decide_eq_false_iff_not, not_not] using h t.flag

@[simp] theorem isPeriodic_clear (t : SysTimer) :
    SysTimer.isPeriodic { t with flag := t.flag &&& ~~~timerFlagActive } = t.isPeriodic := by
  have h : ∀ f : BitVec 8, (f &&& ~~~timerFlagActive &&& timerFlagPeriodic ≠ 0) ↔
      (f &&& timerFlagPeriodic ≠ 0) := by decide
  simpa only [SysTimer.isPeriodic, decide_eq_decide] using h t.flag

theorem clear_of_not_isActive (t : SysTimer) (h : t.isActive = false) :
    { t with flag := t.flag &&& ~~~timerFlagActive } = t := by
  obtain ⟨f, d, tt⟩ := t
  simp only [SysTimer.isActive, decide_eq_false_iff_not, not_not] at h
  have hclear : ∀ f : BitVec 8, f &&& timerFlagActive = 0 → f &&& ~~~timerFlagActive = f := by
    decide
  simp only [hclear f h]

/-! ## The list -/

/-- `__timer_list` is a well-formed ring on the nodes `dom` that holds the timers `xs`, in this
    order, and the others are unlinked. -/
def TimerListOn (dom : Set (TimerNode I)) (tm : Timers I) (xs : List I) : Prop :=
  Rings tm.links dom {.head} fun _ => xs.map .timer

/-- `__timer_list` is a ring that holds the timers `xs`, in this order, and the others are
    unlinked. -/
def TimerList (tm : Timers I) (xs : List I) : Prop :=
  TimerListOn Set.univ tm xs

/-- The node a walk reaches when the timers `xs` are still ahead. -/
def firstNode : List I → TimerNode I
  | [] => .head
  | i :: _ => .timer i

theorem headD_map_timer (xs : List I) :
    (xs.map TimerNode.timer).headD .head = firstNode xs := by
  cases xs <;> rfl

theorem timer_injective : Function.Injective (TimerNode.timer : I → TimerNode I) := by
  intro i j h
  cases h
  rfl

namespace TimerListOn

variable {tm tm' : Timers I} {xs as bs : List I} {dom : Set (TimerNode I)} {i : I}

theorem nodup (h : TimerListOn dom tm xs) : xs.Nodup :=
  List.Nodup.of_map _ (Rings.nodup h (Set.mem_singleton _))

theorem congr_links (h : TimerListOn dom tm xs) (hl : tm'.links = tm.links) :
    TimerListOn dom tm' xs := by
  unfold TimerListOn
  rw [hl]
  exact h

theorem next_head (h : TimerListOn dom tm xs) : tm.links.next .head = firstNode xs := by
  rw [Rings.next_head h (Set.mem_singleton _), headD_map_timer]

theorem next_timer (h : TimerListOn dom tm (as ++ i :: bs)) :
    tm.links.next (.timer i) = firstNode bs := by
  rw [Rings.next_mem h (Set.mem_singleton _) map_append, headD_map_timer]

theorem next_first (h : TimerListOn dom tm (i :: bs)) :
    tm.links.next (.timer i) = firstNode bs :=
  (show TimerListOn dom tm ([] ++ i :: bs) from h).next_timer

/-- The test for the early return of `sk_timer_check`. -/
theorem next_eq_prev_iff (h : TimerListOn dom tm (as ++ i :: bs)) :
    tm.links.next (.timer i) = tm.links.prev (.timer i) ↔ as = [] ∧ bs = [] := by
  have hnd := h.nodup
  rw [h.next_timer, Rings.prev_mem h (Set.mem_singleton _) map_append]
  cases bs with
  | nil =>
    cases as using List.reverseRecOn with
    | nil => simp [firstNode]
    | append_singleton as a _ => simp [firstNode]
  | cons b bs =>
    cases as using List.reverseRecOn with
    | nil => simp [firstNode]
    | append_singleton as a _ =>
      have hab : b ≠ a := by
        intro heq
        subst heq
        exact (nodup_append.mp hnd).2.2 b (by simp) b (by simp) rfl
      simp [firstNode, hab]

variable [DecidableEq I]

/-- Unlinking a timer takes it off the list. -/
theorem remove (h : TimerListOn dom tm xs) (hi : .timer i ∈ dom) :
    TimerListOn dom (timerRemove tm i) (xs.erase i) := by
  have hr := Rings.remove h hi (by simp)
  simp only [← map_erase timer_injective] at hr
  exact hr

/-- Starting a timer moves it to the front. -/
theorem start (h : TimerListOn dom tm xs) (hi : .timer i ∈ dom) :
    TimerListOn dom (skTimerStart tm i) (i :: xs.erase i) := by
  have hins := Rings.insert_first (h.remove hi) (h := .head) (x := .timer i)
    (Set.mem_singleton _) ⟨hi, by simp, by simpa using h.nodup.not_mem_erase⟩
  refine Rings.congr hins ?_
  intro n hn
  rw [Set.mem_singleton_iff.mp hn, update_self, map_cons]

theorem restart (h : TimerListOn dom tm (as ++ i :: bs)) :
    TimerListOn dom (skTimerStart tm i) (i :: (as ++ bs)) := by
  have hdom : .timer i ∈ dom := Rings.mem_dom h (Set.mem_singleton _) (by simp)
  have hlist := h.start hdom
  have hnot : i ∉ as := fun hin => (nodup_append.mp h.nodup).2.2 i hin i (by simp) rfl
  rw [erase_append_right _ hnot, erase_cons_head] at hlist
  exact hlist

end TimerListOn

variable [DecidableEq I] {tm : Timers I} {xs : List I}

theorem skTimerStart_list (h : TimerList tm xs) (i : I) :
    TimerList (skTimerStart tm i) (i :: xs.erase i) :=
  TimerListOn.start h (Set.mem_univ _)

@[simp] theorem timerDeactivate_links (tm : Timers I) (i : I) :
    (timerDeactivate tm i).links = tm.links := rfl

theorem skTimerStop_list (h : TimerList tm xs) (i : I) :
    ∃ xs', TimerList (skTimerStop tm i) xs' ∧ ∀ j ∈ xs', j ∈ xs := by
  unfold skTimerStop
  split
  · have hrem : TimerList (timerRemove (timerDeactivate tm i) i) (xs.erase i) :=
      h.remove (Set.mem_univ _)
    exact ⟨_, hrem, fun j hj => mem_of_mem_erase hj⟩
  · exact ⟨xs, h, fun j hj => hj⟩

theorem timerInit_list (h : TimerList tm xs) (hi : i ∉ xs) (tick : Nat) (flag : BitVec 8) :
    TimerList (timerInit tm i tick flag) xs := by
  refine h.congr_links ?_
  refine Rings.isolate_free h ⟨Set.mem_univ _, by simp, ?_⟩
  intro n _
  simpa using hi

@[simp] theorem skTimerStart_skTick (tm : Timers I) (i : I) :
    (skTimerStart tm i).skTick = tm.skTick := rfl

@[simp] theorem timerDeactivate_skTick (tm : Timers I) (i : I) :
    (timerDeactivate tm i).skTick = tm.skTick := rfl

@[simp] theorem skTimerStart_isPeriodic (tm : Timers I) (i j : I) :
    ((skTimerStart tm i).timer j).isPeriodic = (tm.timer j).isPeriodic := by
  by_cases hj : j = i
  · subst hj
    simp [skTimerStart, timerRemove, Timers.setTimer]
  · simp [skTimerStart, timerRemove, Timers.setTimer, update_of_ne hj]

@[simp] theorem timerDeactivate_isPeriodic (tm : Timers I) (i j : I) :
    ((timerDeactivate tm i).timer j).isPeriodic = (tm.timer j).isPeriodic := by
  by_cases hj : j = i
  · subst hj
    simp [timerDeactivate, Timers.setTimer]
  · simp [timerDeactivate, Timers.setTimer, update_of_ne hj]

/-! ## The walk -/

/-- The test of the loop: the timeout of the timer has been reached. -/
def expired (tm : Timers I) (i : I) : Bool := (tm.timer i).timeoutTick ≤ tm.skTick

/-- The timer is active and its timeout has come. -/
def isDue (tm : Timers I) (i : I) : Bool :=
  (tm.timer i).isActive && (tm.timer i).timeoutTick ≤ tm.skTick

omit [DecidableEq I] in
theorem isDue_eq (tm : Timers I) (i : I) : isDue tm i = ((tm.timer i).isActive && expired tm i) :=
  rfl

theorem timerDeactivate_of_inactive (h : (tm.timer i).isActive = false) :
    timerDeactivate tm i = tm := by
  rw [timerDeactivate, clear_of_not_isActive _ h]
  simp [Timers.setTimer]

/-- The record of a timer after it has been called back. -/
def afterCallback (tm : Timers I) (i : I) : SysTimer :=
  let t := tm.timer i
  if t.isPeriodic then
    { t with timeoutTick := tm.tickAfter t.initTick, flag := t.flag ||| timerFlagActive }
  else
    { t with flag := t.flag &&& ~~~timerFlagActive }

theorem skTimerStart_timer (tm : Timers I) (i : I) (hp : (tm.timer i).isPeriodic = true) :
    (skTimerStart tm i).timer = update tm.timer i (afterCallback tm i) := by
  simp only [afterCallback, hp, ↓reduceIte]
  rfl

theorem timerDeactivate_timer (tm : Timers I) (i : I) (hp : (tm.timer i).isPeriodic = false) :
    (timerDeactivate tm i).timer = update tm.timer i (afterCallback tm i) := by
  simp only [afterCallback, hp, Bool.false_eq_true, ↓reduceIte]
  rfl

/-- The rest of the system after timer `i` has been called back, if it was active. -/
def afterCall (timeoutFunc : I → σ → σ) (tm : Timers I) (i : I) (s : σ) : σ :=
  if (tm.timer i).isActive then timeoutFunc i s else s

variable {timeoutFunc : I → σ → σ}

omit [DecidableEq I] in
theorem afterCall_of_inactive (h : (tm.timer i).isActive = false) (s : σ) :
    afterCall timeoutFunc tm i s = s := by
  simp [afterCall, h]

/-- One round of the loop at timer `i`: it returns early, restarts or deactivates the timer, or goes
    on. -/
theorem timerCheckLoop_cases (h : TimerListOn dom tm (done ++ i :: rest)) (timeoutFunc : I → σ → σ)
    (fuel : Nat) (s : σ) :
    (expired tm i = true ∧ done = [] ∧ rest = [] ∧
      timerCheckLoop timeoutFunc (fuel + 1) (.timer i) tm s =
        some (tm, afterCall timeoutFunc tm i s)) ∨
    (expired tm i = true ∧ (tm.timer i).isPeriodic = true ∧
      timerCheckLoop timeoutFunc (fuel + 1) (.timer i) tm s =
        timerCheckLoop timeoutFunc fuel (firstNode (done ++ rest)) (skTimerStart tm i)
          (afterCall timeoutFunc tm i s)) ∨
    (expired tm i = true ∧ (tm.timer i).isPeriodic = false ∧
      timerCheckLoop timeoutFunc (fuel + 1) (.timer i) tm s =
        timerCheckLoop timeoutFunc fuel (firstNode rest) (timerDeactivate tm i)
          (afterCall timeoutFunc tm i s)) ∨
    (expired tm i = false ∧
      timerCheckLoop timeoutFunc (fuel + 1) (.timer i) tm s =
        timerCheckLoop timeoutFunc fuel (firstNode rest) tm s) := by
  have hnext := h.next_timer
  simp only [timerCheckLoop]
  by_cases hexp : tm.skTick ≥ (tm.timer i).timeoutTick
  · have hexp' : expired tm i = true := by simpa [expired] using hexp
    rw [if_pos hexp]
    by_cases halone : tm.links.next (.timer i) = tm.links.prev (.timer i)
    · rw [if_pos halone]
      obtain ⟨hdone, hrest⟩ := h.next_eq_prev_iff.mp halone
      exact .inl ⟨hexp', hdone, hrest, rfl⟩
    · rw [if_neg halone]
      right
      by_cases hper : (tm.timer i).isPeriodic = true
      · left
        rw [if_pos hper, h.restart.next_first]
        exact ⟨hexp', hper, rfl⟩
      · right
        left
        rw [if_neg hper, timerDeactivate_links, hnext]
        exact ⟨hexp', by simpa using hper, rfl⟩
  · rw [if_neg hexp, hnext]
    exact .inr (.inr (.inr ⟨by simpa [expired] using hexp, rfl⟩))

/-- Linked periodic timers are active, and one that is due can be restarted for a later tick. -/
structure WalkReady (tm : Timers I) (xs : List I) : Prop where
  active : ∀ i ∈ xs, (tm.timer i).isPeriodic = true → (tm.timer i).isActive = true
  later : ∀ i ∈ xs, isDue tm i = true → (tm.timer i).isPeriodic = true →
    tm.skTick < tm.tickAfter (tm.timer i).initTick

/-- A walk from `tm0` on the timers `xs0` has called back `fired`, has `done` behind it and `rest`
    ahead. -/
structure WalkInv (tm0 tm : Timers I) (xs0 fired done rest : List I) : Prop where
  list : TimerList tm (done ++ rest)
  perm : (done ++ rest).Perm xs0
  skTick : tm.skTick = tm0.skTick
  timer : ∀ i, tm.timer i = if i ∈ fired then afterCallback tm0 i else tm0.timer i
  nodup : fired.Nodup
  fired_due : ∀ i ∈ fired, i ∈ xs0 ∧ isDue tm0 i = true
  settled : ∀ i ∈ done, isDue tm i = false

omit [DecidableEq I] in
theorem not_isDue_afterCallback (hw : WalkReady tm0 xs0) (hi : i ∈ xs0) (hdue : isDue tm0 i = true)
    (htimer : tm.timer i = afterCallback tm0 i) (htick : tm.skTick = tm0.skTick) :
    isDue tm i = false := by
  rw [isDue, htimer, htick, afterCallback]
  cases hp : (tm0.timer i).isPeriodic with
  | true =>
    have hlater := hw.later i hi hdue hp
    simp only [↓reduceIte, isActive_or, Bool.true_and, decide_eq_false_iff_not]
    omega
  | false => simp

namespace WalkInv

variable {tm0 tm : Timers I} {xs0 fired done rest : List I} {i : I}

section

variable (h : WalkInv tm0 tm xs0 fired done rest)
include h

theorem not_isDue_of_fired (hw : WalkReady tm0 xs0) (hi : i ∈ fired) : isDue tm i = false := by
  obtain ⟨hmem, hdue⟩ := h.fired_due i hi
  exact not_isDue_afterCallback hw hmem hdue (by rw [h.timer i, if_pos hi]) h.skTick

/-- As at the start of the walk, unless called back. -/
theorem timer_of_not_fired (hi : i ∉ fired) : tm.timer i = tm0.timer i := by
  rw [h.timer i, if_neg hi]

theorem isDue_of_not_fired (hi : i ∉ fired) : isDue tm i = isDue tm0 i := by
  rw [isDue, isDue, h.timer_of_not_fired hi, h.skTick]

theorem isActive_of_isPeriodic (hw : WalkReady tm0 xs0) (hi : i ∈ xs0)
    (hp : (tm.timer i).isPeriodic = true) : (tm.timer i).isActive = true := by
  rw [h.timer i] at hp ⊢
  split at hp
  · rename_i hf
    rw [if_pos hf]
    rw [afterCallback] at hp ⊢
    cases hp' : (tm0.timer i).isPeriodic with
    | true => simp
    | false => simp [hp'] at hp
  · rename_i hf
    rw [if_neg hf]
    exact hw.active i hi hp

end

/-- Passing a timer that is not due. -/
theorem pass (h : WalkInv tm0 tm xs0 fired done (i :: rest)) (hdue : isDue tm i = false) :
    WalkInv tm0 tm xs0 fired (done ++ [i]) rest where
  list := by rw [append_assoc]; exact h.list
  perm := by rw [append_assoc]; exact h.perm
  skTick := h.skTick
  timer := h.timer
  nodup := h.nodup
  fired_due := h.fired_due
  settled := by
    intro j hj
    cases mem_append.mp hj with
    | inl hj => exact h.settled j hj
    | inr hj => rw [mem_singleton.mp hj]; exact hdue

theorem callback {tm' : Timers I} {done' rest' : List I}
    (h : WalkInv tm0 tm xs0 fired done (i :: rest)) (hw : WalkReady tm0 xs0)
    (hdue : isDue tm i = true) (htick : tm'.skTick = tm.skTick)
    (htimer : tm'.timer = update tm.timer i (afterCallback tm i))
    (hlist : TimerList tm' (done' ++ rest'))
    (hperm : (done' ++ rest').Perm (done ++ i :: rest))
    (hdone : ∀ j ∈ done', j = i ∨ j ∈ done) :
    WalkInv tm0 tm' xs0 (fired ++ [i]) done' rest' := by
  -- a timer that was called back in this walk is not due any more
  have hnf : i ∉ fired := by
    intro hf
    rw [h.not_isDue_of_fired hw hf] at hdue
    cases hdue
  have hdue0 : isDue tm0 i = true := by rw [← h.isDue_of_not_fired hnf]; exact hdue
  have hmem : i ∈ xs0 := h.perm.mem_iff.mp (by simp)
  have hafter : afterCallback tm i = afterCallback tm0 i := by
    rw [afterCallback, afterCallback, h.timer_of_not_fired hnf, Timers.tickAfter, h.skTick]
    rfl
  have htimer' : ∀ j, tm'.timer j =
      if j ∈ fired ++ [i] then afterCallback tm0 j else tm0.timer j := by
    intro j
    rw [htimer]
    by_cases hj : j = i
    · subst hj; simp [hafter]
    · rw [update_of_ne hj, h.timer j]
      simp [hj]
  refine ⟨hlist, hperm.trans h.perm, htick.trans h.skTick, htimer', ?_, ?_, ?_⟩
  · rw [nodup_append]
    refine ⟨h.nodup, nodup_singleton i, ?_⟩
    intro a ha b hb heq
    rw [mem_singleton.mp hb] at heq
    exact hnf (heq ▸ ha)
  · intro j hj
    cases mem_append.mp hj with
    | inl hj => exact h.fired_due j hj
    | inr hj => rw [mem_singleton.mp hj]; exact ⟨hmem, hdue0⟩
  · intro j hj
    by_cases hji : j = i
    · subst hji
      exact not_isDue_afterCallback hw hmem hdue0 (by rw [htimer' j]; simp)
        (htick.trans h.skTick)
    · have hjd : j ∈ done := (hdone j hj).resolve_left hji
      rw [isDue, htimer, update_of_ne hji, htick]
      exact h.settled j hjd

/-- The rounds a walk still needs, at most. A restart goes back to the front, but uses up a due
    timer. -/
def rounds (tm : Timers I) (n : Nat) (rest : List I) : Nat :=
  rest.countP (isDue tm) * (n + 1) + rest.length

theorem countP_isDue (h : WalkInv tm0 tm xs0 fired done (i :: rest)) (tm' : Timers I)
    (hother : ∀ j, j ≠ i → isDue tm' j = isDue tm j) :
    done.countP (isDue tm') = 0 ∧ rest.countP (isDue tm') = rest.countP (isDue tm) := by
  have hnd := nodup_append.mp h.list.nodup
  constructor
  · rw [countP_eq_zero]
    intro j hj
    rw [hother j fun heq => hnd.2.2 j hj i (by simp) heq, h.settled j hj]
    decide
  · apply countP_congr
    intro j hj
    rw [hother j fun heq => (nodup_cons.mp hnd.2.1).1 (heq ▸ hj)]

omit [DecidableEq I] in
theorem rounds_pass (hdue : isDue tm i = false) (n : Nat) (rest : List I) :
    rounds tm n rest < rounds tm n (i :: rest) := by
  unfold rounds
  rw [countP_cons_of_neg (by simp [hdue]), length_cons]
  omega

/-- To the front, and the walk starts over behind it. -/
theorem restart (h : WalkInv tm0 tm xs0 fired done (i :: rest)) (hw : WalkReady tm0 xs0)
    (hdue : isDue tm i = true) (hper : (tm.timer i).isPeriodic = true) :
    WalkInv tm0 (skTimerStart tm i) xs0 (fired ++ [i]) [i] (done ++ rest) ∧
      rounds (skTimerStart tm i) xs0.length (done ++ rest) <
        rounds tm xs0.length (i :: rest) := by
  refine ⟨h.callback hw hdue (skTimerStart_skTick tm i) (skTimerStart_timer tm i hper)
    h.list.restart (by simpa using perm_middle.symm) (by simp), ?_⟩
  have hcount := h.countP_isDue (skTimerStart tm i) (by
    intro j hj
    rw [isDue, isDue, skTimerStart_timer tm i hper, update_of_ne hj,
      skTimerStart_skTick])
  have hlen : (done ++ i :: rest).length = xs0.length := h.perm.length_eq
  simp only [rounds, countP_append, hcount.1, hcount.2, countP_cons_of_pos hdue,
    length_append, length_cons, Nat.zero_add, Nat.succ_mul] at hlen ⊢
  omega

theorem deactivate (h : WalkInv tm0 tm xs0 fired done (i :: rest)) (hw : WalkReady tm0 xs0)
    (hdue : isDue tm i = true) (hper : (tm.timer i).isPeriodic = false) (n : Nat) :
    WalkInv tm0 (timerDeactivate tm i) xs0 (fired ++ [i]) (done ++ [i]) rest ∧
      rounds (timerDeactivate tm i) n rest < rounds tm n (i :: rest) := by
  have hlist : TimerList (timerDeactivate tm i) (done ++ [i] ++ rest) := by
    rw [append_assoc]
    exact h.list.congr_links rfl
  refine ⟨h.callback hw hdue (timerDeactivate_skTick tm i) (timerDeactivate_timer tm i hper)
    hlist (by simp) (by simp; tauto), ?_⟩
  have hcount := h.countP_isDue (timerDeactivate tm i) (by
    intro j hj
    rw [isDue, isDue, timerDeactivate_timer tm i hper, update_of_ne hj,
      timerDeactivate_skTick])
  simp only [rounds, hcount.2, countP_cons_of_pos hdue, length_cons, Nat.succ_mul]
  omega

end WalkInv

/-- Two or more timers: none is due afterwards. -/
theorem timerCheckLoop_spec (hw : WalkReady tm0 xs0) (hlen : 2 ≤ xs0.length)
    (timeoutFunc : I → σ → σ) :
    ∀ (fuel : Nat) (done rest fired : List I) (tm : Timers I) (s : σ),
      WalkInv tm0 tm xs0 fired done rest → WalkInv.rounds tm xs0.length rest < fuel →
      ∃ tm' fired' xs',
        timerCheckLoop timeoutFunc fuel (firstNode rest) tm s =
          some (tm', fired'.foldl (fun s i => timeoutFunc i s) s) ∧
        WalkInv tm0 tm' xs0 (fired ++ fired') xs' [] := by
  intro fuel
  induction fuel with
  | zero => intro done rest fired tm s _ hf; omega
  | succ fuel ih =>
    intro done rest fired tm s h hfuel
    cases rest with
    | nil =>
      exact ⟨tm, [], done, rfl, by simpa using h⟩
    | cons i rest =>
      have hmem : i ∈ xs0 := h.perm.mem_iff.mp (by simp)
      have hlen' : (done ++ i :: rest).length = xs0.length := h.perm.length_eq
      have hpass : ∀ {tm'}, isDue tm i = false → timerCheckLoop timeoutFunc (fuel + 1)
          (.timer i) tm s = timerCheckLoop timeoutFunc fuel (firstNode rest) tm' s → tm' = tm →
          ∃ tm' fired' xs', timerCheckLoop timeoutFunc (fuel + 1) (.timer i) tm s =
            some (tm', fired'.foldl (fun s i => timeoutFunc i s) s) ∧
            WalkInv tm0 tm' xs0 (fired ++ fired') xs' [] := by
        rintro _ hdue hloop rfl
        have hdec := WalkInv.rounds_pass hdue xs0.length rest
        rw [hloop]
        exact ih _ _ _ _ s (h.pass hdue) (by omega)
      obtain ⟨-, rfl, rfl, -⟩ | ⟨hexp, hper, hloop⟩ | ⟨hexp, hper, hloop⟩ | ⟨hexp, hloop⟩ :=
        timerCheckLoop_cases h.list timeoutFunc fuel s
      · -- the list has two timers at least, so the early return is not taken
        simp only [nil_append, length_singleton] at hlen'
        omega
      · -- a periodic timer goes to the front; the walk starts over behind it
        have hact := h.isActive_of_isPeriodic hw hmem hper
        obtain ⟨hinv, hdec⟩ := h.restart hw (by rw [isDue_eq, hact, hexp]; rfl) hper
        obtain ⟨tm', fired', xs', hrun, hfin⟩ := ih _ _ _ _ (timeoutFunc i s) hinv (by omega)
        refine ⟨tm', i :: fired', xs', ?_, by simpa using hfin⟩
        rw [firstNode, hloop, afterCall, if_pos hact, hrun]
        rfl
      · cases hact : (tm.timer i).isActive with
        | true =>
          -- a one-shot timer stays where it is, inactive
          obtain ⟨hinv, hdec⟩ :=
            h.deactivate hw (by rw [isDue_eq, hact, hexp]; rfl) hper xs0.length
          obtain ⟨tm', fired', xs', hrun, hfin⟩ := ih _ _ _ _ (timeoutFunc i s) hinv (by omega)
          refine ⟨tm', i :: fired', xs', ?_, by simpa using hfin⟩
          rw [firstNode, hloop, afterCall, if_pos hact, hrun]
          rfl
        | false =>
          -- it has been called back before
          rw [afterCall_of_inactive hact] at hloop
          exact hpass (by rw [isDue_eq, hact]; rfl) hloop (timerDeactivate_of_inactive hact)
      · exact hpass (by rw [isDue_eq, hexp, Bool.and_false]) hloop rfl

/-- After `sk_timer_check` in state `tm` on the timers `xs`, exactly the due ones have been called
    back, each once. -/
structure Checked (tm : Timers I) (xs : List I) (tm' : Timers I) (fired xs' : List I) :
    Prop where
  list : TimerList tm' xs'
  perm : xs'.Perm xs
  skTick : tm'.skTick = tm.skTick
  timer : ∀ i, tm'.timer i = if i ∈ fired then afterCallback tm i else tm.timer i
  nodup : fired.Nodup
  fired_iff : ∀ i, i ∈ fired ↔ i ∈ xs ∧ isDue tm i = true

/-- Exactly one timer is on the list, and it is active and due: `sk_timer_check` will return
    early. -/
def LonelyDue (tm : Timers I) : Prop :=
  ∃ i, tm.links.next .head = .timer i ∧ tm.links.next (.timer i) = .head ∧ isDue tm i = true

/-- Each due timer once, unless its only timer is due. -/
theorem skTimerCheck_spec (hlist : TimerList tm xs) (hw : WalkReady tm xs)
    (hlonely : ¬ LonelyDue tm) (timeoutFunc : I → σ → σ) (s : σ) :
    ∃ fuel tm' fired xs',
      skTimerCheck timeoutFunc fuel tm s =
        some (tm', fired.foldl (fun s i => timeoutFunc i s) s) ∧
      Checked tm xs tm' fired xs' := by
  simp only [skTimerCheck, hlist.next_head]
  by_cases hlen : 2 ≤ xs.length
  · have hinit : WalkInv tm tm xs [] [] xs :=
      ⟨hlist, List.Perm.refl _, rfl, by simp, nodup_nil, by simp, by simp⟩
    obtain ⟨tm', fired, xs', hloop, hfin⟩ :=
      timerCheckLoop_spec hw hlen timeoutFunc _ [] xs [] tm s hinit (Nat.lt_succ_self _)
    rw [nil_append] at hfin
    have hperm : xs'.Perm xs := by simpa using hfin.perm
    refine ⟨_, tm', fired, xs', hloop, by simpa using hfin.list, hperm, hfin.skTick,
      hfin.timer, hfin.nodup, ?_⟩
    intro i
    constructor
    · exact hfin.fired_due i
    · intro hi
      by_contra hnf
      have hset := hfin.settled i (hperm.mem_iff.mpr hi.1)
      rw [hfin.isDue_of_not_fired hnf, hi.2] at hset
      cases hset
  · -- at most one timer, and it is not due
    have hnone : ∀ i ∈ xs, isDue tm i = false := by
      intro i hi
      match xs, hlen, hi with
      | [j], _, hi =>
        rw [mem_singleton.mp hi]
        by_contra hdue
        exact hlonely ⟨j, hlist.next_head, hlist.next_first,
          by simpa using hdue⟩
      | _ :: _ :: _, hlen, _ => simp at hlen
    have hres : Checked tm xs tm [] xs :=
      ⟨hlist, List.Perm.refl _, rfl, by simp, nodup_nil, by
        intro i
        simp only [not_mem_nil, false_iff, not_and]
        intro hi hdue
        rw [hnone i hi] at hdue
        cases hdue⟩
    refine ⟨2, tm, [], xs, ?_, hres⟩
    match xs, hlen with
    | [], _ => rfl
    | [j], _ =>
      have hdue := hnone j (by simp)
      have hnext := hlist.next_first
      have halone := (show TimerList tm ([] ++ [j]) from hlist).next_eq_prev_iff.mpr ⟨rfl, rfl⟩
      simp only [firstNode, timerCheckLoop, halone, ↓reduceIte]
      by_cases hexp : tm.skTick ≥ (tm.timer j).timeoutTick
      · have hact : (tm.timer j).isActive = false := by simpa [isDue, hexp] using hdue
        simp [hexp, hact]
      · rw [if_neg hexp, ← halone, hnext]
        rfl
    | _ :: _ :: _, hlen => simp at hlen

/-! ## Lists without periodic timers -/

theorem isDue_of_timerDeactivate {j : I} (h : isDue (timerDeactivate tm i) j = true) :
    isDue tm j = true := by
  by_cases hj : j = i
  · subst hj
    simp [isDue, timerDeactivate, Timers.setTimer] at h
  · simpa [isDue, timerDeactivate, Timers.setTimer, update_of_ne hj] using h

/-- The walk passes every timer once, and keeps what the callbacks of the due ones keep. -/
theorem timerCheckLoop_oneShot {P : σ → Prop} {s : σ} (h : TimerListOn dom tm (done ++ rest))
    (hone : ∀ i ∈ rest, (tm.timer i).isPeriodic = false)
    (hP : ∀ i ∈ rest, isDue tm i = true → ∀ s, P s → P (timeoutFunc i s)) (hs : P s) :
    ∃ tm' s', timerCheckLoop timeoutFunc (rest.length + 1) (firstNode rest) tm s = some (tm', s') ∧
      tm'.links = tm.links ∧ (∀ i, (tm'.timer i).isPeriodic = (tm.timer i).isPeriodic) ∧ P s' := by
  induction rest generalizing tm done s with
  | nil => exact ⟨tm, s, rfl, rfl, fun _ => rfl, hs⟩
  | cons i rest ih =>
    have hcall : expired tm i = true → P (afterCall timeoutFunc tm i s) := by
      intro hexp
      unfold afterCall
      split
      · rename_i hact
        exact hP i mem_cons_self (by rw [isDue_eq, hact, hexp]; rfl) s hs
      · exact hs
    have hround := timerCheckLoop_cases h timeoutFunc (rest.length + 1) s
    rw [append_cons] at h
    obtain ⟨hexp, -, -, hloop⟩ | ⟨-, hper, -⟩ | ⟨hexp, -, hloop⟩ | ⟨-, hloop⟩ := hround
    · exact ⟨_, _, hloop, rfl, fun _ => rfl, hcall hexp⟩
    · rw [hone i mem_cons_self] at hper
      cases hper
    · obtain ⟨tm', s', hrun, hlinks, hper, hend⟩ := ih
        (show TimerListOn dom (timerDeactivate tm i) _ from h)
        (fun j hj => by
          rw [timerDeactivate_isPeriodic]
          exact hone j (mem_cons_of_mem i hj))
        (fun j hj hdue => hP j (mem_cons_of_mem i hj) (isDue_of_timerDeactivate hdue))
        (hcall hexp)
      exact ⟨tm', s', hloop.trans hrun, hlinks,
        fun j => by rw [hper j, timerDeactivate_isPeriodic], hend⟩
    · obtain ⟨tm', s', hrun, hsame⟩ := ih h (fun j hj => hone j (mem_cons_of_mem i hj))
        (fun j hj => hP j (mem_cons_of_mem i hj)) hs
      exact ⟨tm', s', hloop.trans hrun, hsame⟩

/-! ## Fuel and invariants -/

omit [DecidableEq I] in
theorem timerCheckLoop_mono [DecidableEq I] (timeoutFunc : I → σ → σ) :
    ∀ (fuel extra : Nat) (n : TimerNode I) (tm : Timers I) (s : σ) (r : Timers I × σ),
      timerCheckLoop timeoutFunc fuel n tm s = some r →
      timerCheckLoop timeoutFunc (fuel + extra) n tm s = some r := by
  intro fuel
  induction fuel with
  | zero => intro extra n tm s r h; cases h
  | succ fuel ih =>
    intro extra n tm s r h
    rw [Nat.succ_add]
    cases n with
    | head => exact h
    | timer i =>
      simp only [timerCheckLoop] at h ⊢
      split at h
      · rename_i hexp
        rw [if_pos hexp]
        split at h
        · rename_i halone
          rw [if_pos halone]
          exact h
        · rename_i halone
          rw [if_neg halone]
          exact ih extra _ _ _ _ h
      · rename_i hexp
        rw [if_neg hexp]
        exact ih extra _ _ _ _ h

omit [DecidableEq I] in
theorem timerCheckLoop_invariant [DecidableEq I] {timeoutFunc : I → σ → σ}
    (Inv : CheckPc I → Timers I → σ → Prop)
    (hvisit : ∀ n tm s, Inv (.visit n) tm s → Inv (timerCheckVisit tm n) tm s)
    (hcalled : ∀ i tm s, Inv (.called i) tm s →
      Inv (timerCheckCalled tm i).1 (timerCheckCalled tm i).2
        (if (tm.timer i).isActive then timeoutFunc i s else s)) :
    ∀ {fuel : Nat} {n : TimerNode I} {tm tm' : Timers I} {s s' : σ}, Inv (.visit n) tm s →
      timerCheckLoop timeoutFunc fuel n tm s = some (tm', s') → Inv .idle tm' s' := by
  intro fuel
  induction fuel with
  | zero =>
    intro n tm tm' s s' _ hloop
    cases hloop
  | succ fuel ih =>
    intro n tm tm' s s' hinv hloop
    have hstep := hvisit n tm s hinv
    cases n with
    | head =>
      cases hloop
      exact hstep
    | timer i =>
      simp only [timerCheckLoop] at hloop
      dsimp only [timerCheckVisit] at hstep
      split at hloop
      · -- the timer is due: the second half of the step follows
        rename_i hdue
        rw [if_pos hdue] at hstep
        have hend := hcalled i tm s hstep
        dsimp only [timerCheckCalled] at hend
        split at hloop
        · rename_i halone
          rw [if_pos halone] at hend
          cases hloop
          exact hend
        · rename_i halone
          rw [if_neg halone] at hend
          exact ih hend hloop
      · rename_i hdue
        rw [if_neg hdue] at hstep
        exact ih hstep hloop

omit [DecidableEq I] in
/-- Whatever else the callbacks keep track of. -/
theorem timerCheckLoop_map [DecidableEq I] {τ : Type*} {cb : I → σ → σ} {cb' : I → τ → τ}
    {f : σ → τ} (hf : ∀ i s, f (cb i s) = cb' i (f s)) :
    ∀ (fuel : Nat) (n : TimerNode I) (tm : Timers I) (s : σ),
      timerCheckLoop cb' fuel n tm (f s) =
        (timerCheckLoop cb fuel n tm s).map fun r => (r.1, f r.2) := by
  intro fuel
  induction fuel with
  | zero =>
    intro n tm s
    rfl
  | succ fuel ih =>
    intro n tm s
    cases n with
    | head => rfl
    | timer i =>
      have hcb : (if (tm.timer i).isActive = true then cb' i (f s) else f s) =
          f (if (tm.timer i).isActive = true then cb i s else s) := by
        split
        · exact (hf i s).symm
        · rfl
      simp only [timerCheckLoop, hcb]
      split
      · split
        · rfl
        · exact ih _ _ _
      · exact ih _ _ _

theorem skTimerCheck_unique {s : σ} {f f' : Nat} {r r' : Timers I × σ}
    (h : skTimerCheck timeoutFunc f tm s = some r)
    (h' : skTimerCheck timeoutFunc f' tm s = some r') : r = r' := by
  have hr := timerCheckLoop_mono timeoutFunc f f' _ _ _ _ h
  have hr' := timerCheckLoop_mono timeoutFunc f' f _ _ _ _ h'
  rw [Nat.add_comm f' f, hr] at hr'
  exact Option.some.inj hr'

end SKernel.Spec
