import SKernel.Spec.TimerList

/-!
# Timer service

Runs of the timer service: timers are started at any time, the tick handler runs, and
`sk_timer_check` may run on its own in between. Along a run, `start i` records the tick at
which timer `i` was last started and `calls i` the ticks at which its callback has been
invoked since. The service law says what `calls i` has to be.

The early return of `sk_timer_check` is meant for a timer that its own callback has unlinked,
but it is also taken for a timer that is alone on the list. The law therefore holds along the
runs in which no check finds its only timer due (`LonelyDue`), and fails otherwise.

## Key results

- `Started.check`: what one check does to a started timer
- `timer_service_law`: the law along every such run
-/

namespace SKernel.Spec

open Native Links Function List Option

variable {I : Type*} {σ : Type*} {now' : Nat} {slice : σ → σ}

/-! ## Runs and their history -/

/-- A state of the timer service together with its history. -/
structure TimerSys (I : Type*) (σ : Type*) where
  tm : Timers I
  rest : σ
  /-- the tick of the last `sk_timer_start` -/
  start : I → Option Nat
  /-- the ticks of the callbacks since then -/
  calls : I → List Nat

/-- A callback that also notes which timer it was called for. -/
def logged (timeoutFunc : I → σ → σ) (i : I) (s : σ × List I) : σ × List I :=
  (timeoutFunc i s.1, s.2 ++ [i])

namespace TimerSys

variable [DecidableEq I]

/-- `sk_timer_start`, which begins a new history of the timer. -/
def started (c : TimerSys I σ) (i : I) : TimerSys I σ where
  tm := skTimerStart c.tm i
  rest := c.rest
  start := update c.start i (some c.tm.skTick)
  calls := update c.calls i []

/-- The state after a check that ended in `tm` and `s` and called back the timers `fired`. -/
def record (c : TimerSys I σ) (tm : Timers I) (s : σ) (fired : List I) : TimerSys I σ where
  tm := tm
  rest := s
  start := c.start
  calls := fun i => c.calls i ++ List.replicate (fired.count i) tm.skTick

/-- `sk_tick_increase`. -/
def tick (slice : σ → σ) (timeoutFunc : I → σ → σ) (fuel : Nat) (c : TimerSys I σ) :
    Option (TimerSys I σ) :=
  (tickIncrease (fun s => (slice s.1, s.2)) (logged timeoutFunc) fuel c.tm (c.rest, [])).map
    fun r => c.record r.1 r.2.1 r.2.2

/-- `sk_timer_check`. -/
def check (timeoutFunc : I → σ → σ) (fuel : Nat) (c : TimerSys I σ) : Option (TimerSys I σ) :=
  (skTimerCheck (logged timeoutFunc) fuel c.tm (c.rest, [])).map
    fun r => c.record r.1 r.2.1 r.2.2

/-- The timers as the check of the next tick finds them. -/
def atNextTick (c : TimerSys I σ) : Timers I := { c.tm with skTick := c.tm.tickAfter 1 }

/-- The next tick neither wraps the tick counter nor the timeout of a periodic timer. -/
def NoWrap (c : TimerSys I σ) : Prop :=
  c.tm.skTick + 1 < 2 ^ 32 ∧ ∀ i, c.start i ≠ none → (c.tm.timer i).isPeriodic = true →
    c.tm.skTick + 1 + (c.tm.timer i).initTick < 2 ^ 32

end TimerSys

/-- The states reached by starting timers, ticking and checking without wrapping, from an empty
    timer list, when every check begins in a state that meets `guard`. -/
inductive TimerReach [DecidableEq I] (slice : σ → σ) (timeoutFunc : I → σ → σ)
    (guard : Timers I → Prop) : TimerSys I σ → Prop where
  | init (tm : Timers I) (s : σ) (hlist : TimerList tm []) :
      TimerReach slice timeoutFunc guard ⟨tm, s, fun _ => none, fun _ => []⟩
  | start {c : TimerSys I σ} (i : I) (h : TimerReach slice timeoutFunc guard c)
      (hpos : 1 ≤ (c.tm.timer i).initTick)
      (hwrap : c.tm.skTick + (c.tm.timer i).initTick < 2 ^ 32) :
      TimerReach slice timeoutFunc guard (c.started i)
  | tick {c c' : TimerSys I σ} (fuel : Nat) (h : TimerReach slice timeoutFunc guard c)
      (hwrap : c.NoWrap) (hguard : guard c.atNextTick)
      (hrun : c.tick slice timeoutFunc fuel = some c') :
      TimerReach slice timeoutFunc guard c'
  | check {c c' : TimerSys I σ} (fuel : Nat) (h : TimerReach slice timeoutFunc guard c)
      (hguard : guard c.tm) (hrun : c.check timeoutFunc fuel = some c') :
      TimerReach slice timeoutFunc guard c'

/-- The ticks `t + d`, `t + 2 * d`, ..., `t + n * d`. -/
def periods (t d n : Nat) : List Nat := (List.range n).map fun k => t + (k + 1) * d

/-- A timer that was never started is never called back; a one-shot timer started at tick `t`
    exactly once, at `t + d`; a periodic one exactly at the ticks `t + k * d` for `k ≥ 1`, each
    once. -/
def TimerLaw (c : TimerSys I σ) : Prop :=
  ∀ i, match c.start i with
    | none => c.calls i = []
    | some t =>
      let d := (c.tm.timer i).initTick
      if (c.tm.timer i).isPeriodic = true then
        c.calls i = periods t d ((c.tm.skTick - t) / d)
      else
        c.calls i = if t + d ≤ c.tm.skTick then [t + d] else []

/-! ## The history of one timer -/

/-- A periodic timer, now `n` periods after its start at tick `t`. -/
structure PeriodicAt (r : SysTimer) (now t n : Nat) (calls : List Nat) : Prop where
  active : r.isActive = true
  calls : calls = periods t r.initTick n
  timeout : r.timeoutTick = t + n * r.initTick + r.initTick
  begun : t + n * r.initTick ≤ now
  ahead : now < r.timeoutTick

/-- After its start at tick `t` a one-shot timer is active and ahead of its timeout, or inactive and
    called back. -/
def OneShotAt (r : SysTimer) (now t : Nat) (calls : List Nat) : Prop :=
  r.timeoutTick = t + r.initTick ∧
    (r.isActive = true ∧ calls = [] ∧ now < r.timeoutTick ∨
      r.isActive = false ∧ calls = [r.timeoutTick] ∧ r.timeoutTick ≤ now)

/-- The record agrees with the history: started at tick `t`, called back at the ticks `calls`. -/
def Started (r : SysTimer) (now t : Nat) (calls : List Nat) : Prop :=
  1 ≤ r.initTick ∧
    if r.isPeriodic = true then ∃ n, PeriodicAt r now t n calls else OneShotAt r now t calls

theorem periods_succ (t d n : Nat) : periods t d (n + 1) = periods t d n ++ [t + n * d + d] := by
  simp only [periods, range_succ, map_append, map_cons, map_nil,
    Nat.succ_mul, Nat.add_assoc]

namespace Started

variable {r : SysTimer} {now t : Nat} {calls : List Nat}

theorem of_start (r : SysTimer) (now : Nat) (hpos : 1 ≤ r.initTick) :
    Started { r with timeoutTick := now + r.initTick, flag := r.flag ||| timerFlagActive }
      now now [] := by
  refine ⟨hpos, ?_⟩
  rw [isPeriodic_or]
  split
  · exact ⟨0, isActive_or r _, rfl, by simp, by simp, by dsimp only; omega⟩
  · exact ⟨rfl, .inl ⟨isActive_or r _, rfl, by dsimp only; omega⟩⟩

section

variable (h : Started r now t calls)
include h

/-- A linked periodic timer is active. -/
theorem isActive (hp : r.isPeriodic = true) : r.isActive = true := by
  have hper := h.2
  rw [if_pos hp] at hper
  obtain ⟨n, hn⟩ := hper
  exact hn.active

theorem lt_timeout (ha : r.isActive = true) : now < r.timeoutTick := by
  have hr := h.2
  split at hr
  · obtain ⟨n, hn⟩ := hr
    exact hn.ahead
  · obtain ⟨-, hact | hinact⟩ := hr
    · exact hact.2.2
    · rw [ha] at hinact
      cases hinact.1

/-- Time goes on while the timer is not due. -/
theorem wait (hle : now ≤ now') (hdue : r.isActive = true → now' < r.timeoutTick) :
    Started r now' t calls := by
  refine ⟨h.1, ?_⟩
  have hr := h.2
  split
  · rename_i hp
    rw [if_pos hp] at hr
    obtain ⟨n, hn⟩ := hr
    exact ⟨n, hn.active, hn.calls, hn.timeout, Nat.le_trans hn.begun hle, hdue hn.active⟩
  · rename_i hp
    rw [if_neg hp] at hr
    obtain ⟨htime, hact | hinact⟩ := hr
    · exact ⟨htime, .inl ⟨hact.1, hact.2.1, hdue hact.1⟩⟩
    · exact ⟨htime, .inr ⟨hinact.1, hinact.2.1, Nat.le_trans hinact.2.2 hle⟩⟩

theorem restart (hp : r.isPeriodic = true) (hnow : now' = r.timeoutTick) :
    Started { r with timeoutTick := now' + r.initTick, flag := r.flag ||| timerFlagActive }
      now' t (calls ++ [now']) := by
  have hpos := h.1
  have hr := h.2
  rw [if_pos hp] at hr
  obtain ⟨n, hn⟩ := hr
  have htime := hn.timeout
  refine ⟨hpos, ?_⟩
  rw [isPeriodic_or, if_pos hp]
  have hmul : (n + 1) * r.initTick = n * r.initTick + r.initTick := Nat.succ_mul n _
  refine ⟨n + 1, isActive_or r _, ?_, ?_, ?_, ?_⟩
  · rw [hn.calls, periods_succ, hnow, htime]
  · dsimp only; omega
  · dsimp only; omega
  · dsimp only; omega

theorem expire (hp : r.isPeriodic = false) (ha : r.isActive = true) (hnow : now' = r.timeoutTick) :
    Started { r with flag := r.flag &&& ~~~timerFlagActive } now' t (calls ++ [now']) := by
  have hr := h.2
  rw [if_neg (by simp [hp])] at hr
  obtain ⟨htime, hact | hinact⟩ := hr
  · refine ⟨h.1, ?_⟩
    rw [isPeriodic_clear, if_neg (by simp [hp])]
    refine ⟨htime, .inr ⟨isActive_clear r, ?_, ?_⟩⟩
    · rw [hact.2.1, hnow]; rfl
    · exact Nat.le_of_eq hnow.symm
  · rw [ha] at hinact
    cases hinact.1

end

theorem check {tm : Timers I} {i : I} {r' : SysTimer} {now : Nat}
    (h : Started (tm.timer i) tm.skTick t calls) (hle : tm.skTick ≤ now)
    (hnext : now ≤ tm.skTick + 1)
    (hwrap : (tm.timer i).isPeriodic = true → isDue { tm with skTick := now } i = true →
      now + (tm.timer i).initTick < 2 ^ 32)
    (hr' : r' = if isDue { tm with skTick := now } i = true
      then afterCallback { tm with skTick := now } i else tm.timer i) :
    Started r' now t
      (calls ++ if isDue { tm with skTick := now } i = true then [now] else []) := by
  subst hr'
  by_cases hdue : isDue { tm with skTick := now } i = true
  · rw [if_pos hdue, if_pos hdue]
    obtain ⟨ha, htime⟩ : (tm.timer i).isActive = true ∧ (tm.timer i).timeoutTick ≤ now := by
      simpa [isDue] using hdue
    have hahead := h.lt_timeout ha
    have hnow : now = (tm.timer i).timeoutTick := by omega
    cases hp : (tm.timer i).isPeriodic with
    | true =>
      have hlt := hwrap hp hdue
      have hstart := h.restart hp hnow
      simpa only [afterCallback, hp, ↓reduceIte, Timers.tickAfter,
        Nat.mod_eq_of_lt hlt] using hstart
    | false =>
      have hstop := h.expire hp ha hnow
      simpa only [afterCallback, hp, Bool.false_eq_true, ↓reduceIte] using hstop
  · rw [if_neg hdue, if_neg hdue, append_nil]
    apply h.wait hle
    intro ha
    simpa [isDue, ha] using hdue

end Started

/-! ## The invariant of a run -/

/-- The started timers are on the list, in the state their history says. -/
structure TimerInv [DecidableEq I] (c : TimerSys I σ) (xs : List I) : Prop where
  list : TimerList c.tm xs
  mem_iff : ∀ i, i ∈ xs ↔ c.start i ≠ none
  calls_nil : ∀ i, c.start i = none → c.calls i = []
  started : ∀ i t, c.start i = some t → Started (c.tm.timer i) c.tm.skTick t (c.calls i)

theorem foldl_logged (timeoutFunc : I → σ → σ) (fired : List I) (s : σ) (log : List I) :
    fired.foldl (fun s i => logged timeoutFunc i s) (s, log) =
      (fired.foldl (fun s i => timeoutFunc i s) s, log ++ fired) := by
  induction fired generalizing s log with
  | nil => simp
  | cons i fired ih =>
    rw [foldl_cons, logged, ih]
    simp

variable [DecidableEq I] {c c' : TimerSys I σ} {xs : List I}

namespace TimerInv

/-- Starting a timer. -/
theorem start (h : TimerInv c xs) (i : I) (hpos : 1 ≤ (c.tm.timer i).initTick)
    (hwrap : c.tm.skTick + (c.tm.timer i).initTick < 2 ^ 32) :
    TimerInv (c.started i) (i :: xs.erase i) where
  list := skTimerStart_list h.list i
  mem_iff := by
    intro j
    by_cases hj : j = i
    · subst hj
      simp [TimerSys.started]
    · simp only [TimerSys.started, mem_cons, hj, false_or, update_of_ne hj,
        mem_erase_of_ne hj, h.mem_iff j]
  calls_nil := by
    intro j hj
    by_cases hji : j = i
    · subst hji
      simp [TimerSys.started]
    · simp only [TimerSys.started, update_of_ne hji] at hj ⊢
      exact h.calls_nil j hj
  started := by
    intro j t hj
    by_cases hji : j = i
    · subst hji
      simp only [TimerSys.started, update_self, some.injEq] at hj
      subst hj
      have hstart := Started.of_start (c.tm.timer j) c.tm.skTick hpos
      rw [← Nat.mod_eq_of_lt hwrap] at hstart
      simpa only [TimerSys.started, skTimerStart, Timers.setTimer, timerRemove,
        Timers.tickAfter, update_self] using hstart
    · simp only [TimerSys.started, update_of_ne hji] at hj ⊢
      have hsame : (skTimerStart c.tm i).timer j = c.tm.timer j := update_of_ne hji _ _
      rw [hsame]
      exact h.started j t hj

variable {now : Nat}

variable (h : TimerInv c xs)
include h

theorem walkReady (hwrap : ∀ i, c.start i ≠ none → (c.tm.timer i).isPeriodic = true →
      isDue { c.tm with skTick := now } i = true → now + (c.tm.timer i).initTick < 2 ^ 32) :
    WalkReady { c.tm with skTick := now } xs where
  active := by
    intro i hi hp
    obtain ⟨t, ht⟩ := ne_none_iff_exists'.mp ((h.mem_iff i).mp hi)
    exact (h.started i t ht).isActive hp
  later := by
    intro i hi hdue hp
    have hi' := (h.mem_iff i).mp hi
    obtain ⟨t, ht⟩ := ne_none_iff_exists'.mp hi'
    have hpos := (h.started i t ht).1
    have hlt := hwrap i hi' hp hdue
    simp only [Timers.tickAfter, Nat.mod_eq_of_lt hlt]
    omega

theorem checked (hle : c.tm.skTick ≤ now) (hnext : now ≤ c.tm.skTick + 1)
    (hwrap : ∀ i, c.start i ≠ none → (c.tm.timer i).isPeriodic = true →
      isDue { c.tm with skTick := now } i = true → now + (c.tm.timer i).initTick < 2 ^ 32)
    (hlonely : ¬ LonelyDue { c.tm with skTick := now }) (timeoutFunc : I → σ → σ) (s : σ) :
    ∃ fuel tm' s' fired xs',
      skTimerCheck (logged timeoutFunc) fuel { c.tm with skTick := now } (s, []) =
        some (tm', s', fired) ∧ TimerInv (c.record tm' s' fired) xs' := by
  have hlist : TimerList { c.tm with skTick := now } xs := h.list.congr_links rfl
  obtain ⟨fuel, tm', fired, xs', hrun, hres⟩ :=
    skTimerCheck_spec hlist (h.walkReady hwrap) hlonely (logged timeoutFunc) (s, [])
  rw [foldl_logged, nil_append] at hrun
  refine ⟨fuel, tm', _, fired, xs', hrun, hres.list, ?_, ?_, ?_⟩
  · intro i
    exact (hres.perm.mem_iff).trans (h.mem_iff i)
  · intro i hi
    have hnf : i ∉ fired := by
      intro hf
      exact (h.mem_iff i).mp ((hres.fired_iff i).mp hf).1 hi
    show c.calls i ++ List.replicate (fired.count i) tm'.skTick = []
    rw [count_eq_zero.mpr hnf, h.calls_nil i hi]
    rfl
  · intro i t hi
    have hi' : c.start i ≠ none := by
      rw [show c.start i = some t from hi]
      exact some_ne_none t
    -- the timer is called back exactly when it is due
    have hfired : i ∈ fired ↔ isDue { c.tm with skTick := now } i = true := by
      rw [hres.fired_iff i, and_iff_right ((h.mem_iff i).mpr hi')]
    have hcalls : List.replicate (fired.count i) tm'.skTick =
        if isDue { c.tm with skTick := now } i = true then [now] else [] := by
      rw [hres.skTick]
      split
      · rename_i hdue
        rw [count_eq_one_of_mem hres.nodup (hfired.mpr hdue)]
        rfl
      · rename_i hdue
        rw [count_eq_zero.mpr fun hf => hdue (hfired.mp hf)]
        rfl
    show Started (tm'.timer i) tm'.skTick t
      (c.calls i ++ List.replicate (fired.count i) tm'.skTick)
    rw [hcalls, hres.skTick]
    refine Started.check (h.started i t hi) hle hnext (hwrap i hi') ?_
    rw [hres.timer i]
    simp only [hfired]

/-- The next tick completes and keeps the invariant. -/
theorem tick (hwrap : c.NoWrap) (hlonely : ¬ LonelyDue c.atNextTick)
    (slice : σ → σ) (timeoutFunc : I → σ → σ) :
    ∃ fuel c', c.tick slice timeoutFunc fuel = some c' ∧ ∃ xs', TimerInv c' xs' := by
  have hnow : c.tm.tickAfter 1 = c.tm.skTick + 1 := Nat.mod_eq_of_lt hwrap.1
  unfold TimerSys.atNextTick at hlonely
  rw [hnow] at hlonely
  obtain ⟨fuel, tm', s', fired, xs', hrun, hinv⟩ :=
    h.checked (Nat.le_succ _) (Nat.le_refl _) (fun i hi hp _ => hwrap.2 i hi hp) hlonely
      timeoutFunc (slice c.rest)
  refine ⟨fuel, _, ?_, xs', hinv⟩
  simp only [TimerSys.tick, tickIncrease, hnow, hrun, map_some]

theorem check (hlonely : ¬ LonelyDue c.tm) (timeoutFunc : I → σ → σ) :
    ∃ fuel c', c.check timeoutFunc fuel = some c' ∧ ∃ xs', TimerInv c' xs' := by
  obtain ⟨fuel, tm', s', fired, xs', hrun, hinv⟩ :=
    h.checked (Nat.le_refl _) (Nat.le_succ _)
      (by
        -- no periodic timer is due before the next tick
        intro i hi hp hdue
        obtain ⟨t, ht⟩ := ne_none_iff_exists'.mp hi
        have hahead := (h.started i t ht).lt_timeout ((h.started i t ht).isActive hp)
        simp only [isDue, Bool.and_eq_true, decide_eq_true_eq] at hdue
        omega)
      hlonely timeoutFunc c.rest
  refine ⟨fuel, _, ?_, xs', hinv⟩
  simp only [TimerSys.check, hrun, map_some]

/-- The invariant gives the service law. -/
theorem law : TimerLaw c := by
  intro i
  split
  · rename_i hi
    exact h.calls_nil i hi
  · rename_i t hi
    obtain ⟨hpos, hr⟩ := h.started i t hi
    dsimp only
    split at hr
    · rename_i hp
      obtain ⟨n, hn⟩ := hr
      have htime := hn.timeout
      have hbegun := hn.begun
      have hahead := hn.ahead
      have hdiv : (c.tm.skTick - t) / (c.tm.timer i).initTick = n := by
        rw [Nat.div_eq_iff hpos]
        omega
      rw [if_pos hp, hdiv]
      exact hn.calls
    · rename_i hp
      obtain ⟨htime, hact | hinact⟩ := hr
      · rw [if_neg hp, if_neg (by omega)]
        exact hact.2.1
      · rw [if_neg hp, if_pos (by omega), ← htime]
        exact hinact.2.1

end TimerInv

variable {timeoutFunc : I → σ → σ}

/-- Whatever the fuel, a tick has one possible outcome. -/
theorem tick_unique {f f' : Nat} {c1 c2 : TimerSys I σ} (h : c.tick slice timeoutFunc f = some c1)
    (h' : c.tick slice timeoutFunc f' = some c2) :
    c1 = c2 := by
  simp only [TimerSys.tick, tickIncrease, map_eq_some_iff] at h h'
  obtain ⟨r, hr, rfl⟩ := h
  obtain ⟨r', hr', rfl⟩ := h'
  rw [skTimerCheck_unique hr hr']

/-- Whatever the fuel, a check has one possible outcome. -/
theorem check_unique {f f' : Nat} {c1 c2 : TimerSys I σ} (h : c.check timeoutFunc f = some c1)
    (h' : c.check timeoutFunc f' = some c2) :
    c1 = c2 := by
  simp only [TimerSys.check, map_eq_some_iff] at h h'
  obtain ⟨r, hr, rfl⟩ := h
  obtain ⟨r', hr', rfl⟩ := h'
  rw [skTimerCheck_unique hr hr']

/-- The checks never find their only timer due. -/
theorem TimerReach.inv (h : TimerReach slice timeoutFunc
    (fun tm => ¬ LonelyDue tm) c) : ∃ xs, TimerInv c xs := by
  induction h with
  | init tm s hlist =>
    refine ⟨[], hlist, ?_, ?_, ?_⟩
    · simp
    · simp
    · intro i t ht
      cases ht
  | start i _ hpos hwrap ih =>
    obtain ⟨xs, hinv⟩ := ih
    exact ⟨_, hinv.start i hpos hwrap⟩
  | tick fuel _ hwrap hguard hrun ih =>
    obtain ⟨xs, hinv⟩ := ih
    obtain ⟨_, c', hrun', hres⟩ := hinv.tick hwrap hguard slice timeoutFunc
    rw [tick_unique hrun hrun']
    exact hres
  | check fuel _ hguard hrun ih =>
    obtain ⟨xs, hinv⟩ := ih
    obtain ⟨_, c', hrun', hres⟩ := hinv.check hguard timeoutFunc
    rw [check_unique hrun hrun']
    exact hres

/-- **Timer service law.** Along every run in which no check finds its only timer due, every
    timer has been called back exactly at the ticks it should be, and the next tick
    completes. -/
theorem timer_service_law {slice : σ → σ} {timeoutFunc : I → σ → σ}
    (h : TimerReach slice timeoutFunc (fun tm => ¬ LonelyDue tm) c) :
    TimerLaw c ∧ (c.NoWrap → ¬ LonelyDue c.atNextTick →
      ∃ fuel c', c.tick slice timeoutFunc fuel = some c') := by
  obtain ⟨xs, hinv⟩ := h.inv
  refine ⟨hinv.law, ?_⟩
  intro hwrap hlonely
  obtain ⟨fuel, c', hrun, -⟩ := hinv.tick hwrap hlonely slice timeoutFunc
  exact ⟨fuel, c', hrun⟩

/-- A system whose timers are not linked yet, at tick zero. -/
def unlinked (timer : I → SysTimer) : TimerSys I Unit where
  tm := { skTick := 0, links := ⟨id, id⟩, timer }
  rest := ()
  start := fun _ => none
  calls := fun _ => []

theorem reach_unlinked (guard : Timers I → Prop) (timer : I → SysTimer) :
    TimerReach id (fun _ => id) guard (unlinked timer) :=
  .init _ _ (Rings.of_isolated (Set.subset_univ _) fun _ _ => ⟨rfl, rfl⟩)

/-- Two ticks of a one-shot timer of two ticks and a periodic timer of one tick. -/
theorem timer_service_law_two_ticks :
    ∃ c : TimerSys Bool Unit, TimerReach id (fun _ => id) (fun tm => ¬ LonelyDue tm) c ∧
      TimerLaw c ∧ c.calls true = [1, 2] ∧ c.calls false = [2] := by
  have h0 := reach_unlinked (fun tm => ¬ LonelyDue tm)
    fun i : Bool => if i then ⟨timerFlagPeriodic, 1, 0⟩ else ⟨0, 2, 0⟩
  have h1 := (h0.start false (by decide) (by decide)).start true (by decide) (by decide)
  have h2 := h1.tick 5 (by unfold TimerSys.NoWrap; decide) (by unfold LonelyDue; decide) rfl
  have h3 := h2.tick 5 (by unfold TimerSys.NoWrap; decide) (by unfold LonelyDue; decide) rfl
  exact ⟨_, h3, (timer_service_law h3).1, rfl, rfl⟩

/-- The law fails for a timer that is alone on the list: a one-shot timer of one tick,
    started at tick 0, is called back at tick 1 and again at tick 2. -/
theorem timer_service_law_fails :
    ∃ c : TimerSys Unit Unit, TimerReach id (fun _ => id) (fun _ => True) c ∧
      c.start () = some 0 ∧ (c.tm.timer ()).initTick = 1 ∧
      (c.tm.timer ()).isPeriodic = false ∧ c.calls () = [1, 2] ∧ ¬ TimerLaw c := by
  have h0 := reach_unlinked (fun _ => True) fun _ : Unit => ⟨0, 1, 0⟩
  have h1 := h0.start () (by decide) (by decide)
  have h2 := h1.tick 5 (by unfold TimerSys.NoWrap; decide) trivial rfl
  have h3 := h2.tick 5 (by unfold TimerSys.NoWrap; decide) trivial rfl
  refine ⟨_, h3, rfl, rfl, rfl, rfl, ?_⟩
  intro hlaw
  -- at tick 2 the law asks for one call, at tick 1
  have hcalls : [1, 2] = [1] := hlaw ()
  cases hcalls

end SKernel.Spec
