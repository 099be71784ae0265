import SKernel.Spec.SchedQueues

/-!
# The invariant of the scheduler

`SchedInv idle created s q` holds between completed calls, with an idle thread that is never
suspended: the current thread is on no list, and the idle thread is ready whenever it is not
running. A call of `sk_schedule` may begin in a weaker state, `AtSchedule`, in which the
current thread may already be linked on a wait list, provided it is suspended. The idle
thread makes sure that such a thread is then switched away from.

## Key results

- `AtSchedule.schedule`: `sk_schedule` completes and restores the invariant
-/

namespace SKernel.Spec

open Native List

/-- The invariant between completed calls. -/
structure SchedInv (idle : Tid) (created : List Tid) (s : Sched) (q : ListHead → List Tid) :
    Prop where
  queues : Queues created s q
  current_created : ∀ c, s.currentThread = some c → c ∈ created
  current_free : ∀ c, s.currentThread = some c → ∀ l, c ∉ q l
  current_stat : ∀ c, s.currentThread = some c →
    ((s.thread c).stat = threadRunning ∨ (s.thread c).stat = threadRunning ||| threadYield) ∨
      ((s.thread c).stat = threadSuspend ∧ c ≠ idle)
  idle_created : s.currentThread ≠ none → idle ∈ created
  idle_ready : idle ∈ created →
    s.currentThread = some idle ∨ idle ∈ q (.prio (s.thread idle).currentPri)

/-- The state in which thread `c` calls `sk_schedule`, or is interrupted by the tick. -/
structure AtSchedule (idle : Tid) (created : List Tid) (s : Sched) (q : ListHead → List Tid)
    (c : Tid) : Prop where
  queues : Queues created s q
  current : s.currentThread = some c
  current_created : c ∈ created
  off_ready : ∀ p, c ∉ q (.prio p)
  free : Requeued s c → ∀ l, c ∉ q l
  idle_stat : c = idle →
    (s.thread c).stat = threadRunning ∨ (s.thread c).stat = threadRunning ||| threadYield
  idle_ready : c ≠ idle → idle ∈ q (.prio (s.thread idle).currentPri)
  idle_created : idle ∈ created

/-- What a call of `sk_schedule` by thread `c` does, when it selects thread `d`. -/
structure Rescheduled (s s' : Sched) (q q' : ListHead → List Tid) (c d : Tid) : Prop where
  current : s'.currentThread = some d
  selected : d ≠ c → ∃ p, d ∈ q (.prio p)
  stay : d = c → s' = s ∧ Requeued s c
  wait : ∀ o, q' (.wait o) = q (.wait o)
  ready : ∀ u p, u ∈ q' (.prio p) → u ∈ q (.prio p) ∨ u = c ∧ Requeued s c
  thread : ∀ u, u ≠ d → ¬ (u = c ∧ Requeued s c) → s'.thread u = s.thread u

variable {idle : Tid} {created : List Tid} {s : Sched} {q : ListHead → List Tid} {c t : Tid}

theorem requeued_of_running
    (h : (s.thread c).stat = threadRunning ∨ (s.thread c).stat = threadRunning ||| threadYield) :
    Requeued s c := by
  unfold Requeued
  cases h with
  | inl h =>
    rw [h]
    decide
  | inr h =>
    rw [h]
    decide

namespace AtSchedule

variable (h : AtSchedule idle created s q c)
include h

/-- The invariant after a switch to a ready thread. -/
theorem switched {d : Tid} {p : Nat} (hd : d ∈ q (.prio p)) (hcd : c ≠ d) :
    SchedInv idle created (scheduleSwitch s c d) (switchedQueues s c d q) ∧
      Rescheduled s (scheduleSwitch s c d) q (switchedQueues s c d q) c d := by
  have hcur : (scheduleSwitch s c d).currentThread = some d := scheduleSwitch_currentThread s c d
  have hthread := scheduleSwitch_thread s hcd
  constructor
  · refine ⟨h.queues.switch h.current_created hd hcd h.free, ?_, ?_, ?_, ?_, ?_⟩
    · intro e he
      rw [hcur] at he
      cases he
      exact h.queues.lists.mem_created hd
    · intro e he
      rw [hcur] at he
      cases he
      exact h.queues.notMem_switchedQueues hd h.off_ready
    · intro e he
      rw [hcur] at he
      cases he
      left
      left
      rw [hthread d, if_pos rfl]
    · intro _
      exact h.idle_created
    · intro _
      by_cases hid : d = idle
      · subst hid
        exact .inl hcur
      · -- the idle thread was ready, or it was running and is queued now
        right
        have hpri : ((scheduleSwitch s c d).thread idle).currentPri =
            (s.thread idle).currentPri := by
          rw [hthread idle, if_neg (Ne.symm hid)]
          split
          · rename_i hre
            rw [hre.1]
          · rfl
        rw [hpri, h.queues.mem_switchedQueues_prio h.off_ready]
        refine ⟨Ne.symm hid, ?_⟩
        by_cases hci : c = idle
        · right
          have hre := requeued_of_running (h.idle_stat hci)
          subst hci
          exact ⟨rfl, hre, rfl⟩
        · exact .inl (h.idle_ready hci)
  · refine ⟨hcur, fun _ => ⟨p, hd⟩, fun hdc => absurd hdc.symm hcd,
      h.queues.switchedQueues_wait hd, ?_, ?_⟩
    · intro u p' hu
      cases ((h.queues.mem_switchedQueues_prio h.off_ready).mp hu).2 with
      | inl hin => exact .inl hin
      | inr hre => exact .inr ⟨hre.1, hre.2.1⟩
    · intro u hud hre
      rw [hthread u, if_neg hud, if_neg hre]

theorem stay (hfree : ∀ l, c ∉ q l) (hstat : (s.thread c).stat = threadRunning ∨
      (s.thread c).stat = threadRunning ||| threadYield) :
    SchedInv idle created s q := by
  refine ⟨h.queues, ?_, ?_, ?_, fun _ => h.idle_created, ?_⟩
  · intro e he
    rw [h.current] at he
    cases he
    exact h.current_created
  · intro e he
    rw [h.current] at he
    cases he
    exact hfree
  · intro e he
    rw [h.current] at he
    cases he
    exact .inl hstat
  · intro _
    by_cases hci : c = idle
    · rw [← hci]
      exact .inl h.current
    · exact .inr (h.idle_ready hci)

/-- The thread that is selected is on no list. -/
theorem schedule : ∃ s' q' d, skSchedule s = some s' ∧ SchedInv idle created s' q' ∧
      Rescheduled s s' q q' c d := by
  have hsame : Requeued s c → Rescheduled s s q q c c := fun hre =>
    ⟨h.current, fun hne => absurd rfl hne, fun _ => ⟨rfl, hre⟩, fun _ => rfl,
      fun _ _ hu => .inl hu, fun _ _ _ => rfl⟩
  rcases h.queues.skSchedule h.current h.off_ready with
    ⟨hrun, hnone⟩ | ⟨hrun, hstat, -⟩ | ⟨d, p, ts, hrun, hcd, hq, -, -⟩
  · -- no thread is ready, so the current thread is the idle thread
    have hci : c = idle := by
      by_contra hci
      have hin := h.idle_ready hci
      rw [hnone] at hin
      cases hin
    have hstat := h.idle_stat hci
    have hre := requeued_of_running hstat
    exact ⟨s, q, c, hrun, h.stay (h.free hre) hstat, hsame hre⟩
  · have hre := requeued_of_running (.inl hstat)
    exact ⟨s, q, c, hrun, h.stay (h.free hre) (.inl hstat), hsame hre⟩
  · have hd : d ∈ q (.prio p) := by
      rw [hq]
      exact mem_cons_self
    exact ⟨_, _, d, hrun, h.switched hd hcd⟩

/-- Thread `c` runs, or has just been suspended. -/
theorem wake (ht : t ∈ created) :
    AtSchedule idle created (threadWake s t) (wokenQueues s t q) c := by
  have hthread := threadWake_thread s t
  -- waking the current thread itself does not put it on a ready queue
  have hoff : ∀ p, c ∉ wokenQueues s t q (.prio p) := by
    intro p hin
    cases h.queues.mem_wokenQueues_prio.mp hin with
    | inl hold => exact h.off_ready p hold.2
    | inr hnew => exact hnew.2.1 (hnew.1 ▸ h.current)
  refine ⟨h.queues.wake ht ?_, by rw [threadWake_currentThread, h.current], h.current_created,
    hoff, ?_, ?_, ?_, h.idle_created⟩
  · intro hct
    rw [h.current] at hct
    cases hct
    exact h.off_ready
  · intro hre l
    cases l with
    | prio p => exact hoff p
    | wait o =>
      rw [wokenQueues_wait]
      by_cases hct : c = t
      · rw [hct]
        exact (h.queues.lists.nodup _).not_mem_erase
      · intro hin
        unfold Requeued at hre
        rw [hthread c, if_neg hct] at hre
        exact h.free hre _ (mem_of_mem_erase hin)
  · intro hci
    rw [hthread c]
    split
    · rename_i hct
      rw [← hct, if_pos h.current]
      exact .inl rfl
    · exact h.idle_stat hci
  · intro hci
    rw [threadWake_currentPri, h.queues.mem_wokenQueues_prio]
    by_cases hti : idle = t
    · right
      refine ⟨hti, ?_, by rw [hti]⟩
      rw [h.current, ← hti]
      intro heq
      exact hci (Option.some.inj heq)
    · exact .inl ⟨hti, h.idle_ready hci⟩

end AtSchedule

namespace SchedInv

variable (h : SchedInv idle created s q)
include h

theorem atSchedule (hc : s.currentThread = some c) : AtSchedule idle created s q c where
  queues := h.queues
  current := hc
  current_created := h.current_created c hc
  off_ready := fun p => h.current_free c hc (.prio p)
  free := fun _ => h.current_free c hc
  idle_stat := by
    intro hci
    cases h.current_stat c hc with
    | inl hst => exact hst
    | inr hst => exact absurd hci hst.2
  idle_ready := by
    intro hci
    have hid := h.idle_created (by rw [hc]; exact Option.some_ne_none c)
    cases h.idle_ready hid with
    | inl hcur =>
      rw [hc] at hcur
      cases hcur
      exact absurd rfl hci
    | inr hin => exact hin
  idle_created := h.idle_created (by rw [hc]; exact Option.some_ne_none c)

theorem of_stat {s' : Sched} (hq : Queues created s' q) (hcur : s'.currentThread = s.currentThread)
    (hpri : ∀ u, (s'.thread u).currentPri = (s.thread u).currentPri)
    (hstat : ∀ c, s.currentThread = some c →
      ((s'.thread c).stat = threadRunning ∨ (s'.thread c).stat = threadRunning ||| threadYield) ∨
        ((s'.thread c).stat = threadSuspend ∧ c ≠ idle)) : SchedInv idle created s' q where
  queues := hq
  current_created := by rw [hcur]; exact h.current_created
  current_free := by rw [hcur]; exact h.current_free
  current_stat := by rw [hcur]; exact hstat
  idle_created := by rw [hcur]; exact h.idle_created
  idle_ready := by rw [hcur, hpri idle]; exact h.idle_ready

/-- `sk_thread_resume`, and the start of `sk_thread_timeout`. -/
theorem wake (ht : t ∈ created) : SchedInv idle created (threadWake s t) (wokenQueues s t q) := by
  have hcur := threadWake_currentThread s t
  refine ⟨h.queues.wake ht fun hct p => h.current_free t hct (.prio p), ?_, ?_, ?_, ?_, ?_⟩
  · rw [hcur]
    exact h.current_created
  · intro c hc l hin
    rw [hcur] at hc
    cases l with
    | prio p =>
      cases h.queues.mem_wokenQueues_prio.mp hin with
      | inl hold => exact h.current_free c hc _ hold.2
      | inr hnew => exact hnew.2.1 (hnew.1 ▸ hc)
    | wait o =>
      rw [wokenQueues_wait] at hin
      exact h.current_free c hc _ (mem_of_mem_erase hin)
  · intro c hc
    rw [hcur] at hc
    rw [threadWake_thread]
    split
    · rename_i hct
      rw [← hct, if_pos hc]
      exact .inl (.inl rfl)
    · exact h.current_stat c hc
  · rw [hcur]
    exact h.idle_created
  · intro hid
    rw [hcur, threadWake_currentPri]
    cases h.idle_ready hid with
    | inl hcid => exact .inl hcid
    | inr hin =>
      right
      rw [h.queues.mem_wokenQueues_prio]
      by_cases hti : idle = t
      · right
        refine ⟨hti, ?_, by rw [hti]⟩
        intro hct
        rw [← hti] at hct
        exact h.current_free idle hct _ hin
      · exact .inl ⟨hti, hin⟩

/-- The first part of `sk_thread_startup`. -/
theorem startup (ht : t = idle → s.currentThread = none) :
    SchedInv idle created (s.setStat t threadSuspend) q := by
  refine h.of_stat (h.queues.setStat t _) rfl ?_ ?_
  · intro u
    rw [setStat_thread]
    split
    · rename_i hu
      rw [hu]
    · rfl
  · intro c hc
    rw [setStat_thread]
    split
    · rename_i hct
      right
      refine ⟨rfl, ?_⟩
      intro hci
      rw [ht (hct.symm.trans hci)] at hc
      cases hc
    · exact h.current_stat c hc

/-- The main part of `sk_thread_suspend`. -/
theorem remove (ht : t ∈ created) (hti : t ≠ idle) :
    SchedInv idle created ((skScheduleRemoveThread s t).setStat t threadSuspend)
      (fun l => (q l).erase t) := by
  have hthread : ∀ u, ((skScheduleRemoveThread s t).setStat t threadSuspend).thread u =
      if u = t then { s.thread t with stat := threadSuspend } else s.thread u := by
    intro u
    rw [setStat_thread, skScheduleRemoveThread_thread]
  have hcur : ((skScheduleRemoveThread s t).setStat t threadSuspend).currentThread =
      s.currentThread := by
    rw [setStat_currentThread, skScheduleRemoveThread_currentThread]
  refine ⟨(h.queues.remove ht).setStat t _, ?_, ?_, ?_, ?_, ?_⟩
  · rw [hcur]
    exact h.current_created
  · intro c hc l hin
    rw [hcur] at hc
    exact h.current_free c hc l (mem_of_mem_erase hin)
  · intro c hc
    rw [hcur] at hc
    rw [hthread c]
    split
    · rename_i hct
      exact .inr ⟨rfl, hct ▸ hti⟩
    · exact h.current_stat c hc
  · rw [hcur]
    exact h.idle_created
  · intro hid
    rw [hcur, hthread idle, if_neg (Ne.symm hti)]
    cases h.idle_ready hid with
    | inl hcid => exact .inl hcid
    | inr hin => exact .inr ((mem_erase_of_ne (Ne.symm hti)).mpr hin)

end SchedInv

end SKernel.Spec
