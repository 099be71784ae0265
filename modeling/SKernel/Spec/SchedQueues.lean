import SKernel.Native.Thread
import SKernel.Spec.HighestPriority

/-!
# What the scheduler's functions do to the queues

`Queues created s q` relates a scheduler state to its lists: the links hold the threads `q`,
the ready group agrees with the ready queues, and a queued thread has the priority of its
queue. Each function of the scheduler is described once, by its effect on `q`, on the thread
records and on the current thread; later proofs use these descriptions only.

## Key results

- `Queues.insert`, `Queues.remove`, `Queues.wake`, `Queues.switch`: the effects on the queues
- `Queues.skSchedule`: the outcomes of `sk_schedule`
-/

namespace SKernel.Spec

open Native Function List

variable {created : List Tid} {s : Sched} {q : ListHead → List Tid} {t : Tid}

/-! ## Records and the current thread -/

@[simp] theorem setThread_links (s : Sched) (t : Tid) (r : Thread) :
    (s.setThread t r).links = s.links := rfl

@[simp] theorem setThread_currentThread (s : Sched) (t : Tid) (r : Thread) :
    (s.setThread t r).currentThread = s.currentThread := rfl

@[simp] theorem setThread_readyPrioGroup (s : Sched) (t : Tid) (r : Thread) :
    (s.setThread t r).readyPrioGroup = s.readyPrioGroup := rfl

theorem setThread_thread (s : Sched) (t u : Tid) (r : Thread) :
    (s.setThread t r).thread u = if u = t then r else s.thread u := by
  by_cases hu : u = t
  · subst hu
    simp [Sched.setThread]
  · simp [Sched.setThread, hu]

@[simp] theorem setStat_links (s : Sched) (t : Tid) (st : BitVec 8) :
    (s.setStat t st).links = s.links := rfl

@[simp] theorem setStat_currentThread (s : Sched) (t : Tid) (st : BitVec 8) :
    (s.setStat t st).currentThread = s.currentThread := rfl

@[simp] theorem setStat_readyPrioGroup (s : Sched) (t : Tid) (st : BitVec 8) :
    (s.setStat t st).readyPrioGroup = s.readyPrioGroup := rfl

theorem setStat_thread (s : Sched) (t u : Tid) (st : BitVec 8) :
    (s.setStat t st).thread u = if u = t then { s.thread t with stat := st } else s.thread u :=
  setThread_thread s t u _

@[simp] theorem skScheduleRemoveThread_thread (s : Sched) (t : Tid) :
    (skScheduleRemoveThread s t).thread = s.thread := by
  unfold skScheduleRemoveThread
  dsimp only
  split <;> rfl

@[simp] theorem skScheduleRemoveThread_currentThread (s : Sched) (t : Tid) :
    (skScheduleRemoveThread s t).currentThread = s.currentThread := by
  unfold skScheduleRemoveThread
  dsimp only
  split <;> rfl

@[simp] theorem skScheduleInsertThread_currentThread (s : Sched) (t : Tid) :
    (skScheduleInsertThread s t).currentThread = s.currentThread := by
  unfold skScheduleInsertThread
  split <;> rfl

theorem skScheduleInsertThread_thread (s : Sched) (t u : Tid) :
    (skScheduleInsertThread s t).thread u =
      if u = t then
        { s.thread t with
          stat := if s.currentThread = some t then threadRunning else threadReady }
      else s.thread u := by
  unfold skScheduleInsertThread
  split
  · exact setStat_thread s t u _
  · exact setStat_thread s t u _

/-- Before the scheduler is started. -/
theorem skSchedule_of_none {s s' : Sched} (hc : s.currentThread = none)
    (hs : skSchedule s = some s') : s' = s := by
  unfold skSchedule at hs
  rw [hc] at hs
  split at hs
  · cases hs
  · cases hs
    rfl

@[simp] theorem threadWake_currentThread (s : Sched) (t : Tid) :
    (threadWake s t).currentThread = s.currentThread := by
  unfold threadWake
  rw [skScheduleInsertThread_currentThread]

theorem threadWake_thread (s : Sched) (t u : Tid) :
    (threadWake s t).thread u =
      if u = t then
        { s.thread t with
          stat := if s.currentThread = some t then threadRunning else threadReady }
      else s.thread u :=
  skScheduleInsertThread_thread _ t u

theorem threadWake_currentPri (s : Sched) (t u : Tid) :
    ((threadWake s t).thread u).currentPri = (s.thread u).currentPri := by
  rw [threadWake_thread]
  split
  · rename_i hu
    rw [hu]
  · rfl

/-! ## The ready group -/

theorem getLsbD_numberMask {p i : Nat} (hp : p < threadPriorityMax)
    (hi : i < threadPriorityMax) : ((1 : BitVec 32) <<< p).getLsbD i = decide (i = p) := by
  have h : ∀ p < 32, ∀ i < 32, ((1 : BitVec 32) <<< p).getLsbD i = decide (i = p) := by decide
  exact h p hp i hi

theorem getLsbD_or_numberMask (g : BitVec 32) {p i : Nat} (hp : p < threadPriorityMax)
    (hi : i < threadPriorityMax) :
    (g ||| (1 : BitVec 32) <<< p).getLsbD i = true ↔ g.getLsbD i = true ∨ i = p := by
  rw [BitVec.getLsbD_or, getLsbD_numberMask hp hi]
  simp

theorem getLsbD_and_not_numberMask (g : BitVec 32) {p i : Nat} (hp : p < threadPriorityMax)
    (hi : i < threadPriorityMax) :
    (g &&& ~~~((1 : BitVec 32) <<< p)).getLsbD i = true ↔ g.getLsbD i = true ∧ i ≠ p := by
  have hi' : i < 32 := hi
  rw [BitVec.getLsbD_and, BitVec.getLsbD_not, getLsbD_numberMask hp hi]
  simp [hi']

/-! ## Queues -/

/-- The scheduler state holds the lists `q`. -/
structure Queues (created : List Tid) (s : Sched) (q : ListHead → List Tid) : Prop where
  lists : ThreadLists s.links created q
  /-- bit `p` of the ready group is set exactly when queue `p` is not empty -/
  bit : ∀ p < threadPriorityMax, s.readyPrioGroup.getLsbD p = true ↔ q (.prio p) ≠ []
  pri : ∀ t ∈ created, (s.thread t).currentPri < threadPriorityMax
  mask : ∀ t ∈ created, (s.thread t).numberMask = (1 : BitVec 32) <<< (s.thread t).currentPri
  queued : ∀ p, ∀ t ∈ q (.prio p), (s.thread t).currentPri = p

namespace Queues

theorem of_eq (h : Queues created s q) {s' : Sched} (hl : s'.links = s.links)
    (hg : s'.readyPrioGroup = s.readyPrioGroup)
    (hpri : ∀ t, (s'.thread t).currentPri = (s.thread t).currentPri)
    (hmask : ∀ t, (s'.thread t).numberMask = (s.thread t).numberMask) : Queues created s' q where
  lists := by rw [hl]; exact h.lists
  bit := by rw [hg]; exact h.bit
  pri := by intro t ht; rw [hpri t]; exact h.pri t ht
  mask := by intro t ht; rw [hpri t, hmask t]; exact h.mask t ht
  queued := by intro p t ht; rw [hpri t]; exact h.queued p t ht

/-- Nor do they depend on the rest of a thread's record. -/
theorem setThread (h : Queues created s q) {r : Thread}
    (hpri : r.currentPri = (s.thread t).currentPri)
    (hmask : r.numberMask = (s.thread t).numberMask) : Queues created (s.setThread t r) q := by
  refine h.of_eq rfl rfl ?_ ?_
  · intro u
    rw [setThread_thread]
    split
    · rename_i hu
      rw [hu, hpri]
    · rfl
  · intro u
    rw [setThread_thread]
    split
    · rename_i hu
      rw [hu, hmask]
    · rfl

theorem setStat (h : Queues created s q) (t : Tid) (st : BitVec 8) :
    Queues created (s.setStat t st) q :=
  h.setThread rfl rfl

/-- The bit of a queue that becomes empty is cleared. -/
theorem remove (h : Queues created s q) (ht : t ∈ created) :
    Queues created (skScheduleRemoveThread s t) (fun l => (q l).erase t) := by
  have hp := h.pri t ht
  have hlists := h.lists.del ht
  have hlinks : (skScheduleRemoveThread s t).links = skListDel s.links (.tlist t) := by
    unfold skScheduleRemoveThread
    dsimp only
    split <;> rfl
  -- only the queue of the thread's own priority can lose it
  have hother : ∀ p, p ≠ (s.thread t).currentPri → (q (.prio p)).erase t = q (.prio p) := by
    intro p hne
    apply erase_of_not_mem
    intro hin
    exact hne (h.queued p t hin).symm
  refine ⟨by rw [hlinks]; exact hlists, ?_, ?_, ?_, ?_⟩
  · intro p hp'
    have hempty := hlists.skListEmpty_iff (l := .prio (s.thread t).currentPri) hp
    unfold skScheduleRemoveThread
    dsimp only
    split
    · rename_i he
      rw [h.mask t ht, getLsbD_and_not_numberMask _ hp hp', h.bit p hp']
      by_cases hpe : p = (s.thread t).currentPri
      · subst hpe
        simp [hempty.mp he]
      · simp [hpe, hother p hpe]
    · rename_i he
      rw [h.bit p hp']
      by_cases hpe : p = (s.thread t).currentPri
      · subst hpe
        have hne : (q (.prio (s.thread t).currentPri)).erase t ≠ [] := fun h0 =>
          he (hempty.mpr h0)
        have hne' : q (.prio (s.thread t).currentPri) ≠ [] := by
          intro h0
          rw [h0] at hne
          exact hne rfl
        simp [hne, hne']
      · rw [hother p hpe]
  · rw [skScheduleRemoveThread_thread]
    exact h.pri
  · rw [skScheduleRemoveThread_thread]
    exact h.mask
  · intro p u hu
    rw [skScheduleRemoveThread_thread]
    exact h.queued p u (mem_of_mem_erase hu)

theorem insert_of_lists (hlists : ThreadLists s.links created q)
    (hbit : ∀ p < threadPriorityMax, p ≠ (s.thread t).currentPri →
      (s.readyPrioGroup.getLsbD p = true ↔ q (.prio p) ≠ []))
    (hpri : ∀ t ∈ created, (s.thread t).currentPri < threadPriorityMax)
    (hmask : ∀ t ∈ created, (s.thread t).numberMask = (1 : BitVec 32) <<< (s.thread t).currentPri)
    (hqueued : ∀ p, ∀ t ∈ q (.prio p), (s.thread t).currentPri = p)
    (ht : t ∈ created) (hfree : ∀ l, t ∉ q l) (hcur : s.currentThread ≠ some t) :
    Queues created (skScheduleInsertThread s t)
      (update q (.prio (s.thread t).currentPri)
        (q (.prio (s.thread t).currentPri) ++ [t])) := by
  have hp := hpri t ht
  -- only the status of the thread is written
  have hthread : ∀ u, ((skScheduleInsertThread s t).thread u).currentPri =
      (s.thread u).currentPri := by
    intro u
    rw [skScheduleInsertThread_thread]
    split <;> simp_all
  have hthread' : ∀ u, ((skScheduleInsertThread s t).thread u).numberMask =
      (s.thread u).numberMask := by
    intro u
    rw [skScheduleInsertThread_thread]
    split <;> simp_all
  have hpri' : ((s.setStat t threadReady).thread t).currentPri = (s.thread t).currentPri := by
    rw [setStat_thread, if_pos rfl]
  have hmask' : ((s.setStat t threadReady).thread t).numberMask = (s.thread t).numberMask := by
    rw [setStat_thread, if_pos rfl]
  refine ⟨?_, ?_, ?_, ?_, ?_⟩
  · simp only [skScheduleInsertThread, if_neg hcur, hpri']
    exact hlists.addTail hp ht hfree
  · intro p hp'
    simp only [skScheduleInsertThread, if_neg hcur, hmask', hmask t ht]
    rw [getLsbD_or_numberMask _ hp hp']
    -- the mask sets one bit, and only the queue of this bit grows
    by_cases hpe : p = (s.thread t).currentPri
    · subst hpe
      simp
    · rw [update_of_ne (by simpa using hpe)]
      simp only [setStat_readyPrioGroup, hpe, or_false]
      exact hbit p hp' hpe
  · intro u hu
    rw [hthread u]
    exact hpri u hu
  · intro u hu
    rw [hthread u, hthread' u]
    exact hmask u hu
  · intro p u hu
    rw [hthread u]
    cases mem_update_snoc.mp hu with
    | inl hu => exact hqueued p u hu
    | inr hu => rw [hu.1, ListHead.prio.inj hu.2]

theorem insert (h : Queues created s q) (ht : t ∈ created) (hfree : ∀ l, t ∉ q l)
    (hcur : s.currentThread ≠ some t) :
    Queues created (skScheduleInsertThread s t)
      (update q (.prio (s.thread t).currentPri)
        (q (.prio (s.thread t).currentPri) ++ [t])) :=
  insert_of_lists h.lists (fun p hp _ => h.bit p hp) h.pri h.mask h.queued ht hfree hcur

end Queues

/-- The lists after a thread has been taken off its list and made ready. The current thread
    is not queued. -/
def wokenQueues (s : Sched) (t : Tid) (q : ListHead → List Tid) : ListHead → List Tid :=
  let q' := fun l => (q l).erase t
  if s.currentThread = some t then q'
  else update q' (.prio (s.thread t).currentPri)
    (q' (.prio (s.thread t).currentPri) ++ [t])

theorem wokenQueues_wait (s : Sched) (t : Tid) (q : ListHead → List Tid) (o : Nat) :
    wokenQueues s t q (.wait o) = (q (.wait o)).erase t := by
  unfold wokenQueues
  split
  · rfl
  · rw [update_of_ne (by simp)]

/-- The current thread goes back to the ready queues when it is switched away from. -/
def Requeued (s : Sched) (c : Tid) : Prop :=
  (s.thread c).stat ≠ threadSuspend ∧ (s.thread c).stat ≠ threadClose

instance (s : Sched) (c : Tid) : Decidable (Requeued s c) :=
  inferInstanceAs (Decidable (_ ∧ _))

/-- The lists after the switch from thread `c` to the ready thread `d`. -/
def switchedQueues (s : Sched) (c d : Tid) (q : ListHead → List Tid) : ListHead → List Tid :=
  fun l => (if Requeued s c then
      update q (.prio (s.thread c).currentPri)
        (q (.prio (s.thread c).currentPri) ++ [c]) l
    else q l).erase d

theorem scheduleSwitch_thread (s : Sched) {c d : Tid} (hcd : c ≠ d) (u : Tid) :
    (scheduleSwitch s c d).thread u =
      if u = d then { s.thread d with stat := threadRunning }
      else if u = c ∧ Requeued s c then { s.thread c with stat := threadReady }
      else s.thread u := by
  have hcur : (some d : Option Tid) ≠ some c := by
    intro h
    exact hcd (Option.some.inj h).symm
  unfold scheduleSwitch
  dsimp only
  rw [setStat_thread]
  by_cases hu : u = d
  · subst hu
    rw [if_pos rfl, if_pos rfl, skScheduleRemoveThread_thread, setStat_thread, if_pos rfl]
    split
    · rw [skScheduleInsertThread_thread, if_neg hcd.symm]
    · rfl
  · rw [if_neg hu, if_neg hu, skScheduleRemoveThread_thread, setStat_thread, if_neg hu]
    by_cases hre : Requeued s c
    · have hre' : (s.thread c).stat ≠ threadSuspend ∧ (s.thread c).stat ≠ threadClose := hre
      rw [if_pos hre', skScheduleInsertThread_thread]
      by_cases huc : u = c
      · simp only [huc, hre, hcur, and_self, ↓reduceIte]
      · rw [if_neg huc, if_neg (fun h => huc h.1)]
    · have hre' : ¬ ((s.thread c).stat ≠ threadSuspend ∧ (s.thread c).stat ≠ threadClose) := hre
      rw [if_neg hre', if_neg (fun h => hre h.2)]

@[simp] theorem scheduleSwitch_currentThread (s : Sched) (c d : Tid) :
    (scheduleSwitch s c d).currentThread = some d := by
  unfold scheduleSwitch
  dsimp only
  rw [setStat_currentThread, skScheduleRemoveThread_currentThread, setStat_currentThread]
  split
  · rw [skScheduleInsertThread_currentThread]
  · rfl

namespace Queues

variable {c d u : Tid} {p : Nat}

variable (h : Queues created s q)
include h

/-- `sk_thread_resume` and `sk_thread_timeout`. -/
theorem wake (ht : t ∈ created) (hcur : s.currentThread = some t → ∀ p, t ∉ q (.prio p)) :
    Queues created (threadWake s t) (wokenQueues s t q) := by
  have hlists := h.lists.del ht
  have hqueued : ∀ p, ∀ u ∈ (q (.prio p)).erase t, (s.thread u).currentPri = p :=
    fun p u hu => h.queued p u (mem_of_mem_erase hu)
  have hsame : ∀ p, t ∉ q (.prio p) → (q (.prio p)).erase t = q (.prio p) :=
    fun p hnot => erase_of_not_mem hnot
  unfold threadWake wokenQueues
  by_cases hct : s.currentThread = some t
  · -- the current thread is on no ready queue, so the bits do not change
    have hmid : Queues created { s with links := skListDel s.links (.tlist t) }
        (fun l => (q l).erase t) := by
      refine ⟨hlists, ?_, h.pri, h.mask, hqueued⟩
      intro p hp
      rw [hsame p (hcur hct p)]
      exact h.bit p hp
    rw [if_pos hct]
    unfold skScheduleInsertThread
    rw [if_pos hct]
    exact hmid.setStat t _
  · rw [if_neg hct]
    refine insert_of_lists (s := { s with links := skListDel s.links (.tlist t) }) hlists
      ?_ h.pri h.mask hqueued ht (fun l => (h.lists.nodup l).not_mem_erase) hct
    intro p hp hne
    rw [hsame p fun hin => hne (h.queued p t hin).symm]
    exact h.bit p hp

theorem mem_wokenQueues_prio :
    u ∈ wokenQueues s t q (.prio p) ↔
      u ≠ t ∧ u ∈ q (.prio p) ∨ u = t ∧ s.currentThread ≠ some t ∧
        p = (s.thread t).currentPri := by
  have herase : ∀ l, u ∈ (q l).erase t ↔ u ≠ t ∧ u ∈ q l := fun l =>
    (h.lists.nodup l).mem_erase_iff
  unfold wokenQueues
  split
  · rename_i hcur
    simp [herase, hcur]
  · rename_i hcur
    by_cases hp : p = (s.thread t).currentPri
    · subst hp
      simp [herase, hcur]
    · rw [update_of_ne (by simpa using hp)]
      simp [herase, hp]

/-- To be queued, `c` must not be linked. -/
theorem switch (hc : c ∈ created) (hd : d ∈ q (.prio p)) (hcd : c ≠ d)
    (hfree : Requeued s c → ∀ l, c ∉ q l) :
    Queues created (scheduleSwitch s c d) (switchedQueues s c d q) := by
  have hdc := h.lists.mem_created hd
  have hcur : (some d : Option Tid) ≠ some c := by
    intro h
    exact hcd (Option.some.inj h).symm
  have h1 : Queues created { s with currentThread := some d } q :=
    h.of_eq rfl rfl (fun _ => rfl) (fun _ => rfl)
  unfold scheduleSwitch switchedQueues
  dsimp only
  by_cases hre : Requeued s c
  · have h2 := h1.insert hc (hfree hre) hcur
    have hre' : (s.thread c).stat ≠ threadSuspend ∧ (s.thread c).stat ≠ threadClose := hre
    simp only [if_pos hre, if_pos hre']
    exact ((h2.setStat d _).remove hdc).setStat d _
  · have hre' : ¬ ((s.thread c).stat ≠ threadSuspend ∧ (s.thread c).stat ≠ threadClose) := hre
    simp only [if_neg hre, if_neg hre']
    exact ((h1.setStat d _).remove hdc).setStat d _

theorem switchedQueues_wait (hd : d ∈ q (.prio p)) (o : Nat) :
    switchedQueues s c d q (.wait o) = q (.wait o) := by
  have hnot : d ∉ q (.wait o) := h.lists.notMem_of_ne hd (by simp)
  unfold switchedQueues
  rw [update_of_ne (by simp), ite_self]
  exact erase_of_not_mem hnot

theorem mem_switchedQueues_prio (hoff : ∀ p, c ∉ q (.prio p)) :
    u ∈ switchedQueues s c d q (.prio p) ↔
      u ≠ d ∧ (u ∈ q (.prio p) ∨ u = c ∧ Requeued s c ∧ p = (s.thread c).currentPri) := by
  unfold switchedQueues
  by_cases hre : Requeued s c
  · simp only [if_pos hre]
    by_cases hp : p = (s.thread c).currentPri
    · subst hp
      have hnd : (q (.prio (s.thread c).currentPri) ++ [c]).Nodup := by
        rw [nodup_append]
        refine ⟨h.lists.nodup _, nodup_singleton c, ?_⟩
        intro a ha b hb heq
        rw [mem_singleton.mp hb] at heq
        exact hoff _ (heq ▸ ha)
      rw [update_self, hnd.mem_erase_iff]
      simp [hre]
    · rw [update_of_ne (by simpa using hp), (h.lists.nodup _).mem_erase_iff]
      simp [hp]
  · simp only [if_neg hre]
    rw [(h.lists.nodup _).mem_erase_iff]
    simp [hre]

theorem notMem_switchedQueues (hd : d ∈ q (.prio p)) (hoff : ∀ p, c ∉ q (.prio p)) (l : ListHead) :
    d ∉ switchedQueues s c d q l := by
  cases l with
  | prio p' =>
    intro hin
    exact ((h.mem_switchedQueues_prio hoff).mp hin).1 rfl
  | wait o =>
    rw [h.switchedQueues_wait hd]
    exact h.lists.notMem_of_ne hd (by simp)

/-! ## Selection -/

theorem prio_eq_nil (hg : s.readyPrioGroup = 0) (p : Nat) : q (.prio p) = [] := by
  by_cases hp : p < threadPriorityMax
  · by_contra hne
    have hbit := (h.bit p hp).mpr hne
    rw [hg] at hbit
    simp at hbit
  · exact h.lists.invalid _ hp

theorem scheduleGetHpThread (hg : s.readyPrioGroup ≠ 0) :
    ∃ d p ts, Native.scheduleGetHpThread s = some (d, p) ∧ q (.prio p) = d :: ts ∧
      ∀ i < p, q (.prio i) = [] := by
  obtain ⟨d, p, ts, hget, -, hq, hlow⟩ :=
    scheduleGetHpThread_of_bits (fun p hp => h.lists.next_head (l := .prio p) hp) h.bit hg
  exact ⟨d, p, ts, hget, hq, hlow⟩

theorem skSchedule (hc : s.currentThread = some c) (hoff : ∀ p, c ∉ q (.prio p)) :
    (Native.skSchedule s = some s ∧ ∀ p, q (.prio p) = []) ∨
    (Native.skSchedule s = some s ∧ (s.thread c).stat = threadRunning ∧
      ∀ p, ∀ u ∈ q (.prio p), (s.thread c).currentPri ≤ p) ∨
    ∃ d p ts, Native.skSchedule s = some (scheduleSwitch s c d) ∧ c ≠ d ∧
      q (.prio p) = d :: ts ∧ (∀ i < p, q (.prio i) = []) ∧
      ¬ ((s.thread c).stat = threadRunning ∧ (s.thread c).currentPri ≤ p) := by
  by_cases hg : s.readyPrioGroup = 0
  · left
    refine ⟨?_, h.prio_eq_nil hg⟩
    unfold Native.skSchedule
    rw [if_neg (by simpa using hg)]
  · right
    obtain ⟨d, p, ts, hhp, hq, hlow⟩ := h.scheduleGetHpThread hg
    have hcd : c ≠ d := by
      intro heq
      subst heq
      exact hoff p (by rw [hq]; simp)
    unfold Native.skSchedule
    rw [if_pos hg, hc, hhp]
    dsimp only
    by_cases hstay : (s.thread c).stat = threadRunning ∧ (s.thread c).currentPri ≤ p
    · left
      rw [if_pos hstay]
      refine ⟨by simp, hstay.1, ?_⟩
      intro p' u hu
      have hle : p ≤ p' := by
        by_contra hlt
        rw [hlow p' (by omega)] at hu
        cases hu
      exact Nat.le_trans hstay.2 hle
    · right
      rw [if_neg hstay]
      exact ⟨d, p, ts, by simp [hcd], hcd, hq, hlow, hstay⟩

end Queues

theorem tickSlice_of_current (hc : s.currentThread = some c) :
    tickSlice s =
      if remainTickDec (s.thread c) = 0 then skSchedule (sliceExpired s c)
      else some (s.setThread c { s.thread c with remainTick := remainTickDec (s.thread c) }) := by
  unfold tickSlice
  rw [hc]

end SKernel.Spec
