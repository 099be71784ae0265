import Mathlib.Data.Finset.Card
import SKernel.Spec.IpcWait

/-!
# Waiting for a message

The part that the receives of mailboxes and message queues have in common. A receive that finds
nothing blocks, is resumed by a later call, and looks again when its thread runs; a receive
without a timeout is meant to find a message then. `forever t` says that thread `t` has blocked
in such a receive, and `awake` are those of these threads that have been resumed and have not
run yet. They all find a message as long as they are not more than the messages.

A tick must not time out a thread that waits without a timeout; its timer may still be running
from an earlier call.

## Key results

- `RecvInv.entry_pos`: a thread that runs again in such a receive finds a message
-/

namespace SKernel.Spec

open Native Function Option

variable {idle : Tid} {x x' : BlockSys} {forever forever' : Tid → Bool} {entry : Nat}
variable {c t : Tid} {o : Nat} {k : Kernel}

/-! ## Resuming the first thread -/

namespace BlockSys

/-- A call ends; if `sk_schedule` follows, it has resumed the first thread of wait list `o`. -/
def advance (x : BlockSys) (o : Nat) (k : Kernel) : CallEnd → Option BlockSys
  | .ret _ => some { x with k := k }
  | .schedule => (ipcFirstThread x.k.sched (.wait o)).map fun t => x.resume t k

/-- A call ends that resumes the first thread of wait list `o`, if there is one. -/
def ResumesFirst (x : BlockSys) (o : Nat) (x' : BlockSys) : Prop :=
  ∃ e k, ipcResumeFirst x.k (.wait o) = some (e, k) ∧ x.advance o k e = some x'

end BlockSys

namespace BlockInv

theorem resumesFirst_cases (h : BlockInv idle x) (hwake : x.ResumesFirst o x') :
    (x' = x ∧ ipcFirstThread x.k.sched (.wait o) = none ∧
      ∀ t, x.blocked t ≠ some (.linked o)) ∨
    ∃ t, x.FirstWaits o t ∧ x' = x.resume t (skThreadResume x.k t).2 := by
  obtain ⟨e, k, hwake, hadv⟩ := hwake
  unfold ipcResumeFirst at hwake
  split at hwake
  · rename_i hempty
    cases hwake
    cases hadv
    obtain ⟨hnone, hblocked⟩ := h.of_empty hempty
    exact .inl ⟨rfl, hnone, hblocked⟩
  · rename_i hne
    obtain ⟨t, ht⟩ := h.firstThread (Bool.eq_false_iff.mpr hne)
    rw [ht.first] at hwake
    cases hwake
    unfold BlockSys.advance at hadv
    rw [ht.first] at hadv
    cases hadv
    exact .inr ⟨t, ht, rfl⟩

theorem onWaitList_first (h : BlockInv idle x)
    (hfirst : ipcFirstThread x.k.sched (.wait o) = some t) : x.OnWaitList o t := by
  have hne : skListEmpty x.k.sched.links (.head (.wait o)) = false := by
    rw [Bool.eq_false_iff]
    intro hempty
    rw [(h.of_empty hempty).1] at hfirst
    cases hfirst
  obtain ⟨u, hu⟩ := h.firstThread hne
  cases hu.first.symm.trans hfirst
  exact h.onWaitList_iff.mpr hu.linked

theorem exists_first (h : BlockInv idle x) (ht : x.OnWaitList o t) :
    ∃ u, ipcFirstThread x.k.sched (.wait o) = some u := by
  have hne : skListEmpty x.k.sched.links (.head (.wait o)) = false := by
    rw [Bool.eq_false_iff]
    intro hempty
    exact (h.of_empty hempty).2 t (h.onWaitList_iff.mp ht)
  obtain ⟨u, hu⟩ := h.firstThread hne
  exact ⟨u, hu.first⟩

end BlockInv

/-! ## The threads that have been resumed -/

namespace BlockSys

/-- The threads that wait without a timeout, have been resumed and have not run yet. -/
def awake (x : BlockSys) (forever : Tid → Bool) : Finset Tid :=
  x.created.toFinset.filter fun t => forever t = true ∧ (x.blocked t).isNone = true

/-- The first thread of wait list `o`, if it waits without a timeout. -/
def nextAwake (x : BlockSys) (o : Nat) (forever : Tid → Bool) : Finset Tid :=
  match ipcFirstThread x.k.sched (.wait o) with
  | some t => if forever t = true then {t} else ∅
  | none => ∅

theorem mem_awake :
    t ∈ x.awake forever ↔ t ∈ x.created ∧ forever t = true ∧ x.blocked t = none := by
  simp [awake]

/-- Threads may run or be suspended again. -/
theorem awake_subset (hcreated : x'.created = x.created)
    (hforever : ∀ t, forever' t = true → forever t = true)
    (hblocked : ∀ t, forever' t = true → x'.blocked t = none → x.blocked t = none) :
    x'.awake forever' ⊆ x.awake forever := by
  intro t ht
  obtain ⟨hcr, hf, hb⟩ := mem_awake.mp ht
  exact mem_awake.mpr ⟨hcreated ▸ hcr, hforever t hf, hblocked t hf hb⟩

theorem nextAwake_subset (hforever : ∀ t, forever' t = true → forever t = true) :
    x.nextAwake o forever' ⊆ x.nextAwake o forever := by
  intro t ht
  unfold nextAwake at ht ⊢
  split at ht
  · split at ht
    · rename_i hf
      rw [if_pos (hforever _ hf)]
      exact ht
    · cases ht
  · cases ht

end BlockSys

/-- The tick neither ends the slice of a suspended current thread, nor times out a thread without a
    timeout. -/
def TickSound (x : BlockSys) (forever : Tid → Bool) : Prop :=
  NoYieldInWindow x.k.sched ∧
    ∀ t ∈ x.created, forever t = true → (x.blocked t).isSome = true →
      isDue { x.k.timers with skTick := x.k.timers.tickAfter 1 } t = false

instance : Decidable (TickSound x forever) := inferInstanceAs (Decidable (_ ∧ _))

/-- The kernel runs as it should, and there is a message for every thread without a timeout that was
    resumed. -/
structure RecvInv (idle : Tid) (x : BlockSys) (forever : Tid → Bool) (entry : Nat) : Prop where
  block : BlockInv idle x
  not_suspended : ∀ t, x.blocked t ≠ some .suspended
  enough : (x.awake forever).card ≤ entry

namespace RecvInv

theorem init (h : x.Started idle) : RecvInv idle x (fun _ => false) entry := by
  refine ⟨BlockInv.of_started h, ?_, ?_⟩
  · intro t hb
    rw [h.2.2.2.2] at hb
    cases hb
  · simp [BlockSys.awake]

theorem mem_awake_of_runs (h : RecvInv idle x forever entry) (hrun : x.Runs idle c)
    (hf : forever c = true) : c ∈ x.awake forever := by
  have hcreated : c ∈ x.created := by
    obtain ⟨q, c', hcore, -⟩ := h.block
    cases hcore.atSchedule.current.symm.trans hrun.1
    exact hcore.atSchedule.current_created
  obtain ⟨hunlinked, hlinked⟩ := h.block.not_blocked hrun
  refine BlockSys.mem_awake.mpr ⟨hcreated, hf, ?_⟩
  cases hb : x.blocked c with
  | none => rfl
  | some how =>
    cases how with
    | unlinked => exact absurd hb hunlinked
    | linked o => exact absurd hb (hlinked o)
    | suspended => exact absurd hb (h.not_suspended c)

/-- It finds a message. -/
theorem entry_pos (h : RecvInv idle x forever entry) (hrun : x.Runs idle c)
    (hf : forever c = true) : 0 < entry :=
  Nat.lt_of_lt_of_le (Finset.card_pos.mpr ⟨c, h.mem_awake_of_runs hrun hf⟩) h.enough

theorem awake_subset_erase (hforever : ∀ t, forever' t = true → forever t = true ∧ t ≠ c) :
    x.awake forever' ⊆ (x.awake forever).erase c := by
  intro t ht
  obtain ⟨hcr, hf, hb⟩ := BlockSys.mem_awake.mp ht
  obtain ⟨hf', htc⟩ := hforever t hf
  exact Finset.mem_erase.mpr ⟨htc, BlockSys.mem_awake.mpr ⟨hcr, hf', hb⟩⟩

variable (h : RecvInv idle x forever entry)
include h

/-- There is a message for the thread, too. -/
theorem advance {entry' : Nat} (hrun : x.Runs idle c) (hwake : x.ResumesFirst o x')
    (henough : (x.awake forever' ∪ x.nextAwake o forever').card ≤ entry') :
    RecvInv idle x' forever' entry' := by
  rcases h.block.resumesFirst_cases hwake with ⟨rfl, -, -⟩ | ⟨t, ht, rfl⟩
  · refine ⟨h.block, h.not_suspended, ?_⟩
    exact Nat.le_trans (Finset.card_le_card Finset.subset_union_left) henough
  · refine ⟨h.block.resume_blocked hrun ht, ?_, ?_⟩
    · intro u hu
      exact h.not_suspended u (update_none_eq_some.mp hu).2
    · -- only the thread that is resumed joins those that are awake
      refine Nat.le_trans (Finset.card_le_card ?_) henough
      intro u hu
      obtain ⟨hcr, hf, hnone⟩ := BlockSys.mem_awake.mp hu
      change update x.blocked t none u = _ at hnone
      by_cases hut : u = t
      · refine Finset.mem_union_right _ ?_
        unfold BlockSys.nextAwake
        rw [ht.first]
        dsimp only
        rw [← hut, if_pos hf]
        exact Finset.mem_singleton_self u
      · rw [update_of_ne hut] at hnone
        exact Finset.mem_union_left _ (BlockSys.mem_awake.mpr ⟨hcr, hf, hnone⟩)

/-- The caller takes no message. -/
theorem wake {entry' : Nat} (hrun : x.Runs idle c) (hwake : x.ResumesFirst o x')
    (hforever : ∀ t, forever' t = true → forever t = true)
    (henough : (x.awake forever ∪ x.nextAwake o forever).card ≤ entry') :
    RecvInv idle x' forever' entry' := by
  refine h.advance hrun hwake (Nat.le_trans (Finset.card_le_card ?_) henough)
  exact Finset.union_subset_union (BlockSys.awake_subset rfl hforever fun _ _ hnone => hnone)
    (BlockSys.nextAwake_subset hforever)

theorem card_union_next_le : (x.awake forever ∪ x.nextAwake o forever).card ≤ entry + 1 := by
  have hnext : (x.nextAwake o forever).card ≤ 1 := by
    unfold BlockSys.nextAwake
    split
    · split
      · exact Nat.le_of_eq (Finset.card_singleton _)
      · exact Nat.zero_le 1
    · exact Nat.zero_le 1
  have hunion := Finset.card_union_le (x.awake forever) (x.nextAwake o forever)
  have := h.enough
  omega

/-- Threads may stop waiting without a timeout. -/
theorem mono (hforever : ∀ t, forever' t = true → forever t = true) :
    RecvInv idle x forever' entry :=
  ⟨h.block, h.not_suspended,
    Nat.le_trans (Finset.card_le_card (BlockSys.awake_subset rfl hforever fun _ _ hb => hb))
      h.enough⟩

/-- A thread blocks. -/
theorem wait (hrun : x.Runs idle c) {fuel : Nat} {flag : BitVec 8} {time : Int}
    (hblock : ipcBlock fuel x.k (.wait o) flag time = some k)
    (hforever : ∀ t, t ≠ c → forever' t = true → forever t = true) :
    RecvInv idle (x.wait c o flag k) forever' entry := by
  have hblocked : ∀ t, (x.wait c o flag k).blocked t = none → t ≠ c ∧ x.blocked t = none := by
    intro t hb
    change update x.blocked c _ t = none at hb
    by_cases htc : t = c
    · rw [htc, update_self] at hb
      cases hb
    · rw [update_of_ne htc] at hb
      exact ⟨htc, hb⟩
  refine ⟨h.block.wait hrun hblock, ?_, ?_⟩
  · intro t hb
    change update x.blocked c _ t = _ at hb
    by_cases htc : t = c
    · rw [htc, update_self] at hb
      split at hb <;> cases hb
    · rw [update_of_ne htc] at hb
      exact h.not_suspended t hb
  · -- nobody wakes up
    refine Nat.le_trans (Finset.card_le_card ?_) h.enough
    intro t ht
    obtain ⟨hcr, hf, hb⟩ := BlockSys.mem_awake.mp ht
    obtain ⟨htc, hb⟩ := hblocked t hb
    exact BlockSys.mem_awake.mpr ⟨hcr, hforever t htc hf, hb⟩

/-- The caller goes to sleep. -/
theorem sleep {ticks : Nat} (hsleep : x.sleep idle ticks = some x') :
    RecvInv idle x' forever entry := by
  have hblock := (h.block.sleep_linked hsleep).1
  unfold BlockSys.sleep at hsleep
  obtain ⟨c, -, hmap⟩ := bind_eq_some_iff.mp hsleep
  obtain ⟨k, -, rfl⟩ := map_eq_some_iff.mp hmap
  refine ⟨hblock, ?_, Nat.le_trans (Finset.card_le_card ?_) h.enough⟩
  · intro t hb
    by_cases htc : t = c
    · simp only [htc, update_self, reduceCtorEq, some.injEq] at hb
    · simp only [update_of_ne htc] at hb
      exact h.not_suspended t hb
  · refine BlockSys.awake_subset rfl (fun _ hf => hf) ?_
    intro t _ hb
    by_cases htc : t = c
    · simp only [htc, update_self, reduceCtorEq] at hb
    · simpa only [update_of_ne htc] using hb

theorem schedule (hsched : x.schedule = some x') : RecvInv idle x' forever entry := by
  have hblock := h.block.schedule_blocked hsched
  have hcreated : x'.created = x.created := by
    unfold BlockSys.schedule at hsched
    obtain ⟨c, -, hmap⟩ := bind_eq_some_iff.mp hsched
    obtain ⟨k, -, rfl⟩ := map_eq_some_iff.mp hmap
    rfl
  refine ⟨hblock.1, ?_, Nat.le_trans (Finset.card_le_card ?_) h.enough⟩
  · rw [hblock.2]
    exact h.not_suspended
  · refine BlockSys.awake_subset hcreated (fun _ hf => hf) ?_
    rw [hblock.2]
    exact fun _ _ hb => hb

/-- No thread without a timeout is timed out. -/
theorem tick {fuel : Nat} (hguard : TickSound x forever) (htick : x.tick fuel = some x') :
    RecvInv idle x' forever entry := by
  have hblock := (h.block.tick_linked hguard.1 htick).1
  unfold BlockSys.tick at htick
  obtain ⟨⟨k, fired⟩, hk, rfl⟩ := map_eq_some_iff.mp htick
  refine ⟨hblock, ?_, Nat.le_trans (Finset.card_le_card ?_) h.enough⟩
  · intro t hb
    dsimp only at hb
    split at hb
    · cases hb
    · exact h.not_suspended t hb
  · refine BlockSys.awake_subset rfl (fun _ hf => hf) ?_
    intro t hf hb
    by_cases hfired : t ∈ fired
    · -- a timer that fires was due, which the guard excludes
      obtain ⟨q, c, hcore, htm⟩ := h.block
      have hdue := isDue_of_loggedTick htm hk hfired
      by_contra hsome
      obtain ⟨how, hhow⟩ := ne_none_iff_exists'.mp hsome
      have hcr := hcore.threads.created t how hhow
      rw [hguard.2 t hcr hf (by rw [hhow]; rfl)] at hdue
      cases hdue
    · simpa only [if_neg hfired] using hb

theorem elapse {α κ : Type} {calls : Tid → Option α} {op : IpcOp κ}
    (hguard : op.OnTick (TickSound x forever)) (he : x.elapse idle calls op = some x') :
    RecvInv idle x' forever entry := by
  cases op with
  | call => cases he
  | sleep ticks =>
    obtain ⟨c, -, hsleep⟩ := bind_eq_some_iff.mp he
    exact h.sleep hsleep
  | schedule => exact h.schedule he
  | tick fuel => exact h.tick hguard he

end RecvInv

end SKernel.Spec
