import Mathlib.Order.Bounds.Defs
import SKernel.Spec.FfsCorrect
import SKernel.Spec.ThreadLists

/-!
# The highest ready priority

`__schedule_get_hp_thread` trusts the ready group: it takes the lowest set bit for the first queue
that is not empty, and the node behind the head of that queue for a thread. Both are right as long
as the group agrees with `sk_thread_prio_table`.
-/

namespace SKernel.Spec

open Native List

/-- The `next` fields lead from `sk_thread_prio_table[p]` through the threads and back. -/
def ReadyQueue (L : Links ThreadNode) (p : Nat) (threads : List Tid) : Prop :=
  (ThreadNode.head (.prio p) :: (threads.map .tlist ++ [.head (.prio p)])).IsChain
    fun a b => L.next a = b

theorem ReadyQueue.next_head {L : Links ThreadNode} {p : Nat} {threads : List Tid}
    (h : ReadyQueue L p threads) : L.next (.head (.prio p)) = firstThread (.prio p) threads := by
  unfold ReadyQueue at h
  cases threads with
  | nil =>
    rw [map_nil, nil_append, isChain_pair] at h
    exact h
  | cons =>
    rw [map_cons, cons_append, isChain_cons_cons] at h
    exact h.1

theorem scheduleGetHpThread_of_bits {s : Sched} {queue : Nat → List Tid}
    (hnext : ∀ p < threadPriorityMax,
      s.links.next (.head (.prio p)) = firstThread (.prio p) (queue p))
    (hbit : ∀ p < threadPriorityMax, s.readyPrioGroup.getLsbD p = true ↔ queue p ≠ [])
    (hgroup : s.readyPrioGroup ≠ 0) :
    ∃ t p threads, scheduleGetHpThread s = some (t, p) ∧ p < threadPriorityMax ∧
      queue p = t :: threads ∧ ∀ i < p, queue i = [] := by
  obtain ⟨p, hffs, hp, hset, hclear⟩ := skFfs_spec _ hgroup
  obtain ⟨t, threads, hqueue⟩ := exists_cons_of_ne_nil ((hbit p hp).mp hset)
  refine ⟨t, p, threads, ?_, hp, hqueue, ?_⟩
  · unfold scheduleGetHpThread
    simp only [hffs, hnext p hp, hqueue, firstThread]
  · -- a queue with a thread has its bit set, and the lower bits are clear
    intro i hi
    by_contra hne
    have hset' := (hbit i (Nat.lt_trans hi hp)).mpr hne
    rw [hclear i hi] at hset'
    cases hset'

/-- **`__sk_ffs` counts the lowest set bit of every word from one, and the thread that is selected
    is the first one of the first queue that is not empty.** The `int` argument of `__sk_ffs` is
    negative when bit 31 of the word is set. -/
theorem highest_priority_selected :
    (∀ v : BitVec 32, v ≠ 0 →
      ∃ i, skFfs v = 1 + i ∧ IsLeast {i | i < 32 ∧ v.getLsbD i = true} i) ∧
    ∀ (s : Sched) (queue : Nat → List Tid),
      (∀ p < threadPriorityMax, ReadyQueue s.links p (queue p)) →
      (∀ p < threadPriorityMax, s.readyPrioGroup.getLsbD p = true ↔ queue p ≠ []) →
      s.readyPrioGroup ≠ 0 →
      ∃ t p, scheduleGetHpThread s = some (t, p) ∧
        IsLeast {p | p < threadPriorityMax ∧ queue p ≠ []} p ∧ (queue p).head? = some t := by
  constructor
  · intro v hv
    obtain ⟨i, hffs, hi, hset, hclear⟩ := skFfs_spec v hv
    refine ⟨i, by rw [hffs, Nat.add_comm], ⟨hi, hset⟩, ?_⟩
    intro j hj
    by_contra hlt
    have hset' := hj.2
    rw [hclear j (Nat.lt_of_not_le hlt)] at hset'
    cases hset'
  · intro s queue hqueue hbit hgroup
    obtain ⟨t, p, threads, hget, hp, hcons, hlow⟩ :=
      scheduleGetHpThread_of_bits (fun p hp => (hqueue p hp).next_head) hbit hgroup
    refine ⟨t, p, hget, ⟨⟨hp, by simp [hcons]⟩, ?_⟩, by simp [hcons]⟩
    intro i hi
    by_contra hlt
    exact hi.2 (hlow i (Nat.lt_of_not_le hlt))

/-- A thread is ready with the lowest priority, whose bit is the sign of the group. -/
theorem highest_priority_selected_sign :
    let s : Sched :=
      { links :=
          { next := fun
              | .head (.prio 31) => .tlist 7
              | .tlist _ => .head (.prio 31)
              | n => n
            prev := id }
        thread := fun _ => ⟨threadReady, 31, 0x80000000, 10, 10⟩
        currentThread := none
        readyPrioGroup := 0x80000000 }
    s.readyPrioGroup.toInt < 0 ∧ scheduleGetHpThread s = some (7, 31) := by
  intro s
  obtain ⟨t, p, hget, hleast, hhead⟩ :=
    highest_priority_selected.2 s (fun p => if p = 31 then [7] else [])
      (by unfold ReadyQueue; decide) (by decide) (by decide)
  have hp : p = 31 := by
    by_contra hne
    exact hleast.1.2 (if_neg hne)
  subst hp
  cases hhead
  exact ⟨by decide, hget⟩

end SKernel.Spec
