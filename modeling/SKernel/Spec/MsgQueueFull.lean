import SKernel.Spec.MsgQueueCorrect

/-!
# Sending to a full message queue

A send with a timeout that finds no free slot is meant to wait on `suspend_sender_thread`, and to
look for a slot when it runs again. The test for a full queue looks at `mq` instead of `msg`, so
this branch is never taken: the send goes on with the null pointer that it has found in place of a
slot.
-/

namespace SKernel.Spec

open Native ByteMem

variable {fuel addr size : Nat} {k : Kernel} {mq : MsgQueue} {mem : Mem} {senders : ListHead}
variable {timeout : Int} {free chain : List Nat} {x : MqSys}

/-- A send is meant to return an error, to block on `suspend_sender_thread` since no slot is free,
    or to take the first free slot. The messages stay as they are. -/
inductive SendBegins (fuel : Nat) (k : Kernel) (mq : MsgQueue) (mem : Mem) (senders : ListHead)
    (timeout : Int) : MsgSendEnd → Prop where
  | refused {code : SkErr} (hcode : code ≠ .eok) :
      SendBegins fuel k mq mem senders timeout (.ret code)
  | suspended {k' : Kernel} (hfull : mq.msgQueueFree = 0)
      (hblock : ipcBlock fuel k senders mq.flag timeout = some k') :
      SendBegins fuel k mq mem senders timeout (.block k')
  | took {msg : Nat} {mq' : MsgQueue} {free chain : List Nat}
      (hbefore : QueueRep mq mem (msg :: free) chain) (hafter : QueueRep mq' mem free chain) :
      SendBegins fuel k mq mem senders timeout (.took msg mq')

private theorem msgQueueSendBegin_eq (haddr : addr ≠ 0) :
    msgQueueSendBegin fuel k addr mq mem senders size timeout =
      (msgQueueSendTake mq mem size timeout).map fun
        | .error code => .ret code
        | .ok (msg, mq) => .took msg mq := by
  unfold msgQueueSendBegin msgQueueSendTake
  rw [if_neg haddr]
  split
  · rfl
  dsimp only
  split
  · rfl
  split
  · rfl
  · rfl

private theorem msgQueueSendBegin_eq_none_iff (haddr : addr ≠ 0) :
    msgQueueSendBegin fuel k addr mq mem senders size timeout = none ↔
      size ≤ mq.msgSize ∧ mq.msgQueueFree = 0 ∧ timeout ≠ 0 := by
  rw [msgQueueSendBegin_eq haddr, Option.map_eq_none_iff]
  unfold msgQueueSendTake
  by_cases hsize : size > mq.msgSize
  · rw [if_pos hsize]
    simp [Nat.not_le.mpr hsize]
  rw [if_neg hsize]
  dsimp only
  by_cases hfull : mq.msgQueueFree = 0
  · by_cases htime : timeout = 0
    · simp [hfull, htime]
    · simp [hfull, htime, Nat.not_lt.mp hsize]
  · simp [hfull]

private theorem sendBegins_of_eq_some (hrep : QueueRep mq mem free chain) (haddr : addr ≠ 0)
    {r : MsgSendEnd}
    (h : msgQueueSendBegin fuel k addr mq mem senders size timeout = some r) :
    SendBegins fuel k mq mem senders timeout r := by
  rw [msgQueueSendBegin_eq haddr] at h
  obtain ⟨took, htake, rfl⟩ := Option.map_eq_some_iff.mp h
  unfold msgQueueSendTake at htake
  split at htake
  · -- the message is too long
    cases htake
    exact .refused (by decide)
  dsimp only at htake
  split at htake
  · -- full, and the call does not wait
    cases htake
    exact .refused (by decide)
  split at htake
  · cases htake
  · rename_i hne
    cases htake
    obtain ⟨rest, hfree, hrest⟩ := hrep.take hne
    exact .took (hfree ▸ hrep) hrest

/-- **A blocking send.** In every interleaving of sends and receives, a send begins as it should
    exactly when its message is too long, a slot is free, or its timeout is 0. Otherwise it follows
    the null pointer. -/
theorem blocking_send_iff (h : mqSystem.Reach (fun _ _ => True) x) (haddr : addr ≠ 0)
    (fuel : Nat) (senders : ListHead) (size : Nat) (timeout : Int) :
    ((∃ r, msgQueueSendBegin fuel x.k addr x.b.mq x.b.mem senders size timeout = some r ∧
        SendBegins fuel x.k x.b.mq x.b.mem senders timeout r) ↔
      (x.b.mq.msgSize < size ∨ x.b.mq.msgQueueFree ≠ 0 ∨ timeout = 0)) ∧
    (size ≤ x.b.mq.msgSize → x.b.mq.msgQueueFree = 0 → timeout ≠ 0 →
      msgQueueSendBegin fuel x.k addr x.b.mq x.b.mem senders size timeout = none) := by
  obtain ⟨p, free, chain, place, received, hinv⟩ := MqInv.of_reach h
  have hnone : msgQueueSendBegin fuel x.k addr x.b.mq x.b.mem senders size timeout = none ↔
      size ≤ x.b.mq.msgSize ∧ x.b.mq.msgQueueFree = 0 ∧ timeout ≠ 0 :=
    msgQueueSendBegin_eq_none_iff haddr
  refine ⟨⟨?_, ?_⟩, fun hsize hfull htime => hnone.mpr ⟨hsize, hfull, htime⟩⟩
  · rintro ⟨r, hr, -⟩
    by_contra hnot
    simp only [not_or, Nat.not_lt, not_not] at hnot
    rw [hnone.mpr hnot] at hr
    cases hr
  · intro hcond
    have hsome : msgQueueSendBegin fuel x.k addr x.b.mq x.b.mem senders size timeout ≠ none := by
      intro heq
      obtain ⟨hsize, hfull, htime⟩ := hnone.mp heq
      rcases hcond with hlong | hfree | hnow
      · exact absurd hsize (Nat.not_le.mpr hlong)
      · exact hfree hfull
      · exact htime hnow
    obtain ⟨r, hr⟩ := Option.ne_none_iff_exists'.mp hsome
    exact ⟨r, hr, sendBegins_of_eq_some hinv.conserved.lists haddr hr⟩

/-- One message has been sent, and the second slot is free. -/
theorem blocking_send_second : ∃ x, mqSystem.Reach (fun _ _ => True) x ∧ x.b.linked = [[1]] ∧
    ∃ r, msgQueueSendBegin 0 x.k 1 x.b.mq x.b.mem (.wait 1) 1 5 = some r ∧
      SendBegins 0 x.k x.b.mq x.b.mem (.wait 1) 5 r := by
  have hinit : mqSystem.Reach (fun _ _ => True) { k := startedKernel 32, b := twoMessages } :=
    .init twoMessages_initial
  obtain ⟨x, hx, hp⟩ := hinit.exists_of_run [.call (.send [1] 0) 0, .next, .next]
    (fun x => x.b.linked = [[1]] ∧ x.b.mq.msgQueueFree ≠ 0) (by decide +kernel)
  obtain ⟨hlinked, hfree⟩ := of_decide_eq_true hp
  have hsend := blocking_send_iff hx (show 1 ≠ 0 by decide) 0 (.wait 1) 1 5
  exact ⟨x, hx, hlinked, hsend.1.mpr (.inr (.inl hfree))⟩

/-- Both slots hold a message. A send of one more byte, with a timeout of 5 ticks, follows the
    null pointer. -/
theorem blocking_send_null : ∃ x, mqSystem.Reach (fun _ _ => True) x ∧
    x.b.linked = [[1], [2]] ∧ x.b.mq.msgSize = 2 ∧ x.b.mq.msgQueueFree = 0 ∧
    msgQueueSendBegin 0 x.k 1 x.b.mq x.b.mem (.wait 1) 1 5 = none := by
  have hinit : mqSystem.Reach (fun _ _ => True) { k := startedKernel 32, b := twoMessages } :=
    .init twoMessages_initial
  obtain ⟨x, hx, hp⟩ := hinit.exists_of_run
    [.call (.send [1] 0) 0, .next, .next, .call (.send [2] 0) 0, .next, .next]
    (fun x => x.b.linked = [[1], [2]] ∧ x.b.mq.msgSize = 2 ∧ x.b.mq.msgQueueFree = 0)
    (by decide +kernel)
  obtain ⟨hlinked, hsize, hfull⟩ := of_decide_eq_true hp
  refine ⟨x, hx, hlinked, hsize, hfull, ?_⟩
  exact (msgQueueSendBegin_eq_none_iff (by decide)).mpr ⟨by omega, hfull, by decide⟩

end SKernel.Spec
