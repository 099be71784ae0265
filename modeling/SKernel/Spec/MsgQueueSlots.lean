import SKernel.ForStd.Chain
import SKernel.Native.MsgQueue

/-!
# The slots of a message queue

The slots of the pool do not overlap, so that what is written into one slot leaves the others
alone. `QueueRep mq mem free chain` says that the pointers in memory link the free slots and the
slots of the messages in the queue.

## Key results

- `QueueRep.take`, `QueueRep.link`, `QueueRep.unlink`, `QueueRep.giveBack`: the way of a slot
-/

namespace SKernel.Spec

open Native ByteMem Circular Chain List

/-! ## Slots -/

/-- The pool of a queue: its address, the size of a message and the number of slots. -/
structure MsgPool where
  base : Nat
  msgSize : Nat
  maxMsgs : Nat

/-- The pool of a queue. -/
def poolOf (mq : MsgQueue) : MsgPool := ⟨mq.msgPool, mq.msgSize, mq.maxMsgs⟩

namespace MsgPool

/-- The size of a slot. -/
def width (p : MsgPool) : Nat := p.msgSize + mqMessageSize

/-- The address of slot `i`. -/
def slot (p : MsgPool) (i : Nat) : Nat := p.base + i * p.width

/-- The slots of a pool. -/
def slots (p : MsgPool) : Set Nat := { s | ∃ i < p.maxMsgs, s = p.slot i }

/-- The pool does not begin at the null pointer, and its addresses fit into a pointer. -/
structure InMemory (p : MsgPool) : Prop where
  base_pos : 0 < p.base
  end_le : p.slot p.maxMsgs ≤ 2 ^ 64
  max_lt : p.maxMsgs < 2 ^ 16

end MsgPool

/-- The pointer in a slot. -/
def nextSlot (mem : Mem) (s : Nat) : Nat := load mem 8 s

/-- A slot holds a message. -/
def Carries (p : MsgPool) (mem : Mem) (s : Nat) (bytes : List UInt8) : Prop :=
  bytes.length ≤ p.msgSize ∧ slice mem (s + mqMessageSize) bytes.length = bytes

/-- Two memories agree on a slot. -/
def Agree (p : MsgPool) (mem mem' : Mem) (s : Nat) : Prop :=
  ∀ a, s ≤ a → a < s + p.width → mem' a = mem a

variable {p : MsgPool} {mem mem' : Mem} {s s' msg v : Nat} {bytes : List UInt8}

namespace MsgPool

private theorem width_pos (p : MsgPool) : 0 < p.width := Nat.add_pos_right _ (by decide)

private theorem slot_add_width_le (p : MsgPool) {i j : Nat} (h : i < j) :
    p.slot i + p.width ≤ p.slot j := by
  have hmul : (i + 1) * p.width ≤ j * p.width := Nat.mul_le_mul_right _ h
  rw [Nat.succ_mul] at hmul
  unfold slot
  omega

private theorem slots_disjoint (hs : s ∈ p.slots) (hs' : s' ∈ p.slots) (hne : s ≠ s') :
    s + p.width ≤ s' ∨ s' + p.width ≤ s := by
  obtain ⟨i, -, rfl⟩ := hs
  obtain ⟨j, -, rfl⟩ := hs'
  rcases Nat.lt_trichotomy i j with hij | hij | hij
  · exact .inl (p.slot_add_width_le hij)
  · exact absurd (by rw [hij]) hne
  · exact .inr (p.slot_add_width_le hij)

theorem length_le {l : List Nat} (hnodup : l.Nodup) (hl : ∀ s ∈ l, s ∈ p.slots) :
    l.length ≤ p.maxMsgs := by
  have hsub : l ⊆ (List.range p.maxMsgs).map p.slot := by
    intro s hs
    obtain ⟨i, hi, rfl⟩ := hl s hs
    exact List.mem_map_of_mem (mem_range.mpr hi)
  have hlen := (subperm_of_subset hnodup hsub).length_le
  rwa [length_map, length_range] at hlen

private theorem InMemory.slot_ne_zero (h : p.InMemory) (hs : s ∈ p.slots) : s ≠ 0 := by
  obtain ⟨i, -, rfl⟩ := hs
  have := h.base_pos
  unfold slot
  omega

private theorem InMemory.slot_lt (h : p.InMemory) (hs : s ∈ p.slots) : s < 256 ^ 8 := by
  obtain ⟨i, hi, rfl⟩ := hs
  calc p.slot i < p.slot i + p.width := Nat.lt_add_of_pos_right p.width_pos
    _ ≤ 2 ^ 64 := Nat.le_trans (p.slot_add_width_le hi) h.end_le
    _ = 256 ^ 8 := by decide

end MsgPool

namespace Agree

theorem next (h : Agree p mem mem' s) : nextSlot mem' s = nextSlot mem s := by
  refine load_congr fun a ha hlt => h a ha ?_
  unfold MsgPool.width mqMessageSize
  omega

theorem carries (h : Agree p mem mem' s) (hc : Carries p mem s bytes) :
    Carries p mem' s bytes := by
  have hlen := hc.1
  refine ⟨hlen, (slice_congr ?_).trans hc.2⟩
  intro i hi
  refine h _ (by omega) ?_
  unfold MsgPool.width
  omega

end Agree

theorem agree_store (hs : s ∈ p.slots) (hmsg : msg ∈ p.slots) (hne : s ≠ msg) (v : Nat) :
    Agree p mem (store mem 8 msg v) s := by
  intro a ha hlt
  refine store_outside ?_
  have hdisj := MsgPool.slots_disjoint hs hmsg hne
  unfold MsgPool.width mqMessageSize at hdisj hlt
  omega

theorem carries_store (hc : Carries p mem s bytes) (v : Nat) :
    Carries p (store mem 8 s v) s bytes := by
  refine ⟨hc.1, (slice_congr ?_).trans hc.2⟩
  intro i _
  refine store_outside ?_
  unfold mqMessageSize
  omega

theorem agree_fill (hs : s ∈ p.slots) (hmsg : msg ∈ p.slots) (hne : s ≠ msg)
    (hlen : bytes.length ≤ p.msgSize) : Agree p mem (msgQueueSendFill mem msg bytes) s := by
  intro a ha hlt
  have hdisj := MsgPool.slots_disjoint hs hmsg hne
  unfold msgQueueSendFill
  rw [blit_outside]
  · exact agree_store hs hmsg hne 0 a ha hlt
  · unfold MsgPool.width at hdisj hlt
    omega

theorem carries_fill (hlen : bytes.length ≤ p.msgSize) :
    Carries p (msgQueueSendFill mem msg bytes) msg bytes := by
  refine ⟨hlen, ?_⟩
  apply ext_getElem
  · simp
  · intro i hi hi'
    rw [getElem_slice]
    exact blit_add _ _ _ _ hi'

theorem Carries.take_copy {mq : MsgQueue} (hc : Carries p mem s bytes)
    (hsize : mq.msgSize = p.msgSize) (size : Nat) :
    (msgQueueRecvCopy mq mem s size).take (min size bytes.length) =
      bytes.take (min size bytes.length) := by
  have hlen := hc.1
  unfold msgQueueRecvCopy
  rw [take_slice]
  conv_rhs => rw [← hc.2, take_slice]
  congr 1
  rw [hsize, length_slice]
  split <;> omega

theorem nextSlot_fill : nextSlot (msgQueueSendFill mem msg bytes) msg = 0 := by
  have hframe : ∀ a, msg ≤ a → a < msg + 8 →
      msgQueueSendFill mem msg bytes a = store mem 8 msg 0 a := by
    intro a ha hlt
    refine blit_outside _ _ _ _ (.inl ?_)
    unfold mqMessageSize
    exact hlt
  unfold nextSlot
  rw [load_congr hframe, load_store_self (by decide)]

/-! ## The two lists -/

/-- The pointers in memory link the free slots and the slots of the messages. -/
structure QueueRep (mq : MsgQueue) (mem : Mem) (free chain : List Nat) : Prop where
  free_linked : Linked (nextSlot mem) mq.msgQueueFree free
  chain_linked : Linked (nextSlot mem) mq.msgQueueHead chain
  tail : mq.msgQueueTail = chain.getLastD 0
  entry : mq.entry = chain.length

namespace QueueRep

variable {mq : MsgQueue} {free chain : List Nat}

variable (h : QueueRep mq mem free chain)
include h

theorem congr (hfree : ∀ s ∈ free, nextSlot mem' s = nextSlot mem s)
    (hchain : ∀ s ∈ chain, nextSlot mem' s = nextSlot mem s) : QueueRep mq mem' free chain :=
  ⟨h.free_linked.congr hfree, h.chain_linked.congr hchain, h.tail, h.entry⟩

theorem tail_mem (hne : mq.msgQueueTail ≠ 0) : mq.msgQueueTail ∈ chain := by
  rw [h.tail] at hne ⊢
  cases chain with
  | nil => exact absurd rfl hne
  | cons s rest =>
    rw [getLastD_cons]
    exact getLastD_mem_cons

/-- A free slot is taken. -/
theorem take (hne : mq.msgQueueFree ≠ 0) :
    ∃ rest, free = mq.msgQueueFree :: rest ∧
      QueueRep { mq with msgQueueFree := load mem 8 mq.msgQueueFree } mem rest chain := by
  cases free with
  | nil => exact absurd h.free_linked hne
  | cons s rest =>
    obtain ⟨rfl, -, hrest⟩ := h.free_linked
    exact ⟨rest, rfl, hrest, h.chain_linked, h.tail, h.entry⟩

/-- The first slot of the chain is unlinked. -/
theorem unlink (hpos : mq.entry ≠ 0) :
    mq.msgQueueHead ≠ 0 ∧ ∃ rest, chain = mq.msgQueueHead :: rest ∧
      QueueRep
        { mq with
          msgQueueHead := load mem 8 mq.msgQueueHead
          msgQueueTail := if mq.msgQueueTail = mq.msgQueueHead then 0 else mq.msgQueueTail
          entry := if mq.entry > 0 then mq.entry - 1 else mq.entry } mem free rest := by
  have hentry := h.entry
  have htail := h.tail
  cases hc : chain with
  | nil =>
    rw [hc] at hentry
    exact absurd hentry hpos
  | cons s rest =>
    have hchain := h.chain_linked
    rw [hc] at hchain htail hentry
    have hnodup := hchain.nodup
    obtain ⟨rfl, hs, hrest⟩ := hchain
    refine ⟨hs, rest, rfl, h.free_linked, hrest, ?_, ?_⟩
    · -- the tail is the slot itself exactly when no slot is left
      dsimp only
      rw [htail]
      cases rest with
      | nil => simp
      | cons s' rest =>
        have hlast : rest.getLastD s' ∈ s' :: rest := getLastD_mem_cons
        simp only [getLastD_cons]
        rw [if_neg]
        intro heq
        rw [heq] at hlast
        exact (nodup_cons.mp hnodup).1 hlast
    · dsimp only
      rw [if_pos (Nat.pos_of_ne_zero hpos), hentry]
      rfl

/-- A slot is linked behind the last one. -/
theorem link (hmsg : msg ∈ p.slots) (hpool : p.InMemory)
    (hslots : ∀ s ∈ free ++ chain, s ∈ p.slots ∧ s ≠ msg) (hnodup : (free ++ chain).Nodup)
    (hnext : nextSlot mem msg = 0) (hlen : chain.length + 1 < 2 ^ 16) :
    QueueRep
      { mq with
        msgQueueTail := msg
        msgQueueHead := if mq.msgQueueHead = 0 then msg else mq.msgQueueHead
        entry := (mq.entry + 1) % 2 ^ 16 }
      (if mq.msgQueueTail ≠ 0 then store mem 8 mq.msgQueueTail msg else mem)
      free (chain ++ [msg]) := by
  have hentry : (mq.entry + 1) % 2 ^ 16 = (chain ++ [msg]).length := by
    rw [h.entry, Nat.mod_eq_of_lt hlen]
    simp
  have hne := hpool.slot_ne_zero hmsg
  cases hrev : chain.reverse with
  | nil =>
    -- the queue was empty
    have hnil : chain = [] := reverse_eq_nil_iff.mp hrev
    subst hnil
    have hhead : mq.msgQueueHead = 0 := h.chain_linked
    have htail : mq.msgQueueTail = 0 := h.tail
    rw [if_pos hhead, htail, if_neg (not_not.mpr rfl)]
    exact ⟨h.free_linked, ⟨rfl, hne, hnext⟩, rfl, hentry⟩
  | cons last front =>
    have hc : chain = front.reverse ++ [last] := by
      rw [← reverse_reverse chain, hrev, reverse_cons]
    have htail : mq.msgQueueTail = last := by
      rw [h.tail, hc]
      simp
    have hlast : last ∈ p.slots ∧ last ≠ msg := hslots last (by rw [hc]; simp)
    have hlast0 := hpool.slot_ne_zero hlast.1
    have hhead : mq.msgQueueHead ≠ 0 := by
      rw [Ne, h.chain_linked.eq_zero_iff, hc]
      simp
    rw [htail, if_pos hlast0, if_neg hhead]
    have hstay : ∀ s ∈ free ++ front.reverse,
        nextSlot (store mem 8 last msg) s = nextSlot mem s := by
      intro s hs
      have hsl : s ≠ last := by
        rintro rfl
        rw [hc, ← append_assoc, nodup_append] at hnodup
        exact hnodup.2.2 s hs s (mem_singleton_self s) rfl
      have hslot : s ∈ p.slots := by
        refine (hslots s ?_).1
        rw [hc, ← append_assoc]
        exact mem_append_left _ hs
      exact (agree_store hslot hlast.1 hsl msg).next
    refine ⟨?_, ?_, ?_, hentry⟩
    · exact h.free_linked.congr fun s hs => hstay s (mem_append_left _ hs)
    · have hchain := h.chain_linked
      rw [hc] at hchain ⊢
      rw [append_assoc]
      refine hchain.snoc hne ?_ ?_ fun s hs => hstay s (mem_append_right _ hs)
      · exact load_store_self (hpool.slot_lt hmsg)
      · rw [← hnext]
        exact (agree_store hmsg hlast.1 (Ne.symm hlast.2) msg).next
    · simp

/-- A slot is given back. -/
theorem giveBack (hmsg : msg ∈ p.slots) (hpool : p.InMemory)
    (hslots : ∀ s ∈ free ++ chain, s ∈ p.slots ∧ s ≠ msg) :
    QueueRep { mq with msgQueueFree := msg } (store mem 8 msg mq.msgQueueFree)
      (msg :: free) chain := by
  have hstay : ∀ s ∈ free ++ chain,
      nextSlot (store mem 8 msg mq.msgQueueFree) s = nextSlot mem s := by
    intro s hs
    exact (agree_store (hslots s hs).1 hmsg (hslots s hs).2 _).next
  -- the head of the free list fits into the pointer that is stored
  have hfree : mq.msgQueueFree < 256 ^ 8 := by
    cases hf : free with
    | nil =>
      have hnil := h.free_linked
      rw [hf] at hnil
      rw [show mq.msgQueueFree = 0 from hnil]
      decide
    | cons s rest =>
      have hcons := h.free_linked
      rw [hf] at hcons
      rw [hcons.1]
      exact hpool.slot_lt (hslots s (by rw [hf]; simp)).1
  refine ⟨⟨rfl, hpool.slot_ne_zero hmsg, ?_⟩, ?_, h.tail, h.entry⟩
  · show Linked _ (load (store mem 8 msg mq.msgQueueFree) 8 msg) free
    rw [load_store_self hfree]
    exact h.free_linked.congr fun s hs => hstay s (mem_append_left _ hs)
  · exact h.chain_linked.congr fun s hs => hstay s (mem_append_right _ hs)

end QueueRep

/-! ## Initialisation -/

/-- The slots that the loop has put on the free list. -/
def initSlots (p : MsgPool) : Nat → List Nat
  | 0 => []
  | n + 1 => p.slot n :: initSlots p n

private theorem mem_initSlots {n : Nat} : s ∈ initSlots p n ↔ ∃ i < n, s = p.slot i := by
  induction n with
  | zero => simp [initSlots]
  | succ n ih =>
    rw [initSlots, mem_cons, ih]
    constructor
    · rintro (rfl | ⟨i, hi, rfl⟩)
      · exact ⟨n, Nat.lt_succ_self n, rfl⟩
      · exact ⟨i, Nat.lt_succ_of_lt hi, rfl⟩
    · rintro ⟨i, hi, rfl⟩
      cases Nat.lt_or_eq_of_le (Nat.le_of_lt_succ hi) with
      | inl hlt => exact .inr ⟨i, hlt, rfl⟩
      | inr heq => exact .inl (by rw [heq])

variable {mq : MsgQueue}

theorem msgQueueFreeLoop_mq (mq : MsgQueue) (mem : Mem) (n : Nat) :
    ∃ free, (msgQueueFreeLoop mq mem n).1 = { mq with msgQueueFree := free } := by
  induction n with
  | zero => exact ⟨mq.msgQueueFree, rfl⟩
  | succ n ih =>
    obtain ⟨free, ih⟩ := ih
    refine ⟨mq.slot n, ?_⟩
    simp only [msgQueueFreeLoop]
    rw [ih]
    rfl

private theorem msgQueueFreeLoop_rep (hpool : (poolOf mq).InMemory) (hrep : QueueRep mq mem [] [])
    {n : Nat} (hn : n ≤ mq.maxMsgs) :
    QueueRep (msgQueueFreeLoop mq mem n).1 (msgQueueFreeLoop mq mem n).2
      (initSlots (poolOf mq) n) [] := by
  induction n with
  | zero => exact hrep
  | succ n ih =>
    obtain ⟨free, hmq⟩ := msgQueueFreeLoop_mq mq mem n
    have ih := ih (Nat.le_of_succ_le hn)
    simp only [msgQueueFreeLoop]
    rw [hmq] at ih ⊢
    have hmsg : (poolOf mq).slot n ∈ (poolOf mq).slots := ⟨n, hn, rfl⟩
    refine ih.giveBack hmsg hpool ?_
    intro s hs
    rw [append_nil] at hs
    obtain ⟨i, hi, rfl⟩ := mem_initSlots.mp hs
    refine ⟨⟨i, Nat.lt_of_lt_of_le (Nat.lt_succ_of_lt hi) hn, rfl⟩, ?_⟩
    show (poolOf mq).slot i ≠ (poolOf mq).slot n
    have hlt := (poolOf mq).slot_add_width_le hi
    have hpos := (poolOf mq).width_pos
    omega

theorem skMsgQueueInit_rep {msgpool msgSize poolSize : Nat} {flag : BitVec 8}
    (hinit : (mq, mem') = skMsgQueueInit mem msgpool msgSize poolSize flag)
    (hpos : msgpool ≠ 0) (hle : msgpool + poolSize ≤ 2 ^ 64) :
    (poolOf mq).InMemory ∧
      ∃ free, QueueRep mq mem' free [] ∧ ∀ s, s ∈ free ↔ s ∈ (poolOf mq).slots := by
  let mq0 : MsgQueue :=
    { msgPool := msgpool
      msgSize := msgSize % 2 ^ 16
      maxMsgs := poolSize / (msgSize % 2 ^ 16 + mqMessageSize) % 2 ^ 16
      entry := 0
      msgQueueHead := 0
      msgQueueTail := 0
      msgQueueFree := 0
      flag := flag }
  have hpool : (poolOf mq0).InMemory := by
    refine ⟨Nat.pos_of_ne_zero hpos, ?_, Nat.mod_lt _ (by decide)⟩
    -- the slots fit into the pool
    have hmax : mq0.maxMsgs * (msgSize % 2 ^ 16 + mqMessageSize) ≤ poolSize :=
      Nat.le_trans (Nat.mul_le_mul_right _ (Nat.mod_le _ _)) (Nat.div_mul_le_self _ _)
    exact Nat.le_trans (Nat.add_le_add_left hmax msgpool) hle
  have hempty : QueueRep mq0 mem [] [] := ⟨rfl, rfl, rfl, rfl⟩
  have hrep := msgQueueFreeLoop_rep hpool hempty (Nat.le_refl mq0.maxMsgs)
  obtain ⟨free, hmq⟩ := msgQueueFreeLoop_mq mq0 mem mq0.maxMsgs
  have hloop : (mq, mem') = msgQueueFreeLoop mq0 mem mq0.maxMsgs := hinit
  rw [← hloop] at hrep hmq
  have hsame : poolOf mq = poolOf mq0 := by
    rw [show mq = _ from hmq]
    rfl
  rw [hsame]
  exact ⟨hpool, _, hrep, fun s => mem_initSlots⟩

end SKernel.Spec
