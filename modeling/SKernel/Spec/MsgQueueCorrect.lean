import SKernel.ForStd.Places
import SKernel.ForStd.Simulation
import SKernel.Spec.MsgQueueSlots
import SKernel.Spec.SchedCorrect

/-!
# Slots and messages of a message queue

Threads send messages to a message queue and receive messages from it. A send takes a free slot,
fills it and links it; a receive unlinks a slot, copies the message out and gives the slot back.
Between these parts other threads may run, and the rest of the kernel may do anything.

`linked` lists the messages in the order in which they have been linked, `taken` is the number of
messages that have been unlinked, and `delivered` says what each receive has copied out. The
message that a receive unlinks has the number of the messages unlinked before.

## Key results

- `MqInv.part`: every part of a call keeps the slots and the messages apart
-/

namespace SKernel.Spec

open Native ByteMem Circular Chain Places Function List Option

/-! ## The calls -/

/-- The wait list `parent.suspend_thread`. -/
def mqReceivers : ListHead := .wait 0

/-- A call; `sk_msg_queue_send` is a `send` with timeout 0. -/
inductive MqRequest where
  | send (bytes : List UInt8) (timeout : Int)
  | recv (size : Nat) (timeout : Int)
  deriving DecidableEq

/-- Where a thread stands in a call. A receive knows the number of the message it has unlinked. -/
inductive MqCall where
  | sendTook (msg : Nat) (bytes : List UInt8) (timeout : Int)
  | sendFilled (msg : Nat) (bytes : List UInt8) (timeout : Int)
  | recvBlocked (size : Nat) (timeout : Int)
  | recvTook (msg size index : Nat) (timeout : Int)
  | recvCopied (msg size index : Nat) (bytes : List UInt8) (timeout : Int)

/-- The slot in the hands of a call. -/
def MqCall.slot : MqCall → Option Nat
  | .sendTook msg .. | .sendFilled msg .. | .recvTook msg .. | .recvCopied msg .. => some msg
  | .recvBlocked .. => none

/-- The number of the message that a call has not copied out yet. -/
def MqCall.index : MqCall → Option Nat
  | .recvTook _ _ index _ => some index
  | .sendTook .. | .sendFilled .. | .recvBlocked .. | .recvCopied .. => none

/-- What a receive with buffer size `size` has copied out. -/
structure Delivery where
  index : Nat
  size : Nat
  bytes : List UInt8
  deriving DecidableEq

/-- A call with the code that it returns, and with what a receive has copied out. -/
structure MqReturn where
  request : MqRequest
  code : SkErr
  bytes : Option (List UInt8)
  deriving DecidableEq

/-- A message queue, the memory of its pool, the calls in progress, the messages, and the calls
    that have come to an end. -/
structure MqState where
  mq : MsgQueue
  mem : Mem
  calls : Tid → Option MqCall
  linked : List (List UInt8)
  taken : Nat
  delivered : List Delivery
  log : List MqReturn

/-- A call comes to an end, it blocks, or it enables interrupts and goes on. -/
inductive MqEnd where
  | done (e : CallEnd)
  | block
  | goOn

namespace MqState

/-- The slots in the hands of the threads. -/
def held (b : MqState) (t : Tid) : Option Nat := (b.calls t).bind MqCall.slot

/-- The messages in the hands of the threads. -/
def inHand (b : MqState) (t : Tid) : Option Nat := (b.calls t).bind MqCall.index

def setCall (b : MqState) (c : Tid) (call : MqCall) : MqState :=
  { b with calls := update b.calls c (some call) }

/-- The call of thread `c` comes to an end. -/
def finish (b : MqState) (c : Tid) (request : MqRequest) (code : SkErr)
    (bytes : Option (List UInt8)) : MqState :=
  { b with
    calls := update b.calls c none
    log := b.log ++ [{ request, code, bytes }] }

/-- Thread `c` has unlinked a slot. -/
def unlinked (b : MqState) (c : Tid) (size : Nat) (timeout : Int) (msg : Nat) (mq : MsgQueue) :
    MqState :=
  { b with mq := mq, taken := b.taken + 1 }.setCall c (.recvTook msg size b.taken timeout)

/-- Thread `c` has copied a message out. -/
def copied (b : MqState) (c : Tid) (msg : Nat) (timeout : Int) (d : Delivery) : MqState :=
  { b with delivered := b.delivered ++ [d] }.setCall c
    (.recvCopied msg d.size d.index d.bytes timeout)

/-- The first part of a call of thread `c`. -/
def begin (fuel : Nat) (b : MqState) (k : Kernel) (c : Tid) :
    MqRequest → Option (MqEnd × Kernel × MqState)
  | .send bytes timeout =>
    (msgQueueSendTake b.mq b.mem bytes.length timeout).map fun
      | .error code => (.done (.ret code), k, b.finish c (.send bytes timeout) code none)
      | .ok (msg, mq) => (.goOn, k, { b with mq := mq }.setCall c (.sendTook msg bytes timeout))
  | .recv size timeout =>
    (msgQueueRecvBegin fuel k b.mq b.mem mqReceivers timeout).map fun
      | .ret code => (.done (.ret code), k, b.finish c (.recv size timeout) code none)
      | .block k => (.block, k, b.setCall c (.recvBlocked size timeout))
      | .took msg mq => (.goOn, k, b.unlinked c size timeout msg mq)

/-- The next part of the call of thread `c`. -/
def next (b : MqState) (k : Kernel) (c : Tid) : Option (MqEnd × Kernel × MqState) :=
  match b.calls c with
  | none => none
  | some (.sendTook msg bytes timeout) =>
    some (.goOn, k,
      { b with mem := msgQueueSendFill b.mem msg bytes }.setCall c (.sendFilled msg bytes timeout))
  | some (.sendFilled msg bytes timeout) =>
    (msgQueueSendLink k b.mq b.mem mqReceivers msg).map fun (e, k, mq, mem) =>
      (.done e, k,
        { b with mq := mq, mem := mem, linked := b.linked ++ [bytes] }.finish c
          (.send bytes timeout) e.code none)
  | some (.recvBlocked size timeout) =>
    (msgQueueRecvUnlink b.mq b.mem).map fun
      | .error code => (.done (.ret code), k, b.finish c (.recv size timeout) code none)
      | .ok (msg, mq) => (.goOn, k, b.unlinked c size timeout msg mq)
  | some (.recvTook msg size index timeout) =>
    some (.goOn, k, b.copied c msg timeout ⟨index, size, msgQueueRecvCopy b.mq b.mem msg size⟩)
  | some (.recvCopied msg size _ bytes timeout) =>
    (msgQueueRecvFree k b.mq b.mem mqReceivers msg).map fun (e, k, mq, mem) =>
      (.done e, k,
        { b with mq := mq, mem := mem }.finish c (.recv size timeout) e.code (some bytes))

/-! ## What a part of a call can do -/

/-- The queue after its first free slot has been taken. -/
def tookMq (b : MqState) : MsgQueue :=
  { b.mq with msgQueueFree := load b.mem 8 b.mq.msgQueueFree }

/-- The queue after slot `msg` has been linked. -/
def linkMq (b : MqState) (msg : Nat) : MsgQueue :=
  { b.mq with
    msgQueueTail := msg
    msgQueueHead := if b.mq.msgQueueHead = 0 then msg else b.mq.msgQueueHead
    entry := (b.mq.entry + 1) % 2 ^ 16 }

/-- The memory after slot `msg` has been linked. -/
def linkMem (b : MqState) (msg : Nat) : Mem :=
  if b.mq.msgQueueTail ≠ 0 then store b.mem 8 b.mq.msgQueueTail msg else b.mem

/-- The queue after its first slot has been unlinked. -/
def unlinkMq (b : MqState) : MsgQueue :=
  { b.mq with
    msgQueueHead := load b.mem 8 b.mq.msgQueueHead
    msgQueueTail := if b.mq.msgQueueTail = b.mq.msgQueueHead then 0 else b.mq.msgQueueTail
    entry := if b.mq.entry > 0 then b.mq.entry - 1 else b.mq.entry }

/-- A part of a call of thread `c`. -/
inductive Part (fuel : Nat) (b : MqState) (k : Kernel) (c : Tid) :
    MqEnd → Kernel → MqState → Prop where
  | sendError (bytes : List UInt8) (timeout : Int) (code : SkErr) (hcode : code ≠ .eok)
      (hcall : b.calls c = none) :
      Part fuel b k c (.done (.ret code)) k (b.finish c (.send bytes timeout) code none)
  | take (bytes : List UInt8) (timeout : Int) (hcall : b.calls c = none)
      (hlen : bytes.length ≤ b.mq.msgSize) (hne : b.mq.msgQueueFree ≠ 0) :
      Part fuel b k c .goOn k
        ({ b with mq := b.tookMq }.setCall c (.sendTook b.mq.msgQueueFree bytes timeout))
  | fill (msg : Nat) (bytes : List UInt8) (timeout : Int)
      (hcall : b.calls c = some (.sendTook msg bytes timeout)) :
      Part fuel b k c .goOn k
        ({ b with mem := msgQueueSendFill b.mem msg bytes }.setCall c
          (.sendFilled msg bytes timeout))
  | link (msg : Nat) (bytes : List UInt8) (timeout : Int)
      (hcall : b.calls c = some (.sendFilled msg bytes timeout)) {e : CallEnd} {k' : Kernel}
      (hwake : ipcResumeFirst k mqReceivers = some (e, k')) :
      Part fuel b k c (.done e) k'
        ({ b with
            mq := b.linkMq msg
            mem := b.linkMem msg
            linked := b.linked ++ [bytes] }.finish c (.send bytes timeout) .eok none)
  /-- a receive that does not block finds the queue empty -/
  | recvNone (size : Nat) (hcall : b.calls c = none) (hempty : b.mq.entry = 0) :
      Part fuel b k c (.done (.ret .etimeout)) k (b.finish c (.recv size 0) .etimeout none)
  /-- a receive that has blocked finds the queue empty -/
  | recvAgain (size : Nat) (timeout : Int) (hcall : b.calls c = some (.recvBlocked size timeout))
      (hempty : b.mq.entry = 0) :
      Part fuel b k c (.done (.ret .etimeout)) k (b.finish c (.recv size timeout) .etimeout none)
  | block (size : Nat) (timeout : Int) (hcall : b.calls c = none) (hempty : b.mq.entry = 0)
      {k' : Kernel} (hblock : ipcBlock fuel k mqReceivers b.mq.flag timeout = some k') :
      Part fuel b k c .block k' (b.setCall c (.recvBlocked size timeout))
  | unlink (size : Nat) (timeout : Int)
      (hcall : b.calls c = none ∨ b.calls c = some (.recvBlocked size timeout))
      (hne : b.mq.entry ≠ 0) :
      Part fuel b k c .goOn k (b.unlinked c size timeout b.mq.msgQueueHead b.unlinkMq)
  | copy (msg size index : Nat) (timeout : Int)
      (hcall : b.calls c = some (.recvTook msg size index timeout)) :
      Part fuel b k c .goOn k
        (b.copied c msg timeout ⟨index, size, msgQueueRecvCopy b.mq b.mem msg size⟩)
  | giveBack (msg size index : Nat) (bytes : List UInt8) (timeout : Int)
      (hcall : b.calls c = some (.recvCopied msg size index bytes timeout)) {e : CallEnd}
      {k' : Kernel} (hwake : ipcResumeFirst k mqReceivers = some (e, k')) :
      Part fuel b k c (.done e) k'
        ({ b with
            mq := { b.mq with msgQueueFree := msg }
            mem := store b.mem 8 msg b.mq.msgQueueFree }.finish c (.recv size timeout) .eok
              (some bytes))

variable {fuel : Nat} {b b' : MqState} {k k' : Kernel} {c t : Tid} {e : MqEnd} {request : MqRequest}
variable {mem' : Mem} {out : Option (List UInt8)} {size : Nat}

theorem begin_cases (hcall : b.calls c = none) (h : begin fuel b k c request = some
    (e, k', b')) : Part fuel b k c e k' b' := by
  cases request with
  | send bytes timeout =>
    obtain ⟨r, htake, heq⟩ := map_eq_some_iff.mp h
    unfold msgQueueSendTake at htake
    split at htake
    · -- the message is too long
      cases htake
      cases heq
      exact .sendError bytes timeout .error (by decide) hcall
    · rename_i hlen
      dsimp only at htake
      split at htake
      · -- no slot is free
        cases htake
        cases heq
        exact .sendError bytes timeout .efull (by decide) hcall
      · split at htake
        · cases htake
        · rename_i hne
          cases htake
          cases heq
          exact .take bytes timeout hcall (by omega) hne
  | recv size timeout =>
    obtain ⟨r, hbegin, heq⟩ := map_eq_some_iff.mp h
    unfold msgQueueRecvBegin at hbegin
    split at hbegin
    · -- nothing to receive, and the caller does not wait
      rename_i hnow
      cases hbegin
      cases heq
      rw [hnow.2]
      exact .recvNone size hcall hnow.1
    · split at hbegin
      · -- nothing to receive yet
        rename_i hempty
        obtain ⟨k1, hblock, rfl⟩ := map_eq_some_iff.mp hbegin
        cases heq
        exact .block size timeout hcall hempty hblock
      · rename_i hne
        obtain ⟨r1, hunlink, rfl⟩ := map_eq_some_iff.mp hbegin
        unfold msgQueueRecvUnlink at hunlink
        rw [if_neg hne] at hunlink
        dsimp only at hunlink
        split at hunlink
        · cases hunlink
        · cases hunlink
          cases heq
          exact .unlink size timeout (.inl hcall) hne

theorem begin_send_taken {bytes : List UInt8} {timeout : Int}
    (h : begin fuel b k c (.send bytes timeout) = some (e, k', b')) : b'.taken = b.taken := by
  obtain ⟨r, -, heq⟩ := map_eq_some_iff.mp h
  cases r with
  | error code | ok took =>
    cases heq
    rfl

theorem next_cases (h : b.next k c = some (e, k', b')) : Part fuel b k c e k' b' := by
  unfold next at h
  split at h
  · cases h
  · rename_i msg bytes timeout hcall
    cases h
    exact .fill msg bytes timeout hcall
  · rename_i msg bytes timeout hcall
    obtain ⟨⟨e1, k1, mq, mem⟩, hlink, heq⟩ := map_eq_some_iff.mp h
    obtain ⟨⟨e2, k2⟩, hwake, hmq⟩ := map_eq_some_iff.mp hlink
    cases hmq
    cases heq
    rw [ipcResumeFirst_code hwake]
    exact .link msg bytes timeout hcall hwake
  · -- the receive has been woken up, and looks at the queue once more
    rename_i size timeout hcall
    obtain ⟨r, hunlink, heq⟩ := map_eq_some_iff.mp h
    unfold msgQueueRecvUnlink at hunlink
    split at hunlink
    · rename_i hempty
      cases hunlink
      cases heq
      exact .recvAgain size timeout hcall hempty
    · rename_i hne
      dsimp only at hunlink
      split at hunlink
      · cases hunlink
      · cases hunlink
        cases heq
        exact .unlink size timeout (.inr hcall) hne
  · rename_i msg size index timeout hcall
    cases h
    exact .copy msg size index timeout hcall
  · rename_i msg size index bytes timeout hcall
    obtain ⟨⟨e1, k1, mq, mem⟩, hfree, heq⟩ := map_eq_some_iff.mp h
    obtain ⟨⟨e2, k2⟩, hwake, hmq⟩ := map_eq_some_iff.mp hfree
    cases hmq
    cases heq
    rw [ipcResumeFirst_code hwake]
    exact .giveBack msg size index bytes timeout hcall hwake

end MqState

/-! ## The invariant -/

/-- The two lists of slots. -/
inductive MqList where
  | free
  | chain
  deriving DecidableEq

/-- The slots on the two lists. -/
def mqLists (free chain : List Nat) : MqList → List Nat
  | .free => free
  | .chain => chain

private theorem update_mqLists_free (free chain l : List Nat) :
    update (mqLists free chain) .free l = mqLists l chain := by
  funext i
  cases i <;> rfl

private theorem update_mqLists_chain (free chain l : List Nat) :
    update (mqLists free chain) .chain l = mqLists free l := by
  funext i
  cases i <;> rfl

/-- What was sent, as far as the buffer and the message reach. -/
def Delivers (linked : List (List UInt8)) (d : Delivery) : Prop :=
  ∃ m, linked[d.index]? = some m ∧
    d.bytes.take (min d.size m.length) = m.take (min d.size m.length)

/-- A receive that returns `SK_EOK` has copied out a message that has been linked. -/
def Returns (linked : List (List UInt8)) (r : MqReturn) : Prop :=
  ∀ size timeout, r.request = .recv size timeout → r.code = .eok →
    ∃ index bytes, r.bytes = some bytes ∧ Delivers linked ⟨index, size, bytes⟩

/-- What is known of a call in progress. -/
def CallOk (p : MsgPool) (mem : Mem) (linked : List (List UInt8)) : MqCall → Prop
  | .sendTook _ bytes _ => bytes.length ≤ p.msgSize
  | .sendFilled msg bytes _ => Carries p mem msg bytes ∧ nextSlot mem msg = 0
  | .recvBlocked _ _ => True
  | .recvTook msg _ index _ => ∃ m, linked[index]? = some m ∧ Carries p mem msg m
  | .recvCopied _ size index bytes _ => Delivers linked ⟨index, size, bytes⟩

/-- Every slot is on the free list, in the chain, or in the hands of one call. The chain holds the
    messages linked and not unlinked, in order. Every other message has been delivered once,
    unaltered, or is in the hands of one call. -/
structure MqState.Conserved (b : MqState) (p : MsgPool) (free chain : List Nat)
    (place : Nat → Place MqList Tid) (received : Nat → Place Unit Tid) : Prop where
  pool : poolOf b.mq = p
  slots : Located p.slots (mqLists free chain) b.held place
  lists : QueueRep b.mq b.mem free chain
  order : List.Forall₂ (Carries p b.mem) chain (b.linked.drop b.taken)
  received : Located { n | n < b.taken } (fun _ => b.delivered.map Delivery.index) b.inHand received
  delivers : ∀ d ∈ b.delivered, Delivers b.linked d
  returns : ∀ r ∈ b.log, Returns b.linked r

/-- The invariant. -/
structure MqInv (p : MsgPool) (b : MqState) (free chain : List Nat)
    (place : Nat → Place MqList Tid) (received : Nat → Place Unit Tid) : Prop where
  conserved : b.Conserved p free chain place received
  memory : p.InMemory
  taken_le : b.taken ≤ b.linked.length
  calls : ∀ t call, b.calls t = some call → CallOk p b.mem b.linked call

namespace MqInv

variable {p : MsgPool} {b : MqState} {free chain : List Nat} {place : Nat → Place MqList Tid}
variable {received : Nat → Place Unit Tid} {c t : Tid} {call : MqCall} {msg s : Nat}
variable {bytes : List UInt8}

/-! ### Slots in hands -/

private theorem bind_update (calls : Tid → Option MqCall) (c : Tid) (new : Option MqCall)
    (f : MqCall → Option Nat) :
    (fun t => (update calls c new t).bind f) =
      update (fun t => (calls t).bind f) c (new.bind f) :=
  comp_update (Option.bind · f) calls c new

private theorem bind_update_same (calls : Tid → Option MqCall) (c : Tid) (new : Option MqCall)
    (f : MqCall → Option Nat) (hsame : new.bind f = (calls c).bind f) :
    (fun t => (update calls c new t).bind f) = fun t => (calls t).bind f := by
  rw [bind_update, hsame]
  exact update_eq_self ..

theorem held_of_call (hcall : b.calls c = some call) : b.held c = call.slot := by
  unfold MqState.held
  rw [hcall]
  rfl

private theorem inHand_of_call (hcall : b.calls c = some call) : b.inHand c = call.index := by
  unfold MqState.inHand
  rw [hcall]
  rfl

section

variable (h : MqInv p b free chain place received)
include h

theorem free_slot (hs : s ∈ free) : s ∈ p.slots :=
  h.conserved.slots.mem_things_of_list (show s ∈ mqLists free chain .free from hs)

theorem chain_slot (hs : s ∈ chain) : s ∈ p.slots :=
  h.conserved.slots.mem_things_of_list (show s ∈ mqLists free chain .chain from hs)

/-- A slot in a hand is on neither list. -/
theorem ne_of_held (ht : b.held t = some msg) (hs : s ∈ free ++ chain) : s ∈ p.slots ∧ s ≠ msg := by
  have hfree := h.conserved.slots.notMem_of_hand ht .free
  have hchain := h.conserved.slots.notMem_of_hand ht .chain
  cases mem_append.mp hs with
  | inl hin => exact ⟨h.free_slot hin, fun heq => hfree (heq ▸ hin)⟩
  | inr hin => exact ⟨h.chain_slot hin, fun heq => hchain (heq ▸ hin)⟩

private theorem lists_nodup : (free ++ chain).Nodup := by
  rw [nodup_append]
  refine ⟨h.conserved.slots.nodup .free, h.conserved.slots.nodup .chain, ?_⟩
  intro s hs s' hs' heq
  subst heq
  have hnot : s ∉ mqLists free chain .chain :=
    h.conserved.slots.notMem_of_ne (show s ∈ mqLists free chain .free from hs) (by decide)
  exact hnot hs'

end

/-- Slots that are left alone still hold their messages. -/
theorem order_congr {mem : Mem} {messages : List (List UInt8)}
    (h : List.Forall₂ (Carries p mem) chain messages)
    (hagree : ∀ s ∈ chain, ∀ m, Carries p mem s m → Carries p mem' s m) :
    List.Forall₂ (Carries p mem') chain messages := by
  induction h with
  | nil => exact .nil
  | cons hs _ ih =>
    refine .cons (hagree _ mem_cons_self _ hs) (ih ?_)
    exact fun s hs => hagree s (mem_cons_of_mem _ hs)

/-! ### Messages that have been linked -/

variable {linked : List (List UInt8)}

/-- A message keeps its number. -/
theorem linked_append {i : Nat} {m : List UInt8} (h : linked[i]? = some m)
    (more : List (List UInt8)) : (linked ++ more)[i]? = some m := by
  rw [getElem?_append_left (List.getElem?_eq_some_iff.mp h).1]
  exact h

private theorem delivers_append {d : Delivery} (h : Delivers linked d) (more : List (List UInt8)) :
    Delivers (linked ++ more) d := by
  obtain ⟨m, hm, htake⟩ := h
  exact ⟨m, linked_append hm more, htake⟩

theorem returns_append {r : MqReturn} (h : Returns linked r) (more : List (List UInt8)) :
    Returns (linked ++ more) r := by
  intro size timeout hrequest hcode
  obtain ⟨index, bytes, hbytes, hdelivers⟩ := h size timeout hrequest hcode
  exact ⟨index, bytes, hbytes, delivers_append hdelivers more⟩

private theorem returns_send {code : SkErr} (bytes : List UInt8)
    (timeout : Int) : Returns linked ⟨.send bytes timeout, code, out⟩ :=
  fun _ _ heq => nomatch heq

private theorem returns_error :
    Returns linked ⟨request, .etimeout, out⟩ :=
  fun _ _ _ hcode => nomatch hcode

/-! ### Calls of other threads -/

private theorem callOk_mono {mem : Mem} (h : CallOk p mem linked call)
    (hagree : ∀ s, call.slot = some s → Agree p mem mem' s) (more : List (List UInt8)) :
    CallOk p mem' (linked ++ more) call := by
  cases call with
  | sendTook => exact h
  | sendFilled msg bytes timeout =>
    exact ⟨(hagree msg rfl).carries h.1, (hagree msg rfl).next.trans h.2⟩
  | recvBlocked => trivial
  | recvTook msg =>
    obtain ⟨m, hm, hc⟩ := h
    exact ⟨m, linked_append hm more, (hagree msg rfl).carries hc⟩
  | recvCopied => exact delivers_append h more

private theorem calls_update (h : MqInv p b free chain place received) (c : Tid)
    (new : Option MqCall) (more : List (List UInt8))
    (hagree : ∀ t, t ≠ c → ∀ s, b.held t = some s → Agree p b.mem mem' s)
    (hnew : ∀ call, new = some call → CallOk p mem' (b.linked ++ more) call) (t : Tid)
    (call : MqCall) (hcall : update b.calls c new t = some call) :
    CallOk p mem' (b.linked ++ more) call := by
  by_cases htc : t = c
  · rw [htc, update_self] at hcall
    exact hnew call hcall
  · rw [update_of_ne htc] at hcall
    refine callOk_mono (h.calls t call hcall) ?_ more
    intro s hs
    exact hagree t htc s ((held_of_call hcall).trans hs)

private theorem calls_update_same (h : MqInv p b free chain place received) (c : Tid)
    (new : Option MqCall) (hagree : ∀ t, t ≠ c → ∀ s, b.held t = some s → Agree p b.mem mem' s)
    (hnew : ∀ call, new = some call → CallOk p mem' b.linked call) (t : Tid) (call : MqCall)
    (hcall : update b.calls c new t = some call) :
    CallOk p mem' b.linked call := by
  have hok := h.calls_update c new [] hagree (by simpa only [append_nil] using hnew) t call
    hcall
  rwa [append_nil] at hok

/-! ### The parts of the calls -/

/-- A call that returns an error, or blocks. -/
theorem idle (h : MqInv p b free chain place received) {new : Option MqCall}
    {log : List MqReturn} (hslot : new.bind MqCall.slot = b.held c)
    (hindex : new.bind MqCall.index = b.inHand c) (hlog : ∀ r ∈ log, Returns b.linked r)
    (hnew : ∀ call, new = some call → CallOk p b.mem b.linked call) :
    MqInv p { b with calls := update b.calls c new, log := log } free chain place
      received := by
  have hheld := bind_update_same b.calls c new MqCall.slot hslot
  have hhand := bind_update_same b.calls c new MqCall.index hindex
  exact ⟨⟨h.conserved.pool, h.conserved.slots.congr_held hheld, h.conserved.lists,
    h.conserved.order, h.conserved.received.congr_held hhand, h.conserved.delivers, hlog⟩,
    h.memory, h.taken_le, h.calls_update_same c new (fun _ _ _ _ _ _ _ => rfl) hnew⟩

private theorem held_of_none (hcall : b.calls c = none) : b.held c = none ∧ b.inHand c = none := by
  unfold MqState.held MqState.inHand
  rw [hcall]
  exact ⟨rfl, rfl⟩

variable (h : MqInv p b free chain place received)
include h

/-- A send takes a free slot. -/
theorem take (hcall : b.calls c = none) (hlen : bytes.length ≤ b.mq.msgSize)
    (hne : b.mq.msgQueueFree ≠ 0) (timeout : Int) :
    ∃ free' place', MqInv p
      ({ b with mq := b.tookMq }.setCall c (.sendTook b.mq.msgQueueFree bytes timeout))
      free' chain place' received := by
  obtain ⟨rest, hfree, hrep⟩ := h.conserved.lists.take hne
  obtain ⟨hnone, hnohand⟩ := held_of_none hcall
  have hplaced := h.conserved.slots.take
    (show mqLists free chain .free = b.mq.msgQueueFree :: rest from hfree) hnone
  rw [update_mqLists_free] at hplaced
  -- the call now holds the slot, and still no message
  have hheld := bind_update b.calls c (some (.sendTook b.mq.msgQueueFree bytes timeout))
    MqCall.slot
  have hhand := bind_update_same b.calls c (some (.sendTook b.mq.msgQueueFree bytes timeout))
    MqCall.index hnohand.symm
  dsimp only [MqState.setCall]
  refine ⟨rest, _, ⟨h.conserved.pool, hplaced.congr_held hheld, hrep, h.conserved.order,
    h.conserved.received.congr_held hhand, h.conserved.delivers, h.conserved.returns⟩, h.memory,
    h.taken_le, ?_⟩
  refine h.calls_update_same c _ (fun _ _ _ _ _ _ _ => rfl) ?_
  intro call hnew
  cases hnew
  have hsize : p.msgSize = b.mq.msgSize := by
    rw [← h.conserved.pool]
    rfl
  show bytes.length ≤ p.msgSize
  rw [hsize]
  exact hlen

variable {timeout : Int}

/-- A send fills its slot. -/
theorem fill (hcall : b.calls c = some (.sendTook msg bytes timeout)) :
    MqInv p
      ({ b with mem := msgQueueSendFill b.mem msg bytes }.setCall c
        (.sendFilled msg bytes timeout)) free chain place received := by
  have hlen : bytes.length ≤ p.msgSize := h.calls c _ hcall
  have hheld : b.held c = some msg := held_of_call hcall
  have hmsg := h.conserved.slots.mem_things_of_hand hheld
  -- the slots on the lists and in other hands are other slots
  have hagree : ∀ s ∈ free ++ chain, Agree p b.mem (msgQueueSendFill b.mem msg bytes) s := by
    intro s hs
    obtain ⟨hslot, hne⟩ := h.ne_of_held hheld hs
    exact agree_fill hslot hmsg hne hlen
  have hother : ∀ t, t ≠ c → ∀ s, b.held t = some s →
      Agree p b.mem (msgQueueSendFill b.mem msg bytes) s := by
    intro t htc s hs
    refine agree_fill (h.conserved.slots.mem_things_of_hand hs) hmsg ?_ hlen
    intro heq
    exact htc (h.conserved.slots.hand_inj hs (heq ▸ hheld))
  have hheld' := bind_update_same b.calls c (some (.sendFilled msg bytes timeout)) MqCall.slot
    hheld.symm
  have hhand' := bind_update_same b.calls c (some (.sendFilled msg bytes timeout)) MqCall.index
    (inHand_of_call hcall).symm
  refine ⟨⟨h.conserved.pool, h.conserved.slots.congr_held hheld', ?_, ?_,
    h.conserved.received.congr_held hhand', h.conserved.delivers, h.conserved.returns⟩, h.memory,
    h.taken_le, ?_⟩
  · exact h.conserved.lists.congr (fun s hs => (hagree s (mem_append_left _ hs)).next)
      fun s hs => (hagree s (mem_append_right _ hs)).next
  · exact order_congr h.conserved.order fun s hs _ =>
      (hagree s (mem_append_right _ hs)).carries
  · refine h.calls_update_same c _ hother ?_
    intro call hnew
    cases hnew
    exact ⟨carries_fill hlen, nextSlot_fill⟩

private theorem agree_linkMem (hs : s ∈ p.slots) (hchain : s ∉ chain) (msg : Nat) :
    Agree p b.mem (b.linkMem msg) s := by
  unfold MqState.linkMem
  split
  · rename_i htail
    have hin := h.conserved.lists.tail_mem htail
    exact agree_store hs (h.chain_slot hin) (fun heq => hchain (heq ▸ hin)) msg
  · exact fun _ _ _ => rfl

private theorem carries_linkMem (hs : s ∈ p.slots) (hc : Carries p b.mem s bytes) (msg : Nat) :
    Carries p (b.linkMem msg) s bytes := by
  unfold MqState.linkMem
  split
  · rename_i htail
    by_cases heq : s = b.mq.msgQueueTail
    · rw [← heq]
      exact carries_store hc msg
    · have hin := h.conserved.lists.tail_mem htail
      exact (agree_store hs (h.chain_slot hin) heq msg).carries hc
  · exact hc

/-- A send links its slot. -/
theorem link (hcall : b.calls c = some (.sendFilled msg bytes timeout)) :
    ∃ place', MqInv p
      ({ b with
          mq := b.linkMq msg
          mem := b.linkMem msg
          linked := b.linked ++ [bytes] }.finish c (.send bytes timeout) .eok none)
      free (chain ++ [msg]) place' received := by
  obtain ⟨hcarries, hnext⟩ : Carries p b.mem msg bytes ∧ nextSlot b.mem msg = 0 :=
    h.calls c _ hcall
  have hheld : b.held c = some msg := held_of_call hcall
  have hmsg := h.conserved.slots.mem_things_of_hand hheld
  have hplaced := h.conserved.slots.put hheld
    (show (chain ++ [msg]).Perm (msg :: mqLists free chain .chain) from
      perm_append_singleton msg chain)
  rw [update_mqLists_chain] at hplaced
  -- the chain has at most one entry for each slot
  have hlen : chain.length + 1 < 2 ^ 16 := by
    have hle : (chain ++ [msg]).length ≤ p.maxMsgs :=
      MsgPool.length_le (hplaced.nodup .chain) fun s hs =>
        hplaced.mem_things_of_list (show s ∈ mqLists free (chain ++ [msg]) .chain from hs)
    rw [length_append] at hle
    exact Nat.lt_of_le_of_lt hle h.memory.max_lt
  have hrep := h.conserved.lists.link hmsg h.memory (fun _ => h.ne_of_held hheld) h.lists_nodup
    hnext hlen
  have hheld' := bind_update b.calls c none MqCall.slot
  have hhand' := bind_update_same b.calls c none MqCall.index (inHand_of_call hcall).symm
  dsimp only [MqState.finish]
  refine ⟨_, ⟨h.conserved.pool, hplaced.congr_held hheld', hrep, ?_,
    h.conserved.received.congr_held hhand', ?_, ?_⟩, h.memory, ?_, ?_⟩
  · dsimp only
    rw [drop_append_of_le_length h.taken_le]
    refine rel_append ?_ (.cons (h.carries_linkMem hmsg hcarries msg) .nil)
    exact order_congr h.conserved.order fun s hs _ hc => h.carries_linkMem (h.chain_slot hs) hc msg
  · exact fun d hd => delivers_append (h.conserved.delivers d hd) [bytes]
  · exact forall_mem_snoc (fun r hr => returns_append (h.conserved.returns r hr) [bytes])
      (returns_send bytes timeout)
  · rw [length_append]
    exact Nat.le_add_right_of_le h.taken_le
  · refine h.calls_update c none [bytes] ?_ (fun _ hnew => nomatch hnew)
    intro t _ s hs
    exact h.agree_linkMem (h.conserved.slots.mem_things_of_hand hs)
      (h.conserved.slots.notMem_of_hand hs .chain) msg

/-- A receive unlinks a slot. -/
theorem unlink (hcall : b.calls c = none ∨ b.calls c = some (.recvBlocked size timeout))
    (hne : b.mq.entry ≠ 0) :
    ∃ chain' place' received',
      MqInv p (b.unlinked c size timeout b.mq.msgQueueHead b.unlinkMq) free chain' place'
        received' := by
  obtain ⟨-, rest, rfl, hrep⟩ := h.conserved.lists.unlink hne
  obtain ⟨hnone, hnohand⟩ : b.held c = none ∧ b.inHand c = none := by
    cases hcall with
    | inl hcall => exact held_of_none hcall
    | inr hcall => exact ⟨held_of_call hcall, inHand_of_call hcall⟩
  have hplaced := h.conserved.slots.take
    (show mqLists free (b.mq.msgQueueHead :: rest) .chain = b.mq.msgQueueHead :: rest from rfl)
    hnone
  rw [update_mqLists_chain] at hplaced
  -- the slot holds the first message that has not been unlinked
  obtain ⟨m, messages, hcarries, horder, hdrop⟩ :=
    List.forall₂_cons_left_iff.mp h.conserved.order
  have hget : b.linked[b.taken]? = some m := by
    rw [← head?_drop, hdrop]
    rfl
  have htaken : b.taken + 1 ≤ b.linked.length := (List.getElem?_eq_some_iff.mp hget).1
  have hcreated := h.conserved.received.create
    (show b.taken ∉ { n | n < b.taken } from Nat.lt_irrefl b.taken) hnohand
  have hmore : insert b.taken { n | n < b.taken } = { n | n < b.taken + 1 } := by
    ext n
    simp only [Set.mem_insert_iff, Set.mem_ofPred_eq]
    omega
  rw [hmore] at hcreated
  have hheld' := bind_update b.calls c
    (some (.recvTook b.mq.msgQueueHead size b.taken timeout)) MqCall.slot
  have hhand' := bind_update b.calls c
    (some (.recvTook b.mq.msgQueueHead size b.taken timeout)) MqCall.index
  dsimp only [MqState.unlinked, MqState.setCall]
  refine ⟨rest, _, _, ⟨h.conserved.pool, hplaced.congr_held hheld', hrep, ?_,
    hcreated.congr_held hhand', h.conserved.delivers, h.conserved.returns⟩, h.memory, htaken, ?_⟩
  · dsimp only
    rw [← tail_drop, hdrop]
    exact horder
  · refine h.calls_update_same c _ (fun _ _ _ _ _ _ _ => rfl) ?_
    intro call hnew
    cases hnew
    exact ⟨m, hget, hcarries⟩

theorem copy {index : Nat} (hcall : b.calls c = some (.recvTook msg size index timeout)) :
    ∃ received', MqInv p
      (b.copied c msg timeout ⟨index, size, msgQueueRecvCopy b.mq b.mem msg size⟩) free chain place
      received' := by
  obtain ⟨m, hget, hcarries⟩ : ∃ m, b.linked[index]? = some m ∧ Carries p b.mem msg m :=
    h.calls c _ hcall
  have hsize : b.mq.msgSize = p.msgSize := by
    rw [← h.conserved.pool]
    rfl
  have hdelivers : Delivers b.linked ⟨index, size, msgQueueRecvCopy b.mq b.mem msg size⟩ :=
    ⟨m, hget, hcarries.take_copy hsize size⟩
  -- the message goes from the hand of the call to those that have been delivered
  have hput := h.conserved.received.put (i := ())
    (show b.inHand c = some index from inHand_of_call hcall)
    (perm_append_singleton index (b.delivered.map Delivery.index))
  have hlists : update (fun _ : Unit => b.delivered.map Delivery.index) ()
      (b.delivered.map Delivery.index ++ [index]) =
        fun _ => (b.delivered ++
          [Delivery.mk index size (msgQueueRecvCopy b.mq b.mem msg size)]).map Delivery.index := by
    funext i
    rw [update_self, map_append]
    rfl
  rw [hlists] at hput
  -- the slot stays with the call until it is given back
  have hheld' := bind_update_same b.calls c
    (some (.recvCopied msg size index (msgQueueRecvCopy b.mq b.mem msg size) timeout)) MqCall.slot
    (held_of_call hcall).symm
  have hhand' := bind_update b.calls c
    (some (.recvCopied msg size index (msgQueueRecvCopy b.mq b.mem msg size) timeout))
    MqCall.index
  dsimp only [MqState.copied, MqState.setCall]
  refine ⟨_, ⟨h.conserved.pool, h.conserved.slots.congr_held hheld', h.conserved.lists,
    h.conserved.order, hput.congr_held hhand', ?_, h.conserved.returns⟩, h.memory, h.taken_le, ?_⟩
  · exact forall_mem_snoc h.conserved.delivers hdelivers
  · refine h.calls_update_same c _ (fun _ _ _ _ _ _ _ => rfl) ?_
    intro call hnew
    cases hnew
    exact hdelivers

/-- A receive gives its slot back. -/
theorem giveBack {index : Nat} (hcall : b.calls c = some
    (.recvCopied msg size index bytes timeout)) :
    ∃ place', MqInv p
      ({ b with
          mq := { b.mq with msgQueueFree := msg }
          mem := store b.mem 8 msg b.mq.msgQueueFree }.finish c (.recv size timeout) .eok
            (some bytes))
      (msg :: free) chain place' received := by
  have hheld : b.held c = some msg := held_of_call hcall
  have hmsg := h.conserved.slots.mem_things_of_hand hheld
  have hplaced := h.conserved.slots.put hheld (List.Perm.refl (msg :: mqLists free chain .free))
  rw [update_mqLists_free] at hplaced
  have hrep := h.conserved.lists.giveBack hmsg h.memory fun _ => h.ne_of_held hheld
  have hheld' := bind_update b.calls c none MqCall.slot
  have hhand' := bind_update_same b.calls c none MqCall.index (inHand_of_call hcall).symm
  dsimp only [MqState.finish]
  refine ⟨_, ⟨h.conserved.pool, hplaced.congr_held hheld', hrep, ?_,
    h.conserved.received.congr_held hhand', h.conserved.delivers, ?_⟩, h.memory, h.taken_le, ?_⟩
  · -- the link is written to the slot of the call only, so the queued messages stay
    refine order_congr h.conserved.order fun s hs _ => ?_
    obtain ⟨hslot, hne⟩ := h.ne_of_held hheld (mem_append_right free hs)
    exact (agree_store hslot hmsg hne _).carries
  · refine forall_mem_snoc h.conserved.returns ?_
    intro size' timeout' heq _
    cases heq
    exact ⟨index, bytes, rfl, h.calls c _ hcall⟩
  · -- nor does it reach the slots that other calls hold
    refine h.calls_update_same c none ?_ (fun _ hnew => nomatch hnew)
    intro t htc s hs
    refine agree_store (h.conserved.slots.mem_things_of_hand hs) hmsg ?_ _
    intro heq
    exact htc (h.conserved.slots.hand_inj hs (heq ▸ hheld))

/-- Every part of a call keeps the invariant. -/
theorem part {fuel : Nat} {k k' : Kernel} {e : MqEnd} {b' : MqState}
    (hpart : b.Part fuel k c e k' b') :
    ∃ free' chain' place' received', MqInv p b' free' chain' place' received' := by
  cases hpart with
  | sendError bytes timeout code _ hcall =>
    obtain ⟨hnone, hnohand⟩ := held_of_none hcall
    exact ⟨_, _, _, _, h.idle hnone.symm hnohand.symm
      (forall_mem_snoc h.conserved.returns (returns_send bytes timeout))
      (fun _ hnew => nomatch hnew)⟩
  | take bytes timeout hcall hlen hne =>
    obtain ⟨free', place', h'⟩ := h.take hcall hlen hne timeout
    exact ⟨free', chain, place', received, h'⟩
  | fill msg bytes timeout hcall => exact ⟨_, _, _, _, h.fill hcall⟩
  | link msg bytes timeout hcall _ =>
    obtain ⟨place', h'⟩ := h.link hcall
    exact ⟨free, _, place', received, h'⟩
  | recvNone size hcall _ =>
    obtain ⟨hnone, hnohand⟩ := held_of_none hcall
    exact ⟨_, _, _, _, h.idle hnone.symm hnohand.symm
      (forall_mem_snoc h.conserved.returns returns_error) (fun _ hnew => nomatch hnew)⟩
  | recvAgain size timeout hcall _ =>
    exact ⟨_, _, _, _, h.idle (held_of_call hcall).symm (inHand_of_call hcall).symm
      (forall_mem_snoc h.conserved.returns returns_error) (fun _ hnew => nomatch hnew)⟩
  | block size timeout hcall _ _ =>
    obtain ⟨hnone, hnohand⟩ := held_of_none hcall
    refine ⟨_, _, _, _, h.idle hnone.symm hnohand.symm h.conserved.returns ?_⟩
    intro call hnew
    cases hnew
    trivial
  | unlink size timeout hcall hne =>
    obtain ⟨chain', place', received', h'⟩ := h.unlink hcall hne
    exact ⟨free, chain', place', received', h'⟩
  | copy msg size index timeout hcall =>
    obtain ⟨received', h'⟩ := h.copy hcall
    exact ⟨free, chain, place, received', h'⟩
  | giveBack msg size index bytes timeout hcall _ =>
    obtain ⟨place', h'⟩ := h.giveBack hcall
    exact ⟨_, chain, place', received, h'⟩

end MqInv

/-- The queue has been initialised on a pool in memory, and no call has been made. -/
structure MqState.Initial (b : MqState) : Prop where
  mq : ∃ mem msgpool msgSize poolSize flag, msgpool ≠ 0 ∧ msgpool + poolSize ≤ 2 ^ 64 ∧
    (b.mq, b.mem) = skMsgQueueInit mem msgpool msgSize poolSize flag
  calls : b.calls = fun _ => none
  linked : b.linked = []
  taken : b.taken = 0
  delivered : b.delivered = []
  log : b.log = []

/-- At first all slots are free. -/
theorem MqInv.init {b : MqState} (h : b.Initial) :
    ∃ free place received, MqInv (poolOf b.mq) b free [] place received := by
  obtain ⟨mem, msgpool, msgSize, poolSize, flag, hpos, hle, hinit⟩ := h.mq
  obtain ⟨hmemory, free, hrep, hfree⟩ := skMsgQueueInit_rep hinit hpos hle
  have hslots : Located (poolOf b.mq).slots (mqLists free []) b.held
      (fun _ => (.list .free : Place MqList Tid)) := by
    refine ⟨?_, ?_, ?_⟩
    · intro i
      cases i with
      | free => exact hrep.free_linked.nodup
      | chain => exact nodup_nil
    · intro i s
      cases i with
      | free => simp [mqLists, hfree]
      | chain => simp [mqLists]
    · intro t s
      simp [MqState.held, h.calls]
  have hreceived : Located { n | n < b.taken } (fun _ => b.delivered.map Delivery.index) b.inHand
      (fun _ => (.list () : Place Unit Tid)) := by
    refine ⟨?_, ?_, ?_⟩
    · intro _
      simp [h.delivered]
    · intro _ n
      simp [h.delivered, h.taken]
    · intro t n
      simp [MqState.inHand, h.calls]
  refine ⟨free, _, _, ⟨rfl, hslots, hrep, ?_, hreceived, ?_, ?_⟩, hmemory, ?_, ?_⟩
  · rw [h.linked, h.taken]
    exact .nil
  · simp [h.delivered]
  · simp [h.log]
  · rw [h.taken]
    exact Nat.zero_le _
  · intro t call hcall
    rw [h.calls] at hcall
    cases hcall

/-! ## Runs -/

/-- The kernel and the message queue. -/
structure MqSys where
  k : Kernel
  b : MqState

/-- The first or the next part of a call of the current thread, and any change of the rest of the
    kernel. -/
inductive MqOp where
  | call (request : MqRequest) (fuel : Nat)
  | next
  | kernel (k : Kernel)

/-- The state after an event. -/
def MqSys.step (x : MqSys) : MqOp → Option MqSys
  | .call request fuel =>
    x.k.sched.currentThread.bind fun c =>
      if (x.b.calls c).isNone then
        (x.b.begin fuel x.k c request).map fun (_, k, b) => { k, b }
      else none
  | .next =>
    x.k.sched.currentThread.bind fun c => (x.b.next x.k c).map fun (_, k, b) => { k, b }
  | .kernel k => some { x with k := k }

/-- The system: at first the queue has been initialised. -/
def mqSystem : TransitionSystem MqSys MqOp where
  init x := x.b.Initial
  step := MqSys.step

variable {x x' : MqSys} {op : MqOp}

theorem MqSys.step_cases (h : x.step op = some x') :
    x'.b = x.b ∨ ∃ fuel c e, x.b.Part fuel x.k c e x'.k x'.b := by
  cases op with
  | call request fuel =>
    obtain ⟨c, -, hcall⟩ := bind_eq_some_iff.mp h
    obtain ⟨hnone, hcall⟩ := ite_none_right_eq_some.mp hcall
    obtain ⟨⟨e, k, b⟩, hbegin, rfl⟩ := map_eq_some_iff.mp hcall
    exact .inr ⟨fuel, c, e, MqState.begin_cases (isNone_iff_eq_none.mp hnone) hbegin⟩
  | next =>
    obtain ⟨c, -, hnext⟩ := bind_eq_some_iff.mp h
    obtain ⟨⟨e, k, b⟩, hpart, rfl⟩ := map_eq_some_iff.mp hnext
    exact .inr ⟨0, c, e, MqState.next_cases hpart⟩
  | kernel k =>
    cases h
    exact .inl rfl

theorem MqInv.of_reach (h : mqSystem.Reach (fun _ _ => True) x) :
    ∃ p free chain place received, MqInv p x.b free chain place received := by
  refine h.invariant
    (I := fun x => ∃ p free chain place received, MqInv p x.b free chain place received) ?_ ?_
  · intro y hinit
    obtain ⟨free, place, received, hinv⟩ := MqInv.init hinit
    exact ⟨_, _, _, _, _, hinv⟩
  · rintro y op y' ⟨p, free, chain, place, received, hinv⟩ - hstep
    cases MqSys.step_cases hstep with
    | inl hsame =>
      rw [hsame]
      exact ⟨p, free, chain, place, received, hinv⟩
    | inr hpart =>
      obtain ⟨fuel, c, e, hpart⟩ := hpart
      exact ⟨p, hinv.part hpart⟩

/-- **Message queue conservation.** In every interleaving of the parts of sends and receives,
    every slot is in exactly one place, `entry` counts the chain from `msg_queue_head` to
    `msg_queue_tail`, and the messages are received once, in order and unaltered. -/
theorem msg_queue_conservation (h : mqSystem.Reach (fun _ _ => True) x) :
    ∃ p free chain place received, x.b.Conserved p free chain place received := by
  obtain ⟨p, free, chain, place, received, hinv⟩ := MqInv.of_reach h
  exact ⟨p, free, chain, place, received, hinv.conserved⟩

/-- A queue with two slots for messages of up to two bytes. -/
def twoMessages : MqState where
  mq := (skMsgQueueInit (fun _ => 0) 0x1000 2 20 ipcFlagFifo).1
  mem := (skMsgQueueInit (fun _ => 0) 0x1000 2 20 ipcFlagFifo).2
  calls := fun _ => none
  linked := []
  taken := 0
  delivered := []
  log := []

theorem twoMessages_initial : twoMessages.Initial where
  mq := ⟨fun _ => 0, 0x1000, 2, 20, ipcFlagFifo, by decide, by decide, rfl⟩
  calls := rfl
  linked := rfl
  taken := rfl
  delivered := rfl
  log := rfl

/-- Thread 1 takes a slot; before it fills it, thread 0 sends a message. Thread 1 links its
    message second, and receives the first byte of the message of thread 0. -/
theorem msg_queue_conservation_two :
    ∃ x, mqSystem.Reach (fun _ _ => True) x ∧ x.b.linked = [[3, 4], [5]] ∧
      x.b.delivered = [⟨0, 1, [3]⟩] ∧
      ∃ p free chain place received, x.b.Conserved p free chain place received := by
  have hinit : mqSystem.Reach (fun _ _ => True) { k := startedKernel 32, b := twoMessages } :=
    .init twoMessages_initial
  let k0 := { startedKernel 32 with
    sched := { (startedKernel 32).sched with currentThread := some 0 } }
  obtain ⟨x, hx, hp⟩ := hinit.exists_of_run
    [.call (.send [5] 0) 0, .kernel k0, .call (.send [3, 4] 0) 0, .next, .next,
      .kernel (startedKernel 32), .next, .next, .call (.recv 1 0) 0, .next, .next]
    (fun x => x.b.linked = [[3, 4], [5]] ∧ x.b.delivered = [⟨0, 1, [3]⟩]) (by decide +kernel)
  obtain ⟨hlinked, hdelivered⟩ := of_decide_eq_true hp
  exact ⟨x, hx, hlinked, hdelivered, msg_queue_conservation hx⟩

end SKernel.Spec
