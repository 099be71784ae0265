import SKernel.Spec.MsgQueueCorrect

/-!
# What a receiver sees of other messages

Two runs of a message queue side by side: the same calls are made in the same order, and only the
messages that are sent differ. The runs keep in step, since no branch of the code looks at the
contents of a message: the same slots are taken, linked and given back, and the calls return the
same codes.

A receive copies out `min(size, msg_size)` bytes, however short the message is. What stands behind
the bytes of the message is what the slot held before, so a message that does not fill the buffer
brings along bytes of an earlier one.
-/

namespace SKernel.Spec

open Native ByteMem Circular Chain Places Function List

/-! ## Two runs -/

/-- The same call up to the contents of the message: both messages fit into a slot, or neither
    does. -/
def SameRequest (msgSize : Nat) : MqRequest → MqRequest → Prop
  | .send bytes timeout, .send bytes' timeout' =>
    (bytes.length ≤ msgSize ↔ bytes'.length ≤ msgSize) ∧ timeout = timeout'
  | .recv size timeout, .recv size' timeout' => size = size' ∧ timeout = timeout'
  | .send .., .recv .. | .recv .., .send .. => False

instance (msgSize : Nat) (r r' : MqRequest) : Decidable (SameRequest msgSize r r') :=
  match r, r' with
  | .send .., .send .. | .recv .., .recv .. => inferInstanceAs (Decidable (_ ∧ _))
  | .send .., .recv .. | .recv .., .send .. => inferInstanceAs (Decidable False)

/-- An event in both runs; a call may send different messages. -/
inductive TwinOp where
  | call (request request' : MqRequest) (fuel : Nat)
  | next
  | kernel (k : Kernel)

/-- The event in the first run. -/
def TwinOp.left : TwinOp → MqOp
  | .call request _ fuel => .call request fuel
  | .next => .next
  | .kernel k => .kernel k

/-- The event in the second run. -/
def TwinOp.right : TwinOp → MqOp
  | .call _ request' fuel => .call request' fuel
  | .next => .next
  | .kernel k => .kernel k

/-- Two runs of one message queue. -/
structure TwinSys where
  x : MqSys
  y : MqSys

/-- The runs differ only in the contents of messages. -/
def TwinSys.SameOp (z : TwinSys) : TwinOp → Prop
  | .call request request' _ => SameRequest z.x.b.mq.msgSize request request'
  | .next | .kernel _ => True

instance (z : TwinSys) (op : TwinOp) : Decidable (z.SameOp op) :=
  match op with
  | .call .. => inferInstanceAs (Decidable (SameRequest ..))
  | .next | .kernel _ => inferInstanceAs (Decidable True)

/-- The state after an event that is possible in both runs. -/
def TwinSys.step (z : TwinSys) (op : TwinOp) : Option TwinSys :=
  (z.x.step op.left).bind fun x => (z.y.step op.right).map fun y => { x, y }

/-- The two runs begin with the same initialised queue. -/
def twinSystem : TransitionSystem TwinSys TwinOp where
  init z := mqSystem.init z.x ∧ z.x = z.y
  step := TwinSys.step

/-! ## States that differ in the contents of messages -/

/-- The same point of the same call. -/
inductive SameCall (msgSize : Nat) : MqCall → MqCall → Prop where
  | sendTook (msg : Nat) (bytes bytes' : List UInt8) (timeout : Int)
      (hlen : bytes.length ≤ msgSize ↔ bytes'.length ≤ msgSize) :
      SameCall msgSize (.sendTook msg bytes timeout) (.sendTook msg bytes' timeout)
  | sendFilled (msg : Nat) (bytes bytes' : List UInt8) (timeout : Int)
      (hlen : bytes.length ≤ msgSize ↔ bytes'.length ≤ msgSize) :
      SameCall msgSize (.sendFilled msg bytes timeout) (.sendFilled msg bytes' timeout)
  | recvBlocked (size : Nat) (timeout : Int) :
      SameCall msgSize (.recvBlocked size timeout) (.recvBlocked size timeout)
  | recvTook (msg size index : Nat) (timeout : Int) :
      SameCall msgSize (.recvTook msg size index timeout) (.recvTook msg size index timeout)
  | recvCopied (msg size index : Nat) (bytes bytes' : List UInt8) (timeout : Int) :
      SameCall msgSize (.recvCopied msg size index bytes timeout)
        (.recvCopied msg size index bytes' timeout)

/-- The same call has come to the same end. -/
structure SameReturn (msgSize : Nat) (r r' : MqReturn) : Prop where
  request : SameRequest msgSize r.request r'.request
  code : r.code = r'.code

/-- The same message has been copied into a buffer of the same size, as long as the code
    computes. -/
structure SameDelivery (msgSize : Nat) (d d' : Delivery) : Prop where
  index : d.index = d'.index
  size : d.size = d'.size
  length : d.bytes.length = min d.size msgSize
  length' : d'.bytes.length = min d'.size msgSize

/-- Only the contents of messages differ: the pointers in the slots agree. -/
structure TwinState (p : MsgPool) (b b' : MqState) : Prop where
  mq : b.mq = b'.mq
  pointers : ∀ s ∈ p.slots, nextSlot b.mem s = nextSlot b'.mem s
  calls : ∀ t, Option.Rel (SameCall p.msgSize) (b.calls t) (b'.calls t)
  taken : b.taken = b'.taken
  log : List.Forall₂ (SameReturn p.msgSize) b.log b'.log
  delivered : List.Forall₂ (SameDelivery p.msgSize) b.delivered b'.delivered

/-- The invariant holds of a state, with some lists of slots. -/
def MqState.Sane (p : MsgPool) (b : MqState) : Prop :=
  ∃ free chain place received, MqInv p b free chain place received

/-- The same kernel, and queues that differ only in the contents of messages. -/
def TwinEnd (p : MsgPool) (r r' : MqEnd × Kernel × MqState) : Prop :=
  r.2.1 = r'.2.1 ∧ TwinState p r.2.2 r'.2.2

variable {p : MsgPool} {b b' : MqState} {k : Kernel} {c : Tid} {fuel msg size : Nat}
variable {timeout : Int} {call : MqCall} {bytes : List UInt8} {d : Delivery}
variable {request request' : MqRequest}

theorem forall₂_snoc {α β : Type} {R : α → β → Prop} {l : List α} {l' : List β} {a : α} {a' : β}
    (h : List.Forall₂ R l l') (ha : R a a') : List.Forall₂ R (l ++ [a]) (l' ++ [a']) :=
  rel_append h (.cons ha .nil)

namespace MqState.Sane

section

variable (h : b.Sane p)
include h

theorem msgSize : b.mq.msgSize = p.msgSize := by
  obtain ⟨_, _, _, _, hinv⟩ := h
  rw [← hinv.conserved.pool]
  rfl

theorem free_slot (hne : b.mq.msgQueueFree ≠ 0) : b.mq.msgQueueFree ∈ p.slots := by
  obtain ⟨_, _, _, _, hinv⟩ := h
  obtain ⟨rest, hfree, -⟩ := hinv.conserved.lists.take hne
  apply hinv.free_slot
  rw [hfree]
  exact mem_cons_self

private theorem head_slot (hne : b.mq.entry ≠ 0) : b.mq.msgQueueHead ∈ p.slots := by
  obtain ⟨_, _, _, _, hinv⟩ := h
  obtain ⟨-, rest, hchain, -⟩ := hinv.conserved.lists.unlink hne
  apply hinv.chain_slot
  rw [hchain]
  exact mem_cons_self

private theorem tail_slot (hne : b.mq.msgQueueTail ≠ 0) : b.mq.msgQueueTail ∈ p.slots := by
  obtain ⟨_, _, _, _, hinv⟩ := h
  exact hinv.chain_slot (hinv.conserved.lists.tail_mem hne)

private theorem held_slot (hcall : b.calls c = some call)
    (hslot : call.slot = some msg) : msg ∈ p.slots := by
  obtain ⟨_, _, _, _, hinv⟩ := h
  exact hinv.conserved.slots.mem_things_of_hand ((MqInv.held_of_call hcall).trans hslot)

private theorem took_length (hcall : b.calls c = some
    (.sendTook msg bytes timeout)) : bytes.length ≤ p.msgSize := by
  obtain ⟨_, _, _, _, hinv⟩ := h
  exact hinv.calls c _ hcall

theorem delivers (hd : d ∈ b.delivered) : Delivers b.linked d := by
  obtain ⟨_, _, _, _, hinv⟩ := h
  exact hinv.conserved.delivers d hd

/-- As many bytes as the buffer and the slots hold. -/
theorem length_copy : (msgQueueRecvCopy b.mq b.mem msg size).length = min size p.msgSize := by
  unfold msgQueueRecvCopy
  rw [length_slice, h.msgSize]
  split <;> omega

end

/-- Every event keeps the invariant. -/
theorem step {x x' : MqSys} {op : MqOp} (h : x.b.Sane p) (hstep : x.step op = some x') :
    x'.b.Sane p := by
  cases MqSys.step_cases hstep with
  | inl hsame =>
    rw [hsame]
    exact h
  | inr hpart =>
    obtain ⟨_, _, _, hpart⟩ := hpart
    obtain ⟨_, _, _, _, hinv⟩ := h
    exact hinv.part hpart

end MqState.Sane

private theorem nextSlot_store {mem mem' : Mem} {msg v s : Nat}
    (h : ∀ s ∈ p.slots, nextSlot mem s = nextSlot mem' s) (hmsg : msg ∈ p.slots)
    (hs : s ∈ p.slots) : nextSlot (store mem 8 msg v) s = nextSlot (store mem' 8 msg v) s := by
  by_cases heq : s = msg
  · rw [heq]
    unfold nextSlot
    rw [load_store, load_store]
  · rw [(agree_store hs hmsg heq v).next, (agree_store hs hmsg heq v).next]
    exact h s hs

namespace TwinState

variable (h : TwinState p b b')
include h

theorem setCall {call' : MqCall} (hcall : SameCall p.msgSize call call') :
    TwinState p (b.setCall c call) (b'.setCall c call') :=
  ⟨h.mq, h.pointers, forall_update₂ _ (.some hcall) fun t _ => h.calls t, h.taken, h.log,
    h.delivered⟩

theorem finish {code : SkErr} {bytes bytes' : Option (List UInt8)}
    (hsame : SameRequest p.msgSize request request') :
    TwinState p (b.finish c request code bytes) (b'.finish c request' code bytes') :=
  ⟨h.mq, h.pointers, forall_update₂ _ .none fun t _ => h.calls t, h.taken,
    forall₂_snoc h.log ⟨hsame, rfl⟩, h.delivered⟩

private theorem setMq (mq : MsgQueue) : TwinState p { b with mq := mq } { b' with mq := mq } :=
  ⟨rfl, h.pointers, h.calls, h.taken, h.log, h.delivered⟩

theorem unlinked (c : Tid) (size : Nat) (timeout : Int) (msg : Nat) (mq : MsgQueue) :
    TwinState p (b.unlinked c size timeout msg mq) (b'.unlinked c size timeout msg mq) := by
  have htaken : TwinState p { b with mq := mq, taken := b.taken + 1 }
      { b' with mq := mq, taken := b'.taken + 1 } :=
    ⟨rfl, h.pointers, h.calls, congrArg (· + 1) h.taken, h.log, h.delivered⟩
  unfold MqState.unlinked
  rw [h.taken]
  rw [h.taken] at htaken
  exact htaken.setCall (.recvTook ..)

theorem copied {d' : Delivery} (hd : SameDelivery p.msgSize d d') :
    TwinState p (b.copied c msg timeout d) (b'.copied c msg timeout d') := by
  have hdelivered : TwinState p { b with delivered := b.delivered ++ [d] }
      { b' with delivered := b'.delivered ++ [d'] } :=
    ⟨h.mq, h.pointers, h.calls, h.taken, h.log, forall₂_snoc h.delivered hd⟩
  unfold MqState.copied
  rw [hd.index, hd.size]
  exact hdelivered.setCall (.recvCopied ..)

/-- Both sends take the same slot. -/
theorem sendTake (hb : b.Sane p) {n n' : Nat} (hlen : n ≤ p.msgSize ↔ n' ≤ p.msgSize) :
    msgQueueSendTake b.mq b.mem n timeout = msgQueueSendTake b'.mq b'.mem n' timeout := by
  unfold msgQueueSendTake
  rw [← h.mq, hb.msgSize]
  by_cases hn : n ≤ p.msgSize
  · rw [if_neg (Nat.not_lt.mpr hn), if_neg (Nat.not_lt.mpr (hlen.mp hn))]
    dsimp only
    by_cases hfree : b.mq.msgQueueFree = 0
    · simp only [hfree, if_true]
    · have hnext : load b.mem 8 b.mq.msgQueueFree = load b'.mem 8 b.mq.msgQueueFree :=
        h.pointers _ (hb.free_slot hfree)
      rw [hnext]
  · rw [if_pos (Nat.lt_of_not_le hn), if_pos (Nat.lt_of_not_le (mt hlen.mpr hn))]

private theorem recvUnlink (hb : b.Sane p) :
    msgQueueRecvUnlink b.mq b.mem = msgQueueRecvUnlink b'.mq b'.mem := by
  unfold msgQueueRecvUnlink
  rw [← h.mq]
  by_cases hempty : b.mq.entry = 0
  · rw [if_pos hempty, if_pos hempty]
  · have hnext : load b.mem 8 b.mq.msgQueueHead = load b'.mem 8 b.mq.msgQueueHead :=
      h.pointers _ (hb.head_slot hempty)
    dsimp only
    rw [hnext]

theorem begin (hb : b.Sane p) (hsame : SameRequest p.msgSize request request') :
    Option.Rel (TwinEnd p) (b.begin fuel k c request) (b'.begin fuel k c request') := by
  match request, request', hsame with
  | .send bytes timeout, .send bytes' _, ⟨hlen, rfl⟩ =>
    dsimp only [MqState.begin]
    rw [← h.sendTake hb hlen]
    rcases msgQueueSendTake b.mq b.mem _ timeout with - | (code | ⟨msg, mq⟩)
    · exact .none
    · exact .some ⟨rfl, h.finish ⟨hlen, rfl⟩⟩
    · exact .some ⟨rfl, (h.setMq mq).setCall (.sendTook msg _ _ timeout hlen)⟩
  | .recv size timeout, .recv _ _, ⟨rfl, rfl⟩ =>
    dsimp only [MqState.begin]
    unfold msgQueueRecvBegin
    rw [h.recvUnlink hb, ← h.mq]
    split
    · exact .some ⟨rfl, h.finish ⟨rfl, rfl⟩⟩
    · split
      · rcases ipcBlock fuel k mqReceivers b.mq.flag timeout with - | k'
        · exact .none
        · exact .some ⟨rfl, h.setCall (.recvBlocked size timeout)⟩
      · rcases msgQueueRecvUnlink b.mq b'.mem with - | (code | ⟨msg, mq⟩)
        · exact .none
        · exact .some ⟨rfl, h.finish ⟨rfl, rfl⟩⟩
        · exact .some ⟨rfl, h.unlinked c size timeout msg mq⟩

/-- Both sends fill their slot. -/
theorem fill (hmsg : msg ∈ p.slots) {bytes' : List UInt8} (hlen : bytes.length ≤ p.msgSize)
    (hlen' : bytes'.length ≤ p.msgSize) :
    TwinState p { b with mem := msgQueueSendFill b.mem msg bytes }
      { b' with mem := msgQueueSendFill b'.mem msg bytes' } := by
  refine ⟨h.mq, ?_, h.calls, h.taken, h.log, h.delivered⟩
  intro s hs
  by_cases heq : s = msg
  · dsimp only
    rw [heq, nextSlot_fill, nextSlot_fill]
  · dsimp only
    rw [(agree_fill hs hmsg heq hlen).next, (agree_fill hs hmsg heq hlen').next]
    exact h.pointers s hs

/-- Both sends link their slot. -/
theorem link (hb : b.Sane p) (msg : Nat) (linked linked' : List (List UInt8)) :
    TwinState p { b with mq := b.linkMq msg, mem := b.linkMem msg, linked := linked }
      { b' with mq := b'.linkMq msg, mem := b'.linkMem msg, linked := linked' } := by
  have hmq : b.linkMq msg = b'.linkMq msg := by
    unfold MqState.linkMq
    rw [h.mq]
  refine ⟨hmq, ?_, h.calls, h.taken, h.log, h.delivered⟩
  intro s hs
  dsimp only [MqState.linkMem]
  rw [← h.mq]
  split
  · rename_i htail
    exact nextSlot_store h.pointers (hb.tail_slot htail) hs
  · exact h.pointers s hs

/-- Both receives give their slot back. -/
theorem giveBack (hmsg : msg ∈ p.slots) :
    TwinState p
      { b with
        mq := { b.mq with msgQueueFree := msg }
        mem := store b.mem 8 msg b.mq.msgQueueFree }
      { b' with
        mq := { b'.mq with msgQueueFree := msg }
        mem := store b'.mem 8 msg b'.mq.msgQueueFree } := by
  rw [← h.mq]
  exact ⟨rfl, fun s hs => nextSlot_store h.pointers hmsg hs, h.calls, h.taken, h.log, h.delivered⟩

theorem next (hb : b.Sane p) (hb' : b'.Sane p) :
    Option.Rel (TwinEnd p) (b.next k c) (b'.next k c) := by
  have hcalls := h.calls c
  unfold MqState.next
  generalize hcall : b.calls c = call, hcall' : b'.calls c = call' at hcalls ⊢
  cases hcalls with
  | none => exact .none
  | some hsame =>
    cases hsame with
    | sendTook msg bytes bytes' timeout hlen =>
      have hfill := h.fill (hb.held_slot hcall rfl) (hb.took_length hcall) (hb'.took_length hcall')
      exact .some ⟨rfl, hfill.setCall (.sendFilled msg bytes bytes' timeout hlen)⟩
    | sendFilled msg bytes bytes' timeout hlen =>
      dsimp only [msgQueueSendLink]
      rcases ipcResumeFirst k mqReceivers with - | ⟨e, k'⟩
      · exact .none
      · exact .some ⟨rfl, (h.link hb msg _ _).finish ⟨hlen, rfl⟩⟩
    | recvBlocked size timeout =>
      dsimp only
      rw [← h.recvUnlink hb]
      rcases msgQueueRecvUnlink b.mq b.mem with - | (code | ⟨msg, mq⟩)
      · exact .none
      · exact .some ⟨rfl, h.finish ⟨rfl, rfl⟩⟩
      · exact .some ⟨rfl, h.unlinked c size timeout msg mq⟩
    | recvTook =>
      exact .some ⟨rfl, h.copied ⟨rfl, rfl, hb.length_copy, hb'.length_copy⟩⟩
    | recvCopied =>
      dsimp only [msgQueueRecvFree]
      rcases ipcResumeFirst k mqReceivers with - | ⟨e, k'⟩
      · exact .none
      · exact .some ⟨rfl, (h.giveBack (hb.held_slot hcall rfl)).finish ⟨rfl, rfl⟩⟩

end TwinState

/-! ## Runs -/

/-- The kernel state is the same, and the queues differ only in the contents of messages. -/
structure TwinInv (p : MsgPool) (x y : MqSys) : Prop where
  kernel : x.k = y.k
  twin : TwinState p x.b y.b
  sane : x.b.Sane p
  sane' : y.b.Sane p

namespace TwinInv

variable {x y : MqSys} {z z' : TwinSys} {op : TwinOp}

theorem init {x : MqSys} (h : mqSystem.init x) : TwinInv (poolOf x.b.mq) x x := by
  obtain ⟨free, place, received, hinv⟩ := MqInv.init h
  have hsane : x.b.Sane (poolOf x.b.mq) := ⟨_, _, _, _, hinv⟩
  refine ⟨rfl, ⟨rfl, fun _ _ => rfl, ?_, rfl, ?_, ?_⟩, hsane, hsane⟩
  · intro t
    rw [h.calls]
    exact .none
  · rw [h.log]
    exact .nil
  · rw [h.delivered]
    exact .nil

theorem rel_map {r r' : Option (MqEnd × Kernel × MqState)} (h : Option.Rel (TwinEnd p) r r') :
    Option.Rel (fun x y : MqSys => x.k = y.k ∧ TwinState p x.b y.b)
      (r.map fun (_, k, b) => { k, b }) (r'.map fun (_, k, b) => { k, b }) := by
  cases h with
  | none => exact .none
  | some hend => exact .some hend

private theorem step_rel (h : TwinInv p z.x z.y) (hop : z.SameOp op) :
    Option.Rel (fun x y => x.k = y.k ∧ TwinState p x.b y.b) (z.x.step op.left)
      (z.y.step op.right) := by
  cases op with
  | call request request' fuel =>
    have hsame : SameRequest p.msgSize request request' := by
      rw [← h.sane.msgSize]
      exact hop
    dsimp only [TwinOp.left, TwinOp.right, MqSys.step]
    rw [← h.kernel]
    rcases z.x.k.sched.currentThread with - | c
    · exact .none
    · have hcalls := h.twin.calls c
      dsimp only [Option.bind_some]
      generalize z.x.b.calls c = call, z.y.b.calls c = call' at hcalls ⊢
      cases hcalls with
      | none => exact rel_map (h.twin.begin h.sane hsame)
      | some _ => exact .none
  | next =>
    dsimp only [TwinOp.left, TwinOp.right, MqSys.step]
    rw [← h.kernel]
    rcases z.x.k.sched.currentThread with - | c
    · exact .none
    · exact rel_map (h.twin.next h.sane h.sane')
  | kernel k => exact .some ⟨rfl, h.twin⟩

theorem step (h : TwinInv p z.x z.y) (hop : z.SameOp op) (hstep : z.step op = some z') :
    TwinInv p z'.x z'.y := by
  obtain ⟨x', hx, hrest⟩ := Option.bind_eq_some_iff.mp hstep
  obtain ⟨y', hy, rfl⟩ := Option.map_eq_some_iff.mp hrest
  have hrel := h.step_rel hop
  rw [hx, hy] at hrel
  cases hrel with
  | some hend => exact ⟨hend.1, hend.2, h.sane.step hx, h.sane'.step hy⟩

theorem of_reach (h : twinSystem.Reach TwinSys.SameOp z) :
    TwinInv (poolOf z.x.b.mq) z.x z.y := by
  have hinv : ∃ p, TwinInv p z.x z.y := by
    refine h.invariant (I := fun z => ∃ p, TwinInv p z.x z.y) ?_ ?_
    · rintro ⟨x, y⟩ ⟨hinit, hsame⟩
      cases (show x = y from hsame)
      exact ⟨_, init hinit⟩
    · rintro z op z' ⟨p, hinv⟩ hop hstep
      exact ⟨p, hinv.step hop hstep⟩
  obtain ⟨p, hinv⟩ := hinv
  obtain ⟨free, chain, place, received, hmq⟩ := hinv.sane
  rw [hmq.conserved.pool]
  exact hinv

/-- A message that fills the buffer arrives alike. -/
theorem bytes_eq (h : TwinInv p x y) {d' : Delivery} (hd : d ∈ x.b.delivered)
    (hd' : d' ∈ y.b.delivered) (hsame : SameDelivery p.msgSize d d') {m : List UInt8}
    (hm : x.b.linked[d.index]? = some m) (hm' : y.b.linked[d.index]? = some m)
    (hfull : min d.size p.msgSize ≤ m.length) : d.bytes = d'.bytes := by
  obtain ⟨m1, hm1, htake⟩ := h.sane.delivers hd
  obtain ⟨m2, hm2, htake'⟩ := h.sane'.delivers hd'
  rw [hm] at hm1
  rw [← hsame.index, hm'] at hm2
  cases hm1
  cases hm2
  have hlen : d.bytes.length ≤ min d.size m.length := by
    rw [hsame.length]
    omega
  have hlen' : d'.bytes.length ≤ min d'.size m.length := by
    rw [hsame.length', ← hsame.size]
    omega
  rw [take_of_length_le hlen] at htake
  rw [take_of_length_le hlen'] at htake'
  rw [htake, htake', hsame.size]

end TwinInv

/-- If the message is the same in both runs, and as long as what is copied out, then so are the
    copied bytes. -/
structure DeliveredAlike (z : TwinSys) (d d' : Delivery) : Prop where
  index : d.index = d'.index
  size : d.size = d'.size
  bytes : ∀ m, z.x.b.linked[d.index]? = some m → z.y.b.linked[d.index]? = some m →
    min d.size z.x.b.mq.msgSize ≤ m.length → d.bytes = d'.bytes

/-- **Message independence.** Two runs that differ only in the contents of messages keep in step:
    an event is possible in both or in neither, the calls have returned the same codes, and the
    same messages have been received. A message that is the same in both runs, and not shorter
    than what is copied out, has been delivered alike, whatever the other messages were. -/
theorem message_independence {z : TwinSys} (h : twinSystem.Reach TwinSys.SameOp z) :
    (∀ op, z.SameOp op → ((z.x.step op.left).isSome ↔ (z.y.step op.right).isSome)) ∧
      List.Forall₂ (SameReturn z.x.b.mq.msgSize) z.x.b.log z.y.b.log ∧
      List.Forall₂ (DeliveredAlike z) z.x.b.delivered z.y.b.delivered := by
  have hinv := TwinInv.of_reach h
  refine ⟨?_, hinv.twin.log, ?_⟩
  · intro op hop
    have hrel := hinv.step_rel hop
    generalize z.x.step op.left = x', z.y.step op.right = y' at hrel ⊢
    cases hrel with
    | none => exact Iff.rfl
    | some _ => exact ⟨fun _ => rfl, fun _ => rfl⟩
  · obtain ⟨hlen, hzip⟩ := List.forall₂_iff_zip.mp hinv.twin.delivered
    refine List.forall₂_iff_zip.mpr ⟨hlen, ?_⟩
    intro d d' hin
    have hsame := hzip hin
    obtain ⟨hd, hd'⟩ := of_mem_zip hin
    exact ⟨hsame.index, hsame.size, fun m hm hm' hfull =>
      hinv.bytes_eq hd hd' hsame hm hm' hfull⟩

/-- A message of two bytes, `[1, 1]` in one run and `[2, 2]` in the other, is sent and received, and
    then the byte 7 is sent. -/
def leftoverRun (size : Nat) : List TwinOp :=
  [.call (.send [1, 1] 0) (.send [2, 2] 0) 0, .next, .next,
    .call (.recv 2 0) (.recv 2 0) 0, .next, .next,
    .call (.send [7] 0) (.send [7] 0) 0, .next, .next,
    .call (.recv size 0) (.recv size 0) 0, .next, .next]

private theorem leftoverRun_init : twinSystem.Reach TwinSys.SameOp
    { x := { k := startedKernel 32, b := twoMessages }
      y := { k := startedKernel 32, b := twoMessages } } :=
  .init ⟨twoMessages_initial, rfl⟩

/-- With a buffer of one byte, 7 arrives in both runs. -/
theorem message_independence_seven :
    ∃ z, twinSystem.Reach TwinSys.SameOp z ∧
      z.x.b.delivered = [⟨0, 2, [1, 1]⟩, ⟨1, 1, [7]⟩] ∧
      z.y.b.delivered = [⟨0, 2, [2, 2]⟩, ⟨1, 1, [7]⟩] ∧
      List.Forall₂ (DeliveredAlike z) z.x.b.delivered z.y.b.delivered := by
  obtain ⟨z, hz, hp⟩ := leftoverRun_init.exists_of_run (leftoverRun 1)
    (fun z => z.x.b.delivered = [⟨0, 2, [1, 1]⟩, ⟨1, 1, [7]⟩] ∧
      z.y.b.delivered = [⟨0, 2, [2, 2]⟩, ⟨1, 1, [7]⟩]) (by decide +kernel)
  obtain ⟨hx, hy⟩ := of_decide_eq_true hp
  exact ⟨z, hz, hx, hy, (message_independence hz).2.2⟩

/-- With a buffer of two bytes, the last byte of the earlier message comes along with 7. -/
theorem message_independence_fails :
    ∃ z, twinSystem.Reach TwinSys.SameOp z ∧
      z.x.b.linked[1]? = some [7] ∧ z.y.b.linked[1]? = some [7] ∧
      z.x.b.delivered = [⟨0, 2, [1, 1]⟩, ⟨1, 2, [7, 1]⟩] ∧
      z.y.b.delivered = [⟨0, 2, [2, 2]⟩, ⟨1, 2, [7, 2]⟩] := by
  obtain ⟨z, hz, hp⟩ := leftoverRun_init.exists_of_run (leftoverRun 2)
    (fun z => z.x.b.linked[1]? = some [7] ∧ z.y.b.linked[1]? = some [7] ∧
      z.x.b.delivered = [⟨0, 2, [1, 1]⟩, ⟨1, 2, [7, 1]⟩] ∧
      z.y.b.delivered = [⟨0, 2, [2, 2]⟩, ⟨1, 2, [7, 2]⟩]) (by decide +kernel)
  exact ⟨z, hz, of_decide_eq_true hp⟩

end SKernel.Spec
