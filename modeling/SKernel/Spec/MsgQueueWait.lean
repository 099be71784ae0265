import SKernel.Spec.MailboxWait
import SKernel.Spec.MsgQueueCorrect

/-!
# Waiting at a message queue

Threads send messages to a message queue and receive messages from it, sleep, and are interrupted
by the timer between the parts of their calls. A send resumes the first thread that waits for a
message once it has linked its slot, and so does a receive once it has given its slot back,
although there may be no further message.

A receive without a timeout that is woken then returns `SK_ETIMEOUT`, as it does at a mailbox.
-/

namespace SKernel.Spec

open Native Function Option

/-! ## The system -/

/-- The kernel and a message queue. -/
structure MqRun where
  sys : BlockSys
  b : MqState

/-- The first or the next part of a call of the running thread. -/
inductive MqPart where
  | start (request : MqRequest) (fuel : Nat)
  | next

namespace MqRun

/-- A part of a call of thread `c` has come to its end. -/
def advance (x : MqRun) (c : Tid) (k : Kernel) (b : MqState) : MqEnd → Option MqRun
  | .done e => (x.sys.advance 0 k e).map fun sys => { sys, b }
  | .block => some { sys := x.sys.wait c 0 x.b.mq.flag k, b }
  | .goOn => some { sys := { x.sys with k := k }, b }

/-- The state after an event. -/
def step (idle : Tid) (x : MqRun) : IpcOp MqPart → Option MqRun
  | .call (.start request fuel) =>
    (x.sys.free idle x.b.calls).bind fun c =>
      (x.b.begin fuel x.sys.k c request).bind fun (e, k, b) => x.advance c k b e
  | .call .next =>
    (x.sys.caller idle).bind fun c =>
      (x.b.next x.sys.k c).bind fun (e, k, b) => x.advance c k b e
  | op => (x.sys.elapse idle x.b.calls op).map fun sys => { x with sys := sys }

end MqRun

/-- At first the scheduler has been started and the queue has been initialised. -/
def mqRunSystem (idle : Tid) : TransitionSystem MqRun (IpcOp MqPart) where
  init x := x.sys.Started idle ∧ x.b.Initial
  step := MqRun.step idle

/-! ## What an event can do -/

variable {idle : Tid} {x x' : MqRun} {op : IpcOp MqPart} {c t : Tid} {k : Kernel} {b b' : MqState}
variable {e : MqEnd} {size msg fuel : Nat}

namespace MqRun

private theorem advance_b (h : x.advance c k b e = some x') :
    x'.b = b := by
  cases e with
  | done e =>
    obtain ⟨sys, -, rfl⟩ := map_eq_some_iff.mp h
    rfl
  | block | goOn =>
    cases h
    rfl

/-- The running thread `c` goes through a part of a call. -/
structure Goes (idle : Tid) (x x' : MqRun) (c : Tid) (fuel : Nat) (e : MqEnd) (k : Kernel) :
    Prop where
  runs : x.sys.Runs idle c
  part : x.b.Part fuel x.sys.k c e k x'.b
  advance : x.advance c k x'.b e = some x'

/-- The event by which thread `c` goes through a part of a call. A send takes no message. -/
inductive Event (x x' : MqRun) (c : Tid) : IpcOp MqPart → Prop where
  | send (bytes : List UInt8) (timeout : Int) (fuel : Nat) (hcall : x.b.calls c = none)
      (htaken : x'.b.taken = x.b.taken) : Event x x' c (.call (.start (.send bytes timeout) fuel))
  | recv (size : Nat) (timeout : Int) (fuel : Nat) (hcall : x.b.calls c = none) :
      Event x x' c (.call (.start (.recv size timeout) fuel))
  | next (hcall : x.b.calls c ≠ none) : Event x x' c (.call .next)

theorem step_cases (h : x.step idle op = some x') :
    (∃ c fuel e k, x.Goes idle x' c fuel e k ∧ x.Event x' c op) ∨
    ∃ sys, x.sys.elapse idle x.b.calls op = some sys ∧ x' = { x with sys := sys } := by
  cases op with
  | call part =>
    cases part with
    | start request fuel =>
      obtain ⟨c, hc, hcall⟩ := bind_eq_some_iff.mp h
      obtain ⟨⟨e, k, b⟩, hbegin, hadv⟩ := bind_eq_some_iff.mp hcall
      obtain ⟨-, hrun, hnone⟩ := BlockSys.of_free hc
      obtain rfl : x'.b = b := advance_b hadv
      refine .inl ⟨c, fuel, e, k, ⟨hrun, MqState.begin_cases hnone hbegin, hadv⟩, ?_⟩
      cases request with
      | send bytes timeout =>
        exact .send bytes timeout fuel hnone (MqState.begin_send_taken hbegin)
      | recv size timeout => exact .recv size timeout fuel hnone
    | next =>
      obtain ⟨c, hc, hcall⟩ := bind_eq_some_iff.mp h
      obtain ⟨⟨e, k, b⟩, hnext, hadv⟩ := bind_eq_some_iff.mp hcall
      obtain rfl : x'.b = b := advance_b hadv
      refine .inl ⟨c, 0, e, k,
        ⟨BlockSys.runs_of_caller hc, MqState.next_cases hnext, hadv⟩, .next ?_⟩
      intro hnone
      unfold MqState.next at hnext
      rw [hnone] at hnext
      cases hnext
  | sleep | schedule | tick =>
    obtain ⟨sys, hsys, rfl⟩ := map_eq_some_iff.mp h
    exact .inr ⟨sys, hsys, rfl⟩

end MqRun

/-! ## Receives without a timeout -/

namespace MqState

/-- Thread `t` has blocked in a receive without a timeout. -/
def forever (b : MqState) (t : Tid) : Bool :=
  match b.calls t with
  | some (.recvBlocked _ timeout) => decide (timeout < 0)
  | _ => false

/-- The receives without a timeout return `SK_EOK` and a message that has been sent. -/
def ReturnsMessage (b : MqState) : Prop :=
  ∀ r ∈ b.log, ∀ size, ∀ timeout < 0, r.request = .recv size timeout →
    r.code = .eok ∧ ∃ index bytes, r.bytes = some bytes ∧ Delivers b.linked ⟨index, size, bytes⟩

end MqState

namespace MqRun

/-- A receive of thread `c` leaves enough messages for the receivers without a timeout that are
    awake. -/
def LeavesMessages (x : MqRun) (c : Tid) : Prop :=
  0 < x.b.mq.entry → ((x.sys.awake x.b.forever).erase c).card < x.b.mq.entry

/-- There are enough messages for the receivers without a timeout that are awake and the one woken
    next. -/
def HasMessages (x : MqRun) : Prop :=
  (x.sys.awake x.b.forever ∪ x.sys.nextAwake 0 x.b.forever).card ≤ x.b.mq.entry

/-- What the next part of a call of thread `c` must leave behind. -/
def SparesNext (x : MqRun) (c : Tid) : Option MqCall → Prop
  | some (.recvBlocked _ _) => x.LeavesMessages c
  | some (.recvCopied ..) => x.HasMessages
  | _ => True

/-- The receives leave enough messages, and the ticks are sound. -/
def Spares (x : MqRun) : IpcOp MqPart → Prop
  | .call (.start (.recv _ _) _) => ∀ c ∈ x.sys.k.sched.currentThread, x.LeavesMessages c
  | .call .next => ∀ c ∈ x.sys.k.sched.currentThread, x.SparesNext c (x.b.calls c)
  | .tick _ => TickSound x.sys x.b.forever
  | _ => True

instance (x : MqRun) (c : Tid) : Decidable (x.LeavesMessages c) :=
  inferInstanceAs (Decidable (_ → _))

instance (x : MqRun) : Decidable x.HasMessages := inferInstanceAs (Decidable (_ ≤ _))

instance (x : MqRun) (c : Tid) (call : Option MqCall) : Decidable (x.SparesNext c call) :=
  match call with
  | some (.recvBlocked _ _) => inferInstanceAs (Decidable (x.LeavesMessages c))
  | some (.recvCopied ..) => inferInstanceAs (Decidable x.HasMessages)
  | none | some (.sendTook ..) | some (.sendFilled ..) | some (.recvTook ..) => isTrue trivial

instance (x : MqRun) (op : IpcOp MqPart) : Decidable (x.Spares op) :=
  match op with
  | .call (.start (.recv _ _) _) => inferInstanceAs (Decidable (∀ c ∈ _, _))
  | .call .next => inferInstanceAs (Decidable (∀ c ∈ _, _))
  | .tick _ => inferInstanceAs (Decidable (TickSound x.sys x.b.forever))
  | .call (.start (.send _ _) _) | .sleep _ | .schedule => isTrue trivial

theorem Spares.onTick (h : x.Spares op) : op.OnTick (TickSound x.sys x.b.forever) := by
  cases op with
  | tick => exact h
  | call | sleep | schedule => trivial

end MqRun

/-- A receive without a timeout has returned `SK_EOK`. -/
def MqReturn.Waited (r : MqReturn) : Prop :=
  ∀ size, ∀ timeout < 0, r.request = .recv size timeout → r.code = .eok

/-- There is a message for every receiver without a timeout that is awake, the queue is in order,
    and receives without a timeout have returned `SK_EOK`. -/
structure MqRunInv (idle : Tid) (x : MqRun) : Prop where
  recv : RecvInv idle x.sys x.b.forever x.b.mq.entry
  queue : ∃ p free chain place received, MqInv p x.b free chain place received
  codes : ∀ r ∈ x.b.log, r.Waited

namespace MqRunInv

theorem returns (h : MqRunInv idle x) : x.b.ReturnsMessage := by
  obtain ⟨p, free, chain, place, received, hinv⟩ := h.queue
  intro r hr size timeout htime hrequest
  have hcode := h.codes r hr size timeout htime hrequest
  exact ⟨hcode, hinv.conserved.returns r hr size timeout hrequest hcode⟩

private theorem forever_of_update (new : Option MqCall) (hcalls : b'.calls = update b.calls c new)
    (hnew : ∀ size timeout, new ≠ some (.recvBlocked size timeout)) (hf : b'.forever t = true) :
    b.forever t = true ∧ t ≠ c := by
  unfold MqState.forever at hf ⊢
  rw [hcalls] at hf
  by_cases htc : t = c
  · rw [htc, update_self] at hf
    split at hf
    · rename_i size timeout
      exact absurd rfl (hnew size timeout)
    · cases hf
  · rw [update_of_ne htc] at hf
    exact ⟨hf, htc⟩

private theorem recv_of_update (h : MqRunInv idle x) (new : Option MqCall)
    (hcalls : b'.calls = update x.b.calls c new)
    (hnew : ∀ size timeout, new ≠ some (.recvBlocked size timeout))
    (hentry : b'.mq.entry = x.b.mq.entry) : RecvInv idle x.sys b'.forever b'.mq.entry := by
  rw [hentry]
  exact h.recv.mono fun t hf => (forever_of_update new hcalls hnew hf).1

variable {timeout : Int}

theorem recv_unlink (h : MqRunInv idle x) (hne : x.b.mq.entry ≠ 0) (hleaves : x.LeavesMessages c) :
    RecvInv idle x.sys (x.b.unlinked c size timeout msg x.b.unlinkMq).forever
      x.b.unlinkMq.entry := by
  have hentry : x.b.unlinkMq.entry = x.b.mq.entry - 1 := if_pos (Nat.pos_of_ne_zero hne)
  rw [hentry]
  refine ⟨h.recv.block, h.recv.not_suspended, ?_⟩
  refine Nat.le_trans (Finset.card_le_card ?_)
    (Nat.le_sub_one_of_lt (hleaves (Nat.pos_of_ne_zero hne)))
  exact RecvInv.awake_subset_erase fun t =>
    forever_of_update (some (.recvTook msg size x.b.taken timeout)) rfl (by simp)

private theorem recv_block (h : MqRunInv idle x) (hrun : x.sys.Runs idle c)
    (hblock : ipcBlock fuel x.sys.k (.wait 0) x.b.mq.flag timeout = some k) :
    RecvInv idle (x.sys.wait c 0 x.b.mq.flag k)
      (x.b.setCall c (.recvBlocked size timeout)).forever x.b.mq.entry := by
  refine h.recv.wait hrun hblock ?_
  intro t htc hf
  unfold MqState.forever MqState.setCall at hf
  dsimp only at hf
  rw [update_of_ne htc] at hf
  exact hf

private theorem leaves_of_spares (hrun : x.sys.Runs idle c) (hguard : x.Spares op)
    (hevent : x.Event x' c op) (htaken : x'.b.taken ≠ x.b.taken)
    (hcall : x.b.calls c = none ∨ x.b.calls c = some (.recvBlocked size timeout)) :
    x.LeavesMessages c := by
  cases hevent with
  | send bytes timeout fuel _ hsame => exact absurd hsame htaken
  | recv => exact hguard c hrun.1
  | next hne =>
    have hspares := hguard c hrun.1
    rw [hcall.resolve_left hne] at hspares
    exact hspares

/-- A receive that gives its slot back. -/
theorem has_of_spares (hrun : x.sys.Runs idle c) (hguard : x.Spares op) (hevent : x.Event x' c op)
    {index : Nat} {bytes : List UInt8}
    (hcall : x.b.calls c = some (.recvCopied msg size index bytes timeout)) :
    x.HasMessages := by
  cases hevent with
  | send _ _ _ hnone | recv _ _ _ hnone => exact absurd (hnone.symm.trans hcall) (by simp)
  | next =>
    have hspares := hguard c hrun.1
    rw [hcall] at hspares
    exact hspares

theorem recv_part (h : MqRunInv idle x) (hgo : x.Goes idle x' c fuel e k) (hevent : x.Event x' c op)
    (hguard : x.Spares op) :
    RecvInv idle x'.sys x'.b.forever x'.b.mq.entry := by
  obtain ⟨hrun, hpart, hadv⟩ := hgo
  obtain ⟨p, free, chain, place, received, hinv⟩ := h.queue
  obtain ⟨sys', b'⟩ := x'
  dsimp only at hpart hadv
  cases hpart with
  | sendError | recvNone | recvAgain =>
    cases hadv
    exact h.recv_of_update none rfl (by simp) rfl
  | take bytes timeout =>
    cases hadv
    exact h.recv_of_update (some (.sendTook _ bytes timeout)) rfl (by simp) rfl
  | fill msg bytes timeout hcall =>
    cases hadv
    exact h.recv_of_update (some (.sendFilled msg bytes timeout)) rfl (by simp) rfl
  | link msg bytes timeout hcall hwake =>
    obtain ⟨sys, hsys, heq⟩ := map_eq_some_iff.mp hadv
    cases heq
    -- the message that is linked makes up for the receiver that may wake up
    obtain ⟨place', hinv'⟩ := hinv.link hcall
    have hentry : (x.b.linkMq msg).entry = x.b.mq.entry + 1 := by
      rw [hinv.conserved.lists.entry]
      exact hinv'.conserved.lists.entry.trans List.length_append
    refine h.recv.wake hrun ⟨_, _, hwake, hsys⟩ ?_ (hentry ▸ h.recv.card_union_next_le)
    exact fun t hf => (forever_of_update none rfl (by simp) hf).1
  | block size timeout hcall hempty hblock =>
    cases hadv
    exact h.recv_block hrun hblock
  | unlink size timeout hcall hne =>
    cases hadv
    -- the only part that takes a message away
    refine h.recv_unlink hne (leaves_of_spares hrun hguard hevent ?_ hcall)
    exact Nat.succ_ne_self x.b.taken
  | copy msg size index timeout hcall =>
    cases hadv
    exact h.recv_of_update (some (.recvCopied msg size index _ timeout)) rfl (by simp) rfl
  | giveBack msg size index bytes timeout hcall hwake =>
    obtain ⟨sys, hsys, heq⟩ := map_eq_some_iff.mp hadv
    cases heq
    -- `sk_msg_queue_recv` resumes a receiver too, without a message for it
    refine h.recv.wake hrun ⟨_, _, hwake, hsys⟩ ?_ (has_of_spares hrun hguard hevent hcall)
    exact fun t hf => (forever_of_update none rfl (by simp) hf).1

/-- Receives without a timeout return `SK_EOK`. -/
theorem codes_part (h : MqRunInv idle x)
    (hgo : x.Goes idle x' c fuel e k) : ∀ r ∈ x'.b.log, r.Waited := by
  obtain ⟨hrun, hpart, -⟩ := hgo
  obtain ⟨sys', b'⟩ := x'
  dsimp only at hpart
  cases hpart with
  | take | fill | block | unlink | copy => exact h.codes
  | sendError | link => exact List.forall_mem_snoc h.codes fun _ _ _ hrequest => nomatch hrequest
  | recvNone =>
    refine List.forall_mem_snoc h.codes ?_
    intro size' timeout htime hrequest
    cases hrequest
    exact absurd htime (by decide)
  | recvAgain size timeout hcall hempty =>
    refine List.forall_mem_snoc h.codes ?_
    intro size' timeout' htime hrequest
    cases hrequest
    -- the thread is awake, so there is a message
    have hf : x.b.forever c = true := by
      unfold MqState.forever
      rw [hcall]
      exact decide_eq_true htime
    exact absurd hempty (Nat.ne_of_gt (h.recv.entry_pos hrun hf))
  | giveBack =>
    exact List.forall_mem_snoc h.codes fun _ _ _ _ => rfl

theorem step (h : MqRunInv idle x) (hguard : x.Spares op) (hstep : x.step idle op = some x') :
    MqRunInv idle x' := by
  rcases MqRun.step_cases hstep with ⟨c, fuel, e, k, hgo, hevent⟩ | ⟨sys, helapse, rfl⟩
  · obtain ⟨p, free, chain, place, received, hinv⟩ := h.queue
    exact ⟨h.recv_part hgo hevent hguard, ⟨p, hinv.part hgo.part⟩, h.codes_part hgo⟩
  · exact ⟨h.recv.elapse hguard.onTick helapse, h.queue, h.codes⟩

theorem init (h : (mqRunSystem idle).init x) : MqRunInv idle x := by
  obtain ⟨hsys, hinit⟩ := h
  have hforever : x.b.forever = fun _ => false := by
    funext t
    unfold MqState.forever
    rw [hinit.calls]
  refine ⟨?_, ?_, ?_⟩
  · rw [hforever]
    exact RecvInv.init hsys
  · obtain ⟨free, place, received, hinv⟩ := MqInv.init hinit
    exact ⟨_, free, [], place, received, hinv⟩
  · intro r hr
    rw [hinit.log] at hr
    cases hr

end MqRunInv

end SKernel.Spec
