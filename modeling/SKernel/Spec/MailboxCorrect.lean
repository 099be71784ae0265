import SKernel.ForStd.Circular
import SKernel.ForStd.Simulation
import SKernel.Native.Mailbox
import SKernel.Spec.SchedCorrect

/-!
# Mailbox FIFO

Threads send mails to a mailbox and receive mails from it. A call that finds the mailbox full or
empty may block; when its thread runs again, the rest of the call looks once more. Between the
segments of the calls the rest of the kernel may do anything, so that a blocked call may be
resumed at any time.

The log lists the calls in the order in which they are decided: a send is decided when it has
stored its mail, a receive when it has taken one, and both return `SK_EOK` from there on.

## Key results

- `MailInv.decides`: a segment that decides a call keeps the mails in order
-/

namespace SKernel.Spec

open Native ByteMem Circular Function Option

/-! ## The calls -/

/-- The wait list `parent.suspend_thread`, of the receivers. -/
def mailReceivers : ListHead := .wait 0

/-- The wait list `suspend_sender_thread`. -/
def mailSenders : ListHead := .wait 1

/-- A call; `sk_mailbox_send` is a `send` with timeout 0. -/
inductive MailCall where
  | send (value : BitVec 64) (timeout : Int)
  | recv (timeout : Int)
  deriving DecidableEq

/-- A call with the code that it returns, and with the mail that a receive delivers. -/
structure MailReturn where
  call : MailCall
  code : SkErr
  value : Option (BitVec 64)
  deriving DecidableEq

/-- A mailbox, the memory of its pool, the blocked calls, and the calls that are decided. -/
structure MailState where
  mb : Mailbox
  mem : Mem
  pending : Tid → Option MailCall
  log : List MailReturn

/-- The mail that a successful send has supplied. -/
def MailReturn.sent (r : MailReturn) : Option (BitVec 64) :=
  match r.call with
  | .send value _ => if r.code = .eok then some value else none
  | .recv _ => none

/-- The mail that a successful receive has delivered. -/
def MailReturn.received (r : MailReturn) : Option (BitVec 64) :=
  match r.call with
  | .send .. => none
  | .recv _ => if r.code = .eok then r.value else none

namespace MailState

/-- The word at an offset of the pool. -/
def mail (b : MailState) (offset : Nat) : BitVec 64 :=
  BitVec.ofNat 64 (load b.mem 8 (b.mb.msgPool + 8 * offset))

/-- The mails in the mailbox. -/
def stored (b : MailState) : List (BitVec 64) :=
  window b.mail b.mb.size b.mb.outOffset b.mb.entry

/-- The mails of the sends that return `SK_EOK`. -/
def sent (b : MailState) : List (BitVec 64) := b.log.filterMap MailReturn.sent

/-- The mails of the receives that return `SK_EOK`. -/
def received (b : MailState) : List (BitVec 64) := b.log.filterMap MailReturn.received

/-- The call of thread `c` is decided. -/
def finish (b : MailState) (c : Tid) (call : MailCall) (code : SkErr)
    (value : Option (BitVec 64)) : MailState :=
  { b with
    pending := update b.pending c none
    log := b.log ++ [{ call, code, value }] }

/-- The outcome of a segment of a call of thread `c`. -/
def settle (b : MailState) (c : Tid) (call : MailCall) (value : Option (BitVec 64)) :
    SegEnd → MailState
  | .block => { b with pending := update b.pending c (some call) }
  | .done e => b.finish c call e.code value

/-- The first segment of a call of thread `c`. -/
def begin (fuel : Nat) (b : MailState) (k : Kernel) (c : Tid) :
    MailCall → Option (SegEnd × Kernel × MailState)
  | .send value timeout =>
    (skMailboxSendWait fuel k b.mb b.mem mailReceivers mailSenders value timeout).map
      fun (e, k, mb, mem) =>
        (e, k, { b with mb := mb, mem := mem }.settle c (.send value timeout) none e)
  | .recv timeout =>
    (skMailboxRecv fuel k b.mb b.mem mailReceivers timeout).map
      fun (e, value, k, mb) => (e, k, { b with mb := mb }.settle c (.recv timeout) value e)

/-- The rest of the call in which thread `c` has blocked. -/
def resume (b : MailState) (k : Kernel) (c : Tid) : Option (CallEnd × Kernel × MailState) :=
  match b.pending c with
  | none => none
  | some (.send value timeout) =>
    (mailboxSendRest k b.mb b.mem mailReceivers value).map
      fun (e, k, mb, mem) =>
        (e, k, { b with mb := mb, mem := mem }.finish c (.send value timeout) e.code none)
  | some (.recv timeout) =>
    (mailboxRecvRest k b.mb b.mem mailReceivers).map
      fun (e, value, k, mb) => (e, k, { b with mb := mb }.finish c (.recv timeout) e.code value)

/-! ## What a segment can do -/

/-- The mailbox after a mail has been stored. -/
def put (b : MailState) (value : BitVec 64) : MailState :=
  { b with
    mb := { b.mb with
      inOffset := mailboxNext b.mb.size b.mb.inOffset
      entry := (b.mb.entry + 1) % 2 ^ 16 }
    mem := store b.mem 8 (b.mb.msgPool + 8 * b.mb.inOffset) value.toNat }

/-- The mailbox after a mail has been taken. -/
def get (b : MailState) : MailState :=
  { b with
    mb := { b.mb with
      outOffset := mailboxNext b.mb.size b.mb.outOffset
      entry := b.mb.entry - 1 } }

/-- A segment of a call of thread `c` that decides the call. -/
inductive Decides (b : MailState) (k : Kernel) (c : Tid) :
    MailCall → CallEnd → Kernel → MailState → Prop where
  | full (value : BitVec 64) (timeout : Int) (hfull : b.mb.entry = b.mb.size) :
      Decides b k c (.send value timeout) (.ret .efull) k
        (b.finish c (.send value timeout) .efull none)
  | empty (timeout : Int) (hempty : b.mb.entry = 0) :
      Decides b k c (.recv timeout) (.ret .etimeout) k
        (b.finish c (.recv timeout) .etimeout none)
  /-- a mailbox with more mails than its size, which is never reached -/
  | overfull (value : BitVec 64) (timeout : Int) (hover : b.mb.size < b.mb.entry)
      (b' : MailState) : Decides b k c (.send value timeout) (.ret .efull) k b'
  | put (value : BitVec 64) (timeout : Int) (hlt : b.mb.entry < b.mb.size) {e : CallEnd}
      {k' : Kernel} (hwake : ipcResumeFirst k mailReceivers = some (e, k')) :
      Decides b k c (.send value timeout) e k'
        ((b.put value).finish c (.send value timeout) .eok none)
  | get (timeout : Int) (hpos : 0 < b.mb.entry) {e : CallEnd} {k' : Kernel}
      (hwake : ipcResumeFirst k mailReceivers = some (e, k')) :
      Decides b k c (.recv timeout) e k'
        (b.get.finish c (.recv timeout) .eok (some (b.mail b.mb.outOffset)))

/-- A segment of a call of thread `c` that blocks. -/
inductive Blocks (fuel : Nat) (b : MailState) (k : Kernel) :
    MailCall → Kernel → Prop where
  | send (value : BitVec 64) (timeout : Int) (hfull : b.mb.entry = b.mb.size) (htime : timeout ≠ 0)
      {k' : Kernel} (hblock : ipcBlock fuel k mailSenders b.mb.flag timeout = some k') :
      Blocks fuel b k (.send value timeout) k'
  | recv (timeout : Int) (hempty : b.mb.entry = 0) (htime : timeout ≠ 0) {k' : Kernel}
      (hblock : ipcBlock fuel k mailReceivers b.mb.flag timeout = some k') :
      Blocks fuel b k (.recv timeout) k'

variable {b b' : MailState} {k k' : Kernel} {c : Tid} {call : MailCall} {e : CallEnd}

theorem sendRest_cases {value : BitVec 64} {mb : Mailbox} {mem : Mem} (timeout : Int)
    (h : mailboxSendRest k b.mb b.mem mailReceivers value = some (e, k', mb, mem)) :
    b.Decides k c (.send value timeout) e k'
      ({ b with mb := mb, mem := mem }.finish c (.send value timeout) e.code none) := by
  unfold mailboxSendRest at h
  split at h
  · cases h
    exact .full value timeout ‹_›
  · rename_i hne
    dsimp only at h
    split at h
    · obtain ⟨⟨e1, k1⟩, hwake, heq⟩ := map_eq_some_iff.mp h
      cases heq
      rw [ipcResumeFirst_code hwake]
      exact .put value timeout ‹_› hwake
    · cases h
      exact .overfull value timeout (by omega) _

theorem recvRest_cases {value : Option (BitVec 64)} {mb : Mailbox} (timeout : Int)
    (h : mailboxRecvRest k b.mb b.mem mailReceivers = some (e, value, k', mb)) :
    b.Decides k c (.recv timeout) e k'
      ({ b with mb := mb }.finish c (.recv timeout) e.code value) := by
  unfold mailboxRecvRest at h
  split at h
  · cases h
    exact .empty timeout ‹_›
  · rename_i hne
    have hpos : 0 < b.mb.entry := Nat.pos_of_ne_zero hne
    obtain ⟨⟨e1, k1⟩, hwake, heq⟩ := map_eq_some_iff.mp h
    dsimp only at heq
    rw [if_pos hpos] at heq
    cases heq
    rw [ipcResumeFirst_code hwake]
    exact .get timeout hpos hwake

theorem resume_cases (h : b.resume k c = some (e, k', b')) :
    ∃ call, b.pending c = some call ∧ b.Decides k c call e k' b' := by
  unfold resume at h
  split at h
  · cases h
  · rename_i value timeout hcall
    obtain ⟨⟨e1, k1, mb, mem⟩, hrest, heq⟩ := map_eq_some_iff.mp h
    cases heq
    exact ⟨_, hcall, sendRest_cases timeout hrest⟩
  · rename_i timeout hcall
    obtain ⟨⟨e1, value, k1, mb⟩, hrest, heq⟩ := map_eq_some_iff.mp h
    cases heq
    exact ⟨_, hcall, recvRest_cases timeout hrest⟩

theorem begin_cases {fuel : Nat} {s : SegEnd} (h : begin fuel b k c call = some (s, k', b')) :
    (∃ e, s = .done e ∧ b.Decides k c call e k' b' ∧
      ∀ timeout, call = .recv timeout → b.mb.entry = 0 → timeout = 0) ∨
      s = .block ∧ b.Blocks fuel k call k' ∧
        b' = { b with pending := update b.pending c (some call) } := by
  cases call with
  | send value timeout =>
    obtain ⟨⟨s1, k1, mb, mem⟩, hcall, heq⟩ := map_eq_some_iff.mp h
    cases heq
    unfold skMailboxSendWait at hcall
    split at hcall
    · -- a send that does not wait
      cases hcall
      exact .inl ⟨_, rfl, .full value timeout (And.left ‹_›), by simp⟩
    · split at hcall
      · rename_i hnot hfull
        obtain ⟨k2, hblock, heq⟩ := map_eq_some_iff.mp hcall
        cases heq
        exact .inr ⟨rfl, .send value timeout hfull (fun h0 => hnot ⟨hfull, h0⟩) hblock, rfl⟩
      · obtain ⟨⟨e1, k2, mb2, mem2⟩, hrest, heq⟩ := map_eq_some_iff.mp hcall
        cases heq
        exact .inl ⟨e1, rfl, sendRest_cases timeout hrest, by simp⟩
  | recv timeout =>
    obtain ⟨⟨s1, value, k1, mb⟩, hcall, heq⟩ := map_eq_some_iff.mp h
    cases heq
    unfold skMailboxRecv at hcall
    split at hcall
    · -- a receive that does not wait
      rename_i hnow
      cases hcall
      refine .inl ⟨_, rfl, .empty timeout hnow.1, ?_⟩
      intro time hcall _
      cases hcall
      exact hnow.2
    · split at hcall
      · rename_i hnot hempty
        obtain ⟨k2, hblock, heq⟩ := map_eq_some_iff.mp hcall
        cases heq
        exact .inr ⟨rfl, .recv timeout hempty (fun h0 => hnot ⟨hempty, h0⟩) hblock, rfl⟩
      · rename_i hne
        obtain ⟨⟨e1, value2, k2, mb2⟩, hrest, heq⟩ := map_eq_some_iff.mp hcall
        cases heq
        exact .inl ⟨e1, rfl, recvRest_cases timeout hrest, fun _ _ hempty => absurd hempty hne⟩

end MailState

/-! ## The invariant -/

/-- The counters fit together, and the mails received and stored are the mails sent. -/
structure MailInv (b : MailState) : Prop where
  size_pos : 0 < b.mb.size
  size_lt : b.mb.size < 2 ^ 16
  entry_le : b.mb.entry ≤ b.mb.size
  out_lt : b.mb.outOffset < b.mb.size
  in_eq : b.mb.inOffset = (b.mb.outOffset + b.mb.entry) % b.mb.size
  fifo : b.received ++ b.stored = b.sent

theorem mailboxNext_eq {size offset : Nat} (hsize : size < 2 ^ 16) (h : offset < size) :
    mailboxNext size offset = (offset + 1) % size := by
  unfold mailboxNext
  rw [Nat.mod_eq_of_lt (by omega : offset + 1 < 2 ^ 16)]
  dsimp only
  split
  · rw [show offset + 1 = size by omega, Nat.mod_self]
  · rw [Nat.mod_eq_of_lt (by omega)]

namespace MailInv

variable {b b' : MailState} {k k' : Kernel} {c : Tid} {call : MailCall} {e : CallEnd}

section

variable (h : MailInv b)
include h

theorem stored_put (hlt : b.mb.entry < b.mb.size) (value : BitVec 64) :
    (b.put value).stored = b.stored ++ [value] := by
  have hin : b.mb.inOffset < b.mb.size := by
    rw [h.in_eq]
    exact Nat.mod_lt _ h.size_pos
  have hentry : (b.put value).mb.entry = b.mb.entry + 1 :=
    Nat.mod_eq_of_lt (Nat.lt_of_le_of_lt hlt h.size_lt)
  unfold MailState.stored
  rw [hentry]
  refine window_append b.mail (b.put value).mail b.mb.size b.mb.outOffset b.mb.entry [value]
    hlt ?_ ?_
  · -- the new mail is in the cell behind the window
    intro j hj
    have hj0 : j = 0 := Nat.lt_one_iff.mp hj
    subst hj0
    rw [Nat.add_zero, ← h.in_eq]
    show BitVec.ofNat 64 (load (store _ 8 _ _) 8 _) = value
    rw [show (b.put value).mb.msgPool = b.mb.msgPool from rfl,
      load_store_self (by exact value.isLt)]
    simp
  · -- the cells of the window are disjoint from it
    intro x hx
    have hne : x ≠ b.mb.inOffset := by
      have := hx 0 Nat.one_pos
      rwa [Nat.add_zero, ← h.in_eq] at this
    show BitVec.ofNat 64 (load (store _ 8 _ _) 8 _) = _
    rw [load_store_of_disjoint]
    · rfl
    · show b.mb.msgPool + 8 * x + 8 ≤ _ ∨ _ ≤ b.mb.msgPool + 8 * x
      omega

theorem stored_get (hpos : 0 < b.mb.entry) : b.stored = b.mail b.mb.outOffset :: b.get.stored := by
  have hsplit : b.mb.entry = 1 + (b.mb.entry - 1) := by omega
  have hfront : window b.mail b.mb.size b.mb.outOffset 1 = [b.mail b.mb.outOffset] := by
    simp [window, Nat.mod_eq_of_lt h.out_lt]
  have hrest : b.get.stored = window b.mail b.mb.size (b.mb.outOffset + 1) (b.mb.entry - 1) := by
    rw [← window_mod, ← mailboxNext_eq h.size_lt h.out_lt]
    rfl
  rw [hrest]
  unfold MailState.stored
  rw [hsplit, window_add, hfront, ← hsplit]
  rfl

theorem finish_error {code : SkErr} (hcode : code ≠ .eok)
    (value : Option (BitVec 64)) : MailInv (b.finish c call code value) := by
  refine ⟨h.size_pos, h.size_lt, h.entry_le, h.out_lt, h.in_eq, ?_⟩
  have hsent : (b.finish c call code value).sent = b.sent := by
    unfold MailState.sent MailState.finish
    cases call <;> simp [MailReturn.sent, hcode]
  have hreceived : (b.finish c call code value).received = b.received := by
    unfold MailState.received MailState.finish
    cases call <;> simp [MailReturn.received, hcode]
  rw [hsent, hreceived]
  exact h.fifo

/-- A send stores its mail. -/
theorem put (hlt : b.mb.entry < b.mb.size) (value : BitVec 64) (timeout : Int) :
    MailInv ((b.put value).finish c (.send value timeout) .eok none) := by
  have hentry : (b.put value).mb.entry = b.mb.entry + 1 :=
    Nat.mod_eq_of_lt (Nat.lt_of_le_of_lt hlt h.size_lt)
  have hin : b.mb.inOffset < b.mb.size := by
    rw [h.in_eq]
    exact Nat.mod_lt _ h.size_pos
  refine ⟨h.size_pos, h.size_lt, ?_, h.out_lt, ?_, ?_⟩
  · show (b.put value).mb.entry ≤ b.mb.size
    omega
  · show mailboxNext b.mb.size b.mb.inOffset = (b.mb.outOffset + (b.put value).mb.entry) % b.mb.size
    rw [mailboxNext_eq h.size_lt hin, hentry, h.in_eq, Nat.mod_add_mod, Nat.add_assoc]
  · have hsent : ((b.put value).finish c (.send value timeout) .eok none).sent =
        b.sent ++ [value] := by
      simp [MailState.sent, MailState.finish, MailState.put, MailReturn.sent]
    have hreceived : ((b.put value).finish c (.send value timeout) .eok none).received =
        b.received := by
      simp [MailState.received, MailState.finish, MailState.put, MailReturn.received]
    rw [hsent, hreceived]
    show b.received ++ (b.put value).stored = _
    rw [h.stored_put hlt, ← List.append_assoc, h.fifo]

/-- A receive takes the oldest mail. -/
theorem get (hpos : 0 < b.mb.entry) (timeout : Int) :
    MailInv (b.get.finish c (.recv timeout) .eok (some (b.mail b.mb.outOffset))) := by
  refine ⟨h.size_pos, h.size_lt, ?_, ?_, ?_, ?_⟩
  · show b.mb.entry - 1 ≤ b.mb.size
    have := h.entry_le
    omega
  · show mailboxNext b.mb.size b.mb.outOffset < b.mb.size
    rw [mailboxNext_eq h.size_lt h.out_lt]
    exact Nat.mod_lt _ h.size_pos
  · show b.mb.inOffset =
      (mailboxNext b.mb.size b.mb.outOffset + (b.mb.entry - 1)) % b.mb.size
    rw [mailboxNext_eq h.size_lt h.out_lt, Nat.mod_add_mod, h.in_eq]
    congr 1
    omega
  · -- the oldest mail goes from the mailbox to the mails received
    have hsent : (b.get.finish c (.recv timeout) .eok (some (b.mail b.mb.outOffset))).sent =
        b.sent := by
      simp [MailState.sent, MailState.finish, MailState.get, MailReturn.sent]
    have hreceived :
        (b.get.finish c (.recv timeout) .eok (some (b.mail b.mb.outOffset))).received =
          b.received ++ [b.mail b.mb.outOffset] := by
      simp [MailState.received, MailState.finish, MailState.get, MailReturn.received]
    rw [hsent, hreceived]
    show b.received ++ [_] ++ b.get.stored = _
    rw [List.append_assoc, List.singleton_append, ← h.stored_get hpos, h.fifo]

/-- A segment that decides a call keeps the invariant. -/
theorem decides (hdec : b.Decides k c call e k' b') : MailInv b' := by
  cases hdec with
  | full => exact h.finish_error (by decide) none
  | empty timeout => exact h.finish_error (by decide) none
  | overfull =>
    have := h.entry_le
    omega
  | put value timeout hlt => exact h.put hlt value timeout
  | get timeout hpos => exact h.get hpos timeout

theorem block (pending : Tid → Option MailCall) : MailInv { b with pending := pending } :=
  ⟨h.size_pos, h.size_lt, h.entry_le, h.out_lt, h.in_eq, h.fifo⟩

end

theorem init {msgpool size : Nat} {flag : BitVec 8} (hpos : 1 ≤ size) (hle : size ≤ 65535)
    (hmb : b.mb = skMailboxInit msgpool size flag) (hlog : b.log = []) : MailInv b := by
  have hsize : b.mb.size = size := by
    rw [hmb]
    exact Nat.mod_eq_of_lt (by omega)
  have hentry : b.mb.entry = 0 := by rw [hmb]; rfl
  have hin : b.mb.inOffset = 0 := by rw [hmb]; rfl
  have hout : b.mb.outOffset = 0 := by rw [hmb]; rfl
  refine ⟨by omega, by omega, by omega, by omega, ?_, ?_⟩
  · rw [hin, hout, hentry, Nat.zero_mod]
  · simp [MailState.received, MailState.sent, MailState.stored, hlog, hentry]

end MailInv

/-! ## Runs -/

/-- The kernel and the mailbox. -/
structure MailSys where
  k : Kernel
  b : MailState

/-- A call of the current thread, the rest of a call that has blocked, and any change of the rest of
    the kernel. -/
inductive MailOp where
  | call (call : MailCall) (fuel : Nat)
  | resume
  | kernel (k : Kernel)

namespace MailSys

/-- The state after an event. -/
def step (x : MailSys) : MailOp → Option MailSys
  | .call call fuel =>
    x.k.sched.currentThread.bind fun c =>
      if x.b.pending c = none then
        (x.b.begin fuel x.k c call).map fun (_, k, b) => { k, b }
      else none
  | .resume =>
    x.k.sched.currentThread.bind fun c => (x.b.resume x.k c).map fun (_, k, b) => { k, b }
  | .kernel k => some { x with k := k }

/-- An event decides a call with the code `SK_EOK`. -/
def Succeeds (x x' : MailSys) : Prop := ∃ r, r.code = .eok ∧ x'.b.log = x.b.log ++ [r]

/-- Mails are neither lost nor duplicated nor reordered, and only calls that succeed change the
    mails and the counters. -/
structure Fifo (x : MailSys) : Prop where
  entry_le : x.b.mb.entry ≤ x.b.mb.size
  in_eq : x.b.mb.inOffset = (x.b.mb.outOffset + x.b.mb.entry) % x.b.mb.size
  order : x.b.received ++ x.b.stored = x.b.sent
  errors : ∀ op x', x.step op = some x' → ¬x.Succeeds x' →
    x'.b.mb = x.b.mb ∧ x'.b.mem = x.b.mem

end MailSys

/-- The system: at first the mailbox has been initialised with a size from 1 to 65535. -/
def mailSystem : TransitionSystem MailSys MailOp where
  init x := x.b.pending = (fun _ => none) ∧ x.b.log = [] ∧
    ∃ msgpool size flag, 1 ≤ size ∧ size ≤ 65535 ∧ x.b.mb = skMailboxInit msgpool size flag
  step := MailSys.step

variable {x x' : MailSys} {op : MailOp}

theorem MailSys.step_cases (h : x.step op = some x') :
    (∃ c call e, x.b.Decides x.k c call e x'.k x'.b) ∨
      ∃ pending, x'.b = { x.b with pending := pending } := by
  cases op with
  | call call fuel =>
    obtain ⟨c, -, hcall⟩ := bind_eq_some_iff.mp h
    obtain ⟨-, hcall⟩ := ite_none_right_eq_some.mp hcall
    obtain ⟨⟨s, k, b⟩, hbegin, rfl⟩ := map_eq_some_iff.mp hcall
    cases MailState.begin_cases hbegin with
    | inl hdec =>
      obtain ⟨e, -, hdec, -⟩ := hdec
      exact .inl ⟨c, call, e, hdec⟩
    | inr hblock => exact .inr ⟨_, hblock.2.2⟩
  | resume =>
    obtain ⟨c, -, hresume⟩ := bind_eq_some_iff.mp h
    obtain ⟨⟨e, k, b⟩, hrest, rfl⟩ := map_eq_some_iff.mp hresume
    obtain ⟨call, -, hdec⟩ := MailState.resume_cases hrest
    exact .inl ⟨c, call, e, hdec⟩
  | kernel k =>
    cases h
    exact .inr ⟨_, rfl⟩

namespace MailInv

theorem step (h : MailInv x.b) (hstep : x.step op = some x') : MailInv x'.b := by
  cases MailSys.step_cases hstep with
  | inl hdec =>
    obtain ⟨c, call, e, hdec⟩ := hdec
    exact h.decides hdec
  | inr hblock =>
    obtain ⟨pending, hb⟩ := hblock
    rw [hb]
    exact h.block pending

theorem errors (h : MailInv x.b) (hstep : x.step op = some x') (hnot : ¬x.Succeeds x') :
    x'.b.mb = x.b.mb ∧ x'.b.mem = x.b.mem := by
  cases MailSys.step_cases hstep with
  | inl hdec =>
    obtain ⟨c, call, e, hdec⟩ := hdec
    obtain ⟨k', b'⟩ := x'
    unfold MailSys.Succeeds at hnot
    dsimp only at hdec hnot ⊢
    cases hdec with
    | full | empty => exact ⟨rfl, rfl⟩
    | overfull =>
      have := h.entry_le
      omega
    | put | get => exact absurd ⟨_, rfl, rfl⟩ hnot
  | inr hblock =>
    obtain ⟨pending, hb⟩ := hblock
    rw [hb]
    exact ⟨rfl, rfl⟩

end MailInv

/-- **Mailbox FIFO.** In every interleaving of sends and receives, the counters fit together, the
    mails delivered followed by the mails stored are the mails sent, in order, and a call that
    returns an error changes nothing. -/
theorem mailbox_fifo (h : mailSystem.Reach (fun _ _ => True) x) : x.Fifo := by
  have hinv : MailInv x.b := by
    refine h.invariant (I := fun x => MailInv x.b) ?_ fun _ _ _ hinv _ hstep => hinv.step hstep
    rintro y ⟨-, hlog, msgpool, size, flag, hpos, hle, hmb⟩
    exact MailInv.init hpos hle hmb hlog
  exact ⟨hinv.entry_le, hinv.in_eq, hinv.fifo, fun _ _ hstep hnot => hinv.errors hstep hnot⟩

/-- A mailbox for one mail. -/
def oneMail : MailState where
  mb := skMailboxInit 0x1000 1 ipcFlagFifo
  mem := fun _ => 0
  pending := fun _ => none
  log := []

/-- Thread 1 finds the mailbox empty and blocks; while thread 0 runs, it sends two mails, the
    second of which does not fit; then thread 1 runs again and receives the first. -/
theorem mailbox_fifo_one :
    ∃ x, mailSystem.Reach (fun _ _ => True) x ∧ x.b.received = [7] ∧ x.b.log.length = 3 ∧
      x.Fifo := by
  have hinit : mailSystem.Reach (fun _ _ => True) { k := startedKernel 32, b := oneMail } :=
    .init ⟨rfl, rfl, 0x1000, 1, ipcFlagFifo, by decide, by decide, rfl⟩
  let k0 := { startedKernel 32 with
    sched := { (startedKernel 32).sched with currentThread := some 0 } }
  obtain ⟨x, hx, hp⟩ := hinit.exists_of_run
    [.call (.recv (-1)) 1, .kernel k0, .call (.send 7 0) 0, .call (.send 8 0) 0,
      .kernel (startedKernel 32), .resume]
    (fun x => x.b.received = [7] ∧ x.b.log.length = 3) (by decide +kernel)
  obtain ⟨hreceived, hlog⟩ := of_decide_eq_true hp
  exact ⟨x, hx, hreceived, hlog, mailbox_fifo hx⟩

end SKernel.Spec
