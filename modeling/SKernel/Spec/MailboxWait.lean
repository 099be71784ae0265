import SKernel.Spec.MailboxCorrect
import SKernel.Spec.RecvWait

/-!
# Waking up at a mailbox

Threads send mails to a mailbox and receive mails from it, sleep, and are interrupted by the
timer at any point where interrupts are enabled. A send resumes the first thread that waits on
`parent.suspend_thread`, where the receivers wait. A receive does the same, although it frees a
place that a thread on `suspend_sender_thread` waits for.

So a receive wakes no sender, and it wakes a receiver for which there may be no mail: that
receive then returns `SK_ETIMEOUT`, also when it waits without a timeout.
-/

namespace SKernel.Spec

open Native Function List Option

/-! ## The system -/

/-- The kernel and a mailbox. -/
structure MailRun where
  sys : BlockSys
  b : MailState

/-- A call of the running thread, and the rest of a call that has blocked. -/
inductive MailPart where
  | start (call : MailCall) (fuel : Nat)
  | resume

/-- The wait list on which a call blocks. -/
def MailCall.list : MailCall → Nat
  | .send .. => 1
  | .recv _ => 0

namespace MailRun

/-- A call is decided. -/
def decide (x : MailRun) (e : CallEnd) (k : Kernel) (b : MailState) : Option MailRun :=
  (x.sys.advance 0 k e).map fun sys => { sys, b }

/-- A call of thread `c`. -/
def call (x : MailRun) (c : Tid) (call : MailCall) (fuel : Nat) : Option MailRun :=
  match x.b.begin fuel x.sys.k c call with
  | none => none
  | some (.done e, k, b) => x.decide e k b
  | some (.block, k, b) => some { sys := x.sys.wait c call.list x.b.mb.flag k, b }

/-- The rest of the call in which thread `c` has blocked. -/
def resume (x : MailRun) (c : Tid) : Option MailRun :=
  (x.b.resume x.sys.k c).bind fun (e, k, b) => x.decide e k b

/-- The state after an event. -/
def step (idle : Tid) (x : MailRun) : IpcOp MailPart → Option MailRun
  | .call (.start call fuel) =>
    (x.sys.free idle x.b.pending).bind fun c => x.call c call fuel
  | .call .resume => (x.sys.caller idle).bind x.resume
  | op => (x.sys.elapse idle x.b.pending op).map fun sys => { x with sys := sys }

end MailRun

/-- At first the scheduler has been started and the mailbox initialised with a size from 1 to
    65535. -/
def mailRunSystem (idle : Tid) : TransitionSystem MailRun (IpcOp MailPart) where
  init x := x.sys.Started idle ∧ x.b.pending = (fun _ => none) ∧ x.b.log = [] ∧
    ∃ msgpool size flag, 1 ≤ size ∧ size ≤ 65535 ∧ x.b.mb = skMailboxInit msgpool size flag
  step := MailRun.step idle

/-! ## What an event can do -/

variable {idle : Tid} {x x' : MailRun} {op : IpcOp MailPart} {c t : Tid} {call : MailCall}
variable {b b' : MailState} {r : MailReturn} {timeout : Int}

namespace MailRun

/-- Thread `c` decides a call that it makes or has blocked in. A receive that finds the mailbox
    empty at once has timeout 0. -/
structure Deciding (idle : Tid) (x x' : MailRun) (c : Tid) (call : MailCall) : Prop where
  runs : x.sys.Runs idle c
  pending : x.b.pending c = some call ∨
    x.b.pending c = none ∧ ∀ timeout, call = .recv timeout → x.b.mb.entry = 0 → timeout = 0
  decides : ∃ e k, x.b.Decides x.sys.k c call e k x'.b ∧ x.sys.advance 0 k e = some x'.sys

theorem step_cases (h : x.step idle op = some x') :
    (∃ c call, x.Deciding idle x' c call ∧
      (op = .call .resume ∧ x.b.pending c = some call ∨
        ∃ fuel, op = .call (.start call fuel))) ∨
    (∃ c call fuel k, x.sys.Runs idle c ∧ x.b.pending c = none ∧ x.b.Blocks fuel x.sys.k call k ∧
      x' =
        { sys := x.sys.wait c call.list x.b.mb.flag k
          b := { x.b with pending := update x.b.pending c (some call) } }) ∨
    ∃ sys, x.sys.elapse idle x.b.pending op = some sys ∧ x' = { x with sys := sys } := by
  cases op with
  | call part =>
    cases part with
    | start call fuel =>
      obtain ⟨c, hc, hcall⟩ := bind_eq_some_iff.mp h
      obtain ⟨-, hrun, hnone⟩ := BlockSys.of_free hc
      unfold MailRun.call at hcall
      split at hcall
      · cases hcall
      · -- the call is decided at once
        rename_i e k b hbegin
        obtain ⟨sys, hadv, rfl⟩ := map_eq_some_iff.mp hcall
        obtain ⟨e', he, hdec, hnow⟩ | ⟨hblock, -⟩ := MailState.begin_cases hbegin
        · cases he
          exact .inl ⟨c, call, ⟨hrun, .inr ⟨hnone, hnow⟩, e, k, hdec, hadv⟩,
            .inr ⟨fuel, rfl⟩⟩
        · cases hblock
      · -- the call blocks
        rename_i k b hbegin
        obtain ⟨e', he, -⟩ | ⟨-, hblock, rfl⟩ := MailState.begin_cases hbegin
        · cases he
        · cases hcall
          exact .inr (.inl ⟨c, call, fuel, k, hrun, hnone, hblock, rfl⟩)
    | resume =>
      obtain ⟨c, hc, hresume⟩ := bind_eq_some_iff.mp h
      obtain ⟨⟨e, k, b⟩, hrest, hdecide⟩ := bind_eq_some_iff.mp hresume
      obtain ⟨sys, hadv, rfl⟩ := map_eq_some_iff.mp hdecide
      obtain ⟨call, hpending, hdec⟩ := MailState.resume_cases hrest
      exact .inl ⟨c, call,
        ⟨BlockSys.runs_of_caller hc, .inl hpending, e, k, hdec, hadv⟩, .inl ⟨rfl, hpending⟩⟩
  | sleep | schedule | tick =>
    obtain ⟨sys, hsys, rfl⟩ := map_eq_some_iff.mp h
    exact .inr (.inr ⟨sys, hsys, rfl⟩)

/-- A call of thread `c` returns an error, or stores or takes a mail and resumes the first
    receiver. -/
inductive Outcome (x x' : MailRun) (c : Tid) : MailCall → Prop where
  | error (call : MailCall) (code : SkErr) (hcode : code ≠ .eok)
      (hempty : ∀ timeout, call = .recv timeout → x.b.mb.entry = 0) (hsys : x'.sys = x.sys)
      (hb : x'.b = x.b.finish c call code none) : Outcome x x' c call
  | put (value : BitVec 64) (timeout : Int) (hlt : x.b.mb.entry < x.b.mb.size)
      (hwake : x.sys.ResumesFirst 0 x'.sys)
      (hb : x'.b = (x.b.put value).finish c (.send value timeout) .eok none) :
      Outcome x x' c (.send value timeout)
  | get (timeout : Int) (hpos : 0 < x.b.mb.entry) (hwake : x.sys.ResumesFirst 0 x'.sys)
      (hb : x'.b = x.b.get.finish c (.recv timeout) .eok (some (x.b.mail x.b.mb.outOffset))) :
      Outcome x x' c (.recv timeout)

theorem Deciding.outcome (h : MailInv x.b) (hd : x.Deciding idle x' c call) :
    x.Outcome x' c call := by
  obtain ⟨e, k, hdec, hadv⟩ := hd.decides
  obtain ⟨sys', b'⟩ := x'
  dsimp only at hdec hadv
  cases hdec with
  | full =>
    exact .error _ .efull (by decide) (by simp) (some.inj hadv).symm rfl
  | empty timeout hempty =>
    exact .error _ .etimeout (by decide) (fun _ _ => hempty) (some.inj hadv).symm rfl
  | overfull =>
    have := h.entry_le
    omega
  | put value timeout hlt hwake => exact .put value timeout hlt ⟨e, k, hwake, hadv⟩ rfl
  | get timeout hpos hwake => exact .get timeout hpos ⟨e, k, hwake, hadv⟩ rfl

end MailRun

/-! ## Wake-up -/

namespace MailRun

end MailRun

/-- The kernel runs as it should and the mailbox is in order. -/
structure MailWaitInv (idle : Tid) (x : MailRun) : Prop where
  block : BlockInv idle x.sys
  mail : MailInv x.b

namespace MailWaitInv

theorem advance (h : BlockInv idle x.sys) (hrun : x.sys.Runs idle c)
    (hwake : x.sys.ResumesFirst 0 x'.sys) : BlockInv idle x'.sys := by
  rcases h.resumesFirst_cases hwake with ⟨heq, -, -⟩ | ⟨t, ht, heq⟩
  · rw [heq]
    exact h
  · rw [heq]
    exact h.resume_blocked hrun ht

theorem step (h : MailWaitInv idle x) (hguard : x.sys.StaySuspended op)
    (hstep : x.step idle op = some x') : MailWaitInv idle x' := by
  rcases MailRun.step_cases hstep with
    ⟨c, call, hd, -⟩ | ⟨c, call, fuel, k, hrun, -, hblock, rfl⟩ | ⟨sys, helapse, rfl⟩
  · obtain ⟨e, k, hdec, -⟩ := hd.decides
    refine ⟨?_, h.mail.decides hdec⟩
    cases hd.outcome h.mail with
    | error _ code hcode hempty hsys =>
      rw [hsys]
      exact h.block
    | put value timeout hlt hwake => exact advance h.block hd.runs hwake
    | get timeout hpos hwake => exact advance h.block hd.runs hwake
  · refine ⟨?_, h.mail.block _⟩
    cases hblock with
    | send value timeout hfull htime hblock => exact h.block.wait hrun hblock
    | recv timeout hempty htime hblock => exact h.block.wait hrun hblock
  · exact ⟨(h.block.elapse hguard helapse).1, h.mail⟩

theorem init (h : (mailRunSystem idle).init x) : MailWaitInv idle x := by
  obtain ⟨hsys, -, hlog, msgpool, size, flag, hpos, hle, hmb⟩ := h
  exact ⟨BlockInv.of_started hsys, MailInv.init hpos hle hmb hlog⟩

theorem of_reach (h : (mailRunSystem idle).Reach (·.sys.StaySuspended ·) x) :
    MailWaitInv idle x :=
  h.invariant (fun _ => init) fun _ _ _ hinv => hinv.step

end MailWaitInv

namespace MailState

/-- Thread `t` has blocked in a receive without a timeout. -/
def forever (b : MailState) (t : Tid) : Bool :=
  match b.pending t with
  | some (.recv timeout) => decide (timeout < 0)
  | _ => false

/-- Thread `t` has blocked in a receive. -/
def receiving (b : MailState) (t : Tid) : Bool :=
  match b.pending t with
  | some (.recv _) => true
  | _ => false

/-- The receives without a timeout return `SK_EOK` and a mail that has been sent. -/
def ReturnsMail (b : MailState) : Prop :=
  ∀ r ∈ b.log, ∀ timeout < 0, r.call = .recv timeout →
    r.code = .eok ∧ ∃ value ∈ b.sent, r.value = some value

end MailState

namespace MailRun

/-- The receivers without a timeout that need a mail when `c` has taken one: those awake, and the
    one it wakes. -/
def others (x : MailRun) (c : Tid) : Finset Tid :=
  (x.sys.awake x.b.forever).erase c ∪ x.sys.nextAwake 0 x.b.forever

/-- A receive that takes a mail leaves enough mails for the other receivers. -/
def LeavesMails (x : MailRun) : Prop :=
  ∀ c ∈ x.sys.k.sched.currentThread, 0 < x.b.mb.entry → (x.others c).card < x.b.mb.entry

/-- The receives leave enough mails, and the ticks are sound. -/
def Spares (x : MailRun) : IpcOp MailPart → Prop
  | .call (.start (.recv _) _) => x.LeavesMails
  | .call .resume => (∀ c ∈ x.sys.k.sched.currentThread, x.b.receiving c = true) → x.LeavesMails
  | .tick _ => TickSound x.sys x.b.forever
  | _ => True

instance (x : MailRun) : Decidable x.LeavesMails :=
  inferInstanceAs (Decidable (∀ c ∈ _, _ → _))

instance (x : MailRun) (op : IpcOp MailPart) : Decidable (x.Spares op) :=
  match op with
  | .call (.start (.recv _) _) => inferInstanceAs (Decidable x.LeavesMails)
  | .call .resume => inferInstanceAs (Decidable (_ → x.LeavesMails))
  | .tick _ => inferInstanceAs (Decidable (TickSound x.sys x.b.forever))
  | .call (.start (.send _ _) _) | .sleep _ | .schedule => isTrue trivial

theorem Spares.onTick (h : x.Spares op) : op.OnTick (TickSound x.sys x.b.forever) := by
  cases op with
  | tick => exact h
  | call | sleep | schedule => trivial

end MailRun

/-- There is a mail for every receiver without a timeout that is awake, the mailbox is in order, and
    receives without a timeout have returned a mail. -/
structure MailRunInv (idle : Tid) (x : MailRun) : Prop where
  recv : RecvInv idle x.sys x.b.forever x.b.mb.entry
  mail : MailInv x.b
  returns : x.b.ReturnsMail

namespace MailRunInv

theorem forever_of_finish (hpending : b'.pending = update b.pending c none)
    (hf : b'.forever t = true) :
    b.forever t = true ∧ t ≠ c := by
  unfold MailState.forever at hf ⊢
  rw [hpending] at hf
  by_cases htc : t = c
  · rw [htc, update_self] at hf
    cases hf
  · rw [update_of_ne htc] at hf
    exact ⟨hf, htc⟩

theorem sent_subset (hlog : b'.log = b.log ++ [r]) :
    b.sent ⊆ b'.sent := by
  intro v hv
  unfold MailState.sent at hv ⊢
  rw [hlog, filterMap_append]
  exact mem_append_left _ hv

theorem returns_append (h : b.ReturnsMail) (hlog : b'.log = b.log ++ [r])
    (hnew : ∀ timeout < 0, r.call = .recv timeout →
      r.code = .eok ∧ ∃ value ∈ b.sent, r.value = some value) : b'.ReturnsMail := by
  have hmem : ∀ r' ∈ b'.log, ∀ timeout < 0, r'.call = .recv timeout →
      r'.code = .eok ∧ ∃ value ∈ b.sent, r'.value = some value := by
    rw [hlog]
    exact forall_mem_snoc h hnew
  intro r' hr' timeout htime hcall
  obtain ⟨hcode, value, hv, hvalue⟩ := hmem r' hr' timeout htime hcall
  exact ⟨hcode, value, sent_subset hlog hv, hvalue⟩

/-- A receive that finds no mail has a timeout. -/
theorem error (h : MailRunInv idle x) (hd : x.Deciding idle x' c call)
    (hempty : ∀ timeout, call = .recv timeout → x.b.mb.entry = 0) (htime : timeout < 0)
    (hcall : call = .recv timeout) : False := by
  have hzero := hempty timeout hcall
  cases hd.pending with
  | inl hpending =>
    have hf : x.b.forever c = true := by
      unfold MailState.forever
      rw [hpending, hcall]
      exact decide_eq_true htime
    have hpos := h.recv.entry_pos hd.runs hf
    omega
  | inr hnow =>
    have := hnow.2 timeout hcall hzero
    omega

/-- One more mail for one more thread. -/
theorem put (h : MailRunInv idle x) (hrun : x.sys.Runs idle c) {value : BitVec 64}
    (hlt : x.b.mb.entry < x.b.mb.size) (hwake : x.sys.ResumesFirst 0 x'.sys)
    (hb : x'.b = (x.b.put value).finish c (.send value timeout) .eok none) :
    MailRunInv idle x' := by
  have hforever : ∀ t, x'.b.forever t = true → x.b.forever t = true := by
    intro t hf
    exact (forever_of_finish (c := c) (by rw [hb]; rfl) hf).1
  have hentry : x'.b.mb.entry = x.b.mb.entry + 1 := by
    rw [hb]
    exact Nat.mod_eq_of_lt (Nat.lt_of_le_of_lt hlt h.mail.size_lt)
  refine ⟨?_, ?_, ?_⟩
  · rw [hentry]
    exact h.recv.wake hrun hwake hforever h.recv.card_union_next_le
  · rw [hb]
    exact h.mail.put hlt value timeout
  · refine returns_append h.returns (by rw [hb]; rfl) ?_
    intro _ _ hcall
    cases hcall

/-- There is a mail for the receiver it wakes, too. -/
theorem get (h : MailRunInv idle x) (hrun : x.sys.Runs idle c) (hpos : 0 < x.b.mb.entry)
    (hspare : (x.others c).card < x.b.mb.entry) (hwake : x.sys.ResumesFirst 0 x'.sys)
    (hb : x'.b = x.b.get.finish c (.recv timeout) .eok (some (x.b.mail x.b.mb.outOffset))) :
    MailRunInv idle x' := by
  have hforever : ∀ t, x'.b.forever t = true → x.b.forever t = true ∧ t ≠ c := by
    intro t hf
    exact forever_of_finish (by rw [hb]; rfl) hf
  have hentry : x'.b.mb.entry = x.b.mb.entry - 1 := by
    rw [hb]
    rfl
  refine ⟨?_, ?_, ?_⟩
  · refine h.recv.advance hrun hwake ?_
    rw [hentry]
    refine Nat.le_trans (Finset.card_le_card ?_) (Nat.le_sub_one_of_lt hspare)
    exact Finset.union_subset_union (RecvInv.awake_subset_erase hforever)
      (BlockSys.nextAwake_subset fun t hf => (hforever t hf).1)
  · rw [hb]
    exact h.mail.get hpos timeout
  · refine returns_append h.returns (by rw [hb]; rfl) ?_
    intro _ _ _
    refine ⟨rfl, _, ?_, rfl⟩
    -- the mail that is taken is the first of those stored
    rw [← h.mail.fifo, h.mail.stored_get hpos]
    exact mem_append_right _ mem_cons_self

theorem spares (hd : x.Deciding idle x' c (.recv timeout)) (hguard : x.Spares op)
    (hop : op = .call .resume ∧ x.b.pending c = some (.recv timeout) ∨
      ∃ fuel, op = .call (.start (.recv timeout) fuel)) (hpos : 0 < x.b.mb.entry) :
    (x.others c).card < x.b.mb.entry := by
  have hcur : x.sys.k.sched.currentThread = some c := hd.runs.1
  have hleaves : x.LeavesMails := by
    rcases hop with ⟨rfl, hpending⟩ | ⟨fuel, rfl⟩
    · refine hguard ?_
      intro e he
      cases hcur.symm.trans he
      unfold MailState.receiving
      rw [hpending]
    · exact hguard
  exact hleaves c hcur hpos

/-- A call blocks. -/
theorem block (h : MailRunInv idle x) (hrun : x.sys.Runs idle c)
    {fuel : Nat} {k : Kernel} (hblock : x.b.Blocks fuel x.sys.k call k) :
    MailRunInv idle
      { sys := x.sys.wait c call.list x.b.mb.flag k
        b := { x.b with pending := update x.b.pending c (some call) } } := by
  refine ⟨?_, h.mail.block _, h.returns⟩
  have hforever : ∀ t, t ≠ c →
      MailState.forever { x.b with pending := update x.b.pending c (some call) } t =
        true → x.b.forever t = true := by
    intro t htc hf
    unfold MailState.forever at hf ⊢
    dsimp only at hf
    rwa [update_of_ne htc] at hf
  cases hblock with
  | send value timeout hfull htime hblock => exact h.recv.wait hrun hblock hforever
  | recv timeout hempty htime hblock => exact h.recv.wait hrun hblock hforever

theorem step (h : MailRunInv idle x) (hguard : x.Spares op) (hstep : x.step idle op = some x') :
    MailRunInv idle x' := by
  rcases MailRun.step_cases hstep with
    ⟨c, call, hd, hop⟩ | ⟨c, call, fuel, k, hrun, -, hblock, rfl⟩ | ⟨sys, helapse, rfl⟩
  · cases hd.outcome h.mail with
    | error _ code hcode hempty hsys hb =>
      refine ⟨?_, ?_, ?_⟩
      · rw [hsys, hb]
        exact h.recv.mono fun t hf => (forever_of_finish (c := c) rfl hf).1
      · rw [hb]
        exact h.mail.finish_error hcode none
      · refine returns_append h.returns (by rw [hb]; rfl) ?_
        intro timeout htime hcall
        exact (h.error hd hempty htime hcall).elim
    | put value timeout hlt hwake hb => exact h.put hd.runs hlt hwake hb
    | get timeout hpos hwake hb =>
      exact h.get hd.runs hpos (spares hd hguard hop hpos) hwake hb
  · exact h.block hrun hblock
  · exact ⟨h.recv.elapse hguard.onTick helapse, h.mail, h.returns⟩

theorem init (h : (mailRunSystem idle).init x) : MailRunInv idle x := by
  obtain ⟨hsys, hpending, hlog, msgpool, size, flag, hpos, hle, hmb⟩ := h
  have hforever : x.b.forever = fun _ => false := by
    funext t
    unfold MailState.forever
    rw [hpending]
  refine ⟨?_, MailInv.init hpos hle hmb hlog, ?_⟩
  · rw [hforever]
    exact RecvInv.init hsys
  · intro r hr
    rw [hlog] at hr
    cases hr

end MailRunInv

end SKernel.Spec
