import SKernel.Spec.RestoresMask

/-!
# Calls with interrupts masked

A thread may call the kernel with interrupts masked. Then nobody else runs until the call gives up
the processor, and the data of the kernel at its start say in which states it calls `sk_schedule`,
one after the other until one of these calls selects another thread: the outline of the call.

## Key results

- `FollowsAt.skSchedule`: `sk_schedule` gives up the processor if it selects another thread
- `Follows.bind`, `Follows.section_bind`: the outline of code from the outlines of its parts
-/

namespace SKernel.Spec

open Native
open Option hiding bind_apply
open StateT (bind_apply)

variable {σ α β : Type} {c c' c0 : Cpu σ} {d : KernelData σ} {y : KernM σ α} {f : α → KernM σ β}

/-! ## The selection of `sk_schedule` -/

/-- `sk_schedule`, called in this state, selects another thread than the current one. -/
def SelectsOther (s : Sched) : Prop :=
  s.readyPrioGroup ≠ 0 ∧ ∃ current ∈ s.currentThread, ∃ hp ∈ scheduleGetHpThread s,
    ¬((s.thread current).stat = threadRunning ∧ (s.thread current).currentPri ≤ hp.2) ∧
      current ≠ hp.1

instance (s : Sched) : Decidable (SelectsOther s) := inferInstanceAs (Decidable (_ ∧ _))

theorem selectsOther_iff {s s' : Sched} (h : skSchedule s = some s') :
    SelectsOther s ↔ switchTarget s s' ≠ none := by
  unfold Native.skSchedule at h
  split at h
  · rename_i hgroup
    split at h
    · rename_i current hp readyHpPrio hcur hhp
      simp only [SelectsOther, hcur, hhp, hgroup, mem_some_iff, true_and, exists_eq_left',
        ne_eq, not_false_eq_true]
      dsimp only at h
      split_ifs at h with hkeep hne hne
      · exact absurd rfl hne
      · cases h
        simp only [hkeep, and_self, not_true_eq_false, false_and, switchTarget_self]
      · cases h
        simp only [hkeep, not_false_eq_true, true_and, switchTarget, hcur,
          scheduleSwitch_currentThread, hne, ne_eq, if_true, reduceCtorEq]
      · cases h
        simp only [not_not.mp hne, not_true_eq_false, and_false, switchTarget_self]
    · cases h
  · rename_i hgroup
    cases h
    simp only [SelectsOther, hgroup, false_and, switchTarget_self, not_true_eq_false, ne_eq]

/-! ## Code that a thread runs with interrupts masked -/

/-- A thread runs with interrupts masked. -/
structure InSection (c : Cpu σ) : Prop where
  daif : c.daif = .masked
  nest : c.interruptNest = 0
  spsr : c.spsr = .unmasked

theorem InSection.work (h : InSection c) (d : KernelData σ) : InSection { c with data := d } :=
  ⟨h.daif, h.nest, h.spsr⟩

/-- What the code comes to: the states in which it calls `sk_schedule`, one after the other, and
    the data at its end, as long as none of these calls selects another thread. -/
structure Outline (σ : Type) where
  calls : List Sched
  data : Option (KernelData σ)

namespace Outline

/-- The code gives up the processor. -/
def Switches (o : Outline σ) : Prop := ∃ s ∈ o.calls, SelectsOther s

instance (o : Outline σ) : Decidable o.Switches := inferInstanceAs (Decidable (∃ _ ∈ _, _))

/-- The code does not return. -/
def stuck : Outline σ := ⟨[], none⟩

/-- The code returns with these data. -/
def ret (d : KernelData σ) : Outline σ := ⟨[], some d⟩

/-- The code calls `sk_schedule`. -/
def schedule (d : KernelData σ) : Outline σ := ⟨[d.k.sched], some d⟩

/-- One part of the code after another. -/
def andThen (o : Outline σ) (next : KernelData σ → Outline σ) : Outline σ :=
  match o.data with
  | none => o
  | some d => ⟨o.calls ++ (next d).calls, (next d).data⟩

/-- What follows the part of a call in which it masks interrupts. -/
def ofEnd : CallEnd → KernelData σ → Outline σ
  | .ret _ => ret
  | .schedule => schedule

/-- The same for a call that may block and look again. -/
def ofSegEnd (rest : KernelData σ → Outline σ) : SegEnd → KernelData σ → Outline σ
  | .done e => ofEnd e
  | .block => fun d => (schedule d).andThen rest

/-- A part in which the call masks interrupts, and what follows. -/
def ofSection (next : α → KernelData σ → Outline σ) (sec : Option (α × KernelData σ)) :
    Outline σ :=
  sec.elim stuck fun r => next r.1 r.2

end Outline

/-- Started in `c`, the code gives up the processor if its outline says so, and otherwise has no
    effect but on the data. -/
def FollowsAt (x : KernM σ α) (c : Cpu σ) (o : Outline σ) : Prop :=
  ∀ a c', x c = some (a, c') →
    (o.Switches → c.switches < c'.switches ∧ Sane c') ∧
    (¬o.Switches → ∃ d, o.data = some d ∧ c' = { c with data := d })

namespace FollowsAt

variable {x : KernM σ α} {o : Outline σ}

theorem stuck (h : x c = none) : FollowsAt x c o := fun _ _ hrun => nomatch h.symm.trans hrun

theorem ret {a : α} (h : x c = some (a, { c with data := d })) :
    FollowsAt x c (.ret d) := by
  intro b c' hrun
  cases h.symm.trans hrun
  refine ⟨?_, fun _ => ⟨d, rfl, rfl⟩⟩
  rintro ⟨_, hs, _⟩
  cases hs

/-- Work on the data comes first. -/
theorem work (h : FollowsAt y { c with data := d } o)
    (hx : x c = y { c with data := d }) : FollowsAt x c o :=
  fun a c' hrun => h a c' (hx.symm.trans hrun)

theorem getData {f : KernelData σ → KernM σ α} (h : FollowsAt (f c.data) c o) :
    FollowsAt (getData >>= f) c o := h

theorem ite {p : Prop} [Decidable p] {o' : Outline σ} (hx : p → FollowsAt x c o)
    (hy : ¬p → FollowsAt y c o') : FollowsAt (if p then x else y) c (if p then o else o') := by
  split
  · exact hx ‹_›
  · exact hy ‹_›

theorem switches_iff (h : FollowsAt x c o) {a : α} (hrun : x c = some (a, c')) :
    c.switches < c'.switches ↔ o.Switches := by
  obtain ⟨hsw, hkeep⟩ := h a c' hrun
  by_cases ho : o.Switches
  · exact iff_of_true (hsw ho).1 ho
  · obtain ⟨d, -, rfl⟩ := hkeep ho
    exact iff_of_false (Nat.lt_irrefl _) ho

theorem map (h : FollowsAt x c o) (f : α → β) : FollowsAt (x >>= fun a => pure (f a)) c o := by
  intro b c' hrun
  obtain ⟨⟨a, _⟩, hx, hpure⟩ := bind_eq_some_iff.mp hrun
  cases hpure
  exact h a c' hx

theorem skSchedule (h : InSection c) : FollowsAt Call.skSchedule c (.schedule c.data) := by
  intro a c' hrun
  rw [Call.skSchedule, disable_bind_of_masked h.daif, bind_apply,
    scheduleSelect_of_masked h.daif] at hrun
  obtain ⟨r, hr, hrun⟩ := bind_eq_some_iff.mp hrun
  obtain ⟨s, hs, rfl⟩ := map_eq_some_iff.mp hr
  have hiff : (Outline.schedule c.data).Switches ↔ switchTarget c.data.k.sched s ≠ none := by
    rw [← selectsOther_iff hs]
    constructor
    · rintro ⟨_, hmem, ho⟩
      exact List.mem_singleton.mp hmem ▸ ho
    · intro ho
      exact ⟨_, .head _, ho⟩
  rw [hiff]
  obtain ⟨ht, rfl⟩ | ⟨fromThread, toThread, ht, -, -⟩ := switchTarget_of_skSchedule hs
  · rw [ht] at hrun ⊢
    cases hrun
    exact ⟨fun h => absurd rfl h, fun _ => ⟨c.data, rfl, rfl⟩⟩
  · rw [ht] at hrun ⊢
    dsimp only [bind_apply, Call.scheduleSwitch, getCpu_apply, bind_some] at hrun
    rw [if_neg (by exact not_not.mpr h.nest)] at hrun
    obtain ⟨⟨u, c1⟩, hsw, hen⟩ := bind_eq_some_iff.mp hrun
    cases hen
    -- the mask comes from the SPSR
    obtain ⟨-, hspsr, hdaif, hcount⟩ := contextSwitch_cpu hsw
    refine ⟨fun _ => ⟨?_, hspsr.trans h.spsr, .inr (hdaif.trans h.spsr)⟩,
      fun h => absurd (some_ne_none _) h⟩
    exact hcount ▸ Nat.lt_succ_self _

end FollowsAt

/-- The outline of code that a thread runs with interrupts masked, from the data at its start. -/
def Follows (x : KernM σ α) (o : KernelData σ → Outline σ) : Prop :=
  ∀ c, InSection c → FollowsAt x c (o c.data)

namespace Follows

variable {x : KernM σ α} {o o' : KernelData σ → Outline σ}

theorem pure (a : α) : Follows (pure a : KernM σ α) .ret := fun _ _ => .ret rfl

theorem skSchedule : Follows (Call.skSchedule : KernM σ Unit) .schedule :=
  fun _ h => .skSchedule h

theorem map (h : Follows x o) (f : α → β) : Follows (x >>= fun a => Pure.pure (f a)) o :=
  fun c hc => (h c hc).map f

theorem disable_bind {f : Daif → KernM σ β} (h : Follows (f .masked) o) :
    Follows (hwInterruptDisable >>= f) o := by
  intro c hc a c' hrun
  rw [disable_bind_of_masked hc.daif] at hrun
  exact h c hc a c' hrun

/-- The second part starts with interrupts masked, unless the first one has given up the
    processor; then it is enough that the count of the switches does not go back. -/
theorem bind (hx : Follows x o) (hf : ∀ a, Follows (f a) o') (hr : ∀ a, RestoresMask
    (f a)) : Follows (x >>= f) fun d => (o d).andThen o' := by
  intro c hc b c' hrun
  obtain ⟨⟨a, c1⟩, hx1, hf1⟩ := bind_eq_some_iff.mp hrun
  obtain ⟨hsw, hkeep⟩ := hx c hc a c1 hx1
  by_cases hfirst : (o c.data).Switches
  · have hboth : ((o c.data).andThen o').Switches := by
      obtain ⟨s, hs, ho⟩ := hfirst
      unfold Outline.andThen
      split
      · exact ⟨s, hs, ho⟩
      · exact ⟨s, List.mem_append_left _ hs, ho⟩
    obtain ⟨hlt, hsane⟩ := hsw hfirst
    have hret := hr a c1 b c' hsane hf1
    exact ⟨fun _ => ⟨hlt.trans_le hret.count, hsane.returned hret⟩, fun h => absurd hboth h⟩
  · obtain ⟨d, hd, rfl⟩ := hkeep hfirst
    have hiff : ((o c.data).andThen o').Switches ↔ (o' d).Switches := by
      simp only [Outline.andThen, hd, Outline.Switches, List.mem_append, or_and_right, exists_or]
      exact or_iff_right hfirst
    have hdata : ((o c.data).andThen o').data = (o' d).data := by
      simp only [Outline.andThen, hd]
    rw [hiff, hdata]
    exact hf a _ (hc.work d) b c' hf1

theorem section_bind (sec : KernelData σ → Option (α × KernelData σ))
    {next : α → KernelData σ → Outline σ} (h : ∀ a, Follows (f a) (next a)) :
    Follows (runSection sec >>= f) fun d => .ofSection next (sec d) := by
  intro c hc
  dsimp only
  cases hsec : sec c.data with
  | none =>
    apply FollowsAt.stuck
    rw [bind_apply, runSection, hsec]
    rfl
  | some r =>
    refine (h r.1 _ (hc.work r.2)).work ?_
    rw [bind_apply, runSection, hsec]
    rfl

theorem finish (e : CallEnd) : Follows (finish .masked e : KernM σ SkErr) (.ofEnd e) := by
  cases e with
  | ret code => exact pure code
  | schedule => exact skSchedule.map fun _ => SkErr.eok

theorem critical (sec : KernelData σ → Option (CallEnd × KernelData σ)) :
    Follows (critical sec) fun d => .ofSection .ofEnd (sec d) :=
  disable_bind (section_bind sec finish)

end Follows

/-! ## Timers -/

/-- The timeout functions of the timers, in outline. -/
abbrev Timeouts (σ : Type) := Tid → KernelData σ → Outline σ

/-- `sk_thread_timeout`. -/
def threadTimeouts : Timeouts σ := fun thread d =>
  .schedule { d with k := { d.k with sched := threadWake d.k.sched thread } }

/-- The loop of `sk_timer_check`. -/
def checkOutline (T : Timeouts σ) : Nat → TimerNode Tid → KernelData σ → Outline σ
  | 0, _, _ => .stuck
  | _ + 1, .head, d => .ret d
  | fuel + 1, .timer i, d =>
    if d.k.timers.skTick ≥ (d.k.timers.timer i).timeoutTick then
      (if (d.k.timers.timer i).isActive then T i d else .ret d).andThen fun d =>
        if d.k.timers.links.next (.timer i) = d.k.timers.links.prev (.timer i) then .ret d
        else
          let timers := if (d.k.timers.timer i).isPeriodic then skTimerStart d.k.timers i
            else timerDeactivate d.k.timers i
          checkOutline T fuel (timers.links.next (.timer i))
            { d with k := { d.k with timers := timers } }
    else checkOutline T fuel (d.k.timers.links.next (.timer i)) d

/-- `sk_timer_check`. -/
def timerCheckOutline (T : Timeouts σ) (fuel : Nat) (d : KernelData σ) : Outline σ :=
  checkOutline T fuel (d.k.timers.links.next .head) d

/-- The time slice of a tick. -/
def sliceOutline (d : KernelData σ) : Outline σ :=
  match d.k.sched.currentThread with
  | none => .stuck
  | some thread =>
    let r := d.k.sched.thread thread
    if remainTickDec r = 0 then
      .schedule { d with k := { d.k with sched := sliceExpired d.k.sched thread } }
    else
      let s := d.k.sched.setThread thread { r with remainTick := remainTickDec r }
      .ret { d with k := { d.k with sched := s } }

/-- `sk_tick_increase`. -/
def tickOutline (T : Timeouts σ) (fuel : Nat) (d : KernelData σ) : Outline σ :=
  (sliceOutline { d with k := { d.k with
    timers := { d.k.timers with skTick := d.k.timers.tickAfter 1 } } }).andThen
    (timerCheckOutline T fuel)

theorem Restores.timerCheckLoop_masked {timeoutFunc : Tid → KernM σ Unit}
    (h : ∀ i, RestoresMask (timeoutFunc i)) (fuel : Nat) (list1 : TimerNode Tid) :
    RestoresMask (Call.timerCheckLoop timeoutFunc .masked fuel list1) := by
  intro c u c' hc hrun
  have hloop := timerCheckLoop h (fun hx => hx.after hc) (enable_again hc (.inl rfl)) fuel list1
  exact hloop.run c u c' (.refl c) hrun

namespace Follows

theorem skThreadTimeout {thread : Tid} :
    Follows (Call.skThreadTimeout thread : KernM σ Unit) (threadTimeouts thread) := by
  apply disable_bind
  intro c hc
  refine (FollowsAt.skSchedule (hc.work _)).work ?_
  rw [bind_apply, threadWake_of_masked hc.daif]
  rfl

theorem tickSlice : Follows (Call.tickSlice .masked : KernM σ Unit) sliceOutline := by
  intro c hc
  unfold sliceOutline
  cases hcur : c.data.k.sched.currentThread with
  | none =>
    apply FollowsAt.stuck
    rw [Call.tickSlice, bind_apply, getSched_apply, bind_some, bind_apply,
      fromOption_apply, hcur]
    rfl
  | some thread =>
    have heq := call_tickSlice_eq hcur
    dsimp only
    by_cases hexpired : remainTickDec (c.data.k.sched.thread thread) = 0
    · rw [if_pos hexpired] at heq ⊢
      exact (FollowsAt.skSchedule (hc.work _)).work heq
    · rw [if_neg hexpired] at heq ⊢
      exact .ret heq

variable {timeoutFunc : Tid → KernM σ Unit} {T : Timeouts σ}
  (h : ∀ i, RestoresMask (timeoutFunc i)) (hT : ∀ i, Follows (timeoutFunc i) (T i))
include h hT

theorem timerCheckLoop (fuel : Nat) (list1 : TimerNode Tid) :
    Follows (Call.timerCheckLoop timeoutFunc .masked fuel list1) (checkOutline T fuel list1) := by
  induction fuel generalizing list1 with
  | zero => exact fun _ _ => .stuck rfl
  | succ fuel ih =>
    cases list1 with
    | head => exact pure ()
    | timer i =>
      have hdue : Follows (Call.timerTimeout timeoutFunc i) fun d =>
          if (d.k.timers.timer i).isActive then T i d else .ret d := by
        intro c hc
        exact .getData (.ite (fun _ => hT i c hc) fun _ => .ret rfl)
      intro c hc
      refine .getData (.ite (fun _ => ?_) fun _ => ih _ c hc)
      refine hdue.bind (fun _ => ?_) (fun _ => ?_) c hc
      · intro c hc
        refine .getData (.ite (fun _ => .ret rfl) fun _ => ?_)
        refine (ih _ _ (hc.work _)).work ?_
        rw [bind_apply, timerRestart_of_masked hc.daif]
        rfl
      · -- the rest of the loop
        exact .bind .getData fun d => .ite (.pure ()) (.bind (.timerRestart i) fun _ =>
          .bind .getData fun d => .timerCheckLoop_masked h fuel _)

theorem skTimerCheck (fuel : Nat) :
    Follows (Call.skTimerCheck timeoutFunc fuel) (timerCheckOutline T fuel) := by
  apply disable_bind
  exact fun c hc => .getData (timerCheckLoop h hT fuel _ c hc)

theorem skTickIncrease {fuel : Nat} :
    Follows (Call.skTickIncrease timeoutFunc fuel) (tickOutline T fuel) := by
  apply disable_bind
  intro c hc
  have hrest := tickSlice.bind (fun _ => skTimerCheck h hT fuel) fun _ => .skTimerCheck h
  exact (hrest _ (hc.work _)).work rfl

end Follows

/-! ## IPC -/

/-- `sk_event_send`. -/
def eventSendOutline (event : Nat) (set : BitVec 16) (needSchedule : Bool) (d : KernelData σ) :
    Outline σ :=
  if set = 0 then .ret d
  else .ofSection .ofEnd (eventSendSection event set needSchedule d)

/-- `sk_event_recv`. -/
def eventRecvOutline (fuel event : Nat) (set : BitVec 32) (option : BitVec 8) (timeout : Int)
    (d : KernelData σ) : Outline σ :=
  if set = 0 then .ret d
  else .ofSection (fun r => .ofEnd r.1) (eventRecvSection fuel event set option timeout d)

/-- `sk_mailbox_send_wait` from the second test on. -/
def mailboxSendRestOutline (mb : Nat) (value : BitVec 64) (d : KernelData σ) : Outline σ :=
  .ofSection .ofEnd (mailboxSendRestSection mb value d)

/-- `sk_mailbox_recv` from the second test on. -/
def mailboxRecvRestOutline (mb : Nat) (d : KernelData σ) : Outline σ :=
  .ofSection (fun r => .ofEnd r.1) (mailboxRecvRestSection mb d)

/-- `sk_msg_queue_send_wait` after it has taken a slot, or not. -/
def msgQueueSendEnd (mq : Nat) (buffer : List UInt8) :
    Except SkErr Nat → KernelData σ → Outline σ
  | .error _, d => .ret d
  | .ok msg, d =>
    .ofSection .ofEnd (msgQueueLinkSection mq msg
      { d with mem := msgQueueSendFill d.mem msg buffer })

/-- `sk_msg_queue_send_wait`. -/
def msgQueueSendOutline (mq : Nat) (buffer : List UInt8) (timeout : Int) (d : KernelData σ) :
    Outline σ :=
  if buffer.length > (d.msgQueue mq).msgSize then .ret d
  else .ofSection (msgQueueSendEnd mq buffer) (msgQueueTakeSection mq timeout d)

/-- `sk_msg_queue_recv` from the second test on. -/
def msgQueueRecvRestOutline (mq : Nat) (d : KernelData σ) : Outline σ :=
  match msgQueueRecvUnlink (d.msgQueue mq) d.mem with
  | none => .stuck
  | some (.error _) => .ret d
  | some (.ok (msg, q)) =>
    .ofSection .ofEnd (msgQueueFreeSection mq msg
      { d with msgQueue := Function.update d.msgQueue mq q })

/-- `sk_msg_queue_recv` after its first part. -/
def msgQueueRecvTail (mq : Nat) : Except SkErr (Option Nat) → KernelData σ → Outline σ
  | .error _, d => .ret d
  | .ok none, d => (Outline.schedule d).andThen (msgQueueRecvRestOutline mq)
  | .ok (some msg), d => .ofSection .ofEnd (msgQueueFreeSection mq msg d)

namespace Follows

variable {fuel event mb mq size msg : Nat} {set : BitVec 32} {option : BitVec 8}
  {value : BitVec 64} {timeout : Int} {buffer : List UInt8}

theorem skEventSend {set : BitVec 16} {needSchedule : Bool} :
    Follows (Call.skEventSend event set needSchedule : KernM σ SkErr)
      (eventSendOutline event set needSchedule) := by
  rw [skEventSend_eq]
  exact fun c hc => .ite (fun _ => .ret rfl) fun _ => critical _ c hc

theorem skEventRecv :
    Follows (Call.skEventRecv fuel event set option timeout :
      KernM σ (SkErr × Option (BitVec 32))) (eventRecvOutline fuel event set option timeout) := by
  have hfinish : ∀ thread r, Follows (eventRecvFinish thread .masked r :
      KernM σ (SkErr × Option (BitVec 32))) (.ofEnd r.1) := by
    rintro thread ⟨e, recved⟩
    cases e with
    | ret code => exact pure _
    | schedule =>
      -- the second part works on nothing
      exact skSchedule.bind (fun _ => disable_bind fun _ _ => .ret rfl) fun _ =>
        .eventRecvRead
  have hrest : ∀ thread, Follows (do
      let level ← hwInterruptDisable
      let r ← runSection (eventRecvSection fuel event set option timeout)
      eventRecvFinish thread level r : KernM σ (SkErr × Option (BitVec 32))) fun d =>
        .ofSection (fun r => .ofEnd r.1) (eventRecvSection fuel event set option timeout d) :=
    fun thread => disable_bind (section_bind _ (hfinish thread))
  rw [skEventRecv_eq]
  refine fun c hc => .ite (fun _ => .ret rfl) fun _ => ?_
  cases hcur : c.data.k.sched.currentThread with
  | none =>
    apply FollowsAt.stuck
    rw [bind_apply, skCurrentThread_apply, hcur]
    rfl
  | some thread =>
    refine (hrest thread c hc).work ?_
    rw [bind_apply, skCurrentThread_apply, hcur]
    rfl

theorem mailboxSendRest :
    Follows (Call.mailboxSendRest mb value .masked : KernM σ SkErr)
      (mailboxSendRestOutline mb value) := fun c hc =>
  (section_bind _ finish c hc).work (mailboxSendRest_of_masked hc.daif (.inl rfl))

theorem skMailboxSendWait :
    Follows (Call.skMailboxSendWait fuel mb value timeout : KernM σ SkErr) fun d =>
      .ofSection (.ofSegEnd (mailboxSendRestOutline mb value))
        (mailboxSendSection fuel mb value timeout d) := by
  rw [skMailboxSendWait_eq]
  apply disable_bind
  apply section_bind
  intro e
  cases e with
  | done e => exact finish e
  | block =>
    refine skSchedule.bind (fun _ => mailboxSendRest) fun _ => ?_
    exact fun c a c' hc hrun =>
      (Restores.mailboxSendRest hc (.inl rfl)).run c a c' (.refl c) hrun

theorem mailboxRecvRest :
    Follows (Call.mailboxRecvRest mb .masked : KernM σ (SkErr × Option (BitVec 64)))
      (mailboxRecvRestOutline mb) := fun c hc =>
  (section_bind (mailboxRecvRestSection mb) (fun r => (finish r.1).map (·, r.2)) c hc).work
    (mailboxRecvRest_of_masked hc.daif (.inl rfl))

theorem skMailboxRecv :
    Follows (Call.skMailboxRecv fuel mb timeout : KernM σ (SkErr × Option (BitVec 64))) fun d =>
      .ofSection (fun r => .ofSegEnd (mailboxRecvRestOutline mb) r.1)
        (mailboxRecvSection fuel mb timeout d) := by
  rw [skMailboxRecv_eq]
  apply disable_bind
  apply section_bind
  rintro ⟨e, value⟩
  cases e with
  | done e => exact (finish e).map fun code => (code, value)
  | block =>
    refine skSchedule.bind (fun _ => mailboxRecvRest) fun _ => ?_
    exact fun c a c' hc hrun =>
      (Restores.mailboxRecvRest hc (.inl rfl)).run c a c' (.refl c) hrun

theorem skMsgQueueSendWait :
    Follows (Call.skMsgQueueSendWait mq buffer timeout : KernM σ SkErr)
      (msgQueueSendOutline mq buffer timeout) := by
  have hfinish : ∀ r, Follows (msgQueueSendFinish mq buffer .masked r : KernM σ SkErr)
      (msgQueueSendEnd mq buffer r) := by
    intro r
    cases r with
    | error code => exact pure code
    | ok msg => exact fun c hc => (critical _ _ (hc.work _)).work rfl
  have hrest : Follows (do
      let level ← hwInterruptDisable
      let r ← runSection (msgQueueTakeSection mq timeout)
      msgQueueSendFinish mq buffer level r : KernM σ SkErr) fun d =>
        .ofSection (msgQueueSendEnd mq buffer) (msgQueueTakeSection mq timeout d) :=
    disable_bind (section_bind _ hfinish)
  rw [skMsgQueueSendWait_eq]
  intro c hc
  exact .getData (.ite (fun _ => .ret rfl) fun _ => hrest c hc)

theorem msgQueueRecvTook :
    Follows (msgQueueRecvTook mq size .masked msg : KernM σ (SkErr × List UInt8)) fun d =>
      .ofSection .ofEnd (msgQueueFreeSection mq msg d) := fun c hc =>
  ((critical (msgQueueFreeSection mq msg)).map
    (fun code => (code, msgQueueRecvCopy (c.data.msgQueue mq) c.data.mem msg size)) c hc).work rfl

theorem msgQueueRecvRest :
    Follows (Call.msgQueueRecvRest mq size .masked : KernM σ (SkErr × List UInt8))
      (msgQueueRecvRestOutline mq) := by
  rw [msgQueueRecvRest_eq]
  intro c hc
  unfold msgQueueRecvRestOutline
  cases hunlink : msgQueueRecvUnlink (c.data.msgQueue mq) c.data.mem with
  | none =>
    apply FollowsAt.stuck
    rw [bind_apply, getData_apply, bind_some, bind_apply, fromOption_apply,
      hunlink]
    rfl
  | some r =>
    have hstart : (do
        let d ← Native.getData
        let r ← fromOption (msgQueueRecvUnlink (d.msgQueue mq) d.mem)
        msgQueueRecvFinish mq size .masked r : KernM σ (SkErr × List UInt8)) c =
        msgQueueRecvFinish mq size .masked r c := by
      rw [bind_apply, getData_apply, bind_some, bind_apply, fromOption_apply,
        hunlink]
      rfl
    cases r with
    | error code => exact .ret hstart
    | ok r => exact (msgQueueRecvTook _ (hc.work _)).work hstart

theorem skMsgQueueRecv :
    Follows (Call.skMsgQueueRecv fuel mq size timeout : KernM σ (SkErr × List UInt8)) fun d =>
      .ofSection (msgQueueRecvTail mq) (msgQueueRecvSection fuel mq timeout d) := by
  rw [skMsgQueueRecv_eq]
  apply disable_bind
  apply section_bind
  intro r
  match r with
  | .error code => exact pure _
  | .ok none =>
    refine skSchedule.bind (fun _ => msgQueueRecvRest) fun _ => ?_
    exact fun c a c' hc hrun =>
      (Restores.msgQueueRecvRest hc (.inl rfl)).run c a c' (.refl c) hrun
  | .ok (some msg) => exact msgQueueRecvTook

end Follows

end SKernel.Spec
