import SKernel.Spec.EventCorrect

/-!
# What a receive of events returns

Threads send events and receive them, sleep, and are interrupted by the timer. A receive that
blocks leaves its request in `event_set` of its thread, where a send that satisfies it leaves the
events; when the thread runs again it returns `SK_EOK` with what is there. What has woken it up is
not looked at, so a receive whose timer has expired returns its request.

The log has an entry for every receive that has returned. It says which events the object had when
the receive was decided: at the call, at the send that has woken the thread up, or at the tick
that has.
-/

namespace SKernel.Spec

open Native Function Option
open List hiding set

/-! ## The system -/

/-- A call of `sk_event_recv`. -/
structure RecvCall where
  o : Nat
  set : BitVec 32
  option : BitVec 8
  deriving DecidableEq

/-- The fields of the thread when the call blocks. -/
def RecvCall.wait (call : RecvCall) : EventWait where
  eventSet := call.set
  eventInfo := call.option

/-- What has woken up a thread, with the events that the object had then. -/
inductive Wakeup where
  | sent (held : BitVec 32)
  | expired (held : BitVec 32)
  deriving DecidableEq

/-- A receive that has returned: its code and `*recved`, the events that the object had when it was
    decided, and whether the timer has woken it up. -/
structure RecvReturn where
  call : RecvCall
  code : SkErr
  recved : Option (BitVec 32)
  held : BitVec 32
  expired : Bool
  deriving DecidableEq

/-- The events were asked for, and the object had them: some, and all of them with the option
    AND. -/
def RecvReturn.Sound (r : RecvReturn) : Prop :=
  ∃ v, r.recved = some v ∧ v &&& r.call.set = v ∧ v &&& r.held = v ∧ v ≠ 0 ∧
    (r.call.option &&& eventFlagAnd ≠ 0 → v = r.call.set)

/-- The system of the events, with the receives that threads have blocked in, and what has woken
    these threads up. -/
structure EventRun where
  ev : EventSys
  pending : Tid → Option RecvCall
  wakeup : Tid → Option Wakeup
  log : List RecvReturn

/-- The events: those of the system, and the rest of a receive that has blocked. -/
inductive EventRunOp where
  | op (op : IpcOp EventCall)
  | finish

namespace EventRun

/-- `sk_event_send`. -/
def send (x : EventRun) (o : Nat) (set : BitVec 16) (needSchedule : Bool) : Option EventRun :=
  (x.ev.send o set needSchedule).map fun (done, ev) =>
    { x with
      ev := ev
      wakeup := match done, x.ev.woken o set with
        | .schedule, some t => update x.wakeup t (some (.sent (x.ev.sentSet o set)))
        | _, _ => x.wakeup }

/-- `sk_event_recv` by thread `c`, up to its call of `sk_schedule`. -/
def recv (x : EventRun) (c : Tid) (o : Nat) (set : BitVec 32) (option : BitVec 8) (timeout : Int)
    (fuel : Nat) : Option EventRun := do
  let (done, _, _, _, recved) ←
    skEventRecv fuel x.ev.sys.k (x.ev.event o) x.ev.wait (.wait o) set option timeout
  let ev ← x.ev.recv c o set option timeout fuel
  match done with
  | .ret code =>
    some { x with
      ev := ev, log := x.log ++ [⟨⟨o, set, option⟩, code, recved, (x.ev.event o).set, false⟩] }
  | .schedule =>
    some { x with ev := ev, pending := update x.pending c (some ⟨o, set, option⟩) }

/-- The timer interrupt. -/
def tick (x : EventRun) (fuel : Nat) : Option EventRun := do
  let (_, fired) ← loggedTick fuel x.ev.sys.k
  let sys ← x.ev.sys.tick fuel
  some { x with
    ev := { x.ev with sys := sys }
    wakeup := fun t =>
      match decide (t ∈ fired), x.pending t, x.wakeup t with
      | true, some call, none => some (.expired (x.ev.event call.o).set)
      | _, _, w => w }

/-- The rest of `sk_event_recv`, when thread `c` runs again. -/
def finish (x : EventRun) (c : Tid) : Option EventRun :=
  (x.pending c).map fun call =>
    { x with
      pending := update x.pending c none
      wakeup := update x.wakeup c none
      log := x.log ++ [match x.wakeup c with
        | some (.sent held) => ⟨call, .eok, some (eventRecvReturn x.ev.wait c), held, false⟩
        | some (.expired held) => ⟨call, .eok, some (eventRecvReturn x.ev.wait c), held, true⟩
        | none =>
          ⟨call, .eok, some (eventRecvReturn x.ev.wait c), (x.ev.event call.o).set, false⟩] }

/-- The state after an event. -/
def step (idle : Tid) (x : EventRun) : EventRunOp → Option EventRun
  | .op (.call (.send o set needSchedule)) =>
    (x.ev.sys.free idle x.pending).bind fun _ => x.send o set needSchedule
  | .op (.call (.recv o set option timeout fuel)) =>
    (x.ev.sys.free idle x.pending).bind fun c => x.recv c o set option timeout fuel
  | .op (.tick fuel) => x.tick fuel
  | .op op =>
    (x.ev.sys.elapse idle x.pending op).map fun sys => { x with ev := { x.ev with sys := sys } }
  | .finish => (x.ev.sys.caller idle).bind x.finish

/-- The threads that have blocked stay suspended until they are woken. -/
def StaySuspended (x : EventRun) : EventRunOp → Prop
  | .op op => x.ev.sys.StaySuspended op
  | .finish => True

instance (x : EventRun) (op : EventRunOp) : Decidable (x.StaySuspended op) :=
  match op with
  | .op op => inferInstanceAs (Decidable (x.ev.sys.StaySuspended op))
  | .finish => isTrue trivial

end EventRun

/-- The system with idle thread `idle`. -/
def eventRunSystem (idle : Tid) : TransitionSystem EventRun EventRunOp where
  init x := (eventSystem idle).init x.ev ∧ x.pending = (fun _ => none) ∧
    x.wakeup = (fun _ => none) ∧ x.log = []
  step := EventRun.step idle

/-! ## The invariant -/

/-- A thread is in no receive, it is blocked, a send has satisfied it, or its timer has expired. -/
inductive RecvStatus :
    Option RecvCall → Option Wakeup → Option Blocking → EventWait → Prop where
  | free {b : Option Blocking} {w : EventWait} (hb : ∀ o, b ≠ some (.linked o)) :
      RecvStatus none none b w
  | blocked (call : RecvCall) {b : Blocking} (hvalid : ValidWait call.wait)
      (hb : b = .linked call.o ∨ b = .unlinked) : RecvStatus (some call) none (some b) call.wait
  | sent {call : RecvCall} {held : BitVec 32} (hvalid : ValidWait call.wait)
      (hsat : EventSatisfied call.wait held) :
      RecvStatus (some call) (some (.sent held)) none (receivedWait call.wait held)
  | expired {call : RecvCall} {held : BitVec 32} (hvalid : ValidWait call.wait) :
      RecvStatus (some call) (some (.expired held)) none call.wait

/-- A receive is sound, or its timer has expired and it returns its request. -/
def RecvReturn.Explained (r : RecvReturn) : Prop :=
  r.code = .eok → if r.expired then r.recved = some r.call.set ∧ r.call.set ≠ 0 else r.Sound

/-- The events, the threads in a receive and the receives that have returned are as they should
    be. -/
structure EventRunInv (idle : Tid) (x : EventRun) : Prop where
  ev : EventInv idle x.ev
  status : ∀ t, RecvStatus (x.pending t) (x.wakeup t) (x.ev.sys.blocked t) (x.ev.wait t)
  log : ∀ r ∈ x.log, r.Explained

variable {idle : Tid} {x x' : EventRun} {c t : Tid} {o : Nat}

/-- What happens besides the calls happens to the threads in no receive too. -/
theorem BlockSys.elapse_none {x x' : BlockSys} {calls : Tid → Option RecvCall}
    {op : IpcOp EventCall} (h : x.elapse idle calls op = some x') :
    x.elapse idle (fun _ => (none : Option Unit)) op = some x' := by
  cases op with
  | sleep ticks =>
    obtain ⟨c, hc, hsleep⟩ := bind_eq_some_iff.mp h
    simp [elapse, free, (of_free hc).1, filter_some, hsleep]
  | call | schedule | tick => exact h

theorem EventRun.step_ev {op : EventRunOp} (hstep : x.step idle op = some x') :
    (op = .finish ∧ x'.ev = x.ev) ∨ ∃ e, op = .op e ∧ x.ev.step idle e = some x'.ev := by
  cases op with
  | finish =>
    obtain ⟨c, -, hfinish⟩ := bind_eq_some_iff.mp hstep
    obtain ⟨call, -, rfl⟩ := map_eq_some_iff.mp hfinish
    exact .inl ⟨rfl, rfl⟩
  | op e =>
    refine .inr ⟨e, rfl, ?_⟩
    cases e with
    | call call =>
      cases call with
      | send =>
        obtain ⟨c, hc, hsend⟩ := bind_eq_some_iff.mp hstep
        obtain ⟨r, hr, rfl⟩ := map_eq_some_iff.mp hsend
        simp only [EventSys.step, (BlockSys.of_free hc).1, bind_some, hr, map_some]
      | recv =>
        obtain ⟨c, hc, hrecv⟩ := bind_eq_some_iff.mp hstep
        obtain ⟨r, -, hrecv⟩ := bind_eq_some_iff.mp hrecv
        obtain ⟨ev, hev, hrecv⟩ := bind_eq_some_iff.mp hrecv
        simp only [EventSys.step, (BlockSys.of_free hc).1, bind_some, hev]
        split at hrecv <;> cases hrecv <;> rfl
    | sleep | schedule =>
      obtain ⟨sys, hsys, rfl⟩ := map_eq_some_iff.mp hstep
      simp only [EventSys.step, BlockSys.elapse_none hsys, map_some]
    | tick fuel =>
      obtain ⟨r, -, htick⟩ := bind_eq_some_iff.mp hstep
      obtain ⟨sys, hsys, htick⟩ := bind_eq_some_iff.mp htick
      cases htick
      simp only [EventSys.step, BlockSys.elapse, hsys, map_some]

/-! ### The events that are returned -/

theorem receivedWait_eventSet {w : EventWait} {held : BitVec 32} (hsat : EventSatisfied w held) :
    (receivedWait w held).eventSet = w.eventSet &&& held := by
  unfold receivedWait
  split
  · rename_i hand
    exact ((satisfied_and_iff hand).mp hsat).symm
  · rfl

theorem sound_of_satisfied (call : RecvCall) {held : BitVec 32} (hvalid : ValidWait call.wait)
    (hsat : EventSatisfied call.wait held) (code : SkErr) (expired : Bool) :
    (RecvReturn.mk call code (some (call.set &&& held)) held expired).Sound := by
  have hsub : call.set &&& held &&& call.set = call.set &&& held := by
    rw [BitVec.and_comm, ← BitVec.and_assoc, BitVec.and_self]
  have hheld : call.set &&& held &&& held = call.set &&& held := by
    rw [BitVec.and_assoc, BitVec.and_self]
  by_cases hand : call.option &&& eventFlagAnd ≠ 0
  · -- all events that were asked for are there
    have hall : call.set &&& held = call.set := (satisfied_and_iff hand).mp hsat
    exact ⟨_, rfl, hsub, hheld, by rw [hall]; exact hvalid.1, fun _ => hall⟩
  · exact ⟨_, rfl, hsub, hheld, (satisfied_or_iff hvalid hand).mp hsat,
      fun h => absurd h hand⟩

/-! ### The steps -/

namespace EventRunInv

section

variable (h : EventRunInv idle x)
include h

theorem pending_of_linked (hb : x.ev.sys.blocked t = some (.linked o)) :
    ∃ call, x.pending t = some call ∧ call.o = o ∧ x.wakeup t = none ∧ ValidWait call.wait ∧
      x.ev.wait t = call.wait := by
  have hstatus := h.status t
  rw [hb] at hstatus
  generalize x.pending t = p, x.wakeup t = w, x.ev.wait t = ew at hstatus
  cases hstatus with
  | free hfree => exact absurd rfl (hfree o)
  | blocked call hvalid hlist =>
    cases hlist with
    | inl heq => exact ⟨_, rfl, (Blocking.linked.inj heq).symm, rfl, hvalid, rfl⟩
    | inr heq => cases heq

theorem of_free (hfree : x.pending t = none) :
    x.wakeup t = none ∧ ∀ o, x.ev.sys.blocked t ≠ some (.linked o) := by
  have hstatus := h.status t
  rw [hfree] at hstatus
  generalize x.wakeup t = w, x.ev.wait t = ew at hstatus
  cases hstatus with
  | free hb => exact ⟨rfl, hb⟩

/-- `sk_event_send` keeps the invariant. -/
theorem send (hinv : EventInv idle x'.ev) {set : BitVec 16} {needSchedule : Bool}
    (hsend : x.send o set needSchedule = some x') : EventRunInv idle x' := by
  obtain ⟨⟨done, ev⟩, hev, rfl⟩ := map_eq_some_iff.mp hsend
  by_cases hset : set = 0
  · rw [hset, EventSys.send_zero] at hev
    cases hev
    exact ⟨hinv, h.status, h.log⟩
  cases h.ev.send_cases (o := o) hset needSchedule with
  | inl hnobody =>
    obtain ⟨hwoken, hret⟩ := hnobody
    cases hret.symm.trans hev
    refine ⟨hinv, ?_, h.log⟩
    simp only [hwoken]
    cases needSchedule <;> exact h.status
  | inr hfirst =>
    obtain ⟨t, hwoken, ht, hret⟩ := hfirst
    cases hret.symm.trans hev
    refine ⟨hinv, ?_, h.log⟩
    simp only [hwoken]
    intro u
    by_cases hut : u = t
    · -- the first thread waits for the events, and they satisfy it
      subst hut
      obtain ⟨call, hpending, -, -, hvalid, hwait⟩ := h.pending_of_linked ht.linked
      have hsat : EventSatisfied (x.ev.wait u) (x.ev.sentSet o set) := by
        unfold EventSys.woken at hwoken
        exact of_decide_eq_true (filter_eq_some_iff.mp hwoken).2
      rw [hwait] at hsat
      simp only [BlockSys.resume, update_self, hpending, hwait]
      exact .sent hvalid hsat
    · simp only [BlockSys.resume, update_of_ne hut]
      exact h.status u

/-- `sk_event_recv` keeps the invariant. -/
theorem recv (hinv : EventInv idle x'.ev) (hrun : x.ev.sys.Runs idle c) (hfree : x.pending c = none)
    {set : BitVec 32} {option : BitVec 8} {timeout : Int} {fuel : Nat}
    (hrecv : x.recv c o set option timeout fuel = some x') : EventRunInv idle x' := by
  obtain ⟨⟨done, k, event, wait, recved⟩, hcall, hrecv⟩ := bind_eq_some_iff.mp hrecv
  obtain ⟨ev, hev, hrecv⟩ := bind_eq_some_iff.mp hrecv
  unfold EventSys.recv at hev
  rw [hcall, map_some] at hev
  cases hev
  -- the caller is in no receive, whatever its fields hold
  have hstatus : ∀ w t, RecvStatus (x.pending t) (x.wakeup t) (x.ev.sys.blocked t)
      (update x.ev.wait c w t) := by
    intro w t
    by_cases htc : t = c
    · obtain ⟨hwakeup, hb⟩ := h.of_free hfree
      rw [htc, hfree, hwakeup]
      exact .free hb
    · rw [update_of_ne htc]
      exact h.status t
  cases recvOutcome hrun.1 hcall with
  | refused hcode =>
    cases hrecv
    exact ⟨hinv, h.status, forall_mem_snoc h.log fun heok => absurd heok hcode⟩
  | received hset hmatch =>
    cases hrecv
    refine ⟨hinv, hstatus _, forall_mem_snoc h.log fun _ => ?_⟩
    rw [if_neg Bool.false_ne_true, BitVec.and_comm]
    exact sound_of_satisfied ⟨o, set, option⟩ (validWait_of_eventMatch hset hmatch) hmatch _ _
  | blocks hset hmatch _ hblock =>
    cases hrecv
    refine ⟨hinv, ?_, h.log⟩
    intro t
    by_cases htc : t = c
    · subst htc
      simp only [BlockSys.wait, update_self, (h.of_free hfree).1]
      refine .blocked ⟨o, set, option⟩ (validWait_of_eventMatch hset hmatch) ?_
      split
      · exact .inl rfl
      · exact .inr rfl
    · simp only [BlockSys.wait, update_of_ne htc]
      exact h.status t

/-- The receives whose timer expires are marked. -/
theorem tick (hinv : EventInv idle x'.ev) {fuel : Nat} (htick : x.tick fuel = some x') :
    EventRunInv idle x' := by
  obtain ⟨⟨k, fired⟩, hlogged, htick⟩ := bind_eq_some_iff.mp htick
  obtain ⟨sys, hsys, htick⟩ := bind_eq_some_iff.mp htick
  cases htick
  unfold BlockSys.tick at hsys
  rw [hlogged, map_some] at hsys
  cases hsys
  refine ⟨hinv, ?_, h.log⟩
  intro t
  have hstatus := h.status t
  dsimp only
  by_cases ht : t ∈ fired
  · rw [if_pos ht, decide_eq_true ht]
    generalize x.pending t = p, x.wakeup t = w, x.ev.sys.blocked t = b, x.ev.wait t = ew at hstatus
    cases hstatus with
    | free _ => exact .free fun o hb => nomatch hb
    | blocked call hvalid _ => exact .expired hvalid
    -- a send came first, and its reason stays
    | sent hvalid hsat => exact .sent hvalid hsat
    | expired hvalid => exact .expired hvalid
  · rw [if_neg ht, decide_eq_false ht]
    exact hstatus

/-- A thread that runs again returns from its receive. -/
theorem finish (hrun : x.ev.sys.Runs idle c) (hfinish : x.finish c = some x') :
    EventRunInv idle x' := by
  obtain ⟨call, hpending, rfl⟩ := map_eq_some_iff.mp hfinish
  -- it is not blocked, so something has woken it up
  obtain ⟨hunlinked, hlinked⟩ := h.ev.block.not_blocked hrun
  have hstatus := h.status c
  rw [hpending] at hstatus
  refine ⟨h.ev, ?_, forall_mem_snoc h.log ?_⟩
  · intro t
    by_cases htc : t = c
    · rw [htc]
      simp only [update_self]
      exact .free hlinked
    · simp only [update_of_ne htc]
      exact h.status t
  · unfold eventRecvReturn
    generalize x.wakeup c = w, x.ev.sys.blocked c = b, x.ev.wait c = ew at *
    cases hstatus with
    | blocked _ _ hb =>
      cases hb with
      | inl heq => exact absurd (congrArg some heq) (hlinked _)
      | inr heq => exact absurd (congrArg some heq) hunlinked
    | sent hvalid hsat =>
      intro _
      rw [if_neg Bool.false_ne_true, receivedWait_eventSet hsat]
      exact sound_of_satisfied call hvalid hsat _ _
    | expired hvalid =>
      intro _
      exact ⟨rfl, hvalid.1⟩

/-- A thread that goes to sleep is in no receive. -/
theorem sleep {ticks : Nat} {sys : BlockSys} (hinv : EventInv idle { x.ev with sys := sys })
    (hsleep : x.ev.sys.elapse idle x.pending (.sleep ticks : IpcOp EventCall) = some sys) :
    EventRunInv idle { x with ev := { x.ev with sys := sys } } := by
  obtain ⟨c, hc, hsleep⟩ := bind_eq_some_iff.mp hsleep
  obtain ⟨hcaller, -, hfree⟩ := BlockSys.of_free hc
  obtain ⟨c', hc', hmap⟩ := bind_eq_some_iff.mp hsleep
  obtain ⟨k, -, rfl⟩ := map_eq_some_iff.mp hmap
  cases hcaller.symm.trans hc'
  refine ⟨hinv, ?_, h.log⟩
  intro t
  by_cases htc : t = c
  · simp only [htc, update_self, hfree, (h.of_free hfree).1]
    exact .free fun o hb => nomatch hb
  · simp only [update_of_ne htc]
    exact h.status t

theorem step {op : EventRunOp} (hguard : x.StaySuspended op) (hstep : x.step idle op = some x') :
    EventRunInv idle x' := by
  have hinv : EventInv idle x'.ev := by
    rcases EventRun.step_ev hstep with ⟨-, hev⟩ | ⟨e, rfl, hev⟩
    · rw [hev]
      exact h.ev
    · exact h.ev.step hguard hev
  cases op with
  | finish =>
    obtain ⟨c, hc, hfinish⟩ := bind_eq_some_iff.mp hstep
    exact h.finish (BlockSys.runs_of_caller hc) hfinish
  | op op =>
    cases op with
    | call call =>
      cases call with
      | send =>
        obtain ⟨c, hc, hsend⟩ := bind_eq_some_iff.mp hstep
        exact h.send hinv hsend
      | recv =>
        obtain ⟨c, hc, hrecv⟩ := bind_eq_some_iff.mp hstep
        obtain ⟨-, hrun, hfree⟩ := BlockSys.of_free hc
        exact h.recv hinv hrun hfree hrecv
    | sleep ticks =>
      obtain ⟨sys, hsleep, rfl⟩ := map_eq_some_iff.mp hstep
      exact h.sleep hinv hsleep
    | schedule =>
      obtain ⟨sys, hsys, rfl⟩ := map_eq_some_iff.mp hstep
      refine ⟨hinv, ?_, h.log⟩
      simp only [(h.ev.block.schedule_blocked hsys).2]
      exact h.status
    | tick fuel => exact h.tick hinv hstep

end

theorem init (h : (eventRunSystem idle).init x) : EventRunInv idle x := by
  obtain ⟨hev, hpending, hwakeup, hlog⟩ := h
  refine ⟨EventInv.init hev, ?_, ?_⟩
  · intro t
    rw [hpending, hwakeup, hev.1.2.2.2.2]
    exact .free fun o hb => nomatch hb
  · rw [hlog]
    intro r hr
    cases hr

end EventRunInv

theorem EventRunInv.of_reach (h : (eventRunSystem idle).Reach EventRun.StaySuspended x) :
    EventRunInv idle x :=
  h.invariant (fun _ => EventRunInv.init) fun _ _ _ hinv => hinv.step

/-! ## Soundness -/

/-- **A receive that returns `SK_EOK` returns events that it has asked for and that the object
    had, exactly unless its timer has expired when the object had not all events that it has
    asked for.** -/
theorem event_recv_sound_iff (h : (eventRunSystem idle).Reach EventRun.StaySuspended x)
    {r : RecvReturn} (hr : r ∈ x.log) (hcode : r.code = .eok) :
    r.Sound ↔ (r.expired = true → r.call.set &&& r.held = r.call.set) := by
  have hexplained := (EventRunInv.of_reach h).log r hr hcode
  by_cases hexpired : r.expired = true
  · rw [if_pos hexpired] at hexplained
    obtain ⟨hrecved, hset⟩ := hexplained
    constructor
    · rintro ⟨v, hv, -, hheld, -⟩ -
      cases hrecved.symm.trans hv
      exact hheld
    · intro hheld
      exact ⟨_, hrecved, BitVec.and_self, hheld hexpired, hset, fun _ => rfl⟩
  · rw [if_neg hexpired] at hexplained
    exact ⟨fun _ hexp => absurd hexp hexpired, fun _ => hexplained⟩

/-- Three threads and FIFO events, with no receive. -/
def trioEventRun : EventRun where
  ev := trioEventSys
  pending := fun _ => none
  wakeup := fun _ => none
  log := []

theorem reach_trioEventRun : (eventRunSystem 0).Reach EventRun.StaySuspended trioEventRun :=
  .init ⟨⟨trioSys_started, fun _ => ⟨ipcFlagFifo, rfl⟩⟩, rfl, rfl, rfl⟩

/-- Thread 1 waits for one of two events, and thread 2 sends it. -/
theorem event_recv_sound_sent : ∃ x r, (eventRunSystem 0).Reach EventRun.StaySuspended x ∧
    r ∈ x.log ∧ r.code = .eok ∧ r.Sound := by
  obtain ⟨x, hx, hp⟩ := reach_trioEventRun.exists_of_run
    [.op (.call (.recv 0 3 eventFlagOr (-1) 0)), .op .schedule, .op (.call (.send 0 6 false)),
      .op .schedule, .finish]
    (fun x => x.log = [⟨⟨0, 3, eventFlagOr⟩, .eok, some 2, 6, false⟩]) (by decide +kernel)
  have hlog := of_decide_eq_true hp
  have hr : ⟨⟨0, 3, eventFlagOr⟩, .eok, some 2, 6, false⟩ ∈ x.log := by
    rw [hlog]
    exact mem_singleton_self _
  exact ⟨x, _, hx, hr, rfl, (event_recv_sound_iff hx hr rfl).mpr fun h => nomatch h⟩

/-- Thread 1 waits for an event that nobody sends. After a tick it returns `SK_EOK` with the
    event. -/
theorem event_recv_expired : ∃ x r, (eventRunSystem 0).Reach EventRun.StaySuspended x ∧
    r ∈ x.log ∧ r.code = .eok ∧ r.held = 0 ∧ ¬r.Sound := by
  obtain ⟨x, hx, hp⟩ := reach_trioEventRun.exists_of_run
    [.op (.call (.recv 0 1 eventFlagAnd 1 0)), .op .schedule, .op (.tick 4), .finish]
    (fun x => x.log = [⟨⟨0, 1, eventFlagAnd⟩, .eok, some 1, 0, true⟩]) (by decide +kernel)
  have hlog := of_decide_eq_true hp
  refine ⟨x, ⟨⟨0, 1, eventFlagAnd⟩, .eok, some 1, 0, true⟩, hx, ?_, rfl, rfl, ?_⟩
  · rw [hlog]
    exact mem_singleton_self _
  · rintro ⟨v, hv, -, hheld, -⟩
    cases hv
    simp at hheld

end SKernel.Spec
