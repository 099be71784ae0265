import SKernel.Native.Event
import SKernel.Spec.IpcWait

/-!
# Waking the threads that wait for events

Threads send events to event objects and wait for them, sleep, and are interrupted by the timer.
After a send, no thread is meant to be left on the wait list whose condition the events satisfy.

`sk_event_send` looks at the first thread of the wait list only. So what matters is whether the
events that are there after the first thread has had its share satisfy a thread behind it.
-/

namespace SKernel.Spec

open Native Function Option

/-! ## The system -/

/-- The kernel, the events and what the threads wait for. Event `o` has the wait list `o`. -/
structure EventSys where
  sys : BlockSys
  event : Nat → Event
  wait : Tid → EventWait

/-- The calls of the running thread. -/
inductive EventCall where
  | send (o : Nat) (set : BitVec 16) (needSchedule : Bool)
  | recv (o : Nat) (set : BitVec 32) (option : BitVec 8) (timeout : Int) (fuel : Nat)

/-- The events satisfy a thread. -/
def EventSatisfied (w : EventWait) (set : BitVec 32) : Prop :=
  eventMatch w.eventInfo w.eventSet set = some true

instance (w : EventWait) (set : BitVec 32) : Decidable (EventSatisfied w set) :=
  inferInstanceAs (Decidable (eventMatch w.eventInfo w.eventSet set = some true))

/-- What `sk_event_recv` lets a thread wait for: some event, with the option AND or OR. -/
def ValidWait (w : EventWait) : Prop :=
  w.eventSet ≠ 0 ∧ (w.eventInfo &&& eventFlagAnd ≠ 0 ∨ w.eventInfo &&& eventFlagOr ≠ 0)

/-- What `sk_event_send` stores for a satisfied thread: an OR event is saved. -/
def receivedWait (w : EventWait) (set : BitVec 32) : EventWait :=
  if w.eventInfo &&& eventFlagAnd ≠ 0 then w else { w with eventSet := w.eventSet &&& set }

/-- The events that a satisfied thread takes from the set. -/
def eventTaken (w : EventWait) (set : BitVec 32) : BitVec 32 :=
  if w.eventInfo &&& eventFlagClear = 0 then 0
  else if w.eventInfo &&& eventFlagAnd ≠ 0 then w.eventSet
  else w.eventSet &&& set

namespace EventSys

/-- The events after `set` has been sent, before a thread takes any. -/
def sentSet (x : EventSys) (o : Nat) (set : BitVec 16) : BitVec 32 :=
  (x.event o).set ||| set.setWidth 32

/-- The first thread of the wait list, when the events satisfy it. -/
def woken (x : EventSys) (o : Nat) (set : BitVec 16) : Option Tid :=
  (ipcFirstThread x.sys.k.sched (.wait o)).filter fun t =>
    EventSatisfied (x.wait t) (x.sentSet o set)

/-- The events that the first thread leaves to the others. -/
def leftSet (x : EventSys) (o : Nat) (set : BitVec 16) : BitVec 32 :=
  match x.woken o set with
  | none => x.sentSet o set
  | some t => x.sentSet o set &&& ~~~eventTaken (x.wait t) (x.sentSet o set)

/-- `sk_event_send` up to its call of `sk_schedule`, and how it goes on. -/
def send (x : EventSys) (o : Nat) (set : BitVec 16) (needSchedule : Bool) :
    Option (CallEnd × EventSys) :=
  (skEventSend x.sys.k (x.event o) x.wait (.wait o) set needSchedule).map
    fun (done, k, event, wait) =>
      (done,
        { sys := match done, x.woken o set with
            | .schedule, some t => x.sys.resume t k
            | _, _ => { x.sys with k := k }
          event := update x.event o event
          wait := wait })

/-- The whole call of `sk_event_send`, and what it returns. -/
def sendCall (x : EventSys) (o : Nat) (set : BitVec 16) (needSchedule : Bool) :
    Option (SkErr × EventSys) :=
  match x.send o set needSchedule with
  | none => none
  | some (.ret code, y) => some (code, y)
  | some (.schedule, y) => y.sys.schedule.map fun sys => (.eok, { y with sys := sys })

/-- `sk_event_recv` by thread `c` up to its call of `sk_schedule`. -/
def recv (x : EventSys) (c : Tid) (o : Nat) (set : BitVec 32) (option : BitVec 8)
    (timeout : Int) (fuel : Nat) : Option EventSys :=
  (skEventRecv fuel x.sys.k (x.event o) x.wait (.wait o) set option timeout).map
    fun (done, k, event, wait, _) =>
      { sys := match done with
          | .ret _ => { x.sys with k := k }
          | .schedule => x.sys.wait c o (x.event o).flag k
        event := update x.event o event
        wait := wait }

/-- The state after an event. -/
def step (idle : Tid) (x : EventSys) : IpcOp EventCall → Option EventSys
  | .call (.send o set needSchedule) =>
    (x.sys.caller idle).bind fun _ => (x.send o set needSchedule).map Prod.snd
  | .call (.recv o set option timeout fuel) =>
    (x.sys.caller idle).bind fun c => x.recv c o set option timeout fuel
  | op =>
    (x.sys.elapse idle (fun _ => (none : Option Unit)) op).map fun sys => { x with sys := sys }

/-- No thread is left on the wait list whose condition the events satisfy. -/
def Complete (x : EventSys) (o : Nat) : Prop :=
  ∀ t, x.sys.OnWaitList o t → ¬EventSatisfied (x.wait t) (x.event o).set

/-- The events that are left satisfy no thread behind the first one. -/
def FirstOnly (x : EventSys) (o : Nat) (set : BitVec 16) : Prop :=
  ∀ t, x.sys.OnWaitList o t → ipcFirstThread x.sys.k.sched (.wait o) ≠ some t →
    ¬EventSatisfied (x.wait t) (x.leftSet o set)

end EventSys

/-- At first the scheduler has been started and every event has been initialised. -/
def eventSystem (idle : Tid) : TransitionSystem EventSys (IpcOp EventCall) where
  init x := x.sys.Started idle ∧ ∀ o, ∃ flag, x.event o = skEventInit flag
  step := EventSys.step idle

/-! ## The invariant -/

/-- The kernel runs as it should, and the waiting threads have asked for events in a valid way. -/
structure EventInv (idle : Tid) (x : EventSys) : Prop where
  block : BlockInv idle x.sys
  valid : ∀ t o, x.sys.blocked t = some (.linked o) → ValidWait (x.wait t)

variable {idle : Tid} {x x' : EventSys} {c t : Tid} {o fuel : Nat} {set : BitVec 16} {w : EventWait}
variable {option : BitVec 8} {timeout : Int}

theorem ValidWait.eventMatch_ne_none (h : ValidWait w) (set : BitVec 32) :
    eventMatch w.eventInfo w.eventSet set ≠ none := by
  unfold eventMatch
  obtain ⟨-, hflag⟩ := h
  split
  · exact some_ne_none _
  · split
    · exact some_ne_none _
    · simp_all

theorem satisfied_and_iff {set : BitVec 32} (hand : w.eventInfo &&& eventFlagAnd ≠ 0) :
    EventSatisfied w set ↔ w.eventSet &&& set = w.eventSet := by
  unfold EventSatisfied eventMatch
  rw [if_pos hand, some_inj, decide_eq_true_iff]

theorem satisfied_or_iff {set : BitVec 32} (hvalid : ValidWait w)
    (hand : ¬w.eventInfo &&& eventFlagAnd ≠ 0) :
    EventSatisfied w set ↔ w.eventSet &&& set ≠ 0 := by
  unfold EventSatisfied eventMatch
  rw [if_neg hand, if_pos (hvalid.2.resolve_left hand), some_inj, decide_eq_true_iff]

theorem validWait_of_eventMatch {set0 set : BitVec 32} {received : Bool} (hset : set ≠ 0)
    (h : eventMatch option set set0 = some received) :
    ValidWait { eventSet := set, eventInfo := option } := by
  refine ⟨hset, ?_⟩
  unfold eventMatch at h
  split at h
  · rename_i hand
    exact .inl hand
  · split at h
    · rename_i hor
      exact .inr hor
    · cases h

/-- `sk_event_recv` by thread `c` refuses the call or finds nothing, receives events, or blocks. -/
inductive RecvOutcome (fuel : Nat) (k : Kernel) (event : Event) (wait : Tid → EventWait)
    (list : ListHead) (c : Tid) (set : BitVec 32) (option : BitVec 8) (timeout : Int) :
    CallEnd × Kernel × Event × (Tid → EventWait) × Option (BitVec 32) → Prop where
  | refused {code : SkErr} (hcode : code ≠ .eok) :
      RecvOutcome fuel k event wait list c set option timeout (.ret code, k, event, wait, none)
  | received (hset : set ≠ 0) (hmatch : eventMatch option set event.set = some true) :
      RecvOutcome fuel k event wait list c set option timeout
        (.ret .eok, k,
          if option &&& eventFlagClear ≠ 0 then { event with set := event.set &&& ~~~set }
          else event,
          update wait c { eventSet := event.set &&& set, eventInfo := option },
          some (event.set &&& set))
  | blocks (hset : set ≠ 0) (hmatch : eventMatch option set event.set = some false)
      (htime : timeout ≠ 0) {k' : Kernel}
      (hblock : ipcBlock fuel k list event.flag timeout = some k') :
      RecvOutcome fuel k event wait list c set option timeout
        (.schedule, k', event, update wait c { eventSet := set, eventInfo := option },
          none)

theorem recvOutcome {k : Kernel} {event : Event} {wait : Tid → EventWait} {list : ListHead}
    {set : BitVec 32} {r : CallEnd × Kernel × Event × (Tid → EventWait) × Option (BitVec 32)}
    (hc : k.sched.currentThread = some c)
    (h : skEventRecv fuel k event wait list set option timeout = some r) :
    RecvOutcome fuel k event wait list c set option timeout r := by
  unfold skEventRecv at h
  split at h
  · cases h
    exact .refused (by decide)
  rename_i hset
  rw [hc] at h
  dsimp only at h
  cases hmatch : eventMatch option set event.set with
  | none =>
    -- neither `SK_EVENT_FLAG_AND` nor `SK_EVENT_FLAG_OR`
    rw [hmatch] at h
    cases h
    exact .refused (by decide)
  | some received =>
    rw [hmatch] at h
    cases received with
    | true =>
      cases h
      exact .received hset hmatch
    | false =>
      dsimp only at h
      split at h
      · -- the call does not wait
        cases h
        exact .refused (by decide)
      · rename_i htime
        obtain ⟨k', hblock, rfl⟩ := map_eq_some_iff.mp h
        exact .blocks hset hmatch htime hblock

theorem set_and_not_eventTaken (w : EventWait) (e : Event) :
    (if (receivedWait w e.set).eventInfo &&& eventFlagClear ≠ 0
      then { e with set := e.set &&& ~~~(receivedWait w e.set).eventSet } else e) =
      { e with set := e.set &&& ~~~eventTaken w e.set } := by
  have hnone : e.set &&& ~~~(0 : BitVec 32) = e.set := by
    exact BitVec.and_allOnes
  unfold eventTaken receivedWait
  by_cases hand : w.eventInfo &&& eventFlagAnd ≠ 0 <;>
    by_cases hclear : w.eventInfo &&& eventFlagClear = 0 <;>
      simp only [hand, hclear, hnone, ne_eq, not_true_eq_false, not_false_eq_true, ↓reduceIte]

/-- An empty set is refused. -/
theorem EventSys.send_zero (x : EventSys) (o : Nat) (needSchedule : Bool) :
    x.send o 0 needSchedule = some (.ret .error, x) := by
  simp only [EventSys.send, skEventSend, if_true, map_some, update_eq_self]

namespace EventInv

section

variable (h : EventInv idle x)
include h

/-- Nobody is woken up, or the first thread is. -/
theorem skEventSend_cases (hset : set ≠ 0) (needSchedule : Bool) : (x.woken o set = none ∧
      skEventSend x.sys.k (x.event o) x.wait (.wait o) set needSchedule =
        some (if needSchedule then .schedule else .ret .eok, x.sys.k,
          { x.event o with set := x.leftSet o set }, x.wait)) ∨
    ∃ t, x.woken o set = some t ∧ x.sys.FirstWaits o t ∧
      skEventSend x.sys.k (x.event o) x.wait (.wait o) set needSchedule =
        some (.schedule, (skThreadResume x.sys.k t).2,
          { x.event o with set := x.leftSet o set },
          update x.wait t (receivedWait (x.wait t) (x.sentSet o set))) := by
  unfold skEventSend
  rw [if_neg hset]
  dsimp only
  by_cases hempty : skListEmpty x.sys.k.sched.links (.head (.wait o)) = true
  · left
    have hnone : x.woken o set = none := by
      unfold EventSys.woken
      rw [(h.block.of_empty hempty).1]
      rfl
    refine ⟨hnone, ?_⟩
    rw [if_pos hempty]
    unfold EventSys.leftSet
    rw [hnone]
    rfl
  · obtain ⟨t, ht⟩ := h.block.firstThread (Bool.eq_false_iff.mpr hempty)
    have hfirst := ht.first
    rw [if_neg hempty, hfirst]
    -- the option of a waiting thread has been checked, so the match is defined
    have hmatch := (h.valid t o ht.linked).eventMatch_ne_none (x.sentSet o set)
    obtain ⟨received, hreceived⟩ := ne_none_iff_exists'.mp hmatch
    have hsent : eventMatch (x.wait t).eventInfo (x.wait t).eventSet
        ((x.event o).set ||| set.setWidth 32) = some received := hreceived
    simp only [map_some, hsent]
    cases received with
    | false =>
      left
      have hunsat : ¬EventSatisfied (x.wait t) (x.sentSet o set) := by
        unfold EventSatisfied
        rw [hreceived]
        decide
      have hnone : x.woken o set = none := by
        unfold EventSys.woken
        rw [hfirst, filter_some, if_neg (by simpa using hunsat)]
      refine ⟨hnone, ?_⟩
      unfold EventSys.leftSet
      rw [hnone]
      rfl
    | true =>
      right
      have hwoken : x.woken o set = some t := by
        unfold EventSys.woken
        have hsat : EventSatisfied (x.wait t) (x.sentSet o set) := hreceived
        rw [hfirst, filter_some, if_pos (decide_eq_true hsat)]
      have hleft : x.leftSet o set =
          x.sentSet o set &&& ~~~eventTaken (x.wait t) (x.sentSet o set) := by
        unfold EventSys.leftSet
        rw [hwoken]
      have hevent := set_and_not_eventTaken (x.wait t)
        { x.event o with set := x.sentSet o set }
      dsimp only at hevent
      rw [← hleft] at hevent
      refine ⟨t, hwoken, ht, ?_⟩
      rw [← hevent]
      rfl

/-- Nobody is woken up, or the first thread is. -/
theorem send_cases (hset : set ≠ 0) (needSchedule : Bool) : (x.woken o set = none ∧
      x.send o set needSchedule = some (if needSchedule then .schedule else .ret .eok,
        { x with
          event := update x.event o { x.event o with set := x.leftSet o set } })) ∨
    ∃ t, x.woken o set = some t ∧ x.sys.FirstWaits o t ∧
      x.send o set needSchedule = some (.schedule,
        { sys := x.sys.resume t (skThreadResume x.sys.k t).2
          event := update x.event o { x.event o with set := x.leftSet o set }
          wait := update x.wait t (receivedWait (x.wait t) (x.sentSet o set)) }) := by
  cases h.skEventSend_cases (o := o) hset needSchedule with
  | inl hnobody =>
    obtain ⟨hwoken, hcall⟩ := hnobody
    refine .inl ⟨hwoken, ?_⟩
    unfold EventSys.send
    rw [hcall, hwoken]
    cases needSchedule <;> rfl
  | inr hwake =>
    obtain ⟨t, hwoken, ht, hcall⟩ := hwake
    refine .inr ⟨t, hwoken, ht, ?_⟩
    unfold EventSys.send
    rw [hcall, hwoken]
    rfl

/-- `sk_event_send` keeps the invariant. -/
theorem send (hrun : x.sys.Runs idle c) {needSchedule : Bool}
    {done : CallEnd} (hsend : x.send o set needSchedule = some (done, x')) :
    EventInv idle x' := by
  by_cases hset : set = 0
  · rw [hset, EventSys.send_zero] at hsend
    cases hsend
    exact h
  · cases h.send_cases (o := o) hset needSchedule with
    | inl hnobody =>
      rw [hnobody.2] at hsend
      cases hsend
      exact ⟨h.block, h.valid⟩
    | inr hfirst =>
      obtain ⟨t, -, ht, hret⟩ := hfirst
      rw [hret] at hsend
      cases hsend
      refine ⟨h.block.resume_blocked hrun ht, ?_⟩
      intro u o' hu
      -- the thread that wakes up waits no longer, and the others keep their options
      have hut : u ≠ t := by
        intro heq
        simp [BlockSys.resume, heq] at hu
      simp only [BlockSys.resume, update_of_ne hut] at hu ⊢
      exact h.valid u o' hu

/-- `sk_event_recv` keeps the invariant. -/
theorem recv (hrun : x.sys.Runs idle c) {set : BitVec 32}
    (hrecv : x.recv c o set option timeout fuel = some x') : EventInv idle x' := by
  -- the running thread is on no wait list
  have hnot : ∀ t o, x.sys.blocked t = some (.linked o) → t ≠ c := by
    intro t o hb heq
    rw [heq] at hb
    exact (h.block.not_blocked hrun).2 o hb
  have hkeep : ∀ (w : EventWait) t o, x.sys.blocked t = some (.linked o) →
      ValidWait (update x.wait c w t) := by
    intro w t o hb
    rw [update_of_ne (hnot t o hb)]
    exact h.valid t o hb
  unfold EventSys.recv at hrecv
  obtain ⟨r, hcall, rfl⟩ := map_eq_some_iff.mp hrecv
  cases recvOutcome hrun.1 hcall with
  | refused => exact ⟨h.block, h.valid⟩
  | received => exact ⟨h.block, hkeep _⟩
  | blocks hset hmatch _ hblock =>
    refine ⟨h.block.wait hrun hblock, ?_⟩
    intro t o' hb
    by_cases htc : t = c
    · rw [htc]
      simp only [update_self]
      exact validWait_of_eventMatch hset hmatch
    · simp only [BlockSys.wait, update_of_ne htc] at hb ⊢
      exact h.valid t o' hb

theorem step {op : IpcOp EventCall}
    (hguard : x.sys.StaySuspended op) (hstep : x.step idle op = some x') : EventInv idle x' := by
  cases op with
  | call call =>
    cases call with
    | send =>
      obtain ⟨c, hc, hmap⟩ := bind_eq_some_iff.mp hstep
      obtain ⟨⟨done, y⟩, hsend, rfl⟩ := map_eq_some_iff.mp hmap
      exact h.send (BlockSys.runs_of_caller hc) hsend
    | recv =>
      obtain ⟨c, hc, hrecv⟩ := bind_eq_some_iff.mp hstep
      exact h.recv (BlockSys.runs_of_caller hc) hrecv
  | sleep | schedule | tick =>
    obtain ⟨sys, hsys, rfl⟩ := map_eq_some_iff.mp hstep
    obtain ⟨hblock, hlinked⟩ := h.block.elapse hguard hsys
    exact ⟨hblock, fun t o hb => h.valid t o (hlinked t o hb)⟩

end

theorem init (h : (eventSystem idle).init x) : EventInv idle x := by
  obtain ⟨hsys, -⟩ := h
  refine ⟨BlockInv.of_started hsys, ?_⟩
  intro t o hb
  rw [hsys.2.2.2.2] at hb
  cases hb

end EventInv

theorem EventInv.of_reach (h : (eventSystem idle).Reach (·.sys.StaySuspended ·) x) :
    EventInv idle x :=
  h.invariant (fun _ => EventInv.init) fun _ _ _ hinv => hinv.step

/-! ## Completeness of the wake-up -/

namespace EventInv

theorem complete_iff (h : EventInv idle x) :
    x.Complete o ↔
      ∀ t, x.sys.blocked t = some (.linked o) → ¬EventSatisfied (x.wait t) (x.event o).set := by
  unfold EventSys.Complete
  simp only [h.block.onWaitList_iff]

theorem firstOnly_iff (h : EventInv idle x) :
    x.FirstOnly o set ↔
      ∀ t, x.sys.blocked t = some (.linked o) →
        ipcFirstThread x.sys.k.sched (.wait o) ≠ some t →
          ¬EventSatisfied (x.wait t) (x.leftSet o set) := by
  unfold EventSys.FirstOnly
  simp only [h.block.onWaitList_iff]

theorem first_unsatisfied (hwoken : x.woken o set = none)
    (hfirst : ipcFirstThread x.sys.k.sched (.wait o) = some t) :
    ¬EventSatisfied (x.wait t) (x.leftSet o set) := by
  unfold EventSys.leftSet
  rw [hwoken]
  unfold EventSys.woken at hwoken
  rw [hfirst, filter_some] at hwoken
  simpa using hwoken

theorem send_complete (h : EventInv idle x) (hrun : x.sys.Runs idle c) (hset : set ≠ 0)
    (needSchedule : Bool) :
    ∃ done y, x.send o set needSchedule = some (done, y) ∧ EventInv idle y ∧
      (done = .ret .eok ∨ done = .schedule) ∧ (y.Complete o ↔ x.FirstOnly o set) := by
  cases h.send_cases (o := o) hset needSchedule with
  | inl hnobody =>
    obtain ⟨hwoken, hsend⟩ := hnobody
    have hy := h.send hrun hsend
    -- nobody is woken up: the first thread is not satisfied
    refine ⟨_, _, hsend, hy, by cases needSchedule <;> simp, ?_⟩
    rw [hy.complete_iff, h.firstOnly_iff]
    simp only [update_self]
    constructor
    · intro hall t hb _
      exact hall t hb
    · intro hbehind t hb
      by_cases hfirst : ipcFirstThread x.sys.k.sched (.wait o) = some t
      · exact first_unsatisfied hwoken hfirst
      · exact hbehind t hb hfirst
  | inr hwake =>
    obtain ⟨t, hwoken, ht, hsend⟩ := hwake
    have hy := h.send hrun hsend
    -- the first thread is woken up, so only the threads behind it still wait
    refine ⟨_, _, hsend, hy, .inr rfl, ?_⟩
    rw [hy.complete_iff, h.firstOnly_iff, ht.first]
    simp only [update_self, BlockSys.resume]
    constructor
    · intro hall u hb hne
      have hut : u ≠ t := fun heq => hne (by rw [heq])
      have hu := hall u
      rw [update_of_ne hut, update_of_ne hut] at hu
      exact hu hb
    · intro hbehind u hb
      have hut : u ≠ t := by
        intro heq
        rw [heq, update_self] at hb
        cases hb
      rw [update_of_ne hut] at hb ⊢
      exact hbehind u hb (fun heq => hut (some.inj heq).symm)

end EventInv

/-- **Event wake-up.** A thread sends some event, and `sk_event_send` returns `SK_EOK`. No thread
    is left on the wait list whose condition the events satisfy, exactly when the events that the
    first thread of the wait list leaves satisfy no thread behind it. -/
theorem event_wakeup_iff (h : EventInv idle x) (hc : x.sys.caller idle = some c)
    (hset : set ≠ 0) (needSchedule : Bool) :
    ∃ x', x.sendCall o set needSchedule = some (.eok, x') ∧
      (x'.Complete o ↔ x.FirstOnly o set) := by
  obtain ⟨done, y, hsend, hy, hdone, hcomplete⟩ :=
    h.send_complete (o := o) (BlockSys.runs_of_caller hc) hset needSchedule
  unfold EventSys.sendCall
  rw [hsend]
  cases hdone with
  | inl hret =>
    subst hret
    exact ⟨y, rfl, hcomplete⟩
  | inr hschedule =>
    subst hschedule
    obtain ⟨sys, hsys, hblock, hblocked⟩ := hy.block.schedule_returns
    -- `sk_schedule` leaves the wait lists alone
    have hy' : EventInv idle { y with sys := sys } :=
      ⟨hblock, fun t o hb => hy.valid t o (hblocked ▸ hb)⟩
    refine ⟨{ y with sys := sys }, by simp [hsys], ?_⟩
    rw [← hcomplete, hy'.complete_iff, hy.complete_iff]
    simp only [hblocked]

/-- Three threads and FIFO events: thread 1 runs, threads 2 and 3 of priorities 6 and 7 are
    ready. -/
def trioEventSys : EventSys where
  sys := trioSys
  event := fun _ => skEventInit ipcFlagFifo
  wait := fun _ => { eventSet := 0, eventInfo := 0 }

theorem reach_trioEventSys : (eventSystem 0).Reach (·.sys.StaySuspended ·) trioEventSys :=
  .init ⟨trioSys_started, fun _ => ⟨ipcFlagFifo, rfl⟩⟩

/-- Thread 1 waits for two events and thread 2 for one other; thread 3 sends the event that
    neither waits for alone. -/
theorem event_wakeup_iff_nobody :
    ∃ x x', (eventSystem 0).Reach (·.sys.StaySuspended ·) x ∧
      x.sendCall 0 1 false = some (.eok, x') ∧ (x'.Complete 0 ↔ x.FirstOnly 0 1) := by
  obtain ⟨x, hx, hp⟩ := reach_trioEventSys.exists_of_run
    [.call (.recv 0 3 eventFlagAnd (-1) 0), .schedule, .call (.recv 0 4 eventFlagOr (-1) 0),
      .schedule]
    (fun x => x.sys.caller 0 = some 3) (by decide +kernel)
  obtain ⟨x', hsend, hiff⟩ := event_wakeup_iff (EventInv.of_reach hx) (of_decide_eq_true hp)
    (o := 0) (show (1 : BitVec 16) ≠ 0 by decide) false
  exact ⟨x, x', hx, hsend, hiff⟩

/-- Thread 1 waits for two events and thread 2 for one of them; thread 3 sends this one. Thread 2
    is left on the wait list, although the event is there. -/
theorem event_wakeup_fails :
    ∃ x x', (eventSystem 0).Reach (·.sys.StaySuspended ·) x ∧
      x.sendCall 0 1 false = some (.eok, x') ∧ ¬x'.Complete 0 := by
  obtain ⟨x, hx, hp⟩ := reach_trioEventSys.exists_of_run
    [.call (.recv 0 3 eventFlagAnd (-1) 0), .schedule, .call (.recv 0 1 eventFlagOr (-1) 0),
      .schedule]
    (fun x => ((x.send 0 1 false).map fun r =>
      decide (r.1 = .ret .eok ∧ r.2.sys.blocked 2 = some (.linked 0) ∧
        EventSatisfied (r.2.wait 2) (r.2.event 0).set)) = some true ∧ x.sys.caller 0 = some 3)
    (by decide +kernel)
  obtain ⟨hsend, hc⟩ := of_decide_eq_true hp
  obtain ⟨⟨done, y⟩, hcall, hy⟩ := map_eq_some_iff.mp hsend
  obtain ⟨hdone, hblocked, hsat⟩ := of_decide_eq_true hy
  have hinv : EventInv 0 y := (EventInv.of_reach hx).send (BlockSys.runs_of_caller hc) hcall
  refine ⟨x, y, hx, ?_, fun hcomplete => ?_⟩
  · unfold EventSys.sendCall
    rw [hcall]
    cases hdone
    rfl
  · exact hinv.complete_iff.mp hcomplete 2 hblocked hsat

end SKernel.Spec
