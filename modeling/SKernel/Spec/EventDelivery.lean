import Mathlib.Logic.Relation
import SKernel.Spec.EventRecv
import SKernel.Spec.RecvWait

/-!
# The ways of delivering events

A receive takes its events from the set of the object when they are there, or it blocks and gets
them from a later send. The two ways are written down separately, in `sk_event_recv` and in
`sk_event_send`: they agree on what is received and on what is left in the set.

The set of an object and the request of a receive have 32 bits, but `sk_event_send` takes 16 bits.
The events of the upper half cannot be sent.
-/

namespace SKernel.Spec

open Native Function Option

variable {idle : Tid} {c t : Tid} {o : Nat}

/-! ## Steps that leave an object alone -/

/-- The event is not a call on object `o`. -/
def EventRunOp.Elsewhere (o : Nat) : EventRunOp → Prop
  | .op (.call (.send o' _ _)) | .op (.call (.recv o' _ _ _ _)) => o' ≠ o
  | _ => True

namespace EventInv

variable {x x' : EventSys} {op : IpcOp EventCall}

private theorem step_elsewhere (h : EventInv idle x) (hguard : x.sys.StaySuspended op)
    (ho : (EventRunOp.op op).Elsewhere o) (hstep : x.step idle op = some x') :
    x'.event o = x.event o ∧
      ∀ t, x'.sys.blocked t = some (.linked o) → x.sys.blocked t = some (.linked o) := by
  cases op with
  | call call =>
    cases call with
    | send o' set needSchedule =>
      obtain ⟨c, -, hmap⟩ := bind_eq_some_iff.mp hstep
      obtain ⟨r, hsend, rfl⟩ := map_eq_some_iff.mp hmap
      obtain ⟨⟨done, k, event, wait⟩, -, rfl⟩ := map_eq_some_iff.mp hsend
      refine ⟨update_of_ne (Ne.symm ho) _ _, ?_⟩
      intro t hb
      dsimp only at hb
      split at hb
      · rename_i u _
        by_cases htu : t = u
        · simp [BlockSys.resume, htu] at hb
        · simpa only [BlockSys.resume, update_of_ne htu] using hb
      · exact hb
    | recv =>
      obtain ⟨c, -, hrecv⟩ := bind_eq_some_iff.mp hstep
      obtain ⟨⟨done, k, event, wait, recved⟩, -, rfl⟩ := map_eq_some_iff.mp hrecv
      refine ⟨update_of_ne (Ne.symm ho) _ _, ?_⟩
      intro t hb
      cases done with
      | ret code => exact hb
      | schedule =>
        by_cases htc : t = c
        · -- the caller joins the other wait list, or none
          simp only [BlockSys.wait, htc, update_self, some.injEq] at hb
          split at hb
          · exact absurd (Blocking.linked.inj hb) ho
          · cases hb
        · simpa only [BlockSys.wait, update_of_ne htc] using hb
  | sleep | schedule | tick =>
    obtain ⟨sys, hsys, rfl⟩ := map_eq_some_iff.mp hstep
    exact ⟨rfl, fun t => (h.block.elapse hguard hsys).2 t o⟩

private theorem step_linked (h : EventInv idle x) (hstep : x.step idle op = some x')
    (hb : x.sys.blocked c = some (.linked o)) :
    x'.sys.blocked c = some (.linked o) ∨ x'.sys.blocked c = none := by
  -- a thread that makes a call is on no wait list
  have hne : ∀ {d}, x.sys.caller idle = some d → c ≠ d := by
    intro d hd heq
    rw [heq] at hb
    exact (h.block.not_blocked (BlockSys.runs_of_caller hd)).2 o hb
  cases op with
  | call call =>
    cases call with
    | send o' set needSchedule =>
      obtain ⟨d, -, hmap⟩ := bind_eq_some_iff.mp hstep
      obtain ⟨r, hsend, rfl⟩ := map_eq_some_iff.mp hmap
      obtain ⟨⟨done, k, event, wait⟩, -, rfl⟩ := map_eq_some_iff.mp hsend
      dsimp only
      split
      · rename_i u _
        by_cases hcu : c = u
        · exact .inr (by simp only [BlockSys.resume, hcu, update_self])
        · exact .inl (by simpa only [BlockSys.resume, update_of_ne hcu] using hb)
      · exact .inl hb
    | recv =>
      obtain ⟨d, hd, hrecv⟩ := bind_eq_some_iff.mp hstep
      obtain ⟨⟨done, k, event, wait, recved⟩, -, rfl⟩ := map_eq_some_iff.mp hrecv
      cases done with
      | ret code => exact .inl hb
      | schedule =>
        exact .inl (by simpa only [BlockSys.wait, update_of_ne (hne hd)] using hb)
  | sleep ticks =>
    obtain ⟨sys, hsys, rfl⟩ := map_eq_some_iff.mp hstep
    obtain ⟨-, -, hsleep⟩ := bind_eq_some_iff.mp hsys
    obtain ⟨d, hd, hmap⟩ := bind_eq_some_iff.mp hsleep
    obtain ⟨k, -, rfl⟩ := map_eq_some_iff.mp hmap
    exact .inl (by simpa only [update_of_ne (hne hd)] using hb)
  | schedule =>
    obtain ⟨sys, hsys, rfl⟩ := map_eq_some_iff.mp hstep
    have hblocked := (h.block.schedule_blocked hsys).2
    exact .inl (hblocked ▸ hb)
  | tick fuel =>
    obtain ⟨sys, hsys, rfl⟩ := map_eq_some_iff.mp hstep
    obtain ⟨⟨k, fired⟩, -, rfl⟩ := map_eq_some_iff.mp hsys
    dsimp only
    split
    · exact .inr rfl
    · exact .inl hb

end EventInv

/-! ## The two orders -/

variable {x x' y y' b : EventRun} {call : RecvCall} {s : BitVec 16} {held set : BitVec 32}

/-- Events happen that are no calls on the object. -/
def Elapses (idle : Tid) (o : Nat) : EventRun → EventRun → Prop :=
  Relation.ReflTransGen fun x x' =>
    ∃ op : EventRunOp, op.Elsewhere o ∧ x.StaySuspended op ∧ x.step idle op = some x'

/-- Events that are no calls on the object, while thread `c` stays where it is in its receive. -/
def Meanwhile (idle : Tid) (o : Nat) (c : Tid) : EventRun → EventRun → Prop :=
  Relation.ReflTransGen fun x x' =>
    ∃ op : EventRunOp, op.Elsewhere o ∧ x.StaySuspended op ∧ x.step idle op = some x' ∧
      x'.pending c = x.pending c ∧ x'.wakeup c = x.wakeup c

/-- Thread `c` receives, and while it waits a thread sends. -/
def ReceiveFirst (idle c : Tid) (call : RecvCall) (s : BitVec 16) (x y : EventRun) : Prop :=
  ∃ timeout fuel needSchedule a b, timeout ≠ 0 ∧ x.ev.sys.free idle x.pending = some c ∧
    x.step idle (.op (.call (.recv call.o call.set call.option timeout fuel))) = some a ∧
    Meanwhile idle call.o c a b ∧
    b.step idle (.op (.call (.send call.o s needSchedule))) = some y

/-- Thread `c`, which has been woken up, runs again. -/
def RunsAgain (idle c : Tid) (call : RecvCall) (y b : EventRun) : Prop :=
  Meanwhile idle call.o c y b ∧ b.ev.sys.caller idle = some c

/-- A thread sends, and then thread `c` receives. -/
def SendFirst (idle c : Tid) (call : RecvCall) (s : BitVec 16) (x y : EventRun) : Prop :=
  ∃ needSchedule a b timeout fuel,
    x.step idle (.op (.call (.send call.o s needSchedule))) = some a ∧
    Elapses idle call.o a b ∧ b.ev.sys.free idle b.pending = some c ∧
    b.step idle (.op (.call (.recv call.o call.set call.option timeout fuel))) = some y

private theorem EventRunInv.step_call (h : EventRunInv idle x) {e : EventCall}
    (hstep : x.step idle (.op (.call e)) = some x') : EventRunInv idle x' :=
  h.step (show x.StaySuspended (.op (.call e)) from trivial) hstep

private theorem EventRunInv.step_elsewhere (h : EventRunInv idle x) {op : EventRunOp}
    (hguard : x.StaySuspended op) (ho : op.Elsewhere o) (hstep : x.step idle op = some x') :
    x'.ev.event o = x.ev.event o ∧
      ∀ t, x'.ev.sys.blocked t = some (.linked o) → x.ev.sys.blocked t = some (.linked o) := by
  rcases EventRun.step_ev hstep with ⟨-, hev⟩ | ⟨e, rfl, hev⟩
  · rw [hev]
    exact ⟨rfl, fun _ hb => hb⟩
  · exact h.ev.step_elsewhere hguard ho hev

private theorem EventRunInv.elapses (h : EventRunInv idle x) (hrun : Elapses idle o x y) :
    EventRunInv idle y ∧ y.ev.event o = x.ev.event o := by
  induction hrun with
  | refl => exact ⟨h, rfl⟩
  | tail _ hstep ih =>
    obtain ⟨op, ho, hguard, hstep⟩ := hstep
    exact ⟨ih.1.step hguard hstep, (ih.1.step_elsewhere hguard ho hstep).1.trans ih.2⟩

/-- Thread `c` alone waits on the object of its receive, which has the events `set`. -/
structure AwaitsAlone (idle : Tid) (c : Tid) (call : RecvCall) (set : BitVec 32) (x : EventRun) :
    Prop where
  inv : EventRunInv idle x
  pending : x.pending c = some call
  wakeup : x.wakeup c = none
  linked : x.ev.sys.blocked c = some (.linked call.o)
  alone : ∀ t, x.ev.sys.blocked t = some (.linked call.o) → t = c
  set : (x.ev.event call.o).set = set

private theorem AwaitsAlone.meanwhile (h : AwaitsAlone idle c call set x)
    (hrun : Meanwhile idle call.o c x y) : AwaitsAlone idle c call set y := by
  induction hrun with
  | refl => exact h
  | @tail b b' _ hstep ih =>
    obtain ⟨op, ho, hguard, hstep, hpending, hwakeup⟩ := hstep
    have hinv := ih.inv.step hguard hstep
    obtain ⟨hevent, hlinked⟩ := ih.inv.step_elsewhere hguard ho hstep
    have hpending' := hpending.trans ih.pending
    have hwakeup' := hwakeup.trans ih.wakeup
    refine ⟨hinv, hpending', hwakeup', ?_, fun t ht => ih.alone t (hlinked t ht),
      by rw [hevent]; exact ih.set⟩
    -- the thread has not been woken up, so it is still blocked
    have hkept : b'.ev.sys.blocked c = some (.linked call.o) ∨ b'.ev.sys.blocked c = none := by
      rcases EventRun.step_ev hstep with ⟨-, hev⟩ | ⟨e, -, hev⟩
      · rw [hev]
        exact .inl ih.linked
      · exact ih.inv.ev.step_linked hev ih.linked
    cases hkept with
    | inl hb => exact hb
    | inr hb =>
      have hstatus := hinv.status c
      rw [hpending', hwakeup', hb] at hstatus
      cases hstatus

/-- The receive blocks. -/
theorem waiting_of_recv (h : EventRunInv idle x) (hcaller : x.ev.sys.free idle x.pending = some c)
    (hnobody : ∀ t, ¬x.ev.sys.OnWaitList call.o t)
    (hflag : (x.ev.event call.o).flag = ipcFlagFifo ∨ (x.ev.event call.o).flag = ipcFlagPrio)
    (hunsat : eventMatch call.option call.set (x.ev.event call.o).set = some false)
    (hvalid : ValidWait call.wait) {timeout : Int} {fuel : Nat} (htime : timeout ≠ 0)
    (hstep : x.step idle (.op (.call (.recv call.o call.set call.option timeout fuel))) = some y) :
    AwaitsAlone idle c call (x.ev.event call.o).set y := by
  have hinv := h.step_call hstep
  obtain ⟨-, hrun, hfree⟩ := BlockSys.of_free hcaller
  simp only [EventRun.step, hcaller, bind_some] at hstep
  obtain ⟨⟨done, k, event, wait, recved⟩, hcall, hrecv⟩ := bind_eq_some_iff.mp hstep
  obtain ⟨ev, hev, hrecv⟩ := bind_eq_some_iff.mp hrecv
  unfold EventSys.recv at hev
  rw [hcall, map_some] at hev
  cases hev
  -- a valid call whose events are not there, with a timeout: the branch that blocks
  have hset : call.set ≠ 0 := hvalid.1
  simp only [skEventRecv, if_neg hset, hrun.1, hunsat, if_neg htime] at hcall
  obtain ⟨k', hblock, heq⟩ := map_eq_some_iff.mp hcall
  cases heq
  cases hrecv
  have hlinked : ((x.ev.sys.wait c call.o (x.ev.event call.o).flag k).blocked c) =
      some (.linked call.o) := by
    simp only [BlockSys.wait, update_self, if_pos hflag]
  refine ⟨hinv, update_self .., (h.of_free hfree).1, hlinked, ?_, ?_⟩
  · intro t ht
    by_contra htc
    simp only [BlockSys.wait, update_of_ne htc] at ht
    exact hnobody t (h.ev.block.onWaitList_iff.mpr ht)
  · simp only [update_self]

/-- The send finds the thread, and wakes it if satisfied. -/
theorem AwaitsAlone.send (h : AwaitsAlone idle c call set x) (hs : s ≠ 0) {needSchedule : Bool}
    (hstep : x.step idle (.op (.call (.send call.o s needSchedule))) = some y) :
    EventRunInv idle y ∧ y.pending c = some call ∧
      if EventSatisfied call.wait (set ||| s.setWidth 32) then
        y.wakeup c = some (.sent (set ||| s.setWidth 32)) ∧
          (y.ev.event call.o).set = (set ||| s.setWidth 32) &&&
            ~~~eventTaken call.wait (set ||| s.setWidth 32)
      else y.wakeup c = none ∧ (y.ev.event call.o).set = set ||| s.setWidth 32 := by
  have hinv := h.inv.step_call hstep
  obtain ⟨call', hpending, -, -, -, hwait⟩ := h.inv.pending_of_linked h.linked
  cases h.pending.symm.trans hpending
  have hsent : x.ev.sentSet call.o s = set ||| s.setWidth 32 := by
    rw [EventSys.sentSet, h.set]
  -- the thread is the first one of the wait list
  have hfirst : ipcFirstThread x.ev.sys.k.sched (.wait call.o) = some c := by
    obtain ⟨u, hu⟩ := h.inv.ev.block.exists_first (h.inv.ev.block.onWaitList_iff.mpr h.linked)
    have hon := h.inv.ev.block.onWaitList_iff.mp (h.inv.ev.block.onWaitList_first hu)
    rw [hu, h.alone u hon]
  have hwoken : x.ev.woken call.o s =
      if EventSatisfied call.wait (set ||| s.setWidth 32) then some c else none := by
    rw [EventSys.woken, hfirst, filter_some, hwait, hsent]
    simp only [decide_eq_true_eq]
  obtain ⟨d, -, hsend⟩ := bind_eq_some_iff.mp hstep
  obtain ⟨⟨done, ev⟩, hev, rfl⟩ := map_eq_some_iff.mp hsend
  refine ⟨hinv, h.pending, ?_⟩
  cases h.inv.ev.send_cases (o := call.o) hs needSchedule with
  | inl hnobody =>
    obtain ⟨hnone, hret⟩ := hnobody
    cases hret.symm.trans hev
    have hunsat : ¬EventSatisfied call.wait (set ||| s.setWidth 32) := by
      intro hsat
      rw [hnone, if_pos hsat] at hwoken
      cases hwoken
    rw [if_neg hunsat]
    refine ⟨?_, ?_⟩
    · simp only [hnone]
      cases needSchedule <;> exact h.wakeup
    · simp only [update_self, EventSys.leftSet, hnone, hsent]
  | inr hwake =>
    obtain ⟨t, hsome, ht, hret⟩ := hwake
    cases hret.symm.trans hev
    cases hfirst.symm.trans ht.first
    have hsat : EventSatisfied call.wait (set ||| s.setWidth 32) := by
      by_contra hunsat
      rw [hsome, if_neg hunsat] at hwoken
      cases hwoken
    rw [if_pos hsat]
    refine ⟨?_, ?_⟩
    · simp only [hsome, update_self, hsent]
    · simp only [update_self, EventSys.leftSet, hsome, hsent, hwait]

/-- The thread returns the events of the send. -/
theorem EventRunInv.completes (h : EventRunInv idle y) (hpending : y.pending c = some call)
    (hwakeup : y.wakeup c = some (.sent held)) (hrun : RunsAgain idle c call y b) :
    ∃ z, b.step idle .finish = some z ∧
      z.log.getLast? = some ⟨call, .eok, some (call.set &&& held), held, false⟩ ∧
      z.ev.event call.o = y.ev.event call.o := by
  obtain ⟨hmeanwhile, hcaller⟩ := hrun
  -- what the others do meanwhile touches neither the thread nor the event
  obtain ⟨hinv, hpending', hwakeup', hevent⟩ : EventRunInv idle b ∧ b.pending c = some call ∧
      b.wakeup c = some (.sent held) ∧ b.ev.event call.o = y.ev.event call.o := by
    clear hcaller
    induction hmeanwhile with
    | refl => exact ⟨h, hpending, hwakeup, rfl⟩
    | tail _ hstep ih =>
      obtain ⟨op, ho, hguard, hstep, hp, hw⟩ := hstep
      obtain ⟨hinv, hpending, hwakeup, hevent⟩ := ih
      exact ⟨hinv.step hguard hstep, hp.trans hpending, hw.trans hwakeup,
        (hinv.step_elsewhere hguard ho hstep).1.trans hevent⟩
  -- the send has written the events received into the thread
  have hrecved : eventRecvReturn b.ev.wait c = call.set &&& held := by
    have hstatus := hinv.status c
    rw [hpending', hwakeup'] at hstatus
    unfold eventRecvReturn
    generalize b.ev.sys.blocked c = blocked, b.ev.wait c = w at hstatus
    cases hstatus with
    | sent _ hsat => exact receivedWait_eventSet hsat
  simp only [EventRun.step, hcaller, bind_some, EventRun.finish, hpending', map_some,
    hwakeup', hrecved]
  exact ⟨_, rfl, List.getLast?_concat, hevent⟩

/-- The send finds nobody on the wait list. -/
theorem EventRunInv.send_nobody (h : EventRunInv idle x) (hs : s ≠ 0) {needSchedule : Bool}
    (hnobody : ∀ t, ¬x.ev.sys.OnWaitList o t)
    (hstep : x.step idle (.op (.call (.send o s needSchedule))) = some y) :
    EventRunInv idle y ∧ (y.ev.event o).set = (x.ev.event o).set ||| s.setWidth 32 := by
  refine ⟨h.step_call hstep, ?_⟩
  obtain ⟨d, -, hsend⟩ := bind_eq_some_iff.mp hstep
  obtain ⟨⟨done, ev⟩, hev, rfl⟩ := map_eq_some_iff.mp hsend
  cases h.ev.send_cases (o := o) hs needSchedule with
  | inl hret =>
    cases hret.2.symm.trans hev
    simp only [update_self, EventSys.leftSet, hret.1, EventSys.sentSet]
  | inr hwake =>
    obtain ⟨t, -, ht, -⟩ := hwake
    exact absurd (h.ev.block.onWaitList_iff.mpr ht.linked) (hnobody t)

/-- CLEAR leaves none of the thread's events. -/
theorem and_not_eventTaken (w : EventWait) (set : BitVec 32) :
    set &&& ~~~eventTaken w set =
      if w.eventInfo &&& eventFlagClear ≠ 0 then set &&& ~~~w.eventSet else set := by
  have hor : set &&& ~~~(w.eventSet &&& set) = set &&& ~~~w.eventSet := by
    ext i
    simp only [BitVec.getElem_and, BitVec.getElem_not]
    cases set[i] <;> simp
  have hnone : set &&& ~~~(0 : BitVec 32) = set := BitVec.and_allOnes
  unfold eventTaken
  by_cases hclear : w.eventInfo &&& eventFlagClear = 0
  · rw [if_pos hclear, if_neg (not_not.mpr hclear), hnone]
  · rw [if_neg hclear, if_pos hclear]
    split
    · rfl
    · exact hor

private theorem recv_outcome (hcaller : x.ev.sys.free idle x.pending = some c)
    (hvalid : ValidWait call.wait) {timeout : Int} {fuel : Nat}
    (hstep : x.step idle (.op (.call (.recv call.o call.set call.option timeout fuel))) = some y) :
    if EventSatisfied call.wait (x.ev.event call.o).set then
      y.log.getLast? = some ⟨call, .eok, some (call.set &&& (x.ev.event call.o).set),
          (x.ev.event call.o).set, false⟩ ∧
        (y.ev.event call.o).set = (x.ev.event call.o).set &&&
          ~~~eventTaken call.wait (x.ev.event call.o).set
    else
      (y.pending c = some call ∨
        y.log.getLast? = some ⟨call, .etimeout, none, (x.ev.event call.o).set, false⟩) ∧
        y.ev.event call.o = x.ev.event call.o := by
  have hrun := (BlockSys.of_free hcaller).2.1
  have hset : call.set ≠ 0 := hvalid.1
  simp only [EventRun.step, hcaller, bind_some] at hstep
  obtain ⟨⟨done, k, event, wait, recved⟩, hcall, hrecv⟩ := bind_eq_some_iff.mp hstep
  obtain ⟨ev, hev, hrecv⟩ := bind_eq_some_iff.mp hrecv
  unfold EventSys.recv at hev
  rw [hcall, map_some] at hev
  cases hev
  obtain ⟨received, hreceived⟩ := ne_none_iff_exists'.mp
    (hvalid.eventMatch_ne_none (x.ev.event call.o).set)
  have hmatch : eventMatch call.option call.set (x.ev.event call.o).set = some received :=
    hreceived
  simp only [skEventRecv, if_neg hset, hrun.1, hmatch] at hcall
  cases received with
  | true =>
    have hsat : EventSatisfied call.wait (x.ev.event call.o).set := hmatch
    cases hcall
    cases hrecv
    rw [if_pos hsat, and_not_eventTaken, BitVec.and_comm call.set]
    refine ⟨List.getLast?_concat, ?_⟩
    simp only [update_self]
    exact apply_ite Event.set _ _ _
  | false =>
    have hunsat : ¬EventSatisfied call.wait (x.ev.event call.o).set := by
      unfold EventSatisfied
      rw [hreceived]
      decide
    rw [if_neg hunsat]
    dsimp only at hcall
    split at hcall
    · -- no waiting
      cases hcall
      cases hrecv
      exact ⟨.inr List.getLast?_concat, update_self ..⟩
    · obtain ⟨k', -, heq⟩ := map_eq_some_iff.mp hcall
      cases heq
      cases hrecv
      exact ⟨.inl (update_self ..), update_self ..⟩

/-- **The order of a receive and a send.** The object has the same events and nobody waits for it,
    and the receive would block. When the events of the send satisfy the receive, it returns
    `SK_EOK` with the same events in both orders and leaves the same events in the object. When
    they do not, the object has the same events in both orders and the receive is not satisfied. -/
theorem delivery_orders_agree (hx : EventRunInv idle x) (hx' : EventRunInv idle x')
    (hsame : (x'.ev.event call.o).set = (x.ev.event call.o).set)
    (hnobody : ∀ t, ¬x.ev.sys.OnWaitList call.o t)
    (hnobody' : ∀ t, ¬x'.ev.sys.OnWaitList call.o t)
    (hflag : (x.ev.event call.o).flag = ipcFlagFifo ∨ (x.ev.event call.o).flag = ipcFlagPrio)
    (hvalid : ValidWait call.wait) (hs : s ≠ 0)
    (hblocks : ¬EventSatisfied call.wait (x.ev.event call.o).set)
    (hreceive : ReceiveFirst idle c call s x y) (hsend : SendFirst idle c call s x' y') :
    if EventSatisfied call.wait ((x.ev.event call.o).set ||| s.setWidth 32) then
      ∃ recved, y'.log.getLast? = some ⟨call, .eok, some recved,
          (x.ev.event call.o).set ||| s.setWidth 32, false⟩ ∧
        y.wakeup c = some (.sent ((x.ev.event call.o).set ||| s.setWidth 32)) ∧
        ∀ b, RunsAgain idle c call y b → ∃ z, b.step idle .finish = some z ∧
          z.log.getLast? = some ⟨call, .eok, some recved,
            (x.ev.event call.o).set ||| s.setWidth 32, false⟩ ∧
          (z.ev.event call.o).set = (y'.ev.event call.o).set
    else
      (y.ev.event call.o).set = (y'.ev.event call.o).set ∧
        (y.pending c = some call ∧ y.wakeup c = none) ∧
        (y'.pending c = some call ∨ y'.log.getLast? = some ⟨call, .etimeout, none,
          (x.ev.event call.o).set ||| s.setWidth 32, false⟩) := by
  obtain ⟨timeout, fuel, needSchedule, a, b, htime, hcaller, hrecv, hmeanwhile, hsent⟩ := hreceive
  obtain ⟨needSchedule', a', b', timeout', fuel', hsent', helapses, hcaller', hrecv'⟩ := hsend
  have hunsat : eventMatch call.option call.set (x.ev.event call.o).set = some false := by
    obtain ⟨received, hreceived⟩ := ne_none_iff_exists'.mp
      (hvalid.eventMatch_ne_none (x.ev.event call.o).set)
    cases received with
    | true => exact absurd hreceived hblocks
    | false => exact hreceived
  -- the receive comes first
  have hwaiting := (waiting_of_recv hx hcaller hnobody hflag hunsat hvalid htime hrecv).meanwhile
    hmeanwhile
  obtain ⟨hy, hpending, hdelivered⟩ := hwaiting.send hs hsent
  -- the send comes first
  obtain ⟨ha', hset'⟩ := hx'.send_nobody hs hnobody' hsent'
  obtain ⟨hb', hevent'⟩ := ha'.elapses helapses
  have hfound := recv_outcome hcaller' hvalid hrecv'
  rw [hevent', hset', hsame] at hfound
  split at hdelivered
  · rename_i hsat
    rw [if_pos hsat] at hfound ⊢
    refine ⟨_, hfound.1, hdelivered.1, ?_⟩
    intro b hagain
    obtain ⟨z, hfinish, hlog, hevent⟩ := hy.completes hpending hdelivered.1 hagain
    refine ⟨z, hfinish, hlog, ?_⟩
    rw [hevent, hdelivered.2, hfound.2]
  · rename_i hunsat'
    rw [if_neg hunsat'] at hfound ⊢
    refine ⟨?_, ⟨hpending, hdelivered.1⟩, hfound.1⟩
    rw [hdelivered.2, hfound.2, hset', hsame]

/-- Thread 1 receives one of two events, thread 2 sends it and thread 1 runs again; or thread 1
    sends it and receives. -/
theorem delivery_orders_agree_trio : ∃ y y' b z recved,
    ReceiveFirst 0 1 ⟨0, 3, eventFlagOr ||| eventFlagClear⟩ 6 trioEventRun y ∧
    SendFirst 0 1 ⟨0, 3, eventFlagOr ||| eventFlagClear⟩ 6 trioEventRun y' ∧
    RunsAgain 0 1 ⟨0, 3, eventFlagOr ||| eventFlagClear⟩ y b ∧ b.step 0 .finish = some z ∧
    y'.log.getLast? =
      some ⟨⟨0, 3, eventFlagOr ||| eventFlagClear⟩, .eok, some recved, 6, false⟩ ∧
    z.log.getLast? = y'.log.getLast? := by
  have hinv := EventRunInv.of_reach reach_trioEventRun
  have hnobody : ∀ t, ¬trioEventRun.ev.sys.OnWaitList 0 t := by
    intro t ht
    have hb := hinv.ev.block.onWaitList_iff.mp ht
    cases hb
  -- the receive comes first, and thread 1 runs again after the send
  have hrun : ((((trioEventRun.step 0
      (.op (.call (.recv 0 3 (eventFlagOr ||| eventFlagClear) (-1) 0)))).bind
      (·.step 0 (.op .schedule))).bind (·.step 0 (.op (.call (.send 0 6 false))))).bind
      (·.step 0 (.op .schedule))).bind (·.ev.sys.caller 0) = some 1 := by
    decide +kernel
  obtain ⟨b, hb, hagain⟩ := bind_eq_some_iff.mp hrun
  obtain ⟨y, hy, hb⟩ := bind_eq_some_iff.mp hb
  obtain ⟨a2, ha2, hy⟩ := bind_eq_some_iff.mp hy
  obtain ⟨a, ha, ha2⟩ := bind_eq_some_iff.mp ha2
  have hcaller : trioEventRun.ev.sys.free 0 trioEventRun.pending = some 1 := by decide +kernel
  have hschedule : ∀ {p q : EventRun}, p.step 0 (.op .schedule) = some q →
      Meanwhile 0 0 1 p q := by
    intro p q hpq
    refine .single ⟨.op .schedule, trivial, trivial, hpq, ?_⟩
    obtain ⟨sys, -, rfl⟩ := map_eq_some_iff.mp hpq
    exact ⟨rfl, rfl⟩
  have hreceive : ReceiveFirst 0 1 ⟨0, 3, eventFlagOr ||| eventFlagClear⟩ 6 trioEventRun y :=
    ⟨-1, 0, false, a, a2, by decide, hcaller, ha, hschedule ha2, hy⟩
  -- the send comes first
  have hrun' : ((trioEventRun.step 0 (.op (.call (.send 0 6 false)))).bind fun a =>
      (a.step 0 (.op (.call (.recv 0 3 (eventFlagOr ||| eventFlagClear) 0 0)))).map fun y =>
        (y, a.ev.sys.free 0 a.pending)).map Prod.snd = some (some 1) := by decide +kernel
  obtain ⟨⟨y', caller⟩, hpair, hcaller'⟩ := map_eq_some_iff.mp hrun'
  obtain ⟨a', ha', hmap⟩ := bind_eq_some_iff.mp hpair
  obtain ⟨y'', hy', heq⟩ := map_eq_some_iff.mp hmap
  cases heq
  have hsend : SendFirst 0 1 ⟨0, 3, eventFlagOr ||| eventFlagClear⟩ 6 trioEventRun y' :=
    ⟨false, a', a', 0, 0, ha', .refl, hcaller', hy'⟩
  have hagree := delivery_orders_agree hinv hinv rfl hnobody hnobody (.inl rfl)
    ⟨by decide, by decide⟩ (by decide) (by decide) hreceive hsend
  rw [if_pos (by decide)] at hagree
  obtain ⟨recved, hlog, -, hcompletes⟩ := hagree
  obtain ⟨z, hfinish, hlogz, -⟩ := hcompletes b ⟨hschedule hb, hagain⟩
  exact ⟨y, y', b, z, recved, hreceive, hsend, ⟨hschedule hb, hagain⟩, hfinish, hlog,
    hlogz.trans hlog.symm⟩

/-! ## Sending and receiving the same events -/

private theorem and_or_low_iff (m set : BitVec 32) :
    m &&& (set ||| (m.setWidth 16).setWidth 32) = m ↔
      (m >>> 16) &&& (set >>> 16) = m >>> 16 := by
  constructor
  · intro h
    refine BitVec.eq_of_getLsbD_eq fun i _ => ?_
    have hbit := congrArg (·.getLsbD (16 + i)) h
    simpa [Nat.not_lt.mpr (Nat.le_add_right 16 i)] using hbit
  · intro h
    refine BitVec.eq_of_getLsbD_eq fun i hi => ?_
    by_cases hlow : i < 16
    · simpa [hlow, hi] using .inr
    · have hbit := congrArg (·.getLsbD (i - 16)) h
      simpa [hlow, Nat.add_sub_of_le (Nat.le_of_not_lt hlow)] using hbit

/-- Nobody waits: the events are added, if there are any. -/
theorem skEventSend_empty {k : Kernel} {event : Event} {wait : Tid → EventWait}
    {list : ListHead} (hempty : skListEmpty k.sched.links (.head list) = true) (s : BitVec 16)
    (needSchedule : Bool) :
    ∃ done, skEventSend k event wait list s needSchedule =
      some (done, k, { event with set := event.set ||| s.setWidth 32 }, wait) := by
  by_cases hzero : s = 0
  · rw [hzero]
    exact ⟨.ret .error, by simp [skEventSend]⟩
  · exact ⟨_, by simp only [skEventSend, if_neg hzero, hempty, if_true]; rfl⟩

/-- **The events that a thread sends can be received, when nobody waits, exactly if those of the
    upper half are already in the set.** The argument of `sk_event_send` has 16 bits. The receive
    may be made in any later state of the kernel in which the object is as the send has left it. -/
theorem event_round_trip_iff {k k' : Kernel} {event : Event} {wait wait' : Tid → EventWait}
    {list : ListHead} {m : BitVec 32} (hm : m ≠ 0)
    (hempty : skListEmpty k.sched.links (.head list) = true)
    (hc : k'.sched.currentThread = some c) (needSchedule : Bool) (fuel : Nat) :
    (∃ done k1 event1 wait1 k2 event2 wait2,
      skEventSend k event wait list (m.setWidth 16) needSchedule =
        some (done, k1, event1, wait1) ∧
      skEventRecv fuel k' event1 wait' list m eventFlagAnd 0 =
        some (.ret .eok, k2, event2, wait2, some m)) ↔
      (m >>> 16) &&& (event.set >>> 16) = m >>> 16 := by
  obtain ⟨done, hsend⟩ : ∃ done, skEventSend k event wait list _ needSchedule = _ :=
    skEventSend_empty hempty (m.setWidth 16) needSchedule
  have hmatch : eventMatch eventFlagAnd m (event.set ||| (m.setWidth 16).setWidth 32) =
      some (decide (m &&& (event.set ||| (m.setWidth 16).setWidth 32) = m)) :=
    if_pos (by decide)
  rw [← and_or_low_iff]
  constructor
  · rintro ⟨done', k1, event1, wait1, k2, event2, wait2, hsend', hrecv⟩
    cases hsend.symm.trans hsend'
    by_contra hnot
    rw [decide_eq_false hnot] at hmatch
    simp only [skEventRecv, if_neg hm, hc, hmatch, if_true] at hrecv
    cases hrecv
  · intro hall
    rw [decide_eq_true hall] at hmatch
    refine ⟨_, _, _, _, k', { event with set := event.set ||| (m.setWidth 16).setWidth 32 },
      update wait' c { eventSet := m, eventInfo := eventFlagAnd }, hsend, ?_⟩
    -- the option AND alone clears nothing
    have hclear : ¬eventFlagAnd &&& eventFlagClear ≠ 0 := by decide
    simp only [skEventRecv, if_neg hm, hc, hmatch, if_neg hclear, BitVec.and_comm _ m, hall]

/-- The upper of two events is in the set, and the lower one is sent. -/
theorem event_round_trip_lower : ∃ done k1 event1 wait1 k2 event2 wait2,
    skEventSend trioEventSys.sys.k ⟨0x10000, ipcFlagFifo⟩ trioEventSys.wait (.wait 0)
      ((0x10001 : BitVec 32).setWidth 16) false = some (done, k1, event1, wait1) ∧
    skEventRecv 0 trioEventSys.sys.k event1 trioEventSys.wait (.wait 0) 0x10001 eventFlagAnd 0 =
      some (.ret .eok, k2, event2, wait2, some 0x10001) := by
  have hempty : skListEmpty trioEventSys.sys.k.sched.links (.head (.wait 0)) = true := by
    decide +kernel
  have hcurrent : trioEventSys.sys.k.sched.currentThread = some 1 := by decide +kernel
  exact (event_round_trip_iff (by decide) hempty hcurrent false 0).mpr (by decide)

/-- An event of the upper half is refused, and a receive does not find it. -/
theorem event_upper_half_lost :
    (skEventSend trioEventSys.sys.k (skEventInit ipcFlagFifo) trioEventSys.wait (.wait 0)
      ((0x10000 : BitVec 32).setWidth 16) false).map (fun r => (r.1, r.2.2.1.set)) =
        some (.ret .error, 0) ∧
    (skEventRecv 0 trioEventSys.sys.k (skEventInit ipcFlagFifo) trioEventSys.wait (.wait 0)
      0x10000 eventFlagAnd 0).map (fun r => (r.1, r.2.2.2.2)) = some (.ret .etimeout, none) := by
  constructor
  · decide +kernel
  · decide +kernel

end SKernel.Spec
