import SKernel.Native.Thread

/-!
# Event

Model of `ipc/event.c`. An event is used together with the wait list that stands for its
`suspend_thread`. The fields `event_set` and `event_info` of the threads, which only this file
uses, are a map of their own. Each call is modelled up to the point where it enables interrupts
again, and says how it goes on from there; the calls are made by the current thread.
-/

namespace SKernel.Native

/-- `SK_EVENT_FLAG_AND`. -/
def eventFlagAnd : BitVec 8 := 0x01

/-- `SK_EVENT_FLAG_OR`. -/
def eventFlagOr : BitVec 8 := 0x02

/-- `SK_EVENT_FLAG_CLEAR`. -/
def eventFlagClear : BitVec 8 := 0x04

/-- `struct sk_event`, without the wait list: the set and `parent.parent.flag`. -/
structure Event where
  set : BitVec 32
  flag : BitVec 8

/-- The fields `event_set` and `event_info` of a thread. -/
structure EventWait where
  eventSet : BitVec 32
  eventInfo : BitVec 8

/-- `sk_event_init`. -/
def skEventInit (flag : BitVec 8) : Event where
  set := 0
  flag := flag

/-- Whether `set` is what is waited for: all of `want`, or one of them; `none` without such an
    option. -/
def eventMatch (option : BitVec 8) (want set : BitVec 32) : Option Bool :=
  if option &&& eventFlagAnd ≠ 0 then some (want &&& set = want)
  else if option &&& eventFlagOr ≠ 0 then some (want &&& set ≠ 0)
  else none

/-- `sk_event_send`. The local variable `need_schedule` is not initialised: `needSchedule` is the
    value it happens to have. -/
def skEventSend (k : Kernel) (event : Event) (wait : Tid → EventWait) (list : ListHead)
    (set : BitVec 16) (needSchedule : Bool) :
    Option (CallEnd × Kernel × Event × (Tid → EventWait)) :=
  if set = 0 then some (.ret .error, k, event, wait)
  else
    let event := { event with set := event.set ||| set.setWidth 32 }
    let done := if needSchedule then CallEnd.schedule else .ret .eok
    if skListEmpty k.sched.links (.head list) then some (done, k, event, wait)
    else
      (ipcFirstThread k.sched list).map fun thread =>
        let w := wait thread
        match eventMatch w.eventInfo w.eventSet event.set with
        | none => (.ret .einval, k, event, wait)
        | some false => (done, k, event, wait)
        | some true =>
          -- save the received event set of an OR event
          let w := if w.eventInfo &&& eventFlagAnd ≠ 0 then w
            else { w with eventSet := w.eventSet &&& event.set }
          -- clear event
          let event := if w.eventInfo &&& eventFlagClear ≠ 0
            then { event with set := event.set &&& ~~~w.eventSet } else event
          (.schedule, (skThreadResume k thread).2, event, Function.update wait thread w)

/-- `sk_event_recv`. The last component is what it stores in `*recved`, unless it blocks. -/
def skEventRecv (fuel : Nat) (k : Kernel) (event : Event) (wait : Tid → EventWait)
    (list : ListHead) (set : BitVec 32) (option : BitVec 8) (timeout : Int) :
    Option (CallEnd × Kernel × Event × (Tid → EventWait) × Option (BitVec 32)) :=
  if set = 0 then some (.ret .error, k, event, wait, none)
  else
    match k.sched.currentThread with
    | none => none
    | some thread =>
      match eventMatch option set event.set with
      | none => some (.ret .einval, k, event, wait, none)
      | some true =>
        let recved := event.set &&& set
        let wait := Function.update wait thread { eventSet := recved, eventInfo := option }
        -- received event
        let event := if option &&& eventFlagClear ≠ 0
          then { event with set := event.set &&& ~~~set } else event
        some (.ret .eok, k, event, wait, some recved)
      | some false =>
        if timeout = 0 then some (.ret .etimeout, k, event, wait, none)
        else
          -- put thread to event suspend list
          let wait := Function.update wait thread { eventSet := set, eventInfo := option }
          (ipcBlock fuel k list event.flag timeout).map fun k =>
            (.schedule, k, event, wait, none)

/-- What a blocked `sk_event_recv` by `thread` stores in `*recved` before it returns `SK_EOK`. -/
def eventRecvReturn (wait : Tid → EventWait) (thread : Tid) : BitVec 32 :=
  (wait thread).eventSet

end SKernel.Native
