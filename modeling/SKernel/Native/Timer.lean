import Mathlib.Data.BitVec
import SKernel.Native.Klist

/-!
# System timers

Model of the timer part of `init/sys_tick.c`. A timer is named by an identifier; its
`list` node hangs on `__timer_list` while it is started. The rest of the system is a
state `σ` that the callbacks change: a callback that does not touch timers is a function
`timeoutFunc : I → σ → σ`. The list walk of `sk_timer_check` is bounded by fuel and gives
`none` when the fuel runs out.

The functions here run with interrupts disabled from their first to their last list access,
so the interrupt level does not show in the model.
-/

namespace SKernel.Native

/-- `SK_TIMER_FLAG_ACTIVE`. -/
def timerFlagActive : BitVec 8 := 0x1

/-- `SK_TIMER_FLAG_PERIODIC`. -/
def timerFlagPeriodic : BitVec 8 := 0x2

/-- `struct sk_sys_timer`, without its object header, list node and callback. -/
structure SysTimer where
  /-- `parent.flag` -/
  flag : BitVec 8
  initTick : Nat
  timeoutTick : Nat

/-- The test `timer->parent.flag & SK_TIMER_FLAG_ACTIVE`. -/
def SysTimer.isActive (t : SysTimer) : Bool := t.flag &&& timerFlagActive ≠ 0

/-- The test `timer->parent.flag & SK_TIMER_FLAG_PERIODIC`. -/
def SysTimer.isPeriodic (t : SysTimer) : Bool := t.flag &&& timerFlagPeriodic ≠ 0

/-- The list nodes of the timers: the head `__timer_list` and each timer's `list`. -/
inductive TimerNode (I : Type*) where
  | head
  | timer (i : I)
  deriving DecidableEq

/-- The tick counter, the timer list and the timers. -/
structure Timers (I : Type*) where
  skTick : Nat
  links : Links (TimerNode I)
  timer : I → SysTimer

variable {I : Type*} [DecidableEq I] {σ : Type*}

/-- Replace the record of one timer. -/
def Timers.setTimer (tm : Timers I) (i : I) (t : SysTimer) : Timers I :=
  { tm with timer := Function.update tm.timer i t }

/-- `sk_tick_get() + ticks` as a `sk_tick_t`. -/
def Timers.tickAfter (tm : Timers I) (ticks : Nat) : Nat := (tm.skTick + ticks) % 2 ^ 32

/-- `__timer_init`, the part of `sk_timer_init` that sets up the timer itself. -/
def timerInit (tm : Timers I) (i : I) (tick : Nat) (flag : BitVec 8) : Timers I :=
  { tm.setTimer i { flag, initTick := tick, timeoutTick := 0 } with
    links := skListInit tm.links (.timer i) }

/-- `__timer_remove`. -/
def timerRemove (tm : Timers I) (i : I) : Timers I :=
  { tm with links := skListDel tm.links (.timer i) }

/-- `sk_timer_start`. -/
def skTimerStart (tm : Timers I) (i : I) : Timers I :=
  let tm := timerRemove tm i
  let t := tm.timer i
  -- get timeout tick, change status of timer
  let tm := tm.setTimer i
    { t with timeoutTick := tm.tickAfter t.initTick, flag := t.flag ||| timerFlagActive }
  { tm with links := skListAdd tm.links .head (.timer i) }

/-- `timer->parent.flag &= ~SK_TIMER_FLAG_ACTIVE`. -/
def timerDeactivate (tm : Timers I) (i : I) : Timers I :=
  tm.setTimer i { tm.timer i with flag := (tm.timer i).flag &&& ~~~timerFlagActive }

/-- `sk_timer_stop`: the new state, unchanged when the timer is not active. -/
def skTimerStop (tm : Timers I) (i : I) : Timers I :=
  if (tm.timer i).isActive then timerRemove (timerDeactivate tm i) i else tm

/-- `sk_timer_control` with `SK_TIMER_CTRL_SET_TIME`. -/
def skTimerSetTime (tm : Timers I) (i : I) (tick : Nat) : Timers I :=
  tm.setTimer i { tm.timer i with initTick := tick }

/-- The commands of `sk_timer_control`, with the value of `*arg` where it is read. -/
inductive TimerCtrl where
  | getTime
  | setTime (tick : Nat)
  | setOnshot
  | setPeriodic
  | getState
  | other (cmd : Int)

/-- `sk_timer_control`: what is stored in `*arg`, and the new state. -/
def skTimerControl (tm : Timers I) (i : I) : TimerCtrl → Option Nat × Timers I
  | .getTime => (some (tm.timer i).initTick, tm)
  | .setTime tick => (none, skTimerSetTime tm i tick)
  | .setOnshot => (none,
    tm.setTimer i { tm.timer i with flag := (tm.timer i).flag &&& ~~~timerFlagPeriodic })
  | .setPeriodic => (none,
    tm.setTimer i { tm.timer i with flag := (tm.timer i).flag ||| timerFlagPeriodic })
  | .getState => (some (if (tm.timer i).isActive then timerFlagActive.toNat else 0), tm)
  | .other _ => (none, tm)

/-- `sk_timer_delete` up to the deletion of its object. -/
def timerDelete (tm : Timers I) (i : I) : Timers I :=
  timerDeactivate (timerRemove tm i) i

/-- The loop of `sk_timer_check` from the list position `list1` on. -/
def timerCheckLoop (timeoutFunc : I → σ → σ) :
    Nat → TimerNode I → Timers I → σ → Option (Timers I × σ)
  | 0, _, _, _ => none
  | _ + 1, .head, tm, s => some (tm, s)
  | fuel + 1, .timer i, tm, s =>
    if tm.skTick ≥ (tm.timer i).timeoutTick then
      -- call timeout function
      let s := if (tm.timer i).isActive then timeoutFunc i s else s
      -- if timer is stopped in timeout function, break
      if tm.links.next (.timer i) = tm.links.prev (.timer i) then
        some (tm, s)
      else
        let tm := if (tm.timer i).isPeriodic then skTimerStart tm i else timerDeactivate tm i
        timerCheckLoop timeoutFunc fuel (tm.links.next (.timer i)) tm s
    else
      timerCheckLoop timeoutFunc fuel (tm.links.next (.timer i)) tm s

/-- `sk_timer_check`. -/
def skTimerCheck (timeoutFunc : I → σ → σ) (fuel : Nat) (tm : Timers I) (s : σ) :
    Option (Timers I × σ) :=
  timerCheckLoop timeoutFunc fuel (tm.links.next .head) tm s

/-! ## The check with callbacks that use timers

A callback may call the timer functions itself. The steps of `sk_timer_check` before and after
a callback are therefore given on their own as well. -/

/-- Where `sk_timer_check` stands: it is not running, it is at a list position, or it has just
    called the timeout function of a timer that is due, if the timer was active. -/
inductive CheckPc (I : Type*) where
  | idle
  | visit (list1 : TimerNode I)
  | called (i : I)

/-- The loop of `sk_timer_check` from a list position up to the callback. -/
def timerCheckVisit (tm : Timers I) : TimerNode I → CheckPc I
  | .head => .idle
  | .timer i =>
    if tm.skTick ≥ (tm.timer i).timeoutTick then .called i
    else .visit (tm.links.next (.timer i))

/-- The loop of `sk_timer_check` from the callback on. -/
def timerCheckCalled (tm : Timers I) (i : I) : CheckPc I × Timers I :=
  -- if timer is stopped in timeout function, break
  if tm.links.next (.timer i) = tm.links.prev (.timer i) then (.idle, tm)
  else
    let tm := if (tm.timer i).isPeriodic then skTimerStart tm i else timerDeactivate tm i
    (.visit (tm.links.next (.timer i)), tm)

/-- `sk_tick_increase`. Its time-slice part `slice` works on the rest of the system only. -/
def tickIncrease (slice : σ → σ) (timeoutFunc : I → σ → σ) (fuel : Nat) (tm : Timers I)
    (s : σ) : Option (Timers I × σ) :=
  skTimerCheck timeoutFunc fuel { tm with skTick := tm.tickAfter 1 } (slice s)

end SKernel.Native
