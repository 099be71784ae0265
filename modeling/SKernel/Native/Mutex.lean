import SKernel.Native.Thread

/-!
# Mutex

Model of `ipc/mutex.c`. A mutex is used together with the wait list that stands for its
`suspend_thread`. Each call is modelled up to the point where it enables interrupts again, and
says how it goes on from there; the calls are made by the current thread.
-/

namespace SKernel.Native

/-- `SK_MUTEX_HOLD_MAX`. -/
def mutexHoldMax : Nat := 0xFF

/-- `struct sk_mutex`, without the wait list. -/
structure Mutex where
  value : Nat
  originalPri : Nat
  hold : Nat
  owner : Option Tid

/-- `sk_mutex_init`. -/
def skMutexInit : Mutex where
  value := 1
  originalPri := 0xFF
  hold := 0
  owner := none

/-- `sk_mutex_lock`, called by a thread. Without a current thread, before the scheduler starts, the
    source would find the owner of a free mutex equal to `SK_NULL` and lock it recursively: that
    call is not modelled, and the result is `none`. -/
def skMutexLock (fuel : Nat) (k : Kernel) (mutex : Mutex) (list : ListHead) (time : Int) :
    Option (CallEnd × Kernel × Mutex) :=
  match k.sched.currentThread with
  | none => none
  | some thread =>
    if mutex.owner = some thread then
      if mutex.hold < mutexHoldMax then
        some (.ret .eok, k, { mutex with hold := mutex.hold + 1 })
      else some (.ret .efull, k, mutex)
    else if mutex.value > 0 then
      -- mutex is available: set mutex owner and original priority
      let mutex := { mutex with
        value := mutex.value - 1
        owner := some thread
        originalPri := (k.sched.thread thread).currentPri }
      if mutex.hold < mutexHoldMax then
        some (.ret .eok, k, { mutex with hold := mutex.hold + 1 })
      else some (.ret .efull, k, mutex)
    else if time = 0 then some (.ret .etimeout, k, mutex)
    else (ipcBlock fuel k list ipcFlagPrio time).map fun k => (.schedule, k, mutex)

/-- `sk_mutex_trylock`. -/
def skMutexTrylock (fuel : Nat) (k : Kernel) (mutex : Mutex) (list : ListHead) :
    Option (CallEnd × Kernel × Mutex) :=
  skMutexLock fuel k mutex list 0

/-- `sk_mutex_unlock`, called by a thread as `sk_mutex_lock` is: `none` without a current thread,
    where the source would go on with a free mutex. -/
def skMutexUnlock (k : Kernel) (mutex : Mutex) (list : ListHead) :
    Option (CallEnd × Kernel × Mutex) :=
  match k.sched.currentThread with
  | none => none
  | some thread =>
    -- mutex only can be released by owner
    if mutex.owner ≠ some thread then some (.ret .error, k, mutex)
    else
      let mutex := { mutex with hold := (mutex.hold + 0xFF) % 0x100 }
      if mutex.hold = 0 then
        if skListEmpty k.sched.links (.head list) then
          some (.ret .eok, k,
            { mutex with
              value := (mutex.value + 1) % 0x10000
              owner := none
              originalPri := 0xFF })
        else
          -- set new owner and priority, resume thread
          (ipcFirstThread k.sched list).map fun thread =>
            (.schedule, (skThreadResume k thread).2,
              { mutex with
                owner := some thread
                originalPri := (k.sched.thread thread).currentPri
                hold := mutex.hold + 1 })
      else some (.ret .eok, k, mutex)

end SKernel.Native
