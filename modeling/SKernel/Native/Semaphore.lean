import SKernel.Native.Thread

/-!
# Semaphore

Model of `ipc/semaphore.c`. A semaphore is used together with the wait list that stands for
its `suspend_thread`. Each call is modelled up to the point where it enables interrupts again,
and says how it goes on from there; the calls are made by the current thread.
-/

namespace SKernel.Native

/-- `SK_SEM_VALUE_MAX`. -/
def semValueMax : Nat := 0xFFFF

/-- `struct sk_sem`, without the wait list: the value and `parent.parent.flag`. -/
structure Sem where
  value : Nat
  flag : BitVec 8

/-- `sk_sem_init`. -/
def skSemInit (value : Nat) (flag : BitVec 8) : Sem where
  value := value
  flag := flag

/-- `sk_sem_wait`. -/
def skSemWait (fuel : Nat) (k : Kernel) (sem : Sem) (list : ListHead) (time : Int) :
    Option (CallEnd × Kernel × Sem) :=
  if sem.value > 0 then
    -- sem is available
    some (.ret .eok, k, { sem with value := sem.value - 1 })
  else if time = 0 then some (.ret .etimeout, k, sem)
  else (ipcBlock fuel k list sem.flag time).map fun k => (.schedule, k, sem)

/-- `sk_sem_trywait`. -/
def skSemTrywait (fuel : Nat) (k : Kernel) (sem : Sem) (list : ListHead) :
    Option (CallEnd × Kernel × Sem) :=
  skSemWait fuel k sem list 0

/-- `sk_sem_post`. -/
def skSemPost (k : Kernel) (sem : Sem) (list : ListHead) : Option (CallEnd × Kernel × Sem) :=
  if skListEmpty k.sched.links (.head list) then
    if sem.value < semValueMax then
      some (.ret .eok, k, { sem with value := sem.value + 1 })
    else some (.ret .efull, k, sem)
  else
    -- resume thread
    (ipcFirstThread k.sched list).map fun thread =>
      (.schedule, (skThreadResume k thread).2, sem)

end SKernel.Native
