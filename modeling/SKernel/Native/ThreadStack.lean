import SKernel.Native.ObjectState
import SKernel.Native.Slab

/-!
# The stack of a new thread

Model of `__thread_stack_init`, and of what `sk_thread_create` does to the heap: it allocates the
thread and its stack and writes the initial frame. The fields of the thread are in
`ObjectState.skThreadCreate`.
-/

namespace SKernel.Native

open ByteMem

/-- `sizeof(sk_ubase_t)`. -/
def ubaseSize : Nat := 8

/-- `INITIAL_SPSR_EL1`. -/
def initialSpsrEl1 : Nat := 0x04

/-- `SK_IDLE_THREAD_STACK_SIZE`. -/
def idleThreadStackSize : Nat := 128

/-- `--stk`. -/
def stackDown (stk : Nat) : Nat := (stk + (2 ^ 64 - ubaseSize)) % 2 ^ 64

/-- The stores of a sequence of statements `*(--stk) = v`: the addresses and the values. -/
def pushWords (stk : Nat) : List Nat → List (Nat × Nat)
  | [] => []
  | v :: vs => (stackDown stk, v) :: pushWords (stackDown stk) vs

/-- `stk` after the statements. -/
def stackAfter (stk : Nat) (vs : List Nat) : Nat :=
  vs.foldl (fun stk _ => stackDown stk) stk

/-- The values that `__thread_stack_init` stores, from the first to the last. -/
def initialFrame (entry param exit : Nat) : List Nat :=
  [ -- X1, X0, X3, X2 and so on
    11, param, 33, 22, 55, 44, 77, 66, 99, 88, 11, 10, 13, 12, 15, 14, 17, 16, 19, 18, 21, 20, 23,
    22, 25, 24, 27, 26, 29, 28, 0, exit,
    initialSpsrEl1,
    -- exception return address
    entry]

/-- The memory after the stores of some words. -/
def storeWords (mem : Mem) (stores : List (Nat × Nat)) : Mem :=
  stores.foldl (fun mem w => store mem ubaseSize w.1 w.2) mem

/-- `__thread_stack_init`: its stores, and the stack pointer it returns. -/
def threadStackInit (entry param stackAddr exit : Nat) : List (Nat × Nat) × Nat :=
  (pushWords stackAddr (initialFrame entry param exit),
    stackAfter stackAddr (initialFrame entry param exit))

/-- What `sk_thread_create` has allocated and written: the thread, `stack_addr`, `sp`, and the
    stores of `__thread_stack_init`. -/
structure NewThread where
  thread : Nat
  stackAddr : Nat
  sp : Nat
  stores : List (Nat × Nat)

/-- `sk_malloc` and `sk_free` for the functions that create objects. -/
def slabAllocator (fuel : Nat) : Allocator Heap where
  malloc := skMalloc fuel
  free := skFree fuel

/-- The heap in `sk_thread_create`. -/
def threadCreateHeap (fuel : Nat) (h : Heap) (entry param stackSize exit : Nat) :
    Option (Option NewThread × Heap) :=
  (skMalloc fuel h (objSize .thread)).bind fun (thread, h) =>
    if thread = 0 then some (none, h)
    else
      (skMalloc fuel h stackSize).bind fun (stackStart, h) =>
        if stackStart = 0 then
          -- delete allocated object
          (skFree fuel h thread).map fun h => (none, h)
        else
          -- `__thread_init`
          let top := (stackStart + stackSize + (2 ^ 64 - ubaseSize)) % 2 ^ 64
          let (stores, sp) := threadStackInit entry param top exit
          some (some ⟨thread, stackStart, sp, stores⟩,
            { h with mem := storeWords h.mem stores })

end SKernel.Native
