import SKernel.ForStd.ByteMem
import SKernel.ForStd.Circular
import SKernel.Native.Thread

/-!
# Message queue

Model of `ipc/msg_queue.c`. The pool is divided into slots, each of which is a pointer
`struct sk_mq_message` followed by the bytes of a message. The pointers link the free slots, and
the slots of the messages in the queue. A queue is used together with the wait list that stands
for its `suspend_thread`.

A send takes a free slot, fills it, and links it; a receive unlinks a slot, copies the message
out, and gives the slot back. Interrupts are enabled while a slot is filled or copied out, so each
of these parts is a function of its own. The calls are made by the current thread.

`sk_msg_queue_send_wait` tests `mq == SK_NULL` where it is meant to find out that no slot is free.
The test fails, since `mq` has been used before, and the branch that blocks is never entered: when
no slot is free and the timeout is not 0, the null pointer is read, which is `none` here.
`msgQueueSendBegin` has this branch, and `msgQueueSendTake` is what is left of it.
-/

namespace SKernel.Native

open ByteMem Circular

/-- `sizeof(struct sk_mq_message)`. -/
def mqMessageSize : Nat := 8

/-- `struct sk_msg_queue`, without the wait lists. -/
structure MsgQueue where
  msgPool : Nat
  msgSize : Nat
  maxMsgs : Nat
  entry : Nat
  msgQueueHead : Nat
  msgQueueTail : Nat
  msgQueueFree : Nat
  /-- `parent.parent.flag` -/
  flag : BitVec 8

/-- The address of slot `i`. -/
def MsgQueue.slot (mq : MsgQueue) (i : Nat) : Nat := mq.msgPool + i * (mq.msgSize + mqMessageSize)

/-- The loop that puts the slots on the free list, after `n` rounds. -/
def msgQueueFreeLoop (mq : MsgQueue) (mem : Mem) : Nat → MsgQueue × Mem
  | 0 => (mq, mem)
  | n + 1 =>
    let (mq, mem) := msgQueueFreeLoop mq mem n
    let head := mq.slot n
    ({ mq with msgQueueFree := head }, store mem 8 head mq.msgQueueFree)

/-- `sk_msg_queue_init`. -/
def skMsgQueueInit (mem : Mem) (msgpool msgSize poolSize : Nat) (flag : BitVec 8) :
    MsgQueue × Mem :=
  let msgSize := msgSize % 2 ^ 16
  let mq : MsgQueue :=
    { msgPool := msgpool
      msgSize := msgSize
      maxMsgs := poolSize / (msgSize + mqMessageSize) % 2 ^ 16
      entry := 0
      msgQueueHead := 0
      msgQueueTail := 0
      msgQueueFree := 0
      flag := flag }
  msgQueueFreeLoop mq mem mq.maxMsgs

/-- `sk_msg_queue_send_wait` until it has taken a slot or returns an error. -/
def msgQueueSendTake (mq : MsgQueue) (mem : Mem) (size : Nat) (timeout : Int) :
    Option (Except SkErr (Nat × MsgQueue)) :=
  -- greater than one message size
  if size > mq.msgSize then some (.error .error)
  else
    let msg := mq.msgQueueFree
    -- for non-blocking call
    if msg = 0 ∧ timeout = 0 then some (.error .efull)
    else if msg = 0 then none
    -- move free list pointer
    else some (.ok (msg, { mq with msgQueueFree := load mem 8 msg }))

/-- The first part of `sk_msg_queue_send_wait` returns an error, blocks on `suspend_sender_thread`,
    or has taken a slot. -/
inductive MsgSendEnd where
  | ret (code : SkErr)
  | block (k : Kernel)
  | took (msg : Nat) (mq : MsgQueue)

/-- The first part of `sk_msg_queue_send_wait` with all its branches, for the queue at address
    `addr`. -/
def msgQueueSendBegin (fuel : Nat) (k : Kernel) (addr : Nat) (mq : MsgQueue) (mem : Mem)
    (senders : ListHead) (size : Nat) (timeout : Int) : Option MsgSendEnd :=
  -- `mq->msg_size` is read
  if addr = 0 then none
  -- greater than one message size
  else if size > mq.msgSize then some (.ret .error)
  else
    let msg := mq.msgQueueFree
    -- for non-blocking call
    if msg = 0 ∧ timeout = 0 then some (.ret .efull)
    -- message queue is full
    else if addr = 0 then (ipcBlock fuel k senders mq.flag timeout).map .block
    -- move free list pointer
    else if msg = 0 then none
    else some (.took msg { mq with msgQueueFree := load mem 8 msg })

/-- `sk_msg_queue_send_wait`: fill the slot. -/
def msgQueueSendFill (mem : Mem) (msg : Nat) (buffer : List UInt8) : Mem :=
  blit (store mem 8 msg 0) (msg + mqMessageSize) buffer

/-- `sk_msg_queue_send_wait`: link the slot, and resume a suspended thread. -/
def msgQueueSendLink (k : Kernel) (mq : MsgQueue) (mem : Mem) (receivers : ListHead) (msg : Nat) :
    Option (CallEnd × Kernel × MsgQueue × Mem) :=
  let mem := if mq.msgQueueTail ≠ 0 then store mem 8 mq.msgQueueTail msg else mem
  let mq := { mq with
    msgQueueTail := msg
    -- if the head is empty, set head
    msgQueueHead := if mq.msgQueueHead = 0 then msg else mq.msgQueueHead
    entry := (mq.entry + 1) % 2 ^ 16 }
  (ipcResumeFirst k receivers).map fun (e, k) => (e, k, mq, mem)

/-- `sk_msg_queue_recv` from the second test until it has unlinked a slot or returns an error. -/
def msgQueueRecvUnlink (mq : MsgQueue) (mem : Mem) : Option (Except SkErr (Nat × MsgQueue)) :=
  -- thread timer timeout and thread rerun, check mailbox is empty
  if mq.entry = 0 then some (.error .etimeout)
  else
    let msg := mq.msgQueueHead
    if msg = 0 then none
    else
      let mq := { mq with
        msgQueueHead := load mem 8 msg
        -- reach queue tail, set to NULL
        msgQueueTail := if mq.msgQueueTail = msg then 0 else mq.msgQueueTail
        entry := if mq.entry > 0 then mq.entry - 1 else mq.entry }
      some (.ok (msg, mq))

/-- The first part of `sk_msg_queue_recv` returns an error, blocks, or has unlinked a slot. -/
inductive MsgRecvEnd where
  | ret (code : SkErr)
  | block (k : Kernel)
  | took (msg : Nat) (mq : MsgQueue)

/-- The first part of `sk_msg_queue_recv`. -/
def msgQueueRecvBegin (fuel : Nat) (k : Kernel) (mq : MsgQueue) (mem : Mem) (receivers : ListHead)
    (timeout : Int) : Option MsgRecvEnd :=
  -- for non-blocking call
  if mq.entry = 0 ∧ timeout = 0 then some (.ret .etimeout)
  else if mq.entry = 0 then (ipcBlock fuel k receivers mq.flag timeout).map .block
  else
    (msgQueueRecvUnlink mq mem).map fun
      | .error code => .ret code
      | .ok (msg, mq) => .took msg mq

/-- `sk_msg_queue_recv`: copy the message out. -/
def msgQueueRecvCopy (mq : MsgQueue) (mem : Mem) (msg size : Nat) : List UInt8 :=
  slice mem (msg + mqMessageSize) (if size > mq.msgSize then mq.msgSize else size)

/-- `sk_msg_queue_recv`: put the slot on the free list, and resume a suspended thread. -/
def msgQueueRecvFree (k : Kernel) (mq : MsgQueue) (mem : Mem) (receivers : ListHead) (msg : Nat) :
    Option (CallEnd × Kernel × MsgQueue × Mem) :=
  let mem := store mem 8 msg mq.msgQueueFree
  let mq := { mq with msgQueueFree := msg }
  (ipcResumeFirst k receivers).map fun (e, k) => (e, k, mq, mem)

end SKernel.Native
