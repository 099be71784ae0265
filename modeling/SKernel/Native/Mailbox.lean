import SKernel.ForStd.ByteMem
import SKernel.Native.Thread

/-!
# Mailbox

Model of `ipc/mailbox.c`. The mails are words in the memory of the pool. A mailbox is used
together with the two wait lists that stand for its `suspend_thread`, on which receivers wait,
and its `suspend_sender_thread`. A call that finds the mailbox full or empty blocks and looks
again after `sk_schedule`; the part of a call from there on is a function of its own. The calls
are made by the current thread.
-/

namespace SKernel.Native

open ByteMem

/-- `struct sk_mailbox`, without the wait lists. -/
structure Mailbox where
  msgPool : Nat
  size : Nat
  entry : Nat
  inOffset : Nat
  outOffset : Nat
  /-- `parent.parent.flag` -/
  flag : BitVec 8

/-- `sk_mailbox_init`. -/
def skMailboxInit (msgpool size : Nat) (flag : BitVec 8) : Mailbox where
  msgPool := msgpool
  size := size % 2 ^ 16
  entry := 0
  inOffset := 0
  outOffset := 0
  flag := flag

/-- The offset after `offset`, in a pool of `size` mails. -/
def mailboxNext (size offset : Nat) : Nat :=
  let offset := (offset + 1) % 2 ^ 16
  if offset ≥ size then 0 else offset

/-- `sk_mailbox_send_wait` from the second test on. -/
def mailboxSendRest (k : Kernel) (mb : Mailbox) (mem : Mem) (receivers : ListHead)
    (value : BitVec 64) : Option (CallEnd × Kernel × Mailbox × Mem) :=
  -- thread timer timeout and thread rerun, check mailbox is full
  if mb.entry = mb.size then some (.ret .efull, k, mb, mem)
  else
    let mem := store mem 8 (mb.msgPool + 8 * mb.inOffset) value.toNat
    let mb := { mb with inOffset := mailboxNext mb.size mb.inOffset }
    if mb.entry < mb.size then
      let mb := { mb with entry := (mb.entry + 1) % 2 ^ 16 }
      (ipcResumeFirst k receivers).map fun (e, k) => (e, k, mb, mem)
    else some (.ret .efull, k, mb, mem)

/-- `sk_mailbox_send_wait`. -/
def skMailboxSendWait (fuel : Nat) (k : Kernel) (mb : Mailbox) (mem : Mem)
    (receivers senders : ListHead) (value : BitVec 64) (timeout : Int) :
    Option (SegEnd × Kernel × Mailbox × Mem) :=
  -- for non-blocking call
  if mb.entry = mb.size ∧ timeout = 0 then some (.done (.ret .efull), k, mb, mem)
  else if mb.entry = mb.size then
    (ipcBlock fuel k senders mb.flag timeout).map fun k => (.block, k, mb, mem)
  else (mailboxSendRest k mb mem receivers value).map fun (e, r) => (.done e, r)

/-- `sk_mailbox_send`. -/
def skMailboxSend (fuel : Nat) (k : Kernel) (mb : Mailbox) (mem : Mem)
    (receivers senders : ListHead) (value : BitVec 64) :
    Option (SegEnd × Kernel × Mailbox × Mem) :=
  skMailboxSendWait fuel k mb mem receivers senders value 0

/-- `sk_mailbox_recv` from the second test on. The mail is `*value`. -/
def mailboxRecvRest (k : Kernel) (mb : Mailbox) (mem : Mem) (receivers : ListHead) :
    Option (CallEnd × Option (BitVec 64) × Kernel × Mailbox) :=
  -- thread timer timeout and thread rerun, check mailbox is empty
  if mb.entry = 0 then some (.ret .etimeout, none, k, mb)
  else
    let value := BitVec.ofNat 64 (load mem 8 (mb.msgPool + 8 * mb.outOffset))
    let mb := { mb with outOffset := mailboxNext mb.size mb.outOffset }
    let mb := if mb.entry > 0 then { mb with entry := mb.entry - 1 } else mb
    -- resume suspended thread
    (ipcResumeFirst k receivers).map fun (e, k) => (e, some value, k, mb)

/-- `sk_mailbox_recv`. -/
def skMailboxRecv (fuel : Nat) (k : Kernel) (mb : Mailbox) (mem : Mem) (receivers : ListHead)
    (timeout : Int) : Option (SegEnd × Option (BitVec 64) × Kernel × Mailbox) :=
  -- for non-blocking call
  if mb.entry = 0 ∧ timeout = 0 then some (.done (.ret .etimeout), none, k, mb)
  else if mb.entry = 0 then
    (ipcBlock fuel k receivers mb.flag timeout).map fun k => (.block, none, k, mb)
  else (mailboxRecvRest k mb mem receivers).map fun (e, r) => (.done e, r)

end SKernel.Native
