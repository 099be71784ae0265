import SKernel.Native.RingBuffer
import SKernel.Spec.RingBufferCorrect
import SKernel.Spec.RingBufferForce
import SKernel.ForStd.Update
import SKernel.ForStd.Ring
import SKernel.Native.Klist
import SKernel.ForStd.RingCycles
import SKernel.Spec.KlistCorrect
import SKernel.Native.Timer
import SKernel.Spec.TimerCorrect
import SKernel.Native.Sched
import SKernel.Native.Thread
import SKernel.Spec.ThreadLists
import SKernel.Spec.FfsCorrect
import SKernel.Spec.HighestPriority
import SKernel.Spec.SchedQueues
import SKernel.Spec.SchedInv
import SKernel.Spec.ThreadCalls
import SKernel.Spec.SchedCorrect
import SKernel.Spec.BlockingCorrect
import SKernel.Spec.StrictPriority
import SKernel.Native.Mutex
import SKernel.Native.Semaphore
import SKernel.Spec.IpcWait
import SKernel.Spec.MutexCorrect
import SKernel.Spec.SemaphoreCorrect
import SKernel.ForStd.ByteMem
import SKernel.ForStd.Runs
import SKernel.Native.Slab
import SKernel.Spec.PageList
import SKernel.Spec.PageCorrect
import SKernel.ForStd.Chain
import SKernel.Spec.SlabInv
import SKernel.Spec.SlabCalls
import SKernel.Spec.SlabCorrect
import SKernel.Spec.HeapInit
import SKernel.Spec.SlabClasses
import SKernel.Spec.SlabAccounting
import SKernel.Spec.MallocRefusal
import SKernel.Spec.BlockLookup
import SKernel.Native.Device
import SKernel.Spec.DeviceCorrect
import SKernel.Native.Event
import SKernel.Spec.EventCorrect
import SKernel.Spec.TimerIntegrity
import SKernel.Spec.TimerTermination
import SKernel.Spec.TickWrap
import SKernel.Spec.StatQueues
import SKernel.Spec.MutexState
import SKernel.Native.Mailbox
import SKernel.Spec.MailboxCorrect
import SKernel.Spec.RecvWait
import SKernel.Spec.EventRecv
import SKernel.Spec.EventDelivery
import SKernel.Spec.MailboxWait
import SKernel.ForStd.Places
import SKernel.Native.MsgQueue
import SKernel.Spec.MsgQueueSlots
import SKernel.Spec.MsgQueueCorrect
import SKernel.Spec.MsgQueueFull
import SKernel.Spec.MsgQueueWait
import SKernel.Spec.MsgIndependence
import SKernel.Spec.IpcCalls
import SKernel.Spec.StaleTimeout
import SKernel.Native.ObjectState
import SKernel.Spec.IpcCreate
import SKernel.Spec.HeapOwnership
import SKernel.Native.ThreadStack
import SKernel.Spec.ThreadStack
import SKernel.ForStd.WordStack
import SKernel.Native.Context
import SKernel.Spec.ContextFrames
import SKernel.Spec.ContextSwitch
import SKernel.Native.Serial
import SKernel.Spec.SerialCorrect
import SKernel.Spec.SerialWrite
import SKernel.Spec.DeviceRegistry
import SKernel.Native.Vfs
import SKernel.Spec.FdCorrect
import SKernel.Spec.VfsLock
import SKernel.ForStd.Triple
import SKernel.Native.Cpu
import SKernel.Native.Calls
import SKernel.Spec.CallSections
import SKernel.Spec.DeferredSwitch
import SKernel.Spec.IpcSections
import SKernel.Spec.RestoresMask
import SKernel.Spec.ScheduleCalls
import SKernel.Spec.MaskBalance
import SKernel.ForStd.RoundRobin
import SKernel.Spec.RoundRobin
import SKernel.ForStd.StableOrder
import SKernel.Spec.WaitOrder
import SKernel.Spec.SemaphoreWaiters
import SKernel.Spec.ResumeAll
import SKernel.ForStd.Padded
import SKernel.Native.StringOps
import SKernel.Spec.StringOps
import SKernel.Spec.MemcpyCorrect
import SKernel.Native.Shell
import SKernel.Spec.ShellBounds
import SKernel.ForStd.BoundedLog
import SKernel.Spec.ShellHistory
import SKernel.Spec.ShellEditing
import SKernel.Spec.ShellDispatch
import SKernel.Spec.ShellSession
import SKernel.Native.RingSteps
import SKernel.Spec.Terminal
import SKernel.Native.VfsFile
import SKernel.Spec.MountLookup
import SKernel.Spec.FileCalls
import SKernel.Native.Console
import SKernel.Spec.Itoa
import SKernel.Spec.KprintfBounds
