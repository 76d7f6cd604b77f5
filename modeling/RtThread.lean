import RtThread.Drivers.Alarm
import RtThread.Drivers.AlarmChoice
import RtThread.Drivers.AlarmRuns
import RtThread.Drivers.Completion
import RtThread.Drivers.CompletionRuns
import RtThread.Drivers.Dataqueue
import RtThread.Drivers.DataqueueMask
import RtThread.Drivers.DataqueueMaskRuns
import RtThread.Drivers.DataqueueRuns
import RtThread.Drivers.DataqueueSteps
import RtThread.Drivers.DataqueueTimeout
import RtThread.Drivers.DataqueueWakeups
import RtThread.Drivers.EthernetRx
import RtThread.Drivers.EthernetRxRuns
import RtThread.Drivers.EthernetTx
import RtThread.Drivers.EthernetTxRuns
import RtThread.Drivers.Pipe
import RtThread.Drivers.PipeFifo
import RtThread.Drivers.PipeRuns
import RtThread.Drivers.Ringbuffer
import RtThread.Drivers.RingbufferChars
import RtThread.Drivers.RingbufferRuns
import RtThread.Format.Digits
import RtThread.Format.Number
import RtThread.Format.Print
import RtThread.Format.Rendering
import RtThread.Format.Scan
import RtThread.Format.Truncation
import RtThread.Kernel.Boot
import RtThread.Kernel.Clock
import RtThread.Kernel.Critical
import RtThread.Kernel.CriticalRuns
import RtThread.Kernel.DeviceNames
import RtThread.Kernel.Devices
import RtThread.Kernel.EventDelivery
import RtThread.Kernel.EventRuns
import RtThread.Kernel.Inheritance
import RtThread.Kernel.Ipc
import RtThread.Kernel.IpcTimeout
import RtThread.Kernel.LifeRuns
import RtThread.Kernel.LifeSteps
import RtThread.Kernel.Lives
import RtThread.Kernel.MailFifo
import RtThread.Kernel.MailMoves
import RtThread.Kernel.MailRuns
import RtThread.Kernel.MemPool
import RtThread.Kernel.MemPoolBuild
import RtThread.Kernel.MemPoolEnds
import RtThread.Kernel.MemPoolRuns
import RtThread.Kernel.MessageNodes
import RtThread.Kernel.MessageQueue
import RtThread.Kernel.MessageRuns
import RtThread.Kernel.MessageSteps
import RtThread.Kernel.MessageWaits
import RtThread.Kernel.Moves
import RtThread.Kernel.MutexMoves
import RtThread.Kernel.MutexNesting
import RtThread.Kernel.MutexRuns
import RtThread.Kernel.MutexSound
import RtThread.Kernel.MutexSystem
import RtThread.Kernel.MutexView
import RtThread.Kernel.PriorityOrder
import RtThread.Kernel.ReadyEnds
import RtThread.Kernel.ReadyQueue
import RtThread.Kernel.ReadyRuns
import RtThread.Kernel.Remask
import RtThread.Kernel.RoundRobin
import RtThread.Kernel.Scheduler
import RtThread.Kernel.Sections
import RtThread.Kernel.SemMoves
import RtThread.Kernel.SemRuns
import RtThread.Kernel.State
import RtThread.Kernel.Surroundings
import RtThread.Kernel.System
import RtThread.Kernel.Thread
import RtThread.Kernel.Timer
import RtThread.Kernel.TimerCallbacks
import RtThread.Kernel.TimerDrain
import RtThread.Kernel.TimerQueue
import RtThread.Kernel.TimerRuns
import RtThread.Kernel.TimerSoft
import RtThread.Kernel.TimerThread
import RtThread.Kernel.WaitOrder
import RtThread.Kernel.WaitQueue
import RtThread.Kernel.WaitRuns
import RtThread.Kernel.WaitSteps
import RtThread.Kernel.WaitThins
import RtThread.Kernel.WaitTicks
import RtThread.Libcpu.ContextSwitch
import RtThread.Libcpu.ContextSwitchRuns
import RtThread.Lwip.Checksum
import RtThread.Lwip.ChecksumChains
import RtThread.Lwip.ChecksumSums
import RtThread.Lwip.Pbuf
import RtThread.Lwip.TcpAcks
import RtThread.Lwip.TcpQueue
import RtThread.Lwip.TcpReceive
import RtThread.Lwip.TcpRuns
import RtThread.Lwip.TcpSend
import RtThread.Lwip.TcpSendQueue
import RtThread.Lwip.TcpSendRuns
import RtThread.Lwip.TcpTransfer
import RtThread.Lwip.TcpWrites
import RtThread.Memory.AlignedAlloc
import RtThread.Memory.AllocatorLocks
import RtThread.Memory.Heap
import RtThread.Memory.HeapData
import RtThread.Memory.HeapMemory
import RtThread.Memory.HeapRuns
import RtThread.Memory.HeapSearch
import RtThread.Memory.HeapSizes
import RtThread.Memory.HeapSound
import RtThread.Memory.HeapSteps
import RtThread.Memory.HeapTermination
import RtThread.Memory.Memheap
import RtThread.Memory.MemheapExact
import RtThread.Memory.MemheapLock
import RtThread.Memory.MemheapRuns
import RtThread.Memory.MemheapSound
import RtThread.Memory.MemheapSteps
import RtThread.Memory.Memmove
import RtThread.Memory.ModuleHeap
import RtThread.Memory.ModuleRuns
import RtThread.Memory.ModuleUnits
import RtThread.Memory.Page
import RtThread.Memory.PageRuns
import RtThread.Memory.Relocation
import RtThread.Memory.Slab
import RtThread.Memory.SlabFrees
import RtThread.Memory.SlabPages
import RtThread.Memory.SlabRuns
import RtThread.Memory.SlabSizes
import RtThread.Memory.SlabSteps
import RtThread.Memory.SlabWrites
import RtThread.Memory.SlabZones
import RtThread.Memory.StringSearch
import RtThread.Memory.WordRoutines
import RtThread.Serial.Device
import RtThread.Serial.DmaTransmit
import RtThread.Serial.Preempt
import RtThread.Serial.Receive
import RtThread.Serial.Ring
import RtThread.Serial.RingRuns
import RtThread.Serial.Transmit
import RtThread.Serial.TxFifo
import RtThread.Std.Chain
import RtThread.Std.Chains
import RtThread.Std.Circle
import RtThread.Std.Custody
import RtThread.Std.Deadline
import RtThread.Std.FreeList
import RtThread.Std.FreeRunning
import RtThread.Std.History
import RtThread.Std.Loop
import RtThread.Std.Machine
import RtThread.Std.OnesSum
import RtThread.Std.Pieces
import RtThread.Std.Placement
import RtThread.Std.Ring
import RtThread.Std.RingBuffer
import RtThread.Std.Sequence
import RtThread.Std.Simulation
import RtThread.Std.Sink
import RtThread.Std.Slots
import RtThread.Std.Soonest
import RtThread.Std.StagedRing
import RtThread.Std.ThumbBranch
import RtThread.Std.Tiling
import RtThread.Std.Turns
import RtThread.Std.Waiters
import RtThread.Std.Words
