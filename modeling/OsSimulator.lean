import OsSimulator.Library.Runs
import OsSimulator.Library.ByteStore
import OsSimulator.Library.KeyedList
import OsSimulator.Library.LockGraph
import OsSimulator.Library.Threads
import OsSimulator.Library.LockProgram
import OsSimulator.Library.Extents
import OsSimulator.Library.Slots
import OsSimulator.Library.Numbered
import OsSimulator.Library.FirstBest
import OsSimulator.Library.Places
import OsSimulator.Library.PairedRuns
import OsSimulator.Library.ChainedTable
import OsSimulator.Library.LinkedCells
import OsSimulator.Library.ReferenceCount
import OsSimulator.Library.CachedMaximum
import OsSimulator.Library.SharedObject
import OsSimulator.Library.PieceStore
import OsSimulator.Library.Ranks
import OsSimulator.Library.WorkerGroup
import OsSimulator.Library.ByteStream
import OsSimulator.Utils.CInt
import OsSimulator.Utils.List
import OsSimulator.Utils.Msg
import OsSimulator.Utils.Channel
import OsSimulator.Utils.Dictionary
import OsSimulator.Utils.LinkedList
import OsSimulator.Utils.PacketDecoding
import OsSimulator.Utils.CutConnection
import OsSimulator.Utils.CString
import OsSimulator.Utils.File
import OsSimulator.Utils.Lines
import OsSimulator.Utils.Config
import OsSimulator.Swap.Dialogue
import OsSimulator.Swap.SwapFile
import OsSimulator.Memory.Structs
import OsSimulator.Memory.AddressTranslation
import OsSimulator.Memory.Holes
import OsSimulator.Memory.Compaction
import OsSimulator.Memory.Swap
import OsSimulator.Memory.Requests
import OsSimulator.Memory.Suspension
import OsSimulator.Memory.Resumption
import OsSimulator.Memory.MemoryOps
import OsSimulator.Memory.Layout
import OsSimulator.Memory.Overlap
import OsSimulator.Memory.Conservation
import OsSimulator.Memory.SegmentNames
import OsSimulator.Memory.Translation
import OsSimulator.Memory.StdIo
import OsSimulator.Memory.Homes
import OsSimulator.Memory.Restoration
import OsSimulator.Memory.RoundTrip
import OsSimulator.Memory.StickRegistry
import OsSimulator.Memory.Replies
import OsSimulator.Memory.Wire
import OsSimulator.Memory.Allocation
import OsSimulator.Memory.Script
import OsSimulator.Memory.ProcessRegistry
import OsSimulator.Memory.InstructionFetch
import OsSimulator.Memory.StdoutPayload
import OsSimulator.Memory.BlockCut
import OsSimulator.Memory.BlockOrder
import OsSimulator.Cpu.Structs
import OsSimulator.Cpu.Memory
import OsSimulator.Cpu.Handlers
import OsSimulator.Cpu.Isolation
import OsSimulator.Cpu.Cycle
import OsSimulator.Cpu.Completion
import OsSimulator.Cpu.LockStep
import OsSimulator.Cpu.Migration
import OsSimulator.Cpu.Connections
import OsSimulator.Cpu.SplitTransfer
import OsSimulator.Cpu.Announcements
import OsSimulator.Cpu.InstructionSet
import OsSimulator.Cpu.Operands
import OsSimulator.Io.Ops
import OsSimulator.Scheduler.Pcb
import OsSimulator.Scheduler.ReadyQueue
import OsSimulator.Scheduler.Queues
import OsSimulator.Scheduler.Mutex
import OsSimulator.Scheduler.CpuThread
import OsSimulator.Scheduler.CpuDialogue
import OsSimulator.Scheduler.Soundness
import OsSimulator.Scheduler.Inheritance
import OsSimulator.Scheduler.Transitions
import OsSimulator.Scheduler.MutexLock
import OsSimulator.Scheduler.MutexUnlock
import OsSimulator.Scheduler.Steps
import OsSimulator.Scheduler.PriorityInheritance
import OsSimulator.Scheduler.Levels
import OsSimulator.Scheduler.ReadyInvariant
import OsSimulator.Scheduler.Termination
import OsSimulator.Scheduler.ExecWait
import OsSimulator.Scheduler.CompactionGate
import OsSimulator.Scheduler.CompactionLocks
import OsSimulator.Scheduler.SuspensionThreads
import OsSimulator.Scheduler.SuspensionShutdown
import OsSimulator.Scheduler.SuspensionSearch
import OsSimulator.Scheduler.IoRequests
import OsSimulator.Scheduler.CpuStages
import OsSimulator.Scheduler.ExecOwner
import OsSimulator.Scheduler.ReadyWait
import OsSimulator.Scheduler.ReadyShutdown
import OsSimulator.Scheduler.CpuListener
import OsSimulator.Scheduler.ProcessCount
import OsSimulator.Scheduler.KernelMemoryLink
import OsSimulator.Scheduler.KernelMemoryDialogue
import OsSimulator.Scheduler.ResumptionRoutine
import OsSimulator.Scheduler.ResumptionSteps
import OsSimulator.Scheduler.ResumptionWake
import OsSimulator.Scheduler.SevenStates
import OsSimulator.Scheduler.SuspendedOrder
import OsSimulator.Scheduler.WaitingLists
import OsSimulator.Scheduler.ArrivalOrder
import OsSimulator.Scheduler.Relocking
import OsSimulator.Scheduler.LevelIndex
import OsSimulator.Scheduler.ResumptionSweep
import OsSimulator.Scheduler.ReadyEffect
import OsSimulator.Scheduler.CompactionOrder
import OsSimulator.Scheduler.ShortTerm
import OsSimulator.Scheduler.ProcessLifetime
import OsSimulator.Scheduler.LowestPriority
import OsSimulator.Cpu.OperationCoding
import OsSimulator.Cpu.ByteLink
import OsSimulator.Cpu.SharedSticks
import OsSimulator.MemoryStick.Server
import OsSimulator.MemoryStick.Listener
