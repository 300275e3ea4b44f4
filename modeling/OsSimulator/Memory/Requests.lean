import OsSimulator.Memory.Compaction
import OsSimulator.Memory.Swap

set_option relaxedAutoImplicit false
set_option autoImplicit false

/-!
# The requests Kernel Memory serves

The handlers of `scheduler_listener.c` that change the memory tables, and what else changes them:
a stick or the swap module that connects (`server.c`), and the writes of the CPUs, which go to the
sticks directly. The handlers run one after another in one thread, so a run of Kernel Memory is a
sequence of these events.

## Main definitions

* `initKernelMemoryData`, `initSwapData` — Kernel Memory and a swap when they start.
* `Event`, `kernelMemoryStep` — an event and its effect.
-/

namespace OsSimulator.Memory

/-- `init_kernel_memory_data`, as far as the memory is concerned. -/
def initKernelMemoryData (segmentMaxSize : ℤ) (allocationStrategy : AllocationStrategy) :
    KernelMemory where
  mainMemory := ⟨0, segmentMaxSize, [], [], allocationStrategy⟩
  connectedSticks := []
  swapData := none
  processes := []

/-- `init_swap_data`: `init_block_list` makes free blocks, and the swap file is full of zeros. A
block size of zero divides by zero. -/
def initSwapData (swapSize blockSize : ℕ) : Option SwapData :=
  if blockSize = 0 then none
  else some
    { blockList := (List.range (swapSize / blockSize)).map fun i => ⟨i, UINT32_MAX, UINT32_MAX, -1, -1⟩
      blockSize := blockSize
      disk := List.replicate (swapSize / blockSize) (List.replicate blockSize 0) }

/-- `handle_new_process`. A script that cannot be opened leaves a null pointer in the list of
processes instead, at which a later `find_process` fails unless it finds its process before: what
happens after that is among what happens without the pointer. -/
def handleNewProcess (pid : ℕ) (scriptOpens : Bool) (k : KernelMemory) : KernelMemory :=
  if scriptOpens then { k with processes := k.processes ++ [pid] } else k

/-- `handle_delete_segment`, with the message it sends. -/
def handleDeleteSegment (id pid : ℕ) (k : KernelMemory) : Message × KernelMemory :=
  (⟨.memoryFreed, "Memory freed"⟩, { k with mainMemory := removeSegment id pid k.mainMemory })

/-- `handle_end_process`: only the segments in the main memory of a process in the list are
removed. -/
def handleEndProcess (pid : ℕ) (k : KernelMemory) : KernelMemory :=
  if pid ∈ k.processes then
    { k with
      processes := k.processes.erase pid
      mainMemory := removeProcessSegments (filterProcessSegments pid k.mainMemory) pid k.mainMemory }
  else k

/-- `handle_suspend_process`. A process that is not in the list gets no answer. -/
def handleSuspendProcess (pid : ℕ) (k : KernelMemory) : Option (List Message × KernelMemory) :=
  if pid ∈ k.processes then
    (suspendProcess pid k).map fun suspended => ([suspended.1], suspended.2)
  else some ([], k)

/-- `handle_resume_suspended_process`. -/
def handleResumeSuspendedProcess (pid : ℕ) (k : KernelMemory) :
    Option (List Message × KernelMemory) :=
  resumeProcess pid k

/-- A stick connects: `add_stick_connection` and `add_total_memory`. -/
def connectStick (stick : Stick) (k : KernelMemory) : Option KernelMemory :=
  (addTotalMemory k.mainMemory stick.stickSize).map fun mainMemory =>
    { k with mainMemory := mainMemory, connectedSticks := k.connectedSticks ++ [stick] }

/-- What happens to Kernel Memory: a request of the scheduler, a stick or a swap that connects, or
a write to the sticks. -/
inductive Event
  | newProcess (pid : ℕ) (scriptOpens : Bool)
  | createSegment (id pid size : ℕ)
  | deleteSegment (id pid : ℕ)
  | suspendProcess (pid : ℕ)
  | resumeProcess (pid : ℕ)
  | endProcess (pid : ℕ)
  | stickConnected (stick : Stick)
  | swapConnected (swapSize blockSize : ℕ)
  | memoryWritten (physicalAddress : ℤ) (bytes : List UInt8)
  deriving DecidableEq, Repr

/-- The state after an event, if it returns. -/
def kernelMemoryStep (k : KernelMemory) : Event → Option KernelMemory
  | .newProcess pid scriptOpens => some (handleNewProcess pid scriptOpens k)
  | .createSegment id pid size => (handleCreateSegment id pid size k).map Prod.snd
  | .deleteSegment id pid => some (handleDeleteSegment id pid k).2
  | .suspendProcess pid => (handleSuspendProcess pid k).map Prod.snd
  | .resumeProcess pid => (handleResumeSuspendedProcess pid k).map Prod.snd
  | .endProcess pid => some (handleEndProcess pid k)
  | .stickConnected stick => connectStick stick k
  | .swapConnected swapSize blockSize =>
    (initSwapData swapSize blockSize).map fun swapData => { k with swapData := some swapData }
  | .memoryWritten physicalAddress bytes =>
    some { k with
      connectedSticks := (writeToSticks physicalAddress bytes k.connectedSticks).2 }

end OsSimulator.Memory
