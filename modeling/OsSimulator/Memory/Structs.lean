import OsSimulator.Utils.CInt

set_option relaxedAutoImplicit false
set_option autoImplicit false

/-!
# The state of Kernel Memory

The structures of `kernel_memory/structs.h` and `utils/registers_cpu.h` as far as the memory
manager reads them, and the messages it sends the scheduler. Locks, sockets and the logger carry
no data and are left out: every operation on the main memory runs under `main_memory_mutex`, and
the scheduler's requests are served one after another by one thread.

## Main definitions

* `Hole`, `Segment`, `MainMemory`, `Stick`, `BlockData`, `SwapData` — the source's structures.
* `KernelMemory` — the state all the requests of the scheduler work on.
* `Message` — an operation code with its text.
-/

namespace OsSimulator.Memory

/-- `t_allocation_strategy`, with the values the field `int allocation_strategy` can hold
besides. -/
inductive AllocationStrategy
  | best
  | worst
  | other (code : ℤ)
  deriving DecidableEq, Repr

/-- `t_hole`. -/
structure Hole where
  base : ℤ
  size : ℤ
  deriving DecidableEq, Repr

/-- `t_segment`. -/
structure Segment where
  id : ℕ
  pid : ℕ
  base : ℤ
  size : ℤ
  deriving DecidableEq, Repr

/-- `t_main_memory`. -/
structure MainMemory where
  totalSize : ℤ
  maxSegmentSize : ℤ
  segments : List Segment
  holes : List Hole
  allocationStrategy : AllocationStrategy
  deriving DecidableEq, Repr

/-- A connected memory stick: `t_stick_data` with the bytes the stick holds, as many as the
`stick_size` it announced. -/
structure Stick where
  memory : List UInt8
  deriving DecidableEq, Repr

/-- `stick_size`. -/
def Stick.stickSize (s : Stick) : ℕ := s.memory.length

/-- `t_block_data`. A free block has `pid` and `segment_number` `-1` (`UINT32_MAX`). -/
structure BlockData where
  blockNumber : ℕ
  pid : ℕ
  segmentNumber : ℕ
  segmentBlockNumber : ℤ
  segmentSize : ℤ
  deriving DecidableEq, Repr

/-- `t_swap_data` with the content of the swap file, one entry of `block_size` bytes a block.
`init_block_list` makes `swap_size / block_size` blocks and nothing changes their number, so
`swap_size` is the length of the list. -/
structure SwapData where
  blockList : List BlockData
  blockSize : ℕ
  disk : List (List UInt8)
  deriving DecidableEq, Repr

/-- The state shared by the threads of Kernel Memory (`t_kernel_memory_data`): the processes
are kept by their pid. -/
structure KernelMemory where
  mainMemory : MainMemory
  connectedSticks : List Stick
  swapData : Option SwapData
  processes : List ℕ
  deriving DecidableEq, Repr

/-- The operation codes Kernel Memory answers the scheduler with. -/
inductive OpCode
  | segmentSizeExceeded
  | notEnoughMemory
  | compactionNeeded
  | compactionDone
  | memoryAllocated
  | memoryFreed
  | memoryCorrupted
  | suspensionOk
  | suspensionFailed
  | resumeSuspensionOk
  | resumeSuspensionFailed
  deriving DecidableEq, Repr

/-- A message of the scheduler's connection (`send_string`). -/
structure Message where
  opCode : OpCode
  text : String
  deriving DecidableEq, Repr

end OsSimulator.Memory
