import OsSimulator.Memory.AddressTranslation
import OsSimulator.Memory.Holes

set_option relaxedAutoImplicit false
set_option autoImplicit false

/-!
# Suspension and resumption

`swap.c`: a suspension copies the segments of a process, block after block, to the first free
blocks of the swap file and then removes them from the main memory; a resumption goes through
the block table, rebuilds a segment at its first block and copies every block back.

The swap module answers every request; it is one file of blocks, and its answer to a write carries
no data. `none` is a call that does not return: a null pointer read, a division by zero or an
`int` that overflows.

## Main definitions

* `addBlockToSwap`, `writeBlockToSwap`, `suspendSegment`, `suspendProcess` — the way out.
* `canResume`, `regenerateSegment`, `resumeBlock`, `resumeProcess` — the way back.
-/

namespace OsSimulator.Memory

/-! ## Suspension -/

/-- A free block of the table. -/
def BlockData.isFree (block : BlockData) : Bool := block.pid == UINT32_MAX

/-- `find_free_block`. -/
def findFreeBlock (swapData : SwapData) : Option ℕ :=
  swapData.blockList.findIdx? BlockData.isFree

/-- `add_block_to_swap`: the number of the block that was reserved, and the table with it. -/
def addBlockToSwap (segment : Segment) (counter : ℤ) (swapData : SwapData) :
    Option (ℕ × SwapData) :=
  (findFreeBlock swapData).map fun freeBlockNumber =>
    (freeBlockNumber,
      { swapData with
        blockList := swapData.blockList.modify freeBlockNumber fun freeBlock =>
          { freeBlock with
            pid := segment.pid
            segmentNumber := segment.id
            segmentBlockNumber := counter
            segmentSize := segment.size } })

/-- `write_block_to_swap`: the content is padded with zeros to the size of a block. -/
def writeBlockToSwap (blockNumber : ℕ) (content : List UInt8) (swapData : SwapData) : SwapData :=
  { swapData with
    disk := swapData.disk.set blockNumber
      (content ++ List.replicate (swapData.blockSize - content.length) 0) }

/-- The number of blocks of a segment of `size` bytes. -/
def segmentBlockCount (size : ℤ) (blockSize : ℕ) : ℕ :=
  ((size + blockSize - 1).tdiv blockSize).toNat

/-- The blocks of a segment, rounded up. -/
lemma segmentBlockCount_natCast (n : ℕ) {blockSize : ℕ} (hpos : 0 < blockSize) :
    segmentBlockCount n blockSize = (n + blockSize - 1) / blockSize := by
  have hcast : (n : ℤ) + blockSize - 1 = ((n + blockSize - 1 : ℕ) : ℤ) := by omega
  rw [segmentBlockCount, hcast, ← Int.ofNat_tdiv, Int.toNat_natCast]

/-- A segment without bytes has no block. -/
lemma segmentBlockCount_of_nonpos {size : ℤ} (h : size ≤ 0) (blockSize : ℕ) :
    segmentBlockCount size blockSize = 0 := by
  rw [segmentBlockCount, Int.toNat_eq_zero]
  rcases le_or_gt 0 (size + blockSize - 1) with hle | hlt
  · rw [Int.tdiv_eq_zero_of_lt hle (by omega)]
  · rw [← neg_neg (size + blockSize - 1), Int.neg_tdiv, neg_nonpos]
    exact Int.tdiv_nonneg (by omega) (Int.natCast_nonneg blockSize)

/-- The bytes of a segment's block: a whole block, or what is left of the segment. -/
def blockBytes (size : ℤ) (blockSize : ℕ) (segmentBlockNumber : ℤ) : ℕ :=
  (min (size - segmentBlockNumber * blockSize) blockSize).toNat

/-- The loop of `suspend_segment` from block `i` of the segment on, with `rounds` blocks to go:
whether every block made it. -/
def suspendSegmentLoop (segment : Segment) (sticks : List Stick) :
    ℕ → ℕ → SwapData → Option (Bool × SwapData)
  | 0, _, swapData => some (true, swapData)
  | rounds + 1, i, swapData =>
    let content := readFromSticks (segment.base + i * swapData.blockSize)
      (blockBytes segment.size swapData.blockSize i) sticks
    match addBlockToSwap segment i swapData with
    | none => some (false, swapData)
    | some (blockNumber, reserved) =>
      content.bind fun bytes =>
        suspendSegmentLoop segment sticks rounds (i + 1)
          (writeBlockToSwap blockNumber bytes reserved)

/-- `suspend_segment`: the number of blocks is computed in `int`. -/
def suspendSegment (segment : Segment) (sticks : List Stick) (swapData : SwapData) :
    Option (Bool × SwapData) :=
  if swapData.blockSize = 0 ∨ INT_MAX < segment.size + swapData.blockSize then none
  else
    suspendSegmentLoop segment sticks (segmentBlockCount segment.size swapData.blockSize) 0 swapData

/-- The loop of `suspend_process`, over the segments of the process: it stops at the first segment
that does not find its place. -/
def suspendSegments (sticks : List Stick) : List Segment → SwapData → Option (Bool × SwapData)
  | [], swapData => some (true, swapData)
  | segment :: rest, swapData =>
    (suspendSegment segment sticks swapData).bind fun suspended =>
      if suspended.1 then suspendSegments sticks rest suspended.2
      else some (false, suspended.2)

/-- `remove_process_segments`. -/
def removeProcessSegments (segmentsToRemove : List Segment) (pid : ℕ) (memory : MainMemory) :
    MainMemory :=
  segmentsToRemove.foldl (fun memory segment => removeSegment segment.id pid memory) memory

/-- `suspend_process` of a process Kernel Memory knows. -/
def suspendProcess (pid : ℕ) (k : KernelMemory) : Option (Message × KernelMemory) :=
  match k.swapData with
  | none => some (⟨.suspensionFailed, "Swap module is not connected yet."⟩, k)
  | some swapData =>
    let segmentsToRemove := filterProcessSegments pid k.mainMemory
    (suspendSegments k.connectedSticks segmentsToRemove swapData).map fun suspended =>
      let k' := { k with swapData := some suspended.2 }
      if suspended.1 then
        (if segmentsToRemove.isEmpty then
            ⟨.suspensionFailed, "Could not suspend the process because its pid was not found."⟩
          else ⟨.suspensionOk, ""⟩,
          { k' with mainMemory := removeProcessSegments segmentsToRemove pid k.mainMemory })
      else
        (⟨.suspensionFailed, "Could not suspend the process because swap is full."⟩, k')

/-! ## Resumption -/

/-- Whether a segment of the process starts with the block. -/
def BlockData.isFirst (pid : ℕ) (block : BlockData) : Bool :=
  block.pid == pid && block.segmentBlockNumber == 0

/-- `can_resume`: the sizes of the process's segments together are at most the free space. -/
def canResume (pid : ℕ) (swapData : SwapData) (memory : MainMemory) : Bool :=
  decide (((swapData.blockList.filter (BlockData.isFirst pid)).map BlockData.segmentSize).sum ≤
    computeFreeSpace memory.holes)

/-- `regenerate_segment`: the message with which it fails, if it does, and the memory. -/
def regenerateSegment (id pid : ℕ) (size : ℤ) (memory : MainMemory) : Option Message × MainMemory :=
  if computeFreeSpace memory.holes < size then
    (some ⟨.resumeSuspensionFailed, "There are not memory enough"⟩, memory)
  else
    let chosen := selectHole (u32 size) memory
    if chosen.1.size = -1 then
      (some ⟨.resumeSuspensionFailed, "Could not allocate holes."⟩, chosen.2)
    else (none, updateSegmentList chosen.2 chosen.1 size pid id)

/-- A block that `remove_block_from_swap` has freed. -/
def BlockData.removed (blockToRemove : BlockData) : BlockData :=
  { blockToRemove with
    pid := UINT32_MAX
    segmentNumber := UINT32_MAX
    segmentBlockNumber := -1
    segmentSize := -1 }

/-- `remove_block_from_swap`: whether there was such a block, and the table without it. -/
def removeBlockFromSwap (blockNumber : ℕ) (swapData : SwapData) : Bool × SwapData :=
  (decide (blockNumber < swapData.blockList.length),
    { swapData with
      blockList := swapData.blockList.modify blockNumber BlockData.removed })

/-- `compute_address_with_offset`: the segment number of the block goes to `find_segment`, and
without such a segment a null pointer is read. -/
def computeAddressWithOffset (blockSize : ℕ) (memory : MainMemory) (pid : ℕ) (block : BlockData) :
    Option ℤ :=
  (findSegment memory pid block.segmentNumber).map fun segment =>
    segment.base + blockSize * block.segmentBlockNumber

/-- What `resume_process` works on: the main memory, the sticks and the connected swap. -/
@[ext]
structure Resumption where
  mainMemory : MainMemory
  connectedSticks : List Stick
  swapData : SwapData
  deriving DecidableEq, Repr

/-- `resume_block`, with the messages it sends: whether the block was restored, and the state. The
swap module has no block to send only when the number is beyond its file. A write that finds no
stick is reported, and its result is not looked at. -/
def resumeBlock (block : BlockData) (pid : ℕ) (r : Resumption) :
    Option (List Message × Bool × Resumption) :=
  let regenerated :=
    if block.segmentBlockNumber = 0 then
      regenerateSegment block.segmentNumber pid block.segmentSize r.mainMemory
    else (none, r.mainMemory)
  match regenerated.1, r.swapData.disk[block.blockNumber]? with
  | some failure, _ => some ([failure], false, { r with mainMemory := regenerated.2 })
  | none, none =>
    some ([⟨.resumeSuspensionFailed, "Error reading swap block"⟩], false,
      { r with mainMemory := regenerated.2 })
  | none, some content =>
    (computeAddressWithOffset r.swapData.blockSize regenerated.2 pid block).map fun writeAddress =>
      let realBytes := blockBytes block.segmentSize r.swapData.blockSize block.segmentBlockNumber
      let written := writeToSticks writeAddress (content.take realBytes) r.connectedSticks
      let removed := removeBlockFromSwap block.blockNumber r.swapData
      ((if written.1 then [] else [⟨.memoryCorrupted, "Stick not available"⟩]) ++
          (if removed.1 then []
            else [⟨.resumeSuspensionFailed, "Could not remove the swap block."⟩]),
        removed.1, ⟨regenerated.2, written.2, removed.2⟩)

/-- The loop of `resume_process` over the positions of the block table that are left, with
`process_found`, and the message after it. -/
def resumeBlocks (pid : ℕ) :
    List ℕ → Bool → Resumption → Option (List Message × Resumption)
  | [], processFound, r =>
    some ([if processFound then ⟨.resumeSuspensionOk, ""⟩
      else ⟨.resumeSuspensionFailed,
        "The process was not resumed because its blocks found on disk."⟩], r)
  | i :: rest, processFound, r =>
    r.swapData.blockList[i]?.bind fun block =>
      if block.pid = pid then
        (resumeBlock block pid r).bind fun resumed =>
          if resumed.2.1 then
            (resumeBlocks pid rest true resumed.2.2).map fun last =>
              (resumed.1 ++ last.1, last.2)
          else some (resumed.1, resumed.2.2)
      else resumeBlocks pid rest processFound r

/-- `resume_process`, with the messages it sends. -/
def resumeProcess (pid : ℕ) (k : KernelMemory) : Option (List Message × KernelMemory) :=
  match k.swapData with
  | none =>
    some ([⟨.resumeSuspensionFailed, "Swap module is not connected yet."⟩], k)
  | some swapData =>
    if canResume pid swapData k.mainMemory then
      (resumeBlocks pid (List.range swapData.blockList.length) false
          ⟨k.mainMemory, k.connectedSticks, swapData⟩).map fun resumed =>
        (resumed.1,
          { k with
            mainMemory := resumed.2.mainMemory
            connectedSticks := resumed.2.connectedSticks
            swapData := some resumed.2.swapData })
    else some ([⟨.resumeSuspensionFailed, "The process does not fit in memory"⟩], k)

end OsSimulator.Memory
