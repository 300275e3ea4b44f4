import OsSimulator.Library.Slots
import OsSimulator.Memory.Requests

set_option relaxedAutoImplicit false
set_option autoImplicit false

/-!
# What a suspension leaves in swap

A suspension stores the blocks of the process's segments one after another, each in the first free
block of the table. This file says so once (`suspendSegments_eq`), follows the free blocks and the
blocks of a process through it, and decides when a failed suspension has changed nothing: it has
no rollback, so only a failure at the very first block does.

## Main definitions

* `BlockRecord`, `savedBlocks` — a block in swap without its number, and those of a process.
* `segmentRecords`, `storeRecords` — the blocks of a segment, and records stored first-fit.
* `SwapData.WellFormed` — the block table as `init_block_list` makes it and the requests keep it.

## Main results

* `suspendSegments_eq` — a suspension that returns stores the records of its segments.
* `countP_isFree_storeRecords`, `savedBlocks_storeRecords` — what becomes of the free blocks and
  of the blocks of a process.
* `suspension_failed_unchanged_iff` — when a failed suspension changed nothing.
-/

namespace OsSimulator.Memory

/-! ## Records -/

/-- A block in swap: its entry in the table without the block number, and its content. -/
structure BlockRecord where
  pid : ℕ
  segmentNumber : ℕ
  segmentBlockNumber : ℤ
  segmentSize : ℤ
  content : List UInt8
  deriving DecidableEq, Repr

/-- The entry of a record in the block with the number of `freeBlock`. -/
def BlockRecord.entry (record : BlockRecord) (freeBlock : BlockData) : BlockData :=
  ⟨freeBlock.blockNumber, record.pid, record.segmentNumber, record.segmentBlockNumber,
    record.segmentSize⟩

/-- The record of an entry with its content. -/
def BlockRecord.of (slot : BlockData × List UInt8) : BlockRecord :=
  ⟨slot.1.pid, slot.1.segmentNumber, slot.1.segmentBlockNumber, slot.1.segmentSize, slot.2⟩

/-- The block table with the contents of the blocks. -/
def SwapData.slots (swapData : SwapData) : List (BlockData × List UInt8) :=
  swapData.blockList.zip swapData.disk

/-- The records in the blocks with a pid and a segment number that `p` selects. -/
def savedBlocks (p : ℕ → ℕ → Bool) (swapData : SwapData) : List BlockRecord :=
  (swapData.slots.filter fun slot => p slot.1.pid slot.1.segmentNumber).map BlockRecord.of

/-- The record of block `i` of a segment. -/
def blockRecord (sticks : List Stick) (blockSize : ℕ) (segment : Segment) (i : ℕ) : BlockRecord :=
  let bytes := (readFromSticks (segment.base + i * blockSize)
    (blockBytes segment.size blockSize i) sticks).getD []
  ⟨segment.pid, segment.id, i, segment.size, bytes ++ List.replicate (blockSize - bytes.length) 0⟩

/-- The records of a segment's blocks. -/
def segmentRecords (sticks : List Stick) (blockSize : ℕ) (segment : Segment) : List BlockRecord :=
  (List.range (segmentBlockCount segment.size blockSize)).map (blockRecord sticks blockSize segment)

/-- A record goes to the first free block. -/
def storeRecord (record : BlockRecord) (swapData : SwapData) : Option SwapData :=
  (findFreeBlock swapData).map fun n =>
    { swapData with
      blockList := swapData.blockList.modify n record.entry
      disk := swapData.disk.set n record.content }

/-- Records stored one after another, as long as there are free blocks. -/
def storeRecords : List BlockRecord → SwapData → Bool × SwapData
  | [], swapData => (true, swapData)
  | record :: rest, swapData =>
    match storeRecord record swapData with
    | none => (false, swapData)
    | some swapData' => storeRecords rest swapData'

/-- The block table as `init_block_list` makes it and the requests keep it: the blocks are numbered
by their position, and each has a content. -/
structure SwapData.WellFormed (swapData : SwapData) : Prop where
  blockSize_pos : 0 < swapData.blockSize
  numbered : ∀ (i : ℕ) (block : BlockData), swapData.blockList[i]? = some block →
    block.blockNumber = i
  length_disk : swapData.disk.length = swapData.blockList.length

/-- A free block is marked as `init_block_list` and `remove_block_from_swap` mark it. -/
def SwapData.FreeUnused (swapData : SwapData) : Prop :=
  ∀ block ∈ swapData.blockList, block.isFree = true → block.segmentBlockNumber = -1

/-! ## A suspension stores records -/

/-- Storing keeps the size of a block. -/
@[simp] lemma storeRecords_blockSize (records : List BlockRecord) (swapData : SwapData) :
    (storeRecords records swapData).2.blockSize = swapData.blockSize := by
  induction records generalizing swapData with
  | nil => rfl
  | cons record rest ih =>
    rw [storeRecords]
    split
    · rfl
    · rename_i swapData' h
      obtain ⟨n, -, rfl⟩ := Option.map_eq_some_iff.1 h
      exact ih _

/-- Two lists of records. -/
lemma storeRecords_append (l m : List BlockRecord) (swapData : SwapData) :
    storeRecords (l ++ m) swapData =
      if (storeRecords l swapData).1 then storeRecords m (storeRecords l swapData).2
      else storeRecords l swapData := by
  induction l generalizing swapData with
  | nil => rfl
  | cons record rest ih =>
    rw [List.cons_append, storeRecords, storeRecords]
    split
    · rfl
    · exact ih _

/-- The loop of `suspend_segment` stores the records of its blocks. Where a block finds no place,
its content was read for nothing. -/
lemma suspendSegmentLoop_eq {segment : Segment} {sticks : List Stick} {rounds i : ℕ}
    {swapData : SwapData} {result : Bool × SwapData}
    (h : suspendSegmentLoop segment sticks rounds i swapData = some result) :
    result = storeRecords
      ((List.range' i rounds).map (blockRecord sticks swapData.blockSize segment)) swapData := by
  induction rounds generalizing i swapData with
  | zero =>
    obtain rfl := Option.some.inj h
    rfl
  | succ rounds ih =>
    rw [suspendSegmentLoop] at h
    rw [List.range'_succ, List.map_cons, storeRecords]
    cases hfree : findFreeBlock swapData with
    | none =>
      simp only [addBlockToSwap, storeRecord, hfree, Option.map_none] at h ⊢
      exact (Option.some.inj h).symm
    | some n =>
      simp only [addBlockToSwap, storeRecord, hfree, Option.map_some] at h ⊢
      obtain ⟨bytes, hread, hrest⟩ := Option.bind_eq_some_iff.1 h
      rw [ih hrest, blockRecord]
      simp only [hread, Option.getD_some]
      rfl

/-- A suspension that returns stores the records of its segments.

**Proof sketch.** Induction on the segments; the records of one segment are those of the rounds of
its loop, and a segment that does not find its place ends both. -/
theorem suspendSegments_eq {sticks : List Stick} {segments : List Segment} {swapData : SwapData}
    {result : Bool × SwapData} (h : suspendSegments sticks segments swapData = some result) :
    result = storeRecords (segments.flatMap (segmentRecords sticks swapData.blockSize))
      swapData := by
  induction segments generalizing swapData with
  | nil =>
    obtain rfl := Option.some.inj h
    rfl
  | cons segment rest ih =>
    obtain ⟨suspended, hseg, hrest⟩ := Option.bind_eq_some_iff.1 h
    rw [suspendSegment] at hseg
    split at hseg
    · exact absurd hseg (by simp)
    · have hstored : suspended =
          storeRecords (segmentRecords sticks swapData.blockSize segment) swapData := by
        rw [suspendSegmentLoop_eq hseg, segmentRecords, List.range_eq_range']
      rw [List.flatMap_cons, storeRecords_append, ← hstored]
      split at hrest
      · rename_i hok
        rw [if_pos hok, ih hrest, hstored, storeRecords_blockSize]
      · rename_i hok
        rw [if_neg hok]
        obtain rfl := Option.some.inj hrest
        exact Prod.ext (by simpa using hok) rfl

/-! ## The table after a record is stored -/

/-- A free slot of the table. -/
def isFreeSlot (slot : BlockData × List UInt8) : Bool := slot.1.isFree

/-- The records of the slots. -/
lemma map_fst_slots {swapData : SwapData}
    (hlen : swapData.disk.length = swapData.blockList.length) :
    swapData.slots.map Prod.fst = swapData.blockList :=
  List.map_fst_zip hlen.ge

/-- A table and its contents changed at the same place. -/
lemma zip_modify_set (blocks : List BlockData) (disk : List (List UInt8)) (n : ℕ)
    (f : BlockData → BlockData) (content : List UInt8) :
    (blocks.modify n f).zip (disk.set n content) =
      (blocks.zip disk).modify n fun slot => (f slot.1, content) := by
  induction blocks generalizing disk n with
  | nil => cases n <;> rfl
  | cons b blocks ih =>
    cases disk with
    | nil => cases n <;> simp
    | cons d disk =>
      cases n with
      | zero => rfl
      | succ n => simp [ih]

/-- The table around the block that a record goes to. -/
lemma exists_of_storeRecord {record : BlockRecord} {swapData swapData' : SwapData}
    (h : storeRecord record swapData = some swapData')
    (hlen : swapData.disk.length = swapData.blockList.length) :
    ∃ pre slot post, swapData.slots = pre ++ slot :: post ∧
      (∀ c ∈ pre, isFreeSlot c = false) ∧ isFreeSlot slot = true ∧
      swapData'.slots = pre ++ (record.entry slot.1, record.content) :: post ∧
      swapData'.disk.length = swapData'.blockList.length := by
  obtain ⟨n, hn, rfl⟩ := Option.map_eq_some_iff.1 h
  have hfirst : firstFree isFreeSlot swapData.slots = some n := by
    rw [findFreeBlock, ← map_fst_slots hlen, List.findIdx?_map] at hn
    exact hn
  obtain ⟨pre, slot, post, hslots, hpre, hbefore, hslot⟩ := exists_of_firstFree hfirst
  refine ⟨pre, slot, post, hslots, hbefore, hslot, ?_, by simp [hlen]⟩
  rw [SwapData.slots, zip_modify_set, ← SwapData.slots, hslots, ← hpre, modify_append_length]

/-- A record that finds no place. -/
lemma storeRecord_eq_none {record : BlockRecord} {swapData : SwapData} :
    storeRecord record swapData = none ↔ swapData.blockList.countP BlockData.isFree = 0 := by
  rw [storeRecord, Option.map_eq_none_iff, ← firstFree_eq_none_iff_countP]
  rfl

/-- The table when a record with a real pid is stored: one free block less. -/
lemma countP_isFree_storeRecord {record : BlockRecord} {swapData swapData' : SwapData}
    (h : storeRecord record swapData = some swapData') (hpid : record.pid ≠ UINT32_MAX) :
    swapData'.blockList.countP BlockData.isFree + 1 =
      swapData.blockList.countP BlockData.isFree := by
  obtain ⟨n, hn, rfl⟩ := Option.map_eq_some_iff.1 h
  obtain ⟨pre, b, post, hlist, hpre, -, hb⟩ := exists_of_firstFree hn
  simp only [hlist, ← hpre, modify_append_length]
  exact countP_fill hb (by simpa [BlockRecord.entry, BlockData.isFree] using hpid)

/-- A record with the pid of a free block leaves the block free. -/
lemma countP_isFree_storeRecord_of_eq {record : BlockRecord} {swapData swapData' : SwapData}
    (h : storeRecord record swapData = some swapData') (hpid : record.pid = UINT32_MAX) :
    swapData'.blockList.countP BlockData.isFree = swapData.blockList.countP BlockData.isFree := by
  obtain ⟨n, hn, rfl⟩ := Option.map_eq_some_iff.1 h
  obtain ⟨pre, b, post, hlist, hpre, -, hb⟩ := exists_of_firstFree hn
  have hentry : (record.entry b).isFree = true := by
    simpa [BlockRecord.entry, BlockData.isFree] using hpid
  simp only [hlist, ← hpre, modify_append_length, List.countP_append, List.countP_cons, hb,
    hentry]

/-- **The free blocks.** Records with a real pid take one free block each; when they do not all
find one, they have taken them all.

**Proof sketch.** Induction on the records, by `countP_isFree_storeRecord`. -/
lemma countP_isFree_storeRecords {records : List BlockRecord} {swapData : SwapData}
    (hpid : ∀ record ∈ records, record.pid ≠ UINT32_MAX) :
    if (storeRecords records swapData).1 then
      (storeRecords records swapData).2.blockList.countP BlockData.isFree + records.length =
        swapData.blockList.countP BlockData.isFree
    else
      (storeRecords records swapData).2.blockList.countP BlockData.isFree = 0 ∧
        swapData.blockList.countP BlockData.isFree < records.length := by
  induction records generalizing swapData with
  | nil => simp [storeRecords]
  | cons record rest ih =>
    have hhead : record.pid ≠ UINT32_MAX := hpid record List.mem_cons_self
    have htail : ∀ r ∈ rest, r.pid ≠ UINT32_MAX := fun r hr =>
      hpid r (List.mem_cons_of_mem record hr)
    rw [storeRecords]
    cases hstore : storeRecord record swapData with
    | none =>
      have hfull := storeRecord_eq_none.1 hstore
      simp only [Bool.false_eq_true, if_false, hfull, List.length_cons, true_and]
      exact Nat.succ_pos _
    | some swapData' =>
      have hcount := countP_isFree_storeRecord hstore hhead
      have hrest := @ih swapData' htail
      simp only [List.length_cons]
      split at hrest
      · rename_i hok
        rw [if_pos hok]
        omega
      · rename_i hfail
        rw [if_neg hfail]
        omega

/-- Nothing is stored in a full table. -/
lemma storeRecords_of_full {records : List BlockRecord} {swapData : SwapData}
    (h : swapData.blockList.countP BlockData.isFree = 0) :
    (storeRecords records swapData).2 = swapData := by
  cases records with
  | nil => rfl
  | cons record rest =>
    rw [storeRecords, storeRecord_eq_none.2 h]

/-- Records with the pid of a free block find a place whenever there is a free block. -/
lemma storeRecords_of_pid_eq {records : List BlockRecord} {swapData : SwapData}
    (hpid : ∀ record ∈ records, record.pid = UINT32_MAX)
    (hfail : (storeRecords records swapData).1 = false) :
    swapData.blockList.countP BlockData.isFree = 0 := by
  induction records generalizing swapData with
  | nil => exact absurd hfail (by simp [storeRecords])
  | cons record rest ih =>
    rw [storeRecords] at hfail
    cases hstore : storeRecord record swapData with
    | none => exact storeRecord_eq_none.1 hstore
    | some swapData' =>
      rw [hstore] at hfail
      rw [← countP_isFree_storeRecord_of_eq hstore (hpid record List.mem_cons_self)]
      exact ih (fun r hr => hpid r (List.mem_cons_of_mem record hr)) hfail

/-! ## The blocks of a process -/

/-- The slots that `savedBlocks` selects. -/
def isMarked (p : ℕ → ℕ → Bool) (slot : BlockData × List UInt8) : Bool :=
  p slot.1.pid slot.1.segmentNumber

/-- A free slot is marked for no process. -/
lemma isMarked_of_isFreeSlot {p : ℕ → ℕ → Bool} (hp : ∀ n, p UINT32_MAX n = false)
    {slot : BlockData × List UInt8} (h : isFreeSlot slot = true) : isMarked p slot = false := by
  have hpid : slot.1.pid = UINT32_MAX := by simpa [isFreeSlot, BlockData.isFree] using h
  rw [isMarked, hpid, hp]

/-- A record that is stored is the last one of the blocks that it is selected with. -/
lemma savedBlocks_storeRecord {p : ℕ → ℕ → Bool} {record : BlockRecord}
    {swapData swapData' : SwapData} (hp : ∀ n, p UINT32_MAX n = false)
    (hlen : swapData.disk.length = swapData.blockList.length)
    (hpid : record.pid ≠ UINT32_MAX) (hbehind : NoneBehind isFreeSlot (isMarked p) swapData.slots)
    (h : storeRecord record swapData = some swapData') :
    savedBlocks p swapData' = savedBlocks p swapData ++
        [record].filter (fun r => p r.pid r.segmentNumber) ∧
      swapData'.disk.length = swapData'.blockList.length ∧
      NoneBehind isFreeSlot (isMarked p) swapData'.slots := by
  obtain ⟨pre, slot, post, hslots, hpre, hslot, hslots', hlen'⟩ := exists_of_storeRecord h hlen
  have hmarked := isMarked_of_isFreeSlot hp hslot
  have hentry : isFreeSlot (record.entry slot.1, record.content) = false := by
    simpa [isFreeSlot, BlockData.isFree, BlockRecord.entry] using hpid
  rw [hslots] at hbehind
  refine ⟨?_, hlen', hslots' ▸ hbehind.fill hpre hentry⟩
  show (swapData'.slots.filter (isMarked p)).map BlockRecord.of =
    (swapData.slots.filter (isMarked p)).map BlockRecord.of ++ _
  rw [hslots, hslots']
  cases hrecord : p record.pid record.segmentNumber with
  | true =>
    rw [filter_fill hslot hmarked (show isMarked p (record.entry slot.1, record.content) = true from
      hrecord) hbehind, List.map_append, List.filter_cons_of_pos (by simpa using hrecord)]
    rfl
  | false =>
    rw [filter_fill_of_not hmarked (show isMarked p (record.entry slot.1, record.content) = false
      from hrecord), List.filter_cons_of_neg (by simp [hrecord]), List.filter_nil, List.append_nil]

/-- **The blocks of a process.** Records that all find a place are the last ones of the blocks that
they are selected with, in the order they were stored.

**Proof sketch.** Induction on the records: no selected block is behind a free one, so each record
that is selected is stored behind them. -/
lemma savedBlocks_storeRecords {p : ℕ → ℕ → Bool} {records : List BlockRecord}
    {swapData : SwapData} (hp : ∀ n, p UINT32_MAX n = false)
    (hlen : swapData.disk.length = swapData.blockList.length)
    (hpid : ∀ record ∈ records, record.pid ≠ UINT32_MAX)
    (hbehind : NoneBehind isFreeSlot (isMarked p) swapData.slots)
    (hok : (storeRecords records swapData).1 = true) :
    savedBlocks p (storeRecords records swapData).2 =
      savedBlocks p swapData ++ records.filter (fun r => p r.pid r.segmentNumber) := by
  induction records generalizing swapData with
  | nil => simp [storeRecords]
  | cons record rest ih =>
    rw [storeRecords] at hok ⊢
    cases hstore : storeRecord record swapData with
    | none =>
      rw [hstore] at hok
      exact absurd hok Bool.false_ne_true
    | some swapData' =>
      rw [hstore] at hok
      obtain ⟨hsaved, hlen', hbehind'⟩ :=
        savedBlocks_storeRecord hp hlen (hpid record List.mem_cons_self) hbehind hstore
      have hrest := ih hlen' (fun r hr => hpid r (List.mem_cons_of_mem record hr)) hbehind' hok
      show savedBlocks p (storeRecords rest swapData').2 = _
      rw [hrest, hsaved, List.append_assoc, ← List.filter_append]
      rfl

/-- The other blocks stay, whether all the records find a place or not. -/
lemma savedBlocks_storeRecords_of_not {p : ℕ → ℕ → Bool} {records : List BlockRecord}
    {swapData : SwapData} (hp : ∀ n, p UINT32_MAX n = false)
    (hlen : swapData.disk.length = swapData.blockList.length)
    (hnot : ∀ record ∈ records, p record.pid record.segmentNumber = false) :
    savedBlocks p (storeRecords records swapData).2 = savedBlocks p swapData := by
  induction records generalizing swapData with
  | nil => rfl
  | cons record rest ih =>
    rw [storeRecords]
    cases hstore : storeRecord record swapData with
    | none => rfl
    | some swapData' =>
      obtain ⟨pre, slot, post, hslots, -, hslot, hslots', hlen'⟩ := exists_of_storeRecord hstore hlen
      have hmarked := isMarked_of_isFreeSlot hp hslot
      have hentry : isMarked p (record.entry slot.1, record.content) = false :=
        hnot record List.mem_cons_self
      show savedBlocks p (storeRecords rest swapData').2 = _
      rw [ih hlen' fun r hr => hnot r (List.mem_cons_of_mem record hr)]
      show (swapData'.slots.filter (isMarked p)).map BlockRecord.of =
        (swapData.slots.filter (isMarked p)).map BlockRecord.of
      rw [hslots, hslots', filter_fill_of_not hmarked hentry]

/-! ## A failed suspension -/

/-- The segments, the holes and the block table are as before. -/
def TablesUnchanged (before after : KernelMemory) : Prop :=
  after.mainMemory.segments = before.mainMemory.segments ∧
    after.mainMemory.holes = before.mainMemory.holes ∧
    after.swapData.map SwapData.blockList = before.swapData.map SwapData.blockList

instance (before after : KernelMemory) : Decidable (TablesUnchanged before after) :=
  inferInstanceAs (Decidable (_ ∧ _ ∧ _))

/-- The blocks all the segments of a process take. -/
def blocksNeeded (pid blockSize : ℕ) (memory : MainMemory) : ℕ :=
  ((filterProcessSegments pid memory).map fun s => segmentBlockCount s.size blockSize).sum

/-- The swap, if there is one, has a free block for every block of the process, or no free block at
all. A process with the pid of a free block needs no more than one. -/
def AllOrNoBlocksFit (pid : ℕ) (k : KernelMemory) : Prop :=
  ∀ swapData ∈ k.swapData,
    blocksNeeded pid swapData.blockSize k.mainMemory ≤
        swapData.blockList.countP BlockData.isFree ∨
      swapData.blockList.countP BlockData.isFree = 0 ∨ pid = UINT32_MAX

/-- A process has as many records as it needs blocks. -/
lemma length_flatMap_segmentRecords (sticks : List Stick) (pid blockSize : ℕ)
    (memory : MainMemory) :
    ((filterProcessSegments pid memory).flatMap (segmentRecords sticks blockSize)).length =
      blocksNeeded pid blockSize memory := by
  simp [List.length_flatMap, segmentRecords, blocksNeeded]

/-- The records of a process carry its pid. -/
lemma pid_of_mem_records {sticks : List Stick} {pid blockSize : ℕ} {memory : MainMemory}
    {record : BlockRecord}
    (h : record ∈ (filterProcessSegments pid memory).flatMap (segmentRecords sticks blockSize)) :
    record.pid = pid := by
  obtain ⟨segment, hsegment, hrecord⟩ := List.mem_flatMap.1 h
  obtain ⟨i, -, rfl⟩ := List.mem_map.1 hrecord
  have := (List.mem_filter.1 hsegment).2
  simpa [blockRecord] using this

/-- **A failed suspension.** The segments, the holes and the block table are as before if and only
if all the blocks of the process fit in the free ones or there is no free block at all.

**Proof sketch.** The only failure with a block to store is the one of a full table. The records
stored until then have taken every free block (`countP_isFree_storeRecords`), so the table is the
old one only if there was none. -/
theorem suspension_failed_unchanged_iff {pid : ℕ} {k k' : KernelMemory} {answer : Message}
    (h : suspendProcess pid k = some (answer, k')) (hfailed : answer.opCode = .suspensionFailed) :
    TablesUnchanged k k' ↔ AllOrNoBlocksFit pid k := by
  unfold suspendProcess at h
  cases hswap : k.swapData with
  | none =>
    simp only [hswap, Option.some.injEq, Prod.mk.injEq] at h
    obtain ⟨-, rfl⟩ := h
    exact iff_of_true ⟨rfl, rfl, rfl⟩ fun _ hs => by simp [hswap] at hs
  | some swapData =>
    simp only [hswap] at h
    obtain ⟨suspended, hrun, heq⟩ := Option.map_eq_some_iff.1 h
    have hstored := suspendSegments_eq hrun
    set records := (filterProcessSegments pid k.mainMemory).flatMap
      (segmentRecords k.connectedSticks swapData.blockSize) with hrecords
    have hlength : records.length = blocksNeeded pid swapData.blockSize k.mainMemory :=
      length_flatMap_segmentRecords _ _ _ _
    have hpids : ∀ record ∈ records, record.pid = pid := fun record hr => pid_of_mem_records hr
    simp only [AllOrNoBlocksFit, hswap, Option.mem_def, Option.some.injEq, forall_eq']
    cases hok : suspended.1 with
    | true =>
      simp only [hok, if_true, Prod.mk.injEq] at heq
      obtain ⟨hanswer, rfl⟩ := heq
      -- only a process without segments fails here
      have hnone : filterProcessSegments pid k.mainMemory = [] := by
        by_contra hne
        rw [if_neg (by simpa using hne)] at hanswer
        rw [← hanswer] at hfailed
        exact absurd hfailed (by decide)
      have hnothing : suspended.2 = swapData := by
        rw [hstored, hrecords, hnone]
        rfl
      refine iff_of_true ⟨?_, ?_, ?_⟩ (Or.inl ?_)
      · rw [hnone]
        rfl
      · rw [hnone]
        rfl
      · simp only [hnothing, hswap]
      · rw [← hlength, hrecords, hnone]
        exact Nat.zero_le _
    | false =>
      simp only [hok, Bool.false_eq_true, if_false, Prod.mk.injEq] at heq
      obtain ⟨-, rfl⟩ := heq
      have hfail : (storeRecords records swapData).1 = false := by rw [← hstored, hok]
      have htable : TablesUnchanged k { k with swapData := some suspended.2 } ↔
          suspended.2.blockList = swapData.blockList := by
        simp [TablesUnchanged, hswap]
      rw [htable, hstored]
      by_cases hpid : pid = UINT32_MAX
      · have hfull := storeRecords_of_pid_eq (fun r hr => (hpids r hr).trans hpid) hfail
        rw [storeRecords_of_full hfull]
        exact iff_of_true rfl (Or.inr (Or.inl hfull))
      · have hcount := @countP_isFree_storeRecords records swapData
          fun r hr => by rw [hpids r hr]; exact hpid
        rw [if_neg (by simp [hfail])] at hcount
        constructor
        · intro heq
          rw [heq] at hcount
          exact Or.inr (Or.inl hcount.1)
        · rintro (hfit | hfull | hmax)
          · omega
          · rw [storeRecords_of_full hfull]
          · exact absurd hmax hpid

/-- One stick of six bytes, all of them of a segment of process 1, and a swap of two blocks of two
bytes. -/
def memoryBeforeSuspension : KernelMemory where
  mainMemory := ⟨6, 6, [⟨0, 1, 0, 6⟩], [], .best⟩
  connectedSticks := [⟨[10, 11, 12, 13, 14, 15]⟩]
  swapData := initSwapData 4 2
  processes := [1]

/-- The same memory after the attempt: the first two blocks of the segment are in swap. -/
def memoryAfterFailedSuspension : KernelMemory :=
  { memoryBeforeSuspension with
    swapData := some ⟨[⟨0, 1, 0, 0, 6⟩, ⟨1, 1, 0, 1, 6⟩], 2, [[10, 11], [12, 13]]⟩ }

/-- The answer to it. -/
def swapFull : Message :=
  ⟨.suspensionFailed, "Could not suspend the process because swap is full."⟩

/-- The third block of the segment finds the swap full, and the first two stay there. -/
theorem suspension_failed_changes_table :
    suspendProcess 1 memoryBeforeSuspension = some (swapFull, memoryAfterFailedSuspension) ∧
      swapFull.opCode = .suspensionFailed ∧
      ¬ TablesUnchanged memoryBeforeSuspension memoryAfterFailedSuspension :=
  ⟨by decide, rfl, by decide⟩

/-- The equivalence at that attempt. -/
theorem suspension_failed_unchanged_iff_full :
    TablesUnchanged memoryBeforeSuspension memoryAfterFailedSuspension ↔
      AllOrNoBlocksFit 1 memoryBeforeSuspension :=
  suspension_failed_unchanged_iff (show suspendProcess 1 memoryBeforeSuspension =
    some (swapFull, memoryAfterFailedSuspension) by decide) rfl

end OsSimulator.Memory
