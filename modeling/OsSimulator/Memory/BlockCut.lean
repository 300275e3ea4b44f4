import OsSimulator.Memory.Replies
import OsSimulator.Memory.Restoration
import OsSimulator.Swap.SwapFile

set_option relaxedAutoImplicit false
set_option autoImplicit false

/-!
# How a segment is cut into blocks

`suspend_segment` computes the offset and the number of bytes of every block from the segment, and
`resume_block` computes them again from the entry of the block. In between, the bytes are in blocks
of the swap file, padded with zeros. This file puts the two computations side by side and follows
the bytes of a segment out and back.

## Main definitions

* `suspendCuts`, `resumeCut` — the two computations.
* `suspendRounds`, `resumeRounds` — the rounds of a suspension and of a resumption, with the swap
  file.
* `CutAlike` — the two cut a segment in the same way, and the bytes come back.
* `ResumesAt`, `ReturnsFromSwap` — so they do through `suspend_segment` and `resume_block`.

## Main results

* `suspendSegmentLoop_swapFile`, `resumeBlock_swapFile` — the blocks of `SwapData` are those of the
  swap file.
* `cutAlike` — every segment is cut alike.
-/

namespace OsSimulator.Memory

open Swap (writeBlock readBlock seekBlock fileBlocks)

/-! ## The two computations -/

/-- The `offset` and the `bytes_to_read` of a round of `suspend_segment`. -/
def suspendCut (size : ℤ) (blockSize i : ℕ) : Extent :=
  let offset : ℤ := i * blockSize
  ⟨offset, if size - offset < blockSize then size - offset else blockSize⟩

/-- Those of all the rounds. -/
def suspendCuts (size : ℤ) (blockSize : ℕ) : List Extent :=
  (List.range (segmentBlockCount size blockSize)).map (suspendCut size blockSize)

/-- The `block_offset` and the `real_bytes` of `resume_block`. -/
def resumeCut (blockSize : ℕ) (block : BlockData) : Extent :=
  let blockOffset : ℤ := block.segmentBlockNumber * blockSize
  ⟨blockOffset, if block.segmentSize - blockOffset < blockSize then block.segmentSize - blockOffset
    else blockSize⟩

/-! ## The rounds -/

/-- The entries that `add_block_to_swap` makes for the blocks of a segment from `counter` on, in the
blocks with the given numbers. -/
def segmentEntries (segment : Segment) : ℕ → List ℕ → List BlockData
  | _, [] => []
  | counter, blockNumber :: rest =>
    ⟨blockNumber, segment.pid, segment.id, counter, segment.size⟩ ::
      segmentEntries segment (counter + 1) rest

/-- The rounds of `suspend_segment` from `i` on, into the blocks of the swap file with the given
numbers. -/
def suspendRounds (segment : Segment) (sticks : List Stick) (blockSize : ℕ) :
    ℕ → List ℕ → List UInt8 → Option (List UInt8)
  | _, [], swapFile => some swapFile
  | i, blockNumber :: rest, swapFile =>
    let cut := suspendCut segment.size blockSize i
    (readFromSticks (segment.base + cut.base) cut.size.toNat sticks).bind fun content =>
      suspendRounds segment sticks blockSize (i + 1) rest
        (writeBlock swapFile blockNumber blockSize
          (content ++ List.replicate (blockSize - content.length) 0))

/-- What `resume_block` does with the blocks of a segment that starts at the given base. -/
def resumeRounds (base : ℤ) (blockSize : ℕ) (swapFile : List UInt8) :
    List BlockData → List Stick → Option (List Stick)
  | [], sticks => some sticks
  | block :: rest, sticks =>
    (readBlock swapFile block.blockNumber blockSize).bind fun content =>
      resumeRounds base blockSize swapFile rest
        (writeToSticks (base + blockSize * block.segmentBlockNumber)
          (content.take (resumeCut blockSize block).size.toNat) sticks).2

/-- **A suspension and a resumption cut the segment alike.** The cuts divide the segment, with at
least one byte and at most a block each; they are computed within an `int`; the entries of the
blocks give them again; and whatever blocks of the swap file the bytes go to, and whatever happens
to the other ones, the bytes of the segment come back, at any base, and nothing else is written. -/
structure CutAlike (segment : Segment) (blockSize : ℕ) : Prop where
  divides : Fills segment.size (suspendCuts segment.size blockSize)
  sizes : ∀ cut ∈ suspendCuts segment.size blockSize, 1 ≤ cut.size ∧ cut.size ≤ blockSize
  ints : segment.size + blockSize - 1 ≤ INT_MAX ∧
    ∀ cut ∈ suspendCuts segment.size blockSize, cut.base + blockSize ≤ INT_MAX
  again : ∀ numbers : List ℕ, numbers.length = segmentBlockCount segment.size blockSize →
    (segmentEntries segment 0 numbers).map (resumeCut blockSize) =
      suspendCuts segment.size blockSize
  restored : ∀ (sticks : List Stick) (numbers : List ℕ) (swapFile : List UInt8),
    0 ≤ segment.base → segment.base + segment.size ≤ (bytesOf sticks).length →
    numbers.length = segmentBlockCount segment.size blockSize → numbers.Nodup →
    (∀ n ∈ numbers, seekBlock n blockSize + blockSize ≤ swapFile.length) →
    ∃ suspended, suspendRounds segment sticks blockSize 0 numbers swapFile = some suspended ∧
      ∀ (swapFile' : List UInt8) (sticks' : List Stick) (base : ℕ),
        (∀ n ∈ numbers, readBlock swapFile' n blockSize = readBlock suspended n blockSize) →
        base + segment.size ≤ (bytesOf sticks').length →
        ∃ restored, resumeRounds base blockSize swapFile' (segmentEntries segment 0 numbers)
            sticks' = some restored ∧
          bytesOf restored = splice (bytesOf sticks') base (segmentBytes sticks segment)

section Cut

variable {segment : Segment} {size : ℤ} {blockSize i : ℕ}

/-- Both read as many bytes. -/
lemma toNat_size_suspendCut :
    (suspendCut size blockSize i).size.toNat = blockBytes size blockSize i := by
  unfold suspendCut blockBytes
  dsimp only
  split <;> omega

/-- A record that tells number and size gives the cut that was made. -/
lemma resumeCut_of_entry {block : BlockData} (hnumber : block.segmentBlockNumber = i)
    (hsize : block.segmentSize = size) :
    resumeCut blockSize block = suspendCut size blockSize i := by
  rw [resumeCut, hnumber, hsize, suspendCut]

/-- The records of a segment give the cuts that were made. -/
lemma map_resumeCut_segmentEntries (numbers : List ℕ) :
    (segmentEntries segment i numbers).map (resumeCut blockSize) =
      (List.range' i numbers.length).map (suspendCut segment.size blockSize) := by
  induction numbers generalizing i with
  | nil => rfl
  | cons n rest ih =>
    rw [segmentEntries, List.map_cons, ih, List.length_cons, List.range'_succ, List.map_cons,
      resumeCut_of_entry rfl rfl]

/-- A block has at least a byte and at most its size. -/
lemma size_suspendCut {n : ℕ} (hpos : 0 < blockSize) (hi : i < segmentBlockCount n blockSize) :
    (suspendCut n blockSize i).size = min (n - i * blockSize : ℕ) blockSize ∧
      1 ≤ (suspendCut n blockSize i).size ∧ (suspendCut n blockSize i).size ≤ blockSize := by
  have hlt := (lt_segmentBlockCount hpos n i).1 hi
  have hcast : (i : ℤ) * blockSize = ((i * blockSize : ℕ) : ℤ) := by push_cast; rfl
  unfold suspendCut
  dsimp only
  rw [hcast]
  generalize i * blockSize = offset at hlt
  split <;> omega

/-- **The cuts are one behind the other**, and end where the segment does.

**Proof sketch.** Induction on the blocks. A block that is not whole is the last one, and behind a
whole block the next one starts. -/
lemma map_suspendCut_eq_pack {n rounds : ℕ} (hpos : 0 < blockSize)
    (hrounds : i + rounds = segmentBlockCount n blockSize) :
    (List.range' i rounds).map (suspendCut n blockSize) =
        pack (i * blockSize)
          ((List.range' i rounds).map fun k => (suspendCut n blockSize k).size) ∧
      ((List.range' i rounds).map fun k => (suspendCut n blockSize k).size).sum =
        (n - i * blockSize : ℕ) := by
  induction rounds generalizing i with
  | zero =>
    have hend := (lt_segmentBlockCount hpos n i).2.mt (by omega)
    refine ⟨rfl, ?_⟩
    rw [Nat.sub_eq_zero_of_le (not_lt.1 hend)]
    rfl
  | succ rounds ih =>
    obtain ⟨hpack, hsum⟩ := @ih (i + 1) (by omega)
    obtain ⟨hsize, -, -⟩ := @size_suspendCut blockSize i n hpos (by omega)
    have hlt := (lt_segmentBlockCount hpos n i).1 (by omega)
    have hnext : (i + 1) * blockSize = i * blockSize + blockSize := Nat.succ_mul i blockSize
    rw [List.range'_succ, List.map_cons, List.map_cons, List.sum_cons, hsum, hsize, hnext]
    refine ⟨?_, ?_⟩
    · have hcut : suspendCut n blockSize i =
          ⟨i * blockSize, (min (n - i * blockSize) blockSize : ℕ)⟩ := by
        rw [← hsize]
        rfl
      rw [pack, hcut, List.cons.injEq]
      refine ⟨rfl, ?_⟩
      cases rounds with
      | zero => rfl
      | succ rounds =>
        have hwhole := (lt_segmentBlockCount hpos n (i + 1)).1 (by omega)
        have hbase : ((i + 1 : ℕ) : ℤ) * blockSize =
            i * blockSize + (min (n - i * blockSize) blockSize : ℕ) := by
          rw [min_eq_right (by omega)]
          push_cast
          exact add_one_mul _ _
        rw [hpack, hbase]
    · omega

/-- The cuts divide the segment. -/
lemma fills_suspendCuts {n : ℕ} (hpos : 0 < blockSize) :
    Fills n (suspendCuts n blockSize) := by
  obtain ⟨hpack, hsum⟩ := @map_suspendCut_eq_pack blockSize 0 n _ hpos (Nat.zero_add _)
  have hsizes : ∀ k ∈ (List.range' 0 (segmentBlockCount n blockSize)).map
      fun k => (suspendCut n blockSize k).size, 0 ≤ k := by
    intro k hk
    obtain ⟨j, hj, rfl⟩ := List.mem_map.1 hk
    rw [List.mem_range'_1] at hj
    have hone := (@size_suspendCut blockSize j n hpos (by omega)).2.1
    omega
  have hfills := fills_pack hsizes
  rw [suspendCuts, List.range_eq_range', hpack, Nat.cast_zero, zero_mul]
  rwa [hsum, zero_mul, Nat.sub_zero] at hfills

end Cut

/-! ## The bytes -/

section Bytes

variable {segment : Segment} {blockSize i : ℕ} {sticks : List Stick} {swapFile : List UInt8}

/-- The content of a block of a segment: its bytes, and zeros. -/
def blockContent (sticks : List Stick) (blockSize : ℕ) (segment : Segment) (i : ℕ) : List UInt8 :=
  (imageRecord segment.pid blockSize (imageOf sticks segment) i).content

/-- A block is filled up to its size. -/
lemma length_blockContent (sticks : List Stick) (blockSize : ℕ) (segment : Segment) (i : ℕ) :
    (blockContent sticks blockSize segment i).length = blockSize := by
  have hle := List.length_take_le blockSize ((imageOf sticks segment).data.drop (i * blockSize))
  rw [blockContent, imageRecord, List.length_append, List.length_replicate, slice]
  omega

/-- **The rounds of a suspension** put the blocks of the segment in the blocks of the swap file, and
leave the others as they are.

**Proof sketch.** Induction on the rounds. What a round writes is not written again, because the
numbers are different. -/
lemma suspendRounds_eq (hpos : 0 < blockSize)
    (hs : 0 ≤ segment.base ∧ 0 ≤ segment.size ∧
      segment.base + segment.size ≤ (bytesOf sticks).length)
    {numbers : List ℕ}
    (hrounds : i + numbers.length = segmentBlockCount segment.size blockSize)
    (hnodup : numbers.Nodup)
    (hinside : ∀ n ∈ numbers, seekBlock n blockSize + blockSize ≤ swapFile.length) :
    ∃ suspended, suspendRounds segment sticks blockSize i numbers swapFile = some suspended ∧
      (∀ k n, numbers[k]? = some n →
        readBlock suspended n blockSize = some (blockContent sticks blockSize segment (i + k))) ∧
      ∀ n, n ∉ numbers → readBlock suspended n blockSize = readBlock swapFile n blockSize := by
  induction numbers generalizing i swapFile with
  | nil => exact ⟨swapFile, rfl, by simp, fun _ _ => rfl⟩
  | cons number rest ih =>
    obtain ⟨hnotmem, hnodup⟩ := List.nodup_cons.1 hnodup
    have hnumber := hinside number List.mem_cons_self
    have hcontent := length_blockContent sticks blockSize segment i
    have hlength := @Swap.length_writeBlock swapFile _ number blockSize hcontent hnumber
    rw [List.length_cons] at hrounds
    have hread : readFromSticks (segment.base + (suspendCut segment.size blockSize i).base)
        (suspendCut segment.size blockSize i).size.toNat sticks =
          some (slice (segmentBytes sticks segment) (i * blockSize) blockSize) := by
      rw [toNat_size_suspendCut]
      exact readFromSticks_block hs hpos (by omega)
    obtain ⟨suspended, hrest, hwritten, hkept⟩ := @ih (i + 1)
      (writeBlock swapFile number blockSize (blockContent sticks blockSize segment i)) (by omega)
      hnodup (fun n hn => by rw [hlength]; exact hinside n (List.mem_cons_of_mem number hn))
    refine ⟨suspended, ?_, ?_, ?_⟩
    · rw [suspendRounds, hread, Option.bind_some]
      exact hrest
    · intro k n hn
      cases k with
      | zero =>
        obtain rfl : number = n := by simpa using hn
        rw [hkept number hnotmem, Swap.readBlock_writeBlock_self hcontent hnumber, Nat.add_zero]
      | succ k =>
        rw [List.getElem?_cons_succ] at hn
        rw [hwritten k n hn, Nat.add_right_comm, Nat.add_assoc]
    · intro n hn
      rw [List.mem_cons, not_or] at hn
      rw [hkept n hn.2, Swap.readBlock_writeBlock_of_ne hcontent hnumber hn.1]

/-- **The rounds of a resumption** write the bytes of the segment, from a block on.

**Proof sketch.** Induction on the rounds, by `splice_block`. -/
lemma resumeRounds_eq (hpos : 0 < blockSize)
    (hlength : ((segmentBytes sticks segment).length : ℤ) = segment.size) {numbers : List ℕ}
    (hrounds : i + numbers.length = segmentBlockCount segment.size blockSize)
    (hread : ∀ k n, numbers[k]? = some n →
      readBlock swapFile n blockSize = some (blockContent sticks blockSize segment (i + k)))
    {sticks' : List Stick} {base : ℕ} (hbase : base + segment.size ≤ (bytesOf sticks').length) :
    ∃ restored, resumeRounds base blockSize swapFile (segmentEntries segment i numbers) sticks' =
        some restored ∧
      bytesOf restored = splice (bytesOf sticks') (base + i * blockSize)
        ((segmentBytes sticks segment).drop (i * blockSize)) := by
  set data := segmentBytes sticks segment with hdata
  have hcover : base + data.length ≤ (bytesOf sticks').length := by omega
  rw [← hlength] at hrounds
  induction numbers generalizing i sticks' with
  | nil =>
    have hend := (lt_segmentBlockCount hpos data.length i).2.mt (by
      rw [List.length_nil] at hrounds
      omega)
    exact ⟨sticks', rfl, by rw [List.drop_eq_nil_of_le (not_lt.1 hend), splice_nil]⟩
  | cons number rest ih =>
    rw [List.length_cons] at hrounds
    have hlt := (lt_segmentBlockCount hpos data.length i).1 (by omega)
    have hcontent : (blockContent sticks blockSize segment i).take
        (blockBytes segment.size blockSize i) = slice data (i * blockSize) blockSize := by
      rw [← hlength]
      exact take_content (imageOf sticks segment) i
    have hblock : (slice data (i * blockSize) blockSize).length ≤ data.length - i * blockSize := by
      rw [slice, List.length_take, List.length_drop]
      exact min_le_right _ _
    have hfits : base + i * blockSize + (slice data (i * blockSize) blockSize).length ≤
        (bytesOf sticks').length := by omega
    obtain ⟨-, hwritten⟩ := bytesOf_writeToSticks hfits
    set written := (writeToSticks ((base + i * blockSize : ℕ) : ℤ)
      (slice data (i * blockSize) blockSize) sticks').2 with hw
    have hsame : (bytesOf written).length = (bytesOf sticks').length := by
      rw [hwritten, length_splice hfits]
    have hread' : ∀ k n, rest[k]? = some n → readBlock swapFile n blockSize =
        some (blockContent sticks blockSize segment (i + 1 + k)) := by
      intro k n hn
      rw [hread (k + 1) n (by rwa [List.getElem?_cons_succ]), Nat.add_right_comm, Nat.add_assoc]
    obtain ⟨restored, hrest, hbytes⟩ := @ih (i + 1) hread' written (by rw [hsame]; exact hbase)
      (by omega) (by rw [hsame]; exact hcover)
    refine ⟨restored, ?_, ?_⟩
    · have haddress : (base : ℤ) + blockSize * i = ((base + i * blockSize : ℕ) : ℤ) := by
        rw [Nat.cast_add, Nat.cast_mul, mul_comm]
      have hcut : resumeCut blockSize ⟨number, segment.pid, segment.id, i, segment.size⟩ =
          suspendCut segment.size blockSize i := resumeCut_of_entry rfl rfl
      have hfirst : readBlock swapFile number blockSize =
          some (blockContent sticks blockSize segment i) := hread 0 number rfl
      rw [segmentEntries, resumeRounds, hfirst, Option.bind_some, hcut, toNat_size_suspendCut,
        hcontent]
      dsimp only
      rw [haddress]
      exact hrest
    · rw [hbytes, hwritten]
      exact (splice_block hcover i).symm

end Bytes

/-! ## The table and the swap file -/

/-- The blocks of the table are those of the swap file. -/
def SwapData.StoredIn (swapData : SwapData) (swapFile : List UInt8) : Prop :=
  swapData.disk = fileBlocks swapData.blockSize swapData.blockList.length swapFile ∧
    seekBlock swapData.blockList.length swapData.blockSize ≤ swapFile.length

/-- So it is when the swap module connects. -/
lemma storedIn_initSwapData {swapSize blockSize : ℕ} {swapData : SwapData}
    (h : initSwapData swapSize blockSize = some swapData) :
    swapData.StoredIn (Swap.initSwapFile swapSize) := by
  unfold initSwapData at h
  split at h
  · cases h
  · obtain rfl := Option.some.inj h
    have hle : seekBlock (swapSize / blockSize) blockSize ≤ swapSize := Nat.div_mul_le_self _ _
    refine ⟨?_, ?_⟩
    · simp only [List.length_map, List.length_range]
      exact (Swap.fileBlocks_initSwapFile hle).symm
    · simpa [Swap.initSwapFile] using hle

/-- What `read_from_sticks` returns has the length that was asked for. -/
lemma length_of_readFromSticks {address : ℤ} {n : ℕ} {sticks : List Stick} {bytes : List UInt8}
    (h : readFromSticks address n sticks = some bytes) : bytes.length = n := by
  rcases isSome_readFromSticks.1 (Option.isSome_of_eq_some h) with rfl | ⟨ha, hend⟩
  · obtain rfl : [] = bytes := by simpa [readFromSticks, readLoop] using h
    rfl
  · obtain ⟨k, rfl⟩ := Int.eq_ofNat_of_zero_le ha
    rw [← length_bytesOf] at hend
    rw [readFromSticks_eq (by omega)] at h
    obtain rfl := Option.some.inj h
    exact length_slice (by omega)

section Table

variable {segment : Segment} {sticks : List Stick} {swapFile : List UInt8}

/-- What `add_block_to_swap` reserves: a free block, which gets the entry. -/
lemma addBlockToSwap_spec {i n : ℕ} {swapData reserved : SwapData} (hwf : swapData.WellFormed)
    (h : addBlockToSwap segment i swapData = some (n, reserved)) :
    (∃ block, swapData.blockList[n]? = some block ∧ block.isFree = true) ∧
      n < swapData.blockList.length ∧
      reserved = { swapData with
        blockList := swapData.blockList.set n ⟨n, segment.pid, segment.id, i, segment.size⟩ } := by
  obtain ⟨m, hm, heq⟩ := Option.map_eq_some_iff.1 h
  obtain ⟨rfl, rfl⟩ := Prod.mk.inj heq
  obtain ⟨hlt, hfree, -⟩ := List.findIdx?_eq_some_iff_getElem.1 hm
  have hblock := List.getElem?_eq_getElem hlt
  have hnumber := hwf.numbered m _ hblock
  refine ⟨⟨_, hblock, hfree⟩, hlt, ?_⟩
  rw [List.modify_eq_set_getElem?, hblock]
  simp only [Option.map_eq_map, Option.map_some, Option.getD_some, hnumber]

/-- A block of the table that gets an entry, and its content, with the block of the file. -/
lemma writeBlockToSwap_set {n : ℕ} {bytes : List UInt8} {swapData : SwapData} (entry : BlockData)
    (hwf : swapData.WellFormed) (hstored : swapData.StoredIn swapFile)
    (hn : n < swapData.blockList.length) (hnumber : entry.blockNumber = n)
    (hbytes : bytes.length ≤ swapData.blockSize) :
    let next := writeBlockToSwap n bytes
      { swapData with blockList := swapData.blockList.set n entry }
    next.WellFormed ∧ next.StoredIn (writeBlock swapFile n swapData.blockSize
      (bytes ++ List.replicate (swapData.blockSize - bytes.length) 0)) := by
  intro next
  set content := bytes ++ List.replicate (swapData.blockSize - bytes.length) 0 with hcontent
  have hlength : content.length = swapData.blockSize := by
    rw [hcontent, List.length_append, List.length_replicate]
    omega
  have hinside : seekBlock n swapData.blockSize + swapData.blockSize ≤ swapFile.length :=
    (Swap.seekBlock_add_le hn).trans hstored.2
  have hlist : next.blockList = swapData.blockList.set n entry := rfl
  have hdisk : next.disk = swapData.disk.set n content := rfl
  refine ⟨⟨hwf.blockSize_pos, fun m block hm => ?_, ?_⟩, ?_, ?_⟩
  · rw [hlist, List.getElem?_set] at hm
    split at hm
    · rename_i heq
      rw [← Option.some.inj hm, hnumber, heq]
    · exact hwf.numbered m block hm
  · rw [hlist, hdisk, List.length_set, List.length_set, hwf.length_disk]
  · rw [hdisk, hlist, List.length_set, hstored.1]
    exact (Swap.fileBlocks_writeBlock hstored.2 hn hlength).symm
  · rw [hlist, List.length_set, Swap.length_writeBlock hlength hinside]
    exact hstored.2

/-- A free block is none that is used. -/
lemma ne_of_isFree {n m : ℕ} {block : BlockData} {blockList : List BlockData}
    (hfree : ∃ block, blockList[n]? = some block ∧ block.isFree = true)
    (hm : blockList[m]? = some block) (hused : block.isFree = false) : n ≠ m := by
  rintro rfl
  obtain ⟨block', hblock', hfree⟩ := hfree
  rw [hm, Option.some.injEq] at hblock'
  rw [← hblock', hused] at hfree
  cases hfree

/-- **The loop of `suspend_segment` runs its rounds on the swap file**, with blocks that were free
and have the entries of the segment's blocks afterwards. -/
lemma suspendSegmentLoop_swapFile {rounds i : ℕ} {swapData swapData' : SwapData}
    (hpid : segment.pid ≠ UINT32_MAX) (hwf : swapData.WellFormed)
    (hstored : swapData.StoredIn swapFile)
    (h : suspendSegmentLoop segment sticks rounds i swapData = some (true, swapData')) :
    ∃ numbers swapFile', numbers.length = rounds ∧ numbers.Nodup ∧
      (∀ n ∈ numbers, ∃ block, swapData.blockList[n]? = some block ∧ block.isFree = true) ∧
      suspendRounds segment sticks swapData.blockSize i numbers swapFile = some swapFile' ∧
      swapData'.StoredIn swapFile' ∧
      (numbers.map fun n => swapData'.blockList[n]?) =
        (segmentEntries segment i numbers).map some ∧
      ∀ (m : ℕ) (block : BlockData), swapData.blockList[m]? = some block → block.isFree = false →
        swapData'.blockList[m]? = some block := by
  induction rounds generalizing i swapData swapFile with
  | zero =>
    obtain ⟨-, rfl⟩ := Prod.mk.inj (Option.some.inj h)
    exact ⟨[], swapFile, rfl, List.nodup_nil, by simp, rfl, hstored, rfl, fun _ _ hm _ => hm⟩
  | succ rounds ih =>
    rw [suspendSegmentLoop] at h
    cases hadd : addBlockToSwap segment i swapData with
    | none =>
      rw [hadd] at h
      cases h
    | some added =>
      obtain ⟨n, reserved⟩ := added
      rw [hadd] at h
      obtain ⟨bytes, hread, hrest⟩ := Option.bind_eq_some_iff.1 h
      obtain ⟨hfree, hn, rfl⟩ := addBlockToSwap_spec hwf hadd
      set entry : BlockData := ⟨n, segment.pid, segment.id, i, segment.size⟩ with hentry
      have hused : entry.isFree = false := by simpa [BlockData.isFree, hentry] using hpid
      have hbytes : bytes.length ≤ swapData.blockSize := by
        rw [length_of_readFromSticks hread, blockBytes]
        omega
      set next := writeBlockToSwap n bytes
        { swapData with blockList := swapData.blockList.set n entry } with hnext
      have hlist : next.blockList = swapData.blockList.set n entry := rfl
      obtain ⟨hwf', hstored'⟩ := writeBlockToSwap_set entry hwf hstored hn rfl hbytes
      obtain ⟨numbers, swapFile', hrounds, hnodup, hfrees, hrun, hend, hentries, hkept⟩ :=
        ih hwf' hstored' hrest
      have hmine : next.blockList[n]? = some entry := by
        rw [hlist, List.getElem?_set_self hn]
      have hnotmem : n ∉ numbers := fun hmem => ne_of_isFree (hfrees n hmem) hmine hused rfl
      refine ⟨n :: numbers, swapFile', by rw [List.length_cons, hrounds],
        List.nodup_cons.2 ⟨hnotmem, hnodup⟩, ?_, ?_, hend, ?_, ?_⟩
      · intro m hm
        rcases List.mem_cons.1 hm with rfl | hm
        · exact hfree
        · obtain ⟨block, hblock, hblockFree⟩ := hfrees m hm
          have hne : n ≠ m := fun heq => hnotmem (heq ▸ hm)
          rw [hlist, List.getElem?_set_ne hne] at hblock
          exact ⟨block, hblock, hblockFree⟩
      · have haddress : readFromSticks
            (segment.base + (suspendCut segment.size swapData.blockSize i).base)
            (suspendCut segment.size swapData.blockSize i).size.toNat sticks = some bytes := by
          rw [toNat_size_suspendCut]
          exact hread
        rw [suspendRounds, haddress, Option.bind_some]
        exact hrun
      · rw [List.map_cons, segmentEntries, List.map_cons, hentries, hkept n entry hmine hused]
      · intro m block hm hblockUsed
        refine hkept m block ?_ hblockUsed
        have hne : n ≠ m := ne_of_isFree hfree hm hblockUsed
        rw [hlist, List.getElem?_set_ne hne, hm]

/-- **`resume_block` reads the swap file**: what it writes is what the rounds of a resumption write
at the base of the segment. -/
lemma resumeBlock_swapFile {block : BlockData} {pid : ℕ} {r r' : Resumption} {msgs : List Message}
    (hstored : r.swapData.StoredIn swapFile)
    (hblock : block.blockNumber < r.swapData.blockList.length)
    (h : resumeBlock block pid r = some (msgs, true, r')) :
    ∃ segment, findSegment r'.mainMemory pid block.segmentNumber = some segment ∧
      resumeRounds segment.base r.swapData.blockSize swapFile [block] r.connectedSticks =
        some r'.connectedSticks ∧ r'.swapData.StoredIn swapFile ∧
      r'.swapData.blockSize = r.swapData.blockSize ∧
      r'.swapData.blockList.length = r.swapData.blockList.length := by
  have hread : readBlock swapFile block.blockNumber r.swapData.blockSize =
      r.swapData.disk[block.blockNumber]? := by
    rw [hstored.1, Swap.getElem?_fileBlocks hstored.2 hblock]
  unfold resumeBlock at h
  dsimp only at h
  split at h
  · simp at h
  · simp at h
  · rename_i content hregen hcontent
    rw [computeAddressWithOffset, Option.map_map] at h
    obtain ⟨segment, hsegment, heq⟩ := Option.map_eq_some_iff.1 h
    simp only [Function.comp_apply, Prod.mk.injEq] at heq
    obtain ⟨-, -, rfl⟩ := heq
    refine ⟨segment, hsegment, ?_, ?_, rfl, by simp [removeBlockFromSwap]⟩
    · have hsize : (resumeCut r.swapData.blockSize block).size.toNat =
          blockBytes block.segmentSize r.swapData.blockSize block.segmentBlockNumber := by
        unfold resumeCut blockBytes
        dsimp only
        split <;> omega
      rw [resumeRounds, hread, hcontent, Option.bind_some, hsize]
      rfl
    · refine ⟨?_, ?_⟩
      · simp only [removeBlockFromSwap, List.length_modify]
        exact hstored.1
      · simp only [removeBlockFromSwap, List.length_modify]
        exact hstored.2

/-- `resume_block` restores the blocks one after the other, and finds their segment at the base. -/
inductive ResumesAt (base pid : ℕ) : List BlockData → Resumption → Resumption → Prop
  | nil (r : Resumption) : ResumesAt base pid [] r r
  | cons {block : BlockData} {rest : List BlockData} {r r' r'' : Resumption} {msgs : List Message}
      (restored : resumeBlock block pid r = some (msgs, true, r'))
      (found : ∀ s ∈ findSegment r'.mainMemory pid block.segmentNumber, s.base = base)
      (others : ResumesAt base pid rest r' r'') : ResumesAt base pid (block :: rest) r r''

/-- The blocks that `resume_block` restores are those of the rounds of a resumption. -/
lemma resumeRounds_of_resumesAt {base pid : ℕ} {blocks : List BlockData} {r r' : Resumption}
    (h : ResumesAt base pid blocks r r') (hstored : r.swapData.StoredIn swapFile)
    (hblocks : ∀ block ∈ blocks, block.blockNumber < r.swapData.blockList.length) :
    resumeRounds base r.swapData.blockSize swapFile blocks r.connectedSticks =
      some r'.connectedSticks := by
  induction h with
  | nil r => rfl
  | @cons block rest r r' r'' msgs restored found others ih =>
    obtain ⟨segment, hsegment, hround, hstored', hsize, hlength⟩ :=
      resumeBlock_swapFile hstored (hblocks block List.mem_cons_self) restored
    have hbase := found segment hsegment
    rw [hbase] at hround
    obtain ⟨content, hread, hwritten⟩ := Option.bind_eq_some_iff.1 hround
    have hrest := ih hstored' fun b hb => by
      rw [hlength]
      exact hblocks b (List.mem_cons_of_mem block hb)
    rw [← Option.some.inj hwritten, hsize] at hrest
    rw [resumeRounds, hread, Option.bind_some]
    exact hrest

/-- **The bytes come back through the table**: `suspend_segment` leaves the entries of the segment's
blocks, and when `resume_block` has restored them, from a swap file in which these blocks are as
they were, the bytes of the segment are at the new base, and nothing else has been written. -/
def ReturnsFromSwap (segment : Segment) (blockSize : ℕ) : Prop :=
  ∀ (sticks : List Stick) (swapData swapData' : SwapData) (swapFile : List UInt8),
    segment.pid ≠ UINT32_MAX → swapData.WellFormed → swapData.StoredIn swapFile →
    swapData.blockSize = blockSize → 0 ≤ segment.base →
    segment.base + segment.size ≤ (bytesOf sticks).length →
    suspendSegment segment sticks swapData = some (true, swapData') →
    ∃ (numbers : List ℕ) (swapFile' : List UInt8), swapData'.StoredIn swapFile' ∧
      (numbers.map fun n => swapData'.blockList[n]?) =
        (segmentEntries segment 0 numbers).map some ∧
      ∀ (r r' : Resumption) (swapFile'' : List UInt8) (base : ℕ),
        r.swapData.StoredIn swapFile'' → r.swapData.blockSize = blockSize →
        (∀ n ∈ numbers, n < r.swapData.blockList.length ∧
          readBlock swapFile'' n blockSize = readBlock swapFile' n blockSize) →
        base + segment.size ≤ (bytesOf r.connectedSticks).length →
        ResumesAt base segment.pid (segmentEntries segment 0 numbers) r r' →
        bytesOf r'.connectedSticks =
          splice (bytesOf r.connectedSticks) base (segmentBytes sticks segment)

/-- The numbers of the entries. -/
lemma blockNumber_mem_of_segmentEntries {numbers : List ℕ} {i : ℕ} {block : BlockData}
    (h : block ∈ segmentEntries segment i numbers) : block.blockNumber ∈ numbers := by
  induction numbers generalizing i with
  | nil => exact absurd h List.not_mem_nil
  | cons n rest ih =>
    rcases List.mem_cons.1 h with rfl | h
    · exact List.mem_cons_self
    · exact List.mem_cons_of_mem n (ih h)

/-- Segments that come back through the swap file come back through the table. -/
lemma CutAlike.returnsFromSwap {blockSize : ℕ} (h : CutAlike segment blockSize) :
    ReturnsFromSwap segment blockSize := by
  intro sticks swapData swapData' swapFile hpid hwf hstored hblockSize hbase hinside hrun
  subst hblockSize
  unfold suspendSegment at hrun
  split at hrun
  · exact absurd hrun (by simp)
  obtain ⟨numbers, swapFile', hlength, hnodup, hfree, hrounds, hstored', hentries, -⟩ :=
    suspendSegmentLoop_swapFile hpid hwf hstored hrun
  have hblocks : ∀ n ∈ numbers,
      seekBlock n swapData.blockSize + swapData.blockSize ≤ swapFile.length := by
    intro n hn
    obtain ⟨block, hblock, -⟩ := hfree n hn
    have hlt := (List.getElem?_eq_some_iff.1 hblock).1
    have hle : seekBlock (n + 1) swapData.blockSize ≤
        seekBlock swapData.blockList.length swapData.blockSize := Nat.mul_le_mul_right _ hlt
    rw [seekBlock, Nat.succ_mul] at hle
    exact hle.trans hstored.2
  obtain ⟨suspended, hsuspended, hback⟩ :=
    h.restored sticks numbers swapFile hbase hinside hlength hnodup hblocks
  obtain rfl := Option.some.inj (hsuspended.symm.trans hrounds)
  refine ⟨numbers, suspended, hstored', hentries, ?_⟩
  intro r r' swapFile'' base hstoredR hsizeR hkept hfits hresumes
  obtain ⟨restored, hrestored, hbytes⟩ :=
    hback swapFile'' r.connectedSticks base (fun n hn => (hkept n hn).2) hfits
  have hresumed := resumeRounds_of_resumesAt hresumes hstoredR fun block hblock =>
    (hkept _ (blockNumber_mem_of_segmentEntries hblock)).1
  rw [hsizeR, hrestored, Option.some.injEq] at hresumed
  rw [← hresumed, hbytes]

end Table

/-- Every segment is cut alike by the rounds of a suspension and a resumption. -/
lemma cutAlike_of_rounds {segment : Segment} {blockSize : ℕ} (hsize : 0 ≤ segment.size)
    (hpos : 0 < blockSize) (hint : segment.size + blockSize ≤ INT_MAX) :
    CutAlike segment blockSize := by
  obtain ⟨n, hn⟩ := Int.eq_ofNat_of_zero_le hsize
  have hcuts : ∀ cut ∈ suspendCuts segment.size blockSize,
      ∃ i, i < segmentBlockCount n blockSize ∧ cut = suspendCut n blockSize i := by
    intro cut hcut
    rw [hn] at hcut
    obtain ⟨i, hi, rfl⟩ := List.mem_map.1 hcut
    exact ⟨i, List.mem_range.1 hi, rfl⟩
  refine ⟨?_, ?_, ⟨by omega, ?_⟩, ?_, ?_⟩
  · rw [hn]
    exact fills_suspendCuts hpos
  · intro cut hcut
    obtain ⟨i, hi, rfl⟩ := hcuts cut hcut
    exact (size_suspendCut hpos hi).2
  · intro cut hcut
    obtain ⟨i, hi, rfl⟩ := hcuts cut hcut
    have hlt := (lt_segmentBlockCount hpos n i).1 hi
    have hcast : (suspendCut n blockSize i).base = ((i * blockSize : ℕ) : ℤ) := by
      rw [Nat.cast_mul]
      rfl
    rw [hcast]
    omega
  · intro numbers hlength
    rw [map_resumeCut_segmentEntries, hlength, suspendCuts, List.range_eq_range']
  · intro sticks numbers swapFile hbase hinside hlength hnodup hblocks
    have hs : 0 ≤ segment.base ∧ 0 ≤ segment.size ∧
        segment.base + segment.size ≤ (bytesOf sticks).length := ⟨hbase, hsize, hinside⟩
    obtain ⟨suspended, hrun, hwritten, -⟩ :=
      @suspendRounds_eq segment blockSize 0 sticks swapFile hpos hs numbers (by omega) hnodup
        hblocks
    refine ⟨suspended, hrun, fun swapFile' sticks' base hkept hfits => ?_⟩
    obtain ⟨restored, hresumed, hbytes⟩ :=
      @resumeRounds_eq segment blockSize 0 sticks swapFile' hpos (length_segmentBytes hs) numbers
        (by omega)
        (fun k n hn => by rw [hkept n (List.mem_of_getElem? hn), hwritten k n hn]) sticks' base
        hfits
    refine ⟨restored, hresumed, ?_⟩
    rw [hbytes, Nat.zero_mul, Nat.add_zero, List.drop_zero]

/-- **Every segment is cut alike** by a suspension and a resumption, and its bytes come back through
the block table. -/
theorem cutAlike {segment : Segment} {blockSize : ℕ} (hsize : 0 ≤ segment.size)
    (hpos : 0 < blockSize) (hint : segment.size + blockSize ≤ INT_MAX) :
    CutAlike segment blockSize ∧ ReturnsFromSwap segment blockSize := by
  have hcut := cutAlike_of_rounds hsize hpos hint
  exact ⟨hcut, hcut.returnsFromSwap⟩

/-- Five bytes in blocks of two: the last block has one. -/
theorem cutAlike_short_block :
    suspendCuts 5 2 = [⟨0, 2⟩, ⟨2, 2⟩, ⟨4, 1⟩] ∧ CutAlike ⟨0, 1, 1, 5⟩ 2 ∧
      ReturnsFromSwap ⟨0, 1, 1, 5⟩ 2 :=
  ⟨by decide, cutAlike (by decide) (by decide) (by decide)⟩

end OsSimulator.Memory
