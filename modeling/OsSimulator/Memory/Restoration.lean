import OsSimulator.Memory.Homes
import OsSimulator.Memory.Overlap

set_option relaxedAutoImplicit false
set_option autoImplicit false

/-!
# A resumption restores records

A suspension stores the records of its segments one after another (`suspendSegments_eq`). A
resumption restores the records it finds in the table one after another: the first record of a
segment makes the segment, and every record is written at its place in the segment that
`find_segment` finds for it. This file follows the records of a segment through that, and those of
several segments whose ids are their positions.

## Main definitions

* `restoreRecord`, `restoreRecords` — a record, and records, restored.
* `Image`, `imageRecords` — the id and the bytes of a segment, and its records.
* `imageOf` — those of a segment in memory.

## Main results

* `resumeBlocks_restores` — the loop of a resumption restores the records in the table.
* `segmentRecords_eq` — a suspension stores the records of the bytes of a segment.
* `restoreRecords_image` — the records of a segment bring its bytes back.
* `restoreRecords_images` — so do the records of segments with the ids `j`, `j + 1`, ... for a
  process that has `j` segments.
-/

namespace OsSimulator.Memory

/-! ## Records restored -/

/-- `resume_block` for a record: whether it was restored, and what it leaves. -/
def restoreRecord (pid blockSize : ℕ) (record : BlockRecord) (memory : MainMemory)
    (sticks : List Stick) : Option (Bool × MainMemory × List Stick) :=
  let regenerated :=
    if record.segmentBlockNumber = 0 then
      regenerateSegment record.segmentNumber pid record.segmentSize memory
    else (none, memory)
  match regenerated.1 with
  | some _ => some (false, regenerated.2, sticks)
  | none => (findSegment regenerated.2 pid record.segmentNumber).map fun segment =>
      (true, regenerated.2,
        (writeToSticks (segment.base + blockSize * record.segmentBlockNumber)
          (record.content.take
            (blockBytes record.segmentSize blockSize record.segmentBlockNumber)) sticks).2)

/-- Records restored one after another, up to the first that is not. -/
def restoreRecords (pid blockSize : ℕ) :
    List BlockRecord → MainMemory → List Stick → Option (Bool × MainMemory × List Stick)
  | [], memory, sticks => some (true, memory, sticks)
  | record :: rest, memory, sticks =>
    (restoreRecord pid blockSize record memory sticks).bind fun restored =>
      if restored.1 then restoreRecords pid blockSize rest restored.2.1 restored.2.2
      else some restored

section Record

variable {pid blockSize : ℕ} {record : BlockRecord} {m m₁ : MainMemory} {sticks : List Stick}
  {segment : Segment}

/-- A record that is not the first of its segment is written in the segment. -/
lemma restoreRecord_of_next (hnumber : record.segmentBlockNumber ≠ 0)
    (hfind : findSegment m pid record.segmentNumber = some segment) :
    restoreRecord pid blockSize record m sticks =
      some (true, m, (writeToSticks (segment.base + blockSize * record.segmentBlockNumber)
        (record.content.take
          (blockBytes record.segmentSize blockSize record.segmentBlockNumber)) sticks).2) := by
  unfold restoreRecord
  rw [if_neg hnumber]
  show (findSegment m pid record.segmentNumber).map _ = _
  rw [hfind, Option.map_some]

/-- The first record of a segment whose segment cannot be made. -/
lemma restoreRecord_of_failure {failure : Message} (hnumber : record.segmentBlockNumber = 0)
    (hregen : regenerateSegment record.segmentNumber pid record.segmentSize m =
      (some failure, m₁)) :
    restoreRecord pid blockSize record m sticks = some (false, m₁, sticks) := by
  unfold restoreRecord
  rw [if_pos hnumber, hregen]

/-- The first record of a segment is written at the segment's base. -/
lemma restoreRecord_of_first (hnumber : record.segmentBlockNumber = 0)
    (hregen : regenerateSegment record.segmentNumber pid record.segmentSize m = (none, m₁))
    (hfind : findSegment m₁ pid record.segmentNumber = some segment) :
    restoreRecord pid blockSize record m sticks =
      some (true, m₁, (writeToSticks segment.base
        (record.content.take (blockBytes record.segmentSize blockSize 0)) sticks).2) := by
  unfold restoreRecord
  rw [if_pos hnumber, hregen]
  show (findSegment m₁ pid record.segmentNumber).map _ = _
  rw [hfind, Option.map_some, hnumber, mul_zero, add_zero]

end Record

/-- Two lists of records. -/
lemma restoreRecords_append (pid blockSize : ℕ) (l m : List BlockRecord) (memory : MainMemory)
    (sticks : List Stick) :
    restoreRecords pid blockSize (l ++ m) memory sticks =
      (restoreRecords pid blockSize l memory sticks).bind fun restored =>
        if restored.1 then restoreRecords pid blockSize m restored.2.1 restored.2.2
        else some restored := by
  induction l generalizing memory sticks with
  | nil => rfl
  | cons record rest ih =>
    rw [List.cons_append, restoreRecords, restoreRecords]
    cases restoreRecord pid blockSize record memory sticks with
    | none => rfl
    | some restored =>
      simp only [Option.bind_some]
      split
      · exact ih _ _
      · rename_i hfail
        simp [hfail]

section Loop

variable {pid i : ℕ} {r₀ r : Resumption}

/-- `resume_block` restores the record of its block. -/
lemma resumeBlock_eq {block : BlockData} {content : List UInt8}
    (hcontent : r.swapData.disk[block.blockNumber]? = some content)
    (hblock : block.blockNumber < r.swapData.blockList.length) :
    (resumeBlock block pid r).map
        (fun resumed => (resumed.2.1, resumed.2.2.mainMemory, resumed.2.2.connectedSticks)) =
      restoreRecord pid r.swapData.blockSize (BlockRecord.of (block, content)) r.mainMemory
        r.connectedSticks := by
  rcases hregen : (if block.segmentBlockNumber = 0 then
    regenerateSegment block.segmentNumber pid block.segmentSize r.mainMemory
    else (none, r.mainMemory)) with ⟨failure, memory⟩
  have hregen' : (if (BlockRecord.of (block, content)).segmentBlockNumber = 0 then
      regenerateSegment (BlockRecord.of (block, content)).segmentNumber pid
        (BlockRecord.of (block, content)).segmentSize r.mainMemory
      else (none, r.mainMemory)) = (failure, memory) := hregen
  unfold resumeBlock restoreRecord
  rw [hcontent, hregen, hregen']
  cases failure with
  | some failure => rfl
  | none =>
    simp only [computeAddressWithOffset, Option.map_map, BlockRecord.of]
    cases findSegment memory pid block.segmentNumber with
    | none => rfl
    | some segment => simp [removeBlockFromSwap, hblock]

/-- The records of the process from a position of the table on. -/
def recordsFrom (pid i : ℕ) (swapData : SwapData) : List BlockRecord :=
  ((swapData.slots.drop i).filter (isMarked fun q _ => q == pid)).map BlockRecord.of

/-- The records from a position on, by the block at the position. -/
lemma recordsFrom_eq {swapData : SwapData} {block : BlockData} {content : List UInt8}
    (hblock : swapData.blockList[i]? = some block) (hcontent : swapData.disk[i]? = some content) :
    recordsFrom pid i swapData =
      if block.pid = pid then BlockRecord.of (block, content) :: recordsFrom pid (i + 1) swapData
      else recordsFrom pid (i + 1) swapData := by
  have hslot : swapData.slots[i]? = some (block, content) := by
    rw [SwapData.slots, List.getElem?_zip_eq_some]
    exact ⟨hblock, hcontent⟩
  obtain ⟨hi, heq⟩ := List.getElem?_eq_some_iff.1 hslot
  rw [recordsFrom, List.drop_eq_getElem_cons hi, heq, List.filter_cons]
  by_cases hpid : block.pid = pid
  · rw [if_pos (by simpa [isMarked] using hpid), if_pos hpid]
    rfl
  · rw [if_neg (by simpa [isMarked] using hpid), if_neg hpid]
    rfl

/-- A block that was not restored has sent its failure. -/
lemma opCode_of_resumeBlock_false {block : BlockData} {r' : Resumption} {msgs : List Message}
    (h : resumeBlock block pid r = some (msgs, false, r'))
    (hblock : block.blockNumber < r.swapData.blockList.length) :
    ∀ m ∈ msgs, m.opCode = .resumeSuspensionFailed := by
  unfold resumeBlock at h
  dsimp only at h
  split at h
  · rename_i failure hfailure
    obtain ⟨rfl, -, -⟩ := by simpa using h
    intro m hm
    obtain rfl := List.mem_singleton.1 hm
    split at hfailure
    · exact opCode_of_regenerateSegment (Prod.ext hfailure rfl)
    · exact absurd hfailure (by simp)
  · obtain ⟨rfl, -⟩ := by simpa using h
    simp
  · obtain ⟨writeAddress, -, heq⟩ := Option.map_eq_some_iff.1 h
    simp only [Prod.mk.injEq, removeBlockFromSwap, decide_eq_false_iff_not] at heq
    exact absurd hblock heq.2.1

/-- **The loop of a resumption restores records**: those of the process from the position on. It
does not return only where restoring them does not, and answers with a success only when they were
all restored.

**Proof sketch.** Induction on the positions that are left: a block of another process is skipped
by both, and a block of the process is the first of the records that are left. -/
lemma resumeBlocks_restores {n : ℕ} {found : Bool} (h : ResumedUpTo pid r₀ i r)
    (hwf : r₀.swapData.WellFormed) (hn : i + n = r₀.swapData.blockList.length) :
    (restoreRecords pid r₀.swapData.blockSize (recordsFrom pid i r₀.swapData) r.mainMemory
        r.connectedSticks = none ∧ resumeBlocks pid (List.range' i n) found r = none) ∨
      ∃ restored msgs r', restoreRecords pid r₀.swapData.blockSize (recordsFrom pid i r₀.swapData)
          r.mainMemory r.connectedSticks = some restored ∧
        resumeBlocks pid (List.range' i n) found r = some (msgs, r') ∧
        restored.2 = (r'.mainMemory, r'.connectedSticks) ∧
        ((∃ m ∈ msgs, m.opCode = .resumeSuspensionOk) → restored.1 = true) := by
  induction n generalizing i r found with
  | zero =>
    right
    have hnone : recordsFrom pid i r₀.swapData = [] := by
      have hlen : r₀.swapData.slots.length = i := by
        rw [SwapData.slots, List.length_zip, hwf.length_disk, Nat.min_self]
        omega
      rw [recordsFrom, ← hlen, List.drop_length]
      rfl
    rw [hnone]
    exact ⟨_, _, r, rfl, rfl, rfl, fun _ => rfl⟩
  | succ n ih =>
    have hi : i < r₀.swapData.blockList.length := by omega
    obtain ⟨block, hblock⟩ : ∃ block, r₀.swapData.blockList[i]? = some block :=
      ⟨_, List.getElem?_eq_getElem hi⟩
    obtain ⟨content, hcontent⟩ : ∃ content, r₀.swapData.disk[i]? = some content :=
      ⟨_, List.getElem?_eq_getElem (by rw [hwf.length_disk]; exact hi)⟩
    have hhere : r.swapData.blockList[i]? = some block := by rw [h.getElem?, hblock]
    have hnumber : block.blockNumber = i := hwf.numbered i block hblock
    have hsize : r.swapData.blockSize = r₀.swapData.blockSize := by rw [h.swapData]
    rw [List.range'_succ, resumeBlocks, hhere, Option.bind_some, recordsFrom_eq hblock hcontent]
    by_cases hpid : block.pid = pid
    · rw [if_pos hpid, if_pos hpid, restoreRecords]
      have hlength : block.blockNumber < r.swapData.blockList.length := by
        rw [hnumber, h.length_blockList]
        exact hi
      have hrecord := @resumeBlock_eq pid r block content
        (by rw [hnumber, h.swapData]; exact hcontent) hlength
      rw [hsize] at hrecord
      rw [← hrecord]
      cases hrun : resumeBlock block pid r with
      | none => exact .inl ⟨rfl, rfl⟩
      | some resumed =>
        obtain ⟨msgs, ok, r'⟩ := resumed
        cases ok with
        | true =>
          obtain ⟨-, hnext⟩ | ⟨hfalse, -⟩ := h.resumeBlock hwf hblock hpid hrun
          · have hrest := @ih (i + 1) r' true hnext (by omega)
            rcases hrest with
              ⟨hnone, hloop⟩ | ⟨restored, msgs', r'', hsome, hloop, hstate, hok⟩
            · left
              simp only [Option.map_some, Option.bind_some, if_true, hnone, hloop, Option.map_none,
                and_self]
            · right
              refine ⟨restored, msgs ++ msgs', r'', ?_, ?_, hstate, ?_⟩
              · simpa only [Option.map_some, Option.bind_some, if_true] using hsome
              · simp only [Option.bind_some, if_true, hloop, Option.map_some]
              · rintro ⟨m, hm, hcode⟩
                rcases List.mem_append.1 hm with hm | hm
                · rw [opCode_of_resumeBlock hrun m hm] at hcode
                  exact absurd hcode (by decide)
                · exact hok ⟨m, hm, hcode⟩
          · exact absurd hfalse (by simp)
        | false =>
          right
          refine ⟨(false, r'.mainMemory, r'.connectedSticks), msgs, r', rfl, rfl, rfl, ?_⟩
          rintro ⟨m, hm, hcode⟩
          rw [opCode_of_resumeBlock_false hrun hlength m hm] at hcode
          exact absurd hcode (by decide)
    · rw [if_neg hpid, if_neg hpid]
      exact ih (h.skip hblock hpid) (by omega)

end Loop

/-! ## The records of a segment -/

/-- The id and the bytes of a segment. -/
structure Image where
  id : ℕ
  data : List UInt8
  deriving DecidableEq, Repr

/-- The record of block `i` of a segment. -/
def imageRecord (pid blockSize : ℕ) (image : Image) (i : ℕ) : BlockRecord :=
  ⟨pid, image.id, i, image.data.length, slice image.data (i * blockSize) blockSize ++
    List.replicate (blockSize - (slice image.data (i * blockSize) blockSize).length) 0⟩

/-- The records of a segment. -/
def imageRecords (pid blockSize : ℕ) (image : Image) : List BlockRecord :=
  (List.range (segmentBlockCount image.data.length blockSize)).map
    (imageRecord pid blockSize image)

section Image

variable {pid blockSize : ℕ} {image : Image} {m m' : MainMemory} {sticks : List Stick}

/-- A block has a byte of the segment. -/
lemma lt_segmentBlockCount (hpos : 0 < blockSize) (n i : ℕ) :
    i < segmentBlockCount n blockSize ↔ i * blockSize < n := by
  rw [segmentBlockCount_natCast n hpos, ← Nat.succ_le_iff, Nat.le_div_iff_mul_le hpos, Nat.succ_mul]
  omega

/-- The bytes of a block are as many as the segment has in it. -/
lemma blockBytes_eq (n i : ℕ) : blockBytes n blockSize i = min (n - i * blockSize) blockSize := by
  unfold blockBytes
  have hcast : ((i : ℤ) * blockSize) = ((i * blockSize : ℕ) : ℤ) := by push_cast; rfl
  rw [hcast]
  omega

/-- What a restored block writes. -/
lemma take_content (image : Image) (i : ℕ) :
    (imageRecord pid blockSize image i).content.take
        (blockBytes image.data.length blockSize i) =
      slice image.data (i * blockSize) blockSize := by
  have hlen : (slice image.data (i * blockSize) blockSize).length =
      min (image.data.length - i * blockSize) blockSize := by
    simp only [slice, List.length_take, List.length_drop]
    omega
  rw [blockBytes_eq, ← hlen]
  exact List.take_left' rfl

/-- Bytes are written from a block on by writing the block and then the blocks behind it. -/
lemma splice_block {data l : List UInt8} {b : ℕ} (h : b + data.length ≤ l.length) (i : ℕ) :
    splice l (b + i * blockSize) (data.drop (i * blockSize)) =
      splice (splice l (b + i * blockSize) (slice data (i * blockSize) blockSize))
        (b + (i + 1) * blockSize) (data.drop ((i + 1) * blockSize)) := by
  have hcut : data.drop (i * blockSize) =
      slice data (i * blockSize) blockSize ++ data.drop ((i + 1) * blockSize) := by
    rw [slice, Nat.succ_mul, ← List.drop_drop, List.take_append_drop]
  by_cases hshort : data.length ≤ (i + 1) * blockSize
  · -- nothing is left behind the block
    rw [hcut, List.drop_eq_nil_of_le hshort, splice_nil, List.append_nil]
  · have hlt : (i + 1) * blockSize ≤ data.length := (not_le.1 hshort).le
    rw [Nat.succ_mul] at hlt
    have hfull : (slice data (i * blockSize) blockSize).length = blockSize := length_slice hlt
    rw [hcut, splice_append_data, hfull, Nat.succ_mul, Nat.add_assoc]
    rw [List.length_drop, hfull, Nat.succ_mul]
    omega

/-- **The blocks of a segment behind its first one** are written one behind the other.

**Proof sketch.** Induction on the blocks. A block writes the next part of the bytes, and the rest
of them is written by the blocks behind it (`splice_append_data`). The last block may be short, and
then nothing is left behind it. -/
lemma restoreRecords_blocks {segment : Segment} {b : ℕ} (hpos : 0 < blockSize)
    (hfind : findSegment m pid image.id = some segment) (hbase : segment.base = b)
    {n i : ℕ} (hi : 0 < i) (hn : i + n = segmentBlockCount image.data.length blockSize)
    (hcover : b + image.data.length ≤ (bytesOf sticks).length) :
    ∃ sticks', restoreRecords pid blockSize
        ((List.range' i n).map (imageRecord pid blockSize image)) m sticks =
          some (true, m, sticks') ∧
      bytesOf sticks' =
        splice (bytesOf sticks) (b + i * blockSize) (image.data.drop (i * blockSize)) := by
  induction n generalizing i sticks with
  | zero =>
    have hend : image.data.length ≤ i * blockSize := by
      have := (lt_segmentBlockCount hpos image.data.length i).2.mt (by omega)
      omega
    refine ⟨sticks, rfl, ?_⟩
    rw [List.drop_eq_nil_of_le hend, splice_nil]
  | succ n ih =>
    have hlt : i * blockSize < image.data.length :=
      (lt_segmentBlockCount hpos image.data.length i).1 (by omega)
    set block := slice image.data (i * blockSize) blockSize with hblock
    have hlen : block.length = min (image.data.length - i * blockSize) blockSize := by
      simp only [hblock, slice, List.length_take, List.length_drop]
      omega
    have hfits : b + i * blockSize + block.length ≤ (bytesOf sticks).length := by omega
    obtain ⟨-, hwritten⟩ := bytesOf_writeToSticks hfits
    set written := (writeToSticks ((b + i * blockSize : ℕ) : ℤ) block sticks).2 with hw
    have hrecord : restoreRecord pid blockSize (imageRecord pid blockSize image i) m sticks =
        some (true, m, written) := by
      have hnumber : (imageRecord pid blockSize image i).segmentBlockNumber ≠ 0 := by
        show (i : ℤ) ≠ 0
        omega
      have haddress : segment.base + (blockSize : ℤ) * i = ((b + i * blockSize : ℕ) : ℤ) := by
        rw [hbase, Nat.cast_add, Nat.cast_mul, mul_comm]
      rw [restoreRecord_of_next hnumber hfind, hw, ← haddress, hblock,
        ← @take_content pid blockSize image i]
      rfl
    obtain ⟨sticks', hrest, hbytes⟩ := @ih written (i + 1) (by omega) (by omega) (by
      rw [hwritten, length_splice hfits]
      exact hcover)
    refine ⟨sticks', ?_, ?_⟩
    · rw [List.range'_succ, List.map_cons, restoreRecords, hrecord]
      exact hrest
    · rw [hbytes, hwritten]
      exact (splice_block hcover i).symm

/-- A segment that takes a hole lies in the memory. -/
lemma Takes.inside {segment : Segment} (h : Layout m) (htakes : Takes m m' segment) :
    0 ≤ segment.base ∧ segment.base + segment.size ≤ m.totalSize := by
  obtain ⟨pre, hole, post, hlist, hbase, hsize, -⟩ := htakes
  have hin := h.hole (show hole ∈ m.holes by rw [hlist]; simp)
  omega

/-- The segment that is taken is the last one. -/
lemma Takes.segments {segment : Segment} (htakes : Takes m m' segment) :
    m'.segments = m.segments ++ [segment] := by
  obtain ⟨pre, hole, post, -, -, -, rfl⟩ := htakes
  rfl

/-- The segments of the process of a segment that takes a hole. -/
lemma Takes.filterProcessSegments {segment : Segment} (htakes : Takes m m' segment) :
    filterProcessSegments segment.pid m' =
      OsSimulator.Memory.filterProcessSegments segment.pid m ++ [segment] := by
  rw [OsSimulator.Memory.filterProcessSegments, htakes.segments, List.filter_append]
  simp [OsSimulator.Memory.filterProcessSegments]

/-- **The records of a segment** whose id is the number of segments the process has: either no hole
is found and nothing happens, or the segment gets a hole and its bytes are in it. -/
lemma restoreRecords_image (h : Layout m) (hpos : 0 < blockSize)
    (hlen : ((bytesOf sticks).length : ℤ) = m.totalSize) (hne : image.data ≠ [])
    (hmax : (image.data.length : ℤ) ≤ INT_MAX)
    (hshrinks : ShrinksChosen (u32 image.data.length) m)
    (hid : (filterProcessSegments pid m).length = image.id) :
    (restoreRecords pid blockSize (imageRecords pid blockSize image) m sticks =
        some (false, m, sticks)) ∨
      ∃ m' sticks', ∃ b : ℕ, regenerateSegment image.id pid image.data.length m = (none, m') ∧
        Takes m m' ⟨image.id, pid, b, image.data.length⟩ ∧
        restoreRecords pid blockSize (imageRecords pid blockSize image) m sticks =
          some (true, m', sticks') ∧
        b + image.data.length ≤ (bytesOf sticks).length ∧
        bytesOf sticks' = splice (bytesOf sticks) b image.data := by
  have hcount : 0 < segmentBlockCount image.data.length blockSize :=
    (lt_segmentBlockCount hpos image.data.length 0).2 (by
      rw [zero_mul]
      exact List.length_pos_of_ne_nil hne)
  obtain ⟨n, hn⟩ := Nat.exists_eq_succ_of_ne_zero hcount.ne'
  rw [imageRecords, hn, List.range_eq_range', List.range'_succ, List.map_cons, restoreRecords]
  rcases regenerateSegment_cases image.id pid h (Int.natCast_nonneg _) hmax hshrinks with
    ⟨failure, hregen⟩ | ⟨m', hregen, htakes⟩
  · left
    rw [restoreRecord_of_failure rfl hregen]
    rfl
  · right
    set base := (selectHole (u32 image.data.length) m).1.base with hbase
    obtain ⟨hlow, hhigh⟩ := htakes.inside h
    obtain ⟨b, hb⟩ : ∃ b : ℕ, base = b := Int.eq_ofNat_of_zero_le hlow
    have hfind : findSegment m' pid image.id = some ⟨image.id, pid, base, image.data.length⟩ := by
      have hsegments := htakes.filterProcessSegments
      rw [findSegment_eq]
      show (filterProcessSegments pid m')[image.id]? = _
      rw [show filterProcessSegments pid m' = filterProcessSegments pid m ++ _ from hsegments,
        ← hid, List.getElem?_concat_length]
    have hcover : b + image.data.length ≤ (bytesOf sticks).length := by
      rw [hb] at hhigh
      have : (b : ℤ) + image.data.length ≤ m.totalSize := hhigh
      omega
    -- the first block, at the base of the segment
    have hfits : b + (slice image.data (0 * blockSize) blockSize).length ≤
        (bytesOf sticks).length := by
      simp only [slice, List.length_take, List.length_drop]
      omega
    obtain ⟨-, hwritten⟩ := bytesOf_writeToSticks hfits
    set written := (writeToSticks (b : ℤ) (slice image.data (0 * blockSize) blockSize) sticks).2
      with hw
    have hrecord : restoreRecord pid blockSize (imageRecord pid blockSize image 0) m sticks =
        some (true, m', written) := by
      rw [restoreRecord_of_first rfl hregen hfind, hw, ← @take_content pid blockSize image 0, hb]
      rfl
    obtain ⟨sticks', hrest, hbytes⟩ := @restoreRecords_blocks pid blockSize image m' written _ b hpos
      hfind hb n 1 (by omega) (by omega) (by
        rw [hwritten, length_splice hfits]
        exact hcover)
    refine ⟨m', sticks', b, hregen, ?_, ?_, hcover, ?_⟩
    · rwa [hb] at htakes
    · rw [hrecord]
      exact hrest
    · rw [hbytes, hwritten]
      have hblocks := @splice_block blockSize image.data (bytesOf sticks) b hcover 0
      simp only [zero_mul, add_zero, zero_add, List.drop_zero] at hblocks ⊢
      exact hblocks.symm

end Image

/-! ## The records of several segments -/

/-- The bytes of a segment. -/
def segmentBytes (sticks : List Stick) (s : Segment) : List UInt8 :=
  slice (bytesOf sticks) s.base.toNat s.size.toNat

/-- The id and the bytes of a segment in memory. -/
def imageOf (sticks : List Stick) (s : Segment) : Image := ⟨s.id, segmentBytes sticks s⟩

section Images

variable {pid blockSize : ℕ} {m : MainMemory} {sticks sticks' : List Stick}

/-- A segment that lies in the sticks has as many bytes as its size says. -/
lemma length_segmentBytes {s : Segment}
    (hs : 0 ≤ s.base ∧ 0 ≤ s.size ∧ s.base + s.size ≤ (bytesOf sticks).length) :
    ((segmentBytes sticks s).length : ℤ) = s.size := by
  rw [segmentBytes, length_slice (by omega)]
  omega

/-- What a round of a suspension reads. -/
lemma readFromSticks_block {s : Segment} {i : ℕ}
    (hs : 0 ≤ s.base ∧ 0 ≤ s.size ∧ s.base + s.size ≤ (bytesOf sticks).length)
    (hpos : 0 < blockSize) (hi : i < segmentBlockCount s.size blockSize) :
    readFromSticks (s.base + i * blockSize) (blockBytes s.size blockSize i) sticks =
      some (slice (segmentBytes sticks s) (i * blockSize) blockSize) := by
  obtain ⟨b, hb⟩ := Int.eq_ofNat_of_zero_le hs.1
  obtain ⟨n, hn⟩ := Int.eq_ofNat_of_zero_le hs.2.1
  rw [hn, lt_segmentBlockCount hpos] at hi
  have haddress : s.base + (i : ℤ) * blockSize = ((b + i * blockSize : ℕ) : ℤ) := by
    rw [hb, Nat.cast_add, Nat.cast_mul]
  rw [haddress, hn, blockBytes_eq, readFromSticks_eq (by omega), segmentBytes, slice_slice, hb, hn,
    Int.toNat_natCast, Int.toNat_natCast]

/-- **A suspension stores the records of the segment's bytes.** -/
lemma segmentRecords_eq {s : Segment}
    (hs : 0 ≤ s.base ∧ 0 ≤ s.size ∧ s.base + s.size ≤ (bytesOf sticks).length)
    (hpos : 0 < blockSize) :
    segmentRecords sticks blockSize s = imageRecords s.pid blockSize (imageOf sticks s) := by
  have hlen := length_segmentBytes hs
  rw [segmentRecords, imageRecords, show (imageOf sticks s).data = segmentBytes sticks s from rfl,
    hlen]
  refine List.map_congr_left fun i hi => ?_
  rw [blockRecord, imageRecord, readFromSticks_block hs hpos (List.mem_range.1 hi),
    Option.getD_some, show (imageOf sticks s).data = segmentBytes sticks s from rfl, hlen]
  rfl

/-- A write to a segment leaves the bytes of a segment that lies apart from it. -/
lemma segmentBytes_of_splice {s t : Segment} {b : ℕ} {data : List UInt8}
    (hs : 0 ≤ s.base ∧ 0 ≤ s.size) (hbase : t.base = b) (hsize : t.size = data.length)
    (hapart : Apart s.extent t.extent) (hcover : b + data.length ≤ (bytesOf sticks).length)
    (hbytes : bytesOf sticks' = splice (bytesOf sticks) b data) :
    segmentBytes sticks' s = segmentBytes sticks s := by
  unfold segmentBytes
  by_cases hempty : s.size = 0
  · rw [hempty, Int.toNat_zero, slice_zero, slice_zero]
  · by_cases hnil : data.length = 0
    · rw [hbytes, List.eq_nil_of_length_eq_zero hnil, splice_nil]
    · have hnot := apart_iff.1 hapart
      have h₁ := hnot s.base
      have h₂ := hnot t.base
      simp only [Segment.extent, Extent.stop] at h₁ h₂
      rw [hbytes]
      refine slice_splice_of_disjoint hcover ?_
      omega

/-- **The records of segments** whose ids are the next positions of the process. They are restored
as far as holes are found, and when all are restored, the process has the segments with their bytes,
and every segment that was in memory has the bytes it had.

**Proof sketch.** Induction on the segments. The hole of a segment lies apart from the segments in
memory, so what is written to it changes none of them (`segmentBytes_of_splice`), and the rest of
the records does not change it. -/
lemma restoreRecords_images {images : List Image} {blocks : List BlockData} (h : Layout m)
    (hpos : 0 < blockSize) (hlen : ((bytesOf sticks).length : ℤ) = m.totalSize)
    (himages : ∀ image ∈ images, image.data ≠ [] ∧ (image.data.length : ℤ) ≤ INT_MAX)
    (hids : images.map Image.id =
      List.range' (filterProcessSegments pid m).length images.length)
    (hblocks : blocks.map (fun b => (b.segmentNumber, b.segmentSize)) =
      images.map fun image => (image.id, (image.data.length : ℤ)))
    (hok : Admitted memoryStep (fun m op => op.ShrinksChosen m) m (regenerations pid blocks m)) :
    (∃ restored, restoreRecords pid blockSize (images.flatMap (imageRecords pid blockSize)) m
        sticks = some (false, restored)) ∨
      ∃ m' sticks' new, restoreRecords pid blockSize (images.flatMap (imageRecords pid blockSize))
          m sticks = some (true, m', sticks') ∧
        m'.segments = m.segments ++ new ∧ (∀ s ∈ new, s.pid = pid) ∧
        new.map (imageOf sticks') = images ∧
        (∀ s ∈ m.segments, segmentBytes sticks' s = segmentBytes sticks s) ∧
        Layout m' ∧ m'.totalSize = m.totalSize ∧
        (bytesOf sticks').length = (bytesOf sticks).length := by
  induction images generalizing blocks m sticks with
  | nil =>
    exact .inr ⟨m, sticks, [], rfl, (List.append_nil _).symm, by simp, rfl, fun _ _ => rfl, h, rfl,
      rfl⟩
  | cons image rest ih =>
    obtain ⟨hne, hmax⟩ := himages image List.mem_cons_self
    cases blocks with
    | nil => exact absurd hblocks (by simp)
    | cons block blocks =>
      simp only [List.map_cons, List.cons.injEq, Prod.mk.injEq] at hblocks
      obtain ⟨⟨hnumber, hsize⟩, hblocks⟩ := hblocks
      rw [List.map_cons, List.length_cons, List.range'_succ, List.cons.injEq] at hids
      obtain ⟨hid, hids⟩ := hids
      rw [regenerations, hnumber, hsize] at hok
      obtain ⟨hshrinks, hrest⟩ := hok
      rw [List.flatMap_cons, restoreRecords_append]
      rcases restoreRecords_image h hpos hlen hne hmax hshrinks hid.symm with
        hfailed | ⟨m₁, sticks₁, b, hregen, htakes, hrestored, hcover, hbytes⟩
      · left
        rw [hfailed]
        exact ⟨_, rfl⟩
      · rw [hrestored]
        obtain ⟨old, fresh, hex, -⟩ := exchanged_taken h htakes (Int.natCast_nonneg _)
        have hlayout := h.exchanged hex
        have htotal : m₁.totalSize = m.totalSize := hex.parameters.totalSize
        have hsame : (bytesOf sticks₁).length = (bytesOf sticks).length := by
          rw [hbytes, length_splice hcover]
        have hcount : (filterProcessSegments pid m₁).length =
            (filterProcessSegments pid m).length + 1 := by
          rw [show filterProcessSegments pid m₁ = filterProcessSegments pid m ++ _ from
            htakes.filterProcessSegments, List.length_append, List.length_singleton]
        have hnext := hrest m₁ (by simp only [memoryStep, hregen])
        rw [hregen] at hnext
        simp only [if_true] at hnext
        -- what was in memory has its bytes, and the new segment has those of the image
        have hbefore : ∀ s ∈ m.segments, segmentBytes sticks₁ s = segmentBytes sticks s := by
          intro s hs
          have hin := h.segment hs
          refine @segmentBytes_of_splice sticks sticks₁ s ⟨image.id, pid, b, image.data.length⟩ b
            image.data ⟨hin.1, hin.2.1⟩ rfl rfl ?_ hcover hbytes
          have hsegments := (List.pairwise_append.1 hlayout.fits.apart).1
          rw [htakes.segments, List.map_append, List.pairwise_append] at hsegments
          exact hsegments.2.2 _ (List.mem_map_of_mem hs) _ (List.mem_singleton_self _)
        have hnew : segmentBytes sticks₁ ⟨image.id, pid, b, image.data.length⟩ = image.data := by
          show slice (bytesOf sticks₁) (b : ℤ).toNat (image.data.length : ℤ).toNat = _
          rw [Int.toNat_natCast, Int.toNat_natCast, hbytes, slice_splice_self hcover]
        rcases ih hlayout (by rw [hsame, hlen, htotal])
          (fun i hi => himages i (List.mem_cons_of_mem image hi)) (by rw [hcount, hids]) hblocks
          hnext with ⟨restored, hfailed⟩ |
          ⟨m', sticks', new, hrun, hsegments, hpids, hnews, hkept, hlayout', htotal', hlen'⟩
        · exact .inl ⟨restored, hfailed⟩
        · refine .inr ⟨m', sticks', ⟨image.id, pid, b, image.data.length⟩ :: new, hrun, ?_, ?_, ?_,
            ?_, hlayout', htotal'.trans htotal, hlen'.trans hsame⟩
          · rw [hsegments, htakes.segments, List.append_assoc, List.singleton_append]
          · intro s hs
            rcases List.mem_cons.1 hs with rfl | hs
            · rfl
            · exact hpids s hs
          · have hmem : (⟨image.id, pid, b, image.data.length⟩ : Segment) ∈ m₁.segments := by
              rw [htakes.segments]
              exact List.mem_append_right _ (List.mem_singleton_self _)
            rw [List.map_cons, hnews, imageOf, hkept _ hmem, hnew]
          · intro s hs
            have hmem : s ∈ m₁.segments := by
              rw [htakes.segments]
              exact List.mem_append_left _ hs
            rw [hkept s hmem, hbefore s hs]

end Images

end OsSimulator.Memory
