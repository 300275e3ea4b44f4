import Mathlib.Algebra.Order.Floor.Div
import OsSimulator.Memory.Homes

set_option relaxedAutoImplicit false
set_option autoImplicit false

/-!
# The order of the blocks in swap

`resume_process` goes once through the block table and makes a segment when it meets its block 0,
"because blocks of the same segment are assumed to be in order due to the logic of find_free_block".
A suspension that finds the swap full leaves a part of a segment there, and a segment that is stored
while it has blocks in swap is there twice. This file decides when the assumption holds.

## Main definitions

* `BlocksInOrder` — the blocks of every segment are in order, without a gap and without a
  repetition.
* `StoredWhole` — the segments of a process find room for all their blocks, and have none in swap.
* `KeepsOrder` — the condition on an event.

## Main results

* `tableInOrder_storeRecords_iff`, `tableInOrder_resumeProcess_iff` — what a suspension and a
  resumption leave.
* `blocksInOrder_iff` — the blocks are in order all along a run exactly when its events meet the
  condition.
-/

namespace OsSimulator.Memory

/-- The entries of a segment, in table order. -/
def SwapData.entriesOf (pid id : ℕ) (swapData : SwapData) : List BlockData :=
  swapData.blockList.filter fun block => block.pid == pid && block.segmentNumber == id

/-- **The blocks of every segment are in order**: the entries with a pid and a segment number are
those of the blocks `0`, `1`, ... of a segment of one size, in table order. The entries with the pid
`-1` are free. -/
def BlocksInOrder (k : KernelMemory) : Prop :=
  ∀ swapData ∈ k.swapData, ∀ pid, pid ≠ UINT32_MAX → ∀ id, ∃ size : ℕ,
    (swapData.entriesOf pid id).map (fun block => (block.segmentBlockNumber, block.segmentSize)) =
      (List.range (size ⌈/⌉ swapData.blockSize)).map fun i : ℕ => ((i : ℤ), (size : ℤ))

/-- **Segments are stored whole** in a table with so many free blocks: each that finds a free block
finds one for all its blocks, and is not one of those that have blocks in swap. -/
def StoredWhole (blockSize : ℕ) : ℕ → List ℕ → List Segment → Prop
  | _, _, [] => True
  | free, ids, segment :: rest =>
    let count := segmentBlockCount segment.size blockSize
    (0 < count → 0 < free → count ≤ free ∧ segment.id ∉ ids) ∧
      StoredWhole blockSize (free - count) (if 0 < count then segment.id :: ids else ids) rest

/-- The events after which the blocks are in order. -/
def KeepsOrder (k : KernelMemory) : Event → Prop
  | .suspendProcess pid => pid ∈ k.processes → pid ≠ UINT32_MAX → ∀ swapData ∈ k.swapData,
      StoredWhole swapData.blockSize (swapData.blockList.countP BlockData.isFree)
        ((swapData.blockList.filter fun block => block.pid == pid).map BlockData.segmentNumber)
        (filterProcessSegments pid k.mainMemory)
  | .resumeProcess pid => pid ≠ UINT32_MAX → StopsBetweenSegments pid k
  | _ => True

/-! ## Blocks in order -/

/-- The blocks of every segment in a table are in order. -/
def TableInOrder (swapData : SwapData) : Prop :=
  ∀ pid, pid ≠ UINT32_MAX → ∀ id, IsBlockSet swapData.blockSize (blocksOf pid id swapData)

section Sets

variable {pid id blockSize : ℕ} {records : List BlockRecord} {swapData : SwapData}

/-- The blocks of a segment in swap are numbered as the blocks of a segment of some size. -/
lemma isBlockSet_iff (hpos : 0 < blockSize) : IsBlockSet blockSize records ↔ ∃ size : ℕ,
    records.map (fun r => (r.segmentBlockNumber, r.segmentSize)) =
      (List.range (size ⌈/⌉ blockSize)).map fun i : ℕ => ((i : ℤ), (size : ℤ)) := by
  constructor
  · rintro ⟨size, hset⟩
    rcases le_or_gt size 0 with hle | hlt
    · rw [segmentBlockCount_of_nonpos hle] at hset
      exact ⟨0, by rw [hset, zero_ceilDiv]; rfl⟩
    · obtain ⟨n, rfl⟩ := Int.eq_ofNat_of_zero_le hlt.le
      exact ⟨n, by rw [hset, segmentBlockCount_natCast n hpos, Nat.ceilDiv_eq_add_pred_div]⟩
  · rintro ⟨n, hset⟩
    exact ⟨n, by rw [hset, segmentBlockCount_natCast n hpos, Nat.ceilDiv_eq_add_pred_div]⟩

/-- The entries of a segment are those of its records. -/
lemma map_entriesOf (hlen : swapData.disk.length = swapData.blockList.length) :
    (swapData.entriesOf pid id).map (fun block => (block.segmentBlockNumber, block.segmentSize)) =
      (blocksOf pid id swapData).map fun r => (r.segmentBlockNumber, r.segmentSize) := by
  rw [SwapData.entriesOf, blocksOf, savedBlocks, ← map_fst_slots hlen, List.filter_map,
    List.map_map, List.map_map]
  rfl

/-- The blocks are in order if their records are. -/
lemma blocksInOrder_iff_tableInOrder {k : KernelMemory}
    (hwf : ∀ swapData ∈ k.swapData, swapData.WellFormed) :
    BlocksInOrder k ↔ ∀ swapData ∈ k.swapData, TableInOrder swapData := by
  refine forall₂_congr fun swapData hs => ?_
  refine forall₃_congr fun pid hpid id => ?_
  rw [isBlockSet_iff (hwf swapData hs).blockSize_pos, map_entriesOf (hwf swapData hs).length_disk]

/-- The segments with blocks in the table. -/
lemma mem_ids_iff (hlen : swapData.disk.length = swapData.blockList.length) :
    id ∈ (swapData.blockList.filter fun block => block.pid == pid).map BlockData.segmentNumber ↔
      blocksOf pid id swapData ≠ [] := by
  rw [List.mem_map]
  constructor
  · rintro ⟨block, hblock, rfl⟩
    obtain ⟨hmem, hpid⟩ := List.mem_filter.1 hblock
    exact blocksOf_ne_nil hlen hmem (by simpa using hpid) rfl
  · intro hne
    rw [Ne, blocksOf_eq_nil] at hne
    push Not at hne
    obtain ⟨slot, hslot, hmark⟩ := hne
    simp only [isMarked, ne_eq, Bool.not_eq_false, Bool.and_eq_true, beq_iff_eq] at hmark
    refine ⟨slot.1, List.mem_filter.2 ⟨(List.of_mem_zip hslot).1, ?_⟩, hmark.2⟩
    simpa using hmark.1

/-- The block is the first one of the segment. -/
def BlockData.isFirstOf (pid id : ℕ) (block : BlockData) : Bool :=
  block.isFirst pid && block.segmentNumber == id

/-- Two first blocks of one segment are out of order. -/
lemma not_tableInOrder_of_countP (id : ℕ) (hpid : pid ≠ UINT32_MAX)
    (hlen : swapData.disk.length = swapData.blockList.length)
    (htwo : 2 ≤ swapData.blockList.countP (BlockData.isFirstOf pid id)) :
    ¬ TableInOrder swapData := by
  intro hin
  have hone : swapData.blockList.countP (BlockData.isFirstOf pid id) ≤ 1 :=
    countP_isFirst_le (hin pid hpid id) hlen
  omega

/-- A segment with a block in a table in order has its first one there. -/
lemma countP_isFirstOf_pos (hset : IsBlockSet swapData.blockSize (blocksOf pid id swapData))
    (hlen : swapData.disk.length = swapData.blockList.length)
    (hne : blocksOf pid id swapData ≠ []) :
    0 < swapData.blockList.countP (BlockData.isFirstOf pid id) := by
  have hmem : ∃ slot ∈ swapData.slots.take swapData.blockList.length,
      isMarked (fun p n => p == pid && n == id) slot = true := by
    rw [Ne, blocksOf_eq_nil] at hne
    push Not at hne
    obtain ⟨slot, hslot, hmark⟩ := hne
    refine ⟨slot, ?_, by simpa using hmark⟩
    rwa [List.take_of_length_le (by simp [SwapData.slots, hlen])]
  obtain ⟨first, hfirst, hzero, hid⟩ := exists_first_of_take hset hmem
  refine List.countP_pos_iff.2 ⟨first, List.mem_of_mem_take hfirst, ?_⟩
  simp [BlockData.isFirstOf, hzero, hid]

end Sets

/-! ## A suspension -/

section Suspension

variable {pid id : ℕ} {sticks : List Stick} {segment : Segment} {segments : List Segment}
  {records : List BlockRecord} {swapData swapData' : SwapData}

/-- A record that is stored is one entry more of those that it is one of. -/
lemma countP_storeRecord {record : BlockRecord} (id : ℕ) (hpid : pid ≠ UINT32_MAX)
    (h : storeRecord record swapData = some swapData') :
    swapData'.blockList.countP (BlockData.isFirstOf pid id) =
      swapData.blockList.countP (BlockData.isFirstOf pid id) +
        if record.pid = pid ∧ record.segmentBlockNumber = 0 ∧ record.segmentNumber = id then 1
        else 0 := by
  obtain ⟨n, hn, rfl⟩ := Option.map_eq_some_iff.1 h
  obtain ⟨pre, b, post, hlist, rfl, -, hb⟩ := exists_of_firstFree hn
  have hfree : b.isFirstOf pid id = false := by
    have hmax : b.pid = UINT32_MAX := by simpa [BlockData.isFree] using hb
    simp [BlockData.isFirstOf, BlockData.isFirst, hmax, Ne.symm hpid]
  simp only [hlist, modify_append_length]
  rw [countP_fill_of_not hfree]
  simp [BlockData.isFirstOf, BlockData.isFirst, BlockRecord.entry, and_assoc]

/-- The first blocks of the segments stay, whether all the records find a place or not. -/
lemma countP_le_storeRecords (hpid : pid ≠ UINT32_MAX) :
    swapData.blockList.countP (BlockData.isFirstOf pid id) ≤
      (storeRecords records swapData).2.blockList.countP (BlockData.isFirstOf pid id) := by
  induction records generalizing swapData with
  | nil => exact le_refl _
  | cons record rest ih =>
    rw [storeRecords]
    cases hstore : storeRecord record swapData with
    | none => exact le_refl _
    | some swapData' =>
      have hcount := countP_storeRecord id hpid hstore
      exact le_trans (by omega) ih

/-- Records that are stored keep the swap well formed. -/
lemma wellFormed_storeRecords (records : List BlockRecord) (hwf : swapData.WellFormed) :
    (storeRecords records swapData).2.WellFormed :=
  wellFormed_iff.2 (swapSizes_storeRecords (wellFormed_iff.1 hwf) fun _ _ => trivial)

/-- Of records with a real pid those that find a free block are stored. -/
lemma storeRecords_take (swapData : SwapData)
    (hreal : ∀ record ∈ records, record.pid ≠ UINT32_MAX) :
    let stored := records.take (swapData.blockList.countP BlockData.isFree)
    (storeRecords stored swapData).1 = true ∧
      (storeRecords records swapData).2 = (storeRecords stored swapData).2 := by
  intro stored
  have hcount := @countP_isFree_storeRecords stored swapData fun record hrecord =>
    hreal record (List.mem_of_mem_take hrecord)
  have hlength : stored.length = min (swapData.blockList.countP BlockData.isFree) records.length :=
    List.length_take
  split at hcount
  · rename_i hok
    refine ⟨hok, ?_⟩
    conv_lhs => rw [← List.take_append_drop (swapData.blockList.countP BlockData.isFree) records,
      storeRecords_append, if_pos hok]
    rcases le_or_gt records.length (swapData.blockList.countP BlockData.isFree) with hle | hlt
    · rw [List.drop_eq_nil_of_le hle]
      rfl
    · have hfull : (storeRecords stored swapData).2.blockList.countP BlockData.isFree = 0 := by
        omega
      exact storeRecords_of_full hfull
  · omega

/-- **The blocks of a segment that had none**, after it was suspended: those that found a free
block. -/
lemma blocksOf_storeRecords_segment (hpid : segment.pid ≠ UINT32_MAX)
    (hlen : swapData.disk.length = swapData.blockList.length)
    (hnone : blocksOf segment.pid segment.id swapData = []) :
    blocksOf segment.pid segment.id
        (storeRecords (segmentRecords sticks swapData.blockSize segment) swapData).2 =
      (segmentRecords sticks swapData.blockSize segment).take
        (swapData.blockList.countP BlockData.isFree) := by
  set records := segmentRecords sticks swapData.blockSize segment with hrecords
  have hmem : ∀ record ∈ records,
      record.pid = segment.pid ∧ record.segmentNumber = segment.id := by
    intro record hrecord
    obtain ⟨i, -, rfl⟩ := List.mem_map.1 hrecord
    exact ⟨rfl, rfl⟩
  have hreal : ∀ record ∈ records, record.pid ≠ UINT32_MAX := fun record hrecord => by
    rw [(hmem record hrecord).1]
    exact hpid
  obtain ⟨hok, heq⟩ := storeRecords_take swapData hreal
  have hsaved := savedBlocks_storeRecords (p := fun p n => p == segment.pid && n == segment.id)
    (free_not_selected hpid) hlen
    (fun record hrecord => hreal record (List.mem_of_mem_take hrecord))
    (NoneBehind.of_forall (blocksOf_eq_nil.1 hnone)) hok
  rw [heq]
  refine hsaved.trans ?_
  show blocksOf segment.pid segment.id swapData ++ _ = _
  rw [hnone, List.nil_append, List.filter_eq_self]
  intro record hrecord
  obtain ⟨hp, hid⟩ := hmem record (List.mem_of_mem_take hrecord)
  simp [hp, hid]

/-- A part of a segment's blocks is no set of blocks. -/
lemma not_isBlockSet_take {free blockSize : ℕ} (hfree : 0 < free)
    (hlt : free < segmentBlockCount segment.size blockSize) :
    ¬ IsBlockSet blockSize ((segmentRecords sticks blockSize segment).take free) := by
  rintro ⟨size, hset⟩
  have hlength := congrArg List.length hset
  simp only [List.length_map, List.length_take, List.length_range, segmentRecords] at hlength
  -- the first block tells the size
  have hfirst := congrArg List.head? hset
  have hpos : 0 < segmentBlockCount size blockSize := by omega
  rw [segmentRecords, ← List.map_take, List.map_map, List.take_range] at hfirst
  rw [List.head?_map, List.head?_map, List.head?_range, List.head?_range, if_neg (by omega),
    if_neg (by omega)] at hfirst
  have hsize : segment.size = size := congrArg Prod.snd (Option.some.inj hfirst)
  rw [← hsize] at hlength
  omega

/-- Nothing is stored in a full table. -/
lemma storedWhole_of_full {blockSize : ℕ} {ids : List ℕ} :
    StoredWhole blockSize 0 ids segments := by
  induction segments generalizing ids with
  | nil => trivial
  | cons segment rest ih =>
    refine ⟨fun _ hfree => absurd hfree (lt_irrefl 0), ?_⟩
    rw [Nat.zero_sub]
    exact ih

/-- The table stays in order when a segment is stored whole that had no block there, and the
segment's blocks are in it. -/
lemma tableInOrder_storeRecords_segment (sticks : List Stick) (hpid : segment.pid ≠ UINT32_MAX)
    (hwf : swapData.WellFormed) (hin : TableInOrder swapData)
    (hnone : blocksOf segment.pid segment.id swapData = [])
    (hfits : segmentBlockCount segment.size swapData.blockSize ≤
      swapData.blockList.countP BlockData.isFree) :
    TableInOrder (storeRecords (segmentRecords sticks swapData.blockSize segment) swapData).2 ∧
      ∀ id, blocksOf segment.pid id
          (storeRecords (segmentRecords sticks swapData.blockSize segment) swapData).2 =
        if id = segment.id then segmentRecords sticks swapData.blockSize segment
        else blocksOf segment.pid id swapData := by
  have hother : ∀ p, p ≠ UINT32_MAX → ∀ id, ¬ (segment.pid = p ∧ segment.id = id) →
      blocksOf p id (storeRecords (segmentRecords sticks swapData.blockSize segment) swapData).2 =
        blocksOf p id swapData := by
    intro p hp id hne
    have hkept := @blocksOf_storeRecords_of_not p id sticks [segment] swapData hp hwf.length_disk
      (by simpa using hne)
    rwa [List.flatMap_singleton] at hkept
  have hown : blocksOf segment.pid segment.id
      (storeRecords (segmentRecords sticks swapData.blockSize segment) swapData).2 =
        segmentRecords sticks swapData.blockSize segment := by
    rw [blocksOf_storeRecords_segment hpid hwf.length_disk hnone, List.take_of_length_le]
    simpa [segmentRecords] using hfits
  refine ⟨fun p hp id => ?_, fun id => ?_⟩
  · rw [storeRecords_blockSize]
    by_cases hsame : segment.pid = p ∧ segment.id = id
    · obtain ⟨rfl, rfl⟩ := hsame
      rw [hown]
      exact isBlockSet_segmentRecords sticks swapData.blockSize segment
    · rw [hother p hp id hsame]
      exact hin p hp id
  · split
    · rename_i hid
      rw [hid, hown]
    · rename_i hid
      exact hother segment.pid hpid id fun hsame => hid hsame.2.symm

/-- A part of a segment that had no block in swap. -/
lemma not_tableInOrder_storeRecords_of_lt (more : List BlockRecord)
    (hpid : segment.pid ≠ UINT32_MAX)
    (hlen : swapData.disk.length = swapData.blockList.length)
    (hnone : blocksOf segment.pid segment.id swapData = [])
    (hfree : 0 < swapData.blockList.countP BlockData.isFree)
    (hlt : swapData.blockList.countP BlockData.isFree <
      segmentBlockCount segment.size swapData.blockSize)
    (hfail : (storeRecords (segmentRecords sticks swapData.blockSize segment) swapData).1 = false) :
    ¬ TableInOrder (storeRecords
      (segmentRecords sticks swapData.blockSize segment ++ more) swapData).2 := by
  intro hin
  rw [storeRecords_append, if_neg (by simp [hfail])] at hin
  have hset := hin segment.pid hpid segment.id
  rw [storeRecords_blockSize, blocksOf_storeRecords_segment hpid hlen hnone] at hset
  exact not_isBlockSet_take hfree hlt hset

/-- A segment that had blocks in swap. -/
lemma not_tableInOrder_storeRecords_of_ne_nil (more : List BlockRecord)
    (hpid : segment.pid ≠ UINT32_MAX)
    (hwf : swapData.WellFormed) (hin : TableInOrder swapData)
    (hne : blocksOf segment.pid segment.id swapData ≠ [])
    (hfree : 0 < swapData.blockList.countP BlockData.isFree)
    (hpos : 0 < segmentBlockCount segment.size swapData.blockSize) :
    ¬ TableInOrder (storeRecords
      (segmentRecords sticks swapData.blockSize segment ++ more) swapData).2 := by
  obtain ⟨n, hn⟩ := Nat.exists_eq_add_one_of_ne_zero hpos.ne'
  refine not_tableInOrder_of_countP segment.id hpid
    (wellFormed_storeRecords _ hwf).length_disk ?_
  have hone := countP_isFirstOf_pos (hin segment.pid hpid segment.id) hwf.length_disk hne
  rw [segmentRecords, hn, List.range_succ_eq_map, List.map_cons, List.cons_append, storeRecords]
  cases hstore : storeRecord (blockRecord sticks swapData.blockSize segment 0) swapData with
  | none =>
    have hfull := storeRecord_eq_none.1 hstore
    omega
  | some swapData' =>
    have hcount := countP_storeRecord segment.id hpid hstore
    rw [if_pos ⟨rfl, rfl, rfl⟩] at hcount
    exact le_trans (by omega) (countP_le_storeRecords hpid)

/-- **A suspension** leaves the table in order exactly when the segments are stored whole.

**Proof sketch.** Induction on the segments. One that is stored whole leaves the table in order for
the rest. One of which only a part finds room leaves this part, and the rest finds nothing. One that
has blocks in swap has a first block twice then, and the blocks behind it take none of the two. -/
theorem tableInOrder_storeRecords_iff {ids : List ℕ} (hpid : pid ≠ UINT32_MAX)
    (hpids : ∀ s ∈ segments, s.pid = pid) (hwf : swapData.WellFormed) (hin : TableInOrder swapData)
    (hids : ∀ id, id ∈ ids ↔ blocksOf pid id swapData ≠ []) :
    TableInOrder (storeRecords
        (segments.flatMap (segmentRecords sticks swapData.blockSize)) swapData).2 ↔
      StoredWhole swapData.blockSize (swapData.blockList.countP BlockData.isFree) ids segments := by
  induction segments generalizing swapData ids with
  | nil => exact iff_of_true hin trivial
  | cons segment rest ih =>
    have hrest : ∀ s ∈ rest, s.pid = pid := fun s hs => hpids s (List.mem_cons_of_mem segment hs)
    obtain rfl := hpids segment List.mem_cons_self
    set free := swapData.blockList.countP BlockData.isFree with hfreeDef
    set records := segmentRecords sticks swapData.blockSize segment with hrecords
    have hlength : records.length = segmentBlockCount segment.size swapData.blockSize := by
      simp [hrecords, segmentRecords]
    have hreal : ∀ record ∈ records, record.pid ≠ UINT32_MAX := by
      intro record hrecord
      obtain ⟨i, -, rfl⟩ := List.mem_map.1 hrecord
      exact hpid
    have hcount := @countP_isFree_storeRecords records swapData hreal
    rw [List.flatMap_cons, ← hrecords, StoredWhole]
    rcases Nat.eq_zero_or_pos free with hfull | hfree
    · -- nothing more is stored
      rw [storeRecords_of_full hfull, hfull, Nat.zero_sub]
      exact iff_of_true hin ⟨fun _ hpos => absurd hpos (lt_irrefl 0), storedWhole_of_full⟩
    rcases Nat.eq_zero_or_pos records.length with hnil | hpos
    · -- the segment has no block
      have hzero := hnil
      rw [hlength] at hzero
      rw [List.length_eq_zero_iff.1 hnil, List.nil_append, hzero]
      simp only [lt_irrefl, false_implies, true_and, if_false, Nat.sub_zero]
      exact ih hrest hwf hin hids
    by_cases hwhole : records.length ≤ free ∧ segment.id ∉ ids
    · obtain ⟨hfits, hnew⟩ := hwhole
      have hnone : blocksOf segment.pid segment.id swapData = [] := by
        by_contra hne
        exact hnew ((hids segment.id).2 hne)
      obtain ⟨hin', hblocks⟩ := tableInOrder_storeRecords_segment sticks hpid hwf hin
        hnone (hlength ▸ hfits)
      rw [← hrecords] at hin' hblocks
      split at hcount
      · rename_i hok
        rw [storeRecords_append, if_pos hok, ← hlength, if_pos hpos]
        have hleft : (storeRecords records swapData).2.blockList.countP BlockData.isFree =
            free - records.length := by omega
        have hids' : ∀ id, id ∈ segment.id :: ids ↔
            blocksOf segment.pid id (storeRecords records swapData).2 ≠ [] := by
          intro id
          rw [List.mem_cons, hblocks id]
          split
          · rename_i hid
            exact iff_of_true (.inl hid) (List.ne_nil_of_length_pos hpos)
          · rename_i hid
            rw [hids id, or_iff_right hid]
        have hstored := ih hrest (wellFormed_storeRecords records hwf) hin' hids'
        rw [storeRecords_blockSize, hleft] at hstored
        rw [hstored, and_iff_right fun _ _ => ⟨hfits, hnew⟩]
      · omega
    · -- a part of the segment is stored, or a second copy of its first block
      refine iff_of_false ?_ fun hstored => hwhole (hlength ▸ hstored.1 (hlength ▸ hpos) hfree)
      by_cases hnone : blocksOf segment.pid segment.id swapData = []
      · have hnew : segment.id ∉ ids := fun hmem => (hids segment.id).1 hmem hnone
        have hlt : free < records.length := not_le.1 fun hfits => hwhole ⟨hfits, hnew⟩
        split at hcount
        · omega
        · rename_i hfail
          exact not_tableInOrder_storeRecords_of_lt _ hpid hwf.length_disk hnone hfree
            (hlength ▸ hlt) (by simpa using hfail)
      · exact not_tableInOrder_storeRecords_of_ne_nil _ hpid hwf hin hnone hfree (hlength ▸ hpos)

end Suspension

/-! ## A resumption -/

section Resumption

variable {k k' : KernelMemory} {pid i j : ℕ} {swapData : SwapData} {r₀ r : Resumption}

/-- What a resumption leaves is in order exactly when it is between two segments of the process. -/
lemma ResumedUpTo.tableInOrder_iff (h : ResumedUpTo pid r₀ i r) (hwf : r₀.swapData.WellFormed)
    (hin : TableInOrder r₀.swapData) : TableInOrder r.swapData ↔
      (pid ≠ UINT32_MAX → ∀ first ∈ r₀.swapData.blockList.take i, first.isFirst pid = true →
        ∀ block ∈ r₀.swapData.blockList.drop i, block.pid = pid →
          block.segmentNumber ≠ first.segmentNumber) := by
  constructor
  · intro hin' hpid first hfirst hzero block hblock hown hsame
    have hlen' := (wellFormed_iff.2 (h.swapSizes (wellFormed_iff.1 hwf))).length_disk
    have hmem : block ∈ r.swapData.blockList := by
      rw [h.blockList]
      exact List.mem_append_right _ hblock
    have hleft := countP_isFirstOf_pos (hin' pid hpid first.segmentNumber) hlen'
      (blocksOf_ne_nil hlen' hmem hown hsame)
    -- the blocks before the position are free now
    have hcleared : ((r₀.swapData.blockList.take i).map (clearBlock pid)).countP
        (BlockData.isFirstOf pid first.segmentNumber) = 0 := by
      rw [List.countP_eq_zero]
      rintro cleared hcleared hmark
      obtain ⟨old, -, rfl⟩ := List.mem_map.1 hcleared
      unfold clearBlock at hmark
      split at hmark
      · simp [BlockData.isFirstOf, BlockData.isFirst, BlockData.removed] at hmark
      · rename_i hother
        simp [BlockData.isFirstOf, BlockData.isFirst, hother] at hmark
    have hbefore : 0 < (r₀.swapData.blockList.take i).countP
        (BlockData.isFirstOf pid first.segmentNumber) :=
      List.countP_pos_iff.2 ⟨first, hfirst, by simp [BlockData.isFirstOf, hzero]⟩
    rw [h.blockList, List.countP_append, hcleared, Nat.zero_add] at hleft
    refine not_tableInOrder_of_countP first.segmentNumber hpid hwf.length_disk ?_ hin
    rw [← List.take_append_drop i r₀.swapData.blockList, List.countP_append]
    omega
  · exact fun hleft p hp id => h.isBlockSet hp hwf.length_disk (hin p hp id) fun heq =>
      hleft (heq ▸ hp)

/-- A resumption that has got behind a position has not stopped there. -/
lemma not_stopsAt_of_lt {blockList : List BlockData} {memory rebuilt : MainMemory}
    (h : regenerateSegments pid ((blockList.take j).filter (BlockData.isFirst pid)) memory =
      some rebuilt) (hlt : i < j) : ¬ StopsAt pid i blockList memory := by
  rintro ⟨block, hblock, hfirst, before, hbefore, hfail⟩
  obtain ⟨hi, rfl⟩ := List.getElem?_eq_some_iff.1 hblock
  have hsplit : blockList.take j =
      blockList.take i ++ blockList[i] :: (blockList.take j).drop (i + 1) := by
    have htake : (blockList.take j).take i = blockList.take i := by
      rw [List.take_take, min_eq_left hlt.le]
    conv_lhs => rw [← List.take_append_drop i (blockList.take j), htake]
    rw [List.drop_eq_getElem_cons (by simp; omega), List.getElem_take]
  rw [hsplit, List.filter_append, List.filter_cons_of_pos hfirst, regenerateSegments_append,
    Option.mem_def.1 hbefore, Option.bind_some, regenerateSegments, if_neg hfail] at h
  exact Option.some_ne_none rebuilt h.symm

/-- **A resumption** leaves the table in order exactly when it stops between two segments. -/
theorem tableInOrder_resumeProcess_iff {msgs : List Message} (hs : k.swapData = some swapData)
    (hwf : swapData.WellFormed) (hin : TableInOrder swapData)
    (h : resumeProcess pid k = some (msgs, k')) :
    (∀ swapData' ∈ k'.swapData, TableInOrder swapData') ↔
      (pid ≠ UINT32_MAX → StopsBetweenSegments pid k) := by
  unfold StopsBetweenSegments
  simp only [hs, Option.mem_def, Option.some.injEq, forall_eq']
  rcases resumeProcess_cases hs hwf h with ⟨hfits, rfl, -⟩ |
    ⟨hfits, sent, last, i, r, -, -, hres, ⟨rfl, rfl, -⟩ |
      ⟨block, memory, hblock, hfirst, hregen, -, rfl⟩⟩
  · rw [hs]
    simp only [Option.some.injEq, forall_eq']
    exact iff_of_true hin fun _ htrue => absurd htrue (by simp [hfits])
  · have hall : TableInOrder r.swapData :=
      (hres.tableInOrder_iff hwf hin).2 fun _ first _ _ block hblock => by simp at hblock
    refine iff_of_true (fun swapData' hs' => (Option.some.inj hs') ▸ hall) fun _ _ i hi hstop => ?_
    exact absurd hstop (not_stopsAt_of_lt hres.mainMemory hi)
  · have hfailed : (regenerateSegment block.segmentNumber pid block.segmentSize
        r.mainMemory).1 ≠ none := by
      rw [hregen]
      exact Option.some_ne_none last
    have hstops : StopsAt pid i swapData.blockList k.mainMemory :=
      ⟨block, hblock, hfirst, r.mainMemory, hres.mainMemory, hfailed⟩
    have hi : i < swapData.blockList.length := (List.getElem?_eq_some_iff.1 hblock).1
    have hiff := hres.tableInOrder_iff hwf hin
    constructor
    · intro hin' hpid _ j hj hstop
      -- there is one position at which it stops
      have hsame : j = i := by
        rcases lt_trichotomy i j with hlt | heq | hgt
        · obtain ⟨-, -, -, rebuilt, hrebuilt, -⟩ := hstop
          exact absurd hstops (not_stopsAt_of_lt hrebuilt hlt)
        · exact heq.symm
        · exact absurd hstop (not_stopsAt_of_lt hres.mainMemory hgt)
      rw [hsame]
      exact hiff.1 (hin' r.swapData rfl) hpid
    · intro hbetween swapData' hs'
      exact (Option.some.inj hs') ▸ hiff.2 fun hpid => hbetween hpid hfits i hi hstops

end Resumption

/-! ## Runs -/

section Runs

variable {k k' : KernelMemory} {event : Event}

/-- The blocks of a swap that connects are free. -/
lemma tableInOrder_initSwapData {swapSize blockSize : ℕ} {swapData : SwapData}
    (h : initSwapData swapSize blockSize = some swapData) : TableInOrder swapData := by
  intro pid hpid id
  have hnone : blocksOf pid id swapData = [] := by
    refine blocksOf_eq_nil.2 fun slot hslot => ?_
    have hblock := (free_of_initSwapData h slot.1 (List.of_mem_zip hslot).1).1
    simp [isMarked, hblock, Ne.symm hpid]
  rw [hnone]
  exact isBlockSet_nil

/-- The table after a suspension. -/
lemma tableInOrder_suspendProcess_iff {pid : ℕ} {answer : Message} {swapData : SwapData}
    (hs : k.swapData = some swapData) (hwf : swapData.WellFormed) (hin : TableInOrder swapData)
    (h : suspendProcess pid k = some (answer, k')) :
    (∀ swapData' ∈ k'.swapData, TableInOrder swapData') ↔
      (pid ≠ UINT32_MAX → StoredWhole swapData.blockSize
        (swapData.blockList.countP BlockData.isFree)
        ((swapData.blockList.filter fun block => block.pid == pid).map BlockData.segmentNumber)
        (filterProcessSegments pid k.mainMemory)) := by
  have hpids : ∀ s ∈ filterProcessSegments pid k.mainMemory, s.pid = pid := fun s hmem => by
    simpa [filterProcessSegments] using (List.mem_filter.1 hmem).2
  have hstored : k'.swapData = some (storeRecords ((filterProcessSegments pid k.mainMemory).flatMap
      (segmentRecords k.connectedSticks swapData.blockSize)) swapData).2 := by
    rcases suspendProcess_cases h with ⟨-, hnone, -⟩ |
      ⟨swapData', stored, hs', rfl, ⟨-, -, rfl⟩ | ⟨-, -, rfl⟩⟩
    · exact absurd (hs.symm.trans hnone) (by simp)
    · obtain rfl := Option.some.inj (hs.symm.trans hs')
      rfl
    · obtain rfl := Option.some.inj (hs.symm.trans hs')
      rfl
  rw [hstored]
  simp only [Option.mem_def, Option.some.injEq, forall_eq']
  by_cases hpid : pid = UINT32_MAX
  · refine iff_of_true (fun p hp id => ?_) fun hne => absurd hpid hne
    rw [storeRecords_blockSize,
      blocksOf_storeRecords_of_not hp hwf.length_disk fun s hmem hsame => ?_]
    · exact hin p hp id
    · exact hp (hsame.1.symm.trans ((hpids s hmem).trans hpid))
  · rw [forall_prop_of_true hpid]
    exact tableInOrder_storeRecords_iff hpid hpids hwf hin fun id => mem_ids_iff hwf.length_disk

/-- **An event keeps the table in order exactly when it meets the condition.** -/
theorem tableInOrder_step_iff (hwf : ∀ swapData ∈ k.swapData, swapData.WellFormed)
    (hin : ∀ swapData ∈ k.swapData, TableInOrder swapData)
    (hst : kernelMemoryStep k event = some k') :
    (∀ swapData ∈ k'.swapData, TableInOrder swapData) ↔ KeepsOrder k event := by
  cases event with
  | newProcess pid scriptOpens =>
    obtain rfl := Option.some.inj hst
    unfold handleNewProcess
    split <;> exact iff_of_true hin trivial
  | createSegment id pid size =>
    obtain ⟨⟨msgs, k₁⟩, hcreate, rfl⟩ := Option.map_eq_some_iff.1 hst
    refine iff_of_true ?_ trivial
    unfold handleCreateSegment at hcreate
    split at hcreate
    · obtain ⟨-, rfl⟩ := Prod.mk.inj (Option.some.inj hcreate)
      exact hin
    · obtain ⟨created, -, heq⟩ := Option.map_eq_some_iff.1 hcreate
      obtain ⟨-, rfl⟩ := Prod.mk.inj heq
      exact hin
  | deleteSegment id pid =>
    obtain rfl := Option.some.inj hst
    exact iff_of_true hin trivial
  | suspendProcess pid =>
    obtain ⟨⟨msgs, k₁⟩, hsuspend, rfl⟩ := Option.map_eq_some_iff.1 hst
    unfold handleSuspendProcess at hsuspend
    split at hsuspend
    · rename_i hknown
      obtain ⟨⟨answer, k₂⟩, hrun, heq⟩ := Option.map_eq_some_iff.1 hsuspend
      obtain ⟨-, rfl⟩ := Prod.mk.inj heq
      cases hs : k.swapData with
      | none =>
        rcases suspendProcess_cases hrun with ⟨rfl, -⟩ | ⟨swapData, stored, hs', -⟩
        · exact iff_of_true hin fun _ _ swapData hs' => absurd (hs.symm.trans hs') (by simp)
        · exact absurd (hs.symm.trans hs') (by simp)
      | some swapData =>
        have hiff := tableInOrder_suspendProcess_iff hs (hwf swapData hs) (hin swapData hs) hrun
        simp only [KeepsOrder, hs, Option.mem_def, Option.some.injEq, forall_eq']
        exact ⟨fun hin' _ => hiff.1 hin', fun hok => hiff.2 (hok hknown)⟩
    · rename_i hunknown
      obtain ⟨-, rfl⟩ := Prod.mk.inj (Option.some.inj hsuspend)
      exact iff_of_true hin fun hknown => absurd hknown hunknown
  | resumeProcess pid =>
    obtain ⟨⟨msgs, k₁⟩, hresume, rfl⟩ := Option.map_eq_some_iff.1 hst
    cases hs : k.swapData with
    | none =>
      unfold handleResumeSuspendedProcess resumeProcess at hresume
      simp only [hs, Option.some.injEq, Prod.mk.injEq] at hresume
      obtain ⟨-, rfl⟩ := hresume
      exact iff_of_true hin fun _ swapData hs' => absurd (hs.symm.trans hs') (by simp)
    | some swapData =>
      exact tableInOrder_resumeProcess_iff hs (hwf swapData hs) (hin swapData hs) hresume
  | endProcess pid =>
    obtain rfl := Option.some.inj hst
    unfold handleEndProcess
    split <;> exact iff_of_true hin trivial
  | stickConnected stick =>
    obtain ⟨mainMemory, -, rfl⟩ := Option.map_eq_some_iff.1 hst
    exact iff_of_true hin trivial
  | swapConnected swapSize blockSize =>
    obtain ⟨swapData, hinit, rfl⟩ := Option.map_eq_some_iff.1 hst
    refine iff_of_true (fun swapData' hs => ?_) trivial
    exact (Option.some.inj hs) ▸ tableInOrder_initSwapData hinit
  | memoryWritten physicalAddress bytes =>
    obtain rfl := Option.some.inj hst
    exact iff_of_true hin trivial

/-- **The blocks of every segment are in order all along a run** exactly when its events meet the
condition.

**Proof sketch.** By `tableInOrder_step_iff`, with the invariant that the block table is well
formed. -/
theorem blocksInOrder_iff {segmentMaxSize : ℤ} {strategy : AllocationStrategy} {events : List Event}
    (h : execute kernelMemoryStep (initKernelMemoryData segmentMaxSize strategy) events = some k) :
    (∀ n ≤ events.length, ∀ k', execute kernelMemoryStep
        (initKernelMemoryData segmentMaxSize strategy) (events.take n) = some k' →
          BlocksInOrder k') ↔
      Admitted kernelMemoryStep KeepsOrder (initKernelMemoryData segmentMaxSize strategy)
        events := by
  have hstep : ∀ k event k', (∀ swapData ∈ k.swapData, SwapData.WellFormed swapData) →
      BlocksInOrder k → kernelMemoryStep k event = some k' →
        (BlocksInOrder k' ↔ KeepsOrder k event) := by
    intro k event k' hwf hin hst
    rw [blocksInOrder_iff_tableInOrder (wellFormed_step hst hwf)]
    exact tableInOrder_step_iff hwf ((blocksInOrder_iff_tableInOrder hwf).1 hin) hst
  refine forall_execute_take_iff_admitted_of_execute
    (I := fun k => ∀ swapData ∈ k.swapData, SwapData.WellFormed swapData)
    (fun _ _ _ hwf hst => wellFormed_step hst hwf)
    (fun k event k' hwf hin hok hst => (hstep k event k' hwf hin hst).2 hok)
    (fun k event k' hwf hin hok hst hin' => hok ((hstep k event k' hwf hin hst).1 hin')) h ?_ ?_
  · simp [initKernelMemoryData]
  · simp [BlocksInOrder, initKernelMemoryData]

end Runs

instance StoredWhole.decidable (blockSize : ℕ) : ∀ (free : ℕ) (ids : List ℕ)
    (segments : List Segment), Decidable (StoredWhole blockSize free ids segments)
  | _, _, [] => .isTrue trivial
  | free, ids, segment :: rest => by
    have := StoredWhole.decidable blockSize (free - segmentBlockCount segment.size blockSize)
      (if 0 < segmentBlockCount segment.size blockSize then segment.id :: ids else ids) rest
    exact inferInstanceAs (Decidable (_ ∧ _))

instance (k : KernelMemory) : DecidablePred (KeepsOrder k) := fun event =>
  match event with
  | .suspendProcess pid => inferInstanceAs (Decidable (pid ∈ k.processes → pid ≠ UINT32_MAX →
      ∀ swapData ∈ k.swapData, StoredWhole swapData.blockSize
        (swapData.blockList.countP BlockData.isFree)
        ((swapData.blockList.filter fun block => block.pid == pid).map BlockData.segmentNumber)
        (filterProcessSegments pid k.mainMemory)))
  | .resumeProcess pid =>
    inferInstanceAs (Decidable (pid ≠ UINT32_MAX → StopsBetweenSegments pid k))
  | .newProcess _ _ => .isTrue trivial
  | .createSegment _ _ _ => .isTrue trivial
  | .deleteSegment _ _ => .isTrue trivial
  | .endProcess _ => .isTrue trivial
  | .stickConnected _ => .isTrue trivial
  | .swapConnected _ _ => .isTrue trivial
  | .memoryWritten _ _ => .isTrue trivial

/-- Process 3 is suspended to the blocks around the one of process 2, and both are resumed. -/
def suspendedAround : List Event :=
  suspendedProcess ++ [.newProcess 2 true, .createSegment 0 2 2, .suspendProcess 2,
    .resumeProcess 1, .newProcess 3 true, .createSegment 0 3 5, .suspendProcess 3,
    .resumeProcess 2, .resumeProcess 3]

/-- The equivalence at that run. -/
theorem blocksInOrder_of_suspendedAround : ∃ k, execute kernelMemoryStep
    (initKernelMemoryData 10 .best) suspendedAround = some k ∧ BlocksInOrder k := by
  obtain ⟨k, hk⟩ := Option.isSome_iff_exists.1 (show (execute kernelMemoryStep
    (initKernelMemoryData 10 .best) suspendedAround).isSome by decide +kernel)
  have hall := (blocksInOrder_iff hk).2 (by decide +kernel)
  exact ⟨k, hk, hall suspendedAround.length le_rfl k (by rw [List.take_length, hk])⟩

/-- A segment of three blocks is suspended to a swap of two. -/
def suspendedInPart : List Event :=
  [.stickConnected ⟨List.replicate 6 0⟩, .swapConnected 4 2, .newProcess 1 true,
    .createSegment 0 1 6, .suspendProcess 1]

/-- **The third block found no place**, and the first two are in swap. -/
theorem not_blocksInOrder_of_suspendedInPart :
    ∃ k, execute kernelMemoryStep (initKernelMemoryData 10 .best) suspendedInPart = some k ∧
      ¬ BlocksInOrder k := by
  have hrun : (execute kernelMemoryStep (initKernelMemoryData 10 .best) suspendedInPart).map
      KernelMemory.swapData = some (some ⟨[⟨0, 1, 0, 0, 6⟩, ⟨1, 1, 0, 1, 6⟩], 2,
        [[0, 0], [0, 0]]⟩) := by decide +kernel
  obtain ⟨k, hk, hswap⟩ := Option.map_eq_some_iff.1 hrun
  refine ⟨k, hk, fun hin => ?_⟩
  obtain ⟨size, hset⟩ := hin _ hswap 1 (by decide) 0
  have hentries : [((0 : ℤ), (6 : ℤ)), (1, 6)] =
      (List.range (size ⌈/⌉ 2)).map fun i : ℕ => ((i : ℤ), (size : ℤ)) := hset
  have hlength : 2 = size ⌈/⌉ 2 := by simpa using congrArg List.length hentries
  -- the entries are those of a segment of six bytes
  rw [← hlength] at hentries
  have hsize : (6 : ℤ) = size := by
    simpa [List.range_succ] using congrArg (fun l => (l.map Prod.snd).head?) hentries
  obtain rfl : size = 6 := by omega
  exact absurd hlength (by decide)

end OsSimulator.Memory
