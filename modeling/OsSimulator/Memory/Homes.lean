import OsSimulator.Memory.MemoryOps
import OsSimulator.Memory.SegmentNames

set_option relaxedAutoImplicit false
set_option autoImplicit false

/-!
# The home of a segment

A segment of a process is in the segment list of the main memory or, block by block, in the table
of the swap. Four requests can leave it with two homes or with none: a creation does not look for
the id, a suspension that finds the swap full keeps what it has stored, a resumption that finds no
hole keeps what it has rebuilt, and the end of a process looks at the segment list only, and only
for a process in the list of processes. This file proves that every segment has one home in every
run without these.

## Main definitions

* `blocksOf`, `IsBlockSet` — the blocks of a segment in swap.
* `OneHome`, `NoTrace` — every segment has one home; a process has none.
* `KeepsOneHome` — the condition on an event.
* `Tracked` — Kernel Memory with the processes that have ended.

## Main results

* `homes_step` — an event that meets the condition leaves every segment one home.
* `oneHome_of_run` — every segment has one home in a run of such events, and a process that has
  ended has none.
* `block_of_ended_process` — the end of a suspended process.
-/

namespace OsSimulator.Memory

/-- The blocks in swap of one segment of a process, in table order. -/
def blocksOf (pid id : ℕ) (swapData : SwapData) : List BlockRecord :=
  savedBlocks (fun p n => p == pid && n == id) swapData

/-- One set of blocks: one block for each block of a segment of some size, in order. -/
def IsBlockSet (blockSize : ℕ) (records : List BlockRecord) : Prop :=
  ∃ size, records.map (fun r => (r.segmentBlockNumber, r.segmentSize)) =
    (List.range (segmentBlockCount size blockSize)).map fun i : ℕ => ((i : ℤ), size)

/-- **Every segment has one home**: no two segments in memory have one name, the blocks with one
name are one set, and no segment in memory has blocks in swap. -/
structure OneHome (k : KernelMemory) : Prop where
  owner : k.mainMemory.names.Nodup
  blocks : ∀ swapData ∈ k.swapData, ∀ pid, pid ≠ UINT32_MAX → ∀ id,
    IsBlockSet swapData.blockSize (blocksOf pid id swapData)
  home : ∀ swapData ∈ k.swapData, ∀ pid id, (pid, id) ∈ k.mainMemory.names →
    blocksOf pid id swapData = []

/-- No segment and no block carries the pid. -/
def NoTrace (pid : ℕ) (k : KernelMemory) : Prop :=
  (∀ s ∈ k.mainMemory.segments, s.pid ≠ pid) ∧
    ∀ swapData ∈ k.swapData, ∀ block ∈ swapData.blockList, block.pid ≠ pid

/-- The block at position `i` starts a segment of the process for which a resumption finds no hole,
while it has found one for each segment that starts before it. -/
def StopsAt (pid i : ℕ) (blockList : List BlockData) (memory : MainMemory) : Prop :=
  ∃ block ∈ blockList[i]?, block.isFirst pid = true ∧
    ∃ rebuilt ∈ regenerateSegments pid ((blockList.take i).filter (BlockData.isFirst pid)) memory,
      (regenerateSegment block.segmentNumber pid block.segmentSize rebuilt).1 ≠ none

/-- A resumption that stops does so between two segments: none that starts before has a block left.
-/
def StopsBetweenSegments (pid : ℕ) (k : KernelMemory) : Prop :=
  ∀ swapData ∈ k.swapData, canResume pid swapData k.mainMemory = true →
    ∀ i < swapData.blockList.length, StopsAt pid i swapData.blockList k.mainMemory →
      ∀ first ∈ swapData.blockList.take i, first.isFirst pid = true →
        ∀ block ∈ swapData.blockList.drop i, block.pid = pid →
          block.segmentNumber ≠ first.segmentNumber

/-- The end of the process finds all that carries its pid: it is in the list of processes or has no
segment, and it has no block in swap. -/
def FindsAll (pid : ℕ) (k : KernelMemory) : Prop :=
  (pid ∈ k.processes ∨ ∀ s ∈ k.mainMemory.segments, s.pid ≠ pid) ∧
    ∀ swapData ∈ k.swapData, ∀ block ∈ swapData.blockList, block.pid ≠ pid

/-- The name is of no segment in memory and of no block in swap, and its pid is not the one that
marks a free block. -/
def IsNewName (pid id : ℕ) (k : KernelMemory) : Prop :=
  pid ≠ UINT32_MAX ∧ (pid, id) ∉ k.mainMemory.names ∧
    ∀ swapData ∈ k.swapData, blocksOf pid id swapData = []

/-- The events after which every segment has one home. -/
def KeepsOneHome (k : KernelMemory) : Event → Prop
  | .createSegment id pid size => ¬ u32 k.mainMemory.maxSegmentSize < size →
      ¬ computeFreeSpace k.mainMemory.holes < i32 size → IsNewName pid id k
  | .suspendProcess pid => pid ∈ k.processes → AllOrNoBlocksFit pid k
  | .resumeProcess pid => StopsBetweenSegments pid k
  | .endProcess pid => pid ≠ UINT32_MAX → FindsAll pid k
  | _ => True

/-! ## The blocks of a segment -/

section Blocks

variable {pid id i : ℕ} {swapData : SwapData}

/-- A free block is selected for no process. -/
lemma free_not_selected (hpid : pid ≠ UINT32_MAX) (n : ℕ) :
    (UINT32_MAX == pid && n == id) = false := by
  simp [Ne.symm hpid]

/-- No block at all is a set, that of a segment without bytes. -/
lemma isBlockSet_nil {blockSize : ℕ} : IsBlockSet blockSize [] := by
  refine ⟨0, ?_⟩
  rw [segmentBlockCount_of_nonpos le_rfl]
  rfl

/-- The records of a segment are one set of blocks. -/
lemma isBlockSet_segmentRecords (sticks : List Stick) (blockSize : ℕ) (segment : Segment) :
    IsBlockSet blockSize (segmentRecords sticks blockSize segment) := by
  refine ⟨segment.size, ?_⟩
  rw [segmentRecords, List.map_map]
  rfl

/-- A block of the segment is the first one at most once. -/
lemma countP_isFirst_le (h : IsBlockSet swapData.blockSize (blocksOf pid id swapData))
    (hlen : swapData.disk.length = swapData.blockList.length) :
    (swapData.blockList.countP fun block => block.isFirst pid && block.segmentNumber == id) ≤ 1 := by
  obtain ⟨size, hset⟩ := h
  have hcount : (swapData.blockList.countP fun block =>
      block.isFirst pid && block.segmentNumber == id) =
      ((blocksOf pid id swapData).map fun r => (r.segmentBlockNumber, r.segmentSize)).countP
        fun entry => entry.1 == 0 := by
    rw [blocksOf, savedBlocks, List.map_map, List.countP_map, List.countP_filter,
      ← map_fst_slots hlen, List.countP_map]
    refine List.countP_congr fun slot _ => ?_
    simp only [BlockData.isFirst, BlockRecord.of, Function.comp, Bool.and_eq_true, beq_iff_eq]
    tauto
  rw [hcount, hset, List.countP_map]
  have hzero : ((fun entry : ℤ × ℤ => entry.1 == 0) ∘ fun n : ℕ => ((n : ℤ), size)) =
      fun n => n == 0 := by
    funext n
    simp
  rw [hzero]
  exact (List.nodup_iff_count_le_one.1 List.nodup_range) 0

/-- The segments that start with a block of the process are different ones. -/
lemma nodup_firsts (h : ∀ id, IsBlockSet swapData.blockSize (blocksOf pid id swapData))
    (hlen : swapData.disk.length = swapData.blockList.length) :
    ((swapData.blockList.filter (BlockData.isFirst pid)).map BlockData.segmentNumber).Nodup := by
  refine List.nodup_iff_count_le_one.2 fun id => ?_
  rw [List.count, List.countP_map, List.countP_filter]
  refine le_trans (le_of_eq (List.countP_congr fun block _ => ?_)) (countP_isFirst_le (h id) hlen)
  simp only [Function.comp, Bool.and_eq_true, beq_iff_eq]
  tauto

/-- A segment with a block before a position starts before it. -/
lemma exists_first_of_take (h : IsBlockSet swapData.blockSize (blocksOf pid id swapData))
    (hmem : ∃ slot ∈ swapData.slots.take i,
      isMarked (fun p n => p == pid && n == id) slot = true) :
    ∃ first ∈ swapData.blockList.take i, first.isFirst pid = true ∧ first.segmentNumber = id := by
  obtain ⟨size, hset⟩ := h
  have hne : (swapData.slots.take i).filter (isMarked fun p n => p == pid && n == id) ≠ [] := by
    obtain ⟨slot, hslot, hmark⟩ := hmem
    exact List.ne_nil_of_mem (List.mem_filter.2 ⟨hslot, hmark⟩)
  obtain ⟨slot, rest, hcons⟩ := List.exists_cons_of_ne_nil hne
  have hslot : slot ∈ (swapData.slots.take i).filter (isMarked fun p n => p == pid && n == id) := by
    rw [hcons]
    exact List.mem_cons_self
  obtain ⟨htake, hmark⟩ := List.mem_filter.1 hslot
  simp only [isMarked, Bool.and_eq_true, beq_iff_eq] at hmark
  -- the first block in table order is the one with the number zero
  have hzero : slot.1.segmentBlockNumber = 0 := by
    have hsplit : blocksOf pid id swapData =
        BlockRecord.of slot :: (rest.map BlockRecord.of ++
          ((swapData.slots.drop i).filter (isMarked fun p n => p == pid && n == id)).map
            BlockRecord.of) := by
      show (swapData.slots.filter (isMarked fun p n => p == pid && n == id)).map BlockRecord.of = _
      conv_lhs => rw [← List.take_append_drop i swapData.slots]
      rw [List.filter_append, hcons]
      simp
    rw [hsplit, List.map_cons] at hset
    cases hn : segmentBlockCount size swapData.blockSize with
    | zero => simp [hn] at hset
    | succ n =>
      rw [hn, List.range_succ_eq_map, List.map_cons, List.cons.injEq] at hset
      exact congrArg Prod.fst hset.1
  refine ⟨slot.1, ?_, ?_, hmark.2⟩
  · rw [SwapData.slots, List.zip, List.take_zipWith] at htake
    exact (List.of_mem_zip htake).1
  · simp [BlockData.isFirst, hmark.1, hzero]

/-- Of the blocks that are left behind a position, those of a segment that starts before it are
none. -/
lemma filter_drop_eq_nil {first : BlockData} (hfirst : first.segmentNumber = id)
    (hleft : ∀ block ∈ swapData.blockList.drop i, block.pid = pid →
      block.segmentNumber ≠ first.segmentNumber) :
    (swapData.slots.drop i).filter (isMarked fun p n => p == pid && n == id) = [] := by
  rw [List.filter_eq_nil_iff]
  intro slot hslot
  rw [SwapData.slots, List.zip, List.drop_zipWith] at hslot
  have hblock := (List.of_mem_zip hslot).1
  simp only [isMarked, Bool.and_eq_true, beq_iff_eq, not_and]
  exact fun hpid hid => hleft slot.1 hblock hpid (hid.trans hfirst.symm)

/-- A segment without blocks has no marked slot. -/
lemma blocksOf_eq_nil : blocksOf pid id swapData = [] ↔
    ∀ slot ∈ swapData.slots, isMarked (fun p n => p == pid && n == id) slot = false := by
  rw [blocksOf, savedBlocks, List.map_eq_nil_iff, List.filter_eq_nil_iff]
  simp only [Bool.not_eq_true]
  rfl

/-- A block of a segment in the table. -/
lemma blocksOf_ne_nil {block : BlockData}
    (hlen : swapData.disk.length = swapData.blockList.length) (hblock : block ∈ swapData.blockList)
    (hpid : block.pid = pid) (hid : block.segmentNumber = id) : blocksOf pid id swapData ≠ [] := by
  rw [← map_fst_slots hlen] at hblock
  obtain ⟨slot, hslot, rfl⟩ := List.mem_map.1 hblock
  intro hnil
  have hmark := blocksOf_eq_nil.1 hnil slot hslot
  simp [isMarked, hpid, hid] at hmark

end Blocks

/-! ## A suspension -/

section Suspension

variable {pid p i : ℕ} {sticks : List Stick} {segments : List Segment} {swapData : SwapData}

/-- The blocks of a segment that is not suspended. -/
lemma blocksOf_storeRecords_of_not (hp : p ≠ UINT32_MAX)
    (hlen : swapData.disk.length = swapData.blockList.length)
    (hnot : ∀ s ∈ segments, ¬ (s.pid = p ∧ s.id = i)) :
    blocksOf p i (storeRecords
        (segments.flatMap (segmentRecords sticks swapData.blockSize)) swapData).2 =
      blocksOf p i swapData := by
  refine savedBlocks_storeRecords_of_not (free_not_selected hp) hlen fun record hrecord => ?_
  obtain ⟨s, hs, hrecord⟩ := List.mem_flatMap.1 hrecord
  obtain ⟨j, -, rfl⟩ := List.mem_map.1 hrecord
  have hne := hnot s hs
  simpa [blockRecord] using hne

/-- Of the records of segments with different ids those of one segment. -/
lemma filter_flatMap_segmentRecords (blockSize : ℕ) {s : Segment}
    (hpid : ∀ t ∈ segments, t.pid = pid) (hids : (segments.map Segment.id).Nodup)
    (hs : s ∈ segments) :
    (segments.flatMap (segmentRecords sticks blockSize)).filter
        (fun r => r.pid == pid && r.segmentNumber == s.id) =
      segmentRecords sticks blockSize s := by
  induction segments with
  | nil => simp at hs
  | cons t rest ih =>
    have hother : ∀ u : Segment, u.pid = pid → u.id ≠ s.id →
        (segmentRecords sticks blockSize u).filter
          (fun r => r.pid == pid && r.segmentNumber == s.id) = [] := by
      intro u _ hne
      rw [List.filter_eq_nil_iff]
      intro r hr
      obtain ⟨j, -, rfl⟩ := List.mem_map.1 hr
      simp [blockRecord, hne]
    have hown : (segmentRecords sticks blockSize s).filter
        (fun r => r.pid == pid && r.segmentNumber == s.id) = segmentRecords sticks blockSize s := by
      rw [List.filter_eq_self]
      intro r hr
      obtain ⟨j, -, rfl⟩ := List.mem_map.1 hr
      simp [blockRecord, hpid s hs]
    rw [List.map_cons, List.nodup_cons] at hids
    rw [List.flatMap_cons, List.filter_append]
    rcases List.mem_cons.1 hs with rfl | hrest
    · have hnone : (rest.flatMap (segmentRecords sticks blockSize)).filter
          (fun r => r.pid == pid && r.segmentNumber == s.id) = [] := by
        rw [List.filter_eq_nil_iff]
        intro r hr
        obtain ⟨u, hu, hr⟩ := List.mem_flatMap.1 hr
        have hne : u.id ≠ s.id := fun heq => hids.1 (heq ▸ List.mem_map_of_mem hu)
        exact List.filter_eq_nil_iff.1 (hother u (hpid u (List.mem_cons_of_mem _ hu)) hne) r hr
      rw [hown, hnone, List.append_nil]
    · have hne : t.id ≠ s.id := fun heq => hids.1 (heq ▸ List.mem_map_of_mem hrest)
      rw [hother t (hpid t List.mem_cons_self) hne, List.nil_append]
      exact ih (fun u hu => hpid u (List.mem_cons_of_mem _ hu)) hids.2 hrest

/-- The blocks of a segment that is suspended and had none. -/
lemma blocksOf_storeRecords {s : Segment} (hp : pid ≠ UINT32_MAX)
    (hlen : swapData.disk.length = swapData.blockList.length)
    (hpid : ∀ t ∈ segments, t.pid = pid) (hids : (segments.map Segment.id).Nodup)
    (hs : s ∈ segments) (hnone : blocksOf pid s.id swapData = [])
    (hok : (storeRecords
      (segments.flatMap (segmentRecords sticks swapData.blockSize)) swapData).1 = true) :
    blocksOf pid s.id (storeRecords
        (segments.flatMap (segmentRecords sticks swapData.blockSize)) swapData).2 =
      segmentRecords sticks swapData.blockSize s := by
  have hsaved := savedBlocks_storeRecords (p := fun p n => p == pid && n == s.id)
    (free_not_selected hp) hlen (fun record hrecord => ?_)
    (NoneBehind.of_forall (blocksOf_eq_nil.1 hnone)) hok
  · rw [blocksOf, hsaved]
    show blocksOf pid s.id swapData ++ _ = _
    rw [hnone, List.nil_append]
    exact filter_flatMap_segmentRecords swapData.blockSize hpid hids hs
  · obtain ⟨t, ht, hrecord⟩ := List.mem_flatMap.1 hrecord
    obtain ⟨j, -, rfl⟩ := List.mem_map.1 hrecord
    show t.pid ≠ UINT32_MAX
    rw [hpid t ht]
    exact hp

end Suspension

/-! ## The events -/

/-- What the run lemma carries. -/
structure HomesInvariant (k : KernelMemory) : Prop extends OneHome k where
  real : ∀ name ∈ k.mainMemory.names, name.1 ≠ UINT32_MAX
  swap : ∀ swapData ∈ k.swapData, swapData.WellFormed ∧ swapData.FreeUnused

/-- The blocks of a new swap are free. -/
lemma free_of_initSwapData {swapSize blockSize : ℕ} {swapData : SwapData}
    (h : initSwapData swapSize blockSize = some swapData) :
    ∀ block ∈ swapData.blockList, block.pid = UINT32_MAX ∧ block.segmentBlockNumber = -1 := by
  unfold initSwapData at h
  split at h
  · exact absurd h (by simp)
  · obtain rfl := Option.some.inj h
    intro block hblock
    obtain ⟨i, -, rfl⟩ := List.mem_map.1 hblock
    exact ⟨rfl, rfl⟩

/-- A regeneration that fails keeps the names. -/
lemma names_of_regenerationFailure {id pid : ℕ} {size : ℤ} {m m' : MainMemory} {failure : Message}
    (h : regenerateSegment id pid size m = (some failure, m')) : m'.names = m.names := by
  rcases names_regenerateSegment id pid size m with ⟨-, -, hnames⟩ | ⟨-, hfound, -⟩
  · rwa [h] at hnames
  · rw [h] at hfound
    exact absurd hfound (Option.some_ne_none failure)

/-- A record with a real pid leaves the free blocks marked as they are. -/
lemma freeUnused_storeRecords {records : List BlockRecord} {swapData : SwapData}
    (h : swapData.FreeUnused) (hpid : ∀ record ∈ records, record.pid ≠ UINT32_MAX) :
    (storeRecords records swapData).2.FreeUnused := by
  induction records generalizing swapData with
  | nil => exact h
  | cons record rest ih =>
    rw [storeRecords]
    cases hstore : storeRecord record swapData with
    | none => exact h
    | some swapData' =>
      refine ih (fun block hblock hfree => ?_) fun r hr => hpid r (List.mem_cons_of_mem record hr)
      obtain ⟨n, -, rfl⟩ := Option.map_eq_some_iff.1 hstore
      obtain ⟨j, hj⟩ := List.getElem?_of_mem hblock
      simp only [List.getElem?_modify] at hj
      obtain ⟨old, hold, rfl⟩ := Option.map_eq_some_iff.1 hj
      split at hfree
      · have hreal := hpid record List.mem_cons_self
        simp [BlockRecord.entry, BlockData.isFree, hreal] at hfree
      · rename_i hother
        rw [if_neg hother]
        exact h old (List.mem_of_getElem? hold) hfree

/-- The free slots stay unused while a process is brought back. -/
lemma ResumedUpTo.freeUnused {pid i : ℕ} {r₀ r : Resumption} (h : ResumedUpTo pid r₀ i r)
    (h₀ : r₀.swapData.FreeUnused) : r.swapData.FreeUnused := by
  intro block hblock hfree
  obtain ⟨j, hj⟩ := List.getElem?_of_mem hblock
  obtain ⟨old, hold, rfl | rfl⟩ := h.getElem?_blockList hj
  · exact h₀ _ (List.mem_of_getElem? hold) hfree
  · rfl

/-- The names after segments are regenerated that all find a hole. -/
lemma names_regenerateSegments {pid : ℕ} {blocks : List BlockData} {m m' : MainMemory}
    (h : regenerateSegments pid blocks m = some m') :
    m'.names = m.names ++ blocks.map fun block => (pid, block.segmentNumber) := by
  induction blocks generalizing m with
  | nil =>
    obtain rfl := Option.some.inj h
    simp
  | cons block rest ih =>
    rw [regenerateSegments] at h
    split at h
    · rename_i hfound
      rcases names_regenerateSegment block.segmentNumber pid block.segmentSize m with
        ⟨-, hfail, -⟩ | ⟨-, -, hnames⟩
      · exact absurd hfound hfail
      · rw [ih h, hnames, List.append_assoc]
        rfl
    · exact absurd h (by simp)

section Events

variable {k k' : KernelMemory} {pid id : ℕ}

/-- Fewer names, and the same swap. -/
lemma HomesInvariant.of_sublist (h : HomesInvariant k) (hswap : k'.swapData = k.swapData)
    (hnames : k'.mainMemory.names.Sublist k.mainMemory.names) : HomesInvariant k' := by
  refine ⟨⟨hnames.nodup h.owner, ?_, ?_⟩, fun name hname => h.real name (hnames.subset hname), ?_⟩
  · rw [hswap]
    exact h.blocks
  · rw [hswap]
    exact fun swapData hs p i hmem => h.home swapData hs p i (hnames.subset hmem)
  · rw [hswap]
    exact h.swap

/-- One name more, and the same swap. -/
lemma HomesInvariant.append (h : HomesInvariant k) (hswap : k'.swapData = k.swapData)
    (hnames : k'.mainMemory.names = k.mainMemory.names ++ [(pid, id)]) (hnew : IsNewName pid id k) :
    HomesInvariant k' := by
  obtain ⟨hpid, hmem, hblocks⟩ := hnew
  refine ⟨⟨?_, ?_, fun swapData hs p i hname => ?_⟩, fun name hname => ?_, ?_⟩
  · rw [hnames, List.nodup_append]
    refine ⟨h.owner, List.nodup_singleton _, fun a ha b hb heq => ?_⟩
    rw [List.mem_singleton] at hb
    exact hmem (by rw [← hb, ← heq]; exact ha)
  · rw [hswap]
    exact h.blocks
  · rw [hswap] at hs
    rw [hnames, List.mem_append, List.mem_singleton] at hname
    rcases hname with hname | hname
    · exact h.home swapData hs p i hname
    · obtain ⟨rfl, rfl⟩ := Prod.mk.inj hname
      exact hblocks swapData hs
  · rw [hnames, List.mem_append, List.mem_singleton] at hname
    rcases hname with hname | rfl
    · exact h.real name hname
    · exact hpid
  · rw [hswap]
    exact h.swap

/-- The invariant is kept by the creation of a segment that keeps to one home. -/
lemma homes_createSegment {size : ℕ} (h : HomesInvariant k)
    (hok : KeepsOneHome k (.createSegment id pid size))
    (hst : kernelMemoryStep k (.createSegment id pid size) = some k') : HomesInvariant k' := by
  obtain ⟨⟨msgs, k₁⟩, hcreate, rfl⟩ := Option.map_eq_some_iff.1 hst
  unfold handleCreateSegment at hcreate
  split at hcreate
  · obtain ⟨-, rfl⟩ := Prod.mk.inj (Option.some.inj hcreate)
    exact h
  · rename_i hlarge
    obtain ⟨created, hcreated, heq⟩ := Option.map_eq_some_iff.1 hcreate
    obtain ⟨-, rfl⟩ := Prod.mk.inj heq
    rcases names_createSegment hcreated with ⟨-, hsame⟩ | ⟨hspace, hnames⟩
    · refine h.of_sublist rfl ?_
      show created.2.names.Sublist _
      rw [hsame]
    · exact h.append rfl hnames (hok hlarge hspace)

/-- The ids of a process's segments are different. -/
lemma HomesInvariant.nodup_ids (h : HomesInvariant k) (pid : ℕ) :
    ((filterProcessSegments pid k.mainMemory).map Segment.id).Nodup := by
  rw [map_id_filterProcessSegments, idsOf]
  refine (h.owner.filter _).map_on fun a ha b hb heq => Prod.ext ?_ heq
  have hpa := (List.mem_filter.1 ha).2
  have hpb := (List.mem_filter.1 hb).2
  simp only [beq_iff_eq] at hpa hpb
  rw [hpa, hpb]

/-- The segments of the process are in swap now. -/
lemma homes_suspended {swapData : SwapData} (h : HomesInvariant k) (hs : k.swapData = some swapData)
    (hwf' : (storeRecords ((filterProcessSegments pid k.mainMemory).flatMap
      (segmentRecords k.connectedSticks swapData.blockSize)) swapData).2.WellFormed)
    (hok : (storeRecords ((filterProcessSegments pid k.mainMemory).flatMap
      (segmentRecords k.connectedSticks swapData.blockSize)) swapData).1 = true) :
    HomesInvariant { k with
      swapData := some (storeRecords ((filterProcessSegments pid k.mainMemory).flatMap
        (segmentRecords k.connectedSticks swapData.blockSize)) swapData).2
      mainMemory := removeProcessSegments (filterProcessSegments pid k.mainMemory) pid
        k.mainMemory } := by
  set segments := filterProcessSegments pid k.mainMemory with hsegments
  obtain ⟨hwf, hfree⟩ := h.swap swapData hs
  have hpids : ∀ s ∈ segments, s.pid = pid := fun s hmem => by
    simpa [hsegments, filterProcessSegments] using (List.mem_filter.1 hmem).2
  have hname : ∀ s ∈ segments, (s.pid, s.id) ∈ k.mainMemory.names := fun s hmem =>
    List.mem_map_of_mem (List.mem_filter.1 hmem).1
  have hnames : (removeProcessSegments segments pid k.mainMemory).names =
      k.mainMemory.names.filter fun name => name.1 != pid :=
    names_removeProcessSegments pid k.mainMemory
  have hsub : (removeProcessSegments segments pid k.mainMemory).names.Sublist
      k.mainMemory.names := by
    rw [hnames]
    exact List.filter_sublist
  refine ⟨⟨hsub.nodup h.owner, fun swapData' hs' p hp i => ?_, fun swapData' hs' p i hmem => ?_⟩,
    fun name hmem => h.real name (hsub.subset hmem), fun swapData' hs' => ?_⟩
  · obtain rfl := Option.some.inj hs'
    rw [storeRecords_blockSize]
    by_cases hsuspended : ∃ s ∈ segments, s.pid = p ∧ s.id = i
    · obtain ⟨s, hmem, rfl, rfl⟩ := hsuspended
      have hpid := hpids s hmem
      have hnone := h.home swapData hs s.pid s.id (hname s hmem)
      rw [hpid] at hp hnone ⊢
      rw [blocksOf_storeRecords hp hwf.length_disk hpids (h.nodup_ids pid) hmem hnone hok]
      exact isBlockSet_segmentRecords _ _ s
    · rw [blocksOf_storeRecords_of_not hp hwf.length_disk fun s hmem hsame =>
        hsuspended ⟨s, hmem, hsame⟩]
      exact h.blocks swapData hs p hp i
  · obtain rfl := Option.some.inj hs'
    have hold := hsub.subset hmem
    have hp : p ≠ pid := by
      have hkept : (p, i) ∈ k.mainMemory.names.filter fun name => name.1 != pid := hnames ▸ hmem
      simpa using (List.mem_filter.1 hkept).2
    rw [blocksOf_storeRecords_of_not (h.real _ hold) hwf.length_disk fun s hs' hsame =>
      hp (hsame.1.symm.trans (hpids s hs'))]
    exact h.home swapData hs p i hold
  · obtain rfl := Option.some.inj hs'
    refine ⟨hwf', freeUnused_storeRecords hfree fun record hrecord => ?_⟩
    obtain ⟨s, hmem, hrecord⟩ := List.mem_flatMap.1 hrecord
    obtain ⟨j, -, rfl⟩ := List.mem_map.1 hrecord
    exact h.real _ (hname s hmem)

/-- A suspension that fails in an admitted state has stored nothing. -/
lemma storeRecords_eq_of_failed {swapData : SwapData} (h : HomesInvariant k)
    (hs : k.swapData = some swapData) (hok : AllOrNoBlocksFit pid k)
    (hfail : (storeRecords ((filterProcessSegments pid k.mainMemory).flatMap
      (segmentRecords k.connectedSticks swapData.blockSize)) swapData).1 = false) :
    (storeRecords ((filterProcessSegments pid k.mainMemory).flatMap
      (segmentRecords k.connectedSticks swapData.blockSize)) swapData).2 = swapData := by
  have hreal : ∀ record ∈ (filterProcessSegments pid k.mainMemory).flatMap
      (segmentRecords k.connectedSticks swapData.blockSize), record.pid ≠ UINT32_MAX := by
    intro record hrecord
    obtain ⟨s, hmem, hrecord⟩ := List.mem_flatMap.1 hrecord
    obtain ⟨j, -, rfl⟩ := List.mem_map.1 hrecord
    exact h.real _ (List.mem_map_of_mem (List.mem_filter.1 hmem).1)
  have hcount := @countP_isFree_storeRecords _ swapData hreal
  rw [if_neg (by simp [hfail]), length_flatMap_segmentRecords] at hcount
  rcases hok swapData hs with hfit | hfull | rfl
  · omega
  · exact storeRecords_of_full hfull
  · -- no segment carries the pid of a free block
    have hnone : filterProcessSegments UINT32_MAX k.mainMemory = [] := by
      refine List.filter_eq_nil_iff.2 fun s hmem => ?_
      have hpid : s.pid ≠ UINT32_MAX :=
        h.real _ (List.mem_map_of_mem (f := fun s => (s.pid, s.id)) hmem)
      simpa using hpid
    rw [hnone]
    rfl

/-- The invariant is kept by a suspension that keeps to one home. -/
lemma homes_suspendProcess (h : HomesInvariant k) (hok : KeepsOneHome k (.suspendProcess pid))
    (hst : kernelMemoryStep k (.suspendProcess pid) = some k') : HomesInvariant k' := by
  have hwf' := wellFormed_step hst fun swapData hs => (h.swap swapData hs).1
  obtain ⟨⟨msgs, k₁⟩, hsuspend, rfl⟩ := Option.map_eq_some_iff.1 hst
  unfold handleSuspendProcess at hsuspend
  split at hsuspend
  · rename_i hknown
    obtain ⟨⟨answer, k₂⟩, hrun, heq⟩ := Option.map_eq_some_iff.1 hsuspend
    obtain ⟨-, rfl⟩ := Prod.mk.inj heq
    rcases suspendProcess_cases hrun with ⟨rfl, -⟩ |
      ⟨swapData, stored, hs, rfl, ⟨hstored, -, rfl⟩ | ⟨hfail, hcode, rfl⟩⟩
    · exact h
    · exact homes_suspended h hs (hwf' _ rfl) hstored
    · rw [storeRecords_eq_of_failed h hs (hok hknown) hfail, ← hs]
      exact h
  · obtain ⟨-, rfl⟩ := Prod.mk.inj (Option.some.inj hsuspend)
    exact h

/-- The blocks of another process's segment after a resumption. -/
lemma ResumedUpTo.blocksOf_of_ne {r₀ r : Resumption} {i p j : ℕ} (h : ResumedUpTo pid r₀ i r)
    (hp : p ≠ UINT32_MAX) (hne : p ≠ pid)
    (hlen : r₀.swapData.disk.length = r₀.swapData.blockList.length) :
    blocksOf p j r.swapData = blocksOf p j r₀.swapData :=
  h.savedBlocks_of_not (free_not_selected hp) hlen fun n => by simp [Ne.symm hne]

/-- The blocks of a segment of the process that are left. -/
lemma ResumedUpTo.blocksOf_of_eq {r₀ r : Resumption} {i j : ℕ} (h : ResumedUpTo pid r₀ i r)
    (hp : pid ≠ UINT32_MAX) (hlen : r₀.swapData.disk.length = r₀.swapData.blockList.length) :
    blocksOf pid j r.swapData = ((r₀.swapData.slots.drop i).filter
      (isMarked fun p n => p == pid && n == j)).map BlockRecord.of := by
  refine h.savedBlocks_of_pid (free_not_selected hp) hlen fun q n hq => ?_
  simp only [Bool.and_eq_true, beq_iff_eq] at hq
  exact hq.1

/-- The blocks before and behind a position. -/
lemma blocksOf_eq_append {swapData : SwapData} {j : ℕ} (i : ℕ) : blocksOf pid j swapData =
    ((swapData.slots.take i).filter (isMarked fun p n => p == pid && n == j)).map BlockRecord.of ++
      ((swapData.slots.drop i).filter (isMarked fun p n => p == pid && n == j)).map
        BlockRecord.of := by
  rw [← List.map_append, ← List.filter_append, List.take_append_drop]
  rfl

/-- A resumption that is between two segments of the process leaves whole sets of blocks. -/
lemma ResumedUpTo.isBlockSet {r₀ r : Resumption} {i p j : ℕ} (h : ResumedUpTo pid r₀ i r)
    (hp : p ≠ UINT32_MAX) (hlen : r₀.swapData.disk.length = r₀.swapData.blockList.length)
    (hset : IsBlockSet r₀.swapData.blockSize (blocksOf p j r₀.swapData))
    (hleft : p = pid → ∀ first ∈ r₀.swapData.blockList.take i, first.isFirst pid = true →
      ∀ block ∈ r₀.swapData.blockList.drop i, block.pid = pid →
        block.segmentNumber ≠ first.segmentNumber) :
    IsBlockSet r.swapData.blockSize (blocksOf p j r.swapData) := by
  rw [show r.swapData.blockSize = r₀.swapData.blockSize by rw [h.swapData]]
  by_cases hpid : p = pid
  · subst hpid
    rw [h.blocksOf_of_eq hp hlen]
    by_cases hbefore : ∃ slot ∈ r₀.swapData.slots.take i,
        isMarked (fun q n => q == p && n == j) slot = true
    · obtain ⟨first, hmem, hfirst, hid⟩ := exists_first_of_take hset hbefore
      rw [filter_drop_eq_nil hid (hleft rfl first hmem hfirst)]
      exact isBlockSet_nil
    · -- the whole set is behind the position
      have hnone : (r₀.swapData.slots.take i).filter (isMarked fun q n => q == p && n == j) = [] :=
        List.filter_eq_nil_iff.2 fun slot hslot hmark => hbefore ⟨slot, hslot, hmark⟩
      rw [blocksOf_eq_append i, hnone, List.map_nil, List.nil_append] at hset
      exact hset
  · rw [h.blocksOf_of_ne hp hpid hlen]
    exact hset

/-- What a resumption leaves: the segments that start before the position are in memory, and no
block of them is in swap. -/
lemma homes_resumed {swapData : SwapData} {i : ℕ} {r : Resumption} {memory : MainMemory}
    (h : HomesInvariant k) (hs : k.swapData = some swapData)
    (hres : ResumedUpTo pid ⟨k.mainMemory, k.connectedSticks, swapData⟩ i r)
    (hmemory : memory.names = r.mainMemory.names)
    (hleft : ∀ first ∈ swapData.blockList.take i, first.isFirst pid = true →
      ∀ block ∈ swapData.blockList.drop i, block.pid = pid →
        block.segmentNumber ≠ first.segmentNumber) :
    HomesInvariant (Resumption.store { r with mainMemory := memory } k) := by
  obtain ⟨hwf, hfree⟩ := h.swap swapData hs
  have hnames : memory.names = k.mainMemory.names ++
      ((swapData.blockList.take i).filter (BlockData.isFirst pid)).map
        fun block => (pid, block.segmentNumber) :=
    hmemory.trans (names_regenerateSegments hres.mainMemory)
  -- a free block starts no segment
  have hreal : ∀ first ∈ swapData.blockList, first.isFirst pid = true → pid ≠ UINT32_MAX := by
    rintro first hmem hfirst rfl
    simp only [BlockData.isFirst, Bool.and_eq_true, beq_iff_eq] at hfirst
    have := hfree first hmem (by simp [BlockData.isFree, hfirst.1])
    omega
  have hcases : ∀ name ∈ memory.names, name ∈ k.mainMemory.names ∨
      ∃ first ∈ swapData.blockList.take i, first.isFirst pid = true ∧
        name = (pid, first.segmentNumber) := by
    intro name hname
    rw [hnames, List.mem_append] at hname
    refine hname.imp id fun hname => ?_
    obtain ⟨first, hfirst, rfl⟩ := List.mem_map.1 hname
    exact ⟨first, (List.mem_filter.1 hfirst).1, (List.mem_filter.1 hfirst).2, rfl⟩
  refine ⟨⟨?_, fun swapData' hs' p hp j => ?_, fun swapData' hs' p j hname => ?_⟩,
    fun name hname => ?_, fun swapData' hs' => ?_⟩
  · show memory.names.Nodup
    rw [hnames, List.nodup_append]
    refine ⟨h.owner, ?_, fun a ha b hb heq => ?_⟩
    · by_cases hpid : pid = UINT32_MAX
      · have hnone : (swapData.blockList.take i).filter (BlockData.isFirst pid) = [] :=
          List.filter_eq_nil_iff.2 fun first hmem hfirst =>
            hreal first (List.mem_of_mem_take hmem) hfirst hpid
        rw [hnone]
        exact List.nodup_nil
      · have hfirsts := nodup_firsts (h.blocks swapData hs pid hpid) hwf.length_disk
        have hsub : (((swapData.blockList.take i).filter (BlockData.isFirst pid)).map
            BlockData.segmentNumber).Nodup :=
          ((List.take_sublist i _).filter _ |>.map _).nodup hfirsts
        refine List.Nodup.of_map Prod.snd ?_
        rwa [List.map_map]
    · obtain ⟨first, hfirst, rfl⟩ := List.mem_map.1 hb
      obtain ⟨hmem, hfirst⟩ := List.mem_filter.1 hfirst
      subst heq
      simp only [BlockData.isFirst, Bool.and_eq_true, beq_iff_eq] at hfirst
      exact blocksOf_ne_nil hwf.length_disk (List.mem_of_mem_take hmem) hfirst.1 rfl
        (h.home swapData hs pid _ ha)
  · obtain rfl := Option.some.inj hs'
    exact hres.isBlockSet hp hwf.length_disk (h.blocks swapData hs p hp j) fun _ => hleft
  · obtain rfl := Option.some.inj hs'
    show blocksOf p j r.swapData = []
    rcases hcases _ hname with hold | ⟨first, hmem, hfirst, heq⟩
    · have hnone := h.home swapData hs p j hold
      have hp := h.real _ hold
      by_cases hpid : p = pid
      · subst hpid
        rw [blocksOf_eq_append i, List.append_eq_nil_iff] at hnone
        rw [hres.blocksOf_of_eq hp hwf.length_disk]
        exact hnone.2
      · rw [hres.blocksOf_of_ne hp hpid hwf.length_disk]
        exact hnone
    · obtain ⟨rfl, rfl⟩ := Prod.mk.inj heq
      rw [hres.blocksOf_of_eq (hreal first (List.mem_of_mem_take hmem) hfirst) hwf.length_disk,
        filter_drop_eq_nil rfl (hleft first hmem hfirst)]
      rfl
  · rcases hcases name hname with hold | ⟨first, hmem, hfirst, rfl⟩
    · exact h.real name hold
    · exact hreal first (List.mem_of_mem_take hmem) hfirst
  · obtain rfl := Option.some.inj hs'
    have hsizes := hres.swapSizes (wellFormed_iff.1 hwf)
    exact ⟨wellFormed_iff.2 hsizes, hres.freeUnused hfree⟩

/-- The invariant is kept by a resumption that keeps to one home. -/
lemma homes_resumeProcess (h : HomesInvariant k) (hok : KeepsOneHome k (.resumeProcess pid))
    (hst : kernelMemoryStep k (.resumeProcess pid) = some k') : HomesInvariant k' := by
  obtain ⟨⟨msgs, k₁⟩, hresume, rfl⟩ := Option.map_eq_some_iff.1 hst
  cases hs : k.swapData with
  | none =>
    unfold handleResumeSuspendedProcess resumeProcess at hresume
    simp only [hs, Option.some.injEq, Prod.mk.injEq] at hresume
    obtain ⟨-, rfl⟩ := hresume
    exact h
  | some swapData =>
    have hwf := (h.swap swapData hs).1
    rcases resumeProcess_cases hs hwf hresume with ⟨-, rfl, -⟩ |
      ⟨hfits, sent, last, i, r, -, -, hres, ⟨rfl, rfl, -⟩ |
        ⟨block, memory, hblock, hfirst, hregen, -, rfl⟩⟩
    · exact h
    · exact homes_resumed h hs hres rfl fun first _ _ block hblock => by simp at hblock
    · have hfailed : (regenerateSegment block.segmentNumber pid block.segmentSize
          r.mainMemory).1 ≠ none := by
        rw [hregen]
        exact Option.some_ne_none last
      have hnames := names_of_regenerationFailure hregen
      have hi : i < swapData.blockList.length := (List.getElem?_eq_some_iff.1 hblock).1
      exact homes_resumed h hs hres hnames (hok swapData hs hfits i hi
        ⟨block, hblock, hfirst, r.mainMemory, hres.mainMemory, hfailed⟩)

/-- **An event that meets the condition leaves every segment one home.** -/
theorem homes_step {event : Event} (h : HomesInvariant k) (hok : KeepsOneHome k event)
    (hst : kernelMemoryStep k event = some k') : HomesInvariant k' := by
  cases event with
  | newProcess pid scriptOpens =>
    obtain rfl := Option.some.inj hst
    unfold handleNewProcess
    split
    · exact h.of_sublist rfl (List.Sublist.refl _)
    · exact h
  | createSegment id pid size => exact homes_createSegment h hok hst
  | deleteSegment id pid =>
    obtain rfl := Option.some.inj hst
    refine h.of_sublist rfl ?_
    show (removeSegment id pid k.mainMemory).names.Sublist _
    rw [names_removeSegment]
    exact List.erase_sublist
  | suspendProcess pid => exact homes_suspendProcess h hok hst
  | resumeProcess pid => exact homes_resumeProcess h hok hst
  | endProcess pid =>
    obtain rfl := Option.some.inj hst
    unfold handleEndProcess
    split
    · refine h.of_sublist rfl ?_
      show (removeProcessSegments _ pid k.mainMemory).names.Sublist _
      rw [names_removeProcessSegments]
      exact List.filter_sublist
    · exact h
  | stickConnected stick =>
    obtain ⟨memory, hgrow, rfl⟩ := Option.map_eq_some_iff.1 hst
    refine h.of_sublist rfl ?_
    show memory.names.Sublist _
    rw [names_addTotalMemory hgrow]
  | swapConnected swapSize blockSize =>
    have hwf' := wellFormed_step hst fun swapData hs => (h.swap swapData hs).1
    obtain ⟨swapData, hinit, rfl⟩ := Option.map_eq_some_iff.1 hst
    have hfree := free_of_initSwapData hinit
    have hnone : ∀ p, p ≠ UINT32_MAX → ∀ j, blocksOf p j swapData = [] := by
      intro p hp j
      refine blocksOf_eq_nil.2 fun slot hslot => ?_
      have hblock := (hfree slot.1 (List.of_mem_zip hslot).1).1
      simp [isMarked, hblock, Ne.symm hp]
    refine ⟨⟨h.owner, fun swapData' hs p hp j => ?_, fun swapData' hs p j hname => ?_⟩, h.real,
      fun swapData' hs => ⟨hwf' swapData' hs, ?_⟩⟩
    · obtain rfl := Option.some.inj hs
      rw [hnone p hp j]
      exact isBlockSet_nil
    · obtain rfl := Option.some.inj hs
      exact hnone p (h.real _ hname) j
    · obtain rfl := Option.some.inj hs
      exact fun block hblock _ => (hfree block hblock).2
  | memoryWritten physicalAddress bytes =>
    obtain rfl := Option.some.inj hst
    exact h.of_sublist rfl (List.Sublist.refl _)

/-- **The end of a process** that finds all of it leaves nothing of it. -/
lemma noTrace_handleEndProcess (hfinds : FindsAll pid k) : NoTrace pid (handleEndProcess pid k) := by
  obtain ⟨hknown, hblocks⟩ := hfinds
  unfold handleEndProcess
  split
  · refine ⟨fun s hs hpid => ?_, hblocks⟩
    have hname : (s.pid, s.id) ∈
        (removeProcessSegments (filterProcessSegments pid k.mainMemory) pid k.mainMemory).names :=
      List.mem_map_of_mem hs
    rw [names_removeProcessSegments] at hname
    have hne := (List.mem_filter.1 hname).2
    simp [hpid] at hne
  · rename_i hunknown
    exact ⟨hknown.resolve_left hunknown, hblocks⟩

end Events

/-! ## Runs -/

/-- Kernel Memory with the processes that have ended and have not been started again. -/
structure Tracked where
  memory : KernelMemory
  ended : List ℕ
  deriving DecidableEq, Repr

namespace Tracked

/-- Kernel Memory as it starts. -/
def init (segmentMaxSize : ℤ) (strategy : AllocationStrategy) : Tracked :=
  ⟨initKernelMemoryData segmentMaxSize strategy, []⟩

/-- The processes that have ended, after an event. A process starts again with `OP_NEW_PROCESS` or
with a segment. -/
def endedAfter (event : Event) (ended : List ℕ) : List ℕ :=
  match event with
  | .endProcess pid => pid :: ended
  | .newProcess pid _ => ended.filter (· ≠ pid)
  | .createSegment _ pid _ => ended.filter (· ≠ pid)
  | _ => ended

/-- An event. -/
def step (t : Tracked) (event : Event) : Option Tracked :=
  (kernelMemoryStep t.memory event).map fun memory => ⟨memory, endedAfter event t.ended⟩

end Tracked

section Runs

variable {k k' : KernelMemory} {pid : ℕ}

/-- No block carries the pid. -/
lemma savedBlocks_pid_eq_nil {swapData : SwapData}
    (hlen : swapData.disk.length = swapData.blockList.length) :
    savedBlocks (fun p _ => p == pid) swapData = [] ↔
      ∀ block ∈ swapData.blockList, block.pid ≠ pid := by
  rw [savedBlocks, List.map_eq_nil_iff, List.filter_eq_nil_iff]
  conv_rhs => rw [← map_fst_slots hlen]
  simp

/-- No trace: no segment in memory and no block in the swap. -/
lemma noTrace_iff (hswap : ∀ swapData ∈ k.swapData, swapData.WellFormed) : NoTrace pid k ↔
    (∀ name ∈ k.mainMemory.names, name.1 ≠ pid) ∧
      ∀ swapData ∈ k.swapData, savedBlocks (fun p _ => p == pid) swapData = [] := by
  unfold NoTrace MainMemory.names
  rw [List.forall_mem_map]
  refine and_congr_right' (forall₂_congr fun swapData hs => ?_)
  exact (savedBlocks_pid_eq_nil (hswap swapData hs).length_disk).symm

/-- A suspension leaves a process without a trace as it is. -/
lemma noTrace_suspendProcess {p : ℕ} (hpid : pid ≠ UINT32_MAX) (hinv : HomesInvariant k)
    (hnames : ∀ name ∈ k.mainMemory.names, name.1 ≠ pid)
    (hblocks : ∀ swapData ∈ k.swapData, savedBlocks (fun p _ => p == pid) swapData = [])
    (hst : kernelMemoryStep k (.suspendProcess p) = some k') :
    (∀ name ∈ k'.mainMemory.names, name.1 ≠ pid) ∧
      ∀ swapData ∈ k'.swapData, savedBlocks (fun p _ => p == pid) swapData = [] := by
  obtain ⟨⟨msgs, k₁⟩, hsuspend, rfl⟩ := Option.map_eq_some_iff.1 hst
  unfold handleSuspendProcess at hsuspend
  split at hsuspend
  · obtain ⟨⟨answer, k₂⟩, hrun, heq⟩ := Option.map_eq_some_iff.1 hsuspend
    obtain ⟨-, rfl⟩ := Prod.mk.inj heq
    have hkept : ∀ swapData, k.swapData = some swapData →
        savedBlocks (fun q _ => q == pid) (storeRecords ((filterProcessSegments p
          k.mainMemory).flatMap (segmentRecords k.connectedSticks swapData.blockSize)) swapData).2 =
            [] := by
      intro swapData hs
      rw [savedBlocks_storeRecords_of_not (fun _ => by simp [Ne.symm hpid])
        (hinv.swap swapData hs).1.length_disk fun record hrecord => ?_]
      · exact hblocks swapData hs
      · obtain ⟨s, hmem, hrecord⟩ := List.mem_flatMap.1 hrecord
        obtain ⟨j, -, rfl⟩ := List.mem_map.1 hrecord
        have hne : s.pid ≠ pid := hnames _
          (List.mem_map_of_mem (f := fun s => (s.pid, s.id)) (List.mem_filter.1 hmem).1)
        simpa [blockRecord] using hne
    rcases suspendProcess_cases hrun with ⟨rfl, -⟩ |
      ⟨swapData, stored, hs, rfl, ⟨-, -, rfl⟩ | ⟨-, -, rfl⟩⟩
    · exact ⟨hnames, hblocks⟩
    · refine ⟨fun name hname => ?_, fun swapData' hs' => (Option.some.inj hs') ▸ hkept swapData hs⟩
      rw [names_removeProcessSegments] at hname
      exact hnames name (List.mem_filter.1 hname).1
    · exact ⟨hnames, fun swapData' hs' => (Option.some.inj hs') ▸ hkept swapData hs⟩
  · obtain ⟨-, rfl⟩ := Prod.mk.inj (Option.some.inj hsuspend)
    exact ⟨hnames, hblocks⟩

/-- So does a resumption. -/
lemma noTrace_resumed {p i : ℕ} {swapData : SwapData} {r : Resumption} {memory : MainMemory}
    (hpid : pid ≠ UINT32_MAX) (hwf : swapData.WellFormed)
    (hnames : ∀ name ∈ k.mainMemory.names, name.1 ≠ pid)
    (hblocks : savedBlocks (fun p _ => p == pid) swapData = [])
    (hres : ResumedUpTo p ⟨k.mainMemory, k.connectedSticks, swapData⟩ i r)
    (hmemory : memory.names = r.mainMemory.names) :
    (∀ name ∈ memory.names, name.1 ≠ pid) ∧
      savedBlocks (fun p _ => p == pid) r.swapData = [] := by
  refine ⟨fun name hname => ?_, ?_⟩
  · rw [hmemory, names_regenerateSegments hres.mainMemory, List.mem_append] at hname
    rcases hname with hname | hname
    · exact hnames name hname
    · obtain ⟨first, hfirst, rfl⟩ := List.mem_map.1 hname
      obtain ⟨hmem, hfirst⟩ := List.mem_filter.1 hfirst
      simp only [BlockData.isFirst, Bool.and_eq_true, beq_iff_eq] at hfirst
      rw [← hfirst.1]
      exact (savedBlocks_pid_eq_nil hwf.length_disk).1 hblocks first (List.mem_of_mem_take hmem)
  · by_cases hne : p = pid
    · subst hne
      rw [hres.savedBlocks_of_pid (fun _ => by simp [Ne.symm hpid]) hwf.length_disk
        fun q n hq => by simpa using hq]
      rw [savedBlocks, List.map_eq_nil_iff, List.filter_eq_nil_iff] at hblocks
      rw [List.map_eq_nil_iff, List.filter_eq_nil_iff]
      exact fun slot hslot => hblocks slot (List.mem_of_mem_drop hslot)
    · rw [hres.savedBlocks_of_not (fun _ => by simp [Ne.symm hpid]) hwf.length_disk
        fun n => by simp [hne]]
      exact hblocks

/-- **A process without a trace gets one by a creation only.** -/
lemma noTrace_step {event : Event} (hpid : pid ≠ UINT32_MAX) (hinv : HomesInvariant k)
    (htrace : NoTrace pid k) (hcreate : ∀ id size, event ≠ .createSegment id pid size)
    (hst : kernelMemoryStep k event = some k') : NoTrace pid k' := by
  have hswap : ∀ swapData ∈ k.swapData, swapData.WellFormed := fun swapData hs =>
    (hinv.swap swapData hs).1
  have hswap' := wellFormed_step hst hswap
  rw [noTrace_iff hswap] at htrace
  rw [noTrace_iff hswap']
  obtain ⟨hnames, hblocks⟩ := htrace
  cases event with
  | newProcess p scriptOpens =>
    obtain rfl := Option.some.inj hst
    unfold handleNewProcess
    split <;> exact ⟨hnames, hblocks⟩
  | createSegment id p size =>
    obtain ⟨⟨msgs, k₁⟩, hrun, rfl⟩ := Option.map_eq_some_iff.1 hst
    unfold handleCreateSegment at hrun
    split at hrun
    · obtain ⟨-, rfl⟩ := Prod.mk.inj (Option.some.inj hrun)
      exact ⟨hnames, hblocks⟩
    · obtain ⟨created, hcreated, heq⟩ := Option.map_eq_some_iff.1 hrun
      obtain ⟨-, rfl⟩ := Prod.mk.inj heq
      refine ⟨fun name hname => ?_, hblocks⟩
      rcases names_createSegment hcreated with ⟨-, hsame⟩ | ⟨-, hadded⟩
      · rw [hsame] at hname
        exact hnames name hname
      · rw [hadded, List.mem_append, List.mem_singleton] at hname
        rcases hname with hname | rfl
        · exact hnames name hname
        · rintro rfl
          exact hcreate id size rfl
  | deleteSegment id p =>
    obtain rfl := Option.some.inj hst
    refine ⟨fun name hname => ?_, hblocks⟩
    have hold : name ∈ (removeSegment id p k.mainMemory).names := hname
    rw [names_removeSegment] at hold
    exact hnames name (List.mem_of_mem_erase hold)
  | suspendProcess p => exact noTrace_suspendProcess hpid hinv hnames hblocks hst
  | resumeProcess p =>
    obtain ⟨⟨msgs, k₁⟩, hresume, rfl⟩ := Option.map_eq_some_iff.1 hst
    cases hs : k.swapData with
    | none =>
      unfold handleResumeSuspendedProcess resumeProcess at hresume
      simp only [hs, Option.some.injEq, Prod.mk.injEq] at hresume
      obtain ⟨-, rfl⟩ := hresume
      exact ⟨hnames, hblocks⟩
    | some swapData =>
      have hwf := hswap swapData hs
      have hnone := hblocks swapData hs
      rcases resumeProcess_cases hs hwf hresume with ⟨-, rfl, -⟩ |
        ⟨-, sent, last, i, r, -, -, hres, ⟨-, rfl, -⟩ | ⟨block, memory, -, -, hregen, -, rfl⟩⟩
      · exact ⟨hnames, hblocks⟩
      · obtain ⟨hnames', hblocks'⟩ := noTrace_resumed hpid hwf hnames hnone hres rfl
        exact ⟨hnames', fun swapData' hs' => (Option.some.inj hs') ▸ hblocks'⟩
      · have hsame := names_of_regenerationFailure hregen
        obtain ⟨hnames', hblocks'⟩ := noTrace_resumed hpid hwf hnames hnone hres hsame
        exact ⟨hnames', fun swapData' hs' => (Option.some.inj hs') ▸ hblocks'⟩
  | endProcess p =>
    obtain rfl := Option.some.inj hst
    unfold handleEndProcess
    split
    · refine ⟨fun name hname => ?_, hblocks⟩
      have hold : name ∈
          (removeProcessSegments (filterProcessSegments p k.mainMemory) p k.mainMemory).names := hname
      rw [names_removeProcessSegments] at hold
      exact hnames name (List.mem_filter.1 hold).1
    · exact ⟨hnames, hblocks⟩
  | stickConnected stick =>
    obtain ⟨memory, hgrow, rfl⟩ := Option.map_eq_some_iff.1 hst
    refine ⟨fun name hname => ?_, hblocks⟩
    have hold : name ∈ memory.names := hname
    rw [names_addTotalMemory hgrow] at hold
    exact hnames name hold
  | swapConnected swapSize blockSize =>
    obtain ⟨swapData, hinit, rfl⟩ := Option.map_eq_some_iff.1 hst
    refine ⟨hnames, fun swapData' hs' => ?_⟩
    obtain rfl := Option.some.inj hs'
    refine (savedBlocks_pid_eq_nil (hswap' swapData rfl).length_disk).2 fun block hblock => ?_
    rw [(free_of_initSwapData hinit block hblock).1]
    exact Ne.symm hpid
  | memoryWritten physicalAddress bytes =>
    obtain rfl := Option.some.inj hst
    exact ⟨hnames, hblocks⟩

/-- The invariant holds at the start. -/
lemma homes_init (segmentMaxSize : ℤ) (strategy : AllocationStrategy) :
    HomesInvariant (initKernelMemoryData segmentMaxSize strategy) := by
  refine ⟨⟨List.nodup_nil, ?_, ?_⟩, ?_, ?_⟩
  all_goals simp [initKernelMemoryData, MainMemory.names]

/-- **Every segment has one home** in every state of a run whose events meet the condition, and a
process that has ended has left nothing. -/
theorem oneHome_of_run {segmentMaxSize : ℤ} {strategy : AllocationStrategy} {t : Tracked}
    (h : Run Tracked.step (fun t event => KeepsOneHome t.memory event)
      (Tracked.init segmentMaxSize strategy) t) :
    OneHome t.memory ∧ ∀ pid ∈ t.ended, pid ≠ UINT32_MAX → NoTrace pid t.memory := by
  have hinv : HomesInvariant t.memory ∧
      ∀ pid ∈ t.ended, pid ≠ UINT32_MAX → NoTrace pid t.memory := by
    apply h.invariant
    · exact ⟨homes_init segmentMaxSize strategy, by simp [Tracked.init]⟩
    · rintro t event t' ⟨hhomes, htraces⟩ hok hst
      obtain ⟨memory, hrun, rfl⟩ := Option.map_eq_some_iff.1 hst
      refine ⟨homes_step hhomes hok hrun, fun pid hended hpid => ?_⟩
      have hkept : pid ∈ t.ended → (∀ id size, event ≠ .createSegment id pid size) →
          NoTrace pid memory := fun hmem hcreate =>
        noTrace_step hpid hhomes (htraces pid hmem hpid) hcreate hrun
      cases event with
      | endProcess p =>
        rcases List.mem_cons.1 hended with rfl | hmem
        · obtain rfl := Option.some.inj hrun
          exact noTrace_handleEndProcess (hok hpid)
        · exact hkept hmem (by simp)
      | createSegment id p size =>
        obtain ⟨hmem, hne⟩ := List.mem_filter.1 hended
        refine hkept hmem fun id' size' heq => ?_
        obtain ⟨-, rfl, -⟩ := Event.createSegment.inj heq
        simp at hne
      | newProcess p scriptOpens => exact hkept (List.mem_filter.1 hended).1 (by simp)
      | deleteSegment | suspendProcess | resumeProcess | stickConnected | swapConnected
      | memoryWritten => exact hkept hended (by simp)
  exact ⟨hinv.1.toOneHome, hinv.2⟩

end Runs

instance (pid : ℕ) (k : KernelMemory) : Decidable (AllOrNoBlocksFit pid k) :=
  inferInstanceAs (Decidable (∀ swapData ∈ k.swapData, _ ∨ _ ∨ _))

instance (pid i : ℕ) (blockList : List BlockData) (memory : MainMemory) :
    Decidable (StopsAt pid i blockList memory) :=
  inferInstanceAs (Decidable (∃ block ∈ blockList[i]?, _ ∧ ∃ rebuilt ∈ _, _))

instance (pid : ℕ) (k : KernelMemory) : Decidable (StopsBetweenSegments pid k) :=
  inferInstanceAs (Decidable (∀ swapData ∈ k.swapData, _ → ∀ i < swapData.blockList.length,
    _ → ∀ first ∈ swapData.blockList.take i, _ → ∀ block ∈ swapData.blockList.drop i, _ → _))

instance (pid : ℕ) (k : KernelMemory) : Decidable (FindsAll pid k) :=
  inferInstanceAs (Decidable ((_ ∨ ∀ s ∈ k.mainMemory.segments, s.pid ≠ pid) ∧
    ∀ swapData ∈ k.swapData, ∀ block ∈ swapData.blockList, block.pid ≠ pid))

instance (pid : ℕ) (k : KernelMemory) : Decidable (NoTrace pid k) :=
  inferInstanceAs (Decidable ((∀ s ∈ k.mainMemory.segments, s.pid ≠ pid) ∧
    ∀ swapData ∈ k.swapData, ∀ block ∈ swapData.blockList, block.pid ≠ pid))

instance (pid id : ℕ) (k : KernelMemory) : Decidable (IsNewName pid id k) :=
  inferInstanceAs (Decidable (_ ∧ _ ∧ ∀ swapData ∈ k.swapData, blocksOf pid id swapData = []))

instance (k : KernelMemory) : DecidablePred (KeepsOneHome k) := fun event =>
  match event with
  | .createSegment id pid size =>
    inferInstanceAs (Decidable (¬ u32 k.mainMemory.maxSegmentSize < size →
      ¬ computeFreeSpace k.mainMemory.holes < i32 size → IsNewName pid id k))
  | .suspendProcess pid => inferInstanceAs (Decidable (pid ∈ k.processes → AllOrNoBlocksFit pid k))
  | .resumeProcess pid => inferInstanceAs (Decidable (StopsBetweenSegments pid k))
  | .endProcess pid => inferInstanceAs (Decidable (pid ≠ UINT32_MAX → FindsAll pid k))
  | .newProcess _ _ => .isTrue trivial
  | .deleteSegment _ _ => .isTrue trivial
  | .stickConnected _ => .isTrue trivial
  | .swapConnected _ _ => .isTrue trivial
  | .memoryWritten _ _ => .isTrue trivial

/-- Process 1 gets three bytes of a memory of ten, and is suspended to a swap of four blocks. -/
def suspendedProcess : List Event :=
  [.stickConnected ⟨List.replicate 10 0⟩, .swapConnected 8 2, .newProcess 1 true,
    .createSegment 0 1 3, .suspendProcess 1]

/-- The process is resumed before it ends. -/
theorem oneHome_of_run_resumed : ∃ t : Tracked, t.ended = [1] ∧ OneHome t.memory ∧ NoTrace 1 t.memory := by
  have hrun : (executeOk Tracked.step (fun t event => KeepsOneHome t.memory event)
      (Tracked.init 10 .best) (suspendedProcess ++ [.resumeProcess 1, .endProcess 1])).map
        Tracked.ended = some [1] := by decide +kernel
  obtain ⟨t, ht, hended⟩ := Option.map_eq_some_iff.1 hrun
  obtain ⟨hhomes, htraces⟩ := oneHome_of_run (Run.of_executeOk ht)
  exact ⟨t, hended, hhomes, htraces 1 (by simp [hended]) (by decide)⟩

/-- **The end of a suspended process** leaves its blocks in swap. -/
theorem block_of_ended_process : ∃ t, Run Tracked.step (fun _ _ => True) (Tracked.init 10 .best) t ∧
    t.ended = [1] ∧ ¬ NoTrace 1 t.memory := by
  have hrun : (execute Tracked.step (Tracked.init 10 .best)
      (suspendedProcess ++ [.endProcess 1])).map
        (fun t => (t.ended, decide (NoTrace 1 t.memory))) = some ([1], false) := by decide +kernel
  obtain ⟨t, ht, heq⟩ := Option.map_eq_some_iff.1 hrun
  obtain ⟨hended, htrace⟩ := Prod.mk.inj heq
  exact ⟨t, Run.of_execute ht, hended, of_decide_eq_false htrace⟩

end OsSimulator.Memory
