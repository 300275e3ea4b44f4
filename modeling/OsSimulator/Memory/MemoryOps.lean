import OsSimulator.Library.Runs
import OsSimulator.Memory.Resumption

set_option relaxedAutoImplicit false
set_option autoImplicit false

/-!
# The edits of the segment and hole lists

Whatever happens to Kernel Memory, its two lists are edited by four functions only:
`add_total_memory`, `create_segment`, `remove_segment` and `regenerate_segment`. This file says
which of them an event calls, in order, so that what the four keep is kept by every event.

## Main definitions

* `MemoryOp`, `memoryStep` — an edit and its effect.
* `SameSizes` — the sizes of the memory after an edit.
* `memoryOps k event` — the edits an event makes.
* `SwapKept` — what the requests keep of the swap: the table is well formed, and its segments have
  sizes that a segment can have.

## Main results

* `execute_memoryOps` — the main memory after an event is the one after its edits.
* `swapKept_step`, `wellFormed_step` — every event keeps the swap.
-/

namespace OsSimulator.Memory

/-- A call of one of the functions that edit the lists. -/
inductive MemoryOp
  | addTotalMemory (memoryTotal : ℤ)
  | createSegment (id pid : ℕ) (size : ℤ)
  | removeSegment (id pid : ℕ)
  | regenerateSegment (id pid : ℕ) (size : ℤ)
  deriving DecidableEq, Repr

/-- The main memory after an edit, if the call returns. -/
def memoryStep (memory : MainMemory) : MemoryOp → Option MainMemory
  | .addTotalMemory memoryTotal => addTotalMemory memory memoryTotal
  | .createSegment id pid size => (createSegment id pid size memory).map Prod.snd
  | .removeSegment id pid => some (removeSegment id pid memory)
  | .regenerateSegment id pid size => some (regenerateSegment id pid size memory).2

/-- The removal of all the segments of a process. -/
def removals (pid : ℕ) (memory : MainMemory) : List MemoryOp :=
  (filterProcessSegments pid memory).map fun segment => .removeSegment segment.id pid

/-- The regeneration of the segments that start with the given blocks, up to the first that finds
no hole. -/
def regenerations (pid : ℕ) : List BlockData → MainMemory → List MemoryOp
  | [], _ => []
  | block :: rest, memory =>
    let regenerated := regenerateSegment block.segmentNumber pid block.segmentSize memory
    .regenerateSegment block.segmentNumber pid block.segmentSize ::
      if regenerated.1 = none then regenerations pid rest regenerated.2 else []

/-- The edits an event makes. -/
def memoryOps (k : KernelMemory) : Event → List MemoryOp
  | .createSegment id pid size =>
    if u32 k.mainMemory.maxSegmentSize < size then [] else [.createSegment id pid (i32 size)]
  | .deleteSegment id pid => [.removeSegment id pid]
  | .suspendProcess pid =>
    match handleSuspendProcess pid k with
    | some ([⟨.suspensionOk, _⟩], _) => removals pid k.mainMemory
    | _ => []
  | .resumeProcess pid =>
    match k.swapData with
    | some swapData =>
      if canResume pid swapData k.mainMemory then
        regenerations pid (swapData.blockList.filter (BlockData.isFirst pid)) k.mainMemory
      else []
    | none => []
  | .endProcess pid => if pid ∈ k.processes then removals pid k.mainMemory else []
  | .stickConnected stick => [.addTotalMemory stick.stickSize]
  | .newProcess _ _ | .swapConnected _ _ | .memoryWritten _ _ => []

/-! ## The sizes of the memory -/

/-- The bytes an edit adds to the memory. -/
def MemoryOp.added : MemoryOp → ℤ
  | .addTotalMemory memoryTotal => memoryTotal
  | .createSegment _ _ _ | .removeSegment _ _ | .regenerateSegment _ _ _ => 0

/-- The sizes after an edit that adds `added` bytes. -/
structure SameSizes (added : ℤ) (m m' : MainMemory) : Prop where
  maxSegmentSize : m'.maxSegmentSize = m.maxSegmentSize
  totalSize : m'.totalSize = m.totalSize + added

variable {m m' m'' : MainMemory}

/-- Nothing added before or after. -/
lemma SameSizes.trans (h : SameSizes 0 m m') (h' : SameSizes 0 m' m'') : SameSizes 0 m m'' where
  maxSegmentSize := h'.maxSegmentSize.trans h.maxSegmentSize
  totalSize := by rw [h'.totalSize, h.totalSize, add_zero]

/-- The search for a hole keeps every size. -/
lemma sameSizes_selectHole (size : ℕ) (m : MainMemory) : SameSizes 0 m (selectHole size m).2 := by
  unfold selectHole
  split <;> exact ⟨rfl, (add_zero _).symm⟩

/-- So does a compaction. -/
lemma sameSizes_compactMemory {msg : Message} (h : compactMemory m = some (msg, m')) :
    SameSizes 0 m m' := by
  obtain ⟨lastEnd, -, heq⟩ := Option.map_eq_some_iff.1 h
  obtain ⟨-, rfl⟩ := Prod.mk.inj heq
  exact ⟨rfl, (add_zero _).symm⟩

/-- So does a new segment. -/
lemma sameSizes_updateSegmentList (hole : Hole) (size : ℤ) (pid id : ℕ) (m : MainMemory) :
    SameSizes 0 m (updateSegmentList m hole size pid id) :=
  ⟨rfl, (add_zero _).symm⟩

/-- So does `create_segment`. -/
lemma sameSizes_createSegment {id pid : ℕ} {size : ℤ} {msgs : List Message}
    (h : createSegment id pid size m = some (msgs, m')) : SameSizes 0 m m' := by
  have hfirst := sameSizes_selectHole (u32 size) m
  unfold createSegment at h
  dsimp only at h
  split at h
  · obtain ⟨-, rfl⟩ := Prod.mk.inj (Option.some.inj h)
    exact ⟨rfl, (add_zero _).symm⟩
  · split at h
    · obtain ⟨compacted, hcompact, heq⟩ := Option.map_eq_some_iff.1 h
      obtain ⟨-, rfl⟩ := Prod.mk.inj heq
      exact (hfirst.trans (sameSizes_compactMemory hcompact)).trans
        ((sameSizes_selectHole _ _).trans (sameSizes_updateSegmentList _ _ _ _ _))
    · obtain ⟨-, rfl⟩ := Prod.mk.inj (Option.some.inj h)
      exact hfirst.trans (sameSizes_updateSegmentList _ _ _ _ _)

/-- So does a segment that comes back. -/
lemma sameSizes_regenerateSegment (id pid : ℕ) (size : ℤ) (m : MainMemory) :
    SameSizes 0 m (regenerateSegment id pid size m).2 := by
  unfold regenerateSegment
  dsimp only
  split
  · exact ⟨rfl, (add_zero _).symm⟩
  · split
    · exact sameSizes_selectHole _ _
    · exact (sameSizes_selectHole _ _).trans (sameSizes_updateSegmentList _ _ _ _ _)

/-- No edit changes the largest size of a segment, and only a new stick adds bytes. -/
lemma sameSizes_memoryStep {op : MemoryOp} (h : memoryStep m op = some m') :
    SameSizes op.added m m' := by
  cases op with
  | addTotalMemory n =>
    simp only [memoryStep, addTotalMemory] at h
    split at h
    · obtain rfl := Option.some.inj h
      exact ⟨rfl, rfl⟩
    · simp at h
  | createSegment id pid size =>
    obtain ⟨⟨msgs, m₁⟩, hcreate, rfl⟩ := Option.map_eq_some_iff.1 h
    exact sameSizes_createSegment hcreate
  | removeSegment id pid =>
    obtain rfl := Option.some.inj h
    unfold removeSegment
    split <;> exact ⟨rfl, (add_zero _).symm⟩
  | regenerateSegment id pid size =>
    obtain rfl := Option.some.inj h
    exact sameSizes_regenerateSegment id pid size m

/-! ## Removals and regenerations -/

/-- The segments of a process are removed one after another. -/
lemma execute_removals (pid : ℕ) (segments : List Segment) (memory : MainMemory) :
    execute memoryStep memory
        (segments.map fun segment => MemoryOp.removeSegment segment.id pid) =
      some (removeProcessSegments segments pid memory) := by
  induction segments generalizing memory with
  | nil => rfl
  | cons segment rest ih => exact ih (removeSegment segment.id pid memory)

/-- The regenerations that all find a hole. -/
lemma execute_regenerations {pid : ℕ} {blocks : List BlockData} {memory memory' : MainMemory}
    (h : regenerateSegments pid blocks memory = some memory') :
    execute memoryStep memory (regenerations pid blocks memory) = some memory' := by
  induction blocks generalizing memory with
  | nil => exact h
  | cons block rest ih =>
    rw [regenerateSegments] at h
    split at h
    · rename_i hok
      simp only [regenerations, hok, if_true, execute, memoryStep, Option.bind_some]
      exact ih h
    · simp at h

/-- The regenerations up to one that finds no hole. -/
lemma execute_regenerations_of_failure {pid : ℕ} {blocks rest : List BlockData}
    {block : BlockData} {failure : Message} {memory memory' memory'' : MainMemory}
    (h : regenerateSegments pid blocks memory = some memory')
    (hfail : regenerateSegment block.segmentNumber pid block.segmentSize memory' =
      (some failure, memory'')) :
    execute memoryStep memory (regenerations pid (blocks ++ block :: rest) memory) =
      some memory'' := by
  induction blocks generalizing memory with
  | nil =>
    obtain rfl := Option.some.inj h
    simp [regenerations, hfail, execute, memoryStep]
  | cons b blocks ih =>
    rw [regenerateSegments] at h
    split at h
    · rename_i hok
      simp only [List.cons_append, regenerations, hok, if_true, execute, memoryStep,
        Option.bind_some]
      exact ih h
    · simp at h

/-! ## The swap along the events -/

/-- What the requests keep of the swap: the table is well formed, and the segments in it have sizes
that a segment can have. -/
structure SwapKept (swapData : SwapData) : Prop extends swapData.WellFormed where
  size_range : ∀ block ∈ swapData.blockList, block.segmentBlockNumber = 0 →
    0 ≤ block.segmentSize ∧ block.segmentSize ≤ INT_MAX

/-- The table is well formed, and the sizes of the segments in it have a property. -/
structure SwapSizes (P : ℤ → Prop) (swapData : SwapData) : Prop extends swapData.WellFormed where
  size : ∀ block ∈ swapData.blockList, block.segmentBlockNumber = 0 → P block.segmentSize

/-- The bounds of the sizes as a case of the general condition. -/
lemma swapKept_iff {swapData : SwapData} :
    SwapKept swapData ↔ SwapSizes (fun size => 0 ≤ size ∧ size ≤ INT_MAX) swapData :=
  ⟨fun h => ⟨h.toWellFormed, h.size_range⟩, fun h => ⟨h.toWellFormed, h.size⟩⟩

/-- The form of the swap as another one. -/
lemma wellFormed_iff {swapData : SwapData} :
    swapData.WellFormed ↔ SwapSizes (fun _ => True) swapData :=
  ⟨fun h => ⟨h, fun _ _ _ => trivial⟩, fun h => h.toWellFormed⟩

variable {P : ℤ → Prop}

/-- An empty swap meets any condition. -/
lemma swapSizes_initSwapData {swapSize blockSize : ℕ} {swapData : SwapData}
    (h : initSwapData swapSize blockSize = some swapData) : SwapSizes P swapData := by
  unfold initSwapData at h
  split at h
  · simp at h
  · rename_i hpos
    obtain rfl := Option.some.inj h
    refine ⟨⟨Nat.pos_of_ne_zero hpos, fun i block hblock => ?_, by simp⟩, fun block hblock => ?_⟩
    · rw [List.getElem?_map] at hblock
      obtain ⟨j, hj, rfl⟩ := Option.map_eq_some_iff.1 hblock
      obtain ⟨hi, rfl⟩ := List.getElem?_eq_some_iff.1 hj
      exact List.getElem_range hi
    · obtain ⟨i, -, rfl⟩ := List.mem_map.1 hblock
      intro hfirst
      exact absurd hfirst (by simp)

/-- The condition is kept by a record that meets it. -/
lemma swapSizes_storeRecord {record : BlockRecord} {swapData swapData' : SwapData}
    (h : SwapSizes P swapData) (hsize : P record.segmentSize)
    (hstore : storeRecord record swapData = some swapData') : SwapSizes P swapData' := by
  obtain ⟨n, -, rfl⟩ := Option.map_eq_some_iff.1 hstore
  refine ⟨⟨h.blockSize_pos, fun i block hblock => ?_, by simp [h.length_disk]⟩,
    fun block hblock => ?_⟩
  · simp only [List.getElem?_modify] at hblock
    obtain ⟨old, hold, rfl⟩ := Option.map_eq_some_iff.1 hblock
    have hnumber := h.numbered i old hold
    split <;> exact hnumber
  · obtain ⟨i, hi⟩ := List.getElem?_of_mem hblock
    simp only [List.getElem?_modify] at hi
    obtain ⟨old, hold, rfl⟩ := Option.map_eq_some_iff.1 hi
    split
    · exact fun _ => hsize
    · exact h.size old (List.mem_of_getElem? hold)

/-- So it is by several. -/
lemma swapSizes_storeRecords {records : List BlockRecord} {swapData : SwapData}
    (h : SwapSizes P swapData) (hsize : ∀ record ∈ records, P record.segmentSize) :
    SwapSizes P (storeRecords records swapData).2 := by
  induction records generalizing swapData with
  | nil => exact h
  | cons record rest ih =>
    rw [storeRecords]
    split
    · exact h
    · rename_i swapData' hstore
      exact ih (swapSizes_storeRecord h (hsize record List.mem_cons_self) hstore)
        fun r hr => hsize r (List.mem_cons_of_mem record hr)

/-- A block of the table in the loop of a resumption: as in the beginning, or freed. -/
lemma ResumedUpTo.getElem?_blockList {pid i j : ℕ} {r₀ r : Resumption} {block : BlockData}
    (h : ResumedUpTo pid r₀ i r) (hblock : r.swapData.blockList[j]? = some block) :
    ∃ old, r₀.swapData.blockList[j]? = some old ∧ (block = old ∨ block = old.removed) := by
  rw [h.blockList] at hblock
  by_cases hj : j < ((r₀.swapData.blockList.take i).map (clearBlock pid)).length
  · rw [List.getElem?_append_left hj, List.getElem?_map] at hblock
    obtain ⟨old, hold, rfl⟩ := Option.map_eq_some_iff.1 hblock
    rw [List.length_map, List.length_take] at hj
    rw [List.getElem?_take_of_lt (by omega)] at hold
    refine ⟨old, hold, ?_⟩
    unfold clearBlock
    split
    · exact Or.inr rfl
    · exact Or.inl rfl
  · rw [List.getElem?_append_right (by omega), List.getElem?_drop] at hblock
    rw [List.length_map, List.length_take] at hblock hj
    refine ⟨block, ?_, Or.inl rfl⟩
    by_cases hi : i ≤ r₀.swapData.blockList.length
    · rwa [min_eq_left hi, Nat.add_sub_cancel' (by omega)] at hblock
    · rw [List.getElem?_eq_none (by omega)] at hblock
      simp at hblock

/-- It is kept by a resumption. -/
lemma ResumedUpTo.swapSizes {pid i : ℕ} {r₀ r : Resumption} (h : ResumedUpTo pid r₀ i r)
    (h₀ : SwapSizes P r₀.swapData) : SwapSizes P r.swapData := by
  refine ⟨⟨?_, fun j block hblock => ?_, ?_⟩, fun block hblock => ?_⟩
  · rw [h.swapData]
    exact h₀.blockSize_pos
  · obtain ⟨old, hold, rfl | rfl⟩ := h.getElem?_blockList hblock
    · exact h₀.numbered j _ hold
    · exact h₀.numbered j old hold
  · rw [h.length_blockList, h.swapData]
    exact h₀.length_disk
  · obtain ⟨j, hj⟩ := List.getElem?_of_mem hblock
    obtain ⟨old, hold, rfl | rfl⟩ := h.getElem?_blockList hj
    · exact h₀.size _ (List.mem_of_getElem? hold)
    · intro hfirst
      exact absurd hfirst (by simp [BlockData.removed])

/-- A suspension that returns, by its answer: without a swap; with the process in swap; or with a
table that is full. -/
lemma suspendProcess_cases {pid : ℕ} {k k' : KernelMemory} {answer : Message}
    (h : suspendProcess pid k = some (answer, k')) :
    (k' = k ∧ k.swapData = none ∧ answer.opCode = .suspensionFailed) ∨
      ∃ swapData stored, k.swapData = some swapData ∧
        stored = storeRecords ((filterProcessSegments pid k.mainMemory).flatMap
          (segmentRecords k.connectedSticks swapData.blockSize)) swapData ∧
        ((stored.1 = true ∧
            (answer.opCode = .suspensionOk ↔ filterProcessSegments pid k.mainMemory ≠ []) ∧
            k' = { k with
              swapData := some stored.2
              mainMemory := removeProcessSegments (filterProcessSegments pid k.mainMemory) pid
                k.mainMemory }) ∨
          (stored.1 = false ∧ answer.opCode = .suspensionFailed ∧
            k' = { k with swapData := some stored.2 })) := by
  unfold suspendProcess at h
  cases hswap : k.swapData with
  | none =>
    simp only [hswap, Option.some.injEq, Prod.mk.injEq] at h
    obtain ⟨rfl, rfl⟩ := h
    exact .inl ⟨rfl, rfl, rfl⟩
  | some swapData =>
    simp only [hswap] at h
    obtain ⟨stored, hrun, heq⟩ := Option.map_eq_some_iff.1 h
    refine .inr ⟨swapData, stored, rfl, suspendSegments_eq hrun, ?_⟩
    cases hok : stored.1 with
    | true =>
      simp only [hok, if_true, Prod.mk.injEq] at heq
      obtain ⟨rfl, rfl⟩ := heq
      refine .inl ⟨rfl, ?_, rfl⟩
      cases filterProcessSegments pid k.mainMemory <;> simp
    | false =>
      simp only [hok, Bool.false_eq_true, if_false, Prod.mk.injEq] at heq
      obtain ⟨rfl, rfl⟩ := heq
      exact .inr ⟨rfl, rfl, rfl⟩

/-- Every event keeps the table well formed, and a property of the sizes in it that the segments in
memory have as well. -/
theorem swapSizes_step {k k' : KernelMemory} {event : Event}
    (h : kernelMemoryStep k event = some k')
    (hswap : ∀ swapData ∈ k.swapData, SwapSizes P swapData)
    (hsize : ∀ s ∈ k.mainMemory.segments, P s.size) :
    ∀ swapData ∈ k'.swapData, SwapSizes P swapData := by
  cases event with
  | newProcess pid scriptOpens =>
    obtain rfl := Option.some.inj h
    unfold handleNewProcess
    split <;> exact hswap
  | createSegment id pid size =>
    obtain ⟨⟨msgs, k₁⟩, hcreate, rfl⟩ := Option.map_eq_some_iff.1 h
    unfold handleCreateSegment at hcreate
    split at hcreate
    · obtain ⟨-, rfl⟩ := Prod.mk.inj (Option.some.inj hcreate)
      exact hswap
    · obtain ⟨created, -, heq⟩ := Option.map_eq_some_iff.1 hcreate
      obtain ⟨-, rfl⟩ := Prod.mk.inj heq
      exact hswap
  | deleteSegment id pid =>
    obtain rfl := Option.some.inj h
    exact hswap
  | suspendProcess pid =>
    obtain ⟨⟨msgs, k₁⟩, hsuspend, rfl⟩ := Option.map_eq_some_iff.1 h
    unfold handleSuspendProcess at hsuspend
    split at hsuspend
    · obtain ⟨⟨answer, k₂⟩, hrun, heq⟩ := Option.map_eq_some_iff.1 hsuspend
      obtain ⟨-, rfl⟩ := Prod.mk.inj heq
      rcases suspendProcess_cases hrun with ⟨rfl, -⟩ | ⟨swapData, stored, hs, rfl, hcases⟩
      · exact hswap
      · have hstored : SwapSizes P (storeRecords ((filterProcessSegments pid k.mainMemory).flatMap
            (segmentRecords k.connectedSticks swapData.blockSize)) swapData).2 := by
          refine swapSizes_storeRecords (hswap swapData hs) fun record hrecord => ?_
          obtain ⟨segment, hsegment, hrecord⟩ := List.mem_flatMap.1 hrecord
          obtain ⟨i, -, rfl⟩ := List.mem_map.1 hrecord
          exact hsize segment (List.mem_filter.1 hsegment).1
        intro swapData' hs'
        rcases hcases with ⟨-, -, rfl⟩ | ⟨-, -, rfl⟩ <;>
          exact (Option.some.inj hs') ▸ hstored
    · obtain ⟨-, rfl⟩ := Prod.mk.inj (Option.some.inj hsuspend)
      exact hswap
  | resumeProcess pid =>
    obtain ⟨⟨msgs, k₁⟩, hresume, rfl⟩ := Option.map_eq_some_iff.1 h
    cases hs : k.swapData with
    | none =>
      unfold handleResumeSuspendedProcess resumeProcess at hresume
      simp only [hs, Option.some.injEq, Prod.mk.injEq] at hresume
      obtain ⟨-, rfl⟩ := hresume
      exact hswap
    | some swapData =>
      have hkept := hswap swapData hs
      rcases resumeProcess_cases hs hkept.toWellFormed hresume with ⟨-, rfl, -⟩ |
        ⟨-, sent, last, i, r, -, -, hres, ⟨-, rfl, -⟩ | ⟨block, memory, -, -, -, -, rfl⟩⟩
      · exact hswap
      · intro swapData' hs'
        exact (Option.some.inj hs') ▸ hres.swapSizes hkept
      · intro swapData' hs'
        exact (Option.some.inj hs') ▸ hres.swapSizes hkept
  | endProcess pid =>
    obtain rfl := Option.some.inj h
    unfold handleEndProcess
    split <;> exact hswap
  | stickConnected stick =>
    obtain ⟨mainMemory, -, rfl⟩ := Option.map_eq_some_iff.1 h
    exact hswap
  | swapConnected swapSize blockSize =>
    obtain ⟨swapData', hinit, rfl⟩ := Option.map_eq_some_iff.1 h
    intro swapData hs
    exact (Option.some.inj hs) ▸ swapSizes_initSwapData hinit
  | memoryWritten physicalAddress bytes =>
    obtain rfl := Option.some.inj h
    exact hswap

/-- Every event keeps the swap, as long as the segments in memory have sizes that a segment can
have. -/
theorem swapKept_step {k k' : KernelMemory} {event : Event}
    (h : kernelMemoryStep k event = some k') (hswap : ∀ swapData ∈ k.swapData, SwapKept swapData)
    (hsize : ∀ s ∈ k.mainMemory.segments, 0 ≤ s.size ∧ s.size ≤ INT_MAX) :
    ∀ swapData ∈ k'.swapData, SwapKept swapData := by
  simp only [swapKept_iff] at hswap ⊢
  exact swapSizes_step h hswap hsize

/-- Every event keeps the table well formed. -/
theorem wellFormed_step {k k' : KernelMemory} {event : Event}
    (h : kernelMemoryStep k event = some k')
    (hswap : ∀ swapData ∈ k.swapData, swapData.WellFormed) :
    ∀ swapData ∈ k'.swapData, swapData.WellFormed := by
  simp only [wellFormed_iff] at hswap ⊢
  exact swapSizes_step h hswap fun _ _ => trivial

/-! ## The main memory along the events -/

/-- The edits of a resumption. -/
lemma execute_memoryOps_resume {pid : ℕ} {k k' : KernelMemory} {msgs : List Message}
    (h : resumeProcess pid k = some (msgs, k'))
    (hswap : ∀ swapData ∈ k.swapData, swapData.WellFormed) :
    execute memoryStep k.mainMemory (memoryOps k (.resumeProcess pid)) = some k'.mainMemory := by
  simp only [memoryOps]
  cases hs : k.swapData with
  | none =>
    unfold resumeProcess at h
    simp only [hs, Option.some.injEq, Prod.mk.injEq] at h
    obtain ⟨-, rfl⟩ := h
    rfl
  | some swapData =>
    have hkept := hswap swapData hs
    rcases resumeProcess_cases hs hkept h with ⟨hfits, rfl, -⟩ |
      ⟨hfits, sent, last, i, r, -, -, hres, ⟨rfl, rfl, -⟩ |
        ⟨block, memory, hblock, hfirst, hregen, -, rfl⟩⟩
    · simp only [hfits, Bool.false_eq_true, if_false]
      rfl
    · simp only [hfits, if_true]
      have hall := hres.mainMemory
      rw [List.take_length] at hall
      exact execute_regenerations hall
    · simp only [hfits, if_true]
      obtain ⟨hi, rfl⟩ := List.getElem?_eq_some_iff.1 hblock
      have hsplit : swapData.blockList.filter (BlockData.isFirst pid) =
          (swapData.blockList.take i).filter (BlockData.isFirst pid) ++
            swapData.blockList[i] :: (swapData.blockList.drop (i + 1)).filter
              (BlockData.isFirst pid) := by
        conv_lhs => rw [← List.take_append_drop i swapData.blockList, List.drop_eq_getElem_cons hi]
        rw [List.filter_append, List.filter_cons_of_pos hfirst]
      rw [hsplit]
      exact execute_regenerations_of_failure hres.mainMemory hregen

/-- **The edits of an event**: the main memory after it is the one before it after the edits. -/
theorem execute_memoryOps {k k' : KernelMemory} {event : Event}
    (h : kernelMemoryStep k event = some k')
    (hswap : ∀ swapData ∈ k.swapData, swapData.WellFormed) :
    execute memoryStep k.mainMemory (memoryOps k event) = some k'.mainMemory := by
  cases event with
  | newProcess pid scriptOpens =>
    obtain rfl := Option.some.inj h
    unfold handleNewProcess
    split <;> rfl
  | createSegment id pid size =>
    obtain ⟨⟨msgs, k₁⟩, hcreate, rfl⟩ := Option.map_eq_some_iff.1 h
    unfold handleCreateSegment at hcreate
    simp only [memoryOps]
    split at hcreate
    · rename_i hlarge
      obtain ⟨-, rfl⟩ := Prod.mk.inj (Option.some.inj hcreate)
      rw [if_pos hlarge]
      rfl
    · rename_i hlarge
      obtain ⟨created, hcreated, heq⟩ := Option.map_eq_some_iff.1 hcreate
      obtain ⟨-, rfl⟩ := Prod.mk.inj heq
      rw [if_neg hlarge]
      simp [execute, memoryStep, hcreated]
  | deleteSegment id pid =>
    obtain rfl := Option.some.inj h
    rfl
  | suspendProcess pid =>
    obtain ⟨⟨msgs, k₁⟩, hsuspend, rfl⟩ := Option.map_eq_some_iff.1 h
    simp only [memoryOps, hsuspend]
    unfold handleSuspendProcess at hsuspend
    split at hsuspend
    · obtain ⟨⟨answer, k₂⟩, hrun, heq⟩ := Option.map_eq_some_iff.1 hsuspend
      obtain ⟨rfl, rfl⟩ := Prod.mk.inj heq
      rcases suspendProcess_cases hrun with ⟨rfl, -, hcode⟩ | ⟨swapData, stored, hs, -, hcases⟩
      · obtain ⟨code, text⟩ := answer
        obtain rfl : code = .suspensionFailed := hcode
        rfl
      · obtain ⟨code, text⟩ := answer
        rcases hcases with ⟨-, hcode, rfl⟩ | ⟨-, hcode, rfl⟩
        · by_cases hok : code = .suspensionOk
          · subst hok
            exact execute_removals pid _ _
          · have hnone : filterProcessSegments pid k.mainMemory = [] := by
              by_contra hne
              exact hok (hcode.2 hne)
            rw [hnone]
            cases code <;> first | rfl | exact absurd rfl hok
        · obtain rfl : code = .suspensionFailed := hcode
          rfl
    · obtain ⟨rfl, rfl⟩ := Prod.mk.inj (Option.some.inj hsuspend)
      rfl
  | resumeProcess pid =>
    obtain ⟨⟨msgs, k₁⟩, hresume, rfl⟩ := Option.map_eq_some_iff.1 h
    exact execute_memoryOps_resume hresume hswap
  | endProcess pid =>
    obtain rfl := Option.some.inj h
    simp only [memoryOps, handleEndProcess]
    split
    · exact execute_removals pid _ _
    · rfl
  | stickConnected stick =>
    obtain ⟨mainMemory, hgrow, rfl⟩ := Option.map_eq_some_iff.1 h
    simp [memoryOps, execute, memoryStep, hgrow]
  | swapConnected swapSize blockSize =>
    obtain ⟨swapData', -, rfl⟩ := Option.map_eq_some_iff.1 h
    rfl
  | memoryWritten physicalAddress bytes =>
    obtain rfl := Option.some.inj h
    rfl

end OsSimulator.Memory
