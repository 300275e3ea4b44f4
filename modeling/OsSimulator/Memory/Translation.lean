import OsSimulator.Cpu.Isolation
import OsSimulator.Library.Numbered
import OsSimulator.Memory.SegmentNames

set_option relaxedAutoImplicit false
set_option autoImplicit false

/-!
# The two translations of a logical address

A logical address names a segment of a process by a number. Kernel Memory counts the segments of
the process in its list (`find_segment`); a CPU looks for the id in the table that Kernel Memory
sent it (`find_segment_by_id`). Both rules give the same segment for every address exactly when the
ids of each process are its positions in the list, as far as addresses reach. The ids are chosen by
the programs, so this is a property of the requests: this file says of which.

## Main definitions

* `translateLogicalAddress`, `sendSegmentTable` — the source's functions.
* `TranslationsAgree` — the two rules find the same segment and the same physical address.
* `ContinuesNumbering` — the event keeps the ids of every process equal to the positions.

## Main results

* `translationsAgree_iff` — the states in which the translations agree.
* `translationsAgree_of_run` — they agree in a run of events that continue the numbering.
* `translations_differ` — a first segment with the id `1`.
-/

namespace OsSimulator.Memory

open OsSimulator.Cpu (findSegmentById mmu)

variable {m m' : MainMemory}

/-- `translate_logical_address`; a segment size of zero divides by zero. The sum is a `uint32_t`,
which the result converts to `int`. -/
def translateLogicalAddress (pid : ℕ) (logicalAddress : UInt32) (mainMemory : MainMemory) :
    Option ℤ :=
  let segMax := UInt32.ofInt mainMemory.maxSegmentSize
  if segMax = 0 then none
  else
    let segmentNumber := logicalAddress / segMax
    let offsetInSegment := logicalAddress % segMax
    match findSegment mainMemory pid segmentNumber.toNat with
    | none => some (-1)
    | some foundSeg => some (i32 (foundSeg.base + offsetInSegment.toNat))

/-- `send_segment_table`: the table a CPU receives. -/
def sendSegmentTable (pid : ℕ) (mainMemory : MainMemory) : List Segment :=
  filterProcessSegments pid mainMemory

/-- The table a CPU receives is in range when the memory is laid out. -/
lemma tableInRange_sendSegmentTable (h : Layout m) (pid : ℕ) :
    Cpu.TableInRange (sendSegmentTable pid m) := by
  intro s hs
  have hsegment := h.segment (List.mem_filter.1 hs).1
  have htotal := h.total_range
  exact ⟨hsegment.1, hsegment.2.1, by omega⟩

/-- For every process and logical address, Kernel Memory and a CPU that has the table of the process
find the same segment, and the addresses they compute in it are both the base plus the offset, as
32-bit numbers. A CPU computes none when it reports the access. -/
def TranslationsAgree (k : KernelMemory) : Prop :=
  ∀ (pid : ℕ) (logicalAddress size : UInt32) (cpu : Cpu.State),
    cpu.maxSegmentSize = UInt32.ofInt k.mainMemory.maxSegmentSize →
    cpu.segmentTable = sendSegmentTable pid k.mainMemory →
    let segmentNumber := (logicalAddress / cpu.maxSegmentSize).toNat
    let offset := (logicalAddress % cpu.maxSegmentSize).toNat
    findSegment k.mainMemory pid segmentNumber = findSegmentById cpu.segmentTable segmentNumber ∧
      ∀ segment ∈ findSegment k.mainMemory pid segmentNumber,
        (∀ physicalAddress ∈ translateLogicalAddress pid logicalAddress k.mainMemory,
          u32 physicalAddress = u32 (segment.base + offset)) ∧
        (∀ physicalAddress ∈ (mmu logicalAddress size cpu).1,
          (mmu logicalAddress size cpu).2.sent = cpu.sent →
            physicalAddress.toNat = u32 (segment.base + offset))

/-! ## The states in which they agree -/

/-- The largest segment number of a logical address. -/
def lastSegmentNumber (m : MainMemory) : ℕ := UINT32_MAX / u32 m.maxSegmentSize

/-- The ids of every process are its positions, as far as addresses reach. -/
def InOrder (m : MainMemory) : Prop :=
  ∀ pid, NumberedUpTo id (lastSegmentNumber m) (idsOf pid m.names)

/-- The segments of a process are numbered by their names. -/
lemma numberedUpTo_filterProcessSegments {bound pid : ℕ} :
    NumberedUpTo Segment.id bound (filterProcessSegments pid m) ↔
      NumberedUpTo id bound (idsOf pid m.names) := by
  rw [← map_id_filterProcessSegments]
  constructor
  · intro h
    exact h.map fun _ => rfl
  · intro h n hn s hs
    refine h n hn s.id ?_
    rw [List.getElem?_map, hs]
    rfl

/-- In memory in that order the translations agree. -/
lemma translationsAgree_of_inOrder {k : KernelMemory} (h : InOrder k.mainMemory) :
    TranslationsAgree k := by
  intro pid logicalAddress size cpu hmax htable segmentNumber offset
  have hnumber : segmentNumber ≤ lastSegmentNumber k.mainMemory := by
    have hlt := logicalAddress.toNat_lt
    simp only [segmentNumber, UInt32.toNat_div, hmax, toNat_ofInt, lastSegmentNumber]
    exact Nat.div_le_div_right (by unfold UINT32_MAX; omega)
  have hsame : findSegment k.mainMemory pid segmentNumber =
      findSegmentById cpu.segmentTable segmentNumber := by
    rw [findSegment_eq, htable]
    exact numberedUpTo_iff.1 (numberedUpTo_filterProcessSegments.2 (h pid)) segmentNumber hnumber
  refine ⟨hsame, fun segment hsegment => ⟨fun physical hphysical => ?_, fun physical hphysical => ?_⟩⟩
  · unfold translateLogicalAddress at hphysical
    simp only [← hmax] at hphysical
    split at hphysical
    · simp at hphysical
    · rw [show findSegment k.mainMemory pid (logicalAddress / cpu.maxSegmentSize).toNat =
        some segment from hsegment] at hphysical
      obtain rfl := Option.some.inj hphysical
      rw [u32_i32]
  · intro hquiet
    rw [hsame] at hsegment
    unfold mmu at hphysical hquiet
    split at hphysical
    · simp at hphysical
    · rename_i hpos
      rw [if_neg hpos] at hquiet
      simp only [show findSegmentById cpu.segmentTable (logicalAddress / cpu.maxSegmentSize).toNat =
        some segment from hsegment] at hphysical hquiet
      split at hphysical
      · rename_i hlarge
        rw [if_pos hlarge] at hquiet
        simp [Cpu.notifySegFault, Cpu.State.send] at hquiet
      · obtain rfl := Option.some.inj hphysical
        rw [UInt32.toNat_add, toNat_ofInt]
        simp only [u32, offset]
        omega

/-- **The states in which the translations agree**: those in which the ids are the positions.

**Proof sketch.** Every number up to the last one is the segment number of an address, its multiple
of the segment size; the agreement for these addresses is the agreement of the two lookups. -/
theorem translationsAgree_iff {k : KernelMemory} (hmax : u32 k.mainMemory.maxSegmentSize ≠ 0) :
    TranslationsAgree k ↔ InOrder k.mainMemory := by
  refine ⟨fun h pid => ?_, translationsAgree_of_inOrder⟩
  rw [← numberedUpTo_filterProcessSegments, numberedUpTo_iff]
  intro n hn
  set segMax := u32 k.mainMemory.maxSegmentSize with hseg
  have hle : n * segMax ≤ UINT32_MAX := (Nat.le_div_iff_mul_le (Nat.pos_of_ne_zero hmax)).1 hn
  have haddress : (UInt32.ofNat (n * segMax) / UInt32.ofInt k.mainMemory.maxSegmentSize).toNat = n := by
    rw [UInt32.toNat_div, toNat_ofInt, UInt32.toNat_ofNat_of_lt' (by
      unfold UINT32_MAX at hle
      unfold UInt32.size
      omega), ← hseg]
    exact Nat.mul_div_cancel n (Nat.pos_of_ne_zero hmax)
  have hagree := (h pid (UInt32.ofNat (n * segMax)) 0
    { maxSegmentSize := UInt32.ofInt k.mainMemory.maxSegmentSize
      memorySticks := []
      registers := ⟨0, 0, 0, 0, 0, 0, 0, 0, 0, 0, 0⟩
      segmentTable := sendSegmentTable pid k.mainMemory
      segmentChanged := false
      schedulerConnected := true
      sent := []
      sentToMemory := []
      stickRequests := [] } rfl rfl).1
  rw [haddress, findSegment_eq] at hagree
  exact hagree

/-! ## The events that keep the order -/

/-- The id is the number of segments the process has, as far as that can be a segment number. -/
def IsNextId (bound id pid : ℕ) (m : MainMemory) : Prop :=
  (idsOf pid m.names).length ≤ bound → id = (idsOf pid m.names).length

/-- An edit gives every segment the position that is its id: a new segment has the next id, and a
removed one is the last of its process. The entry behind a removed one moves to its position, which
only beyond the last segment number can be the id it carries. -/
def MemoryOp.ContinuesNumbering (bound : ℕ) (m : MainMemory) : MemoryOp → Prop
  | .createSegment id pid size => ¬ computeFreeSpace m.holes < size → IsNextId bound id pid m
  | .regenerateSegment id pid size => ¬ RegenerationFails size m → IsNextId bound id pid m
  | .removeSegment id pid =>
    let position := (idsOf pid m.names).idxOf id
    position ≤ bound → ∀ next ∈ (idsOf pid m.names)[position + 1]?, next = position
  | .addTotalMemory _ => True

/-- The edits of an event continue the numbering. The removal of all the segments of a process
needs no condition. -/
def ContinuesNumbering (k : KernelMemory) : Event → Prop
  | .suspendProcess _ | .endProcess _ => True
  | event =>
    EveryEdit (fun m op => op.ContinuesNumbering (lastSegmentNumber k.mainMemory) m) k event

/-- An edit that continues the numbering keeps the order.

**Proof sketch.** The processes other than the one of the edit keep their ids. The process itself
gets one more (`numberedUpTo_append_singleton`) or loses the one at a position
(`NumberedUpTo.eraseIdx`). -/
theorem inOrder_memoryStep {bound : ℕ} {op : MemoryOp}
    (h : ∀ pid, NumberedUpTo id bound (idsOf pid m.names))
    (hop : op.ContinuesNumbering bound m) (hst : memoryStep m op = some m') (pid : ℕ) :
    NumberedUpTo id bound (idsOf pid m'.names) := by
  have happend : ∀ i p, IsNextId bound i p m → m'.names = m.names ++ [(p, i)] →
      NumberedUpTo id bound (idsOf pid m'.names) := by
    intro i p hnext hnames
    rw [hnames, idsOf_append_singleton]
    split
    · rename_i heq
      exact numberedUpTo_append_singleton.2 ⟨h pid, heq ▸ hnext⟩
    · exact h pid
  cases op with
  | addTotalMemory n =>
    rw [names_addTotalMemory hst]
    exact h pid
  | createSegment i p size =>
    obtain ⟨⟨msgs, m₁⟩, hcreate, rfl⟩ := Option.map_eq_some_iff.1 hst
    rcases names_createSegment hcreate with ⟨-, rfl⟩ | ⟨hspace, hnames⟩
    · exact h pid
    · exact happend i p (hop hspace) hnames
  | removeSegment i p =>
    obtain rfl := Option.some.inj hst
    rw [names_removeSegment, idsOf_erase]
    split
    · rename_i heq
      subst heq
      rw [← List.eraseIdx_idxOf_eq_erase]
      exact (h p).eraseIdx hop
    · exact h pid
  | regenerateSegment i p size =>
    obtain rfl := Option.some.inj hst
    rcases names_regenerateSegment i p size m with ⟨-, -, hnames⟩ | ⟨hfound, -, hnames⟩
    · rw [hnames]
      exact h pid
    · exact happend i p (hop hfound) hnames

/-- What the run lemma carries: the order, and the shape of the block table that the edits of a
resumption are read off. -/
structure NumberingInvariant (k : KernelMemory) : Prop where
  inOrder : InOrder k.mainMemory
  swap : ∀ swapData ∈ k.swapData, swapData.WellFormed

/-- The main memory after a suspension or the end of a process: as before, or without the segments
of the process. -/
lemma mainMemory_of_suspend_or_end {k k' : KernelMemory} {pid : ℕ}
    (h : kernelMemoryStep k (.suspendProcess pid) = some k' ∨
      kernelMemoryStep k (.endProcess pid) = some k') :
    k'.mainMemory = k.mainMemory ∨
      k'.mainMemory =
        removeProcessSegments (filterProcessSegments pid k.mainMemory) pid k.mainMemory := by
  rcases h with h | h
  · obtain ⟨⟨msgs, k₁⟩, hsuspend, rfl⟩ := Option.map_eq_some_iff.1 h
    unfold handleSuspendProcess at hsuspend
    split at hsuspend
    · obtain ⟨⟨answer, k₂⟩, hrun, heq⟩ := Option.map_eq_some_iff.1 hsuspend
      obtain ⟨-, rfl⟩ := Prod.mk.inj heq
      rcases suspendProcess_cases hrun with ⟨rfl, -⟩ | ⟨_, _, -, -, ⟨-, -, rfl⟩ | ⟨-, -, rfl⟩⟩
      · exact Or.inl rfl
      · exact Or.inr rfl
      · exact Or.inl rfl
    · obtain ⟨-, rfl⟩ := Prod.mk.inj (Option.some.inj hsuspend)
      exact Or.inl rfl
  · obtain rfl := Option.some.inj h
    unfold handleEndProcess
    split
    · exact Or.inr rfl
    · exact Or.inl rfl

/-- The names after a suspension or the end of a process. -/
lemma names_of_suspend_or_end {k k' : KernelMemory} {pid : ℕ}
    (h : kernelMemoryStep k (.suspendProcess pid) = some k' ∨
      kernelMemoryStep k (.endProcess pid) = some k') :
    k'.mainMemory.names = k.mainMemory.names ∨
      k'.mainMemory.names = k.mainMemory.names.filter fun name => name.1 != pid := by
  rcases mainMemory_of_suspend_or_end h with heq | heq
  · exact Or.inl (by rw [heq])
  · exact Or.inr (by rw [heq, names_removeProcessSegments])

/-- No event changes the largest size of a segment. -/
lemma maxSegmentSize_step {k k' : KernelMemory} {event : Event}
    (h : kernelMemoryStep k event = some k')
    (hswap : ∀ swapData ∈ k.swapData, swapData.WellFormed) :
    k'.mainMemory.maxSegmentSize = k.mainMemory.maxSegmentSize := by
  have hrun : Run memoryStep (fun _ _ => True) k.mainMemory k'.mainMemory :=
    Run.of_execute (execute_memoryOps h hswap)
  exact hrun.invariant (I := fun m => m.maxSegmentSize = k.mainMemory.maxSegmentSize) rfl
    fun m op m' hm _ hst => (sameSizes_memoryStep hst).maxSegmentSize.trans hm

/-- An event that continues the numbering keeps the order. -/
theorem numberingInvariant_step {k k' : KernelMemory} {event : Event} (h : NumberingInvariant k)
    (hok : ContinuesNumbering k event) (hst : kernelMemoryStep k event = some k') :
    NumberingInvariant k' := by
  refine ⟨?_, wellFormed_step hst h.swap⟩
  have hlast : lastSegmentNumber k'.mainMemory = lastSegmentNumber k.mainMemory := by
    rw [lastSegmentNumber, maxSegmentSize_step hst h.swap, lastSegmentNumber]
  have hedits : EveryEdit (fun m op => op.ContinuesNumbering (lastSegmentNumber k.mainMemory) m)
      k event → InOrder k'.mainMemory := by
    intro hevery
    have hrun := Run.of_execute_of_admitted (execute_memoryOps hst h.swap) hevery
    intro pid
    rw [hlast]
    exact hrun.invariant
      (I := fun m : MainMemory =>
        ∀ pid, NumberedUpTo id (lastSegmentNumber k.mainMemory) (idsOf pid m.names))
      h.inOrder (fun m op m' hm hop hstep pid => inOrder_memoryStep hm hop hstep pid) pid
  have hemptied : ∀ pid, (kernelMemoryStep k (.suspendProcess pid) = some k' ∨
      kernelMemoryStep k (.endProcess pid) = some k') → InOrder k'.mainMemory := by
    intro pid hrun pid'
    rw [hlast]
    rcases names_of_suspend_or_end hrun with heq | heq
    · rw [heq]
      exact h.inOrder pid'
    · rw [heq, idsOf_filter_ne]
      split
      · exact NumberedUpTo.nil
      · exact h.inOrder pid'
  cases event with
  | suspendProcess pid => exact hemptied pid (Or.inl hst)
  | endProcess pid => exact hemptied pid (Or.inr hst)
  | newProcess | createSegment | deleteSegment | resumeProcess | stickConnected | swapConnected
  | memoryWritten => exact hedits hok

/-- The order in a run of events that continue the numbering. -/
lemma numberingInvariant_of_run {segmentMaxSize : ℤ} {strategy : AllocationStrategy}
    {k : KernelMemory}
    (h : Run kernelMemoryStep ContinuesNumbering (initKernelMemoryData segmentMaxSize strategy) k) :
    NumberingInvariant k := by
  apply h.invariant
  · refine ⟨fun pid => ?_, fun swapData hs => ?_⟩
    · exact NumberedUpTo.nil
    · simp [initKernelMemoryData] at hs
  · exact fun k event k' hinv hok hst => numberingInvariant_step hinv hok hst

/-- **The translations agree** in every state of a run whose events continue the numbering of the
segments they add to a process and of those they leave it. -/
theorem translationsAgree_of_run {segmentMaxSize : ℤ} {strategy : AllocationStrategy}
    {k : KernelMemory}
    (h : Run kernelMemoryStep ContinuesNumbering (initKernelMemoryData segmentMaxSize strategy) k) :
    TranslationsAgree k :=
  translationsAgree_of_inOrder (numberingInvariant_of_run h).inOrder

/-- Two segments of process 1, allocated one after the other. -/
def memoryInOrder : KernelMemory where
  mainMemory := ⟨10, 10, [⟨0, 1, 0, 3⟩, ⟨1, 1, 3, 4⟩], [⟨7, 3⟩], .best⟩
  connectedSticks := [tenBytes]
  swapData := none
  processes := []

/-- The run of the two allocations. -/
theorem translationsAgree_of_run_inOrder : TranslationsAgree memoryInOrder := by
  have hrun : Run kernelMemoryStep ContinuesNumbering (initKernelMemoryData 10 .best)
      memoryInOrder := by
    refine .tail (.createSegment 1 1 4) (.tail (.createSegment 0 1 3)
      (.tail (.stickConnected tenBytes) .refl ?_ rfl) ?_ rfl) ?_ rfl
    · exact ⟨trivial, fun _ _ => trivial⟩
    · exact ⟨fun _ _ => rfl, fun _ _ => trivial⟩
    · exact ⟨fun _ _ => rfl, fun _ _ => trivial⟩
  exact translationsAgree_of_run hrun

/-- One segment of process 1, which chose the id 1 for it. -/
def memoryFromOne : KernelMemory where
  mainMemory := ⟨10, 4, [⟨1, 1, 0, 3⟩], [⟨3, 7⟩], .best⟩
  connectedSticks := [tenBytes]
  swapData := none
  processes := []

/-- The process's first request is `MEM_ALLOC 1 3`: its CPU finds the segment at address 4, where
Kernel Memory finds none. -/
theorem translations_differ :
    Reachable kernelMemoryStep (initKernelMemoryData 4 .best) memoryFromOne ∧
      ¬ TranslationsAgree memoryFromOne := by
  have hrun : execute kernelMemoryStep (initKernelMemoryData 4 .best)
      [.stickConnected tenBytes, .createSegment 1 1 3] = some memoryFromOne := by decide
  refine ⟨Run.of_execute hrun, fun h => ?_⟩
  have hid := (translationsAgree_iff (by decide)).1 h 1 0 (Nat.zero_le _) 1 rfl
  exact absurd hid (by decide)

end OsSimulator.Memory
