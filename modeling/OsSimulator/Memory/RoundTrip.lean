import OsSimulator.Memory.Restoration

set_option relaxedAutoImplicit false
set_option autoImplicit false

/-!
# A process that is suspended and resumed

A resumption looks for the segment of a block with `find_segment`, which counts the segments of the
process, and gives it the id of the segment. A process gets its memory back when its ids are its
positions: then the two are the same. Between the two requests other processes may do what they
like; the records of the process stay in the table.

## Main definitions

* `Restorable` — what a process has to be for a suspension to be undone.
* `Restored` — it has the segments and the bytes it had.
* `Event.OfOthers` — an operation on other processes.

## Main results

* `addressSpace_of_run` — the sticks hold as many bytes as the memory has.
* `away_step` — an operation on other processes leaves the records of a process.
* `resume_restores` — a resumption after a suspension restores the process.
* `resume_reads_missing_segment` — a process whose only segment has the id 1.
-/

namespace OsSimulator.Memory

variable {k k' : KernelMemory} {m m' : MainMemory} {event : Event} {pid : ℕ}

/-! ## The size of the address space -/

/-- The memory grows by what is added. -/
lemma totalSize_execute {ops : List MemoryOp} (h : execute memoryStep m ops = some m') :
    m'.totalSize = m.totalSize + (ops.map MemoryOp.added).sum := by
  induction ops generalizing m with
  | nil =>
    obtain rfl := Option.some.inj h
    simp
  | cons op ops ih =>
    obtain ⟨m₁, hstep, hrest⟩ := Option.bind_eq_some_iff.1 h
    rw [ih hrest, (sameSizes_memoryStep hstep).totalSize, List.map_cons, List.sum_cons, Int.add_assoc]

/-- The bytes a stick brings. -/
def Event.bytesAdded : Event → ℕ
  | .stickConnected stick => stick.stickSize
  | _ => 0

/-- An event adds the bytes of a new stick to the memory. -/
lemma sum_added_memoryOps (k : KernelMemory) (event : Event) :
    ((memoryOps k event).map MemoryOp.added).sum = event.bytesAdded := by
  have hzero : ∀ ops : List MemoryOp, (∀ op ∈ ops, op.added = 0) →
      (ops.map MemoryOp.added).sum = 0 := by
    intro ops hops
    exact List.sum_eq_zero fun n hn => by
      obtain ⟨op, hop, rfl⟩ := List.mem_map.1 hn
      exact hops op hop
  have hremovals : ∀ pid, ((removals pid k.mainMemory).map MemoryOp.added).sum = 0 := by
    intro pid
    refine hzero _ fun op hop => ?_
    obtain ⟨s, -, rfl⟩ := List.mem_map.1 hop
    rfl
  have hregenerations : ∀ pid (blocks : List BlockData) m,
      ((regenerations pid blocks m).map MemoryOp.added).sum = 0 := by
    intro pid blocks m
    induction blocks generalizing m with
    | nil => rfl
    | cons block rest ih =>
      rw [regenerations, List.map_cons, List.sum_cons]
      split
      · rw [ih]
        rfl
      · rfl
  cases event with
  | stickConnected stick => simp [memoryOps, MemoryOp.added, Event.bytesAdded]
  | suspendProcess pid =>
    simp only [memoryOps]
    split
    · exact hremovals pid
    · rfl
  | resumeProcess pid =>
    simp only [memoryOps]
    split
    · split
      · exact hregenerations pid _ _
      · rfl
    · rfl
  | endProcess pid =>
    simp only [memoryOps]
    split
    · exact hremovals pid
    · rfl
  | createSegment id pid size =>
    simp only [memoryOps]
    split <;> rfl
  | newProcess | deleteSegment | swapConnected | memoryWritten => rfl

/-- Only a stick that connects changes the sizes of the sticks. -/
lemma map_stickSize_of_not_connected (hnot : ∀ stick, event ≠ .stickConnected stick)
    (h : kernelMemoryStep k event = some k')
    (hswap : ∀ swapData ∈ k.swapData, swapData.WellFormed) :
    k'.connectedSticks.map Stick.stickSize = k.connectedSticks.map Stick.stickSize := by
  cases event with
  | newProcess pid scriptOpens =>
    obtain rfl := Option.some.inj h
    unfold handleNewProcess
    split <;> rfl
  | createSegment id pid size =>
    obtain ⟨⟨msgs, k₁⟩, hrun, rfl⟩ := Option.map_eq_some_iff.1 h
    unfold handleCreateSegment at hrun
    split at hrun
    · obtain ⟨-, rfl⟩ := Prod.mk.inj (Option.some.inj hrun)
      rfl
    · obtain ⟨created, -, heq⟩ := Option.map_eq_some_iff.1 hrun
      obtain ⟨-, rfl⟩ := Prod.mk.inj heq
      rfl
  | deleteSegment id pid =>
    obtain rfl := Option.some.inj h
    rfl
  | suspendProcess pid =>
    obtain ⟨⟨msgs, k₁⟩, hsuspend, rfl⟩ := Option.map_eq_some_iff.1 h
    unfold handleSuspendProcess at hsuspend
    split at hsuspend
    · obtain ⟨⟨answer, k₂⟩, hrun, heq⟩ := Option.map_eq_some_iff.1 hsuspend
      obtain ⟨-, rfl⟩ := Prod.mk.inj heq
      rcases suspendProcess_cases hrun with ⟨rfl, -⟩ | ⟨_, _, -, -, ⟨-, -, rfl⟩ | ⟨-, -, rfl⟩⟩ <;>
        rfl
    · obtain ⟨-, rfl⟩ := Prod.mk.inj (Option.some.inj hsuspend)
      rfl
  | resumeProcess pid =>
    obtain ⟨⟨msgs, k₁⟩, hresume, rfl⟩ := Option.map_eq_some_iff.1 h
    cases hs : k.swapData with
    | none =>
      unfold handleResumeSuspendedProcess resumeProcess at hresume
      simp only [hs, Option.some.injEq, Prod.mk.injEq] at hresume
      obtain ⟨-, rfl⟩ := hresume
      rfl
    | some swapData =>
      rcases resumeProcess_cases hs (hswap swapData hs) hresume with ⟨-, rfl, -⟩ |
        ⟨-, sent, last, i, r, -, -, hres, ⟨-, rfl, -⟩ | ⟨block, memory, -, -, -, -, rfl⟩⟩
      · rfl
      · exact hres.sticks
      · exact hres.sticks
  | endProcess pid =>
    obtain rfl := Option.some.inj h
    unfold handleEndProcess
    split <;> rfl
  | stickConnected stick => exact absurd rfl (hnot stick)
  | swapConnected swapSize blockSize =>
    obtain ⟨swapData, -, rfl⟩ := Option.map_eq_some_iff.1 h
    rfl
  | memoryWritten physicalAddress bytes =>
    obtain rfl := Option.some.inj h
    exact map_stickSize_writeToSticks _ _ _

/-- The sizes of the sticks after an event. -/
lemma map_stickSize_step (h : kernelMemoryStep k event = some k')
    (hswap : ∀ swapData ∈ k.swapData, swapData.WellFormed) :
    (k'.connectedSticks.map Stick.stickSize).sum =
      (k.connectedSticks.map Stick.stickSize).sum + event.bytesAdded := by
  by_cases hconnected : ∃ stick, event = .stickConnected stick
  · obtain ⟨stick, rfl⟩ := hconnected
    obtain ⟨memory, -, rfl⟩ := Option.map_eq_some_iff.1 h
    simp [Event.bytesAdded]
  · rw [not_exists] at hconnected
    rw [map_stickSize_of_not_connected hconnected h hswap]
    cases event with
    | stickConnected stick => exact absurd rfl (hconnected stick)
    | newProcess | createSegment | deleteSegment | suspendProcess | resumeProcess | endProcess
      | swapConnected | memoryWritten => rfl

/-- The sticks hold as many bytes as the memory has. -/
def AddressSpace (k : KernelMemory) : Prop :=
  ((bytesOf k.connectedSticks).length : ℤ) = k.mainMemory.totalSize

/-- An event keeps that. -/
lemma addressSpace_step (h : AddressSpace k) (hst : kernelMemoryStep k event = some k')
    (hswap : ∀ swapData ∈ k.swapData, swapData.WellFormed) : AddressSpace k' := by
  have htotal := totalSize_execute (execute_memoryOps hst hswap)
  have hsticks := map_stickSize_step hst hswap
  unfold AddressSpace at h ⊢
  rw [length_bytesOf] at h ⊢
  rw [htotal, sum_added_memoryOps, hsticks, ← h, Nat.cast_add]

/-- And so it does in a run. -/
lemma addressSpace_of_run {ok : KernelMemory → Event → Prop} (h : Run kernelMemoryStep ok k k')
    (hspace : AddressSpace k) (hswap : ∀ swapData ∈ k.swapData, swapData.WellFormed) :
    AddressSpace k' := by
  have hboth : AddressSpace k' ∧ ∀ swapData ∈ k'.swapData, swapData.WellFormed := by
    apply h.invariant (I := fun k => AddressSpace k ∧
      ∀ swapData ∈ k.swapData, swapData.WellFormed)
    · exact ⟨hspace, hswap⟩
    · exact fun k event k' hk _ hst => ⟨addressSpace_step hk.1 hst hk.2, wellFormed_step hst hk.2⟩
  exact hboth.1

/-! ## Operations on other processes -/

/-- An operation on other processes: no request names the process, and no new swap takes the place
of the one that has its blocks. -/
def Event.OfOthers (pid : ℕ) : Event → Prop
  | .newProcess p _ | .createSegment _ p _ | .deleteSegment _ p | .suspendProcess p
  | .resumeProcess p | .endProcess p => p ≠ pid
  | .swapConnected _ _ => False
  | .stickConnected _ | .memoryWritten _ _ => True

/-- An edit of the segments of other processes. -/
def MemoryOp.OfOthers (pid : ℕ) : MemoryOp → Prop
  | .createSegment _ p _ | .removeSegment _ p | .regenerateSegment _ p _ => p ≠ pid
  | .addTotalMemory _ => True

/-- The operations of others leave the segments of a process. -/
lemma idsOf_memoryStep {op : MemoryOp} (hop : op.OfOthers pid) (h : memoryStep m op = some m') :
    idsOf pid m'.names = idsOf pid m.names := by
  cases op with
  | addTotalMemory n => rw [names_addTotalMemory h]
  | createSegment id p size =>
    obtain ⟨⟨msgs, m₁⟩, hcreate, rfl⟩ := Option.map_eq_some_iff.1 h
    rcases names_createSegment hcreate with ⟨-, rfl⟩ | ⟨-, hnames⟩
    · rfl
    · rw [hnames, idsOf_append_singleton, if_neg hop]
  | removeSegment id p =>
    obtain rfl := Option.some.inj h
    rw [names_removeSegment, idsOf_erase, if_neg hop]
  | regenerateSegment id p size =>
    obtain rfl := Option.some.inj h
    rcases names_regenerateSegment id p size m with ⟨-, -, hnames⟩ | ⟨-, -, hnames⟩
    · rw [hnames]
    · rw [hnames, idsOf_append_singleton, if_neg hop]

/-- The edits of an operation on other processes. -/
lemma ofOthers_of_mem_memoryOps (hevent : event.OfOthers pid) :
    ∀ op ∈ memoryOps k event, op.OfOthers pid := by
  have hremovals : ∀ p, p ≠ pid → ∀ op ∈ removals p k.mainMemory, op.OfOthers pid := by
    intro p hp op hop
    obtain ⟨s, -, rfl⟩ := List.mem_map.1 hop
    exact hp
  have hregenerations : ∀ p, p ≠ pid → ∀ (blocks : List BlockData) m,
      ∀ op ∈ regenerations p blocks m, op.OfOthers pid := by
    intro p hp blocks
    induction blocks with
    | nil => simp [regenerations]
    | cons block rest ih =>
      intro m op hop
      rw [regenerations] at hop
      rcases List.mem_cons.1 hop with rfl | hop
      · exact hp
      · split at hop
        · exact ih _ op hop
        · simp at hop
  cases event with
  | createSegment id p size =>
    simp only [memoryOps]
    split
    · simp
    · intro op hop
      obtain rfl := List.mem_singleton.1 hop
      exact hevent
  | deleteSegment id p =>
    intro op hop
    obtain rfl := List.mem_singleton.1 hop
    exact hevent
  | suspendProcess p =>
    simp only [memoryOps]
    split
    · exact hremovals p hevent
    · simp
  | resumeProcess p =>
    simp only [memoryOps]
    split
    · split
      · exact hregenerations p hevent _ _
      · simp
    · simp
  | endProcess p =>
    simp only [memoryOps]
    split
    · exact hremovals p hevent
    · simp
  | stickConnected stick =>
    intro op hop
    obtain rfl := List.mem_singleton.1 hop
    trivial
  | newProcess | swapConnected | memoryWritten => simp [memoryOps]

/-- An operation on other processes leaves the ids of the process. -/
lemma idsOf_step (hevent : event.OfOthers pid) (h : kernelMemoryStep k event = some k')
    (hswap : ∀ swapData ∈ k.swapData, swapData.WellFormed) :
    idsOf pid k'.mainMemory.names = idsOf pid k.mainMemory.names := by
  have hrun : Run memoryStep (fun _ op => op.OfOthers pid) k.mainMemory k'.mainMemory :=
    Run.of_execute_of_forall (execute_memoryOps h hswap) fun op hop _ =>
      ofOthers_of_mem_memoryOps hevent op hop
  exact hrun.invariant (I := fun m => idsOf pid m.names = idsOf pid k.mainMemory.names) rfl
    fun m op m' hm hop hst => (idsOf_memoryStep hop hst).trans hm

/-- The records of the process in the table, and the size of a block. -/
def SavedAs (pid blockSize : ℕ) (records : List BlockRecord) (k : KernelMemory) : Prop :=
  ∃ swapData, k.swapData = some swapData ∧ swapData.blockSize = blockSize ∧
    savedBlocks (fun p _ => p == pid) swapData = records

/-- An operation on other processes leaves the records of the process. -/
lemma savedAs_step {blockSize : ℕ} {records : List BlockRecord} (hpid : pid ≠ UINT32_MAX)
    (hsaved : SavedAs pid blockSize records k) (hevent : event.OfOthers pid)
    (h : kernelMemoryStep k event = some k')
    (hswap : ∀ swapData ∈ k.swapData, swapData.WellFormed) : SavedAs pid blockSize records k' := by
  have hfree : ∀ n : ℕ, (fun p _ => p == pid : ℕ → ℕ → Bool) UINT32_MAX n = false := fun _ => by
    simp [Ne.symm hpid]
  obtain ⟨swapData, hs, hsize, hrecords⟩ := hsaved
  have hlen := (hswap swapData hs).length_disk
  cases event with
  | newProcess p scriptOpens =>
    obtain rfl := Option.some.inj h
    unfold handleNewProcess
    split <;> exact ⟨swapData, hs, hsize, hrecords⟩
  | createSegment id p size =>
    obtain ⟨⟨msgs, k₁⟩, hrun, rfl⟩ := Option.map_eq_some_iff.1 h
    unfold handleCreateSegment at hrun
    split at hrun
    · obtain ⟨-, rfl⟩ := Prod.mk.inj (Option.some.inj hrun)
      exact ⟨swapData, hs, hsize, hrecords⟩
    · obtain ⟨created, -, heq⟩ := Option.map_eq_some_iff.1 hrun
      obtain ⟨-, rfl⟩ := Prod.mk.inj heq
      exact ⟨swapData, hs, hsize, hrecords⟩
  | deleteSegment id p =>
    obtain rfl := Option.some.inj h
    exact ⟨swapData, hs, hsize, hrecords⟩
  | suspendProcess p =>
    obtain ⟨⟨msgs, k₁⟩, hsuspend, rfl⟩ := Option.map_eq_some_iff.1 h
    unfold handleSuspendProcess at hsuspend
    split at hsuspend
    · obtain ⟨⟨answer, k₂⟩, hrun, heq⟩ := Option.map_eq_some_iff.1 hsuspend
      obtain ⟨-, rfl⟩ := Prod.mk.inj heq
      have hkept : savedBlocks (fun q _ => q == pid) (storeRecords ((filterProcessSegments p
          k.mainMemory).flatMap (segmentRecords k.connectedSticks swapData.blockSize)) swapData).2 =
            records := by
        rw [savedBlocks_storeRecords_of_not hfree hlen fun record hrecord => ?_, hrecords]
        have hne : p ≠ pid := hevent
        rw [pid_of_mem_records hrecord]
        simpa using hne
      rcases suspendProcess_cases hrun with ⟨rfl, -⟩ | ⟨swapData', stored, hs', rfl, hcases⟩
      · exact ⟨swapData, hs, hsize, hrecords⟩
      · obtain rfl : swapData = swapData' := Option.some.inj (hs.symm.trans hs')
        rcases hcases with ⟨-, -, rfl⟩ | ⟨-, -, rfl⟩
        · exact ⟨_, rfl, by rw [storeRecords_blockSize, hsize], hkept⟩
        · exact ⟨_, rfl, by rw [storeRecords_blockSize, hsize], hkept⟩
    · obtain ⟨-, rfl⟩ := Prod.mk.inj (Option.some.inj hsuspend)
      exact ⟨swapData, hs, hsize, hrecords⟩
  | resumeProcess p =>
    obtain ⟨⟨msgs, k₁⟩, hresume, rfl⟩ := Option.map_eq_some_iff.1 h
    have hkept : ∀ i r, ResumedUpTo p ⟨k.mainMemory, k.connectedSticks, swapData⟩ i r →
        r.swapData.blockSize = blockSize ∧
          savedBlocks (fun q _ => q == pid) r.swapData = records := by
      intro i r hres
      have hne : p ≠ pid := hevent
      refine ⟨by rw [hres.swapData, hsize], ?_⟩
      rw [hres.savedBlocks_of_not hfree hlen fun n => by simpa using hne]
      exact hrecords
    rcases resumeProcess_cases hs (hswap swapData hs) hresume with ⟨-, rfl, -⟩ |
      ⟨-, sent, last, i, r, -, -, hres, ⟨-, rfl, -⟩ | ⟨block, memory, -, -, -, -, rfl⟩⟩
    · exact ⟨swapData, hs, hsize, hrecords⟩
    · exact ⟨r.swapData, rfl, hkept i r hres⟩
    · exact ⟨r.swapData, rfl, hkept i r hres⟩
  | endProcess p =>
    obtain rfl := Option.some.inj h
    unfold handleEndProcess
    split <;> exact ⟨swapData, hs, hsize, hrecords⟩
  | stickConnected stick =>
    obtain ⟨memory, -, rfl⟩ := Option.map_eq_some_iff.1 h
    exact ⟨swapData, hs, hsize, hrecords⟩
  | swapConnected swapSize size => exact absurd hevent id
  | memoryWritten physicalAddress bytes =>
    obtain rfl := Option.some.inj h
    exact ⟨swapData, hs, hsize, hrecords⟩

/-! ## A suspension and a resumption -/

/-- What a process has to be for a suspension to be undone: its segments have bytes, their ids are
their positions, and no block in swap carries its pid, which is not the mark of a free block. -/
structure Restorable (pid : ℕ) (k : KernelMemory) : Prop where
  real : pid ≠ UINT32_MAX
  ids : idsOf pid k.mainMemory.names = List.range (idsOf pid k.mainMemory.names).length
  sizes : ∀ s ∈ k.mainMemory.segments, s.pid = pid → s.size ≠ 0
  blocks : ∀ swapData ∈ k.swapData, ∀ block ∈ swapData.blockList, block.pid ≠ pid

/-- The byte at an offset of a segment of the process. -/
def segmentByte (pid id offset : ℕ) (k : KernelMemory) : Option UInt8 :=
  ((filterProcessSegments pid k.mainMemory).find? fun s => s.id == id).bind fun s =>
    if (offset : ℤ) < s.size then byteAt k.connectedSticks (s.base + offset) else none

/-- The process has the segments and the bytes it had. -/
structure Restored (pid : ℕ) (before after : KernelMemory) : Prop where
  segments : (filterProcessSegments pid after.mainMemory).map (fun s => (s.id, s.size)) =
    (filterProcessSegments pid before.mainMemory).map fun s => (s.id, s.size)
  bytes : ∀ id offset, segmentByte pid id offset after = segmentByte pid id offset before

/-- The ids, the bytes and the sizes of the segments of a process. -/
lemma restored_of_images (hlayout : Layout k.mainMemory) (hlayout' : Layout k'.mainMemory)
    (hspace : AddressSpace k) (hspace' : AddressSpace k')
    (h : (filterProcessSegments pid k'.mainMemory).map (imageOf k'.connectedSticks) =
      (filterProcessSegments pid k.mainMemory).map (imageOf k.connectedSticks)) :
    Restored pid k k' := by
  have hin : ∀ k : KernelMemory, Layout k.mainMemory → AddressSpace k →
      ∀ s ∈ filterProcessSegments pid k.mainMemory,
        0 ≤ s.base ∧ 0 ≤ s.size ∧ s.base + s.size ≤ (bytesOf k.connectedSticks).length := by
    intro k hlayout hspace s hs
    have hsegment := hlayout.segment (List.mem_filter.1 hs).1
    rw [hspace]
    exact hsegment
  have hsizes : ∀ k : KernelMemory, Layout k.mainMemory → AddressSpace k →
      (filterProcessSegments pid k.mainMemory).map (fun s => (s.id, s.size)) =
        ((filterProcessSegments pid k.mainMemory).map (imageOf k.connectedSticks)).map
          fun image => (image.id, (image.data.length : ℤ)) := by
    intro k hlayout hspace
    rw [List.map_map]
    refine List.map_congr_left fun s hs => ?_
    show (s.id, s.size) = (s.id, ((segmentBytes k.connectedSticks s).length : ℤ))
    rw [length_segmentBytes (hin k hlayout hspace s hs)]
  have hbytes : ∀ k : KernelMemory, Layout k.mainMemory → AddressSpace k → ∀ id offset,
      segmentByte pid id offset k =
        (((filterProcessSegments pid k.mainMemory).map (imageOf k.connectedSticks)).find?
          fun image => image.id == id).bind fun image => image.data[offset]? := by
    intro k hlayout hspace id offset
    rw [segmentByte, List.find?_map]
    show _ = ((List.find? (fun s => s.id == id) (filterProcessSegments pid k.mainMemory)).map
      (imageOf k.connectedSticks)).bind _
    cases hfind : List.find? (fun s => s.id == id) (filterProcessSegments pid k.mainMemory) with
    | none => rfl
    | some s =>
      obtain ⟨hbase, hsize, hend⟩ := hin k hlayout hspace s (List.mem_of_find?_eq_some hfind)
      show (if (offset : ℤ) < s.size then byteAt k.connectedSticks (s.base + offset) else none) =
        (segmentBytes k.connectedSticks s)[offset]?
      rw [segmentBytes, getElem?_slice]
      by_cases hoffset : (offset : ℤ) < s.size
      · rw [if_pos hoffset, if_pos (by omega), byteAt_eq, if_pos (by omega)]
        congr 1
        omega
      · rw [if_neg hoffset, if_neg (by omega)]
  refine ⟨?_, fun id offset => ?_⟩
  · rw [hsizes k hlayout hspace, hsizes k' hlayout' hspace', h]
  · rw [hbytes k hlayout hspace, hbytes k' hlayout' hspace', h]

/-- The segments and the bytes that a process has in memory. -/
def imagesOf (pid : ℕ) (k : KernelMemory) : List Image :=
  (filterProcessSegments pid k.mainMemory).map (imageOf k.connectedSticks)

/-- The ids of the segments of a process that can be restored. -/
lemma map_id_imagesOf (hr : Restorable pid k) :
    (imagesOf pid k).map Image.id = List.range (imagesOf pid k).length := by
  have hids : (imagesOf pid k).map Image.id = idsOf pid k.mainMemory.names := by
    rw [imagesOf, List.map_map, ← map_id_filterProcessSegments]
    rfl
  have hlen : (imagesOf pid k).length = (idsOf pid k.mainMemory.names).length := by
    rw [← hids, List.length_map]
  rw [hids, hlen]
  exact hr.ids

/-- Its segments have bytes, as many as an `int` can count. -/
lemma imagesOf_ne_nil (hinv : MemoryInvariant k) (hspace : AddressSpace k)
    (hr : Restorable pid k) :
    ∀ image ∈ imagesOf pid k, image.data ≠ [] ∧ (image.data.length : ℤ) ≤ INT_MAX := by
  intro image himage
  obtain ⟨s, hs, rfl⟩ := List.mem_map.1 himage
  obtain ⟨hmem, hpid⟩ := List.mem_filter.1 hs
  have hsegment := hinv.layout.segment hmem
  have htotal := hinv.layout.total_range
  have hsize := hr.sizes s hmem (by simpa using hpid)
  have hlen : ((segmentBytes k.connectedSticks s).length : ℤ) = s.size :=
    length_segmentBytes (by rw [hspace]; exact hsegment)
  refine ⟨fun hnil => hsize ?_, ?_⟩
  · rw [← hlen, show segmentBytes k.connectedSticks s = [] from hnil]
    rfl
  · show ((segmentBytes k.connectedSticks s).length : ℤ) ≤ INT_MAX
    omega

/-- **A suspension that succeeds** leaves the records of the process's segments in the table, and
no segment of it in memory. -/
lemma savedAs_of_suspended {answer : Message} (hinv : MemoryInvariant k) (hspace : AddressSpace k)
    (hr : Restorable pid k) (h : handleSuspendProcess pid k = some ([answer], k'))
    (hok : answer.opCode = .suspensionOk) :
    ∃ blockSize, 0 < blockSize ∧
      SavedAs pid blockSize ((imagesOf pid k).flatMap (imageRecords pid blockSize)) k' ∧
      idsOf pid k'.mainMemory.names = [] := by
  have hfree : ∀ n : ℕ, (fun p _ => p == pid : ℕ → ℕ → Bool) UINT32_MAX n = false := fun _ => by
    simp [Ne.symm hr.real]
  unfold handleSuspendProcess at h
  split at h
  · obtain ⟨⟨answer', k₁⟩, hrun, heq⟩ := Option.map_eq_some_iff.1 h
    simp only [Prod.mk.injEq, List.cons.injEq, and_true] at heq
    obtain ⟨rfl, rfl⟩ := heq
    rcases suspendProcess_cases hrun with ⟨-, -, hfailed⟩ |
      ⟨swapData, stored, hs, rfl, ⟨hstored, -, rfl⟩ | ⟨-, hfailed, -⟩⟩
    · rw [hok] at hfailed
      exact absurd hfailed (by decide)
    · have hwf := (hinv.swap swapData hs).toWellFormed
      have hpids : ∀ record ∈ (filterProcessSegments pid k.mainMemory).flatMap
          (segmentRecords k.connectedSticks swapData.blockSize), record.pid = pid :=
        fun record hrecord => pid_of_mem_records hrecord
      refine ⟨swapData.blockSize, hwf.blockSize_pos,
        ⟨_, rfl, storeRecords_blockSize _ _, ?_⟩, ?_⟩
      · have hnone := (savedBlocks_pid_eq_nil hwf.length_disk).2 (hr.blocks swapData hs)
        rw [savedBlocks_storeRecords hfree hwf.length_disk
          (fun record hrecord => by rw [hpids record hrecord]; exact hr.real)
          (NoneBehind.of_forall fun slot hslot => ?_) hstored, hnone, List.nil_append,
          List.filter_eq_self.2 fun record hrecord => by simp [hpids record hrecord]]
        · rw [imagesOf, List.flatMap_map]
          refine List.flatMap_congr fun s hs => ?_
          obtain ⟨hmem, hpid⟩ := List.mem_filter.1 hs
          have hsegment := hinv.layout.segment hmem
          rw [segmentRecords_eq (by rw [hspace]; exact hsegment) hwf.blockSize_pos]
          rw [show s.pid = pid by simpa using hpid]
        · have hblock := hr.blocks swapData hs slot.1 (List.of_mem_zip hslot).1
          simpa [isMarked] using hblock
      · rw [names_removeProcessSegments, idsOf_filter_ne, if_pos rfl]
    · rw [hok] at hfailed
      exact absurd hfailed (by decide)
  · simp at h

/-- The segments that start with a block of the process, by the records of the process. -/
lemma map_firsts_eq {swapData : SwapData}
    (hlen : swapData.disk.length = swapData.blockList.length) :
    (swapData.blockList.filter (BlockData.isFirst pid)).map
        (fun block => (block.segmentNumber, block.segmentSize)) =
      ((savedBlocks (fun p _ => p == pid) swapData).filter
        fun r => r.segmentBlockNumber == 0).map fun r => (r.segmentNumber, r.segmentSize) := by
  rw [savedBlocks, List.filter_map, List.filter_filter, List.map_map, ← map_fst_slots hlen,
    List.filter_map, List.map_map]
  congr 1
  refine List.filter_congr fun slot _ => ?_
  simp [BlockData.isFirst, BlockRecord.of, Bool.and_comm]

/-- The first record of each segment. -/
lemma filter_flatMap_imageRecords {blockSize : ℕ} (hpos : 0 < blockSize) {images : List Image}
    (himages : ∀ image ∈ images, image.data ≠ []) :
    ((images.flatMap (imageRecords pid blockSize)).filter
        fun r => r.segmentBlockNumber == 0).map (fun r => (r.segmentNumber, r.segmentSize)) =
      images.map fun image => (image.id, (image.data.length : ℤ)) := by
  induction images with
  | nil => rfl
  | cons image rest ih =>
    have hcount : 0 < segmentBlockCount image.data.length blockSize :=
      (lt_segmentBlockCount hpos image.data.length 0).2 (by
        rw [zero_mul]
        exact List.length_pos_of_ne_nil (himages image List.mem_cons_self))
    obtain ⟨n, hn⟩ := Nat.exists_eq_succ_of_ne_zero hcount.ne'
    have hfirst : (imageRecords pid blockSize image).filter (fun r => r.segmentBlockNumber == 0) =
        [imageRecord pid blockSize image 0] := by
      rw [imageRecords, hn, List.range_succ_eq_map, List.map_cons, List.filter_cons_of_pos (by
        simp [imageRecord]), List.map_map, List.filter_eq_nil_iff.2]
      intro r hr
      obtain ⟨i, -, rfl⟩ := List.mem_map.1 hr
      simp only [imageRecord, Function.comp_apply, beq_iff_eq]
      omega
    rw [List.flatMap_cons, List.filter_append, hfirst, List.map_append,
      ih fun i hi => himages i (List.mem_cons_of_mem image hi)]
    rfl

/-- **A resumption of saved segments** whose ids are the positions returns, and when it answers
with a success, the process has them in memory. -/
lemma imagesOf_of_resumed {images : List Image} {blockSize : ℕ} (hinv : MemoryInvariant k)
    (hspace : AddressSpace k) (hpos : 0 < blockSize)
    (hsaved : SavedAs pid blockSize (images.flatMap (imageRecords pid blockSize)) k)
    (hnone : idsOf pid k.mainMemory.names = [])
    (himages : ∀ image ∈ images, image.data ≠ [] ∧ (image.data.length : ℤ) ≤ INT_MAX)
    (hids : images.map Image.id = List.range images.length)
    (hok : EveryEdit (fun m op => op.ShrinksChosen m) k (.resumeProcess pid)) :
    ∃ msgs k', handleResumeSuspendedProcess pid k = some (msgs, k') ∧
      ((∃ m ∈ msgs, m.opCode = .resumeSuspensionOk) → imagesOf pid k' = images) := by
  obtain ⟨swapData, hs, rfl, hrecords⟩ := hsaved
  have hwf := (hinv.swap swapData hs).toWellFormed
  have hempty : filterProcessSegments pid k.mainMemory = [] := by
    rw [← map_id_filterProcessSegments] at hnone
    exact List.map_eq_nil_iff.1 hnone
  unfold handleResumeSuspendedProcess resumeProcess
  simp only [hs]
  by_cases hfits : canResume pid swapData k.mainMemory = true
  · rw [if_pos hfits]
    unfold EveryEdit at hok
    simp only [memoryOps, hs, hfits, if_true] at hok
    have hblocks : (swapData.blockList.filter (BlockData.isFirst pid)).map
        (fun block => (block.segmentNumber, block.segmentSize)) =
        images.map fun image => (image.id, (image.data.length : ℤ)) := by
      rw [map_firsts_eq hwf.length_disk, hrecords]
      exact filter_flatMap_imageRecords hpos fun image himage => (himages image himage).1
    have hfrom : recordsFrom pid 0 swapData =
        images.flatMap (imageRecords pid swapData.blockSize) := hrecords
    have hrestored := restoreRecords_images hinv.layout hpos hspace himages
      (by rw [hempty, hids, List.range_eq_range']; rfl) hblocks hok
    have hloop := @resumeBlocks_restores pid 0 ⟨k.mainMemory, k.connectedSticks, swapData⟩
      ⟨k.mainMemory, k.connectedSticks, swapData⟩ swapData.blockList.length false
      (ResumedUpTo.zero pid _) hwf (Nat.zero_add _)
    rw [hfrom, ← List.range_eq_range'] at hloop
    rcases hloop with ⟨hstuck, -⟩ | ⟨restored, msgs, r', hrun, hblocks', hstate, hsuccess⟩
    · -- the records can always be followed to the end or to a segment without a hole
      rcases hrestored with ⟨restored, hfailed⟩ | ⟨m', sticks', new, hall, -⟩
      · rw [hstuck] at hfailed
        exact absurd hfailed (by simp)
      · rw [hstuck] at hall
        exact absurd hall (by simp)
    · refine ⟨msgs, _, by rw [hblocks']; rfl, fun hm => ?_⟩
      have htrue := hsuccess hm
      rcases hrestored with ⟨restored', hfailed⟩ |
        ⟨m', sticks', new, hall, hsegments, hpids, hnew, -⟩
      · rw [hrun] at hfailed
        rw [Option.some.inj hfailed] at htrue
        exact absurd htrue Bool.false_ne_true
      · rw [hrun] at hall
        obtain rfl := Option.some.inj hall
        obtain ⟨rfl, rfl⟩ := Prod.mk.inj hstate
        show (filterProcessSegments pid r'.mainMemory).map (imageOf r'.connectedSticks) = images
        have hmine : filterProcessSegments pid r'.mainMemory = new := by
          have hold : k.mainMemory.segments.filter (fun s => s.pid == pid) = [] := hempty
          rw [filterProcessSegments, hsegments, List.filter_append, hold, List.nil_append,
            List.filter_eq_self]
          exact fun s hs => by simpa using hpids s hs
        rw [hmine, hnew]
  · rw [if_neg hfits]
    refine ⟨_, _, rfl, ?_⟩
    rintro ⟨m, hm, hcode⟩
    obtain rfl := List.mem_singleton.1 hm
    exact absurd hcode (by decide)

/-- **A resumption after a suspension restores the process.** The process is one whose ids are its
positions and whose segments have bytes, and none of its blocks is left in swap from an earlier
attempt. After a suspension that succeeds and any operations on other processes, a resumption
returns, and when it answers with a success, the process has the segments and the bytes it had. -/
theorem resume_restores {segmentMaxSize : ℤ} {strategy : AllocationStrategy}
    {k₁ k₂ : KernelMemory} {answer : Message}
    (hmax : 0 ≤ segmentMaxSize ∧ segmentMaxSize ≤ INT_MAX)
    (hstrategy : strategy = .best ∨ strategy = .worst)
    (hbefore : Run kernelMemoryStep (EveryEdit fun m op => op.ShrinksChosen m)
      (initKernelMemoryData segmentMaxSize strategy) k)
    (hrestorable : Restorable pid k)
    (hsuspend : handleSuspendProcess pid k = some ([answer], k₁))
    (hanswer : answer.opCode = .suspensionOk)
    (hbetween : Run kernelMemoryStep (fun k event => event.OfOthers pid ∧
      EveryEdit (fun m op => op.ShrinksChosen m) k event) k₁ k₂)
    (hresume : EveryEdit (fun m op => op.ShrinksChosen m) k₂ (.resumeProcess pid)) :
    ∃ msgs k₃, handleResumeSuspendedProcess pid k₂ = some (msgs, k₃) ∧
      ((∃ m ∈ msgs, m.opCode = .resumeSuspensionOk) → Restored pid k k₃) := by
  have hinv := memoryInvariant_of_run hmax hstrategy hbefore
  have hspace : AddressSpace k := addressSpace_of_run hbefore rfl (by simp [initKernelMemoryData])
  have hwf : ∀ {k : KernelMemory}, MemoryInvariant k →
      ∀ swapData ∈ k.swapData, swapData.WellFormed := fun hinv swapData hs =>
    (hinv.swap swapData hs).toWellFormed
  obtain ⟨blockSize, hpos, hsaved, hnone⟩ :=
    savedAs_of_suspended hinv hspace hrestorable hsuspend hanswer
  have hst₁ : kernelMemoryStep k (.suspendProcess pid) = some k₁ := by
    rw [kernelMemoryStep, hsuspend]
    rfl
  have hremovals : EveryEdit (fun m op => op.ShrinksChosen m) k (.suspendProcess pid) := by
    refine Admitted.of_forall fun op hop m => ?_
    simp only [memoryOps] at hop
    split at hop
    · obtain ⟨s, -, rfl⟩ := List.mem_map.1 hop
      trivial
    · simp at hop
  have hinv₁ := memoryInvariant_step hinv hremovals hst₁
  have hspace₁ := addressSpace_step hspace hst₁ (hwf hinv)
  -- what the operations on other processes leave
  have hlater : MemoryInvariant k₂ ∧ AddressSpace k₂ ∧
      SavedAs pid blockSize ((imagesOf pid k).flatMap (imageRecords pid blockSize)) k₂ ∧
      idsOf pid k₂.mainMemory.names = [] := by
    refine hbetween.invariant (I := fun k₂ => MemoryInvariant k₂ ∧ AddressSpace k₂ ∧
      SavedAs pid blockSize ((imagesOf pid k).flatMap (imageRecords pid blockSize)) k₂ ∧
      idsOf pid k₂.mainMemory.names = []) ⟨hinv₁, hspace₁, hsaved, hnone⟩ ?_
    rintro u event v ⟨hu, hspaceu, hsavedu, hnoneu⟩ ⟨hothers, hshrinks⟩ hst
    exact ⟨memoryInvariant_step hu hshrinks hst, addressSpace_step hspaceu hst (hwf hu),
      savedAs_step hrestorable.real hsavedu hothers hst (hwf hu),
      (idsOf_step hothers hst (hwf hu)).trans hnoneu⟩
  obtain ⟨hinv₂, hspace₂, hsaved₂, hnone₂⟩ := hlater
  obtain ⟨msgs, k₃, hrun, himages⟩ := imagesOf_of_resumed hinv₂ hspace₂ hpos hsaved₂ hnone₂
    (imagesOf_ne_nil hinv hspace hrestorable) (map_id_imagesOf hrestorable) hresume
  refine ⟨msgs, k₃, hrun, fun hm => ?_⟩
  have hst₃ : kernelMemoryStep k₂ (.resumeProcess pid) = some k₃ := by
    rw [kernelMemoryStep, hrun]
    rfl
  exact restored_of_images hinv.layout (memoryInvariant_step hinv₂ hresume hst₃).layout hspace
    (addressSpace_step hspace₂ hst₃ (hwf hinv₂)) (himages hm)

instance (size : ℕ) (memory : MainMemory) : Decidable (ShrinksChosen size memory) :=
  inferInstanceAs (Decidable (∀ hole ∈ memory.holes.find? _, (size : ℤ) ≤ hole.size))

instance (memory : MainMemory) (op : MemoryOp) : Decidable (op.ShrinksChosen memory) :=
  match op with
  | .createSegment _ _ size | .regenerateSegment _ _ size =>
    inferInstanceAs (Decidable (OsSimulator.Memory.ShrinksChosen (u32 size) memory))
  | .addTotalMemory _ | .removeSegment _ _ => .isTrue trivial

instance (ok : MainMemory → MemoryOp → Prop) [∀ m op, Decidable (ok m op)] (k : KernelMemory)
    (event : Event) : Decidable (EveryEdit ok k event) :=
  inferInstanceAs (Decidable (Admitted memoryStep ok k.mainMemory (memoryOps k event)))

instance (pid : ℕ) (event : Event) : Decidable (event.OfOthers pid) :=
  match event with
  | .newProcess p _ | .createSegment _ p _ | .deleteSegment _ p | .suspendProcess p
  | .resumeProcess p | .endProcess p => inferInstanceAs (Decidable (p ≠ pid))
  | .swapConnected _ _ => .isFalse id
  | .stickConnected _ | .memoryWritten _ _ => .isTrue trivial

/-- Ten bytes with two segments of process 1, and a swap of four blocks. -/
def memoryToSuspend : KernelMemory where
  mainMemory := ⟨10, 10, [⟨0, 1, 0, 3⟩, ⟨1, 1, 3, 2⟩], [⟨5, 5⟩], .best⟩
  connectedSticks := [⟨[10, 11, 12, 13, 14, 15, 16, 17, 18, 19]⟩]
  swapData := initSwapData 8 2
  processes := [1]

/-- The table with the three blocks of the process. -/
def swapOfSuspended : SwapData where
  blockList := [⟨0, 1, 0, 0, 3⟩, ⟨1, 1, 0, 1, 3⟩, ⟨2, 1, 1, 0, 2⟩,
    ⟨3, UINT32_MAX, UINT32_MAX, -1, -1⟩]
  blockSize := 2
  disk := [[10, 11], [12, 0], [13, 14], [0, 0]]

/-- The memory after the suspension of the process. -/
def memorySuspended : KernelMemory where
  mainMemory := ⟨10, 10, [], [⟨0, 10⟩], .best⟩
  connectedSticks := [⟨[10, 11, 12, 13, 14, 15, 16, 17, 18, 19]⟩]
  swapData := some swapOfSuspended
  processes := [1]

/-- Process 2 has got four bytes of it, and has written to them. -/
def memoryReused : KernelMemory where
  mainMemory := ⟨10, 10, [⟨0, 2, 0, 4⟩], [⟨4, 6⟩], .best⟩
  connectedSticks := [⟨[20, 21, 22, 23, 14, 15, 16, 17, 18, 19]⟩]
  swapData := some swapOfSuspended
  processes := [1]

/-- The memory after the resumption: the segments of process 1 are behind that of process 2. -/
def memoryResumed : KernelMemory where
  mainMemory := ⟨10, 10, [⟨0, 2, 0, 4⟩, ⟨0, 1, 4, 3⟩, ⟨1, 1, 7, 2⟩], [⟨9, 1⟩], .best⟩
  connectedSticks := [⟨[20, 21, 22, 23, 10, 11, 12, 13, 14, 19]⟩]
  swapData := some
    { swapOfSuspended with blockList := swapOfSuspended.blockList.map (clearBlock 1) }
  processes := [1]

/-- The process comes back to other addresses. -/
theorem resume_restores_moved : Restored 1 memoryToSuspend memoryResumed := by
  have hbefore : executeOk kernelMemoryStep (EveryEdit fun m op => op.ShrinksChosen m)
      (initKernelMemoryData 10 .best)
      [.stickConnected ⟨[10, 11, 12, 13, 14, 15, 16, 17, 18, 19]⟩, .swapConnected 8 2,
        .newProcess 1 true, .createSegment 0 1 3, .createSegment 1 1 2] =
      some memoryToSuspend := by decide +kernel
  have hbetween : executeOk kernelMemoryStep (fun k event => event.OfOthers 1 ∧
      EveryEdit (fun m op => op.ShrinksChosen m) k event) memorySuspended
      [.createSegment 0 2 4, .memoryWritten 0 [20, 21, 22, 23]] = some memoryReused := by
    decide +kernel
  have hsuspend : handleSuspendProcess 1 memoryToSuspend =
      some ([⟨.suspensionOk, ""⟩], memorySuspended) := by decide +kernel
  have hresume : handleResumeSuspendedProcess 1 memoryReused =
      some ([⟨.resumeSuspensionOk, ""⟩], memoryResumed) := by decide +kernel
  have hrestorable : Restorable 1 memoryToSuspend := by
    refine ⟨by decide, by decide, by decide, fun swapData hs => ?_⟩
    obtain rfl := Option.some.inj hs
    decide
  obtain ⟨msgs, k₃, hrun, hrestored⟩ := resume_restores ⟨by decide, by decide⟩ (Or.inl rfl)
    (Run.of_executeOk hbefore) hrestorable hsuspend rfl (Run.of_executeOk hbetween)
    (by decide +kernel)
  obtain ⟨rfl, rfl⟩ := Prod.mk.inj (Option.some.inj (hresume.symm.trans hrun))
  exact hrestored ⟨_, List.mem_singleton_self _, rfl⟩

/-- **A missing segment.** The only segment of process 1 has the id 1, as after `MEM_ALLOC 0 2`,
`MEM_ALLOC 1 3` and `MEM_FREE 0`: its suspension succeeds, and the resumption looks for a second
segment of the process and does not return. -/
theorem resume_reads_missing_segment : ∃ k k₁,
    Reachable kernelMemoryStep (initKernelMemoryData 10 .best) k ∧
      handleSuspendProcess 1 k = some ([⟨.suspensionOk, ""⟩], k₁) ∧
      handleResumeSuspendedProcess 1 k₁ = none := by
  have hrun : (execute kernelMemoryStep (initKernelMemoryData 10 .best) [.stickConnected tenBytes,
      .swapConnected 8 2, .newProcess 1 true, .createSegment 0 1 2, .createSegment 1 1 3,
      .deleteSegment 0 1]).map (fun k => (handleSuspendProcess 1 k).map fun suspended =>
        (suspended.1, (handleResumeSuspendedProcess 1 suspended.2).isNone)) =
      some (some ([⟨.suspensionOk, ""⟩], true)) := by decide +kernel
  obtain ⟨k, hk, heq⟩ := Option.map_eq_some_iff.1 hrun
  obtain ⟨⟨msgs, k₁⟩, hsuspend, hresume⟩ := Option.map_eq_some_iff.1 heq
  obtain ⟨rfl, hnone⟩ := Prod.mk.inj hresume
  exact ⟨k, k₁, Run.of_execute hk, hsuspend, Option.isNone_iff_eq_none.1 hnone⟩

end OsSimulator.Memory
