import OsSimulator.Memory.Layout

set_option relaxedAutoImplicit false
set_option autoImplicit false

/-!
# Segments do not overlap

Every edit exchanges extents for others without new addresses, so the layout is kept by every edit
that shrinks the hole it has chosen, and along every run of such edits. Where a hole without bytes
stands in the table before the chosen one and has its base, it is shrunk instead: it becomes a
hole of negative size, and the chosen hole stays although a segment has its bytes.

## Main definitions

* `EveryEdit ok k event` — every edit of the event meets a condition in the memory it is made in.
* `MemoryInvariant` — the layout of the main memory and the swap.
* `NoOverlap` — segments and holes lie in the address space and share no byte.

## Main results

* `layout_step`, `memoryInvariant_step` — an edit and an event keep the layout.
* `noOverlap_of_run` — nothing overlaps in a run whose allocations shrink the hole they chose.
* `overlap_of_empty_hole` — a run in which a segment and a hole overlap.
-/

namespace OsSimulator.Memory

variable {m m' : MainMemory}

/-! ## Edits and events -/

/-- The arguments are those of a call: no size is negative, and none is larger than an `int`. -/
def MemoryOp.InRange : MemoryOp → Prop
  | .addTotalMemory memoryTotal => 0 ≤ memoryTotal
  | .createSegment _ _ size | .regenerateSegment _ _ size => 0 ≤ size ∧ size ≤ INT_MAX
  | .removeSegment _ _ => True

/-- An edit that takes a hole shrinks one that has the bytes. -/
def MemoryOp.ShrinksChosen (memory : MainMemory) : MemoryOp → Prop
  | .createSegment _ _ size | .regenerateSegment _ _ size =>
    OsSimulator.Memory.ShrinksChosen (u32 size) memory
  | .addTotalMemory _ | .removeSegment _ _ => True

/-- An edit keeps the layout. -/
theorem layout_step {op : MemoryOp} (h : Layout m) (hrange : op.InRange)
    (hshrinks : op.ShrinksChosen m) (hrun : memoryStep m op = some m') : Layout m' := by
  cases op with
  | addTotalMemory n =>
    obtain ⟨heq, hle, old, new, rest, hold, hnew, hfits, haddr⟩ :=
      addTotalMemory_cases h hrange hrun
    have htotal : m'.totalSize = m.totalSize + n := by rw [heq]
    have hextended := h.fits.extend h.total_range.1 hrange
    refine ⟨by rw [heq]; exact h.strategy, by rw [heq]; exact h.max_range,
      ⟨?_, htotal ▸ hle⟩, ?_⟩
    · have := h.total_range
      have : 0 ≤ n := hrange
      omega
    · rw [htotal]
      exact ((hextended.perm hold).exchange hfits haddr.subset).perm hnew.symm
  | createSegment id pid size =>
    obtain ⟨⟨msgs, m₁⟩, hcreate, rfl⟩ := Option.map_eq_some_iff.1 hrun
    rcases createSegment_cases h hrange.1 hrange.2 hshrinks hcreate with
      ⟨rfl, -⟩ | ⟨-, htakes⟩ | ⟨-, -, compacted, base, hcompact, htakes⟩
    · exact h
    · obtain ⟨old, new, hex, -⟩ := exchanged_taken h htakes hrange.1
      exact h.exchanged hex
    · obtain ⟨-, -, -, -, hlayout, -⟩ := compactMemory_cases h hcompact
      obtain ⟨old, new, hex, -⟩ := exchanged_taken hlayout htakes hrange.1
      exact hlayout.exchanged hex
  | removeSegment id pid =>
    obtain rfl := Option.some.inj hrun
    rcases removeSegment_cases id pid m with ⟨hnone, -⟩ | ⟨pre, s, post, hlist, -, -, -, hremove⟩
    · rwa [hnone]
    · obtain ⟨old, new, hex, -⟩ := exchanged_removed h hlist
      rw [hremove]
      exact h.exchanged hex
  | regenerateSegment id pid size =>
    obtain rfl := Option.some.inj hrun
    rcases regenerateSegment_cases id pid h hrange.1 hrange.2 hshrinks with
      ⟨failure, hregen⟩ | ⟨m₁, hregen, htakes⟩
    · rwa [hregen]
    · obtain ⟨old, new, hex, -⟩ := exchanged_taken h htakes hrange.1
      rw [hregen]
      exact h.exchanged hex

/-- The edits of an event have arguments in range. -/
lemma inRange_of_mem_memoryOps {k : KernelMemory} {event : Event} (h : Layout k.mainMemory)
    (hswap : ∀ swapData ∈ k.swapData, SwapKept swapData) :
    ∀ op ∈ memoryOps k event, op.InRange := by
  have hremovals : ∀ pid, ∀ op ∈ removals pid k.mainMemory, op.InRange := fun pid op hop => by
    obtain ⟨s, -, rfl⟩ := List.mem_map.1 hop
    trivial
  have hregenerations : ∀ pid (blocks : List BlockData),
      (∀ block ∈ blocks, 0 ≤ block.segmentSize ∧ block.segmentSize ≤ INT_MAX) →
      ∀ memory, ∀ op ∈ regenerations pid blocks memory, op.InRange := by
    intro pid blocks hblocks
    induction blocks with
    | nil => simp [regenerations]
    | cons block rest ih =>
      intro memory op hop
      rw [regenerations] at hop
      rcases List.mem_cons.1 hop with rfl | hop
      · exact hblocks block List.mem_cons_self
      · split at hop
        · exact ih (fun b hb => hblocks b (List.mem_cons_of_mem block hb)) _ op hop
        · simp at hop
  cases event with
  | createSegment id pid size =>
    simp only [memoryOps]
    split
    · simp
    · rename_i hsize
      have hu := u32_of_nonneg h.max_range.1 h.max_range.2
      have hmax := h.max_range
      have hi : i32 (size : ℤ) = size := i32_of_nonneg (by omega) (by omega)
      intro op hop
      obtain rfl := List.mem_singleton.1 hop
      simp only [MemoryOp.InRange, hi]
      omega
  | deleteSegment id pid =>
    intro op hop
    obtain rfl := List.mem_singleton.1 hop
    trivial
  | suspendProcess pid =>
    simp only [memoryOps]
    split
    · exact hremovals pid
    · simp
  | resumeProcess pid =>
    simp only [memoryOps]
    split
    · rename_i swapData hs
      split
      · refine hregenerations pid _ (fun block hblock => ?_) _
        obtain ⟨hmem, hfirst⟩ := List.mem_filter.1 hblock
        simp only [BlockData.isFirst, Bool.and_eq_true, beq_iff_eq] at hfirst
        exact (hswap swapData hs).size_range block hmem hfirst.2
      · simp
    · simp
  | endProcess pid =>
    simp only [memoryOps]
    split
    · exact hremovals pid
    · simp
  | stickConnected stick =>
    intro op hop
    obtain rfl := List.mem_singleton.1 hop
    exact Int.natCast_nonneg _
  | newProcess | swapConnected | memoryWritten => simp [memoryOps]

/-- What the run lemmas carry: the layout of the main memory and the swap. -/
structure MemoryInvariant (k : KernelMemory) : Prop where
  layout : Layout k.mainMemory
  swap : ∀ swapData ∈ k.swapData, SwapKept swapData

/-- Every edit of the event meets a condition in the memory it is made in. -/
def EveryEdit (ok : MainMemory → MemoryOp → Prop) (k : KernelMemory) (event : Event) : Prop :=
  Admitted memoryStep ok k.mainMemory (memoryOps k event)

/-- The edits of an event as a run. -/
lemma run_memoryOps {ok : MainMemory → MemoryOp → Prop} {k k' : KernelMemory} {event : Event}
    (h : MemoryInvariant k) (hok : EveryEdit ok k event)
    (hrun : kernelMemoryStep k event = some k') :
    Run memoryStep (fun m op => op.InRange ∧ ok m op) k.mainMemory k'.mainMemory :=
  Run.of_execute_of_admitted
      (execute_memoryOps hrun fun swapData hs => (h.swap swapData hs).toWellFormed) <|
    hok.mono fun op hop _ hm => ⟨inRange_of_mem_memoryOps h.layout h.swap op hop, hm⟩

/-- An event keeps the layout and the swap. -/
theorem memoryInvariant_step {k k' : KernelMemory} {event : Event} (h : MemoryInvariant k)
    (hok : EveryEdit (fun m op => op.ShrinksChosen m) k event)
    (hrun : kernelMemoryStep k event = some k') : MemoryInvariant k' := by
  refine ⟨?_, swapKept_step hrun h.swap fun s hs => ?_⟩
  · exact (run_memoryOps h hok hrun).invariant h.layout fun m op m' hm hop hst =>
      layout_step hm hop.1 hop.2 hst
  · have := h.layout.segment hs
    have := h.layout.total_range
    omega

/-- Kernel Memory when it starts. -/
lemma memoryInvariant_init {segmentMaxSize : ℤ} {strategy : AllocationStrategy}
    (hmax : 0 ≤ segmentMaxSize ∧ segmentMaxSize ≤ INT_MAX)
    (hstrategy : strategy = .best ∨ strategy = .worst) :
    MemoryInvariant (initKernelMemoryData segmentMaxSize strategy) :=
  ⟨⟨hstrategy, hmax, ⟨le_rfl, (by decide : (0 : ℤ) ≤ INT_MAX)⟩, Fits.nil⟩, fun _ hs => by
    simp [initKernelMemoryData] at hs⟩

/-- The invariant in a run whose allocations shrink the right hole. -/
theorem memoryInvariant_of_run {segmentMaxSize : ℤ} {strategy : AllocationStrategy}
    {k : KernelMemory} (hmax : 0 ≤ segmentMaxSize ∧ segmentMaxSize ≤ INT_MAX)
    (hstrategy : strategy = .best ∨ strategy = .worst)
    (h : Run kernelMemoryStep (EveryEdit fun m op => op.ShrinksChosen m)
      (initKernelMemoryData segmentMaxSize strategy) k) : MemoryInvariant k :=
  h.invariant (memoryInvariant_init hmax hstrategy) fun _ _ _ hinv hok hst =>
    memoryInvariant_step hinv hok hst

/-! ## In terms of bytes -/

/-- The segment has the byte at the address. -/
def Segment.Holds (s : Segment) (a : ℤ) : Prop := s.base ≤ a ∧ a < s.base + s.size

/-- The hole has the byte at the address. -/
def Hole.Holds (h : Hole) (a : ℤ) : Prop := h.base ≤ a ∧ a < h.base + h.size

/-- Segments and holes lie in the address space, no hole has a negative size, and no byte is in two
of them. -/
structure NoOverlap (m : MainMemory) : Prop where
  segments_inside : ∀ s ∈ m.segments, 0 ≤ s.base ∧ 0 ≤ s.size ∧ s.base + s.size ≤ m.totalSize
  segments_apart : m.segments.Pairwise fun s t => ∀ a, ¬ (s.Holds a ∧ t.Holds a)
  holes_inside : ∀ h ∈ m.holes, 0 ≤ h.base ∧ 0 ≤ h.size ∧ h.base + h.size ≤ m.totalSize
  holes_apart : m.holes.Pairwise fun h g => ∀ a, ¬ (h.Holds a ∧ g.Holds a)
  segments_holes_apart : ∀ s ∈ m.segments, ∀ h ∈ m.holes, ∀ a, ¬ (s.Holds a ∧ h.Holds a)

/-- Under the invariant nothing overlaps. -/
lemma Layout.noOverlap (h : Layout m) : NoOverlap m := by
  obtain ⟨hsegments, hholes, hboth⟩ := List.pairwise_append.1 h.fits.apart
  rw [List.pairwise_map] at hsegments hholes
  refine ⟨fun s hs => h.segment hs, hsegments.imp fun hapart => apart_iff.1 hapart,
    fun hole hhole => h.hole hhole, hholes.imp fun hapart => apart_iff.1 hapart,
    fun s hs hole hhole => ?_⟩
  exact apart_iff.1 (hboth _ (List.mem_map_of_mem hs) _ (List.mem_map_of_mem hhole))

/-- **Segments do not overlap.** In every state of a run in which each allocation shrinks a hole
that has the bytes, segments and holes lie in the address space and share no byte. -/
theorem noOverlap_of_run {segmentMaxSize : ℤ} {strategy : AllocationStrategy} {k : KernelMemory}
    (hmax : 0 ≤ segmentMaxSize ∧ segmentMaxSize ≤ INT_MAX)
    (hstrategy : strategy = .best ∨ strategy = .worst)
    (h : Run kernelMemoryStep (EveryEdit fun m op => op.ShrinksChosen m)
      (initKernelMemoryData segmentMaxSize strategy) k) : NoOverlap k.mainMemory :=
  (memoryInvariant_of_run hmax hstrategy h).layout.noOverlap

/-- A stick of ten bytes. -/
def tenBytes : Stick := ⟨List.replicate 10 0⟩

/-- Ten bytes with one segment of three. -/
def memoryWithSegment : KernelMemory where
  mainMemory := ⟨10, 10, [⟨0, 1, 0, 3⟩], [⟨3, 7⟩], .best⟩
  connectedSticks := [tenBytes]
  swapData := none
  processes := []

/-- The allocation is a run of the condition. -/
lemma run_memoryWithSegment :
    Run kernelMemoryStep (EveryEdit fun m op => op.ShrinksChosen m) (initKernelMemoryData 10 .best)
      memoryWithSegment := by
  refine .tail (.createSegment 0 1 3) (.tail (.stickConnected tenBytes) .refl ?_ rfl) ?_ rfl
  · exact ⟨trivial, fun _ _ => trivial⟩
  · refine ⟨fun hole hhole => ?_, fun _ _ => trivial⟩
    obtain rfl : (⟨0, 10⟩ : Hole) = hole := Option.some.inj hhole
    decide

/-- Ten bytes with two segments, a hole between them and one behind them. -/
def memoryWithGap : KernelMemory where
  mainMemory := ⟨10, 10, [⟨0, 1, 0, 3⟩, ⟨2, 1, 5, 3⟩], [⟨8, 2⟩, ⟨3, 2⟩], .best⟩
  connectedSticks := [tenBytes]
  swapData := none
  processes := []

/-- Three allocations, and the segment in the middle goes. -/
theorem noOverlap_of_run_gap : NoOverlap memoryWithGap.mainMemory := by
  have hrun : Run kernelMemoryStep (EveryEdit fun m op => op.ShrinksChosen m)
      (initKernelMemoryData 10 .best) memoryWithGap := by
    refine .tail (.deleteSegment 1 1) (.tail (.createSegment 2 1 3)
      (.tail (.createSegment 1 1 2) run_memoryWithSegment ?_ rfl) ?_ rfl) ?_ rfl
    · refine ⟨fun hole hhole => ?_, fun _ _ => trivial⟩
      obtain rfl : (⟨3, 7⟩ : Hole) = hole := Option.some.inj hhole
      decide
    · refine ⟨fun hole hhole => ?_, fun _ _ => trivial⟩
      obtain rfl : (⟨5, 5⟩ : Hole) = hole := Option.some.inj hhole
      decide
    · exact ⟨trivial, fun _ _ => trivial⟩
  exact noOverlap_of_run ⟨by decide, by decide⟩ (Or.inl rfl) hrun

/-- Requests of process 1 that leave the hole `(3, 0)` in the table before the hole `(3, 7)`. The
segment without bytes is removed inside a hole, where it has no neighbour. -/
def emptyHoleEvents : List Event :=
  [.stickConnected tenBytes, .createSegment 0 1 3, .createSegment 1 1 0, .deleteSegment 0 1,
    .deleteSegment 1 1, .createSegment 2 1 10, .deleteSegment 2 1, .createSegment 3 1 3,
    .createSegment 4 1 4]

/-- The state after them: the hole `(3, 7)` contains segment 4. -/
def memoryWithOverlap : KernelMemory where
  mainMemory := ⟨10, 10, [⟨3, 1, 0, 3⟩, ⟨4, 1, 3, 4⟩], [⟨7, -4⟩, ⟨3, 7⟩], .best⟩
  connectedSticks := [tenBytes]
  swapData := none
  processes := []

/-- The last request takes four bytes from the hole `(3, 0)` instead of the hole `(3, 7)`. -/
theorem overlap_of_empty_hole :
    Reachable kernelMemoryStep (initKernelMemoryData 10 .best) memoryWithOverlap ∧
      ¬ NoOverlap memoryWithOverlap.mainMemory := by
  have hrun : execute kernelMemoryStep (initKernelMemoryData 10 .best) emptyHoleEvents =
      some memoryWithOverlap := by decide
  refine ⟨Run.of_execute hrun, fun h => ?_⟩
  have := (h.holes_inside ⟨7, -4⟩ (by decide)).2.1
  exact absurd this (by decide)

end OsSimulator.Memory
