import OsSimulator.Memory.AddressTranslation
import OsSimulator.Memory.Holes

set_option relaxedAutoImplicit false
set_option autoImplicit false

/-!
# Compaction

`compact_segments` gives every segment of the list, in list order, the end of the one before it
as its base, and `compact_memory` makes one hole of the rest. No byte moves: `create_segment`,
the only caller, does not even know the sticks. This file proves exactly when a process still
reads its data through the new bases.

## Main definitions

* `compactSegments`, `compactMemory`, `createSegment` — the source's functions.
* `packedBase segments i` — the base the compaction gives the `i`-th segment.
* `ContentsKept before after` — every segment reads the same bytes before and after.
* `HoldsPacked`, `Moves` — the sticks already hold a segment's bytes at its new place; a segment
  with bytes in the sticks changes its place.

## Main results

* `compaction_keeps_contents_iff` — a compaction keeps the contents exactly when the sticks hold
  every segment's bytes at its new place already; for a layout, whatever its bytes, exactly when
  no segment moves.
-/

namespace OsSimulator.Memory

/-! ## The code -/

/-- The loop of `compact_segments`, with the end of the segment before. -/
def compactSegmentsFrom (base : ℤ) : List Segment → List Segment
  | [] => []
  | currentSegment :: rest =>
    { currentSegment with base := base } :: compactSegmentsFrom (base + currentSegment.size) rest

/-- `compact_segments`. -/
def compactSegments (segments : List Segment) : List Segment := compactSegmentsFrom 0 segments

/-- `compute_last_segment_end`; an empty list has no last segment to read. -/
def computeLastSegmentEnd (segments : List Segment) : Option ℤ :=
  segments.getLast?.map fun lastSegment => lastSegment.base + lastSegment.size

/-- `compact_holes`. -/
def compactHoles (memoryTotal baseFinalSegment : ℤ) : List Hole :=
  [⟨baseFinalSegment, memoryTotal - baseFinalSegment⟩]

/-- `compact_memory`, with the message it sends. -/
def compactMemory (mainMemory : MainMemory) : Option (Message × MainMemory) :=
  let segments := compactSegments mainMemory.segments
  (computeLastSegmentEnd segments).map fun lastEnd =>
    (⟨.compactionDone, "Compaction finished"⟩,
      { mainMemory with
        segments := segments
        holes := compactHoles mainMemory.totalSize lastEnd })

/-- The message of `notify_compaction`. Its answer changes nothing. -/
def notifyCompaction : Message := ⟨.compactionNeeded, "Memory needs to be compacted"⟩

/-- `create_segment`, with the messages it sends; `none` when it reads through a null pointer. The
size check at its start sends its message and goes on. -/
def createSegment (id pid : ℕ) (size : ℤ) (mainMemory : MainMemory) :
    Option (List Message × MainMemory) :=
  let exceeded : List Message :=
    if mainMemory.maxSegmentSize < size then
      [⟨.segmentSizeExceeded, "The requested size exceeds the max segment size."⟩]
    else []
  if computeFreeSpace mainMemory.holes < size then
    some (exceeded ++ [⟨.notEnoughMemory, "There are not memory enough"⟩], mainMemory)
  else
    let chosen := selectHole (u32 size) mainMemory
    let allocated : Message := ⟨.memoryAllocated, "Memory allocated"⟩
    if chosen.1.size = -1 then
      (compactMemory chosen.2).map fun compacted =>
        let chosen' := selectHole (u32 size) compacted.2
        (exceeded ++ [notifyCompaction, compacted.1, allocated],
          updateSegmentList chosen'.2 chosen'.1 size pid id)
    else
      some (exceeded ++ [allocated], updateSegmentList chosen.2 chosen.1 size pid id)

/-- `handle_create_segment`. The size arrives as a `uint32_t` and is compared as one. -/
def handleCreateSegment (id pid size : ℕ) (k : KernelMemory) :
    Option (List Message × KernelMemory) :=
  if u32 k.mainMemory.maxSegmentSize < size then
    some ([⟨.segmentSizeExceeded, "Requested size is larger than the max segment size"⟩], k)
  else
    (createSegment id pid (i32 size) k.mainMemory).map fun created =>
      (created.1, { k with mainMemory := created.2 })

/-! ## Where the segments go -/

/-- The base a compaction gives the `i`-th segment: the sizes of the segments before it. -/
def packedBase (segments : List Segment) (i : ℕ) : ℤ := ((segments.take i).map Segment.size).sum

/-- The `i`-th segment after the loop of `compact_segments`. -/
lemma getElem?_compactSegmentsFrom (base : ℤ) (segments : List Segment) (i : ℕ) :
    (compactSegmentsFrom base segments)[i]? =
      segments[i]?.map fun s => { s with base := base + packedBase segments i } := by
  induction segments generalizing base i with
  | nil => rfl
  | cons s rest ih =>
    cases i with
    | zero => simp [compactSegmentsFrom, packedBase]
    | succ i =>
      simp only [compactSegmentsFrom, List.getElem?_cons_succ, ih, packedBase,
        List.take_succ_cons, List.map_cons, List.sum_cons, Int.add_assoc]

/-- The `i`-th segment after `compact_segments`. -/
lemma getElem?_compactSegments (segments : List Segment) (i : ℕ) :
    (compactSegments segments)[i]? =
      segments[i]?.map fun s => { s with base := packedBase segments i } := by
  rw [compactSegments, getElem?_compactSegmentsFrom]
  simp only [Int.zero_add]

/-- The compaction keeps the number of segments. -/
@[simp] lemma length_compactSegments (segments : List Segment) :
    (compactSegments segments).length = segments.length := by
  have hlen : ∀ base, (compactSegmentsFrom base segments).length = segments.length := by
    induction segments with
    | nil => intro base; rfl
    | cons s rest ih =>
      intro base
      rw [compactSegmentsFrom, List.length_cons, ih, List.length_cons]
  exact hlen 0

/-- `select_hole` touches the hole table only. -/
@[simp] lemma selectHole_segments (size : ℕ) (memory : MainMemory) :
    (selectHole size memory).2.segments = memory.segments := by
  unfold selectHole
  split <;> rfl

/-- The segments after `compact_memory`. -/
lemma compactMemory_segments {m : MainMemory} {compacted : Message × MainMemory}
    (h : compactMemory m = some compacted) :
    compacted.2.segments = compactSegments m.segments := by
  obtain ⟨lastEnd, -, rfl⟩ := Option.map_eq_some_iff.1 h
  rfl

/-- The segments after a `create_segment` that compacts: the old ones in their places with their
packed bases, and the new one. -/
lemma createSegment_segments_of_compaction {id pid : ℕ} {size : ℤ} {m m' : MainMemory}
    {msgs : List Message} (h : createSegment id pid size m = some (msgs, m'))
    (hc : notifyCompaction ∈ msgs) :
    ∃ s, m'.segments = compactSegments m.segments ++ [s] := by
  unfold createSegment at h
  dsimp only at h
  split at h
  · -- refused for lack of space: no compaction was announced
    obtain ⟨rfl, -⟩ := by simpa using h
    exfalso
    revert hc
    split <;> simp [notifyCompaction]
  · split at h
    · obtain ⟨compacted, hcomp, heq⟩ := Option.map_eq_some_iff.1 h
      obtain ⟨-, rfl⟩ := Prod.mk.inj heq
      refine ⟨⟨id, pid, (selectHole (u32 size) compacted.2).1.base, size⟩, ?_⟩
      rw [updateSegmentList_segments, selectHole_segments, compactMemory_segments hcomp,
        selectHole_segments]
    · -- a hole was found at once
      obtain ⟨rfl, -⟩ := by simpa using h
      exfalso
      revert hc
      split <;> simp [notifyCompaction]

/-- `create_segment` does not know the sticks. -/
lemma handleCreateSegment_withSticks (id pid size : ℕ) (k : KernelMemory) (sticks : List Stick) :
    handleCreateSegment id pid size { k with connectedSticks := sticks } =
      (handleCreateSegment id pid size k).map fun r =>
        (r.1, { r.2 with connectedSticks := sticks }) := by
  unfold handleCreateSegment
  split
  · rfl
  · rw [Option.map_map]
    rfl

/-- The `i`-th segment after a request that compacts, and the sticks, which are as before. -/
lemma handleCreateSegment_of_compaction {id pid size : ℕ} {k k' : KernelMemory}
    {msgs : List Message} (h : handleCreateSegment id pid size k = some (msgs, k'))
    (hc : notifyCompaction ∈ msgs) :
    k'.connectedSticks = k.connectedSticks ∧
      ∀ (i : ℕ) (s : Segment), k.mainMemory.segments[i]? = some s →
        k'.mainMemory.segments[i]? =
          some { s with base := packedBase k.mainMemory.segments i } := by
  unfold handleCreateSegment at h
  split at h
  · obtain ⟨rfl, -⟩ := by simpa using h
    simp [notifyCompaction] at hc
  · obtain ⟨created, hcreate, heq⟩ := Option.map_eq_some_iff.1 h
    obtain ⟨rfl, rfl⟩ := Prod.mk.inj heq
    refine ⟨rfl, fun i s hs => ?_⟩
    obtain ⟨new, hsegs⟩ := createSegment_segments_of_compaction hcreate hc
    have hi : i < k.mainMemory.segments.length := (List.getElem?_eq_some_iff.1 hs).1
    rw [hsegs, List.getElem?_append_left (by simpa using hi), getElem?_compactSegments, hs]
    rfl

/-! ## What a process reads afterwards -/

/-- Every segment is still there, and its process reads in it what it read before. -/
def ContentsKept (before after : KernelMemory) : Prop :=
  ∀ (i : ℕ) (s : Segment), before.mainMemory.segments[i]? = some s →
    ∃ s' : Segment, after.mainMemory.segments[i]? = some s' ∧
      s'.id = s.id ∧ s'.pid = s.pid ∧ s'.size = s.size ∧
      ∀ o : ℤ, 0 ≤ o → o < s.size →
        byteAt after.connectedSticks (s'.base + o) = byteAt before.connectedSticks (s.base + o)

/-- The sticks hold every segment's bytes at its packed place already: the segment need not move,
or the bytes found there happen to be its own. -/
def HoldsPacked (k : KernelMemory) : Prop :=
  ∀ (i : ℕ) (s : Segment), k.mainMemory.segments[i]? = some s → ∀ o : ℤ, 0 ≤ o → o < s.size →
    byteAt k.connectedSticks (packedBase k.mainMemory.segments i + o) =
      byteAt k.connectedSticks (s.base + o)

/-- The `i`-th segment is not at its packed place, and some byte of it lies in the sticks, at its
place or at its packed one. -/
def Moves (k : KernelMemory) (i : ℕ) : Prop :=
  ∃ s : Segment, k.mainMemory.segments[i]? = some s ∧ s.base ≠ packedBase k.mainMemory.segments i ∧
    ∃ o : ℤ, 0 ≤ o ∧ o < s.size ∧
      ((byteAt k.connectedSticks (s.base + o)).isSome ∨
        (byteAt k.connectedSticks (packedBase k.mainMemory.segments i + o)).isSome)

/-- A compaction keeps the contents exactly when the sticks hold them at the new places. -/
lemma contentsKept_iff_holdsPacked {id pid size : ℕ} {k k' : KernelMemory} {msgs : List Message}
    (h : handleCreateSegment id pid size k = some (msgs, k')) (hc : notifyCompaction ∈ msgs) :
    ContentsKept k k' ↔ HoldsPacked k := by
  obtain ⟨hsticks, hsegs⟩ := handleCreateSegment_of_compaction h hc
  constructor
  · intro hkept i s hs o ho₀ ho
    obtain ⟨s', hs', -, -, -, hbytes⟩ := hkept i s hs
    rw [hsegs i s hs, Option.some.injEq] at hs'
    rw [← hbytes o ho₀ ho, hsticks, ← hs']
  · intro hholds i s hs
    refine ⟨_, hsegs i s hs, rfl, rfl, rfl, fun o ho₀ ho => ?_⟩
    rw [hsticks]
    exact hholds i s hs o ho₀ ho

/-- Sticks of the given sizes with the byte `f a` at address `a`, the first of them at `base`. -/
def fillSticks (f : ℕ → UInt8) : ℕ → List ℕ → List Stick
  | _, [] => []
  | base, n :: sizes => ⟨(List.range n).map fun i => f (base + i)⟩ :: fillSticks f (base + n) sizes

/-- The sticks that are filled have the given sizes. -/
lemma map_stickSize_fillSticks (f : ℕ → UInt8) (base : ℕ) (sizes : List ℕ) :
    (fillSticks f base sizes).map Stick.stickSize = sizes := by
  induction sizes generalizing base with
  | nil => rfl
  | cons n sizes ih => simp [fillSticks, ih, Stick.stickSize]

/-- Their bytes are the values of the function. -/
lemma bytesOf_fillSticks (f : ℕ → UInt8) (base : ℕ) (sizes : List ℕ) :
    bytesOf (fillSticks f base sizes) = (List.range sizes.sum).map fun i => f (base + i) := by
  induction sizes generalizing base with
  | nil => rfl
  | cons n sizes ih =>
    rw [fillSticks, bytesOf_cons, ih, List.sum_cons, List.range_add, List.map_append, List.map_map]
    congr 1
    refine List.map_congr_left fun i _ => ?_
    simp only [Function.comp_apply, Nat.add_assoc]

/-- So is each of them at its address. -/
lemma byteAt_fillSticks (f : ℕ → UInt8) (sizes : List ℕ) (a : ℤ) :
    byteAt (fillSticks f 0 sizes) a =
      if 0 ≤ a ∧ a < (sizes.sum : ℕ) then some (f a.toNat) else none := by
  rw [byteAt_eq, bytesOf_fillSticks]
  by_cases ha : 0 ≤ a
  · rw [if_pos ha, List.getElem?_map]
    by_cases hlt : a < (sizes.sum : ℕ)
    · rw [if_pos ⟨ha, hlt⟩, List.getElem?_range (by omega)]
      simp
    · rw [if_neg (by omega), List.getElem?_eq_none (by simp; omega)]
      rfl
  · rw [if_neg ha, if_neg (by omega)]

/-- Sticks of the same sizes that tell a moving segment from what is at its packed place: all
bytes are `0` but the one byte of the segment that the move loses. -/
lemma exists_sticks_of_moves {k : KernelMemory} {i : ℕ} (h : Moves k i) :
    ∃ sticks : List Stick, sticks.map Stick.stickSize = k.connectedSticks.map Stick.stickSize ∧
      ¬ HoldsPacked { k with connectedSticks := sticks } := by
  obtain ⟨s, hs, hne, o, ho₀, ho, hmapped⟩ := h
  set sizes := k.connectedSticks.map Stick.stickSize with hsizes
  let f : ℕ → UInt8 := fun a => if (a : ℤ) = s.base + o then 1 else 0
  refine ⟨fillSticks f 0 sizes, map_stickSize_fillSticks _ _ _, fun hholds => ?_⟩
  have heq := hholds i s hs o ho₀ ho
  simp only [byteAt_fillSticks] at heq
  simp only [isSome_byteAt, ← hsizes] at hmapped
  have hold : ∀ a : ℤ, 0 ≤ a → a = s.base + o → f a.toNat = 1 := fun a ha₀ ha =>
    if_pos (by omega)
  have hnew : ∀ a : ℤ, 0 ≤ a → a ≠ s.base + o → f a.toNat = 0 := fun a ha₀ ha =>
    if_neg (by omega)
  split at heq
  · split at heq
    · rw [hold _ (by omega) rfl, hnew _ (by omega) (by omega)] at heq
      exact absurd (Option.some.inj heq) (by decide)
    · exact absurd heq (by simp)
  · split at heq
    · exact absurd heq (by simp)
    · omega

/-- When no segment moves, any sticks of the same sizes hold every segment at its packed
place. -/
lemma holdsPacked_of_not_moves {k : KernelMemory} (h : ∀ i, ¬ Moves k i) {sticks : List Stick}
    (hsizes : sticks.map Stick.stickSize = k.connectedSticks.map Stick.stickSize) :
    HoldsPacked { k with connectedSticks := sticks } := by
  intro i s hs o ho₀ ho
  by_cases hbase : s.base = packedBase k.mainMemory.segments i
  · rw [hbase]
  · have hunmapped : ∀ a, ((byteAt k.connectedSticks a).isSome →
        a ≠ s.base + o ∧ a ≠ packedBase k.mainMemory.segments i + o) := by
      intro a ha
      constructor
      · rintro rfl
        exact h i ⟨s, hs, hbase, o, ho₀, ho, .inl ha⟩
      · rintro rfl
        exact h i ⟨s, hs, hbase, o, ho₀, ho, .inr ha⟩
    have hnone : ∀ a, a = s.base + o ∨ a = packedBase k.mainMemory.segments i + o →
        byteAt sticks a = none := by
      intro a ha
      by_contra hsome
      rw [← ne_eq, Option.ne_none_iff_isSome, isSome_byteAt, hsizes, ← isSome_byteAt] at hsome
      have := hunmapped a hsome
      omega
    rw [hnone _ (.inl rfl), hnone _ (.inr rfl)]

/-- **A compaction and the memory contents.** For a request whose creation compacts, every process
reads the same data through its new segment table if and only if the sticks hold the bytes of
every segment at its packed place already. For the layout alone, this is so whatever bytes the
sticks hold if and only if no segment with bytes in the sticks has to move.

**Proof sketch.** The compaction changes the bases and leaves the sticks, so what is read through
a new base is what the sticks already hold there (`contentsKept_iff_holdsPacked`). A segment that
moves is told from what lies at its packed place by sticks with one marked byte
(`exists_sticks_of_moves`). -/
theorem compaction_keeps_contents_iff {id pid size : ℕ} {k k' : KernelMemory}
    {msgs : List Message} (h : handleCreateSegment id pid size k = some (msgs, k'))
    (hc : notifyCompaction ∈ msgs) :
    (ContentsKept k k' ↔ HoldsPacked k) ∧
    ((∀ sticks : List Stick,
        sticks.map Stick.stickSize = k.connectedSticks.map Stick.stickSize →
        ∃ k'', handleCreateSegment id pid size { k with connectedSticks := sticks } =
            some (msgs, k'') ∧
          ContentsKept { k with connectedSticks := sticks } k'') ↔
      ∀ i, ¬ Moves k i) := by
  refine ⟨contentsKept_iff_holdsPacked h hc, ?_, ?_⟩
  · intro hall i hmoves
    obtain ⟨sticks, hsizes, hlost⟩ := exists_sticks_of_moves hmoves
    obtain ⟨k'', hrun, hkept⟩ := hall sticks hsizes
    exact hlost ((contentsKept_iff_holdsPacked hrun hc).1 hkept)
  · intro hnot sticks hsizes
    have hrun : handleCreateSegment id pid size { k with connectedSticks := sticks } =
        some (msgs, { k' with connectedSticks := sticks }) := by
      rw [handleCreateSegment_withSticks, h]
      rfl
    exact ⟨_, hrun, (contentsKept_iff_holdsPacked hrun hc).2 (holdsPacked_of_not_moves hnot hsizes)⟩

/-- One stick of six bytes after `MEM_ALLOC 0 2`, `MEM_ALLOC 1 2` and `MEM_FREE 0` of process 1:
segment 1 lies between two holes of two bytes. -/
def memoryBeforeSlide : KernelMemory where
  mainMemory := ⟨6, 6, [⟨1, 1, 2, 2⟩], [⟨4, 2⟩, ⟨0, 2⟩], .best⟩
  connectedSticks := [⟨[10, 11, 12, 13, 14, 15]⟩]
  swapData := none
  processes := [1]

/-- The same memory after `MEM_ALLOC 2 3`, which has to compact. -/
def memoryAfterSlide : KernelMemory where
  mainMemory := ⟨6, 6, [⟨1, 1, 0, 2⟩, ⟨2, 1, 2, 3⟩], [⟨5, 1⟩], .best⟩
  connectedSticks := [⟨[10, 11, 12, 13, 14, 15]⟩]
  swapData := none
  processes := [1]

/-- The messages of that request. -/
def slideMessages : List Message :=
  [notifyCompaction, ⟨.compactionDone, "Compaction finished"⟩,
    ⟨.memoryAllocated, "Memory allocated"⟩]

/-- Segment 1 held `12` at its first byte, and its new base `0` holds `10`. -/
theorem compaction_loses_contents :
    handleCreateSegment 2 1 3 memoryBeforeSlide = some (slideMessages, memoryAfterSlide) ∧
      notifyCompaction ∈ slideMessages ∧ ¬ ContentsKept memoryBeforeSlide memoryAfterSlide := by
  refine ⟨by decide, by decide, fun hkept => ?_⟩
  obtain ⟨s', hs', -, -, -, hbytes⟩ := hkept 0 ⟨1, 1, 2, 2⟩ rfl
  obtain rfl : (⟨1, 1, 0, 2⟩ : Segment) = s' := Option.some.inj hs'
  exact absurd (hbytes 0 le_rfl (by decide)) (by decide)

/-- The two equivalences at that request. -/
theorem compaction_keeps_contents_iff_slide :
    (ContentsKept memoryBeforeSlide memoryAfterSlide ↔ HoldsPacked memoryBeforeSlide) ∧
    ((∀ sticks : List Stick, sticks.map Stick.stickSize = [6] →
        ∃ k'', handleCreateSegment 2 1 3 { memoryBeforeSlide with connectedSticks := sticks } =
            some (slideMessages, k'') ∧
          ContentsKept { memoryBeforeSlide with connectedSticks := sticks } k'') ↔
      ∀ i, ¬ Moves memoryBeforeSlide i) :=
  compaction_keeps_contents_iff (by decide) (by decide)

end OsSimulator.Memory
