import OsSimulator.Memory.Structs

set_option relaxedAutoImplicit false
set_option autoImplicit false

/-!
# Holes and segments

The hole table of `holes.c` and the segment list of `segments.c`: how a hole is chosen for a
request and shrunk, how the memory of a new stick enters the table, and how a removed segment
becomes a hole again, merged with its neighbours.

## Main definitions

* `selectHole`, `updateHoleTable` — the choice of a hole and its reduction.
* `addTotalMemory` — the memory of a new stick.
* `removeSegment` — the removal of a segment.
* `findSegment` — the segment a segment number stands for.
-/

namespace OsSimulator.Memory

/-- The hole `{-1, -1}`, by which a selection says that it found none. -/
def noHole : Hole := ⟨-1, -1⟩

/-! ## The hole table -/

/-- `compute_free_space`. -/
def computeFreeSpace (holes : List Hole) : ℤ := (holes.map Hole.size).sum

/-- Whether the selection prefers `currentHole`, which fits, to the one chosen so far. -/
def preferred (strategy : AllocationStrategy) (chosenHole currentHole : Hole) : Bool :=
  match strategy with
  | .best => chosenHole.size == -1 || decide (currentHole.size < chosenHole.size)
  | .worst => chosenHole.size == -1 || decide (chosenHole.size < currentHole.size)
  | .other _ => false

/-- The loop of `hole_selection_algorithm`, with the hole chosen so far. The sizes are compared
as `uint32_t`. -/
def holeSelectionLoop (size : ℕ) (strategy : AllocationStrategy) : Hole → List Hole → Hole
  | chosenHole, [] => chosenHole
  | chosenHole, currentHole :: rest =>
    holeSelectionLoop size strategy
      (if size ≤ u32 currentHole.size ∧ preferred strategy chosenHole currentHole then currentHole
        else chosenHole) rest

/-- `hole_selection_algorithm`. -/
def holeSelectionAlgorithm (size : ℕ) (holes : List Hole) (strategy : AllocationStrategy) :
    Hole :=
  holeSelectionLoop size strategy noHole holes

/-- `update_hole_table`: the first hole with the base of the chosen one gives its first `size`
bytes, and leaves the table when nothing is left of it. -/
def updateHoleTable (chosenHole : Hole) (size : ℕ) : List Hole → List Hole
  | [] => []
  | currentHole :: rest =>
    if currentHole.base = chosenHole.base then
      let left := i32 (currentHole.size - size)
      if left = 0 then rest else ⟨i32 (currentHole.base + size), left⟩ :: rest
    else
      currentHole :: updateHoleTable chosenHole size rest

/-- `select_hole`: the chosen hole, and the memory with the hole table updated. -/
def selectHole (size : ℕ) (memory : MainMemory) : Hole × MainMemory :=
  match memory.allocationStrategy with
  | .other _ => (noHole, memory)
  | strategy =>
    let chosenHole := holeSelectionAlgorithm size memory.holes strategy
    (chosenHole, { memory with holes := updateHoleTable chosenHole size memory.holes })

/-- `update_segment_list`. -/
def updateSegmentList (memory : MainMemory) (chosenHole : Hole) (size : ℤ) (pid id : ℕ) :
    MainMemory :=
  { memory with segments := memory.segments ++ [⟨id, pid, chosenHole.base, size⟩] }

/-- The new segment is the last one. -/
@[simp] lemma updateSegmentList_segments (memory : MainMemory) (chosenHole : Hole) (size : ℤ)
    (pid id : ℕ) : (updateSegmentList memory chosenHole size pid id).segments =
      memory.segments ++ [⟨id, pid, chosenHole.base, size⟩] := rfl

/-- The search of `add_total_memory`: the first hole that ends at `newBase` grows, and without
one a hole is added. -/
def growHoles (newBase memoryTotal : ℤ) : List Hole → List Hole
  | [] => [⟨newBase, memoryTotal⟩]
  | h :: rest =>
    if h.base + h.size = newBase then { h with size := h.size + memoryTotal } :: rest
    else h :: growHoles newBase memoryTotal rest

/-- `add_total_memory`. The sum is an `int`, so the call has no meaning when it overflows. -/
def addTotalMemory (memory : MainMemory) (memoryTotal : ℤ) : Option MainMemory :=
  if memory.totalSize + memoryTotal ≤ INT_MAX then
    some { memory with
      totalSize := memory.totalSize + memoryTotal
      holes := growHoles memory.totalSize memoryTotal memory.holes }
  else none

/-! ## Segments -/

/-- `find_and_remove_segment`: the first segment with the id and pid, and the list without
it. -/
def findAndRemoveSegment (id pid : ℕ) : List Segment → Option (Segment × List Segment)
  | [] => none
  | currentSegment :: rest =>
    if currentSegment.id = id ∧ currentSegment.pid = pid then some (currentSegment, rest)
    else (findAndRemoveSegment id pid rest).map fun found =>
      (found.1, currentSegment :: found.2)

/-- The last hole with a property, with its index: what a scan of the whole list that overwrites
its result keeps. -/
def lastHole (p : Hole → Bool) : List Hole → Option (ℕ × Hole)
  | [] => none
  | h :: rest =>
    match lastHole p rest with
    | some (i, h') => some (i + 1, h')
    | none => if p h then some (0, h) else none

/-- `find_adjacent_hole_indices`, with the holes themselves: the hole that ends where the segment
starts, and the one that starts where it ends. -/
def findAdjacentHoles (holes : List Hole) (segmentBase segmentSize : ℤ) :
    Option (ℕ × Hole) × Option (ℕ × Hole) :=
  (lastHole (fun h => h.base + h.size == segmentBase) holes,
    lastHole (fun h => h.base == segmentBase + segmentSize) holes)

/-- The part of `remove_segment` that gives the segment's range back to the hole table: the holes
on both sides leave the table and one hole that covers them all is added. -/
def releaseRange (holes : List Hole) (segment : Segment) : List Hole :=
  match findAdjacentHoles holes segment.base segment.size with
  | (some (before, holeBefore), some (after, holeAfter)) =>
    -- the higher index first, so that the lower one stays valid
    let rest := if before < after then (holes.eraseIdx after).eraseIdx before
      else (holes.eraseIdx before).eraseIdx after
    rest ++ [⟨holeBefore.base, segment.size + (holeBefore.size + holeAfter.size)⟩]
  | (some (before, holeBefore), none) =>
    holes.eraseIdx before ++ [⟨holeBefore.base, segment.size + holeBefore.size⟩]
  | (none, some (after, holeAfter)) =>
    holes.eraseIdx after ++ [⟨segment.base, segment.size + holeAfter.size⟩]
  | (none, none) => holes ++ [⟨segment.base, segment.size⟩]

/-- `remove_segment`. A segment that is not found only leaves a line in the log. -/
def removeSegment (id pid : ℕ) (memory : MainMemory) : MainMemory :=
  match findAndRemoveSegment id pid memory.segments with
  | none => memory
  | some (segment, segments) =>
    { memory with segments := segments, holes := releaseRange memory.holes segment }

/-- `filter_process_segments`. -/
def filterProcessSegments (pid : ℕ) (memory : MainMemory) : List Segment :=
  memory.segments.filter fun s => s.pid == pid

/-- `find_segment`: the segment of the process with `segmentNumber` other segments of the process
before it in the list. -/
def findSegmentLoop (pid segmentNumber pidSegmentCount : ℕ) : List Segment → Option Segment
  | [] => none
  | currentItem :: rest =>
    if currentItem.pid = pid then
      if pidSegmentCount = segmentNumber then some currentItem
      else findSegmentLoop pid segmentNumber (pidSegmentCount + 1) rest
    else findSegmentLoop pid segmentNumber pidSegmentCount rest

/-- `find_segment`. -/
def findSegment (memory : MainMemory) (pid segmentNumber : ℕ) : Option Segment :=
  findSegmentLoop pid segmentNumber 0 memory.segments

/-- `find_segment` counts. -/
lemma findSegmentLoop_eq (pid segmentNumber count : ℕ) (segments : List Segment)
    (h : count ≤ segmentNumber) :
    findSegmentLoop pid segmentNumber count segments =
      (segments.filter fun s => s.pid == pid)[segmentNumber - count]? := by
  induction segments generalizing count with
  | nil => rfl
  | cons s rest ih =>
    rw [findSegmentLoop]
    by_cases hpid : s.pid = pid
    · have hbeq : (s.pid == pid) = true := by simpa using hpid
      rw [if_pos hpid, List.filter_cons, if_pos hbeq]
      by_cases hlast : count = segmentNumber
      · rw [if_pos hlast, hlast, Nat.sub_self]
        rfl
      · rw [if_neg hlast, ih (count + 1) (by omega)]
        rw [show segmentNumber - count = segmentNumber - (count + 1) + 1 by omega]
        rfl
    · have hbeq : ¬ (s.pid == pid) = true := by simpa using hpid
      rw [if_neg hpid, List.filter_cons, if_neg hbeq, ih count h]

/-- The number of a segment is its position among those of the process. -/
lemma findSegment_eq (m : MainMemory) (pid segmentNumber : ℕ) :
    findSegment m pid segmentNumber = (filterProcessSegments pid m)[segmentNumber]? :=
  findSegmentLoop_eq pid segmentNumber 0 m.segments (Nat.zero_le _)

end OsSimulator.Memory
