import OsSimulator.Memory.Overlap

set_option relaxedAutoImplicit false
set_option autoImplicit false

/-!
# Memory is conserved

An edit exchanges extents for others with the same addresses, so no byte is lost, and it merges a
freed range with the holes on its two sides, so no two holes touch. Blocks without bytes break
both: a hole without bytes may touch the rest of a hole that was cut, and a segment without bytes
on a hole without bytes finds that hole on both of its sides, which deletes the next hole of the
table. This file proves that memory is conserved in every run without the two, and that a
compaction always has a segment unless zero bytes are asked of a memory without segments and
without holes.

## Main definitions

* `Conserved` — the layout fills the address space and no two holes touch.
* `MemoryOp.Conserving` — the edit meets none of the three corners.
* `MemoryConserved` — the same in terms of bytes and sizes.

## Main results

* `conserved_step` — an edit keeps the memory conserved.
* `conserving_iff` — and it does only if it meets none of the corners.
* `createSegment_isSome` — a creation in a conserved memory has a segment to compact.
* `memoryConserved_of_run` — memory is conserved in a run of such edits.
* `leak_of_empty_hole` — a run through the corners.
-/

namespace OsSimulator.Memory

variable {m m' : MainMemory}

/-- One of the two holes ends where the other starts. -/
def Hole.Touches (h g : Hole) : Prop := h.base + h.size = g.base ∨ g.base + g.size = h.base

/-- Not to touch is mutual. -/
lemma Hole.not_touches_symm {h g : Hole} (hn : ¬ h.Touches g) : ¬ g.Touches h :=
  fun ht => hn (Or.symm ht)

instance : Std.Symm fun h g : Hole => ¬ h.Touches g := ⟨fun _ _ => Hole.not_touches_symm⟩

instance : Std.Symm fun h g : Hole => Apart h.extent g.extent := ⟨fun _ _ => Apart.symm⟩

instance (h g : Hole) : Decidable (h.Touches g) := inferInstanceAs (Decidable (_ ∨ _))

/-- The layout fills the address space, and no two holes touch. -/
structure Conserved (m : MainMemory) : Prop extends Layout m where
  covers : addresses m.extents = interval 0 m.totalSize
  coalesced : m.holes.Pairwise fun h g => ¬ h.Touches g

/-- Under the invariant the extents fill the memory. -/
lemma Conserved.fills (h : Conserved m) : Fills m.totalSize m.extents := ⟨h.fits, h.covers⟩

/-- The hole chosen for a segment, if there is one, is cut without touching a hole without
bytes. -/
def CutsClear (size : ℤ) (memory : MainMemory) : Prop :=
  0 < size → (selectHole (u32 size) memory).1.size ≠ -1 → ∀ hole ∈ memory.holes,
    hole.base = (selectHole (u32 size) memory).1.base + size → hole.size ≠ 0

/-- The edit meets none of the corners: a cut that touches a hole without bytes, a removal that
deletes a hole with bytes besides the ones it merges, and an allocation of zero bytes in a memory
without segments and holes. -/
def MemoryOp.Conserving (memory : MainMemory) : MemoryOp → Prop
  | .addTotalMemory _ => True
  | .createSegment _ _ size =>
    CutsClear size memory ∧ (size = 0 → memory.segments ≠ [] ∨ memory.holes ≠ [])
  | .removeSegment id pid =>
    ∀ segment rest, findAndRemoveSegment id pid memory.segments = some (segment, rest) →
      KeepsNeighbour memory.holes segment
  | .regenerateSegment _ _ size => CutsClear size memory

/-! ## Cuts -/

/-- Two holes with one base are one hole. -/
lemma Conserved.eq_of_base {h g : Hole} (hm : Conserved m) (hh : h ∈ m.holes) (hg : g ∈ m.holes)
    (hbase : h.base = g.base) : h = g := by
  by_contra hne
  have hnot := hm.coalesced.forall hh hg hne
  have happ : Apart h.extent g.extent := hm.holes_apart.forall hh hg hne
  have hin := hm.hole hh
  have hin' := hm.hole hg
  unfold Hole.Touches at hnot
  refine apart_iff.1 happ h.base ?_
  simp only [Hole.extent, Extent.stop]
  omega

/-- In a conserved memory the hole that is shrunk is the chosen one. -/
lemma Conserved.shrinksChosen (h : Conserved m) (size : ℕ) : ShrinksChosen size m := by
  intro hole hfind
  have hmem := List.mem_of_find?_eq_some hfind
  have hbase := List.find?_some hfind
  simp only [beq_iff_eq] at hbase
  rcases holeSelectionLoop_mem size m.allocationStrategy m.holes noHole with heq | ⟨hchosen, hfit⟩
  · have hin := h.hole hmem
    rw [holeSelectionAlgorithm, heq] at hbase
    simp only [noHole] at hbase
    omega
  · have heq := h.eq_of_base hmem hchosen hbase
    have hin := h.hole hmem
    have htotal := h.total_range
    rw [← heq] at hfit
    have := u32_of_nonneg hin.2.1 (by omega)
    omega

/-- A segment cut from a hole is cut from a chosen one. -/
lemma Conserved.chosen_of_takes {segment : Segment} (h : Conserved m) (htakes : Takes m m' segment)
    (h₀ : 0 ≤ segment.size) (hmax : segment.size ≤ INT_MAX) :
    (selectHole (u32 segment.size) m).1.size ≠ -1 := by
  rcases selectHole_takes 0 0 h.toLayout h₀ hmax (h.shrinksChosen _) with ⟨-, hsmall⟩ | ⟨hne, -⟩
  · obtain ⟨pre, hole, post, hlist, -, hfit, -⟩ := htakes
    have := hsmall hole (by simp [hlist])
    omega
  · exact hne

/-- The rest of a cut hole touches no other hole. -/
lemma coalesced_leftOf {pre post : List Hole} {hole : Hole} {size : ℤ} (h : Conserved m)
    (hlist : m.holes = pre ++ hole :: post) (h₀ : 0 ≤ size) (hsize : size ≤ hole.size)
    (hclear : 0 < size → ∀ g ∈ m.holes, g.base = hole.base + size → g.size ≠ 0) :
    (pre ++ leftOf hole size ++ post).Pairwise fun h g => ¬ h.Touches g := by
  have hperm : m.holes.Perm (hole :: (pre ++ post)) := by
    rw [hlist]
    exact List.perm_middle
  have hpair := (hperm.pairwise_iff Hole.not_touches_symm).1 h.coalesced
  obtain ⟨hfirst, hrest⟩ := List.pairwise_cons.1 hpair
  unfold leftOf
  split
  · simpa using hrest
  · have hperm' : (pre ++ [(⟨hole.base + size, hole.size - size⟩ : Hole)] ++ post).Perm
        (⟨hole.base + size, hole.size - size⟩ :: (pre ++ post)) := by
      rw [List.append_assoc]
      exact List.perm_middle
    rw [hperm'.pairwise_iff Hole.not_touches_symm, List.pairwise_cons]
    refine ⟨fun g hg => ?_, hrest⟩
    have hg' : g ∈ m.holes := hperm.mem_iff.2 (List.mem_cons_of_mem hole hg)
    have hnot := hfirst g hg
    have hin := h.hole hg'
    have hhole := h.hole (show hole ∈ m.holes by rw [hlist]; simp)
    have hapart : Apart hole.extent g.extent :=
      (List.pairwise_cons.1 ((hperm.pairwise_iff Apart.symm).1 h.holes_apart)).1 g hg
    unfold Hole.Touches at hnot ⊢
    simp only
    rintro (hend | hstart)
    · omega
    · -- the hole ends at the cut: it starts there too, or it shares the byte before it
      by_cases hzero : g.size = 0
      · by_cases hpos : 0 < size
        · exact hclear hpos g hg' (by omega) hzero
        · omega
      · refine apart_iff.1 hapart (hole.base + size - 1) ?_
        simp only [Hole.extent, Extent.stop]
        omega

/-- A segment cut from a hole keeps the memory conserved. -/
lemma Conserved.takes {segment : Segment} (h : Conserved m) (htakes : Takes m m' segment)
    (h₀ : 0 ≤ segment.size)
    (hclear : 0 < segment.size → ∀ g ∈ m.holes, g.base = segment.base + segment.size →
      g.size ≠ 0) : Conserved m' := by
  obtain ⟨old, new, hex, heq⟩ := exchanged_taken h.toLayout htakes h₀
  have hlayout := h.toLayout.exchanged hex
  obtain ⟨rest, hold, hnew⟩ := hex.extents
  obtain ⟨pre, hole, post, hlist, hbase, hsize, rfl⟩ := htakes
  refine ⟨hlayout, ?_, ?_⟩
  · exact (((h.fills.perm hold).exchange hex.fits heq).perm hnew.symm).covers
  · exact coalesced_leftOf h hlist h₀ hsize fun hpos g hg hg' => hclear hpos g hg (by omega)

/-- When no two holes touch after a segment has been cut from a hole, no hole without bytes starts
where the segment ends. -/
lemma Conserved.clear_of_takes {segment : Segment} (h : Conserved m) (htakes : Takes m m' segment)
    (hpos : 0 < segment.size) (hcoalesced : m'.holes.Pairwise fun h g => ¬ h.Touches g) :
    ∀ g ∈ m.holes, g.base = segment.base + segment.size → g.size ≠ 0 := by
  obtain ⟨pre, hole, post, hlist, hbase, hsize, rfl⟩ := htakes
  intro g hg hstart hzero
  have hne : hole ≠ g := by
    rintro rfl
    omega
  have hrest : g ∈ pre ++ post := by
    have hmem : g ∈ pre ++ hole :: post := hlist ▸ hg
    rcases List.mem_cons.1 (List.perm_middle.mem_iff.1 hmem) with heq | hrest
    · exact absurd heq.symm hne
    · exact hrest
  by_cases hwhole : hole.size = segment.size
  · -- the whole hole was cut, and the two touched before
    have hhole : hole ∈ m.holes := by
      rw [hlist]
      simp
    exact h.coalesced.forall hhole hg hne (.inl (by omega))
  · have hperm : (pre ++ leftOf hole segment.size ++ post).Perm
        (⟨hole.base + segment.size, hole.size - segment.size⟩ :: (pre ++ post)) := by
      rw [leftOf, if_neg hwhole, List.append_assoc]
      exact List.perm_middle
    obtain ⟨hfirst, -⟩ :=
      List.pairwise_cons.1 ((hperm.pairwise_iff Hole.not_touches_symm).1 hcoalesced)
    refine hfirst g hrest (.inr ?_)
    simp only
    omega

/-! ## Removals -/

/-- The free space of a conserved memory. -/
lemma Conserved.sum_size (h : Conserved m) :
    (m.segments.map Segment.size).sum + (m.holes.map Hole.size).sum = m.totalSize := by
  have := h.fills.sum_size h.total_range.1
  rw [MainMemory.extents, List.map_append, List.sum_append, List.map_map, List.map_map] at this
  exact this

/-- The merged hole touches no other hole. -/
lemma coalesced_releaseRange {pre post : List Segment} {segment : Segment} (h : Conserved m)
    (hlist : m.segments = pre ++ segment :: post) :
    (releaseRange m.holes segment).Pairwise fun h g => ¬ h.Touches g := by
  have hsegment := h.segment (show segment ∈ m.segments by rw [hlist]; simp)
  have hsize : ∀ hole ∈ m.holes, 0 ≤ hole.size := fun hole hhole => (h.hole hhole).2.1
  rcases releaseRange_cases hsize hsegment.2.1 with
    ⟨before, after, rest, hholes, hrelease, hbefore, hafter, hnone, hnone'⟩ |
    ⟨i, hfind, hi, hzero, hrelease⟩
  · obtain ⟨hneighbours, hrest, hboth⟩ := List.pairwise_append.1
      ((hholes.pairwise_iff Hole.not_touches_symm).1 h.coalesced)
    rw [hrelease.pairwise_iff Hole.not_touches_symm, List.pairwise_cons]
    refine ⟨fun g hg => ?_, hrest⟩
    have hg' : g ∈ m.holes := hholes.mem_iff.2 (List.mem_append_right _ hg)
    rintro (hend | hstart)
    · cases after with
      | none =>
        refine hnone' rfl g hg' ?_
        cases before with
        | none =>
          simp only [mergedHole, Option.elim] at hend
          omega
        | some b =>
          have := hbefore b rfl
          simp only [mergedHole, Option.elim] at hend
          omega
      | some a =>
        refine hboth a (by simp) g hg (Or.inl ?_)
        have := hafter a rfl
        cases before with
        | none =>
          simp only [mergedHole, Option.elim] at hend
          omega
        | some b =>
          have := hbefore b rfl
          simp only [mergedHole, Option.elim] at hend
          omega
    · cases before with
      | none => exact hnone rfl g hg' hstart
      | some b => exact hboth b (by simp) g hg (Or.inr hstart)
  · have hpair := ((perm_cons_eraseIdx hi).pairwise_iff Hole.not_touches_symm).1 h.coalesced
    rw [hrelease, (List.perm_append_singleton _ _).pairwise_iff Hole.not_touches_symm]
    exact hpair.sublist ((List.eraseIdx_sublist _ _).cons_cons _)

/-- A removal keeps the memory conserved. -/
lemma Conserved.removes {pre post : List Segment} {segment : Segment} (h : Conserved m)
    (hlist : m.segments = pre ++ segment :: post) (hkeeps : KeepsNeighbour m.holes segment) :
    Conserved { m with segments := pre ++ post, holes := releaseRange m.holes segment } := by
  obtain ⟨old, new, hex, heq⟩ := exchanged_removed h.toLayout hlist
  obtain ⟨rest, hold, hnew⟩ := hex.extents
  refine ⟨h.toLayout.exchanged hex, ?_, coalesced_releaseRange h hlist⟩
  exact (((h.fills.perm hold).exchange hex.fits (heq hkeeps)).perm hnew.symm).covers

/-- When the sizes still add up after a removal, no hole with bytes was deleted besides the merged
ones. -/
lemma Conserved.keepsNeighbour {pre post : List Segment} {segment : Segment} (h : Conserved m)
    (hlist : m.segments = pre ++ segment :: post)
    (hsizes : ((releaseRange m.holes segment).map Hole.size).sum +
      ((pre ++ post).map Segment.size).sum = m.totalSize) : KeepsNeighbour m.holes segment := by
  intro i before after neighbour hfind hnext
  obtain ⟨hbefore, hafter⟩ := Prod.mk.inj hfind
  obtain ⟨hi, hend⟩ := of_lastHole hbefore
  obtain ⟨hi', hstart⟩ := of_lastHole hafter
  obtain rfl : before = after := Option.some.inj (hi.symm.trans hi')
  simp only [beq_iff_eq] at hend hstart
  have hhole := h.hole (List.mem_of_getElem? hi)
  have hsegment := h.segment (show segment ∈ m.segments by rw [hlist]; simp)
  have hrelease : releaseRange m.holes segment = (m.holes.eraseIdx i).eraseIdx i ++
      [⟨before.base, segment.size + (before.size + before.size)⟩] := by
    simp [releaseRange, hfind]
  have hnext' : (m.holes.eraseIdx i)[i]? = some neighbour := by
    rw [List.getElem?_eraseIdx_of_ge le_rfl, hnext]
  have hfirst := ((perm_cons_eraseIdx hi).map Hole.size).sum_eq
  have hsecond := ((perm_cons_eraseIdx hnext').map Hole.size).sum_eq
  have hmiddle : (pre ++ segment :: post).Perm (segment :: (pre ++ post)) := List.perm_middle
  have hsegments := hmiddle.map Segment.size
  have hsum := h.sum_size
  rw [hrelease] at hsizes
  rw [hlist, hsegments.sum_eq] at hsum
  simp only [List.map_append, List.map_cons, List.map_nil, List.sum_append, List.sum_cons,
    List.sum_nil] at hsizes hsum hfirst hsecond
  omega

/-! ## Sticks and compactions -/

/-- A new stick keeps the memory conserved. -/
lemma Conserved.grows {n : ℤ} (h : Conserved m) (hn : 0 ≤ n)
    (hrun : addTotalMemory m n = some m') : Conserved m' := by
  have hlayout : Layout m' :=
    layout_step h.toLayout (show (MemoryOp.addTotalMemory n).InRange from hn) trivial hrun
  obtain ⟨heq, -, old, new, rest, hold, hnew, hfits, haddr⟩ :=
    addTotalMemory_cases h.toLayout hn hrun
  have htotal : m'.totalSize = m.totalSize + n := by rw [heq]
  refine ⟨hlayout, ?_, ?_⟩
  · have hfills := (h.fills.extend h.total_range.1 hn).perm hold
    rw [htotal]
    exact ((hfills.exchange hfits haddr).perm hnew.symm).covers
  · have hholes : m'.holes = growHoles m.totalSize n m.holes := by rw [heq]
    rw [hholes]
    rcases growHoles_cases m.totalSize n m.holes with
      ⟨pre, hole, post, hlist, hend, hgrow⟩ | ⟨hall, hgrow⟩
    · have hperm : m.holes.Perm (hole :: (pre ++ post)) := by
        rw [hlist]
        exact List.perm_middle
      obtain ⟨hfirst, hrest⟩ := List.pairwise_cons.1
        ((hperm.pairwise_iff Hole.not_touches_symm).1 h.coalesced)
      rw [hgrow, List.perm_middle.pairwise_iff Hole.not_touches_symm, List.pairwise_cons]
      refine ⟨fun g hg => ?_, hrest⟩
      have hnot := hfirst g hg
      have hin := h.hole (hperm.mem_iff.2 (List.mem_cons_of_mem hole hg))
      unfold Hole.Touches at hnot ⊢
      simp only
      omega
    · rw [hgrow, (List.perm_append_singleton _ _).pairwise_iff Hole.not_touches_symm,
        List.pairwise_cons]
      refine ⟨fun g hg => ?_, h.coalesced⟩
      have hnot := hall g hg
      have hin := h.hole hg
      unfold Hole.Touches
      simp only
      omega

/-- After a compaction the memory is conserved, whatever it was before. -/
lemma conserved_compactMemory {compacted : Message × MainMemory} (h : Layout m)
    (hrun : compactMemory m = some compacted) : Conserved compacted.2 := by
  obtain ⟨-, hparams, -, hholes, hlayout, hfills⟩ := compactMemory_cases h hrun
  refine ⟨hlayout, by rw [hparams.totalSize]; exact hfills.covers, ?_⟩
  rw [hholes]
  exact List.pairwise_singleton _ _

/-! ## Steps and runs -/

/-- **An edit keeps the memory conserved**, unless it meets one of the corners. -/
theorem conserved_step {op : MemoryOp} (h : Conserved m) (hrange : op.InRange)
    (hop : op.Conserving m) (hrun : memoryStep m op = some m') : Conserved m' := by
  cases op with
  | addTotalMemory n => exact h.grows hrange hrun
  | createSegment id pid size =>
    obtain ⟨⟨msgs, m₁⟩, hcreate, rfl⟩ := Option.map_eq_some_iff.1 hrun
    rcases createSegment_cases h.toLayout hrange.1 hrange.2 (h.shrinksChosen _) hcreate with
      ⟨rfl, -⟩ | ⟨-, htakes⟩ | ⟨-, -, compacted, base, hcompact, htakes⟩
    · exact h
    · have hchosen := h.chosen_of_takes htakes hrange.1 hrange.2
      exact h.takes htakes hrange.1 fun hpos => hop.1 hpos hchosen
    · refine (conserved_compactMemory h.toLayout hcompact).takes htakes hrange.1 ?_
      obtain ⟨pre, hole, post, hlist, hbase, -, -⟩ := htakes
      obtain ⟨-, -, -, hholes, -, -⟩ := compactMemory_cases h.toLayout hcompact
      intro hpos g hg hg'
      rw [hholes] at hlist hg
      have hhole : hole ∈ [(⟨(m.segments.map Segment.size).sum,
          m.totalSize - (m.segments.map Segment.size).sum⟩ : Hole)] := by
        rw [hlist]
        simp
      rw [List.mem_singleton] at hg hhole
      rw [hg] at hg'
      rw [hhole] at hbase
      simp only at hbase hg' hpos
      omega
  | removeSegment id pid =>
    obtain rfl := Option.some.inj hrun
    cases hfind : findAndRemoveSegment id pid m.segments with
    | none =>
      have : removeSegment id pid m = m := by simp [removeSegment, hfind]
      rwa [this]
    | some found =>
      obtain ⟨segment, rest⟩ := found
      obtain ⟨pre, post, hlist, rfl, -⟩ := of_findAndRemoveSegment hfind
      have : removeSegment id pid m = { m with
          segments := pre ++ post, holes := releaseRange m.holes segment } := by
        simp [removeSegment, hfind]
      rw [this]
      exact h.removes hlist (hop segment _ hfind)
  | regenerateSegment id pid size =>
    obtain rfl := Option.some.inj hrun
    rcases regenerateSegment_cases id pid h.toLayout hrange.1 hrange.2 (h.shrinksChosen _) with
      ⟨failure, hregen⟩ | ⟨m₁, hregen, htakes⟩
    · rwa [hregen]
    · rw [hregen]
      have hchosen := h.chosen_of_takes htakes hrange.1 hrange.2
      exact h.takes htakes hrange.1 fun hpos => hop hpos hchosen

/-- In a conserved memory without segments one hole has all the bytes. -/
lemma Conserved.exists_whole (h : Conserved m) (hnone : m.segments = [])
    (hpos : 0 < m.totalSize) : ∃ hole ∈ m.holes, hole.size = m.totalSize := by
  have hextents : m.extents = m.holes.map Hole.extent := by simp [MainMemory.extents, hnone]
  have htouch : m.extents.Pairwise fun e f => ¬ e.Touches f := by
    rw [hextents, List.pairwise_map]
    exact h.coalesced
  have hwhole := h.fills.exists_whole htouch hpos
  rw [hextents] at hwhole
  obtain ⟨hole, hhole, heq⟩ := List.mem_map.1 hwhole
  exact ⟨hole, hhole, congrArg Extent.size heq⟩

/-- **A creation returns**: when `create_segment` compacts a conserved memory there is a segment,
unless zero bytes were asked of a memory without segments and holes.

**Proof sketch.** Without segments one hole has all the bytes, and it fits whatever the free space
allows. -/
theorem createSegment_isSome {id pid : ℕ} {size : ℤ} (h : Conserved m) (h₀ : 0 ≤ size)
    (hmax : size ≤ INT_MAX) (hcorner : size = 0 → m.segments ≠ [] ∨ m.holes ≠ []) :
    (createSegment id pid size m).isSome = true := by
  unfold createSegment
  dsimp only
  split
  · rfl
  · rename_i hspace
    rcases selectHole_takes id pid h.toLayout h₀ hmax (h.shrinksChosen _) with
      ⟨hselect, hsmall⟩ | ⟨hne, -⟩
    · rw [hselect]
      simp only [noHole, if_true, Option.isSome_map]
      by_contra hnone
      have hempty : m.segments = [] :=
        compactMemory_eq_none.1 (Option.not_isSome_iff_eq_none.1 hnone)
      have hsum := h.sum_size
      rw [hempty] at hsum
      unfold computeFreeSpace at hspace
      simp only [List.map_nil, List.sum_nil] at hsum
      by_cases hpos : 0 < m.totalSize
      · obtain ⟨hole, hhole, hsize⟩ := h.exists_whole hempty hpos
        have := hsmall hole hhole
        omega
      · have htotal := h.total_range
        rcases hcorner (by omega) with hne | hne
        · exact hne hempty
        · obtain ⟨hole, hhole⟩ := List.exists_mem_of_ne_nil _ hne
          have := hsmall hole hhole
          have := h.hole hhole
          omega
    · rw [if_neg hne]
      rfl

/-- Memory is conserved, in terms of bytes: each is in a segment or a hole, the sizes add up to the
total, and no two holes touch. -/
structure MemoryConserved (m : MainMemory) : Prop where
  covered : ∀ a, 0 ≤ a → a < m.totalSize →
    (∃ s ∈ m.segments, s.Holds a) ∨ ∃ h ∈ m.holes, h.Holds a
  sizes : (m.holes.map Hole.size).sum + (m.segments.map Segment.size).sum = m.totalSize
  coalesced : m.holes.Pairwise fun h g => ¬ h.Touches g

/-- So every byte is in one of them. -/
lemma Conserved.memoryConserved (h : Conserved m) : MemoryConserved m := by
  refine ⟨fun a ha₀ ha => ?_, by have := h.sum_size; omega, h.coalesced⟩
  have hmem : a ∈ addresses m.extents := h.covers ▸ mem_interval.2 ⟨ha₀, ha⟩
  obtain ⟨e, he, hae⟩ := mem_addresses.1 hmem
  rcases List.mem_append.1 he with he | he
  · obtain ⟨s, hs, rfl⟩ := List.mem_map.1 he
    exact .inl ⟨s, hs, hae⟩
  · obtain ⟨hole, hhole, rfl⟩ := List.mem_map.1 he
    exact .inr ⟨hole, hhole, hae⟩

/-- A cut leaves room: the free space is enough for the segment. -/
lemma Conserved.le_freeSpace_of_takes {segment : Segment} (h : Conserved m)
    (htakes : Takes m m' segment) : segment.size ≤ computeFreeSpace m.holes := by
  obtain ⟨pre, hole, post, hlist, -, hfit, -⟩ := htakes
  have hnonneg : ∀ list : List Hole, list ⊆ m.holes → 0 ≤ (list.map Hole.size).sum := by
    intro list hsub
    refine List.sum_nonneg fun x hx => ?_
    obtain ⟨g, hg, rfl⟩ := List.mem_map.1 hx
    exact (h.hole (hsub hg)).2.1
  have hpre := hnonneg pre (by simp [hlist])
  have hpost := hnonneg post (by simp [hlist])
  rw [computeFreeSpace, hlist]
  simp only [List.map_append, List.map_cons, List.sum_append, List.sum_cons]
  omega

/-- A creation that chooses a hole keeps the holes apart only if it cuts clear. -/
lemma Conserved.cutsClear_of_created {id pid : ℕ} {size : ℤ} {msgs : List Message}
    (h : Conserved m) (h₀ : 0 ≤ size) (hmax : size ≤ INT_MAX)
    (hcreate : createSegment id pid size m = some (msgs, m'))
    (hcoalesced : m'.holes.Pairwise fun h g => ¬ h.Touches g) : CutsClear size m := by
  intro hpos hchosen
  rcases selectHole_takes id pid h.toLayout h₀ hmax (h.shrinksChosen _) with
    ⟨hselect, -⟩ | ⟨hne, htakes⟩
  · rw [hselect] at hchosen
    exact absurd rfl hchosen
  · have hspace := not_lt.2 (h.le_freeSpace_of_takes htakes)
    simp only at hspace
    rw [createSegment, if_neg hspace] at hcreate
    dsimp only at hcreate
    rw [if_neg hne] at hcreate
    obtain ⟨-, rfl⟩ := Prod.mk.inj (Option.some.inj hcreate)
    exact h.clear_of_takes htakes hpos hcoalesced

/-- A regeneration that chooses a hole keeps the holes apart only if it cuts clear. -/
lemma Conserved.cutsClear_of_regenerated {id pid : ℕ} {size : ℤ} (h : Conserved m) (h₀ : 0 ≤ size)
    (hmax : size ≤ INT_MAX)
    (hcoalesced : (regenerateSegment id pid size m).2.holes.Pairwise fun h g => ¬ h.Touches g) :
    CutsClear size m := by
  intro hpos hchosen
  rcases selectHole_takes id pid h.toLayout h₀ hmax (h.shrinksChosen _) with
    ⟨hselect, -⟩ | ⟨hne, htakes⟩
  · rw [hselect] at hchosen
    exact absurd rfl hchosen
  · have hspace := not_lt.2 (h.le_freeSpace_of_takes htakes)
    simp only at hspace
    rw [regenerateSegment, if_neg hspace] at hcoalesced
    dsimp only at hcoalesced
    rw [if_neg hne] at hcoalesced
    exact h.clear_of_takes htakes hpos hcoalesced

/-- Zero bytes of a memory without segments and holes are asked of the null pointer. -/
lemma Conserved.createSegment_eq_none (h : Conserved m) (id pid : ℕ) (hsegments : m.segments = [])
    (hholes : m.holes = []) : createSegment id pid 0 m = none := by
  have hspace : ¬ computeFreeSpace m.holes < 0 := by simp [hholes, computeFreeSpace]
  rw [createSegment, if_neg hspace]
  rcases selectHole_takes id pid h.toLayout le_rfl (by decide) (h.shrinksChosen _) with
    ⟨hselect, -⟩ | ⟨-, pre, hole, post, hlist, -⟩
  · rw [hselect]
    simp [noHole, compactMemory_eq_none.2 hsegments]
  · rw [hholes] at hlist
    exact absurd hlist (by simp)

/-- **The condition is exact**: a creation, removal or regeneration in a conserved memory returns
and leaves it conserved exactly when it meets none of the corners. -/
theorem conserving_iff {op : MemoryOp} (h : Conserved m) (hrange : op.InRange)
    (hedit : ∀ n, op ≠ .addTotalMemory n) :
    (∃ m', memoryStep m op = some m' ∧ MemoryConserved m') ↔ op.Conserving m := by
  constructor
  · rintro ⟨m', hrun, hconserved⟩
    cases op with
    | addTotalMemory n => exact absurd rfl (hedit n)
    | createSegment id pid size =>
      obtain ⟨⟨msgs, m₁⟩, hcreate, rfl⟩ := Option.map_eq_some_iff.1 hrun
      refine ⟨h.cutsClear_of_created hrange.1 hrange.2 hcreate hconserved.coalesced, ?_⟩
      rintro rfl
      by_contra hnone
      obtain ⟨hsegments, hholes⟩ := not_or.1 hnone
      rw [h.createSegment_eq_none id pid (not_ne_iff.1 hsegments) (not_ne_iff.1 hholes)] at hcreate
      exact absurd hcreate (by simp)
    | removeSegment id pid =>
      obtain rfl := Option.some.inj hrun
      intro segment rest hfind
      obtain ⟨pre, post, hlist, rfl, -⟩ := of_findAndRemoveSegment hfind
      refine h.keepsNeighbour hlist ?_
      have hsizes := hconserved.sizes
      rwa [removeSegment, hfind] at hsizes
    | regenerateSegment id pid size =>
      obtain rfl := Option.some.inj hrun
      exact h.cutsClear_of_regenerated hrange.1 hrange.2 hconserved.coalesced
  · intro hop
    have hsome : ∃ m', memoryStep m op = some m' := by
      cases op with
      | addTotalMemory n => exact absurd rfl (hedit n)
      | createSegment id pid size =>
        obtain ⟨created, hcreate⟩ :=
          Option.isSome_iff_exists.1 (createSegment_isSome h hrange.1 hrange.2 hop.2)
        exact ⟨created.2, by rw [memoryStep, hcreate, Option.map_some]⟩
      | removeSegment id pid => exact ⟨_, rfl⟩
      | regenerateSegment id pid size => exact ⟨_, rfl⟩
    obtain ⟨m', hrun⟩ := hsome
    exact ⟨m', hrun, (conserved_step h hrange hop hrun).memoryConserved⟩

/-- The memory and the swap in a run of conserving edits. -/
theorem conserved_of_run {segmentMaxSize : ℤ} {strategy : AllocationStrategy} {k : KernelMemory}
    (hmax : 0 ≤ segmentMaxSize ∧ segmentMaxSize ≤ INT_MAX)
    (hstrategy : strategy = .best ∨ strategy = .worst)
    (h : Run kernelMemoryStep (EveryEdit fun m op => op.Conserving m)
      (initKernelMemoryData segmentMaxSize strategy) k) :
    Conserved k.mainMemory ∧ ∀ swapData ∈ k.swapData, SwapKept swapData := by
  refine h.invariant (I := fun k => Conserved k.mainMemory ∧ ∀ swapData ∈ k.swapData,
    SwapKept swapData) ?_ fun k event k' hinv hok hst => ?_
  · have hinit := memoryInvariant_init hmax hstrategy
    exact ⟨⟨hinit.layout, by simp [initKernelMemoryData, MainMemory.extents], .nil⟩, hinit.swap⟩
  · have hrun := run_memoryOps ⟨hinv.1.toLayout, hinv.2⟩ hok hst
    refine ⟨hrun.invariant hinv.1 fun m op m' hm hop hstep =>
      conserved_step hm hop.1 hop.2 hstep, swapKept_step hst hinv.2 fun s hs => ?_⟩
    have := hinv.1.segment hs
    have := hinv.1.total_range
    omega

/-- **Memory is conserved.** In every state of a run whose edits meet none of the three corners,
every byte is in a segment or a hole, the sizes add up to the total and no two holes touch; a
`MEM_ALLOC` of an admitted size returns there, unless it asks for zero bytes of a memory without
segments and holes; and an edit of it conserves memory exactly when it meets none of the corners. -/
theorem memoryConserved_of_run {segmentMaxSize : ℤ} {strategy : AllocationStrategy}
    {k : KernelMemory} (hmax : 0 ≤ segmentMaxSize ∧ segmentMaxSize ≤ INT_MAX)
    (hstrategy : strategy = .best ∨ strategy = .worst)
    (h : Run kernelMemoryStep (EveryEdit fun m op => op.Conserving m)
      (initKernelMemoryData segmentMaxSize strategy) k) :
    MemoryConserved k.mainMemory ∧
      (∀ id pid size : ℕ, (size = 0 → k.mainMemory.segments ≠ [] ∨ k.mainMemory.holes ≠ []) →
        (handleCreateSegment id pid size k).isSome = true) ∧
      ∀ op : MemoryOp, op.InRange → (∀ n, op ≠ .addTotalMemory n) →
        ((∃ m', memoryStep k.mainMemory op = some m' ∧ MemoryConserved m') ↔
          op.Conserving k.mainMemory) := by
  obtain ⟨hconserved, -⟩ := conserved_of_run hmax hstrategy h
  refine ⟨hconserved.memoryConserved, fun id pid size hcorner => ?_,
    fun op hrange hedit => conserving_iff hconserved hrange hedit⟩
  unfold handleCreateSegment
  split
  · rfl
  · rename_i hsize
    have hrange := hconserved.max_range
    have hu := u32_of_nonneg hrange.1 hrange.2
    have hi : i32 (size : ℤ) = size := i32_of_nonneg (by omega) (by omega)
    rw [Option.isSome_map, hi]
    exact createSegment_isSome hconserved (by omega) (by omega) fun hzero => hcorner (by omega)

/-- The run of one allocation. -/
theorem memoryConserved_of_run_alloc :
    MemoryConserved memoryWithSegment.mainMemory ∧
      (∀ id pid size : ℕ, (size = 0 → memoryWithSegment.mainMemory.segments ≠ [] ∨
          memoryWithSegment.mainMemory.holes ≠ []) →
        (handleCreateSegment id pid size memoryWithSegment).isSome = true) ∧
      ∀ op : MemoryOp, op.InRange → (∀ n, op ≠ .addTotalMemory n) →
        ((∃ m', memoryStep memoryWithSegment.mainMemory op = some m' ∧ MemoryConserved m') ↔
          op.Conserving memoryWithSegment.mainMemory) := by
  have hrun : Run kernelMemoryStep (EveryEdit fun m op => op.Conserving m)
      (initKernelMemoryData 10 .best) memoryWithSegment := by
    refine .tail (.createSegment 0 1 3) (.tail (.stickConnected tenBytes) .refl ?_ rfl) ?_ rfl
    · exact ⟨trivial, fun _ _ => trivial⟩
    · refine ⟨⟨fun _ _ hole hhole hbase => ?_, fun hzero => absurd hzero (by decide)⟩,
        fun _ _ => trivial⟩
      obtain rfl : hole = ⟨0, 10⟩ := List.mem_singleton.1 hhole
      exact absurd hbase (by decide)
  exact memoryConserved_of_run ⟨by decide, by decide⟩ (Or.inl rfl) hrun

/-- Requests of process 1 that remove the second of two segments without bytes at one place, when
the first has left a hole without bytes there, before the hole of the whole memory. -/
def leakEvents : List Event :=
  [.stickConnected tenBytes, .createSegment 0 1 3, .createSegment 1 1 0, .createSegment 2 1 0,
    .deleteSegment 0 1, .deleteSegment 1 1, .createSegment 3 1 10, .deleteSegment 3 1,
    .deleteSegment 2 1]

/-- The state after them: ten bytes of memory, and neither a segment nor a hole with a byte. -/
def memoryLeaked : KernelMemory where
  mainMemory := ⟨10, 10, [], [⟨3, 0⟩], .best⟩
  connectedSticks := [tenBytes]
  swapData := none
  processes := []

/-- The last removal deletes the hole of the whole memory. And before the first stick connects,
`MEM_ALLOC` of zero bytes compacts a memory without segments. -/
theorem leak_of_empty_hole :
    Reachable kernelMemoryStep (initKernelMemoryData 10 .best) memoryLeaked ∧
      ¬ MemoryConserved memoryLeaked.mainMemory ∧
      handleCreateSegment 0 1 0 (initKernelMemoryData 10 .best) = none := by
  have hrun : execute kernelMemoryStep (initKernelMemoryData 10 .best) leakEvents =
      some memoryLeaked := by decide
  exact ⟨Run.of_execute hrun, fun h => absurd h.sizes (by decide), by decide⟩

end OsSimulator.Memory
