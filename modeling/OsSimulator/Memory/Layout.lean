import OsSimulator.Library.Extents
import OsSimulator.Memory.MemoryOps

set_option relaxedAutoImplicit false
set_option autoImplicit false

/-!
# The layout of the main memory

The segments and the holes divide the address space. Every edit of the two lists exchanges some of
their extents for others with the same addresses, or fewer, with one exception: `update_hole_table`
looks for the chosen hole by its base, and a hole without bytes may have the same one. This file
says for each edit which extents it exchanges.

## Main definitions

* `MainMemory.extents` — the extents of the segments and the holes.
* `Layout` — they fit in the address space, and the parameters of the memory are sound.
* `ShrinksChosen size memory` — the hole that `update_hole_table` shrinks has `size` bytes.
* `Takes`, `mergedHole` — a segment cut from the start of a hole, and the hole in the place of a
  removed segment and its neighbours.
* `Exchanged` — the exchange between two memories.

## Main results

* `createSegment_cases`, `regenerateSegment_cases`, `removeSegment_cases`, `addTotalMemory_cases`,
  `compactMemory_cases` — what each edit does.
* `exchanged_taken`, `exchanged_removed` — the exchanges behind it.
-/

namespace OsSimulator.Memory

/-- The extent of a segment. -/
def Segment.extent (s : Segment) : Extent := ⟨s.base, s.size⟩

/-- The extent of a hole. -/
def Hole.extent (h : Hole) : Extent := ⟨h.base, h.size⟩

/-- The extents of the segments and the holes. -/
def MainMemory.extents (m : MainMemory) : List Extent :=
  m.segments.map Segment.extent ++ m.holes.map Hole.extent

/-- The segments and holes fit in the address space, and the parameters of the memory are those
of a sound configuration. -/
structure Layout (m : MainMemory) : Prop where
  strategy : m.allocationStrategy = .best ∨ m.allocationStrategy = .worst
  max_range : 0 ≤ m.maxSegmentSize ∧ m.maxSegmentSize ≤ INT_MAX
  total_range : 0 ≤ m.totalSize ∧ m.totalSize ≤ INT_MAX
  fits : Fits m.totalSize m.extents

variable {m m' : MainMemory}

/-- A hole is in the memory. -/
lemma Layout.hole (h : Layout m) {hole : Hole} (hhole : hole ∈ m.holes) :
    0 ≤ hole.base ∧ 0 ≤ hole.size ∧ hole.base + hole.size ≤ m.totalSize :=
  h.fits.inside hole.extent (List.mem_append_right _ (List.mem_map_of_mem hhole))

/-- A segment is in the memory. -/
lemma Layout.segment (h : Layout m) {s : Segment} (hs : s ∈ m.segments) :
    0 ≤ s.base ∧ 0 ≤ s.size ∧ s.base + s.size ≤ m.totalSize :=
  h.fits.inside s.extent (List.mem_append_left _ (List.mem_map_of_mem hs))

/-- No two holes share a byte. -/
lemma Layout.holes_apart (h : Layout m) :
    m.holes.Pairwise fun hole hole' => Apart hole.extent hole'.extent :=
  List.pairwise_map.1 (List.pairwise_append.1 h.fits.apart).2.1

/-! ## The choice of a hole -/

/-- What the selection loop returns: the hole it started with, or one of the list that fits. -/
lemma holeSelectionLoop_mem (size : ℕ) (strategy : AllocationStrategy) (holes : List Hole)
    (chosen : Hole) :
    holeSelectionLoop size strategy chosen holes = chosen ∨
      (holeSelectionLoop size strategy chosen holes ∈ holes ∧
        size ≤ u32 (holeSelectionLoop size strategy chosen holes).size) := by
  induction holes generalizing chosen with
  | nil => exact Or.inl rfl
  | cons h rest ih =>
    rw [holeSelectionLoop]
    split
    · rename_i htaken
      rcases ih h with heq | ⟨hmem, hfit⟩
      · rw [heq]
        exact Or.inr ⟨List.mem_cons_self, htaken.1⟩
      · exact Or.inr ⟨List.mem_cons_of_mem h hmem, hfit⟩
    · rcases ih chosen with heq | ⟨hmem, hfit⟩
      · exact Or.inl heq
      · exact Or.inr ⟨List.mem_cons_of_mem h hmem, hfit⟩

/-- A selection that finds nothing started with nothing, and no hole fits.

**Proof sketch.** Induction on the holes: the first hole that fits is preferred to none, and is
no longer none afterwards, since no hole has a negative size. -/
lemma of_holeSelectionLoop_size {size : ℕ} {strategy : AllocationStrategy} {holes : List Hole}
    {chosen : Hole} (hstrategy : strategy = .best ∨ strategy = .worst)
    (hholes : ∀ h ∈ holes, 0 ≤ h.size)
    (hnone : (holeSelectionLoop size strategy chosen holes).size = -1) :
    chosen.size = -1 ∧ ∀ h ∈ holes, u32 h.size < size := by
  induction holes generalizing chosen with
  | nil => exact ⟨hnone, by simp⟩
  | cons h rest ih =>
    have hrest : ∀ g ∈ rest, 0 ≤ g.size := fun g hg => hholes g (List.mem_cons_of_mem h hg)
    rw [holeSelectionLoop] at hnone
    split at hnone
    · obtain ⟨hsize, -⟩ := ih hrest hnone
      have := hholes h List.mem_cons_self
      omega
    · rename_i hnot
      obtain ⟨hsize, hall⟩ := ih hrest hnone
      refine ⟨hsize, fun g hg => ?_⟩
      rcases List.mem_cons.1 hg with rfl | hg
      · have hpreferred : preferred strategy chosen g = true := by
          rcases hstrategy with rfl | rfl <;> simp [preferred, hsize]
        simpa [hpreferred] using hnot
      · exact hall g hg

/-- `update_hole_table` leaves a table without the base of the chosen hole as it is. -/
lemma updateHoleTable_of_forall_ne {chosen : Hole} {size : ℕ} {holes : List Hole}
    (h : ∀ hole ∈ holes, hole.base ≠ chosen.base) : updateHoleTable chosen size holes = holes := by
  induction holes with
  | nil => rfl
  | cons hole rest ih =>
    rw [updateHoleTable, if_neg (h hole List.mem_cons_self),
      ih fun g hg => h g (List.mem_cons_of_mem hole hg)]

/-- `update_hole_table` around the first hole with the base of the chosen one. -/
lemma updateHoleTable_append {chosen hole : Hole} {size : ℕ} {pre post : List Hole}
    (hpre : ∀ g ∈ pre, g.base ≠ chosen.base) (hbase : hole.base = chosen.base) :
    updateHoleTable chosen size (pre ++ hole :: post) =
      pre ++ updateHoleTable chosen size [hole] ++ post := by
  induction pre with
  | nil =>
    simp only [List.nil_append, updateHoleTable, hbase, if_true]
    split <;> rfl
  | cons g pre ih =>
    rw [List.cons_append, updateHoleTable, if_neg (hpre g List.mem_cons_self),
      ih fun x hx => hpre x (List.mem_cons_of_mem g hx)]
    rfl

/-- The hole that `update_hole_table` shrinks for the hole that the selection chooses, the first
one with its base, has the bytes. -/
def ShrinksChosen (size : ℕ) (memory : MainMemory) : Prop :=
  let chosenHole := holeSelectionAlgorithm size memory.holes memory.allocationStrategy
  ∀ hole ∈ memory.holes.find? fun currentHole => currentHole.base == chosenHole.base,
    (size : ℤ) ≤ hole.size

/-- What is left of a hole of which the first bytes are taken. -/
def leftOf (hole : Hole) (size : ℤ) : List Hole :=
  if hole.size = size then [] else [⟨hole.base + size, hole.size - size⟩]

/-- What `update_hole_table` does to the first hole with the base. -/
lemma updateHoleTable_of_first {chosen hole : Hole} {pre post : List Hole} {size : ℕ}
    (h : Layout m) (hlist : m.holes = pre ++ hole :: post)
    (hpre : ∀ g ∈ pre, g.base ≠ chosen.base) (hbase : hole.base = chosen.base)
    (hfits : (size : ℤ) ≤ hole.size) :
    updateHoleTable chosen size m.holes = pre ++ leftOf hole size ++ post := by
  have hhole := h.hole (show hole ∈ m.holes by simp [hlist])
  have htotal := h.total_range
  have hleft : i32 (hole.size - size) = hole.size - size := i32_of_nonneg (by omega) (by omega)
  have hstart : i32 (hole.base + size) = hole.base + size := i32_of_nonneg (by omega) (by omega)
  rw [hlist, updateHoleTable_append hpre hbase, updateHoleTable, if_pos hbase]
  simp only [hleft, hstart, leftOf]
  by_cases heq : hole.size = size
  · rw [if_pos heq, if_pos (by omega)]
  · rw [if_neg heq, if_neg (by omega)]

/-- The choice of a hole: none fits, or the first bytes of one are taken. -/
lemma selectHole_cases {size : ℕ} (h : Layout m) (hshrinks : ShrinksChosen size m) :
    (selectHole size m = (noHole, m) ∧ ∀ hole ∈ m.holes, hole.size < size) ∨
      ∃ chosen pre hole post, chosen ∈ m.holes ∧ (size : ℤ) ≤ chosen.size ∧
        m.holes = pre ++ hole :: post ∧ hole.base = chosen.base ∧ (size : ℤ) ≤ hole.size ∧
        selectHole size m = (chosen, { m with holes := pre ++ leftOf hole size ++ post }) := by
  have hselect : selectHole size m =
      (holeSelectionAlgorithm size m.holes m.allocationStrategy,
        { m with
          holes := updateHoleTable (holeSelectionAlgorithm size m.holes m.allocationStrategy) size
            m.holes }) := by
    unfold selectHole
    rcases h.strategy with heq | heq <;> simp [heq]
  unfold ShrinksChosen at hshrinks
  set chosen := holeSelectionAlgorithm size m.holes m.allocationStrategy with hchosen
  have hu32 : ∀ hole ∈ m.holes, (u32 hole.size : ℤ) = hole.size := fun hole hhole => by
    have := h.hole hhole
    have := h.total_range
    exact u32_of_nonneg (by omega) (by omega)
  rcases holeSelectionLoop_mem size m.allocationStrategy m.holes noHole with heq | ⟨hmem, hfit⟩
  · left
    have hnone : chosen = noHole := heq
    have hsmall := (of_holeSelectionLoop_size h.strategy (fun g hg => (h.hole hg).2.1)
      (show chosen.size = -1 by rw [hnone]; rfl)).2
    refine ⟨?_, fun hole hhole => ?_⟩
    · rw [hselect, hnone, updateHoleTable_of_forall_ne]
      intro hole hhole
      have := h.hole hhole
      simp only [noHole]
      omega
    · have := hsmall hole hhole
      have := hu32 hole hhole
      omega
  · right
    have hmem : chosen ∈ m.holes := hmem
    have hfit : (size : ℤ) ≤ chosen.size := by
      rw [← hu32 chosen hmem]
      exact_mod_cast hfit
    cases hfind : m.holes.find? fun currentHole => currentHole.base == chosen.base with
    | none =>
      have := List.find?_eq_none.1 hfind chosen hmem
      simp at this
    | some hole =>
      obtain ⟨hbase, pre, post, hlist, hpre⟩ := List.find?_eq_some_iff_append.1 hfind
      have hbase : hole.base = chosen.base := by simpa using hbase
      have hsize : (size : ℤ) ≤ hole.size := hshrinks hole hfind
      refine ⟨chosen, pre, hole, post, hmem, hfit, hlist, hbase, hsize, ?_⟩
      rw [hselect, updateHoleTable_of_first h hlist (fun g hg => by simpa using hpre g hg) hbase
        hsize]

/-! ## The edits as exchanges -/

/-- The parameters of the memory, which only a new stick changes. -/
structure SameParameters (before after : MainMemory) : Prop where
  totalSize : after.totalSize = before.totalSize
  maxSegmentSize : after.maxSegmentSize = before.maxSegmentSize
  strategy : after.allocationStrategy = before.allocationStrategy

/-- Between the two memories some extents were exchanged for others without new addresses. -/
structure Exchanged (before after : MainMemory) (old new : List Extent) : Prop where
  parameters : SameParameters before after
  extents : ∃ rest, before.extents.Perm (old ++ rest) ∧ after.extents.Perm (new ++ rest)
  fits : Fits before.totalSize new
  subset : addresses new ⊆ addresses old

/-- An exchange keeps the layout. -/
lemma Layout.exchanged {old new : List Extent} (h : Layout m) (hex : Exchanged m m' old new) :
    Layout m' := by
  obtain ⟨⟨htotal, hmax, hstrategy⟩, ⟨rest, hold, hnew⟩, hfits, hsub⟩ := hex
  refine ⟨hstrategy ▸ h.strategy, hmax ▸ h.max_range, htotal ▸ h.total_range, ?_⟩
  rw [htotal]
  exact ((h.fits.perm hold).exchange hfits hsub).perm hnew.symm

/-- A segment and what is left of the hole it was cut from. -/
lemma fits_taken {hole : Hole} {size total : ℤ}
    (hhole : 0 ≤ hole.base ∧ hole.base + hole.size ≤ total) (h₀ : 0 ≤ size)
    (hsize : size ≤ hole.size) :
    Fits total (⟨hole.base, size⟩ :: (leftOf hole size).map Hole.extent) ∧
      addresses (⟨hole.base, size⟩ :: (leftOf hole size).map Hole.extent) =
        addresses [hole.extent] := by
  unfold leftOf
  split
  · rename_i heq
    rw [← heq]
    exact ⟨Fits.singleton ⟨hhole.1, le_trans h₀ hsize, hhole.2⟩, rfl⟩
  · constructor
    · refine Fits.pair ⟨hhole.1, h₀⟩ ⟨?_, ?_⟩ rfl
      · simp only [Hole.extent]
        omega
      · simp only [Hole.extent, Extent.stop]
        omega
    · have hcut := addresses_cut (b := hole.base) h₀ (show 0 ≤ hole.size - size by omega)
      rw [show size + (hole.size - size) = hole.size by omega] at hcut
      exact hcut

/-- Between the two memories a segment was cut from the start of a hole. -/
def Takes (before after : MainMemory) (segment : Segment) : Prop :=
  ∃ pre hole post, before.holes = pre ++ hole :: post ∧ hole.base = segment.base ∧
    segment.size ≤ hole.size ∧
    after = { before with
      segments := before.segments ++ [segment]
      holes := pre ++ leftOf hole segment.size ++ post }

/-- A segment cut from a hole has the addresses it takes from the hole. -/
lemma exchanged_taken {segment : Segment} (h : Layout m) (htakes : Takes m m' segment)
    (h₀ : 0 ≤ segment.size) :
    ∃ old new, Exchanged m m' old new ∧ addresses new = addresses old := by
  obtain ⟨pre, hole, post, hlist, hbase, hsize, rfl⟩ := htakes
  have hhole := h.hole (show hole ∈ m.holes by rw [hlist]; simp)
  obtain ⟨hfits, heq⟩ := fits_taken ⟨hhole.1, hhole.2.2⟩ h₀ hsize
  refine ⟨_, _, ⟨⟨rfl, rfl, rfl⟩, ⟨m.segments.map Segment.extent ++ (pre ++ post).map Hole.extent,
    ?_, ?_⟩, hfits, heq.subset⟩, heq⟩
  · rw [MainMemory.extents, hlist, List.perm_iff_count]
    intro e
    simp only [List.map_append, List.map_cons, List.count_append, List.count_cons,
      List.count_nil]
    omega
  · rw [List.perm_iff_count]
    intro e
    simp only [MainMemory.extents, List.map_append, List.map_cons, List.count_append,
      List.count_cons, List.map_nil, List.count_nil, Segment.extent, hbase]
    omega

/-- The last hole with a property, in its place. -/
lemma of_lastHole {p : Hole → Bool} {holes : List Hole} {i : ℕ} {hole : Hole}
    (h : lastHole p holes = some (i, hole)) : holes[i]? = some hole ∧ p hole = true := by
  induction holes generalizing i with
  | nil => simp [lastHole] at h
  | cons g rest ih =>
    rw [lastHole] at h
    cases hrest : lastHole p rest with
    | some found =>
      obtain ⟨j, hole'⟩ := found
      rw [hrest] at h
      obtain ⟨rfl, rfl⟩ := Prod.mk.inj (Option.some.inj h)
      simpa using ih hrest
    | none =>
      rw [hrest] at h
      simp only at h
      split at h
      · rename_i hg
        obtain ⟨rfl, rfl⟩ := Prod.mk.inj (Option.some.inj h)
        exact ⟨rfl, hg⟩
      · simp at h

/-- No hole is found, so none fits. -/
lemma of_lastHole_eq_none {p : Hole → Bool} {holes : List Hole} (h : lastHole p holes = none) :
    ∀ hole ∈ holes, p hole = false := by
  induction holes with
  | nil => simp
  | cons g rest ih =>
    rw [lastHole] at h
    cases hrest : lastHole p rest with
    | some found => simp [hrest] at h
    | none =>
      rw [hrest] at h
      simp only at h
      split at h
      · simp at h
      · rename_i hg
        intro hole hhole
        rcases List.mem_cons.1 hhole with rfl | hhole
        · simpa using hg
        · exact ih hrest hole hhole

/-- An element taken out by its index. -/
lemma perm_cons_eraseIdx {α : Type} {l : List α} {i : ℕ} {a : α} (h : l[i]? = some a) :
    l.Perm (a :: l.eraseIdx i) := by
  obtain ⟨hi, rfl⟩ := List.getElem?_eq_some_iff.1 h
  exact (List.getElem_cons_eraseIdx_perm hi).symm

/-- The segment that is removed, in its place. -/
lemma of_findAndRemoveSegment {id pid : ℕ} {segments rest : List Segment} {s : Segment}
    (h : findAndRemoveSegment id pid segments = some (s, rest)) :
    ∃ pre post, segments = pre ++ s :: post ∧ rest = pre ++ post ∧ s.id = id ∧ s.pid = pid ∧
      ∀ t ∈ pre, ¬ (t.id = id ∧ t.pid = pid) := by
  induction segments generalizing rest with
  | nil => simp [findAndRemoveSegment] at h
  | cons t segments ih =>
    rw [findAndRemoveSegment] at h
    split at h
    · rename_i ht
      obtain ⟨rfl, rfl⟩ := Prod.mk.inj (Option.some.inj h)
      exact ⟨[], segments, rfl, rfl, ht.1, ht.2, by simp⟩
    · rename_i ht
      obtain ⟨found, hfound, heq⟩ := Option.map_eq_some_iff.1 h
      obtain ⟨rfl, rfl⟩ := Prod.mk.inj heq
      obtain ⟨pre, post, rfl, hrest, hid, hpid, hpre⟩ := ih hfound
      refine ⟨t :: pre, post, rfl, by rw [hrest]; rfl, hid, hpid, fun u hu => ?_⟩
      rcases List.mem_cons.1 hu with rfl | hu
      · exact ht
      · exact hpre u hu

/-- The hole that covers a released range and the holes found on its two sides. -/
def mergedHole (segment : Segment) (before after : Option Hole) : Hole where
  base := before.elim segment.base Hole.base
  size := segment.size + (before.elim 0 Hole.size + after.elim 0 Hole.size)

/-- What `remove_segment` does to the hole table with the holes it finds on the two sides of the
segment: they are replaced by one. When it finds the same hole on both sides, a hole and a segment
without bytes, the hole behind it in the table is deleted as well. -/
lemma releaseRange_cases {holes : List Hole} {segment : Segment}
    (hholes : ∀ hole ∈ holes, 0 ≤ hole.size) (hsegment : 0 ≤ segment.size) :
    (∃ before after rest, holes.Perm (before.toList ++ after.toList ++ rest) ∧
        (releaseRange holes segment).Perm (mergedHole segment before after :: rest) ∧
        (∀ hole ∈ before, hole.base + hole.size = segment.base) ∧
        (∀ hole ∈ after, hole.base = segment.base + segment.size) ∧
        (before = none → ∀ hole ∈ holes, hole.base + hole.size ≠ segment.base) ∧
        (after = none → ∀ hole ∈ holes, hole.base ≠ segment.base + segment.size)) ∨
      ∃ i, findAdjacentHoles holes segment.base segment.size =
          (some (i, ⟨segment.base, 0⟩), some (i, ⟨segment.base, 0⟩)) ∧
        holes[i]? = some ⟨segment.base, 0⟩ ∧ segment.size = 0 ∧
        releaseRange holes segment =
          (holes.eraseIdx i).eraseIdx i ++ [⟨segment.base, 0⟩] := by
  unfold releaseRange
  cases hfind : findAdjacentHoles holes segment.base segment.size with
  | mk found found' =>
    obtain ⟨hbefore, hafter⟩ := Prod.mk.inj hfind
    cases found with
    | none =>
      have hnone : ∀ hole ∈ holes, hole.base + hole.size ≠ segment.base := fun hole hhole => by
        simpa using of_lastHole_eq_none hbefore hole hhole
      cases found' with
      | none =>
        have hnone' : ∀ hole ∈ holes, hole.base ≠ segment.base + segment.size :=
          fun hole hhole => by simpa using of_lastHole_eq_none hafter hole hhole
        refine .inl ⟨none, none, holes, .refl _, ?_, by simp, by simp, fun _ => hnone,
          fun _ => hnone'⟩
        simp [mergedHole]
      | some found' =>
        obtain ⟨j, holeAfter⟩ := found'
        obtain ⟨hj, hbase⟩ := of_lastHole hafter
        refine .inl ⟨none, some holeAfter, holes.eraseIdx j, perm_cons_eraseIdx hj, ?_, by simp,
          by simpa using hbase, fun _ => hnone, by simp⟩
        simp [mergedHole]
    | some found =>
      obtain ⟨i, holeBefore⟩ := found
      obtain ⟨hi, hend⟩ := of_lastHole hbefore
      cases found' with
      | none =>
        have hnone' : ∀ hole ∈ holes, hole.base ≠ segment.base + segment.size :=
          fun hole hhole => by simpa using of_lastHole_eq_none hafter hole hhole
        refine .inl ⟨some holeBefore, none, holes.eraseIdx i, perm_cons_eraseIdx hi, ?_,
          by simpa using hend, by simp, by simp, fun _ => hnone'⟩
        simp [mergedHole]
      | some found' =>
        obtain ⟨j, holeAfter⟩ := found'
        obtain ⟨hj, hbase⟩ := of_lastHole hafter
        have hend' : holeBefore.base + holeBefore.size = segment.base := by simpa using hend
        have hbase' : holeAfter.base = segment.base + segment.size := by simpa using hbase
        have hmerged : mergedHole segment (some holeBefore) (some holeAfter) =
            ⟨holeBefore.base, segment.size + (holeBefore.size + holeAfter.size)⟩ := rfl
        rcases lt_trichotomy i j with hlt | rfl | hgt
        · left
          have hi' : (holes.eraseIdx j)[i]? = some holeBefore := by
            rw [List.getElem?_eraseIdx_of_lt hlt, hi]
          refine ⟨some holeBefore, some holeAfter, (holes.eraseIdx j).eraseIdx i, ?_, ?_,
            by simpa using hend', by simpa using hbase', by simp, by simp⟩
          · refine (perm_cons_eraseIdx hj).trans ?_
            exact ((perm_cons_eraseIdx hi').cons holeAfter).trans (.swap _ _ _)
          · simp only [if_pos hlt, hmerged]
            exact List.perm_append_singleton _ _
        · right
          obtain rfl : holeBefore = holeAfter := Option.some.inj (hi.symm.trans hj)
          have := hholes holeBefore (List.mem_of_getElem? hi)
          have hzero : holeBefore = ⟨segment.base, 0⟩ := by
            obtain ⟨b, n⟩ := holeBefore
            simp only [Hole.mk.injEq] at *
            omega
          have hsize : segment.size = 0 := by omega
          refine ⟨i, by rw [hzero], by rw [hi, hzero], hsize, ?_⟩
          simp only [lt_irrefl, if_false, hzero, hsize]
          rfl
        · left
          have hj' : (holes.eraseIdx i)[j]? = some holeAfter := by
            rw [List.getElem?_eraseIdx_of_lt hgt, hj]
          refine ⟨some holeBefore, some holeAfter, (holes.eraseIdx i).eraseIdx j, ?_, ?_,
            by simpa using hend', by simpa using hbase', by simp, by simp⟩
          · exact (perm_cons_eraseIdx hi).trans ((perm_cons_eraseIdx hj').cons holeBefore)
          · simp only [if_neg hgt.not_gt, hmerged]
            exact List.perm_append_singleton _ _

/-- The merged hole fits and covers the segment and the holes on its sides. -/
lemma fits_mergedHole {segment : Segment} {before after : Option Hole} {total : ℤ}
    (hsegment : 0 ≤ segment.base ∧ 0 ≤ segment.size ∧ segment.base + segment.size ≤ total)
    (hbefore : ∀ hole ∈ before, hole.base + hole.size = segment.base)
    (hafter : ∀ hole ∈ after, hole.base = segment.base + segment.size)
    (hin : ∀ hole ∈ before.toList ++ after.toList, 0 ≤ hole.base ∧ 0 ≤ hole.size ∧
      hole.base + hole.size ≤ total) :
    Fits total [(mergedHole segment before after).extent] ∧
      addresses [(mergedHole segment before after).extent] =
        addresses (segment.extent :: (before.toList ++ after.toList).map Hole.extent) := by
  cases before with
  | none =>
    cases after with
    | none =>
      have heq : (mergedHole segment none none).extent = segment.extent := by
        simp [mergedHole, Hole.extent, Segment.extent]
      rw [heq]
      exact ⟨Fits.singleton hsegment, rfl⟩
    | some a =>
      have ha := hafter a rfl
      have hina := hin a (by simp)
      refine ⟨Fits.singleton ?_, ?_⟩
      · simp only [mergedHole, Hole.extent, Extent.stop, Option.elim]
        omega
      · ext x
        simp only [mergedHole, Hole.extent, Segment.extent, Extent.stop, Option.elim, mem_addresses,
          Option.toList, List.nil_append, List.map_cons, List.map_nil, List.mem_cons,
          List.not_mem_nil, or_false, exists_eq_or_imp, exists_eq_left]
        omega
  | some b =>
    have hb := hbefore b rfl
    have hinb := hin b (by simp)
    cases after with
    | none =>
      refine ⟨Fits.singleton ?_, ?_⟩
      · simp only [mergedHole, Hole.extent, Extent.stop, Option.elim]
        omega
      · ext x
        simp only [mergedHole, Hole.extent, Segment.extent, Extent.stop, Option.elim, mem_addresses,
          Option.toList, List.append_nil, List.map_cons, List.map_nil, List.mem_cons,
          List.not_mem_nil, or_false, exists_eq_or_imp, exists_eq_left]
        omega
    | some a =>
      have ha := hafter a rfl
      have hina := hin a (by simp)
      refine ⟨Fits.singleton ?_, ?_⟩
      · simp only [mergedHole, Hole.extent, Extent.stop, Option.elim]
        omega
      · ext x
        simp only [mergedHole, Hole.extent, Segment.extent, Extent.stop, Option.elim, mem_addresses,
          Option.toList, List.cons_append, List.nil_append, List.map_cons, List.map_nil,
          List.mem_cons, List.not_mem_nil, or_false, exists_eq_or_imp, exists_eq_left]
        omega

/-- The hole that `remove_segment` deletes besides the ones it merges has no bytes. -/
def KeepsNeighbour (holes : List Hole) (segment : Segment) : Prop :=
  ∀ i before after neighbour, findAdjacentHoles holes segment.base segment.size =
    (some (i, before), some (i, after)) → holes[i + 1]? = some neighbour → neighbour.size = 0

/-- A removed segment gives its addresses back to the holes, and the hole that may be deleted by
mistake loses its own. -/
lemma exchanged_removed {pre post : List Segment} {segment : Segment} (h : Layout m)
    (hlist : m.segments = pre ++ segment :: post) :
    ∃ old new, Exchanged m
        { m with segments := pre ++ post, holes := releaseRange m.holes segment } old new ∧
      (KeepsNeighbour m.holes segment → addresses new = addresses old) := by
  have hsegment := h.segment (show segment ∈ m.segments by rw [hlist]; simp)
  have hsize : ∀ hole ∈ m.holes, 0 ≤ hole.size := fun hole hhole => (h.hole hhole).2.1
  rcases releaseRange_cases hsize hsegment.2.1 with
    ⟨before, after, rest, hholes, hrelease, hbefore, hafter, -, -⟩ |
    ⟨i, hfind, hi, hzero, hrelease⟩
  · obtain ⟨hfits, heq⟩ := fits_mergedHole hsegment hbefore hafter fun hole hhole =>
      h.hole (hholes.mem_iff.2 (List.mem_append_left rest hhole))
    refine ⟨_, _, ⟨⟨rfl, rfl, rfl⟩, ⟨(pre ++ post).map Segment.extent ++ rest.map Hole.extent, ?_,
      ?_⟩, hfits, heq.subset⟩, fun _ => heq⟩
    · have hmap := hholes.map Hole.extent
      rw [List.perm_iff_count] at hmap ⊢
      intro e
      have := hmap e
      rw [MainMemory.extents, hlist]
      simp only [List.map_append, List.map_cons, List.count_append, List.count_cons,
        List.cons_append] at this ⊢
      omega
    · have hmap := hrelease.map Hole.extent
      rw [List.perm_iff_count] at hmap ⊢
      intro e
      have := hmap e
      simp only [MainMemory.extents, List.map_append, List.map_cons, List.count_append,
        List.count_cons, List.count_nil] at this ⊢
      omega
  · -- the same hole on both sides: `dropped` is what the second deletion takes
    set dropped := m.holes[i + 1]?.toList with hdropped
    have hholes : m.holes.Perm
        (⟨segment.base, 0⟩ :: (dropped ++ (m.holes.eraseIdx i).eraseIdx i)) := by
      refine (perm_cons_eraseIdx hi).trans (List.Perm.cons _ ?_)
      have hget : (m.holes.eraseIdx i)[i]? = m.holes[i + 1]? := by
        rw [List.getElem?_eraseIdx_of_ge le_rfl]
      cases hnext : m.holes[i + 1]? with
      | none =>
        rw [hnext, List.getElem?_eq_none_iff] at hget
        rw [hdropped, hnext, List.eraseIdx_of_length_le hget]
        exact .refl _
      | some hole =>
        rw [hdropped, hnext]
        exact perm_cons_eraseIdx (hget.trans hnext)
    have hnew : addresses [(⟨segment.base, 0⟩ : Extent)] = ∅ := by
      ext a
      simp only [mem_addresses, List.mem_singleton, exists_eq_left, Extent.stop,
        Finset.notMem_empty, iff_false]
      omega
    refine ⟨segment.extent :: ⟨segment.base, 0⟩ :: dropped.map Hole.extent, [⟨segment.base, 0⟩],
      ⟨⟨rfl, rfl, rfl⟩, ⟨(pre ++ post).map Segment.extent ++
        ((m.holes.eraseIdx i).eraseIdx i).map Hole.extent, ?_, ?_⟩, ?_, ?_⟩, fun hkeeps => ?_⟩
    · have hmap := hholes.map Hole.extent
      rw [List.perm_iff_count] at hmap ⊢
      intro e
      have := hmap e
      rw [MainMemory.extents, hlist]
      simp only [List.map_append, List.map_cons, List.count_append, List.count_cons,
        List.cons_append, Hole.extent] at this ⊢
      omega
    · rw [List.perm_iff_count]
      intro e
      simp only [MainMemory.extents, hrelease, List.map_append, List.map_cons, List.map_nil,
        List.count_append, List.count_cons, List.count_nil, Hole.extent]
      omega
    · refine Fits.singleton ⟨hsegment.1, le_rfl, ?_⟩
      simp only [Extent.stop]
      omega
    · rw [hnew]
      exact Finset.empty_subset _
    · rw [hnew]
      symm
      ext a
      have hnext : ∀ hole ∈ dropped, hole.size = 0 := fun hole hhole =>
        hkeeps i _ _ hole hfind (by simpa [hdropped] using hhole)
      simp only [mem_addresses, List.mem_cons, List.mem_map, exists_eq_or_imp, Finset.notMem_empty,
        iff_false, Segment.extent, Extent.stop, hzero]
      rintro (hlt | hlt | ⟨e, ⟨hole, hhole, rfl⟩, hlt⟩)
      · omega
      · omega
      · have := hnext hole hhole
        simp only [Hole.extent] at hlt
        omega

/-! ## Compaction -/

/-- The segments packed behind one another. -/
lemma map_extent_compactSegmentsFrom (base : ℤ) (segments : List Segment) :
    (compactSegmentsFrom base segments).map Segment.extent =
      pack base (segments.map Segment.size) := by
  induction segments generalizing base with
  | nil => rfl
  | cons s rest ih => simp [compactSegmentsFrom, pack, Segment.extent, ih]

/-- The end of the last segment after `compact_segments` is the sum of the sizes. -/
lemma computeLastSegmentEnd_compactSegmentsFrom (base : ℤ) {segments : List Segment}
    (hne : segments ≠ []) :
    computeLastSegmentEnd (compactSegmentsFrom base segments) =
      some (base + (segments.map Segment.size).sum) := by
  induction segments generalizing base with
  | nil => exact absurd rfl hne
  | cons s rest ih =>
    cases rest with
    | nil => simp [compactSegmentsFrom, computeLastSegmentEnd]
    | cons t rest =>
      have hlast := ih (base + s.size) (by simp)
      rw [List.map_cons, List.sum_cons, ← Int.add_assoc, ← hlast]
      simp [compactSegmentsFrom, computeLastSegmentEnd, List.getLast?_cons_cons]

/-- A compaction needs a segment. -/
lemma compactMemory_eq_none : compactMemory m = none ↔ m.segments = [] := by
  constructor
  · intro h
    by_contra hne
    rw [compactMemory, compactSegments] at h
    simp [computeLastSegmentEnd_compactSegmentsFrom 0 hne] at h
  · intro h
    simp [compactMemory, compactSegments, h, compactSegmentsFrom, computeLastSegmentEnd]

/-- After a compaction the segments lie one behind the other, one hole has the rest, and together
they fill the address space. -/
lemma compactMemory_cases {compacted : Message × MainMemory} (h : Layout m)
    (hrun : compactMemory m = some compacted) :
    m.segments ≠ [] ∧ SameParameters m compacted.2 ∧
      compacted.2.segments = compactSegments m.segments ∧
      compacted.2.holes = [⟨(m.segments.map Segment.size).sum,
        m.totalSize - (m.segments.map Segment.size).sum⟩] ∧
      Layout compacted.2 ∧ Fills m.totalSize compacted.2.extents := by
  have hne : m.segments ≠ [] := fun hnil => by
    rw [compactMemory_eq_none.2 hnil] at hrun
    simp at hrun
  rw [compactMemory, compactSegments] at hrun
  simp only [computeLastSegmentEnd_compactSegmentsFrom 0 hne, Option.map_some, Int.zero_add,
    Option.some.injEq] at hrun
  subst hrun
  set total := (m.segments.map Segment.size).sum with htotal
  have hsizes : ∀ n ∈ m.segments.map Segment.size, 0 ≤ n := fun n hn => by
    obtain ⟨s, hs, rfl⟩ := List.mem_map.1 hn
    exact (h.segment hs).2.1
  have hsegments : Fits m.totalSize (m.segments.map Segment.extent) :=
    ⟨fun e he => h.fits.inside e (List.mem_append_left _ he),
      (List.pairwise_append.1 h.fits.apart).1⟩
  have hle : total ≤ m.totalSize := by
    have := hsegments.sum_size_le h.total_range.1
    simpa [List.map_map, Function.comp_def, Segment.extent] using this
  have h₀ : 0 ≤ total := List.sum_nonneg hsizes
  have hfills : Fills m.totalSize
      (pack 0 (m.segments.map Segment.size) ++ [⟨total, m.totalSize - total⟩]) := by
    have hgrown := (fills_pack hsizes).extend (n := m.totalSize - total) h₀ (by omega)
    rw [← htotal, show total + (m.totalSize - total) = m.totalSize by omega] at hgrown
    exact hgrown.perm (List.perm_append_singleton _ _).symm
  have hextents : Fills m.totalSize
      (MainMemory.extents
        ⟨m.totalSize, m.maxSegmentSize, compactSegmentsFrom 0 m.segments,
          compactHoles m.totalSize total, m.allocationStrategy⟩) := by
    rw [MainMemory.extents, map_extent_compactSegmentsFrom]
    exact hfills
  exact ⟨hne, ⟨rfl, rfl, rfl⟩, rfl, rfl,
    ⟨h.strategy, h.max_range, h.total_range, hextents.toFits⟩, hextents⟩

/-- In a table with one hole the selection shrinks the hole it chooses. -/
lemma shrinksChosen_of_singleton {hole : Hole} {size : ℕ} (h : Layout m)
    (hholes : m.holes = [hole]) : ShrinksChosen size m := by
  intro g hg
  have hmem := holeSelectionLoop_mem size m.allocationStrategy [hole] noHole
  have hin := h.hole (show hole ∈ m.holes by rw [hholes]; simp)
  have htotal := h.total_range
  simp only [hholes, Option.mem_def, List.find?_singleton, holeSelectionAlgorithm] at hg
  rcases hmem with heq | ⟨hmem, hfit⟩
  · rw [heq] at hg
    have : ¬ hole.base = -1 := by omega
    simp [noHole, this] at hg
  · have heq := List.mem_singleton.1 hmem
    rw [heq] at hg hfit
    simp only [beq_self_eq_true, if_true, Option.some.injEq] at hg
    subst hg
    have hu := u32_of_nonneg hin.2.1 (by omega)
    omega

/-! ## What the edits do -/

/-- A hole is chosen and a segment put at its start, or no hole fits. -/
lemma selectHole_takes {size : ℤ} (id pid : ℕ) (h : Layout m) (h₀ : 0 ≤ size)
    (hmax : size ≤ INT_MAX) (hshrinks : ShrinksChosen (u32 size) m) :
    (selectHole (u32 size) m = (noHole, m) ∧ ∀ hole ∈ m.holes, hole.size < size) ∨
      ((selectHole (u32 size) m).1.size ≠ -1 ∧
        Takes m (updateSegmentList (selectHole (u32 size) m).2 (selectHole (u32 size) m).1 size pid
          id) ⟨id, pid, (selectHole (u32 size) m).1.base, size⟩) := by
  have hu32 := u32_of_nonneg h₀ hmax
  rcases selectHole_cases h hshrinks with ⟨hselect, hsmall⟩ |
    ⟨chosen, pre, hole, post, hmem, hfit, hlist, hbase, hsize, hselect⟩
  · exact .inl ⟨hselect, fun hole hhole => hu32 ▸ hsmall hole hhole⟩
  · rw [hu32] at hfit hsize hselect
    refine .inr ⟨?_, pre, hole, post, hlist, ?_, hsize, ?_⟩
    · rw [hselect]
      dsimp only
      omega
    · rw [hselect]
      exact hbase
    · rw [hselect]
      rfl

/-- **What `create_segment` does**: nothing, for lack of space; it cuts the segment from a hole; or
no hole fits and it cuts the segment from the hole of a compaction. -/
lemma createSegment_cases {id pid : ℕ} {size : ℤ} {msgs : List Message} (h : Layout m)
    (h₀ : 0 ≤ size) (hmax : size ≤ INT_MAX) (hshrinks : ShrinksChosen (u32 size) m)
    (hrun : createSegment id pid size m = some (msgs, m')) :
    (m' = m ∧ computeFreeSpace m.holes < size) ∨
      (size ≤ computeFreeSpace m.holes ∧
        Takes m m' ⟨id, pid, (selectHole (u32 size) m).1.base, size⟩) ∨
      (size ≤ computeFreeSpace m.holes ∧ (∀ hole ∈ m.holes, hole.size < size) ∧
        ∃ compacted base, compactMemory m = some compacted ∧
          Takes compacted.2 m' ⟨id, pid, base, size⟩) := by
  unfold createSegment at hrun
  dsimp only at hrun
  split at hrun
  · rename_i hspace
    obtain ⟨-, rfl⟩ := Prod.mk.inj (Option.some.inj hrun)
    exact .inl ⟨rfl, hspace⟩
  · rename_i hspace
    right
    rcases selectHole_takes id pid h h₀ hmax hshrinks with ⟨hselect, hsmall⟩ | ⟨hne, htakes⟩
    · right
      rw [hselect] at hrun
      simp only [noHole, if_true] at hrun
      obtain ⟨compacted, hcompact, heq⟩ := Option.map_eq_some_iff.1 hrun
      obtain ⟨-, rfl⟩ := Prod.mk.inj heq
      refine ⟨not_lt.1 hspace, hsmall, compacted, (selectHole (u32 size) compacted.2).1.base,
        hcompact, ?_⟩
      obtain ⟨-, hparams, -, hholes, hlayout, -⟩ := compactMemory_cases h hcompact
      rcases selectHole_takes id pid hlayout h₀ hmax
        (shrinksChosen_of_singleton hlayout hholes) with ⟨-, hsmall'⟩ | ⟨-, htakes⟩
      · -- the hole has all the free bytes, so it does fit
        exfalso
        have hlt := hsmall' _ (by rw [hholes]; exact List.mem_singleton_self _)
        have hsum := h.fits.sum_size_le h.total_range.1
        rw [MainMemory.extents, List.map_append, List.sum_append, List.map_map, List.map_map] at hsum
        simp only [computeFreeSpace] at hspace
        simp only [Function.comp_def, Segment.extent, Hole.extent] at hsum
        simp only at hlt
        have h₁ : (m.segments.map fun s => s.size) = m.segments.map Segment.size := rfl
        have h₂ : (m.holes.map fun h => h.size) = m.holes.map Hole.size := rfl
        rw [h₁, h₂] at hsum
        omega
      · exact htakes
    · left
      rw [if_neg hne] at hrun
      obtain ⟨-, rfl⟩ := Prod.mk.inj (Option.some.inj hrun)
      exact ⟨not_lt.1 hspace, htakes⟩

/-- What `regenerate_segment` does: it fails and leaves the memory, or cuts the segment from a
hole. -/
lemma regenerateSegment_cases {size : ℤ} (id pid : ℕ) (h : Layout m) (h₀ : 0 ≤ size)
    (hmax : size ≤ INT_MAX) (hshrinks : ShrinksChosen (u32 size) m) :
    (∃ failure, regenerateSegment id pid size m = (some failure, m)) ∨
      ∃ m', regenerateSegment id pid size m = (none, m') ∧
        Takes m m' ⟨id, pid, (selectHole (u32 size) m).1.base, size⟩ := by
  unfold regenerateSegment
  dsimp only
  split
  · exact .inl ⟨_, rfl⟩
  · rcases selectHole_takes id pid h h₀ hmax hshrinks with ⟨hselect, -⟩ | ⟨hne, htakes⟩
    · rw [hselect]
      exact .inl ⟨_, rfl⟩
    · rw [if_neg hne]
      exact .inr ⟨_, rfl, htakes⟩

/-- What `remove_segment` does: nothing, or it gives the range of the first such segment back. -/
lemma removeSegment_cases (id pid : ℕ) (m : MainMemory) :
    (removeSegment id pid m = m ∧ ∀ s ∈ m.segments, ¬ (s.id = id ∧ s.pid = pid)) ∨
      ∃ pre segment post, m.segments = pre ++ segment :: post ∧ segment.id = id ∧
        segment.pid = pid ∧ (∀ s ∈ pre, ¬ (s.id = id ∧ s.pid = pid)) ∧
        removeSegment id pid m =
          { m with segments := pre ++ post, holes := releaseRange m.holes segment } := by
  unfold removeSegment
  cases hfind : findAndRemoveSegment id pid m.segments with
  | none =>
    refine .inl ⟨rfl, ?_⟩
    generalize m.segments = segments at hfind
    induction segments with
    | nil => simp
    | cons s rest ih =>
      rw [findAndRemoveSegment] at hfind
      split at hfind
      · simp at hfind
      · rename_i hs
        intro t ht
        rcases List.mem_cons.1 ht with rfl | ht
        · exact hs
        · exact ih (by simpa using hfind) t ht
  | some found =>
    obtain ⟨segment, rest⟩ := found
    obtain ⟨pre, post, hlist, rfl, hid, hpid, hpre⟩ := of_findAndRemoveSegment hfind
    exact .inr ⟨pre, segment, post, hlist, hid, hpid, hpre, rfl⟩

/-- The hole table with a new stick: a hole that ends where the stick starts grows, or a hole is
added. -/
lemma growHoles_cases (newBase memoryTotal : ℤ) (holes : List Hole) :
    (∃ pre hole post, holes = pre ++ hole :: post ∧ hole.base + hole.size = newBase ∧
        growHoles newBase memoryTotal holes =
          pre ++ ⟨hole.base, hole.size + memoryTotal⟩ :: post) ∨
      ((∀ hole ∈ holes, hole.base + hole.size ≠ newBase) ∧
        growHoles newBase memoryTotal holes = holes ++ [⟨newBase, memoryTotal⟩]) := by
  induction holes with
  | nil => exact .inr ⟨by simp, rfl⟩
  | cons h rest ih =>
    rw [growHoles]
    split
    · rename_i hend
      exact .inl ⟨[], h, rest, rfl, hend, rfl⟩
    · rename_i hend
      rcases ih with ⟨pre, hole, post, rfl, hhole, hgrow⟩ | ⟨hall, hgrow⟩
      · exact .inl ⟨h :: pre, hole, post, rfl, hhole, by rw [hgrow]; rfl⟩
      · refine .inr ⟨fun g hg => ?_, by rw [hgrow]; rfl⟩
        rcases List.mem_cons.1 hg with rfl | hg
        · exact hend
        · exact hall g hg

/-- A new stick extends the address space at its end. -/
lemma addTotalMemory_cases {n : ℤ} (h : Layout m) (hn : 0 ≤ n)
    (hrun : addTotalMemory m n = some m') :
    m' = { m with totalSize := m.totalSize + n, holes := growHoles m.totalSize n m.holes } ∧
      m.totalSize + n ≤ INT_MAX ∧
      ∃ old new rest, (⟨m.totalSize, n⟩ :: m.extents).Perm (old ++ rest) ∧
        m'.extents.Perm (new ++ rest) ∧ Fits (m.totalSize + n) new ∧
        addresses new = addresses old := by
  unfold addTotalMemory at hrun
  split at hrun
  · rename_i hle
    obtain rfl := Option.some.inj hrun
    refine ⟨rfl, hle, ?_⟩
    rcases growHoles_cases m.totalSize n m.holes with
      ⟨pre, hole, post, hlist, hend, hgrow⟩ | ⟨-, hgrow⟩
    · have hhole := h.hole (show hole ∈ m.holes by rw [hlist]; simp)
      refine ⟨[hole.extent, ⟨m.totalSize, n⟩], [⟨hole.base, hole.size + n⟩],
        m.segments.map Segment.extent ++ (pre ++ post).map Hole.extent, ?_, ?_, ?_, ?_⟩
      · rw [MainMemory.extents, hlist, List.perm_iff_count]
        intro e
        simp only [List.map_append, List.map_cons, List.count_append, List.count_cons,
          List.count_nil]
        omega
      · rw [List.perm_iff_count]
        intro e
        simp only [MainMemory.extents, hgrow, List.map_append, List.map_cons, List.count_append,
          List.count_cons, List.count_nil, Hole.extent]
        omega
      · refine Fits.singleton ⟨hhole.1, ?_, ?_⟩
        · simp only
          omega
        · simp only [Extent.stop]
          omega
      · have hcut := addresses_cut (b := hole.base) hhole.2.1 hn
        rw [hend] at hcut
        exact hcut.symm
    · refine ⟨[⟨m.totalSize, n⟩], [⟨m.totalSize, n⟩], m.extents, .refl _, ?_,
        Fits.singleton ⟨h.total_range.1, hn, le_rfl⟩, rfl⟩
      rw [List.perm_iff_count]
      intro e
      simp only [MainMemory.extents, hgrow, List.map_append, List.map_cons, List.map_nil,
        List.count_append, List.count_cons, List.count_nil, Hole.extent]
      omega
  · simp at hrun

end OsSimulator.Memory
