import OsSimulator.Library.FirstBest
import OsSimulator.Memory.Overlap

set_option relaxedAutoImplicit false
set_option autoImplicit false

/-!
# The decision about an allocation

`create_segment` refuses, asks for a compaction or places the segment. The hole it chooses is the
first best one of the strategy, but the hole table is updated by a second scan, which looks for the
base of the chosen hole only: a hole without bytes before it can have the same base.

## Main definitions

* `strategyKey` — what the strategy minimises.
* `AsksForCompaction`, `Decides` — the decision about a request.
* `Unshadowed` — no hole before the first best one has its base.

## Main results

* `holeSelectionAlgorithm_eq` — the selection finds the first best hole.
* `decides_iff` — the decision about a request is the right one exactly when the first best hole is
  not shadowed.
-/

namespace OsSimulator.Memory

variable {m : MainMemory} {size : ℤ} {strategy : AllocationStrategy}

/-! ## The selection -/

/-- What the best hole of the strategy has the least of: the smallest hole for `AS_BEST`, the
largest for `AS_WORST`. -/
def strategyKey (strategy : AllocationStrategy) (hole : Hole) : ℤ :=
  match strategy with
  | .worst => -hole.size
  | _ => hole.size

/-- The loop with a hole chosen so far, and with none. -/
lemma holeSelectionLoop_eq {holes : List Hole}
    (hstrategy : strategy = .best ∨ strategy = .worst) (h₀ : 0 ≤ size) (hmax : size ≤ INT_MAX)
    (hholes : ∀ hole ∈ holes, 0 ≤ hole.size ∧ hole.size ≤ INT_MAX) :
    (∀ chosen : Hole, 0 ≤ chosen.size →
      some (holeSelectionLoop (u32 size) strategy chosen holes) =
        firstBest (fun hole => size ≤ hole.size) (strategyKey strategy) (some chosen) holes) ∧
      holeSelectionLoop (u32 size) strategy noHole holes =
        (firstBest (fun hole => size ≤ hole.size) (strategyKey strategy) none
          holes).getD noHole := by
  induction holes with
  | nil => exact ⟨fun _ _ => rfl, rfl⟩
  | cons hole rest ih =>
    obtain ⟨hhole, hrest⟩ := List.forall_mem_cons.1 hholes
    obtain ⟨ihsome, ihnone⟩ := ih hrest
    have hfits : u32 size ≤ u32 hole.size ↔ size ≤ hole.size := by
      have hu := u32_of_nonneg h₀ hmax
      have hu' := u32_of_nonneg hhole.1 hhole.2
      omega
    constructor
    · intro chosen hchosen
      have hbetter : preferred strategy chosen hole = true ↔
          strategyKey strategy hole < strategyKey strategy chosen := by
        have hne : ¬ chosen.size = -1 := by omega
        rcases hstrategy with rfl | rfl <;> simp [preferred, strategyKey, hne]
      simp only [holeSelectionLoop, firstBest, hfits, hbetter]
      split
      · exact ihsome hole hhole.1
      · exact ihsome chosen hchosen
    · have hbetter : preferred strategy noHole hole = true := by
        rcases hstrategy with rfl | rfl <;> rfl
      simp only [holeSelectionLoop, firstBest, hfits, hbetter, and_true]
      split
      · rw [← ihsome hole hhole.1, Option.getD_some]
      · exact ihnone

/-- The selection finds the first best hole of the ones that fit. -/
lemma holeSelectionAlgorithm_eq (h : Layout m) (h₀ : 0 ≤ size) (hmax : size ≤ INT_MAX) :
    holeSelectionAlgorithm (u32 size) m.holes m.allocationStrategy =
      (firstBest (fun hole => size ≤ hole.size) (strategyKey m.allocationStrategy) none
        m.holes).getD noHole := by
  refine (holeSelectionLoop_eq h.strategy h₀ hmax fun hole hhole => ?_).2
  have := h.hole hhole
  have := h.total_range
  omega

/-- Without a hole that fits nothing is chosen and the table stays. -/
lemma selectHole_of_forall_lt (h : Layout m) (h₀ : 0 ≤ size) (hmax : size ≤ INT_MAX)
    (hsmall : ∀ hole ∈ m.holes, hole.size < size) : selectHole (u32 size) m = (noHole, m) := by
  have hnone : holeSelectionAlgorithm (u32 size) m.holes m.allocationStrategy = noHole := by
    rw [holeSelectionAlgorithm_eq h h₀ hmax,
      firstBest_none_eq_none.2 fun hole hhole => not_le.2 (hsmall hole hhole), Option.getD_none]
  have htable : updateHoleTable noHole (u32 size) m.holes = m.holes := by
    apply updateHoleTable_of_forall_ne
    intro hole hhole
    have := (h.hole hhole).1
    simp only [noHole]
    omega
  unfold selectHole
  rcases h.strategy with heq | heq <;> rw [heq] at hnone <;> simp only [heq, hnone, htable] <;>
    rw [← heq]

/-- The first best hole is the one that is chosen. -/
lemma selectHole_of_firstBest {before after : List Hole} {hole : Hole} (h : Layout m)
    (h₀ : 0 ≤ size) (hmax : size ≤ INT_MAX) (hlist : m.holes = before ++ hole :: after)
    (hbest : FirstBest (fun hole => size ≤ hole.size) (strategyKey m.allocationStrategy) before hole
      after) :
    selectHole (u32 size) m =
      (hole, { m with holes := updateHoleTable hole (u32 size) m.holes }) := by
  have hchosen : holeSelectionAlgorithm (u32 size) m.holes m.allocationStrategy = hole := by
    rw [holeSelectionAlgorithm_eq h h₀ hmax]
    cases hfound : firstBest (fun hole => size ≤ hole.size) (strategyKey m.allocationStrategy) none
        m.holes with
    | none =>
      have hnot := firstBest_none_eq_none.1 hfound hole (by simp [hlist])
      exact absurd hbest.fit hnot
    | some found =>
      obtain ⟨before', after', hlist', hbest'⟩ := firstBest_none_eq_some hfound
      exact (hbest'.unique hbest (hlist'.symm.trans hlist)).2.1
  unfold selectHole
  rcases h.strategy with heq | heq <;> rw [heq] at hchosen <;> simp only [heq, hchosen]

/-! ## The decision -/

/-- The request asks for a compaction, whether or not the compaction ends. -/
def AsksForCompaction (id pid : ℕ) (size : ℤ) (m : MainMemory) : Prop :=
  ∀ result, createSegment id pid size m = some result → notifyCompaction ∈ result.1

/-- The request is answered with the operation code. -/
def AnswersWith (opCode : OpCode) (id pid : ℕ) (size : ℤ) (m : MainMemory) : Prop :=
  ∃ result, createSegment id pid size m = some result ∧
    ∃ message ∈ result.1, message.opCode = opCode

/-- The decision about a request: it is refused exactly when it exceeds the sum of the hole sizes,
and then nothing changes; otherwise a compaction is asked for exactly when no hole fits; and without
one the first best hole gives its first bytes to one new segment, everything else stays, and the
segment is the only reply. -/
structure Decides (id pid : ℕ) (size : ℤ) (m : MainMemory) : Prop where
  refused : AnswersWith .notEnoughMemory id pid size m ↔ (m.holes.map Hole.size).sum < size
  unchanged : (m.holes.map Hole.size).sum < size →
    ∀ result, createSegment id pid size m = some result →
      result.2.segments = m.segments ∧ result.2.holes = m.holes
  compacted : size ≤ (m.holes.map Hole.size).sum →
    (AsksForCompaction id pid size m ↔ ∀ hole ∈ m.holes, ¬ size ≤ hole.size)
  placed : size ≤ (m.holes.map Hole.size).sum → ¬ AsksForCompaction id pid size m →
    ∃ before hole after, m.holes = before ++ hole :: after ∧
      FirstBest (fun hole => size ≤ hole.size) (strategyKey m.allocationStrategy) before hole
        after ∧
      createSegment id pid size m =
        some ([⟨.memoryAllocated, "Memory allocated"⟩],
          { m with
            segments := m.segments ++ [⟨id, pid, hole.base, size⟩]
            holes := before ++ leftOf hole size ++ after })

/-- No hole before the first best one has its base. -/
def Unshadowed (size : ℤ) (m : MainMemory) : Prop :=
  ∀ before hole after, m.holes = before ++ hole :: after →
    FirstBest (fun hole => size ≤ hole.size) (strategyKey m.allocationStrategy) before hole after →
      ∀ g ∈ before, g.base ≠ hole.base

/-- What the request does, by what fits. -/
lemma createSegment_of_lt (id pid : ℕ) (hmax : size ≤ m.maxSegmentSize)
    (hspace : computeFreeSpace m.holes < size) :
    createSegment id pid size m =
      some ([⟨.notEnoughMemory, "There are not memory enough"⟩], m) := by
  unfold createSegment
  rw [if_neg (not_lt.2 hmax), if_pos hspace, List.nil_append]

/-- No hole is large enough: the memory is compacted, and the segment comes into a hole of the
compacted one. -/
lemma createSegment_of_forall_lt (id pid : ℕ) (h : Layout m) (h₀ : 0 ≤ size)
    (hmax : size ≤ m.maxSegmentSize) (hspace : size ≤ computeFreeSpace m.holes)
    (hsmall : ∀ hole ∈ m.holes, hole.size < size) :
    createSegment id pid size m = (compactMemory m).map fun compacted =>
      ([notifyCompaction, compacted.1, ⟨.memoryAllocated, "Memory allocated"⟩],
        updateSegmentList (selectHole (u32 size) compacted.2).2
          (selectHole (u32 size) compacted.2).1 size pid id) := by
  unfold createSegment
  rw [if_neg (not_lt.2 hmax), if_neg (not_lt.2 hspace)]
  simp only [selectHole_of_forall_lt h h₀ (hmax.trans h.max_range.2) hsmall, noHole, if_true,
    List.nil_append]

/-- The hole that the strategy prefers is taken. -/
lemma createSegment_of_firstBest {before after : List Hole} {hole : Hole} (id pid : ℕ)
    (h : Layout m) (h₀ : 0 ≤ size) (hmax : size ≤ m.maxSegmentSize)
    (hspace : size ≤ computeFreeSpace m.holes) (hlist : m.holes = before ++ hole :: after)
    (hbest : FirstBest (fun hole => size ≤ hole.size) (strategyKey m.allocationStrategy) before hole
      after) :
    createSegment id pid size m =
      some ([⟨.memoryAllocated, "Memory allocated"⟩],
        { m with
          segments := m.segments ++ [⟨id, pid, hole.base, size⟩]
          holes := updateHoleTable hole (u32 size) m.holes }) := by
  unfold createSegment
  rw [if_neg (not_lt.2 hmax), if_neg (not_lt.2 hspace)]
  have hne : ¬ hole.size = -1 := by
    have := hbest.fit
    omega
  simp only [selectHole_of_firstBest h h₀ (hmax.trans h.max_range.2) hlist hbest, hne, if_false,
    List.nil_append, updateSegmentList]

/-- A hole that fits fits the sum. -/
lemma Layout.le_sum (h : Layout m) {hole : Hole} (hhole : hole ∈ m.holes) :
    hole.size ≤ (m.holes.map Hole.size).sum := by
  refine List.single_le_sum (fun x hx => ?_) _ (List.mem_map_of_mem hhole)
  obtain ⟨g, hg, rfl⟩ := List.mem_map.1 hx
  exact (h.hole hg).2.1

/-- Where a hole fits there is a first best one. -/
lemma exists_firstBest {hole : Hole} (hhole : hole ∈ m.holes) (hfits : size ≤ hole.size) :
    ∃ before best after, m.holes = before ++ best :: after ∧
      FirstBest (fun hole => size ≤ hole.size) (strategyKey m.allocationStrategy) before best
        after := by
  cases hfound : firstBest (fun hole => size ≤ hole.size) (strategyKey m.allocationStrategy) none
      m.holes with
  | none => exact absurd hfits (firstBest_none_eq_none.1 hfound hole hhole)
  | some best =>
    obtain ⟨before, after, hlist, hbest⟩ := firstBest_none_eq_some hfound
    exact ⟨before, best, after, hlist, hbest⟩

/-- A table that is updated in the place of the first best hole has no other hole with its base
before it.

**Proof sketch.** The first hole with the base is updated. Either it is dropped, and then the first
best hole is too and the two are equal; or it gives no byte and keeps its place, and then both have
the byte at the base. -/
lemma unshadowed_of_updateHoleTable {before after : List Hole} {hole : Hole} (h : Layout m)
    (h₀ : 0 ≤ size) (hmax : size ≤ INT_MAX) (hlist : m.holes = before ++ hole :: after)
    (hbest : FirstBest (fun hole => size ≤ hole.size) (strategyKey m.allocationStrategy) before hole
      after)
    (hupdate : updateHoleTable hole (u32 size) m.holes = before ++ leftOf hole size ++ after) :
    ∀ g ∈ before, g.base ≠ hole.base := by
  cases hfind : before.find? fun g => g.base == hole.base with
  | none => simpa using hfind
  | some g =>
    exfalso
    obtain ⟨hbase, pre, mid, rfl, hpre⟩ := List.find?_eq_some_iff_append.1 hfind
    have hbase : g.base = hole.base := by simpa using hbase
    have hin := h.hole (show hole ∈ m.holes by simp [hlist])
    have hgin := h.hole (show g ∈ m.holes by simp [hlist])
    have htotal := h.total_range
    have hfits : size ≤ hole.size := hbest.fit
    have hu := u32_of_nonneg h₀ hmax
    rw [hlist, List.append_assoc, List.cons_append,
      updateHoleTable_append (fun x hx => by simpa using hpre x hx) hbase] at hupdate
    have hcancel : updateHoleTable hole (u32 size) [g] ++ (mid ++ [hole]) =
        g :: (mid ++ leftOf hole size) := by
      refine List.append_cancel_right (?_ : _ ++ after = _ ++ after)
      simpa [List.append_assoc] using hupdate
    have hlen := congrArg List.length hcancel
    rw [updateHoleTable, if_pos hbase] at hcancel hlen
    simp only [hu] at hcancel hlen
    by_cases hdropped : i32 (g.size - size) = 0
    · have hg : g.size = size := by
        unfold INT_MAX at hmax htotal
        rw [i32, Int.bmod_def] at hdropped
        split at hdropped <;> omega
      have hleft : leftOf hole size = [] := by
        rw [← List.length_eq_zero_iff]
        simp only [hdropped, if_true, List.length_append, List.length_cons, List.length_nil] at hlen
        omega
      have hhole : hole.size = size := by
        by_contra hne
        rw [leftOf, if_neg hne] at hleft
        simp at hleft
      have hahead := hbest.ahead g (by simp) (le_of_eq hg.symm)
      have hequal : g = hole := by
        cases g
        cases hole
        simp_all
      rw [hequal] at hahead
      exact lt_irrefl _ hahead
    · have hleft : leftOf hole size ≠ [] := by
        intro hnil
        simp only [hdropped, if_false, hnil, List.length_append, List.length_cons,
          List.length_nil] at hlen
        omega
      have hhole : hole.size ≠ size := by
        intro heq
        rw [leftOf, if_pos heq] at hleft
        exact hleft rfl
      have hstart : i32 (g.base + size) = g.base + size := i32_of_nonneg (by omega) (by omega)
      simp only [hdropped, if_false, List.cons_append, List.cons.injEq] at hcancel
      have hzero : size = 0 := by
        have := congrArg Hole.base hcancel.1
        simp only [hstart] at this
        omega
      have hg : g.size ≠ 0 := by
        intro hg
        rw [hg, hzero] at hdropped
        exact hdropped rfl
      have hapart := h.holes_apart
      rw [hlist, List.append_assoc, List.cons_append] at hapart
      have hboth := (List.pairwise_cons.1 (List.pairwise_append.1 hapart).2.1).1 hole (by simp)
      rw [apart_iff] at hboth
      apply hboth hole.base
      simp only [Hole.extent, Extent.stop]
      omega

/-- A request is refused exactly when it exceeds the sum of the hole sizes. -/
lemma answersWith_notEnoughMemory_iff (id pid : ℕ) (h : Layout m) (h₀ : 0 ≤ size)
    (hmax : size ≤ m.maxSegmentSize) :
    AnswersWith .notEnoughMemory id pid size m ↔ (m.holes.map Hole.size).sum < size := by
  constructor
  · rintro ⟨result, hresult, message, hmessage, hcode⟩
    by_contra hspace
    have hspace : size ≤ computeFreeSpace m.holes := not_lt.1 hspace
    by_cases hsmall : ∀ hole ∈ m.holes, hole.size < size
    · rw [createSegment_of_forall_lt id pid h h₀ hmax hspace hsmall] at hresult
      obtain ⟨compacted, hcompacted, rfl⟩ := Option.map_eq_some_iff.1 hresult
      obtain ⟨lastEnd, -, rfl⟩ := Option.map_eq_some_iff.1 hcompacted
      simp only [List.mem_cons, List.not_mem_nil, or_false] at hmessage
      rcases hmessage with rfl | rfl | rfl <;> exact absurd hcode (by decide)
    · push Not at hsmall
      obtain ⟨hole, hhole, hfits⟩ := hsmall
      obtain ⟨before, best, after, hlist, hbest⟩ := exists_firstBest hhole hfits
      rw [createSegment_of_firstBest id pid h h₀ hmax hspace hlist hbest] at hresult
      obtain rfl := Option.some.inj hresult
      obtain rfl := List.mem_singleton.1 hmessage
      exact absurd hcode (by decide)
  · intro hspace
    exact ⟨_, createSegment_of_lt id pid hmax hspace, _, List.mem_singleton_self _, rfl⟩

/-- A request that is not refused asks for a compaction exactly when no hole fits. -/
lemma asksForCompaction_iff (id pid : ℕ) (h : Layout m) (h₀ : 0 ≤ size)
    (hmax : size ≤ m.maxSegmentSize) (hspace : size ≤ (m.holes.map Hole.size).sum) :
    AsksForCompaction id pid size m ↔ ∀ hole ∈ m.holes, ¬ size ≤ hole.size := by
  constructor
  · intro hasks hole hhole hfits
    obtain ⟨before, best, after, hlist, hbest⟩ := exists_firstBest hhole hfits
    have hnotified := hasks _ (createSegment_of_firstBest id pid h h₀ hmax hspace hlist hbest)
    simp [notifyCompaction] at hnotified
  · intro hsmall result hresult
    rw [createSegment_of_forall_lt id pid h h₀ hmax hspace fun hole hhole =>
      not_le.1 (hsmall hole hhole)] at hresult
    obtain ⟨compacted, -, rfl⟩ := Option.map_eq_some_iff.1 hresult
    exact List.mem_cons_self

/-- The decision about a request of a size that the memory admits is the right one exactly when no
hole before the first best one has its base. -/
theorem decides_iff (id pid : ℕ) (h : Layout m) (h₀ : 0 ≤ size) (hmax : size ≤ m.maxSegmentSize) :
    Decides id pid size m ↔ Unshadowed size m := by
  have hint : size ≤ INT_MAX := hmax.trans h.max_range.2
  constructor
  · intro hdecides before hole after hlist hbest
    have hspace : size ≤ (m.holes.map Hole.size).sum :=
      hbest.fit.trans (h.le_sum (by simp [hlist]))
    have hasks : ¬ AsksForCompaction id pid size m := fun hasks =>
      (hdecides.compacted hspace).1 hasks hole (by simp [hlist]) hbest.fit
    obtain ⟨before', hole', after', hlist', hbest', hresult⟩ := hdecides.placed hspace hasks
    obtain ⟨rfl, rfl, rfl⟩ := hbest'.unique hbest (hlist'.symm.trans hlist)
    rw [createSegment_of_firstBest id pid h h₀ hmax hspace hlist hbest] at hresult
    have hholes : updateHoleTable hole' (u32 size) m.holes =
        before' ++ leftOf hole' size ++ after' :=
      congrArg MainMemory.holes (Prod.mk.inj (Option.some.inj hresult)).2
    exact unshadowed_of_updateHoleTable h h₀ hint hlist hbest hholes
  · intro hclear
    refine ⟨answersWith_notEnoughMemory_iff id pid h h₀ hmax, fun hspace result hresult => ?_,
      asksForCompaction_iff id pid h h₀ hmax, fun hspace hnot => ?_⟩
    · rw [createSegment_of_lt id pid hmax hspace] at hresult
      obtain rfl := Option.some.inj hresult
      exact ⟨rfl, rfl⟩
    · have hsome : ∃ hole ∈ m.holes, size ≤ hole.size := by
        by_contra hnone
        push Not at hnone
        exact hnot ((asksForCompaction_iff id pid h h₀ hmax hspace).2 fun hole hhole =>
          not_le.2 (hnone hole hhole))
      obtain ⟨hole, hhole, hfits⟩ := hsome
      obtain ⟨before, best, after, hlist, hbest⟩ := exists_firstBest hhole hfits
      refine ⟨before, best, after, hlist, hbest, ?_⟩
      have hu := u32_of_nonneg h₀ hint
      rw [createSegment_of_firstBest id pid h h₀ hmax hspace hlist hbest,
        updateHoleTable_of_first h hlist (hclear before best after hlist hbest) rfl
          (by rw [hu]; exact hbest.fit), hu]

/-- **The decision in every state reached** is the right one exactly when no hole before the first
best one has its base. -/
theorem decides_of_run (id pid : ℕ) {segmentMaxSize : ℤ} {k : KernelMemory}
    (hrange : 0 ≤ segmentMaxSize ∧ segmentMaxSize ≤ INT_MAX)
    (hstrategy : strategy = .best ∨ strategy = .worst)
    (h : Run kernelMemoryStep (EveryEdit fun m op => op.ShrinksChosen m)
      (initKernelMemoryData segmentMaxSize strategy) k)
    (h₀ : 0 ≤ size) (hmax : size ≤ k.mainMemory.maxSegmentSize) :
    Decides id pid size k.mainMemory ↔ Unshadowed size k.mainMemory :=
  decides_iff id pid (memoryInvariant_of_run hrange hstrategy h).layout h₀ hmax

/-- A request for four of the seven bytes left. -/
theorem decides_of_run_alloc :
    Decides 1 1 4 memoryWithSegment.mainMemory ↔ Unshadowed 4 memoryWithSegment.mainMemory :=
  decides_of_run 1 1 ⟨by decide, by decide⟩ (Or.inl rfl) run_memoryWithSegment (by decide)
    (by decide)

/-- The state before the last request of `emptyHoleEvents`. -/
def memoryWithEmptyHole : KernelMemory where
  mainMemory := ⟨10, 10, [⟨3, 1, 0, 3⟩], [⟨3, 0⟩, ⟨3, 7⟩], .best⟩
  connectedSticks := [tenBytes]
  swapData := none
  processes := []

/-- The best hole for four bytes is `(3, 7)`, and the hole `(3, 0)` before it is shrunk. -/
theorem not_decides_of_empty_hole :
    Reachable kernelMemoryStep (initKernelMemoryData 10 .best) memoryWithEmptyHole ∧
      4 ≤ memoryWithEmptyHole.mainMemory.maxSegmentSize ∧
      ¬ Decides 4 1 4 memoryWithEmptyHole.mainMemory := by
  have hrun : execute kernelMemoryStep (initKernelMemoryData 10 .best) emptyHoleEvents.dropLast =
      some memoryWithEmptyHole := by decide
  refine ⟨Run.of_execute hrun, by decide, fun h => ?_⟩
  have hcode : createSegment 4 1 4 memoryWithEmptyHole.mainMemory =
      some ([⟨.memoryAllocated, "Memory allocated"⟩], memoryWithOverlap.mainMemory) := by decide
  have hasks : ¬ AsksForCompaction 4 1 4 memoryWithEmptyHole.mainMemory := fun hasks =>
    absurd (hasks _ hcode) (by decide)
  obtain ⟨before, hole, after, hlist, hbest, hresult⟩ := h.placed (by decide) hasks
  have hholes : memoryWithOverlap.mainMemory.holes = before ++ leftOf hole 4 ++ after :=
    congrArg MainMemory.holes (Prod.mk.inj (Option.some.inj (hcode.symm.trans hresult))).2
  cases before with
  | nil =>
    obtain ⟨rfl, -⟩ := List.cons.inj hlist
    exact absurd hbest.fit (by decide)
  | cons g before =>
    obtain ⟨rfl, -⟩ := List.cons.inj hlist
    have hmem : (⟨3, 0⟩ : Hole) ∈ memoryWithOverlap.mainMemory.holes := by
      rw [hholes]
      exact List.mem_cons_self
    exact absurd hmem (by decide)

end OsSimulator.Memory
