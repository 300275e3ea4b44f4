import OsSimulator.Memory.Overlap

set_option relaxedAutoImplicit false
set_option autoImplicit false

/-!
# The names of the segments in memory

A segment is named by the process that owns it and the id the process gave it. The list of these
names is what the segment list of the main memory is for everybody who looks a segment up; this
file says what each edit does to it. A new name goes to the end, whether the memory was compacted
for it or not, and a removal takes the first occurrence.

## Main definitions

* `MainMemory.names` — the pids and ids of the segments, in list order.
* `idsOf pid names` — the ids of one process.

## Main results

* `names_createSegment`, `names_regenerateSegment`, `names_removeSegment`,
  `names_removeProcessSegments` — the names after an edit.
-/

namespace OsSimulator.Memory

variable {m m' : MainMemory}

/-- The names of the segments: the pid and the id of each. -/
def MainMemory.names (m : MainMemory) : List (ℕ × ℕ) := m.segments.map fun s => (s.pid, s.id)

/-- The ids of one process. -/
def idsOf (pid : ℕ) (names : List (ℕ × ℕ)) : List ℕ :=
  (names.filter fun name => name.1 == pid).map Prod.snd

/-- The ids of the table that a process's CPU gets. -/
lemma map_id_filterProcessSegments (pid : ℕ) (m : MainMemory) :
    (filterProcessSegments pid m).map Segment.id = idsOf pid m.names := by
  rw [idsOf, MainMemory.names, List.filter_map, List.map_map]
  rfl

/-- The ids of a process are those of its names. -/
lemma mem_idsOf {pid id : ℕ} {names : List (ℕ × ℕ)} : id ∈ idsOf pid names ↔ (pid, id) ∈ names := by
  simp [idsOf]

/-- A name more. -/
lemma idsOf_append_singleton (pid pid' id : ℕ) (names : List (ℕ × ℕ)) :
    idsOf pid (names ++ [(pid', id)]) =
      if pid' = pid then idsOf pid names ++ [id] else idsOf pid names := by
  unfold idsOf
  split
  · rename_i heq
    simp [heq]
  · rename_i hne
    simp [hne]

/-- A name less. -/
lemma idsOf_erase (pid pid' id : ℕ) (names : List (ℕ × ℕ)) :
    idsOf pid (names.erase (pid', id)) =
      if pid' = pid then (idsOf pid names).erase id else idsOf pid names := by
  induction names with
  | nil => simp [idsOf]
  | cons name rest ih =>
    obtain ⟨p, i⟩ := name
    unfold idsOf at ih ⊢
    by_cases hname : (p, i) = (pid', id)
    · obtain ⟨rfl, rfl⟩ := Prod.mk.inj hname
      by_cases hp : p = pid <;> simp [hp]
    · rw [List.erase_cons_tail (by simpa using hname)]
      by_cases hp : p = pid
      · subst hp
        simp only [List.filter_cons, beq_self_eq_true, if_true, List.map_cons, ih]
        split
        · rename_i heq
          have hi : i ≠ id := fun h => hname (by rw [heq, h])
          rw [List.erase_cons_tail (by simpa using hi)]
        · rfl
      · have hbeq : (p == pid) = false := by simpa using hp
        simp only [List.filter_cons, hbeq, Bool.false_eq_true, if_false, ih]

/-- The ids after a process lost all its segments. -/
lemma idsOf_filter_ne (pid pid' : ℕ) (names : List (ℕ × ℕ)) :
    idsOf pid (names.filter fun name => name.1 != pid') =
      if pid = pid' then [] else idsOf pid names := by
  unfold idsOf
  rw [List.filter_filter]
  split
  · rename_i heq
    subst heq
    rw [List.map_eq_nil_iff, List.filter_eq_nil_iff]
    intro name _
    simp
  · rename_i hne
    congr 1
    apply List.filter_congr
    intro name _
    by_cases hname : name.1 = pid
    · simp [hname, hne]
    · simp [hname]

/-! ## Edits -/

/-- A compaction moves segments and keeps their names. -/
lemma map_compactSegmentsFrom (base : ℤ) (segments : List Segment) :
    (compactSegmentsFrom base segments).map (fun s => (s.pid, s.id)) =
      segments.map fun s => (s.pid, s.id) := by
  induction segments generalizing base with
  | nil => rfl
  | cons s rest ih => simp only [compactSegmentsFrom, List.map_cons, ih]

/-- The names after `create_segment`: without the space the memory stays as it is, and otherwise
the new segment is the last one. -/
theorem names_createSegment {id pid : ℕ} {size : ℤ} {msgs : List Message}
    (h : createSegment id pid size m = some (msgs, m')) :
    (computeFreeSpace m.holes < size ∧ m' = m) ∨
      (¬ computeFreeSpace m.holes < size ∧ m'.names = m.names ++ [(pid, id)]) := by
  unfold createSegment at h
  dsimp only at h
  split at h
  · rename_i hspace
    obtain ⟨-, rfl⟩ := Prod.mk.inj (Option.some.inj h)
    exact .inl ⟨hspace, rfl⟩
  · rename_i hspace
    right
    refine ⟨hspace, ?_⟩
    split at h
    · obtain ⟨compacted, hcompact, heq⟩ := Option.map_eq_some_iff.1 h
      obtain ⟨-, rfl⟩ := Prod.mk.inj heq
      simp only [MainMemory.names, updateSegmentList_segments, selectHole_segments,
        compactMemory_segments hcompact, compactSegments, List.map_append,
        map_compactSegmentsFrom, List.map_cons, List.map_nil]
    · obtain ⟨-, rfl⟩ := Prod.mk.inj (Option.some.inj h)
      simp only [MainMemory.names, updateSegmentList_segments, selectHole_segments,
        List.map_append, List.map_cons, List.map_nil]

/-- `regenerate_segment` does not find the space for the segment, or a hole for it. -/
def RegenerationFails (size : ℤ) (m : MainMemory) : Prop :=
  computeFreeSpace m.holes < size ∨ (selectHole (u32 size) m).1.size = -1

/-- The names after `regenerate_segment`. -/
theorem names_regenerateSegment (id pid : ℕ) (size : ℤ) (m : MainMemory) :
    (RegenerationFails size m ∧ (regenerateSegment id pid size m).1 ≠ none ∧
        (regenerateSegment id pid size m).2.names = m.names) ∨
      (¬ RegenerationFails size m ∧ (regenerateSegment id pid size m).1 = none ∧
        (regenerateSegment id pid size m).2.names = m.names ++ [(pid, id)]) := by
  unfold RegenerationFails regenerateSegment
  by_cases hspace : computeFreeSpace m.holes < size
  · left
    simp [hspace]
  · by_cases hchosen : (selectHole (u32 size) m).1.size = -1
    · left
      simp [hspace, hchosen, MainMemory.names]
    · right
      simp [hspace, hchosen, MainMemory.names]

/-- The names after `remove_segment`. -/
theorem names_removeSegment (id pid : ℕ) (m : MainMemory) :
    (removeSegment id pid m).names = m.names.erase (pid, id) := by
  unfold removeSegment
  cases hfind : findAndRemoveSegment id pid m.segments with
  | none =>
    have hnot : (pid, id) ∉ m.names := by
      intro hmem
      obtain ⟨s, hs, heq⟩ := List.mem_map.1 hmem
      obtain ⟨rfl, rfl⟩ := Prod.mk.inj heq
      obtain ⟨pre, post, hlist⟩ := List.append_of_mem hs
      revert hfind
      rw [hlist]
      clear hmem heq hs hlist
      induction pre with
      | nil => simp [findAndRemoveSegment]
      | cons t pre ih =>
        simp only [List.cons_append, findAndRemoveSegment]
        split
        · simp
        · rw [Option.map_eq_none_iff]
          exact ih
    simp only [List.erase_of_not_mem hnot]
  | some found =>
    obtain ⟨s, rest⟩ := found
    obtain ⟨pre, post, hlist, hrest, rfl, rfl, hpre⟩ := of_findAndRemoveSegment hfind
    have hnot : (s.pid, s.id) ∉ pre.map fun t => (t.pid, t.id) := by
      intro hmem
      obtain ⟨t, ht, heq⟩ := List.mem_map.1 hmem
      obtain ⟨hp, hi⟩ := Prod.mk.inj heq
      exact hpre t ht ⟨hi, hp⟩
    simp only [MainMemory.names, hlist, hrest, List.map_append, List.map_cons]
    rw [List.erase_append_right _ hnot, List.erase_cons_head]

/-- The names after all the segments of a process were removed one after another.

**Proof sketch.** Induction on the segments to remove, which are always those the process has left:
the removal of the first one takes the first name of the process. -/
theorem names_removeProcessSegments (pid : ℕ) (m : MainMemory) :
    (removeProcessSegments (filterProcessSegments pid m) pid m).names =
      m.names.filter fun name => name.1 != pid := by
  generalize hsegments : filterProcessSegments pid m = segments
  have hids : idsOf pid m.names = segments.map Segment.id := by
    rw [← map_id_filterProcessSegments, hsegments]
  clear hsegments
  unfold removeProcessSegments
  induction segments generalizing m with
  | nil =>
    rw [List.map_nil] at hids
    refine (List.filter_eq_self.2 fun name hname => ?_).symm
    by_contra hpid
    have hmem : name.2 ∈ idsOf pid m.names := mem_idsOf.2 (by
      obtain rfl : name.1 = pid := by simpa using hpid
      exact hname)
    rw [hids] at hmem
    simp at hmem
  | cons s rest ih =>
    have hnext : idsOf pid (removeSegment s.id pid m).names = rest.map Segment.id := by
      rw [names_removeSegment, idsOf_erase, if_pos rfl, hids, List.map_cons, List.erase_cons_head]
    rw [List.foldl_cons, ih _ hnext, names_removeSegment]
    -- the erased name is one the filter drops
    have hdropped : ∀ names : List (ℕ × ℕ), (names.erase (pid, s.id)).filter (fun name => name.1 != pid) =
        names.filter fun name => name.1 != pid := by
      intro names
      induction names with
      | nil => rfl
      | cons name names ihn =>
        by_cases hname : name = (pid, s.id)
        · subst hname
          simp
        · rw [List.erase_cons_tail (by simpa using hname), List.filter_cons, List.filter_cons, ihn]
    exact hdropped m.names

/-- More memory leaves the names. -/
lemma names_addTotalMemory {n : ℤ} (h : addTotalMemory m n = some m') : m'.names = m.names := by
  unfold addTotalMemory at h
  split at h
  · obtain rfl := Option.some.inj h
    rfl
  · simp at h

end OsSimulator.Memory
