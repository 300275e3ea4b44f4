import Mathlib.Tactic.IntervalCases
import OsSimulator.Memory.Suspension

set_option relaxedAutoImplicit false
set_option autoImplicit false

/-!
# What a resumption does

`resume_process` goes once through the block table. This file has the rule for its loop, and what
it has done when it stops at a position: the process's blocks before the position are free again,
and the segments that start with one of them are rebuilt, in the order of the table. From that it
decides when a failed resumption has changed nothing: there is no rollback either, so only a
failure at the first block of the process does.

## Main definitions

* `regenerateSegments` — the segments that start with the given blocks, one after another.
* `ResumedUpTo` — the state of the loop at a position of the table.

## Main results

* `resumeBlocks_rule` — the invariant rule of the loop.
* `resumeProcess_cases` — what a resumption that returns has done.
* `resume_failed_unchanged_iff` — when a failed resumption changed nothing.
-/

namespace OsSimulator.Memory

/-- The segments that start with the given blocks are regenerated one after another, if each of
them finds a hole. -/
def regenerateSegments (pid : ℕ) : List BlockData → MainMemory → Option MainMemory
  | [], memory => some memory
  | block :: rest, memory =>
    let regenerated := regenerateSegment block.segmentNumber pid block.segmentSize memory
    if regenerated.1 = none then regenerateSegments pid rest regenerated.2 else none

/-- The segments of two lists of blocks, one after the other. -/
lemma regenerateSegments_append (pid : ℕ) (l m : List BlockData) (memory : MainMemory) :
    regenerateSegments pid (l ++ m) memory =
      (regenerateSegments pid l memory).bind (regenerateSegments pid m) := by
  induction l generalizing memory with
  | nil => rfl
  | cons block rest ih =>
    simp only [List.cons_append, regenerateSegments]
    split
    · exact ih _
    · rfl

/-! ## The loop -/

/-- The message after the loop. -/
def resumeAnswer (processFound : Bool) : Message :=
  if processFound then ⟨.resumeSuspensionOk, ""⟩
  else ⟨.resumeSuspensionFailed,
    "The process was not resumed because its blocks found on disk."⟩

/-- All that a block that was restored may have sent. -/
lemma opCode_of_resumeBlock {block : BlockData} {pid : ℕ} {r r' : Resumption}
    {msgs : List Message} (h : resumeBlock block pid r = some (msgs, true, r')) :
    ∀ m ∈ msgs, m.opCode = .memoryCorrupted := by
  unfold resumeBlock at h
  dsimp only at h
  split at h
  · simp at h
  · simp at h
  · obtain ⟨writeAddress, -, heq⟩ := Option.map_eq_some_iff.1 h
    simp only [Prod.mk.injEq] at heq
    obtain ⟨rfl, hremoved, -⟩ := heq
    rw [hremoved]
    intro m hm
    split at hm <;> simp at hm
    exact hm ▸ rfl

/-- **The rule of the resumption loop.** An invariant of the position that skipped and restored
blocks keep holds at the end of the table, or where a block could not be restored.

**Proof sketch.** Induction on the positions that are left. -/
theorem resumeBlocks_rule {pid : ℕ} {I : ℕ → Bool → Resumption → Prop}
    (hskip : ∀ i found r block, I i found r → r.swapData.blockList[i]? = some block →
      block.pid ≠ pid → I (i + 1) found r)
    (hstep : ∀ i found r block msgs r', I i found r → r.swapData.blockList[i]? = some block →
      block.pid = pid → resumeBlock block pid r = some (msgs, true, r') → I (i + 1) true r')
    {n i : ℕ} {found : Bool} {r r' : Resumption} {msgs : List Message} (h₀ : I i found r)
    (h : resumeBlocks pid (List.range' i n) found r = some (msgs, r')) :
    ∃ sent last, msgs = sent ++ last ∧ (∀ m ∈ sent, m.opCode = .memoryCorrupted) ∧
      ((∃ found', I (i + n) found' r' ∧ last = [resumeAnswer found']) ∨
        ∃ j found' r₁ block, j < i + n ∧ I j found' r₁ ∧
          r₁.swapData.blockList[j]? = some block ∧ block.pid = pid ∧
          resumeBlock block pid r₁ = some (last, false, r')) := by
  induction n generalizing i found r msgs with
  | zero =>
    obtain ⟨rfl, rfl⟩ := Prod.mk.inj (Option.some.inj h)
    exact ⟨[], _, rfl, by simp, .inl ⟨found, h₀, rfl⟩⟩
  | succ n ih =>
    rw [List.range'_succ] at h
    obtain ⟨block, hblock, hrest⟩ := Option.bind_eq_some_iff.1 h
    have hshift : i + 1 + n = i + (n + 1) := by omega
    split at hrest
    · rename_i hpid
      obtain ⟨⟨sent, ok, r₁⟩, hresume, hafter⟩ := Option.bind_eq_some_iff.1 hrest
      cases ok with
      | true =>
        simp only [if_true] at hafter
        obtain ⟨⟨msgs', r₂⟩, hloop, heq⟩ := Option.map_eq_some_iff.1 hafter
        obtain ⟨rfl, rfl⟩ := Prod.mk.inj heq
        obtain ⟨sent', last, hmsgs, hsent, hend⟩ :=
          ih (hstep i found r block sent r₁ h₀ hblock hpid hresume) hloop
        refine ⟨sent ++ sent', last, ?_, fun m hm => ?_, hshift ▸ hend⟩
        · rw [List.append_assoc, ← hmsgs]
        · rcases List.mem_append.1 hm with hm | hm
          · exact opCode_of_resumeBlock hresume m hm
          · exact hsent m hm
      | false =>
        simp only [Bool.false_eq_true, if_false] at hafter
        obtain ⟨rfl, rfl⟩ := Prod.mk.inj (Option.some.inj hafter)
        exact ⟨[], sent, rfl, by simp,
          .inr ⟨i, found, r, block, by omega, h₀, hblock, hpid, hresume⟩⟩
    · rename_i hpid
      obtain ⟨sent, last, hmsgs, hsent, hend⟩ := ih (hskip i found r block h₀ hblock hpid) hrest
      exact ⟨sent, last, hmsgs, hsent, hshift ▸ hend⟩

/-! ## The state at a position -/

/-- A block of the process is free again, another one as it was. -/
def clearBlock (pid : ℕ) (block : BlockData) : BlockData :=
  if block.pid = pid then block.removed else block

/-- The loop has passed the first `i` blocks of the table: those of the process are free, the
segments that start with one of them are rebuilt, and nothing else of the tables has changed. -/
structure ResumedUpTo (pid : ℕ) (r₀ : Resumption) (i : ℕ) (r : Resumption) : Prop where
  swapData : r.swapData =
    { r₀.swapData with
      blockList := (r₀.swapData.blockList.take i).map (clearBlock pid) ++
        r₀.swapData.blockList.drop i }
  mainMemory : regenerateSegments pid
    ((r₀.swapData.blockList.take i).filter (BlockData.isFirst pid)) r₀.mainMemory =
      some r.mainMemory
  sticks : r.connectedSticks.map Stick.stickSize = r₀.connectedSticks.map Stick.stickSize
  untouched : (∀ block ∈ r₀.swapData.blockList.take i, block.pid ≠ pid) →
    r.connectedSticks = r₀.connectedSticks

variable {pid i : ℕ} {r₀ r r' : Resumption} {block : BlockData}

/-- At the start nothing is back. -/
lemma ResumedUpTo.zero (pid : ℕ) (r₀ : Resumption) : ResumedUpTo pid r₀ 0 r₀ :=
  ⟨rfl, rfl, rfl, fun _ => rfl⟩

/-- The records that were passed are free. -/
lemma ResumedUpTo.blockList (h : ResumedUpTo pid r₀ i r) :
    r.swapData.blockList = (r₀.swapData.blockList.take i).map (clearBlock pid) ++
      r₀.swapData.blockList.drop i :=
  congrArg SwapData.blockList h.swapData

/-- There are as many as before. -/
lemma ResumedUpTo.length_blockList (h : ResumedUpTo pid r₀ i r) :
    r.swapData.blockList.length = r₀.swapData.blockList.length := by
  rw [h.blockList, List.length_append, List.length_map, List.length_take, List.length_drop]
  omega

/-- The block at the position is the one of the beginning. -/
lemma ResumedUpTo.getElem? (h : ResumedUpTo pid r₀ i r) :
    r.swapData.blockList[i]? = r₀.swapData.blockList[i]? := by
  by_cases hi : i ≤ r₀.swapData.blockList.length
  · rw [h.blockList, List.getElem?_append_right (by simp), List.getElem?_drop]
    congr 1
    simp [hi]
  · have hlen := h.length_blockList
    rw [List.getElem?_eq_none (by omega), List.getElem?_eq_none (by omega)]

/-- A block of another process is passed. -/
lemma ResumedUpTo.skip (h : ResumedUpTo pid r₀ i r)
    (hblock : r₀.swapData.blockList[i]? = some block) (hpid : block.pid ≠ pid) :
    ResumedUpTo pid r₀ (i + 1) r := by
  obtain ⟨hi, rfl⟩ := List.getElem?_eq_some_iff.1 hblock
  refine ⟨?_, ?_, h.sticks, fun hnone => h.untouched fun b hb => hnone b ?_⟩
  · rw [h.swapData, List.take_succ_eq_append_getElem hi, List.map_append, List.append_assoc,
      List.drop_eq_getElem_cons hi]
    simp [clearBlock, hpid]
  · rw [List.take_succ_eq_append_getElem hi, List.filter_append]
    have hnot : BlockData.isFirst pid (r₀.swapData.blockList[i]) = false := by
      simp [BlockData.isFirst, hpid]
    simp [hnot, h.mainMemory]
  · rw [List.take_succ_eq_append_getElem hi]
    exact List.mem_append_left _ hb

/-- A regeneration fails with a failed resumption. -/
lemma opCode_of_regenerateSegment {id pid : ℕ} {size : ℤ} {memory memory' : MainMemory}
    {failure : Message} (h : regenerateSegment id pid size memory = (some failure, memory')) :
    failure.opCode = .resumeSuspensionFailed := by
  unfold regenerateSegment at h
  dsimp only at h
  split at h
  · obtain rfl := Option.some.inj (Prod.mk.inj h).1
    rfl
  · split at h
    · obtain rfl := Option.some.inj (Prod.mk.inj h).1
      rfl
    · exact absurd (Prod.mk.inj h).1 (by simp)

/-- The first `i + 1` blocks of the table, the last of which is one of the process. -/
lemma ResumedUpTo.succ {memory : MainMemory} {sticks : List Stick} (h : ResumedUpTo pid r₀ i r)
    (hblock : r₀.swapData.blockList[i]? = some block) (hpid : block.pid = pid)
    (hregen : if block.segmentBlockNumber = 0 then
        regenerateSegment block.segmentNumber pid block.segmentSize r.mainMemory = (none, memory)
      else memory = r.mainMemory)
    (hsticks : sticks.map Stick.stickSize = r.connectedSticks.map Stick.stickSize) :
    ResumedUpTo pid r₀ (i + 1) ⟨memory, sticks, (removeBlockFromSwap i r.swapData).2⟩ := by
  obtain ⟨hi, rfl⟩ := List.getElem?_eq_some_iff.1 hblock
  have hlen : ((r₀.swapData.blockList.take i).map (clearBlock pid)).length = i := by
    rw [List.length_map, List.length_take]
    omega
  refine ⟨?_, ?_, hsticks.trans h.sticks, fun hnone => absurd hpid (hnone _ ?_)⟩
  · simp only [removeBlockFromSwap, h.swapData]
    rw [List.drop_eq_getElem_cons hi]
    conv_lhs =>
      enter [1, 2]
      rw [← hlen]
    rw [modify_append_length, List.take_succ_eq_append_getElem hi, List.map_append,
      List.append_assoc]
    simp [clearBlock, hpid]
  · rw [List.take_succ_eq_append_getElem hi, List.filter_append, regenerateSegments_append,
      h.mainMemory, Option.bind_some]
    split at hregen
    · rename_i hfirst
      have hisFirst : BlockData.isFirst pid (r₀.swapData.blockList[i]) = true := by
        simp [BlockData.isFirst, hpid, hfirst]
      simp [hisFirst, regenerateSegments, hregen]
    · rename_i hnot
      have hisFirst : BlockData.isFirst pid (r₀.swapData.blockList[i]) = false := by
        simp [BlockData.isFirst, hnot]
      simp [hisFirst, regenerateSegments, hregen]
  · rw [List.take_succ_eq_append_getElem hi]
    exact List.mem_append_right _ (List.mem_singleton_self _)

/-- What a call of `resume_block` at the position has done: the block is restored, or its segment
found no hole. -/
lemma ResumedUpTo.resumeBlock {msgs : List Message} {ok : Bool} (h : ResumedUpTo pid r₀ i r)
    (hwf : r₀.swapData.WellFormed) (hblock : r₀.swapData.blockList[i]? = some block)
    (hpid : block.pid = pid) (hrun : resumeBlock block pid r = some (msgs, ok, r')) :
    (ok = true ∧ ResumedUpTo pid r₀ (i + 1) r') ∨
      (ok = false ∧ block.segmentBlockNumber = 0 ∧
        r' = { r with mainMemory := r'.mainMemory } ∧
        ∃ failure, msgs = [failure] ∧ failure.opCode = .resumeSuspensionFailed ∧
          regenerateSegment block.segmentNumber pid block.segmentSize r.mainMemory =
            (some failure, r'.mainMemory)) := by
  have hnumber : block.blockNumber = i := hwf.numbered i block hblock
  have hi : i < r₀.swapData.blockList.length := (List.getElem?_eq_some_iff.1 hblock).1
  have hlist : i < r.swapData.blockList.length := by
    rw [← h.getElem?] at hblock
    exact (List.getElem?_eq_some_iff.1 hblock).1
  have hdisk : r.swapData.disk = r₀.swapData.disk := by rw [h.swapData]
  obtain ⟨content, hcontent⟩ : ∃ content, r.swapData.disk[i]? = some content := by
    rw [hdisk]
    exact ⟨_, List.getElem?_eq_getElem (by rw [hwf.length_disk]; exact hi)⟩
  -- what is left to do once the segment is there
  have hrestored : ∀ memory : MainMemory,
      (if block.segmentBlockNumber = 0 then
        regenerateSegment block.segmentNumber pid block.segmentSize r.mainMemory = (none, memory)
      else memory = r.mainMemory) →
      (OsSimulator.Memory.resumeBlock block pid r = some (msgs, ok, r')) →
      ok = true ∧ ResumedUpTo pid r₀ (i + 1) r' := by
    intro memory hregen hrun
    have hregen' : (if block.segmentBlockNumber = 0 then
        regenerateSegment block.segmentNumber pid block.segmentSize r.mainMemory
      else (none, r.mainMemory)) = (none, memory) := by
      split at hregen
      · rename_i hfirst
        rw [if_pos hfirst, hregen]
      · rename_i hfirst
        rw [if_neg hfirst, hregen]
    unfold OsSimulator.Memory.resumeBlock at hrun
    simp only [hregen', hnumber, hcontent] at hrun
    obtain ⟨writeAddress, -, heq⟩ := Option.map_eq_some_iff.1 hrun
    simp only [Prod.mk.injEq] at heq
    obtain ⟨-, hok, rfl⟩ := heq
    refine ⟨?_, h.succ hblock hpid hregen (map_stickSize_writeToSticks _ _ _)⟩
    rw [← hok]
    simpa [removeBlockFromSwap] using hlist
  by_cases hfirst : block.segmentBlockNumber = 0
  · cases hregen : regenerateSegment block.segmentNumber pid block.segmentSize r.mainMemory with
    | mk failure memory =>
      cases failure with
      | none => exact .inl (hrestored memory (by rw [if_pos hfirst, hregen]) hrun)
      | some failure =>
        unfold OsSimulator.Memory.resumeBlock at hrun
        simp only [hfirst, if_true, hregen, Option.some.injEq, Prod.mk.injEq] at hrun
        obtain ⟨rfl, rfl, rfl⟩ := hrun
        exact .inr ⟨rfl, hfirst, rfl, failure, rfl, opCode_of_regenerateSegment hregen, rfl⟩
  · exact .inl (hrestored r.mainMemory (by rw [if_neg hfirst]) hrun)

/-- Without a block of the process before the position nothing has happened. -/
lemma ResumedUpTo.eq_of_forall_ne (h : ResumedUpTo pid r₀ i r)
    (hnone : ∀ block ∈ r₀.swapData.blockList.take i, block.pid ≠ pid) : r = r₀ := by
  have hclear : (r₀.swapData.blockList.take i).map (clearBlock pid) =
      r₀.swapData.blockList.take i :=
    (List.map_congr_left fun block hblock => if_neg (hnone block hblock)).trans (List.map_id _)
  have hfirst : (r₀.swapData.blockList.take i).filter (BlockData.isFirst pid) = [] := by
    rw [List.filter_eq_nil_iff]
    intro block hblock
    simp [BlockData.isFirst, hnone block hblock]
  have hmemory := h.mainMemory
  rw [hfirst] at hmemory
  have hswap := h.swapData
  rw [hclear, List.take_append_drop] at hswap
  exact Resumption.ext (Option.some.inj hmemory).symm (h.untouched hnone) hswap

/-! ## The blocks that are left -/

/-- The table with its contents at a position. -/
lemma ResumedUpTo.slots (h : ResumedUpTo pid r₀ i r)
    (hlen : r₀.swapData.disk.length = r₀.swapData.blockList.length) :
    r.swapData.slots = (r₀.swapData.slots.take i).map (fun slot => (clearBlock pid slot.1, slot.2)) ++
      r₀.swapData.slots.drop i := by
  have hdisk : r.swapData.disk = r₀.swapData.disk := by rw [h.swapData]
  unfold SwapData.slots
  rw [h.blockList, hdisk]
  conv_lhs => rw [← List.take_append_drop i r₀.swapData.disk]
  rw [List.zip_append (by simp [hlen]), List.zip_map_left]
  simp only [List.zip, List.take_zipWith, List.drop_zipWith]
  rfl

/-- A marked block is marked by its pid and segment number, so one that was freed is not. -/
lemma isMarked_clearBlock {p : ℕ → ℕ → Bool} (hp : ∀ n, p UINT32_MAX n = false)
    (slot : BlockData × List UInt8) :
    isMarked p (clearBlock pid slot.1, slot.2) = (isMarked p slot && slot.1.pid != pid) := by
  unfold isMarked clearBlock
  split
  · rename_i hpid
    simp [BlockData.removed, hp, hpid]
  · rename_i hpid
    simp [hpid]

/-- The blocks at a position of the loop: those of the process from the position on, and all the
others. -/
lemma ResumedUpTo.savedBlocks (h : ResumedUpTo pid r₀ i r) {p : ℕ → ℕ → Bool}
    (hp : ∀ n, p UINT32_MAX n = false)
    (hlen : r₀.swapData.disk.length = r₀.swapData.blockList.length) :
    savedBlocks p r.swapData =
      ((r₀.swapData.slots.take i).filter fun slot => isMarked p slot && slot.1.pid != pid).map
          BlockRecord.of ++
        ((r₀.swapData.slots.drop i).filter (isMarked p)).map BlockRecord.of := by
  show (r.swapData.slots.filter (isMarked p)).map BlockRecord.of = _
  rw [h.slots hlen, List.filter_append, List.map_append, List.filter_map]
  congr 1
  have hmark : (isMarked p ∘ fun slot : BlockData × List UInt8 => (clearBlock pid slot.1, slot.2)) =
      fun slot => isMarked p slot && slot.1.pid != pid := by
    funext slot
    exact isMarked_clearBlock hp slot
  rw [hmark, List.map_map]
  refine List.map_congr_left fun slot hslot => ?_
  have hpid : slot.1.pid ≠ pid := by
    have := (List.mem_filter.1 hslot).2
    simp only [Bool.and_eq_true, bne_iff_ne] at this
    exact this.2
  simp [BlockRecord.of, clearBlock, hpid]

/-- The blocks of other processes stay. -/
lemma ResumedUpTo.savedBlocks_of_not (h : ResumedUpTo pid r₀ i r) {p : ℕ → ℕ → Bool}
    (hp : ∀ n, p UINT32_MAX n = false)
    (hlen : r₀.swapData.disk.length = r₀.swapData.blockList.length) (hnot : ∀ n, p pid n = false) :
    OsSimulator.Memory.savedBlocks p r.swapData =
      OsSimulator.Memory.savedBlocks p r₀.swapData := by
  rw [h.savedBlocks hp hlen]
  have hmark : (fun slot : BlockData × List UInt8 => isMarked p slot && slot.1.pid != pid) =
      isMarked p := by
    funext slot
    by_cases hpid : slot.1.pid = pid
    · simp [isMarked, hpid, hnot]
    · simp [hpid]
  rw [hmark, ← List.map_append, ← List.filter_append, List.take_append_drop]
  rfl

/-- Of the blocks of the process those from the position on are left. -/
lemma ResumedUpTo.savedBlocks_of_pid (h : ResumedUpTo pid r₀ i r) {p : ℕ → ℕ → Bool}
    (hp : ∀ n, p UINT32_MAX n = false)
    (hlen : r₀.swapData.disk.length = r₀.swapData.blockList.length)
    (honly : ∀ q n, p q n = true → q = pid) :
    OsSimulator.Memory.savedBlocks p r.swapData =
      ((r₀.swapData.slots.drop i).filter (isMarked p)).map BlockRecord.of := by
  rw [h.savedBlocks hp hlen]
  have hmark : (fun slot : BlockData × List UInt8 => isMarked p slot && slot.1.pid != pid) =
      fun _ => false := by
    funext slot
    cases hmarked : isMarked p slot with
    | true => simp [honly _ _ hmarked]
    | false => rfl
  rw [hmark]
  simp

/-! ## A whole resumption -/

/-- The state of Kernel Memory after a resumption. -/
def Resumption.store (r : Resumption) (k : KernelMemory) : KernelMemory :=
  { k with
    mainMemory := r.mainMemory
    connectedSticks := r.connectedSticks
    swapData := some r.swapData }

/-- A resumption that returns found too little free space, went through the whole table, or
stopped at the first block of a segment that found no hole. -/
theorem resumeProcess_cases {k k' : KernelMemory} {swapData : SwapData} {msgs : List Message}
    (hswap : k.swapData = some swapData) (hwf : swapData.WellFormed)
    (h : resumeProcess pid k = some (msgs, k')) :
    (canResume pid swapData k.mainMemory = false ∧ k' = k ∧
        msgs = [⟨.resumeSuspensionFailed, "The process does not fit in memory"⟩]) ∨
      (canResume pid swapData k.mainMemory = true ∧ ∃ sent last i r,
        msgs = sent ++ [last] ∧ (∀ m ∈ sent, m.opCode = .memoryCorrupted) ∧
        ResumedUpTo pid ⟨k.mainMemory, k.connectedSticks, swapData⟩ i r ∧
        ((i = swapData.blockList.length ∧ k' = r.store k ∧
            last = resumeAnswer (swapData.blockList.any fun block => block.pid == pid)) ∨
          ∃ block memory, swapData.blockList[i]? = some block ∧ block.isFirst pid = true ∧
            regenerateSegment block.segmentNumber pid block.segmentSize r.mainMemory =
              (some last, memory) ∧
            last.opCode = .resumeSuspensionFailed ∧
            k' = Resumption.store { r with mainMemory := memory } k)) := by
  unfold resumeProcess at h
  simp only [hswap] at h
  split at h
  · rename_i hfits
    right
    refine ⟨hfits, ?_⟩
    obtain ⟨⟨msgs', rEnd⟩, hloop, heq⟩ := Option.map_eq_some_iff.1 h
    obtain ⟨rfl, rfl⟩ := Prod.mk.inj heq
    set r₀ : Resumption := ⟨k.mainMemory, k.connectedSticks, swapData⟩ with hr₀
    let I : ℕ → Bool → Resumption → Prop := fun i found r =>
      ResumedUpTo pid r₀ i r ∧ found = (swapData.blockList.take i).any fun block => block.pid == pid
    have hany : ∀ i block, swapData.blockList[i]? = some block →
        ((swapData.blockList.take (i + 1)).any fun block => block.pid == pid) =
          (((swapData.blockList.take i).any fun block => block.pid == pid) || block.pid == pid) := by
      intro i block hblock
      obtain ⟨hi, rfl⟩ := List.getElem?_eq_some_iff.1 hblock
      rw [List.take_succ_eq_append_getElem hi, List.any_append, List.any_cons, List.any_nil,
        Bool.or_false]
    rw [List.range_eq_range'] at hloop
    obtain ⟨sent, last, rfl, hsent, hend⟩ := resumeBlocks_rule (I := I)
      (fun i found r block hinv hblock hpid => by
        rw [hinv.1.getElem?] at hblock
        refine ⟨hinv.1.skip hblock hpid, ?_⟩
        rw [hany i block hblock, hinv.2]
        simp [hpid])
      (fun i found r block msgs r' hinv hblock hpid hrun => by
        rw [hinv.1.getElem?] at hblock
        rcases hinv.1.resumeBlock hwf hblock hpid hrun with ⟨-, hnext⟩ | ⟨hfalse, -⟩
        · refine ⟨hnext, ?_⟩
          rw [hany i block hblock]
          simp [hpid]
        · exact absurd hfalse (by simp))
      (show I 0 false r₀ from ⟨ResumedUpTo.zero pid r₀, by simp⟩) hloop
    rcases hend with ⟨found, ⟨hres, rfl⟩, rfl⟩ | ⟨j, found, r, block, -, ⟨hres, -⟩, hblock, hpid, hrun⟩
    · rw [Nat.zero_add] at hres
      refine ⟨sent, _, _, rEnd, rfl, hsent, hres, .inl ⟨rfl, rfl, ?_⟩⟩
      rw [Nat.zero_add, List.take_length]
    · rw [hres.getElem?] at hblock
      rcases hres.resumeBlock hwf hblock hpid hrun with ⟨htrue, -⟩ |
        ⟨-, hfirst, hrEnd, failure, rfl, hcode, hregen⟩
      · exact absurd htrue (by simp)
      · refine ⟨sent, failure, j, r, rfl, hsent, hres,
          .inr ⟨block, rEnd.mainMemory, hblock, ?_, hregen, hcode, ?_⟩⟩
        · simp [BlockData.isFirst, hpid, hfirst]
        · rw [← hrEnd]
          rfl
  · rename_i hfits
    obtain ⟨rfl, rfl⟩ := Prod.mk.inj (Option.some.inj h)
    exact .inl ⟨by simpa using hfits, rfl, rfl⟩

/-! ## A failed resumption -/

/-- The tables are as before, and so are the bytes of the processes other than `pid`. -/
def NothingChanged (pid : ℕ) (before after : KernelMemory) : Prop :=
  TablesUnchanged before after ∧
    ∀ s ∈ before.mainMemory.segments, s.pid ≠ pid → ∀ o : ℤ, 0 ≤ o → o < s.size →
      byteAt after.connectedSticks (s.base + o) = byteAt before.connectedSticks (s.base + o)

/-- `select_hole` is not reached or finds no hole for the size, and leaves the table as it is. -/
def FindsNoHole (size : ℤ) (memory : MainMemory) : Prop :=
  computeFreeSpace memory.holes < size ∨
    (selectHole (u32 size) memory).1.size = -1 ∧ (selectHole (u32 size) memory).2 = memory

/-- If the process fits in the free space and has blocks in swap, the first of them in the table
starts a segment for which there is no hole. -/
def FirstBlockFindsNoHole (pid : ℕ) (k : KernelMemory) : Prop :=
  ∀ swapData ∈ k.swapData, canResume pid swapData k.mainMemory = true →
    ∀ block ∈ swapData.blockList.find? fun block => block.pid == pid,
      block.segmentBlockNumber = 0 ∧ FindsNoHole block.segmentSize k.mainMemory

/-- A regeneration fails and leaves the memory exactly when no hole is found. -/
lemma findsNoHole_iff {id : ℕ} {size : ℤ} {memory : MainMemory} :
    FindsNoHole size memory ↔ ∃ failure, regenerateSegment id pid size memory =
      (some failure, memory) := by
  unfold FindsNoHole regenerateSegment
  by_cases hspace : computeFreeSpace memory.holes < size
  · simp [hspace]
  · by_cases hchosen : (selectHole (u32 size) memory).1.size = -1
    · simp [hspace, hchosen]
    · simp [hspace, hchosen]

/-- A regeneration that fails changes the holes at most. -/
lemma regenerateSegment_of_failure {id : ℕ} {size : ℤ} {memory memory' : MainMemory}
    {failure : Message} (h : regenerateSegment id pid size memory = (some failure, memory')) :
    memory' = { memory with holes := memory'.holes } := by
  unfold regenerateSegment at h
  dsimp only at h
  split at h
  · obtain ⟨-, rfl⟩ := Prod.mk.inj h
    rfl
  · split at h
    · obtain ⟨-, rfl⟩ := Prod.mk.inj h
      unfold selectHole
      split <;> rfl
    · exact absurd (Prod.mk.inj h).1 (by simp)

/-- The segment that starts with the first block of the process has been regenerated once the loop
is behind it. -/
lemma ResumedUpTo.regenerated_first {pre post : List BlockData} {memory : MainMemory}
    {failure : Message} (h : ResumedUpTo pid r₀ i r)
    (hlist : r₀.swapData.blockList = pre ++ block :: post) (hfirst : block.isFirst pid = true)
    (hpre : ∀ b ∈ pre, b.pid ≠ pid)
    (hfail : regenerateSegment block.segmentNumber pid block.segmentSize r₀.mainMemory =
      (some failure, memory)) : i ≤ pre.length := by
  by_contra hlt
  have hregen := h.mainMemory
  obtain ⟨n, rfl⟩ : ∃ n, i = pre.length + (n + 1) := ⟨i - pre.length - 1, by omega⟩
  have hnone : pre.filter (BlockData.isFirst pid) = [] := by
    rw [List.filter_eq_nil_iff]
    intro b hb
    simp [BlockData.isFirst, hpre b hb]
  rw [hlist, List.take_length_add_append, List.take_succ_cons, List.filter_append, hnone,
    List.nil_append, List.filter_cons_of_pos hfirst, regenerateSegments] at hregen
  simp [hfail] at hregen

/-- **A failed resumption.** For a well-formed block table, a resumption that answers with a
failure has changed nothing if and only if the process does not fit, has no block in swap, or
finds no hole for the segment of its first block.

**Proof sketch.** By `resumeProcess_cases` the failure of a process with blocks in swap is the
first block of a segment. If the loop has passed a block of the process before, that block is
free now and carried the pid before. -/
theorem resume_failed_unchanged_iff {k k' : KernelMemory} {msgs : List Message}
    (hwf : ∀ swapData ∈ k.swapData, swapData.WellFormed ∧ swapData.FreeUnused)
    (h : resumeProcess pid k = some (msgs, k'))
    (hfailed : ∃ m ∈ msgs, m.opCode = .resumeSuspensionFailed) :
    NothingChanged pid k k' ↔ FirstBlockFindsNoHole pid k := by
  cases hswap : k.swapData with
  | none =>
    unfold resumeProcess at h
    simp only [hswap, Option.some.injEq, Prod.mk.injEq] at h
    obtain ⟨-, rfl⟩ := h
    exact iff_of_true ⟨⟨rfl, rfl, rfl⟩, fun _ _ _ _ _ _ => rfl⟩ fun _ hs => by simp [hswap] at hs
  | some swapData =>
    obtain ⟨hwf, hfree⟩ := hwf swapData hswap
    simp only [FirstBlockFindsNoHole, hswap, Option.mem_def, Option.some.injEq, forall_eq']
    rcases resumeProcess_cases hswap hwf h with ⟨hfits, rfl, -⟩ |
      ⟨hfits, sent, last, i, r, rfl, hsent, hres, hend⟩
    · exact iff_of_true ⟨⟨rfl, rfl, rfl⟩, fun _ _ _ _ _ _ => rfl⟩ fun htrue => by
        rw [hfits] at htrue
        exact absurd htrue Bool.false_ne_true
    have hlastFailed : last.opCode = .resumeSuspensionFailed := by
      obtain ⟨m, hm, hcode⟩ := hfailed
      rcases List.mem_append.1 hm with hm | hm
      · rw [hsent m hm] at hcode
        exact absurd hcode (by decide)
      · exact (List.mem_singleton.1 hm) ▸ hcode
    simp only [hfits, true_implies]
    cases hfind : swapData.blockList.find? fun block => block.pid == pid with
    | none =>
      have hnone : ∀ block ∈ swapData.blockList, block.pid ≠ pid := by
        simpa using List.find?_eq_none.1 hfind
      have hr := hres.eq_of_forall_ne fun block hb => hnone block (List.mem_of_mem_take hb)
      rcases hend with ⟨-, rfl, -⟩ | ⟨block, memory, hblock, hfirst, -⟩
      · refine iff_of_true ?_ (by simp)
        rw [hr]
        exact ⟨⟨rfl, rfl, by rw [hswap]; rfl⟩, fun _ _ _ _ _ _ => rfl⟩
      · have hpid : block.pid = pid := by
          simp only [BlockData.isFirst, Bool.and_eq_true, beq_iff_eq] at hfirst
          exact hfirst.1
        exact absurd hpid (hnone block (List.mem_of_getElem? hblock))
    | some first =>
      obtain ⟨hpid, pre, post, hlist, hpre⟩ := List.find?_eq_some_iff_append.1 hfind
      have hpid : first.pid = pid := by simpa using hpid
      have hpre : ∀ b ∈ pre, b.pid ≠ pid := fun b hb => by simpa using hpre b hb
      have hfound : (swapData.blockList.any fun block => block.pid == pid) = true := by
        rw [hlist]
        simp [hpid]
      simp only [Option.some.injEq, forall_eq']
      rcases hend with ⟨-, -, rfl⟩ | ⟨block, memory, hblock, hfirst, hregen, -, rfl⟩
      · -- a resumption that went through the table has succeeded
        rw [hfound] at hlastFailed
        exact absurd hlastFailed (by decide)
      · simp only [BlockData.isFirst, Bool.and_eq_true, beq_iff_eq] at hfirst
        have hle : pre.length ≤ i := by
          by_contra hlt
          rw [hlist, List.getElem?_append_left (by omega)] at hblock
          exact hpre block (List.mem_of_getElem? hblock) hfirst.1
        have hreal : pid ≠ UINT32_MAX := by
          rintro rfl
          have := hfree block (List.mem_of_getElem? hblock) (by
            simp [BlockData.isFree, hfirst.1])
          omega
        constructor
        · rintro ⟨⟨hsegments, hholes, htable⟩, -⟩
          have hi : i = pre.length := by
            by_contra hne
            have hkept : r.swapData.blockList = swapData.blockList := by
              simpa [Resumption.store, hswap] using htable
            have hcleared : r.swapData.blockList[pre.length]? = some first.removed := by
              rw [hres.blockList, List.getElem?_append_left (by
                rw [List.length_map, List.length_take, hlist, List.length_append,
                  List.length_cons]
                omega), List.getElem?_map, List.getElem?_take_of_lt (by omega), hlist]
              simp [clearBlock, hpid]
            rw [hkept, hlist] at hcleared
            have heq : first = first.removed := by simpa using hcleared
            have : first.pid = UINT32_MAX := congrArg BlockData.pid heq
            exact hreal (hpid.symm.trans this)
          subst hi
          have hr := hres.eq_of_forall_ne fun b hb => hpre b (by simpa [hlist] using hb)
          obtain rfl : first = block := by simpa [hlist] using hblock
          rw [hr] at hregen
          have hmemory : memory = k.mainMemory := by
            rw [regenerateSegment_of_failure hregen]
            simp only [Resumption.store] at hholes
            rw [hholes]
          rw [hmemory] at hregen
          exact ⟨hfirst.2, findsNoHole_iff.2 ⟨last, hregen⟩⟩
        · rintro ⟨hzero, hnoHole⟩
          obtain ⟨failure, hfail⟩ := findsNoHole_iff.1 hnoHole
          have hi : i = pre.length := by
            refine le_antisymm (hres.regenerated_first hlist ?_ hpre hfail) hle
            simp [BlockData.isFirst, hpid, hzero]
          subst hi
          have hr := hres.eq_of_forall_ne fun b hb => hpre b (by simpa [hlist] using hb)
          obtain rfl : first = block := by simpa [hlist] using hblock
          rw [hr, hfail] at hregen
          obtain ⟨-, rfl⟩ := Prod.mk.inj hregen
          rw [hr]
          exact ⟨⟨rfl, rfl, by rw [hswap]; rfl⟩, fun _ _ _ _ _ _ => rfl⟩

/-- Process 1 is in swap with a segment of one byte and one of three, and the four free bytes of
the memory are two holes around a segment of process 2. -/
def memoryBeforeResumption : KernelMemory where
  mainMemory := ⟨6, 6, [⟨0, 2, 2, 2⟩], [⟨0, 2⟩, ⟨4, 2⟩], .best⟩
  connectedSticks := [⟨[10, 11, 12, 13, 14, 15]⟩]
  swapData := some ⟨[⟨0, 1, 0, 0, 1⟩, ⟨1, 1, 1, 0, 3⟩], 4, [[20, 0, 0, 0], [21, 22, 23, 0]]⟩
  processes := [1, 2]

/-- The same memory after the attempt: the first segment is back, and its block is free. -/
def memoryAfterFailedResumption : KernelMemory where
  mainMemory := ⟨6, 6, [⟨0, 2, 2, 2⟩, ⟨0, 1, 0, 1⟩], [⟨1, 1⟩, ⟨4, 2⟩], .best⟩
  connectedSticks := [⟨[20, 11, 12, 13, 14, 15]⟩]
  swapData := some ⟨[⟨0, UINT32_MAX, UINT32_MAX, -1, -1⟩, ⟨1, 1, 1, 0, 3⟩], 4,
    [[20, 0, 0, 0], [21, 22, 23, 0]]⟩
  processes := [1, 2]

/-- The answer to it. -/
def noHoleAllocated : Message := ⟨.resumeSuspensionFailed, "Could not allocate holes."⟩

/-- The second segment finds no hole, and the first one stays in memory. -/
theorem resume_failed_changes_tables :
    resumeProcess 1 memoryBeforeResumption =
        some ([noHoleAllocated], memoryAfterFailedResumption) ∧
      noHoleAllocated.opCode = .resumeSuspensionFailed ∧
      ¬ NothingChanged 1 memoryBeforeResumption memoryAfterFailedResumption :=
  ⟨by decide, rfl, fun h => absurd h.1 (by decide)⟩

/-- The swap of the example is well formed. -/
lemma wellFormed_memoryBeforeResumption :
    ∀ swapData ∈ memoryBeforeResumption.swapData,
      swapData.WellFormed ∧ swapData.FreeUnused := by
  intro swapData hswap
  obtain rfl := Option.some.inj hswap
  refine ⟨⟨by decide, fun i block hblock => ?_, rfl⟩, by unfold SwapData.FreeUnused; decide⟩
  have hi : i < 2 := (List.getElem?_eq_some_iff.1 hblock).1
  interval_cases i <;> exact (Option.some.inj hblock) ▸ rfl

/-- The equivalence at that attempt. -/
theorem resume_failed_unchanged_iff_fragmented :
    NothingChanged 1 memoryBeforeResumption memoryAfterFailedResumption ↔
      FirstBlockFindsNoHole 1 memoryBeforeResumption :=
  resume_failed_unchanged_iff wellFormed_memoryBeforeResumption
    (show resumeProcess 1 memoryBeforeResumption =
      some ([noHoleAllocated], memoryAfterFailedResumption) by decide)
    ⟨noHoleAllocated, by simp, rfl⟩

end OsSimulator.Memory
