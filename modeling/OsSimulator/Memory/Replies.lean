import OsSimulator.Memory.MemoryOps
import OsSimulator.Memory.Restoration
import OsSimulator.Memory.StdIo

set_option relaxedAutoImplicit false
set_option autoImplicit false

/-!
# The replies of the scheduler's connection

`listen_scheduler` serves one request after another, and the scheduler waits for one reply of the
request's own kind. The replies are sent wherever the outcome is known, down to `resume_block`.
This file collects what each request sends and decides when that is one reply: the requests about
memory and processes send one as long as no null pointer is read, and `SUSPEND_PROCESS` of a pid
that is not in the list sends none.

## Main definitions

* `Request`, `Reply` — what arrives and what is sent.
* `Listener`, `serve` — the state of Kernel Memory and the handlers of the requests.
* `AnsweredOnce` — a request has exactly one reply of its kind, or none where none is awaited.
* `Answerable` — the condition on the request and the state.

## Main results

* `wellFormed_serve` — the requests keep the block table.
* `answeredOnce_iff` — the requests that are answered once.
* `suspend_unanswered` — a suspension without an answer.
-/

namespace OsSimulator.Memory

/-! ## The code -/

/-- A request of the scheduler, with the field that the script of a new process opens. What follows
the bytes of a `STDOUT` in the allocation is `leftovers`. -/
inductive Request
  | newProcess (pid : UInt32) (scriptOpens : Bool)
  | createSegment (segmentId pid size : UInt32)
  | deleteSegment (segmentId pid : UInt32)
  | ioStdin (pid bytesToRead logicalAddress : UInt32) (writeBuffer : List UInt8)
  | ioStdout (pid bytesToWrite logicalAddress : UInt32) (leftovers : List UInt8)
  | endProcess (pid : UInt32)
  | requestFreeMemory
  | requestProcessSize (pid : UInt32)
  | suspendProcess (pid : UInt32)
  | resumeSuspendedProcess (pid : UInt32)
  | kernelMemoryRunning
  deriving DecidableEq, Repr

/-- A message to the scheduler. -/
inductive Reply
  | processStarted (text : String)
  | message (message : Message)
  | io (message : IoMessage)
  | freeMemory (size : ℤ)
  | processSize (size : ℤ)
  deriving DecidableEq, Repr

/-- The state of Kernel Memory as the listener finds it. A process whose script could not be opened
is a null pointer in the list. -/
structure Listener where
  processes : List (Option ℕ)
  mainMemory : MainMemory
  connectedSticks : List Stick
  swapData : Option SwapData
  deriving DecidableEq, Repr

/-- The state with the processes that are there. -/
def Listener.kernelMemory (l : Listener) : KernelMemory :=
  ⟨l.mainMemory, l.connectedSticks, l.swapData, l.processes.filterMap id⟩

/-- The listener's state with the memory, the sticks and the swap of `k`. -/
def Listener.withMemory (l : Listener) (k : KernelMemory) : Listener :=
  ⟨l.processes, k.mainMemory, k.connectedSticks, k.swapData⟩

/-- What a request has sent and left, and whether the listener goes on. -/
structure Served where
  replies : List Reply
  listener : Listener
  connectionAlive : Bool
  deriving DecidableEq, Repr

/-- `find_process`: whether the process is in the list; a null pointer in front of it is read. -/
def findProcess (pid : ℕ) : List (Option ℕ) → Option Bool
  | [] => some false
  | none :: _ => none
  | some process :: rest => if process = pid then some true else findProcess pid rest

/-- `compute_process_size`. -/
def computeProcessSize (pid : ℕ) (mainMemory : MainMemory) : ℤ :=
  ((filterProcessSegments pid mainMemory).map Segment.size).sum

/-- A handler that sends messages. -/
def Listener.answer (l : Listener) (outcome : List Message × KernelMemory) : Served :=
  ⟨outcome.1.map .message, l.withMemory outcome.2, true⟩

/-- A handler that transfers bytes. -/
def Listener.answerIo (l : Listener) (outcome : IoOutcome) : Served :=
  ⟨outcome.messages.map .io, { l with connectedSticks := outcome.connectedSticks },
    outcome.connectionAlive⟩

/-- `handle_end_process` on a list with null pointers. -/
def endProcess (pid : ℕ) (l : Listener) : Option Served :=
  (findProcess pid l.processes).map fun found =>
    if found then
      ⟨[], { l with
        processes := l.processes.erase (some pid)
        mainMemory :=
          removeProcessSegments (filterProcessSegments pid l.mainMemory) pid l.mainMemory }, true⟩
    else ⟨[], l, true⟩

/-- `handle_request_process_size`: a process that is not in the list has the size 0. -/
def requestProcessSize (pid : ℕ) (l : Listener) : Option Served :=
  (findProcess pid l.processes).map fun found =>
    ⟨[.processSize (if found then computeProcessSize pid l.mainMemory else 0)], l, true⟩

/-- `handle_suspend_process` on a list with null pointers: `suspend_process` of a process that was
not found sends nothing. -/
def suspendFound (pid : ℕ) (l : Listener) : Option Served :=
  (findProcess pid l.processes).bind fun found =>
    if found then
      (suspendProcess pid l.kernelMemory).map fun suspended =>
        l.answer ([suspended.1], suspended.2)
    else some ⟨[], l, true⟩

/-- The branches of `listen_scheduler`; `none` is a handler that does not return. -/
def serve : Request → Listener → Option Served
  | .newProcess pid scriptOpens, l =>
    some ⟨[.processStarted "Process created"],
      { l with processes := l.processes ++ [if scriptOpens then some pid.toNat else none] }, true⟩
  | .createSegment segmentId pid size, l =>
    (handleCreateSegment segmentId.toNat pid.toNat size.toNat l.kernelMemory).map l.answer
  | .deleteSegment segmentId pid, l =>
    let deleted := handleDeleteSegment segmentId.toNat pid.toNat l.kernelMemory
    some (l.answer ([deleted.1], deleted.2))
  | .ioStdin pid bytesToRead logicalAddress writeBuffer, l =>
    (handleStdinRequest pid.toNat bytesToRead logicalAddress writeBuffer l.kernelMemory).map
      l.answerIo
  | .ioStdout pid bytesToWrite logicalAddress leftovers, l =>
    (handleStdoutRequest pid.toNat bytesToWrite logicalAddress leftovers l.kernelMemory).map
      l.answerIo
  | .endProcess pid, l => endProcess pid.toNat l
  | .requestFreeMemory, l =>
    some ⟨[.freeMemory (computeFreeSpace l.mainMemory.holes)], l, true⟩
  | .requestProcessSize pid, l => requestProcessSize pid.toNat l
  | .suspendProcess pid, l => suspendFound pid.toNat l
  | .resumeSuspendedProcess pid, l => (resumeProcess pid.toNat l.kernelMemory).map l.answer
  | .kernelMemoryRunning, l => some ⟨[], l, true⟩

/-! ## Exactly one reply -/

/-- Whether the scheduler waits for a reply. -/
def Request.awaitsReply : Request → Bool
  | .endProcess _ | .kernelMemoryRunning => false
  | _ => true

/-- A message of the compaction dialogue, after which the reply is still to come. -/
def Reply.isDialogue : Reply → Bool
  | .message m => m.opCode == .compactionNeeded || m.opCode == .compactionDone
  | _ => false

/-- The replies of a request's own kind. -/
def Request.isReply : Request → Reply → Bool
  | .newProcess _ _, .processStarted _ => true
  | .createSegment _ _ _, .message m =>
    m.opCode ∈ [OpCode.segmentSizeExceeded, .notEnoughMemory, .memoryAllocated]
  | .deleteSegment _ _, .message m => m.opCode == .memoryFreed
  | .ioStdin _ _ _ _, .io (.stdinResponse _) => true
  | .ioStdout _ _ _ _, .io (.stdoutResponse _) => true
  | .requestFreeMemory, .freeMemory _ => true
  | .requestProcessSize _, .processSize _ => true
  | .suspendProcess _, .message m => m.opCode ∈ [OpCode.suspensionOk, .suspensionFailed]
  | .resumeSuspendedProcess _, .message m =>
    m.opCode ∈ [OpCode.resumeSuspensionOk, .resumeSuspensionFailed]
  | _, _ => false

/-- What a request has sent besides the compaction dialogue. -/
def Served.final (served : Served) : List Reply :=
  served.replies.filter fun reply => !reply.isDialogue

/-- The request returns with exactly one reply, of its own kind; one that awaits no reply sends
none. -/
def AnsweredOnce (request : Request) (l : Listener) : Prop :=
  if request.awaitsReply then
    ∃ served reply, serve request l = some served ∧ served.final = [reply] ∧
      request.isReply reply = true
  else ∀ served ∈ serve request l, served.final = []

/-! ## The condition -/

/-- The sticks have every byte of the range; an empty range has none. -/
def InSticks (sticks : List Stick) (physicalAddress : ℤ) (n : ℕ) : Prop :=
  n = 0 ∨ 0 ≤ physicalAddress ∧ physicalAddress + n ≤ ((sticks.map Stick.stickSize).sum : ℕ)

instance (sticks : List Stick) (physicalAddress : ℤ) (n : ℕ) :
    Decidable (InSticks sticks physicalAddress n) :=
  inferInstanceAs (Decidable (_ ∨ _ ∧ _))

/-- The size is refused at once, or it is not above the limit as an `int` either, and there is a
segment to compact unless no compaction is needed. -/
def CreateAnswerable (size : ℕ) (m : MainMemory) : Prop :=
  u32 m.maxSegmentSize < size ∨
    i32 size ≤ m.maxSegmentSize ∧
      (m.segments = [] → i32 size ≤ computeFreeSpace m.holes →
        (selectHole (u32 (i32 size)) m).1.size ≠ -1)

/-- The address is refused, or the sticks have the bytes. A negative count has no bytes, and its
text must be empty. -/
def StdinAnswerable (pid : ℕ) (count logicalAddress : UInt32) (writeBuffer : List UInt8)
    (l : Listener) : Prop :=
  UInt32.ofInt l.mainMemory.maxSegmentSize ≠ 0 ∧
    ∀ physicalAddress ∈ translateLogicalAddress pid logicalAddress l.mainMemory,
      physicalAddress = -1 ∨
        if i32 count.toNat < 0 then writeBuffer.takeWhile (· ≠ 0) = []
        else InSticks l.connectedSticks physicalAddress (i32 count.toNat).toNat

/-- There are free blocks for `n` blocks of the process. One with the pid of a free block leaves
the blocks free. -/
def BlocksFit (pid n : ℕ) (swapData : SwapData) : Prop :=
  n ≤ swapData.blockList.countP BlockData.isFree ∨
    pid = UINT32_MAX ∧ 0 < swapData.blockList.countP BlockData.isFree

/-- Behind `used` blocks of the process, the segments' block counts are no overflow, and the sticks
have the bytes of every block that finds a free one. -/
def SwapsOut (pid : ℕ) (sticks : List Stick) (swapData : SwapData) : ℕ → List Segment → Prop
  | _, [] => True
  | used, segment :: rest =>
    let segmentBlocks := segmentBlockCount segment.size swapData.blockSize
    segment.size + swapData.blockSize ≤ INT_MAX ∧
      (∀ i < segmentBlocks, BlocksFit pid (used + i + 1) swapData →
        InSticks sticks (segment.base + i * swapData.blockSize)
          (blockBytes segment.size swapData.blockSize i)) ∧
      (BlocksFit pid (used + segmentBlocks) swapData →
        SwapsOut pid sticks swapData (used + segmentBlocks) rest)

/-- If the block is one of the process that is reached, it finds its segment, and the sticks have
the place it goes to. -/
def BlockSwapsIn (pid : ℕ) (r : Resumption) (i : ℕ) : Prop :=
  ∀ (block : BlockData) (content : List UInt8), r.swapData.blockList[i]? = some block →
    r.swapData.disk[i]? = some content → block.pid = pid →
    ∀ memory, regenerateSegments pid
        ((r.swapData.blockList.take (i + 1)).filter (BlockData.isFirst pid)) r.mainMemory =
          some memory →
      ∃ writeAddress, computeAddressWithOffset r.swapData.blockSize memory pid block =
          some writeAddress ∧
        InSticks r.connectedSticks writeAddress (content.take
          (blockBytes block.segmentSize r.swapData.blockSize block.segmentBlockNumber)).length

/-- The condition under which a request is answered once. -/
def Answerable : Request → Listener → Prop
  | .createSegment _ _ size, l => CreateAnswerable size.toNat l.mainMemory
  | .ioStdin pid bytesToRead logicalAddress writeBuffer, l =>
    StdinAnswerable pid.toNat bytesToRead logicalAddress writeBuffer l
  | .ioStdout _ _ _ _, l => UInt32.ofInt l.mainMemory.maxSegmentSize ≠ 0
  | .requestProcessSize pid, l => findProcess pid.toNat l.processes ≠ none
  | .suspendProcess pid, l =>
    findProcess pid.toNat l.processes = some true ∧ ∀ swapData ∈ l.swapData,
      SwapsOut pid.toNat l.connectedSticks swapData 0 (filterProcessSegments pid.toNat l.mainMemory)
  | .resumeSuspendedProcess pid, l =>
    ∀ swapData ∈ l.swapData, canResume pid.toNat swapData l.mainMemory = true →
      ∀ i, BlockSwapsIn pid.toNat ⟨l.mainMemory, l.connectedSticks, swapData⟩ i
  | .newProcess _ _, _ | .deleteSegment _ _, _ | .endProcess _, _ | .requestFreeMemory, _
  | .kernelMemoryRunning, _ => True

/-! ## Transfers -/

/-- The rounds of `read_from_sticks` succeed only on a range of the address space. -/
lemma inSticks_of_readLoop {sticks : List Stick} {rounds n : ℕ} {address : ℤ}
    {bytes : List UInt8} (h : readLoop sticks rounds address n = some bytes) :
    InSticks sticks address n := by
  induction rounds generalizing address n bytes with
  | zero =>
    cases n with
    | zero => exact .inl rfl
    | succ n => simp [readLoop] at h
  | succ rounds ih =>
    cases n with
    | zero => exact .inl rfl
    | succ n =>
      rw [readLoop] at h
      have ha : 0 ≤ address := by
        by_contra hneg
        rw [findStick, findStickFrom_of_neg sticks 0 (not_le.1 hneg)] at h
        simp at h
      obtain ⟨k, rfl⟩ := Int.eq_ofNat_of_zero_le ha
      have hk : k < (bytesOf sticks).length := by
        by_contra hge
        rw [findStick_of_ge (not_lt.1 hge)] at h
        simp at h
      obtain ⟨i, off, stick, hfind, hget, hoff, hpos⟩ := findStick_of_lt hk
      simp only [hfind, hget] at h
      obtain ⟨tail, htail, -⟩ := Option.map_eq_some_iff.1 h
      have hend : (bytesOf (sticks.take i)).length + stick.stickSize ≤ (bytesOf sticks).length := by
        rw [bytesOf_split hget, List.length_append, List.length_append, Stick.stickSize]
        omega
      have hrest := ih htail
      unfold InSticks at hrest ⊢
      rw [← length_bytesOf] at hrest ⊢
      unfold stickChunkSize at hrest
      omega

/-- `read_from_sticks` succeeds exactly on a range of the address space. -/
lemma isSome_readFromSticks {sticks : List Stick} {address : ℤ} {n : ℕ} :
    (readFromSticks address n sticks).isSome ↔ InSticks sticks address n := by
  constructor
  · intro h
    obtain ⟨bytes, hbytes⟩ := Option.isSome_iff_exists.1 h
    exact inSticks_of_readLoop hbytes
  · rintro (rfl | ⟨ha, hend⟩)
    · simp [readFromSticks, readLoop]
    · obtain ⟨k, rfl⟩ := Int.eq_ofNat_of_zero_le ha
      rw [← length_bytesOf] at hend
      rw [readFromSticks_eq (by omega)]
      rfl

/-- The rounds of `write_to_sticks` find a stick for every byte exactly when the sticks have the
range. -/
lemma writeLoop_fst {sticks : List Stick} {off : ℕ} {bs : List UInt8}
    (hoff : ∀ s ∈ sticks.head?, off ≤ s.stickSize) :
    (writeLoop off bs sticks).1 = true ↔ bs = [] ∨ off + bs.length ≤ (bytesOf sticks).length := by
  induction sticks generalizing off bs with
  | nil => cases bs <;> simp [writeLoop]
  | cons s rest ih =>
    cases bs with
    | nil => simp [writeLoop]
    | cons b bs =>
      have hs : off ≤ s.memory.length := hoff s (by simp)
      simp only [writeLoop]
      rw [ih fun _ _ => Nat.zero_le _]
      simp only [reduceCtorEq, false_or, List.drop_eq_nil_iff, List.length_drop, List.length_cons,
        bytesOf_cons, List.length_append, stickChunkSize, Stick.stickSize]
      omega

/-- `write_to_sticks` finds a stick for every byte exactly when the sticks have the range. -/
lemma writeToSticks_fst {sticks : List Stick} {address : ℤ} {bs : List UInt8} :
    (writeToSticks address bs sticks).1 = true ↔ InSticks sticks address bs.length := by
  cases bs with
  | nil => simp [writeToSticks, InSticks]
  | cons b bs =>
    unfold InSticks
    rw [← length_bytesOf, List.length_cons]
    by_cases ha : 0 ≤ address
    · obtain ⟨k, rfl⟩ := Int.eq_ofNat_of_zero_le ha
      by_cases hk : k < (bytesOf sticks).length
      · obtain ⟨i, off, stick, hfind, hget, hoff, hpos⟩ := findStick_of_lt hk
        have hhead : ∀ s ∈ (sticks.drop i).head?, off ≤ s.stickSize := by
          intro s hs
          rw [List.head?_drop, hget] at hs
          exact Option.some.inj hs ▸ hoff.le
        have hsplit : bytesOf sticks = bytesOf (sticks.take i) ++ bytesOf (sticks.drop i) := by
          rw [← bytesOf_append, List.take_append_drop]
        have hlen := congrArg List.length hsplit
        rw [List.length_append] at hlen
        simp only [writeToSticks, hfind]
        rw [writeLoop_fst hhead]
        simp only [reduceCtorEq, false_or, List.length_cons]
        omega
      · simp only [writeToSticks, findStick_of_ge (not_lt.1 hk), Bool.false_eq_true, false_iff]
        omega
    · simp only [writeToSticks, findStick, findStickFrom_of_neg sticks 0 (not_le.1 ha),
        Bool.false_eq_true, false_iff]
      omega

/-! ## Suspensions -/

/-- No block more fits in a full table. -/
lemma not_blocksFit_of_full {pid n : ℕ} {swapData : SwapData}
    (h : swapData.blockList.countP BlockData.isFree = 0) : ¬ BlocksFit pid (n + 1) swapData := by
  unfold BlocksFit
  omega

/-- The room that is left when a record of the process is stored. -/
lemma blocksFit_storeRecord {record : BlockRecord} {swapData swapData' : SwapData}
    (h : storeRecord record swapData = some swapData') (n : ℕ) :
    BlocksFit record.pid n swapData' ↔ BlocksFit record.pid (n + 1) swapData := by
  have hpos : swapData.blockList.countP BlockData.isFree ≠ 0 := by
    intro hzero
    rw [storeRecord_eq_none.2 hzero] at h
    simp at h
  unfold BlocksFit
  by_cases hpid : record.pid = UINT32_MAX
  · have hcount := countP_isFree_storeRecord_of_eq h hpid
    omega
  · have hcount := countP_isFree_storeRecord h hpid
    omega

/-- Records of the process are all stored exactly when there is room for them, and what is left is
the room behind them. -/
lemma blocksFit_storeRecords {pid : ℕ} {records : List BlockRecord} {swapData : SwapData}
    (hpid : ∀ record ∈ records, record.pid = pid) :
    ((storeRecords records swapData).1 = true ↔ BlocksFit pid records.length swapData) ∧
      ((storeRecords records swapData).1 = true → ∀ n,
        BlocksFit pid n (storeRecords records swapData).2 ↔
          BlocksFit pid (records.length + n) swapData) := by
  induction records generalizing swapData with
  | nil => simp [storeRecords, BlocksFit]
  | cons record rest ih =>
    have hrecord : record.pid = pid := hpid record List.mem_cons_self
    rw [storeRecords, List.length_cons]
    cases hstore : storeRecord record swapData with
    | none =>
      have hfull : ¬ BlocksFit pid (rest.length + 1) swapData :=
        not_blocksFit_of_full (storeRecord_eq_none.1 hstore)
      simp [hfull]
    | some swapData' =>
      obtain ⟨hok, hleft⟩ := @ih swapData' fun r hr => hpid r (List.mem_cons_of_mem record hr)
      have hone := blocksFit_storeRecord hstore
      rw [hrecord] at hone
      refine ⟨hok.trans (hone _), fun hstored n => ?_⟩
      rw [hleft hstored n, hone, Nat.add_right_comm]

/-- The rounds of `suspend_segment` return exactly when the sticks have the bytes of every block
that finds a free one. -/
lemma isSome_suspendSegmentLoop {segment : Segment} {sticks : List Stick} {rounds i : ℕ}
    {swapData : SwapData} :
    (suspendSegmentLoop segment sticks rounds i swapData).isSome ↔
      ∀ j < rounds, BlocksFit segment.pid (j + 1) swapData →
        InSticks sticks (segment.base + (i + j : ℕ) * swapData.blockSize)
          (blockBytes segment.size swapData.blockSize (i + j : ℕ)) := by
  induction rounds generalizing i swapData with
  | zero => simp [suspendSegmentLoop]
  | succ rounds ih =>
    rw [suspendSegmentLoop]
    cases hfree : findFreeBlock swapData with
    | none =>
      have hfull : storeRecord (blockRecord sticks swapData.blockSize segment i) swapData = none := by
        rw [storeRecord, hfree]
        rfl
      have hnot (j : ℕ) : ¬ BlocksFit segment.pid (j + 1) swapData :=
        not_blocksFit_of_full (storeRecord_eq_none.1 hfull)
      simp [addBlockToSwap, hfree, hnot]
    | some n =>
      simp only [addBlockToSwap, hfree, Option.map_some]
      cases hread : readFromSticks (segment.base + i * swapData.blockSize)
          (blockBytes segment.size swapData.blockSize i) sticks with
      | none =>
        simp only [Option.bind_none, Option.isSome_none, Bool.false_eq_true, false_iff]
        intro hall
        have hpos : swapData.blockList.countP BlockData.isFree ≠ 0 := by
          intro hzero
          have hnone : storeRecord (blockRecord sticks swapData.blockSize segment i) swapData =
              none := storeRecord_eq_none.2 hzero
          rw [storeRecord, hfree] at hnone
          simp at hnone
        have hin := hall 0 (Nat.succ_pos _) (.inl (by omega))
        rw [Nat.add_zero, ← isSome_readFromSticks, hread] at hin
        simp at hin
      | some bytes =>
        have hstore : storeRecord ⟨segment.pid, segment.id, i, segment.size,
            bytes ++ List.replicate (swapData.blockSize - bytes.length) 0⟩ swapData =
          some (writeBlockToSwap n bytes { swapData with
            blockList := swapData.blockList.modify n fun freeBlock =>
              { freeBlock with
                pid := segment.pid
                segmentNumber := segment.id
                segmentBlockNumber := (i : ℤ)
                segmentSize := segment.size } }) := by
          rw [storeRecord, hfree]
          rfl
        have hroom := blocksFit_storeRecord hstore
        rw [Option.bind_some, ih]
        simp only [writeBlockToSwap]
        have hfirst := isSome_readFromSticks.1 (Option.isSome_iff_exists.2 ⟨bytes, hread⟩)
        constructor
        · intro hall j hj hfit
          cases j with
          | zero => exact hfirst
          | succ j =>
            have hin := hall j (by omega) ((hroom _).2 hfit)
            rwa [Nat.add_assoc, Nat.add_comm 1 j] at hin
        · intro hall j hj hfit
          have hin := hall (j + 1) (by omega) ((hroom _).1 hfit)
          rwa [Nat.add_comm j 1, ← Nat.add_assoc] at hin

/-- `suspend_segment` returns exactly when the block count is no overflow and the sticks have the
bytes of every block that finds a free one. -/
lemma isSome_suspendSegment {segment : Segment} {sticks : List Stick} {swapData : SwapData}
    (hpos : 0 < swapData.blockSize) :
    (suspendSegment segment sticks swapData).isSome ↔
      segment.size + swapData.blockSize ≤ INT_MAX ∧
        ∀ i < segmentBlockCount segment.size swapData.blockSize,
          BlocksFit segment.pid (i + 1) swapData →
            InSticks sticks (segment.base + i * swapData.blockSize)
              (blockBytes segment.size swapData.blockSize i) := by
  rw [suspendSegment]
  split
  · simp only [Option.isSome_none, Bool.false_eq_true, false_iff]
    omega
  · rw [isSome_suspendSegmentLoop]
    simp only [Nat.zero_add]
    exact ⟨fun h => ⟨by omega, h⟩, fun h => h.2⟩

/-- What `suspend_segment` leaves: the room behind the blocks of the segment. -/
lemma blocksFit_suspendSegment {segment : Segment} {sticks : List Stick}
    {swapData : SwapData} {suspended : Bool × SwapData}
    (h : suspendSegment segment sticks swapData = some suspended) :
    suspended.2.blockSize = swapData.blockSize ∧
      (suspended.1 = true ↔
        BlocksFit segment.pid (segmentBlockCount segment.size swapData.blockSize) swapData) ∧
      (suspended.1 = true → ∀ n, BlocksFit segment.pid n suspended.2 ↔
        BlocksFit segment.pid (segmentBlockCount segment.size swapData.blockSize + n)
          swapData) := by
  rw [suspendSegment] at h
  split at h
  · simp at h
  · obtain rfl := suspendSegmentLoop_eq h
    have hroom := @blocksFit_storeRecords segment.pid
      ((List.range' 0 (segmentBlockCount segment.size swapData.blockSize)).map
        (blockRecord sticks swapData.blockSize segment)) swapData (by simp [blockRecord])
    rw [List.length_map, List.length_range'] at hroom
    exact ⟨storeRecords_blockSize _ _, hroom⟩

/-- The loop of `suspend_process` returns exactly when the segments can go to swap behind the
blocks that are there.

**Proof sketch.** Induction on the segments; the room behind a segment is counted from the table
of the beginning. -/
lemma isSome_suspendSegments {pid used : ℕ} {sticks : List Stick} {segments : List Segment}
    {swapData₀ swapData : SwapData} (hpos : 0 < swapData₀.blockSize)
    (hsize : swapData.blockSize = swapData₀.blockSize)
    (hroom : ∀ n, BlocksFit pid n swapData ↔ BlocksFit pid (used + n) swapData₀)
    (hpid : ∀ segment ∈ segments, segment.pid = pid) :
    (suspendSegments sticks segments swapData).isSome ↔
      SwapsOut pid sticks swapData₀ used segments := by
  induction segments generalizing used swapData with
  | nil => simp [suspendSegments, SwapsOut]
  | cons segment rest ih =>
    have hsegment : segment.pid = pid := hpid segment List.mem_cons_self
    have hone := @isSome_suspendSegment segment sticks swapData (by omega)
    rw [hsegment, hsize] at hone
    simp only [hroom, ← Nat.add_assoc] at hone
    rw [suspendSegments, SwapsOut]
    cases hrun : suspendSegment segment sticks swapData with
    | none =>
      rw [hrun] at hone
      simp only [Option.isSome_none, Bool.false_eq_true, false_iff] at hone
      simp only [Option.bind_none, Option.isSome_none, Bool.false_eq_true, false_iff]
      exact fun h => hone ⟨h.1, h.2.1⟩
    | some suspended =>
      rw [hrun] at hone
      have hhere := hone.1 rfl
      obtain ⟨hsame, hall, hleft⟩ := blocksFit_suspendSegment hrun
      rw [hsegment, hsize] at hall hleft
      rw [Option.bind_some]
      cases hok : suspended.1 with
      | false =>
        have hfull : ¬ BlocksFit pid
            (used + segmentBlockCount segment.size swapData₀.blockSize) swapData₀ := by
          rw [← hroom, ← hall, hok]
          simp
        rw [if_neg (by simp)]
        exact ⟨fun _ => ⟨hhere.1, hhere.2, fun h => absurd h hfull⟩, fun _ => rfl⟩
      | true =>
        have hfit : BlocksFit pid
            (used + segmentBlockCount segment.size swapData₀.blockSize) swapData₀ := by
          rw [← hroom, ← hall, hok]
        rw [if_pos rfl, ih (hsame.trans hsize) (fun n => ?_)
          fun s hs => hpid s (List.mem_cons_of_mem segment hs)]
        · exact ⟨fun h => ⟨hhere.1, hhere.2, fun _ => h⟩, fun h => h.2.2 hfit⟩
        · rw [hleft hok, hroom, Nat.add_assoc]

/-- `suspend_process` returns exactly when the segments of the process can go to swap. -/
lemma isSome_suspendProcess {pid : ℕ} {k : KernelMemory}
    (hswap : ∀ swapData ∈ k.swapData, swapData.WellFormed) :
    (suspendProcess pid k).isSome ↔ ∀ swapData ∈ k.swapData,
      SwapsOut pid k.connectedSticks swapData 0 (filterProcessSegments pid k.mainMemory) := by
  rw [suspendProcess]
  cases hs : k.swapData with
  | none => simp
  | some swapData =>
    have hpid : ∀ segment ∈ filterProcessSegments pid k.mainMemory, segment.pid = pid := by
      intro segment hsegment
      simpa using (List.mem_filter.1 hsegment).2
    simp only [Option.isSome_map, Option.mem_def, Option.some.injEq, forall_eq']
    apply isSome_suspendSegments (hswap swapData hs).blockSize_pos rfl _ hpid
    intro n
    rw [Nat.zero_add]

/-! ## Resumptions -/

/-- All that `resume_block` may have sent; a block that was not restored has sent something. -/
lemma messages_of_resumeBlock {block : BlockData} {pid : ℕ} {r r' : Resumption}
    {msgs : List Message} {ok : Bool} (h : resumeBlock block pid r = some (msgs, ok, r')) :
    (∀ m ∈ msgs, m.opCode = .memoryCorrupted ∨ m.opCode = .resumeSuspensionFailed) ∧
      (ok = false → msgs ≠ []) := by
  unfold resumeBlock at h
  dsimp only at h
  split at h
  · rename_i failure hfailure
    obtain ⟨rfl, -⟩ := by simpa using h
    refine ⟨fun m hm => .inr ?_, by simp⟩
    obtain rfl := List.mem_singleton.1 hm
    split at hfailure
    · exact opCode_of_regenerateSegment (Prod.ext hfailure rfl)
    · exact absurd hfailure (by simp)
  · obtain ⟨rfl, -⟩ := by simpa using h
    simp
  · obtain ⟨writeAddress, -, heq⟩ := Option.map_eq_some_iff.1 h
    simp only [Prod.mk.injEq] at heq
    obtain ⟨rfl, hremoved, -⟩ := heq
    refine ⟨fun m hm => ?_, fun hok => by simp [hremoved.trans hok]⟩
    rcases List.mem_append.1 hm with hm | hm
    · split at hm <;> simp at hm
      exact .inl (hm ▸ rfl)
    · split at hm <;> simp at hm
      exact .inr (hm ▸ rfl)

/-- A resumption that returns has sent something, and all that it may have sent. -/
lemma messages_of_resumeBlocks {pid : ℕ} {positions : List ℕ} {found : Bool} {r r' : Resumption}
    {msgs : List Message} (h : resumeBlocks pid positions found r = some (msgs, r')) :
    msgs ≠ [] ∧ ∀ m ∈ msgs, m.opCode = .memoryCorrupted ∨
      m.opCode ∈ [OpCode.resumeSuspensionOk, .resumeSuspensionFailed] := by
  induction positions generalizing found r msgs with
  | nil =>
    obtain ⟨rfl, -⟩ := Prod.mk.inj (Option.some.inj h)
    cases found <;> simp
  | cons i rest ih =>
    obtain ⟨block, -, hblock⟩ := Option.bind_eq_some_iff.1 h
    split at hblock
    · obtain ⟨⟨sent, ok, r₁⟩, hresume, hafter⟩ := Option.bind_eq_some_iff.1 hblock
      obtain ⟨hsent, hfailed⟩ := messages_of_resumeBlock hresume
      have hsent' : ∀ m ∈ sent, m.opCode = .memoryCorrupted ∨
          m.opCode ∈ [OpCode.resumeSuspensionOk, .resumeSuspensionFailed] := fun m hm =>
        (hsent m hm).imp_right fun hcode => by simp [hcode]
      cases ok with
      | true =>
        simp only [if_true] at hafter
        obtain ⟨⟨last, r₂⟩, hloop, heq⟩ := Option.map_eq_some_iff.1 hafter
        obtain ⟨rfl, rfl⟩ := Prod.mk.inj heq
        obtain ⟨hne, hlast⟩ := ih hloop
        refine ⟨List.append_ne_nil_of_right_ne_nil _ hne, fun m hm => ?_⟩
        exact (List.mem_append.1 hm).elim (hsent' m) (hlast m)
      | false =>
        simp only [Bool.false_eq_true, if_false] at hafter
        obtain ⟨rfl, -⟩ := Prod.mk.inj (Option.some.inj hafter)
        exact ⟨hfailed rfl, hsent'⟩
    · exact ih hblock

/-- One message, of the kind of a resumption. -/
def ResumeAnswered (resumed : Option (List Message × Resumption)) : Prop :=
  ∃ m r', resumed = some ([m], r') ∧
    m.opCode ∈ [OpCode.resumeSuspensionOk, .resumeSuspensionFailed]

section Loop

variable {pid i : ℕ} {r₀ r : Resumption} {block : BlockData}

/-- The segments that start before the position, and the one that starts there. -/
lemma ResumedUpTo.regenerateSegments_succ (h : ResumedUpTo pid r₀ i r)
    (hblock : r₀.swapData.blockList[i]? = some block) (hpid : block.pid = pid) :
    regenerateSegments pid ((r₀.swapData.blockList.take (i + 1)).filter (BlockData.isFirst pid))
        r₀.mainMemory =
      if block.segmentBlockNumber = 0 then
        regenerateSegments pid [block] r.mainMemory
      else some r.mainMemory := by
  obtain ⟨hi, rfl⟩ := List.getElem?_eq_some_iff.1 hblock
  rw [List.take_succ_eq_append_getElem hi, List.filter_append, regenerateSegments_append,
    h.mainMemory, Option.bind_some]
  split
  · rename_i hfirst
    rw [List.filter_cons_of_pos (by simp [BlockData.isFirst, hpid, hfirst]), List.filter_nil]
  · rename_i hfirst
    rw [List.filter_cons_of_neg (by simp [BlockData.isFirst, hfirst]), List.filter_nil]
    rfl

/-- Behind a segment that found no hole none is regenerated. -/
lemma regenerateSegments_eq_none {blocks : List BlockData} {memory : MainMemory} {j : ℕ}
    (h : regenerateSegments pid ((blocks.take i).filter (BlockData.isFirst pid)) memory = none)
    (hj : i ≤ j) :
    regenerateSegments pid ((blocks.take j).filter (BlockData.isFirst pid)) memory = none := by
  obtain ⟨d, rfl⟩ := Nat.exists_eq_add_of_le hj
  rw [List.take_add, List.filter_append, regenerateSegments_append, h]
  rfl

/-- `resume_block` at its position, whose segment finds no hole. -/
lemma resumeBlock_of_failure {failure : Message} {memory : MainMemory}
    (hregen : (if block.segmentBlockNumber = 0 then
        regenerateSegment block.segmentNumber pid block.segmentSize r.mainMemory
      else (none, r.mainMemory)) = (some failure, memory)) :
    OsSimulator.Memory.resumeBlock block pid r =
      some ([failure], false, { r with mainMemory := memory }) := by
  unfold OsSimulator.Memory.resumeBlock
  rw [hregen]

/-- `resume_block` at its position, whose segment is there: the block is written to its address. -/
lemma ResumedUpTo.resumeBlock_eq {content : List UInt8} (h : ResumedUpTo pid r₀ i r)
    (hwf : r₀.swapData.WellFormed) (hblock : r₀.swapData.blockList[i]? = some block)
    (hcontent : r₀.swapData.disk[i]? = some content) {memory : MainMemory}
    (hregen : (if block.segmentBlockNumber = 0 then
        regenerateSegment block.segmentNumber pid block.segmentSize r.mainMemory
      else (none, r.mainMemory)) = (none, memory)) :
    OsSimulator.Memory.resumeBlock block pid r =
      (computeAddressWithOffset r₀.swapData.blockSize memory pid block).map fun writeAddress =>
        let written := writeToSticks writeAddress (content.take
          (blockBytes block.segmentSize r₀.swapData.blockSize block.segmentBlockNumber))
            r.connectedSticks
        (if written.1 then [] else [⟨.memoryCorrupted, "Stick not available"⟩], true,
          ⟨memory, written.2, (removeBlockFromSwap i r.swapData).2⟩) := by
  have hnumber : block.blockNumber = i := hwf.numbered i block hblock
  have hi : i < r.swapData.blockList.length := by
    rw [h.length_blockList]
    exact (List.getElem?_eq_some_iff.1 hblock).1
  have hdisk : r.swapData.disk[i]? = some content := by rw [h.swapData, hcontent]
  have hsize : r.swapData.blockSize = r₀.swapData.blockSize := by rw [h.swapData]
  unfold OsSimulator.Memory.resumeBlock
  rw [hregen, hnumber, hdisk, hsize]
  simp [removeBlockFromSwap, hi]

/-- **The loop of a resumption answers once** exactly when every block of the process that is
reached finds its place.

**Proof sketch.** Induction on the positions that are left. A block that finds no hole ends the
loop with its one failure; a block without its segment ends it without a message; and a write that
finds no stick sends a message besides the last one. -/
lemma resumeAnswered_iff {n : ℕ} {found : Bool} (h : ResumedUpTo pid r₀ i r)
    (hwf : r₀.swapData.WellFormed) (hn : i + n = r₀.swapData.blockList.length) :
    ResumeAnswered (resumeBlocks pid (List.range' i n) found r) ↔
      ∀ j, i ≤ j → BlockSwapsIn pid r₀ j := by
  induction n generalizing i r found with
  | zero =>
    refine ⟨fun _ j hj block content hblock => ?_, fun _ => ⟨resumeAnswer found, r, rfl, ?_⟩⟩
    · rw [List.getElem?_eq_none (by omega)] at hblock
      simp at hblock
    · cases found <;> simp [resumeAnswer]
  | succ n ih =>
    have hi : i < r₀.swapData.blockList.length := by omega
    have hfrom : (∀ j, i ≤ j → BlockSwapsIn pid r₀ j) ↔
        BlockSwapsIn pid r₀ i ∧ ∀ j, i + 1 ≤ j → BlockSwapsIn pid r₀ j := by
      refine ⟨fun hall => ⟨hall i le_rfl, fun j hj => hall j (by omega)⟩, fun hall j hj => ?_⟩
      obtain rfl | hlt := Nat.eq_or_lt_of_le hj
      · exact hall.1
      · exact hall.2 j hlt
    obtain ⟨block, hblock⟩ : ∃ block, r₀.swapData.blockList[i]? = some block :=
      ⟨_, List.getElem?_eq_getElem hi⟩
    obtain ⟨content, hcontent⟩ : ∃ content, r₀.swapData.disk[i]? = some content :=
      ⟨_, List.getElem?_eq_getElem (by rw [hwf.length_disk]; exact hi)⟩
    rw [List.range'_succ, resumeBlocks, h.getElem?, hblock, Option.bind_some]
    by_cases hpid : block.pid = pid
    · rw [if_pos hpid]
      rcases hregen : (if block.segmentBlockNumber = 0 then
        regenerateSegment block.segmentNumber pid block.segmentSize r.mainMemory
        else (none, r.mainMemory)) with ⟨failure, memory⟩
      have hsucc := h.regenerateSegments_succ hblock hpid
      cases failure with
      | some failure =>
        -- the loop ends with the failure, and no later block is reached
        have hfirst : block.segmentBlockNumber = 0 := by
          by_contra hnot
          rw [if_neg hnot] at hregen
          simp at hregen
        rw [if_pos hfirst] at hregen hsucc
        have hnone : regenerateSegments pid ((r₀.swapData.blockList.take (i + 1)).filter
            (BlockData.isFirst pid)) r₀.mainMemory = none := by
          rw [hsucc, regenerateSegments, hregen]
          rfl
        rw [resumeBlock_of_failure (by rw [if_pos hfirst, hregen])]
        refine ⟨fun _ j hj b c _ _ _ memory' hmemory' => ?_, fun _ =>
          ⟨failure, _, rfl, by simp [opCode_of_regenerateSegment hregen]⟩⟩
        rw [regenerateSegments_eq_none hnone (by omega)] at hmemory'
        simp at hmemory'
      | none =>
        have hmemory : regenerateSegments pid ((r₀.swapData.blockList.take (i + 1)).filter
            (BlockData.isFirst pid)) r₀.mainMemory = some memory := by
          rw [hsucc]
          split at hregen
          · rename_i hfirst
            rw [if_pos hfirst, regenerateSegments, hregen]
            rfl
          · rename_i hfirst
            rw [if_neg hfirst, (Prod.mk.inj hregen).2]
        have hhere : BlockSwapsIn pid r₀ i ↔ ∃ writeAddress,
            computeAddressWithOffset r₀.swapData.blockSize memory pid block = some writeAddress ∧
              InSticks r.connectedSticks writeAddress (content.take (blockBytes block.segmentSize
                r₀.swapData.blockSize block.segmentBlockNumber)).length := by
          unfold InSticks
          rw [h.sticks]
          constructor
          · intro hin
            exact hin block content hblock hcontent hpid memory hmemory
          · intro hin b c hb hc _ memory' hmemory'
            obtain rfl := Option.some.inj (hblock.symm.trans hb)
            obtain rfl := Option.some.inj (hcontent.symm.trans hc)
            obtain rfl := Option.some.inj (hmemory.symm.trans hmemory')
            exact hin
        rw [h.resumeBlock_eq hwf hblock hcontent hregen, hfrom, hhere]
        cases haddress : computeAddressWithOffset r₀.swapData.blockSize memory pid block with
        | none => simp [ResumeAnswered]
        | some writeAddress =>
          simp only [Option.map_some, Option.bind_some, if_true, Option.some.injEq,
            exists_eq_left', ← writeToSticks_fst]
          cases hwritten : (writeToSticks writeAddress (content.take (blockBytes
              block.segmentSize r₀.swapData.blockSize block.segmentBlockNumber))
                r.connectedSticks).1 with
          | false =>
            -- the report of the write and the last message are two
            simp only [Bool.false_eq_true, if_false, false_and, iff_false]
            rintro ⟨m, r', hmap, -⟩
            obtain ⟨last, hlast, heq⟩ := Option.map_eq_some_iff.1 hmap
            apply (messages_of_resumeBlocks hlast).1
            exact (List.cons.inj (Prod.mk.inj heq).1).2
          | true =>
            simp only [if_true, List.nil_append, true_and]
            have hregen' : if block.segmentBlockNumber = 0 then
                regenerateSegment block.segmentNumber pid block.segmentSize r.mainMemory =
                  (none, memory)
              else memory = r.mainMemory := by
              split at hregen
              · rename_i hfirst
                rwa [if_pos hfirst]
              · rename_i hfirst
                rw [if_neg hfirst, (Prod.mk.inj hregen).2]
            rw [← ih (h.succ hblock hpid hregen' (map_stickSize_writeToSticks _ _ _)) (by omega)]
            cases resumeBlocks pid (List.range' (i + 1) n) true _ <;> rfl
    · rw [if_neg hpid, ih (h.skip hblock hpid) (by omega), hfrom]
      refine ⟨fun hall => ⟨fun b c hb _ hown => ?_, hall⟩, fun hall => hall.2⟩
      rw [hblock, Option.some.injEq] at hb
      exact absurd (hb ▸ hown) hpid

end Loop

/-! ## The requests -/

/-- A request that awaits a reply. -/
lemma answeredOnce_iff_of_awaitsReply {request : Request} {l : Listener}
    (h : request.awaitsReply = true) :
    AnsweredOnce request l ↔ ∃ served reply, serve request l = some served ∧
      served.final = [reply] ∧ request.isReply reply = true := by
  rw [AnsweredOnce, if_pos h]

/-- A handler none of whose messages belongs to the compaction dialogue. -/
lemma answer_iff {request : Request} {l : Listener}
    {outcome : Option (List Message × KernelMemory)}
    (h : ∀ sent ∈ outcome, ∀ m ∈ sent.1, m.opCode ≠ .compactionNeeded ∧
      m.opCode ≠ .compactionDone) :
    (∃ served reply, outcome.map l.answer = some served ∧ served.final = [reply] ∧
        request.isReply reply = true) ↔
      ∃ m k', outcome = some ([m], k') ∧ request.isReply (.message m) = true := by
  cases outcome with
  | none => simp
  | some sent =>
    have hfinal : (l.answer sent).final = sent.1.map .message := by
      apply List.filter_eq_self.2
      intro reply hreply
      obtain ⟨m, hm, rfl⟩ := List.mem_map.1 hreply
      simp [Reply.isDialogue, h sent rfl m hm]
    constructor
    · rintro ⟨served, reply, hserved, hreply, hkind⟩
      obtain rfl := Option.some.inj hserved
      rw [hfinal] at hreply
      obtain ⟨m, hm, rfl⟩ := List.map_eq_singleton_iff.1 hreply
      exact ⟨m, sent.2, congrArg some (Prod.ext hm rfl), hkind⟩
    · rintro ⟨m, k', hsent, hkind⟩
      obtain rfl := Option.some.inj hsent
      exact ⟨_, _, rfl, hfinal, hkind⟩

/-- What a resumption may send. -/
lemma messages_of_resumeProcess {pid : ℕ} {k : KernelMemory} {sent : List Message × KernelMemory}
    (h : resumeProcess pid k = some sent) :
    ∀ m ∈ sent.1, m.opCode = .memoryCorrupted ∨
      m.opCode ∈ [OpCode.resumeSuspensionOk, .resumeSuspensionFailed] := by
  unfold resumeProcess at h
  split at h
  · obtain rfl := Option.some.inj h
    simp
  · split at h
    · obtain ⟨resumed, hloop, rfl⟩ := Option.map_eq_some_iff.1 h
      exact (messages_of_resumeBlocks hloop).2
    · obtain rfl := Option.some.inj h
      simp

/-- `resume_process` sends one message exactly when every block that is reached finds its place. -/
lemma resumeProcess_answers_iff {pid : ℕ} {k : KernelMemory}
    (hswap : ∀ swapData ∈ k.swapData, swapData.WellFormed) :
    (∃ m k', resumeProcess pid k = some ([m], k') ∧
        m.opCode ∈ [OpCode.resumeSuspensionOk, .resumeSuspensionFailed]) ↔
      ∀ swapData ∈ k.swapData, canResume pid swapData k.mainMemory = true →
        ∀ i, BlockSwapsIn pid ⟨k.mainMemory, k.connectedSticks, swapData⟩ i := by
  rw [resumeProcess]
  cases hs : k.swapData with
  | none => simp
  | some swapData =>
    simp only [Option.mem_def, Option.some.injEq, forall_eq']
    by_cases hfits : canResume pid swapData k.mainMemory = true
    · have hloop := @resumeAnswered_iff pid 0 _ _ _ false
        (.zero pid ⟨k.mainMemory, k.connectedSticks, swapData⟩) (hswap swapData hs)
        (Nat.zero_add _)
      simp only [Nat.zero_le, true_imp_iff, ← List.range_eq_range'] at hloop
      rw [if_pos hfits]
      simp only [hfits, true_imp_iff, ← hloop]
      constructor
      · rintro ⟨m, k', hrun, hkind⟩
        obtain ⟨resumed, hblocks, heq⟩ := Option.map_eq_some_iff.1 hrun
        exact ⟨m, resumed.2,
          hblocks.trans (congrArg some (Prod.ext (Prod.mk.inj heq).1 rfl)), hkind⟩
      · rintro ⟨m, r', hblocks, hkind⟩
        refine ⟨m, r'.store k, ?_, hkind⟩
        rw [hblocks]
        rfl
    · rw [if_neg hfits]
      simp [hfits]

/-- A resumption is answered once exactly under its condition. -/
lemma answeredOnce_resume_iff {pid : UInt32} {l : Listener}
    (hswap : ∀ swapData ∈ l.swapData, swapData.WellFormed) :
    AnsweredOnce (.resumeSuspendedProcess pid) l ↔ Answerable (.resumeSuspendedProcess pid) l := by
  rw [answeredOnce_iff_of_awaitsReply rfl, serve, answer_iff fun sent hsent m hm => by
    rcases messages_of_resumeProcess hsent m hm with h | h
    · simp [h]
    · rcases List.mem_pair.1 h with h | h <;> simp [h]]
  simp only [Request.isReply, decide_eq_true_eq]
  exact @resumeProcess_answers_iff _ l.kernelMemory hswap

/-- What a suspension that returns has sent. -/
lemma opCode_of_suspendProcess {pid : ℕ} {k k' : KernelMemory} {answer : Message}
    (h : suspendProcess pid k = some (answer, k')) :
    answer.opCode ∈ [OpCode.suspensionOk, .suspensionFailed] := by
  unfold suspendProcess at h
  split at h
  · obtain ⟨rfl, -⟩ := Prod.mk.inj (Option.some.inj h)
    simp
  · obtain ⟨suspended, -, heq⟩ := Option.map_eq_some_iff.1 h
    split at heq
    · obtain ⟨rfl, -⟩ := Prod.mk.inj heq
      split <;> simp
    · obtain ⟨rfl, -⟩ := Prod.mk.inj heq
      simp

/-- A suspension is answered once exactly when the process is found and can go to swap. -/
lemma answeredOnce_suspend_iff {pid : UInt32} {l : Listener}
    (hswap : ∀ swapData ∈ l.swapData, swapData.WellFormed) :
    AnsweredOnce (.suspendProcess pid) l ↔ Answerable (.suspendProcess pid) l := by
  have hout := @isSome_suspendProcess pid.toNat l.kernelMemory hswap
  rw [answeredOnce_iff_of_awaitsReply rfl]
  simp only [serve, suspendFound, Answerable]
  cases hfind : findProcess pid.toNat l.processes with
  | none => simp
  | some found =>
    cases found with
    | false => simp [Served.final]
    | true =>
      simp only [Option.bind_some, if_true, true_and]
      refine Iff.trans ?_ hout
      constructor
      · rintro ⟨served, reply, hserved, -⟩
        obtain ⟨suspended, hrun, -⟩ := Option.map_eq_some_iff.1 hserved
        rw [hrun]
        rfl
      · intro hreturns
        obtain ⟨suspended, hrun⟩ := Option.isSome_iff_exists.1 hreturns
        have hkind := opCode_of_suspendProcess hrun
        refine ⟨_, .message suspended.1, Option.map_eq_some_iff.2 ⟨suspended, hrun, rfl⟩, ?_, ?_⟩
        · rcases List.mem_pair.1 hkind with hcode | hcode <;>
            simp [Served.final, Listener.answer, Reply.isDialogue, hcode]
        · simpa [Request.isReply] using hkind

/-! ## Allocations and transfers -/

/-- A `create_segment` that returns sends its last message, and before it the one of the size check
if the size is above the limit. -/
lemma createSegment_returns {id pid : ℕ} {size : ℤ} {m : MainMemory}
    (h : m.segments = [] → size ≤ computeFreeSpace m.holes →
      (selectHole (u32 size) m).1.size ≠ -1) :
    ∃ exceeded sent m', createSegment id pid size m = some (exceeded ++ sent, m') ∧
      (exceeded = [] ↔ size ≤ m.maxSegmentSize) ∧
      (∀ message ∈ exceeded, message.opCode = .segmentSizeExceeded) ∧
      ∃ last, (sent.map Reply.message).filter (fun reply => !reply.isDialogue) = [.message last] ∧
        last.opCode ∈ [OpCode.notEnoughMemory, .memoryAllocated] := by
  unfold createSegment
  dsimp only
  set exceeded : List Message := if m.maxSegmentSize < size then
    [⟨.segmentSizeExceeded, "The requested size exceeds the max segment size."⟩] else []
    with hexceeded
  have hnil : exceeded = [] ↔ size ≤ m.maxSegmentSize := by
    rw [hexceeded]
    split
    · rename_i hsize
      simp [hsize]
    · rename_i hsize
      simp [not_lt.1 hsize]
  have hcode : ∀ message ∈ exceeded, message.opCode = .segmentSizeExceeded := by
    intro message hmessage
    rw [hexceeded] at hmessage
    split at hmessage <;> simp at hmessage
    exact hmessage ▸ rfl
  by_cases hspace : computeFreeSpace m.holes < size
  · rw [if_pos hspace]
    exact ⟨_, _, _, rfl, hnil, hcode, ⟨.notEnoughMemory, _⟩, rfl, by simp⟩
  · rw [if_neg hspace]
    by_cases hhole : (selectHole (u32 size) m).1.size = -1
    · rw [if_pos hhole]
      have hne : m.segments ≠ [] := fun hnone => h hnone (not_lt.1 hspace) hhole
      have hlen : (compactSegments (selectHole (u32 size) m).2.segments) ≠ [] := by
        rw [← List.length_pos_iff_ne_nil, length_compactSegments, selectHole_segments]
        exact List.length_pos_iff_ne_nil.2 hne
      obtain ⟨lastEnd, hend⟩ : ∃ lastEnd, computeLastSegmentEnd
          (compactSegments (selectHole (u32 size) m).2.segments) = some lastEnd := by
        rw [computeLastSegmentEnd, List.getLast?_eq_some_getLast hlen]
        exact ⟨_, rfl⟩
      unfold compactMemory
      dsimp only
      rw [hend]
      exact ⟨_, _, _, rfl, hnil, hcode, ⟨.memoryAllocated, _⟩, rfl, by simp⟩
    · rw [if_neg hhole]
      exact ⟨_, _, _, rfl, hnil, hcode, ⟨.memoryAllocated, _⟩, rfl, by simp⟩

/-- A compaction without a segment reads a null pointer. -/
lemma createSegment_eq_none {id pid : ℕ} {size : ℤ} {m : MainMemory} (hnil : m.segments = [])
    (hspace : size ≤ computeFreeSpace m.holes) (hhole : (selectHole (u32 size) m).1.size = -1) :
    createSegment id pid size m = none := by
  have hsegments : (selectHole (u32 size) m).2.segments = [] := by
    rw [selectHole_segments, hnil]
  unfold createSegment
  dsimp only
  rw [if_neg (not_lt.2 hspace), if_pos hhole, compactMemory, hsegments]
  rfl

/-- An allocation is answered once exactly under its condition. -/
lemma answeredOnce_create_iff {segmentId pid size : UInt32} {l : Listener} :
    AnsweredOnce (.createSegment segmentId pid size) l ↔
      Answerable (.createSegment segmentId pid size) l := by
  rw [answeredOnce_iff_of_awaitsReply rfl]
  generalize hk : l.kernelMemory = k
  have hm : l.mainMemory = k.mainMemory := by
    rw [← hk]
    rfl
  simp only [serve, Answerable, CreateAnswerable, handleCreateSegment, hk, hm]
  by_cases hlarge : u32 k.mainMemory.maxSegmentSize < size.toNat
  · rw [if_pos hlarge]
    exact ⟨fun _ => .inl hlarge, fun _ => ⟨_, .message ⟨.segmentSizeExceeded, _⟩, rfl, rfl, rfl⟩⟩
  · rw [if_neg hlarge]
    simp only [hlarge, false_or]
    by_cases hreturns : k.mainMemory.segments = [] →
        i32 size.toNat ≤ computeFreeSpace k.mainMemory.holes →
        (selectHole (u32 (i32 size.toNat)) k.mainMemory).1.size ≠ -1
    · obtain ⟨exceeded, sent, m', hcreate, hnil, hcode, last, hlast, hkind⟩ :=
        @createSegment_returns segmentId.toNat pid.toNat _ _ hreturns
      have hfinal : ∀ k', (l.answer (exceeded ++ sent, k')).final =
          exceeded.map .message ++ [.message last] := by
        intro k'
        rw [Served.final, Listener.answer, List.map_append, List.filter_append, hlast]
        refine congrArg (· ++ [Reply.message last]) (List.filter_eq_self.2 fun reply hreply => ?_)
        obtain ⟨m, hm, rfl⟩ := List.mem_map.1 hreply
        simp [Reply.isDialogue, hcode m hm]
      rw [hcreate, Option.map_some, Option.map_some]
      constructor
      · rintro ⟨served, reply, hserved, hreply, -⟩
        obtain rfl := Option.some.inj hserved
        rw [hfinal] at hreply
        refine ⟨hnil.1 ?_, hreturns⟩
        -- a second message in front of the last one
        have hlength := congrArg List.length hreply
        rw [List.length_append, List.length_map] at hlength
        exact List.eq_nil_of_length_eq_zero (by simpa using hlength)
      · rintro ⟨hsize, -⟩
        refine ⟨_, .message last, rfl, ?_, by
          rcases List.mem_pair.1 hkind with hlast | hlast <;> simp [Request.isReply, hlast]⟩
        rw [hfinal, hnil.2 hsize]
        rfl
    · have hnone : createSegment segmentId.toNat pid.toNat (i32 size.toNat) k.mainMemory = none := by
        simp only [Classical.not_imp, not_not] at hreturns
        exact createSegment_eq_none hreturns.1 hreturns.2.1 hreturns.2.2
      simp [hnone, hreturns]

/-- The text of a transfer is never part of the compaction dialogue. -/
lemma final_answerIo (l : Listener) (outcome : IoOutcome) :
    (l.answerIo outcome).final = outcome.messages.map .io := by
  apply List.filter_eq_self.2
  intro reply hreply
  obtain ⟨m, -, rfl⟩ := List.mem_map.1 hreply
  rfl

/-- A handler that sends the one response of its kind. -/
lemma answerIo_once (l : Listener) {request : Request} {message : IoMessage}
    (hkind : request.isReply (.io message) = true) (packets : List StickPacket)
    (sticks : List Stick) (alive : Bool) :
    ∃ served reply, some (l.answerIo ⟨[message], packets, sticks, alive⟩) = some served ∧
      served.final = [reply] ∧ request.isReply reply = true :=
  ⟨_, .io message, rfl, final_answerIo _ _, hkind⟩

/-- The translation fails only by dividing by zero. -/
lemma translateLogicalAddress_eq_none_iff {pid : ℕ} {logicalAddress : UInt32} {m : MainMemory} :
    translateLogicalAddress pid logicalAddress m = none ↔ UInt32.ofInt m.maxSegmentSize = 0 := by
  unfold translateLogicalAddress
  dsimp only
  split
  · rename_i hzero
    simp [hzero]
  · rename_i hpos
    split <;> simp [hpos]

/-- A read request is answered once unless the translation divides by zero. -/
lemma answeredOnce_stdout_iff {pid bytesToWrite logicalAddress : UInt32} {leftovers : List UInt8}
    {l : Listener} :
    AnsweredOnce (.ioStdout pid bytesToWrite logicalAddress leftovers) l ↔
      Answerable (.ioStdout pid bytesToWrite logicalAddress leftovers) l := by
  generalize hk : l.kernelMemory = k
  have hm : l.mainMemory = k.mainMemory := by
    rw [← hk]
    rfl
  rw [answeredOnce_iff_of_awaitsReply rfl]
  simp only [serve, Answerable, handleStdoutRequest, hk, hm]
  rw [ne_eq, ← @translateLogicalAddress_eq_none_iff pid.toNat logicalAddress]
  cases translateLogicalAddress pid.toNat logicalAddress k.mainMemory with
  | none => simp
  | some physicalAddress =>
    simp only [Option.bind_some, reduceCtorEq, not_false_eq_true, iff_true]
    by_cases hrefused : physicalAddress = -1
    · rw [if_pos hrefused]
      exact answerIo_once l rfl _ _ _
    · rw [if_neg hrefused]
      generalize (if i32 bytesToWrite.toNat < 0 then none
        else readFromSticks physicalAddress (i32 bytesToWrite.toNat).toNat k.connectedSticks) = buffer
      cases buffer with
      | none => exact answerIo_once l rfl _ _ _
      | some bytes => exact answerIo_once l rfl _ _ _

/-- A write request is answered once exactly under its condition. -/
lemma answeredOnce_stdin_iff {pid bytesToRead logicalAddress : UInt32} {writeBuffer : List UInt8}
    {l : Listener} :
    AnsweredOnce (.ioStdin pid bytesToRead logicalAddress writeBuffer) l ↔
      Answerable (.ioStdin pid bytesToRead logicalAddress writeBuffer) l := by
  generalize hk : l.kernelMemory = k
  have hm : l.mainMemory = k.mainMemory := by
    rw [← hk]
    rfl
  have hsticks : l.connectedSticks = k.connectedSticks := by
    rw [← hk]
    rfl
  rw [answeredOnce_iff_of_awaitsReply rfl]
  simp only [serve, Answerable, StdinAnswerable, handleStdinRequest, hk, hm, hsticks]
  rw [ne_eq, ← @translateLogicalAddress_eq_none_iff pid.toNat logicalAddress]
  cases translateLogicalAddress pid.toNat logicalAddress k.mainMemory with
  | none => simp
  | some physicalAddress =>
    simp only [Option.bind_some, reduceCtorEq, not_false_eq_true, true_and, Option.mem_def,
      Option.some.injEq, forall_eq']
    by_cases hrefused : physicalAddress = -1
    · rw [if_pos hrefused]
      exact ⟨fun _ => .inl hrefused, fun _ => answerIo_once l rfl _ _ _⟩
    · rw [if_neg hrefused]
      simp only [hrefused, false_or]
      generalize i32 bytesToRead.toNat = requestedSize
      generalize writeBuffer.takeWhile (· ≠ 0) = text
      by_cases hnegative : requestedSize < 0
      · rw [if_pos hnegative, if_pos hnegative]
        by_cases htext : text = []
        · rw [if_pos htext]
          exact ⟨fun _ => htext, fun _ => answerIo_once l rfl _ _ _⟩
        · rw [if_neg htext]
          exact ⟨fun h => by simp at h, fun h => absurd h htext⟩
      · rw [if_neg hnegative, if_neg hnegative]
        have hwrite := @writeToSticks_fst k.connectedSticks physicalAddress
          (text.take requestedSize.toNat ++
            List.replicate (requestedSize.toNat - (text.take requestedSize.toNat).length) 0)
        rw [List.length_append, List.length_replicate, Nat.add_sub_cancel' (by simp)] at hwrite
        rw [← hwrite]
        split
        · rename_i hwritten
          exact ⟨fun _ => hwritten, fun _ => answerIo_once l rfl _ _ _⟩
        · rename_i hwritten
          refine ⟨?_, fun h => absurd h hwritten⟩
          rintro ⟨served, reply, hserved, hreply, hkind⟩
          obtain rfl := Option.some.inj hserved
          rw [final_answerIo] at hreply
          obtain rfl := (List.cons.inj hreply).1
          simp [Request.isReply] at hkind

/-! ## The requests as events -/

/-- The event of a request that changes the tables. -/
def Request.event : Request → Option Event
  | .newProcess pid scriptOpens => some (.newProcess pid.toNat scriptOpens)
  | .createSegment segmentId pid size =>
    some (.createSegment segmentId.toNat pid.toNat size.toNat)
  | .deleteSegment segmentId pid => some (.deleteSegment segmentId.toNat pid.toNat)
  | .endProcess pid => some (.endProcess pid.toNat)
  | .suspendProcess pid => some (.suspendProcess pid.toNat)
  | .resumeSuspendedProcess pid => some (.resumeProcess pid.toNat)
  | _ => none

/-- The search finds the processes that are there. -/
lemma mem_of_findProcess {pid : ℕ} {processes : List (Option ℕ)} {found : Bool}
    (h : findProcess pid processes = some found) :
    found = true ↔ pid ∈ processes.filterMap id := by
  induction processes with
  | nil =>
    obtain rfl := Option.some.inj h
    simp
  | cons process rest ih =>
    cases process with
    | none => simp [findProcess] at h
    | some process =>
      rw [findProcess] at h
      split at h
      · rename_i heq
        obtain rfl := Option.some.inj h
        simp [heq]
      · rename_i hne
        rw [ih h]
        simp [Ne.symm hne]

/-- The processes that are there when one is taken out of the list. -/
lemma filterMap_erase_some (pid : ℕ) (processes : List (Option ℕ)) :
    (processes.erase (some pid)).filterMap id = (processes.filterMap id).erase pid := by
  induction processes with
  | nil => rfl
  | cons process rest ih =>
    cases process with
    | none => simpa using ih
    | some process =>
      by_cases hpid : process = pid
      · simp [hpid]
      · rw [List.erase_cons_tail (by simpa using hpid), List.filterMap_cons_some (by rfl), ih,
          List.filterMap_cons_some (by rfl), List.erase_cons_tail (by simpa using hpid)]

/-- The state of a handler that keeps the processes. -/
lemma kernelMemory_withMemory {l : Listener} {k : KernelMemory}
    (h : k.processes = l.kernelMemory.processes) : (l.withMemory k).kernelMemory = k := by
  obtain ⟨mainMemory, connectedSticks, swapData, processes⟩ := k
  obtain rfl := h
  rfl

/-- A suspension keeps the processes. -/
lemma processes_suspendProcess {pid : ℕ} {k k' : KernelMemory} {answer : Message}
    (h : suspendProcess pid k = some (answer, k')) : k'.processes = k.processes := by
  rcases suspendProcess_cases h with ⟨rfl, -⟩ | ⟨_, _, -, -, ⟨-, -, rfl⟩ | ⟨-, -, rfl⟩⟩ <;> rfl

/-- A resumption keeps the processes. -/
lemma processes_resumeProcess {pid : ℕ} {k : KernelMemory}
    {sent : List Message × KernelMemory} (h : resumeProcess pid k = some sent) :
    sent.2.processes = k.processes := by
  unfold resumeProcess at h
  split at h
  · obtain rfl := Option.some.inj h
    rfl
  · split at h
    · obtain ⟨resumed, -, rfl⟩ := Option.map_eq_some_iff.1 h
      rfl
    · obtain rfl := Option.some.inj h
      rfl

/-- An allocation keeps the processes. -/
lemma processes_handleCreateSegment {id pid size : ℕ} {k : KernelMemory}
    {sent : List Message × KernelMemory} (h : handleCreateSegment id pid size k = some sent) :
    sent.2.processes = k.processes := by
  unfold handleCreateSegment at h
  split at h
  · obtain rfl := Option.some.inj h
    rfl
  · obtain ⟨created, -, rfl⟩ := Option.map_eq_some_iff.1 h
    rfl

/-- A request that returns does to the state what its event does. -/
lemma kernelMemoryStep_of_serve {request : Request} {event : Event} {l : Listener} {served : Served}
    (h : serve request l = some served) (hevent : request.event = some event) :
    kernelMemoryStep l.kernelMemory event = some served.listener.kernelMemory := by
  cases request with
  | newProcess pid scriptOpens =>
    obtain rfl := Option.some.inj h
    obtain rfl := Option.some.inj hevent
    cases scriptOpens <;> simp [kernelMemoryStep, handleNewProcess, Listener.kernelMemory]
  | createSegment segmentId pid size =>
    obtain ⟨sent, hcreate, rfl⟩ := Option.map_eq_some_iff.1 h
    obtain rfl := Option.some.inj hevent
    rw [kernelMemoryStep, hcreate]
    exact congrArg some (kernelMemory_withMemory (processes_handleCreateSegment hcreate)).symm
  | deleteSegment segmentId pid =>
    obtain rfl := Option.some.inj h
    obtain rfl := Option.some.inj hevent
    rfl
  | endProcess pid =>
    obtain ⟨found, hfind, rfl⟩ := Option.map_eq_some_iff.1 h
    obtain rfl := Option.some.inj hevent
    have hmem : found = true ↔ pid.toNat ∈ l.kernelMemory.processes := mem_of_findProcess hfind
    rw [kernelMemoryStep, handleEndProcess]
    cases found with
    | true =>
      rw [if_pos (hmem.1 rfl), if_pos rfl]
      simp only [Listener.kernelMemory, filterMap_erase_some]
    | false =>
      rw [if_neg (by simpa using hmem)]
      rfl
  | suspendProcess pid =>
    obtain ⟨found, hfind, hserved⟩ := Option.bind_eq_some_iff.1 h
    obtain rfl := Option.some.inj hevent
    have hmem : found = true ↔ pid.toNat ∈ l.kernelMemory.processes := mem_of_findProcess hfind
    rw [kernelMemoryStep, handleSuspendProcess]
    cases found with
    | true =>
      rw [if_pos (hmem.1 rfl)]
      rw [if_pos rfl] at hserved
      obtain ⟨⟨answer, k'⟩, hrun, rfl⟩ := Option.map_eq_some_iff.1 hserved
      rw [hrun]
      exact congrArg some (kernelMemory_withMemory (processes_suspendProcess hrun)).symm
    | false =>
      rw [if_neg (by simpa using hmem)]
      rw [if_neg (by simp)] at hserved
      obtain rfl := Option.some.inj hserved
      rfl
  | resumeSuspendedProcess pid =>
    obtain ⟨sent, hresume, rfl⟩ := Option.map_eq_some_iff.1 h
    obtain rfl := Option.some.inj hevent
    rw [kernelMemoryStep, handleResumeSuspendedProcess, hresume]
    exact congrArg some (kernelMemory_withMemory (processes_resumeProcess hresume)).symm
  | ioStdin | ioStdout | requestFreeMemory | requestProcessSize | kernelMemoryRunning =>
    simp [Request.event] at hevent

/-- The swap after a request without an event. -/
lemma swapData_of_serve {request : Request} {l : Listener} {served : Served}
    (h : serve request l = some served) (hevent : request.event = none) :
    served.listener.swapData = l.swapData := by
  cases request with
  | ioStdin | ioStdout | requestProcessSize =>
    obtain ⟨outcome, -, rfl⟩ := Option.map_eq_some_iff.1 h
    rfl
  | requestFreeMemory | kernelMemoryRunning =>
    obtain rfl := Option.some.inj h
    rfl
  | newProcess | createSegment | deleteSegment | endProcess | suspendProcess
  | resumeSuspendedProcess => simp [Request.event] at hevent

/-- **The requests keep the block table** as `init_block_list` makes it. -/
theorem wellFormed_serve {request : Request} {l : Listener} {served : Served}
    (h : serve request l = some served) (hswap : ∀ swapData ∈ l.swapData, swapData.WellFormed) :
    ∀ swapData ∈ served.listener.swapData, swapData.WellFormed := by
  cases hevent : request.event with
  | none =>
    rw [swapData_of_serve h hevent]
    exact hswap
  | some event => exact wellFormed_step (kernelMemoryStep_of_serve h hevent) hswap

/-! ## Which requests are answered once -/

/-- **The requests that are answered once.** In every state whose block table is as
`init_block_list` makes it and the requests keep it, a request has exactly one reply of its own
kind, or none if none is awaited, if and only if it is answerable.

**Proof sketch.** The handlers that send their reply at the end send it whatever they find. For the
others, each branch that does not return or that sends another message is one of the condition
(`answeredOnce_create_iff`, `answeredOnce_suspend_iff`, `answeredOnce_resume_iff`). -/
theorem answeredOnce_iff (request : Request) {l : Listener}
    (hswap : ∀ swapData ∈ l.swapData, swapData.WellFormed) :
    AnsweredOnce request l ↔ Answerable request l := by
  cases request with
  | newProcess pid scriptOpens =>
    exact iff_of_true ⟨_, .processStarted _, rfl, rfl, rfl⟩ trivial
  | createSegment segmentId pid size => exact answeredOnce_create_iff
  | deleteSegment segmentId pid =>
    exact iff_of_true ⟨_, .message ⟨.memoryFreed, _⟩, rfl, rfl, rfl⟩ trivial
  | ioStdin pid bytesToRead logicalAddress writeBuffer => exact answeredOnce_stdin_iff
  | ioStdout pid bytesToWrite logicalAddress leftovers => exact answeredOnce_stdout_iff
  | endProcess pid =>
    refine iff_of_true (fun served hserved => ?_) trivial
    obtain ⟨found, -, rfl⟩ := Option.map_eq_some_iff.1 hserved
    cases found <;> rfl
  | requestFreeMemory => exact iff_of_true ⟨_, .freeMemory _, rfl, rfl, rfl⟩ trivial
  | requestProcessSize pid =>
    rw [answeredOnce_iff_of_awaitsReply rfl]
    simp only [serve, requestProcessSize, Answerable]
    cases findProcess pid.toNat l.processes with
    | none => simp
    | some found => exact iff_of_true ⟨_, .processSize _, rfl, rfl, rfl⟩ (by simp)
  | suspendProcess pid => exact answeredOnce_suspend_iff hswap
  | resumeSuspendedProcess pid => exact answeredOnce_resume_iff hswap
  | kernelMemoryRunning =>
    refine iff_of_true (fun served hserved => ?_) trivial
    obtain rfl := Option.some.inj hserved
    rfl

/-- Kernel Memory with one process, which has a segment of two bytes, and a swap of two free
blocks. -/
def listenerOfOne : Listener where
  processes := [some 1]
  mainMemory := ⟨4, 4, [⟨0, 1, 0, 2⟩], [⟨2, 2⟩], .best⟩
  connectedSticks := [⟨[1, 2, 3, 4]⟩]
  swapData := some ⟨[⟨0, UINT32_MAX, UINT32_MAX, -1, -1⟩, ⟨1, UINT32_MAX, UINT32_MAX, -1, -1⟩], 2,
    [[0, 0], [0, 0]]⟩

/-- The table of that swap is as it was made. -/
lemma wellFormed_listenerOfOne : ∀ swapData ∈ listenerOfOne.swapData, swapData.WellFormed := by
  intro swapData hswap
  obtain rfl := Option.some.inj hswap
  refine ⟨by decide, fun i block hblock => ?_, rfl⟩
  match i, hblock with
  | 0, hblock => exact (Option.some.inj hblock) ▸ rfl
  | 1, hblock => exact (Option.some.inj hblock) ▸ rfl
  | i + 2, hblock => simp at hblock

/-- The condition for a suspension of that process. -/
theorem answeredOnce_iff_listenerOfOne :
    AnsweredOnce (.suspendProcess 1) listenerOfOne ↔
      Answerable (.suspendProcess 1) listenerOfOne :=
  answeredOnce_iff (.suspendProcess 1) wellFormed_listenerOfOne

/-- A suspension of process 2, which Kernel Memory does not know, has no reply. -/
theorem suspend_unanswered :
    serve (.suspendProcess 2) listenerOfOne = some ⟨[], listenerOfOne, true⟩ ∧
      ¬ AnsweredOnce (.suspendProcess 2) listenerOfOne := by
  have hserve : serve (.suspendProcess 2) listenerOfOne = some ⟨[], listenerOfOne, true⟩ := by
    decide
  refine ⟨hserve, fun h => ?_⟩
  obtain ⟨served, reply, hserved, hreply, -⟩ := h
  obtain rfl := Option.some.inj (hserve.symm.trans hserved)
  exact absurd hreply (by simp [Served.final])

end OsSimulator.Memory
