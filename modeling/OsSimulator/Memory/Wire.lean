import OsSimulator.Memory.Replies
import OsSimulator.Utils.Channel

set_option relaxedAutoImplicit false
set_option autoImplicit false

/-!
# The requests and their replies on the wire

`listen_scheduler` chooses a handler by the operation code, the handler reads the payload, and what
it sends is a message again. This file has the operation codes, how a payload is read, and which
operation codes a request is answered with.

## Main definitions

* `RequestKind` — the branches of `listen_scheduler`, with their operation codes.
* `parseRequest` — what a handler reads from the payload.
* `Reply.frame` — a reply as it is sent.
* `Request.Orderly` — an allocation is not found too large twice, and a process that is to be
  suspended is there.

## Main results

* `answers_of_serve` — the operation codes that an orderly request is answered with.
-/

namespace OsSimulator.Memory

/-! ## The operation codes -/

/-- The branches of `listen_scheduler` that have a handler. -/
inductive RequestKind
  | newProcess
  | createSegment
  | deleteSegment
  | ioStdin
  | ioStdout
  | endProcess
  | requestFreeMemory
  | requestProcessSize
  | suspendProcess
  | resumeSuspendedProcess
  | kernelMemoryRunning
  deriving DecidableEq, Repr

namespace RequestKind

/-- The operation code of a request. -/
def opCode : RequestKind → ℤ
  | newProcess => OP_NEW_PROCESS
  | createSegment => OP_CREATE_SEGMENT
  | deleteSegment => OP_DELETE_SEGMENT
  | ioStdin => OP_IO_STDIN_REQUEST
  | ioStdout => OP_IO_STDOUT_REQUEST
  | endProcess => OP_END_PROCESS
  | requestFreeMemory => OP_REQUEST_FREE_MEMORY
  | requestProcessSize => OP_REQUEST_PROCESS_SIZE
  | suspendProcess => OP_SUSPEND_PROCESS
  | resumeSuspendedProcess => OP_RESUME_SUSPENDED_PROCESS
  | kernelMemoryRunning => OP_KERNEL_MEMORY_RUNNING

/-- The `switch` of `listen_scheduler`. -/
def ofOpCode (opCode : ℤ) : Option RequestKind :=
  [newProcess, createSegment, deleteSegment, ioStdin, ioStdout, endProcess, requestFreeMemory,
    requestProcessSize, suspendProcess, resumeSuspendedProcess, kernelMemoryRunning].find?
      fun kind => kind.opCode == opCode

/-- The operation codes with which a request is over: those that its sender passes to
`RECEIVE_KM_OPCODE`, without the one of a compaction. -/
def answers : RequestKind → List ℤ
  | newProcess => [OP_PROCESS_STARTED]
  | createSegment => [OP_MEMORY_ALLOCATED, OP_SEGMENT_SIZE_EXCEEDED, OP_NOT_ENOUGH_MEMORY]
  | deleteSegment => [OP_MEMORY_FREED]
  | ioStdin => [OP_STDIN_RESPONSE]
  | ioStdout => [OP_STDOUT_RESPONSE]
  | requestFreeMemory => [OP_FREE_MEMORY]
  | requestProcessSize => [OP_PROCESS_SIZE]
  | suspendProcess => [OP_SUSPENSION_OK, OP_SUSPENSION_FAILED]
  | resumeSuspendedProcess => [OP_RESUME_SUSPENSION_OK, OP_RESUME_SUSPENSION_FAILED]
  | endProcess | kernelMemoryRunning => []

/-- Whether the sender waits for a reply. -/
def awaitsReply (kind : RequestKind) : Bool := !kind.answers.isEmpty

/-- A request is found by its code. -/
@[simp] lemma ofOpCode_opCode (kind : RequestKind) : ofOpCode kind.opCode = some kind := by
  cases kind <;> decide

/-- Different requests have different codes. -/
lemma opCode_injective : Function.Injective opCode := by
  intro kind kind' h
  have hsome := congrArg ofOpCode h
  rw [ofOpCode_opCode, ofOpCode_opCode] at hsome
  exact Option.some.inj hsome

/-- None has the code of the compaction. -/
lemma opCode_ne_canCompact (kind : RequestKind) : kind.opCode ≠ OP_CAN_COMPACT := by
  cases kind <;> decide

/-- The codes of the replies are neither that of a notice nor those of a compaction. -/
lemma of_mem_answers {kind : RequestKind} {opCode : ℤ} (h : opCode ∈ kind.answers) :
    opCode ≠ OP_NEW_MEMORY_STICK ∧ opCode ≠ OP_MEMORY_CORRUPTED ∧
      opCode ≠ OP_COMPACTION_NEEDED ∧ opCode ≠ OP_COMPACTION_DONE := by
  revert opCode
  cases kind <;> decide

end RequestKind

/-- The branch that serves a request. -/
def Request.kind : Request → RequestKind
  | .newProcess _ _ => .newProcess
  | .createSegment _ _ _ => .createSegment
  | .deleteSegment _ _ => .deleteSegment
  | .ioStdin _ _ _ _ => .ioStdin
  | .ioStdout _ _ _ _ => .ioStdout
  | .endProcess _ => .endProcess
  | .requestFreeMemory => .requestFreeMemory
  | .requestProcessSize _ => .requestProcessSize
  | .suspendProcess _ => .suspendProcess
  | .resumeSuspendedProcess _ => .resumeSuspendedProcess
  | .kernelMemoryRunning => .kernelMemoryRunning

/-! ## Reading a payload -/

/-- The `i`-th `uint32_t` of a structure in memory. -/
def uint32Field (i : ℕ) (memory : List UInt8) : UInt32 :=
  UInt32.ofInt (decodeInt ((memory.drop (4 * i)).take 4))

/-- A payload of at least `size` bytes; a shorter one is read beyond its end. -/
def readStruct (size : ℕ) (payload : Option (List UInt8)) : Option (List UInt8) :=
  payload.filter fun memory => size ≤ memory.length

/-- `receive_pid`. -/
def readPid (payload : Option (List UInt8)) : Option UInt32 :=
  (readStruct 4 payload).map (uint32Field 0)

/-- The loop of `receive_packet` on a payload. -/
def readPacket (payload : Option (List UInt8)) : Option (List (List UInt8)) :=
  receiveElements (payload.getD []).length (payload.getD [])

/-- What a handler reads from the payload of its request; `none` is a pointer that leads nowhere.
Whether the script of a process can be opened, and what follows the bytes of a `STDOUT`, is not in
the message. -/
def parseRequest (scriptOpens : Bool) (leftovers : List UInt8) (payload : Option (List UInt8)) :
    RequestKind → Option Request
  | .newProcess =>
    (readPacket payload).bind fun packet => packet[0]?.bind fun _ =>
      (readPid packet[1]?).map fun pid => .newProcess pid scriptOpens
  | .createSegment =>
    (readStruct 12 payload).map fun syscall =>
      .createSegment (uint32Field 1 syscall) (uint32Field 0 syscall) (uint32Field 2 syscall)
  | .deleteSegment =>
    (readStruct 12 payload).map fun syscall =>
      .deleteSegment (uint32Field 1 syscall) (uint32Field 0 syscall)
  | .ioStdin =>
    (readPacket payload).bind fun packet =>
      (readStruct 12 packet[0]?).bind fun request => packet[1]?.map fun writeBuffer =>
        .ioStdin (uint32Field 0 request) (uint32Field 1 request) (uint32Field 2 request) writeBuffer
  | .ioStdout =>
    (readStruct 12 payload).map fun request =>
      .ioStdout (uint32Field 0 request) (uint32Field 1 request) (uint32Field 2 request) leftovers
  | .endProcess => (readPid payload).map .endProcess
  | .requestFreeMemory => some .requestFreeMemory
  | .requestProcessSize => (readPid payload).map .requestProcessSize
  | .suspendProcess => (readPid payload).map .suspendProcess
  | .resumeSuspendedProcess => (readPid payload).map .resumeSuspendedProcess
  | .kernelMemoryRunning => some .kernelMemoryRunning

/-- A handler reads a request of its own kind. -/
lemma kind_of_parseRequest {scriptOpens : Bool} {leftovers : List UInt8}
    {payload : Option (List UInt8)} {kind : RequestKind} {request : Request}
    (h : parseRequest scriptOpens leftovers payload kind = some request) : request.kind = kind := by
  cases kind with
  | newProcess =>
    obtain ⟨packet, -, h⟩ := Option.bind_eq_some_iff.1 h
    obtain ⟨path, -, h⟩ := Option.bind_eq_some_iff.1 h
    obtain ⟨pid, -, rfl⟩ := Option.map_eq_some_iff.1 h
    rfl
  | ioStdin =>
    obtain ⟨packet, -, h⟩ := Option.bind_eq_some_iff.1 h
    obtain ⟨request', -, h⟩ := Option.bind_eq_some_iff.1 h
    obtain ⟨writeBuffer, -, rfl⟩ := Option.map_eq_some_iff.1 h
    rfl
  | createSegment | deleteSegment | ioStdout | endProcess | requestProcessSize | suspendProcess
  | resumeSuspendedProcess =>
    obtain ⟨read, -, rfl⟩ := Option.map_eq_some_iff.1 h
    rfl
  | requestFreeMemory | kernelMemoryRunning =>
    obtain rfl := Option.some.inj h
    rfl

/-! ## Sending a reply -/

/-- The number of an operation code. -/
def OpCode.code : OpCode → ℤ
  | .segmentSizeExceeded => OP_SEGMENT_SIZE_EXCEEDED
  | .notEnoughMemory => OP_NOT_ENOUGH_MEMORY
  | .compactionNeeded => OP_COMPACTION_NEEDED
  | .compactionDone => OP_COMPACTION_DONE
  | .memoryAllocated => OP_MEMORY_ALLOCATED
  | .memoryFreed => OP_MEMORY_FREED
  | .memoryCorrupted => OP_MEMORY_CORRUPTED
  | .suspensionOk => OP_SUSPENSION_OK
  | .suspensionFailed => OP_SUSPENSION_FAILED
  | .resumeSuspensionOk => OP_RESUME_SUSPENSION_OK
  | .resumeSuspensionFailed => OP_RESUME_SUSPENSION_FAILED

/-- What `send_string` puts on the wire. -/
def stringFrame (opCode : ℤ) (text : List UInt8) : Frame := ⟨opCode, cString text ++ [0]⟩

/-- A reply on the wire. -/
def Reply.frame : Reply → Frame
  | .processStarted text => stringFrame OP_PROCESS_STARTED (textBytes text)
  | .message m => stringFrame m.opCode.code (textBytes m.text)
  | .io (.stdinResponse text) => stringFrame OP_STDIN_RESPONSE text
  | .io (.stdoutResponse text) => stringFrame OP_STDOUT_RESPONSE text
  | .io (.memoryCorrupted text) => stringFrame OP_MEMORY_CORRUPTED text
  | .freeMemory size => ⟨OP_FREE_MEMORY, encodeInt size⟩
  | .processSize size => ⟨OP_PROCESS_SIZE, encodeInt size⟩

/-- The operation codes of the replies. -/
def opCodes (replies : List Reply) : List ℤ := replies.map fun reply => reply.frame.opCode

/-! ## The answers -/

/-- The operation codes a request of the kind may be answered with: one that ends it, perhaps with
a compaction before it, or first of all the report that the memory is corrupted. -/
inductive Answers (kind : RequestKind) : List ℤ → Bool → Prop
  | silent : kind.awaitsReply = false → Answers kind [] true
  | once {opCode : ℤ} {alive : Bool} : opCode ∈ kind.answers → Answers kind [opCode] alive
  | compacted {opCode : ℤ} : kind = .createSegment → opCode ∈ kind.answers →
      Answers kind [OP_COMPACTION_NEEDED, OP_COMPACTION_DONE, opCode] true
  | corrupted {opCodes : List ℤ} {alive : Bool} : kind.awaitsReply = true →
      Answers kind (OP_MEMORY_CORRUPTED :: opCodes) alive

/-- The size of an allocation is refused at once or not above the limit as an `int` either, and the
process of a suspension is there. -/
def Request.Orderly : Request → Listener → Prop
  | .createSegment _ _ size, l =>
    u32 l.mainMemory.maxSegmentSize < size.toNat ∨ i32 size.toNat ≤ l.mainMemory.maxSegmentSize
  | .suspendProcess pid, l => findProcess pid.toNat l.processes ≠ some false
  | _, _ => True

instance (request : Request) (l : Listener) : Decidable (request.Orderly l) := by
  cases request <;> unfold Request.Orderly <;> infer_instance

/-- The messages of `resume_block`: first that the memory is corrupted, or none if the block was
restored, or the one failure. -/
lemma messages_of_resumeBlock_cases {block : BlockData} {pid : ℕ} {r r' : Resumption}
    {msgs : List Message} {ok : Bool} (h : resumeBlock block pid r = some (msgs, ok, r')) :
    (∃ m rest, msgs = m :: rest ∧ m.opCode = .memoryCorrupted) ∨
      if ok then msgs = [] else ∃ m, msgs = [m] ∧ m.opCode = .resumeSuspensionFailed := by
  have hall := (messages_of_resumeBlock h).1
  unfold resumeBlock at h
  dsimp only at h
  split at h
  · obtain ⟨rfl, rfl, -⟩ := by simpa using h
    rename_i failure hfailure
    refine .inr ⟨failure, rfl, (hall failure List.mem_cons_self).resolve_left fun hcode => ?_⟩
    split at hfailure
    · have hfailed := opCode_of_regenerateSegment (Prod.ext hfailure rfl)
      exact absurd (hcode.symm.trans hfailed) (by decide)
    · exact absurd hfailure (by simp)
  · obtain ⟨rfl, rfl, -⟩ := by simpa using h
    exact .inr ⟨_, rfl, rfl⟩
  · obtain ⟨writeAddress, -, heq⟩ := Option.map_eq_some_iff.1 h
    simp only [Prod.mk.injEq] at heq
    obtain ⟨rfl, hremoved, -⟩ := heq
    rw [hremoved]
    split_ifs
    · exact .inr rfl
    · exact .inr ⟨_, rfl, rfl⟩
    · exact .inl ⟨_, _, rfl, rfl⟩
    · exact .inl ⟨_, _, rfl, rfl⟩

/-- The messages of the loop of a resumption: the last one alone, or first that the memory is
corrupted. -/
lemma messages_of_resumeBlocks_cases {pid : ℕ} {positions : List ℕ} {found : Bool}
    {r r' : Resumption} {msgs : List Message}
    (h : resumeBlocks pid positions found r = some (msgs, r')) :
    (∃ m, msgs = [m] ∧ m.opCode ∈ [OpCode.resumeSuspensionOk, .resumeSuspensionFailed]) ∨
      ∃ m rest, msgs = m :: rest ∧ m.opCode = .memoryCorrupted := by
  induction positions generalizing found r msgs with
  | nil =>
    obtain ⟨rfl, -⟩ := Prod.mk.inj (Option.some.inj h)
    exact .inl ⟨_, rfl, by cases found <;> simp⟩
  | cons i rest ih =>
    obtain ⟨block, -, hblock⟩ := Option.bind_eq_some_iff.1 h
    split at hblock
    · obtain ⟨⟨sent, ok, r₁⟩, hresume, hafter⟩ := Option.bind_eq_some_iff.1 hblock
      have hsent := messages_of_resumeBlock_cases hresume
      cases ok with
      | true =>
        simp only [if_true] at hafter hsent
        obtain ⟨⟨last, r₂⟩, hloop, heq⟩ := Option.map_eq_some_iff.1 hafter
        obtain ⟨rfl, rfl⟩ := Prod.mk.inj heq
        rcases hsent with ⟨m, more, rfl, hcode⟩ | rfl
        · exact .inr ⟨m, more ++ last, rfl, hcode⟩
        · exact ih hloop
      | false =>
        simp only [Bool.false_eq_true, if_false] at hafter hsent
        obtain ⟨rfl, -⟩ := Prod.mk.inj (Option.some.inj hafter)
        exact hsent.symm.imp_left fun ⟨m, hm, hcode⟩ => ⟨m, hm, by simp [hcode]⟩
    · exact ih hblock

/-- The messages of `create_segment` on a size that is not above the limit. -/
lemma messages_of_createSegment_cases {id pid : ℕ} {size : ℤ} {memory : MainMemory}
    {sent : List Message × MainMemory} (h : createSegment id pid size memory = some sent)
    (hsize : size ≤ memory.maxSegmentSize) :
    (∃ m, sent.1 = [m] ∧ m.opCode ∈ [OpCode.notEnoughMemory, .memoryAllocated]) ∨
      ∃ needed done last, sent.1 = [needed, done, last] ∧ needed.opCode = .compactionNeeded ∧
        done.opCode = .compactionDone ∧ last.opCode = .memoryAllocated := by
  unfold createSegment at h
  dsimp only at h
  rw [if_neg (not_lt.2 hsize)] at h
  split at h
  · obtain rfl := Option.some.inj h
    exact .inl ⟨_, rfl, by simp⟩
  · split at h
    · obtain ⟨compacted, hcompact, rfl⟩ := Option.map_eq_some_iff.1 h
      unfold compactMemory at hcompact
      obtain ⟨lastEnd, -, rfl⟩ := Option.map_eq_some_iff.1 hcompact
      exact .inr ⟨_, _, _, rfl, rfl, rfl, rfl⟩
    · obtain rfl := Option.some.inj h
      exact .inl ⟨_, rfl, by simp⟩

/-- **What an orderly request is answered with.**

**Proof sketch.** One case for each handler. The handlers about processes and sizes send their reply
at the end; an allocation sends one message besides a compaction because its size is refused once at
most; and a resumption or a transfer that finds no stick reports that first. -/
theorem answers_of_serve {request : Request} {l : Listener} {served : Served}
    (h : serve request l = some served) (horderly : request.Orderly l) :
    Answers request.kind (opCodes served.replies) served.connectionAlive := by
  cases request with
  | newProcess pid scriptOpens =>
    obtain rfl := Option.some.inj h
    exact .once (List.mem_singleton.2 rfl)
  | createSegment segmentId pid size =>
    obtain ⟨sent, hcreate, rfl⟩ := Option.map_eq_some_iff.1 h
    unfold handleCreateSegment at hcreate
    split at hcreate
    · obtain rfl := Option.some.inj hcreate
      exact .once (List.mem_cons_of_mem _ List.mem_cons_self)
    · rename_i hbelow
      obtain ⟨created, hcreated, rfl⟩ := Option.map_eq_some_iff.1 hcreate
      have hsize := horderly.resolve_left hbelow
      rcases messages_of_createSegment_cases hcreated hsize with
        ⟨m, hm, hcode⟩ | ⟨needed, done, last, hm, hneeded, hdone, hlast⟩
      · have hcodes : opCodes ((created.1).map .message) = [m.opCode.code] := by
          rw [hm]
          rfl
        show Answers .createSegment (opCodes ((created.1).map .message)) true
        rw [hcodes]
        rcases List.mem_pair.1 hcode with h | h <;> rw [h] <;> exact .once (by decide)
      · show Answers .createSegment (opCodes ((created.1).map .message)) true
        have hcodes : opCodes ((created.1).map .message) =
            [OP_COMPACTION_NEEDED, OP_COMPACTION_DONE, OP_MEMORY_ALLOCATED] := by
          rw [hm]
          simp [opCodes, Reply.frame, stringFrame, hneeded, hdone, hlast, OpCode.code]
        rw [hcodes]
        exact .compacted rfl (by decide)
  | deleteSegment segmentId pid =>
    obtain rfl := Option.some.inj h
    exact .once (List.mem_singleton.2 rfl)
  | ioStdin pid bytesToRead logicalAddress writeBuffer =>
    obtain ⟨outcome, hstdin, rfl⟩ := Option.map_eq_some_iff.1 h
    obtain ⟨physicalAddress, -, hstdin⟩ := Option.bind_eq_some_iff.1 hstdin
    dsimp only at hstdin
    split at hstdin
    · obtain rfl := Option.some.inj hstdin
      exact .once (List.mem_singleton.2 rfl)
    · split at hstdin
      · split at hstdin
        · obtain rfl := Option.some.inj hstdin
          exact .once (List.mem_singleton.2 rfl)
        · simp at hstdin
      · split at hstdin
        · obtain rfl := Option.some.inj hstdin
          exact .once (List.mem_singleton.2 rfl)
        · obtain rfl := Option.some.inj hstdin
          exact .corrupted rfl
  | ioStdout pid bytesToWrite logicalAddress leftovers =>
    obtain ⟨outcome, hstdout, rfl⟩ := Option.map_eq_some_iff.1 h
    obtain ⟨physicalAddress, -, hstdout⟩ := Option.bind_eq_some_iff.1 hstdout
    dsimp only at hstdout
    split at hstdout
    · obtain rfl := Option.some.inj hstdout
      exact .once (List.mem_singleton.2 rfl)
    · split at hstdout <;> obtain rfl := Option.some.inj hstdout
      · exact .once (List.mem_singleton.2 rfl)
      · exact .once (List.mem_singleton.2 rfl)
  | endProcess pid =>
    obtain ⟨found, -, rfl⟩ := Option.map_eq_some_iff.1 h
    cases found <;> exact .silent rfl
  | requestFreeMemory =>
    obtain rfl := Option.some.inj h
    exact .once (List.mem_singleton.2 rfl)
  | requestProcessSize pid =>
    obtain ⟨found, -, rfl⟩ := Option.map_eq_some_iff.1 h
    exact .once (List.mem_singleton.2 rfl)
  | suspendProcess pid =>
    obtain ⟨found, hfind, hserved⟩ := Option.bind_eq_some_iff.1 h
    cases found with
    | false => exact absurd hfind horderly
    | true =>
      obtain ⟨⟨answer, k'⟩, hrun, rfl⟩ := Option.map_eq_some_iff.1 hserved
      show Answers .suspendProcess [answer.opCode.code] true
      rcases List.mem_pair.1 (opCode_of_suspendProcess hrun) with h | h <;> rw [h] <;>
        exact .once (by decide)
  | resumeSuspendedProcess pid =>
    obtain ⟨sent, hresume, rfl⟩ := Option.map_eq_some_iff.1 h
    show Answers .resumeSuspendedProcess (opCodes (sent.1.map .message)) true
    have hcases : (∃ m, sent.1 = [m] ∧
        m.opCode ∈ [OpCode.resumeSuspensionOk, .resumeSuspensionFailed]) ∨
          ∃ m rest, sent.1 = m :: rest ∧ m.opCode = .memoryCorrupted := by
      unfold resumeProcess at hresume
      split at hresume
      · obtain rfl := Option.some.inj hresume
        exact .inl ⟨_, rfl, by simp⟩
      · split at hresume
        · obtain ⟨resumed, hloop, rfl⟩ := Option.map_eq_some_iff.1 hresume
          exact messages_of_resumeBlocks_cases hloop
        · obtain rfl := Option.some.inj hresume
          exact .inl ⟨_, rfl, by simp⟩
    rcases hcases with ⟨m, hm, hcode⟩ | ⟨m, rest, hm, hcode⟩
    · rw [hm]
      show Answers .resumeSuspendedProcess [m.opCode.code] true
      rcases List.mem_pair.1 hcode with h | h <;> rw [h] <;> exact .once (by decide)
    · rw [hm]
      show Answers .resumeSuspendedProcess (m.opCode.code :: opCodes (rest.map .message)) true
      rw [hcode]
      exact .corrupted rfl
  | kernelMemoryRunning =>
    obtain rfl := Option.some.inj h
    exact .silent rfl

end OsSimulator.Memory
