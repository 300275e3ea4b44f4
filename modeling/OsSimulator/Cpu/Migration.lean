import OsSimulator.Cpu.LockStep
import Mathlib.Data.Fintype.Basic

set_option relaxedAutoImplicit false
set_option autoImplicit false

/-!
# A process on several CPUs

Any number of CPUs, each with its thread of the scheduler and its listener of Kernel Memory. The
connections are reliable and first-in first-out, and no two of them are ordered. The scheduler makes
a process READY before its CPU hears of it, so another CPU may ask Kernel Memory for the context
before the first one has sent it back.

What Kernel Memory answers beside the registers is left open: the instructions and the segment
tables. The state also has a history that no step reads: whose context each CPU has been given and
not sent back, the registers of each process after its last instruction, and the registers that were
sent and that instructions started from, each beside those that were due.

## Main definitions

* `Migration`, `Migration.step` — the system, and one step of one of its parties.
* `Migration.InOrder` — no update of registers is lost.
* `Migration.Settled` — the condition on a step.

## Main results

* `Migration.inOrder_of_run` — no update is lost in a run whose steps meet the condition.
* `Migration.lost_of_migration` — a process that goes back to where it began.
-/

namespace OsSimulator.Cpu

open OsSimulator.Memory (Segment)
open OsSimulator.Scheduler (CpuMessage CpuOpCode CpuThread Reply)

/-! ## What a round sends to Kernel Memory -/

/-- A CPU has told Kernel Memory of sticks that do not answer, and of nothing else. -/
def ReportsOnly (before after : State) : Prop :=
  ∃ reports, after.sentToMemory = before.sentToMemory ++ reports ∧
    ∀ m ∈ reports, ∃ text, m = .stickDisconnected text

namespace ReportsOnly

variable {s t u : State}

/-- Nothing has been sent to Kernel Memory. -/
lemma of_eq (h : t.sentToMemory = s.sentToMemory) : ReportsOnly s t :=
  ⟨[], by rw [h, List.append_nil], by simp⟩

/-- A state reports nothing about itself. -/
lemma refl (s : State) : ReportsOnly s s := of_eq rfl

/-- Reports add up. -/
lemma trans (h : ReportsOnly s t) (h' : ReportsOnly t u) : ReportsOnly s u := by
  obtain ⟨first, hfirst, hall⟩ := h
  obtain ⟨second, hsecond, hall'⟩ := h'
  refine ⟨first ++ second, by rw [hsecond, hfirst, List.append_assoc], fun m hm => ?_⟩
  rcases List.mem_append.1 hm with hm | hm
  · exact hall m hm
  · exact hall' m hm

/-- The report of a lost stick is no operation about a process. -/
lemma notifyBsod (s : State) : ReportsOnly s s.notifyBsod :=
  ⟨[_], rfl, fun _ hm => ⟨"MS disconnected", List.mem_singleton.1 hm⟩⟩

/-- A read sends Kernel Memory reports only. -/
lemma readLoop (address size : UInt32) (rounds : ℕ) (done : UInt32) (cpu : State) :
    ReportsOnly cpu (readLoop address size rounds done cpu).2 := by
  induction rounds generalizing done cpu with
  | zero => exact refl cpu
  | succ rounds ih =>
    rw [Cpu.readLoop]
    split
    · exact refl cpu
    · cases findStick (address + done) 0 cpu.memorySticks with
      | none => exact refl cpu
      | some found =>
        obtain ⟨i, stick⟩ := found
        dsimp only
        split
        · exact (of_eq rfl).trans (ih _ _)
        · exact (of_eq rfl).trans (notifyBsod _)

/-- So does a write. -/
lemma writeLoop (address : UInt32) (data : List UInt8) (size : UInt32) (rounds : ℕ) (done : UInt32)
    (cpu : State) : ReportsOnly cpu (writeLoop address data size rounds done cpu).2 := by
  induction rounds generalizing done cpu with
  | zero => exact refl cpu
  | succ rounds ih =>
    rw [Cpu.writeLoop]
    split
    · exact refl cpu
    · cases findStick (address + done) 0 cpu.memorySticks with
      | none => exact refl cpu
      | some found =>
        obtain ⟨i, stick⟩ := found
        dsimp only
        split
        · exact (of_eq rfl).trans (ih _ _)
        · exact (of_eq rfl).trans (notifyBsod _)

/-- So does a translation. -/
lemma mmu (logicalAddress size : UInt32) (cpu : State) :
    ReportsOnly cpu (mmu logicalAddress size cpu).2 := by
  apply of_eq
  unfold Cpu.mmu
  split
  · rfl
  · dsimp only
    split
    · rfl
    · split <;> rfl

/-- So does an instruction that goes on only with an address. -/
lemma checkAddress {translated : Option UInt32 × State} (onFault : ExtendedBool)
    {next : UInt32 → State → HandlerResult} (h : ReportsOnly s translated.2)
    (hnext : ∀ address cpu, ReportsOnly cpu (next address cpu).2) :
    ReportsOnly s (checkAddress translated onFault next).2 := by
  obtain ⟨address, cpu⟩ := translated
  cases address with
  | none => exact h
  | some address =>
    rw [Cpu.checkAddress]
    split
    · exact h
    · split
      · exact h
      · exact h.trans (hnext address cpu)

/-- So does a copy. -/
lemma copyBytes (srcAddr dstAddr byteCount : UInt32) (cpu : State) :
    ReportsOnly cpu (copyBytes srcAddr dstAddr byteCount cpu).2 := by
  have hread := readLoop srcAddr byteCount byteCount.toNat 0 cpu
  unfold Cpu.copyBytes
  rw [← readMemory] at hread
  split
  · rename_i heq
    rwa [heq] at hread
  · rename_i bytes cpu' heq
    rw [heq] at hread
    have hwrite := writeLoop dstAddr bytes byteCount byteCount.toNat 0 cpu'
    rw [← writeMemory] at hwrite
    split
    · rename_i heq'
      rw [heq'] at hwrite
      exact hread.trans hwrite
    · rename_i heq'
      rw [heq'] at hwrite
      exact hread.trans hwrite

/-- A syscall sends Kernel Memory nothing. -/
lemma sendSyscall (operation : Operation) (cpu : State) :
    ReportsOnly cpu (sendSyscall operation cpu).2 := of_eq rfl

/-- Nor does one about a segment. -/
lemma sendSegmentSyscall (operation : Operation) (cpu : State) :
    ReportsOnly cpu (sendSegmentSyscall operation cpu).2 := by
  apply of_eq
  unfold Cpu.sendSegmentSyscall
  dsimp only
  split <;> rfl

/-- `handler_mov_in` sends reports only. -/
lemma movIn (instruction : Instruction) (pid : UInt32) (cpu : State) :
    ReportsOnly cpu (handlerMovIn instruction pid cpu).2 := by
  refine checkAddress _ (mmu _ _ _) fun address cpu => ?_
  have hread := readLoop address wordSize wordSize.toNat 0 cpu
  rw [← readMemory] at hread
  split
  · rename_i heq
    rwa [heq] at hread
  · rename_i heq
    rw [heq] at hread
    split
    · exact hread.trans (of_eq rfl)
    · exact hread

/-- So does `handler_mov_out`. -/
lemma movOut (instruction : Instruction) (pid : UInt32) (cpu : State) :
    ReportsOnly cpu (handlerMovOut instruction pid cpu).2 := by
  unfold handlerMovOut
  split
  · exact refl cpu
  · rename_i reg _ _
    refine checkAddress _ (mmu _ _ _) fun address cpu' => ?_
    have hwrite := writeLoop address (bytesOfUint32 (cpu.getRegister reg)) wordSize
      wordSize.toNat 0 cpu'
    rw [← writeMemory] at hwrite
    split
    · rename_i heq
      rwa [heq] at hwrite
    · rename_i heq
      rwa [heq] at hwrite

/-- So does `handler_copy_mem`. -/
lemma copyMem (instruction : Instruction) (pid : UInt32) (cpu : State) :
    ReportsOnly cpu (handlerCopyMem instruction pid cpu).2 := by
  unfold handlerCopyMem
  split
  · exact refl cpu
  · exact checkAddress _ (mmu _ _ _) fun _ _ => checkAddress _ (mmu _ _ _) fun _ _ =>
      copyBytes _ _ _ _

/-- No handler tells Kernel Memory of anything but a lost stick. -/
lemma handlers : ∀ entry ∈ handlers, ∀ instruction pid cpu,
    ReportsOnly cpu (entry.2 instruction pid cpu).2 := by
  intro entry hentry instruction pid cpu
  simp only [Cpu.handlers, List.mem_cons, List.not_mem_nil, or_false] at hentry
  rcases hentry with rfl | rfl | rfl | rfl | rfl | rfl | rfl | rfl | rfl | rfl | rfl | rfl | rfl |
    rfl | rfl | rfl | rfl | rfl
  case inl => exact refl cpu
  case inr.inr.inr.inr.inr.inl => exact movIn instruction pid cpu
  case inr.inr.inr.inr.inr.inr.inl => exact movOut instruction pid cpu
  case inr.inr.inr.inr.inr.inr.inr.inl => exact copyMem instruction pid cpu
  all_goals
    simp only [handlerSet, handlerSum, handlerSub, handlerJnz, handlerMutexCreate, handlerMutexLock,
      handlerMutexUnlock, handlerMemAlloc, handlerMemFree, handlerSleep, handlerStdout,
      handlerStdin, handlerInitProc, handlerExit]
    repeat' split
    all_goals first
      | exact sendSyscall _ _
      | exact sendSegmentSyscall _ _
      | exact of_eq rfl

/-- **An instruction sends Kernel Memory reports only**, whichever it is. -/
lemma executeStage (instruction : Instruction) (pid : UInt32) (cpu : State) :
    ReportsOnly cpu (executeStage instruction pid cpu).2 := by
  unfold Cpu.executeStage
  split
  · exact refl cpu
  · rename_i handler hlookup
    obtain ⟨name, hmem, -⟩ : ∃ name, (name, handler) ∈ Cpu.handlers ∧ name = instruction.name := by
      obtain ⟨before, after, heq, -⟩ := List.lookup_eq_some_iff.1 hlookup
      exact ⟨instruction.name, by rw [heq]; simp, rfl⟩
    exact handlers _ hmem instruction pid cpu

/-- **A round sends Kernel Memory nothing but reports of a lost stick.** -/
lemma executeRound (rawInstruction : String) (pid : ℕ) (cpu : State) :
    ReportsOnly cpu (executeRound rawInstruction pid cpu).2 := by
  have hadvance (initialPc : UInt32) (cpu : State) : ReportsOnly cpu (advancePc initialPc cpu) := by
    apply of_eq
    unfold advancePc
    split <;> rfl
  unfold Cpu.executeRound
  split
  · exact refl cpu
  · rename_i instruction _
    have hstage := executeStage instruction (UInt32.ofNat pid) cpu
    split
    · rename_i heq
      rwa [heq] at hstage
    · rename_i heq
      rwa [heq] at hstage
    · rename_i heq
      rw [heq] at hstage
      dsimp only
      split
      · exact hstage.trans (hadvance _ _)
      · exact (hstage.trans (hadvance _ _)).trans (of_eq rfl)

end ReportsOnly

/-! ## The system -/

/-- What the listener of a CPU sends it beside the instructions: `OP_SEND_CONTEXT` with the
`OP_SEGMENT_TABLE` behind it, and `OP_SEGMENT_TABLE` alone. -/
inductive MemoryReply
  | context (registers : Registers) (segmentTable : List Segment)
  | segmentTable (segmentTable : List Segment)
  deriving DecidableEq, Repr

/-- The input it is for the loop of the CPU. -/
def MemoryReply.event : MemoryReply → LockStep.Event
  | .context registers table => .context registers table
  | .segmentTable table => .segmentTable table

/-- Registers of a process that were sent, or that an instruction started from, and those that were
due. -/
structure Sample where
  pid : UInt32
  registers : Registers
  due : Option Registers
  deriving DecidableEq, Repr

/-- The CPUs with their threads, what they have sent Kernel Memory and it has not read, what it has
sent them, and whose listeners have ended; the registers in Kernel Memory; and READY. `given` is the
process whose context Kernel Memory has sent a CPU and whose registers it has not taken back, and
`last` are the registers of a process after its last instruction. -/
structure Migration (ι : Type) where
  cpus : ι → LockStep
  unread : ι → List MemoryOperation
  replies : ι → List MemoryReply
  closed : ι → Bool
  processes : UInt32 → Option Registers
  ready : List ℕ
  given : ι → Option UInt32
  last : UInt32 → Option Registers
  contexts : List Sample
  executions : List Sample

namespace Migration

variable {ι : Type}

/-- The CPUs have just connected. -/
def start (cpus : ι → State) : Migration ι where
  cpus := fun i => .init (cpus i)
  unread := fun _ => []
  replies := fun _ => []
  closed := fun _ => false
  processes := fun _ => none
  ready := []
  given := fun _ => none
  last := fun _ => none
  contexts := []
  executions := []

/-- What can happen: a CPU receives a message of its thread, or the thread takes a step; a CPU
receives a reply of Kernel Memory; it asks for an instruction and executes it; its listener serves
the next message; a process is created or ends in Kernel Memory; and another thread of the scheduler
makes a process READY. -/
inductive Action (ι : Type)
  | schedule (i : ι) (event : LockStep.Event)
  | receive (i : ι)
  | execute (i : ι) (rawInstruction : String)
  | serve (i : ι) (segmentTable : List Segment)
  | newProcess (pid : UInt32)
  | endProcess (pid : UInt32)
  | toReady (p : ℕ)
  deriving DecidableEq, Repr

/-- The registers of a new process. -/
def initialRegisters : Registers := ⟨0, 0, 0, 0, 0, 0, 0, 0, 0, 0, 0⟩

/-- READY after a step of a thread, if the process it takes is there. -/
def readyAfter (ready : List ℕ) : Option Scheduler.Transition → Option (List ℕ)
  | some (.takeReady p) => if p ∈ ready then some (ready.erase p) else none
  | some (.execReady p) => some (ready ++ [p])
  | _ => some ready

variable [DecidableEq ι]

/-- A CPU has taken a step, and has sent Kernel Memory the messages that are new. -/
def moved (i : ι) (cpu : LockStep) (s : Migration ι) : Migration ι :=
  { s with
    cpus := Function.update s.cpus i cpu
    unread := Function.update s.unread i
      (s.unread i ++ cpu.loop.cpu.sentToMemory.drop (s.cpus i).loop.cpu.sentToMemory.length) }

/-- A step of a CPU or its thread in which Kernel Memory has no part. -/
def schedule (i : ι) (event : LockStep.Event) (s : Migration ι) : Option (Migration ι) :=
  match event with
  | .message | .operation => ((s.cpus i).step event).map fun cpu => s.moved i cpu
  | .thread action =>
    ((s.cpus i).thread.step action).bind fun r =>
      (readyAfter s.ready r.2.transition).bind fun ready =>
        ((s.cpus i).step event).map fun cpu => { s.moved i cpu with ready := ready }
  | .context _ _ | .instruction _ | .segmentTable _ => none

/-- A CPU receives a reply. -/
def receive (i : ι) (s : Migration ι) : Option (Migration ι) :=
  match s.replies i with
  | [] => none
  | reply :: rest =>
    ((s.cpus i).step reply.event).map fun cpu =>
      { s.moved i cpu with replies := Function.update s.replies i rest }

/-- A CPU asks for an instruction, its listener reads that message when it has read the others, and
the CPU executes the instruction. The listener does not look whether there is such a process. -/
def execute (i : ι) (rawInstruction : String) (s : Migration ι) : Option (Migration ι) :=
  match (s.cpus i).loop.phase with
  | .fetching pid =>
    if s.unread i = [] ∧ s.closed i = false ∧ s.processes (UInt32.ofNat pid) ≠ none then
      ((s.cpus i).step (.instruction rawInstruction)).map fun cpu =>
        { s.moved i cpu with
          unread := Function.update s.unread i
            (cpu.loop.cpu.sentToMemory.drop ((s.cpus i).loop.cpu.sentToMemory.length + 1))
          last := Function.update s.last (UInt32.ofNat pid) (some cpu.loop.cpu.registers)
          executions := s.executions ++ [⟨UInt32.ofNat pid, (s.cpus i).loop.cpu.registers,
            s.last (UInt32.ofNat pid)⟩] }
    else none
  | _ => none

/-- The listener of a CPU, `listen_cpu`, serves the next message. -/
def serve (i : ι) (segmentTable : List Segment) (s : Migration ι) : Option (Migration ι) :=
  if s.closed i then none
  else
    match s.unread i with
    | [] => none
    | message :: rest =>
      let s' := { s with unread := Function.update s.unread i rest }
      match message with
      | .requestContext pid =>
        match s.processes pid with
        | none => some s'
        | some registers => some { s' with
            replies := Function.update s.replies i
              (s.replies i ++ [.context registers segmentTable])
            given := Function.update s.given i (some pid)
            contexts := s.contexts ++ [⟨pid, registers, s.last pid⟩] }
      | .updatedContext pid registers => some { s' with
          processes := Function.update s.processes pid ((s.processes pid).map fun _ => registers)
          given := Function.update s.given i none }
      | .updatedSegmentTable pid =>
        match s.processes pid with
        | none => some s'
        | some _ => some { s' with
            replies := Function.update s.replies i (s.replies i ++ [.segmentTable segmentTable]) }
      | .nextInstruction _ _ => some s'
      | .stickDisconnected _ => some { s' with closed := Function.update s.closed i true }

/-- One step of the system. -/
def step (s : Migration ι) : Action ι → Option (Migration ι)
  | .schedule i event => s.schedule i event
  | .receive i => s.receive i
  | .execute i rawInstruction => s.execute i rawInstruction
  | .serve i segmentTable => s.serve i segmentTable
  | .newProcess pid =>
    -- the pids are counted up, so this one is new
    if s.last pid = none ∧ s.processes pid = none then
      some { s with
        processes := Function.update s.processes pid (some initialRegisters)
        last := Function.update s.last pid (some initialRegisters) }
    else none
  | .endProcess pid => some { s with processes := Function.update s.processes pid none }
  | .toReady p => if p ∉ s.ready then some { s with ready := s.ready ++ [p] } else none

/-! ## The property and the condition -/

/-- **No update of registers is lost**: what Kernel Memory sends a CPU are the registers of the
process after its last instruction, and every instruction starts from those. -/
def InOrder (s : Migration ι) : Prop :=
  (∀ x ∈ s.contexts, x.due = some x.registers) ∧ ∀ x ∈ s.executions, x.due = some x.registers

/-- **A step is settled**: a listener that serves `OP_REQUEST_CONTEXT` does so when no other CPU has
been given the context of that process without having sent it back. -/
def Settled (s : Migration ι) : Action ι → Prop
  | .serve i _ => ∀ j, j ≠ i → ∀ pid ∈ s.given j, (s.unread i).head? ≠ some (.requestContext pid)
  | _ => True

end Migration

/-! ## The turn of a CPU -/

/-- A message that is about a process. -/
def MemoryOperation.isAboutProcess : MemoryOperation → Bool
  | .stickDisconnected _ => false
  | _ => true

/-- The registers of the last process are back in Kernel Memory, or under way. -/
def HandsBack (core : List MemoryOperation) (given : Option UInt32)
    (last : UInt32 → Option Registers) : Prop :=
  core = [] ∧ given = none ∨
    ∃ pid registers, core = [.updatedContext pid registers] ∧ given = some pid ∧
      last pid = some registers

/-- **The turn of a CPU**: what is under way between it and its listener, and which registers it
has, in each phase of its loop. -/
def Turn (loop : CpuLoop) (core : List MemoryOperation) (replies : List MemoryReply)
    (given : Option UInt32) (last : UInt32 → Option Registers) : Prop :=
  match loop.phase with
  | .receivingPid => replies = [] ∧ HandsBack core given last
  | .loading pid =>
    (replies = [] ∧ ∃ back, core = back ++ [.requestContext (UInt32.ofNat pid)] ∧
        HandsBack back given last) ∨
      replies = [] ∧ core = [] ∨
      ∃ registers table, replies = [.context registers table] ∧ core = [] ∧
        given = some (UInt32.ofNat pid) ∧ last (UInt32.ofNat pid) = some registers
  | .fetching pid | .checkingInterrupt pid =>
    replies = [] ∧ core = [] ∧ given = some (UInt32.ofNat pid) ∧
      last (UInt32.ofNat pid) = some loop.cpu.registers
  | .refreshing pid _ =>
    (replies = [] ∧ (core = [] ∨ core = [.updatedSegmentTable (UInt32.ofNat pid)]) ∨
        core = [] ∧ ∃ table, replies = [.segmentTable table]) ∧
      given = some (UInt32.ofNat pid) ∧ last (UInt32.ofNat pid) = some loop.cpu.registers
  | .stopped => replies = [] ∧ (core = [] ∨ HandsBack core given last)

namespace Turn

variable {loop loop' : CpuLoop} {core : List MemoryOperation} {replies : List MemoryReply}
  {given : Option UInt32} {last : UInt32 → Option Registers}

/-- What a step of the loop sends, and the turn behind it. -/
def Goes (loop loop' : CpuLoop) (core : List MemoryOperation) (replies : List MemoryReply)
    (given : Option UInt32) (last : UInt32 → Option Registers) : Prop :=
  ∃ sent, loop'.cpu.sentToMemory = loop.cpu.sentToMemory ++ sent ∧
    (∀ m ∈ sent, m.isAboutProcess = true) ∧ Turn loop' (core ++ sent) replies given last

/-- The CPU sends the registers back. -/
lemma goes_endCycle (pid : ℕ) {cpu : State} (hsent : cpu.sentToMemory = loop.cpu.sentToMemory)
    (hgiven : given = some (UInt32.ofNat pid))
    (hlast : last (UInt32.ofNat pid) = some cpu.registers) :
    Goes loop (CpuLoop.endCycle pid cpu) [] [] given last := by
  refine ⟨[.updatedContext (UInt32.ofNat pid) cpu.registers], ?_, by
    simp [MemoryOperation.isAboutProcess], rfl, .inr ⟨_, _, rfl, hgiven, hlast⟩⟩
  rw [← hsent]
  rfl

/-- The loop begins its next round with the process it was given. -/
lemma goes_nextRound (pid : ℕ) (keepGoing : Bool) {cpu : State}
    (hsent : cpu.sentToMemory = loop.cpu.sentToMemory) (hgiven : given = some (UInt32.ofNat pid))
    (hlast : last (UInt32.ofNat pid) = some cpu.registers) :
    Goes loop (CpuLoop.nextRound pid keepGoing cpu) [] [] given last := by
  cases keepGoing with
  | true =>
    refine ⟨[], ?_, by simp, rfl, rfl, hgiven, hlast⟩
    rw [← hsent]
    exact (List.append_nil _).symm
  | false => exact goes_endCycle pid hsent hgiven hlast

/-- The CPU asks for the segment table again. -/
lemma goes_refreshing (pid : ℕ) (keepGoing : Bool) {cpu : State}
    (hsent : cpu.sentToMemory = loop.cpu.sentToMemory) (hgiven : given = some (UInt32.ofNat pid))
    (hlast : last (UInt32.ofNat pid) = some cpu.registers) :
    Goes loop ⟨.refreshing pid keepGoing,
      CpuLoop.tellMemory (.updatedSegmentTable (UInt32.ofNat pid)) cpu⟩ [] [] given last := by
  refine ⟨[.updatedSegmentTable (UInt32.ofNat pid)], ?_, by
    simp [MemoryOperation.isAboutProcess], .inl ⟨rfl, .inr rfl⟩, hgiven, hlast⟩
  rw [← hsent]
  rfl

/-- A message of the thread. -/
lemma message (h : Turn loop core replies given last) {m : CpuMessage}
    (hst : loop.step (.message m) = some loop') : Goes loop loop' core replies given last := by
  simp only [CpuLoop.step] at hst
  unfold Turn at h
  split at hst
  · rename_i hphase
    simp only [hphase] at h
    obtain ⟨rfl, hback⟩ := h
    cases hst
    unfold CpuLoop.receivePid
    split
    · rename_i pid
      split
      · exact ⟨[], (List.append_nil _).symm, by simp, rfl, .inr (by rwa [List.append_nil])⟩
      · exact ⟨[.requestContext (UInt32.ofNat pid)], rfl, by simp [MemoryOperation.isAboutProcess],
          .inl ⟨rfl, core, rfl, hback⟩⟩
    · exact ⟨[], (List.append_nil _).symm, by simp, rfl, .inr (by rwa [List.append_nil])⟩
  · rename_i pid hphase
    simp only [hphase] at h
    obtain ⟨rfl, rfl, hgiven, hlast⟩ := h
    cases hst
    unfold CpuLoop.afterInterrupt
    split
    · exact ⟨[], (List.append_nil _).symm, by simp, rfl, .inl rfl⟩
    · exact goes_endCycle pid rfl hgiven hlast
    · split
      · exact goes_refreshing pid false rfl hgiven hlast
      · exact goes_nextRound pid false rfl hgiven hlast
    · split
      · exact goes_refreshing pid true rfl hgiven hlast
      · exact goes_nextRound pid true rfl hgiven hlast
  · exact absurd hst (by simp)

/-- A reply of Kernel Memory. -/
lemma reply {registers : Registers} {table : List Segment} {rest : List MemoryReply}
    (h : Turn loop core (.context registers table :: rest) given last)
    (hst : loop.step (.context registers table) = some loop') :
    Goes loop loop' core rest given last := by
  simp only [CpuLoop.step] at hst
  unfold Turn at h
  split at hst
  · rename_i pid hphase
    simp only [hphase] at h
    rcases h with ⟨hnone, -⟩ | ⟨hnone, -⟩ | ⟨registers', table', hone, rfl, hgiven, hlast⟩
    · exact absurd hnone (by simp)
    · exact absurd hnone (by simp)
    · cases hst
      simp only [List.cons.injEq, MemoryReply.context.injEq] at hone
      obtain ⟨⟨rfl, rfl⟩, rfl⟩ := hone
      exact ⟨[], (List.append_nil _).symm, by simp, rfl, rfl, hgiven, hlast⟩
  · exact absurd hst (by simp)

/-- A table that arrives is the answer the CPU waits for. -/
lemma replyTable {table : List Segment} {rest : List MemoryReply}
    (h : Turn loop core (.segmentTable table :: rest) given last)
    (hst : loop.step (.segmentTable table) = some loop') :
    Goes loop loop' core rest given last := by
  simp only [CpuLoop.step] at hst
  unfold Turn at h
  split at hst
  · rename_i pid keepGoing hphase
    simp only [hphase] at h
    obtain ⟨⟨hnone, -⟩ | ⟨rfl, table', hone⟩, hgiven, hlast⟩ := h
    · exact absurd hnone (by simp)
    · cases hst
      simp only [List.cons.injEq, MemoryReply.segmentTable.injEq] at hone
      obtain ⟨rfl, rfl⟩ := hone
      exact goes_nextRound pid keepGoing rfl hgiven hlast
  · exact absurd hst (by simp)

/-- The first message that is about a process: a request behind which nothing is under way, with no
registers to hand back; registers that are handed back; or a question for the segment table. -/
lemma cases_cons {m : MemoryOperation} (h : Turn loop (m :: core) replies given last) :
    (∃ pid, m = .requestContext (UInt32.ofNat pid) ∧ loop.phase = .loading pid ∧ core = [] ∧
      replies = [] ∧ given = none) ∨
    (∃ pid registers, m = .updatedContext pid registers ∧ given = some pid ∧
      last pid = some registers ∧ replies = [] ∧ Turn loop core replies none last) ∨
    (∃ pid keepGoing, m = .updatedSegmentTable (UInt32.ofNat pid) ∧
      loop.phase = .refreshing pid keepGoing ∧ core = [] ∧ replies = [] ∧
      given = some (UInt32.ofNat pid) ∧ last (UInt32.ofNat pid) = some loop.cpu.registers) := by
  have hback : ∀ core', HandsBack (m :: core') given last →
      ∃ pid registers, m = .updatedContext pid registers ∧ given = some pid ∧
        last pid = some registers ∧ core' = [] := by
    rintro core' (⟨hnil, -⟩ | ⟨pid, registers, heq, hgiven, hlast⟩)
    · exact absurd hnil (by simp)
    · rw [List.cons.injEq] at heq
      exact ⟨pid, registers, heq.1, hgiven, hlast, heq.2⟩
  cases hphase : loop.phase with
  | receivingPid =>
    simp only [Turn, hphase] at h ⊢
    obtain ⟨hreplies, hhands⟩ := h
    obtain ⟨pid, registers, rfl, hgiven, hlast, rfl⟩ := hback core hhands
    exact .inr (.inl ⟨pid, registers, rfl, hgiven, hlast, hreplies, hreplies, .inl ⟨rfl, rfl⟩⟩)
  | loading pid =>
    simp only [Turn, hphase] at h ⊢
    rcases h with ⟨hreplies, back, heq, hhands⟩ | ⟨-, hnil⟩ | ⟨_, _, -, hnil, -⟩
    · cases back with
      | nil =>
        rw [List.nil_append, List.cons.injEq] at heq
        rcases hhands with ⟨-, hgiven⟩ | ⟨_, _, hcons, -⟩
        · exact .inl ⟨pid, heq.1, rfl, heq.2, hreplies, hgiven⟩
        · exact absurd hcons (by simp)
      | cons m' back =>
        rw [List.cons_append, List.cons.injEq] at heq
        obtain ⟨rfl, rfl⟩ := heq
        obtain ⟨q, registers, rfl, hgiven, hlast, rfl⟩ := hback back hhands
        exact .inr (.inl ⟨q, registers, rfl, hgiven, hlast, hreplies,
          .inl ⟨hreplies, [], rfl, .inl ⟨rfl, rfl⟩⟩⟩)
    · exact absurd hnil (by simp)
    · exact absurd hnil (by simp)
  | fetching pid =>
    simp only [Turn, hphase] at h
    exact absurd h.2.1 (by simp)
  | checkingInterrupt pid =>
    simp only [Turn, hphase] at h
    exact absurd h.2.1 (by simp)
  | refreshing pid keepGoing =>
    simp only [Turn, hphase] at h
    obtain ⟨⟨hreplies, hnil | hone⟩ | ⟨hnil, -⟩, hgiven, hlast⟩ := h
    · exact absurd hnil (by simp)
    · rw [List.cons.injEq] at hone
      exact .inr (.inr ⟨pid, keepGoing, hone.1, rfl, hone.2, hreplies, hgiven, hlast⟩)
    · exact absurd hnil (by simp)
  | stopped =>
    simp only [Turn, hphase] at h ⊢
    obtain ⟨hreplies, hnil | hhands⟩ := h
    · exact absurd hnil (by simp)
    · obtain ⟨pid, registers, rfl, hgiven, hlast, rfl⟩ := hback core hhands
      exact .inr (.inl ⟨pid, registers, rfl, hgiven, hlast, hreplies, hreplies, .inl rfl⟩)

/-- The registers of another process, and of a process that is not given, do not matter. -/
lemma congr_last {last' : UInt32 → Option Registers} (h : Turn loop core replies given last)
    (heq : ∀ pid, given = some pid → last pid ≠ none → last' pid = last pid) :
    Turn loop core replies given last' := by
  have hback {core : List MemoryOperation} (h : HandsBack core given last) :
      HandsBack core given last' := by
    rcases h with hnil | ⟨pid, registers, hcore, hgiven, hlast⟩
    · exact .inl hnil
    · exact .inr ⟨pid, registers, hcore, hgiven, by rw [heq pid hgiven (by simp [hlast]), hlast]⟩
  have hsame {pid : UInt32} {registers : Registers} (hgiven : given = some pid)
      (hlast : last pid = some registers) : last' pid = some registers := by
    rw [heq pid hgiven (by simp [hlast]), hlast]
  cases hphase : loop.phase with
  | receivingPid =>
    simp only [Turn, hphase] at h ⊢
    exact h.imp_right hback
  | loading pid =>
    simp only [Turn, hphase] at h ⊢
    rcases h with ⟨hreplies, back, hcore, hhands⟩ | hnone |
      ⟨registers, table, hreplies, hcore, hgiven, hlast⟩
    · exact .inl ⟨hreplies, back, hcore, hback hhands⟩
    · exact .inr (.inl hnone)
    · exact .inr (.inr ⟨registers, table, hreplies, hcore, hgiven, hsame hgiven hlast⟩)
  | fetching pid =>
    simp only [Turn, hphase] at h ⊢
    exact ⟨h.1, h.2.1, h.2.2.1, hsame h.2.2.1 h.2.2.2⟩
  | checkingInterrupt pid =>
    simp only [Turn, hphase] at h ⊢
    exact ⟨h.1, h.2.1, h.2.2.1, hsame h.2.2.1 h.2.2.2⟩
  | refreshing pid keepGoing =>
    simp only [Turn, hphase] at h ⊢
    exact ⟨h.1, h.2.1, hsame h.2.1 h.2.2⟩
  | stopped =>
    simp only [Turn, hphase] at h ⊢
    exact h.imp_right (Or.imp_right hback)

/-- A step of the loop that sends nothing and leaves it where it is. -/
lemma goes_same (h : Turn loop core replies given last) (hsame : loop' = loop) :
    Goes loop loop' core replies given last := by
  subst hsame
  exact ⟨[], (List.append_nil _).symm, by simp, by rwa [List.append_nil]⟩

end Turn

/-! ## What every settled run keeps -/

namespace LockStep

variable {s s' : LockStep}

/-- A message of the scheduler is one for the loop. -/
lemma loop_of_message (h : s.step .message = some s') :
    ∃ message, s.loop.step (.message message) = some s'.loop := by
  simp only [step] at h
  split at h
  · exact absurd h (by simp)
  · rename_i message rest _
    obtain ⟨loop, hloop, rfl⟩ := Option.map_eq_some_iff.1 h
    refine ⟨message, hloop.trans ?_⟩
    unfold received
    split <;> rfl

/-- The operation that a CPU sends leaves its loop where it is. -/
lemma loop_of_operation (h : s.step .operation = some s') : s'.loop = s.loop := by
  simp only [step] at h
  split at h
  · exact absurd h (by simp)
  · obtain ⟨r, -, rfl⟩ := Option.map_eq_some_iff.1 h
    rfl

/-- So does a step of the thread of the scheduler. -/
lemma loop_of_thread {action : CpuThread.Action} (h : s.step (.thread action) = some s') :
    s'.loop = s.loop := by
  cases action with
  | receive opCode => exact absurd h (by simp [step])
  | _ =>
    obtain ⟨r, -, rfl⟩ := Option.map_eq_some_iff.1 h
    rfl

/-- A context that arrives is one for the loop. -/
lemma loop_of_context {registers : Registers} {table : List Segment}
    (h : s.step (.context registers table) = some s') :
    s.loop.step (.context registers table) = some s'.loop := by
  obtain ⟨loop, hloop, rfl⟩ := Option.map_eq_some_iff.1 h
  exact hloop

/-- So is a table. -/
lemma loop_of_segmentTable {table : List Segment} (h : s.step (.segmentTable table) = some s') :
    s.loop.step (.segmentTable table) = some s'.loop := by
  obtain ⟨loop, hloop, rfl⟩ := Option.map_eq_some_iff.1 h
  exact hloop

/-- A round: the question for the instruction, and behind it nothing that is about a process. -/
lemma loop_of_instruction {pid : ℕ} {rawInstruction : String}
    (hphase : s.loop.phase = .fetching pid)
    (h : s.step (.instruction rawInstruction) = some s') :
    (s'.loop.phase = .checkingInterrupt pid ∨ s'.loop.phase = .stopped) ∧
      (s'.loop.cpu.sentToMemory.drop (s.loop.cpu.sentToMemory.length + 1)).filter
        MemoryOperation.isAboutProcess = [] := by
  simp only [step, CpuLoop.step, hphase, Option.map_some, Option.some.injEq] at h
  subst h
  refine ⟨?_, ?_⟩
  · simp only [ranRound]
    split
    · exact .inl rfl
    · exact .inr rfl
  · obtain ⟨reports, hsent, hreports⟩ :=
      ReportsOnly.executeRound rawInstruction pid (roundStart pid s.loop.cpu)
    have hdrop : ((executeRound rawInstruction pid
        (roundStart pid s.loop.cpu)).2.sentToMemory).drop
          (s.loop.cpu.sentToMemory.length + 1) = reports := by
      rw [hsent]
      exact List.drop_left' (by simp [roundStart, CpuLoop.tellMemory])
    change ((executeRound rawInstruction pid (roundStart pid s.loop.cpu)).2.sentToMemory.drop
      (s.loop.cpu.sentToMemory.length + 1)).filter _ = []
    rw [hdrop, List.filter_eq_nil_iff]
    intro m hm
    obtain ⟨text, rfl⟩ := hreports m hm
    simp [MemoryOperation.isAboutProcess]

end LockStep

namespace Migration

variable {ι : Type} {s s' : Migration ι}

/-- **The invariant**: every CPU has its turn, at most one of them has been given the context of a
process, and Kernel Memory has the last registers of a process that no CPU has been given. -/
structure Kept (s : Migration ι) : Prop where
  turn : ∀ i, Turn (s.cpus i).loop ((s.unread i).filter MemoryOperation.isAboutProcess)
    (s.replies i) (s.given i) s.last
  exclusive : ∀ i j p, s.given i = some p → s.given j = some p → i = j
  kept : ∀ p registers, s.processes p = some registers → (∀ i, s.given i ≠ some p) →
    s.last p = some registers
  inOrder : s.InOrder

/-- **The invariant holds at the start.** -/
lemma kept_start (cpus : ι → State) : (start cpus).Kept where
  turn := fun _ => ⟨rfl, .inl ⟨rfl, rfl⟩⟩
  exclusive := fun i j p h => absurd h (by simp [start])
  kept := fun p registers h => absurd h (by simp [start])
  inOrder := ⟨by simp [start], by simp [start]⟩

variable [DecidableEq ι] {i : ι}

/-- A step of a CPU, which has read all but the rest of its replies. -/
lemma Kept.turn_moved {cpu : LockStep} {rest : List MemoryReply} (h : s.Kept)
    (hgoes : Turn.Goes (s.cpus i).loop cpu.loop
      ((s.unread i).filter MemoryOperation.isAboutProcess) rest (s.given i) s.last) (j : ι) :
    Turn ((s.moved i cpu).cpus j).loop
      (((s.moved i cpu).unread j).filter MemoryOperation.isAboutProcess)
      (Function.update s.replies i rest j) (s.given j) s.last := by
  obtain rfl | hne := eq_or_ne j i
  · obtain ⟨sent, hsent, habout, hturn⟩ := hgoes
    simp only [moved, Function.update_self]
    rw [hsent, List.drop_left, List.filter_append, List.filter_eq_self.2 habout]
    exact hturn
  · simp only [moved, Function.update_of_ne hne]
    exact h.turn j

/-- A CPU that moves leaves the turns of the others as they are. -/
lemma Kept.turn_stays {cpu : LockStep} (h : s.Kept)
    (hgoes : Turn.Goes (s.cpus i).loop cpu.loop
      ((s.unread i).filter MemoryOperation.isAboutProcess) (s.replies i) (s.given i) s.last)
    (j : ι) :
    Turn ((s.moved i cpu).cpus j).loop
      (((s.moved i cpu).unread j).filter MemoryOperation.isAboutProcess)
      (s.replies j) (s.given j) s.last := by
  have hmoved := h.turn_moved hgoes j
  rwa [Function.update_eq_self] at hmoved

/-- The invariant is kept by an event between a CPU and the scheduler. -/
lemma Kept.schedule {event : LockStep.Event} (h : s.Kept)
    (hst : s.schedule i event = some s') : s'.Kept := by
  cases event with
  | message =>
    obtain ⟨cpu, hcpu, rfl⟩ := Option.map_eq_some_iff.1 hst
    obtain ⟨message, hloop⟩ := LockStep.loop_of_message hcpu
    exact ⟨h.turn_stays ((h.turn i).message hloop), h.exclusive, h.kept, h.inOrder⟩
  | operation =>
    obtain ⟨cpu, hcpu, rfl⟩ := Option.map_eq_some_iff.1 hst
    exact ⟨h.turn_stays ((h.turn i).goes_same (LockStep.loop_of_operation hcpu)), h.exclusive,
      h.kept, h.inOrder⟩
  | thread action =>
    simp only [Migration.schedule, Option.bind_eq_some_iff, Option.map_eq_some_iff] at hst
    obtain ⟨r, -, ready, -, cpu, hcpu, rfl⟩ := hst
    exact ⟨h.turn_stays ((h.turn i).goes_same (LockStep.loop_of_thread hcpu)), h.exclusive,
      h.kept, h.inOrder⟩
  | context registers table => exact absurd hst (by simp [Migration.schedule])
  | instruction rawInstruction => exact absurd hst (by simp [Migration.schedule])
  | segmentTable table => exact absurd hst (by simp [Migration.schedule])

/-- The invariant is kept when Kernel Memory takes an operation from a connection. -/
lemma Kept.receive (h : s.Kept) (hst : s.receive i = some s') : s'.Kept := by
  unfold Migration.receive at hst
  split at hst
  · exact absurd hst (by simp)
  · rename_i reply rest hreplies
    obtain ⟨cpu, hcpu, rfl⟩ := Option.map_eq_some_iff.1 hst
    have hturn := h.turn i
    rw [hreplies] at hturn
    refine ⟨h.turn_moved ?_, h.exclusive, h.kept, h.inOrder⟩
    cases reply with
    | context registers table => exact hturn.reply (LockStep.loop_of_context hcpu)
    | segmentTable table => exact hturn.replyTable (LockStep.loop_of_segmentTable hcpu)

/-- A round: the registers of the process are those that the CPU has now, and no other CPU has been
given its context. -/
lemma Kept.execute {rawInstruction : String} (h : s.Kept)
    (hst : s.execute i rawInstruction = some s') : s'.Kept := by
  unfold Migration.execute at hst
  split at hst
  · rename_i pid hphase
    split at hst
    · obtain ⟨cpu, hcpu, rfl⟩ := Option.map_eq_some_iff.1 hst
      obtain ⟨hphase', hreports⟩ := LockStep.loop_of_instruction hphase hcpu
      have hturn := h.turn i
      simp only [Turn, hphase] at hturn
      obtain ⟨hreplies, -, hgiven, hlast⟩ := hturn
      refine ⟨fun j => ?_, h.exclusive, fun p registers hprocess hnone => ?_, h.inOrder.1,
        fun x hx => ?_⟩
      · obtain rfl | hne := eq_or_ne j i
        · simp only [moved, Function.update_self]
          rw [hreports]
          rcases hphase' with hphase' | hphase'
          · simp only [Turn, hphase']
            exact ⟨hreplies, trivial, hgiven, Function.update_self ..⟩
          · simp only [Turn, hphase']
            exact ⟨hreplies, .inl trivial⟩
        · simp only [moved, Function.update_of_ne hne]
          refine (h.turn j).congr_last fun q hq _ => Function.update_of_ne ?_ _ _
          rintro rfl
          exact hne (h.exclusive j i _ hq hgiven)
      · have hne : p ≠ UInt32.ofNat pid := by
          rintro rfl
          exact hnone i hgiven
        exact (Function.update_of_ne hne _ _).trans (h.kept p registers hprocess hnone)
      · rcases List.mem_append.1 hx with hx | hx
        · exact h.inOrder.2 x hx
        · rw [List.mem_singleton.1 hx]
          exact hlast
    · exact absurd hst (by simp)
  · exact absurd hst (by simp)

/-- A listener has read a message, and the turns of the other CPUs are as before. -/
lemma Kept.turn_served {rest : List MemoryOperation} {replies : ι → List MemoryReply}
    {given : ι → Option UInt32} (h : s.Kept) (hreplies : ∀ j, j ≠ i → replies j = s.replies j)
    (hgiven : ∀ j, j ≠ i → given j = s.given j)
    (hturn : Turn (s.cpus i).loop (rest.filter MemoryOperation.isAboutProcess) (replies i)
      (given i) s.last) (j : ι) :
    Turn (s.cpus j).loop
      ((Function.update s.unread i rest j).filter MemoryOperation.isAboutProcess) (replies j)
      (given j) s.last := by
  obtain rfl | hne := eq_or_ne j i
  · rwa [Function.update_self]
  · rw [Function.update_of_ne hne, hreplies j hne, hgiven j hne]
    exact h.turn j

/-- A context is sent: no CPU has been given it, so the registers are the last ones. -/
lemma Kept.given {rest : List MemoryOperation} {pid : ℕ} {registers : Registers}
    {table : List Segment} (h : s.Kept)
    (hok : ∀ j, j ≠ i → s.given j ≠ some (UInt32.ofNat pid))
    (hphase : (s.cpus i).loop.phase = .loading pid)
    (hrest : rest.filter MemoryOperation.isAboutProcess = []) (hreplies : s.replies i = [])
    (hgiven : s.given i = none) (hprocess : s.processes (UInt32.ofNat pid) = some registers) :
    Kept { s with
      unread := Function.update s.unread i rest
      replies := Function.update s.replies i (s.replies i ++ [.context registers table])
      given := Function.update s.given i (some (UInt32.ofNat pid))
      contexts := s.contexts ++ [⟨UInt32.ofNat pid, registers, s.last (UInt32.ofNat pid)⟩] } := by
  have hnone (j : ι) : s.given j ≠ some (UInt32.ofNat pid) := by
    obtain rfl | hne := eq_or_ne j i
    · simp [hgiven]
    · exact hok j hne
  have hlast := h.kept _ registers hprocess hnone
  refine ⟨h.turn_served (fun j hne => Function.update_of_ne hne _ _)
    (fun j hne => Function.update_of_ne hne _ _) ?_, fun j k p hj hk => ?_,
    fun p registers' hp hall => h.kept p registers' hp fun j hj => hall j ?_, fun x hx => ?_,
    h.inOrder.2⟩
  · dsimp only
    rw [Function.update_self, Function.update_self, hrest, hreplies, Turn, hphase]
    exact .inr (.inr ⟨registers, table, rfl, rfl, rfl, hlast⟩)
  · dsimp only at hj hk
    obtain rfl | hji := eq_or_ne j i
    · obtain rfl | hki := eq_or_ne k j
      · rfl
      · rw [Function.update_self] at hj
        rw [Function.update_of_ne hki, ← hj] at hk
        exact absurd hk (hnone k)
    · rw [Function.update_of_ne hji] at hj
      obtain rfl | hki := eq_or_ne k i
      · rw [Function.update_self] at hk
        rw [← hk] at hj
        exact absurd hj (hnone j)
      · rw [Function.update_of_ne hki] at hk
        exact h.exclusive j k p hj hk
  · have hne : j ≠ i := by
      rintro rfl
      rw [hgiven] at hj
      exact absurd hj (by simp)
    exact (Function.update_of_ne hne _ _).trans hj
  · rcases List.mem_append.1 hx with hx | hx
    · exact h.inOrder.1 x hx
    · rw [List.mem_singleton.1 hx]
      exact hlast

/-- A context is taken back. -/
lemma Kept.takenBack {rest : List MemoryOperation} {pid : UInt32} {registers : Registers}
    (h : s.Kept) (hgiven : s.given i = some pid) (hlast : s.last pid = some registers)
    (hturn : Turn (s.cpus i).loop (rest.filter MemoryOperation.isAboutProcess) (s.replies i) none
      s.last) :
    Kept { s with
      unread := Function.update s.unread i rest
      processes := Function.update s.processes pid ((s.processes pid).map fun _ => registers)
      given := Function.update s.given i none } := by
  have hother {j : ι} {p : UInt32} (hj : Function.update s.given i none j = some p) :
      s.given j = some p := by
    obtain rfl | hne := eq_or_ne j i
    · rw [Function.update_self] at hj
      exact absurd hj (by simp)
    · rwa [Function.update_of_ne hne] at hj
  refine ⟨h.turn_served (fun _ _ => rfl) (fun j hne => Function.update_of_ne hne _ _) ?_,
    fun j k p hj hk => h.exclusive j k p (hother hj) (hother hk), fun p registers' hp hall => ?_,
    h.inOrder⟩
  · dsimp only
    rwa [Function.update_self]
  · dsimp only at hp hall ⊢
    obtain rfl | hne := eq_or_ne p pid
    · rw [Function.update_self, Option.map_eq_some_iff] at hp
      obtain ⟨-, -, rfl⟩ := hp
      exact hlast
    · rw [Function.update_of_ne hne] at hp
      refine h.kept p registers' hp fun j hj => ?_
      have hji : j ≠ i := by
        rintro rfl
        exact hne (Option.some.inj (hj.symm.trans hgiven))
      exact hall j ((Function.update_of_ne hji _ _).trans hj)

/-- The invariant is kept when Kernel Memory answers, if the context it gives is the last one. -/
lemma Kept.serve {table : List Segment} (h : s.Kept) (hok : s.Settled (.serve i table))
    (hst : s.serve i table = some s') : s'.Kept := by
  have hturn := h.turn i
  unfold Migration.serve at hst
  split at hst
  · exact absurd hst (by simp)
  split at hst
  · exact absurd hst (by simp)
  rename_i message rest hunread
  rw [hunread] at hturn
  have hread : ∀ t, some { s with unread := Function.update s.unread i rest } = some t →
      Turn (s.cpus i).loop (rest.filter MemoryOperation.isAboutProcess) (s.replies i) (s.given i)
        s.last → t.Kept := by
    intro t hst hturn
    obtain rfl := Option.some.inj hst
    exact ⟨h.turn_served (fun _ _ => rfl) (fun _ _ => rfl) hturn, h.exclusive, h.kept, h.inOrder⟩
  by_cases habout : message.isAboutProcess = true
  · rw [List.filter_cons_of_pos habout] at hturn
    rcases hturn.cases_cons with ⟨pid, rfl, hphase, hrest, hreplies, hgiven⟩ |
      ⟨pid, registers, rfl, hgiven, hlast, -, hturn⟩ |
      ⟨pid, keepGoing, rfl, hphase, hrest, hreplies, hgiven, hlast⟩
    · dsimp only at hst
      split at hst
      · apply hread s' hst
        simp only [Turn, hphase]
        exact .inr (.inl ⟨hreplies, hrest⟩)
      · rename_i registers hprocess
        obtain rfl := Option.some.inj hst
        refine h.given (fun j hne hj => ?_) hphase hrest hreplies hgiven hprocess
        exact hok j hne _ hj (by rw [hunread]; rfl)
    · obtain rfl := Option.some.inj hst
      exact h.takenBack hgiven hlast hturn
    · dsimp only at hst
      split at hst
      · apply hread s' hst
        simp only [Turn, hphase]
        exact ⟨.inl ⟨hreplies, .inl hrest⟩, hgiven, hlast⟩
      · obtain rfl := Option.some.inj hst
        refine ⟨h.turn_served (fun j hne => Function.update_of_ne hne _ _) (fun _ _ => rfl) ?_,
          h.exclusive, h.kept, h.inOrder⟩
        dsimp only
        rw [Function.update_self, hreplies]
        simp only [Turn, hphase]
        exact ⟨.inr ⟨hrest, table, rfl⟩, hgiven, hlast⟩
  · rw [List.filter_cons_of_neg habout] at hturn
    cases message with
    | stickDisconnected text =>
      obtain rfl := Option.some.inj hst
      exact ⟨h.turn_served (fun _ _ => rfl) (fun _ _ => rfl) hturn, h.exclusive, h.kept,
        h.inOrder⟩
    | _ => exact absurd rfl habout

omit [DecidableEq ι] in
/-- The invariant is kept when a process that was on no CPU is created. -/
lemma Kept.newProcess {pid : UInt32} (h : s.Kept) (hnone : s.last pid = none) :
    Kept { s with
      processes := Function.update s.processes pid (some initialRegisters)
      last := Function.update s.last pid (some initialRegisters) } := by
  refine ⟨fun j => (h.turn j).congr_last fun p _ hp => ?_, h.exclusive,
    fun p registers hp hall => ?_, h.inOrder⟩
  · apply Function.update_of_ne
    rintro rfl
    exact hp hnone
  · dsimp only at hp ⊢
    obtain rfl | hne := eq_or_ne p pid
    · rwa [Function.update_self] at hp ⊢
    · rw [Function.update_of_ne hne] at hp ⊢
      exact h.kept p registers hp hall

omit [DecidableEq ι] in
/-- The invariant is kept when a process ends. -/
lemma Kept.endProcess {pid : UInt32} (h : s.Kept) :
    Kept { s with processes := Function.update s.processes pid none } := by
  refine ⟨h.turn, h.exclusive, fun p registers hp hall => ?_, h.inOrder⟩
  dsimp only at hp
  obtain rfl | hne := eq_or_ne p pid
  · rw [Function.update_self] at hp
    exact absurd hp (by simp)
  · rw [Function.update_of_ne hne] at hp
    exact h.kept p registers hp hall

/-- **What one step keeps.** -/
lemma Kept.step {action : Action ι} (h : s.Kept) (hok : s.Settled action)
    (hst : s.step action = some s') : s'.Kept := by
  cases action with
  | schedule i event => exact h.schedule hst
  | receive i => exact h.receive hst
  | execute i rawInstruction => exact h.execute hst
  | serve i table => exact h.serve hok hst
  | newProcess pid =>
    simp only [Migration.step] at hst
    split at hst
    · rename_i hnew
      obtain rfl := Option.some.inj hst
      exact h.newProcess hnew.1
    · exact absurd hst (by simp)
  | endProcess pid =>
    obtain rfl := Option.some.inj hst
    exact h.endProcess
  | toReady p =>
    simp only [Migration.step] at hst
    split at hst
    · obtain rfl := Option.some.inj hst
      exact ⟨h.turn, h.exclusive, h.kept, h.inOrder⟩
    · exact absurd hst (by simp)

/-- **No update of registers is lost** in a run in which Kernel Memory serves the request for a
context only when every other CPU that was given it has sent it back. -/
theorem inOrder_of_run {cpus : ι → State} (h : Run step Settled (start cpus) s) : s.InOrder :=
  (h.invariant (kept_start cpus) fun _ _ _ hkept hok hst => hkept.step hok hst).inOrder

instance [Fintype ι] (s : Migration ι) : DecidablePred s.Settled := fun action =>
  match action with
  | .serve i _ =>
    have (j : ι) : Decidable
        (∀ pid ∈ s.given j, (s.unread i).head? ≠ some (.requestContext pid)) :=
      -- not by running through all pids
      Option.decidableForallMem (s.given j)
    inferInstanceAs (Decidable
      (∀ j, j ≠ i → ∀ pid ∈ s.given j, (s.unread i).head? ≠ some (.requestContext pid)))
  | .schedule _ _ => .isTrue trivial
  | .receive _ => .isTrue trivial
  | .execute _ _ => .isTrue trivial
  | .newProcess _ => .isTrue trivial
  | .endProcess _ => .isTrue trivial
  | .toReady _ => .isTrue trivial

instance (s : Migration ι) : Decidable s.InOrder := inferInstanceAs (Decidable (_ ∧ _))

/-- The thread of a CPU takes a process from READY, and the CPU asks for its context. -/
def dispatched (i : ι) (p : ℕ) : List (Action ι) :=
  [.schedule i (.thread .go), .schedule i (.thread (.takeReady (some p))),
    .schedule i (.thread .go), .schedule i (.thread .go), .schedule i (.thread (.send true)),
    .schedule i .message]

/-- Kernel Memory serves a CPU, and the CPU receives what it sends. -/
def served (i : ι) : List (Action ι) := [.serve i [], .receive i]

/-- A round at the end of the quantum: the process is READY, and its CPU has not heard of it. -/
def ranOut (i : ι) : List (Action ι) :=
  [.execute i "NOOP", .schedule i .operation,
    .schedule i (.thread (.handle ⟨.mutexLocked, true⟩)), .schedule i (.thread (.due false)),
    .schedule i (.thread (.due true))]

/-- The CPU hears of it and sends the registers, and Kernel Memory takes them back. -/
def handedBack (i : ι) : List (Action ι) :=
  [.schedule i (.thread (.preempt none)), .schedule i (.thread (.send true)),
    .schedule i .message, .serve i []]

/-- Two CPUs have a process one after the other, and each gets its last context. -/
theorem inOrder_of_run_handedBack : ∃ s : Migration (Fin 2),
    Run step Settled (start fun _ => LockStep.started) s ∧
      s.contexts.map (fun x => (x.pid, x.registers.PC)) = [(7, 0), (7, 1)] ∧ s.InOrder := by
  have hrun : (executeOk step Settled (start fun _ : Fin 2 => LockStep.started)
      ([.newProcess 7, .toReady 7] ++ dispatched 0 7 ++ served 0 ++ ranOut 0 ++ handedBack 0 ++
        dispatched 1 7 ++ served 1)).map
          (fun s => s.contexts.map fun x => (x.pid, x.registers.PC)) =
      some [(7, 0), (7, 1)] := by decide +kernel
  obtain ⟨s, hs, heq⟩ := Option.map_eq_some_iff.1 hrun
  have h := Run.of_executeOk hs
  exact ⟨s, h, heq, inOrder_of_run h⟩

/-- **A process goes back to where it began**: its quantum ends on a CPU, another CPU takes it from
READY, and Kernel Memory serves the request of the second before the registers of the first are
sent. -/
theorem lost_of_migration : ¬ ∀ s : Migration (Fin 2),
    Reachable step (start fun _ => LockStep.started) s → s.InOrder := by
  intro hall
  have hrun : (OsSimulator.execute step (start fun _ : Fin 2 => LockStep.started)
      ([.newProcess 7, .toReady 7] ++ dispatched 0 7 ++ served 0 ++ ranOut 0 ++
        dispatched 1 7 ++ served 1)).map (fun s => decide s.InOrder) = some false := by
    decide +kernel
  obtain ⟨s, hs, heq⟩ := Option.map_eq_some_iff.1 hrun
  exact of_decide_eq_false heq (hall s (.of_execute hs))

end Migration

end OsSimulator.Cpu
