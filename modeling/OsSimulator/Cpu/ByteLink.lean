import OsSimulator.Cpu.LockStep
import OsSimulator.Cpu.OperationCoding

set_option relaxedAutoImplicit false
set_option autoImplicit false

/-!
# A CPU and its scheduler thread over two byte streams

The two parties of `LockStep` with the connections as they are: the bytes of a message may arrive in
pieces of any length, and each party reads with its own calls what has arrived. Whatever way the
bytes take, the two parties behave as if whole messages were handed over in order.

## Main definitions

* `ByteLink`, `ByteLink.step` — the parties with the bytes between them.
* `ByteLink.Proper` — what a step takes from outside has the C type it is declared with.
* `ByteLink.Implements` — the parties are those of a `LockStep`, and the bytes are its messages.

## Main results

* `ByteLink.implements_of_run` — every run over bytes is a run over messages.
* `ByteLink.Implements.exists_step` — whatever the parties can do with messages, they can do with
  bytes as soon as these have arrived.
-/

namespace OsSimulator.Cpu

open OsSimulator.Memory (Segment)
open OsSimulator.Scheduler (CpuMessage CpuThread initDataThreadCpu)

/-! ## The texts of a round -/

/-- What is in a list is in it with separators. -/
lemma mem_intersperse {α : Type} {a : α} {l : List α} (sep : α) (h : a ∈ l) :
    a ∈ l.intersperse sep := by
  induction l with
  | nil => exact absurd h (by simp)
  | cons b rest ih =>
    cases rest with
    | nil => exact h
    | cons c rest =>
      rw [List.intersperse_cons_cons]
      rcases List.mem_cons.1 h with rfl | hrest
      · exact List.mem_cons_self
      · exact List.mem_cons_of_mem _ (List.mem_cons_of_mem _ (ih hrest))

/-- A part of a text that is split is not longer than the text. -/
lemma sublist_of_mem_splitOn {α : Type} [DecidableEq α] {sep : α} {part l : List α}
    (h : part ∈ l.splitOn sep) : part.Sublist l := by
  have hflat := List.sublist_flatten_of_mem (mem_intersperse [sep] h)
  rwa [← List.intercalate, List.intercalate_splitOn] at hflat

/-- The parameters of an instruction are texts like the instruction itself. -/
lemma fitsMessage_of_decodeStage {rawInstruction : String} {instruction : Instruction}
    (h : decodeStage rawInstruction = some instruction) (hraw : FitsMessage rawInstruction) :
    ∀ parameter ∈ instruction.parameters, FitsMessage parameter := by
  intro parameter hmem
  have htext : parameter ∈ (rawInstruction.toList.splitOn ' ').map String.ofList := by
    unfold decodeStage at h
    split at h
    · exact absurd h (by simp)
    · rename_i name parameters hparts
      split at h
      · obtain rfl := Option.some.inj h
        rw [hparts]
        exact List.mem_cons_of_mem _ hmem
      · exact absurd h (by simp)
  obtain ⟨part, hpart, rfl⟩ := List.mem_map.1 htext
  have hsub := sublist_of_mem_splitOn hpart
  refine ⟨fun c hc => ?_, ?_⟩
  · rw [String.toList_ofList] at hc
    exact hraw.1 c (hsub.subset hc)
  · have hle := hsub.length_le
    have := hraw.2
    rw [← String.length_toList, String.toList_ofList]
    rw [String.length_toList] at hle
    omega

/-- `atoi` gives an `int`. -/
lemma isInt_atoi (text : String) : IsInt (atoi text) := isInt_i32 _

/-- All operations that the CPU has sent can be sent. -/
def SendsValid (cpu : State) : Prop := ∀ operation ∈ cpu.sent, operation.Valid

section Rounds

variable {cpu : State} {instruction : Instruction}

/-- Only what has been sent counts. -/
lemma SendsValid.of_sent {after : State} (h : SendsValid cpu) (hsent : after.sent = cpu.sent) :
    SendsValid after := fun operation hmem => h operation (hsent ▸ hmem)

/-- One more valid operation is sent. -/
lemma SendsValid.send (h : SendsValid cpu) {operation : Operation} (hvalid : operation.Valid) :
    SendsValid (cpu.send operation).2 := by
  intro operation' hmem
  rcases List.mem_append.1 hmem with hold | hnew
  · exact h operation' hold
  · obtain rfl := List.mem_singleton.1 hnew
    exact hvalid

/-- A translation sends valid operations only. -/
lemma SendsValid.mmu (h : SendsValid cpu) (logicalAddress size : UInt32) :
    SendsValid (mmu logicalAddress size cpu).2 := by
  unfold Cpu.mmu
  split
  · exact h
  · dsimp only
    split
    · exact h
    · split
      · exact h.send (show FitsMessage "SEGMENTATION FAULT" by decide)
      · exact h

/-- So does an instruction that goes on only with an address. -/
lemma SendsValid.checkAddress {translated : Option UInt32 × State} (h : SendsValid translated.2)
    (onFault : ExtendedBool) {next : UInt32 → State → HandlerResult}
    (hnext : ∀ address, SendsValid (next address translated.2).2) :
    SendsValid (checkAddress translated onFault next).2 := by
  unfold Cpu.checkAddress
  split
  · exact h
  · split
    · exact h
    · split
      · exact h
      · exact hnext _

/-- So does a read. -/
lemma SendsValid.readMemory (h : SendsValid cpu) (address size : UInt32) :
    SendsValid (readMemory address size cpu).2 := by
  obtain ⟨requests, heffect, -⟩ := readMemory_effect address size cpu
  exact h.of_sent heffect.reports.1

/-- So does a write. -/
lemma SendsValid.writeMemory (h : SendsValid cpu) (address : UInt32) (data : List UInt8)
    (size : UInt32) : SendsValid (writeMemory address data size cpu).2 := by
  obtain ⟨requests, heffect, -⟩ := writeMemory_effect address data size cpu
  exact h.of_sent heffect.reports.1

/-- So does a syscall with a valid operation. -/
lemma SendsValid.sendSyscall (h : SendsValid cpu) {operation : Operation}
    (hvalid : operation.Valid) : SendsValid (sendSyscall operation cpu).2 := h.send hvalid

/-- So does one about a segment. -/
lemma SendsValid.sendSegmentSyscall (h : SendsValid cpu) {operation : Operation}
    (hvalid : operation.Valid) : SendsValid (sendSegmentSyscall operation cpu).2 := by
  unfold Cpu.sendSegmentSyscall
  dsimp only
  split
  · exact h.send hvalid
  · exact h.send hvalid

/-- `handler_mov_in` sends valid operations only. -/
lemma SendsValid.movIn (h : SendsValid cpu) (pid : UInt32) :
    SendsValid (handlerMovIn instruction pid cpu).2 := by
  refine (h.mmu _ _).checkAddress .false fun physAddr => ?_
  have hread := (h.mmu cpu.registers.SI wordSize).readMemory physAddr wordSize
  cases hresult : Cpu.readMemory physAddr wordSize (Cpu.mmu cpu.registers.SI wordSize cpu).2 with
  | mk readValue after =>
    rw [hresult] at hread
    cases readValue with
    | none => exact hread
    | some readValue =>
      dsimp only
      cases instruction.parameters with
      | nil => exact hread
      | cons reg rest => exact hread

/-- So does `handler_mov_out`. -/
lemma SendsValid.movOut (h : SendsValid cpu) (pid : UInt32) :
    SendsValid (handlerMovOut instruction pid cpu).2 := by
  unfold handlerMovOut
  cases instruction.parameters with
  | nil => exact h
  | cons reg rest =>
    refine (h.mmu _ _).checkAddress .false fun physAddr => ?_
    have hwrite := (h.mmu cpu.registers.DI wordSize).writeMemory physAddr
      (bytesOfUint32 (cpu.getRegister reg)) wordSize
    split
    · rename_i heq
      rw [heq] at hwrite
      exact hwrite
    · rename_i heq
      rw [heq] at hwrite
      exact hwrite

/-- So does a copy. -/
lemma SendsValid.copyBytes (h : SendsValid cpu) (srcAddr dstAddr byteCount : UInt32) :
    SendsValid (copyBytes srcAddr dstAddr byteCount cpu).2 := by
  unfold Cpu.copyBytes
  have hread := h.readMemory srcAddr byteCount
  split
  · rename_i heq
    rw [heq] at hread
    exact hread
  · rename_i readBytes after heq
    rw [heq] at hread
    have hwrite := SendsValid.writeMemory hread dstAddr readBytes byteCount
    split
    · rename_i heq'
      rw [heq'] at hwrite
      exact hwrite
    · rename_i heq'
      rw [heq'] at hwrite
      exact hwrite

/-- So does `handler_copy_mem`. -/
lemma SendsValid.copyMem (h : SendsValid cpu) (pid : UInt32) :
    SendsValid (handlerCopyMem instruction pid cpu).2 := by
  unfold handlerCopyMem
  cases instruction.parameters with
  | nil => exact h
  | cons reg rest =>
    refine (h.mmu _ _).checkAddress .false fun srcAddr => ?_
    refine ((h.mmu _ _).mmu _ _).checkAddress .true fun dstAddr => ?_
    exact SendsValid.copyBytes ((h.mmu _ _).mmu _ _) srcAddr dstAddr _

/-- **What a handler sends can be sent**, if the parameters of the instruction are texts. -/
lemma SendsValid.handlers (h : SendsValid cpu)
    (hparameters : ∀ parameter ∈ instruction.parameters, FitsMessage parameter) (pid : UInt32) :
    ∀ entry ∈ handlers, SendsValid (entry.2 instruction pid cpu).2 := by
  intro entry hentry
  simp only [Cpu.handlers, List.mem_cons, List.not_mem_nil, or_false] at hentry
  rcases hentry with rfl | rfl | rfl | rfl | rfl | rfl | rfl | rfl | rfl | rfl | rfl | rfl | rfl |
    rfl | rfl | rfl | rfl | rfl
  case inr.inr.inr.inr.inr.inl => exact h.movIn pid
  case inr.inr.inr.inr.inr.inr.inl => exact h.movOut pid
  case inr.inr.inr.inr.inr.inr.inr.inl => exact h.copyMem pid
  all_goals
    simp only [handlerNoop, handlerSet, handlerSum, handlerSub, handlerJnz, handlerMutexCreate,
      handlerMutexLock, handlerMutexUnlock, handlerMemAlloc, handlerMemFree, handlerSleep,
      handlerStdout, handlerStdin, handlerInitProc, handlerExit]
    repeat' split
    all_goals first
      | exact h
      | exact h.sendSyscall trivial
      | exact h.sendSegmentSyscall trivial
      | exact h.sendSyscall (hparameters _ (by simp [*]))
      | exact h.sendSyscall ⟨hparameters _ (by simp [*]), isInt_atoi _⟩
      | exact h.sendSyscall (show FitsMessage "PROCESS FINISHED" by decide)

/-- **What a round sends can be sent.** -/
lemma SendsValid.executeRound (h : SendsValid cpu) {rawInstruction : String}
    (hraw : FitsMessage rawInstruction) (pid : ℕ) :
    SendsValid (executeRound rawInstruction pid cpu).2 := by
  unfold Cpu.executeRound
  cases hdecode : decodeStage rawInstruction with
  | none => exact h
  | some instruction =>
    have hexecuted : SendsValid (executeStage instruction (UInt32.ofNat pid) cpu).2 := by
      unfold executeStage
      cases hlookup : Cpu.handlers.lookup instruction.name with
      | none => exact h
      | some handler =>
        obtain ⟨before, after, heq, -⟩ := List.lookup_eq_some_iff.1 hlookup
        exact h.handlers (fitsMessage_of_decodeStage hdecode hraw) _ (instruction.name, handler)
          (by rw [heq]; simp)
    dsimp only
    cases hresult : executeStage instruction (UInt32.ofNat pid) cpu with
    | mk syscall executed =>
      rw [hresult] at hexecuted
      have hadvanced := SendsValid.of_sent hexecuted (advancePc_spec cpu.registers.PC executed).1
      cases syscall with
      | none => exact hexecuted
      | some syscall =>
        cases syscall with
        | error => exact hexecuted
        | false => exact hadvanced
        | true => exact hadvanced.send (show FitsMessage "OK" by decide)
        | noTable => exact hadvanced.send (show FitsMessage "OK" by decide)

end Rounds

/-! ## The parties and the bytes between them -/

/-- A CPU and its thread with the two directions of their connection. `sent` and `received` are the
operations that the CPU has executed and those that the thread has received, which no step reads. -/
structure ByteLink where
  loop : CpuLoop
  thread : CpuThread
  toScheduler : ByteStream UInt8
  toCpu : ByteStream UInt8
  sent : List Operation
  received : List Operation

namespace ByteLink

/-- A CPU and its thread when they have just connected. -/
def init (cpu : State) : ByteLink where
  loop := ⟨.receivingPid, cpu⟩
  thread := initDataThreadCpu
  toScheduler := .empty
  toCpu := .empty
  sent := []
  received := []

/-- What can happen: bytes arrive at one of the parties, or a party takes a step. -/
inductive Event
  | arriveAtScheduler (n : ℕ)
  | arriveAtCpu (n : ℕ)
  | party (event : LockStep.Event)
  deriving DecidableEq, Repr

/-- The thread has taken a step, and perhaps sent a message. -/
def advanced (b : ByteLink) (r : CpuThread × CpuThread.Effect) : ByteLink :=
  { b with
    thread := r.1
    toCpu := b.toCpu.send (decisionCoding.encodeAll r.2.message.toList) }

/-- A step of one of the parties, which reads from the bytes that have arrived. -/
def partyStep (b : ByteLink) : LockStep.Event → Option ByteLink
  | .message =>
    (receiveMessage b.loop b.toCpu.arrived).map fun received =>
      { b with loop := received.1, toCpu := ⟨b.toCpu.underWay, received.2⟩ }
  | .context registers segmentTable =>
    (b.loop.step (.context registers segmentTable)).map fun loop => { b with loop := loop }
  | .instruction rawInstruction =>
    (b.loop.step (.instruction rawInstruction)).map fun loop =>
      { b with
        loop := loop
        toScheduler := b.toScheduler.send (operationCoding.encodeAll loop.cpu.sent)
        sent := b.sent ++ loop.cpu.sent }
  | .segmentTable segmentTable =>
    (b.loop.step (.segmentTable segmentTable)).map fun loop => { b with loop := loop }
  | .operation =>
    (receiveOperation b.toScheduler.arrived).bind fun operation =>
      (b.thread.step (.receive (operation.1.elim .invalid Operation.opCode))).map
        { b with
          toScheduler := ⟨b.toScheduler.underWay, operation.2⟩
          received := b.received ++ operation.1.toList }.advanced
  | .thread (.receive _) => none
  | .thread action => (b.thread.step action).map b.advanced

/-- One step. -/
def step (b : ByteLink) : Event → Option ByteLink
  | .arriveAtScheduler n => some { b with toScheduler := b.toScheduler.arrive n }
  | .arriveAtCpu n => some { b with toCpu := b.toCpu.arrive n }
  | .party event => b.partyStep event

/-- An instruction is a text that came in a message, and a pid is a `uint32_t`. -/
def ProperEvent : LockStep.Event → Prop
  | .instruction rawInstruction => FitsMessage rawInstruction
  | .thread (.takeReady (some p)) => p < 4294967296
  | .thread (.preempt (some p)) => p < 4294967296
  | _ => True

/-- The condition on a step. -/
def Proper (_ : ByteLink) : Event → Prop
  | .party event => ProperEvent event
  | _ => True

instance : DecidablePred ProperEvent
  | .instruction rawInstruction => inferInstanceAs (Decidable (FitsMessage rawInstruction))
  | .thread (.takeReady (some p)) => inferInstanceAs (Decidable (p < 4294967296))
  | .thread (.preempt (some p)) => inferInstanceAs (Decidable (p < 4294967296))
  | .thread (.takeReady none) | .thread (.preempt none) | .thread .go | .thread (.send _)
  | .thread (.receive _) | .thread (.handle _) | .thread (.due _) | .message | .context _ _
  | .segmentTable _ | .operation => .isTrue trivial

instance (b : ByteLink) : DecidablePred b.Proper
  | .party event => inferInstanceAs (Decidable (ProperEvent event))
  | .arriveAtScheduler _ | .arriveAtCpu _ => .isTrue trivial

/-! ## The refinement -/

/-- The processes of the thread have a pid. -/
def HasPids (thread : CpuThread) : Prop :=
  (∀ p ∈ thread.pcb, p < 4294967296) ∧
    match thread.phase with
    | .preempting p | .replacing p | .replaced p => p < 4294967296
    | _ => True

/-- **The bytes stand for the messages**: the parties are the same, each direction carries the
messages that are in its queue, and what was sent is what was received and what is in the queue. A
CPU that has stopped reads no more. -/
structure Implements (b : ByteLink) (s : LockStep) : Prop where
  loop : b.loop = s.loop
  thread : b.thread = s.thread
  toScheduler : b.toScheduler.Carries operationCoding (s.toScheduler.map Prod.snd)
  toCpu : s.loop.phase ≠ .stopped → b.toCpu.Carries decisionCoding s.toCpu
  hasPids : HasPids s.thread
  history : b.sent = b.received ++ s.toScheduler.map Prod.snd

/-- Before anything is sent the link implements the two parties. -/
lemma implements_init (cpu : State) : (init cpu).Implements (LockStep.init cpu) where
  loop := rfl
  thread := rfl
  toScheduler := ByteStream.carries_empty
  toCpu := fun _ => ByteStream.carries_empty
  hasPids := ⟨by simp [LockStep.init, initDataThreadCpu], trivial⟩
  history := rfl

/-! ## A step of the thread -/

section Thread

variable {t : CpuThread} {r : CpuThread × CpuThread.Effect}

/-- The text of a preemption fits in a message. -/
lemma validMessage_preemptionMessage (t : CpuThread) : ValidMessage t.preemptionMessage := by
  have htext : FitsMessage t.preemptionReason.text := by
    cases t.preemptionReason <;> decide
  unfold CpuThread.preemptionMessage
  split
  · exact htext
  · exact htext

/-- A step that leaves the process and sends no pid. -/
lemma HasPids.of_pcb {t' : CpuThread} (h : HasPids t) (hpcb : t'.pcb = t.pcb)
    (hphase : ∀ p, t'.phase ≠ .preempting p ∧ t'.phase ≠ .replacing p ∧ t'.phase ≠ .replaced p) :
    HasPids t' := by
  refine ⟨by rw [hpcb]; exact h.1, ?_⟩
  cases hnext : t'.phase with
  | preempting p => exact absurd hnext (hphase p).1
  | replacing p => exact absurd hnext (hphase p).2.1
  | replaced p => exact absurd hnext (hphase p).2.2
  | _ => trivial

/-- A thread that sends a process id keeps to ids that fit, and so does the message. -/
lemma HasPids.sendPid (h : HasPids t) (ok : Bool) {next : Scheduler.CpuThreadPhase}
    (hnext : ∀ p, next ≠ .preempting p ∧ next ≠ .replacing p ∧ next ≠ .replaced p) :
    HasPids (t.sendPid ok next).1 ∧ ∀ m ∈ (t.sendPid ok next).2.message, ValidMessage m := by
  unfold CpuThread.sendPid
  split
  · refine ⟨h.of_pcb rfl hnext, fun m hm => ?_⟩
    obtain ⟨p, hp, rfl⟩ := Option.map_eq_some_iff.1 hm
    exact h.1 p hp
  · exact ⟨h.of_pcb rfl (by simp [CpuThread.stop]), by simp [CpuThread.Effect.none]⟩

/-- So does a thread that decides whether to preempt. -/
lemma HasPids.manage (h : HasPids t) (reason : Scheduler.PreemptionReason) (due : Bool)
    {next : Scheduler.CpuThreadPhase}
    (hnext : ∀ p, next ≠ .preempting p ∧ next ≠ .replacing p ∧ next ≠ .replaced p) :
    HasPids (t.manage reason due next).1 ∧
      ∀ m ∈ (t.manage reason due next).2.message, ValidMessage m := by
  unfold CpuThread.manage
  split
  · exact ⟨h.of_pcb rfl hnext, by simp⟩
  · exact ⟨h.of_pcb rfl hnext, by simp [CpuThread.Effect.none]⟩

/-- So does a thread that handles an operation. -/
lemma HasPids.handle (h : HasPids t) (opCode : Scheduler.CpuOpCode) (reply : Scheduler.Reply) :
    HasPids ((t.handle opCode reply).1.goTo .queueBlocked) := by
  have hpcb : (t.handle opCode reply).1.pcb = t.pcb := by
    rcases t.handle_cases opCode reply with ⟨keep, heq⟩ | ⟨reason, -, -, heq | heq⟩
    · rw [heq]
    · rw [heq]
    · rw [heq]
  exact h.of_pcb hpcb (by simp [CpuThread.goTo])

/-- **What the thread sends can be sent**, and its pids stay pids. -/
lemma HasPids.step (h : HasPids t) {action : CpuThread.Action}
    (hproper : ProperEvent (.thread action)) (hstep : t.step action = some r) :
    HasPids r.1 ∧ ∀ m ∈ r.2.message, ValidMessage m := by
  have hinner := h.2
  unfold CpuThread.step at hstep
  split at hstep
  · obtain rfl := Option.some.inj hstep
    refine ⟨h.of_pcb rfl fun p => ?_, by simp [CpuThread.Effect.none]⟩
    simp only [CpuThread.goTo]
    split
    · simp
    · split <;> simp
  · obtain rfl := Option.some.inj hstep
    exact ⟨⟨by simp, trivial⟩, by simp [CpuThread.Effect.none]⟩
  · obtain rfl := Option.some.inj hstep
    exact ⟨⟨fun q hq => Option.some.inj hq ▸ hproper, trivial⟩, by simp⟩
  · obtain rfl := Option.some.inj hstep
    exact ⟨h.of_pcb rfl (by simp [CpuThread.goTo]), by simp⟩
  · obtain rfl := Option.some.inj hstep
    exact ⟨h.of_pcb rfl (by simp [CpuThread.goTo]), by simp⟩
  · split at hstep
    · obtain rfl := Option.some.inj hstep
      exact ⟨h.of_pcb rfl (by simp [CpuThread.stop]), by simp [CpuThread.Effect.none]⟩
    · split at hstep
      · exact absurd hstep (by simp)
      · obtain rfl := Option.some.inj hstep
        exact ⟨h.of_pcb rfl (by simp [CpuThread.goTo]), by simp [CpuThread.Effect.none]⟩
  · split at hstep
    · obtain rfl := Option.some.inj hstep
      exact h.sendPid _ (by simp)
    · exact absurd hstep (by simp)
  · obtain rfl := Option.some.inj hstep
    exact ⟨h.of_pcb rfl (by simp [CpuThread.goTo]), by simp [CpuThread.Effect.none]⟩
  · obtain rfl := Option.some.inj hstep
    exact ⟨h.handle _ _, by simp⟩
  · obtain rfl := Option.some.inj hstep
    exact h.manage _ _ (by simp)
  · obtain rfl := Option.some.inj hstep
    exact h.manage _ _ (by simp)
  · obtain rfl := Option.some.inj hstep
    exact ⟨h.of_pcb rfl (by simp [CpuThread.goTo]), by simp [CpuThread.Effect.none]⟩
  · split at hstep
    · exact absurd hstep (by simp)
    · obtain rfl := Option.some.inj hstep
      exact ⟨⟨h.1, hproper⟩, by simp⟩
  · rename_i newPcb hphase
    rw [hphase] at hinner
    obtain rfl := Option.some.inj hstep
    exact ⟨⟨h.1, hinner⟩, by simp⟩
  · rename_i newPcb hphase
    rw [hphase] at hinner
    obtain rfl := Option.some.inj hstep
    exact ⟨⟨h.1, hinner⟩, by simp⟩
  · rename_i newPcb hphase
    rw [hphase] at hinner
    obtain rfl := Option.some.inj hstep
    exact ⟨⟨fun q hq => Option.some.inj hq ▸ hinner, trivial⟩, by simp⟩
  · obtain rfl := Option.some.inj hstep
    refine ⟨h.of_pcb rfl fun p => ?_, fun m hm => ?_⟩
    · simp only [CpuThread.goTo]
      split <;> simp
    · obtain rfl := Option.some.inj hm
      exact validMessage_preemptionMessage t
  · obtain rfl := Option.some.inj hstep
    exact ⟨h.of_pcb rfl (by simp [CpuThread.stop]), by simp [CpuThread.Effect.none]⟩
  · obtain rfl := Option.some.inj hstep
    exact h.sendPid _ (by simp)
  · obtain rfl := Option.some.inj hstep
    exact ⟨h.of_pcb rfl (by simp [CpuThread.goTo]), by simp⟩
  · exact absurd hstep (by simp)

end Thread

/-! ## A step of the CPU -/

/-- A CPU that has stopped takes no step. -/
lemma ne_stopped_of_step {loop loop' : CpuLoop} {input : Input} (h : loop.step input = some loop') :
    loop.phase ≠ .stopped := by
  intro hphase
  cases input <;> simp [CpuLoop.step, hphase] at h

/-- A CPU reads a message where it can take one. -/
lemma exists_step_of_receiveMessage {loop : CpuLoop} {bytes : List UInt8}
    {received : CpuLoop × List UInt8} (h : receiveMessage loop bytes = some received)
    (message : CpuMessage) : ∃ loop', loop.step (.message message) = some loop' := by
  unfold receiveMessage at h
  unfold CpuLoop.step
  split at h
  · rename_i hphase
    rw [hphase]
    exact ⟨_, rfl⟩
  · rename_i hphase
    rw [hphase]
    exact ⟨_, rfl⟩
  · exact absurd h (by simp)

/-- From an empty connection nothing is received. -/
lemma receiveMessage_nil (loop : CpuLoop) : receiveMessage loop [] = none := by
  have hnone : receiveOpCode [] = none := rfl
  unfold receiveMessage
  split
  · rw [receivePidBytes, hnone, Option.bind_none]
  · rw [checkInterruptBytes, hnone, Option.bind_none]
  · rfl

/-- The round of an instruction. -/
lemma sendsValid_of_instruction {loop loop' : CpuLoop} {rawInstruction : String}
    (h : loop.step (.instruction rawInstruction) = some loop')
    (hraw : FitsMessage rawInstruction) :
    SendsValid loop'.cpu ∧ ∃ pid, loop.phase = .fetching pid := by
  simp only [CpuLoop.step] at h
  split at h
  · rename_i pid hphase
    obtain rfl := Option.some.inj h
    exact ⟨SendsValid.executeRound (fun _ hmem => absurd hmem (by simp)) hraw pid, pid, hphase⟩
  · exact absurd h (by simp)

/-! ## A step of the system -/

section System

variable {b b' : ByteLink} {s s' : LockStep}

/-- The CPU has read a message. -/
lemma Implements.message (h : b.Implements s) (hstep : b.partyStep .message = some b') :
    ∃ s', s.step .message = some s' ∧ b'.Implements s' := by
  obtain ⟨⟨loop', behind⟩, hread, rfl⟩ := Option.map_eq_some_iff.1 hstep
  have hrun : s.loop.phase ≠ .stopped := by
    obtain ⟨loop'', hloop⟩ := exists_step_of_receiveMessage hread (.resumeProcess 0)
    rw [← h.loop]
    exact ne_stopped_of_step hloop
  have hcarries := h.toCpu hrun
  have hwhole := ByteStream.read_bytes (steady_receiveMessage b.loop) hread
  cases hqueue : s.toCpu with
  | nil =>
    rw [hqueue] at hcarries
    rw [hcarries.bytes, show decisionCoding.encodeAll [] = [] from rfl,
      receiveMessage_nil] at hwhole
    exact absurd hwhole (by simp)
  | cons message rest =>
    rw [hqueue] at hcarries
    obtain ⟨loop'', hloop⟩ := exists_step_of_receiveMessage hread message
    obtain ⟨behind', hsend, hbehind⟩ := receiveMessage_send
      (hcarries.valid message List.mem_cons_self) hloop (decisionCoding.encodeAll rest)
    rw [hcarries.bytes_cons] at hwhole
    obtain ⟨rfl, rfl⟩ := Prod.mk.inj (Option.some.inj (hwhole.symm.trans hsend))
    rw [h.loop] at hloop
    refine ⟨s.received rest loop', ?_, ?_⟩
    · simp only [LockStep.step, hqueue, hloop, Option.map_some]
    · have hfields : (s.received rest loop').loop = loop' ∧
          (s.received rest loop').thread = s.thread ∧
          (s.received rest loop').toScheduler = s.toScheduler ∧
          (s.received rest loop').toCpu = rest := by
        unfold LockStep.received
        split
        · exact ⟨rfl, rfl, rfl, rfl⟩
        · exact ⟨rfl, rfl, rfl, rfl⟩
      obtain ⟨hloop', hthread, htoScheduler, htoCpu⟩ := hfields
      constructor
      · exact hloop'.symm
      · rw [hthread]
        exact h.thread
      · rw [htoScheduler]
        exact h.toScheduler
      · rw [hloop', htoCpu]
        exact fun hne => ⟨hbehind hne, fun m hm => hcarries.valid m (List.mem_cons_of_mem _ hm)⟩
      · rw [hthread]
        exact h.hasPids
      · rw [htoScheduler]
        exact h.history

/-- The thread has taken a step, after it has perhaps received an operation. -/
lemma Implements.advanced {action : CpuThread.Action} {r : CpuThread × CpuThread.Effect}
    (h : b.Implements s) (hproper : ProperEvent (.thread action))
    (hstep : s.thread.step action = some r) : (b.advanced r).Implements (s.advanced r) := by
  obtain ⟨hpids, hvalid⟩ := h.hasPids.step hproper hstep
  constructor
  · exact h.loop
  · rfl
  · exact h.toScheduler
  · intro hrun
    exact (h.toCpu hrun).send fun m hm => hvalid m (Option.mem_toList.1 hm)
  · exact hpids
  · exact h.history

/-- The thread has received an operation. -/
lemma Implements.operation (h : b.Implements s) (hstep : b.partyStep .operation = some b') :
    ∃ s', s.step .operation = some s' ∧ b'.Implements s' := by
  obtain ⟨⟨operation, behind⟩, hread, hthread⟩ := Option.bind_eq_some_iff.1 hstep
  obtain ⟨operation, rest, hqueue, rfl, hcarries⟩ :=
    h.toScheduler.receive readBy_receiveOperation hread
  obtain ⟨⟨pid, operation'⟩, rest', hlist, rfl, rfl⟩ := List.map_eq_cons_iff.1 hqueue
  obtain ⟨r, hr, rfl⟩ := Option.map_eq_some_iff.1 hthread
  rw [h.thread] at hr
  refine ⟨{ s with toScheduler := rest', handledFor := pid }.advanced r, ?_, ?_⟩
  · simp only [LockStep.step, hlist]
    rw [show s.thread.step (.receive operation'.opCode) = some r from hr, Option.map_some]
  · have hreceived : ({ b with
        toScheduler := ⟨b.toScheduler.underWay, behind⟩
        received := b.received ++ [operation'] } : ByteLink).Implements
          { s with toScheduler := rest', handledFor := pid } := by
      refine ⟨h.loop, h.thread, hcarries, h.toCpu, h.hasPids, ?_⟩
      rw [h.history, hlist, List.map_cons]
      simp
    exact hreceived.advanced (show ProperEvent (.thread (.receive operation'.opCode)) from trivial)
      hr

/-- The CPU has received a context or a segment table, which is not for the scheduler. -/
lemma Implements.reply {loop : CpuLoop} {input : Input} (h : b.Implements s)
    (hstep : s.loop.step input = some loop) :
    ({ b with loop := loop } : ByteLink).Implements { s with loop := loop } :=
  ⟨rfl, h.thread, h.toScheduler, fun _ => h.toCpu (ne_stopped_of_step hstep), h.hasPids, h.history⟩

/-- The CPU has run a round. -/
lemma Implements.instruction {rawInstruction : String} (h : b.Implements s)
    (hraw : FitsMessage rawInstruction)
    (hstep : b.partyStep (.instruction rawInstruction) = some b') :
    ∃ s', s.step (.instruction rawInstruction) = some s' ∧ b'.Implements s' := by
  obtain ⟨loop, hloop, rfl⟩ := Option.map_eq_some_iff.1 hstep
  obtain ⟨hvalid, pid, hphase⟩ := sendsValid_of_instruction hloop hraw
  rw [h.loop] at hloop hphase
  refine ⟨s.ranRound pid rawInstruction loop, ?_, ?_⟩
  · simp only [LockStep.step, hphase, hloop, Option.map_some]
  · have hsent : (s.ranRound pid rawInstruction loop).toScheduler.map Prod.snd =
        s.toScheduler.map Prod.snd ++ loop.cpu.sent := by
      simp [LockStep.ranRound, List.map_append, Function.comp_def]
    constructor
    · rfl
    · exact h.thread
    · rw [hsent]
      exact h.toScheduler.send hvalid
    · exact fun _ => h.toCpu (ne_stopped_of_step hloop)
    · exact h.hasPids
    · rw [hsent, ← List.append_assoc, ← h.history]

/-- The thread has taken a step of its own. -/
lemma Implements.threadStep {action : CpuThread.Action} (h : b.Implements s)
    (hproper : ProperEvent (.thread action)) (hstep : b.partyStep (.thread action) = some b') :
    ∃ s', s.step (.thread action) = some s' ∧ b'.Implements s' := by
  have hsteps : (∃ opCode, action = .receive opCode) ∨
      b.partyStep (.thread action) = (b.thread.step action).map b.advanced ∧
        s.step (.thread action) = (s.thread.step action).map s.advanced := by
    cases action with
    | receive opCode => exact .inl ⟨opCode, rfl⟩
    | _ => exact .inr ⟨rfl, rfl⟩
  rcases hsteps with ⟨opCode, rfl⟩ | ⟨hbytes, hmessages⟩
  · exact absurd hstep (by simp [partyStep])
  · rw [hbytes] at hstep
    obtain ⟨r, hr, rfl⟩ := Option.map_eq_some_iff.1 hstep
    rw [h.thread] at hr
    exact ⟨s.advanced r, by rw [hmessages, hr, Option.map_some], h.advanced hproper hr⟩

/-- **A step of a party over bytes is a step over messages.** -/
lemma Implements.partyStep {event : LockStep.Event} (h : b.Implements s)
    (hproper : ProperEvent event) (hstep : b.partyStep event = some b') :
    ∃ s', s.step event = some s' ∧ b'.Implements s' := by
  cases event with
  | message => exact h.message hstep
  | context registers segmentTable =>
    obtain ⟨loop, hloop, rfl⟩ := Option.map_eq_some_iff.1 hstep
    rw [h.loop] at hloop
    exact ⟨{ s with loop := loop }, by rw [LockStep.step, hloop, Option.map_some], h.reply hloop⟩
  | instruction rawInstruction => exact h.instruction hproper hstep
  | segmentTable segmentTable =>
    obtain ⟨loop, hloop, rfl⟩ := Option.map_eq_some_iff.1 hstep
    rw [h.loop] at hloop
    exact ⟨{ s with loop := loop }, by rw [LockStep.step, hloop, Option.map_some], h.reply hloop⟩
  | operation => exact h.operation hstep
  | thread action => exact h.threadStep hproper hstep

/-- Bytes that arrive are no step of the parties. -/
lemma Implements.arriveAtScheduler (h : b.Implements s) (n : ℕ) :
    ({ b with toScheduler := b.toScheduler.arrive n } : ByteLink).Implements s :=
  ⟨h.loop, h.thread, h.toScheduler.arrive n, h.toCpu, h.hasPids, h.history⟩

/-- Bytes that arrive at the CPU change nothing for the parties. -/
lemma Implements.arriveAtCpu (h : b.Implements s) (n : ℕ) :
    ({ b with toCpu := b.toCpu.arrive n } : ByteLink).Implements s :=
  ⟨h.loop, h.thread, h.toScheduler, fun hrun => (h.toCpu hrun).arrive n, h.hasPids, h.history⟩

/-- Everything that is under way arrives. -/
def allArrived (b : ByteLink) : List Event :=
  [.arriveAtScheduler b.toScheduler.underWay.length, .arriveAtCpu b.toCpu.underWay.length]

/-- **What the parties can do with messages, they can do with bytes** as soon as these have
arrived. -/
lemma Implements.exists_step {event : LockStep.Event} (h : b.Implements s)
    (hproper : ProperEvent event) (hstep : s.step event = some s') :
    ∃ b', execute step b (b.allArrived ++ [.party event]) = some b' ∧ b'.Implements s' := by
  have harrived := (h.arriveAtScheduler b.toScheduler.underWay.length).arriveAtCpu
    b.toCpu.underWay.length
  set arrived : ByteLink := { b with
    toScheduler := b.toScheduler.arrive b.toScheduler.underWay.length
    toCpu := b.toCpu.arrive b.toCpu.underWay.length } with hdef
  have hrun : execute step b (b.allArrived ++ [.party event]) =
      (arrived.partyStep event).bind fun b' => some b' := rfl
  suffices hsome : ∃ b', arrived.partyStep event = some b' by
    obtain ⟨b', hb'⟩ := hsome
    obtain ⟨s'', hs'', himplements⟩ := harrived.partyStep hproper hb'
    obtain rfl := Option.some.inj (hstep.symm.trans hs'')
    exact ⟨b', by rw [hrun, hb', Option.bind_some], himplements⟩
  cases event with
  | message =>
    cases hqueue : s.toCpu with
    | nil => exact absurd hstep (by simp [LockStep.step, hqueue])
    | cons message rest =>
      simp only [LockStep.step, hqueue] at hstep
      obtain ⟨loop, hloop, -⟩ := Option.map_eq_some_iff.1 hstep
      have hcarries := h.toCpu (ne_stopped_of_step hloop)
      rw [hqueue] at hcarries
      rw [← h.loop] at hloop
      obtain ⟨behind, hread, -⟩ := receiveMessage_send
        (hcarries.valid message List.mem_cons_self) hloop (decisionCoding.encodeAll rest)
      rw [show (cpuMessage message).send = decisionCoding.encode message from rfl,
        ← hcarries.bytes_cons] at hread
      exact ⟨_, Option.map_eq_some_iff.2 ⟨_, ByteStream.read_arrived hread, rfl⟩⟩
  | context registers segmentTable =>
    simp only [LockStep.step] at hstep
    obtain ⟨loop, hloop, -⟩ := Option.map_eq_some_iff.1 hstep
    exact ⟨_, Option.map_eq_some_iff.2 ⟨loop, h.loop ▸ hloop, rfl⟩⟩
  | instruction rawInstruction =>
    simp only [LockStep.step] at hstep
    split at hstep
    · obtain ⟨loop, hloop, -⟩ := Option.map_eq_some_iff.1 hstep
      exact ⟨_, Option.map_eq_some_iff.2 ⟨loop, h.loop ▸ hloop, rfl⟩⟩
    · exact absurd hstep (by simp)
  | segmentTable segmentTable =>
    simp only [LockStep.step] at hstep
    obtain ⟨loop, hloop, -⟩ := Option.map_eq_some_iff.1 hstep
    exact ⟨_, Option.map_eq_some_iff.2 ⟨loop, h.loop ▸ hloop, rfl⟩⟩
  | operation =>
    cases hqueue : s.toScheduler with
    | nil => exact absurd hstep (by simp [LockStep.step, hqueue])
    | cons first rest =>
      obtain ⟨pid, operation⟩ := first
      simp only [LockStep.step, hqueue] at hstep
      obtain ⟨r, hr, -⟩ := Option.map_eq_some_iff.1 hstep
      have hcarries := h.toScheduler
      rw [hqueue, List.map_cons] at hcarries
      obtain ⟨behind, hread⟩ := hcarries.exists_receive readBy_receiveOperation
      refine ⟨_, Option.bind_eq_some_iff.2 ⟨_, hread, Option.map_eq_some_iff.2 ⟨r, ?_, rfl⟩⟩⟩
      rw [← h.thread] at hr
      exact hr
  | thread action =>
    cases action with
    | receive opCode => exact absurd hstep (by simp [LockStep.step])
    | _ =>
      simp only [LockStep.step] at hstep
      obtain ⟨r, hr, -⟩ := Option.map_eq_some_iff.1 hstep
      exact ⟨_, Option.map_eq_some_iff.2 ⟨r, h.thread ▸ hr, rfl⟩⟩

/-- **Every run over bytes is a run over messages.** However the bytes are cut into pieces on their
way, the CPU and its thread are in the states of a run in which whole messages are handed over in
order; the thread has received the first of the operations that the CPU has executed, with their
data; and neither party is held up by anything but bytes that have not arrived.

**Proof sketch.** A reader finds in the bytes that have arrived what it would find in all of them,
and in all of them it finds the first message. So each step over bytes is one over messages, or none
when bytes arrive. -/
theorem implements_of_run {cpu : State} (h : Run step Proper (init cpu) b) :
    ∃ s, Reachable LockStep.step (LockStep.init cpu) s ∧ b.Implements s ∧ b.received <+: b.sent ∧
      ∀ event s', ProperEvent event → s.step event = some s' →
        ∃ b', execute step b (b.allArrived ++ [.party event]) = some b' ∧ b'.Implements s' := by
  have hrefines : ∃ s, Reachable LockStep.step (LockStep.init cpu) s ∧ b.Implements s := by
    refine h.invariant (I := fun b => ∃ s, Reachable LockStep.step (LockStep.init cpu) s ∧
      b.Implements s) ⟨_, .refl, implements_init cpu⟩ fun b e b' hI hproper hstep => ?_
    obtain ⟨s, hreach, himplements⟩ := hI
    cases e with
    | arriveAtScheduler n =>
      obtain rfl := Option.some.inj hstep
      exact ⟨s, hreach, himplements.arriveAtScheduler n⟩
    | arriveAtCpu n =>
      obtain rfl := Option.some.inj hstep
      exact ⟨s, hreach, himplements.arriveAtCpu n⟩
    | party event =>
      obtain ⟨s', hs', himplements'⟩ := himplements.partyStep hproper hstep
      exact ⟨s', hreach.tail event trivial hs', himplements'⟩
  obtain ⟨s, hreach, himplements⟩ := hrefines
  refine ⟨s, hreach, himplements, ?_, fun event s' hproper hs' =>
    himplements.exists_step hproper hs'⟩
  rw [himplements.history]
  exact List.prefix_append _ _

end System

/-- A process is handed to the CPU, which reports its first cycle: the pid and the report arrive in
two pieces. -/
def inPieces : List Event :=
  [.party (.thread .go), .party (.thread (.takeReady (some 7))), .party (.thread .go),
    .party (.thread .go), .party (.thread (.send true)), .arriveAtCpu 5, .arriveAtCpu 7,
    .party .message, .party (.context LockStep.started.registers []),
    .party (.instruction "NOOP"), .arriveAtScheduler 9, .arriveAtScheduler 2, .party .operation]

/-- The report is received, although it came in two pieces. -/
theorem implements_of_run_inPieces :
    ∃ b, Run step Proper (init LockStep.started) b ∧ b.received = [.cycleOk "OK"] ∧
      ∃ s, Reachable LockStep.step (LockStep.init LockStep.started) s ∧ b.Implements s ∧
        b.received <+: b.sent ∧ ∀ event s', ProperEvent event → s.step event = some s' →
          ∃ b', execute step b (b.allArrived ++ [.party event]) = some b' ∧ b'.Implements s' := by
  have htest : (executeOk step Proper (init LockStep.started) inPieces).map ByteLink.received =
      some [.cycleOk "OK"] := by decide +kernel
  obtain ⟨b, hb, hreceived⟩ := Option.map_eq_some_iff.1 htest
  exact ⟨b, .of_executeOk hb, hreceived, implements_of_run (.of_executeOk hb)⟩

end ByteLink

end OsSimulator.Cpu
