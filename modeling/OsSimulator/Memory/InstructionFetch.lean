import OsSimulator.Cpu.Migration
import OsSimulator.Memory.ProcessRegistry

set_option relaxedAutoImplicit false
set_option autoImplicit false

/-!
# Fetching instructions

The CPUs and the part of Kernel Memory that serves them: `cpu_listener.c` on the registry of the
processes. `handle_next_instruction` uses what `find_process` returns and the program counter that
it was sent without a test.

The scheduler is open: it creates and ends processes, resumes them on any CPU and interrupts them as
it likes. Whether a process ends with an instruction is decided when the CPU gets the instruction.

## Main definitions

* `handleNextInstruction`, `handleRequestContext`, `handleUpdatedContext` — the handlers.
* `FetchSystem`, `FetchSystem.step` — CPUs, the registry, and updated contexts on their way.
* `FetchSystem.FetchInside` — every CPU at a fetch asks for an instruction that is there.
* `FetchSystem.StaysInside` — no instruction leaves the program counter outside the script.

## Main results

* `FetchSystem.fetchInside_of_run` — then every fetch is inside the script.
-/

namespace OsSimulator.Memory

universe u

open OsSimulator.Cpu (CpuLoop CyclePhase Registers MemoryOperation executeRound roundStart)
open OsSimulator.Scheduler (CpuMessage)

/-! ## The handlers -/

/-- The text of an instruction as a CPU receives it. -/
def lineText (line : List UInt8) : String := String.ofList (line.map fun b => Char.ofNat b.toNat)

/-- `handle_next_instruction`: the instruction it sends. A null pointer and an index behind the
instructions are read like everything else. -/
def handleNextInstruction (pid pc : UInt32) (processes : List (Option Process)) :
    Option (List UInt8) :=
  (ProcessRegistry.findProcess pid processes).bind fun found =>
    found.bind fun process => process.instructions[pc.toNat]?

/-- `handle_request_context`: the registers it sends, if the process is found. -/
def handleRequestContext (pid : UInt32) (processes : List (Option Process)) :
    Option (Option Registers) :=
  (ProcessRegistry.findProcess pid processes).map fun found => found.map Process.registers

/-- The process that `find_process` returns gets its registers. -/
def setRegisters (pid : UInt32) (registers : Registers) :
    List (Option Process) → List (Option Process)
  | [] => []
  | none :: rest => none :: rest
  | some process :: rest =>
    if process.pid = pid then some { process with registers := registers } :: rest
    else some process :: setRegisters pid registers rest

/-- `handle_updated_context`. -/
def handleUpdatedContext (pid : UInt32) (registers : Registers) (processes : List (Option Process)) :
    Option (List (Option Process)) :=
  (ProcessRegistry.findProcess pid processes).map fun _ => setRegisters pid registers processes

/-! ## The system -/

/-- The CPUs, the list of the processes, the contexts that each CPU has sent back, and the pids of
the processes that have ended for the scheduler. -/
structure FetchSystem (ι : Type u) where
  cpus : ι → CpuLoop
  processes : List (Option Process)
  updates : ι → List (UInt32 × Registers)
  ended : List UInt32

/-- A request of the scheduler to Kernel Memory, a message of the scheduler to a CPU, and the
requests of a CPU to Kernel Memory. A fetch comes with whether the process ends with the
instruction: it is `EXIT`, or the scheduler has to kill the process for it. -/
inductive FetchAction (ι : Type u)
  | request (request : ProcessRequest)
  | message (cpu : ι) (message : CpuMessage)
  | context (cpu : ι) (segmentTable : List Segment)
  | fetch (cpu : ι) (ends : Bool)
  | segmentTable (cpu : ι) (segmentTable : List Segment)
  | updatedContext (cpu : ι)

/-- The contexts among the messages of a CPU. -/
def contexts (sent : List MemoryOperation) : List (UInt32 × Registers) :=
  sent.filterMap fun operation => match operation with
    | .updatedContext pid registers => some (pid, registers)
    | _ => none

/-- The process is there, and the program counter is in its script. -/
def Inside (processes : List (Option Process)) (pid pc : UInt32) : Prop :=
  ∃ process, ProcessRegistry.findProcess pid processes = some (some process) ∧
    pc.toNat < process.instructionCount

namespace FetchSystem

variable {ι : Type u}

/-- CPUs that wait for a process, and no process. -/
def start (cpu : ι → Cpu.State) : FetchSystem ι :=
  ⟨fun i => ⟨.receivingPid, cpu i⟩, [], fun _ => [], []⟩

/-- A CPU receives what it waits for. -/
def receive [DecidableEq ι] (i : ι) (input : Cpu.Input) (s : FetchSystem ι) :
    Option (FetchSystem ι) :=
  ((s.cpus i).step input).map fun loop =>
    { s with
      cpus := Function.update s.cpus i loop
      updates := Function.update s.updates i (s.updates i ++
        contexts (loop.cpu.sentToMemory.drop (s.cpus i).cpu.sentToMemory.length)) }

/-- A process ends for the scheduler. -/
def endsWith (pid : UInt32) (ends : Bool) (s : FetchSystem ι) : FetchSystem ι :=
  if ends then { s with ended := pid :: s.ended } else s

/-- One step; `none` is a request that is not there, that is not answered, or that takes Kernel
Memory down. The messages of one CPU are served in their order. -/
def step [DecidableEq ι] (s : FetchSystem ι) : FetchAction ι → Option (FetchSystem ι)
  | .request (.newProcess pid script) =>
    some { s with processes := ProcessRegistry.handleNewProcess pid script s.processes }
  | .request (.endProcess pid) =>
    (ProcessRegistry.handleEndProcess pid s.processes).map fun processes =>
      { s with processes := processes, ended := pid :: s.ended }
  | .request (.findProcess pid) => (ProcessRegistry.findProcess pid s.processes).map fun _ => s
  | .message i message => s.receive i (.message message)
  | .context i segmentTable =>
    match (s.cpus i).phase, s.updates i with
    | .loading pid, [] =>
      (handleRequestContext (UInt32.ofNat pid) s.processes).bind fun found =>
        found.bind fun registers => s.receive i (.context registers segmentTable)
    | _, _ => none
  | .fetch i ends =>
    match (s.cpus i).phase with
    | .fetching pid =>
      (handleNextInstruction (UInt32.ofNat pid) (s.cpus i).cpu.registers.PC s.processes).bind
        fun line => (s.endsWith (UInt32.ofNat pid) ends).receive i (.instruction (lineText line))
    | _ => none
  | .segmentTable i segmentTable =>
    match (s.cpus i).phase with
    | .refreshing pid _ =>
      (ProcessRegistry.findProcess (UInt32.ofNat pid) s.processes).bind fun found =>
        found.bind fun _ => s.receive i (.segmentTable segmentTable)
    | _ => none
  | .updatedContext i =>
    match s.updates i with
    | [] => none
    | (pid, registers) :: rest =>
      (handleUpdatedContext pid registers s.processes).map fun processes =>
        { s with processes := processes, updates := Function.update s.updates i rest }

/-- **Every fetch is in range**: a CPU at a fetch asks for an instruction of a process that is
there, and `handle_next_instruction` reads one. -/
def FetchInside (s : FetchSystem ι) : Prop :=
  ∀ i pid, (s.cpus i).phase = .fetching pid →
    Inside s.processes (UInt32.ofNat pid) (s.cpus i).cpu.registers.PC ∧
      ∃ line, handleNextInstruction (UInt32.ofNat pid) (s.cpus i).cpu.registers.PC s.processes =
        some line

/-- **No instruction leaves the program counter outside the script**, unless the process ends with
it. A script is not empty. A process that has ended does not get its context, its CPU does not go
on, and END_PROCESS does not come while a CPU goes on with it. -/
def StaysInside (s : FetchSystem ι) : FetchAction ι → Prop
  | .request (.newProcess _ script) => ∀ file ∈ script, file ≠ []
  | .request (.endProcess pid) => ∀ i pid', UInt32.ofNat pid' = pid →
    (s.cpus i).phase ≠ .fetching pid' ∧ (s.cpus i).phase ≠ .refreshing pid' true
  | .message i (.noInterrupt _) =>
    ∀ pid, (s.cpus i).phase = .checkingInterrupt pid → UInt32.ofNat pid ∉ s.ended
  | .context i _ => ∀ pid, (s.cpus i).phase = .loading pid → UInt32.ofNat pid ∉ s.ended
  | .fetch i ends => ends = false → ∀ pid, (s.cpus i).phase = .fetching pid →
    ∀ process, ProcessRegistry.findProcess (UInt32.ofNat pid) s.processes = some (some process) →
      ∀ line, process.instructions[(s.cpus i).cpu.registers.PC.toNat]? = some line →
        (executeRound (lineText line) pid (roundStart pid (s.cpus i).cpu)).2.registers.PC.toNat <
          process.instructionCount
  | _ => True

end FetchSystem

/-! ## The list -/

namespace ProcessRegistry

variable {pid pid' : UInt32} {processes : List (Option Process)} {process : Process}

/-- What is found is in the list. -/
lemma mem_of_findProcess_eq (h : findProcess pid processes = some (some process)) :
    some process ∈ processes ∧ process.pid = pid := by
  induction processes with
  | nil => exact absurd h (by simp [findProcess])
  | cons entry rest ih =>
    cases entry with
    | none => exact absurd h (by simp [findProcess])
    | some p =>
      rw [findProcess] at h
      split at h
      · rename_i hpid
        obtain rfl := Option.some.inj (Option.some.inj h)
        exact ⟨List.mem_cons_self, hpid⟩
      · obtain ⟨hmem, hpid⟩ := ih h
        exact ⟨List.mem_cons_of_mem _ hmem, hpid⟩

/-- A new entry at the end does not hide the others. -/
lemma findProcess_append (h : findProcess pid processes = some (some process))
    (entries : List (Option Process)) :
    findProcess pid (processes ++ entries) = some (some process) := by
  induction processes with
  | nil => exact absurd h (by simp [findProcess])
  | cons entry rest ih =>
    cases entry with
    | none => exact absurd h (by simp [findProcess])
    | some p =>
      rw [List.cons_append, findProcess]
      rw [findProcess] at h
      split at h
      · rename_i hpid
        rw [if_pos hpid, h]
      · rename_i hpid
        rw [if_neg hpid, ih h]

/-- What a new entry at the end adds. -/
lemma findProcess_append_singleton {entry : Option Process}
    (h : findProcess pid (processes ++ [entry]) = some (some process)) :
    findProcess pid processes = some (some process) ∨ entry = some process := by
  induction processes with
  | nil =>
    rw [List.nil_append, findProcess.eq_def] at h
    cases entry with
    | none => exact absurd h (by simp)
    | some p =>
      dsimp only at h
      split at h
      · exact .inr (Option.some.inj h)
      · exact absurd h (by simp [findProcess])
  | cons first rest ih =>
    cases first with
    | none => exact absurd h (by simp [findProcess])
    | some p =>
      rw [List.cons_append, findProcess] at h
      rw [findProcess]
      split at h
      · rename_i hpid
        exact .inl (by rw [if_pos hpid, h])
      · rename_i hpid
        rw [if_neg hpid]
        exact ih h

/-- Another process is taken out. -/
lemma findProcess_erase {ended : Process} (hne : ended.pid ≠ pid)
    (processes : List (Option Process)) :
    findProcess pid (processes.erase (some ended)) = findProcess pid processes := by
  induction processes with
  | nil => rfl
  | cons entry rest ih =>
    rw [List.erase_cons]
    split
    · rename_i heq
      obtain rfl := eq_of_beq heq
      rw [findProcess, if_neg hne]
    · cases entry with
      | none => rfl
      | some p => rw [findProcess, findProcess, ih]

end ProcessRegistry

/-- The registers of a process change, and nothing else. -/
lemma findProcess_setRegisters (pid pid' : UInt32) (registers : Registers)
    (processes : List (Option Process)) :
    ProcessRegistry.findProcess pid' (setRegisters pid registers processes) =
      (ProcessRegistry.findProcess pid' processes).map (Option.map fun process =>
        if pid' = pid then { process with registers := registers } else process) := by
  induction processes with
  | nil => rfl
  | cons entry rest ih =>
    cases entry with
    | none => rfl
    | some p =>
      rw [setRegisters]
      split
      · rename_i hpid
        rw [ProcessRegistry.findProcess, ProcessRegistry.findProcess]
        by_cases hpid' : p.pid = pid'
        · rw [if_pos hpid', if_pos hpid']
          simp [← hpid', hpid]
        · have hne : ¬ pid' = pid := fun heq => hpid' (hpid.trans heq.symm)
          simp [if_neg hpid', hne]
      · rename_i hpid
        rw [ProcessRegistry.findProcess, ProcessRegistry.findProcess, ih]
        by_cases hpid' : p.pid = pid'
        · rw [if_pos hpid', if_pos hpid']
          simp [← hpid', hpid]
        · rw [if_neg hpid', if_neg hpid']

/-- An array of instructions has the length that was counted. -/
def ArraysCounted (processes : List (Option Process)) : Prop :=
  ∀ process, some process ∈ processes → process.instructions.length = process.instructionCount

/-- The counts stay right when a process is created. -/
lemma ArraysCounted.handleNewProcess {processes : List (Option Process)}
    (h : ArraysCounted processes) (pid : UInt32) (script : Option (List UInt8)) :
    ArraysCounted (ProcessRegistry.handleNewProcess pid script processes) := by
  intro process hprocess
  rcases List.mem_append.1 hprocess with hold | hnew
  · exact h process hold
  · rw [List.mem_singleton] at hnew
    obtain ⟨file, -, rfl⟩ := Option.map_eq_some_iff.1 hnew.symm
    exact length_loadInstructions _ _

/-- When a process ends. -/
lemma ArraysCounted.handleEndProcess {processes processes' : List (Option Process)}
    (h : ArraysCounted processes) {pid : UInt32}
    (heq : ProcessRegistry.handleEndProcess pid processes = some processes') :
    ArraysCounted processes' := by
  obtain ⟨found, -, rfl⟩ := Option.map_eq_some_iff.1 heq
  cases found with
  | none => exact h
  | some ended => exact fun process hprocess => h process (List.mem_of_mem_erase hprocess)

/-- When a context comes back. -/
lemma ArraysCounted.setRegisters {processes : List (Option Process)} (h : ArraysCounted processes)
    (pid : UInt32) (registers : Registers) :
    ArraysCounted (setRegisters pid registers processes) := by
  induction processes with
  | nil => exact h
  | cons entry rest ih =>
    have hrest : ArraysCounted rest := fun p hp => h p (List.mem_cons_of_mem entry hp)
    cases entry with
    | none => exact h
    | some p =>
      rw [Memory.setRegisters]
      intro process hprocess
      split at hprocess
      · rcases List.mem_cons.1 hprocess with heq | hmem
        · obtain rfl := Option.some.inj heq
          exact h p List.mem_cons_self
        · exact hrest process hmem
      · rcases List.mem_cons.1 hprocess with heq | hmem
        · obtain rfl := Option.some.inj heq
          exact h process List.mem_cons_self
        · exact ih hrest process hmem

/-! ## Program counters -/

/-- The program counter is in the script, or the process has ended. -/
def Kept (ended : List UInt32) (processes : List (Option Process)) (pid pc : UInt32) : Prop :=
  pid ∈ ended ∨ Inside processes pid pc

/-- A CPU that goes on with a process is inside its script, and one that may do so is unless the
process has ended. -/
def LoopInside (ended : List UInt32) (processes : List (Option Process)) (loop : CpuLoop) : Prop :=
  match loop.phase with
  | .fetching pid | .refreshing pid true =>
    Inside processes (UInt32.ofNat pid) loop.cpu.registers.PC
  | .checkingInterrupt pid | .refreshing pid false =>
    Kept ended processes (UInt32.ofNat pid) loop.cpu.registers.PC
  | .receivingPid | .loading _ | .stopped => True

section Loop

variable {ended : List UInt32} {processes : List (Option Process)} {loop loop' : CpuLoop}

/-- A step of a CPU: where it is then, and the contexts that it sends. -/
def Goes (ended : List UInt32) (processes : List (Option Process)) (loop loop' : CpuLoop) : Prop :=
  LoopInside ended processes loop' ∧
    ∃ sent, loop'.cpu.sentToMemory = loop.cpu.sentToMemory ++ sent ∧
      ∀ update ∈ contexts sent, Kept ended processes update.1 update.2.PC

/-- A step with which no context is sent. -/
lemma Goes.of_silent (hinside : LoopInside ended processes loop') {sent : List MemoryOperation}
    (hsent : loop'.cpu.sentToMemory = loop.cpu.sentToMemory ++ sent)
    (hsilent : ∀ pid registers, .updatedContext pid registers ∉ sent) :
    Goes ended processes loop loop' := by
  refine ⟨hinside, sent, hsent, fun update hupdate => ?_⟩
  obtain ⟨operation, hmem, hsome⟩ := List.mem_filterMap.1 hupdate
  split at hsome
  · exact absurd hmem (hsilent _ _)
  · exact absurd hsome (by simp)

/-- The process is left, and its context is sent back. -/
lemma goes_endCycle {pid : ℕ} {cpu : Cpu.State}
    (hsent : cpu.sentToMemory = loop.cpu.sentToMemory)
    (hkept : Kept ended processes (UInt32.ofNat pid) cpu.registers.PC) :
    Goes ended processes loop (CpuLoop.endCycle pid cpu) := by
  refine ⟨trivial, [.updatedContext (UInt32.ofNat pid) cpu.registers], ?_, ?_⟩
  · rw [← hsent]
    rfl
  · intro update hupdate
    obtain rfl := List.mem_singleton.1 hupdate
    exact hkept

/-- The CPU begins its next round inside its program. -/
lemma goes_nextRound {pid : ℕ} {keepGoing : Bool} {cpu : Cpu.State}
    (hsent : cpu.sentToMemory = loop.cpu.sentToMemory)
    (hkept : Kept ended processes (UInt32.ofNat pid) cpu.registers.PC)
    (hinside : keepGoing = true → Inside processes (UInt32.ofNat pid) cpu.registers.PC) :
    Goes ended processes loop (CpuLoop.nextRound pid keepGoing cpu) := by
  cases keepGoing with
  | true =>
    have hsilent : (CpuLoop.nextRound pid true cpu).cpu.sentToMemory =
        loop.cpu.sentToMemory ++ [] := by
      rw [List.append_nil, ← hsent]
      rfl
    exact .of_silent (hinside rfl) hsilent (by simp)
  | false => exact goes_endCycle hsent hkept

/-- The segment table is asked for. -/
lemma goes_refreshing {pid : ℕ} {keepGoing : Bool} {cpu : Cpu.State}
    (hsent : cpu.sentToMemory = loop.cpu.sentToMemory)
    (hkept : Kept ended processes (UInt32.ofNat pid) cpu.registers.PC)
    (hinside : keepGoing = true → Inside processes (UInt32.ofNat pid) cpu.registers.PC) :
    Goes ended processes loop ⟨.refreshing pid keepGoing,
      CpuLoop.tellMemory (.updatedSegmentTable (UInt32.ofNat pid)) cpu⟩ := by
  have hsilent : (CpuLoop.tellMemory (.updatedSegmentTable (UInt32.ofNat pid)) cpu).sentToMemory =
      loop.cpu.sentToMemory ++ [.updatedSegmentTable (UInt32.ofNat pid)] := by
    rw [← hsent]
    rfl
  refine .of_silent ?_ hsilent (by simp)
  cases keepGoing with
  | true => exact hinside rfl
  | false => exact hkept

/-- A message of the scheduler. -/
lemma goes_message {message : CpuMessage} (h : LoopInside ended processes loop)
    (hgo : ∀ text, message = .noInterrupt text → ∀ pid, loop.phase = .checkingInterrupt pid →
      UInt32.ofNat pid ∉ ended)
    (hstep : loop.step (.message message) = some loop') : Goes ended processes loop loop' := by
  rw [CpuLoop.step] at hstep
  split at hstep
  · obtain rfl := Option.some.inj hstep
    have hstays : Goes ended processes loop ⟨.stopped, loop.cpu⟩ :=
      .of_silent trivial (List.append_nil _).symm (by simp)
    cases message with
    | resumeProcess pid =>
      rw [CpuLoop.receivePid]
      split
      · exact hstays
      · have hsilent : (CpuLoop.tellMemory (.requestContext (UInt32.ofNat pid))
            loop.cpu).sentToMemory =
              loop.cpu.sentToMemory ++ [.requestContext (UInt32.ofNat pid)] := rfl
        exact .of_silent trivial hsilent (by simp)
    | interrupt text => exact hstays
    | noInterrupt text => exact hstays
  · rename_i pid hphase
    obtain rfl := Option.some.inj hstep
    have hkept : Kept ended processes (UInt32.ofNat pid) loop.cpu.registers.PC := by
      simpa [LoopInside, hphase] using h
    cases message with
    | resumeProcess pid =>
      exact .of_silent trivial (List.append_nil _).symm (by simp)
    | interrupt text =>
      rw [Cpu.checkInterrupt]
      split
      · exact goes_endCycle rfl hkept
      · rw [CpuLoop.afterInterrupt]
        split
        · exact goes_refreshing rfl hkept (by simp)
        · exact goes_nextRound rfl hkept (by simp)
    | noInterrupt text =>
      have hinside : Inside processes (UInt32.ofNat pid) loop.cpu.registers.PC :=
        hkept.resolve_left (hgo text rfl pid hphase)
      rw [Cpu.checkInterrupt, CpuLoop.afterInterrupt]
      split
      · exact goes_refreshing rfl hkept fun _ => hinside
      · exact goes_nextRound rfl hkept fun _ => hinside
  · exact absurd hstep (by simp)

/-- The registers that were saved. -/
lemma goes_context {registers : Registers} {segmentTable : List Segment}
    (hinside : ∀ pid, loop.phase = .loading pid →
      Inside processes (UInt32.ofNat pid) registers.PC)
    (hstep : loop.step (.context registers segmentTable) = some loop') :
    Goes ended processes loop loop' := by
  rw [CpuLoop.step] at hstep
  split at hstep
  · rename_i pid hphase
    obtain rfl := Option.some.inj hstep
    exact .of_silent (hinside pid hphase) (List.append_nil _).symm (by simp)
  · exact absurd hstep (by simp)

/-- An instruction. -/
lemma goes_instruction {rawInstruction : String}
    (hkept : ∀ pid, loop.phase = .fetching pid → Kept ended processes (UInt32.ofNat pid)
      (executeRound rawInstruction pid (roundStart pid loop.cpu)).2.registers.PC)
    (hstep : loop.step (.instruction rawInstruction) = some loop') :
    Goes ended processes loop loop' := by
  rw [CpuLoop.step] at hstep
  split at hstep
  · rename_i pid hphase
    obtain rfl := Option.some.inj hstep
    obtain ⟨reports, hreports, hall⟩ :=
      Cpu.ReportsOnly.executeRound rawInstruction pid (roundStart pid loop.cpu)
    have hsent : (executeRound rawInstruction pid (roundStart pid loop.cpu)).2.sentToMemory =
        loop.cpu.sentToMemory ++
          (.nextInstruction (UInt32.ofNat pid) loop.cpu.registers.PC :: reports) := by
      rw [hreports]
      exact List.append_assoc _ _ _
    refine .of_silent ?_ hsent fun pid' registers hmem => ?_
    · rw [LoopInside]
      dsimp only
      split
      · rename_i heq
        split at heq <;> exact absurd heq (by simp)
      · rename_i heq
        split at heq <;> exact absurd heq (by simp)
      · rename_i pid' heq
        split at heq
        · obtain rfl := CyclePhase.checkingInterrupt.inj heq
          exact hkept pid hphase
        · exact absurd heq (by simp)
      · rename_i heq
        split at heq <;> exact absurd heq (by simp)
      all_goals trivial
    · rcases List.mem_cons.1 hmem with heq | hmem
      · exact absurd heq (by simp)
      · obtain ⟨text, heq⟩ := hall _ hmem
        exact absurd heq (by simp)
  · exact absurd hstep (by simp)

/-- The segment table. -/
lemma goes_segmentTable {segmentTable : List Segment} (h : LoopInside ended processes loop)
    (hstep : loop.step (.segmentTable segmentTable) = some loop') :
    Goes ended processes loop loop' := by
  rw [CpuLoop.step] at hstep
  split at hstep
  · rename_i pid keepGoing hphase
    obtain rfl := Option.some.inj hstep
    cases keepGoing with
    | true =>
      have hinside : Inside processes (UInt32.ofNat pid) loop.cpu.registers.PC := by
        simpa [LoopInside, hphase] using h
      exact goes_nextRound rfl (.inr hinside) fun _ => hinside
    | false =>
      have hkept : Kept ended processes (UInt32.ofNat pid) loop.cpu.registers.PC := by
        simpa [LoopInside, hphase] using h
      exact goes_nextRound rfl hkept (by simp)
  · exact absurd hstep (by simp)

end Loop

/-! ## The runs -/

/-- The registry and the processes that have ended become others, and no other process loses its
script. -/
def Follows (ended ended' : List UInt32) (processes processes' : List (Option Process)) : Prop :=
  ∀ pid ∉ ended', pid ∉ ended ∧
    ∀ process, ProcessRegistry.findProcess pid processes = some (some process) →
      ∃ process', ProcessRegistry.findProcess pid processes' = some (some process') ∧
        process'.instructionCount = process.instructionCount

/-- What a CPU has stays right while others come and end. -/
lemma Kept.of_follows {ended ended' : List UInt32} {processes processes' : List (Option Process)}
    {pid pc : UInt32} (h : Kept ended processes pid pc)
    (hfollows : Follows ended ended' processes processes') : Kept ended' processes' pid pc := by
  by_cases hended : pid ∈ ended'
  · exact .inl hended
  · obtain ⟨hnot, hkeeps⟩ := hfollows pid hended
    obtain ⟨process, hfind, hlt⟩ := h.resolve_left hnot
    obtain ⟨process', hfind', hcount⟩ := hkeeps process hfind
    exact .inr ⟨process', hfind', hcount ▸ hlt⟩

namespace FetchSystem

variable {ι : Type u} {s s' : FetchSystem ι}

/-- What every step keeps: the program counters in the CPUs, in the contexts on their way and in the
registry. -/
structure CountersKept (s : FetchSystem ι) : Prop where
  cpus : ∀ i, LoopInside s.ended s.processes (s.cpus i)
  updates : ∀ i, ∀ update ∈ s.updates i, Kept s.ended s.processes update.1 update.2.PC
  saved : ∀ pid process, ProcessRegistry.findProcess pid s.processes = some (some process) →
    Kept s.ended s.processes pid process.registers.PC
  counted : ArraysCounted s.processes

/-- A CPU makes a step. -/
lemma CountersKept.receive [DecidableEq ι] {i : ι} {input : Cpu.Input} (h : s.CountersKept)
    (hreceive : s.receive i input = some s')
    (hgoes : ∀ loop, (s.cpus i).step input = some loop →
      Goes s.ended s.processes (s.cpus i) loop) : s'.CountersKept := by
  obtain ⟨loop, hloop, rfl⟩ := Option.map_eq_some_iff.1 hreceive
  obtain ⟨hinside, sent, hsent, hcontexts⟩ := hgoes loop hloop
  refine ⟨fun j => ?_, fun j update hupdate => ?_, h.saved, h.counted⟩
  · dsimp only
    by_cases hj : j = i
    · rw [hj, Function.update_self]
      exact hinside
    · rw [Function.update_of_ne hj]
      exact h.cpus j
  · dsimp only at hupdate
    rw [hsent, List.drop_left] at hupdate
    by_cases hj : j = i
    · rw [hj, Function.update_self] at hupdate
      rcases List.mem_append.1 hupdate with hold | hnew
      · exact h.updates i update hold
      · exact hcontexts update hnew
    · rw [Function.update_of_ne hj] at hupdate
      exact h.updates j update hupdate

/-- The registry changes, and a CPU that goes on with a process does not lose it. -/
lemma LoopInside.of_follows {ended ended' : List UInt32}
    {processes processes' : List (Option Process)} {loop : CpuLoop}
    (h : LoopInside ended processes loop)
    (hfollows : Follows ended ended' processes processes')
    (hgoes : ∀ pid, loop.phase = .fetching pid ∨ loop.phase = .refreshing pid true →
      Inside processes (UInt32.ofNat pid) loop.cpu.registers.PC →
        Inside processes' (UInt32.ofNat pid) loop.cpu.registers.PC) :
    LoopInside ended' processes' loop := by
  unfold LoopInside at h ⊢
  split
  · rename_i pid hphase
    rw [hphase] at h
    exact hgoes pid (.inl hphase) h
  · rename_i pid hphase
    rw [hphase] at h
    exact hgoes pid (.inr hphase) h
  · rename_i pid hphase
    rw [hphase] at h
    exact Kept.of_follows h hfollows
  · rename_i pid hphase
    rw [hphase] at h
    exact Kept.of_follows h hfollows
  all_goals trivial

/-- A process ends for the scheduler. -/
lemma CountersKept.endsWith (h : s.CountersKept) (pid : UInt32) (ends : Bool) :
    (s.endsWith pid ends).CountersKept := by
  cases ends with
  | false => exact h
  | true =>
    have hfollows : Follows s.ended (pid :: s.ended) s.processes s.processes := by
      intro pid' hnot
      rw [List.mem_cons, not_or] at hnot
      exact ⟨hnot.2, fun process hfind => ⟨process, hfind, rfl⟩⟩
    exact ⟨fun i => LoopInside.of_follows (h.cpus i) hfollows fun _ _ hinside => hinside,
      fun i update hupdate => (h.updates i update hupdate).of_follows hfollows,
      fun pid' process hfind => (h.saved pid' process hfind).of_follows hfollows, h.counted⟩

/-- `init_process` leaves the program counter at the first instruction. -/
lemma kept_of_initProcess {pid pid' : UInt32} {script : Option (List UInt8)} {process : Process}
    {ended : List UInt32} {processes : List (Option Process)}
    (hinit : initProcess pid script = some process) (hscript : ∀ file ∈ script, file ≠ [])
    (hfind : ProcessRegistry.findProcess pid' processes = some (some process)) :
    Kept ended processes pid' process.registers.PC := by
  obtain ⟨file, hfile, rfl⟩ := Option.map_eq_some_iff.1 hinit
  refine .inr ⟨_, hfind, ?_⟩
  obtain ⟨b, rest, rfl⟩ := List.exists_cons_of_ne_nil (hscript file hfile)
  exact Nat.succ_pos _

/-- A new process starts inside its script. -/
lemma CountersKept.newProcess (h : s.CountersKept) (pid : UInt32) {script : Option (List UInt8)}
    (hscript : ∀ file ∈ script, file ≠ []) :
    CountersKept { s with
      processes := ProcessRegistry.handleNewProcess pid script s.processes } := by
  have hfollows : Follows s.ended s.ended s.processes
      (ProcessRegistry.handleNewProcess pid script s.processes) := by
    intro pid' hnot
    refine ⟨hnot, fun process hfind => ⟨process, ?_, rfl⟩⟩
    exact ProcessRegistry.findProcess_append hfind _
  refine ⟨fun i => LoopInside.of_follows (h.cpus i) hfollows ?_,
    fun i update hupdate => (h.updates i update hupdate).of_follows hfollows,
    fun pid' process hfind => ?_, h.counted.handleNewProcess pid script⟩
  · rintro pid' - ⟨process, hfind, hlt⟩
    exact ⟨process, ProcessRegistry.findProcess_append hfind _, hlt⟩
  · rcases ProcessRegistry.findProcess_append_singleton hfind with hold | hinit
    · exact (h.saved pid' process hold).of_follows hfollows
    · exact kept_of_initProcess hinit hscript hfind

/-- A process ends that no CPU is about to fetch for. -/
lemma CountersKept.endProcess {pid : UInt32} {processes : List (Option Process)}
    (h : s.CountersKept) (hend : ProcessRegistry.handleEndProcess pid s.processes = some processes)
    (hcpus : ∀ i pid', UInt32.ofNat pid' = pid →
      (s.cpus i).phase ≠ .fetching pid' ∧ (s.cpus i).phase ≠ .refreshing pid' true) :
    CountersKept { s with processes := processes, ended := pid :: s.ended } := by
  have hother : ∀ pid' ≠ pid, ProcessRegistry.findProcess pid' processes =
      ProcessRegistry.findProcess pid' s.processes := by
    intro pid' hne
    obtain ⟨found, hfound, rfl⟩ := Option.map_eq_some_iff.1 hend
    cases found with
    | none => rfl
    | some ended =>
      have hended := (ProcessRegistry.mem_of_findProcess_eq hfound).2
      exact ProcessRegistry.findProcess_erase (hended.trans_ne hne.symm) s.processes
  have hfollows : Follows s.ended (pid :: s.ended) s.processes processes := by
    intro pid' hnot
    rw [List.mem_cons, not_or] at hnot
    exact ⟨hnot.2, fun process hfind => ⟨process, by rw [hother pid' hnot.1, hfind], rfl⟩⟩
  refine ⟨fun i => LoopInside.of_follows (h.cpus i) hfollows fun pid' hphase hinside => ?_,
    fun i update hupdate => (h.updates i update hupdate).of_follows hfollows,
    fun pid' process hfind => ?_, h.counted.handleEndProcess hend⟩
  · have hne : UInt32.ofNat pid' ≠ pid := by
      intro heq
      rcases hphase with hfetching | hrefreshing
      · exact (hcpus i pid' heq).1 hfetching
      · exact (hcpus i pid' heq).2 hrefreshing
    rw [Inside, hother _ hne]
    exact hinside
  · by_cases hpid : pid' = pid
    · exact .inl (hpid ▸ List.mem_cons_self)
    · exact (h.saved pid' process (by rw [← hother pid' hpid, hfind])).of_follows hfollows

variable [DecidableEq ι]

/-- A saved context is served, which was kept when it was sent. -/
lemma CountersKept.updatedContext {i : ι} {pid : UInt32} {registers : Cpu.Registers}
    {rest : List (UInt32 × Cpu.Registers)} (h : s.CountersKept)
    (hupdates : s.updates i = (pid, registers) :: rest) :
    CountersKept { s with
      processes := setRegisters pid registers s.processes
      updates := Function.update s.updates i rest } := by
  have hkeeps : ∀ pid' process,
      ProcessRegistry.findProcess pid' s.processes = some (some process) →
      ∃ process', ProcessRegistry.findProcess pid' (setRegisters pid registers s.processes) =
        some (some process') ∧ process'.instructionCount = process.instructionCount := by
    intro pid' process hfind
    rw [findProcess_setRegisters, hfind]
    refine ⟨_, rfl, ?_⟩
    split <;> rfl
  have hfollows : Follows s.ended s.ended s.processes
      (setRegisters pid registers s.processes) := fun pid' hnot => ⟨hnot, hkeeps pid'⟩
  refine ⟨fun j => LoopInside.of_follows (h.cpus j) hfollows ?_, fun j update hupdate => ?_,
    fun pid' process hfind => ?_, h.counted.setRegisters pid registers⟩
  · rintro pid' - ⟨process, hfind, hlt⟩
    obtain ⟨process', hfind', hcount⟩ := hkeeps _ process hfind
    exact ⟨process', hfind', hcount ▸ hlt⟩
  · dsimp only at hupdate
    have hmem : update ∈ s.updates j := by
      by_cases hj : j = i
      · subst hj
        rw [Function.update_self] at hupdate
        rw [hupdates]
        exact List.mem_cons_of_mem _ hupdate
      · rwa [Function.update_of_ne hj] at hupdate
    exact (h.updates j update hmem).of_follows hfollows
  · rw [findProcess_setRegisters] at hfind
    obtain ⟨found, hfound, hentry⟩ := Option.map_eq_some_iff.1 hfind
    obtain ⟨old, rfl, rfl⟩ := Option.map_eq_some_iff.1 hentry
    split
    · rename_i hpid
      have hmem : (pid, registers) ∈ s.updates i := by
        rw [hupdates]
        exact List.mem_cons_self
      rw [hpid]
      exact (h.updates i _ hmem).of_follows hfollows
    · exact (h.saved pid' old hfound).of_follows hfollows

/-- **A step with which no instruction leaves its script.** -/
lemma countersKept_step {action : FetchAction ι} (h : s.CountersKept)
    (hok : s.StaysInside action) (hstep : s.step action = some s') : s'.CountersKept := by
  cases action with
  | request request =>
    cases request with
    | newProcess pid script =>
      obtain rfl := Option.some.inj hstep
      exact h.newProcess pid hok
    | endProcess pid =>
      obtain ⟨processes, hend, rfl⟩ := Option.map_eq_some_iff.1 hstep
      exact h.endProcess hend hok
    | findProcess pid =>
      obtain ⟨-, -, rfl⟩ := Option.map_eq_some_iff.1 hstep
      exact h
  | message i message =>
    refine h.receive hstep fun loop hloop => goes_message (h.cpus i) ?_ hloop
    rintro text rfl pid hphase
    exact hok pid hphase
  | context i segmentTable =>
    rw [step] at hstep
    split at hstep
    · rename_i pid hphase _
      obtain ⟨found, hfound, hrest⟩ := Option.bind_eq_some_iff.1 hstep
      obtain ⟨registers, rfl, hreceive⟩ := Option.bind_eq_some_iff.1 hrest
      obtain ⟨entry, hfind, hentry⟩ := Option.map_eq_some_iff.1 hfound
      obtain ⟨process, rfl, rfl⟩ := Option.map_eq_some_iff.1 hentry
      refine h.receive hreceive fun loop hloop => goes_context ?_ hloop
      intro pid' hphase'
      obtain rfl := CyclePhase.loading.inj (hphase.symm.trans hphase')
      exact (h.saved _ process hfind).resolve_left (hok pid hphase)
    · exact absurd hstep (by simp)
  | fetch i ends =>
    rw [step] at hstep
    split at hstep
    · rename_i pid hphase
      obtain ⟨line, hline, hreceive⟩ := Option.bind_eq_some_iff.1 hstep
      obtain ⟨found, hfind, hentry⟩ := Option.bind_eq_some_iff.1 hline
      obtain ⟨process, rfl, hget⟩ := Option.bind_eq_some_iff.1 hentry
      have hcpus : (s.endsWith (UInt32.ofNat pid) ends).cpus i = s.cpus i := by
        cases ends <;> rfl
      refine (h.endsWith (UInt32.ofNat pid) ends).receive hreceive fun loop hloop => ?_
      rw [hcpus] at hloop ⊢
      refine goes_instruction (fun pid' hphase' => ?_) hloop
      obtain rfl := CyclePhase.fetching.inj (hphase.symm.trans hphase')
      cases ends with
      | true => exact .inl List.mem_cons_self
      | false => exact .inr ⟨process, hfind, hok rfl pid hphase process hfind line hget⟩
    · exact absurd hstep (by simp)
  | segmentTable i segmentTable =>
    rw [step] at hstep
    split at hstep
    · obtain ⟨found, -, hrest⟩ := Option.bind_eq_some_iff.1 hstep
      obtain ⟨-, -, hreceive⟩ := Option.bind_eq_some_iff.1 hrest
      exact h.receive hreceive fun loop hloop => goes_segmentTable (h.cpus i) hloop
    · exact absurd hstep (by simp)
  | updatedContext i =>
    rw [step] at hstep
    split at hstep
    · exact absurd hstep (by simp)
    · rename_i pid registers rest hupdates
      obtain ⟨processes, hupdated, rfl⟩ := Option.map_eq_some_iff.1 hstep
      obtain ⟨-, -, rfl⟩ := Option.map_eq_some_iff.1 hupdated
      exact h.updatedContext hupdates

/-- **In a run in which no instruction leaves the program counter outside its script every fetch is
in range.** -/
theorem fetchInside_of_run {cpu : ι → Cpu.State} (h : Run step StaysInside (start cpu) s) :
    FetchInside s := by
  have hkept : s.CountersKept := by
    refine h.invariant ?_ fun t action t' ht hok hstep => countersKept_step ht hok hstep
    refine ⟨fun i => trivial, fun i update hupdate => ?_, fun pid process hfind => ?_,
      fun process hprocess => ?_⟩
    · exact absurd hupdate List.not_mem_nil
    · exact absurd hfind (by simp [start, ProcessRegistry.findProcess])
    · exact absurd hprocess List.not_mem_nil
  intro i pid hphase
  have hinside : Inside s.processes (UInt32.ofNat pid) (s.cpus i).cpu.registers.PC := by
    simpa [LoopInside, hphase] using hkept.cpus i
  refine ⟨hinside, ?_⟩
  obtain ⟨process, hfind, hlt⟩ := hinside
  have hmem := (ProcessRegistry.mem_of_findProcess_eq hfind).1
  rw [← hkept.counted process hmem] at hlt
  refine ⟨process.instructions[(s.cpus i).cpu.registers.PC.toNat], ?_⟩
  rw [handleNextInstruction, hfind, Option.bind_some, Option.bind_some, List.getElem?_eq_getElem hlt]

/-- A process goes on behind the first of its two instructions. -/
theorem fetchInside_of_run_noop : ∃ s : FetchSystem Unit,
    Run step StaysInside (start fun _ => Cpu.LockStep.started) s ∧
      ((s.cpus ()).phase, (s.cpus ()).cpu.registers.PC) = (.fetching 0, 1) ∧ FetchInside s := by
  -- the bytes of "NOOP\nEXIT"
  let script : List UInt8 := [78, 79, 79, 80, 10, 69, 88, 73, 84]
  have hrun : (execute step (start fun _ : Unit => Cpu.LockStep.started)
      [.request (.newProcess 0 (some script)), .message () (.resumeProcess 0), .context () [],
        .fetch () false, .message () (.noInterrupt "OK")]).map
          (fun s => ((s.cpus ()).phase, (s.cpus ()).cpu.registers.PC)) =
      some (.fetching 0, 1) := by decide +kernel
  obtain ⟨s, hs, hphase⟩ := Option.map_eq_some_iff.1 hrun
  have hadmitted : Run step StaysInside (start fun _ : Unit => Cpu.LockStep.started) s := by
    refine Run.of_execute_of_admitted hs ⟨?_, ?_⟩
    · simp [StaysInside, script]
    · intro t ht
      obtain rfl := Option.some.inj ht
      refine ⟨trivial, fun t ht => ?_⟩
      obtain rfl := Option.some.inj ht
      refine ⟨fun pid _ => List.not_mem_nil, fun t ht => ?_⟩
      obtain rfl := Option.some.inj ht
      refine ⟨?_, fun t ht => ?_⟩
      · rintro - pid hphase process hfind line hline
        obtain rfl := CyclePhase.fetching.inj hphase
        obtain rfl := Option.some.inj (Option.some.inj hfind)
        obtain rfl := Option.some.inj hline
        decide +kernel
      · obtain rfl := Option.some.inj ht
        exact ⟨fun pid _ => List.not_mem_nil, fun _ _ => trivial⟩
  exact ⟨s, hadmitted, hphase, fetchInside_of_run hadmitted⟩

/-- **A script without `EXIT`**: the CPU goes on behind the only instruction, and what it asks for
is behind the array. -/
theorem fetch_outside_script : ¬ ∀ s : FetchSystem Unit,
    Reachable step (start fun _ => Cpu.LockStep.started) s → FetchInside s := by
  intro hall
  -- the bytes of "NOOP"
  have hrun : (execute step (start fun _ : Unit => Cpu.LockStep.started)
      [.request (.newProcess 0 (some [78, 79, 79, 80])), .message () (.resumeProcess 0),
        .context () [], .fetch () false, .message () (.noInterrupt "OK")]).map
          (fun s => ((s.cpus ()).phase, handleNextInstruction 0 (s.cpus ()).cpu.registers.PC
            s.processes)) = some (.fetching 0, none) := by decide +kernel
  obtain ⟨s, hs, heq⟩ := Option.map_eq_some_iff.1 hrun
  obtain ⟨hphase, hnone⟩ := Prod.mk.inj heq
  obtain ⟨-, line, hline⟩ := hall s (.of_execute hs) () 0 hphase
  exact absurd (hnone.symm.trans hline) (by simp)

end FetchSystem

end OsSimulator.Memory
