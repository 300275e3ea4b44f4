import OsSimulator.Cpu.Handlers
import OsSimulator.Scheduler.CpuThread

set_option relaxedAutoImplicit false
set_option autoImplicit false

/-!
# The instruction cycle

`run_instruction_loop` and `run_instruction_cycle` of `cpu.c`, from one message that the CPU waits
for to the next: a decision of the scheduler, or a reply of Kernel Memory. A pid is the scheduler's
name for the process, of which the CPU sees 32 bits.

## Main definitions

* `decodeStage`, `checkInterrupt` — the stages beside `execute_stage`.
* `executeRound` — a round of the cycle up to `check_interrupt`.
* `CpuLoop`, `CpuLoop.step` — the loop.
-/

namespace OsSimulator.Cpu

open OsSimulator.Memory (Segment)
open OsSimulator.Scheduler (CpuMessage)

/-- `decode_stage`. An instruction has room for three parameters. -/
def decodeStage (rawInstruction : String) : Option Instruction :=
  match (rawInstruction.toList.splitOn ' ').map String.ofList with
  | [] => none
  | name :: parameters => if parameters.length ≤ 3 then some ⟨name, parameters⟩ else none

/-- `check_interrupt` on the message that was received. -/
def checkInterrupt : CpuMessage → ExtendedBool
  | .interrupt text =>
    if text = "there is not enough memory for this instruction" then .noTable else .false
  | .noInterrupt _ => .true
  | .resumeProcess _ => .error

/-- An instruction that has not changed the program counter is followed by the next one. -/
def advancePc (initialPc : UInt32) (cpu : State) : State :=
  if initialPc = cpu.registers.PC then
    { cpu with registers := { cpu.registers with PC := cpu.registers.PC + 1 } }
  else cpu

/-- A round of `run_instruction_cycle` from `decode_stage` to the report, with whether it comes to
`check_interrupt`. A handler that does not return ends the CPU. -/
def executeRound (rawInstruction : String) (pid : ℕ) (cpu : State) : Bool × State :=
  match decodeStage rawInstruction with
  | none => (false, cpu)
  | some instruction =>
    match executeStage instruction (UInt32.ofNat pid) cpu with
    | (none, executed) => (false, executed)
    | (some .error, executed) => (false, executed)
    | (some syscall, executed) =>
      let advanced := advancePc cpu.registers.PC executed
      if syscall = .false then (true, advanced) else advanced.send (.cycleOk "OK")

/-- Where the CPU is: at the message it waits for, or past the loop. -/
inductive CyclePhase
  /-- in `receive_pid` -/
  | receivingPid
  /-- at the context of a process -/
  | loading (pid : ℕ)
  /-- at an instruction of the process -/
  | fetching (pid : ℕ)
  /-- in `check_interrupt` -/
  | checkingInterrupt (pid : ℕ)
  /-- in `update_segment_table`, with whether the process goes on -/
  | refreshing (pid : ℕ) (keepGoing : Bool)
  | stopped
  deriving DecidableEq, Repr

/-- A CPU. -/
structure CpuLoop where
  phase : CyclePhase
  cpu : State
  deriving DecidableEq, Repr

/-- What a CPU waits for: a message of the scheduler, and the replies of Kernel Memory to
`OP_REQUEST_CONTEXT`, `OP_NEXT_INSTRUCTION` and `OP_UPDATED_SEGMENT_TABLE`. -/
inductive Input
  | message (message : CpuMessage)
  | context (registers : Registers) (segmentTable : List Segment)
  | instruction (rawInstruction : String)
  | segmentTable (segmentTable : List Segment)
  deriving DecidableEq, Repr

namespace CpuLoop

/-- A message to Kernel Memory. -/
def tellMemory (operation : MemoryOperation) (cpu : State) : State :=
  { cpu with sentToMemory := cpu.sentToMemory ++ [operation] }

/-- The end of `run_instruction_cycle`. -/
def endCycle (pid : ℕ) (cpu : State) : CpuLoop :=
  ⟨.receivingPid, tellMemory (.updatedContext (UInt32.ofNat pid) cpu.registers) cpu⟩

/-- A round that goes on after `check_interrupt` and `update_segment_table`. -/
def nextRound (pid : ℕ) (keepGoing : Bool) (cpu : State) : CpuLoop :=
  if keepGoing then ⟨.fetching pid, cpu⟩ else endCycle pid cpu

/-- A round of `run_instruction_cycle` behind `check_interrupt`. -/
def afterInterrupt (pid : ℕ) (interrupt : ExtendedBool) (cpu : State) : CpuLoop :=
  match interrupt with
  | .error => ⟨.stopped, cpu⟩
  | .noTable => endCycle pid { cpu with segmentChanged := false }
  | .false =>
    if cpu.segmentChanged then
      ⟨.refreshing pid false, tellMemory (.updatedSegmentTable (UInt32.ofNat pid)) cpu⟩
    else nextRound pid false cpu
  | .true =>
    if cpu.segmentChanged then
      ⟨.refreshing pid true, tellMemory (.updatedSegmentTable (UInt32.ofNat pid)) cpu⟩
    else nextRound pid true cpu

/-- `receive_pid`: the largest pid stands for a failure. -/
def receivePid (message : CpuMessage) (cpu : State) : CpuLoop :=
  match message with
  | .resumeProcess pid =>
    if UInt32.ofNat pid = 4294967295 then ⟨.stopped, cpu⟩
    else ⟨.loading pid, tellMemory (.requestContext (UInt32.ofNat pid)) cpu⟩
  | _ => ⟨.stopped, cpu⟩

/-- One step of the loop. What the CPU has sent to the scheduler is kept for the round it is in. -/
def step (c : CpuLoop) : Input → Option CpuLoop
  | .message message =>
    match c.phase with
    | .receivingPid => some (receivePid message c.cpu)
    | .checkingInterrupt pid => some (afterInterrupt pid (checkInterrupt message) c.cpu)
    | _ => none
  | .context registers segmentTable =>
    match c.phase with
    | .loading pid =>
      some ⟨.fetching pid, { c.cpu with registers := registers, segmentTable := segmentTable }⟩
    | _ => none
  | .instruction rawInstruction =>
    match c.phase with
    | .fetching pid =>
      let asked := tellMemory (.nextInstruction (UInt32.ofNat pid) c.cpu.registers.PC) c.cpu
      let round := executeRound rawInstruction pid { asked with sent := [] }
      some ⟨if round.1 then .checkingInterrupt pid else .stopped, round.2⟩
    | _ => none
  | .segmentTable segmentTable =>
    match c.phase with
    | .refreshing pid keepGoing =>
      some (nextRound pid keepGoing
        { c.cpu with segmentTable := segmentTable, segmentChanged := false })
    | _ => none

end CpuLoop

end OsSimulator.Cpu
