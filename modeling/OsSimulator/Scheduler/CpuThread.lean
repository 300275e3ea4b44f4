import OsSimulator.Scheduler.Mutex

set_option relaxedAutoImplicit false
set_option autoImplicit false

/-!
# The scheduler's thread of a CPU

`handle_cpu_client` of `connections/cpu.c`, one step for each call on the shared lists and for each
send or receive. What a step depends on beside the thread itself is its action: the process that is
taken from READY, whether a send succeeds, the operation that is received, what the calls of a
syscall return, and whether a preemption is due. What a step does to the shared lists is returned
as a `Transition`.

## Main definitions

* `PreemptionReason`, `CpuOpCode`, `CpuThread` — the data of the thread.
* `CpuThread.handle` — the table `syscall_handlers`.
* `CpuThread.step` — the loop.

## Main results

* `CpuThread.handle_cases` — a handler lets the process go on, or the process ends or blocks.
-/

namespace OsSimulator.Scheduler

/-- `t_preemption_reason`. -/
inductive PreemptionReason
  | noPreemption
  | quantumEnd
  | higherPriorityProcess
  | compaction
  | processEnd
  | firstCycle
  | io
  | mutexLocked
  | notEnoughMemory
  | segmentationFault
  | mutexNameAlreadyExists
  | mutexNameNotFound
  | processHasNoLockedMutex
  deriving DecidableEq, Repr

/-- `PREEMPTION_REASONS`. -/
def PreemptionReason.text : PreemptionReason → String
  | noPreemption => "no preemption occurred"
  | quantumEnd => "preemption by quantum end"
  | higherPriorityProcess => "preemption by process priority"
  | compaction => "preemption by compaction"
  | processEnd => "process termination"
  | firstCycle => "first CPU cycle"
  | io => "IO operation"
  | mutexLocked => "mutex blocked"
  | notEnoughMemory => "there is not enough memory for this instruction"
  | segmentationFault => "segmentation fault"
  | mutexNameAlreadyExists => "a mutex with that name already exists"
  | mutexNameNotFound => "no mutex with that name exists"
  | processHasNoLockedMutex => "this process cannot unlock this mutex"

/-- The operations from `OP_CPU_CYCLE_OK` to `OP_SYSCALL_EXIT`. Any other code, among them the one
of a failed receive, is `invalid`. -/
inductive CpuOpCode
  | cycleOk
  | segFault
  | mutexCreate
  | mutexLock
  | mutexUnlock
  | memAlloc
  | memFree
  | sleep
  | stdout
  | stdin
  | initProc
  | exit
  | invalid
  deriving DecidableEq, Repr

/-- What a CPU thread does to the lists of the scheduler, with the process it does it to. -/
inductive Transition
  | takeReady (p : ℕ)
  | readyExec (p : ℕ)
  | toExec (p : ℕ)
  | execReady (p : ℕ)
  | execExit (p : ℕ)
  | execBlock (p : ℕ)
  deriving DecidableEq, Repr

/-- What a CPU thread sends. -/
inductive CpuMessage
  | resumeProcess (pid : ℕ)
  | interrupt (text : String)
  | noInterrupt (text : String)
  deriving DecidableEq, Repr

/-- Where the thread is in `handle_cpu_client`. -/
inductive CpuThreadPhase
  /-- at the test of `keep_running` -/
  | loop
  /-- in `transition_take_ready_blocking` -/
  | requesting
  /-- in `manage_request_process`, before `transition_ready_exec` -/
  | took
  /-- there, before `transition_to_exec` -/
  | entering
  /-- at the test of `data->pcb` and in `send_pid` -/
  | sendingPid
  /-- in `receive_op_code` -/
  | receiving
  /-- in the handler of the operation -/
  | handling (opCode : CpuOpCode)
  /-- in `manage_queue_blocked` -/
  | queueBlocked
  /-- in `manage_end_quantum` -/
  | endQuantum
  /-- in `manage_preemption_priority` -/
  | preemptionPriority
  /-- there, with another process taken from READY -/
  | preempting (newPcb : ℕ)
  /-- there, after the first process has gone back to READY -/
  | replacing (newPcb : ℕ)
  /-- there, before `transition_to_exec` -/
  | replaced (newPcb : ℕ)
  /-- in `send_preemption` -/
  | sendingPreemption
  /-- in `send_pid` after a preemption by priority -/
  | sendingNewPid
  /-- past the loop -/
  | leaving
  /-- in `close_thread_cpu` -/
  | closed
  deriving DecidableEq, Repr

/-- `t_cpu_thread`: the state of one cycle. -/
structure CpuThread where
  phase : CpuThreadPhase
  pcb : Option ℕ
  keepRunning : Bool
  preemptionReason : PreemptionReason
  deriving DecidableEq, Repr

/-- `init_data_thread_cpu`. -/
def initDataThreadCpu : CpuThread where
  phase := .loop
  pcb := none
  keepRunning := true
  preemptionReason := .firstCycle

/-- What the calls of a handler return: the result of a mutex call, and whether `allocate_memory`,
`free_memory` or `enqueue_io_request` succeeded. -/
structure Reply where
  mutexResult : MutexResult
  succeeded : Bool
  deriving DecidableEq, Repr

namespace CpuThread

/-- The thread goes on in another phase. -/
def goTo (phase : CpuThreadPhase) (t : CpuThread) : CpuThread := { t with phase := phase }

/-- The process of the thread ends, and the CPU will be interrupted for that reason. -/
def endProcess (reason : PreemptionReason) (t : CpuThread) : CpuThread × Option Transition :=
  ({ t with preemptionReason := reason }, t.pcb.map .execExit)

/-- `handle_syscall_mutex_create`. -/
def handleSyscallMutexCreate (reply : Reply) (t : CpuThread) : CpuThread × Option Transition :=
  match reply.mutexResult with
  | .mutexNameAlreadyExists => t.endProcess .mutexNameAlreadyExists
  | _ => (t, none)

/-- `list_mutex_lock` has moved a process that has to wait to BLOCK. -/
def handleSyscallMutexLock (reply : Reply) (t : CpuThread) : CpuThread × Option Transition :=
  match reply.mutexResult with
  | .mutexNameNotFound => t.endProcess .mutexNameNotFound
  | .waitingMutex => ({ t with preemptionReason := .mutexLocked }, t.pcb.map .execBlock)
  | _ => (t, none)

/-- `handle_syscall_mutex_unlock`. -/
def handleSyscallMutexUnlock (reply : Reply) (t : CpuThread) : CpuThread × Option Transition :=
  match reply.mutexResult with
  | .mutexNameNotFound => t.endProcess .mutexNameNotFound
  | .processHasNoLockedMutex => t.endProcess .processHasNoLockedMutex
  | _ => (t, none)

/-- `handle_syscall_memory_allocation`. -/
def handleSyscallMemoryAllocation (reply : Reply) (t : CpuThread) :
    CpuThread × Option Transition :=
  if reply.succeeded then (t, none) else t.endProcess .notEnoughMemory

/-- `handle_syscall_memory_free`. -/
def handleSyscallMemoryFree (reply : Reply) (t : CpuThread) : CpuThread × Option Transition :=
  if reply.succeeded then (t, none) else ({ t with keepRunning := false }, none)

/-- `handle_syscall_io_sleep`, `handle_syscall_io_stdout` and `handle_syscall_io_stdin`. -/
def handleSyscallIo (reply : Reply) (t : CpuThread) : CpuThread × Option Transition :=
  if reply.succeeded then ({ t with preemptionReason := .io }, t.pcb.map .execBlock)
  else t.endProcess .io

/-- The handler of an operation. -/
def handle (opCode : CpuOpCode) (reply : Reply) (t : CpuThread) : CpuThread × Option Transition :=
  match opCode with
  | .cycleOk => (t, none)
  | .segFault => t.endProcess .segmentationFault
  | .mutexCreate => t.handleSyscallMutexCreate reply
  | .mutexLock => t.handleSyscallMutexLock reply
  | .mutexUnlock => t.handleSyscallMutexUnlock reply
  | .memAlloc => t.handleSyscallMemoryAllocation reply
  | .memFree => t.handleSyscallMemoryFree reply
  | .sleep => t.handleSyscallIo reply
  | .stdout => t.handleSyscallIo reply
  | .stdin => t.handleSyscallIo reply
  | .initProc => (t, none)
  | .exit => t.endProcess .processEnd
  | .invalid => ({ t with keepRunning := false }, none)

/-- What a step depends on beside the thread. -/
inductive Action
  /-- a step that depends on nothing else -/
  | go
  /-- what `transition_take_ready_blocking` returns -/
  | takeReady (pcb : Option ℕ)
  /-- whether a send succeeds -/
  | send (ok : Bool)
  | receive (opCode : CpuOpCode)
  | handle (reply : Reply)
  /-- whether the READY queue is blocked, or the quantum has ended -/
  | due (preempt : Bool)
  /-- the process `manage_preemption_priority` takes from READY -/
  | preempt (newPcb : Option ℕ)
  deriving DecidableEq, Repr

/-- What a step does beside changing the thread. -/
structure Effect where
  transition : Option Transition
  message : Option CpuMessage
  deriving DecidableEq, Repr

/-- Nothing is moved and nothing is sent. -/
def Effect.none : Effect := ⟨.none, .none⟩

/-- `data->preemption_reason != PR_NO_PREEMPTION`. -/
abbrev Preempted (t : CpuThread) : Prop := t.preemptionReason ≠ .noPreemption

/-- The loop ends because a send failed or because there is no process. -/
def stop (t : CpuThread) : CpuThread := { t with phase := .leaving, keepRunning := false }

/-- `manage_queue_blocked` and `manage_end_quantum`: a process that is not preempted yet goes back
to READY when that is due. -/
def manage (reason : PreemptionReason) (due : Bool) (next : CpuThreadPhase) (t : CpuThread) :
    CpuThread × Effect :=
  if ¬ t.Preempted ∧ due then
    ({ t with phase := next, preemptionReason := reason }, ⟨t.pcb.map .execReady, .none⟩)
  else (t.goTo next, .none)

/-- `send_pid`, with what is sent and the phase that follows. -/
def sendPid (ok : Bool) (next : CpuThreadPhase) (t : CpuThread) : CpuThread × Effect :=
  if ok then
    ({ t with phase := next, preemptionReason := .noPreemption },
      ⟨.none, t.pcb.map .resumeProcess⟩)
  else (t.stop, .none)

/-- The end of `manage_preemption_priority`: the thread has the other process. -/
def replaceBy (newPcb : ℕ) (t : CpuThread) : CpuThread where
  phase := .sendingPreemption
  pcb := some newPcb
  keepRunning := t.keepRunning
  preemptionReason := .higherPriorityProcess

/-- What `send_preemption` sends. -/
def preemptionMessage (t : CpuThread) : CpuMessage :=
  if t.Preempted then .interrupt t.preemptionReason.text else .noInterrupt t.preemptionReason.text

/-- One step of `handle_cpu_client`. -/
def step (t : CpuThread) (a : Action) : Option (CpuThread × Effect) :=
  match t.phase, a with
  | .loop, .go =>
    some (t.goTo (if ¬ t.keepRunning then .leaving
      else if t.Preempted then .requesting else .sendingPid), .none)
  | .requesting, .takeReady none => some ({ t with phase := .sendingPid, pcb := none }, .none)
  | .requesting, .takeReady (some p) =>
    some ({ t with phase := .took, pcb := some p }, ⟨some (.takeReady p), none⟩)
  | .took, .go => some (t.goTo .entering, ⟨t.pcb.map .readyExec, none⟩)
  | .entering, .go => some (t.goTo .sendingPid, ⟨t.pcb.map .toExec, none⟩)
  | .sendingPid, .go =>
    if t.pcb = none then some (t.stop, .none)
    else if t.Preempted then none else some (t.goTo .receiving, .none)
  | .sendingPid, .send ok =>
    if t.pcb ≠ none ∧ t.Preempted then some (t.sendPid ok .receiving) else none
  | .receiving, .receive opCode => some (t.goTo (.handling opCode), .none)
  | .handling opCode, .handle reply =>
    some (((t.handle opCode reply).1).goTo .queueBlocked, ⟨(t.handle opCode reply).2, none⟩)
  | .queueBlocked, .due preempt => some (t.manage .compaction preempt .endQuantum)
  | .endQuantum, .due preempt => some (t.manage .quantumEnd preempt .preemptionPriority)
  | .preemptionPriority, .preempt none => some (t.goTo .sendingPreemption, .none)
  | .preemptionPriority, .preempt (some newPcb) =>
    if t.Preempted ∨ t.pcb = none then none
    else some (t.goTo (.preempting newPcb), ⟨some (.takeReady newPcb), none⟩)
  | .preempting newPcb, .go => some (t.goTo (.replacing newPcb), ⟨t.pcb.map .execReady, none⟩)
  | .replacing newPcb, .go => some (t.goTo (.replaced newPcb), ⟨some (.readyExec newPcb), none⟩)
  | .replaced newPcb, .go =>
    some (t.replaceBy newPcb, ⟨some (.toExec newPcb), none⟩)
  | .sendingPreemption, .send true =>
    some (t.goTo (if t.preemptionReason = .higherPriorityProcess then .sendingNewPid else .loop),
      ⟨none, some t.preemptionMessage⟩)
  | .sendingPreemption, .send false => some (t.stop, .none)
  | .sendingNewPid, .send ok => some (t.sendPid ok .loop)
  | .leaving, .go =>
    some (t.goTo .closed, ⟨if t.preemptionReason = .higherPriorityProcess then
      t.pcb.map .execReady else none, none⟩)
  | _, _ => none

/-! ## What a handler does -/

/-- The process goes on: only `keep_running` may change. -/
def Continues (t : CpuThread) (r : CpuThread × Option Transition) : Prop :=
  ∃ keepRunning, r = ({ t with keepRunning := keepRunning }, none)

/-- The process ends or blocks, and the CPU will be interrupted. -/
def GivesUp (t : CpuThread) (r : CpuThread × Option Transition) : Prop :=
  ∃ reason, reason ≠ .noPreemption ∧ reason ≠ .higherPriorityProcess ∧
    (r = ({ t with preemptionReason := reason }, t.pcb.map .execExit) ∨
      r = ({ t with preemptionReason := reason }, t.pcb.map .execBlock))

/-- A handler that changes nothing lets the process go on. -/
lemma continues_self (t : CpuThread) : t.Continues (t, none) := ⟨t.keepRunning, rfl⟩

/-- A process that ends is given up. -/
lemma givesUp_endProcess {reason : PreemptionReason} (t : CpuThread)
    (hreason : reason ≠ .noPreemption ∧ reason ≠ .higherPriorityProcess) :
    t.GivesUp (t.endProcess reason) :=
  ⟨reason, hreason.1, hreason.2, .inl rfl⟩

/-- A process that blocks is given up. -/
lemma givesUp_block {reason : PreemptionReason} (t : CpuThread)
    (hreason : reason ≠ .noPreemption ∧ reason ≠ .higherPriorityProcess) :
    t.GivesUp ({ t with preemptionReason := reason }, t.pcb.map .execBlock) :=
  ⟨reason, hreason.1, hreason.2, .inr rfl⟩

/-- **What a handler does**: the process goes on, or it ends or blocks. -/
lemma handle_cases (opCode : CpuOpCode) (reply : Reply) (t : CpuThread) :
    t.Continues (t.handle opCode reply) ∨ t.GivesUp (t.handle opCode reply) := by
  have hio : t.Continues (t.handleSyscallIo reply) ∨ t.GivesUp (t.handleSyscallIo reply) := by
    unfold handleSyscallIo
    split
    · exact .inr (t.givesUp_block ⟨by decide, by decide⟩)
    · exact .inr (t.givesUp_endProcess ⟨by decide, by decide⟩)
  cases opCode with
  | cycleOk => exact .inl t.continues_self
  | segFault => exact .inr (t.givesUp_endProcess ⟨by decide, by decide⟩)
  | mutexCreate =>
    show t.Continues (t.handleSyscallMutexCreate reply) ∨ t.GivesUp (t.handleSyscallMutexCreate reply)
    unfold handleSyscallMutexCreate
    split
    · exact .inr (t.givesUp_endProcess ⟨by decide, by decide⟩)
    · exact .inl t.continues_self
  | mutexLock =>
    show t.Continues (t.handleSyscallMutexLock reply) ∨ t.GivesUp (t.handleSyscallMutexLock reply)
    unfold handleSyscallMutexLock
    split
    · exact .inr (t.givesUp_endProcess ⟨by decide, by decide⟩)
    · exact .inr (t.givesUp_block ⟨by decide, by decide⟩)
    · exact .inl t.continues_self
  | mutexUnlock =>
    show t.Continues (t.handleSyscallMutexUnlock reply) ∨ t.GivesUp (t.handleSyscallMutexUnlock reply)
    unfold handleSyscallMutexUnlock
    split
    · exact .inr (t.givesUp_endProcess ⟨by decide, by decide⟩)
    · exact .inr (t.givesUp_endProcess ⟨by decide, by decide⟩)
    · exact .inl t.continues_self
  | memAlloc =>
    show t.Continues (t.handleSyscallMemoryAllocation reply) ∨
      t.GivesUp (t.handleSyscallMemoryAllocation reply)
    unfold handleSyscallMemoryAllocation
    split
    · exact .inl t.continues_self
    · exact .inr (t.givesUp_endProcess ⟨by decide, by decide⟩)
  | memFree =>
    show t.Continues (t.handleSyscallMemoryFree reply) ∨ t.GivesUp (t.handleSyscallMemoryFree reply)
    unfold handleSyscallMemoryFree
    split
    · exact .inl t.continues_self
    · exact .inl ⟨false, rfl⟩
  | sleep => exact hio
  | stdout => exact hio
  | stdin => exact hio
  | initProc => exact .inl t.continues_self
  | exit => exact .inr (t.givesUp_endProcess ⟨by decide, by decide⟩)
  | invalid => exact .inl ⟨false, rfl⟩

end CpuThread

end OsSimulator.Scheduler
