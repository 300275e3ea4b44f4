import OsSimulator.Cpu.Completion
import OsSimulator.Library.Runs
import OsSimulator.Scheduler.CpuDialogue

set_option relaxedAutoImplicit false
set_option autoImplicit false

/-!
# A CPU and its scheduler thread

A CPU and the thread of the scheduler that serves it, over one first-in first-out connection in each
direction. Kernel Memory may answer the CPU with any context, instruction and segment table, and the
calls of the thread may return anything that a peer that answers can return.

The state also has a history that no step reads: for which process the CPU executed an operation,
which processes the thread has put in EXEC and not taken out of it, the instruction of the last
round with the state it was executed in, and how many rounds, operations and decisions there were.

## Main definitions

* `LockStep`, `LockStep.step` — the two parties and their connection.
* `LockStep.InStep` — they run in lock-step.
* `LockStep.Admits` — the condition on a step.
* `LockStep.Aligned` — what is in the channels in each phase of the CPU.

## Main results

* `LockStep.inStep_of_run` — the two parties run in lock-step in every run whose steps meet the
  condition.
* `LockStep.silent_without_segment` — a missing segment stops the CPU without an operation.
-/

namespace OsSimulator.Cpu

open OsSimulator.Memory (Segment)
open OsSimulator.Scheduler (CpuMessage CpuOpCode CpuThread Reply initDataThreadCpu)

/-- The code of an operation. -/
def Operation.opCode : Operation → CpuOpCode
  | .cycleOk _ => .cycleOk
  | .segFault _ => .segFault
  | .mutexCreate _ => .mutexCreate
  | .mutexLock _ => .mutexLock
  | .mutexUnlock _ => .mutexUnlock
  | .memAlloc _ _ _ => .memAlloc
  | .memFree _ _ _ => .memFree
  | .sleep _ _ => .sleep
  | .stdout _ _ _ => .stdout
  | .stdin _ _ _ => .stdin
  | .initProc _ _ => .initProc
  | .exit _ => .exit

/-- A CPU sends known codes only. -/
lemma Operation.opCode_ne_invalid (operation : Operation) : operation.opCode ≠ .invalid := by
  cases operation <;> exact CpuOpCode.noConfusion

/-- The state in which the instruction of a round is executed. -/
def roundStart (pid : ℕ) (cpu : State) : State :=
  { CpuLoop.tellMemory (.nextInstruction (UInt32.ofNat pid) cpu.registers.PC) cpu with sent := [] }

/-- A CPU, its thread, and what is under way between them. -/
structure LockStep where
  loop : CpuLoop
  thread : CpuThread
  /-- operations, each with the process it was executed for -/
  toScheduler : List (ℕ × Operation)
  toCpu : List CpuMessage
  /-- the process for which the operation was executed that the thread has received last -/
  handledFor : ℕ
  /-- the processes that the thread has put in EXEC and not taken out of it -/
  executing : List ℕ
  /-- the instruction of the last round, with the state it was executed in -/
  executed : Option (Instruction × State)
  rounds : ℕ
  reports : ℕ
  decisions : ℕ
  deriving DecidableEq, Repr

namespace LockStep

/-- A CPU and its thread when they have just connected. -/
def init (cpu : State) : LockStep where
  loop := ⟨.receivingPid, cpu⟩
  thread := initDataThreadCpu
  toScheduler := []
  toCpu := []
  handledFor := 0
  executing := []
  executed := none
  rounds := 0
  reports := 0
  decisions := 0

/-- A step of one of the parties. -/
inductive Event
  /-- the CPU receives the next message of its thread -/
  | message
  | context (registers : Registers) (segmentTable : List Segment)
  | instruction (rawInstruction : String)
  | segmentTable (segmentTable : List Segment)
  /-- the thread receives the next operation of its CPU -/
  | operation
  | thread (action : CpuThread.Action)
  deriving DecidableEq, Repr

/-- The CPU has received a message: a pid, or a decision. -/
def received (s : LockStep) (rest : List CpuMessage) (loop : CpuLoop) : LockStep :=
  if s.loop.phase = .receivingPid then { s with loop := loop, toCpu := rest, executed := none }
  else { s with loop := loop, toCpu := rest, decisions := s.decisions + 1 }

/-- The CPU has run a round for a process. -/
def ranRound (s : LockStep) (pid : ℕ) (rawInstruction : String) (loop : CpuLoop) : LockStep :=
  { s with
    loop := loop
    toScheduler := s.toScheduler ++ loop.cpu.sent.map (pid, ·)
    executed := (decodeStage rawInstruction).map (·, roundStart pid s.loop.cpu)
    rounds := s.rounds + 1
    reports := s.reports + loop.cpu.sent.length }

/-- The thread has taken a step. -/
def advanced (s : LockStep) (r : CpuThread × CpuThread.Effect) : LockStep :=
  { s with
    thread := r.1
    executing := r.2.executing s.executing
    toCpu := s.toCpu ++ r.2.message.toList }

/-- One step of the two parties. -/
def step (s : LockStep) : Event → Option LockStep
  | .message =>
    match s.toCpu with
    | [] => none
    | message :: rest => (s.loop.step (.message message)).map (s.received rest)
  | .context registers segmentTable =>
    (s.loop.step (.context registers segmentTable)).map fun loop => { s with loop := loop }
  | .instruction rawInstruction =>
    match s.loop.phase with
    | .fetching pid =>
      (s.loop.step (.instruction rawInstruction)).map (s.ranRound pid rawInstruction)
    | _ => none
  | .segmentTable segmentTable =>
    (s.loop.step (.segmentTable segmentTable)).map fun loop => { s with loop := loop }
  | .operation =>
    match s.toScheduler with
    | [] => none
    | (pid, operation) :: rest =>
      (s.thread.step (.receive operation.opCode)).map
        { s with toScheduler := rest, handledFor := pid }.advanced
  | .thread (.receive _) => none
  | .thread action => (s.thread.step action).map s.advanced

/-- The instructions meet the condition of their handlers, and the peers of the thread answer. -/
def Admits (s : LockStep) : Event → Prop
  | .instruction rawInstruction => ∀ pid, s.loop.phase = .fetching pid →
      ∃ instruction, decodeStage rawInstruction = some instruction ∧
        KeepsProtocol instruction (roundStart pid s.loop.cpu)
  | .thread action => s.thread.PeersConnected action
  | _ => True

/-- How many operations the CPU has sent and how many decisions it has consumed, by the round it is
in: one of each for every round, but for the decision it still waits for. A CPU that has stopped has
sent nothing in a last round that it did not finish. -/
def Counts (phase : CyclePhase) (rounds reports decisions : ℕ) : Prop :=
  match phase with
  | .checkingInterrupt _ => reports = rounds ∧ decisions + 1 = rounds
  | .stopped => reports = decisions ∧ (decisions = rounds ∨ decisions + 1 = rounds)
  | _ => reports = rounds ∧ decisions = rounds

/-- The messages that a CPU can take in a phase: in `receive_pid` a pid, in `check_interrupt` a
decision. -/
def Expects : CyclePhase → CpuMessage → Prop
  | .receivingPid, .resumeProcess _ => True
  | .checkingInterrupt _, .interrupt _ => True
  | .checkingInterrupt _, .noInterrupt _ => True
  | _, _ => False

/-- **The two parties run in lock-step.** Every round sends one operation and consumes one decision;
the next message is of the kind the CPU waits for; the operation that the thread handles was
executed for its process; a process that an instruction is executed of is in EXEC; and after an
access over the end of a segment the one operation is `OP_SEG_FAULT`, and the CPU goes on. -/
structure InStep (s : LockStep) : Prop where
  counts : Counts s.loop.phase s.rounds s.reports s.decisions
  expected : ∀ message ∈ s.toCpu.head?,
    s.loop.phase = .receivingPid ∨ (∃ pid, s.loop.phase = .checkingInterrupt pid) →
      Expects s.loop.phase message
  handled : ∀ opCode, s.thread.phase = .handling opCode →
    s.loop.phase = .checkingInterrupt s.handledFor ∧ s.thread.pcb = some s.handledFor
  executes : ∀ pid, s.loop.phase = .fetching pid → s.thread.pcb = some pid ∧ pid ∈ s.executing
  fault : ∀ instruction cpu, s.executed = some (instruction, cpu) → Overruns instruction cpu →
    s.loop.cpu.sent = [.segFault "SEGMENTATION FAULT"] ∧ s.loop.phase ≠ .stopped

/-! ## What is under way -/

/-- The CPU waits for a pid, or is about to. -/
def Awaiting (s : LockStep) : Prop :=
  s.toScheduler = [] ∧
    (s.toCpu = [] ∧ s.thread.Seeking s.executing ∨
      ∃ q, s.toCpu = [.resumeProcess q] ∧ s.thread.Serving q s.executing)

/-- The CPU is ahead of its thread in the round of a process. -/
def Running (s : LockStep) (pid : ℕ) : Prop :=
  s.toScheduler = [] ∧ s.toCpu = [] ∧ s.thread.Serving pid s.executing

/-- The CPU waits for the decision on an operation: it is under way, the thread decides, or the
decision is under way, after an `OP_INTERRUPT` perhaps with the next pid behind it. -/
inductive Reported (s : LockStep) (pid : ℕ) : Prop
  | sent (operation : Operation) (toScheduler : s.toScheduler = [(pid, operation)])
      (toCpu : s.toCpu = []) (thread : s.thread.Serving pid s.executing)
  | deciding (toScheduler : s.toScheduler = []) (toCpu : s.toCpu = [])
      (handledFor : s.handledFor = pid) (thread : s.thread.Deciding pid s.executing)
  | goOn (text : String) (toScheduler : s.toScheduler = []) (toCpu : s.toCpu = [.noInterrupt text])
      (thread : s.thread.Serving pid s.executing)
  | interrupted (text : String) (toScheduler : s.toScheduler = [])
      (toCpu : s.toCpu = [.interrupt text]) (thread : s.thread.Seeking s.executing)
  | resumed (text : String) (q : ℕ) (toScheduler : s.toScheduler = [])
      (toCpu : s.toCpu = [.interrupt text, .resumeProcess q])
      (thread : s.thread.Serving q s.executing)

/-- What is under way in each phase of the CPU. -/
def Aligned (s : LockStep) : Prop :=
  match s.loop.phase with
  | .receivingPid => s.Awaiting
  | .loading pid => s.Running pid
  | .fetching pid => s.Running pid
  | .checkingInterrupt pid => s.Reported pid
  | .refreshing pid keepGoing => if keepGoing then s.Running pid else s.Awaiting
  | .stopped => ∃ q, s.Running q

/-- The invariant of a run. -/
structure Sound (s : LockStep) : Prop where
  aligned : s.Aligned
  connected : s.loop.phase ≠ .stopped → Connected s.loop.cpu
  counts : Counts s.loop.phase s.rounds s.reports s.decisions
  fault : ∀ instruction cpu, s.executed = some (instruction, cpu) → Overruns instruction cpu →
    s.loop.cpu.sent = [.segFault "SEGMENTATION FAULT"] ∧ s.loop.phase ≠ .stopped

section Properties

variable {s : LockStep} {pid : ℕ}

/-- A thread that serves its process handles no operation. -/
lemma Serving.not_handling {p : ℕ} {t : CpuThread} {executing : List ℕ}
    (h : t.Serving p executing) (opCode : CpuOpCode) : t.phase ≠ .handling opCode := by
  rcases h.phase with hphase | hphase | hphase <;> simp [hphase]

/-- Nor does one that looks for a process. -/
lemma Seeking.not_handling {t : CpuThread} {executing : List ℕ} (h : t.Seeking executing)
    (opCode : CpuOpCode) : t.phase ≠ .handling opCode := by
  intro hphase
  simp [CpuThread.Seeking, hphase] at h

/-- Nor does one whose CPU waits for a process. -/
lemma Awaiting.not_handling (h : s.Awaiting) (opCode : CpuOpCode) :
    s.thread.phase ≠ .handling opCode := by
  rcases h.2 with ⟨-, h⟩ | ⟨q, -, h⟩
  · exact Seeking.not_handling h opCode
  · exact Serving.not_handling h opCode

/-- The operation is handled for the process that the CPU is on. -/
lemma Reported.handled (h : s.Reported pid) {opCode : CpuOpCode}
    (hphase : s.thread.phase = .handling opCode) :
    s.handledFor = pid ∧ s.thread.pcb = some pid := by
  cases h with
  | sent _ _ _ hthread => exact absurd hphase (Serving.not_handling hthread opCode)
  | deciding _ _ hfor hthread =>
    simp only [CpuThread.Deciding, hphase] at hthread
    exact ⟨hfor, hthread.2.2.2.1⟩
  | goOn _ _ _ hthread => exact absurd hphase (Serving.not_handling hthread opCode)
  | interrupted _ _ _ hthread => exact absurd hphase (Seeking.not_handling hthread opCode)
  | resumed _ _ _ _ hthread => exact absurd hphase (Serving.not_handling hthread opCode)

/-- What comes next answers the check for an interrupt. -/
lemma Reported.expects (h : s.Reported pid) :
    ∀ message ∈ s.toCpu.head?, Expects (.checkingInterrupt pid) message := by
  intro message hmessage
  cases h with
  | sent _ _ hnil _ => simp [hnil] at hmessage
  | deciding _ hnil _ _ => simp [hnil] at hmessage
  | goOn text _ hgo _ =>
    obtain rfl : _ = message := by simpa [hgo] using hmessage
    trivial
  | interrupted text _ hinterrupt _ =>
    obtain rfl : _ = message := by simpa [hinterrupt] using hmessage
    trivial
  | resumed text q _ hresume _ =>
    obtain rfl : _ = message := by simpa [hresume] using hmessage
    trivial

/-- The next message of the scheduler is one that the CPU expects. -/
lemma Sound.expected (h : s.Sound) : ∀ message ∈ s.toCpu.head?,
    s.loop.phase = .receivingPid ∨ (∃ pid, s.loop.phase = .checkingInterrupt pid) →
      Expects s.loop.phase message := by
  have haligned := h.aligned
  rintro message hmessage (hphase | ⟨pid, hphase⟩)
  · rw [Aligned, hphase] at haligned
    rw [hphase]
    rcases haligned.2 with ⟨hnil, -⟩ | ⟨q, hresume, -⟩
    · simp [hnil] at hmessage
    · obtain rfl : _ = message := by simpa [hresume] using hmessage
      trivial
  · rw [Aligned, hphase] at haligned
    rw [hphase]
    exact haligned.expects message hmessage

/-- While an operation is handled, its CPU waits, and the thread has the same process. -/
lemma Sound.handled (h : s.Sound) {opCode : CpuOpCode}
    (hopCode : s.thread.phase = .handling opCode) :
    s.loop.phase = .checkingInterrupt s.handledFor ∧ s.thread.pcb = some s.handledFor := by
  have haligned := h.aligned
  cases hphase : s.loop.phase with
  | receivingPid =>
    rw [Aligned, hphase] at haligned
    exact absurd hopCode (haligned.not_handling opCode)
  | loading pid =>
    rw [Aligned, hphase] at haligned
    exact absurd hopCode (Serving.not_handling haligned.2.2 opCode)
  | fetching pid =>
    rw [Aligned, hphase] at haligned
    exact absurd hopCode (Serving.not_handling haligned.2.2 opCode)
  | checkingInterrupt pid =>
    rw [Aligned, hphase] at haligned
    obtain ⟨rfl, hpcb⟩ := haligned.handled hopCode
    exact ⟨rfl, hpcb⟩
  | refreshing pid keepGoing =>
    rw [Aligned, hphase] at haligned
    cases keepGoing with
    | true => exact absurd hopCode (Serving.not_handling haligned.2.2 opCode)
    | false => exact absurd hopCode (Awaiting.not_handling haligned opCode)
  | stopped =>
    rw [Aligned, hphase] at haligned
    obtain ⟨q, hrunning⟩ := haligned
    exact absurd hopCode (Serving.not_handling hrunning.2.2 opCode)

/-- What is under way keeps the two parties in lock-step. -/
lemma Sound.inStep (h : s.Sound) : s.InStep where
  counts := h.counts
  expected := h.expected
  handled := fun _ => h.handled
  executes := by
    intro pid hphase
    have haligned := h.aligned
    rw [Aligned, hphase] at haligned
    exact ⟨haligned.2.2.pcb, haligned.2.2.mem⟩
  fault := h.fault

/-- The invariant holds at the start. -/
lemma sound_init {cpu : State} (hconnected : Connected cpu) : (init cpu).Sound where
  aligned := ⟨rfl, .inl ⟨rfl, CpuThread.seeking_init⟩⟩
  connected := fun _ => hconnected
  counts := ⟨rfl, rfl⟩
  fault := fun instruction cpu h => absurd h (by simp [init])

end Properties

/-! ## Steps of the CPU -/

section Steps

variable {s s' : LockStep} {pid : ℕ}

/-- The CPU changes, but neither its peers nor what it has sent to them. -/
structure SamePeers (cpu after : State) : Prop where
  sent : after.sent = cpu.sent
  scheduler : after.schedulerConnected = cpu.schedulerConnected
  sticks : after.memorySticks = cpu.memorySticks

/-- Who keeps the peers keeps them connected. -/
lemma SamePeers.connected {cpu after : State} (h : SamePeers cpu after) (hcpu : Connected cpu) :
    Connected after :=
  ⟨h.scheduler.trans hcpu.scheduler, h.sticks ▸ hcpu.sticks⟩

/-- A pid is received: the thread serves that process. -/
lemma sound_receivePid {message : CpuMessage} {rest : List CpuMessage} (h : s.Sound)
    (hphase : s.loop.phase = .receivingPid) (hmessage : s.toCpu = message :: rest) :
    (s.received rest (CpuLoop.receivePid message s.loop.cpu)).Sound := by
  have haligned := h.aligned
  have hcounts := h.counts
  have hconnected := h.connected (by simp [hphase])
  rw [Aligned, hphase] at haligned
  rw [hphase] at hcounts
  obtain ⟨hscheduler, ⟨hnil, -⟩ | ⟨q, hresume, hserving⟩⟩ := haligned
  · simp [hnil] at hmessage
  · obtain ⟨rfl, rfl⟩ : message = .resumeProcess q ∧ rest = [] := by
      simpa [hresume, eq_comm] using hmessage
    rw [received, if_pos hphase, CpuLoop.receivePid]
    split
    · exact ⟨⟨q, hscheduler, rfl, hserving⟩, fun h => absurd rfl h,
        ⟨hcounts.1.trans hcounts.2.symm, .inl hcounts.2⟩, by simp⟩
    · exact ⟨⟨hscheduler, rfl, hserving⟩, fun _ => ⟨hconnected.scheduler, hconnected.sticks⟩,
        hcounts, by simp⟩

/-- An `OP_INTERRUPT` ends the turn of the process, and an `OP_NO_INTERRUPT` does not. -/
lemma afterInterrupt_spec (pid : ℕ) (message : CpuMessage) (cpu : State)
    (h : Expects (.checkingInterrupt pid) message) :
    let loop := CpuLoop.afterInterrupt pid (checkInterrupt message) cpu
    SamePeers cpu loop.cpu ∧
      ((∃ text, message = .interrupt text) ∧
          (loop.phase = .receivingPid ∨ loop.phase = .refreshing pid false) ∨
        (∃ text, message = .noInterrupt text) ∧
          (loop.phase = .fetching pid ∨ loop.phase = .refreshing pid true)) := by
  cases message with
  | resumeProcess q => exact h.elim
  | interrupt text =>
    by_cases htable : text = "there is not enough memory for this instruction"
    · simp only [checkInterrupt, if_pos htable]
      exact ⟨⟨rfl, rfl, rfl⟩, .inl ⟨⟨text, rfl⟩, .inl rfl⟩⟩
    · simp only [checkInterrupt, if_neg htable, CpuLoop.afterInterrupt]
      split
      · exact ⟨⟨rfl, rfl, rfl⟩, .inl ⟨⟨text, rfl⟩, .inr rfl⟩⟩
      · exact ⟨⟨rfl, rfl, rfl⟩, .inl ⟨⟨text, rfl⟩, .inl rfl⟩⟩
  | noInterrupt text =>
    simp only [checkInterrupt, CpuLoop.afterInterrupt]
    split
    · exact ⟨⟨rfl, rfl, rfl⟩, .inr ⟨⟨text, rfl⟩, .inr rfl⟩⟩
    · exact ⟨⟨rfl, rfl, rfl⟩, .inr ⟨⟨text, rfl⟩, .inl rfl⟩⟩

/-- A decision is received. -/
lemma sound_checkInterrupt {message : CpuMessage} {rest : List CpuMessage} (h : s.Sound)
    (hphase : s.loop.phase = .checkingInterrupt pid) (hmessage : s.toCpu = message :: rest) :
    (s.received rest
      (CpuLoop.afterInterrupt pid (checkInterrupt message) s.loop.cpu)).Sound := by
  have haligned := h.aligned
  have hcounts := h.counts
  have hconnected := h.connected (by simp [hphase])
  rw [Aligned, hphase] at haligned
  rw [hphase] at hcounts
  have hexpects := haligned.expects message (by simp [hmessage])
  obtain ⟨hpeers, hcases⟩ := afterInterrupt_spec pid message s.loop.cpu hexpects
  have hother : s.loop.phase ≠ .receivingPid := by simp [hphase]
  rw [received, if_neg hother]
  revert hpeers hcases
  generalize CpuLoop.afterInterrupt pid (checkInterrupt message) s.loop.cpu = loop
  obtain ⟨phase, after⟩ := loop
  intro hpeers hcases
  -- what is behind the decision is what the CPU finds in its next phase
  have hphase' : phase ≠ .stopped ∧ Counts phase s.rounds s.reports (s.decisions + 1) := by
    rcases hcases with ⟨-, hphase | hphase⟩ | ⟨-, hphase | hphase⟩ <;>
      obtain rfl : phase = _ := hphase <;>
      exact ⟨CyclePhase.noConfusion, hcounts⟩
  refine ⟨?_, fun _ => hpeers.connected hconnected, hphase'.2, fun instruction cpu hexecuted hover =>
    ⟨hpeers.sent.trans (h.fault instruction cpu hexecuted hover).1, hphase'.1⟩⟩
  rcases hcases with ⟨⟨text, rfl⟩, hnext⟩ | ⟨⟨text, rfl⟩, hnext⟩
  · have hawaiting : s.toScheduler = [] ∧ (rest = [] ∧ s.thread.Seeking s.executing ∨
        ∃ q, rest = [.resumeProcess q] ∧ s.thread.Serving q s.executing) := by
      cases haligned with
      | interrupted text' hscheduler hcpu hseeking =>
        obtain ⟨-, rfl⟩ : _ ∧ rest = [] := by simpa [hcpu, eq_comm] using hmessage
        exact ⟨hscheduler, .inl ⟨rfl, hseeking⟩⟩
      | resumed text' q hscheduler hcpu hserving =>
        obtain ⟨-, rfl⟩ : _ ∧ rest = [.resumeProcess q] := by simpa [hcpu, eq_comm] using hmessage
        exact ⟨hscheduler, .inr ⟨q, rfl, hserving⟩⟩
      | _ => simp_all
    rcases hnext with hnext | hnext <;> obtain rfl : phase = _ := hnext <;> exact hawaiting
  · have hrunning : s.toScheduler = [] ∧ rest = [] ∧ s.thread.Serving pid s.executing := by
      cases haligned with
      | goOn text' hscheduler hcpu hserving =>
        obtain ⟨-, rfl⟩ : _ ∧ rest = [] := by simpa [hcpu, eq_comm] using hmessage
        exact ⟨hscheduler, rfl, hserving⟩
      | _ => simp_all
    rcases hnext with hnext | hnext <;> obtain rfl : phase = _ := hnext <;> exact hrunning

/-- The invariant is kept when the CPU takes a message. -/
lemma sound_message (h : s.Sound) (hstep : s.step .message = some s') : s'.Sound := by
  cases hmessage : s.toCpu with
  | nil => simp [step, hmessage] at hstep
  | cons message rest =>
    simp only [step, hmessage, CpuLoop.step] at hstep
    cases hphase : s.loop.phase with
    | receivingPid =>
      obtain rfl : _ = s' := by simpa [hphase] using hstep
      exact sound_receivePid h hphase hmessage
    | checkingInterrupt pid =>
      obtain rfl : _ = s' := by simpa [hphase] using hstep
      exact sound_checkInterrupt h hphase hmessage
    | _ => simp [hphase] at hstep

/-- A reply of Kernel Memory that only moves the CPU to a phase with the same messages under way. -/
lemma sound_reply {phase phase' : CyclePhase} {after : State} (h : s.Sound)
    (hphase : s.loop.phase = phase) (hpeers : SamePeers s.loop.cpu after)
    (halive : phase ≠ .stopped ∧ phase' ≠ .stopped)
    (haligned : s.Aligned → { s with loop := ⟨phase', after⟩ }.Aligned)
    (hcounts : Counts phase s.rounds s.reports s.decisions →
      Counts phase' s.rounds s.reports s.decisions) :
    { s with loop := ⟨phase', after⟩ }.Sound where
  aligned := haligned h.aligned
  connected := fun _ => hpeers.connected (h.connected (hphase ▸ halive.1))
  counts := hcounts (hphase ▸ h.counts)
  fault := fun instruction cpu hexecuted hover =>
    ⟨hpeers.sent.trans (h.fault instruction cpu hexecuted hover).1, halive.2⟩

/-- The invariant is kept when a context arrives. -/
lemma sound_context {registers : Registers} {segmentTable : List Segment} (h : s.Sound)
    (hstep : s.step (.context registers segmentTable) = some s') : s'.Sound := by
  cases hphase : s.loop.phase with
  | loading pid =>
    obtain rfl : _ = s' := by simpa [step, CpuLoop.step, hphase] using hstep
    exact sound_reply h hphase ⟨rfl, rfl, rfl⟩ ⟨CyclePhase.noConfusion, CyclePhase.noConfusion⟩
      (fun haligned => by rwa [Aligned, hphase] at haligned) id
  | _ => simp [step, CpuLoop.step, hphase] at hstep

/-- The invariant is kept when a table arrives. -/
lemma sound_segmentTable {segmentTable : List Segment} (h : s.Sound)
    (hstep : s.step (.segmentTable segmentTable) = some s') : s'.Sound := by
  cases hphase : s.loop.phase with
  | refreshing pid keepGoing =>
    obtain rfl : _ = s' := by simpa [step, CpuLoop.step, hphase] using hstep
    cases keepGoing with
    | true =>
      exact sound_reply h hphase ⟨rfl, rfl, rfl⟩ ⟨CyclePhase.noConfusion, CyclePhase.noConfusion⟩
        (fun haligned => by rwa [Aligned, hphase] at haligned) id
    | false =>
      exact sound_reply h hphase ⟨rfl, rfl, rfl⟩ ⟨CyclePhase.noConfusion, CyclePhase.noConfusion⟩
        (fun haligned => by rwa [Aligned, hphase] at haligned) id
  | _ => simp [step, CpuLoop.step, hphase] at hstep

/-- A round. -/
lemma sound_instruction {rawInstruction : String} (h : s.Sound)
    (hok : s.Admits (.instruction rawInstruction))
    (hstep : s.step (.instruction rawInstruction) = some s') : s'.Sound := by
  cases hphase : s.loop.phase with
  | fetching pid =>
    have haligned := h.aligned
    have hcounts := h.counts
    have hconnected := h.connected (by simp [hphase])
    rw [Aligned, hphase] at haligned
    rw [hphase] at hcounts
    obtain ⟨hscheduler, hcpu, hserving⟩ := haligned
    obtain ⟨hreports, hdecisions⟩ := hcounts
    obtain ⟨instruction, hdecode, hkeeps⟩ := hok pid hphase
    have hstart : Connected (roundStart pid s.loop.cpu) :=
      ⟨hconnected.scheduler, hconnected.sticks⟩
    simp only [step, CpuLoop.step, hphase, Option.map_some, Option.some.injEq] at hstep
    change s.ranRound pid rawInstruction
      ⟨if (executeRound rawInstruction pid (roundStart pid s.loop.cpu)).1 then
        .checkingInterrupt pid else .stopped,
      (executeRound rawInstruction pid (roundStart pid s.loop.cpu)).2⟩ = s' at hstep
    rcases executeRound_of_keepsProtocol pid hdecode hstart hkeeps with
      ⟨after, operation, hround, hsent, hafter, hfault⟩ | ⟨after, hround, hsent, hnot⟩
    · rw [hround] at hstep
      subst hstep
      have hone : after.sent = [operation] := hsent
      refine ⟨.sent operation ?_ hcpu hserving, fun _ => hafter, ?_, fun i cpu hexecuted hover => ?_⟩
      · simp [ranRound, hscheduler, hone]
      · simp [ranRound, Counts, hone, hreports, hdecisions]
      · obtain ⟨rfl, rfl⟩ : instruction = i ∧ roundStart pid s.loop.cpu = cpu := by
          simpa [ranRound, hdecode] using hexecuted
        exact ⟨hfault hover ▸ hone, CyclePhase.noConfusion⟩
    · rw [hround] at hstep
      subst hstep
      have hnone : after.sent = [] := hsent
      refine ⟨⟨pid, ?_, hcpu, hserving⟩, fun h => absurd rfl h, ?_, fun i cpu hexecuted hover => ?_⟩
      · simp [ranRound, hscheduler, hnone]
      · simp [ranRound, Counts, hnone, hreports, hdecisions]
      · obtain ⟨rfl, rfl⟩ : instruction = i ∧ roundStart pid s.loop.cpu = cpu := by
          simpa [ranRound, hdecode] using hexecuted
        exact absurd hover hnot
  | _ => simp [step, hphase] at hstep

/-! ## Steps of the thread -/

/-- A step of the thread leaves the CPU as it was. -/
lemma sound_advanced {r : CpuThread × CpuThread.Effect} {toScheduler : List (ℕ × Operation)}
    {handledFor : ℕ} (h : s.Sound)
    (haligned : ({ s with toScheduler := toScheduler, handledFor := handledFor }.advanced r).Aligned) :
    ({ s with toScheduler := toScheduler, handledFor := handledFor }.advanced r).Sound :=
  ⟨haligned, h.connected, h.counts, h.fault⟩

/-- A CPU that has reported and waits is in step. -/
lemma Reported.aligned (hphase : s.loop.phase = .checkingInterrupt pid) (h : s.Reported pid) :
    s.Aligned := by
  rw [Aligned, hphase]
  exact h

/-- The thread receives the operation that is under way, and with it decides. -/
lemma sound_operation (h : s.Sound) (hstep : s.step .operation = some s') : s'.Sound := by
  cases hscheduler : s.toScheduler with
  | nil => simp [step, hscheduler] at hstep
  | cons entry rest =>
    obtain ⟨for', operation⟩ := entry
    simp only [step, hscheduler, Option.map_eq_some_iff] at hstep
    obtain ⟨r, hr, rfl⟩ := hstep
    have haligned := h.aligned
    refine sound_advanced h ?_
    cases hphase : s.loop.phase with
    | checkingInterrupt pid =>
      rw [Aligned, hphase] at haligned
      cases haligned with
      | sent operation' hsent hcpu hserving =>
        obtain ⟨⟨rfl, rfl⟩, rfl⟩ : (for' = pid ∧ operation = operation') ∧ rest = [] := by
          simpa [hscheduler] using hsent
        have hpeers : s.thread.PeersConnected (.receive operation.opCode) :=
          operation.opCode_ne_invalid
        obtain ⟨hnone, ⟨-, hnot⟩ | ⟨hdeciding, -⟩⟩ := CpuThread.serving_step hserving hpeers hr
        · exact absurd rfl (hnot _)
        · refine Reported.aligned hphase (.deciding rfl ?_ rfl ?_)
          · simp [advanced, hcpu, hnone, CpuThread.Effect.none]
          · simpa [advanced, hnone, CpuThread.Effect.none, CpuThread.Effect.executing]
              using hdeciding
      | _ => simp_all
    | refreshing pid keepGoing =>
      rw [Aligned, hphase] at haligned
      cases keepGoing with
      | true => exact absurd haligned.1 (by simp [hscheduler])
      | false => exact absurd (show s.Awaiting from haligned).1 (by simp [hscheduler])
    | stopped =>
      rw [Aligned, hphase] at haligned
      obtain ⟨q, hrunning⟩ := haligned
      exact absurd hrunning.1 (by simp [hscheduler])
    | _ =>
      rw [Aligned, hphase] at haligned
      exact absurd haligned.1 (by simp [hscheduler])

/-- A thread that serves a process keeps what it has said. -/
lemma serving_advanced {r : CpuThread × CpuThread.Effect} {a : CpuThread.Action}
    (hserving : s.thread.Serving pid s.executing) (hpeers : s.thread.PeersConnected a)
    (ha : ∀ opCode, a ≠ .receive opCode) (hr : s.thread.step a = some r) :
    (s.advanced r).toCpu = s.toCpu ∧ (s.advanced r).thread.Serving pid (s.advanced r).executing := by
  obtain ⟨hnone, ⟨hserving', -⟩ | ⟨-, opCode, hreceive⟩⟩ :=
    CpuThread.serving_step hserving hpeers hr
  · refine ⟨?_, ?_⟩
    · simp [LockStep.advanced, hnone, CpuThread.Effect.none]
    · simpa [LockStep.advanced, hnone, CpuThread.Effect.none, CpuThread.Effect.executing]
        using hserving'
  · exact absurd hreceive (ha opCode)

/-- The thread goes on, and its CPU still runs the process. -/
lemma Running.advanced {r : CpuThread × CpuThread.Effect} {a : CpuThread.Action}
    (h : s.Running pid) (hpeers : s.thread.PeersConnected a) (ha : ∀ opCode, a ≠ .receive opCode)
    (hr : s.thread.step a = some r) : (s.advanced r).Running pid := by
  obtain ⟨hscheduler, hcpu, hserving⟩ := h
  obtain ⟨hcpu', hserving'⟩ := serving_advanced hserving hpeers ha hr
  exact ⟨hscheduler, hcpu'.trans hcpu, hserving'⟩

/-- A thread that seeks a process may hand it over. -/
lemma Awaiting.advanced {r : CpuThread × CpuThread.Effect} {a : CpuThread.Action}
    (h : s.Awaiting) (hpeers : s.thread.PeersConnected a) (ha : ∀ opCode, a ≠ .receive opCode)
    (hr : s.thread.step a = some r) : (s.advanced r).Awaiting := by
  obtain ⟨hscheduler, ⟨hcpu, hseeking⟩ | ⟨q, hcpu, hserving⟩⟩ := h
  · rcases CpuThread.seeking_step hseeking hpeers hr with ⟨hnone, hseeking'⟩ | ⟨q, hpid, hserving⟩
    · exact ⟨hscheduler, .inl ⟨by simp [LockStep.advanced, hcpu, hnone], hseeking'⟩⟩
    · exact ⟨hscheduler, .inr ⟨q, by simp [LockStep.advanced, hcpu, hpid], hserving⟩⟩
  · obtain ⟨hcpu', hserving'⟩ := serving_advanced hserving hpeers ha hr
    exact ⟨hscheduler, .inr ⟨q, hcpu'.trans hcpu, hserving'⟩⟩

/-- A thread that decides may send its decision, and after an `OP_INTERRUPT` the next pid. -/
lemma Reported.advanced {r : CpuThread × CpuThread.Effect} {a : CpuThread.Action}
    (h : s.Reported pid) (hpeers : s.thread.PeersConnected a) (ha : ∀ opCode, a ≠ .receive opCode)
    (hr : s.thread.step a = some r) : (s.advanced r).Reported pid := by
  cases h with
  | sent operation hscheduler hcpu hserving =>
    obtain ⟨hcpu', hserving'⟩ := serving_advanced hserving hpeers ha hr
    exact .sent operation hscheduler (hcpu'.trans hcpu) hserving'
  | deciding hscheduler hcpu hfor hdeciding =>
    rcases CpuThread.deciding_step hdeciding hpeers hr with
      ⟨hnone, hdeciding'⟩ | ⟨text, htext, hserving⟩ | ⟨text, htext, hseeking⟩
    · exact .deciding hscheduler (by simp [LockStep.advanced, hcpu, hnone]) hfor hdeciding'
    · exact .goOn text hscheduler (by simp [LockStep.advanced, hcpu, htext]) hserving
    · exact .interrupted text hscheduler (by simp [LockStep.advanced, hcpu, htext]) hseeking
  | goOn text hscheduler hcpu hserving =>
    obtain ⟨hcpu', hserving'⟩ := serving_advanced hserving hpeers ha hr
    exact .goOn text hscheduler (hcpu'.trans hcpu) hserving'
  | interrupted text hscheduler hcpu hseeking =>
    rcases CpuThread.seeking_step hseeking hpeers hr with ⟨hnone, hseeking'⟩ | ⟨q, hpid, hserving⟩
    · exact .interrupted text hscheduler (by simp [LockStep.advanced, hcpu, hnone]) hseeking'
    · exact .resumed text q hscheduler (by simp [LockStep.advanced, hcpu, hpid]) hserving
  | resumed text q hscheduler hcpu hserving =>
    obtain ⟨hcpu', hserving'⟩ := serving_advanced hserving hpeers ha hr
    exact .resumed text q hscheduler (hcpu'.trans hcpu) hserving'

/-- The thread goes on, and the two stay in step. -/
lemma Aligned.advanced {r : CpuThread × CpuThread.Effect} {a : CpuThread.Action}
    (h : s.Aligned) (hpeers : s.thread.PeersConnected a) (ha : ∀ opCode, a ≠ .receive opCode)
    (hr : s.thread.step a = some r) : (s.advanced r).Aligned := by
  have hsame : (s.advanced r).loop.phase = s.loop.phase := rfl
  rw [Aligned, hsame]
  rw [Aligned] at h
  split at h
  · exact h.advanced hpeers ha hr
  · exact h.advanced hpeers ha hr
  · exact h.advanced hpeers ha hr
  · exact h.advanced hpeers ha hr
  · split at h
    · rename_i hgoing
      rw [if_pos hgoing]
      exact h.advanced hpeers ha hr
    · rename_i hgoing
      rw [if_neg hgoing]
      exact h.advanced hpeers ha hr
  · obtain ⟨q, hrunning⟩ := h
    exact ⟨q, hrunning.advanced hpeers ha hr⟩

/-- The invariant is kept when the thread of the scheduler goes on. -/
lemma sound_thread {a : CpuThread.Action} (h : s.Sound) (hpeers : s.thread.PeersConnected a)
    (hstep : s.step (.thread a) = some s') : s'.Sound := by
  have ha : ∀ opCode, a ≠ .receive opCode := by
    rintro opCode rfl
    exact absurd hstep (by simp [step])
  have hr : ∃ r, s.thread.step a = some r ∧ s.advanced r = s' := by
    cases a with
    | receive opCode => exact absurd rfl (ha opCode)
    | _ => exact Option.map_eq_some_iff.1 hstep
  obtain ⟨r, hr, rfl⟩ := hr
  exact ⟨h.aligned.advanced hpeers ha hr, h.connected, h.counts, h.fault⟩

/-- **What one step keeps.** -/
lemma sound_step {e : Event} (h : s.Sound) (hok : s.Admits e) (hstep : s.step e = some s') :
    s'.Sound := by
  cases e with
  | message => exact sound_message h hstep
  | context registers segmentTable => exact sound_context h hstep
  | instruction rawInstruction => exact sound_instruction h hok hstep
  | segmentTable segmentTable => exact sound_segmentTable h hstep
  | operation => exact sound_operation h hstep
  | thread action => exact sound_thread h hok hstep

/-- **A CPU and its thread run in lock-step**: in every run from a fresh connection in which the
peers answer and the instructions meet the condition of their handlers. -/
theorem inStep_of_run {cpu : State} (hconnected : Connected cpu)
    (h : Run step Admits (init cpu) s) : s.InStep :=
  (h.invariant (sound_init hconnected) fun _ _ _ hsound hok hstep =>
    sound_step hsound hok hstep).inStep

/-- The condition of `Admits` on the peers. -/
def PeersAnswer (s : LockStep) : Event → Prop
  | .thread action => s.thread.PeersConnected action
  | _ => True

instance (s : LockStep) : DecidablePred s.PeersAnswer := fun e =>
  match e with
  | .thread action => inferInstanceAs (Decidable (s.thread.PeersConnected action))
  | .message => .isTrue trivial
  | .context _ _ => .isTrue trivial
  | .instruction _ => .isTrue trivial
  | .segmentTable _ => .isTrue trivial
  | .operation => .isTrue trivial

/-- A CPU that has just started, with segments of at most 256 bytes and no memory stick. -/
def started : State where
  maxSegmentSize := 256
  memorySticks := []
  registers := ⟨0, 0, 0, 0, 0, 0, 0, 0, 0, 0, 0⟩
  segmentTable := []
  segmentChanged := false
  schedulerConnected := true
  sent := []
  sentToMemory := []
  stickRequests := []

/-- The CPU of the examples has its peers. -/
lemma connected_started : Connected started := ⟨rfl, by simp [started]⟩

/-- A process is taken from READY and handed to the CPU, which gets an empty segment table. -/
def dispatched (p : ℕ) : List Event :=
  [.thread .go, .thread (.takeReady (some p)), .thread .go, .thread .go, .thread (.send true),
    .message, .context started.registers []]

/-- A round in which the thread decides that the process goes on. -/
def goesOn : List Event :=
  [.instruction "NOOP", .operation, .thread (.handle ⟨.mutexLocked, true⟩), .thread (.due false),
    .thread (.due false), .thread (.preempt none), .thread (.send true), .message]

/-- Whether an event is no instruction but `NOOP`, which needs no condition. -/
def Event.onlyNoop : Event → Bool
  | .instruction rawInstruction => rawInstruction == "NOOP"
  | _ => true

/-- Events with no other instruction than `NOOP` are admitted. -/
lemma admits_of_onlyNoop {t : LockStep} {e : Event} (h : t.PeersAnswer e ∧ e.onlyNoop = true) :
    t.Admits e := by
  cases e with
  | instruction rawInstruction =>
    intro pid _
    have hnoop : rawInstruction = "NOOP" := by simpa [Event.onlyNoop] using h.2
    refine ⟨⟨"NOOP", []⟩, ?_, fun condition hlookup => ?_⟩
    · rw [hnoop]
      decide +kernel
    · obtain rfl : _ = condition := Option.some.inj hlookup
      trivial
  | thread action => exact h.1
  | _ => trivial

/-- A process is dispatched, executes a `NOOP` and goes on. -/
theorem inStep_of_run_noop : ∃ s, Run step Admits (init started) s ∧ s.loop.phase = .fetching 7 ∧
    s.rounds = 1 ∧ s.InStep := by
  have hrun : (executeOk step (fun t e => t.PeersAnswer e ∧ e.onlyNoop = true) (init started)
      (dispatched 7 ++ goesOn)).map (fun s => (s.loop.phase, s.rounds)) =
      some (.fetching 7, 1) := by decide +kernel
  obtain ⟨s, hs, heq⟩ := Option.map_eq_some_iff.1 hrun
  simp only [Prod.mk.injEq] at heq
  have h : Run step Admits (init started) s :=
    (Run.of_executeOk hs).mono fun _ _ => admits_of_onlyNoop
  exact ⟨s, h, heq.1, heq.2, inStep_of_run connected_started h⟩

/-- **A missing segment stops the CPU**: the round of a `MOV_OUT` to an address without a segment
sends no operation, and the thread goes on waiting for one. -/
theorem silent_without_segment : ∃ s, Run step PeersAnswer (init started) s ∧ s.rounds = 1 ∧
    s.reports = 0 ∧ s.loop.phase = .stopped ∧ s.thread.phase = .receiving := by
  have hrun : (executeOk step PeersAnswer (init started)
      (dispatched 7 ++ [.instruction "MOV_OUT EAX"])).map
        (fun s => (s.rounds, s.reports, s.loop.phase, s.thread.phase)) =
      some (1, 0, .stopped, .receiving) := by decide +kernel
  obtain ⟨s, hs, heq⟩ := Option.map_eq_some_iff.1 hrun
  simp only [Prod.mk.injEq] at heq
  exact ⟨s, .of_executeOk hs, heq.1, heq.2.1, heq.2.2.1, heq.2.2.2⟩

end Steps

end LockStep

end OsSimulator.Cpu
