import Mathlib.Data.Int.Notation
import Mathlib.Tactic.FinCases
import OsSimulator.Library.Runs
import OsSimulator.Library.Threads

set_option relaxedAutoImplicit false
set_option autoImplicit false

/-!
# The gate before a compaction

The CPU threads of `connections/cpu.c`, each of which takes one process after another from READY
and follows it through its syscalls, and the thread in `routine_compaction`. A step is a section
under one lock or one atomic access. Which READY process is taken, whether a preemption is due and
what a syscall does are left open.

## Main definitions

* `CpuPhase`, `Gate`, `Gate.step` — the threads, the state and its steps.
* `Gate.QuietWhileCompacting` — what the gate is for.
* `Gate.PassesQuietly` — the condition on a step.

## Main results

* `Gate.quiet_of_run` — nothing runs during a compaction in a run whose steps meet the condition.
* `Gate.quiet_fails` — three CPUs on which a process runs on.
-/

namespace OsSimulator.Scheduler

/-- Where a CPU thread is, with the process it has in hand. -/
inductive CpuPhase
  /-- in `manage_request_process`, before the test of `preempt_all` -/
  | requesting
  /-- past that test -/
  | admitted
  /-- with a process taken from READY -/
  | took (p : ℕ)
  /-- with that process in EXEC, before `OP_RESUME_PROCESS` -/
  | dispatching (p : ℕ)
  /-- in `receive_op_code`, while the CPU runs the process -/
  | running (p : ℕ)
  /-- in a syscall handler, after `increment_syscall_counter` -/
  | handling (p : ℕ)
  /-- still in the handler, which has taken the process out of EXEC -/
  | left (p : ℕ)
  /-- before `manage_queue_blocked`, after a syscall or not -/
  | deciding (p : ℕ) (syscall : Bool)
  /-- past `manage_queue_blocked`, which has not found the queue blocked -/
  | keeping (p : ℕ)
  /-- in `manage_preemption_priority`, with another process taken from READY -/
  | preempting (p newPcb : ℕ)
  /-- there, after the first process has gone back to READY -/
  | replacing (newPcb : ℕ)
  /-- there, with the new process in EXEC, before `OP_INTERRUPT` and `OP_RESUME_PROCESS` -/
  | replaced (newPcb : ℕ)
  /-- before `OP_INTERRUPT`, with the process out of EXEC -/
  | interrupting
  deriving DecidableEq, Repr

/-- The process of the thread that is in EXEC. -/
def CpuPhase.inExec : CpuPhase → Option ℕ
  | .dispatching p => some p
  | .running p => some p
  | .handling p => some p
  | .deciding p _ => some p
  | .keeping p => some p
  | .preempting p _ => some p
  | .replaced newPcb => some newPcb
  | _ => none

/-- The process whose syscall is counted. -/
def CpuPhase.counted : CpuPhase → Option ℕ
  | .handling p => some p
  | .left p => some p
  | _ => none

/-- The process of the thread that is in EXEC and waits for the decision about its syscall. -/
def CpuPhase.inSyscall : CpuPhase → Option ℕ
  | .handling p => some p
  | .deciding p true => some p
  | _ => none

/-- Where `routine_compaction` is: not running; started; past `lock_queue_ready`; and between the
end of the wait in `lock_all` and `OP_COMPACTION_DONE`. -/
inductive CompactionPhase
  | idle
  | entered
  | locked
  | compacting
  | finished
  deriving DecidableEq, Repr

/-- The messages that let a CPU go on. -/
inductive Decision
  | resumeProcess (p : ℕ)
  | noInterrupt
  deriving DecidableEq, Repr

/-- The state. `waiting`, `awake` and `cleared` count the threads of `thread_unlock_queue_ready`:
those that wait for EXEC to be empty, those past the wait, and those that have found no compaction
active. `told` are the messages that were sent to CPUs since the compaction began. -/
structure Gate (ι : Type) where
  ready : List ℕ
  exec : List ℕ
  count : ℤ
  preemptAll : Bool
  compactionActive : Bool
  compaction : CompactionPhase
  compactor : Option ι
  waiting : ℕ
  awake : ℕ
  cleared : ℕ
  phase : ι → CpuPhase
  told : List (ι × Decision)

namespace Gate

/-- No process yet. -/
def init (ι : Type) : Gate ι where
  ready := []
  exec := []
  count := 0
  preemptAll := false
  compactionActive := false
  compaction := .idle
  compactor := none
  waiting := 0
  awake := 0
  cleared := 0
  phase := fun _ => .requesting
  told := []

/-- What can happen next: a process enters READY, a step of a CPU thread, a step of the compaction
and of the threads that end it. -/
inductive Event (ι : Type)
  | toReady (p : ℕ)
  | testPreempt (i : ι)
  | takeReady (i : ι) (p : ℕ)
  | toExec (i : ι)
  | resumeProcess (i : ι)
  | syscall (i : ι)
  | cycleOk (i : ι)
  | segmentationFault (i : ι)
  | leaveExec (i : ι)
  | endSyscall (i : ι)
  | queueBlocked (i : ι)
  | endQuantum (i : ι)
  | preempt (i : ι) (newPcb : ℕ)
  | noInterrupt (i : ι)
  | interrupt (i : ι)
  | startCompaction (i : ι)
  | lockQueueReady
  | passGate
  | compactionDone
  | endCompaction
  | execEmpty
  | checkActive
  | unlockQueueReady
  deriving DecidableEq, Repr

variable {ι : Type} [DecidableEq ι]

/-- A thread is in another phase. -/
def setPhase (i : ι) (phase : CpuPhase) (s : Gate ι) : Gate ι :=
  { s with phase := Function.update s.phase i phase }

/-- A message to the CPU of a thread, which is recorded while Kernel Memory compacts. -/
def tell (i : ι) (decision : Decision) (s : Gate ι) : Gate ι :=
  if s.compaction = .compacting then { s with told := (i, decision) :: s.told } else s

/-- One step of the system. -/
def step (s : Gate ι) : Event ι → Option (Gate ι)
  | .toReady p => some { s with ready := s.ready ++ [p] }
  | .testPreempt i =>
    if s.phase i = .requesting ∧ s.preemptAll = false then some (s.setPhase i .admitted) else none
  | .takeReady i p =>
    if s.phase i = .admitted ∧ p ∈ s.ready then
      some ({ s with ready := s.ready.erase p }.setPhase i (.took p))
    else none
  | .toExec i =>
    match s.phase i with
    | .took p => some ({ s with exec := s.exec ++ [p] }.setPhase i (.dispatching p))
    | .preempting p newPcb =>
      some ({ s with exec := s.exec.erase p, ready := s.ready ++ [p] }.setPhase i
        (.replacing newPcb))
    | .replacing newPcb =>
      some ({ s with exec := s.exec ++ [newPcb] }.setPhase i (.replaced newPcb))
    | _ => none
  | .resumeProcess i =>
    match s.phase i with
    | .dispatching p => some ((s.tell i (.resumeProcess p)).setPhase i (.running p))
    | .replaced newPcb => some ((s.tell i (.resumeProcess newPcb)).setPhase i (.running newPcb))
    | _ => none
  | .syscall i =>
    match s.phase i with
    | .running p => some ({ s with count := s.count + 1 }.setPhase i (.handling p))
    | _ => none
  | .cycleOk i =>
    match s.phase i with
    | .running p => some (s.setPhase i (.deciding p false))
    | _ => none
  | .segmentationFault i =>
    match s.phase i with
    | .running p => some ({ s with exec := s.exec.erase p }.setPhase i .interrupting)
    | _ => none
  | .leaveExec i =>
    if s.compactor = some i then none
    else match s.phase i with
    | .handling p => some ({ s with exec := s.exec.erase p }.setPhase i (.left p))
    | _ => none
  | .endSyscall i =>
    if s.compactor = some i then none
    else match s.phase i with
    | .handling p => some ({ s with count := s.count - 1 }.setPhase i (.deciding p true))
    | .left _ => some ({ s with count := s.count - 1 }.setPhase i .interrupting)
    | _ => none
  | .queueBlocked i =>
    match s.phase i with
    | .deciding p _ =>
      if s.preemptAll then
        some ({ s with exec := s.exec.erase p, ready := s.ready ++ [p] }.setPhase i .interrupting)
      else some (s.setPhase i (.keeping p))
    | _ => none
  | .endQuantum i =>
    match s.phase i with
    | .keeping p =>
      some ({ s with exec := s.exec.erase p, ready := s.ready ++ [p] }.setPhase i .interrupting)
    | _ => none
  | .preempt i newPcb =>
    match s.phase i with
    | .keeping p =>
      if newPcb ∈ s.ready then
        some ({ s with ready := s.ready.erase newPcb }.setPhase i (.preempting p newPcb))
      else none
    | _ => none
  | .noInterrupt i =>
    match s.phase i with
    | .keeping p => some ((s.tell i .noInterrupt).setPhase i (.running p))
    | _ => none
  | .interrupt i =>
    if s.phase i = .interrupting then some (s.setPhase i .requesting) else none
  | .startCompaction i =>
    match s.phase i with
    | .handling _ =>
      if s.compactionActive = false ∧ s.compaction = .idle then
        some { s with compactionActive := true, compaction := .entered, compactor := some i }
      else none
    | _ => none
  | .lockQueueReady =>
    if s.compaction = .entered then some { s with preemptAll := true, compaction := .locked }
    else none
  | .passGate =>
    if s.compaction = .locked ∧ s.exec.length - s.count ≤ 0 then
      some { s with compaction := .compacting, told := [] }
    else none
  | .compactionDone =>
    if s.compaction = .compacting then some { s with compaction := .finished } else none
  | .endCompaction =>
    if s.compaction = .finished then
      some { s with
        compactionActive := false, compaction := .idle, compactor := none, waiting := s.waiting + 1 }
    else none
  | .execEmpty =>
    if 0 < s.waiting ∧ s.exec = [] then
      some { s with waiting := s.waiting - 1, awake := s.awake + 1 }
    else none
  | .checkActive =>
    if 0 < s.awake then
      some (if s.compactionActive then { s with awake := s.awake - 1 }
        else { s with awake := s.awake - 1, cleared := s.cleared + 1 })
    else none
  | .unlockQueueReady =>
    if 0 < s.cleared then some { s with preemptAll := false, cleared := s.cleared - 1 } else none

/-- **Nothing runs while Kernel Memory compacts**: every process in EXEC is in a syscall and waits
for the decision, and no CPU has been told to go on. -/
def QuietWhileCompacting (s : Gate ι) : Prop :=
  s.compaction = .compacting →
    (∀ p ∈ s.exec, ∃ i, (s.phase i).inSyscall = some p) ∧ s.told = []

/-- The thread is on its way from READY to EXEC: past the test of `preempt_all`, or with a process
that is in neither list. -/
def OnTheWay (phase : CpuPhase) : Prop :=
  phase = .admitted ∨ (∃ p, phase = .took p) ∨ ∃ newPcb, phase = .replacing newPcb

/-- The gate is passed when no thread is on its way from READY to EXEC, and when a counted syscall
whose process has left EXEC does not make up for a process in EXEC outside a syscall; and no
thread of an earlier compaction unblocks the READY queue before the compaction is done. -/
def PassesQuietly (s : Gate ι) : Event ι → Prop
  | .passGate => (∀ i, ¬ OnTheWay (s.phase i)) ∧
      ((∃ i p, s.phase i = .left p) →
        ∀ i p, (s.phase i).inExec = some p → (s.phase i).inSyscall = some p)
  | .unlockQueueReady => s.compaction ≠ .locked ∧ s.compaction ≠ .compacting
  | _ => True

/-! ## What a step of a CPU thread does -/

variable {i : ι} {s s' : Gate ι}

/-- The thread is not on its way to EXEC, and its process in EXEC, if there is one, waits for the
decision about its syscall. -/
def Settled (phase : CpuPhase) : Prop := phase.inExec = phase.inSyscall ∧ ¬ OnTheWay phase

/-- The thread of an event of a CPU thread. -/
def Event.thread : Event ι → Option ι
  | .testPreempt i => some i
  | .takeReady i _ => some i
  | .toExec i => some i
  | .resumeProcess i => some i
  | .syscall i => some i
  | .cycleOk i => some i
  | .segmentationFault i => some i
  | .leaveExec i => some i
  | .endSyscall i => some i
  | .queueBlocked i => some i
  | .endQuantum i => some i
  | .preempt i _ => some i
  | .noInterrupt i => some i
  | .interrupt i => some i
  | _ => none

/-- A step of the thread `i` to the phase `x`: its process enters or leaves EXEC and is counted or
not as its phase says, and with the queue blocked a settled thread stays settled and tells its CPU
nothing. -/
structure CpuEffect (i : ι) (x : CpuPhase) (s s' : Gate ι) : Prop where
  phase : s'.phase = Function.update s.phase i x
  exec : ∀ others, s.exec.Perm ((s.phase i).inExec.toList ++ others) →
    s'.exec.Perm (x.inExec.toList ++ others)
  count : s'.count - x.counted.toList.length = s.count - (s.phase i).counted.toList.length
  compaction : s'.compaction = s.compaction
  preemptAll : s'.preemptAll = s.preemptAll
  settled : Settled (s.phase i) → s.preemptAll = true → Settled x ∧ s'.told = s.told

omit [DecidableEq ι] in
/-- A decision that is told changes what the CPUs know only. -/
lemma tell_spec (i : ι) (decision : Decision) (s : Gate ι) :
    ∃ told, s.tell i decision = { s with told := told } := by
  unfold tell
  split
  · exact ⟨_, rfl⟩
  · exact ⟨s.told, rfl⟩

section Effects

variable {x y : CpuPhase} {p : ℕ}

/-- The EXEC list does not change. -/
lemma cpuEffect_stay (hphase : s.phase i = y) (hphase' : s'.phase = Function.update s.phase i x)
    (hin : x.inExec = y.inExec) (hexec : s'.exec = s.exec)
    (hcount : s'.count - x.counted.toList.length = s.count - y.counted.toList.length)
    (hframe : s'.compaction = s.compaction ∧ s'.preemptAll = s.preemptAll)
    (hsettled : Settled y → s.preemptAll = true → Settled x ∧ s'.told = s.told) :
    CpuEffect i x s s' := by
  refine ⟨hphase', ?_, hphase ▸ hcount, hframe.1, hframe.2, hphase ▸ hsettled⟩
  rw [hphase, hin, hexec]
  exact fun _ hperm => hperm

/-- A process enters EXEC: the thread was on its way. -/
lemma cpuEffect_enter (hphase : s.phase i = y) (hphase' : s'.phase = Function.update s.phase i x)
    (hout : y.inExec = none) (hin : x.inExec = some p) (hexec : s'.exec = s.exec ++ [p])
    (hcount : s'.count - x.counted.toList.length = s.count - y.counted.toList.length)
    (hframe : s'.compaction = s.compaction ∧ s'.preemptAll = s.preemptAll)
    (hway : OnTheWay y) : CpuEffect i x s s' := by
  refine ⟨hphase', ?_, hphase ▸ hcount, hframe.1, hframe.2, fun hsettled => ?_⟩
  · rw [hphase, hout, hin, hexec]
    exact fun _ hperm => (hperm.append_right [p]).trans List.perm_append_comm
  · rw [hphase] at hsettled
    exact absurd hway hsettled.2

/-- A process leaves EXEC. -/
lemma cpuEffect_leave (hphase : s.phase i = y) (hphase' : s'.phase = Function.update s.phase i x)
    (hin : y.inExec = some p) (hout : x.inExec = none) (hexec : s'.exec = s.exec.erase p)
    (hcount : s'.count - x.counted.toList.length = s.count - y.counted.toList.length)
    (hframe : s'.compaction = s.compaction ∧ s'.preemptAll = s.preemptAll)
    (hsettled : Settled y → s.preemptAll = true → Settled x ∧ s'.told = s.told) :
    CpuEffect i x s s' := by
  refine ⟨hphase', ?_, hphase ▸ hcount, hframe.1, hframe.2, hphase ▸ hsettled⟩
  rw [hphase, hin, hout, hexec]
  intro others hperm
  simpa using hperm.erase p

end Effects

/-- A phase whose process is in EXEC outside a syscall is not settled. -/
lemma not_settled {x : CpuPhase} {p : ℕ} (hin : x.inExec = some p) (hout : x.inSyscall = none) :
    ¬ Settled x := by
  intro h
  rw [Settled, hin, hout] at h
  exact absurd h.1 (by simp)

/-- What a step of a CPU thread changes. -/
lemma cpuEffect_of_step {e : Event ι} (h : step s e = some s') (hthread : e.thread = some i) :
    ∃ x, CpuEffect i x s s' := by
  cases e with
  | testPreempt j =>
    obtain rfl : j = i := Option.some.inj hthread
    simp only [step] at h
    split at h
    · rename_i hcond
      obtain rfl := Option.some.inj h
      refine ⟨_, cpuEffect_stay hcond.1 rfl rfl rfl rfl ⟨rfl, rfl⟩ fun _ hblocked => ?_⟩
      rw [hcond.2] at hblocked
      exact absurd hblocked (by simp)
    · exact absurd h (by simp)
  | takeReady j p =>
    obtain rfl : j = i := Option.some.inj hthread
    simp only [step] at h
    split at h
    · rename_i hcond
      obtain rfl := Option.some.inj h
      exact ⟨_, cpuEffect_stay hcond.1 rfl rfl rfl rfl ⟨rfl, rfl⟩
        fun hsettled => absurd (.inl rfl) hsettled.2⟩
    · exact absurd h (by simp)
  | toExec j =>
    obtain rfl : j = i := Option.some.inj hthread
    simp only [step] at h
    split at h
    · rename_i p hphase
      obtain rfl := Option.some.inj h
      exact ⟨_, cpuEffect_enter hphase rfl rfl rfl rfl rfl ⟨rfl, rfl⟩ (.inr (.inl ⟨p, rfl⟩))⟩
    · rename_i p newPcb hphase
      obtain rfl := Option.some.inj h
      exact ⟨_, cpuEffect_leave hphase rfl rfl rfl rfl rfl ⟨rfl, rfl⟩
        fun hsettled => absurd hsettled (not_settled rfl rfl)⟩
    · rename_i newPcb hphase
      obtain rfl := Option.some.inj h
      exact ⟨_, cpuEffect_enter hphase rfl rfl rfl rfl rfl ⟨rfl, rfl⟩ (.inr (.inr ⟨newPcb, rfl⟩))⟩
    · exact absurd h (by simp)
  | resumeProcess j =>
    obtain rfl : j = i := Option.some.inj hthread
    simp only [step] at h
    split at h
    · rename_i p hphase
      obtain ⟨told, htold⟩ := tell_spec j (.resumeProcess p) s
      rw [htold] at h
      obtain rfl := Option.some.inj h
      exact ⟨_, cpuEffect_stay hphase rfl rfl rfl rfl ⟨rfl, rfl⟩
        fun hsettled => absurd hsettled (not_settled rfl rfl)⟩
    · rename_i newPcb hphase
      obtain ⟨told, htold⟩ := tell_spec j (.resumeProcess newPcb) s
      rw [htold] at h
      obtain rfl := Option.some.inj h
      exact ⟨_, cpuEffect_stay hphase rfl rfl rfl rfl ⟨rfl, rfl⟩
        fun hsettled => absurd hsettled (not_settled rfl rfl)⟩
    · exact absurd h (by simp)
  | syscall j =>
    obtain rfl : j = i := Option.some.inj hthread
    simp only [step] at h
    split at h
    · rename_i p hphase
      obtain rfl := Option.some.inj h
      refine ⟨_, cpuEffect_stay hphase rfl rfl rfl ?_ ⟨rfl, rfl⟩
        fun hsettled => absurd hsettled (not_settled rfl rfl)⟩
      simp [CpuPhase.counted, setPhase]
    · exact absurd h (by simp)
  | cycleOk j =>
    obtain rfl : j = i := Option.some.inj hthread
    simp only [step] at h
    split at h
    · rename_i p hphase
      obtain rfl := Option.some.inj h
      exact ⟨_, cpuEffect_stay hphase rfl rfl rfl rfl ⟨rfl, rfl⟩
        fun hsettled => absurd hsettled (not_settled rfl rfl)⟩
    · exact absurd h (by simp)
  | segmentationFault j =>
    obtain rfl : j = i := Option.some.inj hthread
    simp only [step] at h
    split at h
    · rename_i p hphase
      obtain rfl := Option.some.inj h
      exact ⟨_, cpuEffect_leave hphase rfl rfl rfl rfl rfl ⟨rfl, rfl⟩
        fun hsettled => absurd hsettled (not_settled rfl rfl)⟩
    · exact absurd h (by simp)
  | leaveExec j =>
    obtain rfl : j = i := Option.some.inj hthread
    simp only [step] at h
    split at h
    · exact absurd h (by simp)
    split at h
    · rename_i p hphase
      obtain rfl := Option.some.inj h
      exact ⟨_, cpuEffect_leave hphase rfl rfl rfl rfl rfl ⟨rfl, rfl⟩
        fun _ _ => ⟨⟨rfl, by simp [OnTheWay]⟩, rfl⟩⟩
    · exact absurd h (by simp)
  | endSyscall j =>
    obtain rfl : j = i := Option.some.inj hthread
    simp only [step] at h
    split at h
    · exact absurd h (by simp)
    split at h
    · rename_i p hphase
      obtain rfl := Option.some.inj h
      refine ⟨_, cpuEffect_stay hphase rfl rfl rfl ?_ ⟨rfl, rfl⟩
        fun _ _ => ⟨⟨rfl, by simp [OnTheWay]⟩, rfl⟩⟩
      simp [CpuPhase.counted, setPhase]
    · rename_i p hphase
      obtain rfl := Option.some.inj h
      refine ⟨_, cpuEffect_stay hphase rfl rfl rfl ?_ ⟨rfl, rfl⟩
        fun _ _ => ⟨⟨rfl, by simp [OnTheWay]⟩, rfl⟩⟩
      simp [CpuPhase.counted, setPhase]
    · exact absurd h (by simp)
  | queueBlocked j =>
    obtain rfl : j = i := Option.some.inj hthread
    simp only [step] at h
    split at h
    · rename_i p syscall hphase
      split at h
      · obtain rfl := Option.some.inj h
        exact ⟨_, cpuEffect_leave hphase rfl rfl rfl rfl rfl ⟨rfl, rfl⟩
          fun _ _ => ⟨⟨rfl, by simp [OnTheWay]⟩, rfl⟩⟩
      · -- the queue is not blocked
        rename_i hfree
        obtain rfl := Option.some.inj h
        exact ⟨_, cpuEffect_stay hphase rfl rfl rfl rfl ⟨rfl, rfl⟩
          fun _ hblocked => absurd hblocked hfree⟩
    · exact absurd h (by simp)
  | endQuantum j =>
    obtain rfl : j = i := Option.some.inj hthread
    simp only [step] at h
    split at h
    · rename_i p hphase
      obtain rfl := Option.some.inj h
      exact ⟨_, cpuEffect_leave hphase rfl rfl rfl rfl rfl ⟨rfl, rfl⟩
        fun _ _ => ⟨⟨rfl, by simp [OnTheWay]⟩, rfl⟩⟩
    · exact absurd h (by simp)
  | preempt j newPcb =>
    obtain rfl : j = i := Option.some.inj hthread
    simp only [step] at h
    split at h
    · rename_i p hphase
      split at h
      · obtain rfl := Option.some.inj h
        exact ⟨_, cpuEffect_stay hphase rfl rfl rfl rfl ⟨rfl, rfl⟩ fun hsettled =>
          absurd hsettled (not_settled rfl rfl)⟩
      · exact absurd h (by simp)
    · exact absurd h (by simp)
  | noInterrupt j =>
    obtain rfl : j = i := Option.some.inj hthread
    simp only [step] at h
    split at h
    · rename_i p hphase
      obtain ⟨told, htold⟩ := tell_spec j .noInterrupt s
      rw [htold] at h
      obtain rfl := Option.some.inj h
      exact ⟨_, cpuEffect_stay hphase rfl rfl rfl rfl ⟨rfl, rfl⟩
        fun hsettled => absurd hsettled (not_settled rfl rfl)⟩
    · exact absurd h (by simp)
  | interrupt j =>
    obtain rfl : j = i := Option.some.inj hthread
    simp only [step] at h
    split at h
    · rename_i hphase
      obtain rfl := Option.some.inj h
      exact ⟨_, cpuEffect_stay hphase rfl rfl rfl rfl ⟨rfl, rfl⟩
        fun _ _ => ⟨⟨rfl, by simp [OnTheWay]⟩, rfl⟩⟩
    · exact absurd h (by simp)
  | _ => exact absurd hthread (by simp [Event.thread])

/-! ## The invariant -/

section Invariant

variable [Fintype ι]

/-- **The invariant**: the EXEC list and the counter are what the phases of the threads say; the
queue is blocked from `lock_queue_ready` to the end of the compaction; and during the compaction
all threads are settled. -/
structure Guarded (s : Gate ι) : Prop where
  exec : s.exec.Perm (gather CpuPhase.inExec s.phase)
  count : s.count = (gather CpuPhase.counted s.phase).length
  blocked : s.compaction = .locked ∨ s.compaction = .compacting → s.preemptAll = true
  settled : s.compaction = .compacting → (∀ i, Settled (s.phase i)) ∧ s.told = []

/-- A step of a CPU thread. -/
lemma Guarded.cpu {x : CpuPhase} (h : Guarded s) (heffect : CpuEffect i x s s') : Guarded s' := by
  refine ⟨?_, ?_, fun hphase => ?_, fun hphase => ?_⟩
  · obtain ⟨others, hbefore, hafter⟩ := exists_gather_update CpuPhase.inExec s.phase i
    rw [heffect.phase]
    exact (heffect.exec others (h.exec.trans hbefore)).trans (hafter x).symm
  · obtain ⟨others, hbefore, hafter⟩ := exists_gather_update CpuPhase.counted s.phase i
    have hlength := hbefore.length_eq
    have hlength' := (hafter x).length_eq
    rw [List.length_append] at hlength hlength'
    rw [heffect.phase]
    have hcount := heffect.count
    have hsame := h.count
    omega
  · rw [heffect.compaction] at hphase
    rw [heffect.preemptAll]
    exact h.blocked hphase
  · rw [heffect.compaction] at hphase
    obtain ⟨hall, htold⟩ := h.settled hphase
    obtain ⟨hx, htold'⟩ := heffect.settled (hall i) (h.blocked (.inr hphase))
    refine ⟨fun j => ?_, htold'.trans htold⟩
    rw [heffect.phase]
    by_cases hj : j = i
    · rw [hj, Function.update_self]
      exact hx
    · rw [Function.update_of_ne hj]
      exact hall j

/-- A process in EXEC that is counted is in a syscall. -/
lemma inExec_eq_inSyscall {x : CpuPhase} (h : x.inExec.isSome → x.counted.isSome) :
    x.inExec = x.inSyscall := by
  cases x with
  | requesting | admitted | took | handling | left | replacing | interrupting => rfl
  | dispatching | running | deciding | keeping | preempting | replaced =>
    exact absurd (h rfl) Bool.false_ne_true

omit [DecidableEq ι] in
/-- **The gate**: when it is passed and the condition is met, all threads are settled. With a
counted syscall whose process has left EXEC, the condition says so; without one there are as many
counted syscalls as processes in EXEC, so all of these are in syscalls. -/
lemma settled_of_passGate (h : Guarded s) (hpass : s.exec.length - s.count ≤ 0)
    (hok : PassesQuietly s .passGate) (i : ι) : Settled (s.phase i) := by
  obtain ⟨hway, hleft⟩ := hok
  refine ⟨?_, hway i⟩
  by_cases hout : ∃ i p, s.phase i = .left p
  · cases hexec : (s.phase i).inExec with
    | none => rw [← hexec, inExec_eq_inSyscall fun hsome => by simp [hexec] at hsome]
    | some p => exact (hleft hout i p hexec).symm
  · have hsub : ∀ j, ((s.phase j).counted).isSome → ((s.phase j).inExec).isSome := by
      intro j hj
      cases hphase : s.phase j with
      | left p => exact absurd ⟨j, p, hphase⟩ hout
      | handling p => rfl
      | _ => rw [hphase] at hj; exact absurd hj (by simp [CpuPhase.counted])
    have hle : (gather CpuPhase.inExec s.phase).length ≤
        (gather CpuPhase.counted s.phase).length := by
      have hlength := h.exec.length_eq
      have hcount := h.count
      omega
    exact inExec_eq_inSyscall (isSome_of_length_gather_le hsub hle i)

/-- **Every step that meets the condition keeps the invariant.** -/
lemma guarded_step {e : Event ι} (h : Guarded s) (hok : PassesQuietly s e)
    (hstep : step s e = some s') : Guarded s' := by
  cases hthread : e.thread with
  | some i =>
    obtain ⟨x, heffect⟩ := cpuEffect_of_step hstep hthread
    exact h.cpu heffect
  | none =>
    cases e with
    | toReady p =>
      obtain rfl := Option.some.inj hstep
      exact ⟨h.exec, h.count, h.blocked, h.settled⟩
    | startCompaction i =>
      simp only [step] at hstep
      split at hstep
      · split at hstep
        · obtain rfl := Option.some.inj hstep
          exact ⟨h.exec, h.count, by simp, by simp⟩
        · exact absurd hstep (by simp)
      · exact absurd hstep (by simp)
    | lockQueueReady =>
      simp only [step] at hstep
      split at hstep
      · obtain rfl := Option.some.inj hstep
        exact ⟨h.exec, h.count, fun _ => rfl, by simp⟩
      · exact absurd hstep (by simp)
    | passGate =>
      simp only [step] at hstep
      split at hstep
      · rename_i hcond
        have hsettled : ∀ i, Settled (s.phase i) := settled_of_passGate h hcond.2 hok
        obtain rfl := Option.some.inj hstep
        exact ⟨h.exec, h.count, fun _ => h.blocked (.inl hcond.1), fun _ => ⟨hsettled, rfl⟩⟩
      · exact absurd hstep (by simp)
    | compactionDone =>
      simp only [step] at hstep
      split at hstep
      · obtain rfl := Option.some.inj hstep
        exact ⟨h.exec, h.count, by simp, by simp⟩
      · exact absurd hstep (by simp)
    | endCompaction =>
      simp only [step] at hstep
      split at hstep
      · obtain rfl := Option.some.inj hstep
        exact ⟨h.exec, h.count, by simp, by simp⟩
      · exact absurd hstep (by simp)
    | execEmpty =>
      simp only [step] at hstep
      split at hstep
      · obtain rfl := Option.some.inj hstep
        exact ⟨h.exec, h.count, h.blocked, h.settled⟩
      · exact absurd hstep (by simp)
    | checkActive =>
      simp only [step] at hstep
      split at hstep
      · obtain rfl := Option.some.inj hstep
        split
        · exact ⟨h.exec, h.count, h.blocked, h.settled⟩
        · exact ⟨h.exec, h.count, h.blocked, h.settled⟩
      · exact absurd hstep (by simp)
    | unlockQueueReady =>
      simp only [step] at hstep
      split at hstep
      · obtain rfl := Option.some.inj hstep
        refine ⟨h.exec, h.count, fun hphase => ?_, h.settled⟩
        rcases hphase with hphase | hphase
        · exact absurd hphase hok.1
        · exact absurd hphase hok.2
      · exact absurd hstep (by simp)
    | _ => exact absurd hthread (by simp [Event.thread])

/-! ## The runs -/

/-- **Nothing runs while Kernel Memory compacts in a run whose steps meet the condition**, with any
number of CPU threads, processes and compactions. -/
theorem quiet_of_run (h : Run step PassesQuietly (init ι) s) : s.QuietWhileCompacting := by
  have hinit : Guarded (init ι) := by
    have hnothing : ∀ g : CpuPhase → Option ℕ, g .requesting = none →
        gather g (init ι).phase = [] := by
      intro g hg
      rw [List.eq_nil_iff_forall_not_mem]
      intro x hx
      obtain ⟨i, hi⟩ := mem_gather.1 hx
      exact absurd (hg.symm.trans hi) (by simp)
    refine ⟨?_, ?_, by simp [init], by simp [init]⟩
    · rw [hnothing CpuPhase.inExec rfl]
      exact .refl _
    · rw [hnothing CpuPhase.counted rfl]
      rfl
  have hguarded : Guarded s := h.invariant hinit fun _ _ _ ht hok hst => guarded_step ht hok hst
  intro hcompacting
  obtain ⟨hall, htold⟩ := hguarded.settled hcompacting
  refine ⟨fun p hp => ?_, htold⟩
  obtain ⟨i, hi⟩ := mem_gather.1 (hguarded.exec.mem_iff.1 hp)
  exact ⟨i, (hall i).1 ▸ hi⟩

end Invariant

/-- A CPU thread takes the process of its own number to its CPU. -/
def dispatchOn (i : ι) (p : ℕ) : List (Event ι) :=
  [.toReady p, .testPreempt i, .takeReady i p, .toExec i, .resumeProcess i]

/-- One process asks for memory while the other one is in a syscall too. -/
theorem quiet_of_run_twoSyscalls :
    ∃ s : Gate (Fin 2), Reachable step (init (Fin 2)) s ∧ s.compaction = .compacting ∧
      s.exec = [0, 1] ∧ s.QuietWhileCompacting := by
  have hrun : (execute step (init (Fin 2)) (dispatchOn 0 0 ++ dispatchOn 1 1 ++
      [.syscall 0, .syscall 1, .startCompaction 1, .lockQueueReady])).map (fun s =>
        ((s.phase 0, s.phase 1), (step s .passGate).map fun s => (s.compaction, s.exec))) =
      some ((.handling 0, .handling 1), some (.compacting, [0, 1])) := by decide +kernel
  obtain ⟨t, ht, heq⟩ := Option.map_eq_some_iff.1 hrun
  obtain ⟨hphases, hrest⟩ := Prod.mk.inj heq
  obtain ⟨hzero, hone⟩ := Prod.mk.inj hphases
  obtain ⟨s, hpass, hend⟩ := Option.map_eq_some_iff.1 hrest
  obtain ⟨hcompacting, hexec⟩ := Prod.mk.inj hend
  have hphase : ∀ i, ∃ p, t.phase i = .handling p := by
    intro i
    fin_cases i
    · exact ⟨0, hzero⟩
    · exact ⟨1, hone⟩
  have hbefore : Run step PassesQuietly (init (Fin 2)) t := by
    refine Run.of_execute_of_forall ht fun e he u => ?_
    cases e with
    | passGate => exact absurd he (by decide)
    | unlockQueueReady => exact absurd he (by decide)
    | _ => trivial
  have hok : PassesQuietly t .passGate := by
    refine ⟨fun i hway => ?_, fun hleft => ?_⟩
    · obtain ⟨p, hp⟩ := hphase i
      simp [OnTheWay, hp] at hway
    · obtain ⟨i, p, hp⟩ := hleft
      obtain ⟨q, hq⟩ := hphase i
      rw [hq] at hp
      exact absurd hp (by simp)
  have hwhole := hbefore.tail _ hok hpass
  exact ⟨s, hwhole.reachable, hcompacting, hexec, quiet_of_run hwhole⟩

/-- **Three CPUs.** Process 0 has left EXEC in its syscall, process 2 asks for memory, and the gate
is passed while process 1 runs. -/
theorem quiet_fails :
    ∃ s : Gate (Fin 3), Reachable step (init (Fin 3)) s ∧ ¬ s.QuietWhileCompacting := by
  have hrun : (execute step (init (Fin 3)) (dispatchOn 0 0 ++ dispatchOn 1 1 ++ dispatchOn 2 2 ++
      [.syscall 0, .leaveExec 0, .syscall 2, .startCompaction 2, .lockQueueReady, .passGate])).map
      (fun s => (s.compaction, s.exec, s.phase 0, s.phase 1, s.phase 2)) =
      some (.compacting, [1, 2], .left 0, .running 1, .handling 2) := by decide +kernel
  obtain ⟨s, hs, heq⟩ := Option.map_eq_some_iff.1 hrun
  simp only [Prod.mk.injEq] at heq
  obtain ⟨hcompacting, hexec, hzero, hone, htwo⟩ := heq
  refine ⟨s, Run.of_execute hs, fun hquiet => ?_⟩
  obtain ⟨i, hi⟩ := (hquiet hcompacting).1 1 (by rw [hexec]; decide)
  fin_cases i
  · exact absurd ((congrArg CpuPhase.inSyscall hzero).symm.trans hi) (by decide)
  · exact absurd ((congrArg CpuPhase.inSyscall hone).symm.trans hi) (by decide)
  · exact absurd ((congrArg CpuPhase.inSyscall htwo).symm.trans hi) (by decide)

end Gate

end OsSimulator.Scheduler
