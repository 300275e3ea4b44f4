import Mathlib.Data.List.Basic
import Mathlib.Order.Nat
import OsSimulator.Library.LockProgram

set_option relaxedAutoImplicit false
set_option autoImplicit false

/-!
# The locks of compaction, suspension and resumption

The threads of `scheduler/compaction.c`, `scheduler/suspension.c` and `syscalls/memory.c` as
programs over the locks they take: CPU threads in `allocate_memory`, the suspender, the resumer and
the threads of `resumption_routine`. What Kernel Memory answers, which processes are in the lists
and how long a process has been blocked is left open, and so is the shutdown.

## Main definitions

* `Locks.Thread`, `Locks.Lock`, `Locks.Phase`, `Locks.ops` — the threads, the locks and the
  programs.
* `Locks.AvoidsCycle` — the condition on a step.

## Main results

* `Locks.not_deadlocked_of_run` — no cycle of waits in a run whose steps meet the condition.
* `Locks.deadlocked_of_compaction` — a CPU and the suspender wait for each other.
-/

namespace OsSimulator.Scheduler.Locks

/-- The two worker threads of `suspension.c`. -/
inductive Worker
  | suspender
  | resumer
  deriving DecidableEq, Repr

/-- The states of a worker, without those of the shutdown. -/
inductive ThreadState
  | running
  | waitingProcess
  | blocked
  deriving DecidableEq, Repr

/-- The locks: the mutex of `km_socket`, the `state_mutex` of a worker, the mutex of the list it
works on (BLOCK for the suspender, SUSP. READY for the resumer), and the monitor of
`routine_enter` and `routine_leave`. -/
inductive Lock
  | kmSocket
  | stateMutex (w : Worker)
  | listMutex (w : Worker)
  | routineActive
  deriving DecidableEq, Repr

/-- What the threads share. -/
structure RoutineState where
  state : Worker → ThreadState
  compactionActive : Bool
  resumeActive : Bool

/-- A worker is in another state. -/
def RoutineState.setState (d : RoutineState) (w : Worker) (state : ThreadState) : RoutineState :=
  { d with state := Function.update d.state w state }

/-- A step of a thread over these locks. -/
abbrev Op (P : Type) := LockOp P Lock RoutineState

/-! ## The functions that several threads call -/

/-- Where a thread is in `lock_thread_suspended`. -/
inductive LockThread
  | lockState
  | switch
  | lockList
  | setBlocked
  | unlockList
  | unlockState
  deriving DecidableEq, Repr

/-- `lock_thread_suspended` for the worker `w`. -/
def lockThreadSuspended {P : Type} (w : Worker) (phase : LockThread → P) (after : P)
    (d : RoutineState) : LockThread → List (Op P)
  | .lockState => [.lock (.stateMutex w) (phase .switch)]
  | .switch =>
    match d.state w with
    | .running => [.compute (phase .unlockState) (d.setState w .blocked)]
    | .waitingProcess => [.compute (phase .lockList) d]
    | .blocked => [.compute (phase .unlockState) d]
  | .lockList => [.lock (.listMutex w) (phase .setBlocked)]
  | .setBlocked => [.compute (phase .unlockList) (d.setState w .blocked)]
  | .unlockList => [.unlock (.listMutex w) (phase .unlockState)]
  | .unlockState => [.unlock (.stateMutex w) after]

/-- The locks held there. -/
def LockThread.held (w : Worker) : LockThread → List Lock
  | .lockState => []
  | .switch => [.stateMutex w]
  | .lockList => [.stateMutex w]
  | .setBlocked => [.listMutex w, .stateMutex w]
  | .unlockList => [.listMutex w, .stateMutex w]
  | .unlockState => [.stateMutex w]

/-- Where a thread is in `unlock_thread_suspended`. -/
inductive UnlockThread
  | lockState
  | setRunning
  | unlockState
  deriving DecidableEq, Repr

/-- `unlock_thread_suspended` for the worker `w`. -/
def unlockThreadSuspended {P : Type} (w : Worker) (phase : UnlockThread → P) (after : P)
    (d : RoutineState) : UnlockThread → List (Op P)
  | .lockState => [.lock (.stateMutex w) (phase .setRunning)]
  | .setRunning =>
    [.compute (phase .unlockState) (if d.state w = .blocked then d.setState w .running else d)]
  | .unlockState => [.unlock (.stateMutex w) after]

/-- The locks held there. -/
def UnlockThread.held (w : Worker) : UnlockThread → List Lock
  | .lockState => []
  | .setRunning => [.stateMutex w]
  | .unlockState => [.stateMutex w]

/-- Where a thread is in `transition_susp_ready_no_mutex`, from the questions of
`can_resume_suspended` to the removal from SUSP. READY. -/
inductive SuspReady
  | lockSpace
  | unlockSpace
  | lockSize
  | unlockSize
  | canResume
  | lockResume
  | unlockResume
  | resumed
  | lockList
  | unlockList
  deriving DecidableEq, Repr

/-- `transition_susp_ready_no_mutex`, past its test of the state of the process. -/
def transitionSuspReady {P : Type} (phase : SuspReady → P) (ifTrue ifFalse : P) (d : RoutineState) :
    SuspReady → List (Op P)
  | .lockSpace => [.lock .kmSocket (phase .unlockSpace)]
  | .unlockSpace => [.unlock .kmSocket (phase .lockSize)]
  | .lockSize => [.lock .kmSocket (phase .unlockSize)]
  | .unlockSize => [.unlock .kmSocket (phase .canResume)]
  | .canResume => [.compute ifFalse d, .compute (phase .lockResume) d]
  | .lockResume => [.lock .kmSocket (phase .unlockResume)]
  | .unlockResume => [.unlock .kmSocket (phase .resumed)]
  | .resumed => [.compute ifFalse d, .compute (phase .lockList) d]
  | .lockList => [.lock (.listMutex .resumer) (phase .unlockList)]
  | .unlockList => [.unlock (.listMutex .resumer) ifTrue]

/-- The locks held there. -/
def SuspReady.held : SuspReady → List Lock
  | .unlockSpace => [.kmSocket]
  | .unlockSize => [.kmSocket]
  | .unlockResume => [.kmSocket]
  | .unlockList => [.listMutex .resumer]
  | _ => []

/-- Where a worker is in its loop: at the head, in the switch, in `wait_unlock`, in its
`wait_process_*` function, and at the end of the loop. -/
inductive Loop
  | head
  | switch
  | waitUnlock
  | inCondWait
  | waitProcess
  | lockList
  | testList
  | inCondWaitList
  | unlockList
  | relockState
  | testState
  | endSwitch
  deriving DecidableEq, Repr

/-- The loop of the worker `w`, which gets a process in the phase `get`. -/
def workerLoop {P : Type} (w : Worker) (phase : Loop → P) (get : P) (d : RoutineState) :
    Loop → List (Op P)
  | .head => [.lock (.stateMutex w) (phase .switch)]
  | .switch =>
    match d.state w with
    | .running => [.compute get d]
    | .waitingProcess => [.compute (phase .waitProcess) d]
    | .blocked => [.compute (phase .waitUnlock) d]
  | .waitUnlock =>
    if d.state w = .blocked then [.unlock (.stateMutex w) (phase .inCondWait)]
    else [.compute (phase .endSwitch) d]
  | .inCondWait => [.lock (.stateMutex w) (phase .waitUnlock)]
  | .waitProcess => [.unlock (.stateMutex w) (phase .lockList)]
  | .lockList => [.lock (.listMutex w) (phase .testList)]
  | .testList =>
    [.unlock (.listMutex w) (phase .inCondWaitList), .unlock (.listMutex w) (phase .relockState)]
  | .inCondWaitList => [.lock (.listMutex w) (phase .unlockList)]
  | .unlockList => [.unlock (.listMutex w) (phase .relockState)]
  | .relockState => [.lock (.stateMutex w) (phase .testState)]
  | .testState =>
    [.compute (phase .endSwitch) d,
      .compute (phase .endSwitch)
        (if d.state w = .waitingProcess then d.setState w .running else d)]
  | .endSwitch => [.unlock (.stateMutex w) (phase .head)]

/-- The locks held there. -/
def Loop.held (w : Worker) : Loop → List Lock
  | .switch => [.stateMutex w]
  | .waitUnlock => [.stateMutex w]
  | .waitProcess => [.stateMutex w]
  | .testList => [.listMutex w]
  | .unlockList => [.listMutex w]
  | .testState => [.stateMutex w]
  | .endSwitch => [.stateMutex w]
  | _ => []

/-! ## The threads -/

/-- Where a CPU thread is: outside `allocate_memory`, in it with the connection, after the answer,
and in `routine_compaction` from `routine_enter` to `routine_leave`. -/
inductive Cpu
  | idle
  | request
  | answered
  | routineEnter
  | lockThreads (w : Worker) (k : LockThread)
  | compaction
  | routineLeave
  deriving DecidableEq, Repr

/-- `allocate_memory` and `routine_compaction`. The second choice in `request` is
`OP_COMPACTION_NEEDED`. -/
def Cpu.ops (d : RoutineState) : Cpu → List (Op Cpu)
  | .idle => [.lock .kmSocket .request]
  | .request =>
    [.compute .answered d,
      if d.compactionActive then .compute .request d
      else .compute .routineEnter { d with compactionActive := true }]
  | .answered => [.unlock .kmSocket .idle]
  | .routineEnter => [.lock .routineActive (.lockThreads .suspender .lockState)]
  | .lockThreads .suspender k =>
    lockThreadSuspended .suspender (.lockThreads .suspender) (.lockThreads .resumer .lockState) d k
  | .lockThreads .resumer k =>
    lockThreadSuspended .resumer (.lockThreads .resumer) .compaction d k
  | .compaction => [.compute .routineLeave { d with compactionActive := false }]
  | .routineLeave => [.unlock .routineActive .request]

/-- The locks a CPU thread holds. -/
def Cpu.held : Cpu → List Lock
  | .idle => []
  | .request => [.kmSocket]
  | .answered => [.kmSocket]
  | .routineEnter => [.kmSocket]
  | .lockThreads w k => k.held w ++ [.routineActive, .kmSocket]
  | .compaction => [.routineActive, .kmSocket]
  | .routineLeave => [.routineActive, .kmSocket]

/-- Where the suspender is: in its loop; in `get_process_blocked`, which asks for the size of one
process after another; in `run_suspend_process`; and at its end. -/
inductive Suspender
  | loop (k : Loop)
  | getProcess
  | nextProcess
  | lockSize
  | unlockSize
  | testSize
  | noProcess
  | foundProcess
  | unlockState
  | testTimeout
  | lockSuspend
  | unlockSuspend
  | suspended
  | lockBlock
  | unlockBlock
  | testRoutines
  | unlockResumer (k : UnlockThread)
  | relockState
  deriving DecidableEq, Repr

/-- The suspender. -/
def Suspender.ops (d : RoutineState) : Suspender → List (Op Suspender)
  | .loop k => workerLoop .suspender .loop .getProcess d k
  | .getProcess => [.lock (.listMutex .suspender) .nextProcess]
  | .nextProcess =>
    [.compute .lockSize d, .compute .noProcess (d.setState .suspender .waitingProcess)]
  | .lockSize => [.lock .kmSocket .unlockSize]
  | .unlockSize => [.unlock .kmSocket .testSize]
  | .testSize => [.compute .nextProcess d, .compute .foundProcess d]
  | .noProcess => [.unlock (.listMutex .suspender) (.loop .endSwitch)]
  | .foundProcess => [.unlock (.listMutex .suspender) .unlockState]
  | .unlockState => [.unlock (.stateMutex .suspender) .testTimeout]
  | .testTimeout => [.compute .relockState d, .compute .lockSuspend d]
  | .lockSuspend => [.lock .kmSocket .unlockSuspend]
  | .unlockSuspend => [.unlock .kmSocket .suspended]
  | .suspended => [.compute .relockState d, .compute .lockBlock d]
  | .lockBlock => [.lock (.listMutex .suspender) .unlockBlock]
  | .unlockBlock => [.unlock (.listMutex .suspender) .testRoutines]
  | .testRoutines =>
    if d.compactionActive || d.resumeActive then [.compute .relockState d]
    else [.compute (.unlockResumer .lockState) d]
  | .unlockResumer k => unlockThreadSuspended .resumer .unlockResumer .relockState d k
  | .relockState => [.lock (.stateMutex .suspender) (.loop .endSwitch)]

/-- The locks the suspender holds. -/
def Suspender.held : Suspender → List Lock
  | .loop k => k.held .suspender
  | .getProcess => [.stateMutex .suspender]
  | .nextProcess => [.listMutex .suspender, .stateMutex .suspender]
  | .lockSize => [.listMutex .suspender, .stateMutex .suspender]
  | .unlockSize => [.kmSocket, .listMutex .suspender, .stateMutex .suspender]
  | .testSize => [.listMutex .suspender, .stateMutex .suspender]
  | .noProcess => [.listMutex .suspender, .stateMutex .suspender]
  | .foundProcess => [.listMutex .suspender, .stateMutex .suspender]
  | .unlockState => [.stateMutex .suspender]
  | .unlockSuspend => [.kmSocket]
  | .unlockBlock => [.listMutex .suspender]
  | .unlockResumer k => k.held .resumer
  | _ => []

/-- Where the resumer is: in its loop; in `get_process_susp_ready`; in `resume_suspended_process`;
and in the `lock_thread_suspended` with which it blocks itself. -/
inductive Resumer
  | loop (k : Loop)
  | getProcess
  | unlockList
  | testProcess
  | unlockState
  | testState
  | transition (k : SuspReady)
  | lockThread (k : LockThread)
  | relockState
  deriving DecidableEq, Repr

/-- The resumer. -/
def Resumer.ops (d : RoutineState) : Resumer → List (Op Resumer)
  | .loop k => workerLoop .resumer .loop .getProcess d k
  | .getProcess => [.lock (.listMutex .resumer) .unlockList]
  | .unlockList => [.unlock (.listMutex .resumer) .testProcess]
  | .testProcess =>
    [.compute .unlockState d, .compute (.loop .endSwitch) (d.setState .resumer .waitingProcess)]
  | .unlockState => [.unlock (.stateMutex .resumer) .testState]
  | .testState => [.compute (.lockThread .lockState) d, .compute (.transition .lockSpace) d]
  | .transition k => transitionSuspReady .transition .relockState (.lockThread .lockState) d k
  | .lockThread k => lockThreadSuspended .resumer .lockThread .relockState d k
  | .relockState => [.lock (.stateMutex .resumer) (.loop .endSwitch)]

/-- The locks the resumer holds. -/
def Resumer.held : Resumer → List Lock
  | .loop k => k.held .resumer
  | .getProcess => [.stateMutex .resumer]
  | .unlockList => [.listMutex .resumer, .stateMutex .resumer]
  | .testProcess => [.stateMutex .resumer]
  | .unlockState => [.stateMutex .resumer]
  | .testState => []
  | .transition k => k.held
  | .lockThread k => k.held .resumer
  | .relockState => []

/-- Where a resumption thread is: not created; in `resumption_routine_thread`; in the loop of
`resumption_routine`, with `keep_running` in the test of its list; and in `remove_of_the_list`. -/
inductive Resumption
  | idle
  | routineEnter
  | lockThreads (w : Worker) (k : LockThread)
  | lockEmpty (keepRunning : Bool)
  | unlockEmpty (keepRunning : Bool)
  | testLoop (keepRunning : Bool)
  | lockFirst
  | unlockFirst
  | testState
  | transition (k : SuspReady)
  | endRoutine
  | unlockThreads (w : Worker) (k : UnlockThread)
  | routineLeave
  deriving DecidableEq, Repr

/-- A resumption thread. It is created in `idle`, by `create_resumption_routine_thread`. -/
def Resumption.ops (d : RoutineState) : Resumption → List (Op Resumption)
  | .idle =>
    if d.compactionActive || d.resumeActive then []
    else [.compute .routineEnter { d with resumeActive := true }]
  | .routineEnter => [.lock .routineActive (.lockThreads .suspender .lockState)]
  | .lockThreads .suspender k =>
    lockThreadSuspended .suspender (.lockThreads .suspender) (.lockThreads .resumer .lockState) d k
  | .lockThreads .resumer k =>
    lockThreadSuspended .resumer (.lockThreads .resumer) (.lockEmpty true) d k
  | .lockEmpty keepRunning => [.lock (.listMutex .resumer) (.unlockEmpty keepRunning)]
  | .unlockEmpty keepRunning => [.unlock (.listMutex .resumer) (.testLoop keepRunning)]
  | .testLoop keepRunning =>
    .compute .endRoutine d ::
      if keepRunning && !d.compactionActive then [.compute .lockFirst d] else []
  | .lockFirst => [.lock (.listMutex .resumer) .unlockFirst]
  | .unlockFirst => [.unlock (.listMutex .resumer) .testState]
  | .testState => [.compute (.lockEmpty true) d, .compute (.transition .lockSpace) d]
  | .transition k => transitionSuspReady .transition (.lockEmpty true) (.lockEmpty false) d k
  | .endRoutine => [.compute (.unlockThreads .suspender .lockState) { d with resumeActive := false }]
  | .unlockThreads .suspender k =>
    unlockThreadSuspended .suspender (.unlockThreads .suspender)
      (.unlockThreads .resumer .lockState) d k
  | .unlockThreads .resumer k =>
    unlockThreadSuspended .resumer (.unlockThreads .resumer) .routineLeave d k
  | .routineLeave => [.unlock .routineActive .idle]

/-- The locks a resumption thread holds. -/
def Resumption.held : Resumption → List Lock
  | .idle => []
  | .routineEnter => []
  | .lockThreads w k => k.held w ++ [.routineActive]
  | .unlockEmpty _ => [.listMutex .resumer, .routineActive]
  | .unlockFirst => [.listMutex .resumer, .routineActive]
  | .transition k => k.held ++ [.routineActive]
  | .unlockThreads w k => k.held w ++ [.routineActive]
  | _ => [.routineActive]

/-- The threads: CPU threads, the two workers, and resumption threads. -/
inductive Thread (ι κ : Type)
  | cpu (i : ι)
  | suspender
  | resumer
  | resumption (k : κ)
  deriving DecidableEq, Repr

variable {ι κ : Type}

/-- The phases of a thread. -/
@[reducible] def Phase : Thread ι κ → Type
  | .cpu _ => Cpu
  | .suspender => Suspender
  | .resumer => Resumer
  | .resumption _ => Resumption

/-- The program of a thread. -/
def ops : (t : Thread ι κ) → RoutineState → Phase t → List (Op (Phase t))
  | .cpu _, d, p => Cpu.ops d p
  | .suspender, d, p => Suspender.ops d p
  | .resumer, d, p => Resumer.ops d p
  | .resumption _, d, p => Resumption.ops d p

/-- The locks of a phase. -/
def held : (t : Thread ι κ) → Phase t → List Lock
  | .cpu _, p => Cpu.held p
  | .suspender, p => Suspender.held p
  | .resumer, p => Resumer.held p
  | .resumption _, p => Resumption.held p

/-- The threads, with who has which lock. -/
abbrev State (ι κ : Type) := LockState (@Phase ι κ) Lock RoutineState

/-- The workers at the heads of their loops, and nothing else running. -/
def init (ι κ : Type) : State ι κ where
  owner := fun _ => none
  phase
    | .cpu _ => Cpu.idle
    | .suspender => Suspender.loop .head
    | .resumer => Resumer.loop .head
    | .resumption _ => Resumption.idle
  data := { state := fun _ => .running, compactionActive := false, resumeActive := false }

/-! ## The condition -/

/-- The CPU thread compacts, and has not blocked the suspender yet. -/
def Cpu.Entering (p : Cpu) : Prop := p = .routineEnter ∨ p = .lockThreads .suspender .lockState

/-- The suspender is about to ask Kernel Memory for a size, with its mutexes in its hands. -/
def Suspender.Asking (p : Suspender) : Prop := p = .lockSize

/-- At these places `transition_susp_ready_no_mutex` is about to ask Kernel Memory. -/
def SuspReady.Asking (k : SuspReady) : Prop := k = .lockSpace ∨ k = .lockSize ∨ k = .lockResume

/-- The resumption thread is about to ask Kernel Memory, with the monitor in its hands. -/
def Resumption.Asking (p : Resumption) : Prop := ∃ k, k.Asking ∧ p = .transition k

section Condition

variable [DecidableEq ι] [DecidableEq κ]

/-- **The condition on a step**: a CPU enters `routine_compaction` when neither the suspender nor a
resumption thread is about to ask Kernel Memory with its locks in its hands, the suspender comes to
ask when no CPU compacts and has not blocked it yet, and a resumption thread when no CPU waits for
the monitor. -/
def AvoidsCycle (s : State ι κ) : Thread ι κ × ℕ → Prop
  | (.cpu i, choice) => ∀ op, (Cpu.ops s.data (s.phase (.cpu i)))[choice]? = some op →
      op.next = .routineEnter →
        ¬ Suspender.Asking (s.phase .suspender) ∧ ∀ k, ¬ Resumption.Asking (s.phase (.resumption k))
  | (.suspender, choice) => ∀ op, (Suspender.ops s.data (s.phase .suspender))[choice]? = some op →
      op.next.Asking → ∀ i, ¬ Cpu.Entering (s.phase (.cpu i))
  | (.resumption k, choice) =>
      ∀ op, (Resumption.ops s.data (s.phase (.resumption k)))[choice]? = some op →
        op.next.Asking → ∀ i, s.phase (.cpu i) ≠ Cpu.routineEnter
  | _ => True

end Condition

/-! ## The programs hold the locks they say -/

section Respects

variable {P : Type} (held : P → List Lock) (rest : List Lock) {w : Worker} {after : P}
  {d : RoutineState}

/-- `lock_thread_suspended` takes what is free and gives back what it has. -/
lemma lockThreadSuspended_respects {phase : LockThread → P}
    (hphase : ∀ k, held (phase k) = k.held w ++ rest) (hafter : held after = rest)
    (hstate : Lock.stateMutex w ∉ rest) (hlist : Lock.listMutex w ∉ rest) (k : LockThread) :
    ∀ op ∈ lockThreadSuspended w phase after d k, op.Respects held (phase k) := by
  intro op hop
  cases k with
  | switch =>
    simp only [lockThreadSuspended] at hop
    split at hop
    all_goals
      obtain rfl := List.mem_singleton.1 hop
      simp [LockOp.Respects, hphase, LockThread.held]
  | _ =>
    obtain rfl := List.mem_singleton.1 hop
    simp [LockOp.Respects, hphase, hafter, hstate, hlist, LockThread.held]

/-- So does `unlock_thread_suspended`. -/
lemma unlockThreadSuspended_respects {phase : UnlockThread → P}
    (hphase : ∀ k, held (phase k) = k.held w ++ rest) (hafter : held after = rest)
    (hstate : Lock.stateMutex w ∉ rest) (k : UnlockThread) :
    ∀ op ∈ unlockThreadSuspended w phase after d k, op.Respects held (phase k) := by
  intro op hop
  cases k with
  | _ =>
    obtain rfl := List.mem_singleton.1 hop
    simp [LockOp.Respects, hphase, hafter, hstate, UnlockThread.held]

/-- So does `transition_to_susp_ready`. -/
lemma transitionSuspReady_respects {phase : SuspReady → P} {ifTrue ifFalse : P}
    (hphase : ∀ k, held (phase k) = k.held ++ rest) (htrue : held ifTrue = rest)
    (hfalse : held ifFalse = rest) (hkm : Lock.kmSocket ∉ rest)
    (hlist : Lock.listMutex .resumer ∉ rest) (k : SuspReady) :
    ∀ op ∈ transitionSuspReady phase ifTrue ifFalse d k, op.Respects held (phase k) := by
  intro op hop
  cases k <;> simp only [transitionSuspReady, List.mem_cons, List.not_mem_nil, or_false] at hop
  case canResume =>
    rcases hop with rfl | rfl <;> simp [LockOp.Respects, hphase, hfalse, SuspReady.held]
  case resumed =>
    rcases hop with rfl | rfl <;> simp [LockOp.Respects, hphase, hfalse, SuspReady.held]
  all_goals
    subst hop
    simp [LockOp.Respects, hphase, htrue, hkm, hlist, SuspReady.held]

/-- So does the loop of a worker. -/
lemma workerLoop_respects {phase : Loop → P} {get : P}
    (hphase : ∀ k, held (phase k) = k.held w) (hget : held get = [.stateMutex w]) (k : Loop) :
    ∀ op ∈ workerLoop w phase get d k, op.Respects held (phase k) := by
  intro op hop
  cases k <;> simp only [workerLoop, List.mem_cons, List.not_mem_nil, or_false] at hop
  case switch =>
    split at hop
    all_goals
      obtain rfl := List.mem_singleton.1 hop
      simp [LockOp.Respects, hphase, hget, Loop.held]
  case waitUnlock =>
    split at hop
    all_goals
      obtain rfl := List.mem_singleton.1 hop
      simp [LockOp.Respects, hphase, Loop.held]
  case testList =>
    rcases hop with rfl | rfl <;> simp [LockOp.Respects, hphase, Loop.held]
  case testState =>
    rcases hop with rfl | rfl <;> simp [LockOp.Respects, hphase, Loop.held]
  all_goals
    subst hop
    simp [LockOp.Respects, hphase, Loop.held]

end Respects

/-- So does a CPU thread. -/
lemma Cpu.respects (d : RoutineState) (p : Cpu) : ∀ op ∈ p.ops d, op.Respects Cpu.held p := by
  cases p with
  | lockThreads w k =>
    cases w
    · exact lockThreadSuspended_respects Cpu.held [.routineActive, .kmSocket] (fun _ => rfl) rfl
        (by decide) (by decide) k
    · exact lockThreadSuspended_respects Cpu.held [.routineActive, .kmSocket] (fun _ => rfl) rfl
        (by decide) (by decide) k
  | request =>
    intro op hop
    simp only [Cpu.ops, List.mem_cons, List.not_mem_nil, or_false] at hop
    rcases hop with rfl | rfl
    · rfl
    · split <;> rfl
  | _ =>
    intro op hop
    obtain rfl := List.mem_singleton.1 hop
    simp [LockOp.Respects, Cpu.held, LockThread.held]

/-- So does the suspender. -/
lemma Suspender.respects (d : RoutineState) (p : Suspender) :
    ∀ op ∈ p.ops d, op.Respects Suspender.held p := by
  cases p with
  | loop k => exact workerLoop_respects Suspender.held (fun _ => rfl) rfl k
  | unlockResumer k =>
    have hphase : ∀ k, Suspender.held (.unlockResumer k) = k.held .resumer ++ [] :=
      fun k => (List.append_nil _).symm
    exact unlockThreadSuspended_respects Suspender.held [] hphase rfl (by simp) k
  | testRoutines =>
    intro op hop
    simp only [Suspender.ops] at hop
    split at hop
    all_goals
      obtain rfl := List.mem_singleton.1 hop
      rfl
  | _ =>
    intro op hop
    simp only [Suspender.ops, List.mem_cons, List.not_mem_nil, or_false] at hop
    first
      | subst hop
        simp [LockOp.Respects, Suspender.held, Loop.held]
      | rcases hop with rfl | rfl <;> rfl

/-- So does the resumer. -/
lemma Resumer.respects (d : RoutineState) (p : Resumer) :
    ∀ op ∈ p.ops d, op.Respects Resumer.held p := by
  cases p with
  | loop k => exact workerLoop_respects Resumer.held (fun _ => rfl) rfl k
  | transition k =>
    have hphase : ∀ k, Resumer.held (.transition k) = k.held ++ [] :=
      fun k => (List.append_nil _).symm
    exact transitionSuspReady_respects Resumer.held [] hphase rfl rfl (by simp) (by simp) k
  | lockThread k =>
    have hphase : ∀ k, Resumer.held (.lockThread k) = k.held .resumer ++ [] :=
      fun k => (List.append_nil _).symm
    exact lockThreadSuspended_respects Resumer.held [] hphase rfl (by simp) (by simp) k
  | _ =>
    intro op hop
    simp only [Resumer.ops, List.mem_cons, List.not_mem_nil, or_false] at hop
    first
      | subst hop
        simp [LockOp.Respects, Resumer.held, Loop.held]
      | rcases hop with rfl | rfl <;> rfl

/-- So does the resumption routine. -/
lemma Resumption.respects (d : RoutineState) (p : Resumption) :
    ∀ op ∈ p.ops d, op.Respects Resumption.held p := by
  cases p with
  | lockThreads w k =>
    cases w
    · exact lockThreadSuspended_respects Resumption.held [.routineActive] (fun _ => rfl) rfl
        (by decide) (by decide) k
    · exact lockThreadSuspended_respects Resumption.held [.routineActive] (fun _ => rfl) rfl
        (by decide) (by decide) k
  | transition k =>
    exact transitionSuspReady_respects Resumption.held [.routineActive] (fun _ => rfl) rfl rfl
      (by decide) (by decide) k
  | unlockThreads w k =>
    cases w
    · exact unlockThreadSuspended_respects Resumption.held [.routineActive] (fun _ => rfl) rfl
        (by decide) k
    · exact unlockThreadSuspended_respects Resumption.held [.routineActive] (fun _ => rfl) rfl
        (by decide) k
  | idle =>
    intro op hop
    simp only [Resumption.ops] at hop
    split at hop
    · exact absurd hop (by simp)
    · obtain rfl := List.mem_singleton.1 hop
      rfl
  | testLoop keepRunning =>
    intro op hop
    simp only [Resumption.ops] at hop
    rcases List.mem_cons.1 hop with rfl | hop
    · rfl
    · split at hop
      · obtain rfl := List.mem_singleton.1 hop
        rfl
      · exact absurd hop (by simp)
  | _ =>
    intro op hop
    simp only [Resumption.ops, List.mem_cons, List.not_mem_nil, or_false] at hop
    first
      | subst hop
        simp [LockOp.Respects, Resumption.held, LockThread.held, UnlockThread.held]
      | rcases hop with rfl | rfl <;> simp [LockOp.Respects, Resumption.held, SuspReady.held]

/-- The operations of all programs do what they say. -/
lemma ops_respects : ∀ (t : Thread ι κ) (d : RoutineState) (p : Phase t), ∀ op ∈ ops t d p,
    op.Respects (held t) p
  | .cpu _, d, p => Cpu.respects d p
  | .suspender, d, p => Suspender.respects d p
  | .resumer, d, p => Resumer.respects d p
  | .resumption _, d, p => Resumption.respects d p

/-! ## Who waits with locks in its hands -/

section Waiting

variable {P : Type} {w : Worker} {after : P} {d : RoutineState} {l : Lock}

/-- In `lock_thread_suspended` a thread waits for the two mutexes of the worker. -/
lemma waiting_lockThreadSuspended {phase : LockThread → P} {k : LockThread}
    (h : LockOp.wanted (lockThreadSuspended w phase after d k) = some l) :
    (k = .lockState ∧ l = .stateMutex w) ∨ (k = .lockList ∧ l = .listMutex w) := by
  cases k with
  | lockState => exact .inl ⟨rfl, (Option.some.inj h).symm⟩
  | lockList => exact .inr ⟨rfl, (Option.some.inj h).symm⟩
  | switch =>
    simp only [lockThreadSuspended] at h
    split at h <;> exact absurd h (by simp [LockOp.wanted])
  | _ => exact absurd h (by simp [lockThreadSuspended, LockOp.wanted])

/-- In `unlock_thread_suspended` it waits for the mutex of the state. -/
lemma waiting_unlockThreadSuspended {phase : UnlockThread → P} {k : UnlockThread}
    (h : LockOp.wanted (unlockThreadSuspended w phase after d k) = some l) :
    k = .lockState ∧ l = .stateMutex w := by
  cases k with
  | lockState => exact ⟨rfl, (Option.some.inj h).symm⟩
  | _ => exact absurd h (by simp [unlockThreadSuspended, LockOp.wanted])

/-- In `transition_to_susp_ready` it waits for the socket or for the list of the resumer. -/
lemma waiting_transitionSuspReady {phase : SuspReady → P} {ifTrue ifFalse : P} {k : SuspReady}
    (h : LockOp.wanted (transitionSuspReady phase ifTrue ifFalse d k) = some l) :
    (l = .kmSocket ∧ (k = .lockSpace ∨ k = .lockSize ∨ k = .lockResume)) ∨
      (l = .listMutex .resumer ∧ k = .lockList) := by
  cases k with
  | lockSpace => exact .inl ⟨(Option.some.inj h).symm, by simp⟩
  | lockSize => exact .inl ⟨(Option.some.inj h).symm, by simp⟩
  | lockResume => exact .inl ⟨(Option.some.inj h).symm, by simp⟩
  | lockList => exact .inr ⟨(Option.some.inj h).symm, rfl⟩
  | _ => exact absurd h (by simp [transitionSuspReady, LockOp.wanted])

/-- A worker in its loop waits with empty hands. -/
lemma waiting_workerLoop {phase : Loop → P} {get : P} {k : Loop}
    (h : LockOp.wanted (workerLoop w phase get d k) = some l) : k.held w = [] := by
  cases k with
  | switch =>
    simp only [workerLoop] at h
    split at h <;> exact absurd h (by simp [LockOp.wanted])
  | waitUnlock =>
    simp only [workerLoop] at h
    split at h <;> exact absurd h (by simp [LockOp.wanted])
  | _ => first | rfl | exact absurd h (by simp [workerLoop, LockOp.wanted])

end Waiting

variable {d : RoutineState} {l : Lock}

/-- What a CPU thread that has a lock waits for. -/
lemma Cpu.waiting {p : Cpu} (h : LockOp.wanted (p.ops d) = some l) (hheld : p.held ≠ []) :
    (p = .routineEnter ∧ l = .routineActive) ∨
      (∃ w, p = .lockThreads w .lockState ∧ l = .stateMutex w) ∨
      ∃ w, p = .lockThreads w .lockList ∧ l = .listMutex w := by
  cases p with
  | idle => exact absurd rfl hheld
  | routineEnter => exact .inl ⟨rfl, (Option.some.inj h).symm⟩
  | lockThreads w k =>
    have hk : (k = .lockState ∧ l = .stateMutex w) ∨ (k = .lockList ∧ l = .listMutex w) := by
      cases w
      · exact waiting_lockThreadSuspended h
      · exact waiting_lockThreadSuspended h
    rcases hk with ⟨rfl, hl⟩ | ⟨rfl, hl⟩
    · exact .inr (.inl ⟨w, rfl, hl⟩)
    · exact .inr (.inr ⟨w, rfl, hl⟩)
  | _ => exact absurd h (by simp [Cpu.ops, LockOp.wanted])

/-- What the suspender waits for while it has a lock. -/
lemma Suspender.waiting {p : Suspender} (h : LockOp.wanted (p.ops d) = some l)
    (hheld : p.held ≠ []) :
    (p = .getProcess ∧ l = .listMutex .suspender) ∨ (p = .lockSize ∧ l = .kmSocket) := by
  cases p with
  | loop k => exact absurd (waiting_workerLoop h) hheld
  | getProcess => exact .inl ⟨rfl, (Option.some.inj h).symm⟩
  | lockSize => exact .inr ⟨rfl, (Option.some.inj h).symm⟩
  | unlockResumer k =>
    obtain ⟨rfl, -⟩ := waiting_unlockThreadSuspended h
    exact absurd rfl hheld
  | testRoutines =>
    simp only [Suspender.ops] at h
    split at h <;> exact absurd h (by simp [LockOp.wanted])
  | _ => first | exact absurd rfl hheld | exact absurd h (by simp [Suspender.ops, LockOp.wanted])

/-- What the resumer waits for while it has a lock. -/
lemma Resumer.waiting {p : Resumer} (h : LockOp.wanted (p.ops d) = some l) (hheld : p.held ≠ []) :
    p.held = [.stateMutex .resumer] ∧ l = .listMutex .resumer := by
  cases p with
  | loop k => exact absurd (waiting_workerLoop h) hheld
  | getProcess => exact ⟨rfl, (Option.some.inj h).symm⟩
  | transition k =>
    rcases waiting_transitionSuspReady h with ⟨-, rfl | rfl | rfl⟩ | ⟨-, rfl⟩
    · exact absurd rfl hheld
    · exact absurd rfl hheld
    · exact absurd rfl hheld
    · exact absurd rfl hheld
  | lockThread k =>
    rcases waiting_lockThreadSuspended h with ⟨rfl, -⟩ | ⟨rfl, hl⟩
    · exact absurd rfl hheld
    · exact ⟨rfl, hl⟩
  | _ => first | exact absurd rfl hheld | exact absurd h (by simp [Resumer.ops, LockOp.wanted])

/-- What the resumption routine waits for while it has a lock. -/
lemma Resumption.waiting {p : Resumption} (h : LockOp.wanted (p.ops d) = some l)
    (hheld : p.held ≠ []) :
    Lock.routineActive ∈ p.held ∧ l ∉ p.held ∧ Lock.kmSocket ∉ p.held ∧
      Lock.listMutex .suspender ∉ p.held ∧ Lock.listMutex .resumer ∉ p.held ∧
      (l = .kmSocket → p.Asking) := by
  cases p with
  | idle => exact absurd rfl hheld
  | routineEnter => exact absurd rfl hheld
  | lockThreads w k =>
    have hk : (k = .lockState ∧ l = .stateMutex w) ∨ (k = .lockList ∧ l = .listMutex w) := by
      cases w
      · exact waiting_lockThreadSuspended h
      · exact waiting_lockThreadSuspended h
    rcases hk with ⟨rfl, rfl⟩ | ⟨rfl, rfl⟩ <;> simp [Resumption.held, LockThread.held]
  | unlockThreads w k =>
    have hk : k = .lockState ∧ l = .stateMutex w := by
      cases w
      · exact waiting_unlockThreadSuspended h
      · exact waiting_unlockThreadSuspended h
    obtain ⟨rfl, rfl⟩ := hk
    simp [Resumption.held, UnlockThread.held]
  | transition k =>
    rcases waiting_transitionSuspReady h with ⟨rfl, rfl | rfl | rfl⟩ | ⟨rfl, rfl⟩
    · simp [Resumption.held, SuspReady.held, Resumption.Asking, SuspReady.Asking]
    · simp [Resumption.held, SuspReady.held, Resumption.Asking, SuspReady.Asking]
    · simp [Resumption.held, SuspReady.held, Resumption.Asking, SuspReady.Asking]
    · simp [Resumption.held, SuspReady.held]
  | lockEmpty keepRunning =>
    obtain rfl := Option.some.inj h
    simp [Resumption.held]
  | lockFirst =>
    obtain rfl := Option.some.inj h
    simp [Resumption.held]
  | testLoop keepRunning =>
    simp only [Resumption.ops] at h
    split at h <;> exact absurd h (by simp [LockOp.wanted])
  | _ => exact absurd h (by simp [Resumption.ops, LockOp.wanted])

/-! ## The invariant -/

/-- **The invariant**: while a CPU compacts and has not blocked the suspender, the suspender does
not ask, and while it waits for the monitor, no resumption thread asks. -/
structure Apart (s : State ι κ) : Prop where
  owned : OwnedAsHeld held s
  suspender : ∀ i, Cpu.Entering (s.phase (.cpu i)) → ¬ Suspender.Asking (s.phase .suspender)
  resumption : ∀ i, s.phase (.cpu i) = Cpu.routineEnter →
    ∀ k, ¬ Resumption.Asking (s.phase (.resumption k))

section Rank

variable {s : State ι κ} {t u : Thread ι κ} {l m : Lock}

/-- The order of the threads that wait with locks in their hands. -/
def height (s : State ι κ) : Thread ι κ → ℕ
  | .cpu i => if s.phase (.cpu i) = Cpu.routineEnter then 1 else 4
  | .suspender => if s.phase .suspender = Suspender.lockSize then 3 else 5
  | .resumer => 5
  | .resumption _ => 2

/-- The ranks of the threads that wait are between those of the others. -/
lemma height_mem (s : State ι κ) (t : Thread ι κ) : 0 < height s t ∧ height s t < 6 := by
  cases t with
  | cpu i =>
    simp only [height]
    split <;> omega
  | suspender =>
    simp only [height]
    split <;> omega
  | _ => simp [height]

/-- A CPU thread that has the monitor. -/
lemma height_cpu_of_ne {i : ι} (h : s.phase (.cpu i) ≠ Cpu.routineEnter) :
    height s (.cpu i) = 4 := if_neg h

/-- The suspender, whatever it waits for. -/
lemma two_lt_height_suspender (s : State ι κ) : 2 < height s .suspender := by
  simp only [height]
  split <;> omega

/-- A CPU thread that waits for the thread `u`. -/
lemma height_cpu_lt (h : Apart s) {i : ι} (ht : wants ops s (.cpu i) = some l)
    (hheld : Cpu.held (s.phase (.cpu i)) ≠ []) (hl : l ∈ held u (s.phase u))
    (hu : wants ops s u = some m) : height s (.cpu i) < height s u := by
  have hne : held u (s.phase u) ≠ [] := List.ne_nil_of_mem hl
  have hwait := Cpu.waiting ht hheld
  cases u with
  | cpu j =>
    -- both would hold the connection
    exfalso
    have hkm : ∀ p : Cpu, p.held ≠ [] → Lock.kmSocket ∈ p.held := by
      intro p hp
      cases p <;> simp_all [Cpu.held]
    obtain rfl : i = j := by
      have hsame := h.owned.eq (l := .kmSocket) (t := .cpu i) (u := .cpu j) (hkm _ hheld) (hkm _ hne)
      exact Thread.cpu.inj hsame
    have hl' : l ∈ Cpu.held (s.phase (.cpu i)) := hl
    rcases hwait with ⟨hp, rfl⟩ | ⟨w, hp, rfl⟩ | ⟨w, hp, rfl⟩ <;>
      simp [hp, Cpu.held, LockThread.held] at hl'
  | suspender =>
    have hu' := Suspender.waiting hu hne
    have hl' : l ∈ Suspender.held (s.phase .suspender) := hl
    rcases hwait with ⟨hp, rfl⟩ | ⟨w, hp, rfl⟩ | ⟨w, hp, rfl⟩
    · exfalso
      rcases hu' with ⟨hq, -⟩ | ⟨hq, -⟩ <;> simp [hq, Suspender.held] at hl'
    · have hw : w = .suspender := by
        rcases hu' with ⟨hq, -⟩ | ⟨hq, -⟩ <;> simpa [hq, Suspender.held] using hl'
      subst hw
      rw [height_cpu_of_ne (by simp [hp])]
      rcases hu' with ⟨hq, -⟩ | ⟨hq, -⟩
      · simp [height, hq]
      · exact absurd hq (h.suspender i (.inr hp))
    · -- both would hold the mutex of the suspender's state
      exfalso
      have hw : w = .suspender := by
        rcases hu' with ⟨hq, -⟩ | ⟨hq, -⟩
        · simp [hq, Suspender.held] at hl'
        · simpa [hq, Suspender.held] using hl'
      subst hw
      have hstate : Lock.stateMutex .suspender ∈ Suspender.held (s.phase .suspender) := by
        rcases hu' with ⟨hq, -⟩ | ⟨hq, -⟩ <;> simp [hq, Suspender.held]
      have hstate' : Lock.stateMutex .suspender ∈ Cpu.held (s.phase (.cpu i)) := by
        simp [hp, Cpu.held, LockThread.held]
      exact absurd (h.owned.eq (t := .cpu i) (u := .suspender) hstate' hstate) (by simp)
  | resumer =>
    show (if s.phase (.cpu i) = Cpu.routineEnter then 1 else 4) < 5
    split <;> omega
  | resumption k =>
    obtain ⟨hroutine, -⟩ := Resumption.waiting hu hne
    rcases hwait with ⟨hp, -⟩ | hrest
    · show (if s.phase (.cpu i) = Cpu.routineEnter then 1 else 4) < 2
      rw [if_pos hp]
      omega
    · have hroutine' : Lock.routineActive ∈ Cpu.held (s.phase (.cpu i)) := by
        rcases hrest with ⟨w, hp, -⟩ | ⟨w, hp, -⟩ <;> simp [hp, Cpu.held]
      exact absurd (h.owned.eq (t := .cpu i) (u := .resumption k) hroutine' hroutine) (by simp)

/-- Nobody who waits holds the mutex of the list of the suspender, except the suspender. -/
lemma eq_suspender_of_held (hu : wants ops s u = some m)
    (hl : Lock.listMutex .suspender ∈ held u (s.phase u)) : u = .suspender := by
  have hne : held u (s.phase u) ≠ [] := List.ne_nil_of_mem hl
  cases u with
  | cpu i =>
    have hl' : Lock.listMutex .suspender ∈ Cpu.held (s.phase (.cpu i)) := hl
    rcases Cpu.waiting hu hne with ⟨hp, -⟩ | ⟨w, hp, -⟩ | ⟨w, hp, -⟩ <;>
      simp [hp, Cpu.held, LockThread.held] at hl'
  | suspender => rfl
  | resumer =>
    have hl' : Lock.listMutex .suspender ∈ Resumer.held (s.phase .resumer) := hl
    rw [(Resumer.waiting hu hne).1] at hl'
    simp at hl'
  | resumption k =>
    obtain ⟨-, -, -, hlist, -⟩ := Resumption.waiting hu hne
    exact absurd hl hlist

/-- The suspender, when it waits for the thread `u`: for its list it waits for nobody who waits. -/
lemma height_suspender_lt (h : Apart s) (ht : wants ops s .suspender = some l)
    (hheld : Suspender.held (s.phase .suspender) ≠ []) (hl : l ∈ held u (s.phase u))
    (hu : wants ops s u = some m) : height s .suspender < height s u := by
  have hne : held u (s.phase u) ≠ [] := List.ne_nil_of_mem hl
  rcases Suspender.waiting ht hheld with ⟨hq, rfl⟩ | ⟨hq, rfl⟩
  · obtain rfl := eq_suspender_of_held hu hl
    have hl' : Lock.listMutex .suspender ∈ Suspender.held (s.phase .suspender) := hl
    simp [hq, Suspender.held] at hl'
  · have hthree : height s .suspender = 3 := if_pos hq
    rw [hthree]
    cases u with
    | cpu i =>
      rw [height_cpu_of_ne fun hp => h.suspender i (.inl hp) hq]
      omega
    | suspender =>
      have hl' : Lock.kmSocket ∈ Suspender.held (s.phase .suspender) := hl
      simp [hq, Suspender.held] at hl'
    | resumer => simp [height]
    | resumption k =>
      obtain ⟨-, -, hkm, -⟩ := Resumption.waiting hu hne
      exact absurd hl hkm

/-- The resumer waits for nobody who waits. -/
lemma height_resumer_lt (ht : wants ops s .resumer = some l)
    (hheld : Resumer.held (s.phase .resumer) ≠ []) (hl : l ∈ held u (s.phase u))
    (hu : wants ops s u = some m) : height s .resumer < height s u := by
  have hne : held u (s.phase u) ≠ [] := List.ne_nil_of_mem hl
  obtain ⟨-, rfl⟩ := Resumer.waiting ht hheld
  exfalso
  cases u with
  | cpu i =>
    have hl' : Lock.listMutex .resumer ∈ Cpu.held (s.phase (.cpu i)) := hl
    rcases Cpu.waiting hu hne with ⟨hp, -⟩ | ⟨w, hp, -⟩ | ⟨w, hp, -⟩ <;>
      simp [hp, Cpu.held, LockThread.held] at hl'
  | suspender =>
    have hl' : Lock.listMutex .resumer ∈ Suspender.held (s.phase .suspender) := hl
    rcases Suspender.waiting hu hne with ⟨hq, -⟩ | ⟨hq, -⟩ <;> simp [hq, Suspender.held] at hl'
  | resumer =>
    have hl' : Lock.listMutex .resumer ∈ Resumer.held (s.phase .resumer) := hl
    rw [(Resumer.waiting hu hne).1] at hl'
    simp at hl'
  | resumption k =>
    obtain ⟨-, -, -, -, hlist, -⟩ := Resumption.waiting hu hne
    exact hlist hl

/-- A resumption thread, when it waits for the thread `u`. -/
lemma height_resumption_lt (h : Apart s) {k : κ} (ht : wants ops s (.resumption k) = some l)
    (hheld : Resumption.held (s.phase (.resumption k)) ≠ []) (hl : l ∈ held u (s.phase u))
    (hu : wants ops s u = some m) : height s (.resumption k) < height s u := by
  have hne : held u (s.phase u) ≠ [] := List.ne_nil_of_mem hl
  obtain ⟨hroutine, hnot, -, -, -, hasking⟩ := Resumption.waiting ht hheld
  cases u with
  | cpu i =>
    have hl' : l ∈ Cpu.held (s.phase (.cpu i)) := hl
    have hnot : s.phase (.cpu i) ≠ Cpu.routineEnter := by
      intro hp
      obtain rfl : l = .kmSocket := by simpa [hp, Cpu.held] using hl'
      exact h.resumption i hp k (hasking rfl)
    rw [height_cpu_of_ne hnot]
    simp [height]
  | suspender => exact two_lt_height_suspender s
  | resumer => simp [height]
  | resumption k' =>
    -- both would have the monitor
    obtain ⟨hroutine', -⟩ := Resumption.waiting hu hne
    have hsame := h.owned.eq (t := .resumption k) (u := .resumption k') hroutine hroutine'
    obtain rfl := Thread.resumption.inj hsame
    exact absurd hl hnot

/-- The rank of a thread: those that do not wait are the highest, and those that wait with empty
hands the lowest. -/
def rank (s : State ι κ) (t : Thread ι κ) : ℕ :=
  match wants ops s t with
  | none => 6
  | some _ => if held t (s.phase t) = [] then 0 else height s t

/-- **The order of the locks**: every wait goes to a thread of a higher rank. -/
lemma rank_lt_of_waitsOn (h : Apart s) (hwait : WaitsOn s.owner (wants ops s) t u) :
    rank s t < rank s u := by
  obtain ⟨l, ht, howner⟩ := hwait
  have hl : l ∈ held u (s.phase u) := (h.owned l u).1 howner
  have hrank : rank s t = if held t (s.phase t) = [] then 0 else height s t := by
    rw [rank, ht]
  cases hu : wants ops s u with
  | none =>
    have htop : rank s u = 6 := by rw [rank, hu]
    rw [hrank, htop]
    split
    · omega
    · exact (height_mem s t).2
  | some m =>
    have hrank' : rank s u = height s u := by
      rw [rank, hu]
      exact if_neg (List.ne_nil_of_mem hl)
    rw [hrank, hrank']
    split
    · exact (height_mem s u).1
    · rename_i hheld
      cases t with
      | cpu i => exact height_cpu_lt h ht hheld hl hu
      | suspender => exact height_suspender_lt h ht hheld hl hu
      | resumer => exact height_resumer_lt ht hheld hl hu
      | resumption k => exact height_resumption_lt h ht hheld hl hu

end Rank

/-! ## The steps -/

section Steps

variable {d : RoutineState}

/-- In `lock_thread_suspended` a thread does not come back to its start. -/
lemma lockThreadSuspended_next {P : Type} {w : Worker} {phase : LockThread → P} {after : P}
    {k : LockThread} {op : Op P} (h : op ∈ lockThreadSuspended w phase after d k) :
    (∃ k', k' ≠ .lockState ∧ op.next = phase k') ∨ op.next = after := by
  cases k with
  | switch =>
    simp only [lockThreadSuspended] at h
    split at h
    all_goals
      obtain rfl := List.mem_singleton.1 h
      exact .inl ⟨_, by simp, rfl⟩
  | unlockState =>
    obtain rfl := List.mem_singleton.1 h
    exact .inr rfl
  | _ =>
    obtain rfl := List.mem_singleton.1 h
    exact .inl ⟨_, by simp, rfl⟩

/-- A CPU thread starts to compact in `routine_enter`. -/
lemma Cpu.entering_next {p : Cpu} {op : Op Cpu} (h : op ∈ p.ops d) (hnext : op.next.Entering) :
    op.next = .routineEnter ∨ p = .routineEnter := by
  rcases hnext with hnext | hnext
  · exact .inl hnext
  · refine .inr ?_
    cases p with
    | routineEnter => rfl
    | lockThreads w k =>
      exfalso
      cases w
      · rcases lockThreadSuspended_next h with ⟨k', hk', heq⟩ | heq
        · simp_all
        · simp_all
      · rcases lockThreadSuspended_next h with ⟨k', -, heq⟩ | heq
        · simp_all
        · simp_all
    | request =>
      rcases List.mem_pair.1 h with rfl | rfl
      · simp [LockOp.next] at hnext
      · split at hnext <;> simp [LockOp.next] at hnext
    | _ =>
      obtain rfl := List.mem_singleton.1 h
      simp [LockOp.next] at hnext

end Steps

/-! ## The runs -/

section Runs

variable [DecidableEq ι] [DecidableEq κ] {s s' : State ι κ}

omit [DecidableEq κ] in
/-- A step of a CPU thread. -/
lemma Apart.cpu (h : Apart s) {i : ι} {op : Op Cpu} (howned : OwnedAsHeld held s')
    (hop : op ∈ Cpu.ops s.data (s.phase (.cpu i)))
    (hok : op.next = .routineEnter →
      ¬ Suspender.Asking (s.phase .suspender) ∧ ∀ k, ¬ Resumption.Asking (s.phase (.resumption k)))
    (hself : s'.phase (.cpu i) = op.next) (hother : ∀ t, t ≠ .cpu i → s'.phase t = s.phase t) :
    Apart s' := by
  have hcpu : ∀ j, j ≠ i → s'.phase (.cpu j) = s.phase (.cpu j) :=
    fun j hj => hother _ fun heq => hj (Thread.cpu.inj heq)
  refine ⟨howned, fun j hj => ?_, fun j hj k => ?_⟩
  · rw [hother .suspender (by simp)]
    by_cases hji : j = i
    · subst hji
      rw [hself] at hj
      rcases Cpu.entering_next hop hj with hnext | hwas
      · exact (hok hnext).1
      · exact h.suspender j (.inl hwas)
    · rw [hcpu j hji] at hj
      exact h.suspender j hj
  · rw [hother (.resumption k) (by simp)]
    by_cases hji : j = i
    · subst hji
      rw [hself] at hj
      exact (hok hj).2 k
    · rw [hcpu j hji] at hj
      exact h.resumption j hj k

omit [DecidableEq ι] [DecidableEq κ] in
/-- A step of a thread that is not a CPU thread. -/
lemma Apart.other (h : Apart s) (howned : OwnedAsHeld held s')
    (hcpu : ∀ i, s'.phase (.cpu i) = s.phase (.cpu i))
    (hsuspender : Suspender.Asking (s'.phase .suspender) →
      Suspender.Asking (s.phase .suspender) ∨ ∀ i, ¬ Cpu.Entering (s.phase (.cpu i)))
    (hresumption : ∀ k, Resumption.Asking (s'.phase (.resumption k)) →
      Resumption.Asking (s.phase (.resumption k)) ∨ ∀ i, s.phase (.cpu i) ≠ Cpu.routineEnter) :
    Apart s' := by
  refine ⟨howned, fun i hi hasking => ?_, fun i hi k hasking => ?_⟩
  · rw [hcpu] at hi
    rcases hsuspender hasking with hwas | hnone
    · exact h.suspender i hi hwas
    · exact hnone i hi
  · rw [hcpu] at hi
    rcases hresumption k hasking with hwas | hnone
    · exact h.resumption i hi k hwas
    · exact hnone i hi

/-- **Every step that meets the condition keeps the invariant.** -/
lemma apart_step (h : Apart s) {choice : Thread ι κ × ℕ} (hok : AvoidsCycle s choice)
    (hstep : lockStep ops s choice = some s') : Apart s' := by
  have howned : OwnedAsHeld held s' := ownedAsHeld_of_step ops_respects h.owned hstep
  obtain ⟨op, hget, happly⟩ := exists_op_of_lockStep hstep
  obtain ⟨hphase, -⟩ := phase_data_of_apply happly
  obtain ⟨t, n⟩ := choice
  have hself : s'.phase t = op.next := by rw [hphase, Function.update_self]
  have hother : ∀ u, u ≠ t → s'.phase u = s.phase u := by
    intro u hu
    rw [hphase, Function.update_of_ne hu]
  cases t with
  | cpu i => exact h.cpu howned (List.mem_of_getElem? hget) (hok op hget) hself hother
  | suspender =>
    refine h.other howned (fun i => hother _ (by simp)) (fun hnext => .inr ?_) fun k hk => .inl ?_
    · rw [hself] at hnext
      exact hok op hget hnext
    · rwa [hother _ (by simp)] at hk
  | resumer =>
    refine h.other howned (fun i => hother _ (by simp)) (fun hnext => .inl ?_) fun k hk => .inl ?_
    · rwa [hother _ (by simp)] at hnext
    · rwa [hother _ (by simp)] at hk
  | resumption k =>
    refine h.other howned (fun i => hother _ (by simp)) (fun hnext => .inl ?_) fun k' hk => ?_
    · rwa [hother _ (by simp)] at hnext
    · by_cases hkk : k' = k
      · subst hkk
        rw [hself] at hk
        exact .inr (hok op hget hk)
      · rw [hother _ (by simpa using hkk)] at hk
        exact .inl hk

/-- **Compaction, suspension and resumption do not deadlock in a run whose steps meet the
condition**, with any number of CPU threads and of resumption threads. -/
theorem not_deadlocked_of_run (h : Run (lockStep ops) AvoidsCycle (init ι κ) s) :
    ¬ Deadlocked s.owner (wants ops s) := by
  have hinit : Apart (init ι κ) := by
    refine ⟨?_, ?_, ?_⟩
    · intro l t
      cases t <;> simp [init, held, Cpu.held, Suspender.held, Loop.held, Resumer.held,
        Resumption.held]
    · simp [init, Cpu.Entering]
    · simp [init]
  have hapart : Apart s := h.invariant hinit fun _ _ _ ht hok hst => apart_step ht hok hst
  exact not_deadlocked_of_rank (rank s) fun _ _ => rank_lt_of_waitsOn hapart

end Runs

/-- A thread takes the first choice, again and again. -/
def stepsOf (t : Thread ι κ) (n : ℕ) : List (Thread ι κ × ℕ) := List.replicate n (t, 0)

/-- A CPU thread enters `routine_compaction` while the suspender goes through an empty list in
`get_process_blocked`: the CPU waits for the suspender, which waits for nobody. -/
theorem not_deadlocked_of_run_compaction :
    ∃ s : State (Fin 1) (Fin 1), Reachable (lockStep ops) (init (Fin 1) (Fin 1)) s ∧
      WaitsOn s.owner (wants ops s) (.cpu 0) .suspender ∧ ¬ Deadlocked s.owner (wants ops s) := by
  have hwaits : ((execute (lockStep ops) (init (Fin 1) (Fin 1))
      (stepsOf .suspender 3)).bind fun s =>
        (execute (lockStep ops) s [(.cpu 0, 0), (.cpu 0, 1), (.cpu 0, 0)]).map
          fun s' => ((s.phase .suspender, s.phase (.resumption 0)),
            wants ops s' (.cpu 0), s'.owner (.stateMutex .suspender))) =
      some ((Suspender.nextProcess, Resumption.idle),
        some (.stateMutex .suspender), some .suspender) := by
    decide
  obtain ⟨t, ht, hrest⟩ := Option.bind_eq_some_iff.1 hwaits
  obtain ⟨s, hs, heq⟩ := Option.map_eq_some_iff.1 hrest
  simp only [Prod.mk.injEq] at heq
  obtain ⟨⟨hsuspender, hresumption⟩, hcpu, howner⟩ := heq
  have hfirst : Run (lockStep ops) AvoidsCycle (init (Fin 1) (Fin 1)) t := by
    have hmember : ∀ a ∈ stepsOf .suspender 3, a.1 = (.suspender : Thread (Fin 1) (Fin 1)) := by
      decide
    refine Run.of_execute_of_invariant (I := fun u => ∀ i, u.phase (.cpu i) = Cpu.idle) ht
      (fun _ => rfl) (fun a ha u u' hu hstep i => ?_) fun a ha u hu => ?_
    · rw [phase_of_lockStep hstep (by simp [hmember a ha]), hu]
    · obtain ⟨w, n⟩ := a
      obtain rfl : w = .suspender := hmember _ ha
      intro op _ _ i
      simp [hu, Cpu.Entering]
  have hsecond : Run (lockStep ops) AvoidsCycle t s := by
    have hmember : ∀ a ∈ [(.cpu 0, 0), (.cpu 0, 1), (.cpu 0, 0)],
        a.1 = (.cpu 0 : Thread (Fin 1) (Fin 1)) := by decide
    refine Run.of_execute_of_invariant (I := fun u =>
        u.phase .suspender = Suspender.nextProcess ∧
          ∀ k, u.phase (.resumption k) = Resumption.idle) hs
      ⟨hsuspender, fun k => ?_⟩ (fun a ha u u' hu hstep => ⟨?_, fun k => ?_⟩) fun a ha u hu => ?_
    · obtain rfl : k = 0 := Subsingleton.elim _ _
      exact hresumption
    · rw [phase_of_lockStep hstep (by simp [hmember a ha]), hu.1]
    · rw [phase_of_lockStep hstep (by simp [hmember a ha]), hu.2]
    · obtain ⟨w, n⟩ := a
      obtain rfl : w = .cpu 0 := hmember _ ha
      intro op _ _
      exact ⟨by simp [hu.1, Suspender.Asking], fun k => by simp [hu.2, Resumption.Asking]⟩
  have hwhole := hfirst.trans hsecond
  exact ⟨s, hwhole.reachable, ⟨_, hcpu, howner⟩, not_deadlocked_of_run hwhole⟩

/-- **A CPU and the suspender wait for each other.** The suspender, with the mutex of its state,
goes through the blocked processes; a CPU thread with the connection is told that a compaction is
needed. The suspender waits for the connection, and the CPU thread for the mutex. -/
theorem deadlocked_of_compaction :
    ∃ s : State (Fin 1) (Fin 1), Reachable (lockStep ops) (init (Fin 1) (Fin 1)) s ∧
      Deadlocked s.owner (wants ops s) := by
  have hrun : (execute (lockStep ops) (init (Fin 1) (Fin 1))
      [(.suspender, 0), (.suspender, 0), (.suspender, 0), (.suspender, 0),
        (.cpu 0, 0), (.cpu 0, 1), (.cpu 0, 0)]).map (fun s =>
        (wants ops s .suspender, wants ops s (.cpu 0), s.owner .kmSocket,
          s.owner (.stateMutex .suspender))) =
      some (some .kmSocket, some (.stateMutex .suspender), some (.cpu 0), some .suspender) := by
    decide
  obtain ⟨s, hs, heq⟩ := Option.map_eq_some_iff.1 hrun
  simp only [Prod.mk.injEq] at heq
  obtain ⟨hsuspender, hcpu, hkm, hstate⟩ := heq
  have hcpuWaits : WaitsOn s.owner (wants ops s) (.cpu 0) .suspender := ⟨_, hcpu, hstate⟩
  have hsuspenderWaits : WaitsOn s.owner (wants ops s) .suspender (.cpu 0) := ⟨_, hsuspender, hkm⟩
  exact ⟨s, Run.of_execute hs, .cpu 0, .tail (.single hcpuWaits) hsuspenderWaits⟩

end OsSimulator.Scheduler.Locks
