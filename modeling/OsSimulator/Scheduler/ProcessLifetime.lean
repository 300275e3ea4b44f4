import OsSimulator.Library.ReferenceCount
import OsSimulator.Library.Runs
import OsSimulator.Scheduler.Pcb

set_option relaxedAutoImplicit false
set_option autoImplicit false

/-!
# The lifetime of a process

When a PCB is destroyed, and who has a pointer to it. The suspender and the resumer take a process
out of the sight of its list with a reference in `active_instances`, for which `transition_to_exit`
waits. The thread of `resumption_routine` takes one without.

The other threads are open: CPU threads run, block and end processes in any order, others wake them
up, compactions come and go, and `clear_queues` takes from any list. So is the order of the lists,
but for SUSP. READY, where a process can come to any place.

## Main definitions

* `Lifetimes`, `Lifetimes.step` — the lists, the references and the threads.
* `Lifetimes.Effect` — what a step does.
* `Lifetimes.Safe` — `remove_of_the_list` reads no null pointer and no destroyed PCB, and every
  thread with a process has a reference.
* `Lifetimes.Spares` — the routine does not read the list, and nobody else empties it under its
  hands.

## Main results

* `Lifetimes.referenced_of_reachable` — the suspender and the resumer keep to their references.
* `Lifetimes.safe_iff_of_execute` — every state is safe exactly when every step meets the condition.
* `Lifetimes.removesLive_of_run` — when the routine reads no null pointer and no destroyed PCB.
-/

namespace OsSimulator.Scheduler

/-- `thread_suspender` and `thread_resumer`. -/
inductive Worker
  | suspender
  | resumer
  deriving DecidableEq, Repr

instance : Fintype Worker where
  elems := {.suspender, .resumer}
  complete := fun worker => by cases worker <;> decide

/-- The state in which a worker looks for a process. -/
def Worker.source : Worker → ProcessState
  | .suspender => .block
  | .resumer => .suspReady

/-- The state into which it brings the process. -/
def Worker.target : Worker → ProcessState
  | .suspender => .suspBlock
  | .resumer => .ready

/-- Where a worker is: at its `switch`; with a process, in front of its `state_mutex`, behind it,
and in front of `decrement_active_instances`. -/
inductive WorkerPhase
  | idle
  | picked (p : ℕ)
  | attempting (p : ℕ)
  | releasing (p : ℕ)
  deriving DecidableEq, Repr

/-- The process of which a worker keeps the PCB. -/
def WorkerPhase.process : WorkerPhase → Option ℕ
  | .idle => none
  | .picked p | .attempting p | .releasing p => some p

/-- Where the thread of `resumption_routine` is: at the two tests of its loop, and in
`remove_of_the_list` in front of the list, with a process in front of its `state_mutex`, and behind
it. -/
inductive SweepPhase
  | testingList
  | testingCompaction
  | removing
  | picked (p : ℕ)
  | attempting (p : ℕ)
  deriving DecidableEq, Repr

/-- The process of which it keeps the PCB. -/
def SweepPhase.process : SweepPhase → Option ℕ
  | .picked p | .attempting p => some p
  | .testingList | .testingCompaction | .removing => none

/-- The PCBs with their states, `active_instances` and whether `destroy_pcb` has freed them; the
lists of the scheduler; the processes in `transition_to_exit`; the workers and the thread of
`resumption_routine`; and `compaction_active`. -/
structure Lifetimes where
  state : ℕ → Option ProcessState
  activeInstances : ℕ → ℕ
  destroyed : ℕ → Bool
  lists : ProcessState → List ℕ
  ending : List ℕ
  workers : Worker → WorkerPhase
  routine : Option SweepPhase
  compactionActive : Bool

namespace Lifetimes

/-- No process. -/
def start : Lifetimes where
  state := fun _ => none
  activeInstances := fun _ => 0
  destroyed := fun _ => false
  lists := fun _ => []
  ending := []
  workers := fun _ => .idle
  routine := none
  compactionActive := false

/-- What the threads do. A place is where a process comes to in the list. -/
inductive Action
  /-- `transition_new_ready` -/
  | create (p : ℕ)
  /-- a transition of a CPU thread or of a thread that wakes the process up -/
  | move (p : ℕ) (target : ProcessState) (place : ℕ)
  /-- `transition_exec_exit` up to `wait_zero_active_instances` -/
  | exit (p : ℕ)
  /-- a round of `clear_queues` up to `wait_zero_active_instances` -/
  | clear (list : ProcessState) (p : ℕ)
  /-- `transition_to_exit` behind `wait_zero_active_instances` -/
  | destroy (p : ℕ)
  | compaction (active : Bool)
  /-- `get_process_blocked` and `get_process_susp_ready` -/
  | pick (worker : Worker) (p : ℕ)
  /-- the test under the `state_mutex` in `run_suspend_process` and `resume_suspended_process` -/
  | lock (worker : Worker) (mustSuspend : Bool)
  /-- the transition, with what Kernel Memory answers -/
  | finish (worker : Worker) (ok : Bool) (place : ℕ)
  | release (worker : Worker)
  /-- `resumption_routine_thread` comes to its loop -/
  | startRoutine
  /-- the next step of `resumption_routine` -/
  | routine (ok : Bool) (place : ℕ)
  deriving DecidableEq, Repr

/-- The transitions of the CPU threads and of those that wake processes up. -/
def moves : List (ProcessState × ProcessState) :=
  [(.ready, .exec), (.exec, .ready), (.exec, .block), (.block, .ready), (.suspBlock, .suspReady)]

/-- A process comes into a list. -/
def insertAt (place p : ℕ) (list : List ℕ) : List ℕ := list.take place ++ p :: list.drop place

/-- A process gets a new state, and goes from the list of the old one to that of the new one. -/
def transition (p : ℕ) (source target : ProcessState) (place : ℕ) (s : Lifetimes) : Lifetimes :=
  { s with
    state := Function.update s.state p (some target)
    lists := fun q => if q = target then insertAt place p (s.lists q)
      else if q = source then (s.lists q).erase p else s.lists q }

/-- A process goes out of a list and into `transition_to_exit`. -/
def takeOut (p : ℕ) (list : ProcessState) (s : Lifetimes) : Lifetimes :=
  { s with
    lists := Function.update s.lists list ((s.lists list).erase p)
    ending := p :: s.ending }

/-- Nobody has the `state_mutex` of a process for a longer time. -/
def unlocked (p : ℕ) (s : Lifetimes) : Bool :=
  decide (∀ worker, s.workers worker ≠ .attempting p) && decide (s.routine ≠ some (.attempting p))

/-- A worker goes on. -/
def setWorker (worker : Worker) (phase : WorkerPhase) (s : Lifetimes) : Lifetimes :=
  { s with workers := Function.update s.workers worker phase }

/-- The suspender takes any process, and the resumer the one at index 0. -/
def offers (worker : Worker) (p : ℕ) (s : Lifetimes) : Prop :=
  match worker with
  | .suspender => p ∈ s.lists .block
  | .resumer => (s.lists .suspReady).head? = some p

instance (worker : Worker) (p : ℕ) (s : Lifetimes) : Decidable (s.offers worker p) := by
  cases worker <;> unfold offers <;> infer_instance

/-- The steps of a worker. -/
def pick (worker : Worker) (p : ℕ) (s : Lifetimes) : Option Lifetimes :=
  if s.workers worker = .idle ∧ s.offers worker p ∧ s.destroyed p = false then
    some { s.setWorker worker (.picked p) with
      activeInstances := Function.update s.activeInstances p (s.activeInstances p + 1) }
  else none

/-- The worker has the mutex of the process it picked, and begins with the process if it is still in
the list. -/
def lock (worker : Worker) (mustSuspend : Bool) (s : Lifetimes) : Option Lifetimes :=
  match s.workers worker with
  | .picked p =>
    if s.unlocked p = true ∧ s.destroyed p = false then
      some (s.setWorker worker
        (if s.state p = some worker.source ∧ (worker = .suspender → mustSuspend = true) then
          .attempting p else .releasing p))
    else none
  | _ => none

/-- The work on the process ends, and the process moves on if that has worked. -/
def finish (worker : Worker) (ok : Bool) (place : ℕ) (s : Lifetimes) : Option Lifetimes :=
  match s.workers worker with
  | .attempting p =>
    if s.destroyed p = true then none
    else
      let moved := if ok then s.transition p worker.source worker.target place else s
      some (moved.setWorker worker (.releasing p))
  | _ => none

/-- The worker gives its reference back. -/
def release (worker : Worker) (s : Lifetimes) : Option Lifetimes :=
  match s.workers worker with
  | .releasing p =>
    if s.destroyed p = true then none
    else some { s.setWorker worker .idle with
      activeInstances := Function.update s.activeInstances p (s.activeInstances p - 1) }
  | _ => none

/-- `resumption_routine` with `remove_of_the_list`. The first element of an empty list is a null
pointer. -/
def routineStep (ok : Bool) (place : ℕ) (s : Lifetimes) : Option Lifetimes :=
  match s.routine with
  | none => none
  | some .testingList =>
    some { s with routine := if s.lists .suspReady = [] then none else some .testingCompaction }
  | some .testingCompaction =>
    some { s with routine := if s.compactionActive then none else some .removing }
  | some .removing =>
    (s.lists .suspReady).head?.map fun p => { s with routine := some (.picked p) }
  | some (.picked p) =>
    if s.unlocked p = true ∧ s.destroyed p = false then
      some { s with routine := some (if s.state p = some .suspReady then .attempting p
        else .testingList) }
    else none
  | some (.attempting p) =>
    if s.destroyed p = true then none
    else if ok then
      some { s.transition p .suspReady .ready place with routine := some .testingList }
    else some { s with routine := none }

/-- One step. `none` is a step that is not there, or one that reads a null pointer or a destroyed
PCB. -/
def step (s : Lifetimes) : Action → Option Lifetimes
  | .create p =>
    if s.state p = none then
      some { s with
        state := Function.update s.state p (some .ready)
        lists := Function.update s.lists .ready (p :: s.lists .ready) }
    else none
  | .move p target place =>
    (s.state p).bind fun source =>
      if (source, target) ∈ moves ∧ (source = .ready → p ∈ s.lists .ready) ∧
          s.unlocked p = true ∧ s.destroyed p = false then
        some (s.transition p source target place)
      else none
  | .exit p =>
    if s.state p = some .exec ∧ s.unlocked p = true ∧ s.destroyed p = false then
      some { s.takeOut p .exec with state := Function.update s.state p (some .exit) }
    else none
  | .clear list p =>
    if p ∈ s.lists list ∧ s.destroyed p = false then some (s.takeOut p list) else none
  | .destroy p =>
    if p ∈ s.ending ∧ s.activeInstances p = 0 ∧ s.destroyed p = false then
      some { s with
        ending := s.ending.erase p
        destroyed := Function.update s.destroyed p true }
    else none
  | .compaction active => some { s with compactionActive := active }
  | .pick worker p => s.pick worker p
  | .lock worker mustSuspend => s.lock worker mustSuspend
  | .finish worker ok place => s.finish worker ok place
  | .release worker => s.release worker
  | .startRoutine => if s.routine = none then some { s with routine := some .testingList } else none
  | .routine ok place => s.routineStep ok place

/-! ## The properties -/

/-- The process that a worker keeps. -/
def keeps (s : Lifetimes) (worker : Worker) : Option ℕ := (s.workers worker).process

/-- The process that the thread of `resumption_routine` keeps. -/
def routineKeeps (s : Lifetimes) : Option ℕ := s.routine.bind SweepPhase.process

/-- `list_get` in `remove_of_the_list` does not return a null pointer. -/
def ReadsProcess (s : Lifetimes) : Prop := s.routine = some .removing → s.lists .suspReady ≠ []

/-- The PCB that `remove_of_the_list` has read has not been destroyed. -/
def ReadsLive (s : Lifetimes) : Prop := ∀ p, s.routineKeeps = some p → s.destroyed p = false

/-- Every thread with a process has a reference. -/
def Counted (s : Lifetimes) : Prop :=
  ∀ p, holders s.keeps p + (if s.routineKeeps = some p then 1 else 0) ≤ s.activeInstances p

/-- **The resumption routine touches no missing or dead process**, and whoever keeps a PCB is
counted in its `active_instances`. -/
structure Safe (s : Lifetimes) : Prop where
  readsProcess : s.ReadsProcess
  readsLive : s.ReadsLive
  counted : s.Counted

/-- Between its test and its read of the list the routine finds a process: nobody else has taken the
last one. -/
def LeavesOne (s : Lifetimes) : Action → Prop
  | .routine _ _ => s.routine = some .testingCompaction → s.compactionActive = false →
    s.lists .suspReady ≠ []
  | .finish .resumer true _ => s.routine = some .removing →
    ∀ p, s.workers .resumer = .attempting p → s.lists .suspReady ≠ [p]
  | .clear .suspReady p => s.routine = some .removing → s.lists .suspReady ≠ [p]
  | _ => True

/-- **The routine does not read the list**, and there is one to read. -/
def Spares (s : Lifetimes) (action : Action) : Prop :=
  s.LeavesOne action ∧ ∀ ok place, action = .routine ok place → s.routine ≠ some .removing

/-- The routine may read the list, but no process is destroyed that it has read, or that is still in
SUSP. READY. -/
def SparesRead (s : Lifetimes) (action : Action) : Prop :=
  s.LeavesOne action ∧
    ∀ p, action = .destroy p → s.routineKeeps ≠ some p ∧ p ∉ s.lists .suspReady

/-! ## What a step does -/

/-- What a step does where it is there. The routine goes on without a process, reads one, locks it,
or brings it to READY. -/
inductive Effect (s : Lifetimes) : Action → Lifetimes → Prop
  | create (p : ℕ) : Effect s (.create p) { s with
      state := Function.update s.state p (some .ready)
      lists := Function.update s.lists .ready (p :: s.lists .ready) }
  | move (p : ℕ) (source target : ProcessState) (place : ℕ) (edge : (source, target) ∈ moves)
      (live : s.destroyed p = false) : Effect s (.move p target place)
        (s.transition p source target place)
  | exit (p : ℕ) : Effect s (.exit p) { s.takeOut p .exec with
      state := Function.update s.state p (some .exit) }
  | clear (list : ProcessState) (p : ℕ) : Effect s (.clear list p) (s.takeOut p list)
  | destroy (p : ℕ) (unreferenced : s.activeInstances p = 0) : Effect s (.destroy p) { s with
      ending := s.ending.erase p
      destroyed := Function.update s.destroyed p true }
  | compaction (active : Bool) : Effect s (.compaction active) { s with
      compactionActive := active }
  | pick (worker : Worker) (p : ℕ) (idle : s.workers worker = .idle)
      (live : s.destroyed p = false) : Effect s (.pick worker p)
        { s.setWorker worker (.picked p) with
          activeInstances := Function.update s.activeInstances p (s.activeInstances p + 1) }
  | lock (worker : Worker) (p : ℕ) (mustSuspend : Bool) (phase : WorkerPhase)
      (picked : s.workers worker = .picked p) (process : phase.process = some p) :
      Effect s (.lock worker mustSuspend) (s.setWorker worker phase)
  | refuse (worker : Worker) (p place : ℕ) (attempting : s.workers worker = .attempting p) :
      Effect s (.finish worker false place) (s.setWorker worker (.releasing p))
  | finish (worker : Worker) (p place : ℕ) (attempting : s.workers worker = .attempting p) :
      Effect s (.finish worker true place)
        ((s.transition p worker.source worker.target place).setWorker worker (.releasing p))
  | release (worker : Worker) (p : ℕ) (releasing : s.workers worker = .releasing p) :
      Effect s (.release worker) { s.setWorker worker .idle with
        activeInstances := Function.update s.activeInstances p (s.activeInstances p - 1) }
  | startRoutine : Effect s .startRoutine { s with routine := some .testingList }
  | test (ok : Bool) (place : ℕ) (routine : Option SweepPhase)
      (without : routine.bind SweepPhase.process = none)
      (passed : routine = some .removing →
        s.routine = some .testingCompaction ∧ s.compactionActive = false) :
      Effect s (.routine ok place) { s with routine := routine }
  | read (ok : Bool) (place p : ℕ) (removing : s.routine = some .removing)
      (first : (s.lists .suspReady).head? = some p) :
      Effect s (.routine ok place) { s with routine := some (.picked p) }
  | lockRead (ok : Bool) (place p : ℕ) (picked : s.routine = some (.picked p)) :
      Effect s (.routine ok place) { s with routine := some (.attempting p) }
  | resume (place p : ℕ) (attempting : s.routine = some (.attempting p)) :
      Effect s (.routine true place)
        { s.transition p .suspReady .ready place with routine := some .testingList }

variable {s t : Lifetimes} {action : Action}

/-- What a step of the resumption routine changes. -/
lemma effect_of_routineStep {ok : Bool} {place : ℕ} (hstep : s.routineStep ok place = some t) :
    Effect s (.routine ok place) t := by
  rw [routineStep] at hstep
  split at hstep
  · exact absurd hstep (by simp)
  · obtain rfl := Option.some.inj hstep
    apply Effect.test
    · split <;> rfl
    · split <;> simp
  · rename_i hphase
    obtain rfl := Option.some.inj hstep
    apply Effect.test
    · split <;> rfl
    · split
      · simp
      · rename_i hactive
        exact fun _ => ⟨hphase, by simpa using hactive⟩
  · rename_i hphase
    obtain ⟨p, hfirst, rfl⟩ := Option.map_eq_some_iff.1 hstep
    exact .read ok place p hphase hfirst
  · rename_i p hphase
    split at hstep
    · obtain rfl := Option.some.inj hstep
      split
      · exact .lockRead ok place p hphase
      · exact .test ok place _ rfl (by simp)
    · exact absurd hstep (by simp)
  · rename_i p hphase
    split at hstep
    · exact absurd hstep (by simp)
    · split at hstep
      · rename_i hok
        obtain rfl := Option.some.inj hstep
        subst hok
        exact .resume place p hphase
      · obtain rfl := Option.some.inj hstep
        exact .test ok place none rfl (by simp)

/-- **Every step has one of the effects.** -/
lemma effect_of_step (hstep : s.step action = some t) : Effect s action t := by
  cases action with
  | create p =>
    rw [step] at hstep
    split at hstep
    · obtain rfl := Option.some.inj hstep
      exact .create p
    · exact absurd hstep (by simp)
  | move p target place =>
    obtain ⟨source, -, hmove⟩ := Option.bind_eq_some_iff.1 hstep
    split at hmove
    · rename_i hguard
      obtain rfl := Option.some.inj hmove
      exact .move p source target place hguard.1 hguard.2.2.2
    · exact absurd hmove (by simp)
  | exit p =>
    rw [step] at hstep
    split at hstep
    · obtain rfl := Option.some.inj hstep
      exact .exit p
    · exact absurd hstep (by simp)
  | clear list p =>
    rw [step] at hstep
    split at hstep
    · obtain rfl := Option.some.inj hstep
      exact .clear list p
    · exact absurd hstep (by simp)
  | destroy p =>
    rw [step] at hstep
    split at hstep
    · rename_i hguard
      obtain rfl := Option.some.inj hstep
      exact .destroy p hguard.2.1
    · exact absurd hstep (by simp)
  | compaction active =>
    obtain rfl := Option.some.inj hstep
    exact .compaction active
  | pick worker p =>
    rw [step, pick] at hstep
    split at hstep
    · rename_i hguard
      obtain rfl := Option.some.inj hstep
      exact .pick worker p hguard.1 hguard.2.2
    · exact absurd hstep (by simp)
  | lock worker mustSuspend =>
    rw [step, lock] at hstep
    split at hstep
    · rename_i p hphase
      split at hstep
      · obtain rfl := Option.some.inj hstep
        refine .lock worker p mustSuspend _ hphase ?_
        split <;> rfl
      · exact absurd hstep (by simp)
    · exact absurd hstep (by simp)
  | finish worker ok place =>
    rw [step, finish] at hstep
    split at hstep
    · rename_i p hphase
      split at hstep
      · exact absurd hstep (by simp)
      · obtain rfl := Option.some.inj hstep
        cases ok with
        | false => exact .refuse worker p place hphase
        | true => exact .finish worker p place hphase
    · exact absurd hstep (by simp)
  | release worker =>
    rw [step, release] at hstep
    split at hstep
    · rename_i p hphase
      split at hstep
      · exact absurd hstep (by simp)
      · obtain rfl := Option.some.inj hstep
        exact .release worker p hphase
    · exact absurd hstep (by simp)
  | startRoutine =>
    rw [step] at hstep
    split at hstep
    · obtain rfl := Option.some.inj hstep
      exact .startRoutine
    · exact absurd hstep (by simp)
  | routine ok place => exact effect_of_routineStep hstep

/-! ## The references of the workers -/

/-- A worker keeps the process of its phase. -/
lemma keeps_setWorker (worker : Worker) (phase : WorkerPhase) (s : Lifetimes) :
    (s.setWorker worker phase).keeps = Function.update s.keeps worker phase.process := by
  funext w
  by_cases hw : w = worker
  · simp [keeps, setWorker, hw]
  · simp [keeps, setWorker, hw]

/-- A worker that keeps its process. -/
lemma keeps_setWorker_of_eq {worker : Worker} {phase : WorkerPhase}
    (h : phase.process = s.keeps worker) : (s.setWorker worker phase).keeps = s.keeps := by
  rw [keeps_setWorker, h, Function.update_eq_self]

/-- The references are those of the workers. -/
def WorkersReferenced (s : Lifetimes) : Prop :=
  Referenced s.keeps s.activeInstances s.destroyed

/-- **Every step keeps the references of the workers right.** -/
lemma workersReferenced_step (h : s.WorkersReferenced) (hstep : s.step action = some t) :
    t.WorkersReferenced := by
  have hkept : ∀ (moved : Lifetimes) (worker : Worker) (phase : WorkerPhase),
      moved.workers = s.workers → phase.process = s.keeps worker →
        (moved.setWorker worker phase).keeps = s.keeps := by
    intro moved worker phase hworkers hprocess
    have hsame : moved.keeps = s.keeps := by
      unfold keeps
      rw [hworkers]
    rw [keeps_setWorker_of_eq, hsame]
    rw [hsame, hprocess]
  cases effect_of_step hstep with
  | destroy p unreferenced => exact Referenced.destroy h unreferenced
  | pick worker p idle live =>
    have hnone : s.keeps worker = none := by rw [keeps, idle, WorkerPhase.process]
    have htake := Referenced.take h hnone live
    rwa [← WorkerPhase.process.eq_2, ← keeps_setWorker] at htake
  | lock worker p mustSuspend phase picked process =>
    unfold WorkersReferenced
    rw [hkept s worker phase rfl (by rw [process, keeps, picked, WorkerPhase.process])]
    exact h
  | refuse worker p place attempting =>
    unfold WorkersReferenced
    rw [hkept s worker (.releasing p) rfl (by rw [keeps, attempting]; rfl)]
    exact h
  | finish worker p place attempting =>
    unfold WorkersReferenced
    rw [hkept (s.transition p _ _ place) worker (.releasing p) rfl (by rw [keeps, attempting]; rfl)]
    exact h
  | release worker p releasing =>
    have hkeeps : s.keeps worker = some p := by rw [keeps, releasing, WorkerPhase.process]
    have hletGo := Referenced.letGo h hkeeps
    rwa [← WorkerPhase.process.eq_1, ← keeps_setWorker] at hletGo
  | _ => exact h

/-- At the start no worker has a process. -/
lemma workersReferenced_start : start.WorkersReferenced := by
  have hnone : ∀ worker p, start.keeps worker ≠ some p := by
    simp [keeps, start, WorkerPhase.process]
  exact ⟨fun p => (holders_eq_zero_iff.2 fun worker => hnone worker p).symm,
    fun worker p hkeeps => absurd hkeeps (hnone worker p)⟩

/-- **The suspender and the resumer keep to their references**: in every reachable state a PCB has
as many as workers keep it, and none that a worker keeps has been destroyed. -/
theorem referenced_of_reachable (h : Reachable step start s) : s.WorkersReferenced :=
  h.invariant workersReferenced_start fun _ _ _ hs _ hstep => workersReferenced_step hs hstep

/-! ## SUSP. READY and the routine -/

/-- A transition leaves the other lists alone. -/
lemma transition_lists_of_ne {source target q : ProcessState} (htarget : q ≠ target)
    (hsource : q ≠ source) (p place : ℕ) (s : Lifetimes) :
    (s.transition p source target place).lists q = s.lists q := by
  simp [transition, htarget, hsource]

/-- A transition puts the process into the list of the target. -/
lemma transition_lists_target (p : ℕ) (source target : ProcessState) (place : ℕ) (s : Lifetimes) :
    (s.transition p source target place).lists target = insertAt place p (s.lists target) := by
  simp [transition]

/-- The process is taken out of its list. -/
lemma takeOut_lists_self (p : ℕ) (list : ProcessState) (s : Lifetimes) :
    (s.takeOut p list).lists list = (s.lists list).erase p := by
  simp [takeOut]

/-- The other lists stay. -/
lemma takeOut_lists_of_ne {list q : ProcessState} (h : q ≠ list) (p : ℕ) (s : Lifetimes) :
    (s.takeOut p list).lists q = s.lists q := by
  simp [takeOut, h]

/-- A list into which something was put is not empty. -/
lemma insertAt_ne_nil (place p : ℕ) (list : List ℕ) : insertAt place p list ≠ [] := by
  simp [insertAt]

/-- What is in the list after that: the new one and the old ones. -/
lemma mem_insertAt {place p q : ℕ} {list : List ℕ} (h : q ∈ insertAt place p list) :
    q = p ∨ q ∈ list := by
  rw [insertAt, List.mem_append, List.mem_cons] at h
  rcases h with htake | rfl | hdrop
  · exact .inr (List.mem_of_mem_take htake)
  · exact .inl rfl
  · exact .inr (List.mem_of_mem_drop hdrop)

/-- The last process goes. -/
lemma eq_singleton_of_erase {p : ℕ} {list : List ℕ} (h : list.erase p = []) (hne : list ≠ []) :
    list = [p] := by
  rcases List.erase_eq_nil_iff.1 h with hnil | hone
  · exact absurd hnil hne
  · exact hone

/-- What a step does to SUSP. READY: a live process comes, or one is taken out by the resumer, by
`clear_queues` or by the routine. -/
lemma suspReady_step (hstep : s.step action = some t) :
    t.lists .suspReady = s.lists .suspReady ∨
    (∃ p place, t.lists .suspReady = insertAt place p (s.lists .suspReady) ∧
      s.destroyed p = false ∧ t.destroyed = s.destroyed) ∨
    ∃ p, t.lists .suspReady = (s.lists .suspReady).erase p ∧
      ((∃ place, action = .finish .resumer true place ∧ s.workers .resumer = .attempting p) ∨
        action = .clear .suspReady p ∨
        ∃ ok place, action = .routine ok place ∧ s.routineKeeps = some p) := by
  cases effect_of_step hstep with
  | create p =>
    left
    simp
  | move p source target place edge live =>
    have hsource : ProcessState.suspReady ≠ source := by
      rintro rfl
      exact absurd edge (by simp [moves])
    by_cases htarget : ProcessState.suspReady = target
    · subst htarget
      exact .inr (.inl ⟨p, place, transition_lists_target _ _ _ _ _, live, rfl⟩)
    · exact .inl (transition_lists_of_ne htarget hsource p place s)
  | exit p =>
    have hne : ProcessState.suspReady ≠ .exec := by decide
    exact .inl (takeOut_lists_of_ne hne p s)
  | clear list p =>
    by_cases hlist : ProcessState.suspReady = list
    · subst hlist
      exact .inr (.inr ⟨p, takeOut_lists_self _ _ _, .inr (.inl rfl)⟩)
    · exact .inl (takeOut_lists_of_ne hlist _ _)
  | finish worker p place attempting =>
    cases worker with
    | suspender =>
      left
      have hne : ProcessState.suspReady ≠ .suspBlock ∧ ProcessState.suspReady ≠ .block := by
        decide
      exact transition_lists_of_ne hne.1 hne.2 p place s
    | resumer => exact .inr (.inr ⟨p, rfl, .inl ⟨place, rfl, attempting⟩⟩)
  | resume place p attempting =>
    have hkeeps : s.routineKeeps = some p := by
      rw [routineKeeps, attempting]
      rfl
    exact .inr (.inr ⟨p, rfl, .inr (.inr ⟨true, place, rfl, hkeeps⟩)⟩)
  | _ => exact .inl rfl

/-- The routine is moved by its own steps only, and a PCB is destroyed by `destroy_pcb` only. -/
lemma frame_step (hstep : s.step action = some t) :
    (t.routine = s.routine ∨ (action = .startRoutine ∧ t.routine = some .testingList) ∨
      ∃ ok place, action = .routine ok place) ∧
    (t.destroyed = s.destroyed ∨
      ∃ p, action = .destroy p ∧ t.destroyed = Function.update s.destroyed p true) := by
  cases effect_of_step hstep with
  | startRoutine => exact ⟨.inr (.inl ⟨rfl, rfl⟩), .inl rfl⟩
  | destroy p => exact ⟨.inl rfl, .inr ⟨p, rfl, rfl⟩⟩
  | test ok place | read ok place | lockRead ok place =>
    exact ⟨.inr (.inr ⟨ok, place, rfl⟩), .inl rfl⟩
  | resume place => exact ⟨.inr (.inr ⟨true, place, rfl⟩), .inl rfl⟩
  | _ => exact ⟨.inl rfl, .inl rfl⟩

/-- Nothing empties SUSP. READY while the routine is in front of it. -/
lemma LeavesOne.ne_nil (hleaves : s.LeavesOne action) (hstep : s.step action = some t)
    (hremoving : s.routine = some .removing) (hne : s.lists .suspReady ≠ []) :
    t.lists .suspReady ≠ [] := by
  intro hnil
  rcases suspReady_step hstep with hsame | ⟨p, place, hinsert, -, -⟩ | ⟨p, herase, htaken⟩
  · exact hne (hsame.symm.trans hnil)
  · exact insertAt_ne_nil _ _ _ (hinsert.symm.trans hnil)
  · have hone := eq_singleton_of_erase (herase.symm.trans hnil) hne
    rcases htaken with ⟨place, rfl, hphase⟩ | rfl | ⟨ok, place, rfl, hkeeps⟩
    · exact hleaves hremoving p hphase hone
    · exact hleaves hremoving hone
    · rw [routineKeeps, hremoving] at hkeeps
      exact absurd hkeeps (by simp [SweepPhase.process])

/-- So the routine finds a process. -/
lemma readsProcess_step (h : s.ReadsProcess) (hleaves : s.LeavesOne action)
    (hstep : s.step action = some t) : t.ReadsProcess := by
  intro hremoving
  rcases (frame_step hstep).1 with hsame | ⟨-, htesting⟩ | ⟨ok, place, rfl⟩
  · rw [hsame] at hremoving
    exact hleaves.ne_nil hstep hremoving (h hremoving)
  · exact absurd (htesting.symm.trans hremoving) (by simp)
  · cases effect_of_step hstep with
    | test _ _ routine without passed =>
      obtain ⟨htested, hactive⟩ := passed hremoving
      exact hleaves htested hactive
    | _ => exact absurd hremoving (by simp)

/-- The process of the routine is the one that it had, or the one that it reads. -/
lemma routineKeeps_step {p : ℕ} (hstep : s.step action = some t) (hkeeps : t.routineKeeps = some p) :
    s.routineKeeps = some p ∨ ∃ ok place, action = .routine ok place ∧ s.routine = some .removing ∧
      (s.lists .suspReady).head? = some p := by
  rcases (frame_step hstep).1 with hsame | ⟨-, htesting⟩ | ⟨ok, place, rfl⟩
  · rw [routineKeeps, hsame] at hkeeps
    exact .inl hkeeps
  · rw [routineKeeps, htesting] at hkeeps
    exact absurd hkeeps (by simp [SweepPhase.process])
  · cases effect_of_step hstep with
    | test _ _ routine without => exact absurd (without.symm.trans hkeeps) (by simp)
    | read _ _ q removing first =>
      obtain rfl : q = p := Option.some.inj hkeeps
      exact .inr ⟨ok, place, rfl, removing, first⟩
    | lockRead _ _ q picked =>
      left
      rw [routineKeeps, picked]
      exact hkeeps
    | resume => exact absurd hkeeps (by simp [routineKeeps, SweepPhase.process])

/-! ## Safe runs -/

/-- The routine is not counted, so it keeps nothing where everybody is. -/
lemma routineKeeps_of_counted (h : s.WorkersReferenced) (hcounted : s.Counted) :
    s.routineKeeps = none := by
  rw [Option.eq_none_iff_forall_ne_some]
  intro p hkeeps
  have hle := hcounted p
  rw [if_pos hkeeps, h.count_eq p] at hle
  omega

/-- Where the routine has no process every reference is counted. -/
lemma counted_of_routineKeeps (h : s.WorkersReferenced) (hnone : s.routineKeeps = none) :
    s.Counted := by
  intro p
  rw [hnone, if_neg (by simp), h.count_eq p, Nat.add_zero]

/-- A step that meets the condition. -/
lemma safe_step (href : s.WorkersReferenced) (h : s.Safe) (hspares : s.Spares action)
    (hstep : s.step action = some t) : t.Safe := by
  have hnone : t.routineKeeps = none := by
    rw [Option.eq_none_iff_forall_ne_some]
    intro p hkeeps
    rcases routineKeeps_step hstep hkeeps with hkept | ⟨ok, place, rfl, hremoving, -⟩
    · rw [routineKeeps_of_counted href h.counted] at hkept
      exact absurd hkept (by simp)
    · exact hspares.2 ok place rfl hremoving
  exact ⟨readsProcess_step h.readsProcess hspares.1 hstep,
    fun p hkeeps => absurd (hnone.symm.trans hkeeps) (by simp),
    counted_of_routineKeeps (workersReferenced_step href hstep) hnone⟩

/-- A step that does not: the routine has a process without a reference, or it is in front of an
empty list. -/
lemma not_safe_step (href : s.WorkersReferenced) (hnot : ¬ s.Spares action)
    (hstep : s.step action = some t) : ¬ t.Safe := by
  intro hsafe
  refine hnot ⟨?_, ?_⟩
  · cases action with
    | routine ok place =>
      intro htesting hactive
      rw [step, routineStep, htesting] at hstep
      obtain rfl := Option.some.inj hstep
      exact hsafe.readsProcess (by simp [hactive])
    | finish worker ok place =>
      cases worker with
      | suspender => cases ok <;> trivial
      | resumer =>
        cases ok with
        | false => trivial
        | true =>
          intro hremoving p hphase hone
          cases effect_of_step hstep with
          | finish _ q _ attempting =>
            obtain rfl : p = q := by simpa [hphase] using attempting
            apply hsafe.readsProcess hremoving
            change (s.lists .suspReady).erase p = []
            rw [hone]
            exact List.erase_cons_head p []
    | clear list p =>
      cases list with
      | suspReady =>
        intro hremoving hone
        cases effect_of_step hstep with
        | clear =>
          apply hsafe.readsProcess hremoving
          rw [takeOut_lists_self, hone]
          exact List.erase_cons_head p []
      | _ => trivial
    | _ => trivial
  · rintro ok place rfl hremoving
    have hnone := routineKeeps_of_counted (workersReferenced_step href hstep) hsafe.counted
    rw [step, routineStep, hremoving] at hstep
    obtain ⟨p, -, rfl⟩ := Option.map_eq_some_iff.1 hstep
    exact absurd hnone (by simp [routineKeeps, SweepPhase.process])

/-- The start is safe. -/
lemma safe_start : start.Safe := by
  refine ⟨fun hremoving => absurd hremoving (by simp [start]), fun p hkeeps => absurd hkeeps (by
    simp [routineKeeps, start]), counted_of_routineKeeps workersReferenced_start rfl⟩

/-- **Every state of a run is safe exactly when the routine does not read the list in it**, and
nobody else takes the last process of the list between its test and its read. -/
theorem safe_iff_of_execute {actions : List Action} {u : Lifetimes}
    (h : execute step start actions = some u) :
    (∀ k ≤ actions.length, ∀ t, execute step start (actions.take k) = some t → t.Safe) ↔
      Admitted step Spares start actions :=
  forall_execute_take_iff_admitted_of_execute
    (fun _ _ _ => workersReferenced_step) (fun _ _ _ => safe_step)
    (fun _ _ _ href _ hnot hstep => not_safe_step href hnot hstep) h workersReferenced_start
    safe_start

/-- Where the routine has not found a process, the condition is met. -/
lemma spares_of_not_found {s : Lifetimes} {action : Action}
    (h : s.routine ≠ some .testingCompaction ∧ s.routine ≠ some .removing) : s.Spares action := by
  refine ⟨?_, fun _ _ _ => h.2⟩
  unfold LeavesOne
  split
  · exact fun htesting => absurd htesting h.1
  · exact fun hremoving => absurd hremoving h.2
  · exact fun hremoving => absurd hremoving h.2
  · trivial

/-- A process is suspended and woken up. -/
def suspended (p : ℕ) : List Action :=
  [.create p, .move p .exec 0, .move p .block 0, .pick .suspender p, .lock .suspender true,
    .finish .suspender true 0, .release .suspender, .move p .suspReady 0]

/-- The resumer goes on with the process that it has taken. -/
def resumed : List Action := [.lock .resumer true, .finish .resumer true 0, .release .resumer]

/-- The routine comes from its start to `remove_of_the_list`. -/
def toRemove : List Action := [.startRoutine, .routine true 0, .routine true 0]

/-- The resumer takes the only process, and the routine finds the list empty. -/
def foundEmpty : List Action :=
  suspended 0 ++ [.pick .resumer 0] ++ resumed ++ [.startRoutine, .routine true 0]

/-- Every state of that run is safe. -/
theorem safe_iff_of_execute_foundEmpty : ∃ u, execute step start foundEmpty = some u ∧
    ∀ k ≤ foundEmpty.length, ∀ t, execute step start (foundEmpty.take k) = some t → t.Safe := by
  have hrun : (execute step start foundEmpty).map (fun s => s.routine) = some none := by decide
  obtain ⟨u, hu, -⟩ := Option.map_eq_some_iff.1 hrun
  have hadmitted : Admitted step (fun s _ => s.routine ≠ some .testingCompaction ∧
      s.routine ≠ some .removing) start foundEmpty := by decide
  exact ⟨u, hu, (safe_iff_of_execute hu).2 (hadmitted.mono fun _ _ _ => spares_of_not_found)⟩

/-- **The resumer has taken the only process when the routine begins.** If it goes on between the
test and the read of the list, the routine reads a null pointer; if it goes on behind the read, the
process can run and end, and the routine locks a destroyed PCB. -/
theorem unsafe_of_resumer :
    (¬ ∀ s, Reachable step start s → s.ReadsProcess) ∧
      (¬ ∀ s, Reachable step start s → s.ReadsLive) ∧
      ¬ ∀ s, Reachable step start s → s.Counted := by
  refine ⟨fun hall => ?_, fun hall => ?_, fun hall => ?_⟩
  · have hrun : (execute step start (suspended 0 ++ [.pick .resumer 0] ++ toRemove ++ resumed)).map
        (fun s => (s.routine, s.lists .suspReady)) = some (some .removing, []) := by decide
    obtain ⟨s, hs, heq⟩ := Option.map_eq_some_iff.1 hrun
    obtain ⟨hremoving, hnil⟩ := Prod.mk.inj heq
    exact hall s (.of_execute hs) hremoving hnil
  · have hrun : (execute step start (suspended 0 ++ [.pick .resumer 0] ++ toRemove ++
        [.routine true 0] ++ resumed ++ [.move 0 .exec 0, .exit 0, .destroy 0])).map
          (fun s => (s.routineKeeps, s.destroyed 0)) = some (some 0, true) := by decide
    obtain ⟨s, hs, heq⟩ := Option.map_eq_some_iff.1 hrun
    obtain ⟨hkeeps, hdestroyed⟩ := Prod.mk.inj heq
    exact absurd (hall s (.of_execute hs) 0 hkeeps) (by simp [hdestroyed])
  · have hrun : (execute step start (suspended 0 ++ toRemove ++ [.routine true 0])).map
        (fun s => (s.routineKeeps, s.activeInstances 0)) = some (some 0, 0) := by decide
    obtain ⟨s, hs, heq⟩ := Option.map_eq_some_iff.1 hrun
    obtain ⟨hkeeps, hzero⟩ := Prod.mk.inj heq
    have hle := hall s (.of_execute hs) 0
    rw [if_pos hkeeps, hzero] at hle
    omega

/-! ## The routine alone -/

/-- What the routine reads is there, and so is what it will read. -/
structure ReadsSafely (s : Lifetimes) : Prop where
  readsProcess : s.ReadsProcess
  readsLive : s.ReadsLive
  listed : ∀ p ∈ s.lists .suspReady, s.destroyed p = false

/-- A step whose reads are spared keeps the reads safe. -/
lemma readsSafely_step (h : s.ReadsSafely) (hspares : s.SparesRead action)
    (hstep : s.step action = some t) : t.ReadsSafely := by
  have hkept : ∀ p, s.routineKeeps = some p ∨ p ∈ s.lists .suspReady → t.destroyed p = false := by
    intro p hp
    have hbefore : s.destroyed p = false := hp.elim (h.readsLive p) (h.listed p)
    rcases (frame_step hstep).2 with hsame | ⟨q, rfl, hupdate⟩
    · rw [hsame, hbefore]
    · obtain ⟨hroutine, hlist⟩ := hspares.2 q rfl
      have hne : p ≠ q := by
        rintro rfl
        exact hp.elim hroutine hlist
      rw [hupdate, Function.update_of_ne hne, hbefore]
  refine ⟨readsProcess_step h.readsProcess hspares.1 hstep, fun p hkeeps => ?_, fun p hp => ?_⟩
  · rcases routineKeeps_step hstep hkeeps with hold | ⟨-, -, -, -, hhead⟩
    · exact hkept p (.inl hold)
    · exact hkept p (.inr (List.mem_of_head? hhead))
  · rcases suspReady_step hstep with hsame | ⟨q, place, hinsert, hq, hsame⟩ | ⟨q, herase, -⟩
    · rw [hsame] at hp
      exact hkept p (.inr hp)
    · rw [hinsert] at hp
      rcases mem_insertAt hp with rfl | hold
      · rw [hsame, hq]
      · exact hkept p (.inr hold)
    · rw [herase] at hp
      exact hkept p (.inr (List.mem_of_mem_erase hp))

/-- **Where the list is not emptied under the hands of the routine, and no process is destroyed that
it has read or that is in SUSP. READY, it reads no null pointer and no destroyed PCB.** -/
theorem removesLive_of_run (h : Run step SparesRead start s) : s.ReadsProcess ∧ s.ReadsLive := by
  have hstart : start.ReadsSafely :=
    ⟨safe_start.readsProcess, safe_start.readsLive, fun p hp => absurd hp List.not_mem_nil⟩
  have hsafely : s.ReadsSafely :=
    h.invariant hstart fun _ _ _ ht hspares hstep => readsSafely_step ht hspares hstep
  exact ⟨hsafely.readsProcess, hsafely.readsLive⟩

end Lifetimes

end OsSimulator.Scheduler
