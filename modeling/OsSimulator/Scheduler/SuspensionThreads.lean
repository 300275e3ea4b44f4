import Mathlib.Logic.Function.Basic
import OsSimulator.Library.Runs
import OsSimulator.Scheduler.CompactionLocks

set_option relaxedAutoImplicit false
set_option autoImplicit false

/-!
# The suspender and the resumer

The two worker threads of `scheduler/suspension.c`, with the state that the others park and wake
them by, the lists they work on, and `terminate_threads_suspended`, which asks both to stop and
waits for them. A worker that finds no process to work on waits for one at a condition of its list.
It lets go of `state_mutex` before it takes `list_mutex`, and in between it does not wait yet: what
is signalled then is lost.

What Kernel Memory answers, which process is in memory and how long it has been blocked is left
open.

## Main definitions

* `SuspensionThreads.WorkerPhase`, `SuspensionThreads.MainPhase` — where the threads are.
* `SuspensionThreads.step` — the steps of the workers, of the thread that ends them, and of others.
* `SuspensionThreads.Sound` — the invariant.

## Main results

* `SuspensionThreads.sound_of_run` — the invariant holds in every run.
-/

namespace OsSimulator.Scheduler

open Locks (Worker)

namespace SuspensionThreads

/-- `t_thread_state`, up to the end of the thread. -/
inductive ThreadState
  | running
  | waitingProcess
  | blocked
  | finishing
  deriving DecidableEq, Repr

/-- Where `thread_suspender` or `thread_resumer` is. -/
inductive WorkerPhase (π : Type)
  /-- About to take `state_mutex`, at the head of the loop. -/
  | top
  /-- At the `switch`, with `state_mutex`. -/
  | switch
  /-- In `get_process_blocked` or `get_process_susp_ready`, with both mutexes. -/
  | searching
  /-- The resumer has found none, and has let go of `list_mutex`. -/
  | foundNone
  | found (process : π)
  /-- At work on a process, with neither mutex. -/
  | busy (process : π)
  /-- The suspender calls `unlock_thread_suspended` for the resumer. -/
  | unlocking
  /-- The resumer calls `lock_thread_suspended` for itself. -/
  | locking
  | relocking
  /-- In `wait_process_blocked` or `wait_process_susp_ready`, between the two mutexes. -/
  | window
  | testing
  /-- In `cnd_wait` at the condition of the list. -/
  | parked
  | woken
  | reading
  | settling (listEmpty : Bool)
  /-- In the `cnd_wait` of `wait_unlock`. -/
  | parkedUnlock
  | wokenUnlock
  | retesting
  /-- At the end of the body of the loop. -/
  | bottom
  | leaving
  | ended
  deriving DecidableEq, Repr

/-- Where the thread that calls `terminate_threads_suspended` is. -/
inductive MainPhase
  | outside
  | lockState (w : Worker)
  | lockList (w : Worker)
  | signalling (w : Worker)
  | setFinishing (w : Worker)
  | joining (w : Worker)
  | done
  deriving DecidableEq, Repr

namespace WorkerPhase

variable {π : Type}

/-- The worker has its `state_mutex`. -/
def hasState : WorkerPhase π → Bool
  | switch | searching | foundNone | found _ | retesting | bottom | leaving => true
  | _ => false

/-- The worker has the `list_mutex` of its list. -/
def hasList : WorkerPhase π → Bool
  | searching | testing | reading => true
  | _ => false

/-- The thread has ended. -/
def isEnded : WorkerPhase π → Bool
  | ended => true
  | _ => false

/-- A signal at the condition of the list. -/
def signalProcess : WorkerPhase π → WorkerPhase π
  | parked => woken
  | phase => phase

/-- A signal at `unlock`. -/
def signalUnlock : WorkerPhase π → WorkerPhase π
  | parkedUnlock => wokenUnlock
  | phase => phase

/-- What the state can be there: a worker looks for a process only when it is running, waits for
`unlock` only when it is blocked, and ends only when it is finishing. -/
def allows : WorkerPhase π → ThreadState → Bool
  | searching, state | foundNone, state | found _, state => state = .running
  | parkedUnlock, state => state = .blocked
  | leaving, state | ended, state => state = .finishing
  | _, _ => true

variable {phase : WorkerPhase π}

/-- The phase by the question. -/
@[simp] lemma isEnded_iff : phase.isEnded = true ↔ phase = .ended := by
  cases phase <;> simp [isEnded]

/-- A signal for a process leaves who has the mutex of the state. -/
@[simp] lemma hasState_signalProcess : phase.signalProcess.hasState = phase.hasState := by
  cases phase <;> rfl

/-- And who has the mutex of the list. -/
@[simp] lemma hasList_signalProcess : phase.signalProcess.hasList = phase.hasList := by
  cases phase <;> rfl

/-- After the signal nobody waits for a process. -/
@[simp] lemma signalProcess_ne_parked : phase.signalProcess ≠ .parked := by
  cases phase <;> simp [signalProcess]

/-- The signal for a process does not wake who waits to be unlocked. -/
@[simp] lemma signalProcess_eq_parkedUnlock :
    phase.signalProcess = .parkedUnlock ↔ phase = .parkedUnlock := by
  cases phase <;> simp [signalProcess]

/-- It ends nobody. -/
@[simp] lemma signalProcess_eq_ended : phase.signalProcess = .ended ↔ phase = .ended := by
  cases phase <;> simp [signalProcess]

/-- The phase fits the same states of the thread as before. -/
@[simp] lemma allows_signalProcess {state : ThreadState} :
    phase.signalProcess.allows state = phase.allows state := by
  cases phase <;> rfl

/-- A signal to go on leaves who has the mutex of the state. -/
@[simp] lemma hasState_signalUnlock : phase.signalUnlock.hasState = phase.hasState := by
  cases phase <;> rfl

/-- And who has the mutex of the list. -/
@[simp] lemma hasList_signalUnlock : phase.signalUnlock.hasList = phase.hasList := by
  cases phase <;> rfl

/-- After the signal nobody waits to be unlocked. -/
@[simp] lemma signalUnlock_ne_parkedUnlock : phase.signalUnlock ≠ .parkedUnlock := by
  cases phase <;> simp [signalUnlock]

/-- The signal to go on does not wake who waits for a process. -/
@[simp] lemma signalUnlock_eq_parked : phase.signalUnlock = .parked ↔ phase = .parked := by
  cases phase <;> simp [signalUnlock]

/-- It ends nobody. -/
@[simp] lemma signalUnlock_eq_ended : phase.signalUnlock = .ended ↔ phase = .ended := by
  cases phase <;> simp [signalUnlock]

end WorkerPhase

namespace MainPhase

/-- The thread has the `state_mutex` of the worker. -/
def hasState (w : Worker) : MainPhase → Bool
  | lockList w' | signalling w' | setFinishing w' => w' = w
  | _ => false

/-- The thread has the `list_mutex` of the worker's list. -/
def hasList (w : Worker) : MainPhase → Bool
  | signalling w' => w' = w
  | _ => false

end MainPhase

/-- A worker with its state, and the list it works on. The last field is for the proofs: the
processes that the last search has passed over, as they had nothing in memory. -/
structure Side (π : Type) where
  state : ThreadState
  phase : WorkerPhase π
  list : List π
  newProcess : Bool
  passed : List π

end SuspensionThreads

/-- Both workers, and the thread that ends them. -/
structure SuspensionThreads (π : Type) where
  side : Worker → SuspensionThreads.Side π
  main : SuspensionThreads.MainPhase

namespace SuspensionThreads

variable {π : Type}

/-- `init_data_thread_suspended` and `init_blocking_list`, for both. -/
def init : SuspensionThreads π := ⟨fun _ => ⟨.running, .top, [], false, []⟩, .outside⟩

/-- What a worker is told during a step: which processes have something in memory, whether the
transition of its process has succeeded, and whether a compaction or a resumption is active. -/
structure Input (π : Type) where
  inMemory : π → Bool
  succeeded : Bool
  routineActive : Bool

/-- A step of a worker; one of the thread that ends them; a process is put into the list of a worker
or taken out of it; somebody else parks or wakes a worker; a wait ends for no reason. -/
inductive Event (π : Type)
  | thread (w : Worker) (input : Input π)
  | main
  | arrive (w : Worker) (process : π) (index : ℕ)
  | leave (w : Worker) (process : π)
  | lock (w : Worker)
  | unlock (w : Worker)
  | wake (w : Worker)

/-- One side is another. -/
def setSide (w : Worker) (side : Side π) (s : SuspensionThreads π) : SuspensionThreads π :=
  { s with side := Function.update s.side w side }

/-- A worker is somewhere else. -/
def setPhase (w : Worker) (phase : WorkerPhase π) (s : SuspensionThreads π) :
    SuspensionThreads π :=
  s.setSide w { s.side w with phase := phase }

/-- Nobody has the `state_mutex` of the worker. -/
def StateFree (s : SuspensionThreads π) (w : Worker) : Prop :=
  (s.side w).phase.hasState = false ∧ s.main.hasState w = false

/-- Nobody has the `list_mutex` of the worker's list. -/
def ListFree (s : SuspensionThreads π) (w : Worker) : Prop :=
  (s.side w).phase.hasList = false ∧ s.main.hasList w = false

instance (s : SuspensionThreads π) (w : Worker) : Decidable (s.StateFree w) :=
  inferInstanceAs (Decidable (_ ∧ _))

instance (s : SuspensionThreads π) (w : Worker) : Decidable (s.ListFree w) :=
  inferInstanceAs (Decidable (_ ∧ _))

/-- The test before the `cnd_wait` of `wait_process_blocked` and of `wait_process_susp_ready`. -/
def Side.mustWait (side : Side π) : Worker → Bool
  | .suspender => !side.newProcess
  | .resumer => side.list.isEmpty

/-- `get_process_blocked` takes the first process that has something in memory;
`get_process_susp_ready` takes the first one. -/
def Side.search (side : Side π) (inMemory : π → Bool) : Worker → Option π
  | .suspender => side.list.find? inMemory
  | .resumer => side.list.head?

/-- `lock_thread_suspended`, once it has `state_mutex`. -/
def Side.lock (side : Side π) : Side π :=
  match side.state with
  | .running => { side with state := .blocked }
  | .waitingProcess => { side with state := .blocked, phase := side.phase.signalProcess }
  | .blocked | .finishing => side

/-- `unlock_thread_suspended`, once it has `state_mutex`. -/
def Side.unlock (side : Side π) : Side π :=
  if side.state = .blocked then
    { side with state := .running, phase := side.phase.signalUnlock }
  else side

/-- The call of `lock_thread_suspended`, which takes `list_mutex` to signal. -/
def lock (w : Worker) (s : SuspensionThreads π) : Option (SuspensionThreads π) :=
  if s.StateFree w ∧ ((s.side w).state = .waitingProcess → s.ListFree w) then
    some (s.setSide w (s.side w).lock)
  else none

/-- The call of `unlock_thread_suspended`. -/
def unlock (w : Worker) (s : SuspensionThreads π) : Option (SuspensionThreads π) :=
  if s.StateFree w then some (s.setSide w (s.side w).unlock) else none

/-- The thread that ends the workers goes on: `terminate_thread_suspended` for the suspender and for
the resumer, and then `wait_thread_suspended` for them. -/
def mainStep (s : SuspensionThreads π) : Option (SuspensionThreads π) :=
  match s.main with
  | .outside => some { s with main := .lockState .suspender }
  | .lockState w => if s.StateFree w then some { s with main := .lockList w } else none
  | .lockList w => if s.ListFree w then some { s with main := .signalling w } else none
  | .signalling w =>
    some { s.setPhase w (s.side w).phase.signalProcess.signalUnlock with main := .setFinishing w }
  | .setFinishing w =>
    some { s.setSide w { s.side w with state := .finishing } with
      main := match w with
        | .suspender => .lockState .resumer
        | .resumer => .joining .suspender }
  | .joining w =>
    if (s.side w).phase.isEnded then
      some { s with
        main := match w with
          | .suspender => .joining .resumer
          | .resumer => .done }
    else none
  | .done => none

/-- What comes after the search. The suspender still has `list_mutex` when it finds none. -/
def searched (w : Worker) (input : Input π) (s : SuspensionThreads π) : SuspensionThreads π :=
  match w, (s.side w).search input.inMemory w with
  | _, some process => s.setPhase w (.found process)
  | .suspender, none =>
    s.setSide w { s.side w with
      state := .waitingProcess, phase := .bottom, newProcess := false, passed := (s.side w).list }
  | .resumer, none => s.setPhase w .foundNone

section Steps

variable [DecidableEq π]

/-- The end of `run_suspend_process` and of `resume_suspended_process`: a process that could be
suspended or resumed has left the list. -/
def worked (w : Worker) (process : π) (input : Input π) (s : SuspensionThreads π) :
    SuspensionThreads π :=
  let phase := match w, input.succeeded, input.routineActive with
    | .suspender, true, false => .unlocking
    | .suspender, _, _ => .relocking
    | .resumer, true, _ => .relocking
    | .resumer, false, _ => .locking
  s.setSide w { s.side w with
    phase := phase
    list := if input.succeeded then (s.side w).list.erase process else (s.side w).list }

/-- A worker goes on. -/
def threadStep (w : Worker) (input : Input π) (s : SuspensionThreads π) :
    Option (SuspensionThreads π) :=
  match (s.side w).phase with
  | .top => if s.StateFree w then some (s.setPhase w .switch) else none
  | .switch =>
    match (s.side w).state with
    | .running => if s.ListFree w then some (s.setPhase w .searching) else none
    | .waitingProcess => some (s.setPhase w .window)
    | .blocked => some (s.setPhase w .parkedUnlock)
    | .finishing => some (s.setPhase w .leaving)
  | .searching => some (s.searched w input)
  | .foundNone =>
    some (s.setSide w { s.side w with state := .waitingProcess, phase := .bottom })
  | .found process => some (s.setPhase w (.busy process))
  | .busy process => if s.ListFree w then some (s.worked w process input) else none
  | .unlocking => (s.unlock .resumer).map (setPhase w .relocking)
  | .locking => (s.lock w).map (setPhase w .relocking)
  | .relocking => if s.StateFree w then some (s.setPhase w .bottom) else none
  | .window => if s.ListFree w then some (s.setPhase w .testing) else none
  | .testing =>
    if (s.side w).mustWait w then some (s.setPhase w .parked) else some (s.setPhase w .reading)
  | .parked => none
  | .woken => if s.ListFree w then some (s.setPhase w .reading) else none
  | .reading => some (s.setPhase w (.settling (s.side w).list.isEmpty))
  | .settling listEmpty =>
    if s.StateFree w then
      some (s.setSide w { s.side w with
        state := if !listEmpty && (s.side w).state = .waitingProcess then .running
          else (s.side w).state
        phase := .bottom })
    else none
  | .parkedUnlock => none
  | .wokenUnlock => if s.StateFree w then some (s.setPhase w .retesting) else none
  | .retesting =>
    if (s.side w).state = .blocked then some (s.setPhase w .parkedUnlock)
    else some (s.setPhase w .bottom)
  | .bottom => some (s.setPhase w .top)
  | .leaving => some (s.setPhase w .ended)
  | .ended => none

/-- `transition_to_block` and `transition_to_susp_ready`, once they have `list_mutex`: BLOCK gets
its processes at the end, SUSP. READY by their order. -/
def Side.arrive (side : Side π) (process : π) (index : ℕ) : Worker → Side π
  | .suspender =>
    { side with
      phase := side.phase.signalProcess
      list := side.list ++ [process]
      newProcess := true
      passed := side.passed.filter (· ≠ process) }
  | .resumer =>
    { side with
      phase := if side.list.isEmpty then side.phase.signalProcess else side.phase
      list := side.list.take index ++ process :: side.list.drop index
      passed := side.passed.filter (· ≠ process) }

/-- One step. -/
def step (s : SuspensionThreads π) : Event π → Option (SuspensionThreads π)
  | .thread w input => s.threadStep w input
  | .main => s.mainStep
  | .arrive w process index =>
    if s.ListFree w then some (s.setSide w ((s.side w).arrive process index w)) else none
  | .leave w process =>
    if s.ListFree w then
      some (s.setSide w { s.side w with list := (s.side w).list.erase process })
    else none
  | .lock w => s.lock w
  | .unlock w => s.unlock w
  | .wake w => some (s.setPhase w (s.side w).phase.signalProcess.signalUnlock)

end Steps

/-! ## The invariant -/

/-- The thread that ends the workers has set `TS_FINISHING` for the worker. -/
def MainPhase.hasFinished : Worker → MainPhase → Bool
  | .suspender, .outside | .suspender, .lockState .suspender | .suspender, .lockList .suspender
  | .suspender, .signalling .suspender | .suspender, .setFinishing .suspender => false
  | .resumer, .outside | .resumer, .lockState _ | .resumer, .lockList _ | .resumer, .signalling _
  | .resumer, .setFinishing _ => false
  | _, _ => true

/-- The thread that ends the workers has joined the worker. -/
def MainPhase.hasJoined : Worker → MainPhase → Bool
  | .suspender, .joining .resumer | _, .done => true
  | _, _ => false

/-- **The invariant of one side**: a mutex is with one thread at most; the state is one that the
phase allows, and finishing once it has been set; a worker waits for a process only when the test
says so; and the suspender has passed over every process of BLOCK unless a new one has come. -/
structure Side.Sound (w : Worker) (main : MainPhase) (side : Side π) : Prop where
  stateMutex : side.phase.hasState = true → main.hasState w = false
  listMutex : side.phase.hasList = true → main.hasList w = false
  state : side.phase.allows side.state = true
  parkedUnlock : side.phase = .parkedUnlock → main ≠ .setFinishing w
  finishing : side.state = .finishing ↔ main.hasFinished w = true
  joined : main.hasJoined w = true → side.phase = .ended
  parked : side.phase = .parked → side.mustWait w = true
  passed : w = .suspender → side.newProcess = false → ∀ process ∈ side.list, process ∈ side.passed

/-- **The invariant** of both. -/
def Sound (s : SuspensionThreads π) : Prop := ∀ w, (s.side w).Sound w s.main

/-- The invariant holds at the start. -/
lemma sound_init : (init : SuspensionThreads π).Sound := by
  intro w
  constructor <;> cases w <;> simp [init, WorkerPhase.hasState, WorkerPhase.hasList,
    WorkerPhase.allows, MainPhase.hasFinished, MainPhase.hasJoined]

section Invariant

variable {s s' : SuspensionThreads π} {w : Worker} {side : Side π}

/-- The side that is set. -/
@[simp] lemma setSide_side_self : (s.setSide w side).side w = side := Function.update_self _ _ _

/-- The other side stays. -/
lemma setSide_side_of_ne {w' : Worker} (h : w' ≠ w) : (s.setSide w side).side w' = s.side w' :=
  Function.update_of_ne h _ _

/-- A side that is set to itself changes nothing. -/
@[simp] lemma setSide_self : s.setSide w (s.side w) = s := by
  simp [setSide]

/-- The main thread stays where it is. -/
@[simp] lemma setSide_main : (s.setSide w side).main = s.main := rfl

/-- A step on one side. -/
lemma Sound.setSide (h : s.Sound) (hside : side.Sound w s.main) : (s.setSide w side).Sound := by
  intro w'
  by_cases hw : w' = w
  · subst hw
    rw [setSide_side_self]
    exact hside
  · rw [setSide_side_of_ne hw]
    exact h w'

variable {main : MainPhase}

/-- The test does not look at the state or the phase. -/
@[simp] lemma Side.mustWait_with {state : ThreadState} {phase : WorkerPhase π} :
    ({ side with state := state, phase := phase } : Side π).mustWait w = side.mustWait w := by
  cases w <;> rfl

/-- The main thread that has not the mutex does not set the flag. -/
lemma MainPhase.ne_setFinishing (h : main.hasState w = false) : main ≠ .setFinishing w := by
  rintro rfl
  simp [MainPhase.hasState] at h

/-- The worker moves, with another state or the same. -/
lemma Side.Sound.move (h : side.Sound w main) {state : ThreadState} {phase : WorkerPhase π}
    (hended : side.phase ≠ .ended)
    (hmutex : phase.hasState = true → main.hasState w = false)
    (hlist : phase.hasList = true → main.hasList w = false)
    (hallows : phase.allows state = true)
    (hfinishing : state = .finishing ↔ side.state = .finishing)
    (hparked : phase = .parked → side.mustWait w = true)
    (hunlock : phase = .parkedUnlock → main.hasState w = false) :
    ({ side with state := state, phase := phase } : Side π).Sound w main where
  stateMutex := hmutex
  listMutex := hlist
  state := hallows
  parkedUnlock hphase := MainPhase.ne_setFinishing (hunlock hphase)
  finishing := hfinishing.trans h.finishing
  joined hjoined := absurd (h.joined hjoined) hended
  parked hphase := Side.mustWait_with.trans (hparked hphase)
  passed := h.passed

/-- A process leaves the list. -/
lemma Side.Sound.leave [DecidableEq π] (h : side.Sound w main) (process : π) :
    ({ side with list := side.list.erase process } : Side π).Sound w main where
  stateMutex := h.stateMutex
  listMutex := h.listMutex
  state := h.state
  parkedUnlock := h.parkedUnlock
  finishing := h.finishing
  joined := h.joined
  parked hphase := by
    have hwait := h.parked hphase
    cases w with
    | suspender => exact hwait
    | resumer =>
      simp only [Side.mustWait, List.isEmpty_iff] at hwait ⊢
      rw [hwait, List.erase_nil]
  passed hw hnew p hp := h.passed hw hnew p (List.mem_of_mem_erase hp)

/-- A signal at the condition of the list, and one at `unlock`. -/
lemma Side.Sound.signalProcess (h : side.Sound w main) :
    ({ side with phase := side.phase.signalProcess } : Side π).Sound w main where
  stateMutex hphase := h.stateMutex (by simpa using hphase)
  listMutex hphase := h.listMutex (by simpa using hphase)
  state := WorkerPhase.allows_signalProcess.trans h.state
  parkedUnlock hphase := h.parkedUnlock (WorkerPhase.signalProcess_eq_parkedUnlock.1 hphase)
  finishing := h.finishing
  joined hjoined := WorkerPhase.signalProcess_eq_ended.2 (h.joined hjoined)
  parked hphase := absurd hphase WorkerPhase.signalProcess_ne_parked
  passed := h.passed

/-- A side stays sound over the signal to go on. -/
lemma Side.Sound.signalUnlock (h : side.Sound w main) :
    ({ side with phase := side.phase.signalUnlock } : Side π).Sound w main where
  stateMutex hphase := h.stateMutex (by simpa using hphase)
  listMutex hphase := h.listMutex (by simpa using hphase)
  state := by
    have hstate := h.state
    cases hphase : side.phase <;> simp_all [WorkerPhase.signalUnlock, WorkerPhase.allows]
  parkedUnlock hphase := absurd hphase WorkerPhase.signalUnlock_ne_parkedUnlock
  finishing := h.finishing
  joined hjoined := WorkerPhase.signalUnlock_eq_ended.2 (h.joined hjoined)
  parked hphase := by
    rw [WorkerPhase.signalUnlock_eq_parked] at hphase
    have hwait := h.parked hphase
    cases w <;> exact hwait
  passed := h.passed

/-- The state of a worker that is in no critical section is set by somebody else. -/
lemma Side.Sound.setState (h : side.Sound w main) (hfree : side.phase.hasState = false)
    (hunlock : side.phase ≠ .parkedUnlock) (hnot : side.state ≠ .finishing)
    {state : ThreadState} (hstate : state ≠ .finishing) :
    ({ side with state := state } : Side π).Sound w main where
  stateMutex := h.stateMutex
  listMutex := h.listMutex
  state := by
    have hallows := h.state
    cases hphase : side.phase <;> simp_all [WorkerPhase.allows, WorkerPhase.hasState]
  parkedUnlock := h.parkedUnlock
  finishing := ⟨fun heq => absurd heq hstate, fun hmain => absurd (h.finishing.2 hmain) hnot⟩
  joined := h.joined
  parked hphase := by
    have hwait := h.parked hphase
    cases w <;> exact hwait
  passed := h.passed

/-- `lock_thread_suspended` keeps the invariant. -/
lemma Side.Sound.lock (h : side.Sound w main) (hfree : side.phase.hasState = false) :
    side.lock.Sound w main := by
  have hunlock (hstate : side.state ≠ .blocked) : side.phase ≠ .parkedUnlock := fun hphase =>
    hstate (by simpa [WorkerPhase.allows, hphase] using h.state)
  unfold Side.lock
  split
  · rename_i hstate
    exact h.setState hfree (hunlock (by simp [hstate])) (by simp [hstate]) (by simp)
  · rename_i hstate
    exact h.signalProcess.setState (by simpa using hfree)
      (by simpa using hunlock (by simp [hstate])) (by simp [hstate]) (by simp)
  · exact h
  · exact h

/-- `unlock_thread_suspended` keeps the invariant. -/
lemma Side.Sound.unlock (h : side.Sound w main) (hfree : side.phase.hasState = false) :
    side.unlock.Sound w main := by
  unfold Side.unlock
  split
  · rename_i hstate
    exact h.signalUnlock.setState (by simpa using hfree) (by simp) (by simp [hstate]) (by simp)
  · exact h

/-- A process that comes wakes the worker up. -/
lemma Side.Sound.arrive [DecidableEq π] (h : side.Sound w main) (process : π) (index : ℕ) :
    (side.arrive process index w).Sound w main := by
  cases w with
  | suspender =>
    have hsignal := h.signalProcess
    exact ⟨hsignal.stateMutex, hsignal.listMutex, hsignal.state, hsignal.parkedUnlock,
      hsignal.finishing, hsignal.joined,
      fun hphase => absurd hphase WorkerPhase.signalProcess_ne_parked,
      fun _ hnew => absurd hnew (by simp [Side.arrive])⟩
  | resumer =>
    by_cases hempty : side.list.isEmpty
    · have hsignal := h.signalProcess
      simp only [Side.arrive, if_pos hempty]
      exact ⟨hsignal.stateMutex, hsignal.listMutex, hsignal.state, hsignal.parkedUnlock,
        hsignal.finishing, hsignal.joined,
        fun hphase => absurd hphase WorkerPhase.signalProcess_ne_parked,
        fun hw => absurd hw (by simp)⟩
    · simp only [Side.arrive, if_neg hempty]
      exact ⟨h.stateMutex, h.listMutex, h.state, h.parkedUnlock, h.finishing, h.joined,
        fun hphase => absurd (h.parked hphase) hempty, fun hw => absurd hw (by simp)⟩

/-- The thread that ends the workers moves on, and nothing about this worker changes. -/
lemma Side.Sound.mainMove (h : side.Sound w main) (main' : MainPhase)
    (hmutex : side.phase.hasState = true → main'.hasState w = false)
    (hlist : side.phase.hasList = true → main'.hasList w = false)
    (hunlock : side.phase = .parkedUnlock → main' ≠ .setFinishing w)
    (hfinished : main'.hasFinished w = main.hasFinished w)
    (hjoined : main'.hasJoined w = true → side.phase = .ended) : side.Sound w main' where
  stateMutex := hmutex
  listMutex := hlist
  state := h.state
  parkedUnlock := hunlock
  finishing := hfinished ▸ h.finishing
  joined := hjoined
  parked := h.parked
  passed := h.passed

/-- The worker moves, and its state stays. -/
lemma Sound.setPhase (h : s.Sound) {phase : WorkerPhase π} (hended : (s.side w).phase ≠ .ended)
    (hmutex : phase.hasState = true → s.main.hasState w = false)
    (hlist : phase.hasList = true → s.main.hasList w = false)
    (hallows : phase.allows (s.side w).state = true)
    (hparked : phase = .parked → (s.side w).mustWait w = true)
    (hunlock : phase = .parkedUnlock → s.main.hasState w = false) : (s.setPhase w phase).Sound :=
  h.setSide ((h w).move hended hmutex hlist hallows Iff.rfl hparked hunlock)

/-- Only a worker that waits there is woken up by being parked or being told to go on. -/
lemma Side.phase_lock (h : side.phase ≠ .parked) : side.lock.phase = side.phase := by
  unfold Side.lock
  split
  · rfl
  · cases hphase : side.phase <;> simp_all [WorkerPhase.signalProcess]
  · rfl
  · rfl

/-- Only who waits to be unlocked is moved. -/
lemma Side.phase_unlock (h : side.phase ≠ .parkedUnlock) : side.unlock.phase = side.phase := by
  unfold Side.unlock
  split
  · cases hphase : side.phase <;> simp_all [WorkerPhase.signalUnlock]
  · rfl

/-- The thread is locked when nobody has its state. -/
lemma lock_eq_some (hst : s.lock w = some s') :
    (s.side w).phase.hasState = false ∧ s' = s.setSide w (s.side w).lock := by
  obtain ⟨hfree, heq⟩ := Option.ite_none_right_eq_some.1 hst
  exact ⟨hfree.1.1, (Option.some.inj heq).symm⟩

/-- So it is unlocked. -/
lemma unlock_eq_some (hst : s.unlock w = some s') :
    s.StateFree w ∧ s' = s.setSide w (s.side w).unlock := by
  obtain ⟨hfree, heq⟩ := Option.ite_none_right_eq_some.1 hst
  exact ⟨hfree, (Option.some.inj heq).symm⟩

/-- The invariant is kept when a thread is locked. -/
lemma Sound.lock (h : s.Sound) (hst : s.lock w = some s') : s'.Sound := by
  obtain ⟨hfree, rfl⟩ := lock_eq_some hst
  exact h.setSide ((h w).lock hfree)

/-- The invariant is kept when a thread is unlocked. -/
lemma Sound.unlock (h : s.Sound) (hst : s.unlock w = some s') : s'.Sound := by
  obtain ⟨hfree, rfl⟩ := unlock_eq_some hst
  exact h.setSide ((h w).unlock hfree.1)

/-- **A step of a worker** keeps the invariant. -/
lemma Sound.thread [DecidableEq π] (h : s.Sound) {input : Input π}
    (hst : s.threadStep w input = some s') : s'.Sound := by
  have hw := h w
  unfold threadStep at hst
  split at hst
  case h_1 hphase =>
    obtain ⟨hfree, heq⟩ := Option.ite_none_right_eq_some.1 hst
    obtain rfl := Option.some.inj heq
    exact h.setPhase (by simp [hphase]) (fun _ => hfree.2) (by simp [WorkerPhase.hasList]) rfl
      (by simp) (by simp)
  case h_2 hphase =>
    have hmain : s.main.hasState w = false := hw.stateMutex (by rw [hphase]; rfl)
    split at hst
    · rename_i hstate
      obtain ⟨hfree, heq⟩ := Option.ite_none_right_eq_some.1 hst
      obtain rfl := Option.some.inj heq
      exact h.setPhase (by simp [hphase]) (fun _ => hmain) (fun _ => hfree.2)
        (by simp [WorkerPhase.allows, hstate]) (by simp) (by simp)
    · obtain rfl := Option.some.inj hst
      exact h.setPhase (by simp [hphase]) (fun _ => hmain) (by simp [WorkerPhase.hasList]) rfl
        (by simp) (by simp)
    · rename_i hstate
      obtain rfl := Option.some.inj hst
      exact h.setPhase (by simp [hphase]) (fun _ => hmain) (by simp [WorkerPhase.hasList])
        (by simp [WorkerPhase.allows, hstate]) (by simp) (fun _ => hmain)
    · rename_i hstate
      obtain rfl := Option.some.inj hst
      exact h.setPhase (by simp [hphase]) (fun _ => hmain) (by simp [WorkerPhase.hasList])
        (by simp [WorkerPhase.allows, hstate]) (by simp) (by simp)
  case h_3 hphase =>
    have hmain : s.main.hasState w = false := hw.stateMutex (by rw [hphase]; rfl)
    have hstate : (s.side w).state = .running := by
      simpa [WorkerPhase.allows, hphase] using hw.state
    obtain rfl := Option.some.inj hst
    unfold searched
    split
    · exact h.setPhase (by simp [hphase]) (fun _ => hmain) (by simp [WorkerPhase.hasList])
        (by simp [WorkerPhase.allows, hstate]) (by simp) (by simp)
    · refine h.setSide ⟨fun _ => hmain, by simp [WorkerPhase.hasList], rfl, by simp, ?_, ?_,
        by simp, fun _ _ _ hp => hp⟩
      · rw [← hw.finishing, hstate]
        simp
      · exact fun hjoined => absurd (hw.joined hjoined) (by simp [hphase])
    · exact h.setPhase (by simp [hphase]) (fun _ => hmain) (by simp [WorkerPhase.hasList])
        (by simp [WorkerPhase.allows, hstate]) (by simp) (by simp)
  case h_4 hphase =>
    have hmain : s.main.hasState w = false := hw.stateMutex (by rw [hphase]; rfl)
    have hstate : (s.side w).state = .running := by
      simpa [WorkerPhase.allows, hphase] using hw.state
    obtain rfl := Option.some.inj hst
    exact h.setSide (hw.move (by simp [hphase]) (fun _ => hmain) (by simp [WorkerPhase.hasList])
      rfl (by simp [hstate]) (by simp) (by simp))
  case h_5 hphase =>
    obtain rfl := Option.some.inj hst
    exact h.setPhase (by simp [hphase]) (by simp [WorkerPhase.hasState])
      (by simp [WorkerPhase.hasList]) rfl (by simp) (by simp)
  case h_6 process hphase =>
    obtain ⟨-, heq⟩ := Option.ite_none_right_eq_some.1 hst
    obtain rfl := Option.some.inj heq
    have hleft : ({ s.side w with
        list := if input.succeeded then (s.side w).list.erase process
          else (s.side w).list } : Side π).Sound w s.main := by
      split
      · exact hw.leave process
      · exact hw
    unfold worked
    refine h.setSide (hleft.move (by simp [hphase]) ?_ ?_ ?_ Iff.rfl ?_ ?_) <;> split <;>
      simp [WorkerPhase.hasState, WorkerPhase.hasList, WorkerPhase.allows]
  case h_7 hphase =>
    obtain ⟨t, ht, rfl⟩ := Option.map_eq_some_iff.1 hst
    have hphase' : (t.side w).phase = .unlocking := by
      obtain ⟨-, rfl⟩ := unlock_eq_some ht
      cases w with
      | suspender => rwa [setSide_side_of_ne (by simp)]
      | resumer => rw [setSide_side_self, Side.phase_unlock (by simp [hphase]), hphase]
    exact (h.unlock ht).setPhase (by simp [hphase']) (by simp [WorkerPhase.hasState])
      (by simp [WorkerPhase.hasList]) rfl (by simp) (by simp)
  case h_8 hphase =>
    obtain ⟨t, ht, rfl⟩ := Option.map_eq_some_iff.1 hst
    have hphase' : (t.side w).phase = .locking := by
      obtain ⟨-, rfl⟩ := lock_eq_some ht
      rw [setSide_side_self, Side.phase_lock (by simp [hphase]), hphase]
    exact (h.lock ht).setPhase (by simp [hphase']) (by simp [WorkerPhase.hasState])
      (by simp [WorkerPhase.hasList]) rfl (by simp) (by simp)
  case h_9 hphase =>
    obtain ⟨hfree, heq⟩ := Option.ite_none_right_eq_some.1 hst
    obtain rfl := Option.some.inj heq
    exact h.setPhase (by simp [hphase]) (fun _ => hfree.2) (by simp [WorkerPhase.hasList]) rfl
      (by simp) (by simp)
  case h_10 hphase =>
    obtain ⟨hfree, heq⟩ := Option.ite_none_right_eq_some.1 hst
    obtain rfl := Option.some.inj heq
    exact h.setPhase (by simp [hphase]) (by simp [WorkerPhase.hasState]) (fun _ => hfree.2) rfl
      (by simp) (by simp)
  case h_11 hphase =>
    have hlist : s.main.hasList w = false := hw.listMutex (by rw [hphase]; rfl)
    split at hst
    · rename_i hwait
      obtain rfl := Option.some.inj hst
      exact h.setPhase (by simp [hphase]) (by simp [WorkerPhase.hasState])
        (by simp [WorkerPhase.hasList]) rfl (fun _ => hwait) (by simp)
    · obtain rfl := Option.some.inj hst
      exact h.setPhase (by simp [hphase]) (by simp [WorkerPhase.hasState]) (fun _ => hlist) rfl
        (by simp) (by simp)
  case h_12 => exact absurd hst (by simp)
  case h_13 hphase =>
    obtain ⟨hfree, heq⟩ := Option.ite_none_right_eq_some.1 hst
    obtain rfl := Option.some.inj heq
    exact h.setPhase (by simp [hphase]) (by simp [WorkerPhase.hasState]) (fun _ => hfree.2) rfl
      (by simp) (by simp)
  case h_14 hphase =>
    obtain rfl := Option.some.inj hst
    exact h.setPhase (by simp [hphase]) (by simp [WorkerPhase.hasState])
      (by simp [WorkerPhase.hasList]) rfl (by simp) (by simp)
  case h_15 listEmpty hphase =>
    obtain ⟨hfree, heq⟩ := Option.ite_none_right_eq_some.1 hst
    obtain rfl := Option.some.inj heq
    refine h.setSide (hw.move (by simp [hphase]) (fun _ => hfree.2)
      (by simp [WorkerPhase.hasList]) rfl ?_ (by simp) (by simp))
    -- only a worker that waits is set running, and one that finishes stays so
    split
    · rename_i hwaiting
      simp only [Bool.and_eq_true, decide_eq_true_eq] at hwaiting
      simp [hwaiting.2]
    · exact Iff.rfl
  case h_16 => exact absurd hst (by simp)
  case h_17 hphase =>
    obtain ⟨hfree, heq⟩ := Option.ite_none_right_eq_some.1 hst
    obtain rfl := Option.some.inj heq
    exact h.setPhase (by simp [hphase]) (fun _ => hfree.2) (by simp [WorkerPhase.hasList]) rfl
      (by simp) (by simp)
  case h_18 hphase =>
    have hmain : s.main.hasState w = false := hw.stateMutex (by rw [hphase]; rfl)
    split at hst
    · rename_i hstate
      obtain rfl := Option.some.inj hst
      exact h.setPhase (by simp [hphase]) (fun _ => hmain) (by simp [WorkerPhase.hasList])
        (by simp [WorkerPhase.allows, hstate]) (by simp) (fun _ => hmain)
    · obtain rfl := Option.some.inj hst
      exact h.setPhase (by simp [hphase]) (fun _ => hmain) (by simp [WorkerPhase.hasList]) rfl
        (by simp) (by simp)
  case h_19 hphase =>
    obtain rfl := Option.some.inj hst
    exact h.setPhase (by simp [hphase]) (by simp [WorkerPhase.hasState])
      (by simp [WorkerPhase.hasList]) rfl (by simp) (by simp)
  case h_20 hphase =>
    have hstate : (s.side w).state = .finishing := by
      simpa [WorkerPhase.allows, hphase] using hw.state
    obtain rfl := Option.some.inj hst
    exact h.setPhase (by simp [hphase]) (by simp [WorkerPhase.hasState])
      (by simp [WorkerPhase.hasList]) (by simp [WorkerPhase.allows, hstate]) (by simp) (by simp)
  case h_21 => exact absurd hst (by simp)

/-- A step of the thread that ends the workers, on one side. -/
lemma sound_setMain (w : Worker) {main : MainPhase} (hside : side.Sound w main)
    (hothers : ∀ w', w' ≠ w → (s.side w').Sound w' main) :
    ({ s.setSide w side with main := main } : SuspensionThreads π).Sound := by
  intro w'
  by_cases hw : w' = w
  · subst hw
    simpa only [setSide_side_self] using hside
  · simpa only [setSide_side_of_ne hw] using hothers w' hw

/-- **A step of the thread that ends the workers** keeps the invariant. -/
lemma Sound.mainStep (h : s.Sound) (hst : s.mainStep = some s') : s'.Sound := by
  unfold SuspensionThreads.mainStep at hst
  split at hst
  case h_1 hmain =>
    obtain rfl := Option.some.inj hst
    intro w
    refine (h w).mainMove _ (by simp [MainPhase.hasState]) (by simp [MainPhase.hasList]) (by simp)
      ?_ (by cases w <;> simp [MainPhase.hasJoined])
    rw [hmain]
    cases w <;> rfl
  case h_2 w hmain =>
    obtain ⟨hfree, heq⟩ := Option.ite_none_right_eq_some.1 hst
    obtain rfl := Option.some.inj heq
    intro w'
    refine (h w').mainMove _ (fun hphase => ?_) (by simp [MainPhase.hasList]) (by simp) ?_
      (by cases w' <;> simp [MainPhase.hasJoined])
    · simp only [MainPhase.hasState, decide_eq_false_iff_not]
      rintro rfl
      exact absurd hfree.1 (by simp [hphase])
    · rw [hmain]
      cases w <;> cases w' <;> rfl
  case h_3 w hmain =>
    obtain ⟨hfree, heq⟩ := Option.ite_none_right_eq_some.1 hst
    obtain rfl := Option.some.inj heq
    intro w'
    have hw := h w'
    refine hw.mainMove _ (fun hphase => ?_) (fun hphase => ?_) (by simp) ?_
      (by cases w' <;> simp [MainPhase.hasJoined])
    · simpa [hmain, MainPhase.hasState] using hw.stateMutex hphase
    · simp only [MainPhase.hasList, decide_eq_false_iff_not]
      rintro rfl
      exact absurd hfree.1 (by simp [hphase])
    · rw [hmain]
      cases w <;> cases w' <;> rfl
  case h_4 w hmain =>
    obtain rfl := Option.some.inj hst
    have hw := h w
    have hfree : (s.side w).phase.hasState = false := by
      rw [Bool.eq_false_iff]
      exact fun hphase => absurd (hw.stateMutex hphase) (by simp [hmain, MainPhase.hasState])
    refine sound_setMain w ?_ fun w' hne => ?_
    · refine hw.signalProcess.signalUnlock.mainMove _ (fun hphase => ?_)
        (fun _ => rfl) (fun hphase => absurd hphase WorkerPhase.signalUnlock_ne_parkedUnlock) ?_
        (by cases w <;> simp [MainPhase.hasJoined])
      · simp [hfree] at hphase
      · rw [hmain]
        cases w <;> rfl
    · refine (h w').mainMove _ (fun _ => by simpa [MainPhase.hasState] using hne.symm)
        (fun _ => rfl) (fun _ => by simpa using hne.symm) ?_
        (by cases w' <;> simp [MainPhase.hasJoined])
      rw [hmain]
      cases w <;> cases w' <;> rfl
  case h_5 w hmain =>
    obtain rfl := Option.some.inj hst
    have hw := h w
    have hfree : (s.side w).phase.hasState = false := by
      rw [Bool.eq_false_iff]
      exact fun hphase => absurd (hw.stateMutex hphase) (by simp [hmain, MainPhase.hasState])
    have hstate : (s.side w).state ≠ .finishing := by
      rw [ne_eq, hw.finishing, hmain]
      cases w <;> simp [MainPhase.hasFinished]
    refine sound_setMain w ⟨?_, ?_, ?_, ?_, ?_, ?_, ?_, hw.passed⟩ fun w' hne => ?_
    · exact fun hphase => absurd hphase (by simp [hfree])
    · cases w <;> simp [MainPhase.hasList]
    · have hallows := hw.state
      have hunlock : (s.side w).phase ≠ .parkedUnlock := fun hphase => hw.parkedUnlock hphase hmain
      cases hphase : (s.side w).phase <;> simp_all [WorkerPhase.allows, WorkerPhase.hasState]
    · cases w <;> simp
    · cases w <;> simp [MainPhase.hasFinished]
    · cases w <;> simp [MainPhase.hasJoined]
    · intro hphase
      have hwait := hw.parked hphase
      cases w <;> exact hwait
    · refine (h w').mainMove _ ?_ ?_ ?_ ?_ ?_
      · cases w <;> cases w' <;> simp_all [MainPhase.hasState]
      · cases w <;> simp [MainPhase.hasList]
      · cases w <;> simp
      · rw [hmain]
        cases w <;> cases w' <;> simp_all [MainPhase.hasFinished]
      · cases w <;> cases w' <;> simp_all [MainPhase.hasJoined]
  case h_6 w hmain =>
    obtain ⟨hended, heq⟩ := Option.ite_none_right_eq_some.1 hst
    rw [WorkerPhase.isEnded_iff] at hended
    obtain rfl := Option.some.inj heq
    intro w'
    have hw := h w'
    refine hw.mainMove _ ?_ ?_ ?_ ?_ fun hjoined => ?_
    · cases w <;> simp [MainPhase.hasState]
    · cases w <;> simp [MainPhase.hasList]
    · cases w <;> simp
    · rw [hmain]
      cases w <;> cases w' <;> rfl
    · cases w with
      | suspender =>
        cases w' with
        | suspender => exact hended
        | resumer => exact absurd hjoined (by simp [MainPhase.hasJoined])
      | resumer =>
        cases w' with
        | suspender => exact hw.joined (by rw [hmain]; rfl)
        | resumer => exact hended
  case h_7 => exact absurd hst (by simp)

/-- **Every step** keeps the invariant. -/
lemma Sound.step [DecidableEq π] (h : s.Sound) {e : Event π} (hst : s.step e = some s') :
    s'.Sound := by
  cases e with
  | thread w input => exact h.thread hst
  | main => exact h.mainStep hst
  | arrive w process index =>
    obtain ⟨-, heq⟩ := Option.ite_none_right_eq_some.1 hst
    obtain rfl := Option.some.inj heq
    exact h.setSide ((h w).arrive process index)
  | leave w process =>
    obtain ⟨-, heq⟩ := Option.ite_none_right_eq_some.1 hst
    obtain rfl := Option.some.inj heq
    exact h.setSide ((h w).leave process)
  | lock w => exact h.lock hst
  | unlock w => exact h.unlock hst
  | wake w =>
    obtain rfl := Option.some.inj hst
    exact h.setSide (h w).signalProcess.signalUnlock

/-- **The invariant holds in every state of a run.** -/
theorem sound_of_run [DecidableEq π] {ok : SuspensionThreads π → Event π → Prop}
    (h : Run step ok init s) : s.Sound :=
  h.invariant sound_init fun _ _ _ hs _ hst => hs.step hst

end Invariant

end SuspensionThreads

end OsSimulator.Scheduler
