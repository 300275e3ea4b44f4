import Mathlib.Logic.Function.Basic
import OsSimulator.Library.KeyedList
import OsSimulator.Scheduler.ReadyQueue

set_option relaxedAutoImplicit false
set_option autoImplicit false

/-!
# The scheduler state and its transitions

`t_queues` with the PCBs and the mutexes it works on, and the transition functions of `queues.c`,
`exec_list.c`, `blocking_list.c` and `suspension.c`, each as one atomic operation. A transition
whose expected state does not hold changes nothing. `none` means that the call does not return or
has no meaning in C: a READY level out of range, or the use of a freed PCB. The answers of Kernel
Memory are arguments.

## Main definitions

* `Mutex`, `ExecList`, `Queues` — the state.
* `transitionReadyExec`, `transitionExecReady`, `transitionExecBlock`, `transitionUnlock`, … — the
  transitions.
* `updatePriority` — the re-sorting of a READY process.
-/

namespace OsSimulator.Scheduler

/-- `t_mutex` without its lock. The state is `1` when it is free, and one less for its holder and
for every waiting process. -/
structure Mutex where
  id : String
  nextPriority : ℤ
  priorityActive : Bool
  list : List ℕ
  currentProcess : Option ℕ
  state : ℤ
  deriving DecidableEq, Repr

/-- `t_execute_list`. -/
structure ExecList where
  list : List ℕ
  lowestPriority : ℤ
  preemption : Bool
  deriving DecidableEq, Repr

/-- `t_queues`, with the PCBs created so far (those with a pid below `nextPid`) and the mutexes of
`t_mutex_list`. -/
structure Queues where
  ready : ReadyQueue
  exec : ExecList
  block : List ℕ
  suspBlock : List ℕ
  suspReady : List ℕ
  pcbs : ℕ → Pcb
  nextPid : ℕ
  mutexes : List Mutex

/-- `init_queues` and `init_list_mutex`. -/
def initQueues (multilevel : Bool) (algorithms : List SchedulingAlgorithm) (preemption : Bool) :
    Queues where
  ready := ReadyQueue.init multilevel algorithms
  exec := ⟨[], 0, preemption⟩
  block := []
  suspBlock := []
  suspReady := []
  pcbs := fun _ => createPcb .new 0
  nextPid := 0
  mutexes := []

namespace Queues

/-! ## PCBs and mutexes -/

/-- The state with one PCB changed. -/
def modifyPcb (p : ℕ) (f : Pcb → Pcb) (s : Queues) : Queues :=
  { s with pcbs := Function.update s.pcbs p (f (s.pcbs p)) }

/-- The state with one mutex changed. -/
def modifyMutex (id : String) (f : Mutex → Mutex) (s : Queues) : Queues :=
  { s with mutexes := modifyKey Mutex.id id f s.mutexes }

/-- `dictionary_get` on the mutex list. -/
def mutex (s : Queues) (id : String) : Option Mutex := lookupKey Mutex.id id s.mutexes

/-- `set_mutex_blocking`. -/
def setMutexBlocking (p : ℕ) (id : Option String) (s : Queues) : Queues :=
  s.modifyPcb p fun pcb => { pcb with blockingMutex := id }

/-- The change of the state field. -/
def setState (p : ℕ) (state : ProcessState) (s : Queues) : Queues :=
  s.modifyPcb p fun pcb => { pcb with state := state }

/-- The PCB that is changed. -/
@[simp] lemma modifyPcb_pcbs_self (p : ℕ) (f : Pcb → Pcb) (s : Queues) :
    (s.modifyPcb p f).pcbs p = f (s.pcbs p) := by
  simp [modifyPcb]

/-- The others stay. -/
@[simp] lemma modifyPcb_pcbs_of_ne {p q : ℕ} (h : q ≠ p) (f : Pcb → Pcb) (s : Queues) :
    (s.modifyPcb p f).pcbs q = s.pcbs q := by
  simp [modifyPcb, h]

/-- The mutexes stay. -/
@[simp] lemma modifyPcb_mutexes (p : ℕ) (f : Pcb → Pcb) (s : Queues) :
    (s.modifyPcb p f).mutexes = s.mutexes := rfl

/-- So does the next id. -/
@[simp] lemma modifyPcb_nextPid (p : ℕ) (f : Pcb → Pcb) (s : Queues) :
    (s.modifyPcb p f).nextPid = s.nextPid := rfl

/-- A change of a mutex leaves the PCBs. -/
@[simp] lemma modifyMutex_pcbs (id : String) (f : Mutex → Mutex) (s : Queues) :
    (s.modifyMutex id f).pcbs = s.pcbs := rfl

/-- And the next id. -/
@[simp] lemma modifyMutex_nextPid (id : String) (f : Mutex → Mutex) (s : Queues) :
    (s.modifyMutex id f).nextPid = s.nextPid := rfl

/-- Two changes of one mutex are one change. -/
lemma modifyMutex_modifyMutex (id : String) {f : Mutex → Mutex} (hf : ∀ m, (f m).id = m.id)
    (g : Mutex → Mutex) (s : Queues) :
    (s.modifyMutex id f).modifyMutex id g = s.modifyMutex id fun m => g (f m) := by
  have hlist := modifyKey_modifyKey (fun m hm => (hf m).trans hm : ∀ m, m.id = id → (f m).id = id)
    g s.mutexes
  simp only [modifyMutex, hlist]

/-- The other mutexes are as before. -/
lemma mutex_modifyMutex_of_ne {id id' : String} {f : Mutex → Mutex} (h : id' ≠ id)
    (hf : ∀ m, (f m).id = m.id) (s : Queues) : (s.modifyMutex id f).mutex id' = s.mutex id' :=
  lookupKey_modifyKey_of_ne (fun m hm => (hf m).trans hm) h

/-- The changed mutex. -/
lemma mutex_modifyMutex_self {id : String} {f : Mutex → Mutex} (hf : ∀ m, (f m).id = m.id)
    (s : Queues) : (s.modifyMutex id f).mutex id = (s.mutex id).map f :=
  lookupKey_modifyKey_self fun m hm => (hf m).trans hm

/-- A change that leaves the holder of a mutex. -/
lemma map_holder_modifyMutex (id : String) {f : Mutex → Mutex} (hf : ∀ m, (f m).id = m.id)
    (hcur : ∀ m, (f m).currentProcess = m.currentProcess) (s : Queues) :
    (s.modifyMutex id f).mutexes.map (fun m => (m.id, m.currentProcess)) =
      s.mutexes.map fun m => (m.id, m.currentProcess) := by
  rw [modifyMutex, modifyKey, List.map_map]
  refine List.map_congr_left fun m _ => ?_
  simp only [Function.comp_apply]
  split
  · rw [hf, hcur]
  · rfl

/-! ## The lists -/

/-- `transition_to_ready`. -/
def transitionToReady (p : ℕ) (s : Queues) : Option Queues :=
  (s.ready.add p (s.pcbs p).priority).map fun ready => { s with ready := ready }

/-- `transition_take_ready`. -/
def transitionTakeReady (p : ℕ) (s : Queues) : Option Queues :=
  (s.ready.take p (s.pcbs p).priority).map fun ready => { s with ready := ready }

/-- `update_lowest_exec_priority`. -/
def updateLowestExecPriority (s : Queues) : Queues :=
  { s with exec := { s.exec with
      lowestPriority := s.exec.list.foldl
        (fun lowest p => if lowest < (s.pcbs p).priority then (s.pcbs p).priority else lowest) 0 } }

/-- `transition_to_exec`. -/
def transitionToExec (p : ℕ) (s : Queues) : Queues :=
  { s with exec := { s.exec with
      list := s.exec.list ++ [p]
      lowestPriority :=
        if s.exec.preemption ∧ s.exec.lowestPriority < (s.pcbs p).priority then (s.pcbs p).priority
        else s.exec.lowestPriority } }

/-- `transition_take_exec`, its effect on the EXEC list. -/
def transitionTakeExec (p : ℕ) (s : Queues) : Queues :=
  let s := { s with exec := { s.exec with list := s.exec.list.erase p } }
  if s.exec.preemption then s.updateLowestExecPriority else s

/-- `transition_to_block`. -/
def transitionToBlock (p : ℕ) (s : Queues) : Queues := { s with block := s.block ++ [p] }

/-- `transition_take_block`. -/
def transitionTakeBlock (p : ℕ) (s : Queues) : Queues := { s with block := s.block.erase p }

/-- `transition_to_susp_block`. -/
def transitionToSuspBlock (p : ℕ) (s : Queues) : Queues :=
  { s with suspBlock := (insertPcbSorted s.pcbs p s.suspBlock).2 }

/-- `transition_take_susp_block`. -/
def transitionTakeSuspBlock (p : ℕ) (s : Queues) : Queues :=
  { s with suspBlock := s.suspBlock.erase p }

/-- `transition_to_susp_ready`. -/
def transitionToSuspReady (p : ℕ) (s : Queues) : Queues :=
  { s with suspReady := (insertPcbSorted s.pcbs p s.suspReady).2 }

/-- `transition_take_susp_ready`. -/
def transitionTakeSuspReady (p : ℕ) (s : Queues) : Queues :=
  { s with suspReady := s.suspReady.erase p }

/-! ## The transitions -/

/-- `update_priority`. -/
def updatePriority (p : ℕ) (s : Queues) : Option Queues :=
  if s.ready.multilevelQueue ∧ (s.pcbs p).state = .ready then
    (s.transitionTakeReady p).bind (transitionToReady p)
  else some s

/-- `transition_ready_exec`, the state field only. -/
def transitionReadyExec (p : ℕ) (s : Queues) : Queues :=
  if (s.pcbs p).state = .ready then s.setState p .exec else s

/-- The dispatch of `manage_request_process`: the next READY process enters EXEC. -/
def dispatch (s : Queues) : Option (ℕ × Queues) :=
  s.ready.takeNext.map fun (p, ready) =>
    (p, ({ s with ready := ready }.transitionReadyExec p).transitionToExec p)

/-- `transition_exec_ready`. -/
def transitionExecReady (p : ℕ) (s : Queues) : Option Queues :=
  if (s.pcbs p).state = .exec then
    ((s.setState p .ready).transitionTakeExec p).transitionToReady p
  else some s

/-- `transition_exec_block`. -/
def transitionExecBlock (p : ℕ) (s : Queues) : Queues :=
  if (s.pcbs p).state = .exec then
    ((s.setState p .block).transitionTakeExec p).transitionToBlock p
  else s

/-- `transition_unlock`: BLOCK to READY, or else SUSP. BLOCK to SUSP. READY. -/
def transitionUnlock (p : ℕ) (s : Queues) : Option Queues :=
  if (s.pcbs p).state = .block then
    ((s.setState p .ready).transitionTakeBlock p).transitionToReady p
  else if (s.pcbs p).state = .suspBlock then
    some (((s.setState p .suspReady).transitionTakeSuspBlock p).transitionToSuspReady p)
  else some s

/-- `transition_block_susp_block`, with the answer of Kernel Memory. -/
def transitionBlockSuspBlock (p : ℕ) (suspended : Bool) (s : Queues) : Queues :=
  if (s.pcbs p).state = .block ∧ suspended then
    ((s.setState p .suspBlock).transitionTakeBlock p).transitionToSuspBlock p
  else s

/-- `transition_susp_ready`, with the answer of Kernel Memory. -/
def transitionSuspReady (p : ℕ) (resumed : Bool) (s : Queues) : Option Queues :=
  if (s.pcbs p).state = .suspReady ∧ resumed then
    ((s.setState p .ready).transitionTakeSuspReady p).transitionToReady p
  else some s

/-- `transition_to_exit`: the PCB is destroyed. -/
def transitionToExit (p : ℕ) (s : Queues) : Queues :=
  s.modifyPcb p fun pcb => { pcb with state := .exit, destroyed := true }

/-- `transition_exec_exit`. -/
def transitionExecExit (p : ℕ) (s : Queues) : Queues :=
  if (s.pcbs p).state = .exec then
    ((s.setState p .exit).transitionTakeExec p).transitionToExit p
  else s

/-- `check_priority_valid`. -/
def checkPriorityValid (p : ℕ) (s : Queues) : Bool :=
  !s.ready.multilevelQueue || decide ((s.pcbs p).priority < s.ready.queues.length)

/-- `transition_new_ready`, with the answer of Kernel Memory: a new PCB, which enters READY unless
it is refused or its priority has no level. The priority is an `int`. -/
def transitionNewReady (priority : ℤ) (accepted : Bool) (s : Queues) : Option Queues :=
  if INT_MIN ≤ priority ∧ priority ≤ INT_MAX then
    let p := s.nextPid
    let s := { s with
      pcbs := Function.update s.pcbs p (createPcb .new priority)
      nextPid := p + 1 }
    if accepted ∧ s.checkPriorityValid p then (s.setState p .ready).transitionToReady p
    else some (s.transitionToExit p)
  else none

/-- The part of `manage_preemption_priority` that decides: the process is tied for the worst
priority in EXEC and READY has a better one. -/
def preemptionDue (p : ℕ) (s : Queues) : Bool :=
  s.exec.preemption && decide (s.exec.lowestPriority ≤ (s.pcbs p).priority) &&
    decide (s.ready.highestPriority < (s.pcbs p).priority)

/-- `manage_preemption_priority` on a CPU that runs `p`: the next READY process takes its place. -/
def managePreemptionPriority (p : ℕ) (s : Queues) : Option Queues :=
  if s.preemptionDue p then
    match s.ready.takeNext with
    | none => some s
    | some (newPcb, ready) =>
      (({ s with ready := ready } : Queues).transitionExecReady p).map fun s =>
        (s.transitionReadyExec newPcb).transitionToExec newPcb
  else some s

end Queues

end OsSimulator.Scheduler
