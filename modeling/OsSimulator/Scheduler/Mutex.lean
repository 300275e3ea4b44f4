import OsSimulator.Scheduler.Queues

set_option relaxedAutoImplicit false
set_option autoImplicit false

/-!
# Mutexes with priority inheritance

The functions of `syscalls/mutex.c`. A call is one atomic operation that returns or does not:
`replace_priority` and `propagate_priority_transitive` follow the chain of holders with the locks
of the mutexes on it held, and a lock that the same call already owns is waited for forever. The
other ways not to return are a null holder and a holder whose PCB has been freed.

## Main definitions

* `replacePriority`, `propagatePriorityTransitive` — the inheritance chain.
* `mutexLock`, `mutexUnlock`, `createAndAddMutex`, `listMutexLock`, `listMutexUnlock` — the calls.
* `handleSyscallMutexCreate`, `handleSyscallMutexLock`, `handleSyscallMutexUnlock` — the handlers
  of the CPU thread, which end the process when a call fails.
-/

namespace OsSimulator.Scheduler

/-- The results of the calls (`t_mutex_result`). -/
inductive MutexResult
  | mutexCreated
  | mutexNameAlreadyExists
  | mutexNameNotFound
  | mutexLocked
  | waitingMutex
  | mutexUnlocked
  | processHasNoLockedMutex
  deriving DecidableEq, Repr

/-- `create_mutex`. -/
def createMutex (id : String) (priorityActive : Bool) : Mutex where
  id := id
  nextPriority := INT_MAX
  priorityActive := priorityActive
  list := []
  currentProcess := none
  state := 1

/-- `has_higher_priority_than`. -/
def hasHigherPriorityThan (p1 p2 : ℤ) : Bool := decide (p1 < p2)

/-- `list_add_sorted` on a priority list. -/
def addPriority (priority : ℤ) (list : List ℤ) : List ℤ :=
  (listAddSorted hasHigherPriorityThan priority list).2

/-- The first entry of a priority list, which is never empty. -/
def firstPriority (list : List ℤ) : ℤ := list.headD INT_MAX

namespace Queues

/-- `insert_priority`. -/
def insertPriority (p : ℕ) (priority : ℤ) (s : Queues) : Queues :=
  s.modifyPcb p fun pcb =>
    { pcb with
      priorityList := addPriority priority pcb.priorityList
      priority := if priority < pcb.priority then priority else pcb.priority }

/-- `remove_priority`, with whether the priority of the process changed. -/
def removePriority (p : ℕ) (priority : ℤ) (s : Queues) : Bool × Queues :=
  let list := (s.pcbs p).priorityList.erase priority
  (decide ((s.pcbs p).priority ≠ firstPriority list),
    s.modifyPcb p fun pcb => { pcb with priorityList := list, priority := firstPriority list })

/-- The part of `replace_priority` under the PCB's lock: the entry is replaced and the priority is
the first entry again. -/
def replaceEntry (p : ℕ) (oldPriority priorityNew : ℤ) (s : Queues) : Queues :=
  s.modifyPcb p fun pcb =>
    let list := addPriority priorityNew (pcb.priorityList.erase oldPriority)
    { pcb with priorityList := list, priority := firstPriority list }

/-- `replace_priority`, given the function that propagates a changed priority. -/
def replacePriorityWith (propagate : ℕ → ℤ → Queues → Option Queues) (p : ℕ)
    (oldPriority priorityNew : ℤ) (s : Queues) : Option Queues :=
  if (s.pcbs p).destroyed then none
  else
    let s' := s.replaceEntry p oldPriority priorityNew
    if (s'.pcbs p).priority ≠ (s.pcbs p).priority then
      (s'.updatePriority p).bind (propagate p (s'.pcbs p).priority)
    else some s'

/-- `propagate_priority_transitive`, with the ids of the mutexes whose locks the call holds. Every
round locks one mutex more, so there are never more rounds than mutexes. -/
def propagatePriorityTransitive :
    ℕ → List String → ℕ → ℤ → Queues → Option Queues
  | 0, _, _, _, _ => none
  | rounds + 1, locked, p, priorityNew, s =>
    match (s.pcbs p).blockingMutex with
    | none => some s
    | some id =>
      if id ∈ locked then none
      else match s.mutex id with
      | none => none
      | some expectedMutex =>
        if ¬ expectedMutex.priorityActive ∨ p ∉ expectedMutex.list then some s
        else
          let inserted := insertPcbSorted s.pcbs p (expectedMutex.list.erase p)
          let s := s.modifyMutex id fun m => { m with list := inserted.2 }
          if inserted.1 = 0 ∧ priorityNew ≠ expectedMutex.nextPriority then
            match expectedMutex.currentProcess with
            | none => none
            | some holder =>
              replacePriorityWith (propagatePriorityTransitive rounds (id :: locked)) holder
                expectedMutex.nextPriority priorityNew
                (s.modifyMutex id fun m => { m with nextPriority := priorityNew })
          else some s

/-- `replace_priority` in a call that holds the locks of the mutexes in `locked`. -/
def replacePriority (locked : List String) (p : ℕ) (oldPriority priorityNew : ℤ) (s : Queues) :
    Option Queues :=
  replacePriorityWith (propagatePriorityTransitive (s.mutexes.length + 1) locked) p oldPriority
    priorityNew s

/-- The common end of the waiting branches of `mutex_lock`. -/
def waitForMutex (id : String) (p : ℕ) (s : Queues) : Queues :=
  ((s.setMutexBlocking p (some id)).transitionExecBlock p).modifyMutex id fun m =>
    { m with state := m.state - 1 }

/-- `mutex_lock`. -/
def mutexLock (mutex : Mutex) (p : ℕ) (s : Queues) : Option (MutexResult × Queues) :=
  let priorityPcb := (s.pcbs p).priority
  if mutex.state = 1 then
    let s := s.modifyMutex mutex.id fun m =>
      { m with currentProcess := some p, nextPriority := INT_MAX, state := m.state - 1 }
    some (.mutexLocked, s.insertPriority p INT_MAX)
  else if mutex.priorityActive then
    let inserted := insertPcbSorted s.pcbs p mutex.list
    let s := s.modifyMutex mutex.id fun m => { m with list := inserted.2 }
    if inserted.1 = 0 then
      match mutex.currentProcess with
      | none => none
      | some holder =>
        (s.replacePriority [mutex.id] holder mutex.nextPriority priorityPcb).map fun s =>
          let s := s.modifyMutex mutex.id fun m => { m with nextPriority := priorityPcb }
          (.waitingMutex, s.updateLowestExecPriority.waitForMutex mutex.id p)
    else some (.waitingMutex, s.waitForMutex mutex.id p)
  else
    let s := s.modifyMutex mutex.id fun m => { m with list := m.list ++ [p] }
    some (.waitingMutex, s.waitForMutex mutex.id p)

/-- The hand-over of `mutex_unlock` to the first waiting process. Its new entry is the priority of
the process that now waits first, which the state of the mutex says to be there or not. -/
def handOver (mutex : Mutex) (next : ℕ) (rest : List ℕ) (s : Queues) : Option Queues :=
  let s := s.modifyMutex mutex.id fun m => { m with currentProcess := some next, list := rest }
  let s := s.setMutexBlocking next none
  let inherited : Option Queues :=
    if mutex.priorityActive then
      let nextPriority : Option ℤ :=
        if mutex.state = -1 then some INT_MAX
        else rest.head?.map fun first => (s.pcbs first).priority
      nextPriority.map fun nextPriority =>
        (s.modifyMutex mutex.id fun m => { m with nextPriority := nextPriority }).insertPriority next
          nextPriority
    else some s
  inherited.bind (transitionUnlock next)

/-- `mutex_unlock`. -/
def mutexUnlock (mutex : Mutex) (p : ℕ) (s : Queues) : Option (MutexResult × Queues) :=
  if mutex.currentProcess ≠ some p then some (.processHasNoLockedMutex, s)
  else
    let s :=
      if mutex.priorityActive then
        let removed := s.removePriority p mutex.nextPriority
        if removed.1 then removed.2.updateLowestExecPriority else removed.2
      else s
    let released : Option Queues :=
      if mutex.state = 0 then
        some (s.modifyMutex mutex.id fun m =>
          { m with currentProcess := none, nextPriority := INT_MAX })
      else if mutex.state < 0 then
        match mutex.list with
        | [] => none
        | next :: rest => s.handOver mutex next rest
      else some s
    released.map fun s =>
      (.mutexUnlocked, s.modifyMutex mutex.id fun m => { m with state := m.state + 1 })

/-- `create_and_add_mutex`. -/
def createAndAddMutex (id : String) (priorityActive : Bool) (s : Queues) : MutexResult × Queues :=
  match s.mutex id with
  | some _ => (.mutexNameAlreadyExists, s)
  | none => (.mutexCreated, { s with mutexes := createMutex id priorityActive :: s.mutexes })

/-- `list_mutex_lock`. -/
def listMutexLock (id : String) (p : ℕ) (s : Queues) : Option (MutexResult × Queues) :=
  match s.mutex id with
  | none => some (.mutexNameNotFound, s)
  | some mutex => s.mutexLock mutex p

/-- `list_mutex_unlock`. -/
def listMutexUnlock (id : String) (p : ℕ) (s : Queues) : Option (MutexResult × Queues) :=
  match s.mutex id with
  | none => some (.mutexNameNotFound, s)
  | some mutex => s.mutexUnlock mutex p

/-! ## The syscall handlers -/

/-- The handlers end the process when the call failed (`PER_MUTEX_NAME_ALREADY_EXISTS`,
`PER_MUTEX_NAME_NOT_FOUND`, `PER_PROCESS_HAS_NO_LOCKED_MUTEX`). -/
def endOnFailure (p : ℕ) (called : MutexResult × Queues) : Queues :=
  match called.1 with
  | .mutexNameAlreadyExists => called.2.transitionExecExit p
  | .mutexNameNotFound => called.2.transitionExecExit p
  | .processHasNoLockedMutex => called.2.transitionExecExit p
  | _ => called.2

/-- `handle_syscall_mutex_create`. -/
def handleSyscallMutexCreate (id : String) (p : ℕ) (s : Queues) : Queues :=
  endOnFailure p (s.createAndAddMutex id true)

/-- `handle_syscall_mutex_lock`. -/
def handleSyscallMutexLock (id : String) (p : ℕ) (s : Queues) : Option Queues :=
  (s.listMutexLock id p).map (endOnFailure p)

/-- `handle_syscall_mutex_unlock`. -/
def handleSyscallMutexUnlock (id : String) (p : ℕ) (s : Queues) : Option Queues :=
  (s.listMutexUnlock id p).map (endOnFailure p)

end Queues

end OsSimulator.Scheduler
