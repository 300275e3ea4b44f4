import OsSimulator.Memory.Wire
import OsSimulator.Scheduler.CompactionLocks
import OsSimulator.Scheduler.Pcb

set_option relaxedAutoImplicit false
set_option autoImplicit false

/-!
# Resuming suspended processes

The resumer, the threads of `resumption_routine` and everything that wakes them up: the calls of
`create_resumption_routine_thread` behind a `MEM_FREE`, a process that ends, a new stick and a
compaction, and what the suspender does behind a suspension. The threads ask Kernel Memory over one
connection, one at a time, and Kernel Memory answers in order, while its accept loop puts
`OP_NEW_MEMORY_STICK` between the answers.

What the answers say is left open. Kernel Memory counts what makes room in it: `epoch` is how often
memory has been freed or added there, and an answer carries the count at which it was given.

## Main definitions

* `Resuming`, `Resuming.step` — the threads with the connection, and one step of one of them.
* `Resuming.Quiescent`, `Resuming.NothingMissed` — the system at rest, and the property.
* `Resuming.Heeded` — the condition on a step.
-/

namespace OsSimulator.Scheduler

open Locks (ThreadState)
open Memory (RequestKind)

/-! ## The threads -/

/-- Where a thread is in `transition_susp_ready_no_mutex`: in front of the first question of
`can_resume_suspended`; in front of the second one, with the count of the first answer (C leaves
open which of the two comes first); in front of `OP_RESUME_SUSPENDED_PROCESS`; and behind it. -/
inductive AttemptStage
  | query
  | secondQuery (answered : ℕ)
  | resume
  | taking
  deriving DecidableEq, Repr

/-- The request that a thread sends there. -/
def AttemptStage.request : AttemptStage → Option RequestKind
  | .query => some .requestFreeMemory
  | .secondQuery _ => some .requestProcessSize
  | .resume => some .resumeSuspendedProcess
  | .taking => none

/-- How an attempt goes on behind an answer: with another stage, or it has failed by an answer of
the given count. -/
def AttemptStage.afterAnswer (stage : AttemptStage) (answered : ℕ) (ok : Bool) :
    AttemptStage ⊕ ℕ :=
  match stage with
  | .query => .inl (.secondQuery answered)
  | .secondQuery first => if ok then .inl .resume else .inr first
  | .resume => if ok then .inl .taking else .inr answered
  | .taking => .inl .taking

/-- Where the resumer is: at the `switch` of its loop; with a process it has picked, in front of the
`state_mutex` of the process; in the attempt; behind one that did not succeed; and in
`wait_process_susp_ready`, in front of the list, in `cnd_wait`, woken up there, and behind the
list. -/
inductive ResumerPhase
  | atSwitch
  | picked (p : ℕ)
  | attempting (p : ℕ) (stage : AttemptStage)
  | failed
  | waiting
  | parked
  | woken
  | rechecked (empty : Bool)
  deriving DecidableEq, Repr

/-- Where the thread of `resumption_routine` is that has set `resume_active`: in `routine_enter`; in
front of `lock_threads_suspended`; at the two tests of the loop; in `remove_of_the_list`, in front
of the list, with a process, and in the attempt; and in front of `set_is_resuming`. -/
inductive RoutinePhase
  | created
  | entered
  | testingList
  | testingCompaction
  | removing
  | picked (p : ℕ)
  | attempting (p : ℕ) (stage : AttemptStage)
  | clearing
  deriving DecidableEq, Repr

/-- Where the thread of `resumption_routine` is that has cleared `resume_active`. -/
inductive TailPhase
  | unlocking
  | leaving
  deriving DecidableEq, Repr

/-- Where the suspender is: elsewhere, or behind a suspension, at the tests of the two flags and in
front of `unlock_thread_suspended`. -/
inductive SuspenderPhase
  | elsewhere
  | testingCompaction
  | testingResume
  | unlocking
  deriving DecidableEq, Repr

/-! ## The connection -/

/-- Who waits for a reply. -/
inductive Asker
  | user (kind : RequestKind)
  | compaction
  | resumer
  | routine
  deriving DecidableEq, Repr

/-- Where the thread with the mutex of `km_socket` is: in front of a message; behind the payload of
a notice, in front of the call; behind `OP_MEMORY_FREED`, in front of the call; and in
`routine_compaction`, in front of `routine_enter`, of `lock_all`, of `OP_CAN_COMPACT`, of
`set_is_compacting`, of the call and of `routine_leave`. -/
inductive KmHolder
  | awaiting (asker : Asker)
  | noticed (asker : Asker)
  | freed
  | entering
  | locking
  | asking
  | clearing
  | calling
  | leaving
  deriving DecidableEq, Repr

/-- What Kernel Memory has still to read. -/
inductive Demand
  | request (kind : RequestKind)
  | canCompact
  | endProcess (sized : Bool)
  | running
  deriving DecidableEq, Repr

/-- How many messages the sender waits for. -/
def Demand.replies : Demand → ℕ
  | .request _ => 1
  | .canCompact => 2
  | .endProcess _ | .running => 0

/-- What the scheduler has still to read. -/
inductive KmMessage
  | notice
  | answer (epoch : ℕ) (ok : Bool)
  deriving DecidableEq, Repr

/-- The message is an answer, not a notice. -/
def KmMessage.isAnswer : KmMessage → Bool
  | .notice => false
  | .answer _ _ => true

/-- The resumer and the suspender, the routine with its flags, the thread with the mutex of
`km_socket` and the two directions of the connection. A process is in the state `PS_SUSP_READY` when
it is in `suspReady`. `tail` is a thread of `resumption_routine` behind `set_is_resuming`; `ending`
and `endingTested` count the threads in `transition_to_exit` that are in front of the two tests of
`create_resumption_routine_thread`; `adding` says that the accept loop is between
`OP_NEW_MEMORY_STICK` and `add_total_memory`; and `lastAnswer` is the count of the answer that
decided the last attempt of a process. -/
structure Resuming where
  suspReady : List ℕ
  resumerState : ThreadState
  resumer : ResumerPhase
  routine : Option RoutinePhase
  tail : Option TailPhase
  routineActive : Bool
  compactionActive : Bool
  suspender : SuspenderPhase
  ending : ℕ
  endingTested : ℕ
  holder : Option KmHolder
  demands : List Demand
  messages : List KmMessage
  adding : Bool
  epoch : ℕ
  lastAnswer : ℕ → Option ℕ

namespace Resuming

/-- `start_threads_suspended`, with an empty SUSP. READY. -/
def start : Resuming where
  suspReady := []
  resumerState := .running
  resumer := .atSwitch
  routine := none
  tail := none
  routineActive := false
  compactionActive := false
  suspender := .elsewhere
  ending := 0
  endingTested := 0
  holder := none
  demands := []
  messages := []
  adding := false
  epoch := 0
  lastAnswer := fun _ => none

/-- `resume_active`: the flag is set as long as its thread has not cleared it. -/
def resumeActive (s : Resuming) : Bool := s.routine.isSome

/-! ## The functions of the scheduler -/

/-- `set_is_resuming(queues, true)` with what follows it. -/
def setIsResuming (s : Resuming) : Resuming :=
  if s.resumeActive then s else { s with routine := some .created }

/-- `create_resumption_routine_thread`, where `compaction_active` does not change in between. -/
def createResumptionRoutineThread (s : Resuming) : Resuming :=
  if s.compactionActive then s else s.setIsResuming

/-- `cnd_signal` on the condition of SUSP. READY. -/
def signalProcess (s : Resuming) : Resuming :=
  if s.resumer = .parked then { s with resumer := .woken } else s

/-- `lock_thread_suspended` for the resumer. -/
def lockResumer (s : Resuming) : Resuming :=
  match s.resumerState with
  | .running => { s with resumerState := .blocked }
  | .waitingProcess => { s.signalProcess with resumerState := .blocked }
  | .blocked => s

/-- `unlock_thread_suspended` for the resumer. -/
def unlockResumer (s : Resuming) : Resuming :=
  if s.resumerState = .blocked then { s with resumerState := .running } else s

/-- A thread takes the mutex of `km_socket` and sends a request. -/
def ask (asker : Asker) (kind : RequestKind) (s : Resuming) : Option Resuming :=
  if s.holder = none then
    some { s with holder := some (.awaiting asker), demands := s.demands ++ [.request kind] }
  else none

/-- The `state_mutex` of a process is with the resumer. -/
def resumerAttempts (p : ℕ) (s : Resuming) : Bool :=
  match s.resumer with
  | .attempting q _ => p == q
  | _ => false

/-- The `state_mutex` of a process is with the routine. -/
def routineAttempts (p : ℕ) (s : Resuming) : Bool :=
  match s.routine with
  | some (.attempting q _) => p == q
  | _ => false

/-- `thread_resumer`. It has its own `state_mutex` at the `switch` up to the choice of a process. -/
def resumerStep (s : Resuming) : Option Resuming :=
  match s.resumer with
  | .atSwitch =>
    match s.resumerState with
    | .running =>
      match s.suspReady with
      | [] => some { s with resumerState := .waitingProcess }
      | p :: _ => some { s with resumer := .picked p }
    | .waitingProcess => some { s with resumer := .waiting }
    -- `wait_unlock` goes back to sleep as long as the state is this one
    | .blocked => none
  | .picked p =>
    if s.routineAttempts p then none
    else some { s with resumer := if p ∈ s.suspReady then .attempting p .query else .failed }
  | .attempting p stage =>
    match stage.request with
    | some kind => s.ask .resumer kind
    | none => some { s with resumer := .atSwitch, suspReady := s.suspReady.erase p }
  | .failed => some { s.lockResumer with resumer := .atSwitch }
  | .waiting =>
    some { s with resumer := if s.suspReady = [] then .parked else .rechecked false }
  | .parked => none
  | .woken => some { s with resumer := .rechecked s.suspReady.isEmpty }
  | .rechecked empty =>
    some { s with
      resumer := .atSwitch
      resumerState := if empty = false ∧ s.resumerState = .waitingProcess then .running
        else s.resumerState }

/-- `resumption_routine_thread` up to `set_is_resuming`. The first element of an empty list is a
null pointer, and `remove_of_the_list` does not get past it. -/
def routineStep (s : Resuming) : Option Resuming :=
  match s.routine with
  | none => none
  | some .created =>
    if s.routineActive then none
    else some { s with routine := some .entered, routineActive := true }
  | some .entered => some { s.lockResumer with routine := some .testingList }
  | some .testingList =>
    some { s with routine := some (if s.suspReady = [] then .clearing else .testingCompaction) }
  | some .testingCompaction =>
    some { s with routine := some (if s.compactionActive then .clearing else .removing) }
  | some .removing => s.suspReady.head?.map fun p => { s with routine := some (.picked p) }
  | some (.picked p) =>
    if s.resumerAttempts p then none
    else some { s with
      routine := some (if p ∈ s.suspReady then .attempting p .query else .testingList) }
  | some (.attempting p stage) =>
    match stage.request with
    | some kind => s.ask .routine kind
    | none => some { s with routine := some .testingList, suspReady := s.suspReady.erase p }
  | some .clearing => some { s with routine := none, tail := some .unlocking }

/-- `resumption_routine_thread` behind `set_is_resuming`. -/
def tailStep (s : Resuming) : Option Resuming :=
  match s.tail with
  | none => none
  | some .unlocking => some { s.unlockResumer with tail := some .leaving }
  | some .leaving => some { s with tail := none, routineActive := false }

/-- The suspender behind a suspension, in `transition_block_susp_block_no_mutex`. -/
def suspenderStep (s : Resuming) : Option Resuming :=
  match s.suspender with
  | .elsewhere => none
  | .testingCompaction =>
    some { s with suspender := if s.compactionActive then .elsewhere else .testingResume }
  | .testingResume =>
    some { s with suspender := if s.resumeActive then .elsewhere else .unlocking }
  | .unlocking => some { s.unlockResumer with suspender := .elsewhere }

/-- What the thread that waits for a reply does behind it. -/
def answered (asker : Asker) (epoch : ℕ) (ok : Bool) (s : Resuming) : Resuming :=
  match asker with
  | .user .createSegment =>
    -- otherwise the answer is `OP_COMPACTION_NEEDED`
    if ok then { s with holder := none }
    else if s.compactionActive then { s with holder := some (.awaiting (.user .createSegment)) }
    else { s with holder := some .entering, compactionActive := true }
  | .user .deleteSegment => { s with holder := some .freed }
  | .user .suspendProcess =>
    { s with holder := none, suspender := if ok then .testingCompaction else s.suspender }
  | .user _ => { s with holder := none }
  | .compaction => { s with holder := some .clearing }
  | .resumer =>
    match s.resumer with
    | .attempting p stage =>
      match stage.afterAnswer epoch ok with
      | .inl stage => { s with holder := none, resumer := .attempting p stage }
      | .inr epoch => { s with
          holder := none
          resumer := .failed
          lastAnswer := Function.update s.lastAnswer p (some epoch) }
    | _ => { s with holder := none }
  | .routine =>
    match s.routine with
    | some (.attempting p stage) =>
      match stage.afterAnswer epoch ok with
      | .inl stage => { s with holder := none, routine := some (.attempting p stage) }
      | .inr epoch => { s with
          holder := none
          routine := some .clearing
          lastAnswer := Function.update s.lastAnswer p (some epoch) }
    | _ => { s with holder := none }

/-- A round of `receive_km_opcode`. -/
def receive (s : Resuming) : Option Resuming :=
  match s.holder, s.messages with
  | some (.awaiting asker), .notice :: rest =>
    some { s with messages := rest, holder := some (.noticed asker) }
  | some (.awaiting asker), .answer epoch ok :: rest =>
    some ({ s with messages := rest }.answered asker epoch ok)
  | _, _ => none

/-- The thread with the mutex, where it does not wait for a message. -/
def holderStep (s : Resuming) : Option Resuming :=
  match s.holder with
  | some (.noticed asker) =>
    some { s.createResumptionRoutineThread with holder := some (.awaiting asker) }
  | some .freed => some { s.createResumptionRoutineThread with holder := none }
  | some .entering =>
    if s.routineActive then none
    else some { s with holder := some .locking, routineActive := true }
  | some .locking => some { s.lockResumer with holder := some .asking }
  | some .asking =>
    some { s with
      holder := some (.awaiting .compaction)
      demands := s.demands ++ [.canCompact] }
  | some .clearing => some { s with holder := some .calling, compactionActive := false }
  | some .calling => some { s.createResumptionRoutineThread with holder := some .leaving }
  | some .leaving =>
    some { s with holder := some (.awaiting (.user .createSegment)), routineActive := false }
  | _ => none

/-! ## Kernel Memory -/

/-- Whether serving a request makes room. -/
def makesRoom (kind : RequestKind) (ok : Bool) : Bool :=
  kind = .deleteSegment || kind = .suspendProcess && ok

/-- `listen_scheduler` serves a request. The compaction ends with `OP_COMPACTION_DONE`, and then the
answer to `OP_CREATE_SEGMENT` is still to come. -/
def serve (ok : Bool) (s : Resuming) : Option Resuming :=
  match s.demands with
  | [] => none
  | .request kind :: rest =>
    let epoch := if makesRoom kind ok then s.epoch + 1 else s.epoch
    some { s with
      demands := rest, epoch := epoch, messages := s.messages ++ [.answer epoch ok] }
  | .canCompact :: rest =>
    some { s with
      demands := .request .createSegment :: rest
      messages := s.messages ++ [.answer s.epoch true] }
  | .endProcess sized :: rest =>
    some { s with demands := rest, epoch := if sized then s.epoch + 1 else s.epoch }
  | .running :: rest => some { s with demands := rest }

/-! ## The steps -/

/-- What can happen. The first ten are steps of a thread that is under way. The others begin
something: a thread asks Kernel Memory for its own sake; a process ends, of which Kernel Memory has
reported a size or 0; the connection check sends its ping; a process becomes SUSP. READY, with the
PCBs as they are then; a stick has connected; and `cnd_wait` returns without a signal. -/
inductive Action
  | resumer
  | routine
  | tail
  | suspender
  | endTest
  | endCall
  | receive
  | holder
  | serve (ok : Bool)
  | addTotalMemory
  | request (kind : RequestKind)
  | endProcess (sized : Bool)
  | ping
  | toSuspReady (pcbs : ℕ → Pcb) (p : ℕ)
  | newMemoryStick
  | spurious

/-- The steps of the threads that are under way. -/
def Action.IsOwn : Action → Bool
  | .resumer | .routine | .tail | .suspender | .endTest | .endCall | .receive | .holder | .serve _
  | .addTotalMemory => true
  | .request _ | .endProcess _ | .ping | .toSuspReady _ _ | .newMemoryStick | .spurious => false

/-- One step of the system. -/
def step (s : Resuming) : Action → Option Resuming
  | .resumer => s.resumerStep
  | .routine => s.routineStep
  | .tail => s.tailStep
  | .suspender => s.suspenderStep
  | .endTest =>
    if 0 < s.ending then
      some { s with
        ending := s.ending - 1
        endingTested := if s.compactionActive then s.endingTested else s.endingTested + 1 }
    else none
  | .endCall =>
    if 0 < s.endingTested then
      some { s.setIsResuming with endingTested := s.endingTested - 1 }
    else none
  | .receive => s.receive
  | .holder => s.holderStep
  | .serve ok => s.serve ok
  | .addTotalMemory =>
    if s.adding then some { s with adding := false, epoch := s.epoch + 1 } else none
  | .request kind =>
    -- the suspender asks again only when it is done with the last suspension
    if kind.awaitsReply ∧ kind ≠ .resumeSuspendedProcess ∧
        (kind = .suspendProcess → s.suspender = .elsewhere) then
      s.ask (.user kind) kind
    else none
  | .endProcess sized =>
    -- `notify_terminate_process` gives the mutex back at once
    if s.holder = none then
      some { s with
        demands := s.demands ++ [.endProcess sized]
        ending := if sized then s.ending + 1 else s.ending }
    else none
  | .ping =>
    if s.holder = none then some { s with demands := s.demands ++ [.running] } else none
  | .toSuspReady pcbs p =>
    if p ∉ s.suspReady ∧ s.resumerAttempts p = false ∧ s.routineAttempts p = false then
      let s' := if s.suspReady = [] then s.signalProcess else s
      some { s' with suspReady := (insertPcbSorted pcbs p s.suspReady).2 }
    else none
  | .newMemoryStick =>
    if s.adding then none
    else some { s with messages := s.messages ++ [.notice], adding := true }
  | .spurious => if s.resumer = .parked then some { s with resumer := .woken } else none

/-! ## The property -/

/-- **At rest**: no thread can take a step and no request is outstanding. -/
def Quiescent (s : Resuming) : Prop :=
  s.holder = none ∧ s.demands = [] ∧ ∀ a : Action, a.IsOwn = true → s.step a = none

/-- **Nothing is missed**: at rest, and without a compaction, the last attempt of the first process
of SUSP. READY was answered after everything that made room, and no notice is unread. -/
def NothingMissed (s : Resuming) : Prop :=
  s.Quiescent → s.compactionActive = false → ∀ p ∈ s.suspReady.head?,
    s.lastAnswer p = some s.epoch ∧ KmMessage.notice ∉ s.messages

/-- The steps that a thread under way can take. -/
def ownActions : List Action :=
  [.resumer, .routine, .tail, .suspender, .endTest, .endCall, .receive, .holder, .serve false,
    .serve true, .addTotalMemory]

/-- Nothing is left to do by itself. -/
lemma quiescent_iff (s : Resuming) : s.Quiescent ↔
    s.holder = none ∧ s.demands = [] ∧ ∀ a ∈ ownActions, (s.step a).isNone = true := by
  refine and_congr_right fun _ => and_congr_right fun _ => ⟨fun h a ha => ?_, fun h a ha => ?_⟩
  · rw [Option.isNone_iff_eq_none]
    apply h
    simp only [ownActions, List.mem_cons, List.not_mem_nil, or_false] at ha
    rcases ha with rfl | rfl | rfl | rfl | rfl | rfl | rfl | rfl | rfl | rfl | rfl <;> rfl
  · rw [← Option.isNone_iff_eq_none]
    apply h
    cases a with
    | serve ok => cases ok <;> simp [ownActions]
    | request _ | endProcess _ | ping | toSuspReady _ _ | newMemoryStick | spurious =>
      exact absurd ha (by simp [Action.IsOwn])
    | _ => simp [ownActions]

instance (s : Resuming) : Decidable s.Quiescent := decidable_of_iff' _ s.quiescent_iff

instance (s : Resuming) : Decidable s.NothingMissed := inferInstanceAs (Decidable (_ → _ → _))

end Resuming

end OsSimulator.Scheduler
