import OsSimulator.Scheduler.Relocking
import OsSimulator.Scheduler.Termination

set_option relaxedAutoImplicit false
set_option autoImplicit false

/-!
# Priorities as indexes

`transition_to_ready`, `transition_take_ready` and `get_algorithm_ready_queue` use a priority as an
index of `queues[]`, and none of them tests it. The only test is `check_priority_valid` at the
creation of a process, which has an upper bound and no lower one.

## Main definitions

* `manageEndQuantum` — the quantum check of a CPU thread, which asks for the algorithm of a level.
* `SchedulerCall`, `callStep` — the operations of the scheduler and the quantum check.
* `IndexesOutOfRange` — a call that is made and has no result, since it leaves the array.

## Main results

* `indexed_iff_of_reachable` — READY and EXEC only have priorities of a level, and the one call that
  leaves the array is the creation of a process with a negative priority.
-/

namespace OsSimulator.Scheduler

open Queues

/-- `get_algorithm_ready_queue`. -/
def ReadyQueue.getAlgorithm (ready : ReadyQueue) (priority : ℤ) : Option SchedulingAlgorithm :=
  if 0 ≤ ready.level priority then
    ready.queues[(ready.level priority).toNat]?.map ReadySubqueue.algorithm
  else none

/-- `manage_end_quantum` on a CPU that runs `p`; whether the quantum has ended is up to the
clock. -/
def Queues.manageEndQuantum (p : ℕ) (quantumEnded : Bool) (s : Queues) : Option Queues :=
  if s.ready.readyProcessCount = 0 then some s
  else (s.ready.getAlgorithm (s.pcbs p).priority).bind fun algorithm =>
    if algorithm = .rr ∧ quantumEnded then s.transitionExecReady p else some s

/-- What is called: an operation of the scheduler, or the quantum check. -/
inductive SchedulerCall
  | action (a : Action)
  | endQuantum (p : ℕ) (quantumEnded : Bool)
  deriving DecidableEq, Repr

/-- One call; `none` when it is not made or does not return. -/
def callStep (s : Queues) : SchedulerCall → Option Queues
  | .action a => step s a
  | .endQuantum p quantumEnded =>
    if (s.pcbs p).state ≠ .new ∧ (s.pcbs p).state ≠ .exit then s.manageEndQuantum p quantumEnded
    else none

/-- The call can be made: a new priority is an `int`, a dispatch finds a process, a mutex call is
made by a running process, an IO interface unblocks nobody who waits for a mutex, and the quantum
check is for a process that has not ended. -/
def Made (s : Queues) : SchedulerCall → Prop
  | .action (.newReady priority _) => INT_MIN ≤ priority ∧ priority ≤ INT_MAX
  | .action .dispatch => s.ready.takeNext ≠ none
  | .action (.unlock p) => (s.pcbs p).blockingMutex = none
  | .action (.mutexCreate _ p) => (s.pcbs p).state = .exec
  | .action (.mutexLock _ p) => (s.pcbs p).state = .exec
  | .action (.mutexUnlock _ p) => (s.pcbs p).state = .exec
  | .action _ => True
  | .endQuantum p _ => (s.pcbs p).state.Live

/-- The call is stuck on the chain of holders: it waits for a lock that it owns, or uses a freed
PCB. -/
def StuckOnHolders (s : Queues) : SchedulerCall → Prop
  | .action (.mutexLock id p) => Relocks s id p ∨ MeetsEnded s id p
  | _ => False

/-- **The call leaves the array of levels**: it is made, it is not stuck on the chain of holders,
and yet it has no result. -/
def IndexesOutOfRange (s : Queues) (c : SchedulerCall) : Prop :=
  Made s c ∧ ¬ StuckOnHolders s c ∧ callStep s c = none

/-- A priority of one of the levels. -/
def InRange (s : Queues) (priority : ℤ) : Prop := 0 ≤ priority ∧ priority < s.ready.queues.length

/-- A process that the call creates with a priority of no level is ended at once. -/
def EndsOutside (s : Queues) (c : SchedulerCall) : Prop :=
  ∀ priority accepted, c = .action (.newReady priority accepted) → ¬ InRange s priority →
    ∃ s', callStep s c = some s' ∧ (s'.pcbs s.nextPid).basePriority = priority ∧
      (s'.pcbs s.nextPid).state = .exit

/-- The call creates a process with a negative priority, and Kernel Memory accepts it. -/
def CreatesNegative : SchedulerCall → Prop
  | .action (.newReady priority accepted) => priority < 0 ∧ accepted = true
  | _ => False

/-! ## The quantum check -/

section Quantum

variable {p : ℕ} {s s' : Queues} {ended : Bool}

/-- The quantum check does nothing or sends the process back to READY. -/
lemma manageEndQuantum_spec (h : s.manageEndQuantum p ended = some s') :
    s' = s ∨ s.transitionExecReady p = some s' := by
  unfold manageEndQuantum at h
  split at h
  · exact .inl (Option.some.inj h).symm
  · obtain ⟨algorithm, -, hrest⟩ := Option.bind_eq_some_iff.1 h
    split at hrest
    · exact .inr hrest
    · exact .inl (Option.some.inj hrest).symm

/-- The calls go through the states of the operations. -/
lemma reachable_of_callStep {multilevel : Bool} {algorithms : List SchedulingAlgorithm}
    {preemption : Bool}
    (h : Reachable callStep (initQueues multilevel algorithms preemption) s) :
    Reachable step (initQueues multilevel algorithms preemption) s := by
  induction h with
  | refl => exact .refl
  | tail c _ _ hcall ih =>
    cases c with
    | action a => exact .tail a ih trivial hcall
    | endQuantum p ended =>
      simp only [callStep] at hcall
      split at hcall
      · rcases manageEndQuantum_spec hcall with rfl | hready
        · exact ih
        · exact .tail (.execReady p) ih trivial hready
      · exact absurd hcall (by simp)

end Quantum

/-! ## With a level, every call returns -/

section Returns

variable {p : ℕ} {s : Queues}

/-- The algorithm of a level. -/
lemma ReadyQueue.HasLevel.exists_getAlgorithm {ready : ReadyQueue} {priority : ℤ}
    (h : ready.HasLevel priority) : ∃ algorithm, ready.getAlgorithm priority = some algorithm := by
  obtain ⟨hpos, hlt⟩ := h
  have hindex : (ready.level priority).toNat < ready.queues.length := by omega
  rw [getAlgorithm, if_pos hpos, List.getElem?_eq_getElem hindex, Option.map_some]
  exact ⟨_, rfl⟩

/-- With a level for its priority a process goes back to READY. -/
lemma exists_transitionExecReady
    (hlevel : (s.pcbs p).state = .exec → s.ready.HasLevel (s.pcbs p).priority) :
    ∃ s', s.transitionExecReady p = some s' := by
  unfold transitionExecReady
  split
  · rename_i hexec
    obtain ⟨exec, htake⟩ := transitionTakeExec_eq p (s.setState p .ready)
    rw [htake]
    exact exists_transitionToReady (hlevel hexec) rfl (priority_setState p .ready s)
  · exact ⟨s, rfl⟩

/-- So does one that is brought back. -/
lemma exists_transitionSuspReady (resumed : Bool)
    (hlevel : (s.pcbs p).state = .suspReady → s.ready.HasLevel (s.pcbs p).priority) :
    ∃ s', s.transitionSuspReady p resumed = some s' := by
  unfold transitionSuspReady
  split
  · rename_i hsusp
    exact exists_transitionToReady (hlevel hsusp.1) rfl (priority_setState p .ready s)
  · exact ⟨s, rfl⟩

/-- So does one that is preempted by a better one. -/
lemma exists_managePreemptionPriority
    (hlevel : (s.pcbs p).state = .exec → s.ready.HasLevel (s.pcbs p).priority) :
    ∃ s', s.managePreemptionPriority p = some s' := by
  unfold managePreemptionPriority
  split
  · split
    · exact ⟨s, rfl⟩
    · rename_i newPcb ready htake
      have hexec : ∃ t, ({ s with ready := ready } : Queues).transitionExecReady p = some t :=
        exists_transitionExecReady fun hstate =>
          (hlevel hstate).congr (ReadyQueue.levels_takeNext htake)
      obtain ⟨t, ht⟩ := hexec
      rw [ht, Option.map_some]
      exact ⟨_, rfl⟩
  · exact ⟨s, rfl⟩

/-- So does one whose quantum is over. -/
lemma exists_manageEndQuantum (ended : Bool)
    (hlevel : s.ready.HasLevel (s.pcbs p).priority) :
    ∃ s', s.manageEndQuantum p ended = some s' := by
  obtain ⟨algorithm, halgorithm⟩ := hlevel.exists_getAlgorithm
  unfold manageEndQuantum
  split
  · exact ⟨s, rfl⟩
  · rw [halgorithm, Option.bind_some]
    split
    · exact exists_transitionExecReady fun _ => hlevel
    · exact ⟨s, rfl⟩

end Returns

/-! ## The creation of a process -/

section Creation

variable {s : Queues} {priority : ℤ}

/-- **The creation of a process** with a priority of no level, in the multilevel configuration: it
is ended, unless the priority is negative and Kernel Memory accepts it; then there is no result. -/
lemma transitionNewReady_of_not_inRange {accepted : Bool} (hmultilevel : s.ready.multilevelQueue = true)
    (hint : INT_MIN ≤ priority ∧ priority ≤ INT_MAX) (hout : ¬ InRange s priority) :
    (priority < 0 ∧ accepted = true ∧ s.transitionNewReady priority accepted = none) ∨
      (¬ (priority < 0 ∧ accepted = true) ∧
        ∃ s', s.transitionNewReady priority accepted = some s' ∧
          (s'.pcbs s.nextPid).basePriority = priority ∧ (s'.pcbs s.nextPid).state = .exit) := by
  unfold transitionNewReady
  rw [if_pos hint]
  simp only
  set t : Queues := { s with
    pcbs := Function.update s.pcbs s.nextPid (createPcb .new priority)
    nextPid := s.nextPid + 1 } with ht
  have hself : t.pcbs s.nextPid = createPcb .new priority := Function.update_self ..
  have hcheck : t.checkPriorityValid s.nextPid = true ↔ priority < s.ready.queues.length := by
    rw [checkPriorityValid, hself]
    simp [ht, hmultilevel, createPcb]
  by_cases haccepted : accepted = true ∧ t.checkPriorityValid s.nextPid = true
  · have hneg : priority < 0 := by
      by_contra hpos
      exact hout ⟨not_lt.1 hpos, hcheck.1 haccepted.2⟩
    refine .inl ⟨hneg, haccepted.1, ?_⟩
    rw [if_pos haccepted, transitionToReady, priority_setState, hself, Option.map_eq_none_iff,
      ReadyQueue.add, Option.map_eq_none_iff, ReadyQueue.modifyAt, if_neg]
    rw [ReadyQueue.level, if_pos (by exact hmultilevel)]
    exact fun hbound => absurd hbound.1 (not_le.2 hneg)
  · rw [if_neg haccepted]
    refine .inr ⟨?_, _, rfl, ?_, ?_⟩
    · rintro ⟨hneg, hyes⟩
      refine haccepted ⟨hyes, hcheck.2 ?_⟩
      omega
    · rw [transitionToExit, modifyPcb_pcbs_self, hself]
      rfl
    · rw [transitionToExit, modifyPcb_pcbs_self]

/-- A creation with a priority of a level returns. -/
lemma exists_transitionNewReady (accepted : Bool) (hmultilevel : s.ready.multilevelQueue = true)
    (hint : INT_MIN ≤ priority ∧ priority ≤ INT_MAX) (hin : InRange s priority) :
    ∃ s', s.transitionNewReady priority accepted = some s' := by
  unfold transitionNewReady
  rw [if_pos hint]
  simp only
  set t : Queues := { s with
    pcbs := Function.update s.pcbs s.nextPid (createPcb .new priority)
    nextPid := s.nextPid + 1 } with ht
  have hself : t.pcbs s.nextPid = createPcb .new priority := Function.update_self ..
  split
  · refine exists_transitionToReady (s := t) ?_ rfl (priority_setState _ .ready t)
    rw [hself, ReadyQueue.HasLevel, ReadyQueue.level, if_pos (by exact hmultilevel)]
    exact hin
  · exact ⟨_, rfl⟩

end Creation

/-! ## The configuration -/

section Configuration

variable {s : Queues}

/-- The run lemma. -/
lemma levels_of_reachable {multilevel : Bool} {algorithms : List SchedulingAlgorithm}
    {preemption : Bool} (h : Reachable step (initQueues multilevel algorithms preemption) s) :
    s.ready.levels = (multilevel, algorithms.length) := by
  refine (h.invariant (I := fun t => Inheriting t ∧ t.ready.levels = (multilevel, algorithms.length))
    ⟨inheriting_init multilevel algorithms preemption, ?_⟩ fun t a t' ht _ hstep =>
      ⟨inheriting_step ht.1 hstep, (levels_step ht.1 hstep).trans ht.2⟩).2
  simp [initQueues, ReadyQueue.init, ReadyQueue.levels]

end Configuration

/-! ## The runs -/

section Runs

variable {s : Queues} {c : SchedulerCall}

/-- In the multilevel configuration a level is an index of the array. -/
lemma hasLevel_iff_inRange (hmultilevel : s.ready.multilevelQueue = true) (priority : ℤ) :
    s.ready.HasLevel priority ↔ InRange s priority := by
  rw [ReadyQueue.HasLevel, ReadyQueue.level, if_pos hmultilevel, InRange]

/-- **A call that is made returns**, when it creates no process, and is not stuck on the holders. -/
lemma exists_callStep (hi : Inheriting s) (hl : Levelled s) (hmade : Made s c)
    (hnew : ∀ priority accepted, c ≠ .action (.newReady priority accepted))
    (hstuck : ¬ StuckOnHolders s c) : ∃ s', callStep s c = some s' := by
  have hlevel : ∀ {p : ℕ} {state : ProcessState}, (s.pcbs p).state = state → state.Live →
      s.ready.HasLevel (s.pcbs p).priority := fun hstate hlive => hl.priority _ (hstate ▸ hlive)
  cases c with
  | endQuantum p ended =>
    have hlive : (s.pcbs p).state ≠ .new ∧ (s.pcbs p).state ≠ .exit := hmade
    simp only [callStep]
    rw [if_pos hlive]
    exact exists_manageEndQuantum ended (hl.priority p hmade)
  | action a =>
    cases a with
    | newReady priority accepted => exact absurd rfl (hnew priority accepted)
    | dispatch =>
      obtain ⟨⟨q, ready⟩, htake⟩ := Option.ne_none_iff_exists'.1 hmade
      simp only [callStep, step]
      rw [dispatch, htake, Option.map_some, Option.map_some]
      exact ⟨_, rfl⟩
    | execReady p =>
      exact exists_transitionExecReady fun hexec => hlevel hexec ⟨by decide, by decide⟩
    | preemptionPriority p =>
      exact exists_managePreemptionPriority fun hexec => hlevel hexec ⟨by decide, by decide⟩
    | execBlock p => exact ⟨_, rfl⟩
    | unlock p =>
      have hwaits : (s.pcbs p).blockingMutex = none := hmade
      simp only [callStep, step]
      rw [if_pos hwaits]
      exact exists_transitionUnlock fun hblock => hlevel hblock ⟨by decide, by decide⟩
    | blockSuspBlock p suspended => exact ⟨_, rfl⟩
    | suspReady p resumed =>
      exact exists_transitionSuspReady resumed fun hsusp => hlevel hsusp ⟨by decide, by decide⟩
    | execExit p => exact ⟨_, rfl⟩
    | mutexCreate id p =>
      have hexec : (s.pcbs p).state = .exec := hmade
      simp only [callStep, step]
      rw [if_pos hexec]
      exact ⟨_, rfl⟩
    | mutexLock id p =>
      have hexec : (s.pcbs p).state = .exec := hmade
      simp only [callStep, step]
      rw [if_pos hexec]
      rw [StuckOnHolders, ← getsStuck_climbStart] at hstuck
      have hreturns : (s.listMutexLock id p).isSome = true := by
        unfold listMutexLock
        split
        · rfl
        · rename_i m hm
          obtain ⟨rfl, hmem⟩ := lookupKey_eq_some hm
          exact (mutexLock_isSome_iff hi hl hmem hexec).2 hstuck
      obtain ⟨called, hcalled⟩ := Option.isSome_iff_exists.1 hreturns
      rw [hcalled]
      exact ⟨_, rfl⟩
    | mutexUnlock id p =>
      have hexec : (s.pcbs p).state = .exec := hmade
      simp only [callStep, step]
      rw [if_pos hexec]
      have hreturns : ∃ called, s.listMutexUnlock id p = some called := by
        unfold listMutexUnlock
        split
        · exact ⟨_, rfl⟩
        · rename_i m hm
          by_cases hcur : m.currentProcess = some p
          · obtain ⟨s', hrun⟩ := exists_mutexUnlock hi hl (lookupKey_eq_some hm).2 hcur
              (hexec ▸ ⟨by decide, by decide⟩)
            exact ⟨_, hrun⟩
          · exact ⟨_, if_pos hcur⟩
      obtain ⟨called, hcalled⟩ := hreturns
      rw [hcalled]
      exact ⟨_, rfl⟩

/-- **The priorities of READY and EXEC index the levels**, and no process is scheduled that was
created with another one; a call keeps to the array, and ends a process created outside it, if and
only if it does not create a process with a negative priority that Kernel Memory accepts. This is so
along every run in the multilevel configuration, with any number of levels. -/
theorem indexed_iff_of_reachable {algorithms : List SchedulingAlgorithm} {preemption : Bool}
    (h : Reachable callStep (initQueues true algorithms preemption) s) :
    s.ready.queues.length = algorithms.length ∧
    (∀ p, (s.pcbs p).state = .ready ∨ (s.pcbs p).state = .exec → InRange s (s.pcbs p).priority) ∧
    (∀ p, ¬ InRange s (s.pcbs p).basePriority →
      (s.pcbs p).state ≠ .ready ∧ (s.pcbs p).state ≠ .exec) ∧
    ∀ c, Made s c → ((¬ IndexesOutOfRange s c ∧ EndsOutside s c) ↔ ¬ CreatesNegative c) := by
  have hsteps := reachable_of_callStep h
  have hi := inheriting_of_reachable hsteps
  have hl := levelled_of_reachable hsteps
  obtain ⟨hmultilevel, hlength⟩ := Prod.mk.inj (levels_of_reachable hsteps)
  have hlive : ∀ p, (s.pcbs p).state = .ready ∨ (s.pcbs p).state = .exec →
      (s.pcbs p).state.Live := by
    rintro p (hstate | hstate) <;> rw [hstate] <;> exact ⟨by decide, by decide⟩
  refine ⟨hlength, fun p hp => ?_, fun p hp => ?_, fun c hmade => ?_⟩
  · exact (hasLevel_iff_inRange hmultilevel _).1 (hl.priority p (hlive p hp))
  · have hnot : ¬ (s.pcbs p).state.Live := fun hp' =>
      hp ((hasLevel_iff_inRange hmultilevel _).1 (hl.base p hp'))
    exact ⟨fun hstate => hnot (hlive p (.inl hstate)), fun hstate => hnot (hlive p (.inr hstate))⟩
  by_cases hcreates : ∃ priority accepted, c = .action (.newReady priority accepted)
  · obtain ⟨priority, accepted, rfl⟩ := hcreates
    by_cases hin : InRange s priority
    · -- a level of the array
      obtain ⟨s', hs'⟩ := exists_transitionNewReady accepted hmultilevel hmade hin
      refine iff_of_true ⟨?_, ?_⟩ fun hneg => absurd hin.1 (not_le.2 hneg.1)
      · rintro ⟨-, -, hnone⟩
        exact absurd (hs'.symm.trans hnone) (by simp)
      · rintro priority' accepted' heq hout
        obtain ⟨rfl, -⟩ := Action.newReady.inj (SchedulerCall.action.inj heq)
        exact absurd hin hout
    · rcases transitionNewReady_of_not_inRange hmultilevel hmade hin with
        ⟨hneg, haccepted, hnone⟩ | ⟨hnot, s', hs', hbase, hstate⟩
      · exact iff_of_false (fun hok => hok.1 ⟨hmade, id, hnone⟩) (not_not.2 ⟨hneg, haccepted⟩)
      · refine iff_of_true ⟨?_, ?_⟩ hnot
        · rintro ⟨-, -, hnone⟩
          exact absurd (hs'.symm.trans hnone) (by simp)
        · rintro priority' accepted' heq -
          obtain ⟨rfl, rfl⟩ := Action.newReady.inj (SchedulerCall.action.inj heq)
          exact ⟨s', hs', hbase, hstate⟩
  · have hnew : ∀ priority accepted, c ≠ .action (.newReady priority accepted) :=
      fun priority accepted heq => hcreates ⟨priority, accepted, heq⟩
    refine iff_of_true ⟨?_, fun priority accepted heq => absurd heq (hnew priority accepted)⟩ ?_
    · rintro ⟨-, hstuck, hnone⟩
      obtain ⟨s', hs'⟩ := exists_callStep hi hl hmade hnew hstuck
      exact absurd (hs'.symm.trans hnone) (by simp)
    · cases c with
      | endQuantum p ended => exact id
      | action a =>
        cases a with
        | newReady priority accepted => exact absurd rfl (hnew priority accepted)
        | _ => exact id

/-- A run with a preemption by quantum end. The lock of the mutex that the preempted process holds
keeps to the array, and the creation of a process of priority `-1` does not. -/
theorem indexed_iff_of_reachable_quantumEnd :
    ∃ s, execute callStep (initQueues true [.rr, .rr] false)
        [.action (.newReady 1 true), .action (.newReady 1 true), .action .dispatch,
          .action (.mutexCreate "m" 0), .action (.mutexLock "m" 0), .endQuantum 0 true,
          .action .dispatch] = some s ∧
      InRange s (s.pcbs 1).priority ∧ ¬ IndexesOutOfRange s (.action (.mutexLock "m" 1)) ∧
      ¬ (¬ IndexesOutOfRange s (.action (.newReady (-1) true)) ∧
        EndsOutside s (.action (.newReady (-1) true))) := by
  have hrun : (execute callStep (initQueues true [.rr, .rr] false)
      [.action (.newReady 1 true), .action (.newReady 1 true), .action .dispatch,
        .action (.mutexCreate "m" 0), .action (.mutexLock "m" 0), .endQuantum 0 true,
        .action .dispatch]).map (fun s => (s.pcbs 1).state) = some .exec := by
    decide
  obtain ⟨s, hs, hexec⟩ := Option.map_eq_some_iff.1 hrun
  obtain ⟨-, hrange, -, hiff⟩ := indexed_iff_of_reachable (Run.of_execute hs)
  refine ⟨s, hs, hrange 1 (.inr hexec), ((hiff (.action (.mutexLock "m" 1)) hexec).2 id).1,
    fun hkeeps => (hiff _ ?_).1 hkeeps ⟨by decide, rfl⟩⟩
  exact ⟨by decide, by decide⟩

/-- **Two levels, and a process with priority `-1`**: the creation leaves the array, and no process
is ended. -/
theorem indexesOutOfRange_of_negative :
    Made (initQueues true [.fifo, .fifo] false) (.action (.newReady (-1) true)) ∧
      IndexesOutOfRange (initQueues true [.fifo, .fifo] false) (.action (.newReady (-1) true)) ∧
      ¬ EndsOutside (initQueues true [.fifo, .fifo] false) (.action (.newReady (-1) true)) := by
  have hmade : Made (initQueues true [.fifo, .fifo] false) (.action (.newReady (-1) true)) :=
    ⟨by decide, by decide⟩
  have hnone : callStep (initQueues true [.fifo, .fifo] false) (.action (.newReady (-1) true)) =
      none := rfl
  refine ⟨hmade, ⟨hmade, id, hnone⟩, fun hends => ?_⟩
  obtain ⟨s', hs', -⟩ := hends (-1) true rfl fun hin => absurd hin.1 (by decide)
  exact absurd (hnone.symm.trans hs') (by simp)

end Runs

end OsSimulator.Scheduler
