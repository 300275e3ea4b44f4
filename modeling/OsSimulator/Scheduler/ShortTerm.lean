import OsSimulator.Library.PairedRuns
import OsSimulator.Scheduler.CpuThread
import OsSimulator.Scheduler.LevelIndex

set_option relaxedAutoImplicit false
set_option autoImplicit false

/-!
# Short-term scheduling by FIFO or RR

The CPU threads on the state of the scheduler, with one READY queue. What a thread reads there, the
process that it takes from READY and whether it preempts its own, is no part of an event: the events
are what comes from outside. The log of the scheduler is what is seen of a step: the transition and
the message of the thread, and the contents of READY.

FIFO and RR ignore the priority of a process, except that `manage_preemption_priority` is gated on
`QUEUE_PREEMPTION` alone.

## Main definitions

* `ShortTerm`, `ShortTerm.Event`, `ShortTerm.step` — the state and its steps.
* `ShortTerm.SameEvents` — two lists of events that differ in the priorities of new processes.
* `ShortTerm.ChecksAlike` — a check for a better priority comes out the same in two runs.

## Main results

* `ShortTerm.unwinding` — the rest of the scheduler does not see the priorities.
* `ShortTerm.ignoresPriority_iff` — priorities are ignored exactly without `QUEUE_PREEMPTION`.
-/

namespace OsSimulator.Scheduler

/-- The operation is a mutex call. -/
def CpuOpCode.usesMutex : CpuOpCode → Bool
  | mutexCreate | mutexLock | mutexUnlock => true
  | _ => false

namespace Queues

/-- What a transition of a CPU thread does to the scheduler. -/
def transition : Transition → Queues → Option Queues
  | .takeReady _, s => s.ready.takeNext.map fun taken => { s with ready := taken.2 }
  | .readyExec p, s => some (s.transitionReadyExec p)
  | .toExec p, s => some (s.transitionToExec p)
  | .execReady p, s => s.transitionExecReady p
  | .execExit p, s => some (s.transitionExecExit p)
  | .execBlock p, s => some (s.transitionExecBlock p)

/-- The condition of `manage_end_quantum` on a CPU that runs `p`. -/
def endQuantumDue (p : ℕ) (quantumEnded : Bool) (s : Queues) : Option Bool :=
  if s.ready.readyProcessCount = 0 then some false
  else (s.ready.getAlgorithm (s.pcbs p).priority).map fun algorithm =>
    decide (algorithm = .rr) && quantumEnded

/-- The process that `manage_preemption_priority` takes from READY. -/
def preemptor (t : CpuThread) (s : Queues) : Option ℕ :=
  if t.Preempted then none
  else t.pcb.bind fun p => if s.preemptionDue p then s.ready.takeNext.map Prod.fst else none

end Queues

/-- The scheduler and its CPU threads. A thread whose CPU has not connected yet has taken no
step. -/
structure ShortTerm (ι : Type) where
  queues : Queues
  thread : ι → CpuThread

namespace ShortTerm

/-- No process and no CPU yet, with `SCHEDULING_ALGORITHM` one of `FIFO` and `RR`. -/
def init (ι : Type) (algorithm : SchedulingAlgorithm) (preemption : Bool) : ShortTerm ι where
  queues := initQueues false [algorithm] preemption
  thread := fun _ => initDataThreadCpu

/-- What a CPU thread goes on with. -/
inductive Input
  /-- nothing that comes from outside -/
  | go
  /-- the end of the wait for READY, or its termination -/
  | request (terminated : Bool)
  /-- whether a send succeeds -/
  | send (ok : Bool)
  | receive (opCode : CpuOpCode)
  | handle (reply : Reply)
  /-- whether a compaction has blocked READY -/
  | blocked (preemptAll : Bool)
  /-- whether the quantum has ended -/
  | quantum (ended : Bool)
  deriving DecidableEq, Repr

/-- A step of a CPU thread, the creation of a process or the completion of its IO. -/
inductive Event (ι : Type)
  | thread (i : ι) (input : Input)
  | newReady (priority : ℤ) (accepted : Bool)
  | unlock (p : ℕ)
  deriving DecidableEq, Repr

/-- What is seen of a step: what the thread does, and then the subqueues of READY. -/
structure Seen where
  effect : CpuThread.Effect
  ready : List ReadySubqueue
  deriving DecidableEq, Repr

/-- The action of a thread, with what it reads in the state of the scheduler. No process uses a
mutex. -/
def action (s : Queues) (t : CpuThread) (input : Input) : Option CpuThread.Action :=
  match t.phase, input with
  | .requesting, .request terminated =>
    if terminated then some (.takeReady none)
    else s.ready.takeNext.map fun taken => .takeReady (some taken.1)
  | .receiving, .receive opCode => if opCode.usesMutex then none else some (.receive opCode)
  | .handling _, .handle reply => some (.handle reply)
  | .queueBlocked, .blocked preemptAll => some (.due preemptAll)
  | .endQuantum, .quantum ended =>
    if t.Preempted then some (.due false)
    else t.pcb.bind fun p => (s.endQuantumDue p ended).map .due
  | .preemptionPriority, .go => some (.preempt (s.preemptor t))
  | _, .go => some .go
  | _, .send ok => some (.send ok)
  | _, _ => none

/-- What is seen of a step with an effect, and the state after it. -/
def shown {ι : Type} (effect : CpuThread.Effect) (s : ShortTerm ι) : Seen × ShortTerm ι :=
  (⟨effect, s.queues.ready.queues⟩, s)

variable {ι : Type} [DecidableEq ι]

/-- One step of the system. -/
def step (s : ShortTerm ι) : Event ι → Option (Seen × ShortTerm ι)
  | .thread i input =>
    (action s.queues (s.thread i) input).bind fun a =>
      ((s.thread i).step a).bind fun r =>
        (r.2.transition.elim (some s.queues) fun tr => s.queues.transition tr).map fun queues =>
          shown r.2 ⟨queues, Function.update s.thread i r.1⟩
  | .newReady priority accepted =>
    (s.queues.transitionNewReady priority accepted).map fun queues =>
      shown .none { s with queues := queues }
  | .unlock p =>
    (s.queues.transitionUnlock p).map fun queues => shown .none { s with queues := queues }

/-- The same event, up to the priority of a new process. -/
def SameEvent : Event ι → Event ι → Prop
  | .newReady _ accepted, .newReady _ accepted' => accepted = accepted'
  | e, e' => e = e'

/-- The same events in the same order, up to the priorities of the new processes. -/
abbrev SameEvents : List (Event ι) → List (Event ι) → Prop := List.Forall₂ SameEvent

/-- **The check for a better priority comes out the same**: when a thread makes it for its process,
and there is a process to take from READY, it is due in both states or in neither. -/
def ChecksAlike (s₁ s₂ : ShortTerm ι) : Event ι → Prop
  | .thread i .go =>
    (s₁.thread i).phase = .preemptionPriority → ¬ (s₁.thread i).Preempted →
      s₁.queues.ready.takeNext ≠ none → ∀ p, (s₁.thread i).pcb = some p →
        s₁.queues.preemptionDue p = s₂.queues.preemptionDue p
  | _ => True

end ShortTerm

/-! ## The READY queue without its priorities -/

namespace ReadyQueue

variable {p p₁ p₂ : ℕ} {v₁ v₂ : ℤ} {r₁ r₂ r₁' r₂' : ReadyQueue}

/-- Two single queues with the same processes. Which priority they call the best is left open. -/
structure SameLists (r₁ r₂ : ReadyQueue) : Prop where
  single₁ : r₁.multilevelQueue = false
  single₂ : r₂.multilevelQueue = false
  queues : r₁.queues = r₂.queues
  count : r₁.readyProcessCount = r₂.readyProcessCount

/-- A process enters both queues, with any two priorities. -/
lemma SameLists.add (h : SameLists r₁ r₂) (h₁ : r₁.add p v₁ = some r₁')
    (h₂ : r₂.add p v₂ = some r₂') : SameLists r₁' r₂' := by
  obtain ⟨queues₁, hq₁, rfl⟩ := Option.map_eq_some_iff.1 h₁
  obtain ⟨queues₂, hq₂, rfl⟩ := Option.map_eq_some_iff.1 h₂
  have hlevel₁ : r₁.level v₁ = 0 := if_neg (by simp [h.single₁])
  have hlevel₂ : r₂.level v₂ = 0 := if_neg (by simp [h.single₂])
  rw [hlevel₁, h.queues] at hq₁
  rw [hlevel₂] at hq₂
  refine ⟨h.single₁, h.single₂, Option.some.inj (hq₁.symm.trans hq₂), ?_⟩
  simp only [h.count]

/-- Both queues give the same process. -/
lemma SameLists.map_fst_takeNext (h : SameLists r₁ r₂) :
    r₁.takeNext.map Prod.fst = r₂.takeNext.map Prod.fst := by
  unfold takeNext
  rw [h.queues, Option.map_bind, Option.map_bind]
  congr 1
  funext i
  simp only [Function.comp_apply]
  rcases r₂.queues[i]? with _ | ⟨_ | ⟨q, rest⟩, algorithm⟩ <;> rfl

/-- Both queues lose it. -/
lemma SameLists.takeNext (h : SameLists r₁ r₂) (h₁ : r₁.takeNext = some (p₁, r₁'))
    (h₂ : r₂.takeNext = some (p₂, r₂')) : SameLists r₁' r₂' := by
  obtain ⟨i₁, hi₁, hm₁⟩ := Option.bind_eq_some_iff.1 h₁
  obtain ⟨i₂, hi₂, hm₂⟩ := Option.bind_eq_some_iff.1 h₂
  rw [h.queues] at hi₁ hm₁
  obtain rfl := Option.some.inj (hi₁.symm.trans hi₂)
  rcases hsub : r₂.queues[i₁]? with _ | ⟨_ | ⟨q, rest⟩, algorithm⟩
  · simp [hsub] at hm₁
  · simp [hsub] at hm₁
  · rw [hsub] at hm₁ hm₂
    simp only [Option.some.injEq, Prod.mk.injEq] at hm₁ hm₂
    obtain ⟨-, rfl⟩ := hm₁
    obtain ⟨-, rfl⟩ := hm₂
    -- only an empty subqueue makes a new best priority
    by_cases hrest : rest.isEmpty = true
    · simp only [hrest, if_true]
      exact ⟨by simp [h.single₁], by simp [h.single₂], by simp, by simp [h.count]⟩
    · simp only [hrest]
      exact ⟨h.single₁, h.single₂, rfl, by simp [h.count]⟩

/-- Both queues have the algorithm of the configuration. -/
lemma SameLists.getAlgorithm (h : SameLists r₁ r₂) (v₁ v₂ : ℤ) :
    r₁.getAlgorithm v₁ = r₂.getAlgorithm v₂ := by
  have hlevel₁ : r₁.level v₁ = 0 := if_neg (by simp [h.single₁])
  have hlevel₂ : r₂.level v₂ = 0 := if_neg (by simp [h.single₂])
  rw [ReadyQueue.getAlgorithm, ReadyQueue.getAlgorithm, hlevel₁, hlevel₂, h.queues]

end ReadyQueue

/-! ## The scheduler without its priorities -/

/-- The same processes in the same states and in the same order in READY. Their priorities are left
open, and with them the best priority in READY and the worst in EXEC. -/
structure SameButPriorities (s₁ s₂ : Queues) : Prop where
  ready : ReadyQueue.SameLists s₁.ready s₂.ready
  state : ∀ p, (s₁.pcbs p).state = (s₂.pcbs p).state
  nextPid : s₁.nextPid = s₂.nextPid

namespace SameButPriorities

variable {s₁ s₂ t₁ t₂ : Queues} {p : ℕ}

/-- Nothing but the EXEC list changes. -/
lemma congr (h : SameButPriorities s₁ s₂) (hready : ReadyQueue.SameLists t₁.ready t₂.ready)
    (hpcbs₁ : t₁.pcbs = s₁.pcbs) (hpcbs₂ : t₂.pcbs = s₂.pcbs) (hpid₁ : t₁.nextPid = s₁.nextPid)
    (hpid₂ : t₂.nextPid = s₂.nextPid) : SameButPriorities t₁ t₂ where
  ready := hready
  state q := by rw [hpcbs₁, hpcbs₂, h.state q]
  nextPid := by rw [hpid₁, hpid₂, h.nextPid]

/-- The same move of a process in both. -/
lemma moved {state : ProcessState} (h : SameButPriorities s₁ s₂) (hm₁ : Moved p state s₁ t₁)
    (hm₂ : Moved p state s₂ t₂) (hready : ReadyQueue.SameLists t₁.ready t₂.ready) :
    SameButPriorities t₁ t₂ where
  ready := hready
  state q := by
    by_cases hq : q = p
    · rw [hq, hm₁.self, hm₂.self]
    · rw [hm₁.other q hq, hm₂.other q hq, h.state q]
  nextPid := by rw [hm₁.nextPid, hm₂.nextPid, h.nextPid]

/-- `transition_exec_ready`. -/
lemma transitionExecReady (h : SameButPriorities s₁ s₂) (h₁ : s₁.transitionExecReady p = some t₁)
    (h₂ : s₂.transitionExecReady p = some t₂) : SameButPriorities t₁ t₂ := by
  unfold Queues.transitionExecReady at h₁ h₂
  rw [h.state p] at h₁
  split at h₁
  · rename_i hexec
    rw [if_pos hexec] at h₂
    obtain ⟨exec₁, htake₁⟩ := transitionTakeExec_eq p (s₁.setState p .ready)
    obtain ⟨exec₂, htake₂⟩ := transitionTakeExec_eq p (s₂.setState p .ready)
    rw [htake₁] at h₁
    rw [htake₂] at h₂
    obtain ⟨hm₁, hadd₁⟩ := moved_transitionToReady h₁ rfl rfl rfl rfl
    obtain ⟨hm₂, hadd₂⟩ := moved_transitionToReady h₂ rfl rfl rfl rfl
    exact h.moved hm₁ hm₂ (h.ready.add hadd₁ hadd₂)
  · rename_i hexec
    rw [if_neg hexec] at h₂
    obtain rfl := Option.some.inj h₁
    obtain rfl := Option.some.inj h₂
    exact h

/-- `transition_exec_block`. -/
lemma transitionExecBlock (h : SameButPriorities s₁ s₂) (p : ℕ) :
    SameButPriorities (s₁.transitionExecBlock p) (s₂.transitionExecBlock p) := by
  by_cases hexec : (s₂.pcbs p).state = .exec
  · obtain ⟨hm₁, hready₁⟩ := transitionExecBlock_spec ((h.state p).trans hexec)
    obtain ⟨hm₂, hready₂⟩ := transitionExecBlock_spec hexec
    exact h.moved hm₁ hm₂ (by rw [hready₁, hready₂]; exact h.ready)
  · rw [Queues.transitionExecBlock, Queues.transitionExecBlock, h.state p, if_neg hexec,
      if_neg hexec]
    exact h

/-- `transition_exec_exit`. -/
lemma transitionExecExit (h : SameButPriorities s₁ s₂) (p : ℕ) :
    SameButPriorities (s₁.transitionExecExit p) (s₂.transitionExecExit p) := by
  unfold Queues.transitionExecExit
  rw [h.state p]
  split
  · obtain ⟨exec₁, htake₁⟩ := transitionTakeExec_eq p (s₁.setState p .exit)
    obtain ⟨exec₂, htake₂⟩ := transitionTakeExec_eq p (s₂.setState p .exit)
    rw [htake₁, htake₂]
    refine ⟨h.ready, fun q => ?_, h.nextPid⟩
    by_cases hq : q = p
    · simp [hq, Queues.transitionToExit]
    · simp [hq, Queues.transitionToExit, Queues.setState, h.state q]
  · exact h

/-- The READY to EXEC step of a process. -/
lemma transitionReadyExec (h : SameButPriorities s₁ s₂) (p : ℕ) :
    SameButPriorities (s₁.transitionReadyExec p) (s₂.transitionReadyExec p) := by
  unfold Queues.transitionReadyExec
  rw [h.state p]
  split
  · exact h.moved (moved_setState p .exec s₁) (moved_setState p .exec s₂) h.ready
  · exact h

/-- `transition_unlock`. -/
lemma transitionUnlock (h : SameButPriorities s₁ s₂) (h₁ : s₁.transitionUnlock p = some t₁)
    (h₂ : s₂.transitionUnlock p = some t₂) : SameButPriorities t₁ t₂ := by
  unfold Queues.transitionUnlock at h₁ h₂
  rw [h.state p] at h₁
  split at h₁
  · rename_i hblock
    rw [if_pos hblock] at h₂
    obtain ⟨hm₁, hadd₁⟩ := moved_transitionToReady h₁ rfl rfl rfl rfl
    obtain ⟨hm₂, hadd₂⟩ := moved_transitionToReady h₂ rfl rfl rfl rfl
    exact h.moved hm₁ hm₂ (h.ready.add hadd₁ hadd₂)
  · rename_i hblock
    rw [if_neg hblock] at h₂
    split at h₁
    · rename_i hsusp
      rw [if_pos hsusp] at h₂
      obtain rfl := Option.some.inj h₁
      obtain rfl := Option.some.inj h₂
      -- SUSP. READY is sorted by priority, and is no part of the short-term scheduling
      exact (h.moved (moved_setState p .suspReady s₁) (moved_setState p .suspReady s₂) h.ready).congr
        h.ready rfl rfl rfl rfl
    · rename_i hsusp
      rw [if_neg hsusp] at h₂
      obtain rfl := Option.some.inj h₁
      obtain rfl := Option.some.inj h₂
      exact h

end SameButPriorities

/-- In a single queue every priority is valid: Kernel Memory decides where the new process goes. -/
lemma transitionNewReady_single {s t : Queues} {priority : ℤ} {accepted : Bool}
    (hsingle : s.ready.multilevelQueue = false)
    (h : s.transitionNewReady priority accepted = some t) :
    (accepted = true ∧ Created priority .ready s t ∧ s.ready.add s.nextPid priority = some t.ready) ∨
      (accepted = false ∧ Created priority .exit s t ∧ t.ready = s.ready) := by
  have hstate : (t.pcbs s.nextPid).state = if accepted then .ready else .exit := by
    unfold Queues.transitionNewReady at h
    split at h
    · simp only at h
      set u : Queues := { s with
        pcbs := Function.update s.pcbs s.nextPid (createPcb .new priority)
        nextPid := s.nextPid + 1 } with hu
      have hsingle' : u.ready.multilevelQueue = false := hsingle
      have hvalid : u.checkPriorityValid s.nextPid = true := by
        rw [Queues.checkPriorityValid, hsingle']
        rfl
      rw [hvalid] at h
      cases accepted with
      | true =>
        rw [if_pos ⟨rfl, rfl⟩] at h
        rw [(moved_transitionToReady h rfl rfl rfl rfl).1.self]
        rfl
      | false =>
        rw [if_neg (by simp)] at h
        obtain rfl := Option.some.inj h
        rw [Queues.transitionToExit, Queues.modifyPcb_pcbs_self]
        rfl
    · exact absurd h (by simp)
  rcases transitionNewReady_spec h with ⟨hcreated, hadd⟩ | ⟨hcreated, hready⟩
  · rw [hcreated.self] at hstate
    cases accepted with
    | true => exact .inl ⟨rfl, hcreated, hadd⟩
    | false => exact absurd hstate (by simp)
  · rw [hcreated.self] at hstate
    cases accepted with
    | true => exact absurd hstate (by simp)
    | false => exact .inr ⟨rfl, hcreated, hready⟩

namespace SameButPriorities

variable {s₁ s₂ t₁ t₂ : Queues}

/-- The same creation of a process in both, with any two priorities. -/
lemma created {v₁ v₂ : ℤ} {state : ProcessState} (h : SameButPriorities s₁ s₂)
    (hc₁ : Created v₁ state s₁ t₁) (hc₂ : Created v₂ state s₂ t₂)
    (hready : ReadyQueue.SameLists t₁.ready t₂.ready) : SameButPriorities t₁ t₂ where
  ready := hready
  state q := by
    by_cases hq : q = s₂.nextPid
    · rw [hq, hc₂.self, ← h.nextPid, hc₁.self]
    · rw [hc₁.other q (by rwa [h.nextPid]), hc₂.other q hq, h.state q]
  nextPid := by rw [hc₁.nextPid, hc₂.nextPid, h.nextPid]

/-- `transition_new_ready`. -/
lemma transitionNewReady {v₁ v₂ : ℤ} {accepted : Bool} (h : SameButPriorities s₁ s₂)
    (h₁ : s₁.transitionNewReady v₁ accepted = some t₁)
    (h₂ : s₂.transitionNewReady v₂ accepted = some t₂) : SameButPriorities t₁ t₂ := by
  rcases transitionNewReady_single h.ready.single₁ h₁ with ⟨hacc₁, hc₁, hr₁⟩ | ⟨hacc₁, hc₁, hr₁⟩ <;>
    rcases transitionNewReady_single h.ready.single₂ h₂ with ⟨hacc₂, hc₂, hr₂⟩ | ⟨hacc₂, hc₂, hr₂⟩
  · rw [← h.nextPid] at hr₂
    exact h.created hc₁ hc₂ (h.ready.add hr₁ hr₂)
  · exact absurd (hacc₁.symm.trans hacc₂) (by simp)
  · exact absurd (hacc₁.symm.trans hacc₂) (by simp)
  · exact h.created hc₁ hc₂ (by rw [hr₁, hr₂]; exact h.ready)

/-- A transition of a CPU thread. -/
lemma transition {tr : Transition} (h : SameButPriorities s₁ s₂) (h₁ : s₁.transition tr = some t₁)
    (h₂ : s₂.transition tr = some t₂) : SameButPriorities t₁ t₂ := by
  cases tr with
  | takeReady p =>
    obtain ⟨taken₁, htake₁, rfl⟩ := Option.map_eq_some_iff.1 h₁
    obtain ⟨taken₂, htake₂, rfl⟩ := Option.map_eq_some_iff.1 h₂
    exact h.congr (h.ready.takeNext htake₁ htake₂) rfl rfl rfl rfl
  | readyExec p =>
    obtain rfl := Option.some.inj h₁
    obtain rfl := Option.some.inj h₂
    exact h.transitionReadyExec p
  | toExec p =>
    obtain rfl := Option.some.inj h₁
    obtain rfl := Option.some.inj h₂
    exact h.congr h.ready rfl rfl rfl rfl
  | execReady p => exact h.transitionExecReady h₁ h₂
  | execExit p =>
    obtain rfl := Option.some.inj h₁
    obtain rfl := Option.some.inj h₂
    exact h.transitionExecExit p
  | execBlock p =>
    obtain rfl := Option.some.inj h₁
    obtain rfl := Option.some.inj h₂
    exact h.transitionExecBlock p

/-- The quantum check. -/
lemma endQuantumDue (h : SameButPriorities s₁ s₂) (p : ℕ) (ended : Bool) :
    s₁.endQuantumDue p ended = s₂.endQuantumDue p ended := by
  unfold Queues.endQuantumDue
  rw [h.ready.count, h.ready.getAlgorithm _ (s₂.pcbs p).priority]

end SameButPriorities

/-- **The check for a better priority is all that the thread sees of the priorities**: both states
give the same process exactly when the check is due in both or in neither, or does not matter. -/
lemma SameButPriorities.preemptor_eq_iff {s₁ s₂ : Queues} (h : SameButPriorities s₁ s₂)
    (t : CpuThread) :
    s₁.preemptor t = s₂.preemptor t ↔ (¬ t.Preempted → s₁.ready.takeNext ≠ none →
      ∀ p, t.pcb = some p → s₁.preemptionDue p = s₂.preemptionDue p) := by
  unfold Queues.preemptor
  by_cases hpreempted : t.Preempted
  · rw [if_pos hpreempted, if_pos hpreempted]
    exact iff_of_true rfl fun hnot => absurd hpreempted hnot
  rw [if_neg hpreempted, if_neg hpreempted, ← h.ready.map_fst_takeNext]
  cases hpcb : t.pcb with
  | none => simp
  | some p =>
    cases htake : s₁.ready.takeNext with
    | none => simp
    | some taken =>
      have hne : some taken ≠ none := by simp
      simp only [hpreempted, Option.bind_some, Option.map_some, not_false_eq_true, true_imp_iff,
        Option.some.injEq, forall_eq', hne, ne_eq]
      cases s₁.preemptionDue p <;> cases s₂.preemptionDue p <;> simp

namespace ShortTerm

variable {ι : Type}

/-- The same threads on the same scheduler, up to the priorities. -/
structure Alike (s₁ s₂ : ShortTerm ι) : Prop where
  queues : SameButPriorities s₁.queues s₂.queues
  thread : s₁.thread = s₂.thread

/-- Both are seen alike. -/
lemma Alike.shown {effect : CpuThread.Effect} {t₁ t₂ : ShortTerm ι} (h : Alike t₁ t₂) :
    (shown effect t₁).1 = (shown effect t₂).1 ∧ Alike (shown effect t₁).2 (shown effect t₂).2 := by
  refine ⟨?_, h⟩
  rw [ShortTerm.shown, ShortTerm.shown, h.queues.ready.queues]

/-- The same events are one event, or the creation of a process with any two priorities. -/
lemma SameEvent.cases {e₁ e₂ : Event ι} (h : SameEvent e₁ e₂) :
    e₁ = e₂ ∨ ∃ v₁ v₂ accepted, e₁ = .newReady v₁ accepted ∧ e₂ = .newReady v₂ accepted := by
  cases e₁ with
  | thread i input => exact .inl h
  | unlock p => exact .inl h
  | newReady v₁ accepted =>
    cases e₂ with
    | thread i input => exact absurd h (by simp [SameEvent])
    | unlock p => exact absurd h (by simp [SameEvent])
    | newReady v₂ accepted' =>
      obtain rfl : accepted = accepted' := h
      exact .inr ⟨v₁, v₂, accepted, rfl, rfl⟩

/-- A thread reads the same in both states, when the check for a better priority comes out the
same. -/
lemma action_eq {q₁ q₂ : Queues} (h : SameButPriorities q₁ q₂) (t : CpuThread) (input : Input)
    (hcheck : t.phase = .preemptionPriority → input = .go → q₁.preemptor t = q₂.preemptor t) :
    action q₁ t input = action q₂ t input := by
  have htaken : ∀ f : ℕ → CpuThread.Action, (q₁.ready.takeNext.map fun taken => f taken.1) =
      q₂.ready.takeNext.map fun taken => f taken.1 := by
    intro f
    have hmap := congrArg (Option.map f) h.ready.map_fst_takeNext
    rwa [Option.map_map, Option.map_map] at hmap
  unfold action
  split
  · rw [htaken fun p => .takeReady (some p)]
  · rfl
  · rfl
  · rfl
  · simp only [h.endQuantumDue]
  · rename_i hphase
    rw [hcheck hphase rfl]
  · rfl
  · rfl
  · rfl

/-- What a thread does with the answer of the check. -/
lemma transition_preempt {t : CpuThread} {newPcb : Option ℕ} {u : CpuThread × CpuThread.Effect}
    (hphase : t.phase = .preemptionPriority) (h : t.step (.preempt newPcb) = some u) :
    u.2.transition = newPcb.map .takeReady := by
  unfold CpuThread.step at h
  rw [hphase] at h
  cases newPcb with
  | none =>
    obtain rfl := Option.some.inj h
    rfl
  | some p =>
    simp only at h
    split at h
    · exact absurd h (by simp)
    · obtain rfl := Option.some.inj h
      rfl

section Steps

variable [DecidableEq ι] {s s₁ s₂ : ShortTerm ι} {r r₁ r₂ : Seen × ShortTerm ι} {i : ι}
  {input : Input}

/-- A step of a thread: its action, what it does, and what that does to the scheduler. -/
lemma step_thread (h : step s (.thread i input) = some r) :
    ∃ a t queues, action s.queues (s.thread i) input = some a ∧ (s.thread i).step a = some t ∧
      t.2.transition.elim (some s.queues) (fun tr => s.queues.transition tr) = some queues ∧
      r = shown t.2 ⟨queues, Function.update s.thread i t.1⟩ := by
  obtain ⟨a, ha, hrest⟩ := Option.bind_eq_some_iff.1 h
  obtain ⟨t, ht, hrest⟩ := Option.bind_eq_some_iff.1 hrest
  obtain ⟨queues, hqueues, rfl⟩ := Option.map_eq_some_iff.1 hrest
  exact ⟨a, t, queues, ha, ht, hqueues, rfl⟩

/-- A step of a thread whose check for a better priority comes out the same. -/
lemma Alike.thread_step (h : Alike s₁ s₂) (hok : ChecksAlike s₁ s₂ (.thread i input))
    (h₁ : step s₁ (.thread i input) = some r₁) (h₂ : step s₂ (.thread i input) = some r₂) :
    r₁.1 = r₂.1 ∧ Alike r₁.2 r₂.2 := by
  obtain ⟨a, t, queues₁, ha₁, ht₁, hqueues₁, rfl⟩ := step_thread h₁
  obtain ⟨a', t', queues₂, ha₂, ht₂, hqueues₂, rfl⟩ := step_thread h₂
  rw [← h.thread] at ha₂ ht₂
  have hcheck : (s₁.thread i).phase = .preemptionPriority → input = .go →
      s₁.queues.preemptor (s₁.thread i) = s₂.queues.preemptor (s₁.thread i) := by
    rintro hphase rfl
    exact (h.queues.preemptor_eq_iff _).2 (hok hphase)
  rw [action_eq h.queues _ _ hcheck] at ha₁
  obtain rfl := Option.some.inj (ha₁.symm.trans ha₂)
  obtain rfl := Option.some.inj (ht₁.symm.trans ht₂)
  refine Alike.shown ⟨?_, by rw [h.thread]⟩
  cases htransition : t.2.transition with
  | none =>
    rw [htransition] at hqueues₁ hqueues₂
    obtain rfl := Option.some.inj hqueues₁
    obtain rfl := Option.some.inj hqueues₂
    exact h.queues
  | some tr =>
    rw [htransition] at hqueues₁ hqueues₂
    exact h.queues.transition hqueues₁ hqueues₂

/-- The creation of a process with any two priorities. -/
lemma Alike.newReady_step {v₁ v₂ : ℤ} {accepted : Bool} (h : Alike s₁ s₂)
    (h₁ : step s₁ (.newReady v₁ accepted) = some r₁)
    (h₂ : step s₂ (.newReady v₂ accepted) = some r₂) : r₁.1 = r₂.1 ∧ Alike r₁.2 r₂.2 := by
  obtain ⟨queues₁, hqueues₁, rfl⟩ := Option.map_eq_some_iff.1 h₁
  obtain ⟨queues₂, hqueues₂, rfl⟩ := Option.map_eq_some_iff.1 h₂
  exact Alike.shown ⟨h.queues.transitionNewReady hqueues₁ hqueues₂, h.thread⟩

/-- The completion of an IO. -/
lemma Alike.unlock_step {p : ℕ} (h : Alike s₁ s₂) (h₁ : step s₁ (.unlock p) = some r₁)
    (h₂ : step s₂ (.unlock p) = some r₂) : r₁.1 = r₂.1 ∧ Alike r₁.2 r₂.2 := by
  obtain ⟨queues₁, hqueues₁, rfl⟩ := Option.map_eq_some_iff.1 h₁
  obtain ⟨queues₂, hqueues₂, rfl⟩ := Option.map_eq_some_iff.1 h₂
  exact Alike.shown ⟨h.queues.transitionUnlock hqueues₁ hqueues₂, h.thread⟩

/-- A step of a thread that looks the same has made the same check. -/
lemma Alike.checksAlike (h : Alike s₁ s₂) (h₁ : step s₁ (.thread i input) = some r₁)
    (h₂ : step s₂ (.thread i input) = some r₂) (hseen : r₁.1 = r₂.1) :
    ChecksAlike s₁ s₂ (.thread i input) := by
  obtain ⟨a₁, t₁, queues₁, ha₁, ht₁, -, rfl⟩ := step_thread h₁
  obtain ⟨a₂, t₂, queues₂, ha₂, ht₂, -, rfl⟩ := step_thread h₂
  rw [← h.thread] at ha₂ ht₂
  cases input with
  | go =>
    intro hphase
    refine (h.queues.preemptor_eq_iff (s₁.thread i)).1 ?_
    have haction : ∀ q : Queues, action q (s₁.thread i) .go =
        some (.preempt (q.preemptor (s₁.thread i))) := by
      intro q
      unfold action
      rw [hphase]
    rw [haction] at ha₁ ha₂
    obtain rfl := Option.some.inj ha₁
    obtain rfl := Option.some.inj ha₂
    -- the process that is taken from READY is seen
    have hsame : t₁.2.transition = t₂.2.transition :=
      congrArg (fun seen : Seen => seen.effect.transition) hseen
    rw [transition_preempt hphase ht₁, transition_preempt hphase ht₂] at hsame
    exact Option.map_injective (fun _ _ heq => Transition.takeReady.inj heq) hsame
  | _ => trivial

/-- **The rest of the scheduler does not see the priorities**: a step whose check for a better
priority comes out the same looks the same in both states and leaves them alike. A step whose check
does not looks different. -/
theorem unwinding : Unwinding (step (ι := ι)) Alike SameEvent ChecksAlike where
  keeps := by
    intro s₁ s₂ e₁ e₂ r₁ r₂ halike hsame hok h₁ h₂
    rcases hsame.cases with rfl | ⟨v₁, v₂, accepted, rfl, rfl⟩
    · cases e₁ with
      | thread i input => exact halike.thread_step hok h₁ h₂
      | newReady v accepted => exact halike.newReady_step h₁ h₂
      | unlock p => exact halike.unlock_step h₁ h₂
    · exact halike.newReady_step h₁ h₂
  shows := by
    intro s₁ s₂ e₁ e₂ r₁ r₂ halike hsame h₁ h₂ hseen
    cases e₁ with
    | thread i input =>
      rcases hsame.cases with rfl | ⟨v₁, v₂, accepted, heq, -⟩
      · exact halike.checksAlike h₁ h₂ hseen
      · exact absurd heq (by simp)
    | newReady v accepted => trivial
    | unlock p => trivial

end Steps

/-! ## `QUEUE_PREEMPTION` does not change -/

section Preemption

variable {p : ℕ} {s t : Queues}

/-- Whether there is preemption stays. -/
lemma preemption_takeExec (p : ℕ) (s : Queues) :
    (s.transitionTakeExec p).exec.preemption = s.exec.preemption := by
  unfold Queues.transitionTakeExec
  simp only
  split
  · rfl
  · rfl

/-- It stays when a process comes to READY. -/
lemma preemption_toReady {preemption : Bool} (h : s.transitionToReady p = some t)
    (hs : s.exec.preemption = preemption) : t.exec.preemption = preemption := by
  rw [(transitionToReady_spec h).1]
  exact hs

/-- A transition of a CPU thread. -/
lemma preemption_transition {tr : Transition} (h : s.transition tr = some t) :
    t.exec.preemption = s.exec.preemption := by
  cases tr with
  | takeReady p =>
    obtain ⟨taken, -, rfl⟩ := Option.map_eq_some_iff.1 h
    rfl
  | readyExec p =>
    obtain rfl := Option.some.inj h
    unfold Queues.transitionReadyExec
    split
    · rfl
    · rfl
  | toExec p =>
    obtain rfl := Option.some.inj h
    rfl
  | execReady p =>
    simp only [Queues.transition, Queues.transitionExecReady] at h
    split at h
    · exact preemption_toReady h (preemption_takeExec p (s.setState p .ready))
    · rw [Option.some.inj h]
  | execExit p =>
    obtain rfl := Option.some.inj h
    unfold Queues.transitionExecExit
    split
    · exact preemption_takeExec p (s.setState p .exit)
    · rfl
  | execBlock p =>
    obtain rfl := Option.some.inj h
    unfold Queues.transitionExecBlock
    split
    · exact preemption_takeExec p (s.setState p .block)
    · rfl

/-- Every step keeps the setting. -/
lemma preemption_step {ι : Type} [DecidableEq ι] {u : ShortTerm ι} {e : Event ι}
    {r : Seen × ShortTerm ι} (h : step u e = some r) :
    r.2.queues.exec.preemption = u.queues.exec.preemption := by
  cases e with
  | thread i input =>
    obtain ⟨a, t, queues, -, -, hqueues, rfl⟩ := step_thread h
    cases htransition : t.2.transition with
    | none =>
      rw [htransition] at hqueues
      obtain rfl := Option.some.inj hqueues
      rfl
    | some tr =>
      rw [htransition] at hqueues
      exact preemption_transition hqueues
  | newReady priority accepted =>
    obtain ⟨queues, hqueues, rfl⟩ := Option.map_eq_some_iff.1 h
    unfold Queues.transitionNewReady at hqueues
    split at hqueues
    · simp only at hqueues
      split at hqueues
      · exact preemption_toReady hqueues rfl
      · obtain rfl := Option.some.inj hqueues
        rfl
    · exact absurd hqueues (by simp)
  | unlock p =>
    obtain ⟨queues, hqueues, rfl⟩ := Option.map_eq_some_iff.1 h
    unfold Queues.transitionUnlock at hqueues
    split at hqueues
    · exact preemption_toReady hqueues rfl
    · split at hqueues
      · obtain rfl := Option.some.inj hqueues
        rfl
      · obtain rfl := Option.some.inj hqueues
        rfl

end Preemption

/-! ## Whether priorities are ignored -/

section Runs

/-- No process and no CPU: the states are alike. -/
lemma alike_init (ι : Type) (algorithm : SchedulingAlgorithm) (preemption : Bool) :
    Alike (init ι algorithm preemption) (init ι algorithm preemption) :=
  ⟨⟨⟨rfl, rfl, rfl, rfl⟩, fun _ => rfl, rfl⟩, rfl⟩

/-- Without `QUEUE_PREEMPTION` no check for a better priority is due. -/
lemma checksAlike_of_not_preemption {ι : Type} {s₁ s₂ : ShortTerm ι}
    (h₁ : s₁.queues.exec.preemption = false) (h₂ : s₂.queues.exec.preemption = false)
    (e : Event ι) : ChecksAlike s₁ s₂ e := by
  cases e with
  | thread i input =>
    cases input with
    | go =>
      intro _ _ _ p _
      rw [Queues.preemptionDue, Queues.preemptionDue, h₁, h₂]
      rfl
    | _ => trivial
  | newReady priority accepted => trivial
  | unlock p => trivial

/-- **Priorities are ignored**: with any number of CPUs, two runs with the same events that differ
only in the priorities of the processes have the same transitions, messages and READY contents. -/
def IgnoresPriority (algorithm : SchedulingAlgorithm) (preemption : Bool) : Prop :=
  ∀ (ι : Type) [DecidableEq ι] (es₁ es₂ : List (Event ι)) (os₁ os₂ : List Seen),
    SameEvents es₁ es₂ → outputs step (init ι algorithm preemption) es₁ = some os₁ →
      outputs step (init ι algorithm preemption) es₂ = some os₂ → os₁ = os₂

/-- A process in EXEC, the arrival of another one, and the end of a cycle before the quantum
ends. -/
def arrival (first second : ℤ) : List (Event ℕ) :=
  [.newReady first true, .thread 0 .go, .thread 0 (.request false), .thread 0 .go, .thread 0 .go,
    .thread 0 (.send true), .newReady second true, .thread 0 (.receive .cycleOk),
    .thread 0 (.handle ⟨.mutexLocked, true⟩), .thread 0 (.blocked false),
    .thread 0 (.quantum false), .thread 0 .go]

/-- With `QUEUE_PREEMPTION` the arrival of a better priority is seen. -/
lemma outputs_arrival_ne (algorithm : SchedulingAlgorithm) :
    (outputs step (init ℕ algorithm true) (arrival 1 0)).isSome = true ∧
      (outputs step (init ℕ algorithm true) (arrival 0 1)).isSome = true ∧
      outputs step (init ℕ algorithm true) (arrival 1 0) ≠
        outputs step (init ℕ algorithm true) (arrival 0 1) := by
  cases algorithm <;> decide

/-- The arrivals are the same events. -/
lemma sameEvents_arrival (v₁ v₂ w₁ w₂ : ℤ) : SameEvents (arrival v₁ w₁) (arrival v₂ w₂) := by
  simp [arrival, SameEvents, SameEvent]

/-- **FIFO and RR ignore priorities exactly without `QUEUE_PREEMPTION`**: for any number of CPUs,
two runs with the same events that differ only in the priorities of the processes look the same if
and only if every check for a better priority comes out the same in both. -/
theorem ignoresPriority_iff (algorithm : SchedulingAlgorithm) (preemption : Bool) :
    (∀ (ι : Type) [DecidableEq ι] (es₁ es₂ : List (Event ι)) (os₁ os₂ : List Seen),
      SameEvents es₁ es₂ → outputs step (init ι algorithm preemption) es₁ = some os₁ →
        outputs step (init ι algorithm preemption) es₂ = some os₂ →
          (os₁ = os₂ ↔ BothMeet step ChecksAlike (init ι algorithm preemption)
            (init ι algorithm preemption) es₁ es₂)) ∧
    (IgnoresPriority algorithm preemption ↔ preemption = false) := by
  have hruns : ∀ (ι : Type) [DecidableEq ι] (es₁ es₂ : List (Event ι)) (os₁ os₂ : List Seen),
      SameEvents es₁ es₂ → outputs step (init ι algorithm preemption) es₁ = some os₁ →
        outputs step (init ι algorithm preemption) es₂ = some os₂ →
          (os₁ = os₂ ↔ BothMeet step ChecksAlike (init ι algorithm preemption)
            (init ι algorithm preemption) es₁ es₂) := by
    intro ι _ es₁ es₂ os₁ os₂ hsame h₁ h₂
    exact unwinding.outputs_eq_iff (alike_init ι algorithm preemption) hsame h₁ h₂
  refine ⟨hruns, fun h => ?_, ?_⟩
  · by_contra hpreemption
    obtain rfl : preemption = true := by simpa using hpreemption
    obtain ⟨hsome₁, hsome₂, hne⟩ := outputs_arrival_ne algorithm
    obtain ⟨os₁, h₁⟩ := Option.isSome_iff_exists.1 hsome₁
    obtain ⟨os₂, h₂⟩ := Option.isSome_iff_exists.1 hsome₂
    refine hne ?_
    rw [h₁, h₂, h ℕ _ _ os₁ os₂ (sameEvents_arrival 1 0 0 1) h₁ h₂]
  · rintro rfl ι _ es₁ es₂ os₁ os₂ hsame h₁ h₂
    refine (hruns ι es₁ es₂ os₁ os₂ hsame h₁ h₂).2 ?_
    refine BothMeet.of_invariant (I := fun s => s.queues.exec.preemption = false)
      (fun s e r hs hstep => (preemption_step hstep).trans hs)
      (fun s₁ s₂ e hs₁ hs₂ => checksAlike_of_not_preemption hs₁ hs₂ e) rfl rfl es₁ es₂

/-- The arrival of a process with a better and of one with a worse priority, by FIFO without
`QUEUE_PREEMPTION`. -/
theorem ignoresPriority_iff_arrival :
    ∃ os, outputs step (init ℕ .fifo false) (arrival 1 0) = some os ∧
      outputs step (init ℕ .fifo false) (arrival 0 1) = some os := by
  have hsome₁ : (outputs step (init ℕ .fifo false) (arrival 1 0)).isSome = true := by decide
  have hsome₂ : (outputs step (init ℕ .fifo false) (arrival 0 1)).isSome = true := by decide
  obtain ⟨os₁, h₁⟩ := Option.isSome_iff_exists.1 hsome₁
  obtain ⟨os₂, h₂⟩ := Option.isSome_iff_exists.1 hsome₂
  have hignores : IgnoresPriority .fifo false := (ignoresPriority_iff .fifo false).2.2 rfl
  obtain rfl := hignores ℕ _ _ os₁ os₂ (sameEvents_arrival 1 0 0 1) h₁ h₂
  exact ⟨os₁, h₁, h₂⟩

/-- **FIFO with `QUEUE_PREEMPTION`**: a process with priority `1` in EXEC gives way to an arriving
one with priority `0`, and one with priority `0` does not give way to one with priority `1`. -/
theorem not_ignoresPriority_of_preemption : ¬ IgnoresPriority .fifo true := by
  intro h
  have hsome₁ : (outputs step (init ℕ .fifo true) (arrival 1 0)).isSome = true := by decide
  have hsome₂ : (outputs step (init ℕ .fifo true) (arrival 0 1)).isSome = true := by decide
  have hne : outputs step (init ℕ .fifo true) (arrival 1 0) ≠
      outputs step (init ℕ .fifo true) (arrival 0 1) := by decide
  obtain ⟨os₁, h₁⟩ := Option.isSome_iff_exists.1 hsome₁
  obtain ⟨os₂, h₂⟩ := Option.isSome_iff_exists.1 hsome₂
  refine hne ?_
  rw [h₁, h₂, h ℕ _ _ os₁ os₂ (sameEvents_arrival 1 0 0 1) h₁ h₂]

end Runs

end ShortTerm

end OsSimulator.Scheduler
