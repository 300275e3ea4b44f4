import OsSimulator.Library.Runs
import OsSimulator.Scheduler.MutexUnlock

set_option relaxedAutoImplicit false
set_option autoImplicit false

/-!
# Runs of the scheduler

The scheduler as a system that takes one atomic operation after another: the transitions of the
seven-state machine and the mutex calls, in any order. A mutex call is made by a process in EXEC,
and the interface threads unlock processes that wait for their IO, not for a mutex.

## Main definitions

* `Action`, `step` — the operations.
* `Inheriting` — the inheritance invariant of the runs.
* `StepEffect` — what a step does.

## Main results

* `step_cases` — every step has one of the effects.
* `inheriting_of_reachable` — the inheritance invariant holds in every reachable state.
* `reachable_handleSyscallMutexLock` and its siblings — a syscall handler takes such steps.
-/

namespace OsSimulator.Scheduler

open Queues

/-- The atomic operations. The priority of a new process and the answers of Kernel Memory come from
outside. -/
inductive Action
  | newReady (priority : ℤ) (accepted : Bool)
  | dispatch
  | execReady (p : ℕ)
  | preemptionPriority (p : ℕ)
  | execBlock (p : ℕ)
  | unlock (p : ℕ)
  | blockSuspBlock (p : ℕ) (suspended : Bool)
  | suspReady (p : ℕ) (resumed : Bool)
  | execExit (p : ℕ)
  | mutexCreate (id : String) (p : ℕ)
  | mutexLock (id : String) (p : ℕ)
  | mutexUnlock (id : String) (p : ℕ)
  deriving DecidableEq, Repr

/-- One atomic operation; `none` when it is not enabled or does not return. -/
def step (s : Queues) : Action → Option Queues
  | .newReady priority accepted => s.transitionNewReady priority accepted
  | .dispatch => s.dispatch.map Prod.snd
  | .execReady p => s.transitionExecReady p
  | .preemptionPriority p => s.managePreemptionPriority p
  | .execBlock p => some (s.transitionExecBlock p)
  | .unlock p => if (s.pcbs p).blockingMutex = none then s.transitionUnlock p else none
  | .blockSuspBlock p suspended => some (s.transitionBlockSuspBlock p suspended)
  | .suspReady p resumed => s.transitionSuspReady p resumed
  | .execExit p => some (s.transitionExecExit p)
  | .mutexCreate id p =>
    if (s.pcbs p).state = .exec then some (s.createAndAddMutex id true).2 else none
  | .mutexLock id p =>
    if (s.pcbs p).state = .exec then (s.listMutexLock id p).map Prod.snd else none
  | .mutexUnlock id p =>
    if (s.pcbs p).state = .exec then (s.listMutexUnlock id p).map Prod.snd else none

variable {p : ℕ} {id : String} {s s' : Queues}

/-! ## The mutex calls by name -/

/-- `list_mutex_lock` does nothing for an unknown name. -/
lemma listMutexLock_cases {r : MutexResult} (h : s.listMutexLock id p = some (r, s')) :
    s' = s ∨ ∃ m ∈ s.mutexes, m.id = id ∧ s.mutexLock m p = some (r, s') := by
  unfold listMutexLock at h
  split at h
  · exact .inl (Prod.mk.inj (Option.some.inj h)).2.symm
  · rename_i m hm
    obtain ⟨hid, hmem⟩ := lookupKey_eq_some hm
    exact .inr ⟨m, hmem, hid, h⟩

/-- `list_mutex_unlock` does nothing for an unknown name. -/
lemma listMutexUnlock_cases {r : MutexResult} (h : s.listMutexUnlock id p = some (r, s')) :
    s' = s ∨ ∃ m ∈ s.mutexes, m.id = id ∧ s.mutexUnlock m p = some (r, s') := by
  unfold listMutexUnlock at h
  split at h
  · exact .inl (Prod.mk.inj (Option.some.inj h)).2.symm
  · rename_i m hm
    obtain ⟨hid, hmem⟩ := lookupKey_eq_some hm
    exact .inr ⟨m, hmem, hid, h⟩

/-- What a step that is a mutex call does. -/
lemma step_mutexLock (h : step s (.mutexLock id p) = some s') :
    (s.pcbs p).state = .exec ∧
      (s' = s ∨ ∃ m ∈ s.mutexes, m.id = id ∧ ∃ r, s.mutexLock m p = some (r, s')) := by
  simp only [step] at h
  split at h
  · rename_i hexec
    obtain ⟨⟨r, t⟩, hrun, rfl⟩ := Option.map_eq_some_iff.1 h
    refine ⟨hexec, (listMutexLock_cases hrun).imp_right ?_⟩
    rintro ⟨m, hm, hid, hlock⟩
    exact ⟨m, hm, hid, r, hlock⟩
  · exact absurd h (by simp)

/-- An unlock is refused, or done for a process in EXEC. -/
lemma step_mutexUnlock (h : step s (.mutexUnlock id p) = some s') :
    (s.pcbs p).state = .exec ∧
      (s' = s ∨ ∃ m ∈ s.mutexes, m.id = id ∧ ∃ r, s.mutexUnlock m p = some (r, s')) := by
  simp only [step] at h
  split at h
  · rename_i hexec
    obtain ⟨⟨r, t⟩, hrun, rfl⟩ := Option.map_eq_some_iff.1 h
    refine ⟨hexec, (listMutexUnlock_cases hrun).imp_right ?_⟩
    rintro ⟨m, hm, hid, hunlock⟩
    exact ⟨m, hm, hid, r, hunlock⟩
  · exact absurd h (by simp)

/-- A creation adds the mutex. -/
lemma step_mutexCreate (h : step s (.mutexCreate id p) = some s') :
    s' = (s.createAndAddMutex id true).2 := by
  simp only [step] at h
  split at h
  · exact (Option.some.inj h).symm
  · exact absurd h (by simp)

/-- The preemption by a better priority: one process goes back to READY, another one is taken from
READY before and enters EXEC. -/
lemma managePreemptionPriority_spec (h : s.managePreemptionPriority p = some s') :
    s' = s ∨ ∃ newPcb ready t, s.ready.takeNext = some (newPcb, ready) ∧
      ({ s with ready := ready } : Queues).transitionExecReady p = some t ∧
      s' = (t.transitionReadyExec newPcb).transitionToExec newPcb := by
  unfold managePreemptionPriority at h
  split at h
  · split at h
    · exact .inl (Option.some.inj h).symm
    · rename_i newPcb ready htake
      obtain ⟨t, ht, rfl⟩ := Option.map_eq_some_iff.1 h
      exact .inr ⟨newPcb, ready, t, htake, ht, rfl⟩
  · exact .inl (Option.some.inj h).symm

/-! ## The inheritance invariant of the runs -/

/-- The inheritance invariant between two operations. -/
structure Inheriting (s : Queues) : Prop where
  sound : Sound none s
  balanced : Balanced s

/-- The invariant does not see the lists. -/
lemma Inheriting.of_eq (h : Inheriting s) (hpcbs : s'.pcbs = s.pcbs)
    (hmutexes : s'.mutexes = s.mutexes) (hpid : s'.nextPid = s.nextPid) : Inheriting s' where
  sound := by
    refine h.sound.congr hmutexes (fun q => ?_) (fun _ _ q _ => by rw [hpcbs])
      (fun q => by rw [hpcbs]) (fun _ _ q _ hq => by rwa [hpcbs])
    exact (h.sound.pcb q).congr (by rw [hpcbs]) (by rw [hmutexes]; exact fun _ h => h) hpid.ge
  balanced := h.balanced.congr hmutexes (fun q => by rw [hpcbs]) (fun q => by rw [hpcbs])
    fun q => by rw [hpcbs]

/-- A move of a living process keeps the invariant if who waits stays blocked. -/
lemma Inheriting.moved {state : ProcessState} (h : Inheriting s) (hm : Moved p state s s')
    (hfrom : (s.pcbs p).state.Live) (hto : state.Live)
    (hwait : (s.pcbs p).blockingMutex ≠ none → state = .block ∨ state = .suspBlock) :
    Inheriting s' :=
  ⟨h.sound.moved hm hfrom hto hwait, h.balanced.moved hm⟩

/-- Only a blocked process waits for a mutex. -/
lemma Inheriting.unblocked {state : ProcessState} (h : Inheriting s)
    (hstate : (s.pcbs p).state = state) (hne : state ≠ .block ∧ state ≠ .suspBlock) :
    (s.pcbs p).blockingMutex = none := by
  by_contra hb
  rcases (h.sound.pcb p).notRunning hb with hblock | hblock
  · exact hne.1 (hstate.symm.trans hblock)
  · exact hne.2 (hstate.symm.trans hblock)

/-- A process that is not blocked may move anywhere. -/
lemma Inheriting.moved_of_unblocked {state state' : ProcessState} (h : Inheriting s)
    (hm : Moved p state' s s') (hstate : (s.pcbs p).state = state) (hfrom : state.Live)
    (hto : state'.Live) (hb : (s.pcbs p).blockingMutex = none) : Inheriting s' :=
  h.moved hm (hstate ▸ hfrom) hto fun hne => absurd hb hne

/-- The READY to EXEC step keeps the invariant. -/
lemma Inheriting.readyExec (h : Inheriting s) (p : ℕ) :
    Inheriting ((s.transitionReadyExec p).transitionToExec p) := by
  rcases (readyExec_spec p s).2 with ⟨hstate, hmoved⟩ | ⟨-, hpcbs, hmutexes, hpid⟩
  · exact h.moved_of_unblocked hmoved hstate ⟨by decide, by decide⟩ ⟨by decide, by decide⟩
      (h.unblocked hstate ⟨by decide, by decide⟩)
  · exact h.of_eq hpcbs hmutexes hpid

/-- `transition_exec_ready` keeps the invariant. -/
lemma Inheriting.execReady (h : Inheriting s) (hrun : s.transitionExecReady p = some s') :
    Inheriting s' := by
  rcases transitionExecReady_spec hrun with rfl | ⟨hstate, hmoved, -⟩
  · exact h
  · exact h.moved_of_unblocked hmoved hstate ⟨by decide, by decide⟩ ⟨by decide, by decide⟩
      (h.unblocked hstate ⟨by decide, by decide⟩)

/-! ## What a step does -/

/-- What a step does, whichever operation makes it: one process is created, goes from one list to
another or ends, or processes go from READY to EXEC and back, or a mutex call runs. -/
inductive StepEffect (s : Queues) (a : Action) (s' : Queues) : Prop
  | kept (same : s' = s)
  | created (priority : ℤ) (state : ProcessState) (created : Created priority state s s')
      (ready : state = .ready ∧ s.ready.add s.nextPid priority = some s'.ready ∨
        state = .exit ∧ s'.ready = s.ready)
      (exec : s'.exec = s.exec)
  | moved (p : ℕ) (target : ProcessState) (moved : Moved p target s s')
      (source : (s.pcbs p).state.Live) (outside : (s.pcbs p).state ≠ .ready) (live : target.Live)
      (waits : (s.pcbs p).blockingMutex ≠ none → target = .suspBlock)
      (ready : target = .ready ∧ s.ready.add p (s.pcbs p).priority = some s'.ready ∨
        target ≠ .ready ∧ s'.ready = s.ready)
      (exec : s'.exec = s.exec ∨ s'.exec = (s.transitionTakeExec p).exec)
  | dispatched (p : ℕ) (ready : ReadyQueue) (take : s.ready.takeNext = some (p, ready))
      (effect : s' = (({ s with ready := ready } : Queues).transitionReadyExec p).transitionToExec p)
  | preempted (p newPcb : ℕ) (ready : ReadyQueue) (t : Queues)
      (take : s.ready.takeNext = some (newPcb, ready))
      (execReady : ({ s with ready := ready } : Queues).transitionExecReady p = some t)
      (effect : s' = (t.transitionReadyExec newPcb).transitionToExec newPcb)
  | ended (p : ℕ) (call : a = .execExit p) (running : (s.pcbs p).state = .exec) (ended : Ended p s s')
      (exec : s'.exec = (s.transitionTakeExec p).exec)
  | mutexCreated (id : String) (effect : s' = (s.createAndAddMutex id true).2)
  | locked (m : Mutex) (p : ℕ) (r : MutexResult) (call : a = .mutexLock m.id p) (mem : m ∈ s.mutexes)
      (running : (s.pcbs p).state = .exec) (run : s.mutexLock m p = some (r, s'))
  | unlocked (m : Mutex) (p : ℕ) (r : MutexResult) (call : a = .mutexUnlock m.id p)
      (mem : m ∈ s.mutexes) (running : (s.pcbs p).state = .exec)
      (run : s.mutexUnlock m p = some (r, s'))

/-- **Every step has one of the effects.** -/
lemma step_cases {a : Action} (hi : Inheriting s) (hstep : step s a = some s') :
    StepEffect s a s' := by
  cases a with
  | newReady priority accepted =>
    have hexec := exec_transitionNewReady hstep
    rcases transitionNewReady_spec hstep with ⟨hcreated, hadd⟩ | ⟨hcreated, hready⟩
    · exact .created priority .ready hcreated (.inl ⟨rfl, hadd⟩) hexec
    · exact .created priority .exit hcreated (.inr ⟨rfl, hready⟩) hexec
  | dispatch =>
    obtain ⟨⟨q, t⟩, hdispatch, rfl⟩ := Option.map_eq_some_iff.1 hstep
    obtain ⟨⟨q', ready⟩, htake, heq⟩ := Option.map_eq_some_iff.1 hdispatch
    obtain ⟨rfl, rfl⟩ := Prod.mk.inj heq
    exact .dispatched q' ready htake rfl
  | execReady p =>
    have hexec := exec_transitionExecReady hstep
    rcases transitionExecReady_spec hstep with hsame | ⟨hstate, hmoved, hadd⟩
    · exact .kept hsame
    · refine .moved p .ready hmoved ?_ ?_ ⟨by decide, by decide⟩ ?_ (.inl ⟨rfl, hadd⟩) hexec
      · exact hstate ▸ ⟨by decide, by decide⟩
      · exact hstate ▸ by decide
      · exact fun hne => absurd (hi.unblocked hstate ⟨by decide, by decide⟩) hne
  | preemptionPriority p =>
    rcases managePreemptionPriority_spec hstep with hsame | ⟨newPcb, ready, t, htake, ht, heq⟩
    · exact .kept hsame
    · exact .preempted p newPcb ready t htake ht heq
  | execBlock p =>
    obtain rfl := Option.some.inj hstep
    by_cases hexec : (s.pcbs p).state = .exec
    · obtain ⟨hmoved, hready⟩ := transitionExecBlock_spec hexec
      refine .moved p .block hmoved ?_ ?_ ⟨by decide, by decide⟩ ?_ (.inr ⟨by decide, hready⟩)
        (exec_transitionExecBlock p s)
      · exact hexec ▸ ⟨by decide, by decide⟩
      · exact hexec ▸ by decide
      · exact fun hne => absurd (hi.unblocked hexec ⟨by decide, by decide⟩) hne
    · exact .kept (if_neg hexec)
  | unlock p =>
    simp only [step] at hstep
    split at hstep
    · rename_i hfree
      have hexec := exec_transitionUnlock hstep
      rcases transitionUnlock_spec hstep with
        hsame | ⟨hstate, hmoved, hadd⟩ | ⟨hstate, hmoved, hready⟩
      · exact .kept hsame
      · refine .moved p .ready hmoved ?_ ?_ ⟨by decide, by decide⟩ (fun hne => absurd hfree hne)
          (.inl ⟨rfl, hadd⟩) (.inl hexec)
        · exact hstate ▸ ⟨by decide, by decide⟩
        · exact hstate ▸ by decide
      · refine .moved p .suspReady hmoved ?_ ?_ ⟨by decide, by decide⟩
          (fun hne => absurd hfree hne) (.inr ⟨by decide, hready⟩) (.inl hexec)
        · exact hstate ▸ ⟨by decide, by decide⟩
        · exact hstate ▸ by decide
    · exact absurd hstep (by simp)
  | blockSuspBlock p suspended =>
    obtain rfl := Option.some.inj hstep
    rcases transitionBlockSuspBlock_spec p suspended s with hsame | ⟨hstate, hmoved, hready⟩
    · exact .kept hsame
    · refine .moved p .suspBlock hmoved ?_ ?_ ⟨by decide, by decide⟩ (fun _ => rfl)
        (.inr ⟨by decide, hready⟩) (.inl (exec_transitionBlockSuspBlock p suspended s))
      · exact hstate ▸ ⟨by decide, by decide⟩
      · exact hstate ▸ by decide
  | suspReady p resumed =>
    have hexec := exec_transitionSuspReady hstep
    rcases transitionSuspReady_spec hstep with hsame | ⟨hstate, hmoved, hadd⟩
    · exact .kept hsame
    · refine .moved p .ready hmoved ?_ ?_ ⟨by decide, by decide⟩ ?_ (.inl ⟨rfl, hadd⟩) (.inl hexec)
      · exact hstate ▸ ⟨by decide, by decide⟩
      · exact hstate ▸ by decide
      · exact fun hne => absurd (hi.unblocked hstate ⟨by decide, by decide⟩) hne
  | execExit p =>
    obtain rfl := Option.some.inj hstep
    rcases transitionExecExit_spec p s with hsame | ⟨hstate, hended⟩
    · exact .kept hsame
    · exact .ended p rfl hstate hended (exec_transitionExecExit hstate)
  | mutexCreate id p => exact .mutexCreated id (step_mutexCreate hstep)
  | mutexLock id p =>
    obtain ⟨hexec, hsame | ⟨m, hm, rfl, r, hrun⟩⟩ := step_mutexLock hstep
    · exact .kept hsame
    · exact .locked m p r rfl hm hexec hrun
  | mutexUnlock id p =>
    obtain ⟨hexec, hsame | ⟨m, hm, rfl, r, hrun⟩⟩ := step_mutexUnlock hstep
    · exact .kept hsame
    · exact .unlocked m p r rfl hm hexec hrun

/-- **Every step keeps the inheritance invariant.** -/
lemma inheriting_step {a : Action} (h : Inheriting s) (hstep : step s a = some s') :
    Inheriting s' := by
  cases step_cases h hstep with
  | kept same => rwa [same]
  | created priority state created ready =>
    obtain ⟨hsound, hbalanced⟩ := h.sound.created h.balanced created
    exact ⟨hsound, hbalanced⟩
  | moved p target moved source outside live waits =>
    exact h.moved moved source live fun hne => .inr (waits hne)
  | dispatched p ready take effect =>
    have hready : Inheriting { s with ready := ready } := h.of_eq rfl rfl rfl
    rw [effect]
    exact hready.readyExec p
  | preempted p newPcb ready t take execReady effect =>
    have hready : Inheriting { s with ready := ready } := h.of_eq rfl rfl rfl
    rw [effect]
    exact (hready.execReady execReady).readyExec newPcb
  | ended p call running ended =>
    have hlive : (s.pcbs p).state.Live := running ▸ ⟨by decide, by decide⟩
    exact ⟨h.sound.ended ended hlive (h.unblocked running ⟨by decide, by decide⟩),
      h.balanced.ended ended⟩
  | mutexCreated id effect =>
    obtain ⟨hsound, hbalanced, -⟩ := createAndAddMutex_spec h.sound h.balanced id
    rw [effect]
    exact ⟨hsound, hbalanced⟩
  | locked m p r call mem running run =>
    obtain ⟨hsound, hbalanced, -⟩ := mutexLock_spec h.sound h.balanced mem running run
    exact ⟨hsound, hbalanced⟩
  | unlocked m p r call mem running run =>
    obtain ⟨hsound, hbalanced, -⟩ := mutexUnlock_spec h.sound h.balanced mem running run
    exact ⟨hsound, hbalanced⟩

/-- The first state has no process and no mutex. -/
lemma inheriting_init (multilevel : Bool) (algorithms : List SchedulingAlgorithm)
    (preemption : Bool) : Inheriting (initQueues multilevel algorithms preemption) where
  sound := by
    refine ⟨List.nodup_nil, fun q => ?_, fun m hm => absurd hm (by simp [initQueues]),
      fun _ _ h => absurd h (by simp)⟩
    refine ⟨List.pairwise_singleton _ _, rfl, by show (0 : ℤ) ≤ INT_MAX; decide,
      fun h => absurd rfl h, fun id h => absurd h (by simp [initQueues, createPcb]),
      fun h => absurd rfl h, by simp [initQueues, createPcb]⟩
  balanced q := by simp [initQueues, createPcb, owed]

/-- **The run lemma**: the inheritance invariant holds in every reachable state. -/
theorem inheriting_of_reachable {multilevel : Bool} {algorithms : List SchedulingAlgorithm}
    {preemption : Bool} (h : Reachable step (initQueues multilevel algorithms preemption) s) :
    Inheriting s :=
  h.invariant (inheriting_init multilevel algorithms preemption)
    fun _ _ _ hs _ hstep => inheriting_step hs hstep

/-! ## The syscall handlers are runs -/

/-- What a handler does after its call is nothing or the end of the process. -/
lemma reachable_endOnFailure (p : ℕ) (called : MutexResult × Queues) :
    Reachable step called.2 (endOnFailure p called) := by
  have hexit : Reachable step called.2 (called.2.transitionExecExit p) :=
    Run.tail (.execExit p) .refl trivial rfl
  unfold endOnFailure
  split
  · exact hexit
  · exact hexit
  · exact hexit
  · exact .refl

/-- `handle_syscall_mutex_create` of a running process is a run. -/
lemma reachable_handleSyscallMutexCreate (hexec : (s.pcbs p).state = .exec) :
    Reachable step s (s.handleSyscallMutexCreate id p) := by
  have hcall : step s (.mutexCreate id p) = some (s.createAndAddMutex id true).2 := by
    simp only [step]
    rw [if_pos hexec]
  exact Run.head _ trivial hcall (reachable_endOnFailure p _)

/-- `handle_syscall_mutex_lock` of a running process is a run. -/
lemma reachable_handleSyscallMutexLock (hexec : (s.pcbs p).state = .exec)
    (h : s.handleSyscallMutexLock id p = some s') : Reachable step s s' := by
  obtain ⟨called, hrun, rfl⟩ := Option.map_eq_some_iff.1 h
  have hcall : step s (.mutexLock id p) = some called.2 := by
    simp only [step]
    rw [if_pos hexec, hrun, Option.map_some]
  exact Run.head _ trivial hcall (reachable_endOnFailure p _)

/-- `handle_syscall_mutex_unlock` of a running process is a run. -/
lemma reachable_handleSyscallMutexUnlock (hexec : (s.pcbs p).state = .exec)
    (h : s.handleSyscallMutexUnlock id p = some s') : Reachable step s s' := by
  obtain ⟨called, hrun, rfl⟩ := Option.map_eq_some_iff.1 h
  have hcall : step s (.mutexUnlock id p) = some called.2 := by
    simp only [step]
    rw [if_pos hexec, hrun, Option.map_some]
  exact Run.head _ trivial hcall (reachable_endOnFailure p _)

end OsSimulator.Scheduler
