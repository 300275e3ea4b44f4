import OsSimulator.Library.WorkerGroup
import OsSimulator.Scheduler.CpuThread

set_option relaxedAutoImplicit false
set_option autoImplicit false

/-!
# The CPUs of the scheduler come and go

`server_listen` accepts the CPUs, `handle_new_cpu` enters each connection in `list_sockets_cpu` and
starts a detached `handle_cpu_client`, and `close_cpu` ends them before the queues, the mutexes and
the IO structures, on which the threads work, are freed. A thread may be anywhere in its cycle when
its connection is shut down: in a syscall, in a preemption, or between taking a process from READY
and sending it.

## Main definitions

* `OpenCpuThread`, `handleCpuClient` — the thread of a CPU, as a job of a group.
* `CpuGroup`, `CpuGroup.init`, `CpuGroup.step` — the group.

## Main results

* `CpuGroup.uses_live` — no thread uses what has been freed.
* `CpuGroup.leave_of_shutdown` — a thread leaves within one cycle, and the scheduler can close.
-/

namespace OsSimulator.Scheduler

/-- A thread that is in `handle_cpu_client`. -/
abbrev OpenCpuThread := { t : CpuThread // t.phase ≠ .closed }

/-- `handle_cpu_client`, where the choice is what a step depends on. On a connection that has been
shut down nothing can be sent; an operation that has arrived before is still received. -/
def handleCpuClient : Job Empty CpuThread.Action OpenCpuThread where
  start := ⟨initDataThreadCpu, by decide⟩
  arrive := nofun
  turn a shut t :=
    if shut = true ∧ a = .send true then none
    else (t.1.step a).map fun after =>
      if h : after.1.phase = .closed then none else some ⟨after.1, h⟩

/-! ## A thread leaves its loop -/

/-- The steps that a thread takes at most once its connection has been shut down. -/
def CpuThreadPhase.toLeave : CpuThreadPhase → ℕ
  | closed => 0
  | leaving => 1
  | sendingPreemption | sendingNewPid => 2
  | replaced _ => 3
  | replacing _ => 4
  | preempting _ => 5
  | preemptionPriority => 6
  | endQuantum => 7
  | queueBlocked => 8
  | handling _ => 9
  | receiving => 10
  | sendingPid => 11
  | entering => 12
  | took => 13
  | requesting => 14
  | loop => 15

/-- A CPU thread is never further than fifteen steps from its end. -/
lemma CpuThreadPhase.toLeave_le (phase : CpuThreadPhase) : phase.toLeave ≤ 15 := by
  cases phase <;> simp [toLeave]

/-- Without a successful send, every step leads on in the cycle. -/
lemma CpuThread.toLeave_step {t t' : CpuThread} {a : CpuThread.Action} {effect : CpuThread.Effect}
    (hsend : a ≠ .send true) (hst : t.step a = some (t', effect)) :
    t'.phase.toLeave < t.phase.toLeave := by
  unfold step at hst
  split at hst <;> grind [goTo, stop, manage, sendPid, replaceBy, CpuThreadPhase.toLeave]

/-- There is always a step, if the calls return. -/
lemma CpuThread.exists_step {t : CpuThread} (hopen : t.phase ≠ .closed) :
    ∃ a, a ≠ .send true ∧ (t.step a).isSome = true := by
  cases hphase : t.phase with
  | closed => exact absurd hphase hopen
  | loop | took | entering | preempting _ | replacing _ | replaced _ | leaving =>
    exact ⟨.go, by simp, by simp [step, hphase]⟩
  | requesting => exact ⟨.takeReady none, by simp, by simp [step, hphase]⟩
  | sendingPid =>
    by_cases hsend : t.pcb ≠ none ∧ t.Preempted
    · exact ⟨.send false, by simp, by simp [step, hphase, hsend]⟩
    · refine ⟨.go, by simp, ?_⟩
      simp only [step, hphase]
      grind
  | receiving => exact ⟨.receive .invalid, by simp, by simp [step, hphase]⟩
  | handling opCode => exact ⟨.handle ⟨.mutexCreated, true⟩, by simp, by simp [step, hphase]⟩
  | queueBlocked | endQuantum => exact ⟨.due false, by simp, by simp [step, hphase]⟩
  | preemptionPriority => exact ⟨.preempt none, by simp, by simp [step, hphase]⟩
  | sendingPreemption | sendingNewPid => exact ⟨.send false, by simp, by simp [step, hphase]⟩

/-- **The loop ends** once the connection has been shut down. -/
lemma ends_handleCpuClient :
    WorkerGroup.Ends handleCpuClient fun t : OpenCpuThread => t.1.phase.toLeave where
  goes t := by
    obtain ⟨a, hsend, hsome⟩ := CpuThread.exists_step t.2
    refine ⟨a, ?_⟩
    dsimp only [handleCpuClient]
    rw [if_neg fun h => hsend h.2, Option.isSome_map, hsome]
  leaves a t t' hturn := by
    dsimp only [handleCpuClient] at hturn
    split at hturn
    · exact absurd hturn (by simp)
    · rename_i hsend
      obtain ⟨⟨after, effect⟩, hafter, hnext⟩ := Option.map_eq_some_iff.1 hturn
      dsimp only at hnext
      split at hnext
      · exact absurd hnext (by simp)
      · obtain rfl := Option.some.inj hnext
        exact CpuThread.toLeave_step (fun h => hsend ⟨rfl, h⟩) hafter

/-! ## The threads of the scheduler -/

/-- The listener of the scheduler with the threads of the CPUs. -/
abbrev CpuGroup (ι : Type) := WorkerGroup ι OpenCpuThread

namespace CpuGroup

variable {ι : Type}

/-- `server_listen` has begun. -/
def init : CpuGroup ι := WorkerGroup.init

variable [DecidableEq ι]

/-- One step of the listener or of a thread. -/
def step (s : CpuGroup ι) (a : WorkerGroup.Action ι Empty CpuThread.Action) : Option (CpuGroup ι) :=
  WorkerGroup.step handleCpuClient s a

/-- The invariant holds in every run. -/
lemma sound_of_reachable {s : CpuGroup ι} (h : Reachable step init s) : WorkerGroup.Sound s :=
  Run.invariant (I := WorkerGroup.Sound) h WorkerGroup.sound_init fun _ _ _ hI _ hst => hI.step hst

/-- **Nothing is used after it has been freed.** In every run, whatever a step of the listener or of
the thread of a CPU works on, or frees, is there: a connection, the data of its thread,
`list_sockets_cpu` with its condition and its mutex, and what all threads share, which
`close_module` frees. -/
theorem uses_live {s t : CpuGroup ι} {a : WorkerGroup.Action ι Empty CpuThread.Action}
    (h : Reachable step init s) (hst : s.step a = some t) : ∀ r ∈ s.uses a, s.live r = true :=
  (sound_of_reachable h).live_of_uses hst

/-- A CPU is connected, and its thread has taken a process from READY but not sent it yet when the
listener has shut the connection down and waits. -/
def closingAtTaking : List (WorkerGroup.Action (Fin 2) Empty CpuThread.Action) :=
  [.accept (some 1), .greeted true, .listener, .listener, .spawned true, .worker 1 .go,
    .worker 1 (.takeReady (some 7)), .accept none, .listener, .listener, .listener, .listener]

/-- The group closes while a CPU thread looks for a process. -/
lemma exists_closingAtTaking :
    ∃ s : CpuGroup (Fin 2), Reachable step init s ∧ s.listener = .parked ∧
      (s.step (.worker 1 .go)).isSome = true := by
  have htest : (execute step init closingAtTaking).any (fun s : CpuGroup (Fin 2) =>
      decide (s.listener = .parked) && (s.step (.worker 1 .go)).isSome) = true := by
    decide +kernel
  obtain ⟨s, hs, htest⟩ := (Option.any_eq_true _ _).1 htest
  obtain ⟨hparked, hstep⟩ := Bool.and_eq_true_iff.1 htest
  exact ⟨s, Run.of_execute hs, of_decide_eq_true hparked, hstep⟩

/-- What it uses then still exists. -/
theorem uses_live_closingAtTaking :
    ∃ s t : CpuGroup (Fin 2), Reachable step init s ∧ s.step (.worker 1 .go) = some t ∧
      ∀ r ∈ s.uses (.worker 1 .go : WorkerGroup.Action (Fin 2) Empty CpuThread.Action),
        s.live r = true := by
  obtain ⟨s, hrun, -, hstep⟩ := exists_closingAtTaking
  obtain ⟨t, ht⟩ := Option.isSome_iff_exists.1 hstep
  exact ⟨s, t, hrun, ht, uses_live hrun ht⟩

/-- **The scheduler closes.** If the calls of the threads return, their steps and those of
`close_cpu` lead from every state of a run in which no CPU is accepted any more to one in which
everything has been freed. Once every connection has been shut down, a thread takes at most fifteen
steps to the end of its cycle, whatever it is in the middle of and whatever its calls return, and
all together take no more than is said here. -/
theorem leave_of_shutdown [Fintype ι] {s : CpuGroup ι} (h : Reachable step init s)
    (hclosing : s.listener.isClosing = true) :
    (∃ as t, as.all WorkerGroup.Action.isThreadStep = true ∧ execute step s as = some t ∧
      ∀ r, t.live r = false) ∧
    (s.listener.toShut = some [] → ∀ as t, execute step s as = some t →
      as.countP WorkerGroup.Action.isThreadStep ≤
        7 + 23 * Fintype.card ι + 2 * as.countP WorkerGroup.Action.isSpurious) := by
  have hsound := sound_of_reachable h
  refine ⟨hsound.exists_end ends_handleCpuClient hclosing, fun hshut as t hst => ?_⟩
  have hbound := hsound.countP_threadStep_le ends_handleCpuClient hshut hst
  have hthread : ∀ phase : MemberPhase OpenCpuThread,
      WorkerGroup.workerRank (fun t : OpenCpuThread => t.1.phase.toLeave) phase ≤ 23 := by
    intro phase
    cases phase with
    | working t => simpa [WorkerGroup.workerRank] using t.1.phase.toLeave_le
    | _ => simp [WorkerGroup.workerRank]
  have hthreads := threadRank_le hthread s.worker
  have hlistener : s.listener.rank s.list.length ≤ 7 := by
    cases hphase : s.listener <;>
      simp_all [ListenPhase.toShut, ListenPhase.rank]
  simp only [WorkerGroup.closingRank] at hbound
  omega

/-- And everything is given back in the end. -/
theorem leave_of_shutdown_closingAtTaking :
    ∃ s : CpuGroup (Fin 2), Reachable step init s ∧
      (∃ as t, as.all WorkerGroup.Action.isThreadStep = true ∧ execute step s as = some t ∧
        ∀ r, t.live r = false) ∧
      (s.listener.toShut = some [] → ∀ as t, execute step s as = some t →
        as.countP WorkerGroup.Action.isThreadStep ≤
          7 + 23 * Fintype.card (Fin 2) + 2 * as.countP WorkerGroup.Action.isSpurious) := by
  obtain ⟨s, hrun, hparked, -⟩ := exists_closingAtTaking
  exact ⟨s, hrun, leave_of_shutdown hrun (by rw [hparked]; rfl)⟩

end CpuGroup

end OsSimulator.Scheduler
