import OsSimulator.Scheduler.CpuThread

set_option relaxedAutoImplicit false
set_option autoImplicit false

/-!
# What a CPU thread is about to say

Towards its CPU the thread is at any moment in one of three states: it looks for a process to hand
over, it waits for an operation of the process it has handed over, or it decides whether that
process goes on. Each message of the thread takes it from one to another. `executing` is the list of
the processes that the thread has put in EXEC and has not taken out of it since.

## Main definitions

* `Transition.executing` — what a transition does to the processes in EXEC.
* `CpuThread.PeersConnected` — the actions of a thread whose peers answer.
* `CpuThread.Seeking`, `CpuThread.Serving`, `CpuThread.Deciding` — the three states.

## Main results

* `CpuThread.seeking_step`, `CpuThread.serving_step`, `CpuThread.deciding_step` — the messages that
  lead from each of them to the others.
-/

namespace OsSimulator.Scheduler

/-- The processes of a thread that are in EXEC, after a transition. -/
def Transition.executing : Transition → List ℕ → List ℕ
  | .toExec p, executing => p :: executing
  | .execReady p, executing => executing.filter (· ≠ p)
  | .execExit p, executing => executing.filter (· ≠ p)
  | .execBlock p, executing => executing.filter (· ≠ p)
  | _, executing => executing

namespace CpuThread

/-- The processes in EXEC after a step of the thread. -/
def Effect.executing (effect : Effect) (executing : List ℕ) : List ℕ :=
  effect.transition.elim executing fun tr => tr.executing executing

/-- The sends of the thread succeed, what it receives is an operation, and Kernel Memory, which
answers every `OP_MEM_FREE` with a success, is there. -/
def PeersConnected (t : CpuThread) : Action → Prop
  | .send ok => ok = true
  | .receive opCode => opCode ≠ .invalid
  | .handle reply => t.phase = .handling .memFree → reply.succeeded = true
  | _ => True

instance (t : CpuThread) : DecidablePred t.PeersConnected := fun a =>
  match a with
  | .send ok => inferInstanceAs (Decidable (ok = true))
  | .receive opCode => inferInstanceAs (Decidable (opCode ≠ .invalid))
  | .handle reply =>
    inferInstanceAs (Decidable (t.phase = .handling .memFree → reply.succeeded = true))
  | .go => .isTrue trivial
  | .takeReady _ => .isTrue trivial
  | .due _ => .isTrue trivial
  | .preempt _ => .isTrue trivial

/-- The thread has handed over `p`, which is in EXEC, and waits for an operation of it. -/
structure Serving (p : ℕ) (t : CpuThread) (executing : List ℕ) : Prop where
  keepRunning : t.keepRunning = true
  running : t.preemptionReason = .noPreemption
  pcb : t.pcb = some p
  mem : p ∈ executing
  phase : t.phase = .loop ∨ t.phase = .sendingPid ∨ t.phase = .receiving

/-- The thread has no process on its CPU. The next one is in EXEC when its pid is sent. -/
def Seeking (t : CpuThread) (executing : List ℕ) : Prop :=
  match t.phase with
  | .loop => t.keepRunning = true ∧ t.Preempted ∧ t.preemptionReason ≠ .higherPriorityProcess
  | .requesting => t.keepRunning = true ∧ t.Preempted
  | .took => t.keepRunning = true ∧ t.Preempted
  | .entering => t.keepRunning = true ∧ t.Preempted
  | .sendingPid => t.keepRunning = true ∧ t.Preempted ∧ ∀ q, t.pcb = some q → q ∈ executing
  | .sendingNewPid => t.keepRunning = true ∧ ∃ q, t.pcb = some q ∧ q ∈ executing
  | .leaving => True
  | .closed => True
  | _ => False

/-- The thread has received an operation of `p`, and the CPU waits for its decision. -/
def Deciding (p : ℕ) (t : CpuThread) (executing : List ℕ) : Prop :=
  t.keepRunning = true ∧
  match t.phase with
  | .handling opCode =>
    opCode ≠ .invalid ∧ t.preemptionReason = .noPreemption ∧ t.pcb = some p ∧ p ∈ executing
  | .queueBlocked => t.preemptionReason ≠ .higherPriorityProcess ∧
      (t.preemptionReason = .noPreemption → t.pcb = some p ∧ p ∈ executing)
  | .endQuantum => t.preemptionReason ≠ .higherPriorityProcess ∧
      (t.preemptionReason = .noPreemption → t.pcb = some p ∧ p ∈ executing)
  | .preemptionPriority => t.preemptionReason ≠ .higherPriorityProcess ∧
      (t.preemptionReason = .noPreemption → t.pcb = some p ∧ p ∈ executing)
  | .preempting _ => True
  | .replacing _ => True
  | .replaced _ => True
  | .sendingPreemption => (t.preemptionReason = .noPreemption → t.pcb = some p ∧ p ∈ executing) ∧
      (t.preemptionReason = .higherPriorityProcess → ∃ q, t.pcb = some q ∧ q ∈ executing)
  | _ => False

/-- A thread begins by looking for a process. -/
lemma seeking_init : initDataThreadCpu.Seeking [] := ⟨rfl, by decide, by decide⟩

variable {p : ℕ} {t : CpuThread} {executing : List ℕ} {a : Action} {r : CpuThread × Effect}

/-- Only a failed `OP_MEM_FREE` and an unknown operation stop the thread. -/
lemma keepRunning_handle {opCode : CpuOpCode} {reply : Reply} (hopCode : opCode ≠ .invalid)
    (hreply : opCode = .memFree → reply.succeeded = true) :
    (t.handle opCode reply).1.keepRunning = t.keepRunning := by
  cases opCode with
  | memFree =>
    show (t.handleSyscallMemoryFree reply).1.keepRunning = t.keepRunning
    rw [handleSyscallMemoryFree, if_pos (hreply rfl)]
  | mutexCreate =>
    show (t.handleSyscallMutexCreate reply).1.keepRunning = t.keepRunning
    unfold handleSyscallMutexCreate
    split <;> rfl
  | mutexLock =>
    show (t.handleSyscallMutexLock reply).1.keepRunning = t.keepRunning
    unfold handleSyscallMutexLock
    split <;> rfl
  | mutexUnlock =>
    show (t.handleSyscallMutexUnlock reply).1.keepRunning = t.keepRunning
    unfold handleSyscallMutexUnlock
    split <;> rfl
  | memAlloc =>
    show (t.handleSyscallMemoryAllocation reply).1.keepRunning = t.keepRunning
    unfold handleSyscallMemoryAllocation
    split <;> rfl
  | sleep =>
    show (t.handleSyscallIo reply).1.keepRunning = t.keepRunning
    unfold handleSyscallIo
    split <;> rfl
  | stdout =>
    show (t.handleSyscallIo reply).1.keepRunning = t.keepRunning
    unfold handleSyscallIo
    split <;> rfl
  | stdin =>
    show (t.handleSyscallIo reply).1.keepRunning = t.keepRunning
    unfold handleSyscallIo
    split <;> rfl
  | invalid => exact absurd rfl hopCode
  | _ => rfl

/-- **A thread that waits for an operation says nothing**, and with the operation it decides. -/
lemma serving_step (h : t.Serving p executing) (hpeers : t.PeersConnected a)
    (hstep : t.step a = some r) : r.2 = .none ∧
      (r.1.Serving p executing ∧ (∀ opCode, a ≠ .receive opCode) ∨
        r.1.Deciding p executing ∧ ∃ opCode, a = .receive opCode) := by
  obtain ⟨phase, pcb, keep, reason⟩ := t
  obtain ⟨rfl, rfl, rfl, hmem, hphase⟩ := h
  simp only at hphase
  rcases hphase with rfl | rfl | rfl
  · cases a with
    | go =>
      obtain rfl := Option.some.inj hstep
      exact ⟨rfl, .inl ⟨⟨rfl, rfl, rfl, hmem, .inr (.inl rfl)⟩, by simp⟩⟩
    | _ => exact absurd hstep (by simp [step])
  · cases a with
    | go =>
      obtain rfl := Option.some.inj hstep
      exact ⟨rfl, .inl ⟨⟨rfl, rfl, rfl, hmem, .inr (.inr rfl)⟩, by simp⟩⟩
    | _ => exact absurd hstep (by simp [step])
  · cases a with
    | receive opCode =>
      obtain rfl := Option.some.inj hstep
      exact ⟨rfl, .inr ⟨⟨rfl, hpeers, rfl, rfl, hmem⟩, opCode, rfl⟩⟩
    | _ => exact absurd hstep (by simp [step])

/-- **A thread without a process on its CPU says at most a pid**, with which the process is in EXEC
and the thread waits for its operations. -/
lemma seeking_step (h : t.Seeking executing) (hpeers : t.PeersConnected a)
    (hstep : t.step a = some r) :
    r.2.message = none ∧ r.1.Seeking (r.2.executing executing) ∨
      ∃ q, r.2.message = some (.resumeProcess q) ∧ r.1.Serving q (r.2.executing executing) := by
  obtain ⟨phase, pcb, keep, reason⟩ := t
  cases phase with
  | loop =>
    obtain ⟨rfl, hpre, hhigher⟩ := h
    cases a with
    | go =>
      obtain rfl := Option.some.inj hstep
      refine .inl ⟨rfl, ?_⟩
      simp [goTo, hpre, Seeking]
    | _ => exact absurd hstep (by simp [step])
  | requesting =>
    obtain ⟨rfl, hpre⟩ := h
    cases a with
    | takeReady next =>
      cases next with
      | none =>
        obtain rfl := Option.some.inj hstep
        exact .inl ⟨rfl, rfl, hpre, by simp⟩
      | some q =>
        obtain rfl := Option.some.inj hstep
        exact .inl ⟨rfl, rfl, hpre⟩
    | _ => exact absurd hstep (by simp [step])
  | took =>
    obtain ⟨rfl, hpre⟩ := h
    cases a with
    | go =>
      obtain rfl := Option.some.inj hstep
      exact .inl ⟨rfl, rfl, hpre⟩
    | _ => exact absurd hstep (by simp [step])
  | entering =>
    obtain ⟨rfl, hpre⟩ := h
    cases a with
    | go =>
      obtain rfl := Option.some.inj hstep
      refine .inl ⟨rfl, rfl, hpre, fun q hq => ?_⟩
      obtain rfl : pcb = some q := hq
      exact List.mem_cons_self
    | _ => exact absurd hstep (by simp [step])
  | sendingPid =>
    obtain ⟨rfl, hpre, hmem⟩ := h
    cases a with
    | go =>
      cases pcb with
      | none =>
        obtain rfl := Option.some.inj hstep
        exact .inl ⟨rfl, trivial⟩
      | some q => exact absurd hstep (by simp_all [step])
    | send ok =>
      obtain rfl : ok = true := hpeers
      cases pcb with
      | none => exact absurd hstep (by simp [step])
      | some q =>
        obtain rfl : _ = r := by simpa [step, hpre] using hstep
        exact .inr ⟨q, rfl, rfl, rfl, rfl, hmem q rfl, .inr (.inr rfl)⟩
    | _ => exact absurd hstep (by simp [step])
  | sendingNewPid =>
    obtain ⟨rfl, q, rfl, hmem⟩ := h
    cases a with
    | send ok =>
      obtain rfl : ok = true := hpeers
      obtain rfl := Option.some.inj hstep
      exact .inr ⟨q, rfl, rfl, rfl, rfl, hmem, .inl rfl⟩
    | _ => exact absurd hstep (by simp [step])
  | leaving =>
    cases a with
    | go =>
      obtain rfl := Option.some.inj hstep
      exact .inl ⟨rfl, trivial⟩
    | _ => exact absurd hstep (by simp [step])
  | closed => exact absurd hstep (by simp [step])
  | _ => exact h.elim

/-- What a step of a thread that decides leads to: it still decides, or it has sent its decision. -/
def Decides (p : ℕ) (executing : List ℕ) (r : CpuThread × Effect) : Prop :=
  r.2.message = none ∧ r.1.Deciding p (r.2.executing executing) ∨
    (∃ text, r.2.message = some (.noInterrupt text) ∧ r.1.Serving p (r.2.executing executing)) ∨
    ∃ text, r.2.message = some (.interrupt text) ∧ r.1.Seeking (r.2.executing executing)

/-- A handler decides about the process it is called for. -/
lemma decides_handle {opCode : CpuOpCode} {reply : Reply} (hphase : t.phase = .handling opCode)
    (h : t.Deciding p executing) (hpeers : t.PeersConnected (.handle reply)) :
    Decides p executing
      ((t.handle opCode reply).1.goTo .queueBlocked, ⟨(t.handle opCode reply).2, none⟩) := by
  obtain ⟨phase, pcb, keep, reason⟩ := t
  obtain rfl : phase = .handling opCode := hphase
  obtain ⟨rfl, hopCode, rfl, rfl, hmem⟩ := h
  have hkeep := keepRunning_handle (t := ⟨.handling opCode, some p, true, .noPreemption⟩) hopCode
    fun h => hpeers (congrArg CpuThreadPhase.handling h)
  rcases handle_cases opCode reply ⟨.handling opCode, some p, true, .noPreemption⟩ with
    ⟨keep, heq⟩ | ⟨reason, hpre, hhigher, heq | heq⟩
  · rw [heq] at hkeep ⊢
    obtain rfl : keep = true := hkeep
    exact .inl ⟨rfl, rfl, PreemptionReason.noConfusion, fun _ => ⟨rfl, hmem⟩⟩
  · rw [heq]
    exact .inl ⟨rfl, rfl, hhigher, fun h => absurd h hpre⟩
  · rw [heq]
    exact .inl ⟨rfl, rfl, hhigher, fun h => absurd h hpre⟩

/-- `manage_queue_blocked` and `manage_end_quantum`. -/
lemma decides_manage {reason : PreemptionReason} {due : Bool} {next : CpuThreadPhase}
    (hreason : reason ≠ .noPreemption ∧ reason ≠ .higherPriorityProcess)
    (hnext : next = .endQuantum ∨ next = .preemptionPriority) (hkeep : t.keepRunning = true)
    (hhigher : t.preemptionReason ≠ .higherPriorityProcess)
    (hpcb : t.preemptionReason = .noPreemption → t.pcb = some p ∧ p ∈ executing) :
    Decides p executing (t.manage reason due next) := by
  unfold manage
  split
  · rcases hnext with rfl | rfl
    · exact .inl ⟨rfl, hkeep, hreason.2, fun h => absurd h hreason.1⟩
    · exact .inl ⟨rfl, hkeep, hreason.2, fun h => absurd h hreason.1⟩
  · rcases hnext with rfl | rfl
    · exact .inl ⟨rfl, hkeep, hhigher, hpcb⟩
    · exact .inl ⟨rfl, hkeep, hhigher, hpcb⟩

/-- `send_preemption`. -/
lemma decides_sendPreemption (hphase : t.phase = .sendingPreemption)
    (h : t.Deciding p executing) :
    Decides p executing
      (t.goTo (if t.preemptionReason = .higherPriorityProcess then .sendingNewPid else .loop),
        ⟨none, some t.preemptionMessage⟩) := by
  obtain ⟨phase, pcb, keep, reason⟩ := t
  obtain rfl : phase = .sendingPreemption := hphase
  obtain ⟨rfl, hrun, hnew⟩ := h
  by_cases hpre : reason = .noPreemption
  · obtain ⟨rfl, hmem⟩ := hrun hpre
    subst hpre
    exact .inr (.inl ⟨_, rfl, rfl, rfl, rfl, hmem, .inl rfl⟩)
  · refine .inr (.inr ⟨reason.text, ?_, ?_⟩)
    · show some (preemptionMessage _) = _
      rw [preemptionMessage, if_pos hpre]
    · by_cases hhigher : reason = .higherPriorityProcess
      · subst hhigher
        exact ⟨rfl, hnew rfl⟩
      · show Seeking (goTo (if reason = .higherPriorityProcess then _ else _) _) executing
        rw [if_neg hhigher]
        exact ⟨rfl, hpre, hhigher⟩

/-- **A thread that decides says at most its decision**: after `OP_NO_INTERRUPT` it serves the same
process, after `OP_INTERRUPT` it seeks another. -/
lemma deciding_step (h : t.Deciding p executing) (hpeers : t.PeersConnected a)
    (hstep : t.step a = some r) : Decides p executing r := by
  obtain ⟨phase, pcb, keep, reason⟩ := t
  cases phase with
  | handling opCode =>
    cases a with
    | handle reply =>
      obtain rfl := Option.some.inj hstep
      exact decides_handle rfl h hpeers
    | _ => exact absurd hstep (by simp [step])
  | queueBlocked =>
    obtain ⟨hkeep, hhigher, hpcb⟩ := h
    cases a with
    | due preempt =>
      obtain rfl := Option.some.inj hstep
      exact decides_manage ⟨by decide, by decide⟩ (.inl rfl) hkeep hhigher hpcb
    | _ => exact absurd hstep (by simp [step])
  | endQuantum =>
    obtain ⟨hkeep, hhigher, hpcb⟩ := h
    cases a with
    | due preempt =>
      obtain rfl := Option.some.inj hstep
      exact decides_manage ⟨by decide, by decide⟩ (.inr rfl) hkeep hhigher hpcb
    | _ => exact absurd hstep (by simp [step])
  | preemptionPriority =>
    obtain ⟨hkeep, hhigher, hpcb⟩ := h
    cases a with
    | preempt next =>
      cases next with
      | none =>
        obtain rfl := Option.some.inj hstep
        exact .inl ⟨rfl, hkeep, hpcb, fun h => absurd h hhigher⟩
      | some newPcb =>
        simp only [step] at hstep
        split at hstep
        · exact absurd hstep (by simp)
        · obtain rfl := Option.some.inj hstep
          exact .inl ⟨rfl, hkeep, trivial⟩
    | _ => exact absurd hstep (by simp [step])
  | preempting newPcb =>
    cases a with
    | go =>
      obtain rfl := Option.some.inj hstep
      exact .inl ⟨rfl, h.1, trivial⟩
    | _ => exact absurd hstep (by simp [step])
  | replacing newPcb =>
    cases a with
    | go =>
      obtain rfl := Option.some.inj hstep
      exact .inl ⟨rfl, h.1, trivial⟩
    | _ => exact absurd hstep (by simp [step])
  | replaced newPcb =>
    cases a with
    | go =>
      obtain rfl := Option.some.inj hstep
      exact .inl ⟨rfl, h.1, fun h => PreemptionReason.noConfusion h,
        fun _ => ⟨newPcb, rfl, List.mem_cons_self⟩⟩
    | _ => exact absurd hstep (by simp [step])
  | sendingPreemption =>
    cases a with
    | send ok =>
      obtain rfl : ok = true := hpeers
      obtain rfl := Option.some.inj hstep
      exact decides_sendPreemption rfl h
    | _ => exact absurd hstep (by simp [step])
  | _ => exact h.2.elim

end CpuThread

end OsSimulator.Scheduler
