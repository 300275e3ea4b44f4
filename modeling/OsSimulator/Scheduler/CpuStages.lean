import Mathlib.Logic.Function.Basic
import OsSimulator.Scheduler.CpuThread

set_option relaxedAutoImplicit false
set_option autoImplicit false

/-!
# The processes a CPU thread answers for

A thread takes a process from READY, gives it the state EXEC, puts it in the EXEC list and gives it
up again, and during a preemption by priority it has two processes. `CpuThread.stage` says how far
each process is, and every step of the thread moves the process of its transition by one stage.

## Main definitions

* `CpuThread.currentPcb`, `CpuThread.AtRest` — the process of a thread between two rounds.
* `CpuThread.stage` — the processes a thread answers for.
* `CpuThread.LeavesNone` — the condition on a step.

## Main results

* `CpuThread.keeps_step` — a step moves the process of its transition by one stage.
-/

namespace OsSimulator.Scheduler

namespace CpuThread

/-- The process the thread runs. After a preemption `data->pcb` is the one it has given up. -/
def currentPcb (t : CpuThread) : Option ℕ := if t.Preempted then none else t.pcb

/-- The thread has not ended. -/
def Live (t : CpuThread) : Prop := t.phase ≠ .closed

/-- The thread is not in the middle of its loop body: it is between two rounds, it waits for a
process or for its CPU, or it has ended. -/
def AtRest (t : CpuThread) : Prop :=
  t.phase = .loop ∨ t.phase = .requesting ∨ t.phase = .receiving ∨ t.phase = .closed

/-- How far a process is that a thread has taken from READY: still in the state READY, in the state
EXEC but not in the list, or in the list. -/
inductive Stage
  | taken
  | entering
  | executing
  deriving DecidableEq, Repr

/-- The processes a thread answers for. -/
def stage (t : CpuThread) (p : ℕ) : Option Stage :=
  match t.phase with
  | .requesting => none
  | .took => if t.pcb = some p then some .taken else none
  | .entering => if t.pcb = some p then some .entering else none
  | .sendingPid => if t.pcb = some p then some .executing else none
  | .preempting newPcb =>
    if t.pcb = some p then some .executing else if newPcb = p then some .taken else none
  | .replacing newPcb => if newPcb = p then some .taken else none
  | .replaced newPcb => if newPcb = p then some .entering else none
  | .sendingPreemption =>
    if (¬ t.Preempted ∨ t.preemptionReason = .higherPriorityProcess) ∧ t.pcb = some p then
      some .executing
    else none
  | .sendingNewPid => if t.pcb = some p then some .executing else none
  | .leaving =>
    if t.preemptionReason = .higherPriorityProcess ∧ t.pcb = some p then some .executing else none
  | .closed => none
  | _ => if ¬ t.Preempted ∧ t.pcb = some p then some .executing else none

/-- The steps of a thread that strand no process: the send that fails is neither the
`OP_RESUME_PROCESS` of a process from READY nor an `OP_NO_INTERRUPT`, and a thread that an operation
has stopped has preempted its process by the end of the round. -/
def LeavesNone (t : CpuThread) : Action → Prop
  | .send false => t.phase ≠ .sendingPid ∧ (t.phase = .sendingPreemption → t.Preempted)
  | .go => t.phase = .loop → t.keepRunning = false → t.Preempted
  | _ => True

end CpuThread

namespace Transition

/-- The process that is moved. -/
@[simp] def process : Transition → ℕ
  | .takeReady p => p
  | .readyExec p => p
  | .toExec p => p
  | .execReady p => p
  | .execExit p => p
  | .execBlock p => p

/-- The stage of that process before it is moved. -/
@[simp] def before : Transition → Option CpuThread.Stage
  | .takeReady _ => none
  | .readyExec _ => some .taken
  | .toExec _ => some .entering
  | _ => some .executing

/-- Its stage afterwards. -/
@[simp] def after : Transition → Option CpuThread.Stage
  | .takeReady _ => some .taken
  | .readyExec _ => some .entering
  | .toExec _ => some .executing
  | _ => none

end Transition

namespace CpuThread

/-- What is true of a thread between two steps: where it has a process, whether that is preempted,
and that a thread that leaves answers for no process but the one it puts back itself. -/
def Sound (t : CpuThread) : Prop :=
  match t.phase with
  | .requesting => t.Preempted ∧ t.preemptionReason ≠ .higherPriorityProcess
  | .took => t.Preempted ∧ t.preemptionReason ≠ .higherPriorityProcess ∧ t.pcb ≠ none
  | .entering => t.Preempted ∧ t.preemptionReason ≠ .higherPriorityProcess ∧ t.pcb ≠ none
  | .receiving => ¬ t.Preempted ∧ t.pcb ≠ none
  | .handling _ => ¬ t.Preempted ∧ t.pcb ≠ none
  | .preempting newPcb => ¬ t.Preempted ∧ t.pcb ≠ none ∧ t.pcb ≠ some newPcb
  | .replacing _ => ¬ t.Preempted
  | .replaced _ => ¬ t.Preempted
  | .sendingPreemption =>
    t.preemptionReason = .higherPriorityProcess ∨ ¬ t.Preempted → t.pcb ≠ none
  | .sendingNewPid => t.preemptionReason = .higherPriorityProcess ∧ t.pcb ≠ none
  | .leaving => t.preemptionReason ≠ .higherPriorityProcess → t.Preempted ∨ t.pcb = none
  | .closed => True
  | _ => t.preemptionReason ≠ .higherPriorityProcess ∧ (¬ t.Preempted → t.pcb ≠ none)

/-- The transition of a step moves the process it names from its stage to the next one. -/
def Follows (transition : Option Transition) (f f' : ℕ → Option Stage) : Prop :=
  match transition with
  | none => f' = f
  | some tr => f tr.process = tr.before ∧ f' = Function.update f tr.process tr.after

/-- A step that is sound and whose transition moves what it says. -/
def Keeps (t : CpuThread) (r : CpuThread × Effect) : Prop :=
  r.1.Sound ∧ Follows r.2.transition t.stage r.1.stage

variable {t : CpuThread} {r : CpuThread × Effect}

/-- A step without a transition keeps every process where it is. -/
lemma keeps_stay (hsound : r.1.Sound) (hnone : r.2.transition = none)
    (hstage : ∀ q, r.1.stage q = t.stage q) : t.Keeps r := by
  refine ⟨hsound, ?_⟩
  rw [hnone]
  funext q
  exact hstage q

/-- A step with one moves that process only. -/
lemma keeps_move {tr : Transition} (hsound : r.1.Sound) (hmove : r.2.transition = some tr)
    (hbefore : t.stage tr.process = tr.before) (hafter : r.1.stage tr.process = tr.after)
    (hstage : ∀ q, q ≠ tr.process → r.1.stage q = t.stage q) : t.Keeps r := by
  refine ⟨hsound, ?_⟩
  rw [hmove]
  refine ⟨hbefore, ?_⟩
  funext q
  by_cases hq : q = tr.process
  · rw [hq, Function.update_self]
    exact hafter
  · rw [Function.update_of_ne hq]
    exact hstage q hq

/-- A process that runs leaves EXEC. -/
lemma keeps_leave {t' : CpuThread} {p : ℕ} (tr : Transition) (hprocess : tr.process = p)
    (hbefore : tr.before = some .executing) (hafter : tr.after = none) (hsound : t'.Sound)
    (hstage : ∀ q, t.stage q = if p = q then some .executing else none)
    (hstage' : ∀ q, t'.stage q = none) (message : Option CpuMessage) :
    t.Keeps (t', ⟨some tr, message⟩) := by
  refine keeps_move hsound rfl ?_ ?_ fun q hq => ?_
  · rw [hstage, hprocess, hbefore, if_pos rfl]
  · rw [hstage', hafter]
  · show t'.stage q = t.stage q
    rw [hstage', hstage, if_neg fun heq => hq (heq.symm.trans hprocess.symm)]

/-- The handler of an operation. -/
lemma keeps_handle {opCode : CpuOpCode} {p : ℕ} (reply : Reply)
    (hphase : t.phase = .handling opCode) (hpcb : t.pcb = some p)
    (hrun : t.preemptionReason = .noPreemption) :
    t.Keeps ((t.handle opCode reply).1.goTo .queueBlocked, ⟨(t.handle opCode reply).2, none⟩) := by
  have hstage : ∀ q, t.stage q = if p = q then some .executing else none := by
    intro q
    simp [stage, hphase, hpcb, hrun]
  rcases handle_cases opCode reply t with ⟨keep, heq⟩ | ⟨reason, hpre, hhigher, heq | heq⟩
  · rw [heq]
    refine keeps_stay ?_ rfl fun q => ?_
    · simp [Sound, goTo, hrun, hpcb]
    · rw [hstage]
      simp [stage, goTo, hrun, hpcb]
  · rw [heq, hpcb]
    exact keeps_leave (.execExit p) rfl rfl rfl (by simp [Sound, goTo, hpre, hhigher]) hstage
      (fun q => by simp [stage, goTo, hpre]) none
  · rw [heq, hpcb]
    exact keeps_leave (.execBlock p) rfl rfl rfl (by simp [Sound, goTo, hpre, hhigher]) hstage
      (fun q => by simp [stage, goTo, hpre]) none

/-- `manage_queue_blocked` and `manage_end_quantum`. -/
lemma keeps_manage {reason : PreemptionReason} {due : Bool} {next : CpuThreadPhase}
    (hreason : reason ≠ .noPreemption ∧ reason ≠ .higherPriorityProcess)
    (hhere : t.phase = .queueBlocked ∨ t.phase = .endQuantum)
    (hnext : next = .endQuantum ∨ next = .preemptionPriority) (ht : t.Sound) :
    t.Keeps (t.manage reason due next) := by
  have hstage : ∀ q, t.stage q =
      if ¬ t.Preempted ∧ t.pcb = some q then some .executing else none := by
    intro q
    rcases hhere with hhere | hhere <;> simp [stage, hhere]
  have hsound : t.preemptionReason ≠ .higherPriorityProcess ∧
      (¬ t.Preempted → t.pcb ≠ none) := by
    rcases hhere with hhere | hhere <;> simpa [Sound, hhere] using ht
  unfold manage
  split
  · rename_i hcond
    obtain ⟨p, hp⟩ := Option.ne_none_iff_exists'.1 (hsound.2 hcond.1)
    rw [hp]
    refine keeps_leave (.execReady p) rfl rfl rfl ?_ (fun q => ?_) (fun q => ?_) none
    · rcases hnext with rfl | rfl <;> simp [Sound, hreason]
    · by_cases hq : p = q
      · simp [hstage, hcond.1, hp, hq]
      · simp [hstage, hp, hq]
    · rcases hnext with rfl | rfl <;> simp [stage, hreason]
  · refine keeps_stay ?_ rfl fun q => ?_
    · rcases hnext with rfl | rfl <;> simpa [Sound, goTo] using hsound
    · rw [hstage]
      rcases hnext with rfl | rfl <;> simp [stage, goTo]

/-- **What a step does to the processes of the thread**, if it meets the condition and the thread
does not already answer for the process that it takes from READY. -/
lemma keeps_step {a : Action} (ht : t.Sound) (hok : t.LeavesNone a)
    (hfree : ∀ p, r.2.transition = some (.takeReady p) → t.stage p = none)
    (h : t.step a = some r) : t.Keeps r := by
  obtain ⟨phase, pcb, keep, reason⟩ := t
  cases phase with
  | loop =>
    cases a with
    | go =>
      obtain rfl := Option.some.inj h
      cases keep with
      | false =>
        have hpre : reason ≠ .noPreemption := hok rfl rfl
        exact keeps_stay (by simp [Sound, goTo, hpre]) rfl fun q => by
          simp_all [stage, goTo, Sound]
      | true =>
        by_cases hpre : reason = .noPreemption
        · exact keeps_stay (by simpa [Sound, goTo, hpre] using ht) rfl fun q => by
            simp_all [stage, goTo, Sound]
        · exact keeps_stay (by simpa [Sound, goTo, hpre] using ht) rfl fun q => by
            simp_all [stage, goTo, Sound]
    | _ => exact absurd h (by simp [step])
  | requesting =>
    cases a with
    | takeReady next =>
      cases next with
      | none =>
        obtain rfl := Option.some.inj h
        exact keeps_stay (by simp_all [Sound]) rfl fun q => by simp [stage]
      | some p =>
        obtain rfl := Option.some.inj h
        refine keeps_move (by simp_all [Sound]) rfl (hfree p rfl) (by simp [stage]) fun q hq => ?_
        have hne : p ≠ q := Ne.symm hq
        simp [stage, hne]
    | _ => exact absurd h (by simp [step])
  | took =>
    cases a with
    | go =>
      obtain rfl := Option.some.inj h
      obtain ⟨p, rfl⟩ := Option.ne_none_iff_exists'.1 ht.2.2
      refine keeps_move (by simp_all [Sound, goTo]) rfl (by simp [stage]) (by simp [stage, goTo])
        fun q hq => ?_
      have hne : p ≠ q := Ne.symm hq
      simp [stage, goTo, hne]
    | _ => exact absurd h (by simp [step])
  | entering =>
    cases a with
    | go =>
      obtain rfl := Option.some.inj h
      obtain ⟨p, rfl⟩ := Option.ne_none_iff_exists'.1 ht.2.2
      refine keeps_move (by simp_all [Sound, goTo]) rfl (by simp [stage]) (by simp [stage, goTo])
        fun q hq => ?_
      have hne : p ≠ q := Ne.symm hq
      simp [stage, goTo, hne]
    | _ => exact absurd h (by simp [step])
  | sendingPid =>
    cases a with
    | go =>
      simp only [step] at h
      split at h
      · rename_i hnone
        obtain rfl := Option.some.inj h
        exact keeps_stay (by simp_all [Sound, stop]) rfl fun q => by simp_all [stage, stop]
      · split at h
        · exact absurd h (by simp)
        · obtain rfl := Option.some.inj h
          exact keeps_stay (by simp_all [Sound, goTo]) rfl fun q => by simp_all [stage, goTo]
    | send ok =>
      simp only [step] at h
      split at h
      · rename_i hcond
        obtain rfl := Option.some.inj h
        cases ok with
        | false => exact absurd rfl hok.1
        | true =>
          exact keeps_stay (by simp_all [Sound, sendPid]) rfl fun q => by simp_all [stage, sendPid]
      · exact absurd h (by simp)
    | _ => exact absurd h (by simp [step])
  | receiving =>
    cases a with
    | receive opCode =>
      obtain rfl := Option.some.inj h
      exact keeps_stay (by simpa [Sound, goTo] using ht) rfl fun q => by simp [stage, goTo]
    | _ => exact absurd h (by simp [step])
  | handling opCode =>
    cases a with
    | handle reply =>
      obtain rfl := Option.some.inj h
      obtain ⟨hpre, hpcb⟩ := ht
      obtain ⟨p, rfl⟩ := Option.ne_none_iff_exists'.1 hpcb
      obtain rfl : reason = .noPreemption := not_not.1 hpre
      exact keeps_handle reply rfl rfl rfl
    | _ => exact absurd h (by simp [step])
  | queueBlocked =>
    cases a with
    | due preempt =>
      obtain rfl := Option.some.inj h
      exact keeps_manage ⟨by decide, by decide⟩ (.inl rfl) (.inl rfl) ht
    | _ => exact absurd h (by simp [step])
  | endQuantum =>
    cases a with
    | due preempt =>
      obtain rfl := Option.some.inj h
      exact keeps_manage ⟨by decide, by decide⟩ (.inr rfl) (.inr rfl) ht
    | _ => exact absurd h (by simp [step])
  | preemptionPriority =>
    cases a with
    | preempt next =>
      cases next with
      | none =>
        obtain rfl := Option.some.inj h
        exact keeps_stay (by simp_all [Sound, goTo]) rfl fun q => by simp_all [stage, goTo, Sound]
      | some newPcb =>
        simp only [step] at h
        split at h
        · exact absurd h (by simp)
        · rename_i hcond
          obtain rfl := Option.some.inj h
          have hnew := hfree newPcb rfl
          obtain ⟨hpre, hpcb⟩ := not_or.1 hcond
          obtain ⟨p, rfl⟩ := Option.ne_none_iff_exists'.1 hpcb
          obtain rfl : reason = .noPreemption := not_not.1 hpre
          have hne : p ≠ newPcb := by
            rintro rfl
            simp [stage] at hnew
          refine keeps_move (by simp [Sound, goTo, hne]) rfl hnew (by simp [stage, goTo, hne])
            fun q hq => ?_
          have hq' : newPcb ≠ q := Ne.symm hq
          simp [stage, goTo, hq']
    | _ => exact absurd h (by simp [step])
  | preempting newPcb =>
    cases a with
    | go =>
      obtain rfl := Option.some.inj h
      obtain ⟨hpre, hpcb, hne⟩ := ht
      obtain ⟨p, rfl⟩ := Option.ne_none_iff_exists'.1 hpcb
      have hne' : p ≠ newPcb := fun heq => hne (congrArg some heq)
      refine keeps_move (by simpa [Sound, goTo] using hpre) rfl (by simp [stage])
        (by simp [stage, goTo, hne'.symm]) fun q hq => ?_
      have hq' : p ≠ q := Ne.symm hq
      simp [stage, goTo, hq']
    | _ => exact absurd h (by simp [step])
  | replacing newPcb =>
    cases a with
    | go =>
      obtain rfl := Option.some.inj h
      refine keeps_move (by simpa [Sound, goTo] using ht) rfl (by simp [stage])
        (by simp [stage, goTo]) fun q hq => ?_
      have hq' : newPcb ≠ q := Ne.symm hq
      simp [stage, goTo, hq']
    | _ => exact absurd h (by simp [step])
  | replaced newPcb =>
    cases a with
    | go =>
      obtain rfl := Option.some.inj h
      refine keeps_move (by simp [Sound, replaceBy]) rfl (by simp [stage])
        (by simp [stage, replaceBy]) fun q hq => ?_
      have hq' : newPcb ≠ q := Ne.symm hq
      simp [stage, replaceBy, hq']
    | _ => exact absurd h (by simp [step])
  | sendingPreemption =>
    cases a with
    | send ok =>
      cases ok with
      | true =>
        obtain rfl := Option.some.inj h
        by_cases hhigher : reason = .higherPriorityProcess
        · exact keeps_stay (by simp_all [Sound, goTo]) rfl fun q => by simp_all [stage, goTo]
        · exact keeps_stay (by simp_all [Sound, goTo]) rfl fun q => by simp_all [stage, goTo]
      | false =>
        obtain rfl := Option.some.inj h
        have hpre : reason ≠ .noPreemption := hok.2 rfl
        refine keeps_stay (by simp [Sound, stop, hpre]) rfl fun q => ?_
        by_cases hhigher : reason = .higherPriorityProcess
        · simp [stage, stop, hhigher]
        · simp [stage, stop, hpre, hhigher]
    | _ => exact absurd h (by simp [step])
  | sendingNewPid =>
    cases a with
    | send ok =>
      obtain rfl := Option.some.inj h
      cases ok with
      | true =>
        exact keeps_stay (by simp_all [Sound, sendPid]) rfl fun q => by simp_all [stage, sendPid]
      | false =>
        exact keeps_stay (by simp_all [Sound, sendPid, stop]) rfl fun q => by
          simp_all [stage, sendPid, stop, Sound]
    | _ => exact absurd h (by simp [step])
  | leaving =>
    cases a with
    | go =>
      obtain rfl := Option.some.inj h
      by_cases hhigher : reason = .higherPriorityProcess
      · cases pcb with
        | none => exact keeps_stay (by simp [Sound, goTo]) (by simp) fun q => by simp [stage, goTo]
        | some p =>
          refine keeps_move (by simp [Sound, goTo])
            (show _ = some (Transition.execReady p) by simp [hhigher]) (by simp [stage, hhigher])
            (by simp [stage, goTo]) fun q hq => ?_
          have hq' : p ≠ q := Ne.symm hq
          simp [stage, goTo, hq']
      · exact keeps_stay (by simp [Sound, goTo]) (by simp [hhigher]) fun q => by
          simp [stage, goTo, hhigher]
    | _ => exact absurd h (by simp [step])
  | closed => exact absurd h (by simp [step])

end CpuThread

end OsSimulator.Scheduler
