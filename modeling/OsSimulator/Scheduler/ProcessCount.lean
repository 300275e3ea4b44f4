import Mathlib.Data.Int.Notation
import Mathlib.Data.List.Basic
import Mathlib.Logic.Function.Basic
import OsSimulator.Library.Runs
import OsSimulator.Utils.Msg

set_option relaxedAutoImplicit false
set_option autoImplicit false

/-!
# The end of the last process

`active_process_count` is incremented by the thread that creates a process and decremented by the
one that has ended it, in any order and without a lock. Who brings it to zero calls
`close_kernel_scheduler`, which other threads call as well, for other reasons. A process is created
by `server_listen`, once, or by the CPU thread of a process that executes `INIT_PROC`; that thread
is at work on the new process, and not on its own, until the new one is in READY or has ended.

## Main definitions

* `ShutdownReason`, `checkReasonShutdown` — why the scheduler shuts down.
* `Processes`, `Processes.step` — the processes with the counter.

## Main results

* `Processes.shutdown_of_run` — the scheduler shuts down for lack of processes exactly when there
  are none.
-/

namespace OsSimulator.Scheduler

/-! ## The reasons -/

/-- `t_shutdown_reason`. -/
inductive ShutdownReason
  | noProcesses
  | corruptedMemory
  | kernelMemoryConnectionFailure
  | unknownCause
  | kernelMemorySendError
  deriving DecidableEq, Repr

/-- `SHUTDOWN_REASONS`. -/
def SHUTDOWN_REASONS : List String :=
  ["Processes finished successfully", "BSOD: Corruption of memory detected",
    "Connection error with Kernel Memory", "Unknown error"]

/-- The text that `log_shutdown` finds in the table, which is shorter than the enumeration. -/
def ShutdownReason.text : ShutdownReason → Option String
  | noProcesses => SHUTDOWN_REASONS[0]?
  | corruptedMemory => SHUTDOWN_REASONS[1]?
  | kernelMemoryConnectionFailure => SHUTDOWN_REASONS[2]?
  | unknownCause => SHUTDOWN_REASONS[3]?
  | kernelMemorySendError => SHUTDOWN_REASONS[4]?

/-- The loop of `check_reason_shutdown` on the codes of the messages that Kernel Memory has still
sent: it ends with the connection. -/
def receiveReason : List ℤ → ShutdownReason
  | [] => .kernelMemoryConnectionFailure
  | opCode :: rest =>
    if opCode = OP_CODE_ERROR then .kernelMemoryConnectionFailure
    else if opCode = OP_MEMORY_CORRUPTED then .corruptedMemory
    else receiveReason rest

/-- `check_reason_shutdown`. -/
def checkReasonShutdown (reason : ShutdownReason) (opCodes : List ℤ) : ShutdownReason :=
  if reason ≠ .kernelMemorySendError then reason else receiveReason opCodes

/-- Whatever the reason is, there is a text for it. -/
lemma isSome_text_checkReasonShutdown (reason : ShutdownReason) (opCodes : List ℤ) :
    (checkReasonShutdown reason opCodes).text.isSome = true := by
  have hreceive : (receiveReason opCodes).text.isSome = true := by
    induction opCodes with
    | nil => rfl
    | cons opCode rest ih =>
      unfold receiveReason
      split
      · rfl
      · split
        · rfl
        · exact ih
  unfold checkReasonShutdown
  split
  · rename_i hreason
    cases reason <;> first | rfl | exact absurd rfl hreason
  · exact hreceive

/-! ## The processes -/

/-- The life of a process: before `create_pcb`; in `notify_new_process`; in the lists; in
`transition_to_exit`, before and after `destroy_pcb`; and after the decrement, which may have left
it the call of `close_kernel_scheduler`. -/
inductive Life
  | unborn
  | starting
  | running
  | ending
  | destroyed
  | last
  | finished
  deriving DecidableEq, Repr

/-- The process is counted. -/
def Life.isActive : Life → Bool
  | starting | running | ending | destroyed => true
  | _ => false

/-- The processes. `child` is the process that the CPU thread of a process is creating, `started`
says whether `server_listen` has created the first one. `calls` counts the calls of
`close_kernel_scheduler` for lack of processes and `notices` the messages about it to Kernel Memory,
and `logged` lists the reasons in the log. -/
structure Processes (ι : Type) where
  life : ι → Life
  child : ι → Option ι
  started : Bool
  activeProcessCount : ℤ
  shutdownActivado : Bool
  calls : ℕ
  notices : ℕ
  logged : List ShutdownReason

namespace Processes

variable {ι : Type}

/-- `init_counter_processes` and `init_shutdown`. -/
def init : Processes ι where
  life := fun _ => .unborn
  child := fun _ => none
  started := false
  activeProcessCount := 0
  shutdownActivado := false
  calls := 0
  notices := 0
  logged := []

/-- `close_kernel_scheduler`: only the first call has an effect. -/
def closeKernelScheduler (reason : ShutdownReason) (opCodes : List ℤ) (s : Processes ι) :
    Processes ι :=
  if s.shutdownActivado then s
  else { s with
    shutdownActivado := true
    notices := if reason = .noProcesses then s.notices + 1 else s.notices
    logged := s.logged ++ [checkReasonShutdown reason opCodes] }

/-- What can happen: the first process is created, or one by another; `transition_new_ready` goes
on, with a process that has been taken on and has a valid priority or not; a process leaves the
lists for `transition_to_exit`; there it is destroyed, and not counted any more; the call of
`close_kernel_scheduler` for the last one, and a call for another reason. -/
inductive Event (ι : Type)
  | start (p : ι)
  | create (parent p : ι)
  | newReady (p : ι) (ok : Bool)
  | exit (p : ι)
  | destroy (p : ι)
  | decrement (p : ι)
  | closeLast (p : ι)
  | close (reason : ShutdownReason) (opCodes : List ℤ)
  deriving DecidableEq, Repr

section Definitions

variable [DecidableEq ι]

/-- The process goes on elsewhere. -/
def setLife (p : ι) (life : Life) (s : Processes ι) : Processes ι :=
  { s with life := Function.update s.life p life }

/-- The thread that was creating the process is back at its own. -/
def release (p : ι) (s : Processes ι) : Processes ι :=
  { s with child := fun parent => if s.child parent = some p then none else s.child parent }

/-- `transition_take_new` up to `notify_new_process`. -/
def takeNew (p : ι) (s : Processes ι) : Processes ι :=
  { s.setLife p .starting with activeProcessCount := s.activeProcessCount + 1 }

/-- One step. -/
def step (s : Processes ι) : Event ι → Option (Processes ι)
  | .start p =>
    if s.started = false ∧ s.life p = .unborn then some { s.takeNew p with started := true }
    else none
  | .create parent p =>
    if s.life parent = .running ∧ s.child parent = none ∧ s.life p = .unborn then
      some { s.takeNew p with child := Function.update s.child parent (some p) }
    else none
  | .newReady p ok =>
    if s.life p = .starting then
      some (if ok then (s.setLife p .running).release p else s.setLife p .ending)
    else none
  | .exit p =>
    if s.life p = .running ∧ s.child p = none then some (s.setLife p .ending) else none
  | .destroy p => if s.life p = .ending then some (s.setLife p .destroyed) else none
  | .decrement p =>
    if s.life p = .destroyed then
      some { (s.setLife p (if s.activeProcessCount = 1 then .last else .finished)).release p with
        activeProcessCount := s.activeProcessCount - 1 }
    else none
  | .closeLast p =>
    if s.life p = .last then
      some { (s.setLife p .finished).closeKernelScheduler .noProcesses [] with
        calls := s.calls + 1 }
    else none
  | .close reason opCodes =>
    if reason ≠ .noProcesses then some (s.closeKernelScheduler reason opCodes) else none

end Definitions

/-! ## The invariant -/

/-- Nobody is counted. -/
def NoneActive (s : Processes ι) : Prop := ∀ p, (s.life p).isActive = false

/-- **The invariant**: the counter is the number of those who are counted; a thread that creates a
process is that of a running one, and the new one is counted; and the call for lack of processes has
been made, or is left to somebody, exactly when the first process has been created and nobody is
counted any more. -/
structure Counted (s : Processes ι) : Prop where
  active : ∃ active : List ι, active.Nodup ∧ (∀ p, p ∈ active ↔ (s.life p).isActive = true) ∧
    s.activeProcessCount = active.length
  child : ∀ parent p, s.child parent = some p →
    s.life parent = .running ∧ (s.life p).isActive = true
  fresh : s.started = false → ∀ p, s.life p = .unborn
  finished : (0 < s.calls ∨ ∃ p, s.life p = .last) → s.started = true ∧ s.NoneActive
  called : s.started = true → s.NoneActive → 0 < s.calls ∨ ∃ p, s.life p = .last
  once : s.calls ≤ 1 ∧ ∀ p, s.life p = .last → s.calls = 0 ∧ ∀ q, s.life q = .last → q = p
  notices : s.notices ≤ s.calls
  logged : s.logged.length = s.shutdownActivado.toNat ∧
    ∀ reason ∈ s.logged, reason.text.isSome = true

attribute [local grind] Life.isActive NoneActive
attribute [local grind =] Function.update_apply

/-- The invariant holds at the start. -/
lemma counted_init : Counted (init : Processes ι) where
  active := ⟨[], by simp [init, Life.isActive]⟩
  child parent p h := absurd h (by simp [init])
  fresh _ _ := rfl
  finished h := absurd h (by simp [init])
  called h := absurd h (by simp [init])
  once := by simp [init]
  notices := by simp [init]
  logged := by simp [init]

section Steps

variable {s t : Processes ι} {p parent : ι} {life : Life}

/-- A call of `close_kernel_scheduler` adds a reason with a text, if it is the first. -/
lemma logged_closeKernelScheduler {reason : ShutdownReason} {opCodes : List ℤ}
    (h : s.logged.length = s.shutdownActivado.toNat ∧
      ∀ reason ∈ s.logged, reason.text.isSome = true) :
    (s.closeKernelScheduler reason opCodes).logged.length =
        (s.closeKernelScheduler reason opCodes).shutdownActivado.toNat ∧
      ∀ reason' ∈ (s.closeKernelScheduler reason opCodes).logged, reason'.text.isSome = true := by
  unfold closeKernelScheduler
  split
  · exact h
  · rename_i hactive
    refine ⟨?_, fun reason' hmem => ?_⟩
    · rw [List.length_append, h.1, Bool.eq_false_iff.2 hactive]
      rfl
    · rcases List.mem_append.1 hmem with hmem | hmem
      · exact h.2 reason' hmem
      · obtain rfl := List.mem_singleton.1 hmem
        exact isSome_text_checkReasonShutdown reason opCodes

/-- Another call of `close_kernel_scheduler`. -/
lemma Counted.close {reason : ShutdownReason} {opCodes : List ℤ} (h : Counted s)
    (hreason : reason ≠ .noProcesses) : Counted (s.closeKernelScheduler reason opCodes) := by
  have hlogged := @logged_closeKernelScheduler _ _ reason opCodes h.logged
  unfold closeKernelScheduler at hlogged ⊢
  split
  · exact h
  · rename_i hactive
    rw [if_neg hactive] at hlogged
    exact ⟨h.active, h.child, h.fresh, h.finished, h.called, h.once,
      by simpa [if_neg hreason] using h.notices, hlogged⟩

variable [DecidableEq ι]

/-- A process is created: nobody is the last. -/
lemma Counted.takeNew {child : ι → Option ι} (h : Counted s) (hunborn : s.life p = .unborn)
    (hnone : s.calls = 0 ∧ ∀ q, s.life q ≠ .last)
    (hchild : child = s.child ∨ ∃ parent, s.life parent = .running ∧
      child = Function.update s.child parent (some p)) :
    Counted { s with
      life := Function.update s.life p .starting
      child := child
      started := true
      activeProcessCount := s.activeProcessCount + 1 } where
  active := by
    obtain ⟨active, hnodup, hmem, hcount⟩ := h.active
    refine ⟨p :: active, ?_, ?_, ?_⟩
    · grind
    · grind
    · simp [hcount]
  child parent q := by
    have := h.child parent q
    rcases hchild with rfl | ⟨creator, hcreator, rfl⟩ <;> grind
  fresh hstarted := by grind
  finished := by grind
  called _ hactive := by
    have := hactive p
    grind
  once := by grind
  notices := h.notices
  logged := h.logged

/-- A process goes on and stays counted. -/
lemma Counted.stays (h : Counted s) (hbefore : (s.life p).isActive = true)
    (hafter : life.isActive = true) (hchild : s.child p = none ∨ life = .running) :
    Counted { s with life := Function.update s.life p life } where
  active := by
    obtain ⟨active, hnodup, hmem, hcount⟩ := h.active
    exact ⟨active, hnodup, by grind, hcount⟩
  child parent q := by
    have := h.child parent q
    grind
  fresh hstarted := by
    have := h.fresh hstarted p
    grind
  finished := by
    have := h.finished
    grind
  called _ hactive := by
    have := hactive p
    grind
  once := by
    have := h.once
    grind
  notices := h.notices
  logged := h.logged

/-- The thread that was creating a process is back at its own. -/
lemma Counted.release (h : Counted s) : Counted (s.release p) :=
  ⟨h.active, fun parent q hq => h.child parent q (by grind [Processes.release]), h.fresh,
    h.finished, h.called, h.once, h.notices, h.logged⟩

/-- A process that has been destroyed is not counted any more. -/
lemma Counted.decrement (h : Counted s) (hdestroyed : s.life p = .destroyed) :
    Counted { s with
      life := Function.update s.life p (if s.activeProcessCount = 1 then .last else .finished)
      child := fun parent => if s.child parent = some p then none else s.child parent
      activeProcessCount := s.activeProcessCount - 1 } := by
  obtain ⟨active, hnodup, hmem, hcount⟩ := h.active
  have hp : p ∈ active := (hmem p).2 (by rw [hdestroyed]; rfl)
  have hlength := List.length_erase_of_mem hp
  have hpos := List.length_pos_of_mem hp
  have hothers : ∀ q, q ∈ active.erase p ↔ q ≠ p ∧ q ∈ active := fun q => hnodup.mem_erase_iff
  have hnotOver : s.calls = 0 ∧ ∀ q, s.life q ≠ .last := by
    have := h.finished
    have := hmem p
    grind
  have hstarted : s.started = true := by
    have := h.fresh
    grind
  have hlast : s.activeProcessCount = 1 ↔ ∀ q, q ∈ active → q = p := by
    rw [hcount]
    constructor
    · intro hone q hq
      by_contra hne
      have := List.length_pos_of_mem ((hothers q).2 ⟨hne, hq⟩)
      omega
    · intro hall
      have hempty : active.erase p = [] := List.eq_nil_iff_forall_not_mem.2 fun q hq =>
        ((hothers q).1 hq).1 (hall q ((hothers q).1 hq).2)
      rw [hempty, List.length_nil] at hlength
      omega
  constructor
  · refine ⟨active.erase p, hnodup.erase p, fun q => ?_, ?_⟩
    · rw [hothers q, hmem q]
      grind
    · show s.activeProcessCount - 1 = _
      rw [hlength, hcount]
      omega
  · intro parent q hq
    have := h.child parent q
    grind
  · exact fun hfresh => absurd hstarted (by simpa using hfresh)
  · intro hover
    refine ⟨hstarted, fun q => ?_⟩
    have := hmem q
    grind
  · intro _ hnone
    refine .inr ⟨p, ?_⟩
    have hone : s.activeProcessCount = 1 := hlast.2 fun q hq => by
      have := hnone q
      have := hmem q
      grind
    simp [hone]
  · refine ⟨h.once.1, fun q hq => ⟨hnotOver.1, fun r hr => ?_⟩⟩
    have := hnotOver.2
    grind
  · exact h.notices
  · exact h.logged

/-- The last one calls `close_kernel_scheduler`. -/
lemma Counted.closeLast {activado : Bool} {notices : ℕ} {logged : List ShutdownReason}
    (h : Counted s) (hlast : s.life p = .last) (hnotices : notices ≤ s.notices + 1)
    (hlogged : logged.length = activado.toNat ∧ ∀ reason ∈ logged, reason.text.isSome = true) :
    Counted { s with
      life := Function.update s.life p .finished
      shutdownActivado := activado
      calls := s.calls + 1
      notices := notices
      logged := logged } := by
  obtain ⟨hstarted, hnone⟩ := h.finished (.inr ⟨p, hlast⟩)
  obtain ⟨hcalls, hunique⟩ := h.once.2 p hlast
  constructor
  · obtain ⟨active, hnodup, hmem, hcount⟩ := h.active
    exact ⟨active, hnodup, by grind, hcount⟩
  · intro parent q hq
    have := h.child parent q hq
    grind
  · exact fun hfresh => absurd hstarted (by simpa using hfresh)
  · exact fun _ => ⟨hstarted, by grind⟩
  · exact fun _ _ => .inl (Nat.succ_pos _)
  · exact ⟨by simp [hcalls], fun q hq => by grind⟩
  · have := h.notices
    show notices ≤ s.calls + 1
    omega
  · exact hlogged

/-- **Every step** keeps the invariant. -/
lemma Counted.step {e : Event ι} (h : Counted s) (hst : s.step e = some t) : Counted t := by
  have hidle : ∀ p, s.life p ≠ .running → s.child p = none := fun p hp => by
    cases hchild : s.child p with
    | none => rfl
    | some q => exact absurd (h.child p q hchild).1 hp
  simp only [Processes.step] at hst
  cases e with
  | start p =>
    obtain ⟨⟨hstarted, hunborn⟩, hst⟩ := Option.ite_none_right_eq_some.1 hst
    obtain rfl := Option.some.inj hst
    refine h.takeNew hunborn ?_ (.inl rfl)
    have := h.finished
    have := h.fresh hstarted
    grind
  | create parent p =>
    obtain ⟨⟨hparent, -, hunborn⟩, hst⟩ := Option.ite_none_right_eq_some.1 hst
    obtain rfl := Option.some.inj hst
    have hstarted : s.started = true := by
      have := h.fresh
      grind
    refine hstarted ▸ h.takeNew hunborn ?_ (.inr ⟨parent, hparent, rfl⟩)
    have := h.finished
    grind
  | newReady p ok =>
    obtain ⟨hstarting, hst⟩ := Option.ite_none_right_eq_some.1 hst
    have hactive : (s.life p).isActive = true := by rw [hstarting]; rfl
    cases ok with
    | true => exact Option.some.inj hst ▸ (h.stays hactive rfl (.inr rfl)).release
    | false =>
      exact Option.some.inj hst ▸ h.stays hactive rfl (.inl (hidle p (by simp [hstarting])))
  | exit p =>
    obtain ⟨⟨hrunning, hchild⟩, hst⟩ := Option.ite_none_right_eq_some.1 hst
    exact Option.some.inj hst ▸ h.stays (by rw [hrunning]; rfl) rfl (.inl hchild)
  | destroy p =>
    obtain ⟨hending, hst⟩ := Option.ite_none_right_eq_some.1 hst
    exact Option.some.inj hst ▸ h.stays (by rw [hending]; rfl) rfl
      (.inl (hidle p (by simp [hending])))
  | decrement p =>
    obtain ⟨hdestroyed, hst⟩ := Option.ite_none_right_eq_some.1 hst
    exact Option.some.inj hst ▸ h.decrement hdestroyed
  | closeLast p =>
    obtain ⟨hlast, hst⟩ := Option.ite_none_right_eq_some.1 hst
    obtain rfl := Option.some.inj hst
    have hlogged := @logged_closeKernelScheduler _ (s.setLife p .finished) .noProcesses [] h.logged
    unfold closeKernelScheduler at hlogged ⊢
    split
    · exact h.closeLast hlast (Nat.le_succ _) h.logged
    · rename_i hactive
      rw [if_neg hactive] at hlogged
      exact h.closeLast hlast le_rfl hlogged
  | close reason opCodes =>
    obtain ⟨hreason, hst⟩ := Option.ite_none_right_eq_some.1 hst
    exact Option.some.inj hst ▸ h.close hreason

/-- Once nobody is counted, nobody will be again. -/
lemma noneActive_step {e : Event ι} (hstarted : s.started = true) (hnone : s.NoneActive)
    (hst : s.step e = some t) : t.started = true ∧ t.NoneActive := by
  have hnot : ∀ p, s.life p ≠ .running ∧ s.life p ≠ .starting ∧ s.life p ≠ .ending ∧
      s.life p ≠ .destroyed := fun p => by
    have := hnone p
    grind
  simp only [Processes.step] at hst
  cases e with
  | start p =>
    obtain ⟨⟨hfresh, -⟩, -⟩ := Option.ite_none_right_eq_some.1 hst
    exact absurd hfresh (by simp [hstarted])
  | create parent p =>
    obtain ⟨⟨hparent, -⟩, -⟩ := Option.ite_none_right_eq_some.1 hst
    exact absurd hparent (hnot parent).1
  | newReady p ok => exact absurd (Option.ite_none_right_eq_some.1 hst).1 (hnot p).2.1
  | exit p => exact absurd (Option.ite_none_right_eq_some.1 hst).1.1 (hnot p).1
  | destroy p => exact absurd (Option.ite_none_right_eq_some.1 hst).1 (hnot p).2.2.1
  | decrement p => exact absurd (Option.ite_none_right_eq_some.1 hst).1 (hnot p).2.2.2
  | closeLast p =>
    obtain rfl := Option.some.inj (Option.ite_none_right_eq_some.1 hst).2
    have hlife : ∀ q, (Function.update s.life p Life.finished q).isActive = false := fun q => by
      have := hnone q
      grind
    unfold closeKernelScheduler
    split <;> exact ⟨hstarted, hlife⟩
  | close reason opCodes =>
    obtain rfl := Option.some.inj (Option.ite_none_right_eq_some.1 hst).2
    unfold closeKernelScheduler
    split <;> exact ⟨hstarted, hnone⟩

end Steps

section Runs

variable [DecidableEq ι] {s : Processes ι}

/-- It holds in every reachable state. -/
lemma counted_of_reachable (h : Reachable step init s) : Counted s :=
  Run.invariant (I := Counted) h counted_init fun _ _ _ hI _ hst => hI.step hst

/-- **The scheduler shuts down for lack of processes exactly when there are none.** In every run,
whichever threads create and end processes in whatever order: the call of `close_kernel_scheduler`
for lack of processes has been made, or is the next step of the thread that ended the last one,
exactly when the first process has been created and every process has ended. Then there is no
process for the rest of the run. The call is made at most once, Kernel Memory is told at most once
and only then, and one reason is logged, which has a text.

**Proof sketch.** The thread that creates a process is that of a running one. So the counter does
not come to zero while a process is created, and when it does, there is nobody left to create
one. -/
theorem shutdown_of_run (h : Reachable step init s) :
    ((0 < s.calls ∨ ∃ p, s.life p = .last) ↔ s.started = true ∧ s.NoneActive) ∧
    (s.started = true → s.NoneActive → ∀ t, Reachable step s t → t.NoneActive) ∧
    s.calls ≤ 1 ∧ s.notices ≤ s.calls ∧ s.logged.length = s.shutdownActivado.toNat ∧
    ∀ reason ∈ s.logged, reason.text.isSome = true := by
  have hcounted := counted_of_reachable h
  refine ⟨⟨hcounted.finished, fun ⟨hstarted, hnone⟩ => hcounted.called hstarted hnone⟩, ?_,
    hcounted.once.1, hcounted.notices, hcounted.logged⟩
  intro hstarted hnone t ht
  have hover : Counted t ∧ t.started = true ∧ t.NoneActive :=
    Run.invariant (I := fun u => Counted u ∧ u.started = true ∧ u.NoneActive) ht
      ⟨hcounted, hstarted, hnone⟩
      fun _ _ _ hI _ hst => ⟨hI.1.step hst, noneActive_step hI.2.1 hI.2.2 hst⟩
  exact hover.2.2

/-- A process creates another, which Kernel Memory does not take on, and ends. -/
def createAndEnd : List (Event Bool) :=
  [.start false, .newReady false true, .create false true, .newReady true false, .destroy true,
    .decrement true, .exit false, .destroy false,
    .close .kernelMemorySendError [OP_NEW_MEMORY_STICK, OP_MEMORY_CORRUPTED], .decrement false]

/-- The process that is ending is the last one, so the shutdown is due. -/
theorem shutdown_of_run_createAndEnd :
    ∃ s : Processes Bool, Reachable step init s ∧ s.life false = .last ∧
      s.logged = [.corruptedMemory] ∧
      ((0 < s.calls ∨ ∃ p, s.life p = .last) ↔ s.started = true ∧ s.NoneActive) ∧
      (s.started = true → s.NoneActive → ∀ t, Reachable step s t → t.NoneActive) ∧
      s.calls ≤ 1 ∧ s.notices ≤ s.calls ∧ s.logged.length = s.shutdownActivado.toNat ∧
      ∀ reason ∈ s.logged, reason.text.isSome = true := by
  have htest : (execute step init createAndEnd).any (fun s : Processes Bool =>
      decide (s.life false = .last ∧ s.logged = [.corruptedMemory])) = true := by decide +kernel
  obtain ⟨s, hs, htest⟩ := (Option.any_eq_true _ _).1 htest
  obtain ⟨hlast, hlogged⟩ := of_decide_eq_true htest
  exact ⟨s, Run.of_execute hs, hlast, hlogged, shutdown_of_run (Run.of_execute hs)⟩

end Runs

end Processes

end OsSimulator.Scheduler
