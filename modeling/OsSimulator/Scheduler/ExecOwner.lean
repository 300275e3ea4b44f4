import OsSimulator.Library.Runs
import OsSimulator.Scheduler.CpuStages

set_option relaxedAutoImplicit false
set_option autoImplicit false

/-!
# The owners of the processes in EXEC

Any number of CPU threads on the READY queue, the EXEC list and the state fields of the PCBs. A
thread whose CPU has not connected yet has taken no step. The rest of the scheduler is any sequence
of the transitions that other threads make, and of calls of `update_priority`, which takes a process
out of READY and puts it back. The READY queue is one list here: which of its processes comes next,
and whether `update_priority` looks for a process in the right subqueue, are left open.

## Main definitions

* `Lists`, `ExecOwner`, `ExecOwner.step` — the state and its steps.
* `ExecOwner.NoneStranded` — the processes in EXEC have a live thread.
* `ExecOwner.LeavesNone` — the condition on a step.
* `Home`, `ExecOwner.Owned` — where each process is.

## Main results

* `ExecOwner.noneStranded_of_run` — in a run whose steps meet the condition no process is stranded.
* `ExecOwner.stranded_of_disconnection` — a CPU that disconnects strands its process.
-/

namespace OsSimulator.Scheduler

/-- The READY queue, the EXEC list and the state fields of the PCBs. -/
structure Lists where
  state : ℕ → ProcessState
  ready : List ℕ
  exec : List ℕ

/-- What the other threads of the scheduler do to these lists. `found` says that the process is in
the subqueue in which `transition_take_ready` looks for it, the one of its new priority. -/
inductive OtherTransition
  | newReady (p : ℕ)
  | unlock (p : ℕ)
  | blockSuspBlock (p : ℕ)
  | suspBlock (p : ℕ)
  | suspReady (p : ℕ)
  | updatePriority (p : ℕ) (found : Bool)
  deriving DecidableEq, Repr

namespace Lists

/-- `manage_state_pcb` with what follows a success; after a failure nothing is done. -/
def manageState (p : ℕ) (expected next : ProcessState) (move : Lists → Lists) (l : Lists) : Lists :=
  if l.state p = expected then move { l with state := Function.update l.state p next } else l

/-- `transition_to_ready`. -/
def toReady (p : ℕ) (l : Lists) : Lists := { l with ready := l.ready ++ [p] }

/-- `transition_take_exec`. -/
def takeExec (p : ℕ) (l : Lists) : Lists := { l with exec := l.exec.erase p }

/-- A transition of a CPU thread. Which process is taken from READY is left open. -/
def transition : Transition → Lists → Option Lists
  | .takeReady p, l => if p ∈ l.ready then some { l with ready := l.ready.erase p } else none
  | .readyExec p, l => some (l.manageState p .ready .exec id)
  | .toExec p, l => some { l with exec := l.exec ++ [p] }
  | .execReady p, l => some (l.manageState p .exec .ready fun l => (l.takeExec p).toReady p)
  | .execExit p, l => some (l.manageState p .exec .exit fun l => l.takeExec p)
  | .execBlock p, l => some (l.manageState p .exec .block fun l => l.takeExec p)

/-- A transition of another thread. A process is created once. -/
def otherTransition : OtherTransition → Lists → Option Lists
  | .newReady p, l =>
    if l.state p = .new then some (l.manageState p .new .ready (toReady p)) else none
  | .unlock p, l =>
    some (if l.state p = .block then l.manageState p .block .ready (toReady p)
      else l.manageState p .suspBlock .suspReady id)
  | .blockSuspBlock p, l => some (l.manageState p .block .suspBlock id)
  | .suspBlock p, l => some (l.manageState p .suspBlock .block id)
  | .suspReady p, l => some (l.manageState p .suspReady .ready (toReady p))
  | .updatePriority p found, l =>
    if l.state p ≠ .ready then some l
    else if ¬ found then some (l.toReady p)
    else if p ∈ l.ready then some (toReady p { l with ready := l.ready.erase p })
    else none

end Lists

/-- The lists and the CPU threads. -/
structure ExecOwner (ι : Type) extends Lists where
  thread : ι → CpuThread

namespace ExecOwner

/-- No process and no CPU yet. -/
def init (ι : Type) : ExecOwner ι where
  state := fun _ => .new
  ready := []
  exec := []
  thread := fun _ => initDataThreadCpu

/-- A step of a CPU thread, or of another thread of the scheduler. -/
inductive Event (ι : Type)
  | thread (i : ι) (action : CpuThread.Action)
  | other (transition : OtherTransition)
  deriving DecidableEq, Repr

variable {ι : Type} [DecidableEq ι]

/-- One step of the system. -/
def step (s : ExecOwner ι) : Event ι → Option (ExecOwner ι)
  | .thread i action =>
    ((s.thread i).step action).bind fun r =>
      (r.2.transition.elim (some s.toLists) fun tr => s.toLists.transition tr).map fun l =>
        { l with thread := Function.update s.thread i r.1 }
  | .other tr => (s.toLists.otherTransition tr).map fun l => { s with toLists := l }

/-- **No process is stranded in EXEC**: at every moment a process in EXEC is `data->pcb` of a thread
that has not ended, and when no thread is in the middle of its loop body it is the process of
exactly one such thread. -/
structure NoneStranded (s : ExecOwner ι) : Prop where
  held : ∀ p ∈ s.exec, ∃ i, (s.thread i).Live ∧ (s.thread i).pcb = some p
  current : (∀ i, (s.thread i).AtRest) →
    ∀ p ∈ s.exec, ∃! i, (s.thread i).Live ∧ (s.thread i).currentPcb = some p

/-- The steps that strand no process. `update_priority` finds a process in the state READY where it
looks for it, which it does not when the priority has changed or a CPU thread has just taken the
process. -/
def LeavesNone (s : ExecOwner ι) : Event ι → Prop
  | .thread i action => (s.thread i).LeavesNone action
  | .other (.updatePriority p found) => s.state p = .ready → found = true
  | _ => True

end ExecOwner

/-! ## Where the processes are -/

/-- Where a process is: in the READY queue, in the hands of a CPU thread, or in neither. -/
inductive Home (ι : Type)
  | queued
  | held (i : ι) (stage : CpuThread.Stage)
  | away

namespace Home

variable {ι : Type}

/-- How often the process is in the READY queue. -/
def readyCount : Home ι → ℕ
  | .queued => 1
  | _ => 0

/-- How often the process is in the EXEC list. -/
def execCount : Home ι → ℕ
  | .held _ .executing => 1
  | _ => 0

/-- The states of a process with that home. -/
def Allows : Home ι → ProcessState → Prop
  | .queued, state => state = .ready
  | .held _ .taken, state => state = .ready
  | .held _ _, state => state = .exec
  | .away, state => state ≠ .ready ∧ state ≠ .exec

/-- A process that no thread holds. -/
def Free (home : Home ι) : Prop := ∀ i stage, home ≠ .held i stage

/-- No CPU has a process that is queued. -/
lemma free_queued : (queued : Home ι).Free := by
  intro i stage h
  exact absurd h (by simp)

/-- Nor one that is away. -/
lemma free_away : (away : Home ι).Free := by
  intro i stage h
  exact absurd h (by simp)

end Home

/-- A process is taken from READY only when it is there. -/
lemma Lists.mem_of_takeReady {p : ℕ} {l l' : Lists} (h : l.transition (.takeReady p) = some l') :
    p ∈ l.ready := by
  simp only [transition] at h
  split at h
  · assumption
  · exact absurd h (by simp)

namespace ExecOwner

variable {ι : Type} {s s' : ExecOwner ι} {home : ℕ → Home ι}

/-- **Every process has one home**, with which the lists, the state fields and the threads agree. -/
structure Owned (s : ExecOwner ι) (home : ℕ → Home ι) : Prop where
  ready : ∀ p, s.ready.count p = (home p).readyCount
  exec : ∀ p, s.exec.count p = (home p).execCount
  state : ∀ p, (home p).Allows (s.state p)
  stage : ∀ i p k, (s.thread i).stage p = some k ↔ home p = .held i k
  sound : ∀ i, (s.thread i).Sound

/-- The lists after a process has gone from one home to another. -/
structure Moves (p : ℕ) (dest : Home ι) (l l' : Lists) : Prop where
  ready : ∀ q, l'.ready.count q = if q = p then dest.readyCount else l.ready.count q
  exec : ∀ q, l'.exec.count q = if q = p then dest.execCount else l.exec.count q
  state : ∀ q, q ≠ p → l'.state q = l.state q
  allows : dest.Allows (l'.state p)

/-- A process goes to another home. -/
lemma Owned.moved {p : ℕ} {dest : Home ι} (h : Owned s home)
    (hmoves : Moves p dest s.toLists s'.toLists)
    (hstage : ∀ i q k, (s'.thread i).stage q = some k ↔
      if q = p then dest = .held i k else (s.thread i).stage q = some k)
    (hsound : ∀ i, (s'.thread i).Sound) : Owned s' (Function.update home p dest) := by
  refine ⟨fun q => ?_, fun q => ?_, fun q => ?_, fun i q k => ?_, hsound⟩
  · rw [hmoves.ready]
    by_cases hq : q = p
    · rw [if_pos hq, hq, Function.update_self]
    · rw [if_neg hq, Function.update_of_ne hq, h.ready]
  · rw [hmoves.exec]
    by_cases hq : q = p
    · rw [if_pos hq, hq, Function.update_self]
    · rw [if_neg hq, Function.update_of_ne hq, h.exec]
  · by_cases hq : q = p
    · rw [hq, Function.update_self]
      exact hmoves.allows
    · rw [Function.update_of_ne hq, hmoves.state q hq]
      exact h.state q
  · rw [hstage]
    by_cases hq : q = p
    · rw [if_pos hq, hq, Function.update_self]
    · rw [if_neg hq, Function.update_of_ne hq, h.stage]

/-- A thread moves a process that no other thread holds. -/
lemma Owned.thread_moved [DecidableEq ι] {i : ι} {t' : CpuThread} {l : Lists} {dest : Home ι}
    {p : ℕ} {after : Option CpuThread.Stage} (h : Owned s home) (hsound : t'.Sound)
    (hstage : t'.stage = Function.update (s.thread i).stage p after)
    (hfrom : ∀ j k, home p = .held j k → j = i)
    (hdest : ∀ j k, dest = .held j k ↔ j = i ∧ after = some k)
    (hmoves : Moves p dest s.toLists l) :
    Owned { l with thread := Function.update s.thread i t' } (Function.update home p dest) := by
  refine h.moved hmoves (fun j q k => ?_) fun j => ?_
  · show (Function.update s.thread i t' j).stage q = some k ↔ _
    by_cases hj : j = i
    · rw [hj, Function.update_self, hstage]
      by_cases hq : q = p
      · rw [if_pos hq, hq, Function.update_self, hdest]
        simp
      · rw [if_neg hq, Function.update_of_ne hq]
    · rw [Function.update_of_ne hj]
      by_cases hq : q = p
      · rw [if_pos hq, hdest, hq, h.stage]
        exact ⟨fun heq => absurd (hfrom j k heq) hj, fun heq => absurd heq.1 hj⟩
      · rw [if_neg hq]
  · show (Function.update s.thread i t' j).Sound
    by_cases hj : j = i
    · rw [hj, Function.update_self]
      exact hsound
    · rw [Function.update_of_ne hj]
      exact h.sound j

/-- Another thread moves a process that no CPU thread holds. -/
lemma Owned.other_moved {l : Lists} {dest : Home ι} {p : ℕ} (h : Owned s home)
    (hfrom : (home p).Free) (hdest : dest.Free) (hmoves : Moves p dest s.toLists l) :
    Owned { s with toLists := l } (Function.update home p dest) := by
  refine h.moved hmoves (fun j q k => ?_) h.sound
  by_cases hq : q = p
  · rw [if_pos hq, hq]
    show (s.thread j).stage p = some k ↔ _
    rw [h.stage]
    exact ⟨fun heq => absurd heq (hfrom j k), fun heq => absurd heq (hdest j k)⟩
  · rw [if_neg hq]

/-! ### The transitions -/

section Moves

variable {l : Lists} {p : ℕ} {i : ι}

/-- The lists and the state field of a process agree with its home. -/
structure At (p : ℕ) (dest : Home ι) (l : Lists) : Prop where
  ready : l.ready.count p = dest.readyCount
  exec : l.exec.count p = dest.execCount
  allows : dest.Allows (l.state p)

/-- A process is where its home says. -/
lemma Owned.at (h : Owned s home) (p : ℕ) : At p (home p) s.toLists :=
  ⟨h.ready p, h.exec p, h.state p⟩

/-- Only the entries of the process change, and they agree with its new home. -/
lemma moves_of_at {dest : Home ι} {l' : Lists} (h : At p dest l')
    (hready : ∀ q, q ≠ p → l'.ready.count q = l.ready.count q)
    (hexec : ∀ q, q ≠ p → l'.exec.count q = l.exec.count q)
    (hstate : ∀ q, q ≠ p → l'.state q = l.state q) : Moves p dest l l' := by
  refine ⟨fun q => ?_, fun q => ?_, hstate, h.allows⟩
  · by_cases hq : q = p
    · rw [if_pos hq, hq, h.ready]
    · rw [if_neg hq, hready q hq]
  · by_cases hq : q = p
    · rw [if_pos hq, hq, h.exec]
    · rw [if_neg hq, hexec q hq]

/-- What is appended is not counted for another process. -/
lemma count_append_of_ne {q : ℕ} (hq : q ≠ p) (list : List ℕ) :
    (list ++ [p]).count q = list.count q := by
  rw [List.count_append, List.count_singleton]
  simp [Ne.symm hq]

/-- A CPU takes a process from READY. -/
lemma moves_takeReady (h : At p (.queued : Home ι) l) :
    Moves p (.held i .taken) l { l with ready := l.ready.erase p } := by
  refine moves_of_at ⟨?_, h.exec, h.allows⟩ (fun q hq => List.count_erase_of_ne hq)
    (fun _ _ => rfl) fun _ _ => rfl
  rw [List.count_erase_self, h.ready]
  rfl

/-- The process it has taken is to enter EXEC. -/
lemma moves_readyExec (h : At p (.held i .taken) l) :
    Moves p (.held i .entering) l (l.manageState p .ready .exec id) := by
  have hstate : l.state p = .ready := h.allows
  rw [Lists.manageState, if_pos hstate]
  exact moves_of_at ⟨h.ready, h.exec, Function.update_self ..⟩ (fun _ _ => rfl) (fun _ _ => rfl)
    fun q hq => Function.update_of_ne hq ..

/-- The process enters EXEC. -/
lemma moves_toExec (h : At p (.held i .entering) l) :
    Moves p (.held i .executing) l { l with exec := l.exec ++ [p] } := by
  refine moves_of_at ⟨h.ready, ?_, h.allows⟩ (fun _ _ => rfl)
    (fun q hq => count_append_of_ne hq _) fun _ _ => rfl
  rw [List.count_append, List.count_singleton_self, h.exec]
  rfl

/-- The process goes back from EXEC to READY. -/
lemma moves_execReady (h : At p (.held i .executing) l) :
    Moves p (.queued : Home ι) l
      (l.manageState p .exec .ready fun l => (l.takeExec p).toReady p) := by
  have hstate : l.state p = .exec := h.allows
  rw [Lists.manageState, if_pos hstate]
  refine moves_of_at ⟨?_, ?_, Function.update_self ..⟩ (fun q hq => count_append_of_ne hq _)
    (fun q hq => List.count_erase_of_ne hq) fun q hq => Function.update_of_ne hq ..
  · show (l.ready ++ [p]).count p = 1
    rw [List.count_append, List.count_singleton_self, h.ready]
    rfl
  · show (l.exec.erase p).count p = 0
    rw [List.count_erase_self, h.exec]
    rfl

/-- `transition_exec_exit` and `transition_exec_block`. -/
lemma moves_leaveExec {next : ProcessState} (hnext : next ≠ .ready ∧ next ≠ .exec)
    (h : At p (.held i .executing) l) :
    Moves p (.away : Home ι) l (l.manageState p .exec next fun l => l.takeExec p) := by
  have hstate : l.state p = .exec := h.allows
  rw [Lists.manageState, if_pos hstate]
  refine moves_of_at ⟨h.ready, ?_, ?_⟩ (fun _ _ => rfl)
    (fun q hq => List.count_erase_of_ne hq) fun q hq => Function.update_of_ne hq ..
  · show (l.exec.erase p).count p = 0
    rw [List.count_erase_self, h.exec]
    rfl
  · show Home.away.Allows (Function.update l.state p next p)
    rw [Function.update_self]
    exact hnext

/-- A process that is in neither list enters READY. -/
lemma moves_toReady {expected : ProcessState} (hstate : l.state p = expected)
    (h : At p (.away : Home ι) l) :
    Moves p (.queued : Home ι) l (l.manageState p expected .ready (Lists.toReady p)) := by
  rw [Lists.manageState, if_pos hstate]
  refine moves_of_at ⟨?_, h.exec, Function.update_self ..⟩ (fun q hq => count_append_of_ne hq _)
    (fun _ _ => rfl) fun q hq => Function.update_of_ne hq ..
  show (l.ready ++ [p]).count p = 1
  rw [List.count_append, List.count_singleton_self, h.ready]
  rfl

/-- A process that is in neither list stays out of them. -/
lemma moves_away {expected next : ProcessState} (hnext : next ≠ .ready ∧ next ≠ .exec)
    (hstate : l.state p = expected) (h : At p (.away : Home ι) l) :
    Moves p (.away : Home ι) l (l.manageState p expected next id) := by
  rw [Lists.manageState, if_pos hstate]
  refine moves_of_at ⟨h.ready, h.exec, ?_⟩ (fun _ _ => rfl) (fun _ _ => rfl)
    fun q hq => Function.update_of_ne hq ..
  show Home.away.Allows (Function.update l.state p next p)
  rw [Function.update_self]
  exact hnext

/-- A process in READY goes to the end of its queue. -/
lemma moves_updatePriority (h : At p (.queued : Home ι) l) :
    Moves p (.queued : Home ι) l (Lists.toReady p { l with ready := l.ready.erase p }) := by
  refine moves_of_at ⟨?_, h.exec, h.allows⟩ (fun q hq => ?_) (fun _ _ => rfl) fun _ _ => rfl
  · show (l.ready.erase p ++ [p]).count p = 1
    rw [List.count_append, List.count_singleton_self, List.count_erase_self, h.ready]
    rfl
  · show (l.ready.erase p ++ [p]).count q = l.ready.count q
    rw [count_append_of_ne hq, List.count_erase_of_ne hq]

end Moves

/-- The home of the process before a transition of the thread `i`. -/
def source (i : ι) (tr : Transition) : Home ι :=
  match tr.before with
  | none => .queued
  | some stage => .held i stage

/-- Its home afterwards. -/
def dest (i : ι) : Transition → Home ι
  | .takeReady _ => .held i .taken
  | .readyExec _ => .held i .entering
  | .toExec _ => .held i .executing
  | .execReady _ => .queued
  | .execExit _ => .away
  | .execBlock _ => .away

/-- **A transition moves its process** from the home it has to the next one. -/
lemma moves_transition {i : ι} {tr : Transition} {l l' : Lists}
    (h : At tr.process (source i tr) l) (hl : l.transition tr = some l') :
    Moves tr.process (dest i tr) l l' := by
  cases tr with
  | takeReady p =>
    simp only [Lists.transition] at hl
    split at hl
    · obtain rfl := Option.some.inj hl
      exact moves_takeReady h
    · exact absurd hl (by simp)
  | readyExec p =>
    obtain rfl := Option.some.inj hl
    exact moves_readyExec h
  | toExec p =>
    obtain rfl := Option.some.inj hl
    exact moves_toExec h
  | execReady p =>
    obtain rfl := Option.some.inj hl
    exact moves_execReady h
  | execExit p =>
    obtain rfl := Option.some.inj hl
    exact moves_leaveExec ⟨by decide, by decide⟩ h
  | execBlock p =>
    obtain rfl := Option.some.inj hl
    exact moves_leaveExec ⟨by decide, by decide⟩ h

/-- After a transition its own CPU has the process, or none has. -/
lemma dest_eq_held {i j : ι} {tr : Transition} {stage : CpuThread.Stage} :
    dest i tr = .held j stage ↔ j = i ∧ tr.after = some stage := by
  cases tr <;> simp [dest, eq_comm]

/-- A process in READY is held by no thread. -/
lemma Owned.queued_of_mem (h : Owned s home) {p : ℕ} (hp : p ∈ s.ready) : home p = .queued := by
  have hcount := h.ready p
  have hpos : 0 < s.ready.count p := List.count_pos_iff.2 hp
  cases hhome : home p with
  | queued => rfl
  | _ =>
    rw [hhome] at hcount
    exact absurd hcount (by simp [Home.readyCount]; omega)

/-- A process whose state is neither READY nor EXEC is in neither list. -/
lemma Owned.away_of_state (h : Owned s home) {p : ℕ}
    (hready : s.state p ≠ .ready) (hexec : s.state p ≠ .exec) : home p = .away := by
  have hallows := h.state p
  cases hhome : home p with
  | queued =>
    rw [hhome] at hallows
    exact absurd hallows hready
  | held i stage =>
    rw [hhome] at hallows
    cases stage with
    | taken => exact absurd hallows hready
    | entering => exact absurd hallows hexec
    | executing => exact absurd hallows hexec
  | away => rfl

/-- **A step of a CPU thread keeps every process in one home.** -/
lemma owned_thread [DecidableEq ι] {i : ι} {r : CpuThread × CpuThread.Effect} {l : Lists}
    (h : Owned s home)
    (hkeeps : (s.thread i).Keeps r)
    (hl : r.2.transition.elim (some s.toLists) (fun tr => s.toLists.transition tr) = some l) :
    ∃ home', Owned { l with thread := Function.update s.thread i r.1 } home' := by
  obtain ⟨hsound, hfollows⟩ := hkeeps
  cases htr : r.2.transition with
  | none =>
    rw [htr] at hl hfollows
    obtain rfl := Option.some.inj hl
    refine ⟨home, h.ready, h.exec, h.state, fun j p k => ?_, fun j => ?_⟩
    · show (Function.update s.thread i r.1 j).stage p = some k ↔ _
      rw [← h.stage]
      by_cases hj : j = i
      · rw [hj, Function.update_self, show r.1.stage = (s.thread i).stage from hfollows]
      · rw [Function.update_of_ne hj]
    · show (Function.update s.thread i r.1 j).Sound
      by_cases hj : j = i
      · rw [hj, Function.update_self]
        exact hsound
      · rw [Function.update_of_ne hj]
        exact h.sound j
  | some tr =>
    rw [htr] at hl hfollows
    obtain ⟨hbefore, hafter⟩ := hfollows
    have hsource : home tr.process = source i tr := by
      cases hb : tr.before with
      | some stage =>
        rw [source, hb]
        exact (h.stage i _ _).1 (hbefore.trans hb)
      | none =>
        cases tr with
        | takeReady p =>
          exact h.queued_of_mem (Lists.mem_of_takeReady hl)
        | _ => exact absurd hb (by simp)
    have hat := h.at tr.process
    rw [hsource] at hat
    refine ⟨_, h.thread_moved hsound hafter (fun j k heq => ?_) (fun j k => dest_eq_held)
      (moves_transition hat hl)⟩
    rw [hsource, source] at heq
    split at heq
    · exact absurd heq (by simp)
    · exact (Home.held.inj heq).1.symm

/-- **A step of another thread keeps every process in one home**, if it meets the condition. -/
lemma owned_other {tr : OtherTransition} {l : Lists} (h : Owned s home)
    (hok : LeavesNone s (.other tr)) (hl : s.toLists.otherTransition tr = some l) :
    ∃ home', Owned { s with toLists := l } home' := by
  have hsame : ∃ home', Owned { s with toLists := s.toLists } home' := ⟨home, h⟩
  -- a transition from a state in which no thread holds the process
  have hmove : ∀ {p : ℕ} {expected : ProcessState} {dest : Home ι} {l : Lists},
      expected ≠ .ready → expected ≠ .exec → s.state p = expected → dest.Free →
      (At p (.away : Home ι) s.toLists → Moves p dest s.toLists l) →
      ∃ home', Owned { s with toLists := l } home' := by
    intro p expected dest l hready hexec hstate hfree hmoves
    have haway : home p = .away := h.away_of_state (hstate ▸ hready) (hstate ▸ hexec)
    have hat := h.at p
    rw [haway] at hat
    exact ⟨_, h.other_moved (haway ▸ Home.free_away) hfree (hmoves hat)⟩
  cases tr with
  | newReady p =>
    simp only [Lists.otherTransition] at hl
    split at hl
    · rename_i hstate
      obtain rfl := Option.some.inj hl
      exact hmove (by simp) (by simp) hstate Home.free_queued (moves_toReady hstate)
    · exact absurd hl (by simp)
  | unlock p =>
    obtain rfl := Option.some.inj hl
    by_cases hblock : s.state p = .block
    · rw [if_pos hblock]
      exact hmove (by simp) (by simp) hblock Home.free_queued (moves_toReady hblock)
    · rw [if_neg hblock]
      by_cases hstate : s.state p = .suspBlock
      · exact hmove (by simp) (by simp) hstate Home.free_away
          (moves_away ⟨by decide, by decide⟩ hstate)
      · rw [Lists.manageState, if_neg hstate]
        exact hsame
  | blockSuspBlock p =>
    obtain rfl := Option.some.inj hl
    by_cases hstate : s.state p = .block
    · exact hmove (by simp) (by simp) hstate Home.free_away
        (moves_away ⟨by decide, by decide⟩ hstate)
    · rw [Lists.manageState, if_neg hstate]
      exact hsame
  | suspBlock p =>
    obtain rfl := Option.some.inj hl
    by_cases hstate : s.state p = .suspBlock
    · exact hmove (by simp) (by simp) hstate Home.free_away
        (moves_away ⟨by decide, by decide⟩ hstate)
    · rw [Lists.manageState, if_neg hstate]
      exact hsame
  | suspReady p =>
    obtain rfl := Option.some.inj hl
    by_cases hstate : s.state p = .suspReady
    · exact hmove (by simp) (by simp) hstate Home.free_queued (moves_toReady hstate)
    · rw [Lists.manageState, if_neg hstate]
      exact hsame
  | updatePriority p found =>
    simp only [Lists.otherTransition] at hl
    split at hl
    · obtain rfl := Option.some.inj hl
      exact hsame
    · rename_i hstate
      have hfound : found = true := hok (not_not.1 hstate)
      rw [if_neg (not_not.2 hfound)] at hl
      split at hl
      · rename_i hmem
        obtain rfl := Option.some.inj hl
        have hqueued : home p = .queued := h.queued_of_mem hmem
        have hat := h.at p
        rw [hqueued] at hat
        exact ⟨_, h.other_moved (hqueued ▸ Home.free_queued) Home.free_queued
          (moves_updatePriority hat)⟩
      · exact absurd hl (by simp)

/-- **Every step that meets the condition keeps every process in one home.** -/
lemma owned_step [DecidableEq ι] {e : Event ι} (h : ∃ home, Owned s home) (hok : LeavesNone s e)
    (hstep : step s e = some s') : ∃ home, Owned s' home := by
  obtain ⟨home, h⟩ := h
  cases e with
  | thread i action =>
    simp only [step, Option.bind_eq_some_iff, Option.map_eq_some_iff] at hstep
    obtain ⟨r, hr, l, hl, rfl⟩ := hstep
    refine owned_thread h (CpuThread.keeps_step (h.sound i) hok (fun p hp => ?_) hr) hl
    -- a process in READY is in the hands of no thread
    have hmem : p ∈ s.ready := by
      rw [hp] at hl
      exact Lists.mem_of_takeReady hl
    cases hstage : (s.thread i).stage p with
    | none => rfl
    | some k =>
      have hheld := (h.stage i p k).1 hstage
      rw [h.queued_of_mem hmem] at hheld
      exact absurd hheld (by simp)
  | other tr =>
    simp only [step, Option.map_eq_some_iff] at hstep
    obtain ⟨l, hl, rfl⟩ := hstep
    exact owned_other h hok hl

/-! ## The runs -/

/-- At the start every process is away. -/
lemma owned_init (ι : Type) : Owned (init ι) fun _ => .away := by
  refine ⟨fun p => rfl, fun p => rfl, fun p => ⟨by simp [init], by simp [init]⟩, fun i p k => ?_,
    fun i => ?_⟩
  · simp [init, initDataThreadCpu, CpuThread.stage]
  · simp [init, initDataThreadCpu, CpuThread.Sound]

/-- A process that a thread executes is `data->pcb`, and the thread has not ended. -/
lemma pcb_of_executing {t : CpuThread} {p : ℕ} (h : t.stage p = some .executing) :
    t.Live ∧ t.pcb = some p := by
  obtain ⟨phase, pcb, keep, reason⟩ := t
  cases phase <;> simp_all [CpuThread.stage, CpuThread.Live]

/-- At rest, the process that a thread executes is its current one. -/
lemma executing_iff_of_atRest {t : CpuThread} {p : ℕ} (hrest : t.AtRest) (hsound : t.Sound) :
    t.stage p = some .executing ↔ t.Live ∧ t.currentPcb = some p := by
  rcases hrest with h | h | h | h
  · simp [CpuThread.stage, CpuThread.Live, CpuThread.currentPcb, h]
  · have hpre : t.Preempted := by
      simp only [CpuThread.Sound, h] at hsound
      exact hsound.1
    simp [CpuThread.stage, CpuThread.currentPcb, h, hpre]
  · simp [CpuThread.stage, CpuThread.Live, CpuThread.currentPcb, h]
  · simp [CpuThread.stage, CpuThread.Live, h]

/-- A process in EXEC is with some CPU. -/
lemma Owned.exists_executing (h : Owned s home) {p : ℕ} (hp : p ∈ s.exec) :
    ∃ i, home p = .held i .executing := by
  have hcount := h.exec p
  have hpos : 0 < s.exec.count p := List.count_pos_iff.2 hp
  unfold Home.execCount at hcount
  split at hcount
  · rename_i i hhome
    exact ⟨i, hhome⟩
  · exact absurd hcount hpos.ne'

/-- So none is stranded. -/
lemma Owned.noneStranded (h : Owned s home) : s.NoneStranded := by
  refine ⟨fun p hp => ?_, fun hrest p hp => ?_⟩
  · obtain ⟨i, hi⟩ := h.exists_executing hp
    exact ⟨i, pcb_of_executing ((h.stage i p _).2 hi)⟩
  · obtain ⟨i, hi⟩ := h.exists_executing hp
    refine ⟨i, (executing_iff_of_atRest (hrest i) (h.sound i)).1 ((h.stage i p _).2 hi),
      fun j hj => ?_⟩
    have hheld := (h.stage j p _).1 ((executing_iff_of_atRest (hrest j) (h.sound j)).2 hj)
    rw [hi] at hheld
    exact (Home.held.inj hheld).1.symm

/-- **No process is stranded in EXEC in a run whose steps meet the condition**, with any number of
CPUs that connect and disconnect. -/
theorem noneStranded_of_run [DecidableEq ι] (h : Run step LeavesNone (init ι) s) :
    s.NoneStranded := by
  obtain ⟨home, howned⟩ : ∃ home, Owned s home :=
    h.invariant ⟨_, owned_init ι⟩ fun _ _ _ ht hok hst => owned_step ht hok hst
  exact howned.noneStranded

instance (t : CpuThread) : (a : CpuThread.Action) → Decidable (t.LeavesNone a)
  | .send false => inferInstanceAs (Decidable (_ ∧ (_ → _)))
  | .go => inferInstanceAs (Decidable (_ → _ → _))
  | .send true => .isTrue trivial
  | .takeReady _ => .isTrue trivial
  | .receive _ => .isTrue trivial
  | .handle _ => .isTrue trivial
  | .due _ => .isTrue trivial
  | .preempt _ => .isTrue trivial

instance (s : ExecOwner ι) : (e : Event ι) → Decidable (LeavesNone s e)
  | .thread i action => inferInstanceAs (Decidable ((s.thread i).LeavesNone action))
  | .other (.updatePriority p found) =>
    inferInstanceAs (Decidable (s.state p = .ready → found = true))
  | .other (.newReady _) => .isTrue trivial
  | .other (.unlock _) => .isTrue trivial
  | .other (.blockSuspBlock _) => .isTrue trivial
  | .other (.suspBlock _) => .isTrue trivial
  | .other (.suspReady _) => .isTrue trivial

/-- A CPU thread takes a process from READY to its CPU. -/
def dispatchTo (i : ι) (p : ℕ) : List (Event ι) :=
  [.thread i .go, .thread i (.takeReady (some p)), .thread i .go, .thread i .go,
    .thread i (.send true)]

/-- A CPU is lost while its process is preempted by a better one, which goes back to READY. -/
theorem noneStranded_of_run_preempted :
    ∃ s : ExecOwner (Fin 2), Reachable step (init (Fin 2)) s ∧ (s.thread 0).phase = .closed ∧
      s.ready = [0, 1] ∧ s.exec = [2] ∧ s.NoneStranded := by
  have hrun : (executeOk step LeavesNone (init (Fin 2))
      ([.other (.newReady 0), .other (.newReady 1), .other (.newReady 2)] ++ dispatchTo 0 0 ++
        dispatchTo 1 2 ++ [.thread 0 (.receive .cycleOk), .thread 0 (.handle ⟨.mutexLocked, true⟩),
          .thread 0 (.due false), .thread 0 (.due false), .thread 0 (.preempt (some 1)),
          .thread 0 .go, .thread 0 .go, .thread 0 .go, .thread 0 (.send true),
          .thread 0 (.send false), .thread 0 .go])).map
      (fun s => ((s.thread 0).phase, s.ready, s.exec)) = some (.closed, [0, 1], [2]) := by
    decide +kernel
  obtain ⟨s, hs, heq⟩ := Option.map_eq_some_iff.1 hrun
  simp only [Prod.mk.injEq] at heq
  have hok := Run.of_executeOk hs
  exact ⟨s, hok.reachable, heq.1, heq.2.1, heq.2.2, noneStranded_of_run hok⟩

/-- **A CPU that disconnects strands its process**: the failed receive is an invalid operation, no
preemption is due, and the thread ends with its process in EXEC. -/
theorem stranded_of_disconnection :
    ∃ s : ExecOwner (Fin 1), Reachable step (init (Fin 1)) s ∧ (s.thread 0).phase = .closed ∧
      s.exec = [0] ∧ ¬ s.NoneStranded := by
  have hrun : (execute step (init (Fin 1)) ([.other (.newReady 0)] ++ dispatchTo 0 0 ++
      [.thread 0 (.receive .invalid), .thread 0 (.handle ⟨.mutexLocked, true⟩),
        .thread 0 (.due false), .thread 0 (.due false), .thread 0 (.preempt none),
        .thread 0 (.send false), .thread 0 .go])).map
      (fun s => ((s.thread 0).phase, s.exec)) = some (.closed, [0]) := by decide +kernel
  obtain ⟨s, hs, heq⟩ := Option.map_eq_some_iff.1 hrun
  obtain ⟨hclosed, hexec⟩ := Prod.mk.inj heq
  refine ⟨s, Run.of_execute hs, hclosed, hexec, fun h => ?_⟩
  obtain ⟨i, hlive, -⟩ := h.held 0 (by simp [hexec])
  rw [Subsingleton.elim i 0] at hlive
  exact hlive hclosed

end ExecOwner

end OsSimulator.Scheduler
