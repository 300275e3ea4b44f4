import OsSimulator.Library.Places
import OsSimulator.Scheduler.Levels

set_option relaxedAutoImplicit false
set_option autoImplicit false

/-!
# The seven-state machine

The transitions of `queues.c` and `suspension.c` without the mutexes, in any order and of any
processes: a state field and the lists are changed together, so that each live process is in the
list its state names, once, and in no other one.

## Main definitions

* `StateTransition`, `transitionStep` — the transitions.
* `StateTransition.edges` — the edges of the seven-state model that a transition goes along.
* `StateTransition.Refused s` — the process is in another state than the transition expects, or
  Kernel Memory has refused.
* `StateTransition.FindsNone s` — no process is in the state that the transition takes one from.
* `Agrees` — the state fields and the lists agree.
* `Goes p source target s s'` — one process goes along an edge.

## Main results

* `sevenStates_of_run` — the state fields and the lists agree in every state reached, a refused
  transition changes nothing, and the others go along an edge.
-/

namespace OsSimulator.Scheduler

open Queues

/-! ## The lists -/

/-- The lists of PCBs. -/
inductive Place
  | ready
  | exec
  | block
  | suspBlock
  | suspReady
  deriving DecidableEq, Repr

/-- The list that a state names. -/
def ProcessState.place : ProcessState → Option Place
  | .new | .exit => none
  | .ready => some .ready
  | .exec => some .exec
  | .block => some .block
  | .suspBlock => some .suspBlock
  | .suspReady => some .suspReady

/-- The state of the processes of a list. -/
def Place.state : Place → ProcessState
  | .ready => .ready
  | .exec => .exec
  | .block => .block
  | .suspBlock => .suspBlock
  | .suspReady => .suspReady

/-- The processes of the READY queue, one subqueue behind the other. -/
def ReadyQueue.listed (ready : ReadyQueue) : List ℕ := ready.queues.flatMap ReadySubqueue.queue

namespace Queues

/-- The list of a name. -/
def placeList (s : Queues) : Place → List ℕ
  | .ready => s.ready.listed
  | .exec => s.exec.list
  | .block => s.block
  | .suspBlock => s.suspBlock
  | .suspReady => s.suspReady

/-! ## The other transitions -/

/-- `transition_block_ready`. -/
def transitionBlockReady (p : ℕ) (s : Queues) : Option Queues :=
  if (s.pcbs p).state = .block then
    ((s.setState p .ready).transitionTakeBlock p).transitionToReady p
  else some s

/-- `transition_susp_block`. -/
def transitionSuspBlock (p : ℕ) (s : Queues) : Queues :=
  if (s.pcbs p).state = .suspBlock then
    ((s.setState p .block).transitionTakeSuspBlock p).transitionToBlock p
  else s

/-- `transition_susp_block_susp_ready`. -/
def transitionSuspBlockSuspReady (p : ℕ) (s : Queues) : Queues :=
  if (s.pcbs p).state = .suspBlock then
    ((s.setState p .suspReady).transitionTakeSuspBlock p).transitionToSuspReady p
  else s

/-- `transition_any_exit`: the first process of a list is taken and ended; an empty list has none.
The state field is not changed before the PCB is destroyed. -/
def transitionAnyExit (place : Place) (s : Queues) : Queues :=
  match place with
  | .ready =>
    match s.ready.takeNext with
    | none => s
    | some (p, ready) => { s with ready := ready }.transitionToExit p
  | .exec =>
    match s.exec.list with
    | [] => s
    | p :: rest => { s with exec := { s.exec with list := rest } }.transitionToExit p
  | .block =>
    match s.block with
    | [] => s
    | p :: rest => { s with block := rest }.transitionToExit p
  | .suspBlock =>
    match s.suspBlock with
    | [] => s
    | p :: rest => { s with suspBlock := rest }.transitionToExit p
  | .suspReady =>
    match s.suspReady with
    | [] => s
    | p :: rest => { s with suspReady := rest }.transitionToExit p

end Queues

/-! ## The machine -/

/-- The transitions. The priority of a new process and the answers of Kernel Memory come from
outside; the answer to a resumption includes that there is space. -/
inductive StateTransition
  | newReady (priority : ℤ) (accepted : Bool)
  | dispatch
  | execReady (p : ℕ)
  | execBlock (p : ℕ)
  | execExit (p : ℕ)
  | blockReady (p : ℕ)
  | blockSuspBlock (p : ℕ) (suspended : Bool)
  | suspBlock (p : ℕ)
  | suspBlockSuspReady (p : ℕ)
  | suspReady (p : ℕ) (resumed : Bool)
  | unlock (p : ℕ)
  | anyExit (place : Place)
  deriving DecidableEq, Repr

/-- One transition; `none` when it does not return. -/
def transitionStep (s : Queues) : StateTransition → Option Queues
  | .newReady priority accepted => s.transitionNewReady priority accepted
  | .dispatch =>
    match s.dispatch with
    | none => some s
    | some dispatched => some dispatched.2
  | .execReady p => s.transitionExecReady p
  | .execBlock p => some (s.transitionExecBlock p)
  | .execExit p => some (s.transitionExecExit p)
  | .blockReady p => s.transitionBlockReady p
  | .blockSuspBlock p suspended => some (s.transitionBlockSuspBlock p suspended)
  | .suspBlock p => some (s.transitionSuspBlock p)
  | .suspBlockSuspReady p => some (s.transitionSuspBlockSuspReady p)
  | .suspReady p resumed => s.transitionSuspReady p resumed
  | .unlock p => s.transitionUnlock p
  | .anyExit place => some (s.transitionAnyExit place)

namespace StateTransition

/-- The edges of the seven-state model, by the transition that goes along them. -/
def edges : StateTransition → List (ProcessState × ProcessState)
  | .newReady _ _ => [(.new, .ready), (.new, .exit)]
  | .dispatch => [(.ready, .exec)]
  | .execReady _ => [(.exec, .ready)]
  | .execBlock _ => [(.exec, .block)]
  | .execExit _ => [(.exec, .exit)]
  | .blockReady _ => [(.block, .ready)]
  | .blockSuspBlock _ _ => [(.block, .suspBlock)]
  | .suspBlock _ => [(.suspBlock, .block)]
  | .suspBlockSuspReady _ => [(.suspBlock, .suspReady)]
  | .suspReady _ _ => [(.suspReady, .ready)]
  | .unlock _ => [(.block, .ready), (.suspBlock, .suspReady)]
  | .anyExit place => [(place.state, .exit)]

/-- The process that a transition is called with. -/
def subject : StateTransition → Option ℕ
  | .newReady _ _ | .dispatch | .anyExit _ => none
  | .execReady p | .execBlock p | .execExit p | .blockReady p | .blockSuspBlock p _ | .suspBlock p
  | .suspBlockSuspReady p | .suspReady p _ | .unlock p => some p

/-- The answer of Kernel Memory to a suspension or a resumption. -/
def answer : StateTransition → Bool
  | .blockSuspBlock _ suspended => suspended
  | .suspReady _ resumed => resumed
  | _ => true

/-- No edge of the transition starts in the state of its process, or Kernel Memory has refused. -/
def Refused (s : Queues) (transition : StateTransition) : Prop :=
  transition.answer = false ∨
    ∃ p, transition.subject = some p ∧ ∀ e ∈ transition.edges, (s.pcbs p).state ≠ e.1

/-- The transition takes the first process of a list, and there is none in the state of the list. -/
def FindsNone (s : Queues) (transition : StateTransition) : Prop :=
  transition.subject = none ∧ ∀ p, ∀ e ∈ transition.edges, (s.pcbs p).state ≠ e.1

/-- The state of the process is the source of no edge. -/
lemma refused_of_ne {s : Queues} {transition : StateTransition} {p : ℕ}
    {source target : ProcessState}
    (hsubject : transition.subject = some p) (hedges : transition.edges = [(source, target)])
    (hne : (s.pcbs p).state ≠ source) : transition.Refused s := by
  refine .inr ⟨p, hsubject, fun e he => ?_⟩
  rw [hedges] at he
  rw [List.mem_singleton.1 he]
  exact hne

end StateTransition

/-- **The state fields and the lists agree**: each live process is in the list that its state names,
once, and in no other list; the others are in none. -/
def Agrees (s : Queues) : Prop := Placed s.placeList fun p => (s.pcbs p).state.place

/-- One process goes along an edge: its state field changes, it leaves its list and enters the new
one. The other state fields and lists are as before. -/
structure Goes (p : ℕ) (source target : ProcessState) (s s' : Queues) : Prop where
  starts : (s.pcbs p).state = source
  ends : (s'.pcbs p).state = target
  other : ∀ q, q ≠ p → (s'.pcbs q).state = (s.pcbs q).state
  left : ∀ place, source.place = some place →
    (s.placeList place).Perm (p :: s'.placeList place)
  entered : ∀ place, target.place = some place →
    (s'.placeList place).Perm (p :: s.placeList place)
  kept : ∀ place, source.place ≠ some place → target.place ≠ some place →
    s'.placeList place = s.placeList place

/-! ## The READY queue as a list -/

namespace ReadyQueue

variable {ready ready' : ReadyQueue} {p : ℕ}

/-- One more process is listed. -/
lemma listed_add {priority : ℤ} (h : ready.add p priority = some ready') :
    ready'.listed.Perm (p :: ready.listed) := by
  obtain ⟨queues, hqueues, rfl⟩ := Option.map_eq_some_iff.1 h
  unfold modifyAt at hqueues
  split at hqueues
  · rename_i hbound
    obtain rfl := Option.some.inj hqueues
    have hlt : (ready.level priority).toNat < ready.queues.length := by omega
    simp only [listed]
    generalize (ready.level priority).toNat = i at hlt
    generalize ready.queues = queues at hlt
    clear hbound hqueues h
    induction queues generalizing i with
    | nil => exact absurd hlt (Nat.not_lt_zero i)
    | cons subqueue rest ih =>
      cases i with
      | zero =>
        simp only [List.modify_zero_cons, List.flatMap_cons, List.append_assoc]
        exact List.perm_middle
      | succ i =>
        simp only [List.modify_succ_cons, List.flatMap_cons]
        exact ((ih i (by simpa using hlt)).append_left _).trans List.perm_middle
  · exact absurd hqueues (by simp)

/-- The one that is taken was listed. -/
lemma listed_takeNext (h : ready.takeNext = some (p, ready')) :
    ready.listed.Perm (p :: ready'.listed) := by
  obtain ⟨i, -, hmatch⟩ := Option.bind_eq_some_iff.1 h
  split at hmatch
  · rename_i q rest algorithm hget
    obtain ⟨rfl, hready'⟩ := Prod.mk.inj (Option.some.inj hmatch)
    have hqueues : ready'.queues = ready.queues.set i ⟨rest, algorithm⟩ := by
      rw [← hready']
      split <;> simp
    rw [listed, listed, hqueues]
    clear hqueues hready' hmatch h
    generalize ready.queues = queues at hget
    induction queues generalizing i with
    | nil => simp at hget
    | cons subqueue queues ih =>
      cases i with
      | zero =>
        obtain rfl := Option.some.inj hget
        exact .refl _
      | succ i =>
        rw [List.set_cons_succ, List.flatMap_cons, List.flatMap_cons]
        exact ((ih i hget).append_left _).trans List.perm_middle
  · exact absurd hmatch (by simp)

/-- Where no process is found, there is none in any level. -/
lemma listed_eq_nil (h : ready.takeNext = none) : ready.listed = [] := by
  rw [listed, List.flatMap_eq_nil_iff]
  intro subqueue hmem
  by_contra hne
  cases hfirst : firstNonEmpty ready.queues with
  | none =>
    have hempty := List.findIdx?_eq_none_iff.1 hfirst subqueue hmem
    exact hne (by simpa using hempty)
  | some i =>
    obtain ⟨hi, hnonempty, -⟩ := List.findIdx?_eq_some_iff_getElem.1 hfirst
    obtain ⟨p, rest, hlist⟩ := List.exists_cons_of_ne_nil
      (show (ready.queues[i]).queue ≠ [] by simpa using hnonempty)
    have hget : ready.queues[i]? = some ⟨p :: rest, (ready.queues[i]).algorithm⟩ := by
      rw [List.getElem?_eq_getElem hi, ← hlist]
    rw [takeNext, hfirst, Option.bind_some, hget] at h
    exact absurd h (by simp)

end ReadyQueue

/-! ## The invariant -/

/-- What the run lemma carries: pids that have not been given to a process are new, and every live
process has a level. -/
structure Consistent (s : Queues) : Prop where
  agrees : Agrees s
  fresh : ∀ q, s.nextPid ≤ q → (s.pcbs q).state = .new
  level : ∀ q, (s.pcbs q).state.Live → s.ready.HasLevel (s.pcbs q).priority

/-- A process goes along an edge, and the rest of what the invariant speaks of stays, unless the
process is created. -/
structure Transits (p : ℕ) (source target : ProcessState) (s s' : Queues) : Prop
    extends Goes p source target s s' where
  leaves : source.place ≠ none → source.place ≠ target.place
  levels : s'.ready.levels = s.ready.levels
  priority : ∀ q, q ≠ p → (s'.pcbs q).priority = (s.pcbs q).priority
  existing : source ≠ .new → source.Live ∧ (s'.pcbs p).priority = (s.pcbs p).priority ∧
    s'.nextPid = s.nextPid
  created : source = .new → p = s.nextPid ∧ s'.nextPid = s.nextPid + 1 ∧
    (target.Live → s'.ready.HasLevel (s'.pcbs p).priority)

section Invariant

variable {p : ℕ} {source target : ProcessState} {s s' : Queues}

/-- A transition keeps lists and states consistent. -/
lemma Consistent.transits (h : Consistent s) (ht : Transits p source target s s') :
    Consistent s' := by
  have hstarts := ht.starts
  have hends := ht.ends
  refine ⟨?_, fun q hq => ?_, fun q hq => ?_⟩
  · refine h.agrees.goes (a := p) ?_ (fun q hq => ?_) ?_ ?_ ?_
    · rw [hstarts, hends]
      exact ht.leaves
    · rw [ht.other q hq]
    · rw [hstarts]
      exact ht.left
    · rw [hends]
      exact ht.entered
    · rw [hstarts, hends]
      exact ht.kept
  · by_cases hnew : source = .new
    · obtain ⟨hp, hpid, -⟩ := ht.created hnew
      rw [ht.other q (by omega)]
      exact h.fresh q (by omega)
    · obtain ⟨-, -, hpid⟩ := ht.existing hnew
      have hstate := h.fresh q (by omega)
      by_cases heq : q = p
      · rw [heq, hstarts] at hstate
        exact absurd hstate hnew
      · rwa [ht.other q heq]
  · by_cases heq : q = p
    · subst heq
      by_cases hnew : source = .new
      · exact (ht.created hnew).2.2 (hends ▸ hq)
      · obtain ⟨hlive, hprio, -⟩ := ht.existing hnew
        rw [hprio]
        exact (h.level q (hstarts ▸ hlive)).congr ht.levels
    · rw [ht.priority q heq]
      rw [ht.other q heq] at hq
      exact (h.level q hq).congr ht.levels

/-- A move of a process that exists. -/
lemma Transits.of_moved (hstate : (s.pcbs p).state = source) (hlive : source.Live)
    (hmoved : Moved p target s s') (hleaves : source.place ≠ target.place)
    (hlevels : s'.ready.levels = s.ready.levels)
    (hleft : ∀ place, source.place = some place →
      (s.placeList place).Perm (p :: s'.placeList place))
    (hentered : ∀ place, target.place = some place →
      (s'.placeList place).Perm (p :: s.placeList place))
    (hkept : ∀ place, source.place ≠ some place → target.place ≠ some place →
      s'.placeList place = s.placeList place) : Transits p source target s s' where
  starts := hstate
  ends := by rw [hmoved.self]
  other q hq := by rw [hmoved.other q hq]
  left := hleft
  entered := hentered
  kept := hkept
  leaves _ := hleaves
  levels := hlevels
  priority q _ := hmoved.priority q
  existing _ := ⟨hlive, hmoved.priority p, hmoved.nextPid⟩
  created hnew := absurd hnew hlive.1

/-- The process is in the list of its state. -/
lemma Consistent.mem_placeList (h : Consistent s) {place : Place}
    (hstate : (s.pcbs p).state.place = some place) : p ∈ s.placeList place :=
  h.agrees.mem_iff.2 hstate

end Invariant

/-! ## The transitions -/

section Transitions

variable {p : ℕ} {source : ProcessState} {s s' : Queues}

/-- `transition_take_exec` takes the process from the EXEC list. -/
lemma transitionTakeExec_list (p : ℕ) (s : Queues) :
    ∃ exec, exec.list = s.exec.list.erase p ∧ s.transitionTakeExec p = { s with exec := exec } := by
  unfold transitionTakeExec
  simp only
  split
  · exact ⟨_, rfl, rfl⟩
  · exact ⟨_, rfl, rfl⟩

/-- A move to READY. The list the process is in loses it; `t` is the state before it enters the
queue. -/
lemma transits_toReady {t : Queues} {place : Place} (h : Consistent s)
    (hstate : (s.pcbs p).state = source) (hlive : source.Live) (hplace : source.place = some place)
    (hne : place ≠ .ready) (hrun : t.transitionToReady p = some s')
    (hpcbs : t.pcbs = (s.setState p .ready).pcbs) (hmutexes : t.mutexes = s.mutexes)
    (hpid : t.nextPid = s.nextPid) (hready : t.ready = s.ready)
    (hleft : t.placeList place = (s.placeList place).erase p)
    (hkept : ∀ other, other ≠ place → t.placeList other = s.placeList other) :
    Transits p source .ready s s' := by
  obtain ⟨hmoved, hadd⟩ := moved_transitionToReady hrun hpcbs hmutexes hpid hready
  have hlists : ∀ other, other ≠ .ready → s'.placeList other = t.placeList other := by
    intro other hother
    rw [(transitionToReady_spec hrun).1]
    cases other <;> first | rfl | exact absurd rfl hother
  have hmem : p ∈ s.placeList place := h.mem_placeList (by rw [hstate, hplace])
  refine .of_moved hstate hlive hmoved ?_ (ReadyQueue.levels_add hadd) ?_ ?_ ?_
  · rw [hplace]
    exact fun heq => hne (Option.some.inj heq)
  · intro other hother
    obtain rfl := Option.some.inj (hplace.symm.trans hother)
    rw [hlists place hne, hleft]
    exact List.perm_cons_erase hmem
  · intro other hother
    obtain rfl := Option.some.inj hother
    exact ReadyQueue.listed_add hadd
  · intro other hsource htarget
    have hother : other ≠ .ready := fun heq => htarget (congrArg some heq.symm)
    rw [hlists other hother, hkept other fun heq => hsource (hplace.trans (congrArg some heq.symm))]

/-- A move from one of the other lists to another one of them. -/
lemma transits_lists {target : ProcessState} {place place' : Place} (h : Consistent s)
    (hstate : (s.pcbs p).state = source) (hlive : source.Live) (hplace : source.place = some place)
    (hplace' : target.place = some place') (hne : place ≠ place') (hmoved : Moved p target s s')
    (hready : s'.ready = s.ready) (hleft : s'.placeList place = (s.placeList place).erase p)
    (hentered : (s'.placeList place').Perm (p :: s.placeList place'))
    (hkept : ∀ other, other ≠ place → other ≠ place' → s'.placeList other = s.placeList other) :
    Transits p source target s s' := by
  have hmem : p ∈ s.placeList place := h.mem_placeList (by rw [hstate, hplace])
  refine .of_moved hstate hlive hmoved ?_ (by rw [hready]) ?_ ?_ ?_
  · rw [hplace, hplace']
    exact fun heq => hne (Option.some.inj heq)
  · intro other hother
    obtain rfl := Option.some.inj (hplace.symm.trans hother)
    rw [hleft]
    exact List.perm_cons_erase hmem
  · intro other hother
    obtain rfl := Option.some.inj (hplace'.symm.trans hother)
    exact hentered
  · intro other hsource htarget
    exact hkept other (fun heq => hsource (hplace.trans (congrArg some heq.symm)))
      fun heq => htarget (hplace'.trans (congrArg some heq.symm))

/-- The end of a process that is in a list: `t` is the state without it there. -/
lemma transits_toExit {t : Queues} {place : Place} (hstate : (s.pcbs p).state = source)
    (hlive : source.Live) (hplace : source.place = some place)
    (hself : (t.pcbs p).priority = (s.pcbs p).priority)
    (hother : ∀ q, q ≠ p → t.pcbs q = s.pcbs q) (hpid : t.nextPid = s.nextPid)
    (hlevels : t.ready.levels = s.ready.levels)
    (hleft : (s.placeList place).Perm (p :: t.placeList place))
    (hkept : ∀ other, other ≠ place → t.placeList other = s.placeList other) :
    Transits p source .exit s (t.transitionToExit p) where
  starts := hstate
  ends := by rw [transitionToExit, modifyPcb_pcbs_self]
  other q hq := by rw [transitionToExit, modifyPcb_pcbs_of_ne hq, hother q hq]
  left other hsource := by
    obtain rfl := Option.some.inj (hplace.symm.trans hsource)
    cases place <;> exact hleft
  entered other htarget := by simp [ProcessState.place] at htarget
  kept other hsource _ := by
    rw [← hkept other fun heq => hsource (hplace.trans (congrArg some heq.symm))]
    cases other <;> rfl
  leaves _ := by
    rw [hplace]
    simp [ProcessState.place]
  levels := hlevels
  priority q hq := by rw [transitionToExit, modifyPcb_pcbs_of_ne hq, hother q hq]
  existing _ := ⟨hlive, by rw [transitionToExit, modifyPcb_pcbs_self, hself], hpid⟩
  created hnew := absurd hnew hlive.1

/-- SUSP. BLOCK to SUSP. READY. -/
lemma transits_suspBlockSuspReady (h : Consistent s) (hstate : (s.pcbs p).state = .suspBlock) :
    Transits p .suspBlock .suspReady s
      (((s.setState p .suspReady).transitionTakeSuspBlock p).transitionToSuspReady p) := by
  refine transits_lists h hstate ⟨by decide, by decide⟩ rfl rfl (by decide)
    ((moved_setState p .suspReady s).of_eq rfl rfl rfl) rfl rfl
    (perm_insertPcbSorted _ p s.suspReady) fun other hne hne' => ?_
  cases other <;> first | rfl | exact absurd rfl hne | exact absurd rfl hne'

/-- A new process. -/
lemma transits_newReady {priority : ℤ} {accepted : Bool} (h : Consistent s)
    (hrun : s.transitionNewReady priority accepted = some s') :
    Transits s.nextPid .new .ready s s' ∨ Transits s.nextPid .new .exit s s' := by
  have hstate := h.fresh s.nextPid le_rfl
  have hlists : ∀ place, place ≠ .ready → s'.placeList place = s.placeList place := by
    intro place hplace
    unfold transitionNewReady at hrun
    split at hrun
    · simp only at hrun
      split at hrun
      · rw [(transitionToReady_spec hrun).1]
        cases place <;> first | rfl | exact absurd rfl hplace
      · obtain rfl := Option.some.inj hrun
        cases place <;> rfl
    · exact absurd hrun (by simp)
  rcases transitionNewReady_spec hrun with ⟨hcreated, hadd⟩ | ⟨hcreated, hready⟩
  · left
    refine ⟨⟨hstate, by rw [hcreated.self], fun q hq => by rw [hcreated.other q hq], ?_, ?_, ?_⟩,
      fun hne => absurd rfl hne, ReadyQueue.levels_add hadd,
      fun q hq => by rw [hcreated.other q hq], fun hne => absurd rfl hne,
      fun _ => ⟨rfl, hcreated.nextPid, fun _ => ?_⟩⟩
    · intro place hplace
      simp [ProcessState.place] at hplace
    · intro place hplace
      obtain rfl := Option.some.inj hplace
      exact ReadyQueue.listed_add hadd
    · intro place _ hplace
      exact hlists place fun heq => hplace (congrArg some heq.symm)
    · rw [hcreated.self]
      exact (ReadyQueue.hasLevel_of_add hadd).congr (ReadyQueue.levels_add hadd)
  · right
    refine ⟨⟨hstate, by rw [hcreated.self], fun q hq => by rw [hcreated.other q hq], ?_, ?_, ?_⟩,
      fun hne => absurd rfl hne, by rw [hready], fun q hq => by rw [hcreated.other q hq],
      fun hne => absurd rfl hne, fun _ => ⟨rfl, hcreated.nextPid, fun hlive => absurd rfl hlive.2⟩⟩
    · intro place hplace
      simp [ProcessState.place] at hplace
    · intro place hplace
      simp [ProcessState.place] at hplace
    · intro place _ _
      by_cases hplace : place = .ready
      · rw [hplace, placeList, placeList, hready]
      · exact hlists place hplace

/-- The dispatch of a process that is taken from READY. -/
lemma transits_dispatch {q : ℕ} (h : Consistent s) (hrun : s.dispatch = some (q, s')) :
    Transits q .ready .exec s s' := by
  obtain ⟨⟨q', ready⟩, htake, heq⟩ := Option.map_eq_some_iff.1 hrun
  obtain ⟨rfl, rfl⟩ := Prod.mk.inj heq
  have hlist := ReadyQueue.listed_takeNext htake
  have hstate : (s.pcbs q').state = .ready := by
    have hmem : q' ∈ s.placeList .ready := hlist.mem_iff.2 List.mem_cons_self
    have hplace := h.agrees.mem_iff.1 hmem
    generalize (s.pcbs q').state = state at hplace
    cases state <;> first | rfl | exact absurd hplace (by decide)
  set t : Queues := { s with ready := ready } with ht
  have hstate' : (t.pcbs q').state = .ready := hstate
  have hresult : (t.transitionReadyExec q').transitionToExec q' =
      (t.setState q' .exec).transitionToExec q' := by
    rw [transitionReadyExec, if_pos hstate']
  rw [hresult]
  have hmoved : Moved q' .exec s ((t.setState q' .exec).transitionToExec q') :=
    (moved_setState q' .exec s).of_eq rfl rfl rfl
  refine .of_moved hstate ⟨by decide, by decide⟩ hmoved (by decide)
    (ReadyQueue.levels_takeNext htake) ?_ ?_ ?_
  · intro place hplace
    obtain rfl := Option.some.inj hplace
    exact hlist
  · intro place hplace
    obtain rfl := Option.some.inj hplace
    exact List.perm_append_singleton q' s.exec.list
  · intro place hsource htarget
    cases place <;> first | rfl | exact absurd rfl hsource | exact absurd rfl htarget

/-- The first process of a list is ended. -/
lemma transits_anyExit (h : Consistent s) (place : Place) :
    (s.transitionAnyExit place = s ∧ s.placeList place = []) ∨
      ∃ q, Transits q place.state .exit s (s.transitionAnyExit place) := by
  have hplace : place.state.place = some place := by cases place <;> rfl
  have hlive : place.state.Live := by cases place <;> exact ⟨by decide, by decide⟩
  have hstate : ∀ q ∈ s.placeList place, (s.pcbs q).state = place.state := by
    intro q hq
    have hq := h.agrees.mem_iff.1 hq
    generalize (s.pcbs q).state = state at hq
    cases place <;> cases state <;> first | rfl | exact absurd hq (by decide)
  unfold transitionAnyExit
  cases place with
  | ready =>
    simp only
    split
    · rename_i hnone
      exact .inl ⟨rfl, ReadyQueue.listed_eq_nil hnone⟩
    · rename_i q ready htake
      have hlist := ReadyQueue.listed_takeNext htake
      have hmem : q ∈ s.placeList .ready := hlist.mem_iff.2 List.mem_cons_self
      refine .inr ⟨q, transits_toExit (hstate q hmem) hlive hplace rfl (fun _ _ => rfl) rfl
        (ReadyQueue.levels_takeNext htake) hlist fun other hother => ?_⟩
      cases other <;> first | rfl | exact absurd rfl hother
  | exec | block | suspBlock | suspReady =>
    simp only
    split
    · rename_i hnil
      exact .inl ⟨rfl, hnil⟩
    · rename_i q rest hlist
      refine .inr ⟨q, transits_toExit (hstate q ?_) hlive hplace rfl (fun _ _ => rfl) rfl rfl
        ?_ fun other hother => ?_⟩
      · rw [placeList, hlist]
        exact List.mem_cons_self
      · rw [placeList, hlist]
        exact .refl _
      · cases other <;> first | rfl | exact absurd rfl hother

/-- **What a transition does**: nothing, when it is refused or finds no process, or one process goes
along an edge of it.

**Proof sketch.** By the transition. Each of them tests the state, and then takes the process from
the list of the state that it tested. -/
theorem transitionStep_cases {transition : StateTransition} (h : Consistent s)
    (hst : transitionStep s transition = some s') :
    (s' = s ∧ (transition.Refused s ∨ transition.FindsNone s)) ∨
      ∃ p, ∃ e ∈ transition.edges, Transits p e.1 e.2 s s' := by
  have hlive : ProcessState.Live .exec ∧ ProcessState.Live .block ∧
      ProcessState.Live .suspBlock ∧ ProcessState.Live .suspReady := by
    refine ⟨?_, ?_, ?_, ?_⟩ <;> exact ⟨by decide, by decide⟩
  obtain ⟨hexec, hblock, hsuspBlock, hsuspReady⟩ := hlive
  cases transition with
  | newReady priority accepted =>
    right
    rcases transits_newReady h hst with htransits | htransits
    · exact ⟨_, _, List.mem_cons_self, htransits⟩
    · exact ⟨_, _, List.mem_cons_of_mem _ List.mem_cons_self, htransits⟩
  | dispatch =>
    rw [transitionStep] at hst
    split at hst
    · rename_i hnone
      refine .inl ⟨(Option.some.inj hst).symm, .inr ⟨rfl, fun p e he hstate => ?_⟩⟩
      rw [List.mem_singleton.1 he] at hstate
      have hmem : p ∈ s.placeList .ready := h.mem_placeList (by rw [hstate]; rfl)
      rw [placeList, ReadyQueue.listed_eq_nil (Option.map_eq_none_iff.1 hnone)] at hmem
      exact absurd hmem List.not_mem_nil
    · rename_i dispatched hdispatch
      obtain rfl := Option.some.inj hst
      exact .inr ⟨_, _, List.mem_singleton_self _, transits_dispatch h hdispatch⟩
  | execReady p =>
    rw [transitionStep, transitionExecReady] at hst
    split at hst
    · rename_i hstate
      obtain ⟨exec, hlist, htake⟩ := transitionTakeExec_list p (s.setState p .ready)
      rw [htake] at hst
      refine .inr ⟨p, _, List.mem_singleton_self _, transits_toReady h hstate hexec rfl (by decide)
        hst rfl rfl rfl rfl hlist fun other hother => ?_⟩
      cases other <;> first | rfl | exact absurd rfl hother
    · rename_i hne
      exact .inl ⟨(Option.some.inj hst).symm, .inl (StateTransition.refused_of_ne rfl rfl hne)⟩
  | execBlock p =>
    obtain rfl := Option.some.inj hst
    rw [transitionExecBlock]
    split
    · rename_i hstate
      obtain ⟨exec, hlist, htake⟩ := transitionTakeExec_list p (s.setState p .block)
      rw [htake]
      refine .inr ⟨p, _, List.mem_singleton_self _, transits_lists h hstate hexec rfl rfl
        (by decide) ((moved_setState p .block s).of_eq rfl rfl rfl) rfl hlist
        (List.perm_append_singleton p s.block) fun other hne hne' => ?_⟩
      cases other <;> first | rfl | exact absurd rfl hne | exact absurd rfl hne'
    · rename_i hne
      exact .inl ⟨rfl, .inl (StateTransition.refused_of_ne rfl rfl hne)⟩
  | execExit p =>
    obtain rfl := Option.some.inj hst
    rw [transitionExecExit]
    split
    · rename_i hstate
      obtain ⟨exec, hlist, htake⟩ := transitionTakeExec_list p (s.setState p .exit)
      have hmem : p ∈ s.placeList .exec := h.mem_placeList (by rw [hstate]; rfl)
      have hmoved := moved_setState p .exit s
      rw [htake]
      refine .inr ⟨p, _, List.mem_singleton_self _, transits_toExit hstate hexec rfl
        (hmoved.priority p) hmoved.other rfl rfl ?_ fun other hother => ?_⟩
      · rw [placeList, placeList, hlist]
        exact List.perm_cons_erase hmem
      · cases other <;> first | rfl | exact absurd rfl hother
    · rename_i hne
      exact .inl ⟨rfl, .inl (StateTransition.refused_of_ne rfl rfl hne)⟩
  | blockReady p =>
    rw [transitionStep, transitionBlockReady] at hst
    split at hst
    · rename_i hstate
      refine .inr ⟨p, _, List.mem_singleton_self _, transits_toReady h hstate hblock rfl (by decide)
        hst rfl rfl rfl rfl rfl fun other hother => ?_⟩
      cases other <;> first | rfl | exact absurd rfl hother
    · rename_i hne
      exact .inl ⟨(Option.some.inj hst).symm, .inl (StateTransition.refused_of_ne rfl rfl hne)⟩
  | blockSuspBlock p suspended =>
    obtain rfl := Option.some.inj hst
    rw [transitionBlockSuspBlock]
    split
    · rename_i hcond
      refine .inr ⟨p, _, List.mem_singleton_self _, transits_lists h hcond.1 hblock rfl rfl
        (by decide) ((moved_setState p .suspBlock s).of_eq rfl rfl rfl) rfl rfl
        (perm_insertPcbSorted _ p s.suspBlock) fun other hne hne' => ?_⟩
      cases other <;> first | rfl | exact absurd rfl hne | exact absurd rfl hne'
    · rename_i hcond
      refine .inl ⟨rfl, .inl ?_⟩
      cases suspended with
      | false => exact .inl rfl
      | true => exact StateTransition.refused_of_ne rfl rfl fun hstate => hcond ⟨hstate, rfl⟩
  | suspBlock p =>
    obtain rfl := Option.some.inj hst
    rw [transitionSuspBlock]
    split
    · rename_i hstate
      refine .inr ⟨p, _, List.mem_singleton_self _, transits_lists h hstate hsuspBlock rfl rfl
        (by decide) ((moved_setState p .block s).of_eq rfl rfl rfl) rfl rfl
        (List.perm_append_singleton p s.block) fun other hne hne' => ?_⟩
      cases other <;> first | rfl | exact absurd rfl hne | exact absurd rfl hne'
    · rename_i hne
      exact .inl ⟨rfl, .inl (StateTransition.refused_of_ne rfl rfl hne)⟩
  | suspBlockSuspReady p =>
    obtain rfl := Option.some.inj hst
    rw [transitionSuspBlockSuspReady]
    split
    · rename_i hstate
      exact .inr ⟨p, _, List.mem_singleton_self _, transits_suspBlockSuspReady h hstate⟩
    · rename_i hne
      exact .inl ⟨rfl, .inl (StateTransition.refused_of_ne rfl rfl hne)⟩
  | suspReady p resumed =>
    rw [transitionStep, transitionSuspReady] at hst
    split at hst
    · rename_i hcond
      refine .inr ⟨p, _, List.mem_singleton_self _, transits_toReady h hcond.1 hsuspReady rfl
        (by decide) hst rfl rfl rfl rfl rfl fun other hother => ?_⟩
      cases other <;> first | rfl | exact absurd rfl hother
    · rename_i hcond
      refine .inl ⟨(Option.some.inj hst).symm, .inl ?_⟩
      cases resumed with
      | false => exact .inl rfl
      | true => exact StateTransition.refused_of_ne rfl rfl fun hstate => hcond ⟨hstate, rfl⟩
  | unlock p =>
    rw [transitionStep, transitionUnlock] at hst
    split at hst
    · rename_i hstate
      refine .inr ⟨p, _, List.mem_cons_self, transits_toReady h hstate hblock rfl (by decide)
        hst rfl rfl rfl rfl rfl fun other hother => ?_⟩
      cases other <;> first | rfl | exact absurd rfl hother
    · rename_i hne
      split at hst
      · rename_i hstate
        obtain rfl := Option.some.inj hst
        exact .inr ⟨p, _, List.mem_cons_of_mem _ List.mem_cons_self,
          transits_suspBlockSuspReady h hstate⟩
      · rename_i hne'
        refine .inl ⟨(Option.some.inj hst).symm, .inl (.inr ⟨p, rfl, fun e he => ?_⟩)⟩
        rcases List.mem_pair.1 he with rfl | rfl
        · exact hne
        · exact hne'
  | anyExit place =>
    obtain rfl := Option.some.inj hst
    rcases transits_anyExit h place with ⟨hsame, hnil⟩ | ⟨q, htransits⟩
    · refine .inl ⟨hsame, .inr ⟨rfl, fun p e he hstate => ?_⟩⟩
      rw [List.mem_singleton.1 he] at hstate
      have hmem : p ∈ s.placeList place := h.mem_placeList (by rw [hstate]; cases place <;> rfl)
      rw [hnil] at hmem
      exact absurd hmem List.not_mem_nil
    · exact .inr ⟨q, _, List.mem_singleton_self _, htransits⟩

/-- A refused transition changes nothing. -/
lemma transitionStep_of_refused {transition : StateTransition} (h : transition.Refused s)
    (hst : transitionStep s transition = some s') : s' = s := by
  have hstate : transition.answer = false ∨ ∃ p, transition.subject = some p ∧
      ∀ e ∈ transition.edges, (s.pcbs p).state ≠ e.1 := h
  cases transition with
  | newReady priority accepted | dispatch | anyExit place =>
    simp [StateTransition.answer, StateTransition.subject] at hstate
  | execReady p | execBlock p | execExit p | blockReady p | suspBlock p | suspBlockSuspReady p =>
    simp only [StateTransition.answer, StateTransition.subject, StateTransition.edges,
      Bool.true_eq_false, false_or, Option.some.injEq, exists_eq_left', List.mem_singleton,
      forall_eq] at hstate
    simp only [transitionStep, transitionExecReady, transitionExecBlock, transitionExecExit,
      transitionBlockReady, transitionSuspBlock, transitionSuspBlockSuspReady, if_neg hstate] at hst
    exact (Option.some.inj hst).symm
  | blockSuspBlock p answer | suspReady p answer =>
    simp only [StateTransition.answer, StateTransition.subject, StateTransition.edges,
      Option.some.injEq, exists_eq_left', List.mem_singleton, forall_eq] at hstate
    rw [← Bool.not_eq_true, ← imp_iff_not_or, imp_not_comm, ← not_and] at hstate
    simp only [transitionStep, transitionBlockSuspBlock, transitionSuspReady, if_neg hstate] at hst
    exact (Option.some.inj hst).symm
  | unlock p =>
    obtain ⟨hne, hne'⟩ : ¬ (s.pcbs p).state = .block ∧ ¬ (s.pcbs p).state = .suspBlock := by
      simpa [StateTransition.answer, StateTransition.subject, StateTransition.edges] using hstate
    simp only [transitionStep, transitionUnlock, if_neg hne, if_neg hne'] at hst
    exact (Option.some.inj hst).symm

/-- `transition_to_ready` returns for a process with a level. -/
lemma isSome_transitionToReady {t : Queues} (h : Consistent s) (hlive : (s.pcbs p).state.Live)
    (hpcbs : t.pcbs = (s.setState p .ready).pcbs) (hready : t.ready = s.ready) :
    (t.transitionToReady p).isSome = true := by
  obtain ⟨ready, hadd⟩ := (h.level p hlive).exists_add p
  have hprio : (t.pcbs p).priority = (s.pcbs p).priority := by
    rw [hpcbs]
    exact (moved_setState p .ready s).priority p
  rw [transitionToReady, hready, hprio, hadd]
  rfl

/-- Only the creation of a process can fail to return. -/
lemma isSome_transitionStep {transition : StateTransition} (h : Consistent s)
    (hnew : ∀ priority accepted, transition ≠ .newReady priority accepted) :
    (transitionStep s transition).isSome = true := by
  cases transition with
  | newReady priority accepted => exact absurd rfl (hnew priority accepted)
  | dispatch =>
    rw [transitionStep]
    split <;> rfl
  | execReady p =>
    rw [transitionStep, transitionExecReady]
    split
    · rename_i hstate
      obtain ⟨exec, -, htake⟩ := transitionTakeExec_list p (s.setState p .ready)
      rw [htake]
      refine isSome_transitionToReady h ?_ rfl rfl
      rw [hstate]
      exact ⟨by decide, by decide⟩
    · rfl
  | blockReady p =>
    rw [transitionStep, transitionBlockReady]
    split
    · rename_i hstate
      refine isSome_transitionToReady h ?_ rfl rfl
      rw [hstate]
      exact ⟨by decide, by decide⟩
    · rfl
  | suspReady p resumed =>
    rw [transitionStep, transitionSuspReady]
    split
    · rename_i hcond
      refine isSome_transitionToReady h ?_ rfl rfl
      rw [hcond.1]
      exact ⟨by decide, by decide⟩
    · rfl
  | unlock p =>
    rw [transitionStep, transitionUnlock]
    split
    · rename_i hstate
      refine isSome_transitionToReady h ?_ rfl rfl
      rw [hstate]
      exact ⟨by decide, by decide⟩
    · split <;> rfl
  | execBlock p | execExit p | blockSuspBlock p suspended | suspBlock p | suspBlockSuspReady p
  | anyExit place => rfl

end Transitions

/-! ## Runs -/

/-- They are so at the start. -/
lemma consistent_init (multilevel : Bool) (algorithms : List SchedulingAlgorithm)
    (preemption : Bool) : Consistent (initQueues multilevel algorithms preemption) := by
  refine ⟨Placed.of_forall_none (fun place => ?_) fun _ => rfl, fun _ _ => rfl,
    fun _ hlive => absurd rfl hlive.1⟩
  cases place with
  | ready =>
    simp [placeList, ReadyQueue.listed, initQueues, ReadyQueue.init, List.flatMap_eq_nil_iff]
  | exec | block | suspBlock | suspReady => rfl

/-- The seven-state machine is sound in a state: its state fields and its lists agree, a refused
transition changes nothing, what changes anything goes along an edge of the model, every transition
that is not refused and finds a process goes along one, and all of them return but the creation of a
process with a priority that has no level. -/
structure SevenStates (s : Queues) : Prop where
  agrees : Agrees s
  refused : ∀ transition s', transitionStep s transition = some s' → transition.Refused s → s' = s
  edges : ∀ transition s', transitionStep s transition = some s' →
    s' = s ∨ ∃ p, ∃ e ∈ transition.edges, Goes p e.1 e.2 s s'
  goes : ∀ transition s', transitionStep s transition = some s' → ¬ transition.Refused s →
    ¬ transition.FindsNone s → ∃ p, ∃ e ∈ transition.edges, Goes p e.1 e.2 s s'
  returns : ∀ transition, (∀ priority accepted, transition ≠ .newReady priority accepted) →
    (transitionStep s transition).isSome = true

/-- **State fields and lists agree in the seven-state machine**, whatever order the transitions are
taken in.

**Proof sketch.** A transition that changes something takes the process from the list of its state
and puts it into that of the new state, so the agreement is kept step by step. -/
theorem sevenStates_of_run {multilevel : Bool} {algorithms : List SchedulingAlgorithm}
    {preemption : Bool} {s : Queues}
    (h : Reachable transitionStep (initQueues multilevel algorithms preemption) s) :
    SevenStates s := by
  have hconsistent : Consistent s := by
    apply h.invariant (consistent_init multilevel algorithms preemption)
    intro t transition t' ht _ hst
    rcases transitionStep_cases ht hst with ⟨rfl, -⟩ | ⟨p, e, -, htransits⟩
    · exact ht
    · exact ht.transits htransits
  refine ⟨hconsistent.agrees, fun transition s' hst hrefused => ?_, fun transition s' hst => ?_,
    fun transition s' hst hrefused hfinds => ?_,
    fun transition hnew => isSome_transitionStep hconsistent hnew⟩
  · exact transitionStep_of_refused hrefused hst
  · refine (transitionStep_cases hconsistent hst).imp And.left ?_
    rintro ⟨p, e, he, htransits⟩
    exact ⟨p, e, he, htransits.toGoes⟩
  · rcases transitionStep_cases hconsistent hst with ⟨-, hidle⟩ | ⟨p, e, he, htransits⟩
    · exact absurd hidle (not_or.2 ⟨hrefused, hfinds⟩)
    · exact ⟨p, e, he, htransits.toGoes⟩

/-- Two processes: one is suspended and resumed, the other one ends. -/
def twoProcesses : List StateTransition :=
  [.newReady 1 true, .newReady 0 true, .dispatch, .execBlock 1, .blockSuspBlock 1 false,
    .blockSuspBlock 1 true, .dispatch, .execExit 0, .suspReady 1 true, .unlock 1, .suspReady 1 true]

/-- A run through all the lists. -/
theorem sevenStates_of_run_twoProcesses :
    ∃ s, execute transitionStep (initQueues true [.fifo, .rr] true) twoProcesses = some s ∧
      SevenStates s := by
  have hsome : (execute transitionStep (initQueues true [.fifo, .rr] true)
      twoProcesses).isSome = true := by decide
  obtain ⟨s, hs⟩ := Option.isSome_iff_exists.1 hsome
  exact ⟨s, hs, sevenStates_of_run (Run.of_execute hs)⟩

end OsSimulator.Scheduler
