import OsSimulator.Scheduler.ArrivalOrder
import OsSimulator.Scheduler.ReadyInvariant

set_option relaxedAutoImplicit false
set_option autoImplicit false

/-!
# What an operation does to READY

The lists of the subqueues change in four ways: a process is appended to one of them, the first one
leaves for EXEC, both at once, or a process that inherits a priority is put behind a list again.
This file says which operation does what.

## Main definitions

* `AppendedAt`, `TakenFirst`, `Requeued` — the changes of the lists.
* `dispatched` — who goes from READY to EXEC.
* `ReadyEffect` — the change of an operation that is no `mutex_lock`.

## Main results

* `ready_step` — every such operation has one of these effects.
* `readyList_mutexLock` — a `mutex_lock` puts the READY process that it raises behind a list.
-/

namespace OsSimulator.Scheduler

open Queues ReadyQueue

/-! ## Lists by level -/

section Lists

variable {p q i : ℕ} {f g : ℕ → List ℕ}

/-- A process is appended to the list of a level. -/
structure AppendedAt (p i : ℕ) (f g : ℕ → List ℕ) : Prop where
  self : g i = f i ++ [p]
  other : ∀ j, j ≠ i → g j = f j

/-- The first process of the first level that has one leaves it. -/
structure TakenFirst (p i : ℕ) (f g : ℕ → List ℕ) : Prop where
  before : ∀ j < i, f j = []
  self : f i = p :: g i
  other : ∀ j, j ≠ i → g j = f j

/-- A process leaves the list of a level, if it is there, and is appended to it. -/
structure Requeued (p i : ℕ) (f g : ℕ → List ℕ) : Prop where
  self : g i = (f i).erase p ++ [p]
  other : ∀ j, j ≠ i → g j = f j

/-- A property of pairs that concerns the process alone when it is the second one. -/
lemma AppendedAt.pairwise_iff (h : AppendedAt p i f g) (R : ℕ → ℕ → Prop) :
    (∀ j, (g j).Pairwise R) ↔ (∀ j, (f j).Pairwise R) ∧ ∀ a ∈ f i, R a p := by
  constructor
  · intro hg
    have hi := hg i
    rw [h.self, List.pairwise_append] at hi
    refine ⟨fun j => ?_, fun a ha => hi.2.2 a ha p (List.mem_singleton_self p)⟩
    by_cases hj : j = i
    · exact hj ▸ hi.1
    · exact h.other j hj ▸ hg j
  · rintro ⟨hf, hp⟩ j
    by_cases hj : j = i
    · rw [hj, h.self, List.pairwise_append]
      refine ⟨hf i, List.pairwise_singleton _ _, fun a ha b hb => ?_⟩
      rw [List.mem_singleton.1 hb]
      exact hp a ha
    · exact (h.other j hj).symm ▸ hf j

/-- Those that stay are in the same order. -/
lemma TakenFirst.pairwise (h : TakenFirst p i f g) {R : ℕ → ℕ → Prop}
    (hf : ∀ j, (f j).Pairwise R) (j : ℕ) : (g j).Pairwise R := by
  by_cases hj : j = i
  · have hi := hf i
    rw [h.self, List.pairwise_cons] at hi
    exact hj ▸ hi.2
  · exact (h.other j hj).symm ▸ hf j

/-- A requeued process is the last one; the others are in the same order. -/
lemma Requeued.pairwise_iff (h : Requeued p i f g) (R : ℕ → ℕ → Prop)
    (hf : ∀ j, (f j).Pairwise R) :
    (∀ j, (g j).Pairwise R) ↔ ∀ a ∈ (f i).erase p, R a p := by
  constructor
  · intro hg a ha
    have hi := hg i
    rw [h.self, List.pairwise_append] at hi
    exact hi.2.2 a ha p (List.mem_singleton_self p)
  · intro hp j
    by_cases hj : j = i
    · rw [hj, h.self, List.pairwise_append]
      refine ⟨(hf i).sublist List.erase_sublist, List.pairwise_singleton _ _, fun a ha b hb => ?_⟩
      rw [List.mem_singleton.1 hb]
      exact hp a ha
    · exact (h.other j hj).symm ▸ hf j

end Lists

namespace ReadyQueue

variable {ready ready' ready'' : ReadyQueue} {p : ℕ} {priority : ℤ}

/-- An addition appends to the level of the priority. -/
lemma appendedAt_add (h : ready.add p priority = some ready') :
    AppendedAt p (ready.level priority).toNat (levelList ready.queues)
      (levelList ready'.queues) := by
  obtain ⟨queues, hqueues, rfl⟩ := Option.map_eq_some_iff.1 h
  obtain ⟨-, hself, hother, -⟩ := levelList_modifyAt hqueues
  exact ⟨hself, hother⟩

/-- Who is taken and added again is at the end of its level. -/
lemma requeued_take_add (htake : ready.take p priority = some ready')
    (hadd : ready'.add p priority = some ready'') :
    Requeued p (ready.level priority).toNat (levelList ready.queues)
      (levelList ready''.queues) := by
  have hlevels := levels_take htake
  have happended := appendedAt_add hadd
  obtain ⟨queues, hqueues, rfl⟩ := Option.map_eq_some_iff.1 htake
  obtain ⟨-, hself, hother, -⟩ := levelList_modifyAt hqueues
  obtain ⟨hmultilevel, -⟩ := Prod.mk.inj hlevels
  rw [level, hmultilevel, ← level] at happended
  have hlists : ∀ j, levelList ({ ({ ready with queues := queues } : ReadyQueue
      ).updateHighestPriority with
        readyProcessCount := ({ ready with queues := queues } : ReadyQueue
          ).updateHighestPriority.readyProcessCount - 1 } : ReadyQueue).queues j =
      levelList queues j := by
    intro j
    simp
  refine ⟨?_, fun j hj => ?_⟩
  · rw [happended.self, hlists, hself]
  · rw [happended.other j hj, hlists, hother j hj]

/-- The next one is the first of the first level that has any. -/
lemma takenFirst_takeNext (h : ready.takeNext = some (p, ready')) :
    ∃ i, firstNonEmpty ready.queues = some i ∧
      TakenFirst p i (levelList ready.queues) (levelList ready'.queues) := by
  obtain ⟨i, rest, hfirst, hlevel, hself, hother, -⟩ := takeNext_spec h
  obtain ⟨-, hbefore⟩ := firstNonEmpty_eq_some.1 hfirst
  exact ⟨i, hfirst, hbefore, by rw [hlevel, hself], hother⟩

end ReadyQueue

/-! ## The operations -/

/-- The list of a level. -/
def Queues.readyList (s : Queues) (i : ℕ) : List ℕ := levelList s.ready.queues i

/-- The process that an operation takes from READY to EXEC. -/
def dispatched (s : Queues) : Action → Option ℕ
  | .dispatch => s.ready.takeNext.map Prod.fst
  | .preemptionPriority p => if s.preemptionDue p then s.ready.takeNext.map Prod.fst else none
  | _ => none

/-- **The effect on READY of an operation that is no `mutex_lock`**, with the process it takes to
EXEC. Whoever else is in READY stays there. -/
inductive ReadyEffect (s s' : Queues) : Option ℕ → Prop
  | kept (lists : s'.readyList = s.readyList)
      (state : ∀ q, (s.pcbs q).state = .ready → (s'.pcbs q).state = .ready) : ReadyEffect s s' none
  | entered (p i : ℕ) (outside : (s.pcbs p).state ≠ .ready)
      (lists : AppendedAt p i s.readyList s'.readyList)
      (state : ∀ q, (s.pcbs q).state = .ready → (s'.pcbs q).state = .ready) : ReadyEffect s s' none
  | left (p i : ℕ) (first : firstNonEmpty s.ready.queues = some i)
      (lists : TakenFirst p i s.readyList s'.readyList)
      (state : ∀ q, q ≠ p → (s.pcbs q).state = .ready → (s'.pcbs q).state = .ready) :
      ReadyEffect s s' (some p)
  | replaced (p new i j : ℕ) (between : ℕ → List ℕ) (outside : (s.pcbs p).state ≠ .ready)
      (first : firstNonEmpty s.ready.queues = some i)
      (taken : TakenFirst new i s.readyList between)
      (appended : AppendedAt p j between s'.readyList)
      (state : ∀ q, q ≠ new → (s.pcbs q).state = .ready → (s'.pcbs q).state = .ready) :
      ReadyEffect s s' (some new)

section Steps

variable {p : ℕ} {id : String} {s s' t : Queues} {m : Mutex}

/-- Whoever is not dispatched stays in READY. -/
lemma ReadyEffect.ready {d : Option ℕ} (h : ReadyEffect s s' d) {q : ℕ} (hd : d ≠ some q)
    (hq : (s.pcbs q).state = .ready) : (s'.pcbs q).state = .ready := by
  cases h with
  | kept _ state => exact state q hq
  | entered _ _ _ _ state => exact state q hq
  | left p _ _ _ state => exact state q (fun heq => hd (congrArg some heq.symm)) hq
  | replaced _ new _ _ _ _ _ _ _ state => exact state q (fun heq => hd (congrArg some heq.symm)) hq

/-- Whoever does not move stays in READY. -/
lemma Moved.ready {state : ProcessState} (hm : Moved p state s s') {q : ℕ}
    (hp : (s.pcbs p).state ≠ .ready) (hq : (s.pcbs q).state = .ready) :
    (s'.pcbs q).state = .ready := by
  rw [hm.other q ?_]
  · exact hq
  · rintro rfl
    exact hp hq

/-- An operation that moves a process to READY. -/
lemma ReadyEffect.of_add {state : ProcessState} {priority : ℤ} (hm : Moved p state s s')
    (hp : (s.pcbs p).state ≠ .ready) (hadd : s.ready.add p priority = some s'.ready) :
    ReadyEffect s s' none :=
  .entered p _ hp (appendedAt_add hadd) fun _ => hm.ready hp

/-- An operation that moves a process elsewhere. -/
lemma ReadyEffect.of_moved {state : ProcessState} (hm : Moved p state s s')
    (hp : (s.pcbs p).state ≠ .ready) (hready : s'.ready = s.ready) : ReadyEffect s s' none :=
  .kept (by unfold readyList; rw [hready]) fun _ => hm.ready hp

/-- The READY to EXEC step leaves the others in READY. -/
lemma ready_readyExec {q : ℕ} (hne : q ≠ p) (hq : (s.pcbs q).state = .ready) :
    (((s.transitionReadyExec p).transitionToExec p).pcbs q).state = .ready := by
  obtain ⟨-, ⟨-, hmoved⟩ | ⟨-, hpcbs, -⟩⟩ := readyExec_spec p s
  · rw [hmoved.other q hne]
    exact hq
  · rw [hpcbs]
    exact hq

/-- **Every operation but a `mutex_lock` has one of the effects.** -/
lemma ready_step {a : Action} (hi : Inheriting s) (hstep : step s a = some s')
    (hlock : ∀ id p, a ≠ .mutexLock id p) : ReadyEffect s s' (dispatched s a) := by
  have hrefl : ∀ t : Queues, ReadyEffect t t none := fun t => .kept rfl fun _ => id
  have hnot : ∀ {t : Queues} {q : ℕ} {state : ProcessState}, (t.pcbs q).state = state →
      state ≠ .ready → (t.pcbs q).state ≠ .ready := fun heq hne h => hne (heq.symm.trans h)
  cases a with
  | newReady priority accepted =>
    have hnew : (s.pcbs s.nextPid).state = .new := hi.sound.state_of_ge le_rfl
    have hstate : ∀ {state : ProcessState}, Created priority state s s' →
        ∀ q, (s.pcbs q).state = .ready → (s'.pcbs q).state = .ready := by
      intro state hcreated q hq
      rw [hcreated.other q ?_]
      · exact hq
      · rintro rfl
        exact hnot hnew (by decide) hq
    rcases transitionNewReady_spec hstep with ⟨hcreated, hadd⟩ | ⟨hcreated, hready⟩
    · exact .entered _ _ (hnot hnew (by decide)) (appendedAt_add hadd) (hstate hcreated)
    · exact .kept (by unfold readyList; rw [hready]) (hstate hcreated)
  | dispatch =>
    obtain ⟨⟨q, t⟩, hdispatch, rfl⟩ := Option.map_eq_some_iff.1 hstep
    obtain ⟨⟨q', ready⟩, htake, heq⟩ := Option.map_eq_some_iff.1 hdispatch
    obtain ⟨rfl, rfl⟩ := Prod.mk.inj heq
    obtain ⟨i, hfirst, hlists⟩ := takenFirst_takeNext htake
    rw [dispatched, htake, Option.map_some]
    refine .left q' i hfirst ?_ fun r hne hr => ready_readyExec (s := { s with ready := ready }) hne hr
    unfold readyList
    rw [(readyExec_spec q' _).1]
    exact hlists
  | execReady p =>
    rcases transitionExecReady_spec hstep with rfl | ⟨hstate, hmoved, hadd⟩
    · exact hrefl s'
    · exact .of_add hmoved (hnot hstate (by decide)) hadd
  | preemptionPriority p =>
    have hrun : s.managePreemptionPriority p = some s' := hstep
    unfold managePreemptionPriority at hrun
    split at hrun
    · rename_i hdue
      rw [dispatched, if_pos hdue]
      split at hrun
      · rename_i hnone
        obtain rfl := Option.some.inj hrun
        rw [hnone]
        exact hrefl s
      · rename_i newPcb ready htake
        obtain ⟨t, ht, rfl⟩ := Option.map_eq_some_iff.1 hrun
        obtain ⟨i, hfirst, hlists⟩ := takenFirst_takeNext htake
        rw [htake, Option.map_some]
        have hafter : ((t.transitionReadyExec newPcb).transitionToExec newPcb).readyList =
            t.readyList := by
          unfold readyList
          rw [(readyExec_spec newPcb t).1]
        rcases transitionExecReady_spec ht with rfl | ⟨hstate, hmoved, hadd⟩
        · refine .left newPcb i hfirst ?_ fun r hne hr =>
            ready_readyExec (s := { s with ready := ready }) hne hr
          rw [hafter]
          exact hlists
        · have hexec : (s.pcbs p).state ≠ .ready := hnot hstate (by decide)
          refine .replaced p newPcb i (ready.level (s.pcbs p).priority).toNat
            (levelList ready.queues) hexec hfirst hlists ?_ ?_
          · rw [hafter]
            exact appendedAt_add hadd
          · intro r hne hr
            exact ready_readyExec hne (hmoved.ready hexec hr)
    · rename_i hdue
      obtain rfl := Option.some.inj hrun
      rw [dispatched, if_neg hdue]
      exact hrefl s
  | execBlock p =>
    obtain rfl := Option.some.inj hstep
    by_cases hexec : (s.pcbs p).state = .exec
    · obtain ⟨hmoved, hready⟩ := transitionExecBlock_spec hexec
      exact .of_moved hmoved (hnot hexec (by decide)) hready
    · rw [transitionExecBlock, if_neg hexec]
      exact hrefl s
  | unlock p =>
    simp only [step] at hstep
    split at hstep
    · rcases transitionUnlock_spec hstep with rfl | ⟨hstate, hmoved, hadd⟩ | ⟨hstate, hmoved, hr⟩
      · exact hrefl s'
      · exact .of_add hmoved (hnot hstate (by decide)) hadd
      · exact .of_moved hmoved (hnot hstate (by decide)) hr
    · exact absurd hstep (by simp)
  | blockSuspBlock p suspended =>
    obtain rfl := Option.some.inj hstep
    rcases transitionBlockSuspBlock_spec p suspended s with hsame | ⟨hstate, hmoved, hready⟩
    · rw [hsame]
      exact hrefl s
    · exact .of_moved hmoved (hnot hstate (by decide)) hready
  | suspReady p resumed =>
    rcases transitionSuspReady_spec hstep with rfl | ⟨hstate, hmoved, hadd⟩
    · exact hrefl s'
    · exact .of_add hmoved (hnot hstate (by decide)) hadd
  | execExit p =>
    obtain rfl := Option.some.inj hstep
    rcases transitionExecExit_spec p s with hsame | ⟨hstate, hended⟩
    · rw [hsame]
      exact hrefl s
    · refine .kept (by unfold readyList; rw [hended.ready]) fun q hq => ?_
      rw [hended.other q ?_]
      · exact hq
      · rintro rfl
        exact hnot hstate (by decide) hq
  | mutexCreate id p =>
    obtain rfl := step_mutexCreate hstep
    obtain ⟨-, -, hpcbs, hready, -⟩ := createAndAddMutex_spec hi.sound hi.balanced id
    exact .kept (by unfold readyList; rw [hready]) fun q hq => by rw [hpcbs]; exact hq
  | mutexLock id p => exact absurd rfl (hlock id p)
  | mutexUnlock id p =>
    obtain ⟨hexec, rfl | ⟨m, hm, -, r, hrun⟩⟩ := step_mutexUnlock hstep
    · exact hrefl s'
    obtain ⟨-, -, heffect⟩ := mutexUnlock_spec hi.sound hi.balanced hm hexec hrun
    rcases heffect.handed with ⟨hready, hstate⟩ | ⟨next, hblock, -, hadd, hother⟩
    · exact .kept (by unfold readyList; rw [hready]) fun q => (hstate q).2
    · refine .entered next _ (hnot hblock (by decide)) (appendedAt_add hadd) fun q hq => ?_
      rw [hother q ?_]
      · exact hq
      · rintro rfl
        exact hnot hblock (by decide) hq

end Steps

/-! ## A process that inherits a priority in READY -/

section Inheritance

variable {p : ℕ} {id : String} {s s' t : Queues} {m : Mutex}

/-- What the propagation of a priority does to READY: nothing, if no READY process gets a new
priority, or else the one that does is queued again, at its new level. -/
inductive ReadyRaise (s s' : Queues) : Prop
  | kept (ready : s'.ready = s.ready)
      (priority : s.ready.multilevelQueue = true → ∀ q, (s.pcbs q).state = .ready →
        (s'.pcbs q).priority = (s.pcbs q).priority) : ReadyRaise s s'
  | requeued (q : ℕ) (multilevel : s.ready.multilevelQueue = true)
      (isReady : (s.pcbs q).state = .ready)
      (raised : (s'.pcbs q).priority ≠ (s.pcbs q).priority)
      (other : ∀ r, r ≠ q → (s.pcbs r).state = .ready →
        (s'.pcbs r).priority = (s.pcbs r).priority)
      (lists : Requeued q (s.ready.level (s'.pcbs q).priority).toNat s.readyList s'.readyList) :
      ReadyRaise s s'

/-- The effect only depends on the PCBs and on READY. -/
lemma ReadyRaise.congr {u u' : Queues} (h : ReadyRaise s s') (hpcbs : u.pcbs = s.pcbs)
    (hready : u.ready = s.ready) (hpcbs' : u'.pcbs = s'.pcbs) (hready' : u'.ready = s'.ready) :
    ReadyRaise u u' := by
  cases h with
  | kept ready priority =>
    refine .kept (by rw [hready', hready, ready]) ?_
    rw [hready, hpcbs, hpcbs']
    exact priority
  | requeued q multilevel isReady raised other lists =>
    refine .requeued q (by rwa [hready]) (by rwa [hpcbs]) (by rwa [hpcbs, hpcbs']) ?_ ?_
    · rw [hpcbs, hpcbs']
      exact other
    · unfold readyList
      rw [hready, hready', hpcbs']
      exact lists

/-- The part of the state that the propagation leaves, and its effect on READY. -/
structure RaiseChain (s s' : Queues) : Prop where
  blocking : ∀ q, (s'.pcbs q).blockingMutex = (s.pcbs q).blockingMutex
  state : ∀ q, (s'.pcbs q).state = (s.pcbs q).state
  effect : ReadyRaise s s'

namespace RaiseChain

/-- Nobody has been raised yet. -/
lemma refl (s : Queues) : RaiseChain s s := ⟨fun _ => rfl, fun _ => rfl, .kept rfl fun _ _ _ => rfl⟩

/-- A first part that leaves READY, and the priorities there. -/
lemma trans (hpcbs : ∀ q, (t.pcbs q).blockingMutex = (s.pcbs q).blockingMutex ∧
    (t.pcbs q).state = (s.pcbs q).state) (hready : t.ready = s.ready)
    (hprio : s.ready.multilevelQueue = true → ∀ q, (s.pcbs q).state = .ready →
      (t.pcbs q).priority = (s.pcbs q).priority) (h : RaiseChain t s') : RaiseChain s s' where
  blocking q := (h.blocking q).trans (hpcbs q).1
  state q := (h.state q).trans (hpcbs q).2
  effect := by
    have hlists : t.readyList = s.readyList := by unfold readyList; rw [hready]
    have hstate : ∀ q, (s.pcbs q).state = .ready → (t.pcbs q).state = .ready :=
      fun q hq => (hpcbs q).2.trans hq
    cases h.effect with
    | kept ready priority =>
      refine .kept (ready.trans hready) fun hm q hq => ?_
      rw [priority (hready ▸ hm) q (hstate q hq), hprio hm q hq]
    | requeued q multilevel isReady raised other lists =>
      have hm : s.ready.multilevelQueue = true := hready ▸ multilevel
      have hq : (s.pcbs q).state = .ready := (hpcbs q).2.symm.trans isReady
      refine .requeued q hm hq ?_ (fun r hne hr => ?_) ?_
      · rwa [← hprio hm q hq]
      · rw [other r hne (hstate r hr), hprio hm r hr]
      · rwa [← hlists, ← hready]

/-- One link of the propagation. A READY process waits for nothing, so that it is the last one. -/
lemma replacePriorityWith {propagate : ℕ → ℤ → Queues → Option Queues}
    (hfree : ∀ q, (s.pcbs q).state = .ready → (s.pcbs q).blockingMutex = none)
    (hprop : ∀ q v t t', (∀ r, (t.pcbs r).state = .ready → (t.pcbs r).blockingMutex = none) →
      propagate q v t = some t' →
        RaiseChain t t' ∧ ((t.pcbs q).blockingMutex = none → t' = t)) {h : ℕ} {old new : ℤ}
    (hrun : replacePriorityWith propagate h old new s = some s') : RaiseChain s s' := by
  set u := s.replaceEntry h old new with hu
  have hpcbs : ∀ q, (u.pcbs q).blockingMutex = (s.pcbs q).blockingMutex ∧
      (u.pcbs q).state = (s.pcbs q).state := by
    intro q
    by_cases hq : q = h
    · rw [hq, hu, replaceEntry, modifyPcb_pcbs_self]
      exact ⟨rfl, rfl⟩
    · rw [hu, replaceEntry, modifyPcb_pcbs_of_ne hq]
      exact ⟨rfl, rfl⟩
  have hother : ∀ q, q ≠ h → (u.pcbs q).priority = (s.pcbs q).priority := by
    intro q hq
    rw [hu, replaceEntry, modifyPcb_pcbs_of_ne hq]
  unfold Queues.replacePriorityWith at hrun
  split at hrun
  · exact absurd hrun (by simp)
  simp only at hrun
  rw [← hu] at hrun
  split at hrun
  · rename_i hchanged
    obtain ⟨w, hw, hpropagated⟩ := Option.bind_eq_some_iff.1 hrun
    unfold updatePriority at hw
    split at hw
    · -- a READY process is queued again, and the propagation ends
      rename_i hcond
      have hisReady : (s.pcbs h).state = .ready := (hpcbs h).2.symm.trans hcond.2
      obtain ⟨x, hx, hadded⟩ := Option.bind_eq_some_iff.1 hw
      obtain ⟨ready, htake, rfl⟩ := Option.map_eq_some_iff.1 hx
      obtain ⟨ready', hadd, rfl⟩ := Option.map_eq_some_iff.1 hadded
      obtain ⟨-, hlast⟩ := hprop h _ _ s' (fun r hr => by
        rw [(hpcbs r).1]
        exact hfree r ((hpcbs r).2.symm.trans hr)) hpropagated
      obtain rfl := hlast ((hpcbs h).1.trans (hfree h hisReady))
      refine ⟨fun q => (hpcbs q).1, fun q => (hpcbs q).2,
        .requeued h hcond.1 hisReady hchanged (fun r hne _ => hother r hne) ?_⟩
      exact requeued_take_add htake hadd
    · rename_i hcond
      obtain rfl := Option.some.inj hw
      obtain ⟨hchain, -⟩ := hprop h _ u s' (fun r hr => by
        rw [(hpcbs r).1]
        exact hfree r ((hpcbs r).2.symm.trans hr)) hpropagated
      refine hchain.trans hpcbs rfl fun hm q hq => hother q ?_
      rintro rfl
      exact hcond ⟨hm, (hpcbs q).2.trans hq⟩
  · rename_i hsame
    obtain rfl := Option.some.inj hrun
    refine (refl u).trans hpcbs rfl fun _ q _ => ?_
    by_cases hq : q = h
    · rw [hq]
      exact not_not.1 hsame
    · exact hother q hq

/-- The whole propagation, by induction on its rounds. -/
lemma propagatePriorityTransitive {rounds : ℕ} {locked : List String} {h : ℕ} {v : ℤ}
    (hfree : ∀ q, (s.pcbs q).state = .ready → (s.pcbs q).blockingMutex = none)
    (hrun : propagatePriorityTransitive rounds locked h v s = some s') :
    RaiseChain s s' ∧ ((s.pcbs h).blockingMutex = none → s' = s) := by
  induction rounds generalizing locked h v s s' with
  | zero => exact absurd hrun (by simp [Queues.propagatePriorityTransitive])
  | succ rounds ih =>
    rw [Queues.propagatePriorityTransitive] at hrun
    split at hrun
    · obtain rfl := Option.some.inj hrun
      exact ⟨.refl s, fun _ => rfl⟩
    rename_i id hwaits
    refine ⟨?_, fun hnone => absurd (hwaits.symm.trans hnone) (by simp)⟩
    split at hrun
    · exact absurd hrun (by simp)
    split at hrun
    · exact absurd hrun (by simp)
    rename_i expectedMutex _
    split at hrun
    · obtain rfl := Option.some.inj hrun
      exact .refl s
    simp only at hrun
    have hsame : ∀ (id : String) (f : Mutex → Mutex) (x : Queues),
        RaiseChain (x.modifyMutex id f) s' → RaiseChain x s' :=
      fun _ _ _ => trans (fun _ => ⟨rfl, rfl⟩) rfl fun _ _ _ => rfl
    split at hrun
    · split at hrun
      · exact absurd hrun (by simp)
      · apply hsame id _ s
        apply hsame id _ _
        exact replacePriorityWith hfree (fun _ _ _ _ hfree' => ih hfree') hrun
    · obtain rfl := Option.some.inj hrun
      exact hsame id _ s (.refl _)

end RaiseChain

/-- The end of a waiting call leaves READY and the priorities. -/
lemma waitForMutex_ready (id : String) (p : ℕ) (s : Queues) :
    (s.waitForMutex id p).ready = s.ready ∧
      ∀ q, ((s.waitForMutex id p).pcbs q).priority = (s.pcbs q).priority := by
  set t := s.setMutexBlocking p (some id) with ht
  have hprio : ∀ q, (t.pcbs q).priority = (s.pcbs q).priority := by
    intro q
    by_cases hq : q = p
    · simp [ht, setMutexBlocking, hq]
    · simp [ht, setMutexBlocking, hq]
  have hblock : (t.transitionExecBlock p).ready = t.ready ∧
      ∀ q, ((t.transitionExecBlock p).pcbs q).priority = (t.pcbs q).priority := by
    by_cases hexec : (t.pcbs p).state = .exec
    · obtain ⟨hmoved, hready⟩ := transitionExecBlock_spec hexec
      exact ⟨hready, hmoved.priority⟩
    · rw [transitionExecBlock, if_neg hexec]
      exact ⟨rfl, fun _ => rfl⟩
  exact ⟨hblock.1, fun q => (hblock.2 q).trans (hprio q)⟩

/-- **The effect of a `mutex_lock` on READY.** -/
lemma readyRaise_mutexLock {r : MutexResult} (hi : Inheriting s)
    (hrun : s.mutexLock m p = some (r, s')) : ReadyRaise s s' := by
  have hfree : ∀ q, (s.pcbs q).state = .ready → (s.pcbs q).blockingMutex = none :=
    fun q hq => hi.unblocked hq ⟨by decide, by decide⟩
  have hwaits : ∀ u : Queues, RaiseChain s u → ReadyRaise s (u.waitForMutex m.id p) := by
    intro u hu
    obtain ⟨hready, hprio⟩ := waitForMutex_ready m.id p u
    have hlists : (u.waitForMutex m.id p).readyList = u.readyList := by unfold readyList; rw [hready]
    cases hu.effect with
    | kept ready priority =>
      exact .kept (hready.trans ready) fun hm q hq => (hprio q).trans (priority hm q hq)
    | requeued q multilevel isReady raised other lists =>
      refine .requeued q multilevel isReady ?_ (fun r hne hr => ?_) ?_
      · rwa [hprio]
      · rw [hprio]
        exact other r hne hr
      · rwa [hlists, hprio]
  have hlist : ∀ f : Mutex → Mutex, RaiseChain s (s.modifyMutex m.id f) := fun _ =>
    ⟨fun _ => rfl, fun _ => rfl, .kept rfl fun _ _ _ => rfl⟩
  unfold mutexLock at hrun
  simp only at hrun
  split at hrun
  · obtain ⟨-, rfl⟩ := Prod.mk.inj (Option.some.inj hrun)
    refine .kept rfl fun _ q _ => ?_
    by_cases hq : q = p
    · have hmax := priority_le_max hi.sound hi.balanced p
      rw [hq, insertPriority, modifyPcb_pcbs_self, modifyMutex_pcbs]
      exact if_neg (not_lt.2 hmax)
    · rw [insertPriority, modifyPcb_pcbs_of_ne hq, modifyMutex_pcbs]
  split at hrun
  · split at hrun
    · split at hrun
      · exact absurd hrun (by simp)
      · obtain ⟨u, hu, heq⟩ := Option.map_eq_some_iff.1 hrun
        obtain ⟨-, rfl⟩ := Prod.mk.inj heq
        have hchain := RaiseChain.replacePriorityWith (s := s.modifyMutex m.id _) hfree
          (fun _ _ _ _ hfree' => RaiseChain.propagatePriorityTransitive hfree') hu
        apply hwaits
        exact ⟨hchain.blocking, hchain.state, hchain.effect.congr rfl rfl rfl rfl⟩
    · obtain ⟨-, rfl⟩ := Prod.mk.inj (Option.some.inj hrun)
      exact hwaits _ (hlist _)
  · obtain ⟨-, rfl⟩ := Prod.mk.inj (Option.some.inj hrun)
    exact hwaits _ (hlist _)

end Inheritance

end OsSimulator.Scheduler
