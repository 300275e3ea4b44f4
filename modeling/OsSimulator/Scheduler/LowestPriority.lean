import OsSimulator.Library.CachedMaximum
import OsSimulator.Scheduler.ReadyEffect
import OsSimulator.Scheduler.SevenStates

set_option relaxedAutoImplicit false
set_option autoImplicit false

/-!
# The worst priority in EXEC

`lowest_priority` of `exec_list.c` is the largest priority of the processes in EXEC, from zero on.
It is raised when a process comes, and found again by `update_lowest_exec_priority` when one goes
and when `mutex.c` has changed priorities.

## Main definitions

* `isLowestPriorityInExec` — `is_lowest_priority_in_exec`.
* `LowestKnown` — what the field and its readers are to satisfy.
* `LowestExact` — what they do satisfy.
* `Tracked` — the invariant.

## Main results

* `lowestExact_of_reachable` — with preemption, in every reachable state they satisfy the second,
  and the first exactly when not every process in EXEC has a negative priority.
* `not_lowest_of_negative` — a negative priority is never the worst one.
-/

namespace OsSimulator.Scheduler

open Queues ReadyQueue

namespace Queues

/-- `is_lowest_priority_in_exec`. -/
def isLowestPriorityInExec (priority : ℤ) (s : Queues) : Bool :=
  decide (s.exec.lowestPriority ≤ priority)

/-- The priorities of the processes in EXEC. -/
def runningPriorities (s : Queues) : Set ℤ := {x | ∃ p ∈ s.exec.list, (s.pcbs p).priority = x}

end Queues

/-- **The worst priority is known**: it is the largest of zero and the priorities in EXEC, a process
in EXEC is told that its priority is the worst one exactly when it is, and none is preempted by a
better priority while there is a worse one in EXEC. -/
structure LowestKnown (s : Queues) : Prop where
  lowest : IsGreatest (insert 0 s.runningPriorities) s.exec.lowestPriority
  answer : ∀ p ∈ s.exec.list, s.isLowestPriorityInExec (s.pcbs p).priority = true ↔
    IsGreatest s.runningPriorities (s.pcbs p).priority
  preemption : ∀ p, ∀ q ∈ s.exec.list, (s.pcbs p).priority < (s.pcbs q).priority →
    s.managePreemptionPriority p = some s

/-- **What the worst priority tells**: as `LowestKnown`, but a process in EXEC is told that its
priority is the worst one exactly when it is and is not negative. -/
structure LowestExact (s : Queues) : Prop where
  lowest : IsGreatest (insert 0 s.runningPriorities) s.exec.lowestPriority
  answer : ∀ p ∈ s.exec.list, s.isLowestPriorityInExec (s.pcbs p).priority = true ↔
    IsGreatest s.runningPriorities (s.pcbs p).priority ∧ 0 ≤ (s.pcbs p).priority
  preemption : ∀ p, ∀ q ∈ s.exec.list, (s.pcbs p).priority < (s.pcbs q).priority →
    s.managePreemptionPriority p = some s

/-- What every operation keeps: the field is what a pass over the list would find, and the processes
in EXEC and READY have been created. -/
structure Tracked (s : Queues) : Prop where
  preemption : s.exec.preemption = true
  lowest : s.exec.lowestPriority = maxFrom 0 (fun p => (s.pcbs p).priority) s.exec.list
  created : ∀ p ∈ s.exec.list, p < s.nextPid
  ready : ∀ i, ∀ p ∈ s.readyList i, p < s.nextPid

/-! ## From the invariant to the property -/

variable {p : ℕ} {id : String} {s s' t : Queues}

/-- Some process in EXEC has the worst priority there. -/
lemma exists_isGreatest_runningPriorities (h : s.exec.list ≠ []) :
    ∃ p ∈ s.exec.list, IsGreatest s.runningPriorities (s.pcbs p).priority := by
  obtain ⟨p, rest, hlist⟩ := List.exists_cons_of_ne_nil h
  have hset : insert (s.pcbs p).priority {x | ∃ q ∈ rest, (s.pcbs q).priority = x} =
      s.runningPriorities := by
    ext x
    simp [runningPriorities, hlist, eq_comm]
  have hgreatest := isGreatest_maxFrom (s.pcbs p).priority (fun q => (s.pcbs q).priority) rest
  rw [hset] at hgreatest
  obtain ⟨q, hq, heq⟩ := hgreatest.1
  exact ⟨q, hq, heq ▸ hgreatest⟩

/-- **When the worst one is told**: the two differ where every process in EXEC has a negative
priority, for the worst of them is told that it is not. -/
lemma LowestExact.lowestKnown_iff (h : LowestExact s) :
    LowestKnown s ↔ s.exec.list = [] ∨ ∃ p ∈ s.exec.list, 0 ≤ (s.pcbs p).priority := by
  constructor
  · intro hknown
    refine or_iff_not_imp_left.2 fun hne => ?_
    obtain ⟨p, hp, hgreatest⟩ := exists_isGreatest_runningPriorities hne
    exact ⟨p, hp, ((h.answer p hp).1 ((hknown.answer p hp).2 hgreatest)).2⟩
  · intro hsome
    refine ⟨h.lowest, fun p hp => (h.answer p hp).trans ⟨And.left, fun hgreatest => ?_⟩,
      h.preemption⟩
    rcases hsome with hnone | ⟨q, hq, hnonneg⟩
    · rw [hnone] at hp
      exact absurd hp List.not_mem_nil
    · exact ⟨hgreatest, hnonneg.trans (hgreatest.2 ⟨q, hq, rfl⟩)⟩

/-- What is tracked gives the right answer. -/
lemma lowestExact_of_tracked (h : Tracked s) : LowestExact s := by
  have hlowest : IsGreatest (insert 0 s.runningPriorities) s.exec.lowestPriority := by
    rw [h.lowest]
    exact isGreatest_maxFrom _ _ _
  refine ⟨hlowest, fun p hp => ?_, fun p q hq hlt => ?_⟩
  · rw [isLowestPriorityInExec, decide_eq_true_iff]
    constructor
    · intro hle
      refine ⟨⟨⟨p, hp, rfl⟩, fun x hx => ?_⟩, ?_⟩
      · exact (hlowest.2 (Set.mem_insert_of_mem 0 hx)).trans hle
      · exact (hlowest.2 (Set.mem_insert 0 _)).trans hle
    · rintro ⟨hgreatest, hnonneg⟩
      rcases hlowest.1 with hzero | hrunning
      · rwa [hzero]
      · exact hgreatest.2 hrunning
  · have hle : (s.pcbs q).priority ≤ s.exec.lowestPriority := hlowest.2 (.inr ⟨q, hq, rfl⟩)
    have hnot : s.preemptionDue p = false := by
      have hlt' : ¬ s.exec.lowestPriority ≤ (s.pcbs p).priority := by omega
      simp [preemptionDue, hlt']
    rw [managePreemptionPriority, hnot]
    rfl

/-! ## EXEC -/

/-- EXEC without the process, and its worst priority anew. -/
lemma transitionTakeExec_exec (p : ℕ) (s : Queues) (h : s.exec.preemption = true) :
    (s.transitionTakeExec p).exec =
      { s.exec with
        list := s.exec.list.erase p
        lowestPriority := maxFrom 0 (fun p => (s.pcbs p).priority) (s.exec.list.erase p) } := by
  rw [transitionTakeExec, if_pos h]
  rfl

/-- What an operation does to EXEC: nothing, or a process goes, or one comes. -/
inductive ExecEffect (s s' : Queues) : Prop
  | kept (exec : s'.exec = s.exec) : ExecEffect s s'
  | left (p : ℕ) (exec : s'.exec = (s.transitionTakeExec p).exec) : ExecEffect s s'
  | entered (p : ℕ) (created : p < s.nextPid)
      (exec : s'.exec = (s.transitionToExec p).exec) : ExecEffect s s'

/-- READY has only processes that have been created. -/
def ReadyCreated (s s' : Queues) : Prop :=
  ∀ i, ∀ p ∈ s'.readyList i, p ∈ s.readyList i ∨ p < s'.nextPid

/-- **An operation that changes no priority of a created process.** -/
lemma Tracked.of_effect (h : Tracked s) (heffect : ExecEffect s s')
    (hprio : ∀ q < s.nextPid, (s'.pcbs q).priority = (s.pcbs q).priority)
    (hpid : s.nextPid ≤ s'.nextPid) (hready : ReadyCreated s s') : Tracked s' := by
  have hready' : ∀ i, ∀ p ∈ s'.readyList i, p < s'.nextPid := by
    intro i q hq
    rcases hready i q hq with hold | hlt
    · exact (h.ready i q hold).trans_le hpid
    · exact hlt
  have hsame : ∀ list : List ℕ, (∀ q ∈ list, q < s.nextPid) →
      maxFrom 0 (fun q => (s'.pcbs q).priority) list =
        maxFrom 0 (fun q => (s.pcbs q).priority) list :=
    fun list hlist => maxFrom_congr fun q hq => hprio q (hlist q hq)
  cases heffect with
  | kept exec =>
    refine ⟨?_, ?_, ?_, hready'⟩
    · rw [exec, h.preemption]
    · rw [exec, hsame _ h.created, h.lowest]
    · rw [exec]
      exact fun q hq => (h.created q hq).trans_le hpid
  | left p exec =>
    rw [transitionTakeExec_exec p s h.preemption] at exec
    have hlist : ∀ q ∈ s.exec.list.erase p, q < s.nextPid :=
      fun q hq => h.created q (List.mem_of_mem_erase hq)
    refine ⟨?_, ?_, ?_, hready'⟩
    · rw [exec, h.preemption]
    · rw [exec, hsame _ hlist]
    · rw [exec]
      exact fun q hq => (hlist q hq).trans_le hpid
  | entered p created exec =>
    have hlist : ∀ q ∈ s.exec.list ++ [p], q < s.nextPid := by
      intro q hq
      rcases List.mem_append.1 hq with hold | hnew
      · exact h.created q hold
      · rwa [List.mem_singleton.1 hnew]
    refine ⟨?_, ?_, ?_, hready'⟩
    · rw [exec, transitionToExec, h.preemption]
    · rw [exec, transitionToExec, hsame _ hlist, maxFrom_append_singleton, ← h.lowest]
      simp [h.preemption]
    · rw [exec]
      exact fun q hq => (hlist q hq).trans_le hpid

/-! ## The transitions -/

/-- What a transition that may take a process out of EXEC does to it. -/
lemma ExecEffect.of_or (h : s'.exec = s.exec ∨ s'.exec = (s.transitionTakeExec p).exec) :
    ExecEffect s s' := by
  rcases h with h | h
  · exact .kept h
  · exact .left p h

/-! ### READY -/

/-- READY has not changed. -/
lemma readyCreated_of_eq (h : s'.ready = s.ready) : ReadyCreated s s' := by
  intro i q hq
  rw [readyList, h] at hq
  exact .inl hq

/-- A process that exists was added. -/
lemma readyCreated_of_add {priority : ℤ} (h : s.ready.add p priority = some s'.ready)
    (hp : p < s'.nextPid) : ReadyCreated s s' := by
  intro i q hq
  have happended := appendedAt_add h
  by_cases hi : i = (s.ready.level priority).toNat
  · rw [hi, readyList, happended.self] at hq
    rcases List.mem_append.1 hq with hold | hnew
    · exact .inl (hi ▸ hold)
    · rw [List.mem_singleton.1 hnew]
      exact .inr hp
  · rw [readyList, happended.other i hi] at hq
    exact .inl hq

/-- The process that leaves READY was there. -/
lemma readyCreated_of_takeNext {ready : ReadyQueue} (h : s.ready.takeNext = some (p, ready)) :
    (∃ i, p ∈ s.readyList i) ∧ ReadyCreated s { s with ready := ready } := by
  obtain ⟨i, -, hfirst⟩ := takenFirst_takeNext h
  refine ⟨⟨i, ?_⟩, fun j q hq => .inl ?_⟩
  · rw [readyList, hfirst.self]
    exact List.mem_cons_self
  · by_cases hj : j = i
    · subst hj
      rw [readyList, hfirst.self]
      exact List.mem_cons_of_mem p hq
    · rw [readyList, ← hfirst.other j hj]
      exact hq

/-- A process in READY was raised. -/
lemma readyCreated_of_raise (hi : Inheriting s) (h : ReadyRaise s s')
    (hpid : s.nextPid ≤ s'.nextPid) : ReadyCreated s s' := by
  cases h with
  | kept ready priority => exact readyCreated_of_eq ready
  | requeued q multilevel isReady raised other lists =>
    have hq : q < s.nextPid := (hi.sound.pcb q).created (by rw [isReady]; decide)
    intro i r hr
    by_cases hlevel : i = (s.ready.level (s'.pcbs q).priority).toNat
    · rw [hlevel, lists.self] at hr
      rcases List.mem_append.1 hr with hold | hnew
      · exact .inl (hlevel ▸ List.mem_of_mem_erase hold)
      · rw [List.mem_singleton.1 hnew]
        exact .inr (hq.trans_le hpid)
    · rw [lists.other i hlevel] at hr
      exact .inl hr

/-! ### Moves -/

/-- A transition of a live process. -/
lemma Tracked.moved {state : ProcessState} (h : Tracked s) (hm : Moved p state s s')
    (heffect : ExecEffect s s') (hready : ReadyCreated s s') : Tracked s' :=
  h.of_effect heffect (fun q _ => hm.priority q) hm.nextPid.ge hready

/-- The READY to EXEC step of a process that was in READY. -/
lemma Tracked.readyExec (h : Tracked s) (hp : p < s.nextPid) :
    Tracked ((s.transitionReadyExec p).transitionToExec p) := by
  have heffect : ExecEffect s ((s.transitionReadyExec p).transitionToExec p) :=
    .entered p hp (exec_readyExec p s)
  obtain ⟨hready, ⟨-, hmoved⟩ | ⟨-, hpcbs, -, hpid⟩⟩ := readyExec_spec p s
  · exact h.moved hmoved heffect (readyCreated_of_eq hready)
  · exact h.of_effect heffect (fun q _ => by rw [hpcbs]) hpid.ge
      (readyCreated_of_eq hready)

/-- The worst priority is tracked over `transition_exec_ready`. -/
lemma Tracked.execReady (h : Tracked s) (hi : Inheriting s)
    (hrun : s.transitionExecReady p = some s') : Tracked s' := by
  rcases transitionExecReady_spec hrun with rfl | ⟨hstate, hmoved, hadd⟩
  · exact h
  · have hp : p < s'.nextPid := by
      rw [hmoved.nextPid]
      exact (hi.sound.pcb p).created (by rw [hstate]; decide)
    exact h.moved hmoved (.of_or (exec_transitionExecReady hrun)) (readyCreated_of_add hadd hp)

/-- A process leaves READY. -/
lemma Tracked.takeNext {ready : ReadyQueue} (h : Tracked s)
    (htake : s.ready.takeNext = some (p, ready)) :
    p < s.nextPid ∧ Tracked { s with ready := ready } := by
  obtain ⟨⟨i, hmem⟩, hready⟩ := readyCreated_of_takeNext htake
  exact ⟨h.ready i p hmem, h.of_effect (.kept rfl) (fun _ _ => rfl) le_rfl hready⟩

/-! ## The mutex calls -/

variable {m : Mutex} {r : MutexResult}

/-- A pass over a part of the list has just been made. -/
lemma Tracked.of_recomputed (list : List ℕ) (h : Tracked s)
    (hexec : s'.exec = { s.exec with
      list := list, lowestPriority := maxFrom 0 (fun q => (s'.pcbs q).priority) list })
    (hlist : list ⊆ s.exec.list) (hpid : s'.nextPid = s.nextPid) (hready : ReadyCreated s s') :
    Tracked s' where
  preemption := by rw [hexec, h.preemption]
  lowest := by rw [hexec]
  created q hq := by
    rw [hexec] at hq
    exact (h.created q (hlist hq)).trans_eq hpid.symm
  ready i q hq := by
    rcases hready i q hq with hold | hlt
    · exact (h.ready i q hold).trans_eq hpid.symm
    · exact hlt

/-! ### Lock -/

/-- The end of a waiting call makes a pass. -/
lemma waitForMutex_exec (hexec : (s.pcbs p).state = .exec) (hpre : s.exec.preemption = true)
    (id : String) :
    (s.waitForMutex id p).nextPid = s.nextPid ∧
      (s.waitForMutex id p).exec = { s.exec with
        list := s.exec.list.erase p
        lowestPriority :=
          maxFrom 0 (fun q => ((s.waitForMutex id p).pcbs q).priority) (s.exec.list.erase p) } := by
  have hstate : ((s.setMutexBlocking p (some id)).pcbs p).state = .exec := by
    rw [setMutexBlocking, modifyPcb_pcbs_self, hexec]
  obtain ⟨hmoved, -⟩ := transitionExecBlock_spec hstate
  have hprio : (fun q => ((s.waitForMutex id p).pcbs q).priority) =
      fun q => (s.pcbs q).priority := by
    funext q
    exact (waitForMutex_ready id p s).2 q
  have hblocking : ∀ q, ((s.setMutexBlocking p (some id)).pcbs q).priority =
      (s.pcbs q).priority := by
    intro q
    by_cases hq : q = p
    · rw [hq, setMutexBlocking, modifyPcb_pcbs_self]
    · rw [setMutexBlocking, modifyPcb_pcbs_of_ne hq]
  have htake : (s.waitForMutex id p).exec =
      ((s.setMutexBlocking p (some id)).transitionExecBlock p).exec := rfl
  have hleft : ((s.setMutexBlocking p (some id)).transitionExecBlock p).exec =
      ((s.setMutexBlocking p (some id)).transitionTakeExec p).exec := by
    rw [transitionExecBlock, if_pos hstate]
    exact exec_setState_transitionTakeExec p .block _
  refine ⟨hmoved.nextPid, ?_⟩
  rw [hprio, htake, hleft, ← transitionTakeExec_exec p s hpre]
  exact exec_transitionTakeExec_congr (u := s) (v := s.setMutexBlocking p (some id)) rfl hblocking p

/-- `mutex_lock` changes no priority, or it ends as a waiting call and EXEC is the same until
then. -/
lemma mutexLock_cases (hi : Inheriting s) (hm : m ∈ s.mutexes) (hexec : (s.pcbs p).state = .exec)
    (hrun : s.mutexLock m p = some (r, s')) :
    (s'.exec = s.exec ∧ s'.nextPid = s.nextPid ∧
      ∀ q, (s'.pcbs q).priority = (s.pcbs q).priority) ∨
    ∃ u : Queues, s' = u.waitForMutex m.id p ∧ (u.pcbs p).state = .exec ∧ u.nextPid = s.nextPid ∧
      u.exec.list = s.exec.list ∧ u.exec.preemption = s.exec.preemption := by
  unfold mutexLock at hrun
  simp only at hrun
  split at hrun
  · rename_i hfree
    obtain ⟨-, heq⟩ := Prod.mk.inj (Option.some.inj hrun)
    obtain ⟨-, -, -, -, hprio, -⟩ := lockFree_spec hi.sound hi.balanced hm hexec hfree heq.symm
    rw [← heq] at hprio ⊢
    exact .inl ⟨rfl, rfl, hprio⟩
  split at hrun
  · split at hrun
    · rename_i hindex
      split at hrun
      · exact absurd hrun (by simp)
      · rename_i holder hholder
        obtain ⟨u, hu, heq⟩ := Option.map_eq_some_iff.1 hrun
        obtain ⟨-, rfl⟩ := Prod.mk.inj heq
        obtain ⟨hlink, hpend, hlists, hle, rest, hold, hnew⟩ :=
          lock_link hi.sound hi.balanced hm hexec hholder hindex rfl
        obtain ⟨-, -, hinherited, -⟩ := replacePriorityWith_spec
          (propagates_propagatePriorityTransitive _ [m.id] _) hlink hpend hlists hold hnew hle hu
        have hsame : u.exec = s.exec := hinherited.lists.1
        refine .inr ⟨_, rfl, (hinherited.state p).trans hexec, hinherited.nextPid, ?_, ?_⟩
        · change u.exec.list = s.exec.list
          rw [hsame]
        · change u.exec.preemption = s.exec.preemption
          rw [hsame]
    · obtain ⟨-, rfl⟩ := Prod.mk.inj (Option.some.inj hrun)
      exact .inr ⟨_, rfl, hexec, rfl, rfl, rfl⟩
  · obtain ⟨-, rfl⟩ := Prod.mk.inj (Option.some.inj hrun)
    exact .inr ⟨_, rfl, hexec, rfl, rfl, rfl⟩

/-- Over `mutex_lock`. -/
lemma Tracked.mutexLock (h : Tracked s) (hi : Inheriting s) (hm : m ∈ s.mutexes)
    (hexec : (s.pcbs p).state = .exec) (hrun : s.mutexLock m p = some (r, s')) : Tracked s' := by
  have hraise := readyRaise_mutexLock hi hrun
  rcases mutexLock_cases hi hm hexec hrun with
    ⟨hsame, hpid, hprio⟩ | ⟨u, rfl, hstate, hpid, hlist, hpre⟩
  · exact h.of_effect (.kept hsame) (fun q _ => hprio q) hpid.ge
      (readyCreated_of_raise hi hraise hpid.ge)
  · rw [h.preemption] at hpre
    obtain ⟨hpid', hwaits⟩ := waitForMutex_exec hstate hpre m.id
    have hpidAll := hpid'.trans hpid
    refine h.of_recomputed (s.exec.list.erase p) ?_ List.erase_subset hpidAll
      (readyCreated_of_raise hi hraise hpidAll.ge)
    rw [hwaits]
    simp only [hlist, hpre, h.preemption]

/-! ### Unlock -/

/-- The hand-over leaves EXEC, and the priorities of the others. -/
lemma handOver_frame {next : ℕ} {rest : List ℕ} (h : s.handOver m next rest = some s') :
    s'.exec = s.exec ∧ s'.nextPid = s.nextPid ∧ ∀ q, q ≠ next → s'.pcbs q = s.pcbs q := by
  unfold handOver at h
  simp only at h
  obtain ⟨t, ht, hunlock⟩ := Option.bind_eq_some_iff.1 h
  have hbefore : t.exec = s.exec ∧ t.nextPid = s.nextPid ∧ ∀ q, q ≠ next → t.pcbs q = s.pcbs q := by
    split at ht
    · obtain ⟨n, -, rfl⟩ := Option.map_eq_some_iff.1 ht
      refine ⟨rfl, rfl, fun q hq => ?_⟩
      simp [insertPriority, setMutexBlocking, hq]
    · obtain rfl := Option.some.inj ht
      refine ⟨rfl, rfl, fun q hq => ?_⟩
      simp [setMutexBlocking, hq]
  have hafter : s'.nextPid = t.nextPid ∧ ∀ q, q ≠ next → s'.pcbs q = t.pcbs q := by
    rcases transitionUnlock_spec hunlock with rfl | ⟨-, hmoved, -⟩ | ⟨-, hmoved, -⟩
    · exact ⟨rfl, fun _ _ => rfl⟩
    · exact ⟨hmoved.nextPid, hmoved.other⟩
    · exact ⟨hmoved.nextPid, hmoved.other⟩
  refine ⟨(exec_transitionUnlock hunlock).trans hbefore.1, hafter.1.trans hbefore.2.1, ?_⟩
  intro q hq
  exact (hafter.2 q hq).trans (hbefore.2.2 q hq)

/-- After `remove_priority` and what follows it, the field is what a pass would find. -/
lemma Tracked.removePriority (h : Tracked s) {old : ℤ} {t : Queues}
    (ht : t = if (s.removePriority p old).1 then
      (s.removePriority p old).2.updateLowestExecPriority else (s.removePriority p old).2) :
    t.exec = { s.exec with
      lowestPriority := maxFrom 0 (fun q => (t.pcbs q).priority) s.exec.list } := by
  by_cases hchanged : (s.removePriority p old).1 = true
  · rw [ht, if_pos hchanged]
    rfl
  · rw [if_neg hchanged] at ht
    have hsame : (s.pcbs p).priority = firstPriority ((s.pcbs p).priorityList.erase old) := by
      simpa [Queues.removePriority] using hchanged
    have hprio : (fun q => (t.pcbs q).priority) = fun q => (s.pcbs q).priority := by
      funext q
      by_cases hq : q = p
      · rw [ht, hq, Queues.removePriority, modifyPcb_pcbs_self]
        exact hsame.symm
      · rw [ht, Queues.removePriority, modifyPcb_pcbs_of_ne hq]
    rw [hprio, ← h.lowest, ht]
    rfl

/-- `mutex_unlock` does nothing, or takes the entry of the mutex from its holder and leaves EXEC and
the holder after that. -/
lemma mutexUnlock_cases (hactive : m.priorityActive = true) (hp : p ∉ m.list)
    (hrun : s.mutexUnlock m p = some (r, s')) :
    s' = s ∨ ∃ t : Queues,
      t = (if (s.removePriority p m.nextPriority).1 then
        (s.removePriority p m.nextPriority).2.updateLowestExecPriority
        else (s.removePriority p m.nextPriority).2) ∧
      s'.exec = t.exec ∧ s'.nextPid = t.nextPid ∧ s'.pcbs p = t.pcbs p := by
  unfold mutexUnlock at hrun
  split at hrun
  · exact .inl (Prod.mk.inj (Option.some.inj hrun)).2.symm
  simp only at hrun
  obtain ⟨u, hu, heq⟩ := Option.map_eq_some_iff.1 hrun
  obtain ⟨-, rfl⟩ := Prod.mk.inj heq
  refine .inr ⟨_, rfl, ?_⟩
  split at hu
  · obtain rfl := Option.some.inj hu
    exact ⟨rfl, rfl, rfl⟩
  split at hu
  · split at hu
    · exact absurd hu (by simp)
    · rename_i next rest hlist
      obtain ⟨hexec, hpid, hother⟩ := handOver_frame hu
      have hne : p ≠ next := by
        rintro rfl
        exact hp (hlist ▸ List.mem_cons_self)
      exact ⟨hexec, hpid, hother p hne⟩
  · obtain rfl := Option.some.inj hu
    exact ⟨rfl, rfl, rfl⟩

/-- Over `mutex_unlock`. -/
lemma Tracked.mutexUnlock (h : Tracked s) (hi : Inheriting s) (hm : m ∈ s.mutexes)
    (hexec : (s.pcbs p).state = .exec) (hrun : s.mutexUnlock m p = some (r, s')) : Tracked s' := by
  obtain ⟨-, -, heffect⟩ := mutexUnlock_spec hi.sound hi.balanced hm hexec hrun
  have hp := not_mem_of_unblocked hi.sound (unblocked_of_exec hi.sound hexec) hm
  rcases mutexUnlock_cases (hi.sound.mutex m hm).active hp hrun with
    rfl | ⟨t, ht, hkept, hpid, hself⟩
  · exact h
  have hdropped : Dropped m p s t := ht ▸ dropped_removePriority m p s
  have hprio : (fun q => (s'.pcbs q).priority) = fun q => (t.pcbs q).priority := by
    funext q
    by_cases hq : q = p
    · rw [hq, hself]
    · rw [heffect.priority q hq, hdropped.other q hq]
  have hready : ReadyCreated s s' := by
    rcases heffect.handed with ⟨hsame, -⟩ | ⟨next, hblock, -, hadd, -⟩
    · exact readyCreated_of_eq hsame
    · refine readyCreated_of_add hadd ?_
      rw [hpid, hdropped.nextPid]
      exact (hi.sound.pcb next).created (by rw [hblock]; decide)
  refine h.of_recomputed s.exec.list ?_ (List.Subset.refl _)
    (hpid.trans hdropped.nextPid) hready
  rw [hkept, hprio]
  exact h.removePriority ht

/-! ## Runs -/

/-- **Every step keeps the invariant.** -/
lemma tracked_step {a : Action} (hi : Inheriting s) (h : Tracked s) (hstep : step s a = some s') :
    Tracked s' := by
  cases step_cases hi hstep with
  | kept same => rwa [same]
  | created priority state created ready exec =>
    have hpid : s.nextPid < s'.nextPid := by
      rw [created.nextPid]
      omega
    refine h.of_effect (.kept exec) (fun q hq => ?_) hpid.le ?_
    · rw [created.other q hq.ne]
    · rcases ready with ⟨-, hadd⟩ | ⟨-, hsame⟩
      · exact readyCreated_of_add hadd hpid
      · exact readyCreated_of_eq hsame
  | moved p target moved source outside live waits ready exec =>
    refine h.moved moved (.of_or exec) ?_
    rcases ready with ⟨-, hadd⟩ | ⟨-, hsame⟩
    · refine readyCreated_of_add hadd ?_
      rw [moved.nextPid]
      exact (hi.sound.pcb p).created source.1
    · exact readyCreated_of_eq hsame
  | dispatched p ready take effect =>
    obtain ⟨hp, htaken⟩ := h.takeNext take
    rw [effect]
    exact htaken.readyExec hp
  | preempted p newPcb ready t take execReady effect =>
    obtain ⟨hnew, htaken⟩ := h.takeNext take
    have hi' : Inheriting { s with ready := ready } := hi.of_eq rfl rfl rfl
    rw [effect]
    refine (htaken.execReady hi' execReady).readyExec ?_
    rcases transitionExecReady_spec execReady with rfl | ⟨-, hmoved, -⟩
    · exact hnew
    · exact hnew.trans_eq hmoved.nextPid.symm
  | ended p call running ended exec =>
    refine h.of_effect (.left p exec) (fun q _ => ?_) ended.nextPid.ge
      (readyCreated_of_eq ended.ready)
    by_cases hq : q = p
    · rw [hq, ended.self]
    · rw [ended.other q hq]
  | mutexCreated id effect =>
    obtain ⟨-, -, hpcbs, hready, -⟩ := createAndAddMutex_spec hi.sound hi.balanced id
    rw [← effect] at hpcbs hready
    have hsame : s'.exec = s.exec ∧ s'.nextPid = s.nextPid := by
      rw [effect]
      unfold createAndAddMutex
      split
      · exact ⟨rfl, rfl⟩
      · exact ⟨rfl, rfl⟩
    exact h.of_effect (.kept hsame.1) (fun q _ => by rw [hpcbs]) hsame.2.ge
      (readyCreated_of_eq hready)
  | locked m p r call mem running run => exact h.mutexLock hi mem running run
  | unlocked m p r call mem running run => exact h.mutexUnlock hi mem running run

/-- The first state has no process. -/
lemma tracked_init (multilevel : Bool) (algorithms : List SchedulingAlgorithm) :
    Tracked (initQueues multilevel algorithms true) where
  preemption := rfl
  lowest := rfl
  created p hp := absurd hp (by simp [initQueues])
  ready i p hp := by
    rw [readyList, initQueues, levelList_init] at hp
    exact absurd hp List.not_mem_nil

/-- **The worst priority in every reachable state**, when preemption is enabled: it is known exactly
when EXEC is empty or has a process whose priority is not negative. -/
theorem lowestExact_of_reachable {multilevel : Bool} {algorithms : List SchedulingAlgorithm}
    (h : Reachable step (initQueues multilevel algorithms true) s) :
    LowestExact s ∧
      (LowestKnown s ↔ s.exec.list = [] ∨ ∃ p ∈ s.exec.list, 0 ≤ (s.pcbs p).priority) := by
  have hinit : Inheriting (initQueues multilevel algorithms true) ∧
      Tracked (initQueues multilevel algorithms true) :=
    ⟨inheriting_init multilevel algorithms true, tracked_init multilevel algorithms⟩
  have hinvariant : Inheriting s ∧ Tracked s := by
    refine Run.invariant (I := fun s => Inheriting s ∧ Tracked s) h hinit ?_
    rintro t a t' ⟨hi, ht⟩ - hstep
    exact ⟨inheriting_step hi hstep, tracked_step hi ht hstep⟩
  have hexact := lowestExact_of_tracked hinvariant.2
  exact ⟨hexact, hexact.lowestKnown_iff⟩

/-- A process holds a mutex that a better one then asks for: its priority in EXEC is the inherited
one. -/
def inheritedInExec : List Action :=
  [.newReady 2 true, .dispatch, .mutexCreate "m" 0, .mutexLock "m" 0, .newReady 1 true, .dispatch,
    .mutexLock "m" 1]

/-- The inherited priority is the worst one in EXEC, and it is known. -/
theorem lowestExact_of_reachable_inheritedInExec :
    ∃ s, execute step (initQueues true (List.replicate 3 .fifo) true) inheritedInExec = some s ∧
      (s.exec.list, s.exec.lowestPriority, (s.pcbs 0).priority) = ([0], 1, 1) ∧
      LowestExact s ∧ LowestKnown s := by
  have hrun : (execute step (initQueues true (List.replicate 3 .fifo) true) inheritedInExec).map
      (fun s => (s.exec.list, s.exec.lowestPriority, (s.pcbs 0).priority)) = some ([0], 1, 1) := by
    decide
  obtain ⟨s, hs, heq⟩ := Option.map_eq_some_iff.1 hrun
  obtain ⟨hexact, hiff⟩ := lowestExact_of_reachable (Run.of_execute hs)
  obtain ⟨hlist, hrest⟩ := Prod.mk.inj heq
  have hnonneg : 0 ≤ (s.pcbs 0).priority := by
    rw [(Prod.mk.inj hrest).2]
    decide
  exact ⟨s, hs, heq, hexact, hiff.2 (.inr ⟨0, by simp [hlist], hnonneg⟩)⟩

/-- **A negative priority is not the worst one**, although no other process is in EXEC: with a
single READY queue a priority may be negative, and the field starts at zero. -/
theorem not_lowest_of_negative :
    ∃ s, Reachable step (initQueues false [.fifo] true) s ∧ s.exec.list = [0] ∧
      IsGreatest s.runningPriorities (s.pcbs 0).priority ∧
      s.isLowestPriorityInExec (s.pcbs 0).priority = false := by
  have hrun : (execute step (initQueues false [.fifo] true) [.newReady (-1) true, .dispatch]).map
      (fun s => (s.exec.list, s.isLowestPriorityInExec (s.pcbs 0).priority)) =
        some ([0], false) := by decide
  obtain ⟨s, hs, heq⟩ := Option.map_eq_some_iff.1 hrun
  obtain ⟨hlist, hanswer⟩ := Prod.mk.inj heq
  refine ⟨s, Run.of_execute hs, hlist, ⟨⟨0, by simp [hlist], rfl⟩, ?_⟩, hanswer⟩
  rintro x ⟨q, hq, rfl⟩
  rw [hlist, List.mem_singleton] at hq
  rw [hq]

end OsSimulator.Scheduler
