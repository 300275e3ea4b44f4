import OsSimulator.Scheduler.Soundness

set_option relaxedAutoImplicit false
set_option autoImplicit false

/-!
# What the transitions do

Every transition of the seven-state machine either changes nothing or moves one process: its state
field changes, the mutexes and the priorities stay, and the READY queue gains or loses that process
at most. This file says so once for each transition; the invariants are then derived from `Moved`
and `Ended` alone.

## Main definitions

* `Moved p state s s'` — the process `p` has the new state and nothing else about the PCBs and
  mutexes is different.
* `Ended p s s'` — the process `p` has ended and its PCB is destroyed.
* `Created priority state s s'` — the process of the next pid is new.

## Main results

* `Sound.moved`, `Sound.ended`, `Sound.created` — a moved, an ended and a created process keep the
  inheritance invariant.
-/

namespace OsSimulator.Scheduler

open Queues

/-- The process `p` is in a new state; PCBs and mutexes are otherwise the same. -/
structure Moved (p : ℕ) (state : ProcessState) (s s' : Queues) : Prop where
  self : s'.pcbs p = { s.pcbs p with state := state }
  other : ∀ q, q ≠ p → s'.pcbs q = s.pcbs q
  mutexes : s'.mutexes = s.mutexes
  nextPid : s'.nextPid = s.nextPid

/-- The process `p` has ended and its PCB is destroyed; PCBs and mutexes are otherwise the
same. -/
structure Ended (p : ℕ) (s s' : Queues) : Prop where
  self : s'.pcbs p = { s.pcbs p with state := .exit, destroyed := true }
  other : ∀ q, q ≠ p → s'.pcbs q = s.pcbs q
  mutexes : s'.mutexes = s.mutexes
  nextPid : s'.nextPid = s.nextPid
  ready : s'.ready = s.ready

/-! ## The transitions, one by one -/

section Transitions

variable {p : ℕ} {s s' : Queues}

/-- `transition_take_exec` only touches the EXEC list. -/
lemma transitionTakeExec_eq (p : ℕ) (s : Queues) :
    ∃ exec, s.transitionTakeExec p = { s with exec := exec } := by
  unfold transitionTakeExec
  simp only
  split
  · exact ⟨_, rfl⟩
  · exact ⟨_, rfl⟩

/-- A change of the state field is a move. -/
lemma moved_setState (p : ℕ) (state : ProcessState) (s : Queues) :
    Moved p state s (s.setState p state) where
  self := by simp [setState]
  other q hq := by simp [setState, hq]
  mutexes := rfl
  nextPid := rfl

/-- A change of a move's final state outside PCBs and mutexes. -/
lemma Moved.of_eq {state : ProcessState} {t : Queues} (h : Moved p state s s')
    (hpcbs : t.pcbs = s'.pcbs) (hmutexes : t.mutexes = s'.mutexes)
    (hpid : t.nextPid = s'.nextPid) : Moved p state s t where
  self := by rw [hpcbs, h.self]
  other q hq := by rw [hpcbs, h.other q hq]
  mutexes := hmutexes.trans h.mutexes
  nextPid := hpid.trans h.nextPid

/-- The READY queue after `transition_to_ready`. -/
lemma transitionToReady_spec (h : s.transitionToReady p = some s') :
    s' = { s with ready := s'.ready } ∧ s.ready.add p (s.pcbs p).priority = some s'.ready := by
  obtain ⟨ready, hready, rfl⟩ := Option.map_eq_some_iff.1 h
  exact ⟨rfl, hready⟩

/-- A move to READY: the state field changes, the process leaves its list, and enters the READY
queue. -/
lemma moved_transitionToReady {t : Queues} (h : t.transitionToReady p = some s')
    (hpcbs : t.pcbs = (s.setState p .ready).pcbs) (hmutexes : t.mutexes = s.mutexes)
    (hpid : t.nextPid = s.nextPid) (hready : t.ready = s.ready) :
    Moved p .ready s s' ∧ s.ready.add p (s.pcbs p).priority = some s'.ready := by
  obtain ⟨heq, hadd⟩ := transitionToReady_spec h
  have hprio : (t.pcbs p).priority = (s.pcbs p).priority := by
    rw [hpcbs, (moved_setState p .ready s).self]
  rw [hready, hprio] at hadd
  refine ⟨(moved_setState p .ready s).of_eq ?_ ?_ ?_, hadd⟩
  · rw [heq]
    exact hpcbs
  · rw [heq]
    exact hmutexes
  · rw [heq]
    exact hpid

/-- `transition_exec_ready` refuses, or moves the process from EXEC to READY. -/
lemma transitionExecReady_spec (h : s.transitionExecReady p = some s') :
    s' = s ∨ (s.pcbs p).state = .exec ∧ Moved p .ready s s' ∧
      s.ready.add p (s.pcbs p).priority = some s'.ready := by
  unfold transitionExecReady at h
  split at h
  · rename_i hexec
    obtain ⟨exec, htake⟩ := transitionTakeExec_eq p (s.setState p .ready)
    rw [htake] at h
    exact .inr ⟨hexec, moved_transitionToReady h rfl rfl rfl rfl⟩
  · exact .inl (Option.some.inj h).symm

/-- `transition_exec_block` moves the process from EXEC to BLOCK. -/
lemma transitionExecBlock_spec (h : (s.pcbs p).state = .exec) :
    Moved p .block s (s.transitionExecBlock p) ∧ (s.transitionExecBlock p).ready = s.ready := by
  rw [transitionExecBlock, if_pos h]
  obtain ⟨exec, htake⟩ := transitionTakeExec_eq p (s.setState p .block)
  rw [htake]
  exact ⟨(moved_setState p .block s).of_eq rfl rfl rfl, rfl⟩

/-- `transition_unlock` refuses, or moves a process of BLOCK to READY, or one of SUSP. BLOCK to
SUSP. READY. -/
lemma transitionUnlock_spec (h : s.transitionUnlock p = some s') :
    s' = s ∨
    ((s.pcbs p).state = .block ∧ Moved p .ready s s' ∧
      s.ready.add p (s.pcbs p).priority = some s'.ready) ∨
    ((s.pcbs p).state = .suspBlock ∧ Moved p .suspReady s s' ∧ s'.ready = s.ready) := by
  unfold transitionUnlock at h
  split at h
  · rename_i hblock
    exact .inr (.inl ⟨hblock, moved_transitionToReady h rfl rfl rfl rfl⟩)
  · split at h
    · rename_i hsusp
      obtain rfl := Option.some.inj h
      exact .inr (.inr ⟨hsusp, (moved_setState p .suspReady s).of_eq rfl rfl rfl, rfl⟩)
    · exact .inl (Option.some.inj h).symm

/-- `transition_block_susp_block` refuses, or moves the process from BLOCK to SUSP. BLOCK. -/
lemma transitionBlockSuspBlock_spec (p : ℕ) (suspended : Bool) (s : Queues) :
    s.transitionBlockSuspBlock p suspended = s ∨
    ((s.pcbs p).state = .block ∧ Moved p .suspBlock s (s.transitionBlockSuspBlock p suspended) ∧
      (s.transitionBlockSuspBlock p suspended).ready = s.ready) := by
  unfold transitionBlockSuspBlock
  split
  · rename_i hcond
    exact .inr ⟨hcond.1, (moved_setState p .suspBlock s).of_eq rfl rfl rfl, rfl⟩
  · exact .inl rfl

/-- `transition_susp_ready` refuses, or moves the process from SUSP. READY to READY. -/
lemma transitionSuspReady_spec {resumed : Bool} (h : s.transitionSuspReady p resumed = some s') :
    s' = s ∨ ((s.pcbs p).state = .suspReady ∧ Moved p .ready s s' ∧
      s.ready.add p (s.pcbs p).priority = some s'.ready) := by
  unfold transitionSuspReady at h
  split at h
  · rename_i hcond
    exact .inr ⟨hcond.1, moved_transitionToReady h rfl rfl rfl rfl⟩
  · exact .inl (Option.some.inj h).symm

/-- `transition_exec_exit` refuses, or ends the process. -/
lemma transitionExecExit_spec (p : ℕ) (s : Queues) :
    s.transitionExecExit p = s ∨
    ((s.pcbs p).state = .exec ∧ Ended p s (s.transitionExecExit p)) := by
  unfold transitionExecExit
  split
  · rename_i hexec
    obtain ⟨exec, htake⟩ := transitionTakeExec_eq p (s.setState p .exit)
    rw [htake]
    refine .inr ⟨hexec, ?_, fun q hq => ?_, rfl, rfl, rfl⟩
    · simp [transitionToExit, setState, modifyPcb]
    · simp [transitionToExit, setState, modifyPcb, hq]
  · exact .inl rfl

/-- What the READY to EXEC step does to a process taken from the READY queue. -/
lemma readyExec_spec (p : ℕ) (s : Queues) :
    ((s.transitionReadyExec p).transitionToExec p).ready = s.ready ∧
    (((s.pcbs p).state = .ready ∧ Moved p .exec s ((s.transitionReadyExec p).transitionToExec p)) ∨
      ((s.pcbs p).state ≠ .ready ∧
        ((s.transitionReadyExec p).transitionToExec p).pcbs = s.pcbs ∧
        ((s.transitionReadyExec p).transitionToExec p).mutexes = s.mutexes ∧
        ((s.transitionReadyExec p).transitionToExec p).nextPid = s.nextPid)) := by
  unfold transitionReadyExec
  split
  · rename_i hready
    exact ⟨rfl, .inl ⟨hready, (moved_setState p .exec s).of_eq rfl rfl rfl⟩⟩
  · rename_i hne
    exact ⟨rfl, .inr ⟨hne, rfl, rfl, rfl⟩⟩

end Transitions

/-! ## Moves keep the inheritance invariant -/

section Invariant

variable {p : ℕ} {state : ProcessState} {s s' : Queues}

/-- A move keeps every priority. -/
lemma Moved.priority (h : Moved p state s s') (q : ℕ) :
    (s'.pcbs q).priority = (s.pcbs q).priority := by
  by_cases hq : q = p
  · rw [hq, h.self]
  · rw [h.other q hq]

/-- A move keeps what everybody waits for. -/
lemma Moved.blocking (h : Moved p state s s') (q : ℕ) :
    (s'.pcbs q).blockingMutex = (s.pcbs q).blockingMutex := by
  by_cases hq : q = p
  · rw [hq, h.self]
  · rw [h.other q hq]

/-- The account only depends on the mutexes, the priorities and the lists. -/
lemma Balanced.congr (h : Balanced s) (hmutexes : s'.mutexes = s.mutexes)
    (hprio : ∀ q, (s'.pcbs q).priority = (s.pcbs q).priority)
    (hlist : ∀ q, (s'.pcbs q).priorityList = (s.pcbs q).priorityList)
    (hbase : ∀ q, (s'.pcbs q).basePriority = (s.pcbs q).basePriority) : Balanced s' := by
  intro q
  have howed : owed s' q = owed s q := owed_congr hmutexes (fun _ _ r _ => hprio r) q
  rw [howed, hlist, hbase]
  exact h q

/-- A moved process keeps the account. -/
lemma Balanced.moved (h : Balanced s) (hm : Moved p state s s') : Balanced s' := by
  refine h.congr hm.mutexes hm.priority (fun q => ?_) (fun q => ?_)
  · by_cases hq : q = p
    · rw [hq, hm.self]
    · rw [hm.other q hq]
  · by_cases hq : q = p
    · rw [hq, hm.self]
    · rw [hm.other q hq]

/-- **A moved process keeps the invariant**, when it is live before and after, and stays blocked
as long as it waits for a mutex. -/
lemma Sound.moved {pending : Option (ℕ × String)} (h : Sound pending s) (hm : Moved p state s s')
    (hfrom : (s.pcbs p).state.Live) (hto : state.Live)
    (hwait : (s.pcbs p).blockingMutex ≠ none → state = .block ∨ state = .suspBlock) :
    Sound pending s' := by
  have hnew : ∀ q, (s.pcbs q).state ≠ .new → (s'.pcbs q).state ≠ .new := by
    intro q hq
    by_cases heq : q = p
    · rw [heq, hm.self]
      exact hto.1
    · rwa [hm.other q heq]
  refine h.congr hm.mutexes (fun q => ?_) (fun _ _ q _ => hm.priority q) hm.blocking
    (fun _ _ q _ => hnew q)
  by_cases heq : q = p
  · have hq := h.pcb p
    rw [heq]
    refine ⟨?_, ?_, ?_, fun hb => ?_, fun id hid => ?_, fun _ => ?_, ?_⟩
    · rw [hm.self]
      exact hq.sorted
    · rw [hm.self]
      exact hq.first
    · rw [hm.self]
      exact hq.bounded
    · rw [hm.self] at hb ⊢
      exact hwait hb
    · rw [hm.self] at hid
      rw [hm.mutexes]
      exact hq.known id hid
    · rw [hm.nextPid]
      exact hq.created hfrom.1
    · rw [hm.self]
      have hnot : ¬ (s.pcbs p).destroyed = true := fun hd => hfrom.2 (hq.gone.1 hd)
      exact ⟨fun hd => absurd hd hnot, fun he => absurd he hto.2⟩
  · exact (h.pcb q).congr (hm.other q heq) (by rw [hm.mutexes]; exact fun _ => id) hm.nextPid.ge

/-- **An ended process keeps the invariant**, when it waits for no mutex. The mutexes it holds
still name it. -/
lemma Sound.ended (h : Sound none s) (he : Ended p s s') (hfrom : (s.pcbs p).state.Live)
    (hwait : (s.pcbs p).blockingMutex = none) : Sound none s' := by
  have hprio : ∀ q, (s'.pcbs q).priority = (s.pcbs q).priority := by
    intro q
    by_cases heq : q = p
    · rw [heq, he.self]
    · rw [he.other q heq]
  have hblock : ∀ q, (s'.pcbs q).blockingMutex = (s.pcbs q).blockingMutex := by
    intro q
    by_cases heq : q = p
    · rw [heq, he.self]
    · rw [he.other q heq]
  have hnew : ∀ q, (s.pcbs q).state ≠ .new → (s'.pcbs q).state ≠ .new := by
    intro q hq
    by_cases heq : q = p
    · rw [heq, he.self]
      simp
    · rwa [he.other q heq]
  refine h.congr he.mutexes (fun q => ?_) (fun _ _ q _ => hprio q) hblock (fun _ _ q _ => hnew q)
  by_cases heq : q = p
  · have hq := h.pcb p
    rw [heq]
    refine ⟨?_, ?_, ?_, fun hb => ?_, fun id hid => ?_, fun _ => ?_, ?_⟩
    · rw [he.self]
      exact hq.sorted
    · rw [he.self]
      exact hq.first
    · rw [he.self]
      exact hq.bounded
    · rw [hblock] at hb
      exact absurd hwait hb
    · rw [hblock, hwait] at hid
      exact absurd hid (by simp)
    · rw [he.nextPid]
      exact hq.created hfrom.1
    · rw [he.self]
      exact ⟨fun _ => rfl, fun _ => rfl⟩
  · exact (h.pcb q).congr (he.other q heq) (by rw [he.mutexes]; exact fun _ => id)
      he.nextPid.ge

/-- An ended process keeps the account. -/
lemma Balanced.ended (h : Balanced s) (he : Ended p s s') : Balanced s' := by
  refine h.congr he.mutexes (fun q => ?_) (fun q => ?_) (fun q => ?_) <;>
  · by_cases hq : q = p
    · rw [hq, he.self]
    · rw [he.other q hq]

/-- The process of the next pid has just been created with the given priority and state, and is
destroyed if that state is `EXIT`. -/
structure Created (priority : ℤ) (state : ProcessState) (s t : Queues) : Prop where
  self : t.pcbs s.nextPid =
    { createPcb .new priority with state := state, destroyed := decide (state = .exit) }
  other : ∀ q, q ≠ s.nextPid → t.pcbs q = s.pcbs q
  mutexes : t.mutexes = s.mutexes
  nextPid : t.nextPid = s.nextPid + 1
  bounded : priority ≤ INT_MAX

/-- `transition_new_ready` creates a process in READY, or in EXIT if it is not accepted. -/
lemma transitionNewReady_spec {priority : ℤ} {accepted : Bool}
    (h : s.transitionNewReady priority accepted = some s') :
    (Created priority .ready s s' ∧ s.ready.add s.nextPid priority = some s'.ready) ∨
    (Created priority .exit s s' ∧ s'.ready = s.ready) := by
  unfold transitionNewReady at h
  split at h
  · rename_i hbounds
    simp only at h
    set t : Queues := { s with
      pcbs := Function.update s.pcbs s.nextPid (createPcb .new priority)
      nextPid := s.nextPid + 1 } with ht
    have hself : t.pcbs s.nextPid = createPcb .new priority := Function.update_self ..
    have hother : ∀ q, q ≠ s.nextPid → t.pcbs q = s.pcbs q := fun q hq =>
      Function.update_of_ne hq ..
    split at h
    · obtain ⟨hmoved, hadd⟩ := moved_transitionToReady h rfl rfl rfl rfl
      refine .inl ⟨⟨?_, fun q hq => ?_, hmoved.mutexes, hmoved.nextPid, hbounds.2⟩, ?_⟩
      · rw [hmoved.self, hself]
        rfl
      · rw [hmoved.other q hq, hother q hq]
      · rw [hself] at hadd
        exact hadd
    · obtain rfl := Option.some.inj h
      refine .inr ⟨⟨?_, fun q hq => ?_, rfl, rfl, hbounds.2⟩, rfl⟩
      · rw [transitionToExit, modifyPcb_pcbs_self, hself]
        rfl
      · rw [transitionToExit, modifyPcb_pcbs_of_ne hq, hother q hq]
  · exact absurd h (by simp)

/-- **A new process keeps the invariant**: its PCB has not been used before. -/
lemma Sound.created {t : Queues} {priority : ℤ} (h : Sound none s) (hbal : Balanced s)
    (hc : Created priority state s t) : Sound none t ∧ Balanced t := by
  set p := s.nextPid with hp
  have hfresh : (s.pcbs p).state = .new := h.state_of_ge le_rfl
  -- the fresh pid neither waits for a mutex nor holds one
  have hwait : (s.pcbs p).blockingMutex = none := by
    by_contra hb
    rcases (h.pcb p).notRunning hb with hstate | hstate <;> rw [hfresh] at hstate <;>
      exact absurd hstate (by decide)
  have hnotIn : ∀ m ∈ s.mutexes, p ∉ m.list := by
    intro m hm hmem
    rcases ((h.mutex m hm).blocked p).1 hmem with hb | hb
    · rw [hwait] at hb
      exact absurd hb (by simp)
    · exact absurd hb (by simp)
  have hnotHolder : ∀ m ∈ s.mutexes, m.currentProcess ≠ some p := by
    intro m hm hcur
    exact (h.mutex m hm).holder p hcur hfresh
  have hprioSame : ∀ m ∈ s.mutexes, ∀ q ∈ m.list, (t.pcbs q).priority = (s.pcbs q).priority := by
    intro m hm q hq
    have hne : q ≠ p := by
      rintro rfl
      exact hnotIn m hm hq
    rw [hc.other q hne]
  have hblock : ∀ q, (t.pcbs q).blockingMutex = (s.pcbs q).blockingMutex := by
    intro q
    by_cases hq : q = p
    · rw [hq, hc.self, hwait]
      rfl
    · rw [hc.other q hq]
  refine ⟨h.congr hc.mutexes (fun q => ?_) hprioSame hblock (fun m hm q hq hlive => ?_),
    fun q => ?_⟩
  · by_cases hq : q = p
    · rw [hq]
      refine ⟨?_, ?_, ?_, fun hb => ?_, fun id hid => ?_, fun _ => ?_, ?_⟩
      · rw [hc.self]
        exact List.pairwise_singleton _ _
      · rw [hc.self]
        rfl
      · rw [hc.self]
        exact hc.bounded
      · rw [hc.self] at hb
        exact absurd rfl hb
      · rw [hc.self] at hid
        exact absurd hid (by simp [createPcb])
      · rw [hc.nextPid]
        omega
      · rw [hc.self]
        exact decide_eq_true_iff
    · refine (h.pcb q).congr (hc.other q hq) ?_ (by rw [hc.nextPid]; omega)
      rw [hc.mutexes]
      exact fun _ => id
  · have hne : q ≠ p := by
      rintro rfl
      exact hnotHolder m hm hq
    rwa [hc.other q hne]
  · rw [owed_congr hc.mutexes hprioSame]
    by_cases hq : q = p
    · have howed : owed s p = [] := by
        rw [owed, List.flatMap_eq_nil_iff]
        intro m hm
        rw [owedBy, if_neg (hnotHolder m hm)]
      rw [hq, hc.self, howed]
      exact .refl _
    · rw [hc.other q hq]
      exact hbal q

end Invariant

/-! ## EXEC -/

section Exec

variable {p : ℕ} {s s' : Queues}

/-- EXEC is the same after a process came to READY. -/
lemma exec_transitionToReady {u v : Queues} (h : u.transitionToReady p = some v) :
    v.exec = u.exec := by
  rw [(transitionToReady_spec h).1]

/-- A change that leaves EXEC and the priorities leaves what `transition_take_exec` makes of EXEC. -/
lemma exec_transitionTakeExec_congr {u v : Queues} (hexec : v.exec = u.exec)
    (hprio : ∀ q, (v.pcbs q).priority = (u.pcbs q).priority) (p : ℕ) :
    (v.transitionTakeExec p).exec = (u.transitionTakeExec p).exec := by
  unfold transitionTakeExec
  simp only [hexec]
  split
  · simp only [updateLowestExecPriority, hprio]
  · rfl

/-- The state field is changed before the process is taken out of EXEC. -/
lemma exec_setState_transitionTakeExec (p : ℕ) (state : ProcessState) (s : Queues) :
    ((s.setState p state).transitionTakeExec p).exec = (s.transitionTakeExec p).exec :=
  exec_transitionTakeExec_congr (u := s) (v := s.setState p state) rfl
    (moved_setState p state s).priority p

/-- EXEC loses the process or nothing. -/
lemma exec_transitionExecReady (h : s.transitionExecReady p = some s') :
    s'.exec = s.exec ∨ s'.exec = (s.transitionTakeExec p).exec := by
  unfold transitionExecReady at h
  split at h
  · right
    rw [exec_transitionToReady h]
    exact exec_setState_transitionTakeExec p .ready s
  · obtain rfl := Option.some.inj h
    exact .inl rfl

/-- So it does here. -/
lemma exec_transitionExecBlock (p : ℕ) (s : Queues) :
    (s.transitionExecBlock p).exec = s.exec ∨
      (s.transitionExecBlock p).exec = (s.transitionTakeExec p).exec := by
  unfold transitionExecBlock
  split
  · exact .inr (exec_setState_transitionTakeExec p .block s)
  · exact .inl rfl

/-- EXEC loses a process that ends. -/
lemma exec_transitionExecExit (h : (s.pcbs p).state = .exec) :
    (s.transitionExecExit p).exec = (s.transitionTakeExec p).exec := by
  rw [transitionExecExit, if_pos h]
  exact exec_setState_transitionTakeExec p .exit s

/-- EXEC is the same after an unlock. -/
lemma exec_transitionUnlock (h : s.transitionUnlock p = some s') : s'.exec = s.exec := by
  unfold transitionUnlock at h
  split at h
  · rw [exec_transitionToReady h]
    rfl
  · split at h
    · obtain rfl := Option.some.inj h
      rfl
    · obtain rfl := Option.some.inj h
      rfl

/-- EXEC is the same after a suspension. -/
lemma exec_transitionBlockSuspBlock (p : ℕ) (suspended : Bool) (s : Queues) :
    (s.transitionBlockSuspBlock p suspended).exec = s.exec := by
  unfold transitionBlockSuspBlock
  split <;> rfl

/-- EXEC is the same after a resumption. -/
lemma exec_transitionSuspReady {resumed : Bool} (h : s.transitionSuspReady p resumed = some s') :
    s'.exec = s.exec := by
  unfold transitionSuspReady at h
  split at h
  · rw [exec_transitionToReady h]
    rfl
  · obtain rfl := Option.some.inj h
    rfl

/-- EXEC is the same after a creation. -/
lemma exec_transitionNewReady {priority : ℤ} {accepted : Bool}
    (h : s.transitionNewReady priority accepted = some s') : s'.exec = s.exec := by
  unfold transitionNewReady at h
  split at h
  · simp only at h
    split at h
    · rw [exec_transitionToReady h]
      rfl
    · obtain rfl := Option.some.inj h
      rfl
  · exact absurd h (by simp)

/-- The process enters EXEC with its old priority. -/
lemma exec_readyExec (p : ℕ) (s : Queues) :
    ((s.transitionReadyExec p).transitionToExec p).exec = (s.transitionToExec p).exec := by
  unfold transitionReadyExec
  split
  · simp only [transitionToExec, (moved_setState p .exec s).priority]
    rfl
  · rfl

end Exec

end OsSimulator.Scheduler
