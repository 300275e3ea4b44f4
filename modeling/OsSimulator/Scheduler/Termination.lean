import OsSimulator.Scheduler.Levels

set_option relaxedAutoImplicit false
set_option autoImplicit false

/-!
# Mutexes and the end of processes

`transition_exec_exit` destroys the PCB and does not look at the mutexes. As long as no process
ends while it holds one, no mutex refers to a destroyed PCB, and a mutex that somebody waits for
has a live holder whose unlock succeeds. A process that ends with a mutex leaves a dangling holder.

## Main definitions

* `MutexesLive` — what the mutexes are meant to satisfy.
* `EndsWithoutMutex` — the condition on a step.

## Main results

* `mutexesLive_of_run` — the mutexes are right along every run whose steps meet the condition.
* `mutexesLive_fails` — a process locks a mutex and executes `EXIT`.
-/

namespace OsSimulator.Scheduler

open Queues

/-- **No mutex refers to a dead process**: holders and waiting processes are live and their PCBs
are not destroyed, and a mutex that somebody waits for has a holder whose unlock succeeds. -/
structure MutexesLive (s : Queues) : Prop where
  holder : ∀ m ∈ s.mutexes, ∀ p, m.currentProcess = some p →
    (s.pcbs p).state.Live ∧ (s.pcbs p).destroyed = false
  waiting : ∀ m ∈ s.mutexes, ∀ q ∈ m.list, (s.pcbs q).state.Live ∧ (s.pcbs q).destroyed = false
  served : ∀ m ∈ s.mutexes, m.list ≠ [] → ∃ p s', m.currentProcess = some p ∧
    s.listMutexUnlock m.id p = some (.mutexUnlocked, s')

/-- A process that ends holds no mutex. -/
def EndsWithoutMutex (s : Queues) (a : Action) : Prop :=
  ∀ p, a = .execExit p → (s.pcbs p).state = .exec → ∀ id, ¬ Holds s p id

/-- Every holder is live. -/
def HoldersLive (s : Queues) : Prop := ∀ q id, Holds s q id → (s.pcbs q).state.Live

variable {p : ℕ} {state : ProcessState} {s s' : Queues} {m : Mutex}

/-! ## The holders -/

/-- The holders stay alive over a move to a list of living processes. -/
lemma HoldersLive.moved (h : HoldersLive s) (hm : Moved p state s s') (hto : state.Live) :
    HoldersLive s' := by
  intro q id hq
  by_cases heq : q = p
  · rw [heq, hm.self]
    exact hto
  · rw [hm.other q heq]
    refine h q id ?_
    rwa [Holds, hm.mutexes] at hq

/-- Only PCBs and mutexes count. -/
lemma HoldersLive.of_eq (h : HoldersLive s) (hpcbs : s'.pcbs = s.pcbs)
    (hmutexes : s'.mutexes = s.mutexes) : HoldersLive s' := by
  intro q id hq
  rw [hpcbs]
  rw [Holds, hmutexes] at hq
  exact h q id hq

/-- They stay alive when a process is dispatched. -/
lemma HoldersLive.readyExec (h : HoldersLive s) (p : ℕ) :
    HoldersLive ((s.transitionReadyExec p).transitionToExec p) := by
  rcases (readyExec_spec p s).2 with ⟨-, hmoved⟩ | ⟨-, hpcbs, hmutexes, -⟩
  · exact h.moved hmoved ⟨by decide, by decide⟩
  · exact h.of_eq hpcbs hmutexes

/-- When one goes back to READY. -/
lemma HoldersLive.execReady (h : HoldersLive s) (hrun : s.transitionExecReady p = some s') :
    HoldersLive s' := by
  rcases transitionExecReady_spec hrun with rfl | ⟨-, hmoved, -⟩
  · exact h
  · exact h.moved hmoved ⟨by decide, by decide⟩

/-- A new process holds nothing. -/
lemma HoldersLive.created {priority : ℤ} (h : HoldersLive s) (hi : Inheriting s)
    (hc : Created priority state s s') : HoldersLive s' := by
  intro q id hq
  rw [Holds, hc.mutexes] at hq
  have hlive := h q id hq
  rw [hc.other q ?_]
  · exact hlive
  · rintro rfl
    exact hlive.1 (hi.sound.state_of_ge le_rfl)

/-- **Every step that meets the condition keeps the holders live.**

**Proof sketch.** Only the end of a process makes it dead. A lock makes the caller a holder, which
runs, and an unlock makes a waiting process one. -/
lemma holdersLive_step {a : Action} (hi : Inheriting s) (h : HoldersLive s)
    (hok : EndsWithoutMutex s a) (hstep : step s a = some s') : HoldersLive s' := by
  cases step_cases hi hstep with
  | kept same => rwa [same]
  | created priority state created => exact h.created hi created
  | moved p target moved source outside live => exact h.moved moved live
  | dispatched p ready take effect =>
    have hready : HoldersLive { s with ready := ready } := h.of_eq rfl rfl
    rw [effect]
    exact hready.readyExec p
  | preempted p newPcb ready t take execReady effect =>
    have hready : HoldersLive { s with ready := ready } := h.of_eq rfl rfl
    rw [effect]
    exact (hready.execReady execReady).readyExec newPcb
  | ended p call running ended =>
    intro q id hq
    rw [Holds, ended.mutexes] at hq
    have hne : q ≠ p := by
      rintro rfl
      exact hok q call running id hq
    rw [ended.other q hne]
    exact h q id hq
  | mutexCreated id effect =>
    obtain ⟨-, -, hpcbs, -, hholds⟩ := createAndAddMutex_spec hi.sound hi.balanced id
    intro q id' hq
    rw [effect] at hq ⊢
    rw [hpcbs]
    exact h q id' (hholds q id' hq)
  | locked m p r call mem running run =>
    obtain ⟨-, -, heffect⟩ := mutexLock_spec hi.sound hi.balanced mem running run
    intro q id hq
    have hlive : (s.pcbs q).state.Live := by
      rcases heffect.holders q id hq with hheld | rfl
      · exact h q id hheld
      · rw [running]
        exact ⟨by decide, by decide⟩
    rcases heffect.state q with heq | ⟨-, hblock⟩
    · rwa [heq]
    · rw [hblock]
      exact ⟨by decide, by decide⟩
  | unlocked m p r call mem running run =>
    obtain ⟨-, -, heffect⟩ := mutexUnlock_spec hi.sound hi.balanced mem running run
    intro q id' hq
    rcases heffect.holders q id' hq with hheld | hlive
    · exact (heffect.live q).2 (h q id' hheld)
    · exact hlive

/-! ## The unlock of the holder succeeds -/

/-- An entry that is not worse than the base priority has a level: it is the base priority or the
priority of a waiting process. -/
lemma hasLevel_of_entry (hi : Inheriting s) (hl : Levelled s) (hlive : (s.pcbs p).state.Live)
    {x : ℤ} (hx : x ∈ (s.pcbs p).basePriority :: owed s p)
    (hle : x ≤ (s.pcbs p).basePriority) : s.ready.HasLevel x := by
  rcases List.mem_cons.1 hx with rfl | howed
  · exact hl.base p hlive
  obtain ⟨m, hm, hentry⟩ := List.mem_flatMap.1 howed
  rw [owedBy] at hentry
  split at hentry
  · have heq := List.mem_singleton.1 hentry
    rw [nextOf] at heq
    cases hlist : m.list with
    | nil =>
      rw [hlist] at heq
      have hbound := (hi.sound.pcb p).bounded
      have hbase : x = (s.pcbs p).basePriority := le_antisymm hle (hbound.trans heq.ge)
      rw [hbase]
      exact hl.base p hlive
    | cons first rest =>
      rw [hlist] at heq
      have hfirst : first ∈ m.list := hlist ▸ List.mem_cons_self
      rw [heq]
      exact hl.priority first (live_of_mem hi hm hfirst)
  · exact absurd hentry (by simp)

/-- A process that goes to READY finds its level. -/
lemma exists_transitionToReady {t : Queues} (hlevel : s.ready.HasLevel (s.pcbs p).priority)
    (hready : t.ready = s.ready) (hpcbs : (t.pcbs p).priority = (s.pcbs p).priority) :
    ∃ s', t.transitionToReady p = some s' := by
  obtain ⟨ready, hadd⟩ := hlevel.exists_add p
  rw [transitionToReady, hready, hpcbs, hadd, Option.map_some]
  exact ⟨_, rfl⟩

/-- A state that changes leaves the priority. -/
lemma priority_setState (p : ℕ) (state : ProcessState) (s : Queues) :
    ((s.setState p state).pcbs p).priority = (s.pcbs p).priority :=
  (moved_setState p state s).priority p

/-- `transition_unlock` returns when a blocked process has a level. -/
lemma exists_transitionUnlock
    (hlevel : (s.pcbs p).state = .block → s.ready.HasLevel (s.pcbs p).priority) :
    ∃ s', s.transitionUnlock p = some s' := by
  unfold transitionUnlock
  split
  · rename_i hblock
    exact exists_transitionToReady (hlevel hblock) rfl (priority_setState p .ready s)
  · split
    · exact ⟨_, rfl⟩
    · exact ⟨_, rfl⟩

/-- The hand-over returns when the processes concerned have a level. -/
lemma exists_handOver {next : ℕ} {rest : List ℕ} (hcount : m.state = -1 ↔ rest = [])
    (hmax : (s.pcbs next).priority ≤ INT_MAX) (hlevel : s.ready.HasLevel (s.pcbs next).priority)
    (hrest : ∀ q ∈ rest, s.ready.HasLevel (s.pcbs q).priority) :
    ∃ s', s.handOver m next rest = some s' := by
  set t := (s.modifyMutex m.id fun m => { m with currentProcess := some next, list := rest }
    ).setMutexBlocking next none with ht
  have hprio : ∀ q, (t.pcbs q).priority = (s.pcbs q).priority := by
    intro q
    by_cases hq : q = next
    · simp [ht, hq, setMutexBlocking]
    · simp [ht, setMutexBlocking, hq]
  have hunlock : ∀ n : ℤ, s.ready.HasLevel n ∨ (t.pcbs next).priority ≤ n →
      ∃ s', ((t.modifyMutex m.id fun m => { m with nextPriority := n }).insertPriority next n
        ).transitionUnlock next = some s' := by
    intro n hn
    refine exists_transitionUnlock fun _ => ?_
    have hself : (((t.modifyMutex m.id fun m => { m with nextPriority := n }).insertPriority next
        n).pcbs next).priority = if n < (t.pcbs next).priority then n else (t.pcbs next).priority := by
      rw [insertPriority, modifyPcb_pcbs_self]
      rfl
    rw [hself]
    split
    · rename_i hlt
      exact hn.resolve_right (by omega)
    · rw [hprio]
      exact hlevel
  simp only [handOver]
  rw [← ht]
  split
  · split
    · rw [Option.map_some, Option.bind_some]
      exact hunlock INT_MAX (.inr (by rwa [hprio]))
    · rename_i hne
      cases hlist : rest with
      | nil => exact absurd (hcount.2 hlist) hne
      | cons first others =>
        rw [List.head?_cons, Option.map_some, Option.map_some, Option.bind_some]
        refine hunlock _ (.inl ?_)
        rw [hprio]
        exact hrest first (hlist ▸ List.mem_cons_self)
  · exact exists_transitionUnlock fun _ => by rw [hprio]; exact hlevel

/-- **The unlock of a live holder succeeds.** -/
lemma exists_mutexUnlock (hi : Inheriting s) (hl : Levelled s) (hm : m ∈ s.mutexes)
    (hcur : m.currentProcess = some p) (hlive : (s.pcbs p).state.Live) :
    ∃ s', s.mutexUnlock m p = some (.mutexUnlocked, s') := by
  have hms := hi.sound.mutex m hm
  have hcount := hms.state (by simp)
  rw [hcur, if_neg (by simp)] at hcount
  have hd := dropped_removePriority m p s
  unfold mutexUnlock
  rw [if_neg (not_not.2 hcur)]
  simp only [hms.active, if_true]
  set t := if (s.removePriority p m.nextPriority).1 then
    (s.removePriority p m.nextPriority).2.updateLowestExecPriority
    else (s.removePriority p m.nextPriority).2
  -- without the entry of the mutex, the priority of the holder is still one with a level
  obtain ⟨rest, hrest⟩ := exists_owed_modifyMutex hi.sound hm (f := id)
    (modifyKey_id m.id s.mutexes).symm fun _ _ _ _ _ => rfl
  have hperm := perm_erase_next hi.sound hi.balanced hm hcur (hrest p).1
  have hpcb := hi.sound.pcb p
  have hsorted : ((s.pcbs p).priorityList.erase m.nextPriority).Pairwise (· ≤ ·) :=
    hpcb.sorted.sublist List.erase_sublist
  have hne : (s.pcbs p).priorityList.erase m.nextPriority ≠ [] := by
    intro hnil
    rw [hnil] at hperm
    exact absurd hperm.length_eq (by simp)
  obtain ⟨-, hmem, hmin⟩ := firstPriority_spec hne hsorted
  have hbase : firstPriority ((s.pcbs p).priorityList.erase m.nextPriority) ≤
      (s.pcbs p).basePriority := hmin _ (hperm.mem_iff.2 List.mem_cons_self)
  have hentry : firstPriority ((s.pcbs p).priorityList.erase m.nextPriority) ∈
      (s.pcbs p).basePriority :: owed s p :=
    (hi.balanced p).mem_iff.1 (List.mem_of_mem_erase hmem)
  have hlevel : ∀ q, (s.pcbs q).state.Live →
      t.ready.HasLevel (t.pcbs q).priority ∧ (t.pcbs q).priority ≤ INT_MAX := by
    intro q hq
    rw [hd.ready]
    by_cases heq : q = p
    · rw [heq, hd.self]
      exact ⟨hasLevel_of_entry hi hl hlive hentry hbase, hbase.trans hpcb.bounded⟩
    · rw [hd.other q heq]
      exact ⟨hl.priority q hq, priority_le_max hi.sound hi.balanced q⟩
  have hwaiting : ∀ q ∈ m.list, (s.pcbs q).state.Live := fun q => live_of_mem hi hm
  cases hlist : m.list with
  | nil =>
    have hzero : m.state = 0 := by
      rw [hlist] at hcount
      simpa using hcount
    rw [if_pos hzero]
    exact ⟨_, rfl⟩
  | cons next others =>
    rw [hlist] at hcount hwaiting
    rw [List.length_cons] at hcount
    have hlast : m.state = -1 ↔ others = [] := by
      rw [← List.length_eq_zero_iff]
      omega
    obtain ⟨hnextLevel, hnextMax⟩ := hlevel next (hwaiting next List.mem_cons_self)
    obtain ⟨u, hu⟩ := exists_handOver hlast hnextMax hnextLevel
      fun q hq => (hlevel q (hwaiting q (List.mem_cons_of_mem _ hq))).1
    rw [if_neg (by omega), if_pos (by omega)]
    simp only
    rw [hu]
    exact ⟨_, rfl⟩

/-! ## The runs -/

/-- Live holders are all that the mutexes need. -/
lemma mutexesLive_of_holdersLive (hi : Inheriting s) (hl : Levelled s) (h : HoldersLive s) :
    MutexesLive s := by
  have hkept : ∀ q, (s.pcbs q).state.Live → (s.pcbs q).destroyed = false := by
    intro q hq
    by_contra hgone
    exact hq.2 ((hi.sound.pcb q).gone.1 (by simpa using hgone))
  have hholder : ∀ m ∈ s.mutexes, ∀ p, m.currentProcess = some p → (s.pcbs p).state.Live :=
    fun m hm p hcur => h p m.id (holds_iff.2 ⟨m, hm, rfl, hcur⟩)
  refine ⟨fun m hm p hcur => ?_, fun m hm q hq => ?_, fun m hm hne => ?_⟩
  · exact ⟨hholder m hm p hcur, hkept p (hholder m hm p hcur)⟩
  · exact ⟨live_of_mem hi hm hq, hkept q (live_of_mem hi hm hq)⟩
  · obtain ⟨p, hcur⟩ := Option.ne_none_iff_exists'.1 ((hi.sound.mutex m hm).held hne)
    obtain ⟨s', hrun⟩ := exists_mutexUnlock hi hl hm hcur (hholder m hm p hcur)
    refine ⟨p, s', hcur, ?_⟩
    rw [listMutexUnlock, hi.sound.mutex_eq hm]
    exact hrun

/-- **No mutex refers to a dead process along any run in which no process ends while it holds a
mutex**, whatever ends it and whatever the other steps are. -/
theorem mutexesLive_of_run {multilevel : Bool} {algorithms : List SchedulingAlgorithm}
    {preemption : Bool} {s : Queues}
    (h : Run step EndsWithoutMutex (initQueues multilevel algorithms preemption) s) :
    MutexesLive s := by
  have hboth : Inheriting s ∧ HoldersLive s := by
    refine h.invariant (I := fun t => Inheriting t ∧ HoldersLive t) ?_ ?_
    · refine ⟨inheriting_init multilevel algorithms preemption, fun q id hq => ?_⟩
      simp [Holds, initQueues] at hq
    · intro t a t' ht hok hstep
      exact ⟨inheriting_step ht.1 hstep, holdersLive_step ht.1 ht.2 hok hstep⟩
  exact mutexesLive_of_holdersLive hboth.1 (levelled_of_reachable h.reachable) hboth.2

/-- Two processes and a mutex: the holder hands it over to the other process and then ends. -/
theorem mutexesLive_of_run_handOver :
    ∃ s, Reachable step (initQueues false [.fifo] false) s ∧
      (s.pcbs 0).destroyed = true ∧ s.mutexes.map Mutex.currentProcess = [some 1] ∧
      MutexesLive s := by
  have hrun : (execute step (initQueues false [.fifo] false)
      [.newReady 0 true, .newReady 0 true, .dispatch, .dispatch, .mutexCreate "m" 0,
        .mutexLock "m" 0, .mutexLock "m" 1, .mutexUnlock "m" 0]).map (fun s =>
        (s.mutexes.map fun m => (m.id, m.currentProcess),
          (step s (.execExit 0)).map fun s =>
            ((s.pcbs 0).destroyed, s.mutexes.map Mutex.currentProcess))) =
      some ([("m", some 1)], some (true, [some 1])) := by decide
  obtain ⟨t, ht, heq⟩ := Option.map_eq_some_iff.1 hrun
  obtain ⟨hmutexes, hrest⟩ := Prod.mk.inj heq
  obtain ⟨s, hexit, hend⟩ := Option.map_eq_some_iff.1 hrest
  obtain ⟨hdestroyed, hholders⟩ := Prod.mk.inj hend
  have hbefore : Run step EndsWithoutMutex (initQueues false [.fifo] false) t := by
    refine Run.of_execute_of_forall ht fun a ha u p hends => ?_
    subst hends
    simp at ha
  have hfree : EndsWithoutMutex t (.execExit 0) := by
    intro p hp _ id hholds
    cases hp
    rw [Holds, hmutexes] at hholds
    simp at hholds
  have hwhole := hbefore.tail _ hfree hexit
  exact ⟨s, hwhole.reachable, hdestroyed, hholders, mutexesLive_of_run hwhole⟩

/-- **A process locks a mutex and executes `EXIT`**: the mutex keeps the pointer to its PCB. -/
theorem mutexesLive_fails :
    ∃ s, Reachable step (initQueues false [.fifo] false) s ∧ ¬ MutexesLive s := by
  have hrun : (execute step (initQueues false [.fifo] false)
      [.newReady 0 true, .dispatch, .mutexCreate "m" 0, .mutexLock "m" 0, .execExit 0]).map
      (fun s => ((s.pcbs 0).destroyed, s.mutexes.map Mutex.currentProcess)) =
      some (true, [some 0]) := by decide
  obtain ⟨s, hs, heq⟩ := Option.map_eq_some_iff.1 hrun
  obtain ⟨hdestroyed, hholders⟩ := Prod.mk.inj heq
  refine ⟨s, Run.of_execute hs, fun hlive => ?_⟩
  have hmem : some 0 ∈ s.mutexes.map Mutex.currentProcess := by
    rw [hholders]
    exact List.mem_cons_self
  obtain ⟨m, hm, hcur⟩ := List.mem_map.1 hmem
  have hkept := (hlive.holder m hm 0 hcur).2
  rw [hdestroyed] at hkept
  exact absurd hkept (by decide)

end OsSimulator.Scheduler
