import OsSimulator.Scheduler.Levels

set_option relaxedAutoImplicit false
set_option autoImplicit false

/-!
# The READY queue and inherited priorities

With multilevel queues, the subqueues hold every process in READY once, in the subqueue of its
priority, as long as no process inherits a priority while it is in READY. When one does,
`replace_priority` changes its priority first and `update_priority` then looks for it in the
subqueue of the new priority: the process stays in the old subqueue too, and two CPUs get it.

## Main definitions

* `ReadyExact` — what the READY queue is meant to satisfy.
* `InheritsOutsideReady` — the condition on a step.

## Main results

* `readyExact_of_run` — the queue is right along every run whose steps meet the condition.
* `readyExact_fails` — three levels and two processes on which it is not.
-/

namespace OsSimulator.Scheduler

open Queues ReadyQueue

/-- **The READY queue is right**: a process in READY occurs once in all the subqueues, and there in
the subqueue of its priority; no other process occurs; the count is the number of queued PCBs; the
best level is the first one with a PCB; and a dispatch takes a process in READY to EXEC. -/
structure ReadyExact (s : Queues) : Prop where
  once : ∀ p, (s.pcbs p).state = .ready →
    (s.ready.queues.flatMap ReadySubqueue.queue).count p = 1
  level : ∀ i p, p ∈ levelList s.ready.queues i →
    (s.pcbs p).state = .ready ∧ (s.pcbs p).priority = i
  count : s.ready.readyProcessCount = total s.ready.queues
  highest : s.ready.readyProcessCount ≠ 0 → ∃ i : ℕ, s.ready.highestPriority = i ∧
    levelList s.ready.queues i ≠ [] ∧ ∀ j < i, levelList s.ready.queues j = []
  dispatched : ∀ p s', s.dispatch = some (p, s') →
    (s.pcbs p).state = .ready ∧ (s'.pcbs p).state = .exec

/-- The lock of a mutex does not make the priority of a READY process better: the processes on the
chain of holders are not in READY, or their priority is not worse than that of the caller. -/
def InheritsOutsideReady (s : Queues) (a : Action) : Prop :=
  ∀ id p, a = .mutexLock id p → ∀ h q, Holds s h id → Relation.ReflTransGen (WaitsFor s) h q →
    (s.pcbs q).state = .ready → (s.pcbs q).priority ≤ (s.pcbs p).priority

/-- The READY queue represents the processes in READY. -/
structure ReadyRepresents (s : Queues) : Prop where
  multilevel : s.ready.multilevelQueue = true
  represents : s.ready.Represents (fun q => (s.pcbs q).priority) fun q => (s.pcbs q).state = .ready

variable {p : ℕ} {state : ProcessState} {s s' : Queues}

/-! ## From the representation to the queue -/

/-- The levels of a list of subqueues, one after the other. -/
lemma count_flatMap_queue (queues : List ReadySubqueue) (p i : ℕ)
    (hnodup : (levelList queues i).Nodup) (hmem : p ∈ levelList queues i)
    (hothers : ∀ j, j ≠ i → p ∉ levelList queues j) :
    (queues.flatMap ReadySubqueue.queue).count p = 1 := by
  induction queues generalizing i with
  | nil => exact absurd hmem (by simp [levelList])
  | cons subqueue rest ih =>
    have hzero : levelList (subqueue :: rest) 0 = subqueue.queue := by simp [levelList]
    have hsucc : ∀ j, levelList (subqueue :: rest) (j + 1) = levelList rest j := by
      simp [levelList]
    rw [List.flatMap_cons, List.count_append]
    cases i with
    | zero =>
      rw [hzero] at hnodup hmem
      have hrest : p ∉ rest.flatMap ReadySubqueue.queue := by
        intro h
        obtain ⟨other, hother, hp⟩ := List.mem_flatMap.1 h
        obtain ⟨j, hj⟩ := List.mem_iff_getElem?.1 hother
        refine hothers (j + 1) (by omega) ?_
        rw [hsucc]
        simpa [levelList, hj] using hp
      rw [List.count_eq_one_of_mem hnodup hmem, List.count_eq_zero_of_not_mem hrest]
    | succ i =>
      rw [hsucc] at hnodup hmem
      have hhead : p ∉ subqueue.queue := by
        rw [← hzero]
        exact hothers 0 (by omega)
      have htail := ih i hnodup hmem fun j hj => by
        rw [← hsucc]
        exact hothers (j + 1) (by omega)
      rw [List.count_eq_zero_of_not_mem hhead, htail]

/-- A READY queue that represents the processes in READY is right. -/
lemma readyExact_of_represents (h : ReadyRepresents s) (hlevels : Levelled s) : ReadyExact s := by
  have hrep := h.represents
  have hnonneg : ∀ p, (s.pcbs p).state = .ready → 0 ≤ (s.pcbs p).priority := by
    intro p hp
    have hlevel := (hlevels.priority p (by rw [hp]; exact ⟨by decide, by decide⟩)).1
    rwa [ReadyQueue.level, if_pos h.multilevel] at hlevel
  refine ⟨fun p hp => ?_, fun i p => (hrep.mem i p).1, hrep.count, fun hne => ?_,
    fun p s' hdispatch => ?_⟩
  · have hat : ((s.pcbs p).priority.toNat : ℤ) = (s.pcbs p).priority :=
      Int.toNat_of_nonneg (hnonneg p hp)
    refine count_flatMap_queue _ p (s.pcbs p).priority.toNat (hrep.nodup _)
      ((hrep.mem _ p).2 ⟨hp, hat.symm⟩) fun j hj hmem => hj ?_
    have := ((hrep.mem j p).1 hmem).2
    omega
  · obtain ⟨i, hfirst, hbest⟩ := hrep.highest hne
    obtain ⟨hnonempty, hbefore⟩ := firstNonEmpty_eq_some.1 hfirst
    exact ⟨i, hbest, hnonempty, hbefore⟩
  · obtain ⟨⟨q, ready⟩, htake, heq⟩ := Option.map_eq_some_iff.1 hdispatch
    obtain ⟨rfl, rfl⟩ := Prod.mk.inj heq
    obtain ⟨hready, -⟩ := represents_takeNext hrep h.multilevel htake
    refine ⟨hready, ?_⟩
    rcases (readyExec_spec q { s with ready := ready }).2 with ⟨-, hmoved⟩ | ⟨hne, -⟩
    · rw [hmoved.self]
    · exact absurd hready hne

/-! ## Moves -/

/-- A move that has nothing to do with READY. -/
lemma ReadyRepresents.aside (h : ReadyRepresents s) (hm : Moved p state s s')
    (hfrom : (s.pcbs p).state ≠ .ready) (hto : state ≠ .ready) (hready : s'.ready = s.ready) :
    ReadyRepresents s' := by
  refine ⟨hready ▸ h.multilevel, ?_⟩
  rw [hready]
  refine h.represents.congr (fun q => ?_) fun q _ => hm.priority q
  by_cases hq : q = p
  · rw [hq, hm.self]
    exact ⟨fun heq => absurd heq hto, fun heq => absurd heq hfrom⟩
  · rw [hm.other q hq]

/-- A process that enters READY. -/
lemma ReadyRepresents.enter (h : ReadyRepresents s) (hm : Moved p .ready s s')
    (hfrom : (s.pcbs p).state ≠ .ready)
    (hadd : s.ready.add p (s.pcbs p).priority = some s'.ready) : ReadyRepresents s' := by
  refine ⟨(congrArg Prod.fst (levels_add hadd)).trans h.multilevel, ?_⟩
  refine (represents_add h.represents h.multilevel hfrom hadd).congr (fun q => ?_)
    fun q _ => hm.priority q
  by_cases hq : q = p
  · rw [hq, hm.self]
    simp
  · rw [hm.other q hq]
    simp [hq]

/-- A process taken from READY that enters EXEC, after another one may have come back. -/
lemma ReadyRepresents.leave {newPcb : ℕ} (t : Queues) (hmultilevel : t.ready.multilevelQueue = true)
    (h : t.ready.Represents (fun q => (t.pcbs q).priority)
      fun q => (t.pcbs q).state = .ready ∧ q ≠ newPcb)
    (hstate : (t.pcbs newPcb).state = .ready) :
    ReadyRepresents ((t.transitionReadyExec newPcb).transitionToExec newPcb) := by
  obtain ⟨hready, ⟨-, hmoved⟩ | ⟨hne, -⟩⟩ := readyExec_spec newPcb t
  · refine ⟨by rwa [hready], ?_⟩
    rw [hready]
    refine h.congr (fun q => ?_) fun q _ => hmoved.priority q
    by_cases hq : q = newPcb
    · rw [hq, hmoved.self]
      simp
    · rw [hmoved.other q hq]
      simp [hq]
  · exact absurd hstate hne

/-- `transition_exec_ready`. -/
lemma ReadyRepresents.execReady (h : ReadyRepresents s)
    (hrun : s.transitionExecReady p = some s') : ReadyRepresents s' := by
  rcases transitionExecReady_spec hrun with rfl | ⟨hstate, hmoved, hadd⟩
  · exact h
  · exact h.enter hmoved (by rw [hstate]; decide) hadd

/-- A new process, which enters READY unless it is refused. -/
lemma ReadyRepresents.created {priority : ℤ} (h : ReadyRepresents s) (hi : Inheriting s)
    (hc : Created priority state s s')
    (hready : state = .ready ∧ s.ready.add s.nextPid priority = some s'.ready ∨
      state = .exit ∧ s'.ready = s.ready) : ReadyRepresents s' := by
  have hnew : (s.pcbs s.nextPid).state = .new := hi.sound.state_of_ge le_rfl
  have hprio : ∀ q, (s.pcbs q).state = .ready → (s'.pcbs q).priority = (s.pcbs q).priority := by
    intro q hq
    rw [hc.other q ?_]
    rintro rfl
    rw [hnew] at hq
    exact absurd hq (by decide)
  have hold : s.ready.Represents (fun q => (s'.pcbs q).priority)
      fun q => (s.pcbs q).state = .ready := h.represents.congr (fun _ => Iff.rfl) hprio
  rcases hready with ⟨rfl, hadd⟩ | ⟨rfl, hsame⟩
  · refine ⟨(congrArg Prod.fst (levels_add hadd)).trans h.multilevel, ?_⟩
    have hself : (s'.pcbs s.nextPid).priority = priority := by
      rw [hc.self]
      rfl
    rw [← hself] at hadd
    refine (represents_add hold h.multilevel (by rw [hnew]; decide) hadd).congr (fun q => ?_)
      fun _ _ => rfl
    by_cases hq : q = s.nextPid
    · rw [hq, hc.self]
      simp
    · rw [hc.other q hq]
      simp [hq]
  · refine ⟨hsame ▸ h.multilevel, ?_⟩
    rw [hsame]
    refine hold.congr (fun q => ?_) fun _ _ => rfl
    by_cases hq : q = s.nextPid
    · rw [hq, hc.self, hnew]
      simp
    · rw [hc.other q hq]

/-- A preemption: the preempted process is in READY before the new one has left it. -/
lemma ReadyRepresents.preempted {newPcb : ℕ} {ready : ReadyQueue} {t : Queues}
    (h : ReadyRepresents s) (htake : s.ready.takeNext = some (newPcb, ready))
    (ht : ({ s with ready := ready } : Queues).transitionExecReady p = some t) :
    ReadyRepresents ((t.transitionReadyExec newPcb).transitionToExec newPcb) := by
  obtain ⟨hready, hrest⟩ := represents_takeNext h.represents h.multilevel htake
  have hmultilevel := (congrArg Prod.fst (levels_takeNext htake)).trans h.multilevel
  rcases transitionExecReady_spec ht with rfl | ⟨hstate, hmoved, hadd⟩
  · exact ReadyRepresents.leave { s with ready := ready } hmultilevel hrest hready
  · have hstate' : (s.pcbs p).state = .exec := hstate
    have hne : newPcb ≠ p := by
      rintro rfl
      rw [hstate'] at hready
      exact absurd hready (by decide)
    have hnot : ¬ ((s.pcbs p).state = .ready ∧ p ≠ newPcb) := by
      rw [hstate']
      simp
    refine ReadyRepresents.leave t ((congrArg Prod.fst (levels_add hadd)).trans hmultilevel) ?_ ?_
    · refine (represents_add hrest hmultilevel hnot hadd).congr (fun q => ?_)
        fun q _ => hmoved.priority q
      by_cases hq : q = p
      · rw [hq, hmoved.self]
        simp [hne.symm]
      · rw [hmoved.other q hq]
        simp [hq]
    · rw [hmoved.other newPcb hne]
      exact hready

/-- The end of a process, which was in EXEC. -/
lemma ReadyRepresents.ended (h : ReadyRepresents s) (hended : Ended p s s')
    (hstate : (s.pcbs p).state = .exec) : ReadyRepresents s' := by
  refine ⟨hended.ready ▸ h.multilevel, ?_⟩
  rw [hended.ready]
  refine h.represents.congr (fun q => ?_) fun q hq => ?_
  · by_cases hq : q = p
    · rw [hq, hended.self, hstate]
      simp
    · rw [hended.other q hq]
  · rw [hended.other q ?_]
    rintro rfl
    rw [hstate] at hq
    exact absurd hq (by decide)

/-! ## The steps -/

/-- **Every step that meets the condition keeps the representation.**

**Proof sketch.** A transition adds to the queue or takes from it the one process that it moves.
The priority of a READY process could only change in a `mutex_lock`, whose chain the condition is
about: an unlock changes the priority of its caller, which runs, and of nobody else. -/
lemma readyRepresents_step {a : Action} (hi : Inheriting s) (h : ReadyRepresents s)
    (hok : InheritsOutsideReady s a) (hstep : step s a = some s') : ReadyRepresents s' := by
  cases step_cases hi hstep with
  | kept same => rwa [same]
  | created priority state created ready => exact h.created hi created ready
  | moved p target moved source outside live waits ready =>
    rcases ready with ⟨rfl, hadd⟩ | ⟨hne, hsame⟩
    · exact h.enter moved outside hadd
    · exact h.aside moved outside hne hsame
  | dispatched p ready take effect =>
    obtain ⟨hready, hrest⟩ := represents_takeNext h.represents h.multilevel take
    rw [effect]
    exact ReadyRepresents.leave { s with ready := ready }
      ((congrArg Prod.fst (levels_takeNext take)).trans h.multilevel) hrest hready
  | preempted p newPcb ready t take execReady effect =>
    rw [effect]
    exact h.preempted take execReady
  | ended p call running ended => exact h.ended ended running
  | mutexCreated id effect =>
    obtain ⟨-, -, hpcbs, hready, -⟩ := createAndAddMutex_spec hi.sound hi.balanced id
    rw [← effect] at hpcbs hready
    refine ⟨hready ▸ h.multilevel, ?_⟩
    rw [hready, hpcbs]
    exact h.represents
  | locked m p r call mem running run =>
    obtain ⟨-, -, heffect⟩ := mutexLock_spec hi.sound hi.balanced mem running run
    have hsame : ∀ q, (s.pcbs q).state = .ready →
        (s'.pcbs q).priority = (s.pcbs q).priority := by
      intro q hq
      by_contra hne
      obtain ⟨holder, hholder, hchain⟩ := heffect.chain q hne
      have hle := hok m.id p call holder q (holds_iff.2 ⟨m, mem, rfl, hholder⟩) hchain hq
      have hlt := (heffect.priority q).resolve_left hne
      omega
    refine ⟨heffect.ready hsame ▸ h.multilevel, ?_⟩
    rw [heffect.ready hsame]
    refine h.represents.congr (fun q => ?_) hsame
    rcases heffect.state q with hq | ⟨rfl, hblock⟩
    · rw [hq]
    · rw [hblock, running]
      simp
  | unlocked m p r call mem running run =>
    obtain ⟨-, -, heffect⟩ := mutexUnlock_spec hi.sound hi.balanced mem running run
    have hsame : ∀ q, (s.pcbs q).state = .ready →
        (s'.pcbs q).priority = (s.pcbs q).priority := by
      intro q hq
      refine heffect.priority q ?_
      rintro rfl
      rw [running] at hq
      exact absurd hq (by decide)
    rcases heffect.handed with ⟨hready, hstates⟩ | ⟨next, hfrom, hto, hadd, hothers⟩
    · refine ⟨hready ▸ h.multilevel, ?_⟩
      rw [hready]
      exact h.represents.congr hstates hsame
    · refine ⟨(congrArg Prod.fst (levels_add hadd)).trans h.multilevel, ?_⟩
      have hnext : next ≠ p := by
        rintro rfl
        rw [running] at hfrom
        exact absurd hfrom (by decide)
      refine (represents_add h.represents h.multilevel (by rw [hfrom]; decide) hadd).congr
        (fun q => ?_) fun q hq => ?_
      · by_cases hq : q = next
        · rw [hq, hto]
          simp
        · rw [hothers q hq]
          simp [hq]
      · rcases hq with hq | rfl
        · exact hsame q hq
        · exact heffect.priority q hnext

/-! ## The runs -/

/-- **The READY queue is right along every run in which no process inherits a priority while it is
in READY**, with any number of levels and any other steps. -/
theorem readyExact_of_run {algorithms : List SchedulingAlgorithm} {preemption : Bool} {s : Queues}
    (h : Run step InheritsOutsideReady (initQueues true algorithms preemption) s) :
    ReadyExact s := by
  have hinit : ReadyRepresents (initQueues true algorithms preemption) :=
    ⟨rfl, (represents_init algorithms).congr (fun q => by simp [initQueues, createPcb])
      fun _ _ => rfl⟩
  have hboth : Inheriting s ∧ ReadyRepresents s := by
    refine h.invariant (I := fun t => Inheriting t ∧ ReadyRepresents t) ?_ ?_
    · exact ⟨inheriting_init true algorithms preemption, hinit⟩
    · intro t a t' ht hok hstep
      exact ⟨inheriting_step ht.1 hstep, readyRepresents_step ht.1 ht.2 hok hstep⟩
  exact readyExact_of_represents hboth.2 (levelled_of_reachable h.reachable)

/-- A process of level 2 takes a mutex, and one of level 0 asks for it while the holder is in EXEC:
the holder inherits priority 0, and comes to READY in level 0. -/
theorem readyExact_of_run_inheritedInExec :
    ∃ s, execute step (initQueues true (List.replicate 3 .fifo) false)
        [.newReady 2 true, .dispatch, .mutexCreate "m" 0, .mutexLock "m" 0, .newReady 0 true,
          .dispatch, .mutexLock "m" 1, .execReady 0] = some s ∧
      s.ready.queues.map ReadySubqueue.queue = [[0], [], []] ∧ ReadyExact s := by
  have hrun : ((execute step (initQueues true (List.replicate 3 .fifo) false)
      [.newReady 2 true, .dispatch, .mutexCreate "m" 0]).bind fun t =>
        (execute step t [.mutexLock "m" 0, .newReady 0 true, .dispatch]).bind fun u =>
          (execute step u [.mutexLock "m" 1, .execReady 0]).map fun s =>
            (decide ((t.mutexes.map fun m => (m.id, m.currentProcess)) = [("m", none)] ∧
                (u.mutexes.map fun m => (m.id, m.currentProcess)) = [("m", some 0)] ∧
                (u.pcbs 0).state = .exec ∧ (u.pcbs 0).blockingMutex = none),
              s.ready.queues.map ReadySubqueue.queue)) =
      some (true, [[0], [], []]) := by decide
  obtain ⟨t, ht, hrest⟩ := Option.bind_eq_some_iff.1 hrun
  obtain ⟨u, hu, hrest⟩ := Option.bind_eq_some_iff.1 hrest
  obtain ⟨s, hs, heq⟩ := Option.map_eq_some_iff.1 hrest
  obtain ⟨hstates, hqueues⟩ := Prod.mk.inj heq
  obtain ⟨hfree, hheld, hstate, hblocking⟩ := of_decide_eq_true hstates
  obtain ⟨t', hlock, hu'⟩ := Option.bind_eq_some_iff.1 hu
  obtain ⟨u', hlock', hs'⟩ := Option.bind_eq_some_iff.1 hs
  have hother : ∀ {v w : Queues} {as : List Action}, execute step v as = some w →
      (∀ a ∈ as, ∀ id p, a ≠ .mutexLock id p) → Run step InheritsOutsideReady v w :=
    fun hvw hnot => Run.of_execute_of_forall hvw fun a ha _ id p hlocks =>
      absurd hlocks (hnot a ha id p)
  have hfirst : InheritsOutsideReady t (.mutexLock "m" 0) := by
    intro id p _ h q hholds
    rw [Holds, hfree] at hholds
    simp at hholds
  have hsecond : InheritsOutsideReady u (.mutexLock "m" 1) := by
    intro id p _ h q hholds hchain hready
    rw [Holds, hheld] at hholds
    simp only [List.mem_singleton, Prod.mk.injEq, Option.some.injEq] at hholds
    obtain ⟨-, rfl⟩ := hholds
    -- the holder waits for nothing, so it is the whole chain
    rcases hchain.cases_head with rfl | ⟨r, ⟨id', hwaits, -⟩, -⟩
    · rw [hstate] at hready
      exact absurd hready (by decide)
    · rw [hblocking] at hwaits
      exact absurd hwaits (by simp)
  have hbefore := (hother ht (by simp)).tail _ hfirst hlock
  have hbetween := (hbefore.trans (hother hu' (by simp))).tail _ hsecond hlock'
  refine ⟨s, ?_, hqueues, readyExact_of_run (hbetween.trans (hother hs' (by simp)))⟩
  rw [show ([.newReady 2 true, .dispatch, .mutexCreate "m" 0, .mutexLock "m" 0, .newReady 0 true,
      .dispatch, .mutexLock "m" 1, .execReady 0] : List Action) =
    [.newReady 2 true, .dispatch, .mutexCreate "m" 0] ++
      ([.mutexLock "m" 0, .newReady 0 true, .dispatch] ++ [.mutexLock "m" 1, .execReady 0]) from rfl,
    execute_append, ht, Option.bind_some, execute_append, hu, Option.bind_some, hs]

/-- **Three levels and two processes.** The process of level 2 takes a mutex and goes back to READY,
and one of level 0 asks for it: the holder inherits priority 0, and is then queued at both
levels. -/
theorem readyExact_fails :
    ∃ s, Reachable step (initQueues true (List.replicate 3 .fifo) false) s ∧ ¬ ReadyExact s := by
  have hrun : (execute step (initQueues true (List.replicate 3 .fifo) false)
      [.newReady 2 true, .dispatch, .mutexCreate "m" 0, .mutexLock "m" 0, .newReady 0 true,
        .execReady 0, .dispatch, .mutexLock "m" 1]).map (fun s =>
        ((s.pcbs 0).state, s.ready.queues.map ReadySubqueue.queue)) =
      some (.ready, [[0], [], [0]]) := by decide
  obtain ⟨s, hs, heq⟩ := Option.map_eq_some_iff.1 hrun
  obtain ⟨hstate, hqueues⟩ := Prod.mk.inj heq
  refine ⟨s, Run.of_execute hs, fun hexact => ?_⟩
  have honce := hexact.once 0 hstate
  rw [List.flatMap_def, hqueues] at honce
  exact absurd honce (by decide)

end OsSimulator.Scheduler
