import OsSimulator.Scheduler.PriorityInheritance

set_option relaxedAutoImplicit false
set_option autoImplicit false

/-!
# Every live process has a level

The subqueue for a priority is found by indexing an array. A process is only accepted with a
priority that has a subqueue, and inherited priorities are those of other live processes, so the
index is always in range.

## Main definitions

* `ReadyQueue.HasLevel` — the queue has a subqueue for a priority.
* `Levelled` — it has one for every live process.

## Main results

* `levelled_of_reachable` — this holds in every reachable state.
-/

namespace OsSimulator.Scheduler

open Queues

/-- There is a subqueue for the priority. -/
def ReadyQueue.HasLevel (ready : ReadyQueue) (priority : ℤ) : Prop :=
  0 ≤ ready.level priority ∧ ready.level priority < ready.queues.length

namespace ReadyQueue

variable {ready ready' : ReadyQueue} {p : ℕ} {priority : ℤ}

/-- The number of levels decides. -/
lemma HasLevel.congr (h : ready.HasLevel priority) (hlevels : ready'.levels = ready.levels) :
    ready'.HasLevel priority := by
  obtain ⟨hmultilevel, hlength⟩ := Prod.mk.inj hlevels
  rw [HasLevel, level, hmultilevel, hlength]
  exact h

/-- An addition that returns had a subqueue. -/
lemma hasLevel_of_add (h : ready.add p priority = some ready') : ready.HasLevel priority := by
  obtain ⟨queues, hqueues, rfl⟩ := Option.map_eq_some_iff.1 h
  exact (length_modifyAt hqueues).2

/-- An addition with a subqueue returns. -/
lemma HasLevel.exists_add (h : ready.HasLevel priority) (p : ℕ) :
    ∃ ready', ready.add p priority = some ready' := by
  have hbound : 0 ≤ ready.level priority ∧ ready.level priority < ready.queues.length := h
  unfold add modifyAt
  rw [if_pos hbound]
  exact ⟨_, rfl⟩

end ReadyQueue

/-- The live processes have a level, with their priority and with their base priority. -/
structure Levelled (s : Queues) : Prop where
  priority : ∀ p, (s.pcbs p).state.Live → s.ready.HasLevel (s.pcbs p).priority
  base : ∀ p, (s.pcbs p).state.Live → s.ready.HasLevel (s.pcbs p).basePriority

variable {p : ℕ} {state : ProcessState} {s s' : Queues}

/-- What is live keeps its level when its priority is the same or has one. -/
lemma Levelled.congr (h : Levelled s) (hlevels : s'.ready.levels = s.ready.levels)
    (hlive : ∀ q, (s'.pcbs q).state.Live → (s.pcbs q).state.Live)
    (hprio : ∀ q, (s.pcbs q).state.Live →
      (s'.pcbs q).priority = (s.pcbs q).priority ∨ s.ready.HasLevel (s'.pcbs q).priority)
    (hbase : ∀ q, (s'.pcbs q).basePriority = (s.pcbs q).basePriority) : Levelled s' where
  priority q hq := by
    rcases hprio q (hlive q hq) with heq | hlevel
    · rw [heq]
      exact (h.priority q (hlive q hq)).congr hlevels
    · exact hlevel.congr hlevels
  base q hq := by
    rw [hbase]
    exact (h.base q (hlive q hq)).congr hlevels

/-- A move of a living process keeps the invariant. -/
lemma Levelled.moved (h : Levelled s) (hm : Moved p state s s') (hfrom : (s.pcbs p).state.Live)
    (hlevels : s'.ready.levels = s.ready.levels) : Levelled s' := by
  refine h.congr hlevels (fun q hq => ?_) (fun q _ => .inl (hm.priority q)) fun q => ?_
  · by_cases heq : q = p
    · rwa [heq]
    · rwa [hm.other q heq] at hq
  · by_cases heq : q = p
    · rw [heq, hm.self]
    · rw [hm.other q heq]

/-- The READY to EXEC step. -/
lemma Levelled.readyExec (h : Levelled s) (p : ℕ) :
    Levelled ((s.transitionReadyExec p).transitionToExec p) := by
  obtain ⟨hready, ⟨hstate, hmoved⟩ | ⟨-, hpcbs, -⟩⟩ := readyExec_spec p s
  · exact h.moved hmoved (by rw [hstate]; exact ⟨by decide, by decide⟩) (by rw [hready])
  · exact h.congr (by rw [hready]) (fun q => by rw [hpcbs]; exact fun hq => hq)
      (fun q _ => .inl (by rw [hpcbs])) fun q => by rw [hpcbs]

/-- `transition_exec_ready`. -/
lemma Levelled.execReady (h : Levelled s) (hrun : s.transitionExecReady p = some s') :
    Levelled s' := by
  rcases transitionExecReady_spec hrun with rfl | ⟨hstate, hmoved, hadd⟩
  · exact h
  · exact h.moved hmoved (by rw [hstate]; exact ⟨by decide, by decide⟩) (ReadyQueue.levels_add hadd)

/-- Another READY queue with the same configuration. -/
lemma Levelled.withReady (h : Levelled s) {ready : ReadyQueue}
    (hlevels : ready.levels = s.ready.levels) : Levelled { s with ready := ready } :=
  h.congr hlevels (fun _ hq => hq) (fun _ _ => .inl rfl) fun _ => rfl

/-- A new process that is accepted has been put into a subqueue. -/
lemma Levelled.created {priority : ℤ} (h : Levelled s) (hc : Created priority state s s')
    (hlevels : s'.ready.levels = s.ready.levels)
    (hlevel : state.Live → s.ready.HasLevel priority) : Levelled s' := by
  refine ⟨fun q hq => ?_, fun q hq => ?_⟩ <;>
  · by_cases heq : q = s.nextPid
    · rw [heq, hc.self] at hq ⊢
      exact (hlevel hq).congr hlevels
    · rw [hc.other q heq] at hq ⊢
      first
        | exact (h.priority q hq).congr hlevels
        | exact (h.base q hq).congr hlevels

/-- No operation changes the number of levels. -/
lemma levels_step {a : Action} (hi : Inheriting s) (hstep : step s a = some s') :
    s'.ready.levels = s.ready.levels := by
  cases step_cases hi hstep with
  | kept same => rw [same]
  | created priority state created ready =>
    rcases ready with ⟨-, hadd⟩ | ⟨-, hsame⟩
    · exact ReadyQueue.levels_add hadd
    · rw [hsame]
  | moved p target moved source outside live waits ready =>
    rcases ready with ⟨-, hadd⟩ | ⟨-, hsame⟩
    · exact ReadyQueue.levels_add hadd
    · rw [hsame]
  | dispatched p ready take effect =>
    rw [effect, (readyExec_spec p _).1]
    exact ReadyQueue.levels_takeNext take
  | preempted p newPcb ready t take execReady effect =>
    have ht : t.ready.levels = ready.levels := by
      rcases transitionExecReady_spec execReady with rfl | ⟨-, -, hadd⟩
      · rfl
      · exact ReadyQueue.levels_add hadd
    rw [effect, (readyExec_spec newPcb t).1, ht]
    exact ReadyQueue.levels_takeNext take
  | ended p call running ended => rw [ended.ready]
  | mutexCreated id effect =>
    rw [effect, (createAndAddMutex_spec hi.sound hi.balanced id).2.2.2.1]
  | locked m p r call mem running run =>
    exact (mutexLock_spec hi.sound hi.balanced mem running run).2.2.levels
  | unlocked m p r call mem running run =>
    exact (mutexUnlock_spec hi.sound hi.balanced mem running run).2.2.levels

/-- **Every step keeps a level for every live process.** -/
lemma levelled_step {a : Action} (hi : Inheriting s) (h : Levelled s)
    (hstep : step s a = some s') : Levelled s' := by
  have hi' := inheriting_step hi hstep
  have hlevels := levels_step hi hstep
  cases step_cases hi hstep with
  | kept same => rwa [same]
  | created priority state created ready =>
    refine h.created created hlevels fun hlive => ?_
    rcases ready with ⟨-, hadd⟩ | ⟨hexit, -⟩
    · exact ReadyQueue.hasLevel_of_add hadd
    · exact absurd hexit hlive.2
  | moved p target moved source => exact h.moved moved source hlevels
  | dispatched p ready take effect =>
    rw [effect]
    exact (h.withReady (ReadyQueue.levels_takeNext take)).readyExec p
  | preempted p newPcb ready t take execReady effect =>
    rw [effect]
    exact ((h.withReady (ReadyQueue.levels_takeNext take)).execReady execReady).readyExec newPcb
  | ended p call running ended =>
    refine h.congr hlevels (fun q hq => ?_) (fun q _ => .inl ?_) fun q => ?_
    · by_cases heq : q = p
      · rw [heq, running]
        exact ⟨by decide, by decide⟩
      · rwa [ended.other q heq] at hq
    · by_cases heq : q = p
      · rw [heq, ended.self]
      · rw [ended.other q heq]
    · by_cases heq : q = p
      · rw [heq, ended.self]
      · rw [ended.other q heq]
  | mutexCreated id effect =>
    obtain ⟨-, -, hpcbs, -⟩ := createAndAddMutex_spec hi.sound hi.balanced id
    rw [← effect] at hpcbs
    exact h.congr hlevels (fun q => by rw [hpcbs]; exact fun hq => hq)
      (fun q _ => .inl (by rw [hpcbs])) fun q => by rw [hpcbs]
  | locked m p r call mem running run =>
    have hlive : (s.pcbs p).state.Live := by
      rw [running]
      exact ⟨by decide, by decide⟩
    obtain ⟨-, -, heffect⟩ := mutexLock_spec hi.sound hi.balanced mem running run
    refine h.congr hlevels (fun q hq => ?_) (fun q _ => ?_) heffect.base
    · rcases heffect.state q with heq | ⟨rfl, -⟩
      · rwa [heq] at hq
      · exact hlive
    · -- a priority that changes becomes that of the caller
      refine (heffect.priority q).imp_right fun hchanged => ?_
      rw [hchanged.1]
      exact h.priority p hlive
  | unlocked m p r call mem running run =>
    obtain ⟨-, -, heffect⟩ := mutexUnlock_spec hi.sound hi.balanced mem running run
    refine h.congr hlevels (fun q => (heffect.live q).1) (fun q hlive => ?_) heffect.base
    by_cases hq : q = p
    · right
      have hunblocked := unblocked_of_exec hi'.sound (heffect.running.trans running)
      rcases priority_cases hi' q with heq | ⟨m', hm', -, waiting, hwaiting, heq⟩
      · rw [heq, heffect.base]
        exact h.base q hlive
      · -- the best waiting process of another mutex, whose priority has not changed
        have hne : waiting ≠ p := by
          rintro rfl
          exact not_mem_of_unblocked hi'.sound hunblocked hm' hwaiting
        have hwaitingLive := (heffect.live waiting).1 (live_of_mem hi' hm' hwaiting)
        rw [← heq, heffect.priority waiting hne]
        exact h.priority waiting hwaitingLive
    · exact .inl (heffect.priority q hq)

/-- **The run lemma**: every live process has a level. -/
theorem levelled_of_reachable {multilevel : Bool} {algorithms : List SchedulingAlgorithm}
    {preemption : Bool} (h : Reachable step (initQueues multilevel algorithms preemption) s) :
    Levelled s := by
  have hboth : Inheriting s ∧ Levelled s := by
    have hinit : Levelled (initQueues multilevel algorithms preemption) :=
      ⟨fun q hq => absurd rfl hq.1, fun q hq => absurd rfl hq.1⟩
    refine h.invariant (I := fun t => Inheriting t ∧ Levelled t) ?_ ?_
    · exact ⟨inheriting_init multilevel algorithms preemption, hinit⟩
    · intro t a t' ht _ hstep
      exact ⟨inheriting_step ht.1 hstep, levelled_step ht.1 ht.2 hstep⟩
  exact hboth.2

end OsSimulator.Scheduler
