import OsSimulator.Scheduler.ReadyEffect

set_option relaxedAutoImplicit false
set_option autoImplicit false

/-!
# Who goes first after a compaction

While `preempt_all` is set no CPU takes a process from READY, and `manage_queue_blocked` puts the
processes of EXEC back into READY. It does so with `transition_exec_ready`, which appends. This file
follows the READY queue from the moment a compaction blocks it.

## Main definitions

* `CompactionWindow`, `windowStep` — the scheduler with who was in READY when the queue was blocked
  and who has been preempted since.
* `GoFirst` — in no list of a level does one of the former stand in front of one of the latter.
* `JoinsInFront` — the condition on a step.

## Main results

* `goFirst_of_run` — the preempted processes go first along the runs whose steps meet the condition,
  and it is exact.
-/

namespace OsSimulator.Scheduler

open Queues ReadyQueue

/-- The scheduler from the moment a compaction blocks READY, until it is unblocked (`current`) and
on. `before` are the processes that were in READY then and have not been dispatched, `preempted`
those that `manage_queue_blocked` has put into READY and that have not been dispatched; `overtaken`
says that one of the former was dispatched while one of the latter was in the same list. -/
structure CompactionWindow where
  queues : Queues
  blocked : Bool
  current : Bool
  before : List ℕ
  preempted : List ℕ
  overtaken : Bool

/-- What happens: an operation of the scheduler, `manage_queue_blocked` on a CPU that runs a
process, and the two functions that set `preempt_all`. -/
inductive WindowEvent
  | action (a : Action)
  | queueBlocked (p : ℕ)
  | lockQueueReady
  | unlockQueueReady
  deriving DecidableEq, Repr

/-- `lock_queue_ready` at the beginning of a compaction. -/
def compactionStart (s : Queues) : CompactionWindow where
  queues := s
  blocked := true
  current := true
  before := (s.ready.queues.flatMap ReadySubqueue.queue).filter fun p =>
    (s.pcbs p).state = .ready
  preempted := []
  overtaken := false

namespace CompactionWindow

/-- The dispatch of the process overtakes a preempted one of the same list. -/
def overtakes (t : CompactionWindow) (p : ℕ) : Bool :=
  match firstNonEmpty t.queues.ready.queues with
  | none => false
  | some i => decide (p ∈ t.before ∧ ∃ q ∈ t.preempted, q ∈ t.queues.readyList i)

/-- An operation with the process it takes to EXEC. -/
def afterAction (t : CompactionWindow) (queues : Queues) : Option ℕ → CompactionWindow
  | none => { t with queues := queues }
  | some p => { t with
      queues := queues
      before := t.before.filter (· ≠ p)
      preempted := t.preempted.filter (· ≠ p)
      overtaken := t.overtaken || t.overtakes p }

/-- One step. `transition_take_ready_blocking` waits as long as READY is blocked. -/
def windowStep (t : CompactionWindow) : WindowEvent → Option CompactionWindow
  | .action a =>
    if a = .dispatch ∧ t.blocked then none
    else (step t.queues a).map fun queues => t.afterAction queues (dispatched t.queues a)
  | .queueBlocked p =>
    if t.blocked then
      (t.queues.transitionExecReady p).map fun queues => { t with
        queues := queues
        preempted :=
          if t.current ∧ (t.queues.pcbs p).state = .exec then p :: t.preempted else t.preempted }
    else none
  | .lockQueueReady => some { t with blocked := true }
  | .unlockQueueReady => some { t with blocked := false, current := false }

/-- **The preempted processes go first**: no process that was in READY before stands in front of one
of them. -/
def GoFirst (t : CompactionWindow) : Prop :=
  ∀ i, (t.queues.readyList i).Pairwise fun a b => ¬ (a ∈ t.before ∧ b ∈ t.preempted)

/-- The index of the list for a priority. -/
def levelOf (t : CompactionWindow) (priority : ℤ) : ℕ := (t.queues.ready.level priority).toNat

/-- **The condition on a step.** A process that `manage_queue_blocked` preempts finds none of the
former processes in its list, and an entry that it has left in READY is not behind one. A preempted
process that inherits a priority in READY finds none in the list it goes to. -/
def JoinsInFront (t : CompactionWindow) : WindowEvent → Prop
  | .queueBlocked p => t.current = true → (t.queues.pcbs p).state = .exec →
      (∀ b ∈ t.queues.readyList (t.levelOf (t.queues.pcbs p).priority), b ∉ t.before) ∧
        ∀ i, (t.queues.readyList i).Pairwise fun a b => ¬ (a ∈ t.before ∧ b = p)
  | .action (.mutexLock id p) => t.queues.ready.multilevelQueue = true →
      ∀ m, t.queues.mutex id = some m → ∀ q ∈ t.preempted, Raised m p t.queues q →
        ∀ b ∈ t.queues.readyList (t.levelOf (t.queues.pcbs p).priority), b ∉ t.before
  | _ => True

/-- What holds along every run: the processes of the two lists are in READY, and none is in both. -/
structure WellFormed (t : CompactionWindow) : Prop where
  inheriting : Inheriting t.queues
  before : ∀ q ∈ t.before, (t.queues.pcbs q).state = .ready
  preempted : ∀ q ∈ t.preempted, (t.queues.pcbs q).state = .ready
  disjoint : ∀ q ∈ t.before, q ∉ t.preempted

variable {t t' : CompactionWindow} {p : ℕ}

/-! ## An operation -/

section Operation

variable {queues : Queues} {d : Option ℕ}

/-- The list without one process. -/
lemma mem_filter_ne {l : List ℕ} {q : ℕ} : q ∈ l.filter (· ≠ p) ↔ q ∈ l ∧ q ≠ p := by
  simp

/-- Who leaves READY leaves the two lists. -/
lemma WellFormed.afterAction (h : t.WellFormed) (hi : Inheriting queues)
    (hstate : ∀ q, d ≠ some q → (t.queues.pcbs q).state = .ready →
      (queues.pcbs q).state = .ready) : (t.afterAction queues d).WellFormed := by
  cases d with
  | none =>
    exact ⟨hi, fun q hq => hstate q (by simp) (h.before q hq),
      fun q hq => hstate q (by simp) (h.preempted q hq), h.disjoint⟩
  | some p =>
    refine ⟨hi, fun q hq => ?_, fun q hq => ?_, fun q hq hq' => ?_⟩
    · obtain ⟨hmem, hne⟩ := mem_filter_ne.1 hq
      exact hstate q (by simpa using hne.symm) (h.before q hmem)
    · obtain ⟨hmem, hne⟩ := mem_filter_ne.1 hq
      exact hstate q (by simpa using hne.symm) (h.preempted q hmem)
    · exact h.disjoint q (mem_filter_ne.1 hq).1 (mem_filter_ne.1 hq').1

/-- Who leaves the two lists is nobody's obstacle. -/
lemma pairwise_afterAction {l : List ℕ}
    (h : l.Pairwise fun a b => ¬ (a ∈ t.before ∧ b ∈ t.preempted)) :
    l.Pairwise fun a b => ¬ (a ∈ (t.afterAction queues d).before ∧
      b ∈ (t.afterAction queues d).preempted) := by
  refine h.imp fun {a b} hab hboth => hab ?_
  cases d with
  | none => exact hboth
  | some p => exact ⟨(mem_filter_ne.1 hboth.1).1, (mem_filter_ne.1 hboth.2).1⟩

/-- The first process of a list overtakes nobody. -/
lemma not_overtakes {i : ℕ} {g : ℕ → List ℕ} (h : t.WellFormed) (hgo : t.GoFirst)
    (hfirst : firstNonEmpty t.queues.ready.queues = some i)
    (htaken : TakenFirst p i t.queues.readyList g) : t.overtakes p = false := by
  have hlist := hgo i
  rw [htaken.self, List.pairwise_cons] at hlist
  unfold overtakes
  rw [hfirst]
  refine decide_eq_false ?_
  rintro ⟨hp, q, hq, hmem⟩
  rw [htaken.self, List.mem_cons] at hmem
  rcases hmem with rfl | hmem
  · exact h.disjoint q hp hq
  · exact hlist.1 q hmem ⟨hp, hq⟩

/-- **An operation that is no `mutex_lock` lets them go first**: whoever it appends is not one of
the preempted processes, since those are in READY. -/
lemma goFirst_afterAction (h : t.WellFormed) (hgo : t.GoFirst) (hnot : t.overtaken = false)
    (heffect : ReadyEffect t.queues queues d) :
    (t.afterAction queues d).GoFirst ∧ (t.afterAction queues d).overtaken = false := by
  have hout : ∀ q, (t.queues.pcbs q).state ≠ .ready → q ∉ t.preempted :=
    fun q hq hmem => hq (h.preempted q hmem)
  cases heffect with
  | kept lists state =>
    refine ⟨fun i => ?_, hnot⟩
    show (queues.readyList i).Pairwise _
    rw [lists]
    exact hgo i
  | entered p i outside lists state =>
    exact ⟨(lists.pairwise_iff _).2 ⟨hgo, fun a _ hboth => hout p outside hboth.2⟩, hnot⟩
  | left p i first lists state =>
    refine ⟨fun j => pairwise_afterAction (lists.pairwise hgo j), ?_⟩
    show (t.overtaken || t.overtakes p) = false
    rw [hnot, not_overtakes h hgo first lists]
    rfl
  | replaced p new i j between outside first taken appended state =>
    refine ⟨fun k => ?_, ?_⟩
    · exact pairwise_afterAction
        ((appended.pairwise_iff _).2 ⟨taken.pairwise hgo, fun a _ hboth => hout p outside hboth.2⟩ k)
    · show (t.overtaken || t.overtakes new) = false
      rw [hnot, not_overtakes h hgo first taken]
      rfl

end Operation

/-! ## `mutex_lock` -/

section Lock

variable {s s' : Queues} {m : Mutex} {r : MutexResult} {q : ℕ}

/-- **A `mutex_lock` lets them go first** exactly when the preempted process that it raises finds
none of the former ones in the list it goes to. -/
lemma goFirst_mutexLock_iff (h : t.WellFormed) (hgo : t.GoFirst) (hm : m ∈ t.queues.mutexes)
    (hexec : (t.queues.pcbs p).state = .exec) (hrun : t.queues.mutexLock m p = some (r, s')) :
    ({ t with queues := s' } : CompactionWindow).GoFirst ↔
      t.JoinsInFront (.action (.mutexLock m.id p)) := by
  have hraised := fun q => raised_iff (q := q) h.inheriting hm hexec hrun
  have hlookup := h.inheriting.sound.mutex_eq hm
  cases readyRaise_mutexLock h.inheriting hrun with
  | kept ready priority =>
    have hlists : s'.readyList = t.queues.readyList := by
      unfold readyList
      rw [ready]
    refine iff_of_true (fun i => ?_) fun hmultilevel m' hm' q hq hqraised => ?_
    · show (s'.readyList i).Pairwise _
      rw [hlists]
      exact hgo i
    · obtain rfl := Option.some.inj (hlookup.symm.trans hm')
      exact absurd (priority hmultilevel q (h.preempted q hq)) ((hraised q).1 hqraised)
  | requeued q multilevel isReady raised other lists =>
    have hq := (hraised q).2 raised
    rw [priority_of_raised h.inheriting hm hexec hrun hq] at lists
    have hiff : ({ t with queues := s' } : CompactionWindow).GoFirst ↔ _ :=
      lists.pairwise_iff _ hgo
    rw [hiff]
    constructor
    · intro hfront _ m' hm' q' hq' hraised' b hb hbefore
      obtain rfl := Option.some.inj (hlookup.symm.trans hm')
      have heq : q' = q := by
        by_contra hne
        exact (hraised q').1 hraised' (other q' hne (h.preempted q' hq'))
      subst heq
      have hne : b ≠ q' := fun hb' => h.disjoint b hbefore (hb' ▸ hq')
      exact hfront b ((List.mem_erase_of_ne hne).2 hb) ⟨hbefore, hq'⟩
    · rintro hcond a ha ⟨hbefore, hpreempted⟩
      exact hcond multilevel m hlookup q hpreempted hq a (List.mem_of_mem_erase ha) hbefore

/-- The states after a `mutex_lock`: the processes of READY stay there. -/
lemma ready_mutexLock (hi : Inheriting s) (hm : m ∈ s.mutexes) (hexec : (s.pcbs p).state = .exec)
    (hrun : s.mutexLock m p = some (r, s')) (hq : (s.pcbs q).state = .ready) :
    (s'.pcbs q).state = .ready := by
  rcases (mutexLock_spec hi.sound hi.balanced hm hexec hrun).2.2.state q with hsame | ⟨rfl, -⟩
  · exact hsame.trans hq
  · rw [hexec] at hq
    exact absurd hq (by decide)

end Lock

/-! ## `manage_queue_blocked` -/

section Blocked

variable {s' : Queues}

/-- **A preemption lets them go first** exactly when the preempted process joins in front. -/
lemma goFirst_queueBlocked_iff (hgo : t.GoFirst)
    (hexec : (t.queues.pcbs p).state = .exec) (hcurrent : t.current = true)
    (hadd : t.queues.ready.add p (t.queues.pcbs p).priority = some s'.ready) :
    ({ t with queues := s', preempted := p :: t.preempted } : CompactionWindow).GoFirst ↔
      t.JoinsInFront (.queueBlocked p) := by
  have hlists : AppendedAt p (t.levelOf (t.queues.pcbs p).priority) t.queues.readyList
    s'.readyList := appendedAt_add hadd
  have hsplit : ∀ a b, ¬ (a ∈ t.before ∧ b ∈ p :: t.preempted) ↔
      ¬ (a ∈ t.before ∧ b ∈ t.preempted) ∧ ¬ (a ∈ t.before ∧ b = p) := by
    intro a b
    rw [List.mem_cons]
    tauto
  have hiff : ({ t with queues := s', preempted := p :: t.preempted } : CompactionWindow).GoFirst ↔
      _ := hlists.pairwise_iff _
  rw [hiff]
  constructor
  · rintro ⟨hall, hself⟩ - -
    refine ⟨fun b hb hbefore => hself b hb ⟨hbefore, List.mem_cons_self⟩, fun i => ?_⟩
    exact (hall i).imp fun {a b} hab => ((hsplit a b).1 hab).2
  · intro hcond
    obtain ⟨hnone, hstale⟩ := hcond hcurrent hexec
    refine ⟨fun i => ?_, fun a ha hboth => hnone a ha hboth.1⟩
    exact ((hgo i).and (hstale i)).imp fun {a b} hab => (hsplit a b).2 hab

end Blocked

/-! ## A step -/

/-- Every step keeps the two lists right. -/
lemma wellFormed_step {e : WindowEvent} (h : t.WellFormed) (hstep : t.windowStep e = some t') :
    t'.WellFormed := by
  cases e with
  | action a =>
    simp only [windowStep] at hstep
    split at hstep
    · exact absurd hstep (by simp)
    obtain ⟨queues, hrun, rfl⟩ := Option.map_eq_some_iff.1 hstep
    have hi := inheriting_step h.inheriting hrun
    by_cases hlock : ∃ id p, a = .mutexLock id p
    · obtain ⟨id, p, rfl⟩ := hlock
      refine h.afterAction hi fun q _ hq => ?_
      obtain ⟨hexec, rfl | ⟨m, hm, -, r, hcall⟩⟩ := step_mutexLock hrun
      · exact hq
      · exact ready_mutexLock h.inheriting hm hexec hcall hq
    · have heffect := ready_step h.inheriting hrun fun id p heq => hlock ⟨id, p, heq⟩
      exact h.afterAction hi fun q => heffect.ready
  | queueBlocked p =>
    simp only [windowStep] at hstep
    split at hstep
    swap
    · exact absurd hstep (by simp)
    obtain ⟨queues, hrun, rfl⟩ := Option.map_eq_some_iff.1 hstep
    have hi := h.inheriting.execReady hrun
    by_cases hexec : (t.queues.pcbs p).state = .exec
    · have hmoved : Moved p .ready t.queues queues := by
        unfold transitionExecReady at hrun
        rw [if_pos hexec] at hrun
        obtain ⟨exec, htake⟩ := transitionTakeExec_eq p (t.queues.setState p .ready)
        rw [htake] at hrun
        exact (moved_transitionToReady hrun rfl rfl rfl rfl).1
      have hp : ∀ q, (t.queues.pcbs q).state = .ready → (queues.pcbs q).state = .ready :=
        fun q => hmoved.ready (by rw [hexec]; decide)
      refine ⟨hi, fun q hq => hp q (h.before q hq), fun q hq => ?_, fun q hq hq' => ?_⟩
      · simp only at hq
        split at hq
        · rcases List.mem_cons.1 hq with rfl | hq
          · rw [hmoved.self]
          · exact hp q (h.preempted q hq)
        · exact hp q (h.preempted q hq)
      · simp only at hq'
        split at hq'
        · rcases List.mem_cons.1 hq' with rfl | hq'
          · have hready := h.before q hq
            rw [hexec] at hready
            exact absurd hready (by decide)
          · exact h.disjoint q hq hq'
        · exact h.disjoint q hq hq'
    · unfold transitionExecReady at hrun
      rw [if_neg hexec] at hrun
      obtain rfl := Option.some.inj hrun
      simp only [hexec, and_false, if_false]
      exact ⟨h.inheriting, h.before, h.preempted, h.disjoint⟩
  | lockQueueReady =>
    obtain rfl := Option.some.inj hstep
    exact ⟨h.inheriting, h.before, h.preempted, h.disjoint⟩
  | unlockQueueReady =>
    obtain rfl := Option.some.inj hstep
    exact ⟨h.inheriting, h.before, h.preempted, h.disjoint⟩

/-- **A step lets the preempted processes go first** exactly when it meets the condition. -/
lemma goFirst_step_iff {e : WindowEvent} (h : t.WellFormed) (hgo : t.GoFirst)
    (hnot : t.overtaken = false) (hstep : t.windowStep e = some t') :
    (t'.GoFirst ∧ t'.overtaken = false) ↔ t.JoinsInFront e := by
  cases e with
  | action a =>
    simp only [windowStep] at hstep
    split at hstep
    · exact absurd hstep (by simp)
    obtain ⟨queues, hrun, rfl⟩ := Option.map_eq_some_iff.1 hstep
    by_cases hlock : ∃ id p, a = .mutexLock id p
    · obtain ⟨id, p, rfl⟩ := hlock
      show ({ t with queues := queues } : CompactionWindow).GoFirst ∧ t.overtaken = false ↔ _
      rw [and_iff_left hnot]
      simp only [step] at hrun
      split at hrun
      swap
      · exact absurd hrun (by simp)
      rename_i hexec
      obtain ⟨⟨r, queues⟩, hcall, rfl⟩ := Option.map_eq_some_iff.1 hrun
      unfold listMutexLock at hcall
      split at hcall
      · -- an unknown name
        rename_i hnone
        obtain ⟨-, rfl⟩ := Prod.mk.inj (Option.some.inj hcall)
        exact iff_of_true hgo fun _ m hm => absurd (hnone.symm.trans hm) (by simp)
      · rename_i m hm
        obtain ⟨rfl, hmem⟩ := lookupKey_eq_some hm
        exact goFirst_mutexLock_iff h hgo hmem hexec hcall
    · have heffect := ready_step h.inheriting hrun fun id p heq => hlock ⟨id, p, heq⟩
      refine iff_of_true (goFirst_afterAction h hgo hnot heffect) ?_
      cases a with
      | mutexLock id p => exact absurd ⟨id, p, rfl⟩ hlock
      | _ => trivial
  | queueBlocked p =>
    simp only [windowStep] at hstep
    split at hstep
    swap
    · exact absurd hstep (by simp)
    obtain ⟨queues, hrun, rfl⟩ := Option.map_eq_some_iff.1 hstep
    unfold transitionExecReady at hrun
    split at hrun
    · rename_i hexec
      obtain ⟨exec, htake⟩ := transitionTakeExec_eq p (t.queues.setState p .ready)
      rw [htake] at hrun
      obtain ⟨-, hadd⟩ := moved_transitionToReady hrun rfl rfl rfl rfl
      cases hcurrent : t.current with
      | true =>
        simp only [hexec, and_self, if_true]
        rw [and_iff_left hnot]
        exact goFirst_queueBlocked_iff hgo hexec hcurrent hadd
      | false =>
        -- the process is preempted behind another compaction
        simp only [Bool.false_eq_true, false_and, if_false]
        refine iff_of_true ⟨?_, hnot⟩ fun htrue => absurd (hcurrent.symm.trans htrue) (by simp)
        refine ((appendedAt_add hadd).pairwise_iff _).2 ⟨hgo, fun a _ hboth => ?_⟩
        have hready := h.preempted p hboth.2
        rw [hexec] at hready
        exact absurd hready (by decide)
    · rename_i hexec
      obtain rfl := Option.some.inj hrun
      simp only [hexec, and_false, if_false]
      exact iff_of_true ⟨hgo, hnot⟩ fun _ hexec' => absurd hexec' hexec
  | lockQueueReady =>
    obtain rfl := Option.some.inj hstep
    exact iff_of_true ⟨hgo, hnot⟩ trivial
  | unlockQueueReady =>
    obtain rfl := Option.some.inj hstep
    exact iff_of_true ⟨hgo, hnot⟩ trivial

/-! ## The runs -/

/-- At the beginning nobody has been preempted. -/
lemma wellFormed_compactionStart {s : Queues} (hi : Inheriting s) : (compactionStart s).WellFormed where
  inheriting := hi
  before _ hq := of_decide_eq_true (List.mem_filter.1 hq).2
  preempted _ hq := absurd hq List.not_mem_nil
  disjoint _ _ := List.not_mem_nil

/-- **The processes preempted for a compaction go first** along the runs whose steps meet the
condition: in no list does a process that was in READY before stand in front of one of them, and
none was dispatched before one of the same list. A step that does not meet the condition puts one in
front. -/
theorem goFirst_of_run {multilevel : Bool} {algorithms : List SchedulingAlgorithm}
    {preemption : Bool} {s : Queues}
    (h : Reachable step (initQueues multilevel algorithms preemption) s)
    (hrun : Run windowStep JoinsInFront (compactionStart s) t) :
    t.GoFirst ∧ t.overtaken = false ∧
      ∀ e t', t.windowStep e = some t' →
        ((t'.GoFirst ∧ t'.overtaken = false) ↔ t.JoinsInFront e) := by
  have hall : t.WellFormed ∧ t.GoFirst ∧ t.overtaken = false := by
    refine hrun.invariant (I := fun u => u.WellFormed ∧ u.GoFirst ∧ u.overtaken = false) ?_ ?_
    · refine ⟨wellFormed_compactionStart (inheriting_of_reachable h), fun i => ?_, rfl⟩
      exact List.pairwise_of_forall fun a b hboth => absurd hboth.2 List.not_mem_nil
    · rintro u e u' ⟨hu, hgo, hnot⟩ hok hstep
      exact ⟨wellFormed_step hu hstep, (goFirst_step_iff hu hgo hnot hstep).2 hok⟩
  obtain ⟨hwf, hgo, hnot⟩ := hall
  exact ⟨hgo, hnot, fun e t' hstep => goFirst_step_iff hwf hgo hnot hstep⟩

/-- Two levels: the process of level 1 is preempted, and the one of level 0 is in READY. -/
theorem goFirst_of_run_twoLevels :
    ∃ s t, execute step (initQueues true [.fifo, .fifo] false)
        [.newReady 1 true, .dispatch, .newReady 0 true] = some s ∧
      execute windowStep (compactionStart s) [.queueBlocked 0, .unlockQueueReady,
        .action .dispatch, .action .dispatch] = some t ∧
      (t.queues.pcbs 0).state = .exec ∧ t.GoFirst ∧ t.overtaken = false := by
  have hrun : (execute step (initQueues true [.fifo, .fifo] false)
      [.newReady 1 true, .dispatch, .newReady 0 true]).map (fun s =>
        ((s.ready.queues.map ReadySubqueue.queue, (s.ready.level (s.pcbs 0).priority).toNat),
          (windowStep (compactionStart s) (.queueBlocked 0)).map fun u =>
            (execute windowStep u [.unlockQueueReady, .action .dispatch, .action .dispatch]).map
              fun t => (t.queues.pcbs 0).state)) =
      some (([[1], []], 1), some (some .exec)) := by decide
  obtain ⟨s, hs, heq⟩ := Option.map_eq_some_iff.1 hrun
  simp only [Prod.mk.injEq] at heq
  obtain ⟨⟨hlists, hlevel⟩, hafter⟩ := heq
  obtain ⟨u, hu, hrest⟩ := Option.map_eq_some_iff.1 hafter
  obtain ⟨t, ht, hexec⟩ := Option.map_eq_some_iff.1 hrest
  have hlist : ∀ i, s.readyList i = ([[1], []] : List (List ℕ))[i]?.getD [] := by
    intro i
    rw [← hlists, List.getElem?_map]
    rfl
  have hfront : (compactionStart s).JoinsInFront (.queueBlocked 0) := by
    intro _ _
    refine ⟨fun b hb => ?_, fun i => ?_⟩
    · rw [show (compactionStart s).levelOf ((compactionStart s).queues.pcbs 0).priority = 1 from
        hlevel] at hb
      rw [show (compactionStart s).queues.readyList 1 = [] from hlist 1] at hb
      exact absurd hb List.not_mem_nil
    · rw [show (compactionStart s).queues.readyList i = _ from hlist i]
      match i with
      | 0 => exact List.pairwise_singleton _ _
      | 1 => exact List.Pairwise.nil
      | _ + 2 => exact List.Pairwise.nil
  have hwindow : Run windowStep JoinsInFront (compactionStart s) t := by
    refine Run.head _ hfront hu (Run.of_execute_of_forall ht fun e he v => ?_)
    simp only [List.mem_cons, List.not_mem_nil, or_false] at he
    rcases he with rfl | rfl | rfl <;> trivial
  obtain ⟨hgo, hnot, -⟩ := goFirst_of_run (Run.of_execute hs) hwindow
  refine ⟨s, t, hs, ?_, hexec, hgo, hnot⟩
  simp only [execute, hu, Option.bind_some]
  exact ht

/-- **One queue, a process in EXEC and one in READY**: the former is preempted for the compaction,
and the latter is dispatched before it. -/
theorem overtaken_of_queueBlocked :
    ∃ s t, Reachable step (initQueues false [.fifo] false) s ∧
      Reachable windowStep (compactionStart s) t ∧ t.overtaken = true := by
  have hrun : ((execute step (initQueues false [.fifo] false)
      [.newReady 0 true, .newReady 0 true, .dispatch]).map fun s =>
        (execute windowStep (compactionStart s) [.queueBlocked 0, .unlockQueueReady,
          .action .dispatch]).map CompactionWindow.overtaken) = some (some true) := by decide
  obtain ⟨s, hs, hafter⟩ := Option.map_eq_some_iff.1 hrun
  obtain ⟨t, ht, hovertaken⟩ := Option.map_eq_some_iff.1 hafter
  exact ⟨s, t, Run.of_execute hs, Run.of_execute ht, hovertaken⟩

end CompactionWindow

end OsSimulator.Scheduler
