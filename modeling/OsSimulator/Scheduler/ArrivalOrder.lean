import OsSimulator.Scheduler.WaitingLists

set_option relaxedAutoImplicit false
set_option autoImplicit false

/-!
# Equal priorities and the order of arrival

The waiting list of a mutex and SUSP. READY are served from their heads. `insert_pcb_sorted` lets a
process pass those whose priority is not better than its own, and so also those of the same
priority: of two equal processes the one that was inserted last is served first.

## Main definitions

* `Arrivals` — the scheduler with the times at which the processes began to wait.
* `ServedInArrivalOrder` — in each list, of two processes of one priority the one that has waited
  longer is in front.
* `PassesNoTie` — the condition on a step: no process is put in front of one of its priority that
  has waited longer.

## Main results

* `inArrivalOrder_insertPcbSorted` — what an insertion does to the order of arrival.
* `servedInArrivalOrder_of_run` — the order is kept by exactly the steps that meet the condition.
-/

namespace OsSimulator.Scheduler

open Queues

/-! ## The order of arrival in a list -/

/-- Of two processes of one priority the one that has waited longer is in front. -/
def InArrivalOrder (pcbs : ℕ → Pcb) (since : ℕ → ℕ) (list : List ℕ) : Prop :=
  list.Pairwise fun a b => (pcbs a).priority = (pcbs b).priority → since a < since b

/-- **A sorted insertion keeps the order of arrival** exactly when the process has waited longer
than those of its priority, all of which it passes. -/
lemma inArrivalOrder_insertPcbSorted {pcbs : ℕ → Pcb} {since : ℕ → ℕ} {p : ℕ} {list : List ℕ} :
    InArrivalOrder pcbs since (insertPcbSorted pcbs p list).2 ↔
      InArrivalOrder pcbs since list ∧
        ∀ q ∈ list, (pcbs q).priority = (pcbs p).priority → since p < since q := by
  unfold insertPcbSorted InArrivalOrder
  induction list with
  | nil => simp [listAddSorted]
  | cons first rest ih =>
    rw [listAddSorted]
    by_cases hpass : (pcbs p).priority ≤ (pcbs first).priority
    · have hcomparator : isHighestPriority pcbs p first = true := by
        simpa [isHighestPriority] using hpass
      rw [if_pos hcomparator, List.pairwise_cons, and_comm]
      refine and_congr_right fun _ => forall₂_congr fun q _ => ?_
      rw [eq_comm]
    · have hcomparator : ¬ isHighestPriority pcbs p first = true := by
        simpa [isHighestPriority] using hpass
      have hne : (pcbs first).priority ≠ (pcbs p).priority := by omega
      rw [if_neg hcomparator, List.pairwise_cons, List.pairwise_cons, ih]
      simp only [mem_listAddSorted, List.mem_cons, forall_eq_or_imp]
      constructor
      · rintro ⟨⟨-, hfirst⟩, hrest, hties⟩
        exact ⟨⟨hfirst, hrest⟩, fun heq => absurd heq hne, hties⟩
      · rintro ⟨⟨hfirst, hrest⟩, -, hties⟩
        exact ⟨⟨fun heq => absurd heq hne, hfirst⟩, hrest, hties⟩

/-- The order only depends on the processes in the list. -/
lemma inArrivalOrder_congr {pcbs pcbs' : ℕ → Pcb} {since since' : ℕ → ℕ} {list : List ℕ}
    (hprio : ∀ q ∈ list, (pcbs' q).priority = (pcbs q).priority)
    (hsince : ∀ q ∈ list, since' q = since q) :
    InArrivalOrder pcbs' since' list ↔ InArrivalOrder pcbs since list := by
  refine List.Pairwise.iff_of_mem fun {a b} ha hb => ?_
  rw [hprio a ha, hprio b hb, hsince a ha, hsince b hb]

/-! ## Arrival times -/

/-- The scheduler with the times at which the processes began to wait. -/
structure Arrivals where
  queues : Queues
  clock : ℕ
  since : ℕ → ℕ

/-- A process starts to wait: for a mutex, or in SUSP. READY. -/
def StartsToWait (s s' : Queues) (q : ℕ) : Prop :=
  ((s.pcbs q).blockingMutex = none ∧ (s'.pcbs q).blockingMutex ≠ none) ∨
    ((s.pcbs q).state ≠ .suspReady ∧ (s'.pcbs q).state = .suspReady)

instance (s s' : Queues) (q : ℕ) : Decidable (StartsToWait s s' q) :=
  inferInstanceAs (Decidable (_ ∧ _ ∨ _ ∧ _))

namespace Arrivals

/-- The start of the module. -/
def start (multilevel : Bool) (algorithms : List SchedulingAlgorithm) (preemption : Bool) :
    Arrivals :=
  ⟨initQueues multilevel algorithms preemption, 1, fun _ => 0⟩

/-- An operation of the scheduler; who starts to wait does so now. -/
def step (t : Arrivals) (a : Action) : Option Arrivals :=
  (Scheduler.step t.queues a).map fun s' =>
    { queues := s'
      clock := t.clock + 1
      since := fun q => if StartsToWait t.queues s' q then t.clock else t.since q }

/-- **Equal priorities are served in the order of arrival**: the waiting lists and SUSP. READY,
which are served from their heads, have the process that has waited longer in front. -/
structure ServedInArrivalOrder (t : Arrivals) : Prop where
  waiting : ∀ m ∈ t.queues.mutexes, InArrivalOrder t.queues.pcbs t.since m.list
  suspReady : InArrivalOrder t.queues.pcbs t.since t.queues.suspReady

end Arrivals

/-- The process gets the better priority of the caller of a `mutex_lock`. -/
def Raised (m : Mutex) (p : ℕ) (s : Queues) (q : ℕ) : Prop :=
  OnChain m s q ∧ (s.pcbs p).priority < (s.pcbs q).priority

section Raised

variable {m : Mutex} {p q : ℕ} {r : MutexResult} {s s' : Queues} (hi : Inheriting s)
  (hm : m ∈ s.mutexes) (hexec : (s.pcbs p).state = .exec) (hrun : s.mutexLock m p = some (r, s'))

include hi hm hexec hrun

/-- Who is raised has the priority of the caller, and the others keep theirs. -/
lemma priority_of_raised (hq : Raised m p s q) : (s'.pcbs q).priority = (s.pcbs p).priority := by
  rw [priority_mutexLock_of_onChain hi hm hexec hrun hq.1]
  exact min_eq_right hq.2.le

/-- Who is not raised keeps its priority. -/
lemma priority_of_not_raised (hq : ¬ Raised m p s q) :
    (s'.pcbs q).priority = (s.pcbs q).priority := by
  by_cases hchain : OnChain m s q
  · rw [priority_mutexLock_of_onChain hi hm hexec hrun hchain]
    exact min_eq_left (not_lt.1 fun hlt => hq ⟨hchain, hlt⟩)
  · exact priority_mutexLock_of_not_onChain hi hm hexec hrun hchain

/-- Who gets another priority is raised. -/
lemma raised_iff : Raised m p s q ↔ (s'.pcbs q).priority ≠ (s.pcbs q).priority := by
  constructor
  · intro hq
    rw [priority_of_raised hi hm hexec hrun hq]
    exact hq.2.ne
  · intro hne
    by_contra hq
    exact hne (priority_of_not_raised hi hm hexec hrun hq)

end Raised

namespace Arrivals

/-- A `mutex_lock` puts nobody in front of a process of its priority that has waited longer: the
caller finds none of its priority in the list, a process that is inserted again has waited longer
than those of its new priority, and so it is in SUSP. READY, where nobody is moved. -/
structure LockPassesNoTie (m : Mutex) (p : ℕ) (t : Arrivals) : Prop where
  caller : ∀ q ∈ m.list, (t.queues.pcbs q).priority ≠ (t.queues.pcbs p).priority
  waiting : ∀ m' ∈ t.queues.mutexes, ∀ q ∈ m'.list, Raised m p t.queues q →
    ∀ r ∈ m'.list, (t.queues.pcbs r).priority = (t.queues.pcbs p).priority → t.since q < t.since r
  suspReady : t.queues.suspReady.Pairwise fun a b =>
    Raised m p t.queues a ∨ Raised m p t.queues b →
      (Raised m p t.queues a ∨ (t.queues.pcbs a).priority = (t.queues.pcbs p).priority) →
      (Raised m p t.queues b ∨ (t.queues.pcbs b).priority = (t.queues.pcbs p).priority) →
      t.since a < t.since b

/-- The condition on a step. A process that enters SUSP. READY finds none of its priority there. -/
def PassesNoTie (t : Arrivals) : Action → Prop
  | .mutexLock id p => ∀ m, t.queues.mutex id = some m → t.LockPassesNoTie m p
  | a => ∀ q, EntersSuspReady t.queues a q →
      ∀ r ∈ t.queues.suspReady, (t.queues.pcbs r).priority ≠ (t.queues.pcbs q).priority

end Arrivals

/-! ## The steps -/

section Steps

variable {p q : ℕ} {a : Action} {id : String} {s s' : Queues} {m : Mutex} {t t' : Arrivals}

/-- A process that enters SUSP. READY keeps its priority. -/
lemma priority_of_entersSuspReady (hi : Inheriting s) (hstep : step s a = some s')
    (h : EntersSuspReady s a q) : (s'.pcbs q).priority = (s.pcbs q).priority := by
  cases a with
  | unlock p =>
    simp only [step] at hstep
    split at hstep
    · rcases transitionUnlock_spec hstep with rfl | ⟨-, hmoved, -⟩ | ⟨-, hmoved, -⟩
      · rfl
      · exact hmoved.priority q
      · exact hmoved.priority q
    · exact absurd hstep (by simp)
  | mutexUnlock id p =>
    obtain ⟨-, -, -, -, hsusp⟩ := h
    obtain ⟨hexec, rfl | ⟨m, hm, -, r, hrun⟩⟩ := step_mutexUnlock hstep
    · rfl
    · obtain ⟨-, -, heffect⟩ := mutexUnlock_spec hi.sound hi.balanced hm hexec hrun
      apply heffect.priority q
      rintro rfl
      rw [hexec] at hsusp
      exact absurd hsusp (by decide)
  | _ => exact absurd h id

namespace Arrivals

/-- What the steps keep besides the order of arrival. -/
structure Timed (t : Arrivals) : Prop where
  inheriting : Inheriting t.queues
  listed : SuspReadyListed t.queues
  past : ∀ q, t.since q < t.clock

/-- What a step does to the lists, the clock and the times of arrival. -/
lemma step_eq_some (h : t.step a = some t') :
    Scheduler.step t.queues a = some t'.queues ∧ t'.clock = t.clock + 1 ∧
      ∀ q, t'.since q = if StartsToWait t.queues t'.queues q then t.clock else t.since q := by
  obtain ⟨s', hs', rfl⟩ := Option.map_eq_some_iff.1 h
  exact ⟨hs', rfl, fun _ => rfl⟩

/-- The times of arrival stay in the past. -/
lemma Timed.step (ht : t.Timed) (h : t.step a = some t') : t'.Timed := by
  obtain ⟨hstep, hclock, hsince⟩ := step_eq_some h
  refine ⟨inheriting_step ht.inheriting hstep,
    suspReadyListed_step ht.inheriting ht.listed hstep, fun q => ?_⟩
  have hpast := ht.past q
  rw [hsince, hclock]
  split <;> omega

/-- A process that has waited before and waits still has done so since then. -/
lemma since_of_waiting (ht : t.Timed) (h : t.step a = some t')
    (hwaits : (t'.queues.pcbs q).blockingMutex ≠ none)
    (hbefore : (t.queues.pcbs q).blockingMutex ≠ none) : t'.since q = t.since q := by
  rw [(step_eq_some h).2.2, if_neg]
  rintro (⟨hnone, -⟩ | ⟨-, hready⟩)
  · exact hbefore hnone
  · exact hwaits ((ht.step h).inheriting.unblocked hready ⟨by decide, by decide⟩)

/-- Who stays in SUSP. READY keeps its time. -/
lemma since_of_suspReady (ht : t.Timed) (h : t.step a = some t')
    (hready : (t'.queues.pcbs q).state = .suspReady)
    (hbefore : (t.queues.pcbs q).state = .suspReady) : t'.since q = t.since q := by
  rw [(step_eq_some h).2.2, if_neg]
  rintro (⟨-, hwaits⟩ | ⟨hne, -⟩)
  · exact hwaits ((ht.step h).inheriting.unblocked hready ⟨by decide, by decide⟩)
  · exact hne hbefore

/-- SUSP. READY after a step that is no `mutex_lock`. -/
lemma suspReady_iff (ht : t.Timed) (h : t.step a = some t') (hne : ∀ id p, a ≠ .mutexLock id p)
    (horder : InArrivalOrder t.queues.pcbs t.since t.queues.suspReady) :
    InArrivalOrder t'.queues.pcbs t'.since t'.queues.suspReady ↔
      ∀ q, EntersSuspReady t.queues a q →
        ∀ r ∈ t.queues.suspReady, (t.queues.pcbs r).priority ≠ (t.queues.pcbs q).priority := by
  obtain ⟨hstep, -, hsince⟩ := step_eq_some h
  have hmem : ∀ r ∈ t.queues.suspReady, (t.queues.pcbs r).state = .suspReady :=
    fun r => (ht.listed.mem r).1
  cases suspReady_step ht.inheriting hstep with
  | kept hk hout =>
    refine iff_of_true ?_ fun q hq => absurd hq (hout q)
    rw [hk.list]
    refine (inArrivalOrder_congr (fun q hq => hk.priority q (hmem q hq)) fun q hq => ?_).2 horder
    exact since_of_suspReady ht h ((hk.state q).2 (hmem q hq)) (hmem q hq)
  | locked id p call => exact absurd call (hne id p)
  | left p hleft hout =>
    refine iff_of_true ?_ fun q hq => absurd hq (hout q)
    rw [hleft.list]
    refine (inArrivalOrder_congr (fun q _ => hleft.priority q) fun q hq => ?_).2
      (horder.sublist List.erase_sublist)
    have hq' := (ht.listed.nodup.mem_erase_iff).1 hq
    exact since_of_suspReady ht h ((hleft.other q hq'.1).2 (hmem q hq'.2)) (hmem q hq'.2)
  | entered q hentered henters =>
    have hself := priority_of_entersSuspReady ht.inheriting hstep henters
    have hnew : t'.since q = t.clock := by
      rw [hsince, if_pos (.inr ⟨hentered.source, hentered.target⟩)]
    have hold : ∀ r ∈ t.queues.suspReady, t'.since r = t.since r := by
      intro r hr
      have hrq : r ≠ q := by
        rintro rfl
        exact hentered.source (hmem r hr)
      exact since_of_suspReady ht h ((hentered.other r hrq).2 (hmem r hr)) (hmem r hr)
    have hprio : ∀ r ∈ t.queues.suspReady,
        (t'.queues.pcbs r).priority = (t.queues.pcbs r).priority :=
      fun r hr => hentered.priority r (hmem r hr)
    have honly : ∀ r, EntersSuspReady t.queues a r → r = q := by
      intro r hr
      cases a with
      | unlock p => exact hr.1.trans henters.1.symm
      | mutexUnlock id p =>
        obtain ⟨m, hm, -, hfirst, -⟩ := hr
        obtain ⟨m', hm', -, hfirst', -⟩ := henters
        obtain rfl := Option.some.inj (hm.symm.trans hm')
        exact Option.some.inj (hfirst.symm.trans hfirst')
      | _ => exact absurd hr fun h => h
    rw [hentered.list, inArrivalOrder_insertPcbSorted, and_iff_right
      ((inArrivalOrder_congr hprio hold).2 horder)]
    constructor
    · intro hties r hr x hx heq
      obtain rfl := honly r hr
      have hlt := hties x hx (by rw [hprio x hx, hself, heq])
      have hpast := ht.past x
      rw [hnew, hold x hx] at hlt
      omega
    · intro hnone r hr heq
      rw [hprio r hr, hself] at heq
      exact absurd heq (hnone q henters r hr)

/-- The waiting lists after a step that is no `mutex_lock`. -/
lemma waiting_step (ht : t.Timed) (h : t.step a = some t') (hne : ∀ id p, a ≠ .mutexLock id p)
    (horder : ∀ m ∈ t.queues.mutexes, InArrivalOrder t.queues.pcbs t.since m.list) :
    ∀ m ∈ t'.queues.mutexes, InArrivalOrder t'.queues.pcbs t'.since m.list := by
  obtain ⟨hstep, -, -⟩ := step_eq_some h
  have hkept := waitingKept_step ht.inheriting hstep hne
  have hi' := (ht.step h).inheriting
  intro m hm
  have hlookup : t'.queues.waitingList m.id = some m.list := by
    rw [waitingList, hi'.sound.mutex_eq hm, Option.map_some]
  rcases hkept.lists m.id m.list hlookup with hnil | ⟨list, hlist, hsub⟩
  · rw [hnil]
    exact List.Pairwise.nil
  · obtain ⟨m₀, hm₀, rfl⟩ := Option.map_eq_some_iff.1 hlist
    have hwaits : ∀ q ∈ m.list, (t'.queues.pcbs q).blockingMutex ≠ none := by
      intro q hq
      rw [(((hi'.sound.mutex m hm).blocked q).1 hq).resolve_right (by simp)]
      simp
    refine (inArrivalOrder_congr (fun q hq => hkept.priority q (hwaits q hq)) fun q hq => ?_).2
      ((horder m₀ (lookupKey_eq_some hm₀).2).sublist hsub)
    apply since_of_waiting ht h (hwaits q hq)
    rw [← hkept.blocking q (hwaits q hq)]
    exact hwaits q hq

/-! ## Locks -/

section Lock

variable {r : MutexResult} (ht : t.Timed) (h : t.step (.mutexLock m.id p) = some t')
  (hm : m ∈ t.queues.mutexes) (hexec : (t.queues.pcbs p).state = .exec)
  (hrun : t.queues.mutexLock m p = some (r, t'.queues))

include ht hm hexec hrun

/-- Only the caller changes its state, and not to SUSP. READY. -/
lemma suspReady_mutexLock (q : ℕ) :
    (t'.queues.pcbs q).state = .suspReady ↔ (t.queues.pcbs q).state = .suspReady := by
  obtain ⟨-, -, heffect⟩ :=
    mutexLock_spec ht.inheriting.sound ht.inheriting.balanced hm hexec hrun
  rcases heffect.state q with heq | ⟨rfl, hblock⟩
  · rw [heq]
  · rw [hblock, hexec]
    exact iff_of_false (by decide) (by decide)

include h

/-- SUSP. READY after a `mutex_lock`: nobody moves, and some have the priority of the caller. -/
lemma suspReady_mutexLock_iff (horder : InArrivalOrder t.queues.pcbs t.since t.queues.suspReady) :
    InArrivalOrder t'.queues.pcbs t'.since t'.queues.suspReady ↔
      t.queues.suspReady.Pairwise fun a b => Raised m p t.queues a ∨ Raised m p t.queues b →
        (Raised m p t.queues a ∨ (t.queues.pcbs a).priority = (t.queues.pcbs p).priority) →
        (Raised m p t.queues b ∨ (t.queues.pcbs b).priority = (t.queues.pcbs p).priority) →
        t.since a < t.since b := by
  have hraised := fun q => priority_of_raised (q := q) ht.inheriting hm hexec hrun
  have hkept := fun q => priority_of_not_raised (q := q) ht.inheriting hm hexec hrun
  have hsince : ∀ q ∈ t.queues.suspReady, t'.since q = t.since q := by
    intro q hq
    have hready := (ht.listed.mem q).1 hq
    exact since_of_suspReady ht h ((suspReady_mutexLock ht hm hexec hrun q).2 hready) hready
  have hpair : ∀ a b, ((t.queues.pcbs a).priority = (t.queues.pcbs b).priority →
      t.since a < t.since b) →
      (((t'.queues.pcbs a).priority = (t'.queues.pcbs b).priority → t.since a < t.since b) ↔
        (Raised m p t.queues a ∨ Raised m p t.queues b →
          (Raised m p t.queues a ∨ (t.queues.pcbs a).priority = (t.queues.pcbs p).priority) →
          (Raised m p t.queues b ∨ (t.queues.pcbs b).priority = (t.queues.pcbs p).priority) →
          t.since a < t.since b)) := by
    intro a b hbefore
    by_cases ha : Raised m p t.queues a <;> by_cases hb : Raised m p t.queues b
    · rw [hraised a ha, hraised b hb]
      simp [ha, hb]
    · rw [hraised a ha, hkept b hb, eq_comm]
      simp [ha, hb]
    · rw [hkept a ha, hraised b hb]
      simp [ha, hb]
    · rw [hkept a ha, hkept b hb]
      simp only [ha, hb, or_self, false_implies, iff_true]
      exact hbefore
  have hlist := (mutexLock_kept hrun).1
  have hcongr : InArrivalOrder t'.queues.pcbs t'.since t.queues.suspReady ↔
      InArrivalOrder t'.queues.pcbs t.since t.queues.suspReady :=
    inArrivalOrder_congr (fun _ _ => rfl) hsince
  rw [hlist, hcongr]
  constructor
  · intro hafter
    exact horder.imp₂ (fun a b hbefore hab => (hpair a b hbefore).1 hab) hafter
  · intro hcond
    exact horder.imp₂ (fun a b hbefore hab => (hpair a b hbefore).2 hab) hcond

omit hm in
/-- The caller came last, and those that wait already came when they did. -/
lemma since_mutexLock (hheld : m.state ≠ 1) :
    t'.since p = t.clock ∧ ∀ m₁ ∈ t.queues.mutexes, ∀ q ∈ m₁.list, t'.since q = t.since q := by
  have hi := ht.inheriting
  have hkept := (mutexLock_kept hrun).2 hheld
  have hunblocked := unblocked_of_exec hi.sound hexec
  refine ⟨?_, fun m₁ hm₁ q hq => ?_⟩
  · rw [(step_eq_some h).2.2, if_pos (.inl ⟨hunblocked, by simp [hkept.self]⟩)]
  · have hblock := (((hi.sound.mutex m₁ hm₁).blocked q).1 hq).resolve_right (by simp)
    have hne : q ≠ p := by
      rintro rfl
      exact not_mem_of_unblocked hi.sound hunblocked hm₁ hq
    refine since_of_waiting ht h ?_ (by simp [hblock])
    simp [hkept.other q hne, hblock]

/-- The list of the mutex: the caller is the last that came, so that nobody may wait with its
priority. -/
lemma inArrivalOrder_caller_iff (hlists : LockLists m p t.queues t'.queues)
    (horder : InArrivalOrder t.queues.pcbs t.since m.list) :
    InArrivalOrder t'.queues.pcbs t'.since (insertPcbSorted t'.queues.pcbs p m.list).2 ↔
      ∀ q ∈ m.list, (t.queues.pcbs q).priority ≠ (t.queues.pcbs p).priority := by
  obtain ⟨hnew, hsince⟩ := since_mutexLock ht h hexec hrun hlists.held
  have hcaller : (t'.queues.pcbs p).priority = (t.queues.pcbs p).priority :=
    priority_of_not_raised ht.inheriting hm hexec hrun fun hraised => absurd hraised.2 (lt_irrefl _)
  rw [inArrivalOrder_insertPcbSorted, and_iff_right
    ((inArrivalOrder_congr hlists.priority (hsince m hm)).2 horder)]
  refine forall₂_congr fun q hq => ?_
  have hpast := ht.past q
  rw [hlists.priority q hq, hcaller, hnew, hsince m hm q hq]
  constructor
  · intro hlt heq
    exact absurd (hlt heq) (by omega)
  · intro hne heq
    exact absurd heq hne

/-- Another list: a raised process goes behind those that have its new priority. -/
lemma inArrivalOrder_reinserted_iff {m₁ : Mutex} {list : List ℕ} (hheld : m.state ≠ 1)
    (hm₁ : m₁ ∈ t.queues.mutexes) (horder : InArrivalOrder t.queues.pcbs t.since m₁.list)
    (hre : Reinserted t.queues t'.queues m₁.list list) :
    InArrivalOrder t'.queues.pcbs t'.since list ↔ ∀ q ∈ m₁.list, Raised m p t.queues q →
      ∀ r ∈ m₁.list, (t.queues.pcbs r).priority = (t.queues.pcbs p).priority →
        t.since q < t.since r := by
  have hsince := (since_mutexLock ht h hexec hrun hheld).2 m₁ hm₁
  have hraisedIff := fun q => raised_iff (q := q) ht.inheriting hm hexec hrun
  cases hre with
  | kept same priority =>
    rw [same]
    refine iff_of_true ((inArrivalOrder_congr priority hsince).2 horder) ?_
    intro q hq hraised
    exact absurd (priority q hq) ((hraisedIff q).1 hraised)
  | moved q hq changed others inserted =>
    have hraised := (hraisedIff q).2 changed
    have hvalue := priority_of_raised ht.inheriting hm hexec hrun hraised
    have herase : ∀ r ∈ m₁.list.erase q, r ∈ m₁.list ∧ r ≠ q := by
      intro r hr
      have hnodup := (ht.inheriting.sound.mutex m₁ hm₁).nodup
      exact ((hnodup.mem_erase_iff).1 hr).symm
    have hrest : InArrivalOrder t'.queues.pcbs t'.since (m₁.list.erase q) :=
      (inArrivalOrder_congr (fun r hr => others r (herase r hr).1 (herase r hr).2)
        fun r hr => hsince r (herase r hr).1).2 (horder.sublist List.erase_sublist)
    rw [inserted, inArrivalOrder_insertPcbSorted, and_iff_right hrest]
    constructor
    · intro hties x hx hxraised r hr heq
      obtain rfl : x = q := by
        by_contra hne
        exact (hraisedIff x).1 hxraised (others x hx hne)
      have hne : r ≠ x := by
        rintro rfl
        exact absurd heq hraised.2.ne'
      have hlt := hties r ((List.mem_erase_of_ne hne).2 hr)
        (by rw [others r hr hne, hvalue, heq])
      rwa [hsince x hx, hsince r hr] at hlt
    · intro hcond r hr heq
      obtain ⟨hmem, hne⟩ := herase r hr
      rw [others r hmem hne, hvalue] at heq
      rw [hsince q hq, hsince r hmem]
      exact hcond q hq hraised r hmem heq

/-- The waiting lists after a `mutex_lock` of a held mutex. -/
lemma waiting_mutexLock_iff (hlists : LockLists m p t.queues t'.queues)
    (horder : ∀ m₁ ∈ t.queues.mutexes, InArrivalOrder t.queues.pcbs t.since m₁.list) :
    (∀ m₁ ∈ t'.queues.mutexes, InArrivalOrder t'.queues.pcbs t'.since m₁.list) ↔
      (∀ q ∈ m.list, (t.queues.pcbs q).priority ≠ (t.queues.pcbs p).priority) ∧
        ∀ m₁ ∈ t.queues.mutexes, ∀ q ∈ m₁.list, Raised m p t.queues q →
          ∀ r ∈ m₁.list, (t.queues.pcbs r).priority = (t.queues.pcbs p).priority →
            t.since q < t.since r := by
  have hi := ht.inheriting
  have hi' := (ht.step h).inheriting
  have hkept := (mutexLock_kept hrun).2 hlists.held
  have hself := inArrivalOrder_caller_iff ht h hm hexec hrun hlists (horder m hm)
  have hother : ∀ m₁ ∈ t.queues.mutexes, ∀ list, Reinserted t.queues t'.queues m₁.list list →
      (InArrivalOrder t'.queues.pcbs t'.since list ↔ ∀ q ∈ m₁.list, Raised m p t.queues q →
        ∀ r ∈ m₁.list, (t.queues.pcbs r).priority = (t.queues.pcbs p).priority →
          t.since q < t.since r) :=
    fun m₁ hm₁ _ => inArrivalOrder_reinserted_iff ht h hm hexec hrun hlists.held hm₁ (horder m₁ hm₁)
  have hnobody : ∀ q ∈ m.list, ¬ Raised m p t.queues q := fun q hq hraised =>
    (raised_iff ht.inheriting hm hexec hrun).1 hraised (hlists.priority q hq)
  have hunique : ∀ m₁ ∈ t.queues.mutexes, m₁.id = m.id → m₁ = m := by
    intro m₁ hm₁ hid
    have hlookup := hi.sound.mutex_eq hm₁
    rw [hid, hi.sound.mutex_eq hm] at hlookup
    exact (Option.some.inj hlookup).symm
  have hafter : ∀ id list, t'.queues.waitingList id = some list →
      (∀ m₁ ∈ t'.queues.mutexes, InArrivalOrder t'.queues.pcbs t'.since m₁.list) →
      InArrivalOrder t'.queues.pcbs t'.since list := by
    intro id list hlist hall
    obtain ⟨m', hm', rfl⟩ := Option.map_eq_some_iff.1 hlist
    exact hall m' (lookupKey_eq_some hm').2
  constructor
  · intro hall
    refine ⟨hself.1 (hafter m.id _ hlists.self hall), fun m₁ hm₁ q hq hraised => ?_⟩
    by_cases hid : m₁.id = m.id
    · rw [hunique m₁ hm₁ hid] at hq
      exact absurd hraised (hnobody q hq)
    · obtain ⟨list, hlist, hre⟩ := hlists.other m₁ hm₁ hid
      exact (hother m₁ hm₁ list hre).1 (hafter m₁.id list hlist hall) q hq hraised
  · rintro ⟨hcond, hwaiting⟩ m' hm'
    have hlookup : t'.queues.waitingList m'.id = some m'.list := by
      rw [waitingList, hi'.sound.mutex_eq hm', Option.map_some]
    have hids : m'.id ∈ t.queues.mutexes.map Mutex.id := by
      have hmap := congrArg (List.map Prod.fst) hkept.holders
      simp only [List.map_map, Function.comp_def] at hmap
      rw [← hmap]
      exact List.mem_map_of_mem hm'
    obtain ⟨m₁, hm₁, hid⟩ := List.mem_map.1 hids
    rw [← hid] at hlookup
    by_cases heq : m₁.id = m.id
    · rw [heq, hlists.self] at hlookup
      rw [← Option.some.inj hlookup]
      exact hself.2 hcond
    · obtain ⟨list, hlist, hre⟩ := hlists.other m₁ hm₁ heq
      rw [hlist] at hlookup
      rw [← Option.some.inj hlookup]
      exact (hother m₁ hm₁ list hre).2 (hwaiting m₁ hm₁)

/-- A `mutex_lock` keeps the order of arrival exactly when it meets the condition. -/
lemma servedInArrivalOrder_mutexLock_iff (hserved : t.ServedInArrivalOrder) :
    t'.ServedInArrivalOrder ↔ t.LockPassesNoTie m p := by
  have hsusp := suspReady_mutexLock_iff ht h hm hexec hrun hserved.suspReady
  rcases mutexLock_lists ht.inheriting hm hexec hrun with
    ⟨hnone, hempty, hlists⟩ | hlists
  · -- nobody holds the mutex or waits for it, and nobody is raised
    have hnobody : ∀ q, ¬ Raised m p t.queues q := by
      rintro q ⟨⟨holder, hholder, -⟩, -⟩
      rw [hnone] at hholder
      exact absurd hholder (by simp)
    have hcond : t.LockPassesNoTie m p := by
      refine ⟨fun q hq => ?_, fun _ _ q _ hq => absurd hq (hnobody q), ?_⟩
      · rw [hempty] at hq
        exact absurd hq (by simp)
      · refine List.pairwise_of_forall fun a b hraised => ?_
        exact absurd hraised (by simp [hnobody])
    refine iff_of_true ⟨fun m' hm' => ?_, hsusp.2 hcond.suspReady⟩ hcond
    have hi' := (ht.step h).inheriting
    have hlookup : t.queues.waitingList m'.id = some m'.list := by
      rw [← hlists, waitingList, hi'.sound.mutex_eq hm', Option.map_some]
    obtain ⟨m₁, hm₁, hlist⟩ := Option.map_eq_some_iff.1 hlookup
    have hmem := (lookupKey_eq_some hm₁).2
    have horder := hserved.waiting m₁ hmem
    rw [hlist] at horder
    refine (inArrivalOrder_congr
      (fun q _ => priority_of_not_raised ht.inheriting hm hexec hrun (hnobody q)) fun q hq => ?_).2 horder
    apply since_of_waiting ht h
    · rw [(((hi'.sound.mutex m' hm').blocked q).1 hq).resolve_right (by simp)]
      simp
    · rw [← hlist] at hq
      rw [(((ht.inheriting.sound.mutex m₁ hmem).blocked q).1 hq).resolve_right (by simp)]
      simp
  · have hwaiting := waiting_mutexLock_iff ht h hm hexec hrun hlists hserved.waiting
    constructor
    · rintro ⟨hw, hs⟩
      obtain ⟨hcaller, hraised⟩ := hwaiting.1 hw
      exact ⟨hcaller, hraised, hsusp.1 hs⟩
    · rintro ⟨hcaller, hraised, hs⟩
      exact ⟨hwaiting.2 ⟨hcaller, hraised⟩, hsusp.2 hs⟩

end Lock

/-- **A step keeps the order of arrival exactly when it meets the condition.** -/
lemma servedInArrivalOrder_step_iff (ht : t.Timed) (hserved : t.ServedInArrivalOrder)
    (h : t.step a = some t') : t'.ServedInArrivalOrder ↔ t.PassesNoTie a := by
  have hother : (∀ id p, a ≠ .mutexLock id p) → (t'.ServedInArrivalOrder ↔
      ∀ q, EntersSuspReady t.queues a q →
        ∀ r ∈ t.queues.suspReady, (t.queues.pcbs r).priority ≠ (t.queues.pcbs q).priority) := by
    intro hne
    rw [← suspReady_iff ht h hne hserved.suspReady]
    exact ⟨fun hs => hs.suspReady, fun hs => ⟨waiting_step ht h hne hserved.waiting, hs⟩⟩
  cases a with
  | mutexLock id p =>
    obtain ⟨hstep, -, hsince⟩ := step_eq_some h
    simp only [Scheduler.step] at hstep
    split at hstep
    · rename_i hexec
      obtain ⟨⟨r, u⟩, hrun, hu⟩ := Option.map_eq_some_iff.1 hstep
      obtain rfl : u = t'.queues := hu
      unfold listMutexLock at hrun
      split at hrun
      · -- an unknown name
        rename_i hnone
        have hsame : t'.queues = t.queues := (Prod.mk.inj (Option.some.inj hrun)).2.symm
        refine iff_of_true ?_ fun m hm => absurd (hnone.symm.trans hm) (by simp)
        have hsinceSame : t'.since = t.since := by
          funext q
          rw [hsince, hsame, if_neg]
          rintro (⟨hnone, hne⟩ | ⟨hne, heq⟩)
          · exact hne hnone
          · exact hne heq
        exact ⟨by rw [hsame, hsinceSame]; exact hserved.waiting,
          by rw [hsame, hsinceSame]; exact hserved.suspReady⟩
      · rename_i m hlookup
        obtain ⟨rfl, hm⟩ := lookupKey_eq_some hlookup
        rw [servedInArrivalOrder_mutexLock_iff ht h hm hexec hrun hserved]
        constructor
        · intro hcond m' hm'
          obtain rfl : m = m' := Option.some.inj (hlookup.symm.trans hm')
          exact hcond
        · intro hcond
          exact hcond m hlookup
    · exact absurd hstep (by simp)
  | _ => exact hother fun _ _ => by simp

end Arrivals

end Steps

/-! ## Runs -/

open Arrivals in
/-- **Equal priorities are served in the order of arrival along every run whose steps meet the
condition**, and a step from there keeps this exactly when it meets the condition too. -/
theorem servedInArrivalOrder_of_run {multilevel : Bool} {algorithms : List SchedulingAlgorithm}
    {preemption : Bool} {t : Arrivals}
    (h : Run Arrivals.step PassesNoTie (start multilevel algorithms preemption) t) :
    t.ServedInArrivalOrder ∧
      ∀ a t', t.step a = some t' → (t'.ServedInArrivalOrder ↔ t.PassesNoTie a) := by
  have hall : t.Timed ∧ t.ServedInArrivalOrder := by
    apply h.invariant (I := fun t => t.Timed ∧ t.ServedInArrivalOrder)
    · refine ⟨⟨inheriting_init multilevel algorithms preemption,
        ⟨List.nodup_nil, fun q => by simp [start, initQueues, createPcb]⟩, fun _ => Nat.one_pos⟩,
        fun m hm => ?_, List.Pairwise.nil⟩
      exact absurd hm (by simp [start, initQueues])
    · rintro t a t' ⟨ht, hserved⟩ hok hstep
      exact ⟨ht.step hstep, (servedInArrivalOrder_step_iff ht hserved hstep).2 hok⟩
  exact ⟨hall.2, fun a t' hstep => servedInArrivalOrder_step_iff hall.1 hall.2 hstep⟩

/-- Nobody is in SUSP. READY, and the caller of a `mutex_lock` is worse than all who wait. -/
def CallerIsLast (t : Arrivals) : Action → Prop
  | .mutexLock _ p => t.queues.suspReady = [] ∧
      ∀ m ∈ t.queues.mutexes, ∀ q ∈ m.list, (t.queues.pcbs q).priority < (t.queues.pcbs p).priority
  | _ => t.queues.suspReady = []

instance (t : Arrivals) (a : Action) : Decidable (CallerIsLast t a) :=
  match a with
  | .mutexLock _ p => inferInstanceAs (Decidable (t.queues.suspReady = [] ∧
      ∀ m ∈ t.queues.mutexes, ∀ q ∈ m.list,
        (t.queues.pcbs q).priority < (t.queues.pcbs p).priority))
  | .newReady _ _ | .dispatch | .execReady _ | .preemptionPriority _ | .execBlock _ | .unlock _
  | .blockSuspBlock _ _ | .suspReady _ _ | .execExit _ | .mutexCreate _ _ | .mutexUnlock _ _ =>
    inferInstanceAs (Decidable (t.queues.suspReady = []))

/-- A caller behind all passes nobody of its priority. -/
lemma passesNoTie_of_callerIsLast {t : Arrivals} {a : Action} (h : CallerIsLast t a) :
    t.PassesNoTie a := by
  have hother : t.queues.suspReady = [] → ∀ q, EntersSuspReady t.queues a q →
      ∀ r ∈ t.queues.suspReady, (t.queues.pcbs r).priority ≠ (t.queues.pcbs q).priority := by
    intro hempty q _ r hr
    rw [hempty] at hr
    exact absurd hr (by simp)
  cases a with
  | mutexLock id p =>
    obtain ⟨hempty, hlast⟩ := h
    intro m hm
    refine ⟨fun q hq => (hlast m (lookupKey_eq_some hm).2 q hq).ne, fun m' hm' q hq hraised => ?_, ?_⟩
    · exact absurd (hlast m' hm' q hq) hraised.2.not_gt
    · rw [hempty]
      exact List.Pairwise.nil
  | _ => exact hother h

/-- A mutex that is held, and two processes that wait for it. The arguments are the priorities. -/
def twoWaiters (prio₀ prio₁ prio₂ : ℤ) : List Action :=
  [.newReady prio₀ true, .newReady prio₁ true, .newReady prio₂ true, .dispatch, .dispatch,
    .dispatch, .mutexCreate "m" 0, .mutexLock "m" 0, .mutexLock "m" 1, .mutexLock "m" 2]

/-- Two processes ask for a mutex that a third one holds. -/
theorem servedInArrivalOrder_of_run_twoWaiters :
    ∃ t, executeOk Arrivals.step CallerIsLast (.start true (List.replicate 3 .fifo) false)
        (twoWaiters 0 1 2) = some t ∧ t.queues.mutexes.map Mutex.list = [[1, 2]] ∧
      t.ServedInArrivalOrder := by
  have hrun : (executeOk Arrivals.step CallerIsLast
      (.start true (List.replicate 3 .fifo) false) (twoWaiters 0 1 2)).map
      (fun t => t.queues.mutexes.map Mutex.list) = some [[1, 2]] := by decide
  obtain ⟨t, ht, hlists⟩ := Option.map_eq_some_iff.1 hrun
  have h := (Run.of_executeOk ht).mono fun _ _ => passesNoTie_of_callerIsLast
  exact ⟨t, ht, hlists, (servedInArrivalOrder_of_run h).1⟩

/-- **Of two processes of one priority the second one gets the mutex**: it is put in front of the
first one, and `mutex_unlock` takes the head. -/
theorem servedInArrivalOrder_fails :
    ∃ t, execute Arrivals.step (.start false [.fifo] false) (twoWaiters 0 0 0) = some t ∧
      t.queues.mutexes.map Mutex.list = [[2, 1]] ∧ t.since 1 < t.since 2 ∧
      (execute Arrivals.step (.start false [.fifo] false)
        (twoWaiters 0 0 0 ++ [.mutexUnlock "m" 0])).map
        (fun t => t.queues.mutexes.map Mutex.currentProcess) = some [some 2] ∧
      ¬ t.ServedInArrivalOrder := by
  have hrun : (execute Arrivals.step (.start false [.fifo] false) (twoWaiters 0 0 0)).map
      (fun t => (t.queues.mutexes.map Mutex.list, [t.since 1, t.since 2],
        [(t.queues.pcbs 1).priority, (t.queues.pcbs 2).priority])) =
      some ([[2, 1]], [9, 10], [0, 0]) := by decide
  obtain ⟨t, ht, heq⟩ := Option.map_eq_some_iff.1 hrun
  simp only [Prod.mk.injEq, List.cons.injEq, and_true] at heq
  obtain ⟨hlists, ⟨h₁, h₂⟩, hp₁, hp₂⟩ := heq
  refine ⟨t, ht, hlists, by rw [h₁, h₂]; decide, by decide, fun hserved => ?_⟩
  have hmem : [2, 1] ∈ t.queues.mutexes.map Mutex.list := by
    rw [hlists]
    exact List.mem_singleton_self _
  obtain ⟨m, hm, hlist⟩ := List.mem_map.1 hmem
  have horder := hserved.waiting m hm
  rw [hlist] at horder
  have hlt := (List.pairwise_cons.1 horder).1 1 (by simp) (by rw [hp₁, hp₂])
  rw [h₁, h₂] at hlt
  exact absurd hlt (by decide)

end OsSimulator.Scheduler
