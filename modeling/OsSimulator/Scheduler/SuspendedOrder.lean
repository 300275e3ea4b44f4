import OsSimulator.Scheduler.PriorityInheritance

set_option relaxedAutoImplicit false
set_option autoImplicit false

/-!
# The order of SUSP. READY

Suspended processes enter SUSP. READY by a sorted insertion and are resumed from its head, but
`update_priority` re-positions a process in READY only. A process of SUSP. READY that inherits a
priority there stays where it is.

## Main definitions

* `SuspReadyListed` — SUSP. READY holds the processes of that state.
* `ResumedInOrder` — SUSP. READY is sorted by the current priorities, and its first process is one
  of the best.
* `KeepsOrder` — the condition on a `mutex_lock`: a process of SUSP. READY that inherits the
  priority of the caller does not become better than one in front of it.

## Main results

* `priority_mutexLock_of_onChain`, `priority_mutexLock_of_not_onChain` — the priorities after a
  `mutex_lock`.
* `resumedInOrder_of_run` — the order is kept by exactly the steps that meet the condition.
-/

namespace OsSimulator.Scheduler

open Queues

/-- SUSP. READY holds the processes of that state, once each. -/
structure SuspReadyListed (s : Queues) : Prop where
  nodup : s.suspReady.Nodup
  mem : ∀ q, q ∈ s.suspReady ↔ (s.pcbs q).state = .suspReady

/-- **SUSP. READY is sorted by the current priorities**, and so the process at its head is not worse
than any suspended process that is ready. -/
structure ResumedInOrder (s : Queues) : Prop where
  sorted : SortedByPriority s.pcbs s.suspReady
  first : ∀ first, s.suspReady.head? = some first → (s.pcbs first).state = .suspReady ∧
    ∀ q, (s.pcbs q).state = .suspReady → (s.pcbs first).priority ≤ (s.pcbs q).priority

/-- The process is the holder of the mutex, or that holder waits for it along a chain. -/
def OnChain (m : Mutex) (s : Queues) (q : ℕ) : Prop :=
  ∃ holder, m.currentProcess = some holder ∧ Relation.ReflTransGen (WaitsFor s) holder q

/-- The condition on a step. When a `mutex_lock` gives the priority of its caller to a process of
SUSP. READY, those in front of it are not worse than the caller, or they inherit as well. -/
def KeepsOrder (s : Queues) : Action → Prop
  | .mutexLock id p => ∀ m, s.mutex id = some m → s.suspReady.Pairwise fun a b =>
      OnChain m s b → (s.pcbs p).priority < (s.pcbs b).priority →
        (s.pcbs a).priority ≤ (s.pcbs p).priority ∨ OnChain m s a
  | _ => True

/-- The process that an operation puts into SUSP. READY: one that is unlocked in SUSP. BLOCK, or
that gets a mutex there. -/
def EntersSuspReady (s : Queues) : Action → ℕ → Prop
  | .unlock p, q => q = p ∧ (s.pcbs q).state = .suspBlock
  | .mutexUnlock id p, q => ∃ m, s.mutex id = some m ∧ m.currentProcess = some p ∧
      m.list.head? = some q ∧ (s.pcbs q).state = .suspBlock
  | _, _ => False

variable {p : ℕ} {id : String} {s s' t : Queues} {m : Mutex}

/-- A sorted list is resumed in order. -/
lemma SuspReadyListed.resumedInOrder (h : SuspReadyListed s)
    (hsorted : SortedByPriority s.pcbs s.suspReady) : ResumedInOrder s where
  sorted := hsorted
  first first hfirst := by
    obtain ⟨rest, hlist⟩ := List.head?_eq_some_iff.1 hfirst
    rw [hlist] at hsorted
    refine ⟨(h.mem first).1 (hlist ▸ List.mem_cons_self), fun q hq => ?_⟩
    have hmem : q ∈ first :: rest := hlist ▸ (h.mem q).2 hq
    rcases List.mem_cons.1 hmem with rfl | hrest
    · exact le_rfl
    · exact (List.pairwise_cons.1 hsorted).1 q hrest

/-! ## What the operations do to SUSP. READY -/

/-- SUSP. READY and its processes stay, with their priorities. -/
structure SuspReadyKept (s s' : Queues) : Prop where
  list : s'.suspReady = s.suspReady
  state : ∀ q, (s'.pcbs q).state = .suspReady ↔ (s.pcbs q).state = .suspReady
  priority : ∀ q, (s.pcbs q).state = .suspReady → (s'.pcbs q).priority = (s.pcbs q).priority

/-- One process enters SUSP. READY, by a sorted insertion. -/
structure SuspReadyEntered (p : ℕ) (s s' : Queues) : Prop where
  list : s'.suspReady = (insertPcbSorted s'.pcbs p s.suspReady).2
  source : (s.pcbs p).state ≠ .suspReady
  target : (s'.pcbs p).state = .suspReady
  other : ∀ q, q ≠ p → ((s'.pcbs q).state = .suspReady ↔ (s.pcbs q).state = .suspReady)
  priority : ∀ q, (s.pcbs q).state = .suspReady → (s'.pcbs q).priority = (s.pcbs q).priority

/-- One process leaves SUSP. READY. -/
structure SuspReadyLeft (p : ℕ) (s s' : Queues) : Prop where
  list : s'.suspReady = s.suspReady.erase p
  target : (s'.pcbs p).state ≠ .suspReady
  other : ∀ q, q ≠ p → ((s'.pcbs q).state = .suspReady ↔ (s.pcbs q).state = .suspReady)
  priority : ∀ q, (s'.pcbs q).priority = (s.pcbs q).priority

namespace SuspReadyKept

/-- A state keeps its own list. -/
lemma refl (s : Queues) : SuspReadyKept s s := ⟨rfl, fun _ => Iff.rfl, fun _ _ => rfl⟩

/-- What is kept twice is kept. -/
lemma trans (h : SuspReadyKept s t) (h' : SuspReadyKept t s') : SuspReadyKept s s' where
  list := h'.list.trans h.list
  state q := (h'.state q).trans (h.state q)
  priority q hq := (h'.priority q ((h.state q).2 hq)).trans (h.priority q hq)

/-- A process that moves between other states. -/
lemma of_moved {state : ProcessState} (hm : Moved p state s s') (hlist : s'.suspReady = s.suspReady)
    (hfrom : (s.pcbs p).state ≠ .suspReady) (hto : state ≠ .suspReady) : SuspReadyKept s s' where
  list := hlist
  state q := by
    by_cases hq : q = p
    · rw [hq, hm.self]
      exact iff_of_false hto hfrom
    · rw [hm.other q hq]
  priority q _ := hm.priority q

/-- The READY to EXEC step. -/
lemma readyExec (p : ℕ) (s : Queues) :
    SuspReadyKept s ((s.transitionReadyExec p).transitionToExec p) := by
  have hlist : ((s.transitionReadyExec p).transitionToExec p).suspReady = s.suspReady := by
    unfold transitionReadyExec
    split <;> rfl
  rcases (readyExec_spec p s).2 with ⟨hstate, hmoved⟩ | ⟨-, hpcbs, -⟩
  · exact of_moved hmoved hlist (by rw [hstate]; decide) (by decide)
  · exact ⟨hlist, fun q => by rw [hpcbs], fun q _ => by rw [hpcbs]⟩

/-- `transition_exec_ready` keeps the list. -/
lemma execReady (hrun : s.transitionExecReady p = some s') : SuspReadyKept s s' := by
  rcases transitionExecReady_spec hrun with rfl | ⟨hstate, hmoved, -⟩
  · exact refl _
  · refine of_moved hmoved ?_ (by rw [hstate]; decide) (by decide)
    rw [transitionExecReady, if_pos hstate] at hrun
    obtain ⟨exec, htake⟩ := transitionTakeExec_eq p (s.setState p .ready)
    rw [(transitionToReady_spec hrun).1, htake]
    rfl

end SuspReadyKept

namespace SuspReadyEntered

/-- A process enters after steps that keep the list. -/
lemma after (h : SuspReadyEntered p t s') (hkept : SuspReadyKept s t) : SuspReadyEntered p s s' where
  list := hkept.list ▸ h.list
  source hp := h.source ((hkept.state p).2 hp)
  target := h.target
  other q hq := (h.other q hq).trans (hkept.state q)
  priority q hq := (h.priority q ((hkept.state q).2 hq)).trans (hkept.priority q hq)

/-- What the list does not depend on may change. -/
lemma of_eq (h : SuspReadyEntered p s t) (hpcbs : s'.pcbs = t.pcbs)
    (hlist : s'.suspReady = t.suspReady) : SuspReadyEntered p s s' where
  list := by rw [hlist, hpcbs, h.list]
  source := h.source
  target := by rw [hpcbs, h.target]
  other q hq := by rw [hpcbs, h.other q hq]
  priority q hq := by rw [hpcbs, h.priority q hq]

end SuspReadyEntered

/-- `transition_unlock` lets a process enter, or it keeps the list. -/
lemma transitionUnlock_suspReady (h : s.transitionUnlock p = some s') :
    SuspReadyKept s s' ∧ (s.pcbs p).state ≠ .suspBlock ∨
      (s.pcbs p).state = .suspBlock ∧ SuspReadyEntered p s s' := by
  have hspec := transitionUnlock_spec h
  unfold transitionUnlock at h
  split at h
  · rename_i hblock
    refine .inl ⟨?_, by rw [hblock]; decide⟩
    rcases hspec with rfl | ⟨-, hmoved, -⟩ | ⟨hsusp, -, -⟩
    · exact .refl _
    · refine .of_moved hmoved ?_ (by rw [hblock]; decide) (by decide)
      rw [(transitionToReady_spec h).1]
      rfl
    · rw [hblock] at hsusp
      exact absurd hsusp (by decide)
  · split at h
    · rename_i hsusp
      right
      obtain rfl := Option.some.inj h
      have hmoved := moved_setState p .suspReady s
      refine ⟨hsusp, rfl, by rw [hsusp]; decide, ?_, fun q hq => ?_, fun q _ => hmoved.priority q⟩
      · exact congrArg Pcb.state hmoved.self
      · exact iff_of_eq (congrArg (fun pcb : Pcb => pcb.state = .suspReady) (hmoved.other q hq))
    · rename_i hne
      obtain rfl := Option.some.inj h
      exact .inl ⟨.refl _, hne⟩

/-! ## The inheritance chain -/

/-- What an inheritance chain leaves: SUSP. READY, the mutexes waited for and the holders. -/
structure ChainKept (s s' : Queues) : Prop where
  suspReady : s'.suspReady = s.suspReady
  blocking : ∀ q, (s'.pcbs q).blockingMutex = (s.pcbs q).blockingMutex
  holders : s'.mutexes.map (fun m => (m.id, m.currentProcess)) =
    s.mutexes.map fun m => (m.id, m.currentProcess)

namespace ChainKept

/-- A state keeps its own chain. -/
lemma refl (s : Queues) : ChainKept s s := ⟨rfl, fun _ => rfl, rfl⟩

/-- What is kept twice is kept. -/
lemma trans (h : ChainKept s t) (h' : ChainKept t s') : ChainKept s s' where
  suspReady := h'.suspReady.trans h.suspReady
  blocking q := (h'.blocking q).trans (h.blocking q)
  holders := h'.holders.trans h.holders

/-- A change of a mutex that leaves its holder. -/
lemma modifyMutex (id : String) {f : Mutex → Mutex} (hf : ∀ m, (f m).id = m.id)
    (hcur : ∀ m, (f m).currentProcess = m.currentProcess) (s : Queues) :
    ChainKept s (s.modifyMutex id f) :=
  ⟨rfl, fun _ => rfl, map_holder_modifyMutex id hf hcur s⟩

/-- One link of the chain, when the rest of it leaves these. -/
lemma replacePriorityWith {propagate : ℕ → ℤ → Queues → Option Queues}
    (hprop : ∀ q v t t', propagate q v t = some t' → ChainKept t t') {h : ℕ} {old new : ℤ}
    (hrun : replacePriorityWith propagate h old new s = some s') : ChainKept s s' := by
  have hentry : ChainKept s (s.replaceEntry h old new) := by
    refine ⟨rfl, fun q => ?_, rfl⟩
    by_cases hq : q = h
    · rw [hq, replaceEntry, modifyPcb_pcbs_self]
    · rw [replaceEntry, modifyPcb_pcbs_of_ne hq]
  unfold Queues.replacePriorityWith at hrun
  split at hrun
  · exact absurd hrun (by simp)
  simp only at hrun
  split at hrun
  · obtain ⟨u, hu, hpropagated⟩ := Option.bind_eq_some_iff.1 hrun
    obtain ⟨ready, rfl, -⟩ := updatePriority_spec hu
    have hready : ChainKept (s.replaceEntry h old new)
        { s.replaceEntry h old new with ready := ready } := ⟨rfl, fun _ => rfl, rfl⟩
    exact (hentry.trans hready).trans (hprop _ _ _ _ hpropagated)
  · obtain rfl := Option.some.inj hrun
    exact hentry

/-- The whole chain, by induction on its rounds. -/
lemma propagatePriorityTransitive {rounds : ℕ} {locked : List String} {h : ℕ} {v : ℤ}
    (hrun : propagatePriorityTransitive rounds locked h v s = some s') : ChainKept s s' := by
  induction rounds generalizing locked h v s s' with
  | zero => exact absurd hrun (by simp [Queues.propagatePriorityTransitive])
  | succ rounds ih =>
    rw [Queues.propagatePriorityTransitive] at hrun
    split at hrun
    · obtain rfl := Option.some.inj hrun
      exact .refl _
    rename_i id _
    split at hrun
    · exact absurd hrun (by simp)
    split at hrun
    · exact absurd hrun (by simp)
    rename_i expectedMutex _
    split at hrun
    · obtain rfl := Option.some.inj hrun
      exact .refl _
    have hlist : ChainKept s (s.modifyMutex id fun m =>
        { m with list := (insertPcbSorted s.pcbs h (expectedMutex.list.erase h)).2 }) :=
      modifyMutex id (by exact fun _ => rfl) (by exact fun _ => rfl) s
    simp only at hrun
    split at hrun
    · split at hrun
      · exact absurd hrun (by simp)
      · refine (hlist.trans (modifyMutex id ?_ ?_ _)).trans
          (replacePriorityWith (fun _ _ _ _ => ih) hrun)
        · exact fun _ => rfl
        · exact fun _ => rfl
    · obtain rfl := Option.some.inj hrun
      exact hlist

end ChainKept

/-- The end of a waiting call: the caller waits for the mutex. -/
lemma waitForMutex_kept (id : String) (p : ℕ) (s : Queues) :
    (s.waitForMutex id p).suspReady = s.suspReady ∧
      ((s.waitForMutex id p).pcbs p).blockingMutex = some id ∧
      ∀ q, q ≠ p → ((s.waitForMutex id p).pcbs q).blockingMutex = (s.pcbs q).blockingMutex := by
  set t := s.setMutexBlocking p (some id) with ht
  have hself : (t.pcbs p).blockingMutex = some id := by simp [ht, setMutexBlocking]
  have hother : ∀ q, q ≠ p → (t.pcbs q).blockingMutex = (s.pcbs q).blockingMutex := by
    intro q hq
    simp [ht, setMutexBlocking, hq]
  have hblock : (t.transitionExecBlock p).suspReady = t.suspReady ∧
      ∀ q, ((t.transitionExecBlock p).pcbs q).blockingMutex = (t.pcbs q).blockingMutex := by
    by_cases hexec : (t.pcbs p).state = .exec
    · refine ⟨?_, (transitionExecBlock_spec hexec).1.blocking⟩
      obtain ⟨exec, htake⟩ := transitionTakeExec_eq p (t.setState p .block)
      rw [transitionExecBlock, if_pos hexec, htake]
      rfl
    · rw [transitionExecBlock, if_neg hexec]
      exact ⟨rfl, fun _ => rfl⟩
  refine ⟨hblock.1, (hblock.2 p).trans hself, fun q hq => (hblock.2 q).trans (hother q hq)⟩

/-- What `mutex_lock` of a mutex that is not free leaves: the caller starts to wait for it. -/
structure LockKept (m : Mutex) (p : ℕ) (s s' : Queues) : Prop where
  self : (s'.pcbs p).blockingMutex = some m.id
  other : ∀ q, q ≠ p → (s'.pcbs q).blockingMutex = (s.pcbs q).blockingMutex
  holders : s'.mutexes.map (fun m => (m.id, m.currentProcess)) =
    s.mutexes.map fun m => (m.id, m.currentProcess)

/-- A process that begins to wait changes nothing of the list either. -/
lemma ChainKept.waitForMutex (h : ChainKept s t) (m : Mutex) (p : ℕ) :
    (t.waitForMutex m.id p).suspReady = s.suspReady ∧
      LockKept m p s (t.waitForMutex m.id p) := by
  obtain ⟨hlist, hself, hother⟩ := waitForMutex_kept m.id p t
  refine ⟨hlist.trans h.suspReady, hself, fun q hq => (hother q hq).trans (h.blocking q), ?_⟩
  exact (holders_waitForMutex m.id p t).trans h.holders

/-- `mutex_lock` leaves SUSP. READY. -/
lemma mutexLock_kept {r : MutexResult} (hrun : s.mutexLock m p = some (r, s')) :
    s'.suspReady = s.suspReady ∧ (m.state ≠ 1 → LockKept m p s s') := by
  unfold mutexLock at hrun
  simp only at hrun
  split at hrun
  · rename_i hfree
    obtain ⟨-, rfl⟩ := Prod.mk.inj (Option.some.inj hrun)
    exact ⟨rfl, absurd hfree⟩
  have hlist : ∀ list : Mutex → List ℕ,
      ChainKept s (s.modifyMutex m.id fun m => { m with list := list m }) := fun _ =>
    .modifyMutex m.id (by exact fun _ => rfl) (by exact fun _ => rfl) s
  suffices hkept : s'.suspReady = s.suspReady ∧ LockKept m p s s' from ⟨hkept.1, fun _ => hkept.2⟩
  split at hrun
  · split at hrun
    · split at hrun
      · exact absurd hrun (by simp)
      · obtain ⟨u, hu, heq⟩ := Option.map_eq_some_iff.1 hrun
        obtain ⟨-, rfl⟩ := Prod.mk.inj heq
        have hchain := ChainKept.replacePriorityWith
          (fun _ _ _ _ => ChainKept.propagatePriorityTransitive) hu
        have hnext : ChainKept u
            (u.modifyMutex m.id fun m' => { m' with nextPriority := (s.pcbs p).priority }) :=
          .modifyMutex m.id (by exact fun _ => rfl) (by exact fun _ => rfl) u
        have hlowest : ChainKept s (u.modifyMutex m.id fun m' =>
            { m' with nextPriority := (s.pcbs p).priority }).updateLowestExecPriority :=
          (((hlist _).trans hchain).trans hnext).trans ⟨rfl, fun _ => rfl, rfl⟩
        exact hlowest.waitForMutex m p
    · obtain ⟨-, rfl⟩ := Prod.mk.inj (Option.some.inj hrun)
      exact (hlist _).waitForMutex m p
  · obtain ⟨-, rfl⟩ := Prod.mk.inj (Option.some.inj hrun)
    exact (hlist _).waitForMutex m p

/-! ## The priorities after a lock -/

section Priorities

variable {r : MutexResult} {q : ℕ}

/-- Who is not on the chain keeps its priority. -/
lemma priority_mutexLock_of_not_onChain (hi : Inheriting s) (hm : m ∈ s.mutexes)
    (hexec : (s.pcbs p).state = .exec) (hrun : s.mutexLock m p = some (r, s'))
    (hq : ¬ OnChain m s q) : (s'.pcbs q).priority = (s.pcbs q).priority := by
  obtain ⟨-, -, heffect⟩ := mutexLock_spec hi.sound hi.balanced hm hexec hrun
  by_contra hne
  exact hq (heffect.chain q hne)

/-- Who is on the chain has the better one of its own priority and that of the caller.

**Proof sketch.** The caller waits for the mutex afterwards, and the chain of those who wait for one
another is longer than before by the caller. Along it no priority is worse than that of the
caller; one that has changed is that of the caller. -/
lemma priority_mutexLock_of_onChain (hi : Inheriting s) (hm : m ∈ s.mutexes)
    (hexec : (s.pcbs p).state = .exec) (hrun : s.mutexLock m p = some (r, s'))
    (hq : OnChain m s q) :
    (s'.pcbs q).priority = min (s.pcbs q).priority (s.pcbs p).priority := by
  obtain ⟨hsound, hbalanced, heffect⟩ := mutexLock_spec hi.sound hi.balanced hm hexec hrun
  obtain ⟨holder, hholder, hchain⟩ := hq
  have hheld : m.state ≠ 1 := by
    have hcount := (hi.sound.mutex m hm).state (by simp)
    rw [hholder, if_neg (by simp)] at hcount
    omega
  have hkept := (mutexLock_kept hrun).2 hheld
  have hunblocked := unblocked_of_exec hi.sound hexec
  have hwaits : ∀ a b, WaitsFor s a b → WaitsFor s' a b := by
    rintro a b ⟨id, hblock, hholds⟩
    have hne : a ≠ p := by
      rintro rfl
      rw [hunblocked] at hblock
      exact absurd hblock (by simp)
    refine ⟨id, (hkept.other a hne).trans hblock, ?_⟩
    unfold Holds at hholds ⊢
    rwa [hkept.holders]
  have hcaller : WaitsFor s' p holder := by
    refine ⟨m.id, hkept.self, ?_⟩
    have hholds : Holds s holder m.id := holds_iff.2 ⟨m, hm, rfl, hholder⟩
    unfold Holds at hholds ⊢
    rwa [hkept.holders]
  have hle := priority_le_of_transGen ⟨hsound, hbalanced⟩
    (Relation.TransGen.head' hcaller (Relation.ReflTransGen.mono hwaits _ _ hchain))
  have hself := heffect.priority p
  have hpriority := heffect.priority q
  omega

end Priorities

/-! ## The steps -/

/-- The hand-over of a mutex to a process that is not in SUSP. READY. -/
lemma handOver_suspReady {next : ℕ} {rest : List ℕ} (hnext : (s.pcbs next).state ≠ .suspReady)
    (hrun : s.handOver m next rest = some s') :
    SuspReadyKept s s' ∧ (s.pcbs next).state ≠ .suspBlock ∨
      (s.pcbs next).state = .suspBlock ∧ SuspReadyEntered next s s' := by
  set t := (s.modifyMutex m.id fun m => { m with currentProcess := some next, list := rest }
    ).setMutexBlocking next none with ht
  have hkept : SuspReadyKept s t := by
    refine ⟨rfl, fun q => ?_, fun q _ => ?_⟩ <;>
    · by_cases hq : q = next
      · simp [ht, hq, setMutexBlocking]
      · simp [ht, setMutexBlocking, hq]
  -- the entry of the new holder may only change its own priority
  have hentry : ∀ n : ℤ, SuspReadyKept t
      ((t.modifyMutex m.id fun m => { m with nextPriority := n }).insertPriority next n) := by
    intro n
    refine ⟨rfl, fun q => ?_, fun q hq => ?_⟩
    · by_cases heq : q = next
      · simp [heq, insertPriority]
      · simp [insertPriority, heq]
    · have hne : q ≠ next := by
        rintro rfl
        exact hnext ((hkept.state q).1 hq)
      simp [insertPriority, hne]
  simp only [handOver] at hrun
  rw [← ht] at hrun
  obtain ⟨u, hu, hunlock⟩ := Option.bind_eq_some_iff.1 hrun
  have hinherited : SuspReadyKept t u := by
    split at hu
    · obtain ⟨n, -, rfl⟩ := Option.map_eq_some_iff.1 hu
      exact hentry n
    · obtain rfl := Option.some.inj hu
      exact .refl _
  have hstate : (u.pcbs next).state = (s.pcbs next).state := by
    have ht' : (t.pcbs next).state = (s.pcbs next).state := by simp [ht, setMutexBlocking]
    rw [← ht']
    split at hu
    · obtain ⟨n, -, rfl⟩ := Option.map_eq_some_iff.1 hu
      simp [insertPriority]
    · obtain rfl := Option.some.inj hu
      rfl
  have hbefore := hkept.trans hinherited
  rw [← hstate]
  rcases transitionUnlock_suspReady hunlock with ⟨h, hne⟩ | ⟨hsusp, h⟩
  · exact .inl ⟨hbefore.trans h, hne⟩
  · exact .inr ⟨hsusp, h.after hbefore⟩

/-- `mutex_unlock` lets the process that gets the mutex enter SUSP. READY, or it keeps the list. -/
lemma mutexUnlock_suspReady {r : MutexResult} (hi : Inheriting s) (hm : m ∈ s.mutexes)
    (hexec : (s.pcbs p).state = .exec) (hrun : s.mutexUnlock m p = some (r, s')) :
    (SuspReadyKept s s' ∧ ∀ next, m.currentProcess = some p → m.list.head? = some next →
        (s.pcbs next).state ≠ .suspBlock) ∨
      ∃ next, m.currentProcess = some p ∧ m.list.head? = some next ∧
        (s.pcbs next).state = .suspBlock ∧ SuspReadyEntered next s s' := by
  have hmutexes : ∀ (t : Queues) (f : Mutex → Mutex), SuspReadyKept t (t.modifyMutex m.id f) :=
    fun _ _ => ⟨rfl, fun _ => Iff.rfl, fun _ _ => rfl⟩
  have hd := dropped_removePriority m p s
  have hlist : (if (s.removePriority p m.nextPriority).1 then
      (s.removePriority p m.nextPriority).2.updateLowestExecPriority
      else (s.removePriority p m.nextPriority).2).suspReady = s.suspReady := by
    split <;> rfl
  unfold mutexUnlock at hrun
  split at hrun
  · rename_i hne
    obtain ⟨-, rfl⟩ := Prod.mk.inj (Option.some.inj hrun)
    exact .inl ⟨.refl _, fun _ hcur => absurd hcur hne⟩
  rename_i hcur
  have hcur : m.currentProcess = some p := not_not.1 hcur
  have hcount := (hi.sound.mutex m hm).state (by simp)
  rw [hcur, if_neg (by simp)] at hcount
  simp only [(hi.sound.mutex m hm).active, if_true] at hrun
  set t := if (s.removePriority p m.nextPriority).1 then
    (s.removePriority p m.nextPriority).2.updateLowestExecPriority
    else (s.removePriority p m.nextPriority).2
  -- only the caller loses an entry, and it is running
  have hdropped : SuspReadyKept s t := by
    refine ⟨hlist, fun q => ?_, fun q hq => ?_⟩
    · by_cases heq : q = p
      · rw [heq, hd.self]
      · rw [hd.other q heq]
    · have hne : q ≠ p := by
        rintro rfl
        rw [hexec] at hq
        exact absurd hq (by decide)
      rw [hd.other q hne]
  have hstate : ∀ q, (t.pcbs q).state = (s.pcbs q).state := by
    intro q
    by_cases hq : q = p
    · rw [hq, hd.self]
    · rw [hd.other q hq]
  obtain ⟨u, hu, heq⟩ := Option.map_eq_some_iff.1 hrun
  obtain ⟨-, rfl⟩ := Prod.mk.inj heq
  cases hwaiting : m.list with
  | nil =>
    have hzero : m.state = 0 := by
      rw [hwaiting] at hcount
      simpa using hcount
    rw [if_pos hzero] at hu
    obtain rfl := Option.some.inj hu
    exact .inl ⟨(hdropped.trans (hmutexes t _)).trans (hmutexes _ _), fun _ _ h =>
      absurd h (by simp)⟩
  | cons next rest =>
    rw [hwaiting, List.length_cons] at hcount
    rw [if_neg (by omega), if_pos (by omega), hwaiting] at hu
    have hnext : (t.pcbs next).state ≠ .suspReady := by
      intro hready
      have hmem : next ∈ m.list := hwaiting ▸ List.mem_cons_self
      have hblock := (((hi.sound.mutex m hm).blocked next).1 hmem).resolve_right (by simp)
      rcases (hi.sound.pcb next).notRunning (by simp [hblock]) with hs | hs <;>
        rw [← hstate, hready] at hs <;> exact absurd hs (by decide)
    rcases handOver_suspReady hnext hu with ⟨h, hne⟩ | ⟨hsusp, h⟩
    · refine .inl ⟨(hdropped.trans h).trans (hmutexes _ _), fun q _ hq => ?_⟩
      obtain rfl := Option.some.inj hq
      rwa [hstate] at hne
    · rw [hstate] at hsusp
      exact .inr ⟨next, hcur, rfl, hsusp, (h.after hdropped).of_eq rfl rfl⟩

/-- What a step does to SUSP. READY: it keeps the list, or one process enters or leaves. A
`mutex_lock` keeps it as well, but for the priorities. -/
inductive SuspReadyEffect (s : Queues) (a : Action) (s' : Queues) : Prop
  | kept (h : SuspReadyKept s s') (out : ∀ q, ¬ EntersSuspReady s a q)
  | locked (id : String) (p : ℕ) (call : a = .mutexLock id p) (list : s'.suspReady = s.suspReady)
      (state : ∀ q, (s'.pcbs q).state = .suspReady ↔ (s.pcbs q).state = .suspReady)
  | left (p : ℕ) (h : SuspReadyLeft p s s') (out : ∀ q, ¬ EntersSuspReady s a q)
  | entered (q : ℕ) (h : SuspReadyEntered q s s') (enters : EntersSuspReady s a q)

/-- **What a step does to SUSP. READY.** -/
lemma suspReady_step {a : Action} (hi : Inheriting s) (hstep : step s a = some s') :
    SuspReadyEffect s a s' := by
  have hcreated : ∀ {priority state}, Created priority state s s' → s'.suspReady = s.suspReady →
      state ≠ .suspReady → SuspReadyKept s s' := by
    intro priority state hc hlist hstate
    have hnew := hi.sound.state_of_ge (le_refl s.nextPid)
    refine ⟨hlist, fun q => ?_, fun q hq => ?_⟩
    · by_cases heq : q = s.nextPid
      · rw [heq, hc.self, hnew]
        exact iff_of_false hstate (by decide)
      · rw [hc.other q heq]
    · have hne : q ≠ s.nextPid := by
        rintro rfl
        rw [hnew] at hq
        exact absurd hq (by decide)
      rw [hc.other q hne]
  cases a with
  | newReady priority accepted =>
    have hlist : s'.suspReady = s.suspReady := by
      simp only [step, transitionNewReady] at hstep
      split at hstep
      · split at hstep
        · rw [(transitionToReady_spec hstep).1]
          rfl
        · rw [← Option.some.inj hstep]
          rfl
      · exact absurd hstep (by simp)
    rcases transitionNewReady_spec hstep with ⟨hc, -⟩ | ⟨hc, -⟩
    · exact .kept (hcreated hc hlist (by decide)) fun _ => id
    · exact .kept (hcreated hc hlist (by decide)) fun _ => id
  | dispatch =>
    obtain ⟨⟨q, t⟩, hdispatch, rfl⟩ := Option.map_eq_some_iff.1 hstep
    obtain ⟨⟨q', ready⟩, -, heq⟩ := Option.map_eq_some_iff.1 hdispatch
    obtain ⟨rfl, rfl⟩ := Prod.mk.inj heq
    have hready : SuspReadyKept s { s with ready := ready } :=
      ⟨rfl, fun _ => Iff.rfl, fun _ _ => rfl⟩
    exact .kept (hready.trans (.readyExec q' _)) fun _ => id
  | execReady p => exact .kept (.execReady hstep) fun _ => id
  | preemptionPriority p =>
    rcases managePreemptionPriority_spec hstep with rfl | ⟨newPcb, ready, t, -, ht, rfl⟩
    · exact .kept (.refl _) fun _ => id
    · have hready : SuspReadyKept s { s with ready := ready } :=
      ⟨rfl, fun _ => Iff.rfl, fun _ _ => rfl⟩
      exact .kept ((hready.trans (.execReady ht)).trans (.readyExec newPcb t)) fun _ => id
  | execBlock p =>
    obtain rfl := Option.some.inj hstep
    by_cases hexec : (s.pcbs p).state = .exec
    · refine .kept (.of_moved (transitionExecBlock_spec hexec).1 ?_ (by rw [hexec]; decide)
        (by decide)) fun _ => id
      obtain ⟨exec, htake⟩ := transitionTakeExec_eq p (s.setState p .block)
      rw [transitionExecBlock, if_pos hexec, htake]
      rfl
    · rw [transitionExecBlock, if_neg hexec]
      exact .kept (.refl _) fun _ => id
  | unlock p =>
    simp only [step] at hstep
    split at hstep
    · rcases transitionUnlock_suspReady hstep with ⟨h, hne⟩ | ⟨hsusp, h⟩
      · refine .kept h ?_
        rintro q ⟨rfl, hstate⟩
        exact hne hstate
      · exact .entered p h ⟨rfl, hsusp⟩
    · exact absurd hstep (by simp)
  | blockSuspBlock p suspended =>
    obtain rfl := Option.some.inj hstep
    rcases transitionBlockSuspBlock_spec p suspended s with hsame | ⟨hstate, hmoved, -⟩
    · rw [hsame]
      exact .kept (.refl _) fun _ => id
    · refine .kept (.of_moved hmoved ?_ (by rw [hstate]; decide) (by decide)) fun _ => id
      unfold transitionBlockSuspBlock
      split <;> rfl
  | suspReady p resumed =>
    rcases transitionSuspReady_spec hstep with rfl | ⟨hstate, hmoved, -⟩
    · exact .kept (.refl _) fun _ => id
    · refine .left p ⟨?_, ?_, fun q hq => by rw [hmoved.other q hq], hmoved.priority⟩ fun _ => id
      · simp only [step, transitionSuspReady] at hstep
        split at hstep
        · rw [(transitionToReady_spec hstep).1]
          rfl
        · rename_i hnot
          obtain rfl := Option.some.inj hstep
          have hready := congrArg Pcb.state hmoved.self
          rw [hstate] at hready
          exact absurd hready (by simp)
      · rw [hmoved.self]
        simp
  | execExit p =>
    obtain rfl := Option.some.inj hstep
    rcases transitionExecExit_spec p s with hsame | ⟨hstate, hended⟩
    · rw [hsame]
      exact .kept (.refl _) fun _ => id
    · refine .kept ⟨?_, fun q => ?_, fun q _ => ?_⟩ fun _ => id
      · obtain ⟨exec, htake⟩ := transitionTakeExec_eq p (s.setState p .exit)
        rw [transitionExecExit, if_pos hstate, htake]
        rfl
      · by_cases hq : q = p
        · rw [hq, hended.self, hstate]
          exact iff_of_false (by simp) (by simp)
        · rw [hended.other q hq]
      · by_cases hq : q = p
        · rw [hq, hended.self]
        · rw [hended.other q hq]
  | mutexCreate id p =>
    obtain rfl := step_mutexCreate hstep
    obtain ⟨-, -, hpcbs, -⟩ := createAndAddMutex_spec hi.sound hi.balanced id
    refine .kept ⟨?_, fun q => by rw [hpcbs], fun q _ => by rw [hpcbs]⟩ fun _ h => h
    unfold createAndAddMutex
    split <;> rfl
  | mutexLock id p =>
    obtain ⟨hexec, rfl | ⟨m, hm, -, r, hrun⟩⟩ := step_mutexLock hstep
    · exact .kept (.refl _) fun _ h => h
    · obtain ⟨-, -, heffect⟩ := mutexLock_spec hi.sound hi.balanced hm hexec hrun
      refine .locked id p rfl (mutexLock_kept hrun).1 fun q => ?_
      rcases heffect.state q with heq | ⟨rfl, hblock⟩
      · rw [heq]
      · rw [hblock, hexec]
        exact iff_of_false (by decide) (by decide)
  | mutexUnlock id p =>
    simp only [step] at hstep
    split at hstep
    · rename_i hexec
      obtain ⟨⟨r, u⟩, hrun, rfl⟩ := Option.map_eq_some_iff.1 hstep
      unfold listMutexUnlock at hrun
      split at hrun
      · rename_i hnone
        obtain ⟨-, rfl⟩ := Prod.mk.inj (Option.some.inj hrun)
        refine .kept (.refl _) ?_
        rintro q ⟨m, hm, -⟩
        rw [hnone] at hm
        exact absurd hm (by simp)
      · rename_i m hlookup
        obtain ⟨rfl, hm⟩ := lookupKey_eq_some hlookup
        rcases mutexUnlock_suspReady hi hm hexec hrun with ⟨h, hne⟩ | ⟨q, hcur, hfirst, hsusp, h⟩
        · refine .kept h ?_
          rintro q ⟨m', hm', hcur, hfirst, hsusp⟩
          obtain rfl := Option.some.inj (hlookup.symm.trans hm')
          exact hne q hcur hfirst hsusp
        · exact .entered q h ⟨m, hlookup, hcur, hfirst, hsusp⟩
    · exact absurd hstep (by simp)

/-- Every step keeps SUSP. READY the list of the processes of that state. -/
lemma suspReadyListed_step {a : Action} (hi : Inheriting s) (h : SuspReadyListed s)
    (hstep : step s a = some s') : SuspReadyListed s' := by
  have hkept : s'.suspReady = s.suspReady →
      (∀ q, (s'.pcbs q).state = .suspReady ↔ (s.pcbs q).state = .suspReady) →
      SuspReadyListed s' := by
    intro hlist hstate
    refine ⟨hlist ▸ h.nodup, fun q => ?_⟩
    rw [hlist, hstate]
    exact h.mem q
  cases suspReady_step hi hstep with
  | kept hk => exact hkept hk.list hk.state
  | locked _ _ _ hlist hstate => exact hkept hlist hstate
  | entered p hentered =>
    have hperm := perm_insertPcbSorted s'.pcbs p s.suspReady
    have hnot : p ∉ s.suspReady := fun hmem => hentered.source ((h.mem p).1 hmem)
    refine ⟨?_, fun q => ?_⟩
    · rw [hentered.list]
      exact hperm.nodup_iff.2 (List.nodup_cons.2 ⟨hnot, h.nodup⟩)
    · rw [hentered.list, mem_insertPcbSorted, h.mem]
      by_cases hq : q = p
      · rw [hq]
        exact iff_of_true (.inl rfl) hentered.target
      · rw [hentered.other q hq]
        exact or_iff_right hq
  | left p hleft =>
    refine ⟨?_, fun q => ?_⟩
    · rw [hleft.list]
      exact h.nodup.sublist List.erase_sublist
    · rw [hleft.list, h.nodup.mem_erase_iff, h.mem]
      by_cases hq : q = p
      · rw [hq]
        exact iff_of_false (fun hmem => hmem.1 rfl) hleft.target
      · rw [hleft.other q hq]
        exact and_iff_right hq

/-- The order only depends on the priorities of the processes in the list. -/
lemma sortedByPriority_congr {pcbs pcbs' : ℕ → Pcb} {list : List ℕ}
    (h : ∀ q ∈ list, (pcbs' q).priority = (pcbs q).priority) :
    SortedByPriority pcbs' list ↔ SortedByPriority pcbs list := by
  refine List.Pairwise.iff_of_mem fun {a b} ha hb => ?_
  rw [h a ha, h b hb]

/-- **The order after a `mutex_lock`**: it is kept exactly when the condition holds.

**Proof sketch.** The processes on the chain get the better one of their priority and that of the
caller. In a sorted list only one that gets a better priority can come out of order, and only
with one in front of it that stays worse than the caller. -/
lemma sorted_mutexLock_iff {r : MutexResult} (hi : Inheriting s) (hm : m ∈ s.mutexes)
    (hexec : (s.pcbs p).state = .exec) (hrun : s.mutexLock m p = some (r, s'))
    (hsorted : SortedByPriority s.pcbs s.suspReady) :
    SortedByPriority s'.pcbs s'.suspReady ↔ KeepsOrder s (.mutexLock m.id p) := by
  have hon := fun q => priority_mutexLock_of_onChain (q := q) hi hm hexec hrun
  have hoff := fun q => priority_mutexLock_of_not_onChain (q := q) hi hm hexec hrun
  have hpair : ∀ a b, (s.pcbs a).priority ≤ (s.pcbs b).priority →
      ((s'.pcbs a).priority ≤ (s'.pcbs b).priority ↔
        (OnChain m s b → (s.pcbs p).priority < (s.pcbs b).priority →
          (s.pcbs a).priority ≤ (s.pcbs p).priority ∨ OnChain m s a)) := by
    intro a b hle
    by_cases hb : OnChain m s b <;> by_cases ha : OnChain m s a
    · rw [hon a ha, hon b hb]
      exact iff_of_true (by omega) fun _ _ => .inr ha
    · rw [hoff a ha, hon b hb]
      simp only [hb, ha, or_false, true_implies]
      omega
    · rw [hon a ha, hoff b hb]
      exact iff_of_true (by omega) fun h => absurd h hb
    · rw [hoff a ha, hoff b hb]
      exact iff_of_true hle fun h => absurd h hb
  have hlookup := hi.sound.mutex_eq hm
  rw [(mutexLock_kept hrun).1]
  constructor
  · intro h m' hm'
    obtain rfl : m = m' := Option.some.inj (hlookup.symm.trans hm')
    exact hsorted.imp₂ (fun a b hab hab' => (hpair a b hab).1 hab') h
  · intro h
    exact hsorted.imp₂ (fun a b hab hab' => (hpair a b hab).2 hab') (h m hlookup)

/-- The same for the call by name; an unknown name changes nothing. -/
lemma sorted_step_mutexLock_iff (hi : Inheriting s)
    (hsorted : SortedByPriority s.pcbs s.suspReady) (hstep : step s (.mutexLock id p) = some s') :
    SortedByPriority s'.pcbs s'.suspReady ↔ KeepsOrder s (.mutexLock id p) := by
  simp only [step] at hstep
  split at hstep
  · rename_i hexec
    obtain ⟨⟨r, u⟩, hrun, rfl⟩ := Option.map_eq_some_iff.1 hstep
    unfold listMutexLock at hrun
    split at hrun
    · rename_i hnone
      obtain ⟨-, rfl⟩ := Prod.mk.inj (Option.some.inj hrun)
      exact iff_of_true hsorted fun m hm => absurd (hnone.symm.trans hm) (by simp)
    · rename_i m hlookup
      obtain ⟨rfl, hm⟩ := lookupKey_eq_some hlookup
      exact sorted_mutexLock_iff hi hm hexec hrun hsorted
  · exact absurd hstep (by simp)

/-- Every step but a `mutex_lock` keeps the order. -/
lemma sorted_step_of_ne_mutexLock {a : Action} (hi : Inheriting s) (h : SuspReadyListed s)
    (hsorted : SortedByPriority s.pcbs s.suspReady) (hstep : step s a = some s')
    (hne : ∀ id p, a ≠ .mutexLock id p) : SortedByPriority s'.pcbs s'.suspReady := by
  have hkept : (∀ q, (s.pcbs q).state = .suspReady → (s'.pcbs q).priority = (s.pcbs q).priority) →
      SortedByPriority s'.pcbs s.suspReady := fun hprio =>
    (sortedByPriority_congr fun q hq => hprio q ((h.mem q).1 hq)).2 hsorted
  cases suspReady_step hi hstep with
  | kept hk =>
    rw [hk.list]
    exact hkept hk.priority
  | locked id p call => exact absurd call (hne id p)
  | entered p hentered =>
    rw [hentered.list]
    exact sortedByPriority_insertPcbSorted (hkept hentered.priority) p
  | left p hleft =>
    rw [hleft.list]
    exact (hkept fun q _ => hleft.priority q).sublist List.erase_sublist

/-- **A step keeps the order exactly when it meets the condition.** -/
lemma sorted_step_iff {a : Action} (hi : Inheriting s) (h : SuspReadyListed s)
    (hsorted : SortedByPriority s.pcbs s.suspReady) (hstep : step s a = some s') :
    SortedByPriority s'.pcbs s'.suspReady ↔ KeepsOrder s a := by
  cases a with
  | mutexLock id p => exact sorted_step_mutexLock_iff hi hsorted hstep
  | _ =>
    have hs' := sorted_step_of_ne_mutexLock hi h hsorted hstep fun _ _ => by simp
    exact iff_of_true hs' trivial

/-! ## Runs -/

/-- **SUSP. READY is sorted by the current priorities along every run whose steps meet the
condition**, and a step from there keeps it so exactly when it meets the condition too. -/
theorem resumedInOrder_of_run {multilevel : Bool} {algorithms : List SchedulingAlgorithm}
    {preemption : Bool} {s : Queues}
    (h : Run step KeepsOrder (initQueues multilevel algorithms preemption) s) :
    ResumedInOrder s ∧
      ∀ a s', step s a = some s' → (ResumedInOrder s' ↔ KeepsOrder s a) := by
  have hall : Inheriting s ∧ SuspReadyListed s ∧ SortedByPriority s.pcbs s.suspReady := by
    apply h.invariant (I := fun t =>
      Inheriting t ∧ SuspReadyListed t ∧ SortedByPriority t.pcbs t.suspReady)
    · refine ⟨inheriting_init multilevel algorithms preemption, ⟨List.nodup_nil, fun q => ?_⟩,
        List.Pairwise.nil⟩
      simp [initQueues, createPcb]
    · rintro t a t' ⟨hi, hlisted, hsorted⟩ hok hstep
      exact ⟨inheriting_step hi hstep, suspReadyListed_step hi hlisted hstep,
        (sorted_step_iff hi hlisted hsorted hstep).2 hok⟩
  obtain ⟨hi, hlisted, hsorted⟩ := hall
  refine ⟨hlisted.resumedInOrder hsorted, fun a s' hstep => ?_⟩
  rw [← sorted_step_iff hi hlisted hsorted hstep]
  exact ⟨fun hs' => hs'.sorted, (suspReadyListed_step hi hlisted hstep).resumedInOrder⟩

/-- No process of SUSP. READY that has one behind it is worse than the caller of a `mutex_lock`. -/
def BehindNoWorse (s : Queues) : Action → Prop
  | .mutexLock _ p => s.suspReady.Pairwise fun a _ => (s.pcbs a).priority ≤ (s.pcbs p).priority
  | _ => True

instance (s : Queues) (a : Action) : Decidable (BehindNoWorse s a) := by
  cases a <;> unfold BehindNoWorse <;> infer_instance

/-- Who comes behind no worse one keeps the order. -/
lemma keepsOrder_of_behindNoWorse {a : Action} (h : BehindNoWorse s a) : KeepsOrder s a := by
  cases a with
  | mutexLock id p => exact fun _ _ => List.Pairwise.imp (fun hle _ _ => .inl hle) h
  | _ => trivial

/-- Two processes are suspended and ready again, and the worse one holds a mutex, when a third one
asks for it. The arguments are the priorities of the three. -/
def suspendedHolder (prio₀ prio₁ prio₂ : ℤ) : List Action :=
  [.newReady prio₀ true, .newReady prio₁ true, .newReady prio₂ true, .dispatch, .dispatch,
    .dispatch, .mutexCreate "m" 0, .mutexLock "m" 0, .execBlock 0, .execBlock 1,
    .blockSuspBlock 0 true, .blockSuspBlock 1 true, .unlock 0, .unlock 1, .mutexLock "m" 2]

/-- The holder is raised, and stays behind the one that is still better. -/
theorem resumedInOrder_of_run_suspendedHolder :
    ∃ s, executeOk step BehindNoWorse (initQueues true (List.replicate 3 .fifo) false)
        (suspendedHolder 2 0 1) = some s ∧ s.suspReady = [1, 0] ∧ ResumedInOrder s := by
  have hrun : (executeOk step BehindNoWorse (initQueues true (List.replicate 3 .fifo) false)
      (suspendedHolder 2 0 1)).map Queues.suspReady = some [1, 0] := by decide
  obtain ⟨s, hs, hlist⟩ := Option.map_eq_some_iff.1 hrun
  have h := (Run.of_executeOk hs).mono fun _ _ => keepsOrder_of_behindNoWorse
  exact ⟨s, hs, hlist, (resumedInOrder_of_run h).1⟩

/-- **A suspended holder inherits the best priority and stays behind the other process.** -/
theorem resumedInOrder_fails :
    ∃ s, Reachable step (initQueues true (List.replicate 3 .fifo) false) s ∧
      s.suspReady = [1, 0] ∧ (s.pcbs 1).priority = 1 ∧ (s.pcbs 0).priority = 0 ∧
      ¬ ResumedInOrder s := by
  have hrun : (execute step (initQueues true (List.replicate 3 .fifo) false)
      (suspendedHolder 2 1 0)).map (fun s =>
        (s.suspReady, (s.pcbs 1).priority, (s.pcbs 0).priority)) = some ([1, 0], 1, 0) := by decide
  obtain ⟨s, hs, heq⟩ := Option.map_eq_some_iff.1 hrun
  obtain ⟨hlist, hrest⟩ := Prod.mk.inj heq
  obtain ⟨h₁, h₀⟩ := Prod.mk.inj hrest
  refine ⟨s, Run.of_execute hs, hlist, h₁, h₀, fun h => ?_⟩
  have hsorted := h.sorted
  rw [hlist] at hsorted
  have hle := (List.pairwise_cons.1 hsorted).1 0 (by simp)
  rw [h₁, h₀] at hle
  exact absurd hle (by decide)

end OsSimulator.Scheduler
