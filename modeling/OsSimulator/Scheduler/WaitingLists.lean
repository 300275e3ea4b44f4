import OsSimulator.Scheduler.SuspendedOrder

set_option relaxedAutoImplicit false
set_option autoImplicit false

/-!
# What a mutex call does to the waiting lists

`propagate_priority_transitive` takes a process that has inherited a priority out of the waiting
list it is in and inserts it again. Along a chain each list is visited once at most, since its mutex
stays locked.

## Main definitions

* `Reinserted s s' list list'` — the list stays with its priorities, or one process in it has
  another priority and has been inserted again.
* `ChainLists locked s s'` — this for the list of every mutex, and nothing for the locked ones.

## Main results

* `chainLists_replacePriority` — what a whole chain does.
-/

namespace OsSimulator.Scheduler

open Queues

variable {p q : ℕ} {id : String} {locked : List String} {s s' t u : Queues} {m : Mutex}

/-- An insertion only looks at the priorities. -/
lemma insertPcbSorted_congr {pcbs pcbs' : ℕ → Pcb} {list : List ℕ}
    (hself : (pcbs' p).priority = (pcbs p).priority)
    (h : ∀ q ∈ list, (pcbs' q).priority = (pcbs q).priority) :
    insertPcbSorted pcbs' p list = insertPcbSorted pcbs p list := by
  unfold insertPcbSorted
  induction list with
  | nil => rfl
  | cons first rest ih =>
    have hrest := ih fun q hq => h q (List.mem_cons_of_mem _ hq)
    rw [listAddSorted, listAddSorted, hrest, isHighestPriority, isHighestPriority, hself,
      h first List.mem_cons_self]

/-- What a chain does to one waiting list. -/
inductive Reinserted (s s' : Queues) (list list' : List ℕ) : Prop
  | kept (same : list' = list) (priority : ∀ q ∈ list, (s'.pcbs q).priority = (s.pcbs q).priority)
  | moved (q : ℕ) (mem : q ∈ list) (changed : (s'.pcbs q).priority ≠ (s.pcbs q).priority)
      (other : ∀ r ∈ list, r ≠ q → (s'.pcbs r).priority = (s.pcbs r).priority)
      (inserted : list' = (insertPcbSorted s'.pcbs q (list.erase q)).2)

/-- The waiting lists and the blocking mutexes agree, but for those that may have been entered
already in the lists of the locked mutexes. -/
structure Listed (locked : List String) (s : Queues) : Prop where
  active : ∀ id m, s.mutex id = some m → m.priorityActive = true
  mem : ∀ id m, s.mutex id = some m → ∀ q, (s.pcbs q).blockingMutex = some id → q ∈ m.list
  blocked : ∀ id m, s.mutex id = some m → id ∉ locked →
    ∀ q ∈ m.list, (s.pcbs q).blockingMutex = some id

/-- What a chain that holds the locks `locked` does to the waiting lists. -/
def ChainLists (locked : List String) (s s' : Queues) : Prop :=
  ∀ id m, s.mutex id = some m → ∃ m', s'.mutex id = some m' ∧
    (id ∈ locked → m'.list = m.list ∧
      ∀ q, (s.pcbs q).blockingMutex = some id → (s'.pcbs q).priority = (s.pcbs q).priority) ∧
    (id ∉ locked → Reinserted s s' m.list m'.list)

/-- The process `p` has another priority. -/
structure Reprioritized (p : ℕ) (s u : Queues) : Prop where
  priority : (u.pcbs p).priority ≠ (s.pcbs p).priority
  blocking : (u.pcbs p).blockingMutex = (s.pcbs p).blockingMutex
  other : ∀ q, q ≠ p → u.pcbs q = s.pcbs q
  mutexes : u.mutexes = s.mutexes

/-- A priority that changes leaves the mutexes alone. -/
lemma Reprioritized.mutex_eq (h : Reprioritized p s u) (id : String) :
    u.mutex id = s.mutex id := by
  rw [mutex, h.mutexes, mutex]

/-- Without a change of a priority the lists stay. -/
lemma chainLists_of_eq (hmutexes : s'.mutexes = s.mutexes)
    (hprio : ∀ q, (s'.pcbs q).priority = (s.pcbs q).priority) : ChainLists locked s s' := by
  intro id m hm
  refine ⟨m, ?_, fun _ => ⟨rfl, fun q _ => hprio q⟩, fun _ => .kept rfl fun q _ => hprio q⟩
  rwa [mutex, hmutexes]

/-- One link of the chain, when the rest of it does this. -/
lemma chainLists_replacePriorityWith {propagate : ℕ → ℤ → Queues → Option Queues}
    (hprop : ∀ h v s u s', Listed locked s → Reprioritized h s u → propagate h v u = some s' →
      ChainLists locked s s')
    {h : ℕ} {old new : ℤ} (hl : Listed locked s)
    (hrun : replacePriorityWith propagate h old new s = some s') : ChainLists locked s s' := by
  have hblocking : ((s.replaceEntry h old new).pcbs h).blockingMutex =
      (s.pcbs h).blockingMutex := by
    simp [replaceEntry]
  have hother : ∀ q, q ≠ h → (s.replaceEntry h old new).pcbs q = s.pcbs q := by
    intro q hq
    simp [replaceEntry, hq]
  unfold replacePriorityWith at hrun
  split at hrun
  · exact absurd hrun (by simp)
  simp only at hrun
  split at hrun
  · rename_i hchanged
    obtain ⟨u, hu, hpropagated⟩ := Option.bind_eq_some_iff.1 hrun
    obtain ⟨ready, rfl, -⟩ := updatePriority_spec hu
    have hr : Reprioritized h s { s.replaceEntry h old new with ready := ready } :=
      ⟨hchanged, hblocking, hother, rfl⟩
    exact hprop h _ s _ s' hl hr hpropagated
  · rename_i hsame
    obtain rfl := Option.some.inj hrun
    refine chainLists_of_eq rfl fun q => ?_
    by_cases hq : q = h
    · rw [hq]
      exact not_not.1 hsame
    · rw [hother q hq]

/-- The state in which a process with another priority has been inserted again in the list of the
mutex it waits for. -/
structure InsertedAgain (p : ℕ) (m : Mutex) (s u t : Queues) : Prop where
  pcbs : t.pcbs = u.pcbs
  self : ∃ m', t.mutex m.id = some m' ∧ m'.priorityActive = m.priorityActive ∧
    m'.list = (insertPcbSorted u.pcbs p (m.list.erase p)).2
  other : ∀ id, id ≠ m.id → t.mutex id = s.mutex id

section InsertedAgain

variable (hl : Listed locked s) (hr : Reprioritized p s u)
  (hblock : (s.pcbs p).blockingMutex = some m.id) (hlookup : s.mutex m.id = some m)
  (ht : InsertedAgain p m s u t)

include hr ht in
/-- A process that is inserted again waits for the same mutex. -/
lemma blocking_insertedAgain (q : ℕ) :
    (t.pcbs q).blockingMutex = (s.pcbs q).blockingMutex := by
  rw [ht.pcbs]
  by_cases hq : q = p
  · rw [hq, hr.blocking]
  · rw [hr.other q hq]

include hl hr hlookup ht in
/-- The list has the same processes, and its mutex is locked now. -/
lemma listed_insertedAgain : Listed (m.id :: locked) t := by
  obtain ⟨m', hm', hactive, hlist⟩ := ht.self
  have hblocking := blocking_insertedAgain hr ht
  refine ⟨fun id' m₁ h₁ => ?_, fun id' m₁ h₁ q hq => ?_, fun id' m₁ h₁ hfree q hq => ?_⟩
  · by_cases hid : id' = m.id
    · subst hid
      obtain rfl := Option.some.inj (hm'.symm.trans h₁)
      rw [hactive]
      exact hl.active m.id m hlookup
    · rw [ht.other id' hid] at h₁
      exact hl.active id' m₁ h₁
  · rw [hblocking] at hq
    by_cases hid : id' = m.id
    · subst hid
      obtain rfl := Option.some.inj (hm'.symm.trans h₁)
      rw [hlist, mem_insertPcbSorted]
      by_cases heq : q = p
      · exact .inl heq
      · exact .inr ((List.mem_erase_of_ne heq).2 (hl.mem m.id m hlookup q hq))
    · rw [ht.other id' hid] at h₁
      exact hl.mem id' m₁ h₁ q hq
  · rw [hblocking]
    have hid : id' ≠ m.id := by
      rintro rfl
      exact hfree List.mem_cons_self
    rw [ht.other id' hid] at h₁
    exact hl.blocked id' m₁ h₁ (fun hmem => hfree (List.mem_cons_of_mem _ hmem)) q hq

include hl hr hblock hlookup ht in
/-- The rest of the chain leaves this list, so that the whole chain has inserted one process again
in it. -/
lemma chainLists_insertedAgain (hfresh : m.id ∉ locked)
    (hrest : ChainLists (m.id :: locked) t s') : ChainLists locked s s' := by
  obtain ⟨m', hm', -, hlist⟩ := ht.self
  have hblocking := blocking_insertedAgain hr ht
  have hprio : ∀ q, q ≠ p → (t.pcbs q).priority = (s.pcbs q).priority := by
    intro q hq
    rw [ht.pcbs, hr.other q hq]
  intro id' m₁ h₁
  by_cases hid : id' = m.id
  · subst hid
    obtain rfl := Option.some.inj (hlookup.symm.trans h₁)
    obtain ⟨m'', hm'', hlocked, -⟩ := hrest m.id m' hm'
    obtain ⟨hsame, hkept⟩ := hlocked List.mem_cons_self
    have hlast : ∀ q ∈ m.list, (s'.pcbs q).priority = (t.pcbs q).priority := by
      intro q hq
      apply hkept q
      rw [hblocking]
      exact hl.blocked m.id m hlookup hfresh q hq
    have hmem := hl.mem m.id m hlookup p hblock
    refine ⟨m'', hm'', fun hmem => absurd hmem hfresh, fun _ => .moved p hmem ?_ ?_ ?_⟩
    · rw [hlast p hmem, ht.pcbs]
      exact hr.priority
    · intro r hrm hne
      rw [hlast r hrm, hprio r hne]
    · rw [hsame, hlist]
      refine congrArg Prod.snd (insertPcbSorted_congr ?_ fun q hq => ?_)
      · rw [← ht.pcbs, hlast p hmem]
      · rw [← ht.pcbs, hlast q (List.mem_of_mem_erase hq)]
  · rw [← ht.other id' hid] at h₁
    have hne : ∀ q, (s.pcbs q).blockingMutex = some id' → q ≠ p := by
      rintro q hq rfl
      rw [hblock] at hq
      exact hid (Option.some.inj hq).symm
    obtain ⟨m'', hm'', hlocked, hfree⟩ := hrest id' m₁ h₁
    refine ⟨m'', hm'', fun hmem => ?_, fun hmem => ?_⟩
    · obtain ⟨hsame, hkept⟩ := hlocked (List.mem_cons_of_mem _ hmem)
      refine ⟨hsame, fun q hq => ?_⟩
      rw [hkept q ((hblocking q).trans hq), hprio q (hne q hq)]
    · have hprioList : ∀ q ∈ m₁.list, (t.pcbs q).priority = (s.pcbs q).priority := by
        intro q hq
        rw [ht.other id' hid] at h₁
        exact hprio q (hne q (hl.blocked id' m₁ h₁ hmem q hq))
      have hnot : id' ∉ m.id :: locked := fun h =>
        (List.mem_cons.1 h).elim hid hmem
      cases hfree hnot with
      | kept same priority =>
        exact .kept same fun q hq => (priority q hq).trans (hprioList q hq)
      | moved q hq changed other inserted =>
        refine .moved q hq ?_ (fun r hrm hne => ?_) inserted
        · rwa [← hprioList q hq]
        · rw [other r hrm hne, hprioList r hrm]

end InsertedAgain

/-- **The whole chain**, from the process that has inherited on.

**Proof sketch.** Induction on the rounds. The process is in the list of one mutex at most, which is
not locked, since the call returns. There it is inserted again, and the rest of the chain finds
the mutex locked: it changes neither that list nor a priority in it. -/
lemma chainLists_propagatePriorityTransitive (rounds : ℕ) (locked : List String) (h : ℕ) (v : ℤ)
    (s u s' : Queues) (hl : Listed locked s) (hr : Reprioritized h s u)
    (hrun : propagatePriorityTransitive rounds locked h v u = some s') :
    ChainLists locked s s' := by
  induction rounds generalizing locked h v s u s' with
  | zero => exact absurd hrun (by simp [propagatePriorityTransitive])
  | succ rounds ih =>
    rw [propagatePriorityTransitive] at hrun
    have hotherLists : ∀ id', (s.pcbs h).blockingMutex ≠ some id' → ∀ q,
        (s.pcbs q).blockingMutex = some id' → q ≠ h := by
      rintro id' hne q hq rfl
      exact hne hq
    split at hrun
    · -- nobody's list has the process
      rename_i hnone
      obtain rfl := Option.some.inj hrun
      rw [hr.blocking] at hnone
      have hne : ∀ id', (s.pcbs h).blockingMutex ≠ some id' := by simp [hnone]
      intro id' m hm
      refine ⟨m, (hr.mutex_eq id').trans hm, fun _ => ⟨rfl, fun q hq => ?_⟩,
        fun hid => .kept rfl fun q hq => ?_⟩
      · rw [hr.other q (hotherLists id' (hne id') q hq)]
      · rw [hr.other q (hotherLists id' (hne id') q (hl.blocked id' m hm hid q hq))]
    rename_i id hblock
    rw [hr.blocking] at hblock
    split at hrun
    · exact absurd hrun (by simp)
    rename_i hfresh
    split at hrun
    · exact absurd hrun (by simp)
    rename_i expectedMutex hlookup
    rw [hr.mutex_eq] at hlookup
    have hmem := hl.mem id expectedMutex hlookup h hblock
    rw [if_neg (by simp [hl.active id expectedMutex hlookup, hmem])] at hrun
    obtain rfl : expectedMutex.id = id := (lookupKey_eq_some hlookup).1
    have hself : ∀ f : Mutex → Mutex, (∀ m, (f m).id = m.id) →
        (u.modifyMutex expectedMutex.id f).mutex expectedMutex.id = some (f expectedMutex) := by
      intro f hf
      rw [mutex_modifyMutex_self hf, hr.mutex_eq, hlookup, Option.map_some]
    have hother : ∀ f : Mutex → Mutex, (∀ m, (f m).id = m.id) → ∀ id', id' ≠ expectedMutex.id →
        (u.modifyMutex expectedMutex.id f).mutex id' = s.mutex id' := by
      intro f hf id' hid
      rw [mutex_modifyMutex_of_ne hid hf, hr.mutex_eq]
    simp only at hrun
    split at hrun
    · split at hrun
      · exact absurd hrun (by simp)
      · rename_i holder hholder
        rw [modifyMutex_modifyMutex _ (by exact fun _ => rfl)] at hrun
        have ht : InsertedAgain h expectedMutex s u (u.modifyMutex expectedMutex.id fun m =>
            { m with
              list := (insertPcbSorted u.pcbs h (expectedMutex.list.erase h)).2
              nextPriority := v }) :=
          ⟨rfl, ⟨_, hself _ (by exact fun _ => rfl), rfl, rfl⟩, hother _ (by exact fun _ => rfl)⟩
        have hlisted := listed_insertedAgain hl hr hlookup ht
        exact chainLists_insertedAgain hl hr hblock hlookup ht hfresh
          (chainLists_replacePriorityWith (ih _) hlisted hrun)
    · obtain rfl := Option.some.inj hrun
      have ht : InsertedAgain h expectedMutex s u (u.modifyMutex expectedMutex.id fun m =>
          { m with list := (insertPcbSorted u.pcbs h (expectedMutex.list.erase h)).2 }) :=
        ⟨rfl, ⟨_, hself _ (by exact fun _ => rfl), rfl, rfl⟩, hother _ (by exact fun _ => rfl)⟩
      exact chainLists_insertedAgain hl hr hblock hlookup ht hfresh
        (chainLists_of_eq rfl fun _ => rfl)

/-- **What `replace_priority` does to the waiting lists** in a call that holds the locks of
`locked`. -/
lemma chainLists_replacePriority {h : ℕ} {old new : ℤ} (hl : Listed locked s)
    (hrun : s.replacePriority locked h old new = some s') : ChainLists locked s s' :=
  chainLists_replacePriorityWith
    (chainLists_propagatePriorityTransitive (s.mutexes.length + 1) locked) hl hrun

/-! ## The lists after a lock -/

/-- The waiting list of a mutex. -/
def Queues.waitingList (s : Queues) (id : String) : Option (List ℕ) := (s.mutex id).map Mutex.list

/-- A change that keeps the list of a mutex. -/
lemma waitingList_modifyMutex {f : Mutex → Mutex} (hf : ∀ m, (f m).id = m.id)
    (hlist : ∀ m, (f m).list = m.list) (id id' : String) (s : Queues) :
    (s.modifyMutex id f).waitingList id' = s.waitingList id' := by
  by_cases hid : id' = id
  · subst hid
    rw [waitingList, waitingList, mutex_modifyMutex_self hf, Option.map_map]
    congr 1
    funext m
    exact hlist m
  · rw [waitingList, waitingList, mutex_modifyMutex_of_ne hid hf]

/-- The end of a waiting call leaves the lists and the priorities. -/
lemma waitingList_waitForMutex (id : String) (p : ℕ) (s : Queues) :
    (∀ id', (s.waitForMutex id p).waitingList id' = s.waitingList id') ∧
      ∀ q, ((s.waitForMutex id p).pcbs q).priority = (s.pcbs q).priority := by
  set t := s.setMutexBlocking p (some id) with ht
  have hprio : ∀ q, (t.pcbs q).priority = (s.pcbs q).priority := by
    intro q
    by_cases hq : q = p
    · simp [ht, hq, setMutexBlocking]
    · simp [ht, setMutexBlocking, hq]
  have hblock : (t.transitionExecBlock p).mutexes = s.mutexes ∧
      ∀ q, ((t.transitionExecBlock p).pcbs q).priority = (t.pcbs q).priority := by
    by_cases hexec : (t.pcbs p).state = .exec
    · have hmoved := (transitionExecBlock_spec hexec).1
      exact ⟨hmoved.mutexes, hmoved.priority⟩
    · rw [transitionExecBlock, if_neg hexec]
      exact ⟨rfl, fun _ => rfl⟩
  refine ⟨fun id' => ?_, fun q => (hblock.2 q).trans (hprio q)⟩
  have hlists : (t.transitionExecBlock p).waitingList id' = s.waitingList id' := by
    rw [waitingList, mutex, hblock.1, waitingList, mutex]
  rw [← hlists]
  exact waitingList_modifyMutex (by exact fun _ => rfl) (by exact fun _ => rfl) id id' _

/-- What `mutex_lock` of a held mutex does to the lists: the caller is inserted in that of the
mutex, where no priority changes; the others are those of a chain. -/
structure LockLists (m : Mutex) (p : ℕ) (s s' : Queues) : Prop where
  held : m.state ≠ 1
  self : s'.waitingList m.id = some (insertPcbSorted s'.pcbs p m.list).2
  priority : ∀ q ∈ m.list, (s'.pcbs q).priority = (s.pcbs q).priority
  other : ∀ m₁ ∈ s.mutexes, m₁.id ≠ m.id →
    ∃ list, s'.waitingList m₁.id = some list ∧ Reinserted s s' m₁.list list

/-- The state of `mutex_lock` after the insertion of the caller. -/
lemma listed_insertWaiter (hi : Inheriting s) (hm : m ∈ s.mutexes) :
    Listed [m.id] (s.modifyMutex m.id fun m' =>
      { m' with list := (insertPcbSorted s.pcbs p m.list).2 }) := by
  set f : Mutex → Mutex := fun m' => { m' with list := (insertPcbSorted s.pcbs p m.list).2 } with hf
  have hself : (s.modifyMutex m.id f).mutex m.id = some (f m) := by
    rw [mutex_modifyMutex_self (by exact fun _ => rfl), hi.sound.mutex_eq hm, Option.map_some]
  have hcases : ∀ id m₁, (s.modifyMutex m.id f).mutex id = some m₁ →
      (id = m.id ∧ m₁ = f m) ∨ (id ≠ m.id ∧ m₁.id = id ∧ m₁ ∈ s.mutexes) := by
    intro id m₁ h₁
    by_cases hid : id = m.id
    · subst hid
      exact .inl ⟨rfl, (Option.some.inj (hself.symm.trans h₁)).symm⟩
    · rw [mutex_modifyMutex_of_ne hid (by exact fun _ => rfl)] at h₁
      exact .inr ⟨hid, lookupKey_eq_some h₁⟩
  have hblocked : ∀ m₁ ∈ s.mutexes, ∀ q,
      q ∈ m₁.list ↔ (s.pcbs q).blockingMutex = some m₁.id := by
    intro m₁ h₁ q
    rw [(hi.sound.mutex m₁ h₁).blocked]
    simp
  refine ⟨fun id m₁ h₁ => ?_, fun id m₁ h₁ q hq => ?_, fun id m₁ h₁ hfree q hq => ?_⟩
  · rcases hcases id m₁ h₁ with ⟨-, rfl⟩ | ⟨-, -, hmem⟩
    · exact (hi.sound.mutex m hm).active
    · exact (hi.sound.mutex m₁ hmem).active
  · rcases hcases id m₁ h₁ with ⟨rfl, rfl⟩ | ⟨-, rfl, hmem⟩
    · exact mem_insertPcbSorted.2 (.inr ((hblocked m hm q).2 hq))
    · exact (hblocked m₁ hmem q).2 hq
  · rcases hcases id m₁ h₁ with ⟨rfl, -⟩ | ⟨-, rfl, hmem⟩
    · exact absurd (List.mem_singleton_self _) hfree
    · exact (hblocked m₁ hmem q).1 hq

/-- **The lists after a `mutex_lock`.** A free mutex has nobody in its list, which stays so. -/
lemma mutexLock_lists {r : MutexResult} (hi : Inheriting s) (hm : m ∈ s.mutexes)
    (hexec : (s.pcbs p).state = .exec) (hrun : s.mutexLock m p = some (r, s')) :
    (m.currentProcess = none ∧ m.list = [] ∧ ∀ id, s'.waitingList id = s.waitingList id) ∨
      LockLists m p s s' := by
  have hms := hi.sound.mutex m hm
  have hcaller : (s'.pcbs p).priority = (s.pcbs p).priority := by
    obtain ⟨-, -, heffect⟩ := mutexLock_spec hi.sound hi.balanced hm hexec hrun
    have hself := heffect.priority p
    omega
  unfold mutexLock at hrun
  simp only at hrun
  split at hrun
  · rename_i hfree
    obtain ⟨-, rfl⟩ := Prod.mk.inj (Option.some.inj hrun)
    have hcount := hms.state (by simp)
    refine .inl ⟨?_, List.eq_nil_of_length_eq_zero ?_, fun id => ?_⟩
    · by_contra hne
      rw [if_neg hne] at hcount
      omega
    · split at hcount <;> omega
    · exact waitingList_modifyMutex (by exact fun _ => rfl) (by exact fun _ => rfl) m.id id s
  rename_i hheld
  right
  rw [if_pos hms.active] at hrun
  set f : Mutex → Mutex := fun m' => { m' with list := (insertPcbSorted s.pcbs p m.list).2 }
  set t := s.modifyMutex m.id f with ht
  have hself : t.waitingList m.id = some (insertPcbSorted s.pcbs p m.list).2 := by
    rw [waitingList, ht, mutex_modifyMutex_self (by exact fun _ => rfl), hi.sound.mutex_eq hm]
    rfl
  have hother : ∀ m₁ ∈ s.mutexes, m₁.id ≠ m.id → t.mutex m₁.id = some m₁ := by
    intro m₁ h₁ hid
    rw [ht, mutex_modifyMutex_of_ne hid (by exact fun _ => rfl)]
    exact hi.sound.mutex_eq h₁
  -- what is left to show, once the chain is known
  have hfinish : ∀ u : Queues, ChainLists [m.id] t u →
      (∀ id, s'.waitingList id = u.waitingList id) →
      (∀ q, (s'.pcbs q).priority = (u.pcbs q).priority) → LockLists m p s s' := by
    intro u hchain hlists hprio
    have hlocked : u.waitingList m.id = t.waitingList m.id ∧
        ∀ q ∈ m.list, (u.pcbs q).priority = (s.pcbs q).priority := by
      obtain ⟨m', hm', -⟩ := Option.map_eq_some_iff.1 hself
      obtain ⟨m'', hm'', hkept, -⟩ := hchain m.id m' hm'
      obtain ⟨hsame, hkeptPriority⟩ := hkept (List.mem_singleton_self _)
      refine ⟨?_, fun q hq => hkeptPriority q ?_⟩
      · rw [waitingList, waitingList, hm', hm'', Option.map_some, Option.map_some, hsame]
      · exact ((hms.blocked q).1 hq).resolve_right (by simp)
    have hpriority : ∀ q ∈ m.list, (s'.pcbs q).priority = (s.pcbs q).priority :=
      fun q hq => (hprio q).trans (hlocked.2 q hq)
    refine ⟨hheld, ?_, hpriority, fun m₁ h₁ hid => ?_⟩
    · rw [hlists, hlocked.1, hself]
      exact congrArg (fun inserted : ℕ × List ℕ => some inserted.2)
        (insertPcbSorted_congr hcaller hpriority).symm
    · obtain ⟨m', hm', -, hfree⟩ := hchain m₁.id m₁ (hother m₁ h₁ hid)
      refine ⟨m'.list, ?_, ?_⟩
      · rw [hlists, waitingList, hm', Option.map_some]
      · have hre := hfree (by simpa using hid)
        cases hre with
        | kept same priority => exact .kept same fun q hq => (hprio q).trans (priority q hq)
        | moved q hq changed others inserted =>
          refine .moved q hq (by rwa [hprio]) (fun r hr hne => ?_) ?_
          · exact (hprio r).trans (others r hr hne)
          · rw [inserted, insertPcbSorted_congr (hprio q) fun r _ => hprio r]
  split at hrun
  · split at hrun
    · exact absurd hrun (by simp)
    · obtain ⟨u, hu, heq⟩ := Option.map_eq_some_iff.1 hrun
      obtain ⟨-, rfl⟩ := Prod.mk.inj heq
      have hchain := chainLists_replacePriority (listed_insertWaiter hi hm) hu
      obtain ⟨hlists, hprio⟩ := waitingList_waitForMutex m.id p
        (u.modifyMutex m.id fun m' =>
          { m' with nextPriority := (s.pcbs p).priority }).updateLowestExecPriority
      refine hfinish u hchain (fun id => (hlists id).trans ?_) hprio
      exact waitingList_modifyMutex (by exact fun _ => rfl) (by exact fun _ => rfl) m.id id u
  · obtain ⟨-, rfl⟩ := Prod.mk.inj (Option.some.inj hrun)
    obtain ⟨hlists, hprio⟩ := waitingList_waitForMutex m.id p t
    exact hfinish t (chainLists_of_eq rfl fun _ => rfl) hlists hprio

/-! ## The lists after the other operations -/

/-- Nobody starts to wait for a mutex: a waiting list loses processes at most, and who waits does so
as before. -/
structure WaitingKept (s s' : Queues) : Prop where
  lists : ∀ id list', s'.waitingList id = some list' →
    list' = [] ∨ ∃ list, s.waitingList id = some list ∧ list'.Sublist list
  blocking : ∀ q, (s'.pcbs q).blockingMutex ≠ none →
    (s'.pcbs q).blockingMutex = (s.pcbs q).blockingMutex
  priority : ∀ q, (s'.pcbs q).blockingMutex ≠ none →
    (s'.pcbs q).priority = (s.pcbs q).priority

namespace WaitingKept

/-- What is kept twice is kept. -/
lemma trans (h : WaitingKept s t) (h' : WaitingKept t s') : WaitingKept s s' where
  lists id list' hlist' := by
    rcases h'.lists id list' hlist' with hnil | ⟨list, hlist, hsub⟩
    · exact .inl hnil
    · rcases h.lists id list hlist with rfl | ⟨list₀, hlist₀, hsub₀⟩
      · exact .inl (List.sublist_nil.1 hsub)
      · exact .inr ⟨list₀, hlist₀, hsub.trans hsub₀⟩
  blocking q hq := by
    have heq := h'.blocking q hq
    exact heq.trans (h.blocking q (heq ▸ hq))
  priority q hq := by
    have heq := h'.blocking q hq
    exact (h'.priority q hq).trans (h.priority q (heq ▸ hq))

/-- The lists stay. -/
lemma of_lists (hlists : ∀ id, s'.waitingList id = s.waitingList id)
    (hblocking : ∀ q, (s'.pcbs q).blockingMutex ≠ none →
      (s'.pcbs q).blockingMutex = (s.pcbs q).blockingMutex)
    (hprio : ∀ q, (s'.pcbs q).blockingMutex ≠ none →
      (s'.pcbs q).priority = (s.pcbs q).priority) : WaitingKept s s' where
  lists id list' hlist' := .inr ⟨list', (hlists id).symm.trans hlist', .refl _⟩
  blocking := hblocking
  priority := hprio

/-- The mutexes and the PCBs stay. -/
lemma of_eq (hmutexes : s'.mutexes = s.mutexes) (hpcbs : s'.pcbs = s.pcbs) : WaitingKept s s' :=
  of_lists (fun id => by rw [waitingList, mutex, hmutexes, waitingList, mutex])
    (fun q _ => by rw [hpcbs]) fun q _ => by rw [hpcbs]

/-- A move keeps who waits. -/
lemma moved {state : ProcessState} (hm : Moved p state s s') : WaitingKept s s' :=
  of_lists (fun id => by rw [waitingList, mutex, hm.mutexes, waitingList, mutex])
    (fun q _ => hm.blocking q) fun q _ => hm.priority q

/-- The READY to EXEC step. -/
lemma readyExec (p : ℕ) (s : Queues) :
    WaitingKept s ((s.transitionReadyExec p).transitionToExec p) := by
  rcases (readyExec_spec p s).2 with ⟨-, hmoved⟩ | ⟨-, hpcbs, hmutexes, -⟩
  · exact moved hmoved
  · exact of_eq hmutexes hpcbs

/-- `transition_exec_ready` keeps who waits. -/
lemma execReady (hrun : s.transitionExecReady p = some s') : WaitingKept s s' := by
  rcases transitionExecReady_spec hrun with rfl | ⟨-, hmoved, -⟩
  · exact of_eq rfl rfl
  · exact moved hmoved

/-- So does `transition_unlock`. -/
lemma unlock (hrun : s.transitionUnlock p = some s') : WaitingKept s s' := by
  rcases transitionUnlock_spec hrun with rfl | ⟨-, hmoved, -⟩ | ⟨-, hmoved, -⟩
  · exact of_eq rfl rfl
  · exact moved hmoved
  · exact moved hmoved

/-- A change of a mutex that leaves its list. -/
lemma modifyMutex (id : String) {f : Mutex → Mutex} (hf : ∀ m, (f m).id = m.id)
    (hlist : ∀ m, (f m).list = m.list) (s : Queues) : WaitingKept s (s.modifyMutex id f) :=
  of_lists (fun id' => waitingList_modifyMutex hf hlist id id' s) (fun _ _ => rfl) fun _ _ => rfl

/-- The hand-over of a mutex: its list loses the first process, which waits no longer. -/
lemma handOver {next : ℕ} {rest : List ℕ} (hlookup : s.waitingList m.id = some (next :: rest))
    (hrun : s.handOver m next rest = some s') : WaitingKept s s' := by
  set f : Mutex → Mutex := fun m => { m with currentProcess := some next, list := rest }
  set t := (s.modifyMutex m.id f).setMutexBlocking next none with ht
  have hself : (t.pcbs next).blockingMutex = none := by simp [ht, setMutexBlocking]
  have hother : ∀ q, q ≠ next → t.pcbs q = s.pcbs q := by
    intro q hq
    simp [ht, setMutexBlocking, hq]
  have hne : ∀ q, (t.pcbs q).blockingMutex ≠ none → q ≠ next := by
    rintro q hq rfl
    exact hq hself
  have hfirst : WaitingKept s t := by
    refine ⟨fun id list' hlist' => .inr ?_, fun q hq => by rw [hother q (hne q hq)],
      fun q hq => by rw [hother q (hne q hq)]⟩
    by_cases hid : id = m.id
    · subst hid
      refine ⟨next :: rest, hlookup, ?_⟩
      have hmap : t.waitingList m.id = (s.mutex m.id).map fun m => (f m).list := by
        show ((s.modifyMutex m.id f).mutex m.id).map Mutex.list = _
        rw [mutex_modifyMutex_self (by exact fun _ => rfl), Option.map_map]
        rfl
      rw [hmap] at hlist'
      obtain ⟨m', -, rfl⟩ := Option.map_eq_some_iff.1 hlist'
      exact List.sublist_cons_self next rest
    · refine ⟨list', ?_, .refl _⟩
      rw [← hlist']
      show s.waitingList id = ((s.modifyMutex m.id f).mutex id).map Mutex.list
      rw [mutex_modifyMutex_of_ne hid (by exact fun _ => rfl), waitingList]
  have hentry : ∀ n : ℤ, WaitingKept t
      ((t.modifyMutex m.id fun m => { m with nextPriority := n }).insertPriority next n) := by
    intro n
    have hnext := modifyMutex m.id (f := fun m => { m with nextPriority := n })
      (fun _ => rfl) (fun _ => rfl) t
    refine hnext.trans (of_lists (fun _ => rfl) (fun q _ => ?_) fun q hq => ?_)
    · by_cases heq : q = next
      · simp [heq, insertPriority]
      · simp [insertPriority, heq]
    · by_cases heq : q = next
      · subst heq
        refine absurd ?_ hq
        simpa [insertPriority] using hself
      · simp [insertPriority, heq]
  simp only [Queues.handOver] at hrun
  rw [← ht] at hrun
  obtain ⟨u, hu, hunlock⟩ := Option.bind_eq_some_iff.1 hrun
  have hinherited : WaitingKept t u := by
    split at hu
    · obtain ⟨n, -, rfl⟩ := Option.map_eq_some_iff.1 hu
      exact hentry n
    · obtain rfl := Option.some.inj hu
      exact of_eq rfl rfl
  exact (hfirst.trans hinherited).trans (unlock hunlock)

/-- `mutex_unlock`. -/
lemma mutexUnlock {r : MutexResult} (hi : Inheriting s) (hm : m ∈ s.mutexes)
    (hexec : (s.pcbs p).state = .exec) (hrun : s.mutexUnlock m p = some (r, s')) :
    WaitingKept s s' := by
  have hd := dropped_removePriority m p s
  have hunblocked := unblocked_of_exec hi.sound hexec
  have hlookup := hi.sound.mutex_eq hm
  unfold Queues.mutexUnlock at hrun
  split at hrun
  · obtain ⟨-, rfl⟩ := Prod.mk.inj (Option.some.inj hrun)
    exact of_eq rfl rfl
  simp only [(hi.sound.mutex m hm).active, if_true] at hrun
  set t := if (s.removePriority p m.nextPriority).1 then
    (s.removePriority p m.nextPriority).2.updateLowestExecPriority
    else (s.removePriority p m.nextPriority).2
  have hlists : ∀ id, t.waitingList id = s.waitingList id := by
    intro id
    rw [waitingList, mutex, hd.mutexes, waitingList, mutex]
  have hdropped : WaitingKept s t := by
    have hblocking : ∀ q, (t.pcbs q).blockingMutex = (s.pcbs q).blockingMutex := by
      intro q
      by_cases hq : q = p
      · rw [hq, hd.self]
      · rw [hd.other q hq]
    refine of_lists hlists (fun q _ => hblocking q) fun q hq => ?_
    have hne : q ≠ p := by
      rintro rfl
      exact hq ((hblocking q).trans hunblocked)
    rw [hd.other q hne]
  obtain ⟨u, hu, heq⟩ := Option.map_eq_some_iff.1 hrun
  obtain ⟨-, rfl⟩ := Prod.mk.inj heq
  have hcount : ∀ u : Queues, WaitingKept u
      (u.modifyMutex m.id fun m => { m with state := m.state + 1 }) :=
    modifyMutex m.id (by exact fun _ => rfl) (by exact fun _ => rfl)
  split at hu
  · obtain rfl := Option.some.inj hu
    have hfree : WaitingKept t (t.modifyMutex m.id fun m =>
        { m with currentProcess := none, nextPriority := INT_MAX }) :=
      modifyMutex m.id (by exact fun _ => rfl) (by exact fun _ => rfl) t
    exact (hdropped.trans hfree).trans (hcount _)
  split at hu
  · split at hu
    · exact absurd hu (by simp)
    · rename_i next rest hlist
      have hwaiting : t.waitingList m.id = some (next :: rest) := by
        rw [hlists, waitingList, hlookup, Option.map_some, hlist]
      exact (hdropped.trans (handOver hwaiting hu)).trans (hcount _)
  · obtain rfl := Option.some.inj hu
    exact hdropped.trans (hcount _)

end WaitingKept

/-- **Only a `mutex_lock` makes a process wait for a mutex.** -/
lemma waitingKept_step {a : Action} (hi : Inheriting s) (hstep : step s a = some s')
    (hne : ∀ id p, a ≠ .mutexLock id p) : WaitingKept s s' := by
  have hcreated : ∀ {priority state}, Created priority state s s' → WaitingKept s s' := by
    intro priority state hc
    have hfresh : ∀ q, (s'.pcbs q).blockingMutex ≠ none → q ≠ s.nextPid := by
      rintro q hq rfl
      refine hq ?_
      rw [hc.self]
      rfl
    refine .of_lists (fun id => by rw [waitingList, mutex, hc.mutexes, waitingList, mutex])
      (fun q hq => ?_) fun q hq => ?_
    · rw [hc.other q (hfresh q hq)]
    · rw [hc.other q (hfresh q hq)]
  cases step_cases hi hstep with
  | kept same => exact .of_eq (by rw [same]) (by rw [same])
  | created priority state created => exact hcreated created
  | moved p target moved => exact .moved moved
  | dispatched p ready take effect =>
    have hready : WaitingKept s { s with ready := ready } := .of_eq rfl rfl
    rw [effect]
    exact hready.trans (.readyExec p _)
  | preempted p newPcb ready t take execReady effect =>
    have hready : WaitingKept s { s with ready := ready } := .of_eq rfl rfl
    rw [effect]
    exact (hready.trans (.execReady execReady)).trans (.readyExec newPcb t)
  | ended p call running ended =>
    refine .of_lists (fun id => by rw [waitingList, mutex, ended.mutexes, waitingList, mutex])
      (fun q _ => ?_) fun q _ => ?_ <;>
    · by_cases hq : q = p
      · rw [hq, ended.self]
      · rw [ended.other q hq]
  | mutexCreated id effect =>
    obtain ⟨-, -, hpcbs, -⟩ := createAndAddMutex_spec hi.sound hi.balanced id
    rw [effect]
    refine ⟨fun id' list' hlist' => ?_, fun q _ => by rw [hpcbs], fun q _ => by rw [hpcbs]⟩
    unfold createAndAddMutex at hlist'
    split at hlist'
    · exact .inr ⟨list', hlist', .refl _⟩
    · -- a new mutex has an empty list
      simp only [waitingList, mutex, lookupKey, List.find?_cons] at hlist'
      split at hlist'
      · exact .inl (Option.some.inj hlist').symm
      · exact .inr ⟨list', hlist', .refl _⟩
  | locked m p r call => exact absurd call (hne m.id p)
  | unlocked m p r call mem running run => exact .mutexUnlock hi mem running run

end OsSimulator.Scheduler
