import OsSimulator.Scheduler.MutexLock

set_option relaxedAutoImplicit false
set_option autoImplicit false

/-!
# `mutex_unlock` and `create_and_add_mutex` keep the inheritance invariant

An unlock takes the entry of the mutex from the holder, and hands the mutex to its first waiting
process, if there is one: that process leaves the waiting list and gets an entry for those that
still wait.

## Main definitions

* `UnlockEffect p s s'` — what the call changes besides.
* `Released` — what a release changes that hands the mutex over.

## Main results

* `mutexUnlock_spec`, `createAndAddMutex_spec` — the invariant and the effect of the calls.
-/

namespace OsSimulator.Scheduler

open Queues

variable {p : ℕ} {s s' : Queues} {m : Mutex}

/-! ## Releasing a mutex -/

/-- What `mutex_unlock` by `p` does besides keeping the invariant: it changes nothing else, or one
process goes from BLOCK to READY, or from SUSP. BLOCK to SUSP. READY. -/
structure UnlockEffect (p : ℕ) (s s' : Queues) : Prop where
  handed : (s'.ready = s.ready ∧ ∀ q, (s'.pcbs q).state = .ready ↔ (s.pcbs q).state = .ready) ∨
    ∃ next, (s.pcbs next).state = .block ∧ (s'.pcbs next).state = .ready ∧
      s.ready.add next (s.pcbs next).priority = some s'.ready ∧
      ∀ q, q ≠ next → (s'.pcbs q).state = (s.pcbs q).state
  priority : ∀ q, q ≠ p → (s'.pcbs q).priority = (s.pcbs q).priority
  running : (s'.pcbs p).state = (s.pcbs p).state
  live : ∀ q, (s'.pcbs q).state.Live ↔ (s.pcbs q).state.Live
  holders : ∀ q id, Holds s' q id → Holds s q id ∨ (s'.pcbs q).state.Live
  base : ∀ q, (s'.pcbs q).basePriority = (s.pcbs q).basePriority
  levels : s'.ready.levels = s.ready.levels

/-- The state after `remove_priority` of the entry of `m` from the list of its holder `p`. -/
structure Dropped (m : Mutex) (p : ℕ) (s t : Queues) : Prop where
  self : t.pcbs p = { s.pcbs p with
    priority := firstPriority ((s.pcbs p).priorityList.erase m.nextPriority)
    priorityList := (s.pcbs p).priorityList.erase m.nextPriority }
  other : ∀ q, q ≠ p → t.pcbs q = s.pcbs q
  mutexes : t.mutexes = s.mutexes
  nextPid : t.nextPid = s.nextPid
  ready : t.ready = s.ready

/-- `remove_priority`, with the update of the worst priority in EXEC that may follow. -/
lemma dropped_removePriority (m : Mutex) (p : ℕ) (s : Queues) :
    Dropped m p s (if (s.removePriority p m.nextPriority).1 then
      (s.removePriority p m.nextPriority).2.updateLowestExecPriority
      else (s.removePriority p m.nextPriority).2) := by
  have hremoved : Dropped m p s (s.removePriority p m.nextPriority).2 := by
    refine ⟨?_, fun q hq => ?_, rfl, rfl, rfl⟩
    · simp [removePriority]
    · simp [removePriority, hq]
  split
  · exact ⟨hremoved.self, hremoved.other, rfl, rfl, rfl⟩
  · exact hremoved

section Release

variable {t : Queues}

/-- The entries that are left to the process that releases the mutex. -/
lemma perm_erase_next (hs : Sound none s) (hbal : Balanced s) (hm : m ∈ s.mutexes)
    (hcur : m.currentProcess = some p) {rest : List ℤ}
    (hrest : (owed s p).Perm (owedBy s.pcbs p m ++ rest)) :
    ((s.pcbs p).priorityList.erase m.nextPriority).Perm ((s.pcbs p).basePriority :: rest) := by
  rw [owedBy, if_pos hcur, ← (hs.mutex m hm).next (by simp)] at hrest
  have hlist : ((s.pcbs p).priorityList).Perm
      (m.nextPriority :: (s.pcbs p).basePriority :: rest) :=
    ((hbal p).trans (hrest.cons _)).trans (.swap _ _ _)
  simpa using hlist.erase m.nextPriority

/-- A process that has dropped an entry is still sound. -/
lemma pcbSound_of_dropped (hs : Sound none s) {u : Queues}
    (hself : u.pcbs p = { s.pcbs p with
      priority := firstPriority ((s.pcbs p).priorityList.erase m.nextPriority)
      priorityList := (s.pcbs p).priorityList.erase m.nextPriority })
    (hids : u.mutexes.map Mutex.id = s.mutexes.map Mutex.id) (hpid : u.nextPid = s.nextPid)
    {rest : List ℤ} (hperm : ((s.pcbs p).priorityList.erase m.nextPriority).Perm
      ((s.pcbs p).basePriority :: rest)) : PcbSound u p := by
  have hpcb := hs.pcb p
  have hsorted : ((s.pcbs p).priorityList.erase m.nextPriority).Pairwise (· ≤ ·) :=
    hpcb.sorted.sublist List.erase_sublist
  have hne : (s.pcbs p).priorityList.erase m.nextPriority ≠ [] := by
    intro hnil
    rw [hnil] at hperm
    exact absurd hperm.length_eq (by simp)
  refine ⟨?_, ?_, ?_, ?_, fun id hid => ?_, fun hnew => ?_, ?_⟩
  · rw [hself]
    exact hsorted
  · rw [hself]
    exact (firstPriority_spec hne hsorted).1
  · rw [hself]
    exact hpcb.bounded
  · rw [hself]
    exact hpcb.notRunning
  · rw [hself] at hid
    rw [hids]
    exact hpcb.known id hid
  · rw [hself] at hnew
    rw [hpid]
    exact hpcb.created hnew
  · rw [hself]
    exact hpcb.gone

/-- **The release of a mutex nobody waits for.** -/
lemma releaseLast_spec (hs : Sound none s) (hbal : Balanced s) (hm : m ∈ s.mutexes)
    (hexec : (s.pcbs p).state = .exec) (hcur : m.currentProcess = some p) (hzero : m.state = 0)
    (hd : Dropped m p s t)
    (hs' : s' = (t.modifyMutex m.id fun m =>
      { m with currentProcess := none, nextPriority := INT_MAX }).modifyMutex m.id fun m =>
        { m with state := m.state + 1 }) :
    Sound none s' ∧ Balanced s' ∧ UnlockEffect p s s' := by
  have hms := hs.mutex m hm
  have hcount := hms.state (by simp)
  have hlist : m.list = [] := by
    rw [hcur, if_neg (by simp), hzero] at hcount
    exact List.eq_nil_of_length_eq_zero (by omega)
  have hunblocked := unblocked_of_exec hs hexec
  set f : Mutex → Mutex := fun m =>
    { m with currentProcess := none, nextPriority := INT_MAX, state := m.state + 1 } with hf
  have hpcbs : s'.pcbs = t.pcbs := by
    rw [hs']
    rfl
  have hmutexes : s'.mutexes = modifyKey Mutex.id m.id f s.mutexes := by
    rw [hs', modifyMutex_modifyMutex, ← hd.mutexes]
    · rfl
    · exact fun _ => rfl
  have hids : s'.mutexes.map Mutex.id = s.mutexes.map Mutex.id := by
    rw [hmutexes]
    exact map_key_modifyKey fun x hx => hx
  have hpid : s'.nextPid = s.nextPid := by
    rw [hs']
    exact hd.nextPid
  have hprio : ∀ q, q ≠ p → (s'.pcbs q).priority = (s.pcbs q).priority := by
    intro q hq
    rw [hpcbs, hd.other q hq]
  have hstate : ∀ q, (s'.pcbs q).state = (s.pcbs q).state := by
    intro q
    rw [hpcbs]
    by_cases hq : q = p
    · rw [hq, hd.self]
    · rw [hd.other q hq]
  have hblock : ∀ q, (s'.pcbs q).blockingMutex = (s.pcbs q).blockingMutex := by
    intro q
    rw [hpcbs]
    by_cases hq : q = p
    · rw [hq, hd.self]
    · rw [hd.other q hq]
  have hwaiting : ∀ m' ∈ s.mutexes, ∀ q ∈ m'.list,
      (s'.pcbs q).priority = (s.pcbs q).priority := by
    intro m' hm' q hq
    refine hprio q ?_
    rintro rfl
    exact not_mem_of_unblocked hs hunblocked hm' hq
  obtain ⟨rest, hrest⟩ := exists_owed_modifyMutex hs hm hmutexes fun m' hm' _ => hwaiting m' hm'
  have hperm := perm_erase_next hs hbal hm hcur (hrest p).1
  refine ⟨?_, fun q => ?_, .inl ⟨?_, fun q => by rw [hstate]⟩, hprio, hstate p,
    fun q => by rw [hstate], fun q id hq => ?_, fun q => ?_, ?_⟩
  · refine hs.modifyMutex hm (by exact fun _ => rfl) hmutexes (fun q => ?_) ?_
      (fun m' hm' _ => ?_) (fun _ _ h => absurd h (by simp))
    · by_cases hq : q = p
      · rw [hq]
        exact pcbSound_of_dropped hs (by rw [hpcbs, hd.self]) hids hpid hperm
      · exact (hs.pcb q).congr (by rw [hpcbs, hd.other q hq]) (by rw [hids]; exact fun _ => id)
          hpid.ge
    · refine ⟨hms.active, ?_, hms.nodup, fun q => ?_, fun hne => absurd hlist hne,
        fun q hq => absurd hq (by simp [hf]), fun _ => ?_, fun _ => ?_⟩
      · rw [show (f m).list = [] from hlist]
        exact List.Pairwise.nil
      · rw [hblock]
        exact hms.blocked q
      · rw [nextOf, show (f m).list = [] from hlist]
      · simp only [hf, hzero, hlist]
        simp
    · exact (hs.mutex m' hm').congr (hwaiting m' hm') (fun q => by rw [hblock])
        (fun q _ hq => by rwa [hstate])
  · obtain ⟨h₁, h₂⟩ := hrest q
    have hnone' : owedBy s'.pcbs q (f m) = [] := by
      rw [owedBy]
      exact if_neg (by simp [hf])
    rw [hnone'] at h₂
    by_cases hq : q = p
    · subst hq
      rw [hpcbs, hd.self]
      exact hperm.trans (h₂.symm.cons _)
    · have hnone : owedBy s.pcbs q m = [] := by
        rw [owedBy, hcur]
        exact if_neg fun heq => hq (Option.some.inj heq).symm
      rw [hnone] at h₁
      rw [hpcbs, hd.other q hq]
      exact (hbal q).trans ((h₁.trans h₂.symm).cons _)
  · rw [hs']
    exact hd.ready
  · rcases holds_modifyKey hmutexes hq with h | ⟨_, h⟩
    · exact .inl h
    · exact absurd h (by simp [hf])
  · rw [hpcbs]
    by_cases hq : q = p
    · rw [hq, hd.self]
    · rw [hd.other q hq]
  · rw [hs', ← hd.ready]
    rfl

/-- The state after the hand-over of `m` to `next`, with the entry `n` and the new state `st` of
`next`. -/
structure Handed (m : Mutex) (next : ℕ) (rest : List ℕ) (n : ℤ) (st : ProcessState)
    (t s' : Queues) : Prop where
  self : s'.pcbs next = { t.pcbs next with
    priorityList := addPriority n (t.pcbs next).priorityList
    blockingMutex := none
    state := st }
  other : ∀ q, q ≠ next → s'.pcbs q = t.pcbs q
  mutexes : s'.mutexes = modifyKey Mutex.id m.id (fun m =>
    { m with currentProcess := some next, list := rest, nextPriority := n, state := m.state + 1 })
    t.mutexes
  nextPid : s'.nextPid = t.nextPid
  moved : (t.pcbs next).state = .block ∧ st = .ready ∧
      t.ready.add next (t.pcbs next).priority = some s'.ready ∨
    (t.pcbs next).state = .suspBlock ∧ st = .suspReady ∧ s'.ready = t.ready

/-- `hand_over` with the count of the state that follows it: the first waiting process gets an entry
that is not better than its priority, and is unblocked. -/
lemma handed_handOver {next : ℕ} {rest : List ℕ} {n : ℤ} {u : Queues}
    (hactive : m.priorityActive = true) (hn : n = nextOf t.pcbs { m with list := rest })
    (hcount : m.state = -1 ↔ rest = []) (hle : (t.pcbs next).priority ≤ n)
    (hblocked : (t.pcbs next).state = .block ∨ (t.pcbs next).state = .suspBlock)
    (hrun : t.handOver m next rest = some u)
    (hs' : s' = u.modifyMutex m.id fun m => { m with state := m.state + 1 }) :
    ∃ st, Handed m next rest n st t s' := by
  have hprio : ∀ q, ((t.setMutexBlocking next none).pcbs q).priority = (t.pcbs q).priority := by
    intro q
    by_cases hq : q = next
    · simp [hq, setMutexBlocking]
    · simp [setMutexBlocking, hq]
  set t₁ := (t.modifyMutex m.id fun m => { m with currentProcess := some next, list := rest }
    ).setMutexBlocking next none with ht₁
  have hprio₁ : ∀ q, (t₁.pcbs q).priority = (t.pcbs q).priority := hprio
  have hentry : (if m.state = -1 then some INT_MAX
      else rest.head?.map fun first => (t₁.pcbs first).priority) = some n := by
    rw [hn, nextOf]
    cases hrest : rest with
    | nil => rw [if_pos (hcount.2 hrest)]
    | cons first others =>
      have hne : ¬ m.state = -1 := by
        intro h
        rw [hcount.1 h] at hrest
        exact absurd hrest (by simp)
      rw [if_neg hne, List.head?_cons, Option.map_some, hprio₁]
  simp only [handOver] at hrun
  rw [if_pos hactive, ← ht₁, hentry, Option.map_some, Option.bind_some] at hrun
  set t₂ := (t₁.modifyMutex m.id fun m => { m with nextPriority := n }).insertPriority next n
    with ht₂
  have hself₁ : t₁.pcbs next = { t.pcbs next with blockingMutex := none } := by
    simp [ht₁, setMutexBlocking]
  have hself₂ : t₂.pcbs next = { t.pcbs next with
      priorityList := addPriority n (t.pcbs next).priorityList, blockingMutex := none } := by
    rw [ht₂, insertPriority, modifyPcb_pcbs_self, modifyMutex_pcbs, hself₁]
    simp only
    rw [if_neg (by omega)]
  have hother₂ : ∀ q, q ≠ next → t₂.pcbs q = t.pcbs q := by
    intro q hq
    simp [ht₂, ht₁, insertPriority, setMutexBlocking, hq]
  have hstate₂ : (t₂.pcbs next).state = (t.pcbs next).state := by rw [hself₂]
  have hprio₂ : (t₂.pcbs next).priority = (t.pcbs next).priority := by rw [hself₂]
  have hpcbs : s'.pcbs = u.pcbs := by
    rw [hs']
    rfl
  set f : Mutex → Mutex := fun m =>
    { m with currentProcess := some next, list := rest, nextPriority := n, state := m.state + 1 }
  have hmutexes : u.mutexes = t₂.mutexes → s'.mutexes = modifyKey Mutex.id m.id f t.mutexes := by
    intro hu
    have hchain : (t₁.modifyMutex m.id fun m => { m with nextPriority := n }).mutexes =
        modifyKey Mutex.id m.id (fun m => { m with nextPriority := n })
          (modifyKey Mutex.id m.id
            (fun m => { m with currentProcess := some next, list := rest }) t.mutexes) := rfl
    rw [hs', modifyMutex, hu, ht₂, insertPriority, modifyPcb_mutexes, hchain, modifyKey_modifyKey,
      modifyKey_modifyKey]
    · exact fun _ h => h
    · exact fun _ h => h
  have hnextPid : ∀ {st : ProcessState}, Moved next st t₂ u → s'.nextPid = t.nextPid := by
    intro st hmoved
    rw [hs', modifyMutex_nextPid, hmoved.nextPid]
    rfl
  have hready₂ : t₂.ready = t.ready := rfl
  have hready' : s'.ready = u.ready := by
    rw [hs']
    rfl
  rcases transitionUnlock_spec hrun with hsame | ⟨hblock, hmoved, hadd⟩ | ⟨hsusp, hmoved, hready⟩
  · -- the process is blocked, so that the transition does something
    exfalso
    unfold transitionUnlock at hrun
    rw [hstate₂] at hrun
    have hu : (u.pcbs next).state = (t.pcbs next).state := by rw [hsame, hstate₂]
    rcases hblocked with h | h
    · rw [if_pos h] at hrun
      obtain ⟨hmoved, -⟩ := moved_transitionToReady hrun rfl rfl rfl rfl
      rw [hmoved.self, h] at hu
      exact absurd hu (by simp)
    · rw [h, if_neg (by decide), if_pos rfl] at hrun
      have hmoved := (moved_setState next .suspReady t₂).self
      rw [← Option.some.inj hrun] at hu
      have hu' : ((t₂.setState next .suspReady).pcbs next).state = (t.pcbs next).state := hu
      rw [hmoved, h] at hu'
      exact absurd hu' (by simp)
  · refine ⟨.ready, ?_, fun q hq => ?_, hmutexes hmoved.mutexes, hnextPid hmoved, .inl ⟨?_, rfl, ?_⟩⟩
    · rw [hpcbs, hmoved.self, hself₂]
    · rw [hpcbs, hmoved.other q hq, hother₂ q hq]
    · rw [← hstate₂, hblock]
    · rw [hready', ← hready₂, ← hprio₂]
      exact hadd
  · refine ⟨.suspReady, ?_, fun q hq => ?_, hmutexes hmoved.mutexes, hnextPid hmoved,
      .inr ⟨?_, rfl, ?_⟩⟩
    · rw [hpcbs, hmoved.self, hself₂]
    · rw [hpcbs, hmoved.other q hq, hother₂ q hq]
    · rw [← hstate₂, hsusp]
    · rw [hready', hready, hready₂]

/-- What the release of `m` by `p` and its hand-over to `next` change. -/
structure Released (m : Mutex) (p next : ℕ) (rest : List ℕ) (n : ℤ) (st : ProcessState)
    (s s' : Queues) : Prop where
  ne : next ≠ p
  holder : s'.pcbs p = { s.pcbs p with
    priority := firstPriority ((s.pcbs p).priorityList.erase m.nextPriority)
    priorityList := (s.pcbs p).priorityList.erase m.nextPriority }
  self : s'.pcbs next = { s.pcbs next with
    priorityList := addPriority n (s.pcbs next).priorityList
    blockingMutex := none
    state := st }
  other : ∀ q, q ≠ next → q ≠ p → s'.pcbs q = s.pcbs q
  mutexes : s'.mutexes = modifyKey Mutex.id m.id (fun m =>
    { m with currentProcess := some next, list := rest, nextPriority := n, state := m.state + 1 })
    s.mutexes
  nextPid : s'.nextPid = s.nextPid
  moved : (s.pcbs next).state = .block ∧ st = .ready ∧
      s.ready.add next (s.pcbs next).priority = some s'.ready ∨
    (s.pcbs next).state = .suspBlock ∧ st = .suspReady ∧ s'.ready = s.ready

section Released

variable {next : ℕ} {rest : List ℕ} {n : ℤ} {st : ProcessState}

/-- The mutex is dropped by one process and handed to the next. -/
lemma Dropped.released (hd : Dropped m p s t) (hne : next ≠ p)
    (hh : Handed m next rest n st t s') : Released m p next rest n st s s' where
  ne := hne
  holder := (hh.other p hne.symm).trans hd.self
  self := by rw [hh.self, hd.other next hne]
  other q hq hp := (hh.other q hq).trans (hd.other q hp)
  mutexes := by rw [hh.mutexes, hd.mutexes]
  nextPid := hh.nextPid.trans hd.nextPid
  moved := by
    have hmoved := hh.moved
    rwa [hd.other next hne, hd.ready] at hmoved

namespace Released

variable (h : Released m p next rest n st s s')
include h

/-- Only the one that unlocks changes its priority. -/
lemma priority {q : ℕ} (hq : q ≠ p) : (s'.pcbs q).priority = (s.pcbs q).priority := by
  by_cases heq : q = next
  · rw [heq, h.self]
  · rw [h.other q heq hq]

/-- Nobody changes its own priority. -/
lemma basePriority (q : ℕ) : (s'.pcbs q).basePriority = (s.pcbs q).basePriority := by
  by_cases hq : q = p
  · rw [hq, h.holder]
  by_cases heq : q = next
  · rw [heq, h.self]
  · rw [h.other q heq hq]

/-- Only the next holder waits for nothing any more. -/
lemma blockingMutex {q : ℕ} (hq : q ≠ next) :
    (s'.pcbs q).blockingMutex = (s.pcbs q).blockingMutex := by
  by_cases heq : q = p
  · rw [heq, h.holder]
  · rw [h.other q hq heq]

/-- Only the next holder changes its state. -/
lemma state {q : ℕ} (hq : q ≠ next) : (s'.pcbs q).state = (s.pcbs q).state := by
  by_cases heq : q = p
  · rw [heq, h.holder]
  · rw [h.other q hq heq]

/-- The process that gets the mutex has been created and has not ended. -/
lemma live : st.Live ∧ (s.pcbs next).state.Live := by
  rcases h.moved with ⟨hfrom, rfl, -⟩ | ⟨hfrom, rfl, -⟩ <;> rw [hfrom] <;>
    exact ⟨⟨by decide, by decide⟩, by decide, by decide⟩

/-- Nobody ends or begins. -/
lemma live_iff (q : ℕ) : (s'.pcbs q).state.Live ↔ (s.pcbs q).state.Live := by
  by_cases hq : q = next
  · rw [hq, h.self]
    exact ⟨fun _ => h.live.2, fun _ => h.live.1⟩
  · rw [h.state hq]

/-- What an unlock does to the processes. -/
lemma effect : UnlockEffect p s s' := by
  refine ⟨?_, fun q hq => h.priority hq, h.state h.ne.symm, h.live_iff, fun q id hq => ?_,
    h.basePriority, ?_⟩
  · rcases h.moved with ⟨hfrom, rfl, hadd⟩ | ⟨hfrom, rfl, hready⟩
    · exact .inr ⟨next, hfrom, by rw [h.self], hadd, fun q hq => h.state hq⟩
    · refine .inl ⟨hready, fun q => ?_⟩
      by_cases hq : q = next
      · rw [hq, h.self, hfrom]
        simp
      · rw [h.state hq]
  · rcases holds_modifyKey h.mutexes hq with hold | ⟨_, hnew⟩
    · exact .inl hold
    · obtain rfl : next = q := Option.some.inj hnew
      rw [h.self]
      exact .inr h.live.1
  · rcases h.moved with ⟨-, -, hadd⟩ | ⟨-, -, hready⟩
    · exact ReadyQueue.levels_add hadd
    · rw [hready]

/-- The process that gets the mutex is sound with its new entry, when that is not better than its
priority. -/
lemma pcbSound (hs : Sound none s) (hle : (s.pcbs next).priority ≤ n) : PcbSound s' next := by
  have hpcb := hs.pcb next
  have hnotGone : ¬ (s.pcbs next).destroyed = true := fun hgone => h.live.2.2 (hpcb.gone.1 hgone)
  refine ⟨?_, ?_, ?_, fun hb => ?_, fun id hid => ?_, fun _ => ?_, ?_⟩
  · rw [h.self]
    exact pairwise_addPriority hpcb.sorted _
  · rw [h.self]
    exact head?_addPriority hpcb.first hle
  · rw [h.self]
    exact hpcb.bounded
  · rw [h.self] at hb
    exact absurd rfl hb
  · rw [h.self] at hid
    exact absurd hid (by simp)
  · rw [h.nextPid]
    exact hpcb.created h.live.2.1
  · rw [h.self]
    exact ⟨fun hgone => absurd hgone hnotGone, fun hexit => absurd hexit h.live.1.2⟩

end Released

end Released

/-- **The release of a mutex that is handed over** to the first waiting process.

**Proof sketch.** The running process waits for nothing, so that no waiting process changes its
priority. The holder loses the entry of the mutex, and the next one gets the entry of those that
still wait; what the two owe to the other mutexes is as before. -/
lemma releaseNext_spec {next : ℕ} {rest : List ℕ} {u : Queues} (hs : Sound none s)
    (hbal : Balanced s) (hm : m ∈ s.mutexes) (hexec : (s.pcbs p).state = .exec)
    (hcur : m.currentProcess = some p) (hlist : m.list = next :: rest) (hd : Dropped m p s t)
    (hrun : t.handOver m next rest = some u)
    (hs' : s' = u.modifyMutex m.id fun m => { m with state := m.state + 1 }) :
    Sound none s' ∧ Balanced s' ∧ UnlockEffect p s s' := by
  have hms := hs.mutex m hm
  have hcount := hms.state (by simp)
  rw [hcur, if_neg (by simp), hlist, List.length_cons] at hcount
  have hunblocked := unblocked_of_exec hs hexec
  have hnodup : next ∉ rest ∧ rest.Nodup := List.nodup_cons.1 (hlist ▸ hms.nodup)
  have hsorted := hms.sorted
  rw [hlist] at hsorted
  obtain ⟨hleast, hsortedRest⟩ := List.pairwise_cons.1 hsorted
  have hmem : next ∈ m.list := hlist ▸ List.mem_cons_self
  have hnotWaiting : ∀ m' ∈ s.mutexes, ∀ q ∈ m'.list, q ≠ p := by
    rintro m' hm' q hq rfl
    exact not_mem_of_unblocked hs hunblocked hm' hq
  have hnext : next ≠ p := hnotWaiting m hm next hmem
  have hwaits : (s.pcbs next).blockingMutex = some m.id :=
    ((hms.blocked next).1 hmem).resolve_right (by simp)
  have hblocked : (s.pcbs next).state = .block ∨ (s.pcbs next).state = .suspBlock :=
    (hs.pcb next).notRunning (by simp [hwaits])
  have hrestPrio : ∀ q ∈ rest, (t.pcbs q).priority = (s.pcbs q).priority := by
    intro q hq
    rw [hd.other q (hnotWaiting m hm q (hlist ▸ List.mem_cons_of_mem _ hq))]
  set n := nextOf t.pcbs { m with list := rest } with hn
  have hle : (s.pcbs next).priority ≤ n := by
    rw [hn, nextOf]
    cases hrest : rest with
    | nil => exact priority_le_max hs hbal next
    | cons first others =>
      have hfirst : first ∈ rest := hrest ▸ List.mem_cons_self
      simp only
      rw [hrestPrio first hfirst]
      exact hleast first hfirst
  have hminus : m.state = -1 ↔ rest = [] := by
    rw [← List.length_eq_zero_iff]
    omega
  obtain ⟨st, hh⟩ := handed_handOver hms.active hn hminus
    (by rw [hd.other next hnext]; exact hle) (by rw [hd.other next hnext]; exact hblocked) hrun hs'
  have hr := hd.released hnext hh
  set f : Mutex → Mutex := fun m =>
    { m with currentProcess := some next, list := rest, nextPriority := n, state := m.state + 1 }
  have hids : s'.mutexes.map Mutex.id = s.mutexes.map Mutex.id := by
    rw [hr.mutexes]
    exact map_key_modifyKey fun x hx => hx
  have hwaitingPrio : ∀ m' ∈ s.mutexes, ∀ q ∈ m'.list,
      (s'.pcbs q).priority = (s.pcbs q).priority :=
    fun m' hm' q hq => hr.priority (hnotWaiting m' hm' q hq)
  have hnextOf : nextOf s'.pcbs (f m) = n := by
    refine nextOf_congr (m := f m) fun q hq => ?_
    have hq' : q ∈ rest := hq
    rw [hwaitingPrio m hm q (hlist ▸ List.mem_cons_of_mem _ hq'), hrestPrio q hq']
  obtain ⟨others, hothers⟩ := exists_owed_modifyMutex hs hm hr.mutexes
    fun m' hm' _ => hwaitingPrio m' hm'
  have hperm := perm_erase_next hs hbal hm hcur (hothers p).1
  refine ⟨?_, fun q => ?_, hr.effect⟩
  · refine hs.modifyMutex hm (by exact fun _ => rfl) hr.mutexes (fun q => ?_) ?_
      (fun m' hm' hne => ?_) (fun _ _ h => absurd h (by simp))
    · by_cases hq : q = p
      · rw [hq]
        exact pcbSound_of_dropped hs hr.holder hids hr.nextPid hperm
      by_cases hqn : q = next
      · rw [hqn]
        exact hr.pcbSound hs hle
      · exact (hs.pcb q).congr (hr.other q hqn hq) (by rw [hids]; exact fun _ => id)
          hr.nextPid.ge
    · refine ⟨hms.active, ?_, hnodup.2, fun q => ?_, fun _ => by simp,
        fun q hq => ?_, fun _ => hnextOf.symm, fun _ => ?_⟩
      · refine hsortedRest.imp_of_mem fun {a b} ha hb hab => ?_
        rw [hwaitingPrio m hm a (hlist ▸ List.mem_cons_of_mem _ ha),
          hwaitingPrio m hm b (hlist ▸ List.mem_cons_of_mem _ hb)]
        exact hab
      · have hbefore := hms.blocked q
        rw [hlist, List.mem_cons] at hbefore
        by_cases hq : q = next
        · subst hq
          rw [hr.self]
          exact ⟨fun h => absurd h hnodup.1, fun h => absurd h (by simp)⟩
        · rw [hr.blockingMutex hq]
          simpa [hq] using hbefore
      · obtain rfl : next = q := Option.some.inj hq
        rw [hr.self]
        exact hr.live.1.1
      · simp
        omega
    · refine (hs.mutex m' hm').congr (hwaitingPrio m' hm') (fun q => ?_) fun q _ hq => ?_
      · by_cases hq : q = next
        · subst hq
          rw [hr.self, hwaits]
          simp [Ne.symm hne]
        · rw [hr.blockingMutex hq]
      · by_cases heq : q = next
        · rw [heq, hr.self]
          exact hr.live.1.1
        · rwa [hr.state heq]
  · obtain ⟨h₁, h₂⟩ := hothers q
    by_cases hq : q = p
    · subst hq
      have hnone : owedBy s'.pcbs q (f m) = [] := by
        rw [owedBy]
        exact if_neg fun h => hnext (Option.some.inj h)
      rw [hnone] at h₂
      rw [hr.holder]
      exact hperm.trans (h₂.symm.cons _)
    have hnone : owedBy s.pcbs q m = [] := by
      rw [owedBy, hcur]
      exact if_neg fun h => hq (Option.some.inj h).symm
    rw [hnone] at h₁
    by_cases hqn : q = next
    · subst hqn
      have hone : owedBy s'.pcbs q (f m) = [n] := by
        rw [owedBy, if_pos (by exact rfl), hnextOf]
      rw [hone] at h₂
      rw [hr.self]
      calc (addPriority n (s.pcbs q).priorityList).Perm (n :: (s.pcbs q).priorityList) :=
            perm_addPriority _ _
        _ |>.Perm (n :: (s.pcbs q).basePriority :: owed s q) := (hbal q).cons _
        _ |>.Perm ((s.pcbs q).basePriority :: n :: owed s q) := .swap _ _ _
        _ |>.Perm ((s.pcbs q).basePriority :: owed s' q) :=
          ((h₁.cons _).trans h₂.symm).cons _
    · have hnone' : owedBy s'.pcbs q (f m) = [] := by
        rw [owedBy]
        exact if_neg fun h => hqn (Option.some.inj h).symm
      rw [hnone'] at h₂
      rw [hr.other q hqn hq]
      exact (hbal q).trans ((h₁.trans h₂.symm).cons _)

end Release

/-- **`mutex_unlock` keeps the invariant**, for a running process and whenever it returns.

**Proof sketch.** Only the holder gets past the first test. It loses the entry of the mutex
(`dropped_removePriority`), and the state of the mutex says whether somebody waits. -/
theorem mutexUnlock_spec {r : MutexResult} (hs : Sound none s) (hbal : Balanced s)
    (hm : m ∈ s.mutexes) (hexec : (s.pcbs p).state = .exec)
    (hrun : s.mutexUnlock m p = some (r, s')) :
    Sound none s' ∧ Balanced s' ∧ UnlockEffect p s s' := by
  have hms := hs.mutex m hm
  unfold mutexUnlock at hrun
  split at hrun
  · obtain ⟨-, rfl⟩ := Prod.mk.inj (Option.some.inj hrun)
    exact ⟨hs, hbal, .inl ⟨rfl, fun _ => Iff.rfl⟩, fun _ _ => rfl, rfl, fun _ => Iff.rfl,
      fun _ _ => .inl, fun _ => rfl, rfl⟩
  rename_i hcur
  have hcur : m.currentProcess = some p := not_not.1 hcur
  have hcount := hms.state (by simp)
  rw [hcur, if_neg (by simp)] at hcount
  have hd := dropped_removePriority m p s
  simp only [hms.active, if_true] at hrun
  set t := if (s.removePriority p m.nextPriority).1 then
    (s.removePriority p m.nextPriority).2.updateLowestExecPriority
    else (s.removePriority p m.nextPriority).2
  obtain ⟨u, hu, heq⟩ := Option.map_eq_some_iff.1 hrun
  have hs' := (Prod.mk.inj heq).2.symm
  split at hu
  · rename_i hzero
    obtain rfl := Option.some.inj hu
    exact releaseLast_spec hs hbal hm hexec hcur hzero hd hs'
  split at hu
  · split at hu
    · exact absurd hu (by simp)
    · rename_i next rest hlist
      exact releaseNext_spec hs hbal hm hexec hcur hlist hd hu hs'
  · -- a held mutex has no positive state
    rename_i hzero hpos
    omega

/-- **`create_and_add_mutex` keeps the invariant.** A new mutex has no holder, and its name has not
been used. -/
theorem createAndAddMutex_spec (hs : Sound none s) (hbal : Balanced s) (id : String) :
    Sound none (s.createAndAddMutex id true).2 ∧ Balanced (s.createAndAddMutex id true).2 ∧
      (s.createAndAddMutex id true).2.pcbs = s.pcbs ∧
      (s.createAndAddMutex id true).2.ready = s.ready ∧
      ∀ q id', Holds (s.createAndAddMutex id true).2 q id' → Holds s q id' := by
  unfold createAndAddMutex
  split
  · exact ⟨hs, hbal, rfl, rfl, fun _ _ h => h⟩
  rename_i hnone
  have hfresh : id ∉ s.mutexes.map Mutex.id := lookupKey_eq_none.1 hnone
  refine ⟨⟨List.nodup_cons.2 ⟨hfresh, hs.ids⟩, fun q => (hs.pcb q).congr rfl ?_ le_rfl,
    fun m hm => ?_, hs.unblocked⟩, fun q => ?_, rfl, rfl, fun q id' hq => ?_⟩
  · exact List.subset_cons_self _ _
  · rcases List.mem_cons.1 hm with rfl | hm
    · refine ⟨rfl, List.Pairwise.nil, List.nodup_nil, fun q => ?_, fun h => absurd rfl h,
        fun q h => absurd h (by simp [createMutex]), fun _ => rfl, fun _ => by simp [createMutex]⟩
      have hnot : (s.pcbs q).blockingMutex ≠ some id := fun hb => hfresh ((hs.pcb q).known id hb)
      simp [createMutex, hnot]
    · exact hs.mutex m hm
  · have howed : owed { s with mutexes := createMutex id true :: s.mutexes } q = owed s q := by
      simp [owed, owedBy, createMutex]
    rw [howed]
    exact hbal q
  · simpa [Holds, createMutex] using hq

end OsSimulator.Scheduler
