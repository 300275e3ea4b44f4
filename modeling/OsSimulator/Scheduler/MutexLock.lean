import OsSimulator.Scheduler.Inheritance
import OsSimulator.Scheduler.Transitions

set_option relaxedAutoImplicit false
set_option autoImplicit false

/-!
# `mutex_lock` keeps the inheritance invariant

A `mutex_lock` by a process in EXEC leads from a sound and balanced state to a sound and balanced
one, whenever it returns.

## Main definitions

* `LockEffect m p s s'` — what the call changes besides.

## Main results

* `mutexLock_spec` — the invariant and the effect of the call.
-/

namespace OsSimulator.Scheduler

open Queues

variable {p : ℕ} {s s' : Queues} {m : Mutex}

/-! ## Facts about a sound state -/

/-- No priority is worse than the base priority. -/
lemma priority_le_base {pending : Option (ℕ × String)} (hs : Sound pending s) (hbal : Balanced s)
    (p : ℕ) : (s.pcbs p).priority ≤ (s.pcbs p).basePriority := by
  have hpcb := hs.pcb p
  exact (le_of_head?_of_pairwise hpcb.first hpcb.sorted).2 _
    ((hbal p).mem_iff.2 List.mem_cons_self)

/-- Every priority is an `int`. -/
lemma priority_le_max {pending : Option (ℕ × String)} (hs : Sound pending s) (hbal : Balanced s)
    (p : ℕ) : (s.pcbs p).priority ≤ INT_MAX :=
  (priority_le_base hs hbal p).trans (hs.pcb p).bounded

/-- A running process waits for no mutex. -/
lemma unblocked_of_exec {pending : Option (ℕ × String)} (hs : Sound pending s)
    (hexec : (s.pcbs p).state = .exec) : (s.pcbs p).blockingMutex = none := by
  by_contra hb
  rcases (hs.pcb p).notRunning hb with hstate | hstate <;> rw [hexec] at hstate <;>
    exact absurd hstate (by decide)

/-- A process that waits for no mutex is in no waiting list. -/
lemma not_mem_of_unblocked (hs : Sound none s) (hb : (s.pcbs p).blockingMutex = none)
    (hm : m ∈ s.mutexes) : p ∉ m.list := by
  intro hmem
  rcases ((hs.mutex m hm).blocked p).1 hmem with h | h
  · rw [hb] at h
    exact absurd h (by simp)
  · exact absurd h (by simp)

/-- An entry that is not better goes behind the first one. -/
lemma head?_addPriority {l : List ℤ} {u x : ℤ} (hf : l.head? = some u) (hle : u ≤ x) :
    (addPriority x l).head? = some u := by
  cases l with
  | nil => simp at hf
  | cons y ys =>
    obtain rfl : y = u := by simpa using hf
    have hnot : hasHigherPriorityThan x y = false := by simpa [hasHigherPriorityThan] using hle
    rw [addPriority, listAddSorted, hnot]
    rfl

/-- A mutex of another id does not see the pending process. -/
lemma MutexSound.with_pending {pcbs : ℕ → Pcb} {id : String} (h : MutexSound none pcbs m)
    (hne : m.id ≠ id) (p : ℕ) : MutexSound (some (p, id)) pcbs m where
  active := h.active
  sorted := h.sorted
  nodup := h.nodup
  blocked q := by
    rw [h.blocked]
    have hid : ¬ some (p, id) = some (q, m.id) := by
      intro heq
      exact hne (congrArg Prod.snd (Option.some.inj heq)).symm
    simp [hid]
  held := h.held
  holder := h.holder
  next _ := h.next (by simp)
  state _ := h.state (by simp)

/-- The account does not see a change that leaves the waiting list and the holder. -/
lemma owed_modifyMutex_of_same {f : Mutex → Mutex} {id : String} (hpcbs : ∀ q,
      (s'.pcbs q).priority = (s.pcbs q).priority)
    (hmutexes : s'.mutexes = modifyKey Mutex.id id f s.mutexes)
    (hlist : ∀ m, (f m).list = m.list) (hcur : ∀ m, (f m).currentProcess = m.currentProcess)
    (q : ℕ) : owed s' q = owed s q := by
  rw [owed, owed, hmutexes, modifyKey, List.flatMap_map]
  refine List.flatMap_congr fun m _ => ?_
  have hnext : nextOf s'.pcbs m = nextOf s.pcbs m := nextOf_congr fun r _ => hpcbs r
  split
  · have hsame : nextOf s'.pcbs (f m) = nextOf s'.pcbs m := by rw [nextOf, nextOf, hlist]
    rw [owedBy, owedBy, hcur, hsame, hnext]
  · rw [owedBy, owedBy, hnext]

/-! ## Taking a free mutex -/

/-- `mutex_lock` of a free mutex: the process holds it with an entry that changes nothing.

**Proof sketch.** A state of `1` means that nobody holds the mutex and nobody waits. The new entry
is `INT_MAX`, which is what a mutex nobody waits for owes. -/
lemma lockFree_spec (hs : Sound none s) (hbal : Balanced s) (hm : m ∈ s.mutexes)
    (hexec : (s.pcbs p).state = .exec) (hstate : m.state = 1)
    (hs' : s' = (s.modifyMutex m.id fun m =>
      { m with currentProcess := some p, nextPriority := INT_MAX, state := m.state - 1 }
      ).insertPriority p INT_MAX) :
    Sound none s' ∧ Balanced s' ∧ s'.ready = s.ready ∧
      (∀ q, (s'.pcbs q).state = (s.pcbs q).state) ∧
      (∀ q, (s'.pcbs q).priority = (s.pcbs q).priority) ∧
      (∀ q, (s'.pcbs q).basePriority = (s.pcbs q).basePriority) ∧
      ∀ q id, Holds s' q id → Holds s q id ∨ q = p := by
  have hms := hs.mutex m hm
  have hcount := hms.state (by simp)
  have hfree : m.currentProcess = none ∧ m.list = [] := by
    have hempty : m.list = [] := by
      refine List.eq_nil_of_length_eq_zero ?_
      split at hcount <;> omega
    refine ⟨?_, hempty⟩
    by_contra hne
    rw [if_neg hne] at hcount
    omega
  obtain ⟨hcur, hlist⟩ := hfree
  have hmax := priority_le_max hs hbal p
  set f : Mutex → Mutex := fun m =>
    { m with currentProcess := some p, nextPriority := INT_MAX, state := m.state - 1 } with hf
  have hself : s'.pcbs p =
      { s.pcbs p with priorityList := addPriority INT_MAX (s.pcbs p).priorityList } := by
    rw [hs', insertPriority, modifyPcb_pcbs_self, modifyMutex_pcbs, if_neg (by omega)]
  have hother : ∀ q, q ≠ p → s'.pcbs q = s.pcbs q := by
    intro q hq
    rw [hs', insertPriority, modifyPcb_pcbs_of_ne hq, modifyMutex_pcbs]
  have hmutexes : s'.mutexes = modifyKey Mutex.id m.id f s.mutexes := by
    rw [hs']
    rfl
  have hpid : s'.nextPid = s.nextPid := by
    rw [hs']
    rfl
  have hprio : ∀ q, (s'.pcbs q).priority = (s.pcbs q).priority := by
    intro q
    by_cases hq : q = p
    · rw [hq, hself]
    · rw [hother q hq]
  have hstates : ∀ q, (s'.pcbs q).state = (s.pcbs q).state := by
    intro q
    by_cases hq : q = p
    · rw [hq, hself]
    · rw [hother q hq]
  have hblock : ∀ q, (s'.pcbs q).blockingMutex = (s.pcbs q).blockingMutex := by
    intro q
    by_cases hq : q = p
    · rw [hq, hself]
    · rw [hother q hq]
  have hids : s.mutexes.map Mutex.id ⊆ s'.mutexes.map Mutex.id := by
    have heq : (modifyKey Mutex.id m.id f s.mutexes).map Mutex.id = s.mutexes.map Mutex.id :=
      map_key_modifyKey fun x hx => hx
    rw [hmutexes, heq]
    exact fun _ => id
  have hholds : ∀ q id, Holds s' q id → Holds s q id ∨ q = p := by
    intro q id hq
    rcases holds_modifyKey hmutexes hq with h | ⟨_, h⟩
    · exact .inl h
    · exact .inr (Option.some.inj h).symm
  have hbase : ∀ q, (s'.pcbs q).basePriority = (s.pcbs q).basePriority := by
    intro q
    by_cases hq : q = p
    · rw [hq, hself]
    · rw [hother q hq]
  refine ⟨?_, fun q => ?_, by rw [hs']; rfl, hstates, hprio, hbase, hholds⟩
  · refine hs.modifyMutex hm (by exact fun _ => rfl) hmutexes (fun q => ?_) ?_
      (fun m' hm' _ => ?_) (fun _ _ h => absurd h (by simp))
    · by_cases hq : q = p
      · have hpcb := hs.pcb p
        rw [hq]
        refine ⟨?_, ?_, ?_, ?_, fun id hid => ?_, ?_, ?_⟩
        · rw [hself]
          exact pairwise_addPriority hpcb.sorted _
        · rw [hself]
          exact head?_addPriority hpcb.first hmax
        · rw [hself]
          exact hpcb.bounded
        · rw [hself]
          exact hpcb.notRunning
        · rw [hself] at hid
          exact hids (hpcb.known id hid)
        · rw [hself, hpid]
          exact hpcb.created
        · rw [hself]
          exact hpcb.gone
      · exact (hs.pcb q).congr (hother q hq) hids hpid.ge
    · refine ⟨hms.active, ?_, ?_, fun q => ?_, fun hne => ?_, fun q hq => ?_, fun _ => ?_,
        fun _ => ?_⟩
      · rw [show (f m).list = [] from hlist]
        exact List.Pairwise.nil
      · exact hms.nodup
      · rw [hblock]
        exact hms.blocked q
      · exact absurd hlist hne
      · obtain rfl : p = q := Option.some.inj hq
        rw [hstates, hexec]
        decide
      · rw [nextOf, show (f m).list = [] from hlist]
      · simp only [hf, hlist, hstate]
        simp
    · exact (hs.mutex m' hm').congr (fun q _ => hprio q) (fun q => by rw [hblock])
        (fun q _ hq => by rwa [hstates])
  · obtain ⟨rest, hrest⟩ := exists_owed_modifyMutex hs hm hmutexes fun _ _ _ q _ => hprio q
    obtain ⟨h₁, h₂⟩ := hrest q
    have hnone : owedBy s.pcbs q m = [] := by
      rw [owedBy, hcur, if_neg (by simp)]
    rw [hnone] at h₁
    by_cases hq : q = p
    · have hone : owedBy s'.pcbs q (f m) = [INT_MAX] := by
        rw [owedBy, hq, if_pos rfl, nextOf, show (f m).list = [] from hlist]
      rw [hone] at h₂
      have hlistPerm : ((s'.pcbs q).priorityList).Perm (INT_MAX :: (s.pcbs q).priorityList) := by
        rw [hq, hself]
        exact perm_addPriority _ _
      rw [hbase]
      calc ((s'.pcbs q).priorityList).Perm (INT_MAX :: (s.pcbs q).priorityList) := hlistPerm
        _ |>.Perm (INT_MAX :: (s.pcbs q).basePriority :: owed s q) := (hbal q).cons _
        _ |>.Perm ((s.pcbs q).basePriority :: INT_MAX :: owed s q) := .swap _ _ _
        _ |>.Perm ((s.pcbs q).basePriority :: owed s' q) :=
          ((h₁.cons _).trans h₂.symm).cons _
    · have hne : ¬ (f m).currentProcess = some q := fun heq => hq (Option.some.inj heq).symm
      have hnone' : owedBy s'.pcbs q (f m) = [] := by rw [owedBy, if_neg hne]
      rw [hnone'] at h₂
      rw [hother q hq]
      exact (hbal q).trans ((h₁.trans h₂.symm).cons _)

/-! ## Waiting for a mutex -/

/-- What `mutex_lock` of `m` by `p` does besides keeping the invariant: READY only changes with the
priority of a READY process; only `p` changes its state; only processes on the chain of holders
from `m` on get another priority, which is that of `p`; nobody but `p` gets a mutex; and what is
configured stays. -/
structure LockEffect (m : Mutex) (p : ℕ) (s s' : Queues) : Prop where
  ready : (∀ q, (s.pcbs q).state = .ready → (s'.pcbs q).priority = (s.pcbs q).priority) →
    s'.ready = s.ready
  state : ∀ q, (s'.pcbs q).state = (s.pcbs q).state ∨ q = p ∧ (s'.pcbs q).state = .block
  priority : ∀ q, (s'.pcbs q).priority = (s.pcbs q).priority ∨
    (s'.pcbs q).priority = (s.pcbs p).priority ∧ (s.pcbs p).priority < (s.pcbs q).priority
  chain : ∀ q, (s'.pcbs q).priority ≠ (s.pcbs q).priority →
    ∃ h, m.currentProcess = some h ∧ Relation.ReflTransGen (WaitsFor s) h q
  holders : ∀ q id, Holds s' q id → Holds s q id ∨ q = p
  base : ∀ q, (s'.pcbs q).basePriority = (s.pcbs q).basePriority
  levels : s'.ready.levels = s.ready.levels

/-- The waiting list with the caller in it: the state is sound but for what is pending. -/
lemma sound_insertWaiter (hs : Sound none s) (hm : m ∈ s.mutexes)
    (hexec : (s.pcbs p).state = .exec) (hheld : m.currentProcess ≠ none) :
    Sound (some (p, m.id)) (s.modifyMutex m.id fun m' =>
      { m' with list := (insertPcbSorted s.pcbs p m.list).2 }) := by
  have hms := hs.mutex m hm
  have hunblocked := unblocked_of_exec hs hexec
  have hnot := not_mem_of_unblocked hs hunblocked hm
  have hperm := perm_insertPcbSorted s.pcbs p m.list
  refine hs.modifyMutex hm (by exact fun _ => rfl) rfl (fun q => (hs.pcb q).congr rfl ?_ le_rfl) ?_
    (fun m' hm' hne => (hs.mutex m' hm').with_pending hne p) (fun q id hq => ?_)
  · rw [map_id_modifyMutex m.id (by exact fun _ => rfl)]
    exact fun _ => id
  · refine ⟨hms.active, sortedByPriority_insertPcbSorted hms.sorted p, ?_, fun q => ?_,
      fun _ => hheld, hms.holder, fun h => absurd rfl (h p), fun h => absurd rfl (h p)⟩
    · exact hperm.nodup_iff.2 (List.nodup_cons.2 ⟨hnot, hms.nodup⟩)
    · rw [mem_insertPcbSorted, hms.blocked q]
      constructor
      · rintro (rfl | hb | hb)
        · exact .inr rfl
        · exact .inl hb
        · exact absurd hb (by simp)
      · rintro (hb | hb)
        · exact .inr (.inl hb)
        · exact .inl (congrArg Prod.fst (Option.some.inj hb)).symm
  · obtain ⟨rfl, -⟩ := Prod.mk.inj (Option.some.inj hq)
    exact hunblocked

/-- The next priority of the mutex waited for may be set before the process is blocked. -/
lemma sound_setNext {id : String} (hs : Sound (some (p, id)) s) (hm : m ∈ s.mutexes)
    (hid : m.id = id) (v : ℤ) :
    Sound (some (p, id)) (s.modifyMutex id fun m' => { m' with nextPriority := v }) := by
  subst hid
  have hms := hs.mutex m hm
  refine hs.modifyMutex hm (by exact fun _ => rfl) rfl (fun q => (hs.pcb q).congr rfl ?_ le_rfl) ?_
    (fun m' hm' _ => hs.mutex m' hm') hs.unblocked
  · rw [map_id_modifyMutex m.id (by exact fun _ => rfl)]
    exact fun _ => id
  · exact ⟨hms.active, hms.sorted, hms.nodup, hms.blocked, hms.held, hms.holder,
      fun h => absurd rfl (h p), fun h => absurd rfl (h p)⟩

/-- Waiting does not change the holders. -/
lemma holders_waitForMutex (id : String) (p : ℕ) (s : Queues) :
    (s.waitForMutex id p).mutexes.map (fun m => (m.id, m.currentProcess)) =
      s.mutexes.map fun m => (m.id, m.currentProcess) := by
  have hblocked : ((s.setMutexBlocking p (some id)).transitionExecBlock p).mutexes =
      s.mutexes := by
    unfold transitionExecBlock
    split
    · obtain ⟨exec, htake⟩ := transitionTakeExec_eq p
        ((s.setMutexBlocking p (some id)).setState p .block)
      rw [htake]
      rfl
    · rfl
  rw [← hblocked]
  exact map_holder_modifyMutex id (by exact fun _ => rfl) (by exact fun _ => rfl) _

/-- **The end of a waiting call**: the PCB records the mutex, the process leaves EXEC for BLOCK, and
the state of the mutex counts it. Nothing is pending any more. -/
lemma waitForMutex_spec {id : String} (hs : Sound (some (p, id)) s) (hbal : Balanced s)
    (hm : m ∈ s.mutexes) (hid : m.id = id) (hexec : (s.pcbs p).state = .exec)
    (hnext : m.nextPriority = nextOf s.pcbs m) (hstate : m.state = 1 - m.list.length) :
    Sound none (s.waitForMutex id p) ∧ Balanced (s.waitForMutex id p) ∧
      (s.waitForMutex id p).ready = s.ready ∧
      ((s.waitForMutex id p).pcbs p).state = .block ∧
      ((s.waitForMutex id p).pcbs p).basePriority = (s.pcbs p).basePriority ∧
      (∀ q, ((s.waitForMutex id p).pcbs q).priority = (s.pcbs q).priority) ∧
      ∀ q, q ≠ p → (s.waitForMutex id p).pcbs q = s.pcbs q := by
  subst hid
  have hms := hs.mutex m hm
  have hunblocked := hs.unblocked p m.id rfl
  have hmem : p ∈ m.list := (hms.blocked p).2 (.inr rfl)
  set t := s.setMutexBlocking p (some m.id) with ht
  have htself : t.pcbs p = { s.pcbs p with blockingMutex := some m.id } := by
    simp [ht, setMutexBlocking]
  have htexec : (t.pcbs p).state = .exec := by rw [htself]; exact hexec
  obtain ⟨hmoved, hready⟩ := transitionExecBlock_spec htexec
  set s' := s.waitForMutex m.id p with hs'
  have hself : s'.pcbs p =
      { s.pcbs p with blockingMutex := some m.id, state := .block } := by
    rw [hs', waitForMutex, modifyMutex_pcbs, ← ht, hmoved.self, htself]
  have hother : ∀ q, q ≠ p → s'.pcbs q = s.pcbs q := by
    intro q hq
    rw [hs', waitForMutex, modifyMutex_pcbs, ← ht, hmoved.other q hq, ht, setMutexBlocking,
      modifyPcb_pcbs_of_ne hq]
  set g : Mutex → Mutex := fun m => { m with state := m.state - 1 } with hg
  have hmutexes : s'.mutexes = modifyKey Mutex.id m.id g s.mutexes := by
    rw [hs', waitForMutex, ← ht, modifyMutex, hmoved.mutexes]
    rfl
  have hpid : s'.nextPid = s.nextPid := hmoved.nextPid
  have hprio : ∀ q, (s'.pcbs q).priority = (s.pcbs q).priority := by
    intro q
    by_cases hq : q = p
    · rw [hq, hself]
    · rw [hother q hq]
  have hnew : ∀ q, (s.pcbs q).state ≠ .new → (s'.pcbs q).state ≠ .new := by
    intro q hq
    by_cases heq : q = p
    · rw [heq, hself]
      simp
    · rwa [hother q heq]
  have hids : s'.mutexes.map Mutex.id = s.mutexes.map Mutex.id := by
    rw [hmutexes]
    exact map_key_modifyKey fun x hx => hx
  refine ⟨?_, fun q => ?_, hready, by rw [hself], by rw [hself], hprio, hother⟩
  · refine hs.modifyMutex hm (by exact fun _ => rfl) hmutexes (fun q => ?_) ?_
      (fun m' hm' hne => ?_) (fun _ _ h => absurd h (by simp))
    · by_cases hq : q = p
      · have hpcb := hs.pcb p
        rw [hq]
        refine ⟨?_, ?_, ?_, fun _ => ?_, fun id hid => ?_, fun _ => ?_, ?_⟩
        · rw [hself]
          exact hpcb.sorted
        · rw [hself]
          exact hpcb.first
        · rw [hself]
          exact hpcb.bounded
        · rw [hself]
          exact .inl rfl
        · rw [hself] at hid
          obtain rfl : m.id = id := Option.some.inj hid
          rw [hids]
          exact List.mem_map_of_mem hm
        · rw [hpid]
          exact hpcb.created (by rw [hexec]; decide)
        · rw [hself]
          have hnot : ¬ (s.pcbs p).destroyed = true := by
            intro hd
            have := hpcb.gone.1 hd
            rw [hexec] at this
            exact absurd this (by decide)
          exact ⟨fun hd => absurd hd hnot, fun he => absurd he (by simp)⟩
      · exact (hs.pcb q).congr (hother q hq) (by rw [hids]; exact fun _ => id) hpid.ge
    · refine ⟨hms.active, ?_, hms.nodup, fun q => ?_, hms.held, fun q hq => hnew q (hms.holder q hq),
        fun _ => ?_, fun _ => ?_⟩
      · refine hms.sorted.imp fun {a b} hab => ?_
        rw [hprio, hprio]
        exact hab
      · have hblocked := hms.blocked q
        by_cases hq : q = p
        · subst hq
          rw [hself]
          exact ⟨fun _ => .inl rfl, fun _ => hmem⟩
        · have hid : ¬ some (p, m.id) = some (q, m.id) := by
            intro heq
            exact hq (congrArg Prod.fst (Option.some.inj heq)).symm
          rw [hother q hq]
          simpa [hid] using hblocked
      · exact hnext.trans (nextOf_congr fun q _ => hprio q).symm
      · have hcur := hms.held (List.ne_nil_of_mem hmem)
        simp only [hg, hcur, if_false]
        omega
    · -- the other mutexes never saw the pending process
      have hms' := hs.mutex m' hm'
      have hid : ∀ q, ¬ some (p, m.id) = some (q, m'.id) := by
        intro q heq
        exact hne (congrArg Prod.snd (Option.some.inj heq)).symm
      refine ⟨hms'.active, ?_, hms'.nodup, fun q => ?_, hms'.held,
        fun q hq => hnew q (hms'.holder q hq), fun _ => ?_, fun _ => hms'.state hid⟩
      · refine hms'.sorted.imp fun {a b} hab => ?_
        rw [hprio, hprio]
        exact hab
      · rw [hms'.blocked q]
        by_cases hq : q = p
        · subst hq
          rw [hself, hunblocked]
          simp [hid, Ne.symm hne]
        · rw [hother q hq]
          simp [hid]
      · exact (hms'.next hid).trans (nextOf_congr fun q _ => hprio q).symm
  · have howed : owed s' q = owed s q :=
      owed_modifyMutex_of_same hprio hmutexes (fun _ => rfl) (fun _ => rfl) q
    rw [howed]
    by_cases hq : q = p
    · rw [hq, hself]
      exact hbal p
    · rw [hother q hq]
      exact hbal q

/-- The entries of the others do not see the insertion of the caller; that of the mutex is the
priority of its first waiting process, before and after. -/
lemma owed_insertWaiter (hs : Sound none s) (hm : m ∈ s.mutexes) {holder : ℕ}
    (hholder : m.currentProcess = some holder) {f : Mutex → Mutex} {t : Queues}
    (hcur : (f m).currentProcess = m.currentProcess) (ht : t = s.modifyMutex m.id f) :
    (∀ q, q ≠ holder → (owed t q).Perm (owed s q)) ∧
      ∃ rest, (owed s holder).Perm (m.nextPriority :: rest) ∧
        (owed t holder).Perm (nextOf t.pcbs (f m) :: rest) := by
  have hms := hs.mutex m hm
  obtain ⟨rest, hrest⟩ := exists_owed_modifyMutex hs hm
    (show t.mutexes = modifyKey Mutex.id m.id f s.mutexes by rw [ht]; rfl)
    fun _ _ _ q _ => by rw [ht]; rfl
  refine ⟨fun q hq => ?_, rest holder, ?_, ?_⟩
  · obtain ⟨h₁, h₂⟩ := hrest q
    have hne : ¬ some holder = some q := fun heq => hq (Option.some.inj heq).symm
    have hnone : owedBy s.pcbs q m = [] := by rw [owedBy, hholder, if_neg hne]
    have hnone' : owedBy t.pcbs q (f m) = [] := by
      rw [owedBy]
      exact if_neg (by rwa [hcur, hholder])
    rw [hnone] at h₁
    rw [hnone'] at h₂
    exact h₂.trans h₁.symm
  · have h₁ := (hrest holder).1
    rwa [owedBy, if_pos hholder, ← hms.next (by simp)] at h₁
  · have h₂ := (hrest holder).2
    rwa [owedBy, if_pos (hcur.trans hholder)] at h₂

/-- **The first link of the chain.** The caller waits first, and only the entry of the holder is out
of date, by a better value. -/
lemma lock_link (hs : Sound none s) (hbal : Balanced s) (hm : m ∈ s.mutexes)
    (hexec : (s.pcbs p).state = .exec) {holder : ℕ} (hholder : m.currentProcess = some holder)
    (hindex : (insertPcbSorted s.pcbs p m.list).1 = 0) {t : Queues}
    (ht : t = s.modifyMutex m.id fun m' =>
      { m' with list := (insertPcbSorted s.pcbs p m.list).2 }) :
    Sound (some (p, m.id)) t ∧
      (∀ q id, some (p, m.id) = some (q, id) →
        (t.pcbs q).priority ≤ (s.pcbs p).priority ∧ id ∈ [m.id]) ∧
      (∀ q, q ≠ holder →
        ((t.pcbs q).priorityList).Perm ((t.pcbs q).basePriority :: owed t q)) ∧
      (s.pcbs p).priority ≤ m.nextPriority ∧
      ∃ rest, ((t.pcbs holder).priorityList).Perm (m.nextPriority :: rest) ∧
        ((t.pcbs holder).basePriority :: owed t holder).Perm ((s.pcbs p).priority :: rest) := by
  have hms := hs.mutex m hm
  have hpcbs : t.pcbs = s.pcbs := by
    rw [ht]
    rfl
  set f : Mutex → Mutex := fun m' => { m' with list := (insertPcbSorted s.pcbs p m.list).2 }
  have hlist : (f m).list = p :: m.list := listAddSorted_of_index_eq_zero _ _ hindex
  have hnextNew : nextOf t.pcbs (f m) = (s.pcbs p).priority := by
    rw [nextOf, hlist, hpcbs]
  obtain ⟨hother, rest, h₁, h₂⟩ := owed_insertWaiter hs hm hholder (f := f) (by rfl) ht
  rw [hnextNew] at h₂
  refine ⟨?_, fun q id hq => ?_, fun q hq => ?_, ?_, (s.pcbs holder).basePriority :: rest, ?_, ?_⟩
  · rw [ht]
    exact sound_insertWaiter hs hm hexec (by simp [hholder])
  · obtain ⟨rfl, rfl⟩ := Prod.mk.inj (Option.some.inj hq)
    exact ⟨by rw [hpcbs], List.mem_singleton_self _⟩
  · rw [hpcbs]
    exact (hbal q).trans ((hother q hq).symm.cons _)
  · rw [hms.next (by simp), nextOf]
    cases hml : m.list with
    | nil => exact priority_le_max hs hbal p
    | cons first others =>
      have hpass := comparator_of_index_eq_zero _ _ hindex (show first ∈ m.list.head? by simp [hml])
      simpa [isHighestPriority] using hpass
  · rw [hpcbs]
    exact ((hbal holder).trans (h₁.cons _)).trans (.swap _ _ _)
  · rw [hpcbs]
    exact (h₂.cons _).trans (.swap _ _ _)

section Waiting

variable {holder : ℕ} {t u : Queues}

/-- The mutex with the caller in its waiting list. -/
abbrev withWaiter (s : Queues) (p : ℕ) (m : Mutex) : Mutex :=
  { m with list := (insertPcbSorted s.pcbs p m.list).2 }

/-- The mutexes after a process is put among those that wait. -/
lemma mutex_insertWaiter (hs : Sound none s) (hm : m ∈ s.mutexes)
    (ht : t = s.modifyMutex m.id fun m' =>
      { m' with list := (insertPcbSorted s.pcbs p m.list).2 }) :
    t.mutex m.id = some (withWaiter s p m) := by
  rw [ht, mutex_modifyMutex_self (by exact fun _ => rfl), hs.mutex_eq hm]
  rfl

/-- The holders are the same. -/
lemma holders_insertWaiter (ht : t = s.modifyMutex m.id fun m' =>
      { m' with list := (insertPcbSorted s.pcbs p m.list).2 }) :
    t.mutexes.map (fun m => (m.id, m.currentProcess)) =
      s.mutexes.map fun m => (m.id, m.currentProcess) := by
  rw [ht]
  exact map_holder_modifyMutex m.id (by exact fun _ => rfl) (by exact fun _ => rfl) s

/-- The caller is in the list before the state counts it. -/
lemma state_withWaiter (hs : Sound none s) (hm : m ∈ s.mutexes)
    (hholder : m.currentProcess = some holder) :
    (withWaiter s p m).state = 1 - ((withWaiter s p m).list.length : ℤ) := by
  have hcount := (hs.mutex m hm).state (by simp)
  rw [if_neg (by simp [hholder])] at hcount
  have hlength : (withWaiter s p m).list.length = m.list.length + 1 :=
    (perm_insertPcbSorted s.pcbs p m.list).length_eq
  rw [hlength]
  show m.state = _
  omega

/-- **The call that waits first.** The holder gets an entry that is not worse than the one it
replaces, and the chain does the rest; the mutex itself is locked meanwhile, so it is as it was. -/
lemma lockFirst_spec (hs : Sound none s) (hbal : Balanced s) (hm : m ∈ s.mutexes)
    (hexec : (s.pcbs p).state = .exec) (hholder : m.currentProcess = some holder)
    (hindex : (insertPcbSorted s.pcbs p m.list).1 = 0)
    (ht : t = s.modifyMutex m.id fun m' => { m' with list := (insertPcbSorted s.pcbs p m.list).2 })
    (hu : t.replacePriority [m.id] holder m.nextPriority (s.pcbs p).priority = some u)
    (hs' : s' = ((u.modifyMutex m.id fun m =>
      { m with nextPriority := (s.pcbs p).priority }).updateLowestExecPriority).waitForMutex
        m.id p) :
    Sound none s' ∧ Balanced s' ∧ LockEffect m p s s' := by
  have hpcbs : t.pcbs = s.pcbs := by
    rw [ht]
    rfl
  have hlist : (withWaiter s p m).list = p :: m.list :=
    listAddSorted_of_index_eq_zero _ _ hindex
  have hholders := holders_insertWaiter ht
  obtain ⟨hlinkSound, hpend, hlists, hle, rest, hold, hnew⟩ :=
    lock_link hs hbal hm hexec hholder hindex ht
  obtain ⟨husound, hubal, hinh, hchain⟩ := replacePriorityWith_spec
    (propagates_propagatePriorityTransitive _ [m.id] _) hlinkSound hpend hlists hold hnew hle hu
  have hmutex : u.mutex m.id = some (withWaiter s p m) :=
    (hinh.locked m.id (List.mem_singleton_self _)).trans (mutex_insertWaiter hs hm ht)
  set updated : Mutex := { withWaiter s p m with nextPriority := (s.pcbs p).priority }
  set w := (u.modifyMutex m.id fun m =>
    { m with nextPriority := (s.pcbs p).priority }).updateLowestExecPriority
  have hwsound : Sound (some (p, m.id)) w := by
    have hset := sound_setNext husound (lookupKey_eq_some hmutex).2 rfl (s.pcbs p).priority
    exact hset.congr rfl (fun q => (hset.pcb q).congr rfl (fun _ => id) le_rfl)
      (fun _ _ _ _ => rfl) (fun _ => rfl) (fun _ _ _ _ => id)
  have hwmutexes : w.mutexes = modifyKey Mutex.id m.id
      (fun m => { m with nextPriority := (s.pcbs p).priority }) u.mutexes := rfl
  have hwbal : Balanced w := by
    intro q
    have hprio : ∀ q, (w.pcbs q).priority = (u.pcbs q).priority := fun _ => rfl
    have howed : owed w q = owed u q :=
      owed_modifyMutex_of_same hprio hwmutexes (fun _ => rfl) (fun _ => rfl) q
    rw [howed]
    exact hubal q
  have hwmem : updated ∈ w.mutexes := by
    have hself : w.mutex m.id = (u.mutex m.id).map fun m =>
        { m with nextPriority := (s.pcbs p).priority } :=
      mutex_modifyMutex_self (by exact fun _ => rfl) u
    rw [hmutex] at hself
    exact (lookupKey_eq_some hself).2
  have hpriority : (u.pcbs p).priority = (s.pcbs p).priority := by
    rcases hinh.priority p with h | h
    · rw [h, hpcbs]
    · exact h.1
  have hwexec : (w.pcbs p).state = .exec := (hinh.state p).trans (by rw [hpcbs]; exact hexec)
  have hwnext : (s.pcbs p).priority = nextOf w.pcbs updated := by
    rw [nextOf, show updated.list = p :: m.list from hlist]
    exact hpriority.symm
  obtain ⟨hsound', hbal', hready, hstate, hbase, hprio, hothers⟩ :=
    waitForMutex_spec hwsound hwbal hwmem rfl hwexec hwnext (state_withWaiter hs hm hholder)
  rw [← hs'] at hsound' hbal' hready hstate hbase hprio hothers
  have hready' : s'.ready = u.ready := hready
  have hothers' : ∀ q, q ≠ p → s'.pcbs q = u.pcbs q := hothers
  have hprio' : ∀ q, (s'.pcbs q).priority = (u.pcbs q).priority := hprio
  refine ⟨hsound', hbal', fun hsame => ?_, fun q => ?_, fun q => ?_, fun q hq => ?_,
    fun q id hq => .inl ?_, fun q => ?_, ?_⟩
  · have hready : t.ready = s.ready := by
      rw [ht]
      rfl
    rw [hready', ← hready]
    refine hinh.ready fun q hq => ?_
    rw [hpcbs] at hq ⊢
    exact (hprio' q).symm.trans (hsame q hq)
  · by_cases hq : q = p
    · exact .inr ⟨hq, hq ▸ hstate⟩
    · rw [hothers' q hq, ← hpcbs]
      exact .inl (hinh.state q)
  · rw [hprio', ← hpcbs]
    exact hpcbs ▸ hinh.priority q
  · rw [hprio', ← hpcbs] at hq
    have hsame : WaitsFor t = WaitsFor s := waitsFor_congr (fun q => by rw [hpcbs]) hholders
    rw [hsame] at hchain
    exact ⟨holder, hholder, hchain q hq⟩
  · have hw : w.mutexes.map (fun m => (m.id, m.currentProcess)) =
        u.mutexes.map fun m => (m.id, m.currentProcess) :=
      map_holder_modifyMutex m.id (by exact fun _ => rfl) (by exact fun _ => rfl) u
    unfold Holds at hq
    rwa [hs', holders_waitForMutex, hw, hinh.holders, hholders] at hq
  · by_cases hq : q = p
    · rw [hq, ← hpcbs]
      exact hbase.trans (hinh.base p)
    · rw [hothers' q hq, ← hpcbs]
      exact hinh.base q
  · rw [hready', hinh.levels, ht]
    rfl

/-- **The call that waits behind another process** changes no entry. -/
lemma lockBehind_spec (hs : Sound none s) (hbal : Balanced s) (hm : m ∈ s.mutexes)
    (hexec : (s.pcbs p).state = .exec) (hholder : m.currentProcess = some holder)
    (hindex : ¬ (insertPcbSorted s.pcbs p m.list).1 = 0)
    (ht : t = s.modifyMutex m.id fun m' => { m' with list := (insertPcbSorted s.pcbs p m.list).2 })
    (hs' : s' = t.waitForMutex m.id p) :
    Sound none s' ∧ Balanced s' ∧ LockEffect m p s s' := by
  have hms := hs.mutex m hm
  have hpcbs : t.pcbs = s.pcbs := by
    rw [ht]
    rfl
  have hsound : Sound (some (p, m.id)) t := by
    rw [ht]
    exact sound_insertWaiter hs hm hexec (by simp [hholder])
  obtain ⟨first, hhead, hhead', -⟩ := head?_listAddSorted_of_index_ne_zero _ _ hindex
  obtain ⟨others, hothers⟩ := List.head?_eq_some_iff.1 hhead
  obtain ⟨others', hothers'⟩ := List.head?_eq_some_iff.1 hhead'
  have hnextSame : nextOf t.pcbs (withWaiter s p m) = nextOf s.pcbs m := by
    rw [nextOf, nextOf, hothers, show (withWaiter s p m).list = first :: others' from hothers',
      hpcbs]
  obtain ⟨hother, rest, h₁, h₂⟩ := owed_insertWaiter hs hm hholder
    (f := fun m' => { m' with list := (insertPcbSorted s.pcbs p m.list).2 }) (by rfl) ht
  have htbal : Balanced t := by
    intro q
    rw [hpcbs]
    by_cases hq : q = holder
    · have h₂' : (owed t holder).Perm (m.nextPriority :: rest) := by
        rw [hms.next (by simp), ← hnextSame]
        exact h₂
      subst hq
      exact (hbal q).trans ((h₁.trans h₂'.symm).cons _)
    · exact (hbal q).trans ((hother q hq).symm.cons _)
  have hmem : withWaiter s p m ∈ t.mutexes := (lookupKey_eq_some (mutex_insertWaiter hs hm ht)).2
  obtain ⟨hsound', hbal', hready, hstate, hbase, hprio, hothersPcb⟩ :=
    waitForMutex_spec hsound htbal hmem rfl (by rw [hpcbs]; exact hexec)
      ((hms.next (by simp)).trans hnextSame.symm) (state_withWaiter hs hm hholder)
  have hready' : s'.ready = s.ready := by
    rw [hs', hready, ht]
    rfl
  rw [← hs'] at hsound' hbal' hstate hbase hprio hothersPcb
  rw [hpcbs] at hbase hprio hothersPcb
  refine ⟨hsound', hbal', fun _ => hready', fun q => ?_, fun q => .inl (hprio q),
    fun q hq => absurd (hprio q) hq, fun q id hq => .inl ?_, fun q => ?_, by rw [hready']⟩
  · by_cases hq : q = p
    · exact .inr ⟨hq, hq ▸ hstate⟩
    · exact .inl (congrArg Pcb.state (hothersPcb q hq))
  · unfold Holds at hq
    rwa [hs', holders_waitForMutex, holders_insertWaiter ht] at hq
  · by_cases hq : q = p
    · rw [hq]
      exact hbase
    · rw [hothersPcb q hq]

end Waiting

/-- **`mutex_lock` keeps the invariant**, for a running process and whenever it returns.

**Proof sketch.** A free mutex is taken (`lockFree_spec`). Otherwise the process enters the waiting
list, as the first one there (`lockFirst_spec`) or behind another (`lockBehind_spec`). -/
theorem mutexLock_spec {r : MutexResult} (hs : Sound none s) (hbal : Balanced s)
    (hm : m ∈ s.mutexes) (hexec : (s.pcbs p).state = .exec)
    (hrun : s.mutexLock m p = some (r, s')) :
    Sound none s' ∧ Balanced s' ∧ LockEffect m p s s' := by
  have hms := hs.mutex m hm
  unfold mutexLock at hrun
  simp only at hrun
  split at hrun
  · rename_i hfree
    obtain ⟨-, heq⟩ := Prod.mk.inj (Option.some.inj hrun)
    obtain ⟨hsound, hbalanced, hready, hstate, hprio, hbase, hholds⟩ :=
      lockFree_spec hs hbal hm hexec hfree heq.symm
    exact ⟨hsound, hbalanced, fun _ => hready, fun q => .inl (hstate q), fun q => .inl (hprio q),
      fun q hq => absurd (hprio q) hq, hholds, hbase, by rw [hready]⟩
  rename_i hheldState
  rw [if_pos hms.active] at hrun
  obtain ⟨holder, hholder⟩ : ∃ holder, m.currentProcess = some holder := by
    refine Option.ne_none_iff_exists'.1 fun hnone => hheldState ?_
    have hempty : m.list = [] := by
      by_contra hne
      exact hms.held hne hnone
    rw [hms.state (by simp), hnone, hempty]
    simp
  split at hrun
  · rename_i hindex
    rw [hholder] at hrun
    obtain ⟨u, hu, heq⟩ := Option.map_eq_some_iff.1 hrun
    exact lockFirst_spec hs hbal hm hexec hholder hindex rfl hu (Prod.mk.inj heq).2.symm
  · rename_i hindex
    exact lockBehind_spec hs hbal hm hexec hholder hindex rfl
      (Prod.mk.inj (Option.some.inj hrun)).2.symm

end OsSimulator.Scheduler
