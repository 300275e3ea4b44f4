import OsSimulator.Scheduler.Soundness

set_option relaxedAutoImplicit false
set_option autoImplicit false

/-!
# The inheritance chain

What a call of `replace_priority` does. It gives one process a better entry; when that makes its
priority better, the process moves up in the waiting list of the mutex it waits for, and if it is
now the first one there, the holder of that mutex gets a better entry too, and so on. All the
entries and priorities the chain sets have one value, the priority of the process that started it.

## Main definitions

* `Inherited locked v s s'` — what a chain with value `v` may change.

## Main results

* `replacePriorityWith_spec` — a chain that starts with one entry of one process out of date ends
  in a sound and balanced state.
* `propagatePriorityTransitive_rounds` — the rounds given to the chain are enough: more of them
  change nothing.
-/

namespace OsSimulator.Scheduler

open Queues

/-! ## What a chain changes -/

/-- What an inheritance chain with value `v` that holds the locks `locked` does to the state:
priorities only become better, and then are `v`; holders stay, and so do the locked mutexes; the
READY queue changes only when the priority of a READY process does. -/
structure Inherited (locked : List String) (v : ℤ) (s s' : Queues) : Prop where
  base : ∀ q, (s'.pcbs q).basePriority = (s.pcbs q).basePriority
  state : ∀ q, (s'.pcbs q).state = (s.pcbs q).state
  blocking : ∀ q, (s'.pcbs q).blockingMutex = (s.pcbs q).blockingMutex
  destroyed : ∀ q, (s'.pcbs q).destroyed = (s.pcbs q).destroyed
  priority : ∀ q, (s'.pcbs q).priority = (s.pcbs q).priority ∨
    (s'.pcbs q).priority = v ∧ v < (s.pcbs q).priority
  nextPid : s'.nextPid = s.nextPid
  lists : s'.exec = s.exec ∧ s'.block = s.block ∧ s'.suspBlock = s.suspBlock ∧
    s'.suspReady = s.suspReady
  holders : s'.mutexes.map (fun m => (m.id, m.currentProcess)) =
    s.mutexes.map fun m => (m.id, m.currentProcess)
  locked : ∀ id ∈ locked, s'.mutex id = s.mutex id
  ready : (∀ q, (s.pcbs q).state = .ready → (s'.pcbs q).priority = (s.pcbs q).priority) →
    s'.ready = s.ready
  levels : s'.ready.levels = s.ready.levels

/-- Nobody has inherited yet. -/
lemma Inherited.refl (locked : List String) (v : ℤ) (s : Queues) : Inherited locked v s s where
  base _ := rfl
  state _ := rfl
  blocking _ := rfl
  destroyed _ := rfl
  priority _ := .inl rfl
  nextPid := rfl
  lists := ⟨rfl, rfl, rfl, rfl⟩
  holders := rfl
  locked _ _ := rfl
  ready _ := rfl
  levels := rfl

/-- Two parts of one chain are one. -/
lemma Inherited.trans {locked locked' : List String} {v : ℤ} {s t u : Queues}
    (h : Inherited locked v s t) (h' : Inherited locked' v t u) (hsub : locked ⊆ locked') :
    Inherited locked v s u where
  base q := (h'.base q).trans (h.base q)
  state q := (h'.state q).trans (h.state q)
  blocking q := (h'.blocking q).trans (h.blocking q)
  destroyed q := (h'.destroyed q).trans (h.destroyed q)
  priority q := by
    have h₁ := h.priority q
    have h₂ := h'.priority q
    omega
  nextPid := h'.nextPid.trans h.nextPid
  lists := by
    obtain ⟨h₁, h₂, h₃, h₄⟩ := h.lists
    obtain ⟨h₁', h₂', h₃', h₄'⟩ := h'.lists
    exact ⟨h₁'.trans h₁, h₂'.trans h₂, h₃'.trans h₃, h₄'.trans h₄⟩
  holders := h'.holders.trans h.holders
  locked id hid := (h'.locked id (hsub hid)).trans (h.locked id hid)
  levels := h'.levels.trans h.levels
  ready hready := by
    -- a READY process whose priority is the same at the end kept it in both parts
    have hboth : ∀ q, (s.pcbs q).state = .ready →
        (t.pcbs q).priority = (s.pcbs q).priority ∧ (u.pcbs q).priority = (t.pcbs q).priority := by
      intro q hq
      have h₁ := h.priority q
      have h₂ := h'.priority q
      have h₃ := hready q hq
      omega
    rw [h'.ready fun q hq => (hboth q ((h.state q).symm.trans hq)).2,
      h.ready fun q hq => (hboth q hq).1]

/-- `update_priority` only touches the READY queue, and only for a READY process. -/
lemma updatePriority_spec {p : ℕ} {s s' : Queues} (h : s.updatePriority p = some s') :
    ∃ ready, s' = { s with ready := ready } ∧ ((s.pcbs p).state ≠ .ready → ready = s.ready) ∧
      ready.levels = s.ready.levels := by
  unfold updatePriority at h
  split at h
  · rename_i hcond
    obtain ⟨t, ht, hs'⟩ := Option.bind_eq_some_iff.1 h
    obtain ⟨r, htake, rfl⟩ := Option.map_eq_some_iff.1 ht
    obtain ⟨r', hadd, rfl⟩ := Option.map_eq_some_iff.1 hs'
    exact ⟨r', rfl, fun hne => absurd hcond.2 hne,
      (ReadyQueue.levels_add hadd).trans (ReadyQueue.levels_take htake)⟩
  · obtain rfl := Option.some.inj h
    exact ⟨s.ready, rfl, fun _ => rfl, rfl⟩

/-! ## A process with a better priority -/

/-- The state `s` is `s₀` with a new priority list for `h`, whose first entry `v` is its
priority. The READY queue may differ. -/
structure Replaced (h : ℕ) (v : ℤ) (s₀ s : Queues) : Prop where
  pcb : s.pcbs h =
    { s₀.pcbs h with priority := v, priorityList := (s.pcbs h).priorityList }
  other : ∀ q, q ≠ h → s.pcbs q = s₀.pcbs q
  sorted : (s.pcbs h).priorityList.Pairwise (· ≤ ·)
  first : (s.pcbs h).priorityList.head? = some v
  mutexes : s.mutexes = s₀.mutexes
  nextPid : s.nextPid = s₀.nextPid

section Replaced

variable {h : ℕ} {v : ℤ} {s₀ s : Queues} {pending : Option (ℕ × String)}

/-- A new priority leaves everybody's own one. -/
lemma Replaced.base (hr : Replaced h v s₀ s) (q : ℕ) :
    (s.pcbs q).basePriority = (s₀.pcbs q).basePriority := by
  by_cases hq : q = h
  · rw [hq, hr.pcb]
  · rw [hr.other q hq]

/-- It leaves the states. -/
lemma Replaced.state (hr : Replaced h v s₀ s) (q : ℕ) :
    (s.pcbs q).state = (s₀.pcbs q).state := by
  by_cases hq : q = h
  · rw [hq, hr.pcb]
  · rw [hr.other q hq]

/-- It leaves what everybody waits for. -/
lemma Replaced.blocking (hr : Replaced h v s₀ s) (q : ℕ) :
    (s.pcbs q).blockingMutex = (s₀.pcbs q).blockingMutex := by
  by_cases hq : q = h
  · rw [hq, hr.pcb]
  · rw [hr.other q hq]

/-- It destroys nobody. -/
lemma Replaced.destroyed (hr : Replaced h v s₀ s) (q : ℕ) :
    (s.pcbs q).destroyed = (s₀.pcbs q).destroyed := by
  by_cases hq : q = h
  · rw [hq, hr.pcb]
  · rw [hr.other q hq]

/-- The process has the new priority. -/
lemma Replaced.priority (hr : Replaced h v s₀ s) : (s.pcbs h).priority = v := by
  rw [hr.pcb]

/-- Every PCB is still sound. -/
lemma Replaced.pcbSound (hr : Replaced h v s₀ s) (hs : Sound pending s₀) (q : ℕ) :
    PcbSound s q := by
  have hq := hs.pcb q
  have hids : s₀.mutexes.map Mutex.id ⊆ s.mutexes.map Mutex.id := by rw [hr.mutexes]; exact fun _ => id
  refine ⟨?_, ?_, ?_, ?_, ?_, ?_, ?_⟩
  · by_cases heq : q = h
    · exact heq ▸ hr.sorted
    · exact hr.other q heq ▸ hq.sorted
  · by_cases heq : q = h
    · rw [heq, hr.first, hr.priority]
    · exact hr.other q heq ▸ hq.first
  · rw [hr.base]
    exact hq.bounded
  · rw [hr.blocking, hr.state]
    exact hq.notRunning
  · intro id hid
    rw [hr.blocking] at hid
    exact hids (hq.known id hid)
  · rw [hr.state, hr.nextPid]
    exact hq.created
  · rw [hr.destroyed, hr.state]
    exact hq.gone

/-- A mutex at which `h` does not wait is still sound. -/
lemma Replaced.mutexSound (hr : Replaced h v s₀ s) {m : Mutex}
    (hm : MutexSound pending s₀.pcbs m) (hnot : h ∉ m.list) : MutexSound pending s.pcbs m := by
  refine hm.congr (fun q hq => ?_) (fun q => by rw [hr.blocking])
    (fun q _ hq => by rwa [hr.state])
  rw [hr.other q fun heq => hnot (heq ▸ hq)]

end Replaced

/-! ## A waiting process that moves up -/

section Reposition

variable {h : ℕ} {v : ℤ} {s₀ s : Queues} {pending : Option (ℕ × String)} {m : Mutex}

/-- The waiting list of the mutex at which `h` waits, with `h` inserted again: the same processes
in the order of the new priorities. -/
lemma reposition_spec (hr : Replaced h v s₀ s) (hm : MutexSound pending s₀.pcbs m)
    (hmem : h ∈ m.list) :
    ((insertPcbSorted s.pcbs h (m.list.erase h)).2).Perm m.list ∧
      SortedByPriority s.pcbs (insertPcbSorted s.pcbs h (m.list.erase h)).2 := by
  refine ⟨(perm_insertPcbSorted _ _ _).trans (List.perm_cons_erase hmem).symm, ?_⟩
  refine sortedByPriority_insertPcbSorted ?_ h
  have hsub : (m.list.erase h).Pairwise fun a b =>
      (s₀.pcbs a).priority ≤ (s₀.pcbs b).priority := hm.sorted.sublist List.erase_sublist
  refine hsub.imp_of_mem fun {a b} ha hb hab => ?_
  have hne : ∀ q ∈ m.list.erase h, q ≠ h := by
    rintro q hq rfl
    exact (hm.nodup.not_mem_erase) hq
  rw [hr.other a (hne a ha), hr.other b (hne b hb)]
  exact hab

/-- Where `h` comes to stand decides the first entry: at the head it is `v`, which is not worse
than what it was; behind it the first waiting process has stayed. -/
lemma nextOf_reposition (hr : Replaced h v s₀ s) (hm : MutexSound pending s₀.pcbs m)
    (hmem : h ∈ m.list) (hlt : v < (s₀.pcbs h).priority) :
    ((insertPcbSorted s.pcbs h (m.list.erase h)).1 = 0 →
      nextOf s.pcbs { m with list := (insertPcbSorted s.pcbs h (m.list.erase h)).2 } = v ∧
        v ≤ nextOf s₀.pcbs m) ∧
    ((insertPcbSorted s.pcbs h (m.list.erase h)).1 ≠ 0 →
      nextOf s.pcbs { m with list := (insertPcbSorted s.pcbs h (m.list.erase h)).2 } =
        nextOf s₀.pcbs m) := by
  obtain ⟨first, rest, hlist⟩ : ∃ first rest, m.list = first :: rest :=
    List.exists_cons_of_ne_nil (List.ne_nil_of_mem hmem)
  have hfirst : ∀ q ∈ m.list, (s₀.pcbs first).priority ≤ (s₀.pcbs q).priority := by
    intro q hq
    have hsorted := hm.sorted
    rw [SortedByPriority, hlist] at hsorted
    rw [hlist] at hq
    rcases List.mem_cons.1 hq with rfl | hq
    · exact le_rfl
    · exact (List.pairwise_cons.1 hsorted).1 q hq
  have hold : nextOf s₀.pcbs m = (s₀.pcbs first).priority := by
    rw [nextOf, hlist]
  constructor
  · intro hindex
    rw [insertPcbSorted, listAddSorted_of_index_eq_zero _ _ hindex]
    refine ⟨hr.priority, ?_⟩
    rw [hold]
    by_cases heq : first = h
    · rw [heq]
      exact hlt.le
    · have hhead : first ∈ (m.list.erase h).head? := by
        rw [hlist, List.erase_cons_tail (by simpa using heq)]
        rfl
      have hcomp := comparator_of_index_eq_zero _ _ hindex hhead
      simp only [isHighestPriority, decide_eq_true_eq, hr.priority, hr.other first heq] at hcomp
      exact hcomp
  · intro hindex
    obtain ⟨w, hw, hw', hcomp⟩ := head?_listAddSorted_of_index_ne_zero _ _ hindex
    simp only [isHighestPriority, decide_eq_false_iff_not, not_le, hr.priority] at hcomp
    have hwmem : w ∈ m.list.erase h := List.mem_of_mem_head? hw
    have hwne : w ≠ h := by
      rintro rfl
      exact hm.nodup.not_mem_erase hwmem
    -- a first process that is passed by nobody was the first before, since `h` was worse than `v`
    have hfirstne : first ≠ h := by
      rintro rfl
      have h₁ := hfirst w (List.mem_of_mem_erase hwmem)
      rw [hr.other w hwne] at hcomp
      omega
    rw [hlist, List.erase_cons_tail (by simpa using hfirstne)] at hw
    obtain rfl : first = w := by simpa using hw
    obtain ⟨tail, htail⟩ : ∃ tail, (insertPcbSorted s.pcbs h (m.list.erase h)).2 = first :: tail :=
      List.head?_eq_some_iff.1 hw'
    rw [nextOf, htail, hold]
    exact congrArg Pcb.priority (hr.other first hwne)

/-- **A waiting process moves up.** With the waiting list in the new order and the next priority
following it, the state is sound again. -/
lemma sound_reposition {t : Queues} {f : Mutex → Mutex} (hs : Sound pending s₀)
    (hr : Replaced h v s₀ s) (hm : m ∈ s₀.mutexes) (hmem : h ∈ m.list)
    (honly : ∀ m' ∈ s₀.mutexes, m'.id ≠ m.id → h ∉ m'.list)
    (hpcbs : t.pcbs = s.pcbs) (hpid : t.nextPid = s.nextPid)
    (hmutexes : t.mutexes = modifyKey Mutex.id m.id f s₀.mutexes)
    (hid : ∀ m, (f m).id = m.id)
    (hself : f m = { m with
      list := (insertPcbSorted s.pcbs h (m.list.erase h)).2, nextPriority := (f m).nextPriority })
    (hnext : (f m).nextPriority = nextOf s.pcbs (f m)) : Sound pending t := by
  have hms := hs.mutex m hm
  obtain ⟨hperm, hsorted⟩ := reposition_spec hr hms hmem
  have hids : t.mutexes.map Mutex.id = s₀.mutexes.map Mutex.id := by
    rw [hmutexes]
    exact map_key_modifyKey fun x hx => (hid x).trans hx
  refine hs.modifyMutex hm hid hmutexes (fun q => ?_) ?_ (fun m' hm' hne => ?_) (fun p id hp => ?_)
  · refine (hr.pcbSound hs q).congr (by rw [hpcbs]) ?_ hpid.ge
    rw [hids, hr.mutexes]
    exact fun _ => id
  · rw [hpcbs]
    have hlist : (f m).list = (insertPcbSorted s.pcbs h (m.list.erase h)).2 := by rw [hself]
    have hcur : (f m).currentProcess = m.currentProcess := by rw [hself]
    have hstate : (f m).state = m.state := by rw [hself]
    refine ⟨?_, ?_, ?_, fun q => ?_, fun _ => ?_, fun q hq => ?_, fun _ => hnext, fun hp => ?_⟩
    · rw [hself]
      exact hms.active
    · rw [hlist]
      exact hsorted
    · rw [hlist]
      exact hperm.nodup_iff.2 hms.nodup
    · rw [hlist, hperm.mem_iff, hms.blocked, hid, hr.blocking]
    · rw [hcur]
      exact hms.held (List.ne_nil_of_mem hmem)
    · rw [hr.state]
      exact hms.holder q (hcur ▸ hq)
    · rw [hstate, hcur, hlist, hperm.length_eq]
      exact hms.state (by rwa [hid] at hp)
  · rw [hpcbs]
    exact hr.mutexSound (hs.mutex m' hm') (honly m' hm' hne)
  · rw [hpcbs, hr.blocking]
    exact hs.unblocked p id hp

end Reposition

/-! ## The chain -/

/-- What is asked of a function that propagates a changed priority `v`: from a sound and balanced
state in which one process has just got the priority `v`, it leads to a sound and balanced
state, and changes the priorities of processes on the chain of holders only. -/
def Propagates (propagate : ℕ → ℤ → Queues → Option Queues) (locked : List String) (v : ℤ) :
    Prop :=
  ∀ (pending : Option (ℕ × String)) (h : ℕ) (s₀ s s' : Queues), Sound pending s₀ →
    (∀ p id, pending = some (p, id) → (s₀.pcbs p).priority ≤ v ∧ id ∈ locked) →
    Replaced h v s₀ s → v < (s₀.pcbs h).priority →
    (∀ q, ((s.pcbs q).priorityList).Perm ((s.pcbs q).basePriority :: owed s₀ q)) →
    propagate h v s = some s' →
    Sound pending s' ∧ Balanced s' ∧ Inherited locked v s s' ∧
      ∀ q, (s'.pcbs q).priority ≠ (s.pcbs q).priority → Relation.ReflTransGen (WaitsFor s₀) h q

section Link

variable {pending : Option (ℕ × String)} {locked : List String} {h : ℕ} {old v : ℤ}
  {rest : List ℤ} {s : Queues}

/-- **The replacement of an entry.** When the entries of all processes are right but for one of `h`,
which is `old` instead of a better or equal `v`, they are all right after the replacement, and the
priority of `h` is the better one of its old one and `v`. -/
lemma replaceEntry_cases (hs : Sound pending s)
    (hbal : ∀ q, q ≠ h → ((s.pcbs q).priorityList).Perm ((s.pcbs q).basePriority :: owed s q))
    (hold : ((s.pcbs h).priorityList).Perm (old :: rest))
    (hnew : ((s.pcbs h).basePriority :: owed s h).Perm (v :: rest)) (hle : v ≤ old) :
    (∀ q, (((s.replaceEntry h old v).pcbs q).priorityList).Perm
      (((s.replaceEntry h old v).pcbs q).basePriority :: owed s q)) ∧
    ((v < (s.pcbs h).priority ∧ Replaced h v s (s.replaceEntry h old v)) ∨
      (¬ v < (s.pcbs h).priority ∧
        Replaced h (s.pcbs h).priority s (s.replaceEntry h old v))) := by
  have hpcb := hs.pcb h
  obtain ⟨hsorted, hfirst, hperm, hcases⟩ := replaceEntry_spec hpcb.sorted hpcb.first hle
  set list := addPriority v ((s.pcbs h).priorityList.erase old) with hlist
  have hentries : list.Perm ((s.pcbs h).basePriority :: owed s h) := by
    have herase : ((s.pcbs h).priorityList.erase old).Perm rest := by
      simpa using hold.erase old
    exact hperm.trans ((herase.cons v).trans hnew.symm)
  set t := s.replaceEntry h old v with ht
  have htself : t.pcbs h =
      { s.pcbs h with priority := firstPriority list, priorityList := list } := by
    simp [ht, replaceEntry, hlist]
  have htother : ∀ q, q ≠ h → t.pcbs q = s.pcbs q := by
    intro q hq
    simp [ht, replaceEntry, hq]
  have hreplaced : Replaced h (firstPriority list) s t := by
    refine ⟨?_, htother, ?_, ?_, rfl, rfl⟩
    · rw [htself]
    · rw [htself]
      exact hsorted
    · rw [htself]
      exact hfirst
  refine ⟨fun q => ?_, ?_⟩
  · by_cases hq : q = h
    · rw [hq, htself]
      exact hentries
    · rw [htother q hq]
      exact hbal q hq
  · rcases hcases with heq | ⟨heq, hlt⟩
    · -- the new entry is in the list, whose first one is the old priority
      have hmin := (le_of_head?_of_pairwise hfirst hsorted).2 v
        (hperm.mem_iff.2 List.mem_cons_self)
      rw [heq] at hreplaced hmin
      exact .inr ⟨not_lt.2 hmin, hreplaced⟩
    · rw [heq] at hreplaced
      exact .inl ⟨hlt, hreplaced⟩

/-- Another READY queue. -/
lemma Replaced.withReady {s₀ s : Queues} (hr : Replaced h v s₀ s) (ready : ReadyQueue) :
    Replaced h v s₀ { s with ready := ready } :=
  ⟨hr.pcb, hr.other, hr.sorted, hr.first, hr.mutexes, hr.nextPid⟩

/-- **One link of the chain**: the state after the replacement of an entry is sound and balanced,
when the rest of the chain makes it so.

**Proof sketch.** After the replacement the entries of `h` are right, and its priority is the old
one or `v` (`replaceEntry_cases`). In the first case nothing else has to change; in the second the
change is propagated. -/
lemma replacePriorityWith_spec {propagate : ℕ → ℤ → Queues → Option Queues}
    (hprop : Propagates propagate locked v) {s' : Queues} (hs : Sound pending s)
    (hpend : ∀ p id, pending = some (p, id) → (s.pcbs p).priority ≤ v ∧ id ∈ locked)
    (hbal : ∀ q, q ≠ h → ((s.pcbs q).priorityList).Perm ((s.pcbs q).basePriority :: owed s q))
    (hold : ((s.pcbs h).priorityList).Perm (old :: rest))
    (hnew : ((s.pcbs h).basePriority :: owed s h).Perm (v :: rest)) (hle : v ≤ old)
    (hrun : replacePriorityWith propagate h old v s = some s') :
    Sound pending s' ∧ Balanced s' ∧ Inherited locked v s s' ∧
      ∀ q, (s'.pcbs q).priority ≠ (s.pcbs q).priority → Relation.ReflTransGen (WaitsFor s) h q := by
  unfold replacePriorityWith at hrun
  split at hrun
  · exact absurd hrun (by simp)
  obtain ⟨hlists, hcases⟩ := replaceEntry_cases hs hbal hold hnew hle
  simp only at hrun
  rcases hcases with ⟨hlt, hr⟩ | ⟨hnot, hr⟩
  · -- the priority of `h` is better now
    have hv := hr.priority
    rw [if_pos (by rw [hv]; exact hlt.ne), hv] at hrun
    obtain ⟨u, hu, hpropagated⟩ := Option.bind_eq_some_iff.1 hrun
    obtain ⟨ready, rfl, hready, hlevels⟩ := updatePriority_spec hu
    have hr := hr.withReady ready
    obtain ⟨hsound, hbalanced, hinh, hchain⟩ :=
      hprop pending h s _ s' hs hpend hr hlt hlists hpropagated
    refine ⟨hsound, hbalanced, Inherited.trans ?_ hinh (fun _ => id), fun q hq => ?_⟩
    rotate_left
    · by_cases heq : q = h
      · exact heq ▸ .refl
      · exact hchain q (by rwa [hr.other q heq])
    refine ⟨hr.base, hr.state, hr.blocking, hr.destroyed, fun q => ?_, rfl, ⟨rfl, rfl, rfl, rfl⟩,
      rfl, fun _ _ => rfl, fun hsame => hready fun hstate => ?_, hlevels⟩
    · by_cases hq : q = h
      · rw [hq]
        exact .inr ⟨hr.priority, hlt⟩
      · rw [hr.other q hq]
        exact .inl rfl
    · -- a READY process with a new priority is what the premise excludes
      have hstate' : (s.pcbs h).state = .ready := (hr.state h).symm.trans hstate
      have := hsame h hstate'
      rw [hr.priority] at this
      omega
  · -- the priority of `h` is what it was
    rw [if_neg (by rw [hr.priority]; exact fun hne => hne rfl)] at hrun
    obtain rfl := Option.some.inj hrun
    have hprio : ∀ q, ((s.replaceEntry h old v).pcbs q).priority = (s.pcbs q).priority := by
      intro q
      by_cases hq : q = h
      · rw [hq, hr.priority]
      · rw [hr.other q hq]
    refine ⟨hs.congr rfl (hr.pcbSound hs) (fun _ _ q _ => hprio q)
      hr.blocking (fun _ _ q _ hq => by rwa [hr.state]), fun q => ?_, ?_,
      fun q hq => absurd (hprio q) hq⟩
    · have howed : owed (s.replaceEntry h old v) q = owed s q :=
        owed_congr (by rfl) (fun _ _ r _ => hprio r) q
      rw [howed]
      exact hlists q
    · exact ⟨hr.base, hr.state, hr.blocking, hr.destroyed, fun q => .inl (hprio q), rfl,
        ⟨rfl, rfl, rfl, rfl⟩, rfl, fun _ _ => rfl, fun _ => rfl, rfl⟩

/-- What the propagation works on: a sound state `s₀` in which `h` has just got the better priority
`v`, while the process of `pending` waits for a locked mutex. -/
structure Raising (pending : Option (ℕ × String)) (locked : List String) (h : ℕ) (v : ℤ)
    (s₀ s : Queues) : Prop where
  sound : Sound pending s₀
  pending : ∀ p id, pending = some (p, id) → (s₀.pcbs p).priority ≤ v ∧ id ∈ locked
  replaced : Replaced h v s₀ s
  better : v < (s₀.pcbs h).priority
  entries : ∀ q, ((s.pcbs q).priorityList).Perm ((s.pcbs q).basePriority :: owed s₀ q)

/-- The process is in the list of the mutex it waits for, and in no other one. -/
lemma Raising.listed {s₀ s : Queues} (hR : Raising pending locked h v s₀ s) {m : Mutex}
    (hm : m ∈ s₀.mutexes) : h ∈ m.list ↔ (s₀.pcbs h).blockingMutex = some m.id := by
  rw [(hR.sound.mutex m hm).blocked]
  refine or_iff_left fun hp => ?_
  have hle := (hR.pending h m.id hp).1
  have hlt := hR.better
  omega

/-- The account only sees the mutex at which the process waits. -/
lemma Raising.account {s₀ s : Queues} (hR : Raising pending locked h v s₀ s) {m : Mutex}
    (hm : m ∈ s₀.mutexes) (hblock : (s₀.pcbs h).blockingMutex = some m.id) (t : Queues)
    (f : Mutex → Mutex) (hpcbs : t.pcbs = s.pcbs)
    (hmutexes : t.mutexes = modifyKey Mutex.id m.id f s₀.mutexes) :
    ∃ rest : ℕ → List ℤ, ∀ q,
      (owed s₀ q).Perm (owedBy s₀.pcbs q m ++ rest q) ∧
      (owed t q).Perm (owedBy t.pcbs q (f m) ++ rest q) := by
  refine exists_owed_modifyMutex hR.sound hm hmutexes fun m' hm' hne q hq => ?_
  have hother : q ≠ h := by
    rintro rfl
    have := (hR.listed hm').1 hq
    rw [hblock] at this
    exact hne (Option.some.inj this).symm
  rw [hpcbs, hR.replaced.other q hother]

/-- **From one link to the next.** The process waits first for its mutex now. In the state in which
this has been noted, only the entry of the holder is out of date, by a better value. -/
lemma Raising.next {s₀ s : Queues} (hR : Raising pending locked h v s₀ s) {m : Mutex}
    (hm : m ∈ s₀.mutexes) (hblock : (s₀.pcbs h).blockingMutex = some m.id)
    (hunlocked : m.id ∉ locked) {holder : ℕ} (hholder : m.currentProcess = some holder)
    (hindex : (insertPcbSorted s.pcbs h (m.list.erase h)).1 = 0) {t : Queues}
    (ht : t = s.modifyMutex m.id fun m' =>
      { m' with list := (insertPcbSorted s.pcbs h (m.list.erase h)).2, nextPriority := v }) :
    Sound pending t ∧
      (∀ p id, pending = some (p, id) → (t.pcbs p).priority ≤ v ∧ id ∈ m.id :: locked) ∧
      (∀ q, q ≠ holder →
        ((t.pcbs q).priorityList).Perm ((t.pcbs q).basePriority :: owed t q)) ∧
      v ≤ m.nextPriority ∧ ∃ rest, ((t.pcbs holder).priorityList).Perm (m.nextPriority :: rest) ∧
        ((t.pcbs holder).basePriority :: owed t holder).Perm (v :: rest) := by
  have hs := hR.sound
  have hr := hR.replaced
  have hms := hs.mutex m hm
  have hmem := (hR.listed hm).2 hblock
  have honly : ∀ m' ∈ s₀.mutexes, m'.id ≠ m.id → h ∉ m'.list := by
    intro m' hm' hne hmem'
    have := (hR.listed hm').1 hmem'
    rw [hblock] at this
    exact hne (Option.some.inj this).symm
  have hnext := hms.next fun p hp => hunlocked (hR.pending p m.id hp).2
  obtain ⟨hnextNew, hle⟩ := (nextOf_reposition hr hms hmem hR.better).1 hindex
  set f : Mutex → Mutex := fun m' =>
    { m' with list := (insertPcbSorted s.pcbs h (m.list.erase h)).2, nextPriority := v } with hf
  have htmutexes : t.mutexes = modifyKey Mutex.id m.id f s₀.mutexes := by
    rw [ht, Queues.modifyMutex, hr.mutexes]
  have hpcbs : t.pcbs = s.pcbs := by
    rw [ht]
    rfl
  have hsound : Sound pending t :=
    sound_reposition hs hr hm hmem honly hpcbs (by rw [ht]; rfl) htmutexes
      (by exact fun _ => rfl) rfl hnextNew.symm
  obtain ⟨rest, hrest⟩ := hR.account hm hblock t f hpcbs htmutexes
  have hother : ∀ q, q ≠ holder → (owed t q).Perm (owed s₀ q) := by
    intro q hq
    obtain ⟨h₁, h₂⟩ := hrest q
    have hne : ¬ some holder = some q := fun heq => hq (Option.some.inj heq).symm
    have hnone : owedBy s₀.pcbs q m = [] := by rw [owedBy, hholder, if_neg hne]
    have hnone' : owedBy t.pcbs q (f m) = [] := by
      rw [owedBy]
      exact if_neg (by simpa [hf, hholder] using hne)
    rw [hnone] at h₁
    rw [hnone'] at h₂
    exact h₂.trans h₁.symm
  obtain ⟨h₁, h₂⟩ := hrest holder
  have hold : owedBy s₀.pcbs holder m = [m.nextPriority] := by
    rw [owedBy, if_pos hholder, hnext]
  have hnew : owedBy t.pcbs holder (f m) = [v] := by
    rw [owedBy, if_pos (by exact hholder), hpcbs]
    exact congrArg (fun x => [x]) hnextNew
  rw [hold] at h₁
  rw [hnew] at h₂
  have hbal := hR.entries
  refine ⟨hsound, fun p id hp => ?_, fun q hq => ?_, hnext ▸ hle,
    (t.pcbs holder).basePriority :: rest holder, ?_, ?_⟩
  · have hne : p ≠ h := by
      rintro rfl
      have hle := (hR.pending p id hp).1
      have hlt := hR.better
      omega
    refine ⟨?_, List.mem_cons_of_mem _ (hR.pending p id hp).2⟩
    rw [hpcbs, hr.other p hne]
    exact (hR.pending p id hp).1
  · rw [hpcbs]
    exact (hbal q).trans ((hother q hq).symm.cons _)
  · rw [hpcbs]
    exact ((hbal holder).trans (h₁.cons _)).trans (.swap _ _ _)
  · exact (h₂.cons _).trans (.swap _ _ _)

end Link

/-- **The propagation** leads to a sound and balanced state.

**Proof sketch.** Induction on the rounds. The process waits for no mutex, and nothing depends on
its priority; or for one, in whose list it moves up. If it is not the first one there, or the
first one had the same priority, the entry of the holder is still right; otherwise this entry is
out of date, by a better value, and `replacePriorityWith_spec` goes on from there. -/
lemma propagates_propagatePriorityTransitive (rounds : ℕ) (locked : List String) (v : ℤ) :
    Propagates (propagatePriorityTransitive rounds locked) locked v := by
  induction rounds generalizing locked with
  | zero =>
    intro pending h s₀ s s' _ _ _ _ _ hrun
    exact absurd hrun (by simp [propagatePriorityTransitive])
  | succ rounds ih =>
    intro pending h s₀ s s' hs hpend hr hlt hbal hrun
    have hR : Raising pending locked h v s₀ s := ⟨hs, hpend, hr, hlt, hbal⟩
    rw [propagatePriorityTransitive] at hrun
    cases hblock : (s.pcbs h).blockingMutex with
    | none =>
      rw [hblock] at hrun
      obtain rfl := Option.some.inj hrun
      rw [hr.blocking] at hblock
      have hnowhere : ∀ m ∈ s₀.mutexes, h ∉ m.list := by
        intro m hm hmem
        rw [(hR.listed hm).1 hmem] at hblock
        exact absurd hblock (by simp)
      have hprio : ∀ m ∈ s₀.mutexes, ∀ q ∈ m.list,
          (s.pcbs q).priority = (s₀.pcbs q).priority := by
        intro m hm q hq
        rw [hr.other q fun heq => hnowhere m hm (heq ▸ hq)]
      refine ⟨hs.congr hr.mutexes (hr.pcbSound hs) hprio hr.blocking
        (fun _ _ q _ hq => by rwa [hr.state]), fun q => ?_, .refl _ _ _,
        fun q hq => absurd rfl hq⟩
      rw [owed_congr hr.mutexes hprio]
      exact hbal q
    | some id =>
      rw [hblock] at hrun
      simp only at hrun
      split at hrun
      · exact absurd hrun (by simp)
      rename_i hunlocked
      rw [hr.blocking] at hblock
      obtain ⟨m, hm, rfl, hmutex, hmem⟩ := hs.exists_mutex hblock
      have hms := hs.mutex m hm
      have hmutex' : s.mutex m.id = some m := by rw [Queues.mutex, hr.mutexes]; exact hmutex
      rw [hmutex'] at hrun
      simp only at hrun
      rw [if_neg (by simp [hms.active, hmem])] at hrun
      have hneLocked : ∀ id ∈ locked, id ≠ m.id := by
        rintro id hid rfl
        exact hunlocked hid
      have hnext := hms.next fun p hp => hunlocked (hpend p m.id hp).2
      set inserted := insertPcbSorted s.pcbs h (m.list.erase h) with hinserted
      split at hrun
      · -- the process is the first one now, with another priority than the first one before
        rename_i hfirst
        obtain ⟨holder, hholder⟩ : ∃ holder, m.currentProcess = some holder :=
          Option.ne_none_iff_exists'.1 (hms.held (List.ne_nil_of_mem hmem))
        rw [hholder] at hrun
        simp only at hrun
        rw [modifyMutex_modifyMutex] at hrun
        rotate_left
        · exact fun _ => rfl
        set f : Mutex → Mutex := fun m => { m with list := inserted.2, nextPriority := v } with hf
        set t := s.modifyMutex m.id f with ht
        obtain ⟨hsound, hpend', hlists, hle, rest, hold, hnew⟩ :=
          hR.next hm hblock hunlocked hholder hfirst.1 ht
        obtain ⟨hsound', hbalanced, hinh, hchain⟩ := replacePriorityWith_spec
          (ih (m.id :: locked)) hsound hpend' hlists hold hnew hle hrun
        have hholders : t.mutexes.map (fun m => (m.id, m.currentProcess)) =
            s₀.mutexes.map fun m => (m.id, m.currentProcess) := by
          rw [← hr.mutexes]
          exact map_holder_modifyMutex m.id (by exact fun _ => rfl) (by exact fun _ => rfl) s
        have hwaitsFor : WaitsFor s₀ h holder :=
          ⟨m.id, hblock, List.mem_map.2 ⟨m, hm, by rw [hholder]⟩⟩
        refine ⟨hsound', hbalanced, Inherited.trans ?_ hinh (List.subset_cons_self _ _),
          fun q hq => ?_⟩
        rotate_left
        · have hsame : WaitsFor t = WaitsFor s₀ := waitsFor_congr hr.blocking hholders
          rw [hsame] at hchain
          exact .head hwaitsFor (hchain q hq)
        refine ⟨fun _ => rfl, fun _ => rfl, fun _ => rfl, fun _ => rfl, fun _ => .inl rfl, rfl,
          ⟨rfl, rfl, rfl, rfl⟩, ?_, fun id hid => ?_, fun _ => rfl, rfl⟩
        · rw [hholders, hr.mutexes]
        · exact mutex_modifyMutex_of_ne (hneLocked id hid) (by exact fun _ => rfl) s
      · -- the first process of the list has the priority it had
        rename_i hfirst
        obtain rfl := Option.some.inj hrun
        obtain ⟨hzero, hsucc⟩ := nextOf_reposition hr hms hmem hlt
        have honly : ∀ m' ∈ s₀.mutexes, m'.id ≠ m.id → h ∉ m'.list := by
          intro m' hm' hne hmem'
          have := (hR.listed hm').1 hmem'
          rw [hblock] at this
          exact hne (Option.some.inj this).symm
        set f : Mutex → Mutex := fun m => { m with list := inserted.2 } with hf
        set t := s.modifyMutex m.id f with ht
        have hnextNew : nextOf s.pcbs (f m) = nextOf s₀.pcbs m := by
          by_cases hindex : inserted.1 = 0
          · have hv : v = m.nextPriority := not_not.1 fun hne => hfirst ⟨hindex, hne⟩
            rw [← hnext, ← hv]
            exact (hzero hindex).1
          · exact hsucc hindex
        have htmutexes : t.mutexes = modifyKey Mutex.id m.id f s₀.mutexes := by
          rw [ht, Queues.modifyMutex, hr.mutexes]
        have hsound : Sound pending t :=
          sound_reposition hs hr hm hmem honly rfl rfl htmutexes (fun _ => rfl) rfl
            (hnext.trans hnextNew.symm)
        obtain ⟨rest, hrest⟩ := hR.account hm hblock t f rfl htmutexes
        refine ⟨hsound, fun q => ?_, ?_, fun q hq => absurd rfl hq⟩
        · obtain ⟨h₁, h₂⟩ := hrest q
          have hsame : owedBy t.pcbs q (f m) = owedBy s₀.pcbs q m := by
            rw [owedBy, owedBy, ht, modifyMutex_pcbs, hnextNew]
          rw [hsame] at h₂
          exact (hbal q).trans ((h₁.trans h₂.symm).cons _)
        · refine ⟨fun _ => rfl, fun _ => rfl, fun _ => rfl, fun _ => rfl, fun _ => .inl rfl, rfl,
            ⟨rfl, rfl, rfl, rfl⟩, ?_, fun id hid => ?_, fun _ => rfl, rfl⟩
          · exact map_holder_modifyMutex m.id (by exact fun _ => rfl) (by exact fun _ => rfl) s
          · exact mutex_modifyMutex_of_ne (hneLocked id hid) (by exact fun _ => rfl) s

/-! ## The rounds -/

/-- The mutexes whose locks a call may still take. -/
def unlockedIds (locked : List String) (s : Queues) : List String :=
  (s.mutexes.map Mutex.id).filter fun id => id ∉ locked

/-- One more lock leaves fewer. -/
lemma length_unlockedIds_cons {locked : List String} {id : String} {s : Queues}
    (hid : id ∈ s.mutexes.map Mutex.id) (hnot : id ∉ locked) :
    (unlockedIds (id :: locked) s).length < (unlockedIds locked s).length := by
  have hsplit : unlockedIds (id :: locked) s = (unlockedIds locked s).filter fun x => x ≠ id := by
    rw [unlockedIds, unlockedIds, List.filter_filter]
    refine List.filter_congr fun x _ => ?_
    simp [not_or]
  rw [hsplit, List.length_filter_lt_length_iff_exists]
  exact ⟨id, by simp [unlockedIds, hid, hnot], by simp⟩

/-- `replace_priority` only calls its propagation in states with the same mutexes. -/
lemma replacePriorityWith_congr {propagate propagate' : ℕ → ℤ → Queues → Option Queues} {p : ℕ}
    {old v : ℤ} {s : Queues} (h : ∀ (w : ℤ) (t : Queues), t.mutexes = s.mutexes →
      propagate p w t = propagate' p w t) :
    replacePriorityWith propagate p old v s = replacePriorityWith propagate' p old v s := by
  unfold replacePriorityWith
  split
  · rfl
  simp only
  split
  · refine Option.bind_congr fun t ht => ?_
    obtain ⟨ready, rfl, -⟩ := updatePriority_spec ht
    exact h _ _ rfl
  · rfl

/-- **The rounds are enough**: with more rounds than mutexes left to lock, the propagation does the
same as with one round more, so it never stops for want of rounds. -/
theorem propagatePriorityTransitive_rounds (rounds : ℕ) (locked : List String) (p : ℕ) (v : ℤ)
    (s : Queues) (h : (unlockedIds locked s).length < rounds) :
    propagatePriorityTransitive (rounds + 1) locked p v s =
      propagatePriorityTransitive rounds locked p v s := by
  induction rounds generalizing locked p v s with
  | zero => exact absurd h (by omega)
  | succ rounds ih =>
    rw [propagatePriorityTransitive, propagatePriorityTransitive]
    cases hblock : (s.pcbs p).blockingMutex with
    | none => rfl
    | some id =>
      simp only
      split
      · rfl
      rename_i hnot
      cases hmutex : s.mutex id with
      | none => rfl
      | some m =>
        simp only
        split
        · rfl
        split
        · cases hholder : m.currentProcess with
          | none => rfl
          | some holder =>
            refine replacePriorityWith_congr fun w t ht => ih _ _ _ _ ?_
            have hid : id ∈ s.mutexes.map Mutex.id := by
              obtain ⟨heq, hmem⟩ := lookupKey_eq_some hmutex
              exact heq ▸ List.mem_map_of_mem hmem
            have hids : t.mutexes.map Mutex.id = s.mutexes.map Mutex.id := by
              rw [ht, map_id_modifyMutex, map_id_modifyMutex]
              · exact fun _ => rfl
              · exact fun _ => rfl
            have hfewer := length_unlockedIds_cons hid hnot
            rw [unlockedIds, hids, ← unlockedIds]
            omega
        · rfl

end OsSimulator.Scheduler
