import Mathlib.Logic.Relation
import OsSimulator.Scheduler.Mutex

set_option relaxedAutoImplicit false
set_option autoImplicit false

/-!
# The inheritance invariant

What ties the three encodings of priority inheritance together: the priority list of a PCB, the
cached `next_priority` of a mutex and the order of its waiting list. The invariant comes in two
parts. `Sound` speaks of every PCB and every mutex for itself, `Balanced` is the account between
them: a priority list is the base priority and one entry for every mutex held, and the entry of a
mutex is the priority of its first waiting process.

During a `mutex_lock` the process is in the waiting list already while its PCB does not say so
yet. `Sound` has that process and that mutex as a parameter.

## Main definitions

* `nextOf pcbs m` — the entry the holder of `m` should have.
* `owed s p` — the entries of the mutexes that `p` holds.
* `Sound`, `Balanced` — the invariant.
* `Holds`, `WaitsFor` — who holds a mutex, and who waits for whom.

## Main results

* `Sound.modifyMutex` — it is enough to look at the mutex that changes.
* `exists_owed_modifyMutex` — the account before and after a change of one mutex.
* `replaceEntry_spec` — the entries and the priority after `replace_priority`.
-/

namespace OsSimulator.Scheduler

/-! ## The invariant -/

/-- The entry a mutex gives its holder: the priority of its first waiting process. -/
def nextOf (pcbs : ℕ → Pcb) (m : Mutex) : ℤ :=
  match m.list with
  | [] => INT_MAX
  | first :: _ => (pcbs first).priority

/-- What a mutex adds to the entries of `p`. -/
def owedBy (pcbs : ℕ → Pcb) (p : ℕ) (m : Mutex) : List ℤ :=
  if m.currentProcess = some p then [nextOf pcbs m] else []

/-- The entries of the mutexes that `p` holds. -/
def owed (s : Queues) (p : ℕ) : List ℤ := s.mutexes.flatMap (owedBy s.pcbs p)

/-- A PCB by itself: its priority list is sorted and starts with its priority; a process that
waits for a mutex is not running, and the mutex exists; a PCB that has not been created is
still `NEW`, and one is destroyed when its process has ended. -/
structure PcbSound (s : Queues) (p : ℕ) : Prop where
  sorted : (s.pcbs p).priorityList.Pairwise (· ≤ ·)
  first : (s.pcbs p).priorityList.head? = some (s.pcbs p).priority
  bounded : (s.pcbs p).basePriority ≤ INT_MAX
  notRunning : (s.pcbs p).blockingMutex ≠ none →
    (s.pcbs p).state = .block ∨ (s.pcbs p).state = .suspBlock
  known : ∀ id, (s.pcbs p).blockingMutex = some id → id ∈ s.mutexes.map Mutex.id
  created : (s.pcbs p).state ≠ .new → p < s.nextPid
  gone : (s.pcbs p).destroyed = true ↔ (s.pcbs p).state = .exit

/-- A mutex by itself. The process of `pending` is in the waiting list of its mutex, whose next
priority and state have not followed yet. -/
structure MutexSound (pending : Option (ℕ × String)) (pcbs : ℕ → Pcb) (m : Mutex) : Prop where
  active : m.priorityActive = true
  sorted : SortedByPriority pcbs m.list
  nodup : m.list.Nodup
  blocked : ∀ p, p ∈ m.list ↔ (pcbs p).blockingMutex = some m.id ∨ pending = some (p, m.id)
  held : m.list ≠ [] → m.currentProcess ≠ none
  holder : ∀ p, m.currentProcess = some p → (pcbs p).state ≠ .new
  next : (∀ p, pending ≠ some (p, m.id)) → m.nextPriority = nextOf pcbs m
  state : (∀ p, pending ≠ some (p, m.id)) →
    m.state = 1 - (if m.currentProcess = none then 0 else 1) - m.list.length

/-- **The inheritance invariant, mutex by mutex and PCB by PCB.** -/
structure Sound (pending : Option (ℕ × String)) (s : Queues) : Prop where
  ids : (s.mutexes.map Mutex.id).Nodup
  pcb : ∀ p, PcbSound s p
  mutex : ∀ m ∈ s.mutexes, MutexSound pending s.pcbs m
  unblocked : ∀ p id, pending = some (p, id) → (s.pcbs p).blockingMutex = none

/-- **The account**: the priority list of every process is its base priority and the entries of
the mutexes it holds. -/
def Balanced (s : Queues) : Prop :=
  ∀ p, ((s.pcbs p).priorityList).Perm ((s.pcbs p).basePriority :: owed s p)

/-- The process holds the mutex of that id. -/
def Holds (s : Queues) (p : ℕ) (id : String) : Prop :=
  (id, some p) ∈ s.mutexes.map fun m => (m.id, m.currentProcess)

/-- The process `a` waits for a mutex that `b` holds. -/
def WaitsFor (s : Queues) (a b : ℕ) : Prop :=
  ∃ id, (s.pcbs a).blockingMutex = some id ∧ Holds s b id

/-- A process holds a mutex of which it is the current process. -/
lemma holds_iff {s : Queues} {p : ℕ} {id : String} :
    Holds s p id ↔ ∃ m ∈ s.mutexes, m.id = id ∧ m.currentProcess = some p := by
  simp [Holds]

/-- Who waits for whom depends on the blocking mutexes and the holders. -/
lemma waitsFor_congr {s s' : Queues}
    (hblock : ∀ q, (s'.pcbs q).blockingMutex = (s.pcbs q).blockingMutex)
    (hholders : s'.mutexes.map (fun m => (m.id, m.currentProcess)) =
      s.mutexes.map fun m => (m.id, m.currentProcess)) : WaitsFor s' = WaitsFor s := by
  funext a b
  simp only [WaitsFor, Holds, hblock, hholders]

/-- The holders after a change of one mutex. -/
lemma holds_modifyKey {s s' : Queues} {id : String} {f : Mutex → Mutex}
    (hmutexes : s'.mutexes = modifyKey Mutex.id id f s.mutexes) {q : ℕ} {id' : String}
    (h : Holds s' q id') : Holds s q id' ∨ ∃ m, (f m).currentProcess = some q := by
  obtain ⟨m, hm, rfl, hcur⟩ := holds_iff.1 h
  rw [hmutexes] at hm
  rcases mem_modifyKey hm with ⟨-, hmem⟩ | ⟨m₀, -, -, rfl⟩
  · exact .inl (holds_iff.2 ⟨m, hmem, rfl, hcur⟩)
  · exact .inr ⟨m₀, hcur⟩

/-! ## What the parts depend on -/

/-- The entry of a mutex only depends on the priorities of its waiting processes. -/
lemma nextOf_congr {pcbs pcbs' : ℕ → Pcb} {m : Mutex}
    (h : ∀ q ∈ m.list, (pcbs' q).priority = (pcbs q).priority) :
    nextOf pcbs' m = nextOf pcbs m := by
  unfold nextOf
  cases hlist : m.list with
  | nil => rfl
  | cons first rest => exact h first (by rw [hlist]; exact List.mem_cons_self)

/-- A mutex stays sound when the priorities of its waiting processes stay and no PCB changes the
mutex it waits for. -/
lemma MutexSound.congr {pending : Option (ℕ × String)} {pcbs pcbs' : ℕ → Pcb} {m : Mutex}
    (h : MutexSound pending pcbs m)
    (hprio : ∀ q ∈ m.list, (pcbs' q).priority = (pcbs q).priority)
    (hblock : ∀ q, (pcbs' q).blockingMutex = some m.id ↔ (pcbs q).blockingMutex = some m.id)
    (hnew : ∀ q, m.currentProcess = some q → (pcbs q).state ≠ .new → (pcbs' q).state ≠ .new) :
    MutexSound pending pcbs' m where
  active := h.active
  sorted := by
    refine h.sorted.imp_of_mem fun {a b} ha hb hab => ?_
    rw [hprio a ha, hprio b hb]
    exact hab
  nodup := h.nodup
  blocked q := by rw [h.blocked, hblock]
  held := h.held
  holder q hq := hnew q hq (h.holder q hq)
  next hp := by rw [h.next hp, nextOf_congr hprio]
  state := h.state

/-- A PCB stays sound when its own fields do. -/
lemma PcbSound.congr {s s' : Queues} {p : ℕ} (h : PcbSound s p) (hpcb : s'.pcbs p = s.pcbs p)
    (hids : s.mutexes.map Mutex.id ⊆ s'.mutexes.map Mutex.id) (hpid : s.nextPid ≤ s'.nextPid) :
    PcbSound s' p where
  sorted := hpcb ▸ h.sorted
  first := hpcb ▸ h.first
  bounded := hpcb ▸ h.bounded
  notRunning := hpcb ▸ h.notRunning
  known id hid := hids (h.known id (hpcb ▸ hid))
  created hnew := (h.created (hpcb ▸ hnew)).trans_le hpid
  gone := hpcb ▸ h.gone

/-- The mutex of an id, in a sound state. -/
lemma Sound.mutex_eq {pending : Option (ℕ × String)} {s : Queues} (h : Sound pending s)
    {m : Mutex} (hm : m ∈ s.mutexes) : s.mutex m.id = some m :=
  lookupKey_of_mem h.ids hm

/-- A PCB that has not been created is `NEW`. -/
lemma Sound.state_of_ge {pending : Option (ℕ × String)} {s : Queues} (h : Sound pending s) {p : ℕ}
    (hp : s.nextPid ≤ p) : (s.pcbs p).state = .new := by
  by_contra hnew
  exact absurd ((h.pcb p).created hnew) (by omega)

/-- The mutex a process waits for, in a sound state. -/
lemma Sound.exists_mutex {pending : Option (ℕ × String)} {s : Queues} (h : Sound pending s) {p : ℕ}
    {id : String} (hp : (s.pcbs p).blockingMutex = some id) :
    ∃ m ∈ s.mutexes, m.id = id ∧ s.mutex id = some m ∧ p ∈ m.list := by
  obtain ⟨m, hm, rfl⟩ := List.mem_map.1 ((h.pcb p).known id hp)
  exact ⟨m, hm, rfl, h.mutex_eq hm, ((h.mutex m hm).blocked p).2 (.inl hp)⟩

/-- **Change of one mutex.** A state is sound when all its PCBs are, the changed mutex is, and the
other mutexes' waiting processes keep their priorities. -/
lemma Sound.modifyMutex {pending pending' : Option (ℕ × String)} {s s' : Queues} {m : Mutex}
    {f : Mutex → Mutex} (h : Sound pending s) (hm : m ∈ s.mutexes) (hf : ∀ m, (f m).id = m.id)
    (hmutexes : s'.mutexes = modifyKey Mutex.id m.id f s.mutexes)
    (hpcb : ∀ p, PcbSound s' p)
    (hself : MutexSound pending' s'.pcbs (f m))
    (hother : ∀ m' ∈ s.mutexes, m'.id ≠ m.id → MutexSound pending' s'.pcbs m')
    (hunblocked : ∀ p id, pending' = some (p, id) → (s'.pcbs p).blockingMutex = none) :
    Sound pending' s' where
  ids := by
    rw [hmutexes, map_key_modifyKey fun x hx => (hf x).trans hx]
    exact h.ids
  pcb := hpcb
  mutex m' hm' := by
    rw [hmutexes] at hm'
    rcases mem_modifyKey hm' with ⟨hne, hmem⟩ | ⟨m₀, hmem, hid, rfl⟩
    · exact hother m' hmem hne
    · have heq : m₀ = m := by
        have h₁ := h.mutex_eq hmem
        rw [hid, h.mutex_eq hm] at h₁
        exact (Option.some.inj h₁).symm
      exact heq ▸ hself
  unblocked := hunblocked

/-- **Change of PCBs only.** A state stays sound when its PCBs do, and neither the priority of a
waiting process nor what a process waits for changes. -/
lemma Sound.congr {pending : Option (ℕ × String)} {s s' : Queues} (h : Sound pending s)
    (hmutexes : s'.mutexes = s.mutexes) (hpcb : ∀ p, PcbSound s' p)
    (hprio : ∀ m ∈ s.mutexes, ∀ q ∈ m.list, (s'.pcbs q).priority = (s.pcbs q).priority)
    (hblock : ∀ q, (s'.pcbs q).blockingMutex = (s.pcbs q).blockingMutex)
    (hnew : ∀ m ∈ s.mutexes, ∀ q, m.currentProcess = some q → (s.pcbs q).state ≠ .new →
      (s'.pcbs q).state ≠ .new) : Sound pending s' where
  ids := hmutexes ▸ h.ids
  pcb := hpcb
  mutex m hm := by
    rw [hmutexes] at hm
    exact (h.mutex m hm).congr (hprio m hm) (fun q => by rw [hblock]) (hnew m hm)
  unblocked p id hp := by
    rw [hblock]
    exact h.unblocked p id hp

/-- The ids of the mutexes stay when one of them is changed. -/
lemma map_id_modifyMutex (id : String) {f : Mutex → Mutex} (hf : ∀ m, (f m).id = m.id)
    (s : Queues) : (s.modifyMutex id f).mutexes.map Mutex.id = s.mutexes.map Mutex.id :=
  map_key_modifyKey fun x hx => (hf x).trans hx

/-! ## The account -/

/-- **The account of one mutex**: before and after its change, the entries of every process are
those of this mutex and the same others. -/
lemma exists_owed_modifyMutex {pending : Option (ℕ × String)} {s s' : Queues} {m : Mutex}
    {f : Mutex → Mutex} (h : Sound pending s) (hm : m ∈ s.mutexes)
    (hmutexes : s'.mutexes = modifyKey Mutex.id m.id f s.mutexes)
    (hprio : ∀ m' ∈ s.mutexes, m'.id ≠ m.id → ∀ q ∈ m'.list,
      (s'.pcbs q).priority = (s.pcbs q).priority) :
    ∃ rest : ℕ → List ℤ, ∀ p,
      (owed s p).Perm (owedBy s.pcbs p m ++ rest p) ∧
      (owed s' p).Perm (owedBy s'.pcbs p (f m) ++ rest p) := by
  have hg : ∀ m' ∈ s.mutexes, m'.id ≠ m.id → ∀ p : ℕ,
      owedBy s'.pcbs p m' = owedBy s.pcbs p m' := by
    intro m' hm' hne p
    unfold owedBy
    rw [nextOf_congr (hprio m' hm' hne)]
  obtain ⟨rest, hrest⟩ := exists_flatMap_modifyKey h.ids (h.mutex_eq hm) f hg
  refine ⟨rest, fun p => ⟨(hrest p).1, ?_⟩⟩
  rw [owed, hmutexes]
  exact (hrest p).2

/-- The entries of a process do not change with the mutexes and the waiting processes'
priorities. -/
lemma owed_congr {s s' : Queues} (hmutexes : s'.mutexes = s.mutexes)
    (hprio : ∀ m ∈ s.mutexes, ∀ q ∈ m.list, (s'.pcbs q).priority = (s.pcbs q).priority) (p : ℕ) :
    owed s' p = owed s p := by
  rw [owed, owed, hmutexes]
  refine List.flatMap_congr fun m hm => ?_
  unfold owedBy
  rw [nextOf_congr (hprio m hm)]

/-! ## Priority lists -/

/-- A sorted insertion of a priority keeps the list sorted. -/
lemma pairwise_addPriority {l : List ℤ} (h : l.Pairwise (· ≤ ·)) (x : ℤ) :
    (addPriority x l).Pairwise (· ≤ ·) := by
  refine pairwise_listAddSorted _ _ (· ≤ ·) (fun a b c hab hbc => le_trans hab hbc)
    (fun y hy => ?_) (fun y hy => ?_) h
  · have hlt : x < y := by simpa [hasHigherPriorityThan] using hy
    exact hlt.le
  · simpa [hasHigherPriorityThan] using hy

/-- The list after the addition has one priority more. -/
lemma perm_addPriority (x : ℤ) (l : List ℤ) : (addPriority x l).Perm (x :: l) :=
  perm_listAddSorted _ _ _

/-- The first entry of a sorted list is a least one. -/
lemma firstPriority_spec {l : List ℤ} (hne : l ≠ []) (hs : l.Pairwise (· ≤ ·)) :
    l.head? = some (firstPriority l) ∧ firstPriority l ∈ l ∧ ∀ x ∈ l, firstPriority l ≤ x := by
  cases l with
  | nil => exact absurd rfl hne
  | cons y ys =>
    refine ⟨rfl, List.mem_cons_self, fun x hx => ?_⟩
    rcases List.mem_cons.1 hx with rfl | hx
    · exact le_rfl
    · exact (List.pairwise_cons.1 hs).1 x hx

/-- The first entry of a sorted list, from its head. -/
lemma le_of_head?_of_pairwise {l : List ℤ} {u : ℤ} (hf : l.head? = some u)
    (hs : l.Pairwise (· ≤ ·)) : u ∈ l ∧ ∀ x ∈ l, u ≤ x := by
  have hne : l ≠ [] := by
    rintro rfl
    simp at hf
  obtain ⟨hhead, hmem, hle⟩ := firstPriority_spec hne hs
  obtain rfl : u = firstPriority l := by
    rw [hhead] at hf
    exact (Option.some.inj hf).symm
  exact ⟨hmem, hle⟩

/-- **The replacement of an entry by one that is not worse**: the list stays sorted, and its first
entry is what it was or the new one, which is then better. -/
lemma replaceEntry_spec {l : List ℤ} {u old new : ℤ} (hs : l.Pairwise (· ≤ ·))
    (hf : l.head? = some u) (hle : new ≤ old) :
    (addPriority new (l.erase old)).Pairwise (· ≤ ·) ∧
    (addPriority new (l.erase old)).head? = some (firstPriority (addPriority new (l.erase old))) ∧
    (addPriority new (l.erase old)).Perm (new :: l.erase old) ∧
    (firstPriority (addPriority new (l.erase old)) = u ∨
      firstPriority (addPriority new (l.erase old)) = new ∧ new < u) := by
  have hperm := perm_addPriority new (l.erase old)
  have herase : (l.erase old).Pairwise (· ≤ ·) := hs.sublist List.erase_sublist
  have hsorted := pairwise_addPriority herase new
  set l' := addPriority new (l.erase old) with hl'
  have hne : l' ≠ [] := by
    intro hnil
    rw [hnil] at hperm
    exact absurd hperm.length_eq (by simp)
  obtain ⟨hhead, hmem, hmin⟩ := firstPriority_spec hne hsorted
  obtain ⟨hu, hleast⟩ := le_of_head?_of_pairwise hf hs
  refine ⟨hsorted, hhead, hperm, ?_⟩
  have hnew : firstPriority l' ≤ new := hmin new (hperm.mem_iff.2 List.mem_cons_self)
  have hcases : firstPriority l' = new ∨ u ≤ firstPriority l' := by
    rcases List.mem_cons.1 (hperm.mem_iff.1 hmem) with heq | herase
    · exact .inl heq
    · exact .inr (hleast _ (List.mem_of_mem_erase herase))
  by_cases hlt : new < u
  · exact .inr ⟨by omega, hlt⟩
  · left
    by_cases huold : u = old
    · omega
    · have herase : u ∈ l.erase old := (List.mem_erase_of_ne huold).2 hu
      have := hmin u (hperm.mem_iff.2 (List.mem_cons_of_mem _ herase))
      omega

end OsSimulator.Scheduler
