import Mathlib.Order.Bounds.Basic
import OsSimulator.Scheduler.Steps

set_option relaxedAutoImplicit false
set_option autoImplicit false

/-!
# Priority inheritance is exact and transitive

What the inheritance invariant means for the scheduler: between two operations of any run, the
priority of every process is the best one among its base priority and the priorities of the
processes that wait for it, directly or through a chain of held mutexes.

## Main definitions

* `InheritanceExact` — the encodings of priority inheritance agree, and the priorities are right.

## Main results

* `inheritanceExact_of_reachable` — this holds in every reachable state.
-/

namespace OsSimulator.Scheduler

open Queues

/-- **Exact and transitive inheritance.** The priority list of a process is sorted, and holds its
base priority and the next priority of every mutex it holds; the waiting list of a mutex is
sorted; its next priority is that of its first waiting process; its state counts the holder and
the waiting processes; and a priority is the least of the base priority and the priorities of
those who wait for the process, along a chain of any length. -/
structure InheritanceExact (s : Queues) : Prop where
  sorted : ∀ p, (s.pcbs p).priorityList.Pairwise (· ≤ ·)
  entries : ∀ p, (s.pcbs p).priorityList.Perm ((s.pcbs p).basePriority ::
    (s.mutexes.filter fun m => m.currentProcess = some p).map Mutex.nextPriority)
  waiting : ∀ m ∈ s.mutexes, SortedByPriority s.pcbs m.list
  next : ∀ m ∈ s.mutexes,
    m.nextPriority = (m.list.head?.map fun first => (s.pcbs first).priority).getD INT_MAX
  state : ∀ m ∈ s.mutexes,
    m.state = 1 - (if m.currentProcess = none then 0 else 1) - m.list.length
  least : ∀ p, IsLeast ({(s.pcbs p).basePriority} ∪
    (fun q => (s.pcbs q).priority) '' {q | Relation.TransGen (WaitsFor s) q p}) (s.pcbs p).priority
  back : ∀ p, (∀ m ∈ s.mutexes, m.currentProcess = some p → m.list = []) →
    (s.pcbs p).priority = (s.pcbs p).basePriority

variable {p q : ℕ} {s : Queues} {m : Mutex}

/-- The entries a process is owed are the next priorities of its mutexes. -/
lemma owed_eq (h : Inheriting s) (p : ℕ) :
    owed s p = (s.mutexes.filter fun m => m.currentProcess = some p).map Mutex.nextPriority := by
  have hnext : ∀ m ∈ s.mutexes, nextOf s.pcbs m = m.nextPriority := fun m hm =>
    ((h.sound.mutex m hm).next (by simp)).symm
  rw [owed]
  revert hnext
  generalize s.mutexes = mutexes
  intro hnext
  induction mutexes with
  | nil => rfl
  | cons m rest ih =>
    have hrest := ih fun m' hm' => hnext m' (List.mem_cons_of_mem _ hm')
    rw [List.flatMap_cons, hrest, owedBy, hnext m List.mem_cons_self]
    by_cases hcur : m.currentProcess = some p
    · simp [hcur]
    · simp [hcur]

/-- The next priority of a mutex, from the head of its waiting list. -/
lemma nextOf_eq (pcbs : ℕ → Pcb) (m : Mutex) :
    nextOf pcbs m = (m.list.head?.map fun first => (pcbs first).priority).getD INT_MAX := by
  unfold nextOf
  cases m.list with
  | nil => rfl
  | cons first rest => rfl

/-- Who waits for a mutex waits for its holder. -/
lemma waitsFor_of_mem (h : Inheriting s) (hm : m ∈ s.mutexes) (hq : q ∈ m.list)
    (hcur : m.currentProcess = some p) : WaitsFor s q p := by
  have hb := (((h.sound.mutex m hm).blocked q).1 hq).resolve_right (by simp)
  exact ⟨m.id, hb, holds_iff.2 ⟨m, hm, rfl, hcur⟩⟩

/-- Who waits for a process is in the waiting list of a mutex that it holds. -/
lemma exists_mem_of_waitsFor (h : Inheriting s) (hw : WaitsFor s q p) :
    ∃ m ∈ s.mutexes, m.currentProcess = some p ∧ q ∈ m.list := by
  obtain ⟨id, hb, hholds⟩ := hw
  obtain ⟨m, hm, rfl, hcur⟩ := holds_iff.1 hholds
  exact ⟨m, hm, hcur, ((h.sound.mutex m hm).blocked q).2 (.inl hb)⟩

/-- A waiting process is blocked, and so it is live. -/
lemma live_of_mem (h : Inheriting s) (hm : m ∈ s.mutexes) (hq : q ∈ m.list) :
    (s.pcbs q).state.Live := by
  have hb := (((h.sound.mutex m hm).blocked q).1 hq).resolve_right (by simp)
  rcases (h.sound.pcb q).notRunning (by simp [hb]) with hstate | hstate <;> rw [hstate] <;>
    exact ⟨by decide, by decide⟩

/-- No entry is better than the priority. -/
lemma priority_le_of_mem (h : Inheriting s) {x : ℤ} (hx : x ∈ (s.pcbs p).priorityList) :
    (s.pcbs p).priority ≤ x :=
  (le_of_head?_of_pairwise (h.sound.pcb p).first (h.sound.pcb p).sorted).2 x hx

/-- The entry of a mutex is in the list of its holder. -/
lemma nextOf_mem (h : Inheriting s) (hm : m ∈ s.mutexes) (hcur : m.currentProcess = some p) :
    nextOf s.pcbs m ∈ (s.pcbs p).priorityList := by
  refine (h.balanced p).mem_iff.2 (List.mem_cons_of_mem _ (List.mem_flatMap.2 ⟨m, hm, ?_⟩))
  rw [owedBy, if_pos hcur]
  exact List.mem_singleton_self _

/-- **One link**: the priority of the process waited for is not worse. -/
lemma priority_le_of_waitsFor (h : Inheriting s) (hw : WaitsFor s q p) :
    (s.pcbs p).priority ≤ (s.pcbs q).priority := by
  obtain ⟨m, hm, hcur, hq⟩ := exists_mem_of_waitsFor h hw
  have hentry := priority_le_of_mem h (nextOf_mem h hm hcur)
  have hsorted := (h.sound.mutex m hm).sorted
  rw [nextOf] at hentry
  cases hlist : m.list with
  | nil =>
    rw [hlist] at hq
    exact absurd hq (by simp)
  | cons first rest =>
    rw [hlist] at hq hsorted hentry
    rcases List.mem_cons.1 hq with rfl | hrest
    · exact hentry
    · exact hentry.trans ((List.pairwise_cons.1 hsorted).1 q hrest)

/-- A chain of links. -/
lemma priority_le_of_transGen (h : Inheriting s) (hw : Relation.TransGen (WaitsFor s) q p) :
    (s.pcbs p).priority ≤ (s.pcbs q).priority := by
  induction hw with
  | single hlink => exact priority_le_of_waitsFor h hlink
  | tail _ hlink ih => exact (priority_le_of_waitsFor h hlink).trans ih

/-- The priority is the base priority, or that of a process in the waiting list of a mutex held. -/
lemma priority_cases (h : Inheriting s) (p : ℕ) :
    (s.pcbs p).priority = (s.pcbs p).basePriority ∨
      ∃ m ∈ s.mutexes, m.currentProcess = some p ∧
        ∃ q ∈ m.list, (s.pcbs q).priority = (s.pcbs p).priority := by
  have hpcb := h.sound.pcb p
  have hmem := (le_of_head?_of_pairwise hpcb.first hpcb.sorted).1
  have hbase := priority_le_base h.sound h.balanced p
  rcases List.mem_cons.1 ((h.balanced p).mem_iff.1 hmem) with heq | howed
  · exact .inl heq
  · obtain ⟨m, hm, hentry⟩ := List.mem_flatMap.1 howed
    rw [owedBy] at hentry
    split at hentry
    · rename_i hcur
      have heq := List.mem_singleton.1 hentry
      rw [nextOf] at heq
      cases hlist : m.list with
      | nil =>
        -- the entry of a mutex nobody waits for is not better than any base priority
        rw [hlist] at heq
        have hbound := hpcb.bounded
        exact .inl (le_antisymm hbase (hbound.trans heq.ge))
      | cons first rest =>
        rw [hlist] at heq
        exact .inr ⟨m, hm, hcur, first, by rw [hlist]; exact List.mem_cons_self, heq.symm⟩
    · exact absurd hentry (by simp)

/-- The inheritance invariant gives exact inheritance. -/
lemma inheritanceExact_of_inheriting (h : Inheriting s) : InheritanceExact s where
  sorted p := (h.sound.pcb p).sorted
  entries p := by
    rw [← owed_eq h p]
    exact h.balanced p
  waiting m hm := (h.sound.mutex m hm).sorted
  next m hm := ((h.sound.mutex m hm).next (by simp)).trans (nextOf_eq s.pcbs m)
  state m hm := (h.sound.mutex m hm).state (by simp)
  least p := by
    constructor
    · rcases priority_cases h p with heq | ⟨m, hm, hcur, q, hq, heq⟩
      · exact .inl heq
      · exact .inr ⟨q, .single (waitsFor_of_mem h hm hq hcur), heq⟩
    · rintro x (hx | ⟨q, hq, rfl⟩)
      · rw [Set.mem_singleton_iff.1 hx]
        exact priority_le_base h.sound h.balanced p
      · exact priority_le_of_transGen h hq
  back p hfree := by
    rcases priority_cases h p with heq | ⟨m, hm, hcur, q, hq, -⟩
    · exact heq
    · rw [hfree m hm hcur] at hq
      exact absurd hq (by simp)

/-- **Inheritance is exact and transitive** in every reachable state, whatever processes, mutexes
and operations there were. -/
theorem inheritanceExact_of_reachable {multilevel : Bool}
    {algorithms : List SchedulingAlgorithm} {preemption : Bool} {s : Queues}
    (h : Reachable step (initQueues multilevel algorithms preemption) s) : InheritanceExact s :=
  inheritanceExact_of_inheriting (inheriting_of_reachable h)

/-- A chain of three processes, `2` waiting for `1` and `1` for `0`, all of which have the priority
of `2`. -/
def chainOfThree : List Action :=
  [.newReady 2 true, .newReady 1 true, .newReady 0 true, .dispatch, .dispatch, .dispatch,
    .mutexCreate "a" 0, .mutexCreate "b" 0, .mutexLock "a" 0, .mutexLock "b" 1, .mutexLock "a" 1,
    .mutexLock "b" 2]

/-- The priority of the last process reaches the first one. -/
theorem inheritanceExact_chainOfThree :
    ∃ s, execute step (initQueues true (List.replicate 3 .fifo) false) chainOfThree = some s ∧
      (s.pcbs 0).priority = 0 ∧ InheritanceExact s := by
  have hrun : (execute step (initQueues true (List.replicate 3 .fifo) false) chainOfThree).map
      (fun s => (s.pcbs 0).priority) = some 0 := by decide
  obtain ⟨s, hs, hprio⟩ := Option.map_eq_some_iff.1 hrun
  exact ⟨s, hs, hprio, inheritanceExact_of_reachable (Run.of_execute hs)⟩

end OsSimulator.Scheduler
