import Mathlib.Logic.Relation
import Mathlib.Order.Basic

set_option relaxedAutoImplicit false
set_option autoImplicit false

/-!
# Threads, locks and who waits for whom

A state of a system with locks says which thread owns a lock and which lock a thread is waiting
for. From these two one gets the wait-for graph between threads.

## Main definitions

* `WaitsOn owner wants t u` — the thread `t` waits for a lock that `u` owns.
* `BlockedBehind`, `Deadlocked` — chains and cycles of such waits.

## Main results

* `exists_waitsOn_of_blockedBehind` — a chain of waits ends with a wait for its last thread.
* `not_deadlocked_of_rank` — locks taken in the order of a rank do not deadlock.
-/

namespace OsSimulator

universe u v

variable {Thread : Type u} {Lock : Type v} (owner : Lock → Option Thread)
  (wants : Thread → Option Lock)

/-- The thread `t` waits for a lock that the thread `u` owns. -/
def WaitsOn (t u : Thread) : Prop := ∃ l, wants t = some l ∧ owner l = some u

/-- A chain of such waits from `t` to `u`. -/
def BlockedBehind (t u : Thread) : Prop := Relation.TransGen (WaitsOn owner wants) t u

/-- A cycle of threads, each of which waits for a lock owned by the next one. -/
def Deadlocked : Prop := ∃ t, BlockedBehind owner wants t t

variable {owner wants}

/-- A chain of waits ends with a wait for its last thread. -/
lemma exists_waitsOn_of_blockedBehind {t u : Thread} (h : BlockedBehind owner wants t u) :
    ∃ v, WaitsOn owner wants v u := by
  cases h with
  | single hw => exact ⟨t, hw⟩
  | tail _ hw => exact ⟨_, hw⟩

/-- **Lock ordering.** When every wait goes from a thread to one of a higher rank, no cycle of waits
exists. -/
theorem not_deadlocked_of_rank {α : Type*} [Preorder α] (rank : Thread → α)
    (h : ∀ t u, WaitsOn owner wants t u → rank t < rank u) : ¬ Deadlocked owner wants := by
  rintro ⟨t, ht⟩
  have hlt : ∀ u, BlockedBehind owner wants t u → rank t < rank u := by
    intro u hu
    induction hu with
    | single hw => exact h _ _ hw
    | tail _ hw ih => exact ih.trans (h _ _ hw)
  exact lt_irrefl _ (hlt t ht)

end OsSimulator
