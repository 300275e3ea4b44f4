import Mathlib.Data.List.Basic

set_option relaxedAutoImplicit false
set_option autoImplicit false

/-!
# The linked list

`utils/collections/list.c` seen from outside: a list is a `List`, `list_add` appends,
`list_get` and `list_remove` work at an index, `list_remove_element` removes the first occurrence
(`List.erase`). Only the sorted insertion has a definition of its own, since it also returns the
index it inserted at.

## Main definitions

* `listAddSorted comparator x l` — `list_add_sorted`.

## Main results

* `perm_listAddSorted`, `pairwise_listAddSorted` — it adds one element and keeps the order.
* `listAddSorted_of_index_eq_zero`, `head?_listAddSorted_of_index_ne_zero` — what the returned
  index says about the head of the list.
-/

namespace OsSimulator

universe u v

variable {α : Type u}

/-- `list_add_sorted`: the element goes before the first one that the comparator lets it pass. Its
index is returned with the new list. -/
def listAddSorted (comparator : α → α → Bool) (x : α) : List α → ℕ × List α
  | [] => (0, [x])
  | y :: ys =>
    if comparator x y then (0, x :: y :: ys)
    else
      let inserted := listAddSorted comparator x ys
      (inserted.1 + 1, y :: inserted.2)

variable (comparator : α → α → Bool) (x : α)

/-- A sorted insertion adds its element. -/
lemma perm_listAddSorted (l : List α) : ((listAddSorted comparator x l).2).Perm (x :: l) := by
  induction l with
  | nil => exact .refl _
  | cons y ys ih =>
    rw [listAddSorted]
    split
    · exact .refl _
    · exact (ih.cons y).trans (.swap x y ys)

/-- The new element and the old ones are in the list. -/
lemma mem_listAddSorted {y : α} {l : List α} :
    y ∈ (listAddSorted comparator x l).2 ↔ y = x ∨ y ∈ l := by
  rw [(perm_listAddSorted comparator x l).mem_iff, List.mem_cons]

/-- The new one comes at a position of the list, or at its end. -/
lemma index_listAddSorted_le (l : List α) : (listAddSorted comparator x l).1 ≤ l.length := by
  induction l with
  | nil => exact Nat.le_refl 0
  | cons y ys ih =>
    rw [listAddSorted]
    split
    · exact Nat.zero_le _
    · exact Nat.succ_le_succ ih

/-- A sorted insertion is one at the index it returns. -/
lemma listAddSorted_eq_insertIdx (l : List α) :
    (listAddSorted comparator x l).2 = l.insertIdx (listAddSorted comparator x l).1 x := by
  induction l with
  | nil => rfl
  | cons y ys ih =>
    rw [listAddSorted]
    split
    · rfl
    · simp only [ih, List.insertIdx_succ_cons]

/-- A comparator that looks at a part of the elements finds its index by these parts. -/
lemma index_listAddSorted_map {β : Type v} (f : β → α) (y : β) (l : List β) :
    (listAddSorted comparator (f y) (l.map f)).1 =
      (listAddSorted (fun a b => comparator (f a) (f b)) y l).1 := by
  induction l with
  | nil => rfl
  | cons z zs ih =>
    rw [List.map_cons, listAddSorted, listAddSorted]
    split
    · rfl
    · simp only [ih]

/-- An insertion at index `0` is one at the head. -/
lemma listAddSorted_of_index_eq_zero {l : List α} (h : (listAddSorted comparator x l).1 = 0) :
    (listAddSorted comparator x l).2 = x :: l := by
  cases l with
  | nil => rfl
  | cons y ys =>
    rw [listAddSorted] at h ⊢
    split at h
    · rename_i hxy
      rw [if_pos hxy]
    · exact absurd h (Nat.succ_ne_zero _)

/-- An insertion at index `0` passed the old head. -/
lemma comparator_of_index_eq_zero {l : List α} (h : (listAddSorted comparator x l).1 = 0) {y : α}
    (hy : y ∈ l.head?) : comparator x y = true := by
  cases l with
  | nil => simp at hy
  | cons z zs =>
    obtain rfl : z = y := by simpa using hy
    rw [listAddSorted] at h
    split at h
    · assumption
    · exact absurd h (Nat.succ_ne_zero _)

/-- An insertion behind the head leaves the head, which the element did not pass. -/
lemma head?_listAddSorted_of_index_ne_zero {l : List α}
    (h : (listAddSorted comparator x l).1 ≠ 0) :
    ∃ y, l.head? = some y ∧ (listAddSorted comparator x l).2.head? = some y ∧
      comparator x y = false := by
  cases l with
  | nil => exact absurd rfl h
  | cons y ys =>
    rw [listAddSorted] at h ⊢
    split at h
    · exact absurd rfl h
    · rename_i hxy
      rw [if_neg hxy]
      exact ⟨y, rfl, rfl, by simpa using hxy⟩

/-- A sorted insertion keeps a list sorted for every transitive order that the comparator
decides. -/
lemma pairwise_listAddSorted (R : α → α → Prop) (htrans : ∀ a b c, R a b → R b c → R a c)
    (hpass : ∀ y, comparator x y = true → R x y) (hstay : ∀ y, comparator x y = false → R y x)
    {l : List α} (hl : l.Pairwise R) : (listAddSorted comparator x l).2.Pairwise R := by
  induction l with
  | nil => exact List.pairwise_singleton R x
  | cons y ys ih =>
    obtain ⟨hy, hys⟩ := List.pairwise_cons.1 hl
    rw [listAddSorted]
    split
    · rename_i hxy
      have hxR : R x y := hpass y hxy
      refine List.pairwise_cons.2 ⟨fun z hz => ?_, hl⟩
      rcases List.mem_cons.1 hz with rfl | hz
      · exact hxR
      · exact htrans _ _ _ hxR (hy z hz)
    · rename_i hxy
      refine List.pairwise_cons.2 ⟨fun z hz => ?_, ih hys⟩
      rcases (mem_listAddSorted comparator x).1 hz with rfl | hz
      · exact hstay y (by simpa using hxy)
      · exact hy z hz

end OsSimulator
