import Mathlib.Data.List.Basic

set_option relaxedAutoImplicit false
set_option autoImplicit false

/-!
# Tables numbered by position

A table can be read in two ways: by the position of an entry, or by a number the entry carries.
The two agree on the numbers up to a bound exactly when every entry at a position up to the bound
carries its position. This file has that predicate and what appending and removing an entry does
to it.

## Main definitions

* `NumberedUpTo number bound l` — the entries at the positions up to `bound` carry their position.

## Main results

* `numberedUpTo_iff` — the two readings agree exactly on such tables.
* `numberedUpTo_append_singleton`, `NumberedUpTo.eraseIdx` — one entry more, one entry less.
-/

namespace OsSimulator

universe u v

variable {α : Type u} {β : Type v} {number : α → ℕ} {bound : ℕ} {l : List α}

/-- The entries at the positions up to `bound` carry their position. -/
def NumberedUpTo (number : α → ℕ) (bound : ℕ) (l : List α) : Prop :=
  ∀ n ≤ bound, ∀ a ∈ l[n]?, number a = n

/-- No elements are numbered. -/
lemma NumberedUpTo.nil : NumberedUpTo number bound [] := by
  intro n _ a ha
  simp at ha

/-- The entry at a position carries the number, and no entry before it does. -/
lemma NumberedUpTo.find?_of_getElem? (h : NumberedUpTo number bound l) {n : ℕ} (hn : n ≤ bound)
    {a : α} (ha : l[n]? = some a) : (l.find? fun b => number b == n) = some a := by
  obtain ⟨hlt, rfl⟩ := List.getElem?_eq_some_iff.1 ha
  rw [List.find?_eq_some_iff_getElem]
  refine ⟨by simpa using h n hn _ ha, n, hlt, rfl, fun j hj => ?_⟩
  have hnumber := h j (by omega) _ (List.getElem?_eq_getElem (by omega))
  rw [hnumber]
  simp only [Bool.not_eq_eq_eq_not, Bool.not_true, beq_eq_false_iff_ne, ne_eq]
  omega

/-- **The two readings agree** exactly when the entries carry their positions.

**Proof sketch.** When they agree, the entry at a position is found by its number. Conversely an
entry is found at its position; and a number without a position is carried by no entry, since
every position is smaller, so within the bound. -/
theorem numberedUpTo_iff :
    NumberedUpTo number bound l ↔ ∀ n ≤ bound, l[n]? = l.find? fun a => number a == n := by
  constructor
  · intro h n hn
    cases ha : l[n]? with
    | some a => exact (h.find?_of_getElem? hn ha).symm
    | none =>
      have hlen : l.length ≤ n := List.getElem?_eq_none_iff.1 ha
      refine (List.find?_eq_none.2 fun a hmem => ?_).symm
      obtain ⟨j, hj, rfl⟩ := List.getElem_of_mem hmem
      have hnumber := h j (by omega) _ (List.getElem?_eq_getElem hj)
      rw [hnumber]
      simp only [beq_iff_eq]
      omega
  · intro h n hn a ha
    rw [Option.mem_def, h n hn] at ha
    simpa using List.find?_some ha

/-- One entry more: it gets the next position. -/
theorem numberedUpTo_append_singleton {a : α} :
    NumberedUpTo number bound (l ++ [a]) ↔
      NumberedUpTo number bound l ∧ (l.length ≤ bound → number a = l.length) := by
  constructor
  · intro h
    refine ⟨fun n hn b hb => ?_, fun hlen => ?_⟩
    · have hlt : n < l.length := (List.getElem?_eq_some_iff.1 hb).1
      apply h n hn
      rwa [List.getElem?_append_left hlt]
    · apply h l.length hlen
      rw [List.getElem?_append_right (Nat.le_refl _), Nat.sub_self]
      rfl
  · rintro ⟨h, hnew⟩ n hn b hb
    rcases Nat.lt_trichotomy n l.length with hlt | heq | hgt
    · rw [List.getElem?_append_left hlt] at hb
      exact h n hn b hb
    · subst heq
      rw [List.getElem?_append_right (Nat.le_refl _), Nat.sub_self] at hb
      obtain rfl : a = b := by simpa using hb
      exact hnew hn
    · rw [List.getElem?_eq_none (by simp; omega)] at hb
      simp at hb

/-- One entry less: the entries behind it get the positions before theirs, so the one right behind
it has to carry the number of its new position already, if that is within the bound. -/
theorem NumberedUpTo.eraseIdx (h : NumberedUpTo number bound l) {i : ℕ}
    (hnext : i ≤ bound → ∀ a ∈ l[i + 1]?, number a = i) :
    NumberedUpTo number bound (l.eraseIdx i) := by
  intro n hn a ha
  rw [List.getElem?_eraseIdx] at ha
  split at ha
  · exact h n hn a ha
  · rename_i hin
    rcases Nat.eq_or_lt_of_le (Nat.not_lt.1 hin) with rfl | hlt
    · exact hnext hn a ha
    · -- the entry behind the removed one is there too, and has two numbers
      have hlen : n + 1 < l.length := (List.getElem?_eq_some_iff.1 ha).1
      have hread : l[i + 1]? = some l[i + 1] := List.getElem?_eq_getElem (by omega)
      have hnumber := h (i + 1) (by omega) _ hread
      have hshifted := hnext (by omega) _ hread
      omega

/-- A change of the entries that keeps their numbers. -/
lemma NumberedUpTo.map {number' : β → ℕ} (h : NumberedUpTo number bound l) {f : α → β}
    (hf : ∀ a, number' (f a) = number a) : NumberedUpTo number' bound (l.map f) := by
  intro n hn b hb
  rw [List.getElem?_map, Option.mem_def, Option.map_eq_some_iff] at hb
  obtain ⟨a, ha, rfl⟩ := hb
  rw [hf]
  exact h n hn a ha

end OsSimulator
