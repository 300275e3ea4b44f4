import Mathlib.Data.List.Basic
import Mathlib.Data.List.Perm.Basic

set_option relaxedAutoImplicit false
set_option autoImplicit false

/-!
# Elements in named lists

Lists with names, and elements that each know the name of the list they are in. The elements go from
list to list, one at a time; the two descriptions agree as long as each element enters and leaves
the lists together with its own record.

## Main definitions

* `Placed lists place` — every element is in the list of its place, once, and in no other one.

## Main results

* `Placed.goes` — an element that leaves its list and enters that of its new place.
-/

namespace OsSimulator

universe u v

variable {κ : Type u} {α : Type v} [DecidableEq κ] [DecidableEq α]

/-- Every element is in the list of its place, once, and in no other list. -/
def Placed (lists : κ → List α) (place : α → Option κ) : Prop :=
  ∀ k a, (lists k).count a = if place a = some k then 1 else 0

namespace Placed

variable {lists lists' : κ → List α} {place place' : α → Option κ} {a : α} {k : κ}

/-- A list has what is placed in it. -/
lemma mem_iff (h : Placed lists place) : a ∈ lists k ↔ place a = some k := by
  rw [← List.count_pos_iff, h k a]
  split
  · rename_i heq
    simp [heq]
  · rename_i hne
    simp [hne]

/-- Without elements there is nothing in the lists. -/
lemma of_forall_none (hlists : ∀ k, lists k = []) (hplace : ∀ a, place a = none) :
    Placed lists place := by
  intro k a
  rw [hlists, hplace]
  simp

/-- An element leaves the list of its place, if it has one, and enters that of its new place. -/
theorem goes (h : Placed lists place) (hne : place a ≠ none → place a ≠ place' a)
    (hother : ∀ b, b ≠ a → place' b = place b)
    (hleft : ∀ k, place a = some k → (lists k).Perm (a :: lists' k))
    (hentered : ∀ k, place' a = some k → (lists' k).Perm (a :: lists k))
    (hkept : ∀ k, place a ≠ some k → place' a ≠ some k → lists' k = lists k) :
    Placed lists' place' := by
  intro k b
  have hplace : b ≠ a → ((if place' b = some k then 1 else 0) = (lists k).count b) := by
    intro hb
    rw [hother b hb, h k b]
  by_cases hfrom : place a = some k
  · have hto : place' a ≠ some k := by
      intro hto
      exact hne (by simp [hfrom]) (hfrom.trans hto.symm)
    have hcount := (hleft k hfrom).count_eq b
    rw [List.count_cons] at hcount
    by_cases hb : b = a
    · subst hb
      rw [h k b, if_pos hfrom, beq_self_eq_true, if_pos rfl] at hcount
      rw [if_neg hto]
      omega
    · rw [hplace hb, hcount, if_neg (by simpa using Ne.symm hb), Nat.add_zero]
  · by_cases hto : place' a = some k
    · have hcount := (hentered k hto).count_eq b
      rw [List.count_cons] at hcount
      by_cases hb : b = a
      · subst hb
        rw [h k b, if_neg hfrom, beq_self_eq_true, if_pos rfl] at hcount
        rw [if_pos hto, hcount]
      · rw [hplace hb, hcount, if_neg (by simpa using Ne.symm hb), Nat.add_zero]
    · rw [hkept k hfrom hto]
      by_cases hb : b = a
      · subst hb
        rw [h k b, if_neg hfrom, if_neg hto]
      · rw [hplace hb]

end Placed

end OsSimulator
