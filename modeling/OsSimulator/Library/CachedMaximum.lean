import Mathlib.Order.Bounds.Basic
import Mathlib.Order.MinMax

set_option relaxedAutoImplicit false
set_option autoImplicit false

/-!
# A maximum that is kept

The largest value of the elements of a list, and of a floor below which it does not go. It can be
kept beside the list: raised when an element is added at the end, and found again by a pass over the
list when one is removed or a value changes.

## Main definitions

* `maxFrom floor f list` — the pass over the list.

## Main results

* `isGreatest_maxFrom` — it finds the largest value.
* `maxFrom_append_singleton` — an element at the end raises it.
-/

namespace OsSimulator

universe u v

variable {α : Type u} {β : Type v} [LinearOrder β] {floor : β} {f g : α → β} {list : List α}

/-- The largest value of the elements of a list and of a floor. -/
def maxFrom (floor : β) (f : α → β) (list : List α) : β :=
  list.foldl (fun largest a => if largest < f a then f a else largest) floor

/-- The maximum with the first element in the floor. -/
lemma maxFrom_cons (floor : β) (f : α → β) (a : α) (list : List α) :
    maxFrom floor f (a :: list) = maxFrom (max floor (f a)) f list := by
  rw [maxFrom, List.foldl_cons, max_def_lt]
  rfl

/-- An element at the end raises it. -/
lemma maxFrom_append_singleton (floor : β) (f : α → β) (list : List α) (a : α) :
    maxFrom floor f (list ++ [a]) =
      if maxFrom floor f list < f a then f a else maxFrom floor f list := by
  rw [maxFrom, List.foldl_append]
  rfl

/-- Only the values of the elements count. -/
lemma maxFrom_congr (h : ∀ a ∈ list, f a = g a) : maxFrom floor f list = maxFrom floor g list := by
  induction list generalizing floor with
  | nil => rfl
  | cons a list ih =>
    rw [maxFrom_cons, maxFrom_cons, h a List.mem_cons_self]
    exact ih fun b hb => h b (List.mem_cons_of_mem a hb)

/-- **The largest value of the floor and the elements.** -/
theorem isGreatest_maxFrom (floor : β) (f : α → β) (list : List α) :
    IsGreatest (insert floor {x | ∃ a ∈ list, f a = x}) (maxFrom floor f list) := by
  induction list generalizing floor with
  | nil =>
    refine ⟨Set.mem_insert _ _, fun x hx => ?_⟩
    rcases hx with rfl | ⟨a, ha, -⟩
    · exact le_refl _
    · exact absurd ha List.not_mem_nil
  | cons b list ih =>
    obtain ⟨hmem, hle⟩ := ih (max floor (f b))
    rw [maxFrom_cons]
    have hstart : max floor (f b) ≤ maxFrom (max floor (f b)) f list := hle (Set.mem_insert _ _)
    refine ⟨?_, fun x hx => ?_⟩
    · rcases hmem with heq | ⟨a, ha, heq⟩
      · rw [heq]
        rcases max_choice floor (f b) with hfloor | hb
        · exact .inl hfloor
        · exact .inr ⟨b, List.mem_cons_self, hb.symm⟩
      · exact .inr ⟨a, List.mem_cons_of_mem b ha, heq⟩
    · rcases hx with rfl | ⟨a, ha, rfl⟩
      · exact (le_max_left _ _).trans hstart
      · rcases List.mem_cons.1 ha with rfl | ha
        · exact (le_max_right _ _).trans hstart
        · exact hle (.inr ⟨a, ha, rfl⟩)

end OsSimulator
