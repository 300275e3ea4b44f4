import Mathlib.Order.Lattice
import Mathlib.Data.List.Basic

set_option relaxedAutoImplicit false
set_option autoImplicit false

/-!
# The first best element of a list

A scan of a list that keeps the element with the least key so far, among those with a property, and
exchanges it only for a strictly better one.

## Main definitions

* `FirstBest fits key before x after` — `x` is the first of the best elements of
  `before ++ x :: after`.
* `firstBest fits key chosen l` — the scan, with what it has chosen so far.

## Main results

* `firstBest_none_eq_none`, `firstBest_none_eq_some` — the scan finds the first best element if
  there is any.
* `FirstBest.unique` — there is only one place for it.
-/

namespace OsSimulator

universe u v

variable {α : Type u} {κ : Type v} [LinearOrder κ] {fits : α → Prop} {key : α → κ}

/-- The element between two lists is the first best one: those before it are worse, and those behind
it are not better. -/
structure FirstBest (fits : α → Prop) (key : α → κ) (before : List α) (x : α) (after : List α) :
    Prop where
  fit : fits x
  ahead : ∀ y ∈ before, fits y → key x < key y
  behind : ∀ y ∈ after, fits y → key x ≤ key y

/-- The scan. -/
def firstBest (fits : α → Prop) [DecidablePred fits] (key : α → κ) : Option α → List α → Option α
  | chosen, [] => chosen
  | none, y :: rest => firstBest fits key (if fits y then some y else none) rest
  | some x, y :: rest =>
    firstBest fits key (if fits y ∧ key y < key x then some y else some x) rest

/-- There is only one first best element. -/
lemma FirstBest.unique {before before' after after' : List α} {x x' : α}
    (h : FirstBest fits key before x after) (h' : FirstBest fits key before' x' after')
    (heq : before ++ x :: after = before' ++ x' :: after') :
    before = before' ∧ x = x' ∧ after = after' := by
  rcases List.append_eq_append_iff.1 heq with ⟨l, rfl, htail⟩ | ⟨l, rfl, htail⟩
  · cases l with
    | nil => exact ⟨(List.append_nil _).symm, List.cons.inj htail⟩
    | cons y l =>
      obtain ⟨rfl, rfl⟩ := List.cons.inj htail
      have hlt := h'.ahead x (by simp) h.fit
      have hle := h.behind x' (by simp) h'.fit
      exact absurd hlt (not_lt.2 hle)
  · cases l with
    | nil =>
      obtain ⟨rfl, rfl⟩ := List.cons.inj htail
      exact ⟨List.append_nil _, rfl, rfl⟩
    | cons y l =>
      obtain ⟨rfl, rfl⟩ := List.cons.inj htail
      have hlt := h.ahead x' (by simp) h'.fit
      have hle := h'.behind x (by simp) h.fit
      exact absurd hlt (not_lt.2 hle)

variable [DecidablePred fits]

/-- A scan that has chosen an element keeps it, or ends with a better one of the list. -/
lemma firstBest_some {x z : α} {l : List α} (h : firstBest fits key (some x) l = some z) :
    (z = x ∧ ∀ y ∈ l, fits y → key x ≤ key y) ∨
      ∃ before after, l = before ++ z :: after ∧ FirstBest fits key before z after ∧
        key z < key x := by
  induction l generalizing x with
  | nil => exact .inl ⟨(Option.some.inj h).symm, by simp⟩
  | cons y rest ih =>
    rw [firstBest] at h
    split at h
    · rename_i hbetter
      obtain ⟨hfits, hlt⟩ := hbetter
      right
      rcases ih h with ⟨rfl, hall⟩ | ⟨before, after, rfl, hbest, hless⟩
      · exact ⟨[], rest, rfl, ⟨hfits, by simp, hall⟩, hlt⟩
      · refine ⟨y :: before, after, rfl, ⟨hbest.fit, ?_, hbest.behind⟩, hless.trans hlt⟩
        rintro w (_ | ⟨_, hw⟩) hfw
        · exact hless
        · exact hbest.ahead w hw hfw
    · rename_i hnot
      have hle : fits y → key x ≤ key y := fun hfits => not_lt.1 fun hlt => hnot ⟨hfits, hlt⟩
      rcases ih h with ⟨rfl, hall⟩ | ⟨before, after, rfl, hbest, hless⟩
      · refine .inl ⟨rfl, ?_⟩
        rintro w (_ | ⟨_, hw⟩) hfw
        · exact hle hfw
        · exact hall w hw hfw
      · refine .inr ⟨y :: before, after, rfl, ⟨hbest.fit, ?_, hbest.behind⟩, hless⟩
        rintro w (_ | ⟨_, hw⟩) hfw
        · exact hless.trans_le (hle hfw)
        · exact hbest.ahead w hw hfw

/-- A scan that has chosen an element ends with one. -/
lemma firstBest_some_ne_none (x : α) (l : List α) : firstBest fits key (some x) l ≠ none := by
  induction l generalizing x with
  | nil => simp [firstBest]
  | cons y rest ih =>
    rw [firstBest]
    split
    · exact ih y
    · exact ih x

/-- The scan finds nothing exactly when nothing fits. -/
lemma firstBest_none_eq_none {l : List α} :
    firstBest fits key none l = none ↔ ∀ y ∈ l, ¬ fits y := by
  induction l with
  | nil => simp [firstBest]
  | cons y rest ih =>
    rw [firstBest, List.forall_mem_cons]
    split
    · rename_i hfits
      simp [firstBest_some_ne_none, hfits]
    · rename_i hnot
      rw [ih]
      exact (and_iff_right hnot).symm

/-- **What the scan finds is the first best element.** -/
lemma firstBest_none_eq_some {z : α} {l : List α} (h : firstBest fits key none l = some z) :
    ∃ before after, l = before ++ z :: after ∧ FirstBest fits key before z after := by
  induction l with
  | nil => exact absurd h (by simp [firstBest])
  | cons y rest ih =>
    rw [firstBest] at h
    split at h
    · rename_i hfits
      rcases firstBest_some h with ⟨rfl, hall⟩ | ⟨before, after, rfl, hbest, hless⟩
      · exact ⟨[], rest, rfl, hfits, by simp, hall⟩
      · refine ⟨y :: before, after, rfl, hbest.fit, ?_, hbest.behind⟩
        rintro w (_ | ⟨_, hw⟩) hfw
        · exact hless
        · exact hbest.ahead w hw hfw
    · rename_i hnot
      obtain ⟨before, after, rfl, hbest⟩ := ih h
      refine ⟨y :: before, after, rfl, hbest.fit, ?_, hbest.behind⟩
      rintro w (_ | ⟨_, hw⟩) hfw
      · exact absurd hfw hnot
      · exact hbest.ahead w hw hfw

end OsSimulator
