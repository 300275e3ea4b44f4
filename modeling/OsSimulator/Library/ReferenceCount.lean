import Mathlib.Data.Fintype.Card

set_option relaxedAutoImplicit false
set_option autoImplicit false

/-!
# Reference counts

Threads that keep at most one object each, and a count beside every object. A thread that takes an
object raises its count, one that lets it go lowers it, and an object is destroyed only when its
count is zero.

## Main definitions

* `holders keeps a` — how many threads keep an object.
* `Referenced keeps count destroyed` — every count is right, and no thread keeps a destroyed object.

## Main results

* `Referenced.take`, `Referenced.letGo`, `Referenced.destroy` — the operations keep that.
-/

namespace OsSimulator

universe u v

variable {τ : Type u} {α : Type v} [Fintype τ] [DecidableEq α]

/-- How many threads keep an object. -/
def holders (keeps : τ → Option α) (a : α) : ℕ := (Finset.univ.filter fun t => keeps t = some a).card

/-- **The references are right**: every object has as many as threads keep it, and what a thread
keeps has not been destroyed. -/
structure Referenced (keeps : τ → Option α) (count : α → ℕ) (destroyed : α → Bool) : Prop where
  count_eq : ∀ a, count a = holders keeps a
  live : ∀ t a, keeps t = some a → destroyed a = false

section Holders

variable {keeps : τ → Option α} {t : τ} {a : α}

/-- Nobody is counted if nobody has it. -/
lemma holders_eq_zero_iff : holders keeps a = 0 ↔ ∀ t, keeps t ≠ some a := by
  rw [holders, Finset.card_eq_zero, Finset.filter_eq_empty_iff]
  exact ⟨fun h t => h (Finset.mem_univ t), fun h t _ => h t⟩

variable [DecidableEq τ]

/-- A thread that keeps nothing takes an object. -/
lemma holders_update_some (h : keeps t = none) (a b : α) :
    holders (Function.update keeps t (some a)) b = holders keeps b + if a = b then 1 else 0 := by
  have hother : ∀ t', t' ≠ t → Function.update keeps t (some a) t' = keeps t' :=
    fun t' ht' => Function.update_of_ne ht' _ _
  by_cases hab : a = b
  · subst hab
    have hnot : t ∉ Finset.univ.filter fun t' => keeps t' = some a := by
      simp [h]
    have heq : (Finset.univ.filter fun t' => Function.update keeps t (some a) t' = some a) =
        insert t (Finset.univ.filter fun t' => keeps t' = some a) := by
      ext t'
      by_cases ht' : t' = t
      · simp [ht']
      · simp [ht']
    rw [holders, heq, Finset.card_insert_of_notMem hnot, if_pos rfl]
    rfl
  · have heq : (Finset.univ.filter fun t' => Function.update keeps t (some a) t' = some b) =
        Finset.univ.filter fun t' => keeps t' = some b := by
      ext t'
      by_cases ht' : t' = t
      · simp [ht', h, hab]
      · simp [hother t' ht']
    rw [holders, heq, if_neg hab]
    rfl

/-- A thread lets its object go. -/
lemma holders_update_none (h : keeps t = some a) (b : α) :
    holders (Function.update keeps t none) b + (if a = b then 1 else 0) = holders keeps b := by
  have hagain : Function.update (Function.update keeps t none) t (some a) = keeps := by
    rw [Function.update_idem, ← h, Function.update_eq_self]
  rw [← holders_update_some (Function.update_self t none keeps) a b, hagain]

end Holders

namespace Referenced

variable {keeps : τ → Option α} {count : α → ℕ} {destroyed : α → Bool} {t : τ} {a : α}

/-- An object without references is not kept. -/
lemma not_keeps (h : Referenced keeps count destroyed) (hzero : count a = 0) (t : τ) :
    keeps t ≠ some a :=
  holders_eq_zero_iff.1 ((h.count_eq a).symm.trans hzero) t

/-- Such an object is destroyed. -/
lemma destroy (h : Referenced keeps count destroyed) (hzero : count a = 0) :
    Referenced keeps count (Function.update destroyed a true) := by
  refine ⟨h.count_eq, fun t b hkeeps => ?_⟩
  have hne : b ≠ a := by
    rintro rfl
    exact h.not_keeps hzero t hkeeps
  rw [Function.update_of_ne hne]
  exact h.live t b hkeeps

variable [DecidableEq τ]

/-- A thread takes an object that has not been destroyed. -/
lemma take (h : Referenced keeps count destroyed) (hnone : keeps t = none)
    (hlive : destroyed a = false) :
    Referenced (Function.update keeps t (some a)) (Function.update count a (count a + 1))
      destroyed := by
  constructor
  · intro b
    rw [holders_update_some hnone]
    by_cases hb : b = a
    · rw [hb, Function.update_self, if_pos rfl, h.count_eq]
    · rw [Function.update_of_ne hb, if_neg (Ne.symm hb), h.count_eq, Nat.add_zero]
  · intro t' b hkeeps
    by_cases ht : t' = t
    · rw [ht, Function.update_self, Option.some.injEq] at hkeeps
      exact hkeeps ▸ hlive
    · rw [Function.update_of_ne ht] at hkeeps
      exact h.live t' b hkeeps

/-- A thread lets its object go. -/
lemma letGo (h : Referenced keeps count destroyed) (hkeeps : keeps t = some a) :
    Referenced (Function.update keeps t none) (Function.update count a (count a - 1))
      destroyed := by
  constructor
  · intro b
    have hcount := holders_update_none hkeeps b
    rw [← h.count_eq] at hcount
    by_cases hb : b = a
    · rw [hb, Function.update_self]
      rw [hb, if_pos rfl] at hcount
      omega
    · rw [Function.update_of_ne hb]
      rw [if_neg (Ne.symm hb)] at hcount
      omega
  · intro t' b hkeeps'
    by_cases ht : t' = t
    · rw [ht, Function.update_self] at hkeeps'
      exact absurd hkeeps' (by simp)
    · rw [Function.update_of_ne ht] at hkeeps'
      exact h.live t' b hkeeps'

end Referenced

end OsSimulator
