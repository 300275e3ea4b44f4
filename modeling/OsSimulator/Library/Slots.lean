import Mathlib.Data.List.Basic

set_option relaxedAutoImplicit false
set_option autoImplicit false

/-!
# Tables of slots filled first-fit

A table has a fixed number of slots, free or taken; a record goes to the first free slot. Records
stored one after another that have a common mark, of which the table had none, therefore stand in
the table in the order they were stored. The invariant behind this is that no slot with the mark
lies behind a free one.

## Main definitions

* `firstFree free l` — the index of the first free slot.
* `NoneBehind free p l` — no slot with the mark `p` lies behind a free slot.

## Main results

* `exists_of_firstFree` — the table around its first free slot.
* `filter_fill`, `filter_fill_of_not` — the slots with a mark after the first free slot is filled.
* `NoneBehind.fill` — filling the first free slot keeps the invariant.
-/

namespace OsSimulator

universe u

variable {α : Type u} {free p : α → Bool} {l pre post : List α} {a b : α}

/-- The index of the first free slot. -/
def firstFree (free : α → Bool) (l : List α) : Option ℕ := l.findIdx? free

/-- No slot with the mark lies behind a free one. -/
def NoneBehind (free p : α → Bool) (l : List α) : Prop :=
  l.Pairwise fun a b => free a = true → p b = false

/-- The table around its first free slot. -/
lemma exists_of_firstFree {n : ℕ} (h : firstFree free l = some n) :
    ∃ pre b post, l = pre ++ b :: post ∧ pre.length = n ∧ (∀ c ∈ pre, free c = false) ∧
      free b = true := by
  induction l generalizing n with
  | nil => simp [firstFree] at h
  | cons c rest ih =>
    rw [firstFree, List.findIdx?_cons] at h
    split at h
    · rename_i hc
      obtain rfl := Option.some.inj h
      exact ⟨[], c, rest, rfl, rfl, by simp, hc⟩
    · rename_i hc
      obtain ⟨m, hm, rfl⟩ := Option.map_eq_some_iff.1 h
      obtain ⟨pre, b, post, rfl, rfl, hpre, hb⟩ := ih hm
      refine ⟨c :: pre, b, post, rfl, rfl, fun d hd => ?_, hb⟩
      rcases List.mem_cons.1 hd with rfl | hd
      · simpa using hc
      · exact hpre d hd

/-- Without a first free slot no slot is free. -/
lemma firstFree_eq_none : firstFree free l = none ↔ ∀ c ∈ l, free c = false := by
  rw [firstFree, List.findIdx?_eq_none_iff]

/-- None is free if none is counted. -/
lemma firstFree_eq_none_iff_countP : firstFree free l = none ↔ l.countP free = 0 := by
  rw [firstFree_eq_none, List.countP_eq_zero]
  simp only [Bool.not_eq_true]

/-- The slot at a known position. -/
lemma modify_append_length (f : α → α) : (pre ++ b :: post).modify pre.length f =
    pre ++ f b :: post := by
  induction pre with
  | nil => rfl
  | cons c pre ih => simp [ih]

/-- The free slots after one was taken. -/
lemma countP_fill (hb : free b = true) (ha : free a = false) :
    (pre ++ a :: post).countP free + 1 = (pre ++ b :: post).countP free := by
  simp only [List.countP_append, List.countP_cons, hb, ha]
  simp only [Bool.false_eq_true, if_true, if_false]
  omega

/-- The slots with a property that the slot that is filled had not. -/
lemma countP_fill_of_not {q : α → Bool} (hb : q b = false) :
    (pre ++ a :: post).countP q = (pre ++ b :: post).countP q + if q a then 1 else 0 := by
  simp only [List.countP_append, List.countP_cons, hb, Bool.false_eq_true, if_false]
  omega

/-- A slot filled without the mark. -/
lemma filter_fill_of_not (hb : p b = false) (ha : p a = false) :
    (pre ++ a :: post).filter p = (pre ++ b :: post).filter p := by
  simp only [List.filter_append, List.filter_cons, hb, ha, Bool.false_eq_true, if_false]

/-- The first free slot filled with the mark: the new record is the last one with it. -/
lemma filter_fill (hfree : free b = true) (hb : p b = false) (ha : p a = true)
    (h : NoneBehind free p (pre ++ b :: post)) :
    (pre ++ a :: post).filter p = (pre ++ b :: post).filter p ++ [a] := by
  have hpost : post.filter p = [] := by
    rw [List.filter_eq_nil_iff]
    intro c hc
    have := (List.pairwise_append.1 h).2.1
    simpa using (List.pairwise_cons.1 this).1 c hc hfree
  simp only [List.filter_append, List.filter_cons, hb, ha, hpost]
  simp

/-- Filling the first free slot keeps the slots with the mark before the free ones. -/
lemma NoneBehind.fill (h : NoneBehind free p (pre ++ b :: post))
    (hpre : ∀ c ∈ pre, free c = false) (ha : free a = false) :
    NoneBehind free p (pre ++ a :: post) := by
  obtain ⟨h₁, h₂, h₃⟩ := List.pairwise_append.1 h
  obtain ⟨h₄, h₅⟩ := List.pairwise_cons.1 h₂
  refine List.pairwise_append.2 ⟨h₁, List.pairwise_cons.2 ⟨fun c _ hfree => ?_, h₅⟩, ?_⟩
  · rw [ha] at hfree
    exact absurd hfree Bool.false_ne_true
  · intro c hc d _ hfree
    rw [hpre c hc] at hfree
    exact absurd hfree Bool.false_ne_true

/-- A table without the mark. -/
lemma NoneBehind.of_forall (h : ∀ c ∈ l, p c = false) : NoneBehind free p l := by
  refine List.pairwise_iff_forall_sublist.2 fun {c d} hcd _ => h d ?_
  exact hcd.subset (by simp)

end OsSimulator
