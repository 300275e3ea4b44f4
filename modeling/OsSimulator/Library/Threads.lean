import Mathlib.Data.Finset.Card
import Mathlib.Data.Fintype.Basic
import Mathlib.Data.Finset.Dedup
import Mathlib.Data.List.Perm.Basic

set_option relaxedAutoImplicit false
set_option autoImplicit false

/-!
# What a finite family of threads has

Every thread of a finite family is in some state, and `g` says what a thread in a state has, if
anything. `gather g phase` lists what all of them have together. This file says how the list
changes when one thread does, and compares the lists of two such functions.

## Main definitions

* `gather g phase` — what the threads have.
* `countThreads p phase` — the number of threads with a property.

## Main results

* `exists_gather_update`, `countThreads_update` — the list and the number before and after a step of
  one thread.
* `isSome_of_length_gather_le` — if everyone with a `g'` has a `g`, and there are no more `g` than
  `g'`, then everyone with a `g` has a `g'`.
-/

namespace OsSimulator

universe u v w

variable {ι : Type u} {α : Type v} {β : Type w} [Fintype ι]

/-- What the threads have, in some order. -/
noncomputable def gather (g : α → Option β) (phase : ι → α) : List β :=
  (Finset.univ : Finset ι).toList.filterMap fun i => g (phase i)

/-- What is gathered comes from some thread. -/
lemma mem_gather {g : α → Option β} {phase : ι → α} {x : β} :
    x ∈ gather g phase ↔ ∃ i, g (phase i) = some x := by
  simp [gather]

/-- **A step of one thread**: what it has is exchanged, and the others have what they had. -/
lemma exists_gather_update [DecidableEq ι] (g : α → Option β) (phase : ι → α) (i : ι) :
    ∃ others : List β, (gather g phase).Perm ((g (phase i)).toList ++ others) ∧
      ∀ x, (gather g (Function.update phase i x)).Perm ((g x).toList ++ others) := by
  have hmem : i ∈ (Finset.univ : Finset ι).toList := Finset.mem_toList.2 (Finset.mem_univ i)
  have hsplit : ((Finset.univ : Finset ι).toList).Perm (i :: (Finset.univ : Finset ι).toList.erase i) :=
    List.perm_cons_erase hmem
  have hnot : i ∉ (Finset.univ : Finset ι).toList.erase i :=
    (Finset.nodup_toList Finset.univ).not_mem_erase
  set rest := (Finset.univ : Finset ι).toList.erase i
  have hall : ∀ x, (gather g (Function.update phase i x)).Perm
      ((g x).toList ++ rest.filterMap fun j => g (phase j)) := by
    intro x
    have hothers : (rest.filterMap fun j => g (Function.update phase i x j)) =
        rest.filterMap fun j => g (phase j) := by
      refine List.filterMap_congr fun j hj => ?_
      have hne : j ≠ i := by
        rintro rfl
        exact hnot hj
      rw [Function.update_of_ne hne]
    have hperm := hsplit.filterMap fun j => g (Function.update phase i x j)
    rw [List.filterMap_cons, Function.update_self, hothers] at hperm
    rw [gather]
    cases hx : g x with
    | none =>
      rw [hx] at hperm
      exact hperm
    | some y =>
      rw [hx] at hperm
      exact hperm
  refine ⟨rest.filterMap fun j => g (phase j), ?_, hall⟩
  have hsame := hall (phase i)
  rwa [Function.update_eq_self] at hsame

omit [Fintype ι] in
/-- The counting argument over a list of threads. -/
lemma isSome_of_length_filterMap_le {g g' : ι → Option β} {threads : List ι}
    (hsub : ∀ i ∈ threads, (g' i).isSome → (g i).isSome)
    (hle : (threads.filterMap g).length ≤ (threads.filterMap g').length) :
    ∀ i ∈ threads, (g i).isSome → (g' i).isSome := by
  have hlength : ∀ (f : ι → Option β) (l : List ι),
      (l.filterMap f).length = l.countP fun i => (f i).isSome := by
    intro f l
    induction l with
    | nil => rfl
    | cons i rest ih =>
      rw [List.filterMap_cons, List.countP_cons]
      cases hi : f i with
      | none => simpa [hi] using ih
      | some x => simpa [hi] using ih
  induction threads with
  | nil => exact fun i hi => absurd hi (by simp)
  | cons i rest ih =>
    have hmono : rest.countP (fun j => (g' j).isSome) ≤ rest.countP fun j => (g j).isSome :=
      List.countP_mono_left fun j hj => hsub j (List.mem_cons_of_mem _ hj)
    have hhead := hsub i List.mem_cons_self
    rw [hlength, hlength, List.countP_cons, List.countP_cons] at hle
    have hrest : (rest.filterMap g).length ≤ (rest.filterMap g').length := by
      rw [hlength, hlength]
      cases h : (g i).isSome with
      | false =>
        have hnone : (g' i).isSome = false := by
          cases h' : (g' i).isSome with
          | false => rfl
          | true =>
            rw [hhead h'] at h
            exact absurd h (by simp)
        rw [h, hnone] at hle
        simpa using hle
      | true =>
        rw [h] at hle
        cases h' : (g' i).isSome with
        | false =>
          rw [h'] at hle
          simp at hle
          omega
        | true =>
          rw [h'] at hle
          simpa using hle
    intro j hj hsome
    rcases List.mem_cons.1 hj with rfl | hj
    · by_contra hne
      have hfalse : (g' j).isSome = false := by simpa using hne
      rw [hsome, hfalse] at hle
      simp at hle
      omega
    · exact ih (fun k hk => hsub k (List.mem_cons_of_mem _ hk)) hrest j hj hsome

/-- **The counting argument**: when everyone with a `g'` has a `g`, and there are no more `g` than
`g'`, everyone with a `g` has a `g'`. -/
theorem isSome_of_length_gather_le {g g' : α → Option β} {phase : ι → α}
    (hsub : ∀ i, (g' (phase i)).isSome → (g (phase i)).isSome)
    (hle : (gather g phase).length ≤ (gather g' phase).length) (i : ι)
    (hi : (g (phase i)).isSome) : (g' (phase i)).isSome :=
  isSome_of_length_filterMap_le (fun j _ => hsub j) hle i
    (Finset.mem_toList.2 (Finset.mem_univ i)) hi

/-! ## Counting threads -/

/-- The number of threads whose state has a property. -/
def countThreads (p : α → Bool) (phase : ι → α) : ℕ :=
  (Finset.univ.filter fun i => p (phase i) = true).card

/-- Nobody has the property exactly when their number is `0`. -/
lemma countThreads_eq_zero {p : α → Bool} {phase : ι → α} :
    countThreads p phase = 0 ↔ ∀ i, p (phase i) = false := by
  simp [countThreads, Finset.card_eq_zero, Finset.filter_eq_empty_iff]

/-- **A step of one thread**: the others are counted as before. -/
lemma countThreads_update [DecidableEq ι] (p : α → Bool) (phase : ι → α) (i : ι) (x : α) :
    countThreads p (Function.update phase i x) + (p (phase i)).toNat =
      countThreads p phase + (p x).toNat := by
  have hsplit : ∀ f : ι → α, countThreads p f =
      ((Finset.univ.erase i).filter fun j => p (f j) = true).card + (p (f i)).toNat := by
    intro f
    unfold countThreads
    conv_lhs => rw [← Finset.insert_erase (Finset.mem_univ i), Finset.filter_insert]
    cases hi : p (f i) with
    | false => simp
    | true => simp
  have hothers : ((Finset.univ.erase i).filter fun j => p (Function.update phase i x j) = true) =
      (Finset.univ.erase i).filter fun j => p (phase j) = true := by
    apply Finset.filter_congr
    intro j hj
    rw [Function.update_of_ne (Finset.ne_of_mem_erase hj)]
  rw [hsplit (Function.update phase i x), hsplit phase, hothers, Function.update_self]
  omega

end OsSimulator
