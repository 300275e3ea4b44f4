import Mathlib.Data.List.Basic
import Mathlib.Data.List.Nodup
import Mathlib.Data.List.Perm.Basic

set_option relaxedAutoImplicit false
set_option autoImplicit false

/-!
# Records with a key

A table is a list of records with pairwise different keys. A record is looked up and modified by
its key. What a whole table contributes to some list (`flatMap`) is the contribution of one record
and that of the others, before and after that record is modified, so an account of all records
changes by one record's part.

## Main definitions

* `lookupKey key k l`, `modifyKey key k f l` — the record with key `k`, and the table with it
  changed.

## Main results

* `lookupKey_modifyKey_self`, `lookupKey_modifyKey_of_ne` — a lookup after a change.
* `exists_flatMap_modifyKey` — the account of a table before and after a change of one record.
-/

namespace OsSimulator

universe u v w

variable {α : Type u} {κ : Type v} {β : Type w} [DecidableEq κ] (key : α → κ)

/-- The first record with key `k`. -/
def lookupKey (k : κ) (l : List α) : Option α := l.find? fun x => key x = k

/-- The table with `f` applied to the record with key `k`. -/
def modifyKey (k : κ) (f : α → α) (l : List α) : List α :=
  l.map fun x => if key x = k then f x else x

variable {key} {k : κ} {f : α → α} {l : List α} {x : α}

/-- A record that is found has the key and is in the table. -/
lemma lookupKey_eq_some (h : lookupKey key k l = some x) : key x = k ∧ x ∈ l := by
  refine ⟨?_, List.mem_of_find?_eq_some h⟩
  have := List.find?_some h
  simpa using this

/-- In a table with different keys every record is found by its key. -/
lemma lookupKey_of_mem (hl : (l.map key).Nodup) (hx : x ∈ l) : lookupKey key (key x) l = some x := by
  induction l with
  | nil => simp at hx
  | cons y ys ih =>
    rw [List.map_cons, List.nodup_cons] at hl
    by_cases hy : key y = key x
    · rcases List.mem_cons.1 hx with rfl | hmem
      · simp [lookupKey]
      · exact absurd (hy ▸ List.mem_map_of_mem hmem) hl.1
    · rcases List.mem_cons.1 hx with rfl | hmem
      · exact absurd rfl hy
      · simpa [lookupKey, hy] using ih hl.2 hmem

/-- A key that is not found is not in the table. -/
lemma lookupKey_eq_none : lookupKey key k l = none ↔ k ∉ l.map key := by
  simp [lookupKey, List.find?_eq_none]

/-- A change that keeps the key keeps all keys. -/
lemma map_key_modifyKey (hf : ∀ x, key x = k → key (f x) = k) :
    (modifyKey key k f l).map key = l.map key := by
  rw [modifyKey, List.map_map]
  refine List.map_congr_left fun x _ => ?_
  simp only [Function.comp_apply]
  split
  · rename_i h
    rw [hf x h, h]
  · rfl

/-- The changed record is found under its key. -/
lemma lookupKey_modifyKey_self (hf : ∀ x, key x = k → key (f x) = k) :
    lookupKey key k (modifyKey key k f l) = (lookupKey key k l).map f := by
  induction l with
  | nil => rfl
  | cons y ys ih =>
    by_cases hy : key y = k
    · simp [lookupKey, modifyKey, hy, hf y hy]
    · simpa [lookupKey, modifyKey, hy] using ih

/-- The other records are found as before. -/
lemma lookupKey_modifyKey_of_ne (hf : ∀ x, key x = k → key (f x) = k) {k' : κ} (hk : k' ≠ k) :
    lookupKey key k' (modifyKey key k f l) = lookupKey key k' l := by
  induction l with
  | nil => rfl
  | cons y ys ih =>
    by_cases hy : key y = k
    · have hne : ¬ k = k' := fun h => hk h.symm
      simpa [lookupKey, modifyKey, hy, hf y hy, hne] using ih
    · by_cases hy' : key y = k'
      · subst hy'
        simp [lookupKey, modifyKey, hk]
      · simpa [lookupKey, modifyKey, hy, hy'] using ih

/-- Two changes of one record are one change. -/
lemma modifyKey_modifyKey (hf : ∀ x, key x = k → key (f x) = k) (g : α → α) (l : List α) :
    modifyKey key k g (modifyKey key k f l) = modifyKey key k (fun x => g (f x)) l := by
  rw [modifyKey, modifyKey, List.map_map]
  refine List.map_congr_left fun x _ => ?_
  simp only [Function.comp_apply]
  by_cases hx : key x = k
  · rw [if_pos hx, if_pos (hf x hx), if_pos hx]
  · rw [if_neg hx, if_neg hx, if_neg hx]

/-- A change that changes nothing. -/
lemma modifyKey_id (k : κ) (l : List α) : modifyKey key k id l = l := by
  simp [modifyKey]

/-- A change of a record that is not there. -/
lemma modifyKey_of_not_mem (f : α → α) (h : ∀ x ∈ l, key x ≠ k) : modifyKey key k f l = l := by
  rw [modifyKey]
  conv_rhs => rw [← List.map_id l]
  apply List.map_congr_left
  intro x hx
  rw [if_neg (h x hx), id]

/-- A record of the changed table is an unchanged one with another key, or the changed one. -/
lemma mem_modifyKey {y : α} (h : y ∈ modifyKey key k f l) :
    (key y ≠ k ∧ y ∈ l) ∨ ∃ x ∈ l, key x = k ∧ y = f x := by
  obtain ⟨x, hx, rfl⟩ := List.mem_map.1 h
  by_cases hk : key x = k
  · exact .inr ⟨x, hx, hk, if_pos hk⟩
  · rw [if_neg hk]
    exact .inl ⟨hk, hx⟩

/-- A table around one of its records. -/
lemma exists_split_of_lookupKey (hl : (l.map key).Nodup) (hx : lookupKey key k l = some x) :
    ∃ before after, l = before ++ x :: after ∧
      (∀ y ∈ before ++ after, key y ≠ k) ∧
      ∀ f : α → α, modifyKey key k f l = before ++ f x :: after := by
  obtain ⟨hk, hmem⟩ := lookupKey_eq_some hx
  obtain ⟨before, after, rfl⟩ := List.append_of_mem hmem
  have hothers : ∀ y ∈ before ++ after, key y ≠ k := by
    rw [List.map_append, List.map_cons, List.nodup_middle, List.nodup_cons, ← List.map_append] at hl
    intro y hy hyk
    exact hl.1 (by rw [hk, ← hyk]; exact List.mem_map_of_mem hy)
  refine ⟨before, after, rfl, hothers, fun f => ?_⟩
  have hbefore := modifyKey_of_not_mem f fun y hy => hothers y (List.mem_append_left _ hy)
  have hafter := modifyKey_of_not_mem f fun y hy => hothers y (List.mem_append_right _ hy)
  rw [modifyKey] at hbefore hafter
  rw [modifyKey, List.map_append, List.map_cons, if_pos hk, hbefore, hafter]

/-- **The account of a table**: before and after a change of the record with key `k` it is that
record's part and the same rest, provided the other records count the same in both accounts. -/
theorem exists_flatMap_modifyKey {ι : Type*} (hl : (l.map key).Nodup)
    (hx : lookupKey key k l = some x) (f : α → α) {g g' : ι → α → List β}
    (hg : ∀ y ∈ l, key y ≠ k → ∀ i, g' i y = g i y) :
    ∃ rest : ι → List β, ∀ i,
      (l.flatMap (g i)).Perm (g i x ++ rest i) ∧
      ((modifyKey key k f l).flatMap (g' i)).Perm (g' i (f x) ++ rest i) := by
  obtain ⟨before, after, hsplit, hothers, hmodify⟩ := exists_split_of_lookupKey hl hx
  refine ⟨fun i => before.flatMap (g i) ++ after.flatMap (g i), fun i => ⟨?_, ?_⟩⟩
  · rw [hsplit, List.flatMap_append, List.flatMap_cons]
    exact List.perm_append_comm_assoc _ _ _
  · have hsame : ∀ part : List α, (∀ y ∈ part, y ∈ l ∧ key y ≠ k) →
        part.flatMap (g' i) = part.flatMap (g i) := by
      intro part hpart
      refine List.flatMap_congr fun y hy => ?_
      exact hg y (hpart y hy).1 (hpart y hy).2 i
    rw [hmodify, List.flatMap_append, List.flatMap_cons,
      hsame before fun y hy => ⟨by simp [hsplit, hy], hothers y (List.mem_append_left _ hy)⟩,
      hsame after fun y hy => ⟨by simp [hsplit, hy], hothers y (List.mem_append_right _ hy)⟩]
    exact List.perm_append_comm_assoc _ _ _

end OsSimulator
