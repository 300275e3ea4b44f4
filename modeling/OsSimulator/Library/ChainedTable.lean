import OsSimulator.Library.KeyedList

set_option relaxedAutoImplicit false
set_option autoImplicit false

/-!
# Tables of chains

A hash table with chaining, over any records, any keys and any function that gives a key its bucket.
Every record is in the chain of its bucket and no key occurs twice, so the table is the table of its
records one after the other: a lookup in one chain is a lookup among all records.

## Main definitions

* `Chained key bucket table` — the representation invariant.

## Main results

* `Chained.lookupKey_chain` — the lookup in a chain.
* `Chained.cons`, `Chained.modifyKey` — a new record and a changed one keep the invariant.
* `Chained.lookupKey_cons`, `Chained.flatten_modifyKey` — and what they do to all records.
-/

namespace OsSimulator

universe u v

variable {α : Type u} {κ : Type v} [DecidableEq κ]

/-- **The representation invariant of a table of chains**: there is a chain for every bucket, a
record is in the chain of its bucket, and no two records have the same key. -/
structure Chained (key : α → κ) (bucket : κ → ℕ) (table : List (List α)) : Prop where
  inRange : ∀ k, bucket k < table.length
  placed : ∀ i chain, table[i]? = some chain → ∀ x ∈ chain, bucket (key x) = i
  nodup : (table.flatten.map key).Nodup

namespace Chained

variable {key : α → κ} {bucket : κ → ℕ} {table : List (List α)}

omit [DecidableEq κ] in
/-- The table around the bucket of a key: the other buckets do not have it. -/
lemma exists_split (h : Chained key bucket table) (k : κ) :
    ∃ before chain after, table = before ++ chain :: after ∧ before.length = bucket k ∧
      ∀ x ∈ before.flatten ++ after.flatten, key x ≠ k := by
  have hlt := h.inRange k
  refine ⟨table.take (bucket k), table[bucket k], table.drop (bucket k + 1), ?_, ?_, ?_⟩
  · rw [List.getElem_cons_drop, List.take_append_drop]
  · rw [List.length_take]
    omega
  · rintro x hx rfl
    rcases List.mem_append.1 hx with hbefore | hafter
    · obtain ⟨chain, hchain, hmem⟩ := List.mem_flatten.1 hbefore
      obtain ⟨i, hi⟩ := List.mem_iff_getElem?.1 hchain
      have hilt : i < bucket (key x) := by
        have := (List.getElem?_eq_some_iff.1 hi).1
        rw [List.length_take] at this
        omega
      rw [List.getElem?_take_of_lt hilt] at hi
      have hplaced := h.placed i chain hi x hmem
      omega
    · obtain ⟨chain, hchain, hmem⟩ := List.mem_flatten.1 hafter
      obtain ⟨i, hi⟩ := List.mem_iff_getElem?.1 hchain
      rw [List.getElem?_drop] at hi
      have hplaced := h.placed _ chain hi x hmem
      omega

omit [DecidableEq κ] in
/-- The change of one chain of a table. -/
lemma modify_append_cons (before after : List (List α)) (chain : List α) (f : List α → List α) :
    (before ++ chain :: after).modify before.length f = before ++ f chain :: after := by
  induction before with
  | nil => rfl
  | cons first before ih =>
    rw [List.cons_append, List.length_cons, List.modify_succ_cons, ih, List.cons_append]

omit [DecidableEq κ] in
/-- Two changes that do the same to a chain. -/
lemma modify_congr {i : ℕ} {f g : List α → List α}
    (hfg : ∀ chain, table[i]? = some chain → f chain = g chain) :
    table.modify i f = table.modify i g := by
  apply List.ext_getElem?
  intro j
  rw [List.getElem?_modify, List.getElem?_modify]
  by_cases hij : i = j
  · subst hij
    cases hchain : table[i]? with
    | none => rfl
    | some chain => simp [hfg chain hchain]
  · simp [hij]

/-- **The lookup in a chain** is the lookup in the table. -/
lemma lookupKey_chain (h : Chained key bucket table) (k : κ) :
    table[bucket k]?.bind (lookupKey key k) = lookupKey key k table.flatten := by
  obtain ⟨before, chain, after, rfl, hlength, hothers⟩ := h.exists_split k
  have hnone : ∀ part : List α, (∀ x ∈ part, key x ≠ k) → lookupKey key k part = none := by
    intro part hpart
    rw [lookupKey_eq_none, List.mem_map]
    rintro ⟨x, hx, hkey⟩
    exact hpart x hx hkey
  have hbefore := hnone before.flatten fun x hx => hothers x (List.mem_append_left _ hx)
  have hafter := hnone after.flatten fun x hx => hothers x (List.mem_append_right _ hx)
  rw [← hlength, List.getElem?_append_right (Nat.le_refl _), Nat.sub_self, List.getElem?_cons_zero,
    Option.bind_some]
  rw [lookupKey] at hbefore hafter
  rw [lookupKey, lookupKey, List.flatten_append, List.flatten_cons, List.find?_append, hbefore,
    List.find?_append, hafter, Option.none_or, Option.or_none]

omit [DecidableEq κ] in
/-- The records of a table with a new one. -/
lemma perm_flatten_cons (h : Chained key bucket table) (x : α) :
    ((table.modify (bucket (key x)) (x :: ·)).flatten).Perm (x :: table.flatten) := by
  obtain ⟨before, chain, after, rfl, hlength, -⟩ := h.exists_split (key x)
  rw [← hlength, modify_append_cons, List.flatten_append, List.flatten_append, List.flatten_cons,
    List.flatten_cons, List.cons_append]
  exact List.perm_middle

omit [DecidableEq κ] in
/-- A record of a changed chain is placed as it was, or is one that the change put there. -/
lemma placed_modify (h : Chained key bucket table) (k : κ) {f : List α → List α}
    (hf : ∀ chain, table[bucket k]? = some chain → ∀ x ∈ f chain, bucket (key x) = bucket k) (i : ℕ)
    (chain : List α) (hchain : (table.modify (bucket k) f)[i]? = some chain) :
    ∀ x ∈ chain, bucket (key x) = i := by
  by_cases hi : bucket k = i
  · subst hi
    rw [List.getElem?_modify_eq] at hchain
    obtain ⟨old, hold, rfl⟩ := Option.map_eq_some_iff.1 hchain
    exact hf old hold
  · rw [List.getElem?_modify_ne _ _ hi] at hchain
    exact h.placed i chain hchain

omit [DecidableEq κ] in
/-- **A new record** with a new key, in front of the chain of its bucket. -/
theorem cons (h : Chained key bucket table) {x : α} (hx : key x ∉ table.flatten.map key) :
    Chained key bucket (table.modify (bucket (key x)) (x :: ·)) where
  inRange k := by
    rw [List.length_modify]
    exact h.inRange k
  placed := by
    refine h.placed_modify (key x) fun chain hchain y hy => ?_
    rcases List.mem_cons.1 hy with rfl | hold
    · rfl
    · exact h.placed _ chain hchain y hold
  nodup := by
    rw [((h.perm_flatten_cons x).map key).nodup_iff, List.map_cons, List.nodup_cons]
    exact ⟨hx, h.nodup⟩

/-- It is found under its key, and the others as before. -/
lemma lookupKey_cons (h : Chained key bucket table) {x : α} (hx : key x ∉ table.flatten.map key)
    (k : κ) : lookupKey key k (table.modify (bucket (key x)) (x :: ·)).flatten =
      if key x = k then some x else lookupKey key k table.flatten := by
  have hnodup := (h.cons hx).nodup
  have hperm := h.perm_flatten_cons x
  have hcons : ((x :: table.flatten).map key).Nodup := (hperm.map key).nodup_iff.1 hnodup
  have hmem : ∀ y, lookupKey key k (table.modify (bucket (key x)) (x :: ·)).flatten = some y ↔
      lookupKey key k (x :: table.flatten) = some y := by
    intro y
    constructor
    · intro hy
      obtain ⟨rfl, hin⟩ := lookupKey_eq_some hy
      exact lookupKey_of_mem hcons (hperm.mem_iff.1 hin)
    · intro hy
      obtain ⟨rfl, hin⟩ := lookupKey_eq_some hy
      exact lookupKey_of_mem hnodup (hperm.mem_iff.2 hin)
  rw [Option.ext hmem, lookupKey, List.find?_cons]
  by_cases hkey : key x = k
  · simp [hkey]
  · simp [hkey, lookupKey]

/-- The records of a table, one of which is changed in its chain. -/
lemma flatten_modifyKey (h : Chained key bucket table) (k : κ) (f : α → α) :
    (table.modify (bucket k) (modifyKey key k f)).flatten = modifyKey key k f table.flatten := by
  obtain ⟨before, chain, after, rfl, hlength, hothers⟩ := h.exists_split k
  have hbefore := modifyKey_of_not_mem f fun x hx => hothers x (List.mem_append_left _ hx)
  have hafter := modifyKey_of_not_mem f fun x hx => hothers x (List.mem_append_right _ hx)
  rw [modifyKey] at hbefore hafter
  rw [← hlength, modify_append_cons, List.flatten_append, List.flatten_append, List.flatten_cons,
    List.flatten_cons, modifyKey, modifyKey, List.map_append, List.map_append, hbefore, hafter]

/-- **A changed record** that keeps its key. -/
theorem modifyKey (h : Chained key bucket table) (k : κ) {f : α → α}
    (hf : ∀ x, key x = k → key (f x) = k) :
    Chained key bucket (table.modify (bucket k) (OsSimulator.modifyKey key k f)) where
  inRange k' := by
    rw [List.length_modify]
    exact h.inRange k'
  placed := by
    refine h.placed_modify k fun chain hchain y hy => ?_
    rcases mem_modifyKey hy with ⟨-, hold⟩ | ⟨x, -, hx, rfl⟩
    · exact h.placed _ chain hchain y hold
    · rw [hf x hx]
  nodup := by
    rw [h.flatten_modifyKey, map_key_modifyKey hf]
    exact h.nodup

end Chained

end OsSimulator
