import Mathlib.Data.List.Basic

set_option relaxedAutoImplicit false
set_option autoImplicit false

/-!
# Reading and overwriting a stretch of a list

A store of cells is a list; a read takes a stretch of it and a write replaces a stretch by one
of the same length. The lemmas say how the two compose: what a write leaves alone, what a read
after a write returns, and how both split at a boundary of the store or of the data.

## Main definitions

* `slice l a n` — the `n` cells from position `a`.
* `splice l a bs` — `l` with the cells from position `a` replaced by `bs`.

## Main results

* `getElem?_splice` — a cell after a write.
* `slice_splice_self`, `slice_splice_of_disjoint` — a read after a write.
* `slice_add`, `splice_append_data` — a read and a write in two parts.
-/

namespace OsSimulator

universe u

variable {α : Type u}

/-- The `n` cells of `l` from position `a`, fewer where `l` ends before. -/
def slice (l : List α) (a n : ℕ) : List α := (l.drop a).take n

/-- The list `l` with the cells from position `a` on replaced by `bs`. -/
def splice (l : List α) (a : ℕ) (bs : List α) : List α :=
  l.take a ++ bs ++ l.drop (a + bs.length)

/-! ## Reads -/

/-- A stretch of no cells. -/
@[simp] lemma slice_zero (l : List α) (a : ℕ) : slice l a 0 = [] := by
  simp [slice]

/-- The length of a stretch that lies in the store. -/
lemma length_slice {l : List α} {a n : ℕ} (h : a + n ≤ l.length) : (slice l a n).length = n := by
  simp only [slice, List.length_take, List.length_drop]
  omega

/-- A cell of a stretch is a cell of the store. -/
lemma getElem?_slice (l : List α) (a n i : ℕ) :
    (slice l a n)[i]? = if i < n then l[a + i]? else none := by
  simp only [slice, List.getElem?_take, List.getElem?_drop]

/-- A stretch read in two parts. -/
lemma slice_add (l : List α) (a m n : ℕ) :
    slice l a (m + n) = slice l a m ++ slice l (a + m) n := by
  simp only [slice, List.take_add, List.drop_drop]

/-- A stretch of a stretch. -/
lemma slice_slice (l : List α) (a n i k : ℕ) :
    slice (slice l a n) i k = slice l (a + i) (min (n - i) k) := by
  refine List.ext_getElem? fun j => ?_
  simp only [getElem?_slice]
  by_cases hj : j < min (n - i) k
  · rw [if_pos (by omega), if_pos (by omega), if_pos hj, Nat.add_assoc]
  · rw [if_neg hj]
    by_cases hk : j < k
    · rw [if_pos hk, if_neg (by omega)]
    · rw [if_neg hk]

/-- A stretch that lies behind the first part of the store. -/
lemma slice_append_right (l m : List α) (a n : ℕ) :
    slice (l ++ m) (l.length + a) n = slice m a n := by
  rw [slice, slice, List.drop_length_add_append]

/-- A stretch that lies in the first part of the store. -/
lemma slice_append_left {l : List α} (m : List α) {a n : ℕ} (h : a + n ≤ l.length) :
    slice (l ++ m) a n = slice l a n := by
  rw [slice, slice, List.drop_append_of_le_length (by omega), List.take_append_of_le_length]
  simp only [List.length_drop]
  omega

/-- Two stores that agree on a stretch of cells give the same read. -/
lemma slice_congr {l m : List α} {a n : ℕ} (h : ∀ i, a ≤ i → i < a + n → l[i]? = m[i]?) :
    slice l a n = slice m a n := by
  refine List.ext_getElem? fun i => ?_
  rw [getElem?_slice, getElem?_slice]
  split
  · exact h _ (by omega) (by omega)
  · rfl

/-! ## Writes -/

/-- Nothing is written. -/
@[simp] lemma splice_nil (l : List α) (a : ℕ) : splice l a [] = l := by
  simp [splice]

/-- A write inside the store keeps its length. -/
@[simp] lemma length_splice {l bs : List α} {a : ℕ} (h : a + bs.length ≤ l.length) :
    (splice l a bs).length = l.length := by
  simp only [splice, List.length_append, List.length_take, List.length_drop]
  omega

/-- A cell after a write: the written one inside the stretch, the old one outside. -/
lemma getElem?_splice {l bs : List α} {a : ℕ} (h : a + bs.length ≤ l.length) (i : ℕ) :
    (splice l a bs)[i]? =
      if a ≤ i ∧ i < a + bs.length then bs[i - a]? else l[i]? := by
  have hlen : (l.take a).length = a := by
    rw [List.length_take]
    omega
  rw [splice, List.append_assoc]
  by_cases h₁ : i < a
  · rw [List.getElem?_append_left (by omega), List.getElem?_take_of_lt h₁, if_neg (by omega)]
  · rw [List.getElem?_append_right (by omega), hlen]
    by_cases h₂ : i < a + bs.length
    · rw [List.getElem?_append_left (by omega), if_pos ⟨by omega, h₂⟩]
    · rw [List.getElem?_append_right (by omega), List.getElem?_drop, if_neg (by omega)]
      congr 1
      omega

/-- What was written is what is read back. -/
lemma slice_splice_self {l bs : List α} {a : ℕ} (h : a + bs.length ≤ l.length) :
    slice (splice l a bs) a bs.length = bs := by
  refine List.ext_getElem? fun i => ?_
  rw [getElem?_slice, getElem?_splice h]
  by_cases hi : i < bs.length
  · rw [if_pos hi, if_pos (by omega)]
    congr 1
    omega
  · rw [if_neg hi, List.getElem?_eq_none (by omega)]

/-- A write leaves every stretch it does not meet as it was. -/
lemma slice_splice_of_disjoint {l bs : List α} {a b n : ℕ} (h : a + bs.length ≤ l.length)
    (hd : b + n ≤ a ∨ a + bs.length ≤ b) : slice (splice l a bs) b n = slice l b n := by
  refine slice_congr fun i h₁ h₂ => ?_
  rw [getElem?_splice h, if_neg (by omega)]

/-- A write to the second part of the store. -/
lemma splice_append_right (l m bs : List α) (a : ℕ) :
    splice (l ++ m) (l.length + a) bs = l ++ splice m a bs := by
  rw [splice, splice, List.take_length_add_append, Nat.add_assoc, List.drop_length_add_append]
  simp only [List.append_assoc]

/-- A write to the first part of the store. -/
lemma splice_append_left {l bs : List α} (m : List α) {a : ℕ} (h : a + bs.length ≤ l.length) :
    splice (l ++ m) a bs = splice l a bs ++ m := by
  rw [splice, splice, List.take_append_of_le_length (by omega),
    List.drop_append_of_le_length h]
  simp only [List.append_assoc]

/-- Data in two parts is written part after part. -/
lemma splice_append_data {l bs cs : List α} {a : ℕ} (h : a + (bs.length + cs.length) ≤ l.length) :
    splice l a (bs ++ cs) = splice (splice l a bs) (a + bs.length) cs := by
  refine List.ext_getElem? fun i => ?_
  rw [getElem?_splice (by simpa using h),
    getElem?_splice (by rw [length_splice (by omega)]; omega), getElem?_splice (by omega)]
  simp only [List.length_append]
  by_cases h₁ : a + bs.length ≤ i ∧ i < a + bs.length + cs.length
  · rw [if_pos (by omega), if_pos h₁, List.getElem?_append_right (by omega)]
    congr 1
    omega
  · rw [if_neg h₁]
    by_cases h₂ : a ≤ i ∧ i < a + bs.length
    · rw [if_pos (by omega), if_pos h₂, List.getElem?_append_left (by omega)]
    · rw [if_neg (by omega), if_neg h₂]

end OsSimulator
