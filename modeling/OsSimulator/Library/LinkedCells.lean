import Mathlib.Data.List.InsertIdx
import Mathlib.Data.List.Nodup
import Mathlib.Logic.Function.Basic

set_option relaxedAutoImplicit false
set_option autoImplicit false

/-!
# Linked cells in memory

A singly linked list as it lies in memory: a head link and cells with a link each. The place that
holds a link is a slot, and code may keep slots. A cell that is not allocated is not read or
written.

## Main definitions

* `Cells`, `Slot`, `Cells.read`, `Cells.write` — the memory and the access to its links.
* `slotAt cells i` — the slot in front of the element at an index.
* `Linked m cells` — the memory holds exactly these elements at these addresses, in this order.

## Main results

* `Linked.insert` — a new cell in front of an index.
* `Linked.remove` — a cell is taken out and freed.
-/

namespace OsSimulator

universe u

/-- An element with the link to the next cell. -/
structure Cell (α : Type u) where
  data : α
  next : Option ℕ
  deriving DecidableEq, Repr

/-- A place that holds a link: the head of the list, or a cell. -/
inductive Slot
  | head
  | next (address : ℕ)
  deriving DecidableEq, Repr

/-- The head of a list and the allocated cells. -/
structure Cells (α : Type u) where
  head : Option ℕ
  heap : ℕ → Option (Cell α)

namespace Cells

variable {α : Type u}

/-- The link in a slot. -/
def read (slot : Slot) (m : Cells α) : Option (Option ℕ) :=
  match slot with
  | .head => some m.head
  | .next a => (m.heap a).map Cell.next

/-- An assignment to a slot. -/
def write (slot : Slot) (link : Option ℕ) (m : Cells α) : Option (Cells α) :=
  match slot with
  | .head => some { m with head := link }
  | .next a => (m.heap a).map fun cell =>
    { m with heap := Function.update m.heap a (some { cell with next := link }) }

/-- A new cell. -/
def alloc (a : ℕ) (cell : Cell α) (m : Cells α) : Cells α :=
  { m with heap := Function.update m.heap a (some cell) }

/-- A cell is freed. -/
def free (a : ℕ) (m : Cells α) : Cells α := { m with heap := Function.update m.heap a none }

/-- The element in a cell. -/
def data (a : ℕ) (m : Cells α) : Option α := (m.heap a).map Cell.data

variable {m m' : Cells α} {a b : ℕ} {slot slot' : Slot} {link : Option ℕ} {cell : Cell α}

/-- The data after an allocation. -/
lemma data_alloc : (m.alloc a cell).data b = if b = a then some cell.data else m.data b := by
  unfold data alloc
  by_cases h : b = a
  · subst h
    simp
  · simp [h]

/-- The pointers after an allocation. -/
lemma read_alloc :
    (m.alloc a cell).read slot = if slot = .next a then some cell.next else m.read slot := by
  cases slot with
  | head => rfl
  | next b =>
    unfold read alloc
    by_cases h : b = a
    · subst h
      simp
    · simp [h]

/-- The data after a cell is freed. -/
lemma data_free : (m.free a).data b = if b = a then none else m.data b := by
  unfold data free
  by_cases h : b = a
  · subst h
    simp
  · simp [h]

/-- The pointers after a cell is freed. -/
lemma read_free : (m.free a).read slot = if slot = .next a then none else m.read slot := by
  cases slot with
  | head => rfl
  | next b =>
    unfold read free
    by_cases h : b = a
    · subst h
      simp
    · simp [h]

/-- **An assignment to a slot that can be read**: it succeeds, and nothing else changes. -/
lemma exists_write (h : m.read slot ≠ none) (link : Option ℕ) :
    ∃ m', m.write slot link = some m' ∧ (∀ a, m'.data a = m.data a) ∧
      ∀ slot', m'.read slot' = if slot' = slot then some link else m.read slot' := by
  cases slot with
  | head =>
    refine ⟨_, rfl, fun _ => rfl, fun slot' => ?_⟩
    cases slot' <;> simp [read]
  | next a =>
    obtain ⟨cell, hcell⟩ : ∃ cell, m.heap a = some cell := by
      rw [← Option.ne_none_iff_exists']
      intro hnone
      exact h (by simp [read, hnone])
    refine ⟨{ m with heap := Function.update m.heap a (some { cell with next := link }) }, ?_,
      fun b => ?_, fun slot' => ?_⟩
    · simp [write, hcell]
    · unfold data
      by_cases hb : b = a
      · subst hb
        simp [hcell]
      · simp [hb]
    · cases slot' with
      | head => rfl
      | next b =>
        unfold read
        by_cases hb : b = a
        · subst hb
          simp
        · simp [hb]

end Cells

/-! ## The elements of a list -/

section Linked

variable {α : Type u}

/-- The address of the element at an index. -/
def address (cells : List (ℕ × α)) (i : ℕ) : Option ℕ := cells[i]?.map Prod.fst

/-- The slot in front of the element at an index. -/
def slotAt (cells : List (ℕ × α)) : ℕ → Slot
  | 0 => .head
  | i + 1 => match cells[i]? with
    | some cell => .next cell.1
    | none => .head

/-- **The memory holds exactly these elements at these addresses**: every link leads to the next
element, and the last one nowhere; no address occurs twice, and no other cell is allocated. -/
structure Linked (m : Cells α) (cells : List (ℕ × α)) : Prop where
  links : ∀ i ≤ cells.length, m.read (slotAt cells i) = some (address cells i)
  data : ∀ (i a : ℕ) (d : α), cells[i]? = some (a, d) → m.data a = some d
  nodup : (cells.map Prod.fst).Nodup
  owned : ∀ a, m.heap a ≠ none → a ∈ cells.map Prod.fst

variable {m m' : Cells α} {cells : List (ℕ × α)} {i j a : ℕ} {d : α}

/-- The slot behind a cell is its `next`. -/
lemma slotAt_succ (h : cells[i]? = some (a, d)) : slotAt cells (i + 1) = .next a := by
  rw [slotAt, h]

/-- The address of a cell of the list. -/
lemma address_eq (h : cells[i]? = some (a, d)) : address cells i = some a := by
  rw [address, h, Option.map_some]

/-- Behind the list there is none. -/
lemma address_of_length_le (h : cells.length ≤ i) : address cells i = none := by
  rw [address, List.getElem?_eq_none h, Option.map_none]

/-- Every position of the list has a cell. -/
lemma exists_cell (h : i < cells.length) : ∃ a d, cells[i]? = some (a, d) :=
  ⟨cells[i].1, cells[i].2, List.getElem?_eq_getElem h⟩

/-- Behind an element is its own slot. -/
lemma exists_slotAt_succ (h : i < cells.length) :
    ∃ a d, cells[i]? = some (a, d) ∧ slotAt cells (i + 1) = .next a := by
  obtain ⟨a, d, hcell⟩ := exists_cell h
  exact ⟨a, d, hcell, slotAt_succ hcell⟩

namespace Linked

/-- An address belongs to one index. -/
lemma index_inj (h : Linked m cells) {d e : α} (hi : cells[i]? = some (a, d))
    (hj : cells[j]? = some (a, e)) : i = j := by
  have hi' : (cells.map Prod.fst)[i]? = some a := by simp [hi]
  have hj' : (cells.map Prod.fst)[j]? = some a := by simp [hj]
  have hlt := (List.getElem?_eq_some_iff.1 hi').1
  exact (List.getElem?_inj hlt h.nodup).1 (hi'.trans hj'.symm)

/-- A slot belongs to one index. -/
lemma slotAt_inj (h : Linked m cells) (hi : i ≤ cells.length) (hj : j ≤ cells.length)
    (heq : slotAt cells i = slotAt cells j) : i = j := by
  cases i with
  | zero =>
    cases j with
    | zero => rfl
    | succ j =>
      obtain ⟨a, d, -, hslot⟩ := exists_slotAt_succ (i := j) hj
      rw [hslot] at heq
      exact absurd heq (by simp [slotAt])
  | succ i =>
    obtain ⟨a, d, hcell, hslot⟩ := exists_slotAt_succ (i := i) hi
    rw [hslot] at heq
    cases j with
    | zero => exact absurd heq (by simp [slotAt])
    | succ j =>
      obtain ⟨b, e, hcell', hslot'⟩ := exists_slotAt_succ (i := j) hj
      rw [hslot'] at heq
      obtain rfl := Slot.next.inj heq
      rw [h.index_inj hcell hcell']

/-- The slots of a list are those of its cells, so a fresh one is none of them. -/
lemma slotAt_ne (h : Linked m cells) (hfresh : m.heap a = none) (hi : i ≤ cells.length) :
    slotAt cells i ≠ .next a := by
  cases i with
  | zero => simp [slotAt]
  | succ i =>
    obtain ⟨b, d, hcell, hslot⟩ := exists_slotAt_succ (i := i) hi
    rw [hslot]
    intro heq
    obtain rfl := Slot.next.inj heq
    have hdata := h.data i b d hcell
    rw [Cells.data, hfresh] at hdata
    exact absurd hdata (by simp)

/-- A fresh address is none of the list. -/
lemma not_mem (h : Linked m cells) (hfresh : m.heap a = none) : a ∉ cells.map Prod.fst := by
  intro hmem
  obtain ⟨⟨_, d⟩, hcell, rfl⟩ := List.mem_map.1 hmem
  obtain ⟨i, hi⟩ := List.mem_iff_getElem?.1 hcell
  have hdata := h.data i _ d hi
  rw [Cells.data, hfresh] at hdata
  exact absurd hdata (by simp)

end Linked

/-- No cell is allocated. -/
lemma linked_nil : Linked (⟨none, fun _ => none⟩ : Cells α) [] where
  links i hi := by
    obtain rfl : i = 0 := by simpa using hi
    rfl
  data i a d h := absurd h (by simp)
  nodup := List.nodup_nil
  owned a h := absurd rfl h

/-! ## A new element -/

/-- The addresses after an insertion. -/
lemma address_insertIdx (hi : i ≤ cells.length) (k : ℕ) :
    address (cells.insertIdx i (a, d)) k =
      if k < i then address cells k else if k = i then some a else address cells (k - 1) := by
  rw [address, List.getElem?_insertIdx]
  by_cases hlt : k < i
  · rw [if_pos hlt, if_pos hlt, address]
  · rw [if_neg hlt, if_neg hlt]
    by_cases heq : k = i
    · rw [if_pos heq, if_pos heq, if_pos (by omega), Option.map_some]
    · rw [if_neg heq, if_neg heq, address]

/-- The slots after an insertion. -/
lemma slotAt_insertIdx (hi : i ≤ cells.length) (k : ℕ) :
    slotAt (cells.insertIdx i (a, d)) k =
      if k ≤ i then slotAt cells k else if k = i + 1 then .next a else slotAt cells (k - 1) := by
  cases k with
  | zero => rw [if_pos (Nat.zero_le i), slotAt, slotAt]
  | succ k =>
    rw [slotAt, List.getElem?_insertIdx]
    by_cases hlt : k < i
    · rw [if_pos hlt, if_pos (by omega), slotAt]
    · rw [if_neg hlt, if_neg (show ¬ k + 1 ≤ i by omega)]
      by_cases heq : k = i
      · rw [if_pos heq, if_pos (by omega), if_pos (by omega)]
      · obtain ⟨k, rfl⟩ : ∃ n, k = n + 1 := ⟨k - 1, by omega⟩
        rw [if_neg heq, if_neg (show ¬ k + 1 + 1 = i + 1 by omega), Nat.add_sub_cancel,
          Nat.add_sub_cancel, slotAt]

/-- **A new element in front of an index**: a fresh cell with the link of the slot there, which then
leads to the cell. -/
theorem Linked.insert (h : Linked m cells) (hi : i ≤ cells.length) (hfresh : m.heap a = none) :
    ∃ m', (m.alloc a ⟨d, address cells i⟩).write (slotAt cells i) (some a) = some m' ∧
      Linked m' (cells.insertIdx i (a, d)) := by
  have hslot := h.slotAt_ne hfresh hi
  have hread : (m.alloc a ⟨d, address cells i⟩).read (slotAt cells i) ≠ none := by
    rw [Cells.read_alloc, if_neg hslot, h.links i hi]
    simp
  obtain ⟨m', hwrite, hdata, hreads⟩ := Cells.exists_write hread (some a)
  have hlength : (cells.insertIdx i (a, d)).length = cells.length + 1 :=
    List.length_insertIdx_of_le_length hi _
  have hperm : (cells.insertIdx i (a, d)).Perm ((a, d) :: cells) := List.perm_insertIdx _ _ hi
  refine ⟨m', hwrite, fun k hk => ?_, fun k b e hk => ?_, ?_, fun b hb => ?_⟩
  · rw [hlength] at hk
    have hslotAt := slotAt_insertIdx (a := a) (d := d) hi k
    have haddress := address_insertIdx (a := a) (d := d) hi k
    rcases Nat.lt_trichotomy k i with hlt | rfl | hgt
    · have hne : slotAt cells k ≠ slotAt cells i := fun heq =>
        absurd (h.slotAt_inj (by omega) hi heq) (by omega)
      rw [if_pos (by omega)] at hslotAt haddress
      rw [hslotAt, haddress, hreads, Cells.read_alloc, if_neg hne,
        if_neg (h.slotAt_ne hfresh (by omega)), h.links k (by omega)]
    · rw [if_pos (by omega)] at hslotAt
      rw [if_neg (by omega), if_pos rfl] at haddress
      rw [hslotAt, haddress, hreads, if_pos rfl]
    · rw [if_neg (by omega)] at hslotAt
      rw [if_neg (by omega), if_neg (by omega)] at haddress
      by_cases hnext : k = i + 1
      · rw [if_pos hnext] at hslotAt
        rw [hslotAt, haddress, hreads, Cells.read_alloc, if_neg (Ne.symm hslot), if_pos rfl, hnext,
          Nat.add_sub_cancel]
      · have hne : slotAt cells (k - 1) ≠ slotAt cells i := fun heq =>
          absurd (h.slotAt_inj (by omega) hi heq) (by omega)
        rw [if_neg hnext] at hslotAt
        rw [hslotAt, haddress, hreads, Cells.read_alloc, if_neg hne,
          if_neg (h.slotAt_ne hfresh (by omega)), h.links (k - 1) (by omega)]
  · rw [hdata, Cells.data_alloc]
    rcases List.mem_cons.1 (hperm.mem_iff.1 (List.mem_of_getElem? hk)) with heq | hold
    · obtain ⟨rfl, rfl⟩ := Prod.mk.inj heq
      rw [if_pos rfl]
    · have hne : b ≠ a := by
        rintro rfl
        exact h.not_mem hfresh (List.mem_map_of_mem hold)
      obtain ⟨n, hn⟩ := List.mem_iff_getElem?.1 hold
      rw [if_neg hne, h.data n b e hn]
  · rw [(hperm.map Prod.fst).nodup_iff, List.map_cons, List.nodup_cons]
    exact ⟨h.not_mem hfresh, h.nodup⟩
  · rw [(hperm.map Prod.fst).mem_iff, List.map_cons, List.mem_cons]
    by_cases heq : b = a
    · exact .inl heq
    · refine .inr (h.owned b fun hnone => hb ?_)
      have hcell := hdata b
      rw [Cells.data_alloc, if_neg heq, Cells.data, Cells.data, hnone] at hcell
      simpa using hcell

/-! ## An element is taken out -/

/-- The addresses after a removal. -/
lemma address_eraseIdx (k : ℕ) :
    address (cells.eraseIdx i) k = if k < i then address cells k else address cells (k + 1) := by
  rw [address, List.getElem?_eraseIdx]
  split <;> rfl

/-- The slots after a removal. -/
lemma slotAt_eraseIdx (k : ℕ) :
    slotAt (cells.eraseIdx i) k = if k ≤ i then slotAt cells k else slotAt cells (k + 1) := by
  cases k with
  | zero => rw [if_pos (Nat.zero_le i), slotAt, slotAt]
  | succ k =>
    rw [slotAt, List.getElem?_eraseIdx]
    by_cases hlt : k < i
    · rw [if_pos hlt, if_pos (by omega), slotAt]
    · rw [if_neg hlt, if_neg (by omega), slotAt]

/-- **An element is taken out**: the slot in front of it gets its link, and its cell is freed. -/
theorem Linked.remove (h : Linked m cells) (hcell : cells[i]? = some (a, d)) :
    ∃ m', m.write (slotAt cells i) (address cells (i + 1)) = some m' ∧
      Linked (m'.free a) (cells.eraseIdx i) := by
  have hlt : i < cells.length := (List.getElem?_eq_some_iff.1 hcell).1
  have hread : m.read (slotAt cells i) ≠ none := by
    rw [h.links i (by omega)]
    simp
  obtain ⟨m', hwrite, hdata, hreads⟩ := Cells.exists_write hread (address cells (i + 1))
  have hlength : (cells.eraseIdx i).length = cells.length - 1 := List.length_eraseIdx_of_lt hlt
  have hself := slotAt_succ hcell
  refine ⟨m', hwrite, fun k hk => ?_, fun k b e hk => ?_, ?_, fun b hb => ?_⟩
  · have hother : ∀ n ≤ cells.length, n ≠ i + 1 → slotAt cells n ≠ .next a := by
      intro n hn hne heq
      rw [← hself] at heq
      exact hne (h.slotAt_inj hn (by omega) heq)
    have hslotAt : slotAt (cells.eraseIdx i) k = _ := slotAt_eraseIdx k
    have haddress : address (cells.eraseIdx i) k = _ := address_eraseIdx k
    rcases Nat.lt_trichotomy k i with hki | rfl | hki
    · have hne : slotAt cells k ≠ slotAt cells i := fun heq =>
        absurd (h.slotAt_inj (by omega) (by omega) heq) (by omega)
      rw [if_pos (by omega)] at hslotAt haddress
      rw [hslotAt, haddress, Cells.read_free, hreads, if_neg (hother k (by omega) (by omega)),
        if_neg hne, h.links k (by omega)]
    · rw [if_pos (by omega)] at hslotAt
      rw [if_neg (by omega)] at haddress
      rw [hslotAt, haddress, Cells.read_free, hreads, if_neg (hother k (by omega) (by omega)),
        if_pos rfl]
    · have hne : slotAt cells (k + 1) ≠ slotAt cells i := fun heq =>
        absurd (h.slotAt_inj (by omega) (by omega) heq) (by omega)
      rw [if_neg (by omega)] at hslotAt haddress
      rw [hslotAt, haddress, Cells.read_free, hreads,
        if_neg (hother (k + 1) (by omega) (by omega)), if_neg hne, h.links (k + 1) (by omega)]
  · have hne : b ≠ a := by
      rintro rfl
      rw [List.getElem?_eraseIdx] at hk
      split at hk
      · exact absurd (h.index_inj hk hcell) (by omega)
      · exact absurd (h.index_inj hk hcell) (by omega)
    obtain ⟨n, hn⟩ := List.mem_iff_getElem?.1 (List.mem_of_mem_eraseIdx (List.mem_of_getElem? hk))
    rw [Cells.data_free, if_neg hne, hdata, h.data n b e hn]
  · exact h.nodup.sublist ((List.eraseIdx_sublist _ _).map _)
  · have hne : b ≠ a := by
      rintro rfl
      exact hb (by simp [Cells.free])
    have hold : m.heap b ≠ none := by
      intro hnone
      have hcell' := hdata b
      simp only [Cells.data, hnone, Option.map_none, Option.map_eq_none_iff] at hcell'
      exact hb (by simp [Cells.free, hne, hcell'])
    obtain ⟨⟨_, e⟩, hmem, rfl⟩ := List.mem_map.1 (h.owned b hold)
    obtain ⟨n, hn⟩ := List.mem_iff_getElem?.1 hmem
    have hni : n ≠ i := by
      rintro rfl
      rw [hcell] at hn
      exact hne (Prod.mk.inj (Option.some.inj hn)).1.symm
    exact List.mem_map_of_mem (List.mem_eraseIdx_iff_getElem?.2 ⟨n, hni, hn⟩)

end Linked

end OsSimulator
