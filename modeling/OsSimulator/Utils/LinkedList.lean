import Mathlib.Data.Int.Notation
import OsSimulator.Library.LinkedCells
import OsSimulator.Library.Runs
import OsSimulator.Utils.List

set_option relaxedAutoImplicit false
set_option autoImplicit false

/-!
# The linked list in memory

`utils/collections/list.c` on its cells. An iterator keeps two slots: the one in front of the
element it returned last, and the one in front of the next element. `none` is a call that reads a
null pointer or a freed cell.

A sequence with a cursor says what the calls are for. It also counts how often an element has been
returned since the iterator was created.

## Main definitions

* `LinkedList`, `ListIterator`, `ListState.call` — the code.
* `SequenceState`, `SequenceState.call` — the sequence.
* `SequenceState.Orderly` — the calls that keep to the cursor.
* `ListState.Refines` — the cells denote the sequence, and the slots the cursor.

## Main results

* `ListState.refines_call` — an orderly call does the same to both.
* `ListState.refines_of_run` — the list is the sequence in every run of orderly calls.
-/

namespace OsSimulator

universe u

variable {α : Type u}

/-! ## The code -/

/-- `t_list`: the head link is part of the memory. -/
structure LinkedList (α : Type u) where
  cells : Cells α
  elementsCount : ℤ

/-- `t_list_iterator`. -/
structure ListIterator where
  current : Slot
  next : Slot
  index : ℤ
  deriving DecidableEq, Repr

namespace LinkedList

/-- `list_create`. -/
def create : LinkedList α := ⟨⟨none, fun _ => none⟩, 0⟩

/-- The loop of `list_get_slot`. -/
def getSlot : ℕ → Slot → Cells α → Option Slot
  | 0, slot, _ => some slot
  | n + 1, slot, m => (m.read slot).bind fun link =>
    match link with
    | none => some slot
    | some a => getSlot n (.next a) m

/-- The loop of `list_add_sorted`, which has a round for every element at most. -/
def sortedSlot (comparator : α → α → Bool) (data : α) :
    ℕ → Slot → ℤ → Cells α → Option (Slot × ℤ)
  | 0, _, _, _ => none
  | rounds + 1, slot, index, m => (m.read slot).bind fun link =>
    match link with
    | none => some (slot, index)
    | some a => (m.data a).bind fun other =>
      if comparator data other then some (slot, index)
      else sortedSlot comparator data rounds (.next a) (index + 1) m

/-- The loop of `list_remove_element`. -/
def elementSlot [DecidableEq α] (element : α) : ℕ → Slot → Cells α → Option (Option Slot)
  | 0, _, _ => none
  | rounds + 1, slot, m => (m.read slot).bind fun link =>
    match link with
    | none => some none
    | some a => (m.data a).bind fun data =>
      if data = element then some (some slot) else elementSlot element rounds (.next a) m

/-- `*slot = removed->next` and `free(removed)` for `removed = *slot`, with the element it has. -/
def unlink (slot : Slot) (m : Cells α) : Option (α × Cells α) :=
  (m.read slot).bind fun link => link.bind fun removed => (m.heap removed).bind fun cell =>
    (m.write slot cell.next).map fun m => (cell.data, m.free removed)

/-- `list_add`, with the address of the new cell. -/
def add (data : α) (a : ℕ) (self : LinkedList α) : Option (ℤ × LinkedList α) :=
  (getSlot self.elementsCount.toNat .head self.cells).bind fun slot =>
    ((self.cells.alloc a ⟨data, none⟩).write slot (some a)).map fun m =>
      (self.elementsCount, ⟨m, self.elementsCount + 1⟩)

/-- `list_add_sorted`. -/
def addSorted (comparator : α → α → Bool) (data : α) (a : ℕ) (self : LinkedList α) :
    Option (ℤ × LinkedList α) :=
  (sortedSlot comparator data (self.elementsCount.toNat + 1) .head 0 self.cells).bind fun found =>
    (self.cells.read found.1).bind fun link =>
      ((self.cells.alloc a ⟨data, link⟩).write found.1 (some a)).map fun m =>
        (found.2, ⟨m, self.elementsCount + 1⟩)

/-- `list_get`. -/
def get (index : ℤ) (self : LinkedList α) : Option (Option α) :=
  if index < 0 ∨ self.elementsCount ≤ index then some none
  else (getSlot index.toNat .head self.cells).bind fun slot =>
    (self.cells.read slot).bind fun link => link.bind fun a => (self.cells.data a).map some

/-- `list_remove`. -/
def remove (index : ℤ) (self : LinkedList α) : Option (Option α × LinkedList α) :=
  if index < 0 ∨ self.elementsCount ≤ index then some (none, self)
  else (getSlot index.toNat .head self.cells).bind fun slot =>
    (unlink slot self.cells).map fun removed =>
      (some removed.1, ⟨removed.2, self.elementsCount - 1⟩)

/-- `list_remove_element`. -/
def removeElement [DecidableEq α] (element : α) (self : LinkedList α) :
    Option (Bool × LinkedList α) :=
  (elementSlot element (self.elementsCount.toNat + 1) .head self.cells).bind fun found =>
    match found with
    | none => some (false, self)
    | some slot => (unlink slot self.cells).map fun removed =>
      (true, ⟨removed.2, self.elementsCount - 1⟩)

end LinkedList

namespace ListIterator

/-- `list_iterator_create`. -/
def create : ListIterator := ⟨.head, .head, -1⟩

/-- `list_iterator_has_next`. -/
def hasNext (list : LinkedList α) (iterator : ListIterator) : Option Bool :=
  (list.cells.read iterator.next).map Option.isSome

/-- `list_iterator_next`, with what `*iterator->current` points to. -/
def advance (list : LinkedList α) (iterator : ListIterator) : Option (α × ListIterator) :=
  (list.cells.read iterator.next).bind fun link => link.bind fun a =>
    (list.cells.data a).map fun data =>
      (data, ⟨iterator.next, .next a, iterator.index + 1⟩)

/-- `list_iterator_remove`. -/
def remove (list : LinkedList α) (iterator : ListIterator) :
    Option (LinkedList α × ListIterator) :=
  (LinkedList.unlink iterator.current list.cells).map fun removed =>
    (⟨removed.2, list.elementsCount - 1⟩,
      ⟨iterator.current, iterator.current, iterator.index - 1⟩)

end ListIterator

/-- The calls. `malloc` gives the address of a new cell. -/
inductive ListCall (α : Type u)
  | add (data : α) (a : ℕ)
  | addSorted (comparator : α → α → Bool) (data : α) (a : ℕ)
  | get (index : ℤ)
  | remove (index : ℤ)
  | removeElement (element : α)
  | iteratorCreate
  | iteratorHasNext
  | iteratorNext
  | iteratorRemove
  | iteratorDestroy

/-- What a call returns. -/
inductive ListAnswer (α : Type u)
  | index (i : ℤ)
  | data (d : Option α)
  | decided (b : Bool)
  | nothing
  deriving DecidableEq, Repr

/-- A list and an iterator on it. -/
structure ListState (α : Type u) where
  list : LinkedList α
  iterator : Option ListIterator

namespace ListState

/-- `list_create`. -/
def create : ListState α := ⟨.create, none⟩

/-- A call. The functions of an iterator need one. -/
def call [DecidableEq α] (s : ListState α) : ListCall α → Option (ListAnswer α × ListState α)
  | .add data a => (s.list.add data a).map fun r => (.index r.1, { s with list := r.2 })
  | .addSorted comparator data a =>
    (s.list.addSorted comparator data a).map fun r => (.index r.1, { s with list := r.2 })
  | .get index => (s.list.get index).map fun d => (.data d, s)
  | .remove index => (s.list.remove index).map fun r => (.data r.1, { s with list := r.2 })
  | .removeElement element =>
    (s.list.removeElement element).map fun r => (.decided r.1, { s with list := r.2 })
  | .iteratorCreate => some (.nothing, { s with iterator := some .create })
  | .iteratorHasNext => s.iterator.bind fun iterator =>
    (iterator.hasNext s.list).map fun b => (.decided b, s)
  | .iteratorNext => s.iterator.bind fun iterator =>
    (iterator.advance s.list).map fun r => (.data (some r.1), { s with iterator := some r.2 })
  | .iteratorRemove => s.iterator.bind fun iterator =>
    (iterator.remove s.list).map fun r => (.nothing, ⟨r.1, some r.2⟩)
  | .iteratorDestroy => some (.nothing, { s with iterator := none })

end ListState

/-! ## The sequence -/

/-- An element, whether it was there when the iterator was created, and how often the iterator has
returned it. -/
structure ListItem (α : Type u) where
  data : α
  old : Bool
  visits : ℕ
  deriving DecidableEq, Repr

/-- The elements that the iterator has gone past, and whether `list_iterator_remove` would take the
one returned last. -/
structure ListCursor where
  position : ℕ
  removable : Bool
  deriving DecidableEq, Repr

/-- A sequence with a cursor. -/
structure SequenceState (α : Type u) where
  items : List (ListItem α)
  cursor : Option ListCursor
  deriving DecidableEq, Repr

namespace ListItem

/-- An element that is not from before the iteration. -/
def new (data : α) : ListItem α := ⟨data, false, 0⟩

/-- An iteration begins. -/
def begin (item : ListItem α) : ListItem α := ⟨item.data, true, 0⟩

/-- The iterator returns an element. -/
def visit (item : ListItem α) : ListItem α := { item with visits := item.visits + 1 }

end ListItem

namespace ListCursor

/-- An element is added at an index. -/
def inserted (i : ℕ) (c : ListCursor) : ListCursor :=
  if i < c.position then ⟨c.position + 1, c.removable && decide (i + 1 ≠ c.position)⟩ else c

/-- The element at an index is taken out. -/
def removed (i : ℕ) (c : ListCursor) : ListCursor :=
  if i < c.position then ⟨c.position - 1, c.removable && decide (i + 2 ≠ c.position)⟩ else c

end ListCursor

namespace SequenceState

/-- The empty sequence. -/
def empty : SequenceState α := ⟨[], none⟩

/-- The element at an index is taken out. -/
def removeAt (i : ℕ) (q : SequenceState α) : SequenceState α :=
  ⟨q.items.eraseIdx i, q.cursor.map (ListCursor.removed i)⟩

/-- A call on the sequence. -/
def call [DecidableEq α] (q : SequenceState α) : ListCall α → ListAnswer α × SequenceState α
  | .add data _ =>
    (.index q.items.length, ⟨q.items ++ [.new data], q.cursor.map (.inserted q.items.length)⟩)
  | .addSorted comparator data _ =>
    let sorted := listAddSorted (fun x y => comparator x.data y.data) (.new data) q.items
    (.index sorted.1, ⟨sorted.2, q.cursor.map (.inserted sorted.1)⟩)
  | .get index =>
    (.data (if index < 0 then none else q.items[index.toNat]?.map ListItem.data), q)
  | .remove index =>
    if index < 0 ∨ (q.items.length : ℤ) ≤ index then (.data none, q)
    else (.data (q.items[index.toNat]?.map ListItem.data), q.removeAt index.toNat)
  | .removeElement element =>
    if element ∈ q.items.map ListItem.data
    then (.decided true, q.removeAt ((q.items.map ListItem.data).idxOf element))
    else (.decided false, q)
  | .iteratorCreate => (.nothing, ⟨q.items.map ListItem.begin, some ⟨0, false⟩⟩)
  | .iteratorHasNext =>
    (q.cursor.elim .nothing fun c => .decided (decide (c.position < q.items.length)), q)
  | .iteratorNext => match q.cursor with
    | none => (.nothing, q)
    | some c => (.data (q.items[c.position]?.map ListItem.data),
      ⟨q.items.modify c.position ListItem.visit, some ⟨c.position + 1, true⟩⟩)
  | .iteratorRemove => match q.cursor with
    | none => (.nothing, q)
    | some c => (.nothing, ⟨q.items.eraseIdx (c.position - 1), some ⟨c.position - 1, false⟩⟩)
  | .iteratorDestroy => (.nothing, { q with cursor := none })

/-- **The calls that keep to the cursor**: while an iterator exists, `list_remove` and
`list_remove_element` do not take the element it went past last, `list_iterator_next` has an element
to return, and `list_iterator_remove` takes the one that was returned. -/
def Orderly [DecidableEq α] (q : SequenceState α) : ListCall α → Prop
  | .remove index => ∀ c ∈ q.cursor, 0 ≤ index → index + 1 ≠ c.position
  | .removeElement element =>
    ∀ c ∈ q.cursor, (q.items.map ListItem.data).idxOf element + 1 ≠ c.position
  | .iteratorHasNext => q.cursor ≠ none
  | .iteratorNext => ∃ c ∈ q.cursor, c.position < q.items.length
  | .iteratorRemove => ∃ c ∈ q.cursor, c.removable
  | _ => True

instance [DecidableEq α] (q : SequenceState α) (c : ListCall α) : Decidable (q.Orderly c) :=
  match c with
  | .remove index =>
    inferInstanceAs (Decidable (∀ c ∈ q.cursor, 0 ≤ index → index + 1 ≠ c.position))
  | .removeElement element => inferInstanceAs
    (Decidable (∀ c ∈ q.cursor, (q.items.map ListItem.data).idxOf element + 1 ≠ c.position))
  | .iteratorHasNext => inferInstanceAs (Decidable (q.cursor ≠ none))
  | .iteratorNext => inferInstanceAs (Decidable (∃ c ∈ q.cursor, c.position < q.items.length))
  | .iteratorRemove => inferInstanceAs (Decidable (∃ c ∈ q.cursor, c.removable))
  | .add _ _ => isTrue trivial
  | .addSorted _ _ _ => isTrue trivial
  | .get _ => isTrue trivial
  | .iteratorCreate => isTrue trivial
  | .iteratorDestroy => isTrue trivial

end SequenceState

/-! ## Refinement -/

/-- The slots of an iterator on cells, for a cursor. -/
structure CursorAt (cells : List (ℕ × α)) (iterator : ListIterator) (c : ListCursor) : Prop where
  position_le : c.position ≤ cells.length
  next_eq : iterator.next = slotAt cells c.position
  current_eq : c.removable → 0 < c.position ∧ iterator.current = slotAt cells (c.position - 1)

/-- The memory has these cells, which hold the elements of the sequence; the slots of the iterator
are where the cursor is. -/
structure RefinesAt (cells : List (ℕ × α)) (s : ListState α) (q : SequenceState α) : Prop where
  linked : Linked s.list.cells cells
  data : cells.map Prod.snd = q.items.map ListItem.data
  count : s.list.elementsCount = cells.length
  cursor : Option.Rel (CursorAt cells) s.iterator q.cursor

/-- **A list refines a sequence.** -/
def ListState.Refines (s : ListState α) (q : SequenceState α) : Prop :=
  ∃ cells, RefinesAt cells s q

variable {cells : List (ℕ × α)} {s : ListState α} {q : SequenceState α} {m : Cells α} {i a : ℕ}
  {d : α}

/-! ### The loops -/

namespace LinkedList

/-- `list_get_slot` stops in front of the index. -/
lemma getSlot_slotAt (h : Linked m cells) (n : ℕ) (hn : i + n ≤ cells.length) :
    getSlot n (slotAt cells i) m = some (slotAt cells (i + n)) := by
  induction n generalizing i with
  | zero => rfl
  | succ n ih =>
    obtain ⟨a, d, hcell, hslot⟩ := exists_slotAt_succ (show i < cells.length by omega)
    rw [getSlot, h.links i (by omega), address_eq hcell, Option.bind_some]
    change getSlot n (.next a) m = _
    rw [← hslot, ih (by omega), Nat.add_right_comm, Nat.add_assoc]

/-- `list_add_sorted` stops where the sequence does. -/
lemma sortedSlot_slotAt (h : Linked m cells) (comparator : α → α → Bool) (data : α)
    (rest : List (ℕ × α)) (hrest : cells.drop i = rest) (hi : i ≤ cells.length) {rounds : ℕ}
    (hrounds : rest.length < rounds) (index : ℤ) :
    let j := (listAddSorted comparator data (rest.map Prod.snd)).1
    sortedSlot comparator data rounds (slotAt cells i) index m =
      some (slotAt cells (i + j), index + j) := by
  induction rest generalizing i index rounds with
  | nil =>
    obtain ⟨rounds, rfl⟩ : ∃ n, rounds = n + 1 := ⟨rounds - 1, by simp at hrounds; omega⟩
    have hlen : cells.length ≤ i := List.drop_eq_nil_iff.1 hrest
    simp [sortedSlot, h.links i hi, address_of_length_le hlen, listAddSorted]
  | cons cell rest ih =>
    obtain ⟨rounds, rfl⟩ : ∃ n, rounds = n + 1 := ⟨rounds - 1, by simp at hrounds; omega⟩
    have hcell : cells[i]? = some (cell.1, cell.2) := by
      rw [← List.head?_drop, hrest, List.head?_cons]
    have hlt := (List.getElem?_eq_some_iff.1 hcell).1
    have hdrop : cells.drop (i + 1) = rest := by
      rw [← List.drop_drop, hrest, List.drop_succ_cons, List.drop_zero]
    rw [sortedSlot, h.links i hi, address_eq hcell, Option.bind_some]
    change ((m.data cell.1).bind fun other => _) = _
    rw [h.data i cell.1 cell.2 hcell, Option.bind_some, List.map_cons, listAddSorted]
    by_cases hpass : comparator data cell.2
    · rw [if_pos hpass, if_pos hpass]
      simp
    · have hrec := ih hdrop (by omega) (by simpa using hrounds) (index + 1)
      have hindex : ∀ j : ℕ, index + 1 + (j : ℤ) = index + ((j + 1 : ℕ) : ℤ) := by
        intro j
        omega
      rw [if_neg hpass, if_neg hpass, ← slotAt_succ hcell, hrec, hindex, Nat.add_right_comm,
        Nat.add_assoc]

/-- `list_remove_element` stops in front of the first occurrence. -/
lemma elementSlot_slotAt [DecidableEq α] (h : Linked m cells) (element : α)
    (rest : List (ℕ × α)) (hrest : cells.drop i = rest) (hi : i ≤ cells.length) {rounds : ℕ}
    (hrounds : rest.length < rounds) :
    elementSlot element rounds (slotAt cells i) m =
      some (if element ∈ rest.map Prod.snd
        then some (slotAt cells (i + (rest.map Prod.snd).idxOf element)) else none) := by
  induction rest generalizing i rounds with
  | nil =>
    obtain ⟨rounds, rfl⟩ : ∃ n, rounds = n + 1 := ⟨rounds - 1, by simp at hrounds; omega⟩
    have hlen : cells.length ≤ i := List.drop_eq_nil_iff.1 hrest
    simp [elementSlot, h.links i hi, address_of_length_le hlen]
  | cons cell rest ih =>
    obtain ⟨rounds, rfl⟩ : ∃ n, rounds = n + 1 := ⟨rounds - 1, by simp at hrounds; omega⟩
    have hcell : cells[i]? = some (cell.1, cell.2) := by
      rw [← List.head?_drop, hrest, List.head?_cons]
    have hlt := (List.getElem?_eq_some_iff.1 hcell).1
    have hdrop : cells.drop (i + 1) = rest := by
      rw [← List.drop_drop, hrest, List.drop_succ_cons, List.drop_zero]
    rw [elementSlot, h.links i hi, address_eq hcell, Option.bind_some]
    change ((m.data cell.1).bind fun other => _) = _
    rw [h.data i cell.1 cell.2 hcell, Option.bind_some, List.map_cons]
    by_cases heq : cell.2 = element
    · rw [if_pos heq, if_pos (by simp [heq]), heq, List.idxOf_cons_self, Nat.add_zero]
    · rw [if_neg heq, ← slotAt_succ hcell, ih hdrop (by omega) (by simpa using hrounds),
        List.idxOf_cons_ne _ heq]
      have hmem : element ∈ cell.2 :: rest.map Prod.snd ↔ element ∈ rest.map Prod.snd := by
        rw [List.mem_cons, or_iff_right (Ne.symm heq)]
      simp only [hmem, Nat.succ_eq_add_one]
      rw [Nat.add_right_comm, Nat.add_assoc]

/-- **An element is unlinked and freed.** -/
lemma unlink_slotAt (h : Linked m cells) (hcell : cells[i]? = some (a, d)) :
    ∃ m', unlink (slotAt cells i) m = some (d, m') ∧ Linked m' (cells.eraseIdx i) := by
  have hlt := (List.getElem?_eq_some_iff.1 hcell).1
  obtain ⟨m', hwrite, hlinked⟩ := h.remove hcell
  have hnext := h.links (i + 1) hlt
  have hdata := h.data i a d hcell
  rw [slotAt_succ hcell, Cells.read] at hnext
  obtain ⟨cell, hheap, hcellnext⟩ := Option.map_eq_some_iff.1 hnext
  rw [Cells.data, hheap, Option.map_some] at hdata
  refine ⟨m'.free a, ?_, hlinked⟩
  rw [unlink, h.links i (by omega), address_eq hcell, Option.bind_some, Option.bind_some, hheap,
    Option.bind_some, hcellnext, hwrite, Option.map_some, Option.some.inj hdata]

end LinkedList

/-! ### The slots of an iterator -/

namespace CursorAt

variable {iterator : ListIterator} {c : ListCursor}

/-- The slots stay where they are when an element is added: it is added behind the slot of the one
in front. -/
lemma insert (h : CursorAt cells iterator c) (hi : i ≤ cells.length) :
    CursorAt (cells.insertIdx i (a, d)) iterator (c.inserted i) := by
  have hle := h.position_le
  have hlength : (cells.insertIdx i (a, d)).length = cells.length + 1 :=
    List.length_insertIdx_of_le_length hi _
  unfold ListCursor.inserted
  by_cases hlt : i < c.position
  · rw [if_pos hlt]
    refine ⟨by simp only [hlength]; omega, ?_, fun hremovable => ⟨by simp, ?_⟩⟩
    · rw [h.next_eq, slotAt_insertIdx hi, if_neg (by simp; omega), if_neg (by simp; omega),
        Nat.add_sub_cancel]
    · simp only [Bool.and_eq_true, decide_eq_true_eq] at hremovable
      obtain ⟨-, hcurrent⟩ := h.current_eq hremovable.1
      rw [hcurrent, Nat.add_sub_cancel, slotAt_insertIdx hi, if_neg (by omega), if_neg (by omega)]
  · rw [if_neg hlt]
    refine ⟨by omega, ?_, fun hremovable => ?_⟩
    · rw [h.next_eq, slotAt_insertIdx hi, if_pos (by omega)]
    · obtain ⟨hpos, hcurrent⟩ := h.current_eq hremovable
      refine ⟨hpos, ?_⟩
      rw [hcurrent, slotAt_insertIdx hi, if_pos (by omega)]

/-- The slots stay where they are when an element is taken out, unless they are its own. -/
lemma erase (h : CursorAt cells iterator c) (hi : i < cells.length) (hne : i + 1 ≠ c.position) :
    CursorAt (cells.eraseIdx i) iterator (c.removed i) := by
  have hle := h.position_le
  have hlength : (cells.eraseIdx i).length = cells.length - 1 := List.length_eraseIdx_of_lt hi
  unfold ListCursor.removed
  by_cases hlt : i < c.position
  · rw [if_pos hlt]
    refine ⟨by simp only [hlength]; omega, ?_, fun hremovable => ?_⟩
    · have hnext : c.position - 1 + 1 = c.position := by omega
      rw [h.next_eq, slotAt_eraseIdx, if_neg (by simp; omega), hnext]
    · simp only [Bool.and_eq_true, decide_eq_true_eq] at hremovable
      obtain ⟨-, hcurrent⟩ := h.current_eq hremovable.1
      have hcurrent' : c.position - 1 - 1 + 1 = c.position - 1 := by omega
      refine ⟨by simp only; omega, ?_⟩
      rw [hcurrent, slotAt_eraseIdx, if_neg (by simp; omega), hcurrent']
  · rw [if_neg hlt]
    refine ⟨by omega, ?_, fun hremovable => ?_⟩
    · rw [h.next_eq, slotAt_eraseIdx, if_pos (by omega)]
    · obtain ⟨hpos, hcurrent⟩ := h.current_eq hremovable
      refine ⟨hpos, ?_⟩
      rw [hcurrent, slotAt_eraseIdx, if_pos (by omega)]

end CursorAt

/-- An iterator whose slots stay, under a cursor that moves. -/
lemma cursorRel_map {cells' : List (ℕ × α)} {iterator : Option ListIterator}
    {cursor : Option ListCursor} {f : ListCursor → ListCursor}
    (h : Option.Rel (CursorAt cells) iterator cursor)
    (hmap : ∀ c ∈ cursor, ∀ iterator, CursorAt cells iterator c → CursorAt cells' iterator (f c)) :
    Option.Rel (CursorAt cells') iterator (cursor.map f) := by
  cases h with
  | none => exact .none
  | some hat => exact .some (hmap _ rfl _ hat)

/-! ### The calls -/

namespace RefinesAt

/-- The sequence has as many items as the list has cells. -/
lemma length_eq (h : RefinesAt cells s q) : q.items.length = cells.length := by
  have hlength := congrArg List.length h.data
  simpa using hlength.symm

/-- The iterator of a cursor. -/
lemma exists_iterator {c : ListCursor} (h : RefinesAt cells s q) (hc : q.cursor = some c) :
    ∃ iterator, s.iterator = some iterator ∧ CursorAt cells iterator c := by
  have hrel := h.cursor
  rw [hc] at hrel
  cases hs : s.iterator with
  | none =>
    rw [hs] at hrel
    cases hrel
  | some iterator =>
    rw [hs] at hrel
    cases hrel with
    | some hat => exact ⟨iterator, rfl, hat⟩

/-- A new element in front of an index. -/
lemma insert (h : RefinesAt cells s q) (hi : i ≤ cells.length)
    (hfresh : s.list.cells.heap a = none) :
    ∃ m', (s.list.cells.alloc a ⟨d, address cells i⟩).write (slotAt cells i) (some a) = some m' ∧
      RefinesAt (cells.insertIdx i (a, d))
        { s with list := ⟨m', s.list.elementsCount + 1⟩ }
        ⟨q.items.insertIdx i (.new d), q.cursor.map (ListCursor.inserted i)⟩ := by
  obtain ⟨m', hwrite, hlinked⟩ := h.linked.insert (d := d) hi hfresh
  refine ⟨m', hwrite, hlinked, ?_, ?_, ?_⟩
  · rw [List.map_insertIdx, List.map_insertIdx, h.data, ListItem.new]
  · rw [h.count, List.length_insertIdx_of_le_length hi]
    rfl
  · exact cursorRel_map h.cursor fun _ _ _ hat => hat.insert hi

/-- The element at an index is unlinked, and the iterator is not behind it. -/
lemma unlink (h : RefinesAt cells s q) (hi : i < cells.length)
    (hcursor : ∀ c ∈ q.cursor, i + 1 ≠ c.position) :
    ∃ d m', (q.items[i]?).map ListItem.data = some d ∧
      LinkedList.unlink (slotAt cells i) s.list.cells = some (d, m') ∧
      RefinesAt (cells.eraseIdx i) { s with list := ⟨m', s.list.elementsCount - 1⟩ }
        (q.removeAt i) := by
  obtain ⟨a, d, hcell⟩ := exists_cell hi
  obtain ⟨m', hunlink, hlinked⟩ := LinkedList.unlink_slotAt h.linked hcell
  refine ⟨d, m', ?_, hunlink, hlinked, ?_, ?_, ?_⟩
  · rw [← List.getElem?_map, ← h.data, List.getElem?_map, hcell, Option.map_some]
  · rw [SequenceState.removeAt, ← List.eraseIdx_map, ← List.eraseIdx_map, h.data]
  · rw [List.length_eraseIdx_of_lt hi]
    change s.list.elementsCount - 1 = _
    rw [h.count]
    omega
  · exact cursorRel_map h.cursor fun c hc _ hat => hat.erase hi (hcursor c hc)

end RefinesAt

namespace ListState

variable [DecidableEq α]

/-- What `malloc` promises: a new cell is at a free address. -/
def Fresh (s : ListState α) : ListCall α → Prop
  | .add _ a => s.list.cells.heap a = none
  | .addSorted _ _ a => s.list.cells.heap a = none
  | _ => True

/-- The calls on both. -/
def pairStep (p : ListState α × SequenceState α) (c : ListCall α) :
    Option (ListState α × SequenceState α) :=
  (p.1.call c).map fun r => (r.2, (p.2.call c).2)

instance (s : ListState α) (c : ListCall α) : Decidable (s.Fresh c) :=
  match c with
  | .add _ a => decidable_of_iff ((s.list.cells.heap a).isNone) Option.isNone_iff_eq_none
  | .addSorted _ _ a => decidable_of_iff ((s.list.cells.heap a).isNone) Option.isNone_iff_eq_none
  | .get _ => isTrue trivial
  | .remove _ => isTrue trivial
  | .removeElement _ => isTrue trivial
  | .iteratorCreate => isTrue trivial
  | .iteratorHasNext => isTrue trivial
  | .iteratorNext => isTrue trivial
  | .iteratorRemove => isTrue trivial
  | .iteratorDestroy => isTrue trivial

/-- An orderly call. -/
def Proper (p : ListState α × SequenceState α) (c : ListCall α) : Prop :=
  p.1.Fresh c ∧ p.2.Orderly c

instance (p : ListState α × SequenceState α) (c : ListCall α) : Decidable (Proper p c) :=
  inferInstanceAs (Decidable (p.1.Fresh c ∧ p.2.Orderly c))

/-- `list_add` appends an item. -/
lemma refines_add {a : ℕ} (h : s.Refines q) (hfresh : s.list.cells.heap a = none) :
    ∃ s', s.call (.add d a) = some ((q.call (.add d a)).1, s') ∧
      s'.Refines (q.call (.add d a)).2 := by
  obtain ⟨cells, h⟩ := h
  have hcount : s.list.elementsCount.toNat = cells.length := by
    rw [h.count]
    exact Int.toNat_natCast _
  have hslot := LinkedList.getSlot_slotAt h.linked (i := 0) cells.length (by omega)
  rw [Nat.zero_add] at hslot
  obtain ⟨m', hwrite, hrefines⟩ := h.insert (d := d) (Nat.le_refl _) hfresh
  rw [address_of_length_le (Nat.le_refl _)] at hwrite
  rw [← h.length_eq, List.insertIdx_length_self] at hrefines
  refine ⟨{ s with list := ⟨m', s.list.elementsCount + 1⟩ }, ?_, _, hrefines⟩
  change (s.list.add d a).map _ = _
  rw [LinkedList.add, hcount]
  change Option.map _ ((LinkedList.getSlot cells.length (slotAt cells 0) s.list.cells).bind _) = _
  rw [hslot, Option.bind_some, hwrite, Option.map_some, Option.map_some, h.count, ← h.length_eq]
  rfl

/-- `list_add_sorted` inserts an item behind those the comparator puts in front of it. -/
lemma refines_addSorted {comparator : α → α → Bool} {a : ℕ} (h : s.Refines q)
    (hfresh : s.list.cells.heap a = none) :
    ∃ s', s.call (.addSorted comparator d a) = some ((q.call (.addSorted comparator d a)).1, s') ∧
      s'.Refines (q.call (.addSorted comparator d a)).2 := by
  obtain ⟨cells, h⟩ := h
  have hcount : s.list.elementsCount.toNat = cells.length := by
    rw [h.count]
    exact Int.toNat_natCast _
  have hslot := LinkedList.sortedSlot_slotAt h.linked comparator d cells rfl (Nat.zero_le _)
    (Nat.lt_succ_self _) 0
  have hindex : (listAddSorted comparator d (cells.map Prod.snd)).1 =
      (listAddSorted (fun x y => comparator x.data y.data) (ListItem.new d) q.items).1 := by
    rw [h.data]
    exact index_listAddSorted_map comparator ListItem.data (.new d) q.items
  have hle := index_listAddSorted_le comparator d (cells.map Prod.snd)
  rw [List.length_map] at hle
  simp only [hindex, Nat.zero_add, Int.zero_add] at hslot hle
  obtain ⟨m', hwrite, hrefines⟩ := h.insert (d := d) hle hfresh
  rw [← listAddSorted_eq_insertIdx] at hrefines
  refine ⟨{ s with list := ⟨m', s.list.elementsCount + 1⟩ }, ?_, _, hrefines⟩
  change (s.list.addSorted comparator d a).map _ = _
  rw [LinkedList.addSorted, hcount]
  change Option.map _ ((LinkedList.sortedSlot comparator d (cells.length + 1) (slotAt cells 0) 0
    s.list.cells).bind _) = _
  rw [hslot, Option.bind_some, h.linked.links _ hle, Option.bind_some, hwrite, Option.map_some,
    Option.map_some]
  rfl

/-- `list_get` gives the item at a position. -/
lemma refines_get {index : ℤ} (h : s.Refines q) :
    s.call (.get index) = some ((q.call (.get index)).1, s) := by
  obtain ⟨cells, h⟩ := h
  have hlength := h.length_eq
  change (s.list.get index).map _ = _
  rw [LinkedList.get, h.count]
  by_cases hout : index < 0 ∨ (cells.length : ℤ) ≤ index
  · have hnone : (if index < 0 then none else q.items[index.toNat]?.map ListItem.data) = none := by
      split
      · rfl
      · rw [List.getElem?_eq_none (by omega), Option.map_none]
    rw [if_pos hout, Option.map_some, SequenceState.call, hnone]
  · obtain ⟨n, rfl⟩ : ∃ n : ℕ, index = n := ⟨index.toNat, by omega⟩
    obtain ⟨a, d, hcell⟩ := exists_cell (show n < cells.length by omega)
    have hslot := LinkedList.getSlot_slotAt h.linked (i := 0) n (by omega)
    have hitem : q.items[n]?.map ListItem.data = some d := by
      rw [← List.getElem?_map, ← h.data, List.getElem?_map, hcell, Option.map_some]
    rw [Nat.zero_add] at hslot
    rw [if_neg hout, SequenceState.call, if_neg (by omega), Int.toNat_natCast, hitem]
    change Option.map _ ((LinkedList.getSlot n (slotAt cells 0) s.list.cells).bind _) = _
    rw [hslot, Option.bind_some, h.linked.links n (by omega), Option.bind_some, address_eq hcell,
      Option.bind_some, h.linked.data n a d hcell]
    rfl

/-- `list_remove` takes the item at a position out. -/
lemma refines_remove {index : ℤ} (h : s.Refines q) (horderly : q.Orderly (.remove index)) :
    ∃ s', s.call (.remove index) = some ((q.call (.remove index)).1, s') ∧
      s'.Refines (q.call (.remove index)).2 := by
  obtain ⟨cells, h⟩ := h
  have hlength := h.length_eq
  by_cases hout : index < 0 ∨ (cells.length : ℤ) ≤ index
  · refine ⟨s, ?_, cells, ?_⟩
    · change (s.list.remove index).map _ = _
      rw [LinkedList.remove, h.count, if_pos hout, Option.map_some, SequenceState.call, hlength,
        if_pos hout]
    · rw [SequenceState.call, hlength, if_pos hout]
      exact h
  · obtain ⟨n, rfl⟩ : ∃ n : ℕ, index = n := ⟨index.toNat, by omega⟩
    have hslot := LinkedList.getSlot_slotAt h.linked (i := 0) n (by omega)
    obtain ⟨d, m', hitem, hunlink, hrefines⟩ := h.unlink (show n < cells.length by omega)
      fun c hc heq => horderly c hc (by omega) (by omega)
    rw [Nat.zero_add] at hslot
    refine ⟨{ s with list := ⟨m', s.list.elementsCount - 1⟩ }, ?_, cells.eraseIdx n, ?_⟩
    · change (s.list.remove n).map _ = _
      rw [LinkedList.remove, h.count, if_neg hout, Int.toNat_natCast, SequenceState.call, hlength,
        if_neg hout, Int.toNat_natCast, hitem]
      change Option.map _ ((LinkedList.getSlot n (slotAt cells 0) s.list.cells).bind _) = _
      rw [hslot, Option.bind_some, hunlink]
      rfl
    · rw [SequenceState.call, hlength, if_neg hout]
      exact hrefines

/-- `list_remove_element` takes the first such item out. -/
lemma refines_removeElement {element : α} (h : s.Refines q)
    (horderly : q.Orderly (.removeElement element)) :
    ∃ s', s.call (.removeElement element) = some ((q.call (.removeElement element)).1, s') ∧
      s'.Refines (q.call (.removeElement element)).2 := by
  obtain ⟨cells, h⟩ := h
  have hlength := h.length_eq
  have hcount : s.list.elementsCount.toNat = cells.length := by
    rw [h.count]
    exact Int.toNat_natCast _
  have hslot := LinkedList.elementSlot_slotAt h.linked element cells rfl (Nat.zero_le _)
    (Nat.lt_succ_self _)
  rw [h.data] at hslot
  by_cases hmem : element ∈ q.items.map ListItem.data
  · have hlt : (q.items.map ListItem.data).idxOf element < cells.length := by
      have hindex := List.idxOf_lt_length_of_mem hmem
      rw [List.length_map, hlength] at hindex
      exact hindex
    obtain ⟨d, m', -, hunlink, hrefines⟩ := h.unlink hlt horderly
    rw [if_pos hmem, Nat.zero_add] at hslot
    refine ⟨{ s with list := ⟨m', s.list.elementsCount - 1⟩ }, ?_,
      cells.eraseIdx ((q.items.map ListItem.data).idxOf element), ?_⟩
    · change (s.list.removeElement element).map _ = _
      rw [LinkedList.removeElement, hcount, SequenceState.call, if_pos hmem]
      change Option.map _ ((LinkedList.elementSlot element (cells.length + 1) (slotAt cells 0)
        s.list.cells).bind _) = _
      rw [hslot, Option.bind_some]
      change Option.map _ ((LinkedList.unlink _ s.list.cells).map _) = _
      rw [hunlink]
      rfl
    · rw [SequenceState.call, if_pos hmem]
      exact hrefines
  · rw [if_neg hmem] at hslot
    refine ⟨s, ?_, cells, ?_⟩
    · change (s.list.removeElement element).map _ = _
      rw [LinkedList.removeElement, hcount, SequenceState.call, if_neg hmem]
      change Option.map _ ((LinkedList.elementSlot element (cells.length + 1) (slotAt cells 0)
        s.list.cells).bind _) = _
      rw [hslot]
      rfl
    · rw [SequenceState.call, if_neg hmem]
      exact h

/-- `list_iterator_create` begins in front of the first item. -/
lemma refines_iteratorCreate (h : s.Refines q) :
    ∃ s', s.call .iteratorCreate = some ((q.call .iteratorCreate).1, s') ∧
      s'.Refines (q.call .iteratorCreate).2 := by
  obtain ⟨cells, h⟩ := h
  refine ⟨_, rfl, cells, h.linked, ?_, h.count, .some ⟨Nat.zero_le _, rfl, fun hfalse => ?_⟩⟩
  · rw [h.data, SequenceState.call, List.map_map]
    rfl
  · exact absurd hfalse (by simp)

/-- `list_iterator_has_next` tells whether an item is left. -/
lemma refines_iteratorHasNext (h : s.Refines q) (horderly : q.Orderly .iteratorHasNext) :
    s.call .iteratorHasNext = some ((q.call .iteratorHasNext).1, s) := by
  obtain ⟨cells, h⟩ := h
  obtain ⟨c, hc⟩ := Option.ne_none_iff_exists'.1 horderly
  obtain ⟨iterator, hs, hat⟩ := h.exists_iterator hc
  have hsome : (address cells c.position).isSome = decide (c.position < q.items.length) := by
    rw [h.length_eq]
    by_cases hlt : c.position < cells.length
    · obtain ⟨a, d, hcell⟩ := exists_cell hlt
      rw [address_eq hcell, decide_eq_true hlt, Option.isSome_some]
    · rw [address_of_length_le (by omega), decide_eq_false hlt, Option.isSome_none]
  rw [ListState.call, hs, Option.bind_some, ListIterator.hasNext, hat.next_eq,
    h.linked.links _ hat.position_le, Option.map_some, hsome, SequenceState.call, hc]
  rfl

/-- `list_iterator_next` gives the next item. -/
lemma refines_iteratorNext (h : s.Refines q) (horderly : q.Orderly .iteratorNext) :
    ∃ s', s.call .iteratorNext = some ((q.call .iteratorNext).1, s') ∧
      s'.Refines (q.call .iteratorNext).2 := by
  obtain ⟨cells, h⟩ := h
  obtain ⟨c, hc, hlt⟩ := horderly
  rw [h.length_eq] at hlt
  obtain ⟨iterator, hs, hat⟩ := h.exists_iterator hc
  obtain ⟨a, d, hcell⟩ := exists_cell hlt
  have hitem : q.items[c.position]?.map ListItem.data = some d := by
    rw [← List.getElem?_map, ← h.data, List.getElem?_map, hcell, Option.map_some]
  refine ⟨{ s with iterator := some ⟨iterator.next, .next a, iterator.index + 1⟩ }, ?_, cells,
    h.linked, ?_, h.count, ?_⟩
  · rw [ListState.call, hs, Option.bind_some, ListIterator.advance, hat.next_eq,
      h.linked.links _ hat.position_le, Option.bind_some, address_eq hcell, Option.bind_some,
      h.linked.data _ a d hcell, SequenceState.call, hc]
    simp only [hitem, Option.map_some]
  · rw [h.data, SequenceState.call, hc]
    apply List.ext_getElem?
    intro k
    rw [List.getElem?_map, List.getElem?_map, List.getElem?_modify]
    split
    · rw [Option.map_eq_map, Option.map_map]
      rfl
    · rw [Option.map_eq_map, Option.map_id']
  · rw [SequenceState.call, hc]
    exact .some ⟨hlt, (slotAt_succ hcell).symm, fun _ => ⟨Nat.succ_pos _, hat.next_eq⟩⟩

/-- `list_iterator_remove` takes the last one it gave out. -/
lemma refines_iteratorRemove (h : s.Refines q) (horderly : q.Orderly .iteratorRemove) :
    ∃ s', s.call .iteratorRemove = some ((q.call .iteratorRemove).1, s') ∧
      s'.Refines (q.call .iteratorRemove).2 := by
  obtain ⟨cells, h⟩ := h
  obtain ⟨c, hc, hremovable⟩ := horderly
  obtain ⟨iterator, hs, hat⟩ := h.exists_iterator hc
  obtain ⟨hpos, hcurrent⟩ := hat.current_eq hremovable
  have hlt : c.position - 1 < cells.length := by
    have hle := hat.position_le
    omega
  obtain ⟨a, d, hcell⟩ := exists_cell hlt
  obtain ⟨m', hunlink, hlinked⟩ := LinkedList.unlink_slotAt h.linked hcell
  refine ⟨⟨⟨m', s.list.elementsCount - 1⟩,
    some ⟨iterator.current, iterator.current, iterator.index - 1⟩⟩, ?_,
    cells.eraseIdx (c.position - 1), hlinked, ?_, ?_, ?_⟩
  · rw [ListState.call, hs, Option.bind_some, ListIterator.remove, hcurrent, hunlink,
      SequenceState.call, hc]
    rfl
  · rw [SequenceState.call, hc, ← List.eraseIdx_map, ← List.eraseIdx_map, h.data]
  · rw [List.length_eraseIdx_of_lt hlt]
    change s.list.elementsCount - 1 = _
    rw [h.count]
    omega
  · rw [SequenceState.call, hc]
    refine .some ⟨?_, ?_, fun hfalse => absurd hfalse (by simp)⟩
    · rw [List.length_eraseIdx_of_lt hlt]
      change c.position - 1 ≤ cells.length - 1
      omega
    · rw [slotAt_eraseIdx, if_pos (Nat.le_refl _)]
      exact hcurrent

/-- **An orderly call does the same to the list and to the sequence.** -/
theorem refines_call {c : ListCall α} (h : s.Refines q) (hproper : Proper (s, q) c) :
    ∃ s', s.call c = some ((q.call c).1, s') ∧ s'.Refines (q.call c).2 := by
  obtain ⟨hfresh, horderly⟩ := hproper
  cases c with
  | add d a => exact refines_add h hfresh
  | addSorted comparator d a => exact refines_addSorted h hfresh
  | get index => exact ⟨s, refines_get h, h⟩
  | remove index => exact refines_remove h horderly
  | removeElement element => exact refines_removeElement h horderly
  | iteratorCreate => exact refines_iteratorCreate h
  | iteratorHasNext => exact ⟨s, refines_iteratorHasNext h horderly, h⟩
  | iteratorNext => exact refines_iteratorNext h horderly
  | iteratorRemove => exact refines_iteratorRemove h horderly
  | iteratorDestroy =>
    obtain ⟨cells, h⟩ := h
    exact ⟨_, rfl, cells, h.linked, h.data, h.count, .none⟩

end ListState

/-! ## The iteration -/

/-- How often an element has been returned: once in front of the cursor if it was there from the
beginning, at most once there if it is new, and never behind the cursor. -/
def ListItem.Settled (position i : ℕ) (item : ListItem α) : Prop :=
  (i < position → item.visits ≤ 1 ∧ (item.old → item.visits = 1)) ∧
    (position ≤ i → item.visits = 0)

namespace SequenceState

/-- **What holds during an iteration.** -/
def VisitedOnce (q : SequenceState α) : Prop :=
  ∀ c ∈ q.cursor, ∀ (i : ℕ) (item : ListItem α), q.items[i]? = some item →
    item.Settled c.position i

/-- A new element. -/
lemma VisitedOnce.insert (h : q.VisitedOnce) (i : ℕ) (d : α) :
    VisitedOnce ⟨q.items.insertIdx i (.new d), q.cursor.map (ListCursor.inserted i)⟩ := by
  intro c' hc' k item hitem
  obtain ⟨c, hc, rfl⟩ := Option.map_eq_some_iff.1 hc'
  have hposition : (c.inserted i).position = if i < c.position then c.position + 1
      else c.position := by
    unfold ListCursor.inserted
    split <;> rfl
  rw [hposition]
  rw [List.getElem?_insertIdx] at hitem
  unfold ListItem.Settled
  by_cases hlt : k < i
  · rw [if_pos hlt] at hitem
    obtain ⟨hfront, hback⟩ := h c hc k item hitem
    exact ⟨fun hk => hfront (by split at hk <;> omega), fun hk => hback (by split at hk <;> omega)⟩
  · rw [if_neg hlt] at hitem
    by_cases heq : k = i
    · rw [if_pos heq] at hitem
      split at hitem
      · obtain rfl := Option.some.inj hitem
        exact ⟨fun _ => ⟨Nat.zero_le _, fun hold => absurd hold (by simp [ListItem.new])⟩,
          fun _ => rfl⟩
      · exact absurd hitem (by simp)
    · rw [if_neg heq] at hitem
      obtain ⟨hfront, hback⟩ := h c hc (k - 1) item hitem
      exact ⟨fun hk => hfront (by split at hk <;> omega),
        fun hk => hback (by split at hk <;> omega)⟩

/-- An element is taken out, and the cursor keeps what it has gone past. -/
lemma VisitedOnce.erase (h : q.VisitedOnce) {i : ℕ} {cursor : Option ListCursor}
    (hcursor : ∀ c' ∈ cursor, ∃ c ∈ q.cursor,
      c'.position = if i < c.position then c.position - 1 else c.position) :
    VisitedOnce ⟨q.items.eraseIdx i, cursor⟩ := by
  intro c' hc' k item hitem
  obtain ⟨c, hc, hposition⟩ := hcursor c' hc'
  rw [hposition]
  change (q.items.eraseIdx i)[k]? = some item at hitem
  rw [List.getElem?_eraseIdx] at hitem
  unfold ListItem.Settled
  by_cases hlt : k < i
  · rw [if_pos hlt] at hitem
    obtain ⟨hfront, hback⟩ := h c hc k item hitem
    exact ⟨fun hk => hfront (by split at hk <;> omega), fun hk => hback (by split at hk <;> omega)⟩
  · rw [if_neg hlt] at hitem
    obtain ⟨hfront, hback⟩ := h c hc (k + 1) item hitem
    exact ⟨fun hk => hfront (by split at hk <;> omega), fun hk => hback (by split at hk <;> omega)⟩

/-- No item is given twice after one is taken out. -/
lemma VisitedOnce.removeAt (h : q.VisitedOnce) (i : ℕ) : (q.removeAt i).VisitedOnce := by
  apply h.erase
  intro c' hc'
  obtain ⟨c, hc, rfl⟩ := Option.map_eq_some_iff.1 hc'
  refine ⟨c, hc, ?_⟩
  unfold ListCursor.removed
  split <;> rfl

/-- **No element is returned twice.** -/
lemma VisitedOnce.call [DecidableEq α] (h : q.VisitedOnce) {c : ListCall α}
    (horderly : q.Orderly c) (hremovable : ∀ c ∈ q.cursor, c.removable → 0 < c.position) :
    (q.call c).2.VisitedOnce := by
  cases c with
  | add d a =>
    have hinsert := h.insert q.items.length d
    rw [List.insertIdx_length_self] at hinsert
    exact hinsert
  | addSorted comparator d a =>
    have hinsert := h.insert
      (listAddSorted (fun x y => comparator x.data y.data) (.new d) q.items).1 d
    rw [← listAddSorted_eq_insertIdx] at hinsert
    exact hinsert
  | get index => exact h
  | remove index =>
    unfold SequenceState.call
    dsimp only
    split
    · exact h
    · exact h.removeAt index.toNat
  | removeElement element =>
    unfold SequenceState.call
    dsimp only
    split
    · exact h.removeAt _
    · exact h
  | iteratorCreate =>
    intro c hc i item hitem
    obtain rfl := Option.some.inj hc
    change (q.items.map ListItem.begin)[i]? = some item at hitem
    rw [List.getElem?_map] at hitem
    obtain ⟨old, -, rfl⟩ := Option.map_eq_some_iff.1 hitem
    exact ⟨fun hlt => absurd hlt (Nat.not_lt_zero i), fun _ => rfl⟩
  | iteratorHasNext => exact h
  | iteratorNext =>
    obtain ⟨c, hc, -⟩ := horderly
    have hcursor : q.cursor = some c := hc
    unfold SequenceState.call
    rw [hcursor]
    intro c' hc' i item hitem
    obtain rfl := Option.some.inj hc'
    change (q.items.modify c.position ListItem.visit)[i]? = some item at hitem
    change item.Settled (c.position + 1) i
    rw [List.getElem?_modify, Option.map_eq_map, Option.map_eq_some_iff] at hitem
    obtain ⟨before, hbefore, hvisited⟩ := hitem
    obtain ⟨hfront, hback⟩ := h c hc i before hbefore
    by_cases heq : c.position = i
    · rw [if_pos heq] at hvisited
      subst hvisited
      have hvisits : (ListItem.visit before).visits = 1 := by
        rw [ListItem.visit, hback (by omega)]
      exact ⟨fun _ => ⟨Nat.le_of_eq hvisits, fun _ => hvisits⟩, fun hle => absurd hle (by omega)⟩
    · rw [if_neg heq] at hvisited
      subst hvisited
      exact ⟨fun hlt => hfront (by omega), fun hle => hback (by omega)⟩
  | iteratorRemove =>
    obtain ⟨c, hc, hr⟩ := horderly
    have hpos := hremovable c hc hr
    have hcursor : q.cursor = some c := hc
    unfold SequenceState.call
    rw [hcursor]
    apply h.erase
    intro c' hc'
    obtain rfl := Option.some.inj hc'
    refine ⟨c, hc, ?_⟩
    rw [if_pos (by omega)]
  | iteratorDestroy =>
    intro c hc
    exact absurd hc (by simp [SequenceState.call])

end SequenceState

namespace ListState

/-- A cursor that may remove has gone past an element. -/
lemma position_pos_of_removable (h : s.Refines q) :
    ∀ c ∈ q.cursor, c.removable → 0 < c.position := by
  obtain ⟨cells, h⟩ := h
  intro c hc hremovable
  obtain ⟨iterator, -, hat⟩ := h.exists_iterator hc
  exact (hat.current_eq hremovable).1

variable [DecidableEq α] {p : ListState α × SequenceState α}

/-- What every orderly run keeps. -/
lemma refines_and_visitedOnce
    (h : Run pairStep Proper ((ListState.create, SequenceState.empty) : ListState α × _) p) :
    p.1.Refines p.2 ∧ p.2.VisitedOnce := by
  refine Run.invariant (I := fun p => p.1.Refines p.2 ∧ p.2.VisitedOnce) h ?_ ?_
  · exact ⟨⟨[], linked_nil, rfl, rfl, .none⟩, fun c hc => absurd hc (by simp [SequenceState.empty])⟩
  · rintro ⟨s, q⟩ c ⟨s', q'⟩ ⟨hrefines, hvisited⟩ hproper hstep
    obtain ⟨s'', hcall, hrefines'⟩ := refines_call hrefines hproper
    rw [pairStep, hcall, Option.map_some, Option.some.injEq, Prod.mk.injEq] at hstep
    obtain ⟨rfl, rfl⟩ := hstep
    exact ⟨hrefines', hvisited.call hproper.2 (position_pos_of_removable hrefines)⟩

/-- **The linked list is a sequence, also while it is edited during an iteration.** In every run of
orderly calls the cells denote the sequence and `elements_count` is its length; no element has been
returned twice by the iteration, and when `list_iterator_has_next` denies, every element that was
there from the beginning and is still there has been returned once; and no orderly call reaches a
null pointer or a freed cell, or answers otherwise than the sequence. -/
theorem refines_of_run
    (h : Run pairStep Proper ((ListState.create, SequenceState.empty) : ListState α × _) p) :
    (∃ cells, Linked p.1.list.cells cells ∧ cells.map Prod.snd = p.2.items.map ListItem.data ∧
      p.1.list.elementsCount = p.2.items.length) ∧
    (p.2.cursor ≠ none → ∀ item ∈ p.2.items, item.visits ≤ 1) ∧
    ((p.2.call .iteratorHasNext).1 = .decided false →
      ∀ item ∈ p.2.items, item.old → item.visits = 1) ∧
    ∀ c, Proper p c → ∃ s', p.1.call c = some ((p.2.call c).1, s') := by
  obtain ⟨hrefines, hvisited⟩ := refines_and_visitedOnce h
  refine ⟨?_, fun hcursor item hmem => ?_, fun hlast item hmem hold => ?_, fun c hproper => ?_⟩
  · obtain ⟨cells, hcells⟩ := hrefines
    exact ⟨cells, hcells.linked, hcells.data, by rw [hcells.count, hcells.length_eq]⟩
  · obtain ⟨c, hc⟩ := Option.ne_none_iff_exists'.1 hcursor
    obtain ⟨i, hi⟩ := List.mem_iff_getElem?.1 hmem
    obtain ⟨hfront, hback⟩ := hvisited c hc i item hi
    rcases Nat.lt_or_ge i c.position with hlt | hge
    · exact (hfront hlt).1
    · rw [hback hge]
      exact Nat.zero_le 1
  · cases hc : p.2.cursor with
    | none => exact absurd hlast (by simp [SequenceState.call, hc])
    | some c =>
      have hend : p.2.items.length ≤ c.position := by
        simpa [SequenceState.call, hc] using hlast
      obtain ⟨i, hi⟩ := List.mem_iff_getElem?.1 hmem
      have hlt := (List.getElem?_eq_some_iff.1 hi).1
      exact ((hvisited c hc i item hi).1 (by omega)).2 hold
  · obtain ⟨s', hcall, -⟩ := refines_call hrefines hproper
    exact ⟨s', hcall⟩

/-- Three elements, of which the iteration removes the first and the last. -/
theorem refines_of_run_removing :
    ∃ p : ListState ℕ × SequenceState ℕ,
      Run pairStep Proper (ListState.create, SequenceState.empty) p ∧
      p.2.items = [⟨6, true, 1⟩] ∧
      ∃ cells, Linked p.1.list.cells cells ∧ cells.map Prod.snd = p.2.items.map ListItem.data ∧
        p.1.list.elementsCount = p.2.items.length := by
  have hsome : ∃ p, executeOk pairStep Proper
      ((ListState.create, SequenceState.empty) : ListState ℕ × _)
      [.add 5 0, .add 6 1, .addSorted (fun x y => decide (x < y)) 7 2, .iteratorCreate,
        .iteratorNext, .iteratorRemove, .iteratorNext, .iteratorNext, .iteratorRemove] = some p ∧
      p.2.items = [⟨6, true, 1⟩] := ⟨_, rfl, by decide⟩
  obtain ⟨p, hp, hitems⟩ := hsome
  have hrun := Run.of_executeOk hp
  exact ⟨p, hrun, hitems, (refines_of_run hrun).1⟩

/-- `list_remove` frees the cell of the element that the iterator returned last, and
`list_iterator_has_next` reads its link. -/
theorem not_refines_of_removed :
    ∃ p, execute pairStep ((ListState.create, SequenceState.empty) : ListState ℕ × _)
        [.add 5 0, .add 6 1, .iteratorCreate, .iteratorNext, .remove 0] = some p ∧
      p.2.items.map ListItem.data = [6] ∧ p.1.list.elementsCount = 1 ∧
      p.2.cursor.isSome ∧ (p.1.call .iteratorHasNext).isNone :=
  ⟨_, rfl, by decide, by decide, by decide, by decide⟩

end ListState

end OsSimulator
