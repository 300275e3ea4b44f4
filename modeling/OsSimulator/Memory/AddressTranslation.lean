import OsSimulator.Library.ByteStore
import OsSimulator.Memory.Structs

set_option relaxedAutoImplicit false
set_option autoImplicit false

/-!
# Physical addresses and the memory sticks

The physical address space is the connected sticks one behind the other. `read_from_sticks`
and `write_to_sticks` cut a transfer at the stick boundaries; a stick answers a read with its
own bytes and stores a write at the offset it is given. This file has the three functions of
`address_translation.c` that touch the sticks, and shows that they read and write the
concatenation of the sticks.

## Main definitions

* `findStick`, `readFromSticks`, `writeToSticks` — the source's functions.
* `byteAt sticks a` — the byte at physical address `a`.
* `bytesOf sticks` — the whole address space.

## Main results

* `byteAt_eq` — `byteAt` reads the concatenation.
* `readFromSticks_eq`, `bytesOf_writeToSticks` — so do a transfer in and a transfer out, across
  any number of stick boundaries.
-/

namespace OsSimulator.Memory

/-- The loop of `find_stick`, from the stick with number `index` that starts at
`accumulatedBase`. -/
def findStickFrom (accumulatedBase : ℤ) (index : ℕ) (physicalAddress : ℤ) :
    List Stick → Option (ℕ × ℕ)
  | [] => none
  | currentItem :: rest =>
    if accumulatedBase ≤ physicalAddress ∧
        physicalAddress < accumulatedBase + currentItem.stickSize then
      some (index, (physicalAddress - accumulatedBase).toNat)
    else
      findStickFrom (accumulatedBase + currentItem.stickSize) (index + 1) physicalAddress rest

/-- `find_stick`: the stick of a physical address and the offset in it; `none` is the
source's `-1`. -/
def findStick (physicalAddress : ℤ) (sticks : List Stick) : Option (ℕ × ℕ) :=
  findStickFrom 0 0 physicalAddress sticks

/-- `stick_chunk_size`: a transfer is clamped to what is left in the stick. -/
def stickChunkSize (stick : Stick) (offset remaining : ℕ) : ℕ :=
  min remaining (stick.stickSize - offset)

/-- The loop of `read_from_sticks` with `remaining` bytes still to read. Every round reads at
least one byte, so `remaining` rounds are enough. -/
def readLoop (sticks : List Stick) : ℕ → ℤ → ℕ → Option (List UInt8)
  | _, _, 0 => some []
  | 0, _, _ + 1 => none
  | rounds + 1, currentAddress, remaining + 1 =>
    match findStick currentAddress sticks with
    | none => none
    | some (index, stickOffset) =>
      match sticks[index]? with
      | none => none
      | some stick =>
        let bytesToReadCount := stickChunkSize stick stickOffset (remaining + 1)
        (readLoop sticks rounds (currentAddress + bytesToReadCount)
          (remaining + 1 - bytesToReadCount)).map
          (slice stick.memory stickOffset bytesToReadCount ++ ·)

/-- `read_from_sticks`: `none` is the source's `NULL`. -/
def readFromSticks (physicalAddress : ℤ) (size : ℕ) (sticks : List Stick) :
    Option (List UInt8) :=
  readLoop sticks size physicalAddress size

/-- The loop of `write_to_sticks` over the sticks from the current one on, the first of which is
written from `currentOffset` and the others from their start. -/
def writeLoop : ℕ → List UInt8 → List Stick → Bool × List Stick
  | _, [], sticks => (true, sticks)
  | _, _ :: _, [] => (false, [])
  | currentOffset, b :: bs, currentStick :: rest =>
    let toWrite := stickChunkSize currentStick currentOffset (bs.length + 1)
    let written := writeLoop 0 ((b :: bs).drop toWrite) rest
    (written.1,
      ⟨splice currentStick.memory currentOffset ((b :: bs).take toWrite)⟩ :: written.2)

/-- `write_to_sticks`: whether every byte found a stick, and the sticks afterwards. The search
that finds no stick gives the index `-1`, at which `list_get` has nothing. -/
def writeToSticks (physicalAddress : ℤ) (writeBuffer : List UInt8) (sticks : List Stick) :
    Bool × List Stick :=
  match writeBuffer, findStick physicalAddress sticks with
  | [], _ => (true, sticks)
  | _ :: _, none => (false, sticks)
  | b :: bs, some (index, stickOffset) =>
    let written := writeLoop stickOffset (b :: bs) (sticks.drop index)
    (written.1, sticks.take index ++ written.2)

/-- The byte at a physical address, if a stick has it. -/
def byteAt (sticks : List Stick) (physicalAddress : ℤ) : Option UInt8 :=
  match findStick physicalAddress sticks with
  | none => none
  | some (index, stickOffset) => sticks[index]?.bind fun stick => stick.memory[stickOffset]?

/-- The address space: the sticks one behind the other. -/
def bytesOf (sticks : List Stick) : List UInt8 := sticks.flatMap Stick.memory

/-- Without sticks there are no bytes. -/
@[simp] lemma bytesOf_nil : bytesOf [] = [] := rfl

/-- The bytes of the first stick and of the rest. -/
@[simp] lemma bytesOf_cons (s : Stick) (rest : List Stick) :
    bytesOf (s :: rest) = s.memory ++ bytesOf rest := by
  simp [bytesOf]

/-- The bytes of two lists of sticks. -/
@[simp] lemma bytesOf_append (l r : List Stick) : bytesOf (l ++ r) = bytesOf l ++ bytesOf r := by
  simp [bytesOf]

/-! ## The search -/

/-- What `findStickFrom` finds: a stick, and an offset below its size that is the address
counted from the start of that stick. It finds nothing only outside the sticks.

**Proof sketch.** Induction on the sticks: the first one has the address, or the search goes on
behind it with the address and the base both shifted by its size. -/
lemma findStickFrom_spec (sticks : List Stick) (base : ℤ) (first k : ℕ) :
    (k < (bytesOf sticks).length →
      ∃ i off stick, findStickFrom base first (base + k) sticks = some (first + i, off) ∧
        sticks[i]? = some stick ∧ off < stick.stickSize ∧
        (bytesOf (sticks.take i)).length + off = k) ∧
    ((bytesOf sticks).length ≤ k → findStickFrom base first (base + k) sticks = none) := by
  induction sticks generalizing base first k with
  | nil => simp [findStickFrom]
  | cons s rest ih =>
    simp only [findStickFrom, bytesOf_cons, List.length_append]
    by_cases hk : k < s.stickSize
    · rw [if_pos (by omega)]
      refine ⟨fun _ => ⟨0, k, s, ?_, by simp, hk, by simp⟩, fun h => ?_⟩
      · simp
      · simp only [Stick.stickSize] at hk
        omega
    · rw [if_neg (by omega)]
      obtain ⟨j, rfl⟩ : ∃ j, k = s.stickSize + j := ⟨k - s.stickSize, by omega⟩
      obtain ⟨hin, hout⟩ := ih (base + s.stickSize) (first + 1) j
      have haddr : base + ((s.stickSize + j : ℕ) : ℤ) = base + s.stickSize + j := by omega
      rw [haddr]
      refine ⟨fun h => ?_, fun h => hout ?_⟩
      · obtain ⟨i, off, stick, hfind, hget, hoff, hpos⟩ := hin (by
          simp only [Stick.stickSize] at h
          omega)
        refine ⟨i + 1, off, stick, ?_, by simpa using hget, hoff, ?_⟩
        · rw [hfind]
          simp only [Option.some.injEq, Prod.mk.injEq, and_true]
          omega
        · simp only [List.take_succ_cons, bytesOf_cons, List.length_append, Stick.stickSize]
          omega
      · simp only [Stick.stickSize] at h
        omega

/-- A negative address is in no stick. -/
lemma findStickFrom_of_neg (sticks : List Stick) {base a : ℤ} (first : ℕ) (h : a < base) :
    findStickFrom base first a sticks = none := by
  induction sticks generalizing base first with
  | nil => rfl
  | cons s rest ih =>
    rw [findStickFrom, if_neg (by omega)]
    exact ih _ (by omega)

/-- `find_stick` on an address of the address space. -/
lemma findStick_of_lt {sticks : List Stick} {k : ℕ} (h : k < (bytesOf sticks).length) :
    ∃ i off stick, findStick k sticks = some (i, off) ∧ sticks[i]? = some stick ∧
      off < stick.stickSize ∧ (bytesOf (sticks.take i)).length + off = k := by
  obtain ⟨i, off, stick, hfind, hrest⟩ := (findStickFrom_spec sticks 0 0 k).1 h
  exact ⟨i, off, stick, by simpa [findStick] using hfind, hrest⟩

/-- `find_stick` behind the last stick. -/
lemma findStick_of_ge {sticks : List Stick} {k : ℕ} (h : (bytesOf sticks).length ≤ k) :
    findStick k sticks = none := by
  simpa [findStick] using (findStickFrom_spec sticks 0 0 k).2 h

/-- The stick that is found is one of the sticks, and it has the address. -/
lemma exists_of_findStick {sticks : List Stick} {address : ℤ} {k off : ℕ}
    (h : findStick address sticks = some (k, off)) :
    ∃ stick, sticks[k]? = some stick ∧ off < stick.stickSize := by
  by_cases hneg : address < 0
  · rw [findStick, findStickFrom_of_neg sticks 0 hneg] at h
    exact absurd h (by simp)
  · obtain ⟨a, rfl⟩ := Int.eq_ofNat_of_zero_le (not_lt.1 hneg)
    by_cases ha : a < (bytesOf sticks).length
    · obtain ⟨k', off', stick, hfind, hget, hoff, -⟩ := findStick_of_lt ha
      obtain ⟨rfl, rfl⟩ := Prod.mk.inj (Option.some.inj (hfind.symm.trans h))
      exact ⟨stick, hget, hoff⟩
    · rw [findStick_of_ge (not_lt.1 ha)] at h
      exact absurd h (by simp)

/-- The sticks before, at and behind a position. -/
lemma bytesOf_split {sticks : List Stick} {i : ℕ} {stick : Stick} (h : sticks[i]? = some stick) :
    bytesOf sticks =
      bytesOf (sticks.take i) ++ (stick.memory ++ bytesOf (sticks.drop (i + 1))) := by
  obtain ⟨hi, rfl⟩ := List.getElem?_eq_some_iff.1 h
  conv_lhs => rw [← List.take_append_drop i sticks, List.drop_eq_getElem_cons hi]
  rw [bytesOf_append, bytesOf_cons]

/-- The byte at an address is the byte of the concatenated sticks. -/
theorem byteAt_eq (sticks : List Stick) (a : ℤ) :
    byteAt sticks a = if 0 ≤ a then (bytesOf sticks)[a.toNat]? else none := by
  by_cases ha : 0 ≤ a
  · obtain ⟨k, rfl⟩ := Int.eq_ofNat_of_zero_le ha
    rw [if_pos ha, Int.toNat_natCast]
    by_cases hk : k < (bytesOf sticks).length
    · obtain ⟨i, off, stick, hfind, hget, hoff, hpos⟩ := findStick_of_lt hk
      rw [byteAt, hfind]
      simp only [hget, Option.bind_some]
      rw [bytesOf_split hget, ← hpos, List.getElem?_append_right (by omega),
        List.getElem?_append_left (by simp only [Stick.stickSize] at hoff; omega)]
      congr 1
      omega
    · rw [byteAt, findStick_of_ge (by omega), List.getElem?_eq_none (by omega)]
  · rw [if_neg ha, byteAt, findStick, findStickFrom_of_neg _ _ (by omega)]

/-! ## Transfers -/

/-- The rounds of `read_from_sticks` read a stretch of the address space.

**Proof sketch.** Induction on the rounds. A round finds the stick of the current address and
reads up to its end; that is the first part of the stretch (`slice_add`), and the rest starts
where the next stick does. -/
lemma readLoop_eq (sticks : List Stick) (rounds k n : ℕ) (hr : n ≤ rounds)
    (h : k + n ≤ (bytesOf sticks).length) :
    readLoop sticks rounds k n = some (slice (bytesOf sticks) k n) := by
  induction rounds generalizing k n with
  | zero =>
    obtain rfl : n = 0 := by omega
    simp [readLoop]
  | succ rounds ih =>
    cases n with
    | zero => simp [readLoop]
    | succ n =>
      have hk : k < (bytesOf sticks).length := by omega
      obtain ⟨i, off, stick, hfind, hget, hoff, hpos⟩ := findStick_of_lt hk
      set c := stickChunkSize stick off (n + 1) with hc
      have hcpos : 0 < c := by
        simp only [hc, stickChunkSize]
        omega
      have hcle : c ≤ n + 1 := by
        simp only [hc, stickChunkSize]
        omega
      have hcoff : off + c ≤ stick.memory.length := by
        simp only [hc, stickChunkSize, Stick.stickSize] at *
        omega
      have hread := ih (k + c) (n + 1 - c) (by omega) (by omega)
      rw [Nat.cast_add] at hread
      have hhead : slice (bytesOf sticks) k c = slice stick.memory off c := by
        rw [bytesOf_split hget, ← hpos, slice_append_right, slice_append_left _ hcoff]
      simp only [readLoop, hfind, hget, ← hc, hread, Option.map_some]
      rw [← hhead, ← slice_add, Nat.add_sub_cancel' hcle]

/-- `read_from_sticks` returns the stretch of the address space it was asked for. -/
theorem readFromSticks_eq {sticks : List Stick} {k n : ℕ}
    (h : k + n ≤ (bytesOf sticks).length) :
    readFromSticks k n sticks = some (slice (bytesOf sticks) k n) :=
  readLoop_eq sticks n k n le_rfl h

/-- The rounds of `write_to_sticks` change no stick's size. -/
lemma map_stickSize_writeLoop (sticks : List Stick) (off : ℕ) (bs : List UInt8)
    (hoff : ∀ s ∈ sticks.head?, off ≤ s.stickSize) :
    (writeLoop off bs sticks).2.map Stick.stickSize = sticks.map Stick.stickSize := by
  induction sticks generalizing off bs with
  | nil => cases bs <;> rfl
  | cons s rest ih =>
    cases bs with
    | nil => rfl
    | cons b bs =>
      have hs : off ≤ s.stickSize := hoff s (by simp)
      simp only [writeLoop, List.map_cons]
      congr 1
      · simp only [Stick.stickSize] at *
        rw [length_splice]
        simp only [stickChunkSize, Stick.stickSize, List.length_take]
        omega
      · exact ih 0 _ fun _ _ => Nat.zero_le _

/-- The rounds of `write_to_sticks` overwrite a stretch of the address space.

**Proof sketch.** Induction on the sticks. When the data ends in the current stick the write is
one to the first part of the space; otherwise the stick takes what fits and the rest of the data
is written from the start of the sticks behind it. -/
lemma bytesOf_writeLoop (sticks : List Stick) (off : ℕ) (bs : List UInt8)
    (hoff : ∀ s ∈ sticks.head?, off ≤ s.stickSize)
    (h : off + bs.length ≤ (bytesOf sticks).length) :
    (writeLoop off bs sticks).1 = true ∧
      bytesOf (writeLoop off bs sticks).2 = splice (bytesOf sticks) off bs := by
  induction sticks generalizing off bs with
  | nil =>
    rw [bytesOf_nil, List.length_nil] at h
    obtain rfl : bs = [] := List.eq_nil_of_length_eq_zero (by omega)
    simp [writeLoop]
  | cons s rest ih =>
    cases bs with
    | nil => simp [writeLoop]
    | cons b bs =>
      have hs : off ≤ s.memory.length := hoff s (by simp)
      set data := b :: bs with hdata
      have hlen : data.length = bs.length + 1 := by simp [hdata]
      set c := stickChunkSize s off (bs.length + 1) with hc
      have hcdata : c ≤ data.length := by
        simp only [hc, stickChunkSize]
        omega
      have hcle : off + (data.take c).length ≤ s.memory.length := by
        simp only [hc, stickChunkSize, Stick.stickSize, List.length_take]
        omega
      have hlast : data.drop c = [] ∨ off + c = s.memory.length := by
        by_cases hfit : data.length ≤ s.memory.length - off
        · left
          refine List.drop_eq_nil_of_le ?_
          simp only [hc, stickChunkSize, Stick.stickSize]
          omega
        · right
          simp only [hc, stickChunkSize, Stick.stickSize]
          omega
      have hspace : 0 + (data.drop c).length ≤ (bytesOf rest).length := by
        rw [bytesOf_cons, List.length_append] at h
        rcases hlast with hnil | hend
        · simp [hnil]
        · rw [List.length_drop]
          omega
      obtain ⟨hok, hrest⟩ := ih 0 (data.drop c) (fun _ _ => Nat.zero_le _) hspace
      rw [bytesOf_cons, List.length_append] at h
      have hcut : data.take c ++ data.drop c = data := List.take_append_drop c data
      have hwritten : splice (bytesOf (s :: rest)) off data =
          splice s.memory off (data.take c) ++ splice (bytesOf rest) 0 (data.drop c) := by
        conv_lhs => rw [← hcut]
        rw [splice_append_data (by
          rw [← List.length_append, hcut, bytesOf_cons, List.length_append]
          exact h), bytesOf_cons, splice_append_left _ hcle]
        rcases hlast with hnil | hend
        · rw [hnil, splice_nil, splice_nil]
        · have htake : off + (data.take c).length = (splice s.memory off (data.take c)).length := by
            rw [length_splice hcle, List.length_take]
            omega
          rw [htake, ← Nat.add_zero (splice s.memory off (data.take c)).length,
            splice_append_right]
      rw [hwritten, ← hrest]
      exact ⟨hok, by simp [writeLoop, hdata, hc]⟩

/-- `write_to_sticks` changes no stick's size. -/
theorem map_stickSize_writeToSticks (a : ℤ) (bs : List UInt8) (sticks : List Stick) :
    (writeToSticks a bs sticks).2.map Stick.stickSize = sticks.map Stick.stickSize := by
  cases bs with
  | nil => rfl
  | cons b bs =>
    by_cases ha : 0 ≤ a
    · obtain ⟨k, rfl⟩ := Int.eq_ofNat_of_zero_le ha
      by_cases hk : k < (bytesOf sticks).length
      · obtain ⟨i, off, stick, hfind, hget, hoff, -⟩ := findStick_of_lt hk
        have hhead : ∀ s ∈ (sticks.drop i).head?, off ≤ s.stickSize := by
          intro s hs
          rw [List.head?_drop, hget] at hs
          simp only [Option.mem_def, Option.some.injEq] at hs
          exact hs ▸ hoff.le
        simp only [writeToSticks, hfind, List.map_append]
        rw [map_stickSize_writeLoop _ _ _ hhead, ← List.map_append, List.take_append_drop]
      · simp only [writeToSticks, findStick_of_ge (not_lt.1 hk)]
    · simp only [writeToSticks, findStick, findStickFrom_of_neg sticks 0 (not_le.1 ha)]

/-- `write_to_sticks` overwrites the stretch of the address space it was given. -/
theorem bytesOf_writeToSticks {sticks : List Stick} {k : ℕ} {bs : List UInt8}
    (h : k + bs.length ≤ (bytesOf sticks).length) :
    (writeToSticks k bs sticks).1 = true ∧
      bytesOf (writeToSticks k bs sticks).2 = splice (bytesOf sticks) k bs := by
  cases bs with
  | nil => simp [writeToSticks]
  | cons b bs =>
    have hk : k < (bytesOf sticks).length := by
      rw [List.length_cons] at h
      omega
    obtain ⟨i, off, stick, hfind, hget, hoff, hpos⟩ := findStick_of_lt hk
    have hhead : ∀ s ∈ (sticks.drop i).head?, off ≤ s.stickSize := by
      intro s hs
      rw [List.head?_drop, hget] at hs
      simp only [Option.mem_def, Option.some.injEq] at hs
      exact hs ▸ hoff.le
    have hsplit : bytesOf sticks = bytesOf (sticks.take i) ++ bytesOf (sticks.drop i) := by
      rw [← bytesOf_append, List.take_append_drop]
    rw [hsplit, List.length_append] at h
    obtain ⟨hok, hbytes⟩ := bytesOf_writeLoop (sticks.drop i) off (b :: bs) hhead (by omega)
    simp only [writeToSticks, hfind, bytesOf_append, hbytes]
    rw [hsplit, ← hpos, splice_append_right]
    exact ⟨hok, rfl⟩

/-- The size of the address space only depends on the sizes of the sticks. -/
lemma length_bytesOf (sticks : List Stick) :
    (bytesOf sticks).length = (sticks.map Stick.stickSize).sum := by
  induction sticks with
  | nil => rfl
  | cons s rest ih => simp [ih, Stick.stickSize]

/-- An address has a byte exactly when it lies below the sum of the stick sizes. -/
lemma isSome_byteAt (sticks : List Stick) (a : ℤ) :
    (byteAt sticks a).isSome ↔ 0 ≤ a ∧ a < ((sticks.map Stick.stickSize).sum : ℕ) := by
  rw [byteAt_eq, ← length_bytesOf]
  split
  · rw [isSome_getElem?]
    omega
  · simp only [Option.isSome_none, Bool.false_eq_true, false_iff]
    omega

end OsSimulator.Memory
