import Mathlib.Data.List.Induction
import OsSimulator.Cpu.Memory
import OsSimulator.Memory.AddressTranslation

set_option relaxedAutoImplicit false
set_option autoImplicit false

/-!
# The sticks a CPU knows

`connections.c`: a CPU hears of the sticks one after another and gives each the first address behind
those it knows. When it knows the sticks of Kernel Memory in Kernel Memory's order, both resolve an
address to the same byte of the same stick.

## Main definitions

* `computeOffset`, `connectMemoryStick` — the place of a stick that connects.
* `memorySticksOf sticks` — the sticks of a CPU that has heard of `sticks`.

## Main results

* `getElem?_memorySticksOf` — each stick has the place Kernel Memory gives it.
* `findStick_memorySticksOf` — the two searches find the same stick.
-/

namespace OsSimulator.Cpu

open OsSimulator.Memory (Stick bytesOf length_bytesOf bytesOf_append bytesOf_cons bytesOf_nil)

/-- `compute_offset`. -/
def computeOffset (sticks : List MemoryStickInfo) : UInt32 :=
  sticks.foldl (fun offset stick => offset + stick.size) 0

/-- `connect_memory_stick`, when the stick takes the connection. -/
def connectMemoryStick (sticks : List MemoryStickInfo) (stick : Stick) : List MemoryStickInfo :=
  sticks ++ [⟨UInt32.ofNat stick.stickSize, computeOffset sticks, stick.memory, true⟩]

/-- The sticks of a CPU that has heard of the given sticks in turn. -/
def memorySticksOf (sticks : List Stick) : List MemoryStickInfo :=
  sticks.foldl connectMemoryStick []

/-- The place of the `i`-th stick. -/
def placedStick (sticks : List Stick) (i : ℕ) (stick : Stick) : MemoryStickInfo :=
  ⟨UInt32.ofNat stick.stickSize, UInt32.ofNat (bytesOf (sticks.take i)).length, stick.memory, true⟩

variable {sticks : List Stick} {stick : Stick} {i : ℕ}

/-- One more stick is announced. -/
lemma memorySticksOf_append (sticks : List Stick) (stick : Stick) :
    memorySticksOf (sticks ++ [stick]) = connectMemoryStick (memorySticksOf sticks) stick := by
  rw [memorySticksOf, List.foldl_append]
  rfl

/-- The CPU has as many sticks as were announced. -/
@[simp] lemma length_memorySticksOf (sticks : List Stick) :
    (memorySticksOf sticks).length = sticks.length := by
  induction sticks using List.reverseRecOn with
  | nil => rfl
  | append_singleton sticks stick ih =>
    rw [memorySticksOf_append, connectMemoryStick, List.length_append, ih, List.length_append]
    rfl

/-- The next stick starts behind the last one. -/
lemma computeOffset_memorySticksOf (sticks : List Stick) :
    computeOffset (memorySticksOf sticks) = UInt32.ofNat (bytesOf sticks).length := by
  induction sticks using List.reverseRecOn with
  | nil => rfl
  | append_singleton sticks stick ih =>
    have hstick : (bytesOf [stick]).length = stick.stickSize := by
      rw [bytesOf_cons, bytesOf_nil, List.append_nil]
      rfl
    rw [memorySticksOf_append, connectMemoryStick, computeOffset, List.foldl_append]
    show computeOffset (memorySticksOf sticks) + UInt32.ofNat stick.stickSize = _
    rw [ih, bytesOf_append, List.length_append, hstick, UInt32.ofNat_add]

/-- Each stick has the place that Kernel Memory gives it. -/
lemma getElem?_memorySticksOf (sticks : List Stick) (i : ℕ) :
    (memorySticksOf sticks)[i]? = sticks[i]?.map (placedStick sticks i) := by
  induction sticks using List.reverseRecOn with
  | nil => rfl
  | append_singleton sticks stick ih =>
    rw [memorySticksOf_append, connectMemoryStick]
    by_cases hi : i < sticks.length
    · rw [List.getElem?_append_left (by rwa [length_memorySticksOf]), ih,
        List.getElem?_append_left hi]
      unfold placedStick
      rw [List.take_append_of_le_length hi.le]
    · rw [List.getElem?_append_right (by rw [length_memorySticksOf]; omega), length_memorySticksOf,
        List.getElem?_append_right (by omega)]
      by_cases heq : i - sticks.length = 0
      · rw [heq, computeOffset_memorySticksOf]
        have htake : (sticks ++ [stick]).take i = sticks := by
          rw [show i = sticks.length by omega, List.take_left]
        simp only [List.getElem?_cons_zero, Option.map_some, placedStick, htake]
      · rw [List.getElem?_eq_none (by simp; omega), List.getElem?_eq_none (by simp; omega)]
        rfl

/-- A stick whose bytes change keeps the places of all. -/
lemma memorySticksOf_set {memory : List UInt8} (hstick : sticks[i]? = some stick)
    (hsize : memory.length = stick.stickSize) :
    memorySticksOf (sticks.set i ⟨memory⟩) =
      (memorySticksOf sticks).set i { placedStick sticks i stick with memory := memory } := by
  obtain ⟨hi, rfl⟩ := List.getElem?_eq_some_iff.1 hstick
  have hsizes : (sticks.set i ⟨memory⟩).map Stick.stickSize = sticks.map Stick.stickSize := by
    rw [List.map_set]
    have hlen : i < (sticks.map Stick.stickSize).length := by simpa using hi
    have hsame : Stick.stickSize ⟨memory⟩ = (sticks.map Stick.stickSize)[i] := by
      rw [List.getElem_map]
      exact hsize
    rw [hsame, List.set_getElem_self]
  have hplace : ∀ j, (bytesOf ((sticks.set i ⟨memory⟩).take j)).length =
      (bytesOf (sticks.take j)).length := by
    intro j
    rw [length_bytesOf, length_bytesOf, List.map_take, List.map_take, hsizes]
  ext1 j
  rw [getElem?_memorySticksOf, List.getElem?_set, List.getElem?_set, getElem?_memorySticksOf]
  by_cases hij : i = j
  · subst hij
    rw [if_pos rfl, if_pos hi, if_pos rfl, if_pos (by rwa [length_memorySticksOf])]
    simp only [Option.map_some, placedStick, hplace, Option.some.injEq,
      MemoryStickInfo.mk.injEq, and_true]
    exact congrArg UInt32.ofNat hsize
  · rw [if_neg hij, if_neg hij]
    congr 1
    funext s
    simp only [placedStick, hplace]

/-! ## The searches -/

/-- The first stick that has the address. -/
lemma findStick_eq {address : UInt32} {sticks : List MemoryStickInfo} {stick : MemoryStickInfo}
    {first j : ℕ} (hget : sticks[j]? = some stick)
    (hhas : stick.offset ≤ address ∧ address < stick.offset + stick.size)
    (hbefore : ∀ i < j, ∀ s ∈ sticks[i]?, ¬ (s.offset ≤ address ∧ address < s.offset + s.size)) :
    findStick address first sticks = some (first + j, stick) := by
  induction sticks generalizing first j with
  | nil => simp at hget
  | cons s rest ih =>
    rw [findStick]
    cases j with
    | zero =>
      obtain rfl := Option.some.inj hget
      rw [if_pos hhas, Nat.add_zero]
    | succ j =>
      rw [if_neg (hbefore 0 (by omega) s rfl), ih hget fun i hi t ht =>
        hbefore (i + 1) (by omega) t ht]
      congr 2
      omega

/-- **The two searches find the same stick** for an address below the size of the memory, which is
an `int`. -/
lemma findStick_memorySticksOf (htotal : ((bytesOf sticks).length : ℤ) ≤ INT_MAX) {a : ℕ}
    (ha : a < (bytesOf sticks).length) :
    ∃ i off stick, OsSimulator.Memory.findStick a sticks = some (i, off) ∧
      sticks[i]? = some stick ∧ off < stick.stickSize ∧
      (bytesOf (sticks.take i)).length + off = a ∧
      findStick (UInt32.ofNat a) 0 (memorySticksOf sticks) =
        some (i, placedStick sticks i stick) ∧
      (UInt32.ofNat a - (placedStick sticks i stick).offset).toNat = off := by
  unfold INT_MAX at htotal
  obtain ⟨i, off, stick, hfind, hget, hoff, hplace⟩ := OsSimulator.Memory.findStick_of_lt ha
  have hbounds : ∀ (j : ℕ) (s : Stick), sticks[j]? = some s →
      (bytesOf (sticks.take j)).length + s.stickSize ≤ (bytesOf sticks).length := by
    intro j s hs
    rw [OsSimulator.Memory.bytesOf_split hs, List.length_append, List.length_append, Stick.stickSize]
    omega
  have hends : ∀ (j : ℕ) (s : Stick), sticks[j]? = some s →
      (placedStick sticks j s).offset.toNat = (bytesOf (sticks.take j)).length ∧
        ((placedStick sticks j s).offset + (placedStick sticks j s).size).toNat =
          (bytesOf (sticks.take j)).length + s.stickSize := by
    intro j s hs
    have hle := hbounds j s hs
    simp only [placedStick, UInt32.toNat_add, UInt32.toNat_ofNat']
    omega
  have haddress : (UInt32.ofNat a).toNat = a := by
    rw [UInt32.toNat_ofNat']
    omega
  obtain ⟨hstart, hend⟩ := hends i stick hget
  refine ⟨i, off, stick, hfind, hget, hoff, hplace, ?_, ?_⟩
  · have hplaced : (memorySticksOf sticks)[i]? = some (placedStick sticks i stick) := by
      rw [getElem?_memorySticksOf, hget]
      rfl
    rw [findStick_eq hplaced ?_ ?_, Nat.zero_add]
    · rw [UInt32.le_iff_toNat_le, UInt32.lt_iff_toNat_lt, hstart, hend, haddress]
      omega
    · -- a stick before it ends before the address
      intro j hj s hs
      rw [getElem?_memorySticksOf] at hs
      obtain ⟨t, ht, rfl⟩ := Option.map_eq_some_iff.1 hs
      obtain ⟨-, hend'⟩ := hends j t ht
      have hprefix : (bytesOf (sticks.take j)).length + t.stickSize ≤
          (bytesOf (sticks.take i)).length := by
        have htake : (sticks.take i)[j]? = some t := by rw [List.getElem?_take_of_lt hj, ht]
        rw [OsSimulator.Memory.bytesOf_split htake, List.take_take, min_eq_left hj.le,
          List.length_append, List.length_append, Stick.stickSize]
        omega
      rw [UInt32.lt_iff_toNat_lt, hend', haddress]
      omega
  · rw [UInt32.toNat_sub_of_le _ _ (by rw [UInt32.le_iff_toNat_le, hstart, haddress]; omega), hstart,
      haddress]
    omega

end OsSimulator.Cpu
