import Mathlib.Algebra.Order.Ring.Nat
import OsSimulator.Library.ByteStore

set_option relaxedAutoImplicit false
set_option autoImplicit false

/-!
# The swap file

`swap.c` of the Swap module: the blocks are stretches of one file, each at its number times the size
of a block. Seen from outside, the file is a list of blocks.

## Main definitions

* `initSwapFile`, `writeBlock`, `readBlock` — the file, and the access to a block.
* `fileBlocks` — the blocks of a file.

## Main results

* `readBlock_writeBlock_self`, `readBlock_writeBlock_of_ne` — a block that is read after a write.
* `fileBlocks_writeBlock`, `getElem?_fileBlocks` — the file as a list of blocks.
-/

namespace OsSimulator.Swap

/-- `init_swap_file`: a new file, resized. -/
def initSwapFile (swapSize : ℕ) : List UInt8 := List.replicate swapSize 0

/-- The position `seek_block` goes to. -/
def seekBlock (blockNumber blockSize : ℕ) : ℕ := blockNumber * blockSize

/-- `fwrite` at a position. A file that ends in front of it is filled up with zeros. -/
def fwrite (file : List UInt8) (position : ℕ) (bytes : List UInt8) : List UInt8 :=
  splice (file ++ List.replicate (position - file.length) 0) position bytes

/-- `write_block`. -/
def writeBlock (swapFile : List UInt8) (blockNumber blockSize : ℕ) (content : List UInt8) :
    List UInt8 :=
  fwrite swapFile (seekBlock blockNumber blockSize) (content.take blockSize)

/-- `read_block`. What is in the buffer is not determined when the file has not got the whole
block. -/
def readBlock (swapFile : List UInt8) (blockNumber blockSize : ℕ) : Option (List UInt8) :=
  if seekBlock blockNumber blockSize + blockSize ≤ swapFile.length then
    some (slice swapFile (seekBlock blockNumber blockSize) blockSize)
  else none

/-- The first blocks of a file. -/
def fileBlocks (blockSize count : ℕ) (swapFile : List UInt8) : List (List UInt8) :=
  (List.range count).map fun n => slice swapFile (seekBlock n blockSize) blockSize

section Blocks

variable {swapFile content : List UInt8} {m n blockSize count : ℕ}

/-- The blocks in front of another end where it starts. -/
lemma seekBlock_add_le (h : m < n) :
    seekBlock m blockSize + blockSize ≤ seekBlock n blockSize := by
  rw [seekBlock, ← Nat.succ_mul, seekBlock]
  exact Nat.mul_le_mul_right blockSize h

/-- A block in the file is written at its place. -/
lemma writeBlock_eq (hcontent : content.length = blockSize)
    (hinside : seekBlock n blockSize + blockSize ≤ swapFile.length) :
    writeBlock swapFile n blockSize content =
      splice swapFile (seekBlock n blockSize) content := by
  rw [writeBlock, fwrite, List.take_of_length_le hcontent.le, Nat.sub_eq_zero_of_le (by omega),
    List.replicate_zero, List.append_nil]

/-- A write to a block of the file keeps its size. -/
lemma length_writeBlock (hcontent : content.length = blockSize)
    (hinside : seekBlock n blockSize + blockSize ≤ swapFile.length) :
    (writeBlock swapFile n blockSize content).length = swapFile.length := by
  rw [writeBlock_eq hcontent hinside, length_splice (by rw [hcontent]; exact hinside)]

/-- **A block that was written is read.** -/
lemma readBlock_writeBlock_self (hcontent : content.length = blockSize)
    (hinside : seekBlock n blockSize + blockSize ≤ swapFile.length) :
    readBlock (writeBlock swapFile n blockSize content) n blockSize = some content := by
  have hread := @slice_splice_self _ swapFile content (seekBlock n blockSize)
    (by rw [hcontent]; exact hinside)
  rw [hcontent] at hread
  rw [readBlock, if_pos (by rw [length_writeBlock hcontent hinside]; exact hinside),
    writeBlock_eq hcontent hinside, hread]

/-- The other blocks are as they were. -/
lemma slice_writeBlock_of_ne (hcontent : content.length = blockSize)
    (hinside : seekBlock n blockSize + blockSize ≤ swapFile.length) (hne : m ≠ n) :
    slice (writeBlock swapFile n blockSize content) (seekBlock m blockSize) blockSize =
      slice swapFile (seekBlock m blockSize) blockSize := by
  rw [writeBlock_eq hcontent hinside]
  apply slice_splice_of_disjoint (by rw [hcontent]; exact hinside)
  rw [hcontent]
  rcases Nat.lt_or_gt_of_ne hne with hlt | hgt
  · exact .inl (seekBlock_add_le hlt)
  · exact .inr (seekBlock_add_le hgt)

/-- The other blocks stay. -/
lemma readBlock_writeBlock_of_ne (hcontent : content.length = blockSize)
    (hinside : seekBlock n blockSize + blockSize ≤ swapFile.length) (hne : m ≠ n) :
    readBlock (writeBlock swapFile n blockSize content) m blockSize =
      readBlock swapFile m blockSize := by
  rw [readBlock, readBlock, length_writeBlock hcontent hinside,
    slice_writeBlock_of_ne hcontent hinside hne]

/-! ## The file as a list of blocks -/

/-- A block of the file is read. -/
lemma getElem?_fileBlocks (hcount : seekBlock count blockSize ≤ swapFile.length) (hn : n < count) :
    (fileBlocks blockSize count swapFile)[n]? = readBlock swapFile n blockSize := by
  rw [readBlock, if_pos ((seekBlock_add_le hn).trans hcount), fileBlocks, List.getElem?_map,
    List.getElem?_range hn, Option.map_some]

/-- **A write to a block of the file changes the block.** -/
lemma fileBlocks_writeBlock (hcount : seekBlock count blockSize ≤ swapFile.length) (hn : n < count)
    (hcontent : content.length = blockSize) :
    fileBlocks blockSize count (writeBlock swapFile n blockSize content) =
      (fileBlocks blockSize count swapFile).set n content := by
  have hinside := (@seekBlock_add_le n count blockSize hn).trans hcount
  have hcount' : seekBlock count blockSize ≤ (writeBlock swapFile n blockSize content).length := by
    rw [length_writeBlock hcontent hinside]
    exact hcount
  have hlength : ∀ file, (fileBlocks blockSize count file).length = count := by simp [fileBlocks]
  ext1 m
  rcases Nat.lt_or_ge m count with hm | hm
  · rw [getElem?_fileBlocks hcount' hm, List.getElem?_set, hlength, if_pos hn]
    by_cases hne : n = m
    · rw [if_pos hne, ← hne, readBlock_writeBlock_self hcontent hinside]
    · rw [if_neg hne, readBlock_writeBlock_of_ne hcontent hinside (Ne.symm hne),
        getElem?_fileBlocks hcount hm]
  · rw [List.getElem?_eq_none (by rw [hlength]; exact hm),
      List.getElem?_eq_none (by rw [List.length_set, hlength]; exact hm)]

end Blocks

/-- The blocks of a new file are full of zeros. -/
lemma fileBlocks_initSwapFile {swapSize blockSize count : ℕ}
    (h : seekBlock count blockSize ≤ swapSize) :
    fileBlocks blockSize count (initSwapFile swapSize) =
      List.replicate count (List.replicate blockSize 0) := by
  rw [List.eq_replicate_iff]
  refine ⟨by simp [fileBlocks], fun block hblock => ?_⟩
  obtain ⟨n, hn, rfl⟩ := List.mem_map.1 hblock
  have hinside := (@seekBlock_add_le n count blockSize (List.mem_range.1 hn)).trans h
  rw [slice, initSwapFile, List.drop_replicate, List.take_replicate, min_eq_left (by omega)]

end OsSimulator.Swap
