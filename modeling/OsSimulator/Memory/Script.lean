import OsSimulator.Cpu.Structs
import OsSimulator.Utils.Lines

set_option relaxedAutoImplicit false
set_option autoImplicit false

/-!
# Loading a script

`init_process` reads the script of a process in two passes, with `fgets` into a buffer of 256 bytes:
the first counts the instructions and the second stores them. What `fgets` returns is a line only
when the line fits in the buffer.

## Main definitions

* `countInstructions`, `loadInstructions` — the two passes.
* `initProcess` — `init_process`.
* `LinesFit` — every line fits in the buffer with its newline, or ends the file.

## Main results

* `length_loadInstructions` — the passes agree, on any file.
* `loadInstructions_eq` — the instructions are the parts of at most 255 bytes.
* `loadedExactly_iff` — the instructions are the lines exactly when these fit.
-/

namespace OsSimulator.Memory

open OsSimulator.Cpu (Registers)

/-- `sizeof(line)`. -/
def LINE_SIZE : ℕ := 256

/-- The loop of `count_instructions`, which reads at least a byte in every round. -/
def countInstructionsLoop : ℕ → List UInt8 → ℕ
  | 0, _ => 0
  | rounds + 1, file =>
    match fgets LINE_SIZE file with
    | none => 0
    | some (_, rest) => countInstructionsLoop rounds rest + 1

/-- `count_instructions`. -/
def countInstructions (file : List UInt8) : ℕ := countInstructionsLoop (file.length + 1) file

/-- `line[strcspn(line, "\\n")] = '\\0'` and `strdup(line)`. -/
def instructionOf (line : List UInt8) : List UInt8 :=
  (cString line).takeWhile fun b => b ≠ NEWLINE

/-- The loop of `init_process`. -/
def loadInstructions : ℕ → List UInt8 → List (List UInt8)
  | 0, _ => []
  | rounds + 1, file =>
    match fgets LINE_SIZE file with
    | none => []
    | some (line, rest) => instructionOf line :: loadInstructions rounds rest

/-- `t_process`, without the path of its script and the list of segments, which nobody reads. -/
structure Process where
  pid : UInt32
  instructionCount : ℕ
  instructions : List (List UInt8)
  registers : Registers
  deriving DecidableEq, Repr

/-- `init_process`. The file is `none` when `fopen` fails, and so is the process then. -/
def initProcess (pid : UInt32) (file : Option (List UInt8)) : Option Process :=
  file.map fun file =>
    { pid := pid
      instructionCount := countInstructions file
      instructions := loadInstructions (file.length + 1) file
      registers := ⟨0, 0, 0, 0, 0, 0, 0, 0, 0, 0, 0⟩ }

/-! ## Lines -/

/-- **Every line fits in the buffer**: with its newline, or without one at the end of the file. -/
def LinesFit (file : List UInt8) : Prop :=
  (∀ line ∈ (file.splitOn NEWLINE).dropLast, line.length ≤ 254) ∧
    ∀ line ∈ (file.splitOn NEWLINE).getLast?, line.length ≤ 255

/-- **The script is loaded line by line**: there are as many instructions as lines, and each is the
line of its number. -/
def LoadedExactly (file : List UInt8) : Prop :=
  ∀ pid, ∃ process, initProcess pid (some file) = some process ∧
    process.instructionCount = (fileLines file).length ∧
    ∀ i : ℕ, process.instructions[i]? = (fileLines file)[i]?

/-- The lines fit if they are within 255 bytes. -/
lemma linesFit_iff (file : List UInt8) : LinesFit file ↔ LinesWithin 255 file := by
  simp only [LinesFit, LinesWithin, Nat.lt_succ_iff]

/-! ### A round -/

/-- **The two passes agree**, on any file. -/
theorem length_loadInstructions (rounds : ℕ) (file : List UInt8) :
    (loadInstructions rounds file).length = countInstructionsLoop rounds file := by
  induction rounds generalizing file with
  | zero => rfl
  | succ rounds ih =>
    rw [loadInstructions, countInstructionsLoop]
    cases fgets LINE_SIZE file with
    | none => rfl
    | some read => exact congrArg (· + 1) (ih read.2)

/-- A last line is its instruction. -/
lemma instructionOf_line {line : List UInt8} (hzero : 0 ∉ line) (hline : NEWLINE ∉ line) :
    instructionOf line = line := by
  rw [instructionOf, cString_of_not_mem hzero, List.takeWhile_eq_self_iff]
  intro b hb
  exact decide_eq_true fun heq => hline (heq ▸ hb)

/-- A line is its instruction without the end. -/
lemma instructionOf_line_append {line : List UInt8} (hzero : 0 ∉ line) (hline : NEWLINE ∉ line) :
    instructionOf (line ++ [NEWLINE]) = line := by
  have hself : line.takeWhile (fun b => b ≠ NEWLINE) = line := by
    have hinstruction := instructionOf_line hzero hline
    rwa [instructionOf, cString_of_not_mem hzero] at hinstruction
  rw [instructionOf, cString_of_not_mem (by simp [hzero, NEWLINE]), List.takeWhile_append,
    if_pos (by rw [hself])]
  simp

/-- What `fgets` has read is an instruction without its newline. -/
lemma instructionOf_fgetsBytes {n : ℕ} {file : List UInt8} (hzero : 0 ∉ fgetsBytes n file) :
    instructionOf (fgetsBytes n file) = withoutNewline (fgetsBytes n file) := by
  have hline := newline_not_mem_withoutNewline n file
  by_cases hlast : (fgetsBytes n file).getLast? = some NEWLINE
  · obtain ⟨line, heq⟩ : ∃ line, fgetsBytes n file = line ++ [NEWLINE] :=
      List.getLast?_eq_some_iff.1 hlast
    rw [withoutNewline, if_pos hlast, heq, List.dropLast_concat] at hline ⊢
    exact instructionOf_line_append (fun h => hzero (heq ▸ List.mem_append_left _ h)) hline
  · rw [withoutNewline, if_neg hlast] at hline ⊢
    exact instructionOf_line hzero hline

/-- **The instructions are the parts of at most 255 bytes** of a script without zero bytes. -/
lemma loadInstructions_eq (rounds : ℕ) {file : List UInt8} (hzero : 0 ∉ file) :
    loadInstructions rounds file = fileParts 255 rounds file := by
  induction rounds generalizing file with
  | zero => rfl
  | succ rounds ih =>
    rw [loadInstructions, fileParts]
    by_cases hempty : file = []
    · rw [hempty, fgets_nil, if_pos rfl]
    · rw [fgets_of_pos (by decide) hempty, if_neg hempty]
      have hread : 0 ∉ fgetsBytes 255 file := fun h =>
        hzero ((fgetsBytes_isPrefix 255 file).subset h)
      exact congrArg₂ List.cons (instructionOf_fgetsBytes hread)
        (ih fun h => hzero (List.mem_of_mem_drop h))

/-- **A script without zero bytes is loaded line by line exactly when its lines fit.** -/
theorem loadedExactly_iff {file : List UInt8} (hzero : 0 ∉ file) :
    LoadedExactly file ↔ LinesFit file := by
  rw [linesFit_iff, ← fileParts_eq_iff (by omega) (Nat.le_succ file.length),
    ← loadInstructions_eq _ hzero]
  constructor
  · intro h
    obtain ⟨process, hprocess, -, hinstructions⟩ := h 0
    obtain rfl := Option.some.inj hprocess
    exact List.ext_getElem? hinstructions
  · intro h pid
    refine ⟨_, rfl, ?_, fun i => ?_⟩
    · rw [← h, length_loadInstructions]
      rfl
    · rw [← h]

/-- `"SET AX 1\nEXIT"`. -/
def shortScript : List UInt8 := [83, 69, 84, 32, 65, 88, 32, 49, 10, 69, 88, 73, 84]

/-- Two lines, the last one without a newline. -/
theorem loadedExactly_shortScript : 0 ∉ shortScript ∧ LoadedExactly shortScript := by
  have hzero : 0 ∉ shortScript := by decide
  refine ⟨hzero, (loadedExactly_iff hzero).2 ⟨?_, ?_⟩⟩
  · decide
  · decide

/-- A line of 255 characters and an instruction behind it: the newline is an instruction of its own,
and the other one is the third. -/
theorem not_loadedExactly_of_long_line :
    fileLines (List.replicate 255 35 ++ NEWLINE :: [69, 88, 73, 84]) =
      [List.replicate 255 35, [69, 88, 73, 84]] ∧
    loadInstructions 261 (List.replicate 255 35 ++ NEWLINE :: [69, 88, 73, 84]) =
      [List.replicate 255 35, [], [69, 88, 73, 84]] ∧
    ¬ LoadedExactly (List.replicate 255 35 ++ NEWLINE :: [69, 88, 73, 84]) := by
  have hline : NEWLINE ∉ List.replicate 255 (35 : UInt8) := by
    rw [List.mem_replicate]
    decide
  have hzero : 0 ∉ List.replicate 255 (35 : UInt8) := by
    rw [List.mem_replicate]
    decide
  have hlength : (List.replicate 255 (35 : UInt8)).length = 255 := List.length_replicate
  have hlines : fileLines (List.replicate 255 35 ++ NEWLINE :: [69, 88, 73, 84]) =
      [List.replicate 255 35, [69, 88, 73, 84]] := by
    rw [fileLines_line_append hline]
    rfl
  have hfile : 0 ∉ List.replicate 255 (35 : UInt8) ++ NEWLINE :: [69, 88, 73, 84] := by
    rw [List.mem_append, not_or]
    exact ⟨hzero, by decide⟩
  have hload : loadInstructions 261 (List.replicate 255 35 ++ NEWLINE :: [69, 88, 73, 84]) =
      [List.replicate 255 35, [], [69, 88, 73, 84]] := by
    have htail : fileParts 255 260 (NEWLINE :: [69, 88, 73, 84]) = [[], [69, 88, 73, 84]] := rfl
    rw [loadInstructions_eq _ hfile, fileParts_long (by omega) hline hlength.ge (.inr rfl),
      List.take_of_length_le hlength.le, List.drop_eq_nil_of_le hlength.le, List.nil_append, htail]
  refine ⟨hlines, hload, fun h => ?_⟩
  obtain ⟨process, hprocess, hcount, -⟩ := h 0
  obtain rfl := Option.some.inj hprocess
  have hrounds : (List.replicate 255 35 ++ NEWLINE :: [69, 88, 73, 84]).length + 1 = 261 := by
    rw [List.length_append, hlength]
    rfl
  simp only [countInstructions] at hcount
  rw [← length_loadInstructions, hrounds, hload, hlines] at hcount
  exact absurd hcount (by decide)

end OsSimulator.Memory
