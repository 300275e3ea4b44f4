import OsSimulator.Utils.File

set_option relaxedAutoImplicit false
set_option autoImplicit false

/-!
# Files read line by line

A function that reads at most so many bytes of a line at a time gives the lines of a file exactly
when these are shorter. `file_read_line` is such a function, for 2³¹ − 1 bytes.

## Main definitions

* `fileLines` — the lines of a file.
* `LinesWithin` — every line is shorter than the given number of bytes.
* `fileParts` — what a function that reads at most so many bytes of a line gives.
* `ReadByLines` — the calls of `file_read_line` give the lines of a file.

## Main results

* `fileParts_eq_iff` — the parts are the lines exactly when these are short.
* `readByLines_iff` — so it is with `file_read_line`.
-/

namespace OsSimulator

/-- The lines of a file: what is between the newlines, and what is behind the last one unless that
is nothing. -/
def fileLines (file : List UInt8) : List (List UInt8) :=
  (file.splitOn NEWLINE).dropLast ++ (file.splitOn NEWLINE).getLast?.toList.filter (· ≠ [])

/-- **Every line is short**: it has fewer bytes than the given number in front of its newline, or at
most as many at the end of the file. -/
def LinesWithin (n : ℕ) (file : List UInt8) : Prop :=
  (∀ line ∈ (file.splitOn NEWLINE).dropLast, line.length < n) ∧
    ∀ line ∈ (file.splitOn NEWLINE).getLast?, line.length ≤ n

/-- What is read of a file by so many calls, each of which reads at most `n` bytes of a line. -/
def fileParts (n : ℕ) : ℕ → List UInt8 → List (List UInt8)
  | 0, _ => []
  | calls + 1, file =>
    if file = [] then []
    else
      let read := fgetsBytes n file
      withoutNewline read :: fileParts n calls (file.drop read.length)

/-! ## Lines -/

/-- A line alone. -/
lemma splitOn_line {line : List UInt8} (h : NEWLINE ∉ line) : line.splitOn NEWLINE = [line] := by
  rw [List.splitOn_eq_splitOnP]
  apply List.splitOnP_eq_singleton
  intro b hb
  exact beq_eq_false_iff_ne.2 fun heq => h (heq ▸ hb)

/-- A line in front of others. -/
lemma splitOn_line_append {line : List UInt8} (h : NEWLINE ∉ line) (rest : List UInt8) :
    (line ++ NEWLINE :: rest).splitOn NEWLINE = line :: rest.splitOn NEWLINE := by
  rw [List.splitOn_eq_splitOnP, List.splitOn_eq_splitOnP]
  apply List.splitOnP_append_cons_of_forall_mem
  · intro b hb
    exact beq_eq_false_iff_ne.2 fun heq => h (heq ▸ hb)
  · exact beq_self_eq_true _

/-- A file has at least one part. -/
lemma splitOn_ne_nil (file : List UInt8) : file.splitOn NEWLINE ≠ [] := by
  rw [List.splitOn_eq_splitOnP]
  exact List.splitOnP_ne_nil _ _

/-- The last line has no newline. -/
lemma fileLines_line {line : List UInt8} (h : NEWLINE ∉ line) (hne : line ≠ []) :
    fileLines line = [line] := by
  rw [fileLines, splitOn_line h]
  simp [hne]

/-- The first line and the others. -/
lemma fileLines_line_append {line : List UInt8} (h : NEWLINE ∉ line) (rest : List UInt8) :
    fileLines (line ++ NEWLINE :: rest) = line :: fileLines rest := by
  rw [fileLines, splitOn_line_append h, List.dropLast_cons_of_ne_nil (splitOn_ne_nil rest),
    List.getLast?_cons_of_ne_nil (splitOn_ne_nil rest), fileLines, List.cons_append]

/-- A line alone is within its length. -/
lemma linesWithin_line {n : ℕ} {line : List UInt8} (h : NEWLINE ∉ line) :
    LinesWithin n line ↔ line.length ≤ n := by
  rw [LinesWithin, splitOn_line h]
  simp

/-- The end of a line that is not the last one counts too. -/
lemma linesWithin_line_append {n : ℕ} {line : List UInt8} (h : NEWLINE ∉ line)
    (rest : List UInt8) :
    LinesWithin n (line ++ NEWLINE :: rest) ↔ line.length < n ∧ LinesWithin n rest := by
  rw [LinesWithin, splitOn_line_append h, List.dropLast_cons_of_ne_nil (splitOn_ne_nil rest),
    List.getLast?_cons_of_ne_nil (splitOn_ne_nil rest), List.forall_mem_cons, and_assoc,
    LinesWithin]

/-- A file ends, has a last line, or begins with a line. -/
lemma line_cases (file : List UInt8) :
    ∃ line, NEWLINE ∉ line ∧ (file = line ∨ ∃ rest, file = line ++ NEWLINE :: rest) := by
  induction file with
  | nil => exact ⟨[], List.not_mem_nil, .inl rfl⟩
  | cons b file ih =>
    by_cases hb : b = NEWLINE
    · exact ⟨[], List.not_mem_nil, .inr ⟨file, by rw [hb, List.nil_append]⟩⟩
    · obtain ⟨line, hline, hfile⟩ := ih
      refine ⟨b :: line, ?_, ?_⟩
      · rw [List.mem_cons, not_or]
        exact ⟨Ne.symm hb, hline⟩
      · rcases hfile with rfl | ⟨rest, rfl⟩
        · exact .inl rfl
        · exact .inr ⟨rest, rfl⟩

/-- A line has its end taken off. -/
lemma newline_not_mem_withoutNewline (n : ℕ) (file : List UInt8) :
    NEWLINE ∉ withoutNewline (fgetsBytes n file) := by
  obtain ⟨line, hline, hfile⟩ := line_cases file
  obtain ⟨tail, rfl, htail⟩ : ∃ tail, file = line ++ tail ∧
      (tail = [] ∨ tail.head? = some NEWLINE) := by
    rcases hfile with rfl | ⟨rest, rfl⟩
    · exact ⟨[], (List.append_nil _).symm, .inl rfl⟩
    · exact ⟨_, rfl, .inr rfl⟩
  rw [withoutNewline_fgetsBytes n hline htail]
  exact fun h => hline (List.mem_of_mem_take h)

/-! ## Parts of lines -/

/-- An empty file has no parts. -/
@[simp] lemma fileParts_nil (n calls : ℕ) : fileParts n calls [] = [] := by
  cases calls with
  | zero => rfl
  | succ calls => rfl

/-- A line that is short, with its newline. -/
lemma fileParts_line_append {n calls : ℕ} {line : List UInt8} (hline : NEWLINE ∉ line)
    (hlt : line.length < n) (rest : List UInt8) :
    fileParts n (calls + 1) (line ++ NEWLINE :: rest) = line :: fileParts n calls rest := by
  have hpart := withoutNewline_fgetsBytes n hline (.inr (List.head?_cons (l := rest)))
  rw [List.take_of_length_le hlt.le] at hpart
  rw [fileParts, if_neg (by simp)]
  dsimp only
  rw [hpart, fgetsBytes_newline hline hlt]
  simp

/-- A last line that is short. -/
lemma fileParts_line {n calls : ℕ} {line : List UInt8} (hline : NEWLINE ∉ line) (hne : line ≠ [])
    (hle : line.length ≤ n) : fileParts n (calls + 1) line = [line] := by
  have hpart := withoutNewline_fgetsBytes n hline (.inl rfl)
  rw [List.append_nil, List.take_of_length_le hle] at hpart
  rw [fileParts, if_neg hne]
  dsimp only
  rw [hpart, fgetsBytes_end hline hle, List.drop_length, fileParts_nil]

/-- As much of a line as may be read, when there is more. -/
lemma fileParts_long {n calls : ℕ} (hn : 0 < n) {line : List UInt8} (hline : NEWLINE ∉ line)
    (hge : n ≤ line.length) {tail : List UInt8} (htail : tail = [] ∨ tail.head? = some NEWLINE) :
    fileParts n (calls + 1) (line ++ tail) =
      line.take n :: fileParts n calls (line.drop n ++ tail) := by
  have hne : line ++ tail ≠ [] := by
    have hne : line ≠ [] := List.length_pos_iff.1 (by omega)
    simp [hne]
  rw [fileParts, if_neg hne]
  dsimp only
  rw [withoutNewline_fgetsBytes n hline htail, fgetsBytes_of_le hline hge,
    List.length_take_of_le hge, List.drop_append_of_le_length hge]

/-- There are at least as many parts as lines. -/
lemma length_fileLines_le {n calls : ℕ} (hn : 0 < n) {file : List UInt8}
    (hcalls : file.length ≤ calls) :
    (fileLines file).length ≤ (fileParts n calls file).length := by
  induction calls generalizing file with
  | zero =>
    obtain rfl : file = [] := List.length_eq_zero_iff.1 (by omega)
    exact Nat.zero_le _
  | succ calls ih =>
    obtain ⟨line, hline, rfl | ⟨rest, rfl⟩⟩ := line_cases file
    · by_cases hempty : file = []
      · subst hempty
        exact Nat.zero_le _
      · rw [fileLines_line hline hempty, fileParts, if_neg hempty]
        exact Nat.succ_le_succ (Nat.zero_le _)
    · rw [List.length_append, List.length_cons] at hcalls
      rw [fileLines_line_append hline]
      rcases Nat.lt_or_ge line.length n with hlt | hge
      · rw [fileParts_line_append hline hlt, List.length_cons, List.length_cons]
        exact Nat.succ_le_succ (ih (by omega))
      · have hdrop : NEWLINE ∉ line.drop n := fun h => hline (List.mem_of_mem_drop h)
        have hshort : (line.drop n ++ NEWLINE :: rest).length ≤ calls := by
          rw [List.length_append, List.length_drop, List.length_cons]
          omega
        have hle := ih hshort
        rw [fileLines_line_append hdrop, List.length_cons] at hle
        rw [fileParts_long hn hline hge (.inr rfl), List.length_cons, List.length_cons]
        omega

/-- **The parts are the lines exactly when these are short.**

**Proof sketch.** Induction on the calls. A line that is not short gives one part for its first
bytes, and at least one for what is behind them, its newline alone included. -/
theorem fileParts_eq_iff {n calls : ℕ} (hn : 0 < n) {file : List UInt8}
    (hcalls : file.length ≤ calls) :
    fileParts n calls file = fileLines file ↔ LinesWithin n file := by
  induction calls generalizing file with
  | zero =>
    obtain rfl : file = [] := List.length_eq_zero_iff.1 (by omega)
    rw [linesWithin_line List.not_mem_nil]
    exact ⟨fun _ => Nat.zero_le n, fun _ => rfl⟩
  | succ calls ih =>
    obtain ⟨line, hline, rfl | ⟨rest, rfl⟩⟩ := line_cases file
    · by_cases hempty : file = []
      · subst hempty
        rw [linesWithin_line List.not_mem_nil]
        exact ⟨fun _ => Nat.zero_le n, fun _ => rfl⟩
      · rw [fileLines_line hline hempty, linesWithin_line hline]
        rcases Nat.lt_or_ge n file.length with hlong | hle
        · refine ⟨fun heq => ?_, fun hle => absurd hle (by omega)⟩
          have hparts := @fileParts_long n calls hn file hline hlong.le [] (.inl rfl)
          rw [List.append_nil, heq, List.append_nil] at hparts
          have hdrop : NEWLINE ∉ file.drop n := fun h => hline (List.mem_of_mem_drop h)
          have hlen : (file.drop n).length ≤ calls := by
            rw [List.length_drop]
            omega
          have hrest := length_fileLines_le hn hlen
          have hne : file.drop n ≠ [] := List.length_pos_iff.1 (by rw [List.length_drop]; omega)
          rw [fileLines_line hdrop hne, ← (List.cons.inj hparts).2] at hrest
          exact absurd hrest (by simp)
        · rw [fileParts_line hline hempty hle]
          exact ⟨fun _ => hle, fun _ => rfl⟩
    · rw [List.length_append, List.length_cons] at hcalls
      rw [fileLines_line_append hline, linesWithin_line_append hline]
      rcases Nat.lt_or_ge line.length n with hlt | hge
      · rw [fileParts_line_append hline hlt, List.cons.injEq, ih (by omega)]
        exact ⟨fun h => ⟨hlt, h.2⟩, fun h => ⟨rfl, h.2⟩⟩
      · refine ⟨fun heq => ?_, fun hfit => absurd hfit.1 (by omega)⟩
        rw [fileParts_long hn hline hge (.inr rfl)] at heq
        have hdrop : NEWLINE ∉ line.drop n := fun h => hline (List.mem_of_mem_drop h)
        have hlen : (line.drop n ++ NEWLINE :: rest).length ≤ calls := by
          rw [List.length_append, List.length_drop, List.length_cons]
          omega
        have hrest := length_fileLines_le hn hlen
        rw [fileLines_line_append hdrop, (List.cons.inj heq).2, List.length_cons] at hrest
        exact absurd hrest (by omega)

/-! ## The calls of `file_read_line` -/

/-- What is left of a file after so many calls. -/
def remaining : ℕ → List UInt8 → List UInt8
  | 0, file => file
  | calls + 1, file => remaining calls (fileReadLine file).2

/-- **A file is read line by line**: the calls return its lines, in order, and then `NULL`. None of
them writes behind the end of its buffer, and each ends. -/
structure ReadByLines (file : List UInt8) : Prop where
  returned : ∀ calls : ℕ, (fileReadLine (remaining calls file)).1 = (fileLines file)[calls]?
  inside : ∀ calls b, Relation.ReflTransGen LineBuffer.Follows (.start (remaining calls file)) b →
    b.WritesInside
  ends : ∀ calls, ∃ rounds, fileReadLineLoop rounds (.start (remaining calls file)) =
    some (fileReadLine (remaining calls file))

/-- A call that returns has ended. -/
lemma fileReadLineLoop_start (file : List UInt8) :
    fileReadLineLoop (file.length + 1) (.start file) = some (fileReadLine file) := by
  obtain ⟨result, hresult⟩ := Option.isSome_iff_exists.1
    (isSome_fileReadLineLoop (LineBuffer.sized_start file) (Nat.lt_succ_self file.length))
  rw [fileReadLine, hresult, Option.getD_some]

/-- **The calls return the parts of at most 2³¹ − 1 bytes.** -/
lemma fileReadLine_remaining (i : ℕ) {calls : ℕ} {file : List UInt8} (hzero : 0 ∉ file)
    (hcalls : file.length ≤ calls) :
    (fileReadLine (remaining i file)).1 = (fileParts 2147483647 calls file)[i]? := by
  induction i generalizing calls file with
  | zero =>
    have hread : 0 ∉ fgetsBytes 2147483647 file := fun h =>
      hzero ((fgetsBytes_isPrefix _ file).subset h)
    rw [remaining, fileReadLine_eq hread]
    by_cases hempty : file = []
    · rw [if_pos hempty, hempty, fileParts_nil]
      rfl
    · obtain ⟨calls, rfl⟩ : ∃ n, calls = n + 1 :=
        ⟨calls - 1, by have hpos := List.length_pos_iff.2 hempty; omega⟩
      rw [if_neg hempty, fileParts, if_neg hempty]
      rfl
  | succ i ih =>
    have hread : 0 ∉ fgetsBytes 2147483647 file := fun h =>
      hzero ((fgetsBytes_isPrefix _ file).subset h)
    rw [remaining, fileReadLine_eq hread]
    dsimp only
    by_cases hempty : file = []
    · subst hempty
      rw [List.drop_nil, ih hzero hcalls, fileParts_nil, List.getElem?_nil, List.getElem?_nil]
    · have hpos := List.length_pos_iff.2 hempty
      have hne := List.length_pos_iff.2 (fgetsBytes_ne_nil (show 0 < 2147483647 by omega) hempty)
      obtain ⟨calls, rfl⟩ : ∃ n, calls = n + 1 := ⟨calls - 1, by omega⟩
      rw [fileParts, if_neg hempty, List.getElem?_cons_succ]
      refine ih (fun h => hzero (List.mem_of_mem_drop h)) ?_
      rw [List.length_drop]
      omega

/-- The calls return the lines exactly when these are short. -/
lemma fileReadLine_remaining_iff {file : List UInt8} (hzero : 0 ∉ file) :
    (∀ calls : ℕ, (fileReadLine (remaining calls file)).1 = (fileLines file)[calls]?) ↔
      LinesWithin 2147483647 file := by
  rw [← fileParts_eq_iff (by omega) (Nat.le_refl file.length)]
  constructor
  · intro h
    apply List.ext_getElem?
    intro i
    rw [← fileReadLine_remaining i hzero (Nat.le_refl _), h]
  · intro h i
    rw [fileReadLine_remaining i hzero (Nat.le_refl _), h]

/-- **`file_read_line` reads a file without zero bytes line by line exactly when its lines are
short**: fewer than 2³¹ − 1 bytes and a newline, or at most 2³¹ − 1 bytes at the end of the file. -/
theorem readByLines_iff {file : List UInt8} (hzero : 0 ∉ file) :
    ReadByLines file ↔ LinesWithin 2147483647 file := by
  rw [← fileReadLine_remaining_iff hzero]
  constructor
  · exact fun h => h.returned
  · intro h
    refine ⟨h, ?_, ?_⟩
    · intro calls b hrun
      exact LineBuffer.writesInside_of_sized
        (LineBuffer.sized_of_reflTransGen (LineBuffer.sized_start _) hrun)
    · exact fun calls => ⟨_, fileReadLineLoop_start (remaining calls file)⟩

/-- A line of 127 bytes, which fills the first buffer, and one without a newline. -/
theorem readByLines_of_full_buffer :
    ReadByLines (List.replicate 127 97 ++ NEWLINE :: [98]) := by
  have hline : NEWLINE ∉ List.replicate 127 (97 : UInt8) := by
    rw [List.mem_replicate]
    decide
  have hzero : 0 ∉ List.replicate 127 (97 : UInt8) ++ NEWLINE :: [98] := by
    rw [List.mem_append, List.mem_replicate]
    decide
  rw [readByLines_iff hzero, linesWithin_line_append hline, linesWithin_line (by decide),
    List.length_replicate]
  decide

/-- The newline behind a line of 2³¹ − 1 bytes is returned as a line of its own. -/
lemma not_readByLines_of_length_eq {line : List UInt8} (hzero : 0 ∉ line) (hline : NEWLINE ∉ line)
    (hlength : line.length = 2147483647) :
    0 ∉ line ++ [NEWLINE] ∧ fileLines (line ++ [NEWLINE]) = [line] ∧
      (fileReadLine (remaining 0 (line ++ [NEWLINE]))).1 = some line ∧
      (fileReadLine (remaining 1 (line ++ [NEWLINE]))).1 = some [] ∧
      ¬ ReadByLines (line ++ [NEWLINE]) := by
  have hzeroFile : 0 ∉ line ++ [NEWLINE] := by
    rw [List.mem_append, not_or]
    exact ⟨hzero, by decide⟩
  have hlines : fileLines (line ++ [NEWLINE]) = [line] := fileLines_line_append hline []
  have hparts : fileParts 2147483647 ((line ++ [NEWLINE]).length + 2) (line ++ [NEWLINE]) =
      [line, []] := by
    generalize (line ++ [NEWLINE]).length = calls
    rw [fileParts_long (by omega) hline hlength.ge (.inr rfl), List.take_of_length_le hlength.le,
      List.drop_eq_nil_of_le hlength.le]
    have hrest := @fileParts_line_append 2147483647 calls [] List.not_mem_nil
      (by rw [List.length_nil]; omega) []
    rw [fileParts_nil] at hrest
    rw [hrest]
  have hreturned : ∀ i, (fileReadLine (remaining i (line ++ [NEWLINE]))).1 = [line, []][i]? := by
    intro i
    rw [fileReadLine_remaining i hzeroFile (Nat.le_add_right _ 2), hparts]
  refine ⟨hzeroFile, hlines, hreturned 0, hreturned 1, fun h => ?_⟩
  have hnull := h.returned 1
  rw [hreturned 1, hlines] at hnull
  cases hnull

/-- The shortest line that is cut: `fgets` is given a size of -2147483647 for what is behind it. -/
theorem not_readByLines_of_long_line :
    0 ∉ List.replicate 2147483647 97 ++ [NEWLINE] ∧
      fileLines (List.replicate 2147483647 97 ++ [NEWLINE]) = [List.replicate 2147483647 97] ∧
      (fileReadLine (remaining 0 (List.replicate 2147483647 97 ++ [NEWLINE]))).1 =
        some (List.replicate 2147483647 97) ∧
      (fileReadLine (remaining 1 (List.replicate 2147483647 97 ++ [NEWLINE]))).1 = some [] ∧
      ¬ ReadByLines (List.replicate 2147483647 97 ++ [NEWLINE]) := by
  have hzero : 0 ∉ List.replicate 2147483647 (97 : UInt8) := by
    rw [List.mem_replicate]
    decide
  have hline : NEWLINE ∉ List.replicate 2147483647 (97 : UInt8) := by
    rw [List.mem_replicate]
    decide
  exact not_readByLines_of_length_eq hzero hline List.length_replicate

end OsSimulator
