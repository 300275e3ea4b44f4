import Mathlib.Logic.Relation
import OsSimulator.Utils.Msg

set_option relaxedAutoImplicit false
set_option autoImplicit false

/-!
# Lines of a file

`file_read_line` collects a line in a buffer that doubles when it is full. The room that is left in
the buffer is a `size_t`, and the size that `fgets` takes is an `int`: with a buffer of 2³² bytes
the size is negative, and the line ends there.

## Main definitions

* `fgets` — the function of the C library.
* `LineBuffer.round`, `fileReadLine` — a round of the loop of `file_read_line`, and the function.
* `LineBuffer.Sized` — what the buffer is between two rounds.
* `StartsWithLine` — what there is to read starts with the given line.

## Main results

* `LineBuffer.writesInside_of_sized` — no round writes behind the end of the buffer.
* `isSome_fileReadLineLoop` — the loop ends.
* `fileReadLine_eq` — what is returned is what a single `fgets` reads into 2³¹ bytes, without the
  newline.
-/

namespace OsSimulator

/-- `'\n'`. -/
def NEWLINE : UInt8 := 10

/-- The bytes that `fgets` takes: at most the given number, up to the end of a line. -/
def fgetsBytes : ℕ → List UInt8 → List UInt8
  | 0, _ => []
  | _ + 1, [] => []
  | n + 1, b :: rest => if b = NEWLINE then [b] else b :: fgetsBytes n rest

/-- `fgets`, which leaves one byte of the buffer for the terminator: what it reads, and what is left
of the file. The size is an `int`, and one that is not positive gives `NULL`. -/
def fgets (size : ℤ) (file : List UInt8) : Option (List UInt8 × List UInt8) :=
  if size ≤ 0 ∨ file = [] then none
  else
    let read := fgetsBytes (size.toNat - 1) file
    some (read, file.drop read.length)

-- the size it is given is slow to unfold
attribute [local irreducible] fgets

/-- `INITIAL_CAPACITY`. -/
def INITIAL_CAPACITY : ℕ := 128

/-- The variables of `file_read_line` between two rounds: `line` are the `length` characters in the
buffer, and `file` is what is left of the file. -/
structure LineBuffer where
  capacity : ℕ
  line : List UInt8
  file : List UInt8
  deriving DecidableEq, Repr

/-- What a round comes to: the function returns, or the next round begins. -/
inductive LineRound
  | returned (line : Option (List UInt8)) (file : List UInt8)
  | next (buffer : LineBuffer)
  deriving DecidableEq, Repr

namespace LineBuffer

/-- The variables before the first round. -/
def start (file : List UInt8) : LineBuffer := ⟨INITIAL_CAPACITY, [], file⟩

/-- The size that `fgets` is given: the conversion of a `size_t` to an `int`. -/
def size (b : LineBuffer) : ℤ := i32 (b.capacity - b.line.length)

/-- A round of the loop of `file_read_line`. -/
def round (b : LineBuffer) : LineRound :=
  match fgets b.size b.file with
  | none => .returned (if b.line.length = 0 then none else some b.line) b.file
  | some (read, rest) =>
    let line := b.line ++ cString read
    if line.getLast? = some NEWLINE then .returned (some line.dropLast) rest
    else if line.length + 1 = b.capacity then .next ⟨2 * b.capacity, line, rest⟩
    else .next ⟨b.capacity, line, rest⟩

end LineBuffer

/-- The loop of `file_read_line`: the line, or the `NULL` of a file without one, and what is left of
the file. It is `none` when it has not ended after so many rounds. -/
def fileReadLineLoop : ℕ → LineBuffer → Option (Option (List UInt8) × List UInt8)
  | 0, _ => none
  | rounds + 1, b =>
    match b.round with
    | .returned line file => some (line, file)
    | .next b => fileReadLineLoop rounds b

/-- `file_read_line`. Every round but the last reads a byte (`isSome_fileReadLineLoop`). -/
def fileReadLine (file : List UInt8) : Option (List UInt8) × List UInt8 :=
  (fileReadLineLoop (file.length + 1) (.start file)).getD (none, file)

/-! ## `fgets` -/

/-- A call reads no more than it has room for. -/
lemma length_fgetsBytes_le (n : ℕ) (file : List UInt8) : (fgetsBytes n file).length ≤ n := by
  induction n generalizing file with
  | zero => exact Nat.le_refl 0
  | succ n ih =>
    cases file with
    | nil => exact Nat.zero_le _
    | cons b rest =>
      rw [fgetsBytes]
      split
      · simp
      · simpa using ih rest

/-- What is read is the start of the file. -/
lemma fgetsBytes_isPrefix (n : ℕ) (file : List UInt8) : fgetsBytes n file <+: file := by
  induction n generalizing file with
  | zero => exact List.nil_prefix
  | succ n ih =>
    cases file with
    | nil => exact List.nil_prefix
    | cons b rest =>
      rw [fgetsBytes]
      split
      · exact ⟨rest, rfl⟩
      · exact (List.prefix_cons_inj b).2 (ih rest)

/-- It reads something where there is something and room for it. -/
lemma fgetsBytes_ne_nil {n : ℕ} (hn : 0 < n) {file : List UInt8} (hfile : file ≠ []) :
    fgetsBytes n file ≠ [] := by
  obtain ⟨n, rfl⟩ : ∃ m, n = m + 1 := ⟨n - 1, by omega⟩
  cases file with
  | nil => exact absurd rfl hfile
  | cons b rest =>
    rw [fgetsBytes]
    split <;> exact List.cons_ne_nil _ _

/-- A newline ends what is read, whatever the room. -/
lemma fgetsBytes_of_newline {m n : ℕ} (hmn : m ≤ n) {file : List UInt8}
    (h : (fgetsBytes m file).getLast? = some NEWLINE) : fgetsBytes n file = fgetsBytes m file := by
  induction m generalizing n file with
  | zero => simp [fgetsBytes] at h
  | succ m ih =>
    obtain ⟨n, rfl⟩ : ∃ k, n = k + 1 := ⟨n - 1, by omega⟩
    cases file with
    | nil => rfl
    | cons b rest =>
      rw [fgetsBytes] at h ⊢
      rw [fgetsBytes]
      by_cases hb : b = NEWLINE
      · rw [if_pos hb, if_pos hb]
      · rw [if_neg hb] at h
        rw [if_neg hb, if_neg hb]
        have hne : fgetsBytes m rest ≠ [] := by
          intro hnil
          rw [hnil, List.getLast?_singleton, Option.some.injEq] at h
          exact hb h
        rw [List.getLast?_cons_of_ne_nil hne] at h
        rw [ih (by omega) h]

/-- Without one, the next call goes on. -/
lemma fgetsBytes_add {m n : ℕ} (hmn : m ≤ n) {file : List UInt8}
    (h : (fgetsBytes m file).getLast? ≠ some NEWLINE) :
    fgetsBytes n file = fgetsBytes m file ++
      fgetsBytes (n - (fgetsBytes m file).length) (file.drop (fgetsBytes m file).length) := by
  induction m generalizing n file with
  | zero => rfl
  | succ m ih =>
    obtain ⟨n, rfl⟩ : ∃ k, n = k + 1 := ⟨n - 1, by omega⟩
    cases file with
    | nil => rfl
    | cons b rest =>
      rw [fgetsBytes] at h ⊢
      rw [fgetsBytes]
      by_cases hb : b = NEWLINE
      · rw [if_pos hb, List.getLast?_singleton, hb] at h
        exact absurd rfl h
      · rw [if_neg hb] at h
        rw [if_neg hb, if_neg hb, List.length_cons, List.drop_succ_cons, List.cons_append,
          Nat.add_sub_add_right, ← ih (by omega)]
        intro hlast
        apply h
        rw [List.getLast?_cons, hlast]
        rfl

/-- With more room, what is read begins in the same way. -/
lemma fgetsBytes_mono {m n : ℕ} (hmn : m ≤ n) (file : List UInt8) :
    fgetsBytes m file <+: fgetsBytes n file := by
  by_cases h : (fgetsBytes m file).getLast? = some NEWLINE
  · have heq := fgetsBytes_of_newline hmn h
    exact ⟨[], by rw [List.append_nil, heq]⟩
  · rw [fgetsBytes_add hmn h]
    exact List.prefix_append _ _

/-- Less than there is room for is read at the end of the file only. -/
lemma drop_fgetsBytes_of_lt {n : ℕ} {file : List UInt8}
    (h : (fgetsBytes n file).getLast? ≠ some NEWLINE) (hlt : (fgetsBytes n file).length < n) :
    file.drop (fgetsBytes n file).length = [] := by
  induction n generalizing file with
  | zero => exact absurd hlt (Nat.not_lt_zero _)
  | succ n ih =>
    cases file with
    | nil => rfl
    | cons b rest =>
      rw [fgetsBytes] at h hlt ⊢
      by_cases hb : b = NEWLINE
      · rw [if_pos hb, List.getLast?_singleton, hb] at h
        exact absurd rfl h
      · rw [if_neg hb] at h hlt ⊢
        rw [List.length_cons, List.drop_succ_cons]
        refine ih (fun hlast => h ?_) (by simpa using hlt)
        rw [List.getLast?_cons, hlast]
        rfl

/-- A line that does not fit is read as far as it fits. -/
lemma fgetsBytes_of_le {n : ℕ} {line : List UInt8} (hline : NEWLINE ∉ line) (hn : n ≤ line.length)
    (tail : List UInt8) : fgetsBytes n (line ++ tail) = line.take n := by
  induction line generalizing n with
  | nil =>
    obtain rfl : n = 0 := by simpa using hn
    rfl
  | cons b line ih =>
    cases n with
    | zero => rfl
    | succ n =>
      rw [List.cons_append, fgetsBytes, if_neg (List.ne_of_not_mem_cons hline).symm,
        ih (fun h => hline (List.mem_cons_of_mem b h)) (by simpa using hn), List.take_succ_cons]

/-- A line that fits is read with its newline. -/
lemma fgetsBytes_newline {n : ℕ} {line : List UInt8} (hline : NEWLINE ∉ line)
    (hn : line.length < n) (rest : List UInt8) :
    fgetsBytes n (line ++ NEWLINE :: rest) = line ++ [NEWLINE] := by
  induction line generalizing n with
  | nil =>
    obtain ⟨n, rfl⟩ : ∃ m, n = m + 1 := ⟨n - 1, by simp at hn; omega⟩
    rfl
  | cons b line ih =>
    obtain ⟨n, rfl⟩ : ∃ m, n = m + 1 := ⟨n - 1, by simp at hn; omega⟩
    rw [List.cons_append, fgetsBytes, if_neg (List.ne_of_not_mem_cons hline).symm,
      ih (fun h => hline (List.mem_cons_of_mem b h)) (by simpa using hn), List.cons_append]

/-- So is the last one, without a newline. -/
lemma fgetsBytes_end {n : ℕ} {line : List UInt8} (hline : NEWLINE ∉ line) (hn : line.length ≤ n) :
    fgetsBytes n line = line := by
  induction line generalizing n with
  | nil =>
    cases n with
    | zero => rfl
    | succ n => rfl
  | cons b line ih =>
    obtain ⟨n, rfl⟩ : ∃ m, n = m + 1 := ⟨n - 1, by simp at hn; omega⟩
    rw [fgetsBytes, if_neg (List.ne_of_not_mem_cons hline).symm,
      ih (fun h => hline (List.mem_cons_of_mem b h)) (by simpa using hn)]

/-- Without room `fgets` fails. -/
lemma fgets_of_nonpos {size : ℤ} (h : size ≤ 0) (file : List UInt8) : fgets size file = none := by
  rw [fgets, if_pos (.inl h)]

/-- At the end of the file it fails. -/
@[simp] lemma fgets_nil (size : ℤ) : fgets size [] = none := by
  rw [fgets, if_pos (.inr rfl)]

/-- Otherwise it reads up to the end of the line or of the room. -/
lemma fgets_of_pos {size : ℤ} (h : 0 < size) {file : List UInt8} (hfile : file ≠ []) :
    fgets size file = some (fgetsBytes (size.toNat - 1) file,
      file.drop (fgetsBytes (size.toNat - 1) file).length) := by
  rw [fgets, if_neg (not_or.2 ⟨not_le.2 h, hfile⟩)]

/-- What a call that reads has found. -/
lemma fgets_eq_some {size : ℤ} {file read rest : List UInt8}
    (h : fgets size file = some (read, rest)) :
    0 < size ∧ file ≠ [] ∧ read = fgetsBytes (size.toNat - 1) file ∧
      rest = file.drop read.length := by
  by_cases hsize : size ≤ 0
  · rw [fgets_of_nonpos hsize] at h
    cases h
  · by_cases hfile : file = []
    · rw [hfile, fgets_nil] at h
      cases h
    · rw [fgets_of_pos (not_le.1 hsize) hfile] at h
      cases h
      exact ⟨not_le.1 hsize, hfile, rfl, rfl⟩

/-! ## The buffer -/

namespace LineBuffer

/-- **The buffer between two rounds**: it has been doubled so many times, each time when it was
full, and it has room for a character and the terminator. When it has 2³² bytes it has just been
doubled. -/
def Sized (b : LineBuffer) : Prop :=
  ∃ k ≤ 25, b.capacity = 128 * 2 ^ k ∧ b.line.length + 2 ≤ b.capacity ∧
    (k ≠ 0 → 64 * 2 ^ k ≤ b.line.length + 1) ∧ (k = 25 → b.line.length + 1 = 64 * 2 ^ 25)

/-- A round follows another. -/
def Follows (b b' : LineBuffer) : Prop := b.round = .next b'

/-- **What the round writes is inside the buffer**: the characters that are read, and the
terminator. -/
def WritesInside (b : LineBuffer) : Prop :=
  ∀ read rest, fgets b.size b.file = some (read, rest) →
    b.line.length + read.length + 1 ≤ b.capacity

/-- The buffer has its size at the start. -/
lemma sized_start (file : List UInt8) : (start file).Sized :=
  ⟨0, by omega, rfl, show 0 + 2 ≤ 128 by omega, fun h => absurd rfl h,
    fun h => absurd h (by decide)⟩

/-- The size that `fgets` is given is the room in the buffer, or negative. -/
lemma size_of_sized {b : LineBuffer} (h : b.Sized) :
    (b.size = b.capacity - b.line.length ∧ 2 ≤ b.size ∧ b.capacity ≤ 2147483648) ∨
      (b.size < 0 ∧ b.capacity = 4294967296 ∧ b.line.length = 2147483647) := by
  obtain ⟨k, hk, hcapacity, hroom, hfull, hlast⟩ := h
  rcases Nat.lt_or_eq_of_le hk with hlt | rfl
  · left
    have hpow : 2 ^ k ≤ 2 ^ 24 := Nat.pow_le_pow_right (by omega) (by omega)
    have hle : (b.capacity - b.line.length : ℤ) ≤ INT_MAX := by
      unfold INT_MAX
      rcases Nat.eq_zero_or_pos k with rfl | hpos
      · omega
      · have hhalf := hfull (by omega)
        omega
    have hsize : b.size = b.capacity - b.line.length := i32_of_nonneg (by omega) hle
    exact ⟨hsize, by omega, by omega⟩
  · right
    have hlength : b.line.length = 2147483647 := by
      have hlength := hlast rfl
      omega
    have hcapacity' : b.capacity = 4294967296 := by omega
    refine ⟨?_, hcapacity', hlength⟩
    rw [size, hcapacity', hlength]
    decide

/-- What has been done when another round follows. -/
lemma next_of_follows {b b' : LineBuffer} (h : b.Follows b') :
    ∃ read rest, fgets b.size b.file = some (read, rest) ∧ b'.line = b.line ++ cString read ∧
      b'.file = rest ∧ b'.capacity =
        if b'.line.length + 1 = b.capacity then 2 * b.capacity else b.capacity := by
  unfold Follows round at h
  split at h
  · cases h
  · rename_i read rest hread
    dsimp only at h
    split at h
    · cases h
    · split at h
      · rename_i hfull
        cases h
        exact ⟨read, rest, hread, rfl, rfl, (if_pos hfull).symm⟩
      · rename_i hfull
        cases h
        exact ⟨read, rest, hread, rfl, rfl, (if_neg hfull).symm⟩

/-- **No round writes behind the end of the buffer.** -/
lemma writesInside_of_sized {b : LineBuffer} (h : b.Sized) : b.WritesInside := by
  intro read rest hread
  obtain ⟨hpos, -, hbytes, -⟩ := fgets_eq_some hread
  have hle := length_fgetsBytes_le (b.size.toNat - 1) b.file
  rw [← hbytes] at hle
  rcases size_of_sized h with ⟨hsize, -, -⟩ | ⟨hneg, -, -⟩ <;> omega

/-- A string is in its memory. -/
lemma length_cString_le (memory : List UInt8) : (cString memory).length ≤ memory.length :=
  (List.takeWhile_prefix _).length_le

/-- A round that another follows has read a byte, and keeps the buffer as it should be. -/
lemma sized_of_follows {b b' : LineBuffer} (h : b.Sized) (hnext : b.Follows b') :
    b'.Sized ∧ b'.file.length < b.file.length := by
  obtain ⟨read, rest, hread, hline, hfile, hcapacity⟩ := next_of_follows hnext
  have hinside := writesInside_of_sized h read rest hread
  obtain ⟨hpos, hne, hbytes, hrest⟩ := fgets_eq_some hread
  have hchars := length_cString_le read
  have hlength : b'.line.length = b.line.length + (cString read).length := by
    rw [hline, List.length_append]
  rcases size_of_sized h with ⟨hsize, htwo, hsmall⟩ | ⟨hneg, -, -⟩
  · refine ⟨?_, ?_⟩
    · obtain ⟨k, hk, hpow, hroom, hfull, hlast⟩ := h
      by_cases hdoubled : b'.line.length + 1 = b.capacity
      · have hk' : k + 1 ≤ 25 := by
          rcases Nat.lt_or_eq_of_le hk with hlt | rfl
          · exact hlt
          · omega
        rw [if_pos hdoubled] at hcapacity
        refine ⟨k + 1, hk', by omega, by omega, fun _ => by omega, fun heq => ?_⟩
        obtain rfl : k = 24 := by omega
        omega
      · rw [if_neg hdoubled] at hcapacity
        refine ⟨k, hk, by omega, by omega, fun hk0 => ?_, fun hk25 => ?_⟩
        · have hhalf := hfull hk0
          omega
        · subst hk25
          omega
    · have hpos := List.length_pos_iff.2
        (fgetsBytes_ne_nil (show 0 < b.size.toNat - 1 by omega) hne)
      have hfilepos := List.length_pos_iff.2 hne
      rw [hfile, hrest, hbytes, List.length_drop]
      omega
  · omega

/-- The buffer has its size in every state. -/
lemma sized_of_reflTransGen {b b' : LineBuffer} (h : b.Sized)
    (hrun : Relation.ReflTransGen Follows b b') : b'.Sized := by
  induction hrun with
  | refl => exact h
  | tail _ hstep ih => exact (sized_of_follows ih hstep).1

end LineBuffer

/-- **The loop ends**, after a round for every byte and one more. -/
lemma isSome_fileReadLineLoop {rounds : ℕ} {b : LineBuffer} (h : b.Sized)
    (hrounds : b.file.length < rounds) : (fileReadLineLoop rounds b).isSome := by
  induction rounds generalizing b with
  | zero => exact absurd hrounds (Nat.not_lt_zero _)
  | succ rounds ih =>
    rw [fileReadLineLoop]
    cases hround : b.round with
    | returned line file => rfl
    | next b' =>
      obtain ⟨hsized, hlt⟩ := LineBuffer.sized_of_follows h hround
      exact ih hsized (by omega)

/-! ## The line -/

/-- What `fgets` has read, without its newline. -/
def withoutNewline (read : List UInt8) : List UInt8 :=
  if read.getLast? = some NEWLINE then read.dropLast else read

namespace LineBuffer

/-- The buffer between two rounds, on a line without zero bytes: it was full when it was doubled,
unless the file has ended. -/
structure Whole (b : LineBuffer) : Prop where
  sized : b.Sized
  full : b.file = [] ∨ b.capacity = 128 ∧ b.line = [] ∨ b.capacity = 2 * (b.line.length + 1)
  line : b.line.getLast? ≠ some NEWLINE
  zero : 0 ∉ fgetsBytes (2147483647 - b.line.length) b.file

/-- The characters so far, and what a single `fgets` would read into the rest of 2³¹ bytes. -/
def result (b : LineBuffer) : Option (List UInt8) × List UInt8 :=
  let read := fgetsBytes (2147483647 - b.line.length) b.file
  (if b.line ++ read = [] then none else some (withoutNewline (b.line ++ read)),
    b.file.drop read.length)

/-- The last round, when there is nothing to read or nothing can be read. -/
lemma round_of_none {b : LineBuffer} (hline : b.line.getLast? ≠ some NEWLINE)
    (hnone : fgets b.size b.file = none)
    (hread : fgetsBytes (2147483647 - b.line.length) b.file = []) :
    b.round = .returned b.result.1 b.result.2 := by
  rw [result, hread, round, hnone]
  simp only [List.append_nil, List.length_nil, List.drop_zero, withoutNewline, if_neg hline,
    List.length_eq_zero_iff]

/-- **A round returns what a single `fgets` would, or leaves it to the next one.**

**Proof sketch.** A round that reads a newline ends the line; behind one that fills the buffer, the
single `fgets` goes on (`fgetsBytes_add`); any other round has reached the end of the file. With 2³²
bytes there is nothing left of the 2³¹. -/
lemma round_cases {b : LineBuffer} (h : b.Whole) :
    b.round = .returned b.result.1 b.result.2 ∨
      ∃ b', b.Follows b' ∧ b'.Whole ∧ b'.result = b.result := by
  by_cases hfile : b.file = []
  · refine .inl (round_of_none h.line (by rw [hfile, fgets_nil]) ?_)
    rw [hfile]
    exact fgetsBytes_end List.not_mem_nil (Nat.zero_le _)
  rcases size_of_sized h.sized with ⟨hsize, htwo, hsmall⟩ | ⟨hneg, -, hlength⟩
  · set room := b.size.toNat - 1 with hroom
    set read := fgetsBytes room b.file with hread
    set rest := b.file.drop read.length with hrest
    have hle : read.length ≤ room := length_fgetsBytes_le room b.file
    have hne : read ≠ [] := fgetsBytes_ne_nil (by omega) hfile
    have hzero : 0 ∉ read := fun hmem =>
      h.zero ((fgetsBytes_mono (by omega) b.file).subset hmem)
    have hround : b.round =
        if (b.line ++ read).getLast? = some NEWLINE then
          .returned (some (b.line ++ read).dropLast) rest
        else if (b.line ++ read).length + 1 = b.capacity then
          .next ⟨2 * b.capacity, b.line ++ read, rest⟩
        else .next ⟨b.capacity, b.line ++ read, rest⟩ := by
      rw [round, fgets_of_pos (by omega) hfile, ← hroom, ← hread, ← hrest]
      simp only [cString_of_not_mem hzero]
    have hlast : (b.line ++ read).getLast? = read.getLast? :=
      List.getLast?_append_of_ne_nil _ hne
    by_cases hnewline : read.getLast? = some NEWLINE
    · -- the line ends
      left
      have hsame : fgetsBytes (2147483647 - b.line.length) b.file = read :=
        fgetsBytes_of_newline (by omega) hnewline
      rw [hround, if_pos (hlast.trans hnewline), result, hsame, withoutNewline,
        if_pos (hlast.trans hnewline), if_neg (by simp [hne])]
    · right
      have hgoes : fgetsBytes (2147483647 - b.line.length) b.file =
          read ++ fgetsBytes (2147483647 - (b.line ++ read).length) rest := by
        rw [List.length_append, ← Nat.sub_sub]
        exact fgetsBytes_add (by omega) hnewline
      have hresult : ∀ capacity,
          (⟨capacity, b.line ++ read, rest⟩ : LineBuffer).result = b.result := by
        intro capacity
        rw [result, result, hgoes]
        simp only [List.append_assoc, List.length_append, ← List.drop_drop, ← hrest]
      have hzero' : 0 ∉ fgetsBytes (2147483647 - (b.line ++ read).length) rest := fun hmem =>
        h.zero (hgoes ▸ List.mem_append_right _ hmem)
      have hlast' : (b.line ++ read).getLast? ≠ some NEWLINE := hlast.symm ▸ hnewline
      rw [if_neg hlast'] at hround
      by_cases hfull : (b.line ++ read).length + 1 = b.capacity
      · -- the buffer is full, and doubled
        rw [if_pos hfull] at hround
        exact ⟨_, hround, ⟨(sized_of_follows h.sized hround).1, .inr (.inr (by rw [hfull])), hlast',
          hzero'⟩, hresult _⟩
      · -- the file has ended
        rw [if_neg hfull] at hround
        have hlt : read.length < room := by
          rw [List.length_append] at hfull
          omega
        have hend : rest = [] := drop_fgetsBytes_of_lt hnewline hlt
        exact ⟨_, hround, ⟨(sized_of_follows h.sized hround).1, .inl hend, hlast', hzero'⟩,
          hresult _⟩
  · refine .inl (round_of_none h.line (fgets_of_nonpos hneg.le _) ?_)
    rw [hlength]
    rfl

end LineBuffer

/-- **What the loop returns** on a line without zero bytes. -/
lemma fileReadLineLoop_eq {rounds : ℕ} {b : LineBuffer} (h : b.Whole)
    (hrounds : b.file.length < rounds) : fileReadLineLoop rounds b = some b.result := by
  induction rounds generalizing b with
  | zero => exact absurd hrounds (Nat.not_lt_zero _)
  | succ rounds ih =>
    rw [fileReadLineLoop]
    rcases LineBuffer.round_cases h with hround | ⟨b', hround, hwhole, hresult⟩
    · rw [hround]
    · have hlt := (LineBuffer.sized_of_follows h.sized hround).2
      rw [hround]
      exact (ih hwhole (by omega)).trans (congrArg some hresult)

/-- **`file_read_line` reads what a single `fgets` reads into 2³¹ bytes**, and removes the
newline. -/
theorem fileReadLine_eq {file : List UInt8} (hzero : 0 ∉ fgetsBytes 2147483647 file) :
    fileReadLine file =
      (if file = [] then none else some (withoutNewline (fgetsBytes 2147483647 file)),
        file.drop (fgetsBytes 2147483647 file).length) := by
  have hwhole : (LineBuffer.start file).Whole :=
    ⟨LineBuffer.sized_start file, .inr (.inl ⟨rfl, rfl⟩), by simp [LineBuffer.start], hzero⟩
  rw [fileReadLine, fileReadLineLoop_eq hwhole (show file.length < file.length + 1 by omega),
    Option.getD_some]
  have hempty : fgetsBytes 2147483647 file = [] ↔ file = [] := by
    refine ⟨fun h => ?_, fun h => ?_⟩
    · by_contra hne
      exact fgetsBytes_ne_nil (by omega) hne h
    · rw [h]
      rfl
  simp only [LineBuffer.result, LineBuffer.start, List.nil_append, List.length_nil, Nat.sub_zero,
    hempty]

/-! ## A file that starts with a line -/

/-- The file starts with the line: it is ended by a newline, or by the end of the file if it has
characters. -/
def StartsWithLine (line file rest : List UInt8) : Prop :=
  0 ∉ line ∧ NEWLINE ∉ line ∧
    (file = line ++ NEWLINE :: rest ∨ line ≠ [] ∧ file = line ∧ rest = [])

/-- A byte of a line is kept or is its end. -/
lemma mem_withoutNewline_or {read : List UInt8} {b : UInt8} (hb : b ∈ read) :
    b ∈ withoutNewline read ∨ b = NEWLINE := by
  rw [withoutNewline]
  split
  · rename_i hlast
    obtain ⟨part, rfl⟩ : ∃ part, read = part ++ [NEWLINE] := List.getLast?_eq_some_iff.1 hlast
    rwa [List.dropLast_concat, ← List.mem_singleton, ← List.mem_append]
  · exact .inl hb

/-- A call reads as much of a line as it may. -/
lemma withoutNewline_fgetsBytes (n : ℕ) {line tail : List UInt8} (hline : NEWLINE ∉ line)
    (htail : tail = [] ∨ tail.head? = some NEWLINE) :
    withoutNewline (fgetsBytes n (line ++ tail)) = line.take n := by
  have hkept : ∀ part, NEWLINE ∉ part → withoutNewline part = part :=
    fun part hpart => if_neg fun h => hpart (List.mem_of_getLast? h)
  rcases Nat.lt_or_ge line.length n with hlt | hge
  · rw [List.take_of_length_le hlt.le]
    rcases htail with rfl | htail
    · rw [List.append_nil, fgetsBytes_end hline hlt.le, hkept line hline]
    · obtain ⟨rest, rfl⟩ : ∃ rest, tail = NEWLINE :: rest := List.head?_eq_some_iff.1 htail
      rw [fgetsBytes_newline hline hlt, withoutNewline, List.getLast?_concat, if_pos rfl,
        List.dropLast_concat]
  · rw [fgetsBytes_of_le hline hge]
    exact hkept _ fun h => hline (List.mem_of_mem_take h)

/-- What is returned of a line. -/
lemma fileReadLine_of_startsWithLine {line file rest : List UInt8}
    (h : StartsWithLine line file rest) : (fileReadLine file).1 = some (line.take 2147483647) := by
  obtain ⟨hzero, hline, hfile⟩ := h
  obtain ⟨tail, rfl, htail⟩ : ∃ tail, file = line ++ tail ∧
      (tail = [] ∨ tail.head? = some NEWLINE) := by
    rcases hfile with rfl | ⟨-, rfl, rfl⟩
    · exact ⟨_, rfl, .inr rfl⟩
    · exact ⟨[], (List.append_nil _).symm, .inl rfl⟩
  have hne : line ++ tail ≠ [] := by
    rcases hfile with heq | ⟨hne, -⟩
    · simp [heq]
    · simp [hne]
  have hread : 0 ∉ fgetsBytes 2147483647 (line ++ tail) := by
    intro hmem
    rcases mem_withoutNewline_or hmem with hmem | hmem
    · rw [withoutNewline_fgetsBytes _ hline htail] at hmem
      exact hzero (List.mem_of_mem_take hmem)
    · exact absurd hmem (by decide)
  rw [fileReadLine_eq hread, if_neg hne, withoutNewline_fgetsBytes _ hline htail]

end OsSimulator
