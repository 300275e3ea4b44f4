import OsSimulator.Utils.CInt

set_option relaxedAutoImplicit false
set_option autoImplicit false

/-!
# C strings

The conversion of a text to a number.

## Main definitions

* `atoi` — the function of the C library.
* `integer` — the number that a numeral stands for.

## Main results

* `atoi_of_integer` — `atoi` reads numerals.
-/

namespace OsSimulator

/-- `isspace`. -/
def isSpace (c : Char) : Bool := c == ' ' || ('\t' ≤ c && c ≤ '\r')

/-- The number that the digits at the start of a text stand for, behind `value`. -/
def digits (value : ℕ) : List Char → ℕ
  | [] => value
  | c :: rest => if c.isDigit then digits (10 * value + (c.toNat - '0'.toNat)) rest else value

/-- `strtol` in base ten: a number out of range becomes the limit of a `long`. -/
def strtol (text : String) : ℤ :=
  let value : ℤ :=
    match text.toList.dropWhile isSpace with
    | '-' :: rest => -digits 0 rest
    | '+' :: rest => digits 0 rest
    | rest => digits 0 rest
  max (-9223372036854775808) (min value 9223372036854775807)

/-- `atoi`. -/
def atoi (text : String) : ℤ := i32 (strtol text)

example : atoi "-12ab" = -12 := by decide +kernel

/-! ## Numerals -/

/-- The number that a text of decimal digits stands for. -/
def natural (text : List Char) : Option ℕ :=
  if text ≠ [] ∧ text.all Char.isDigit then
    some (text.foldl (fun value c => 10 * value + (c.toNat - '0'.toNat)) 0)
  else none

/-- The number that a numeral stands for: digits, perhaps behind a sign. -/
def integer (text : String) : Option ℤ :=
  match text.toList with
  | '-' :: rest => (natural rest).map fun n : ℕ => -(n : ℤ)
  | '+' :: rest => (natural rest).map fun n : ℕ => (n : ℤ)
  | rest => (natural rest).map fun n : ℕ => (n : ℤ)

/-- The digits of a number are read as that number. -/
lemma digits_of_natural {text : List Char} {n : ℕ} (h : natural text = some n) :
    digits 0 text = n := by
  unfold natural at h
  split at h
  · rename_i hdigits
    obtain rfl := Option.some.inj h
    have hall := List.all_eq_true.1 hdigits.2
    clear hdigits h
    generalize 0 = value
    induction text generalizing value with
    | nil => rfl
    | cons c rest ih =>
      obtain ⟨hc, hrest⟩ := List.forall_mem_cons.1 hall
      rw [digits, if_pos hc, List.foldl_cons]
      exact ih hrest _
  · simp at h

/-- A digit is no space. -/
lemma isSpace_of_isDigit {c : Char} (h : c.isDigit = true) : isSpace c = false := by
  have hdigit : 48 ≤ c.val.toNat := by
    simp only [Char.isDigit, Bool.and_eq_true, decide_eq_true_eq, ge_iff_le] at h
    exact UInt32.le_iff_toNat_le.1 h.1
  have hspace : c ≠ ' ' := by
    rintro rfl
    exact absurd hdigit (by decide)
  have hreturn : ¬ c ≤ '\r' := by
    intro hle
    have hval : c.val.toNat ≤ 13 := UInt32.le_iff_toNat_le.1 hle
    omega
  simp [isSpace, hspace, hreturn]

/-- A numeral within a `long` is read as `atoi` reads it. -/
lemma atoi_of_integer {text : String} {x : ℤ} (h : integer text = some x)
    (hmin : -9223372036854775808 ≤ x) (hmax : x ≤ 9223372036854775807) : atoi text = i32 x := by
  have hlimits : max (-9223372036854775808) (min x 9223372036854775807) = x := by omega
  suffices hvalue : strtol text = max (-9223372036854775808) (min x 9223372036854775807) by
    rw [atoi, hvalue, hlimits]
  unfold integer at h
  unfold strtol
  generalize text.toList = chars at h
  split at h
  · obtain ⟨n, hn, rfl⟩ := Option.map_eq_some_iff.1 h
    rw [List.dropWhile_cons_of_neg (by decide)]
    simp only [digits_of_natural hn]
  · obtain ⟨n, hn, rfl⟩ := Option.map_eq_some_iff.1 h
    rw [List.dropWhile_cons_of_neg (by decide)]
    simp only [digits_of_natural hn]
  · rename_i hminus hplus
    obtain ⟨n, hn, rfl⟩ := Option.map_eq_some_iff.1 h
    have hdrop : chars.dropWhile isSpace = chars := by
      cases chars with
      | nil => rfl
      | cons c rest =>
        unfold natural at hn
        split at hn
        · rename_i hdigits
          have hc := isSpace_of_isDigit (List.all_eq_true.1 hdigits.2 c List.mem_cons_self)
          rw [List.dropWhile_cons_of_neg (by simp [hc])]
        · simp at hn
    rw [hdrop]
    dsimp only
    split
    · exact absurd rfl (hminus _)
    · exact absurd rfl (hplus _)
    · rw [digits_of_natural hn]

end OsSimulator
