import Mathlib.Data.List.DropRight
import OsSimulator.Utils.Dictionary
import OsSimulator.Utils.Lines

set_option relaxedAutoImplicit false
set_option autoImplicit false

/-!
# The configuration file

`utils/config.c` with the functions of `utils/string.c` that it uses: a file of lines `key=value`,
with blank lines and comments between them and blanks anywhere around keys and values. A value may
be an array, `[a, b, c]`. A text is the bytes of a C string.

## Main definitions

* `stringTrim`, `stringGetStringAsArray` — the functions on texts.
* `configLoadLine`, `configCreate`, `configGetArrayValue` — the functions on configurations.
* `ConfigLine` — what somebody may write into a line.

## Main results

* `configGet_configCreate` — what has been written is read, the last line that sets a key counts,
  and an array is read as its elements.
-/

namespace OsSimulator

/-! ## Texts -/

/-- `isspace`, of a byte. -/
def isSpaceByte (b : UInt8) : Bool := b == 32 || (9 ≤ b && b ≤ 13)

/-- `string_trim`. -/
def stringTrim (text : List UInt8) : List UInt8 :=
  (text.dropWhile isSpaceByte).rdropWhile isSpaceByte

/-- The byte between the elements of an array. -/
def COMMA : UInt8 := 44

/-- The byte between key and value. -/
def SEPARATOR : UInt8 := 61

/-- The byte a comment starts with. -/
def COMMENT : UInt8 := 35

/-- `string_get_string_as_array`: what is between the first and the last byte, split at the
commas. -/
def stringGetStringAsArray : Option (List UInt8) → List (List UInt8)
  | none => []
  | some text =>
    let inner := (text.drop 1).take (text.length - 2)
    if inner = [] then [] else (inner.splitOn COMMA).map stringTrim

/-- Nothing but blanks. -/
def Blank (text : List UInt8) : Prop := ∀ b ∈ text, isSpaceByte b = true

instance (text : List UInt8) : Decidable (Blank text) := List.decidableBAll _ _

/-- Blanks in front are skipped. -/
lemma dropWhile_blank {text : List UInt8} (h : Blank text) (rest : List UInt8) :
    (text ++ rest).dropWhile isSpaceByte = rest.dropWhile isSpaceByte :=
  List.dropWhile_append_of_pos h

/-- Blanks at the end are skipped. -/
lemma rdropWhile_blank {text : List UInt8} (h : Blank text) (rest : List UInt8) :
    (rest ++ text).rdropWhile isSpaceByte = rest.rdropWhile isSpaceByte := by
  rw [List.rdropWhile, List.reverse_append,
    List.dropWhile_append_of_pos fun b hb => h b (List.mem_reverse.1 hb), List.rdropWhile]

/-- **Blanks around a text** are trimmed. -/
lemma stringTrim_blank {left right : List UInt8} (hleft : Blank left) (hright : Blank right)
    (text : List UInt8) : stringTrim (left ++ text ++ right) = stringTrim text := by
  rw [stringTrim, List.append_assoc, dropWhile_blank hleft, List.dropWhile_append]
  split
  · rename_i hempty
    rw [stringTrim, List.isEmpty_iff.1 hempty]
    have hnothing : right.dropWhile isSpaceByte = [] := by
      rw [List.dropWhile_eq_nil_iff]
      exact hright
    rw [hnothing]
  · exact rdropWhile_blank hright _

/-- What is trimmed behind is trimmed no further by being trimmed there again. -/
lemma stringTrim_rdropWhile (text : List UInt8) :
    stringTrim (text.rdropWhile isSpaceByte) = stringTrim text := by
  have hright : Blank (text.rtakeWhile isSpaceByte) := fun b hb => List.mem_rtakeWhile_imp hb
  have hnil : Blank [] := fun b hb => absurd hb List.not_mem_nil
  have htrim := stringTrim_blank hnil hright (text.rdropWhile isSpaceByte)
  rw [List.nil_append, List.rdropWhile_append_rtakeWhile] at htrim
  exact htrim.symm

/-- Of blanks nothing is left. -/
lemma stringTrim_of_blank {text : List UInt8} (h : Blank text) : stringTrim text = [] := by
  rw [stringTrim, List.dropWhile_eq_nil_iff.2 h]
  rfl

/-- Trimming around a byte that is no blank is done on both sides of it. -/
lemma stringTrim_append_cons {b : UInt8} (h : isSpaceByte b = false) (left right : List UInt8) :
    stringTrim (left ++ b :: right) =
      left.dropWhile isSpaceByte ++ b :: right.rdropWhile isSpaceByte := by
  have hcons (l : List UInt8) :
      (l ++ b :: right).rdropWhile isSpaceByte = l ++ b :: right.rdropWhile isSpaceByte := by
    rw [List.rdropWhile, List.reverse_append, List.reverse_cons, List.append_assoc,
      List.dropWhile_append]
    split
    · rename_i hempty
      have hnothing : right.rdropWhile isSpaceByte = [] := by
        rw [List.rdropWhile, List.isEmpty_iff.1 hempty, List.reverse_nil]
      simp [hnothing, h]
    · simp [List.rdropWhile]
  rw [stringTrim, List.dropWhile_append]
  split
  · rename_i hempty
    rw [List.isEmpty_iff.1 hempty, List.nil_append, List.dropWhile_cons_of_neg (by simp [h])]
    simpa using hcons []
  · exact hcons _

/-! ## Configurations -/

/-- `config_load_line`. -/
def configLoadLine (line : List UInt8) (properties : Dictionary (List UInt8)) :
    Dictionary (List UInt8) :=
  let trimmed := stringTrim line
  if trimmed = [] ∨ trimmed.head? = some COMMENT then properties
  else if SEPARATOR ∉ trimmed then properties
  else
    let key := trimmed.takeWhile (· ≠ SEPARATOR)
    let value := (trimmed.dropWhile (· ≠ SEPARATOR)).drop 1
    properties.put (stringTrim key) (some (stringTrim value))

/-- The loop of `config_create`, for so many lines at most, with the function that reads a line. -/
def configLoad (readLine : List UInt8 → Option (List UInt8) × List UInt8) :
    ℕ → List UInt8 → Dictionary (List UInt8) → Dictionary (List UInt8)
  | 0, _, properties => properties
  | rounds + 1, file, properties =>
    match readLine file with
    | (none, _) => properties
    | (some line, rest) => configLoad readLine rounds rest (configLoadLine line properties)

/-- `config_create`, of a file that can be opened: a file has no more lines than bytes. -/
def configCreate (file : List UInt8) : Dictionary (List UInt8) :=
  configLoad fileReadLine (file.length + 1) file dictionaryCreate

/-- `config_get_string_value`. -/
def configGetStringValue (properties : Dictionary (List UInt8)) (key : List UInt8) :
    Option (List UInt8) := properties.get key

/-- `config_get_array_value`. -/
def configGetArrayValue (properties : Dictionary (List UInt8)) (key : List UInt8) :
    List (List UInt8) := stringGetStringAsArray (configGetStringValue properties key)

/-! ## Reading the lines -/

/-- What the next call leaves of the file. -/
lemma remaining_succ (calls : ℕ) (file : List UInt8) :
    remaining (calls + 1) file = (fileReadLine (remaining calls file)).2 := by
  induction calls generalizing file with
  | zero => rw [remaining.eq_2, remaining.eq_1, remaining.eq_1]
  | succ calls ih => rw [remaining.eq_2, ih, remaining.eq_2]

/-- A round of the loop that reads a line. -/
lemma configLoad_of_some {readLine : List UInt8 → Option (List UInt8) × List UInt8}
    {file line : List UInt8} (h : (readLine file).1 = some line) (rounds : ℕ)
    (properties : Dictionary (List UInt8)) :
    configLoad readLine (rounds + 1) file properties =
      configLoad readLine rounds (readLine file).2 (configLoadLine line properties) := by
  rw [configLoad, show readLine file = (some line, (readLine file).2) from Prod.ext h rfl]

/-- The round at the end of the file. -/
lemma configLoad_of_none {readLine : List UInt8 → Option (List UInt8) × List UInt8}
    {file : List UInt8} (h : (readLine file).1 = none) (rounds : ℕ)
    (properties : Dictionary (List UInt8)) :
    configLoad readLine (rounds + 1) file properties = properties := by
  rw [configLoad, show readLine file = (none, (readLine file).2) from Prod.ext h rfl]

/-- **The loop loads the lines of the file**, one after another. -/
lemma configLoad_remaining {file : List UInt8} (h : ReadByLines file) (rounds calls : ℕ)
    (hrounds : (fileLines file).length < calls + rounds) (properties : Dictionary (List UInt8)) :
    configLoad fileReadLine rounds (remaining calls file) properties =
      ((fileLines file).drop calls).foldl (fun properties line => configLoadLine line properties)
        properties := by
  induction rounds generalizing calls properties with
  | zero =>
    have hlength : (fileLines file).length ≤ calls := by omega
    rw [List.drop_eq_nil_of_le hlength, List.foldl_nil, configLoad]
  | succ rounds ih =>
    by_cases hlt : calls < (fileLines file).length
    · have hline := (h.returned calls).trans (List.getElem?_eq_getElem hlt)
      rw [configLoad_of_some hline, ← remaining_succ, ih (calls + 1) (by omega),
        List.drop_eq_getElem_cons hlt, List.foldl_cons]
    · have hlength : (fileLines file).length ≤ calls := by omega
      have hline := (h.returned calls).trans (List.getElem?_eq_none hlength)
      rw [configLoad_of_none hline, List.drop_eq_nil_of_le hlength, List.foldl_nil]

/-! ## Writing a configuration -/

/-- A line of a configuration file as somebody may write it: blank, a comment, or a key and its
value, with blanks around each. -/
inductive ConfigLine
  | blank (blanks : List UInt8)
  | comment (blanks text : List UInt8)
  | setting (left key middle right value rest : List UInt8)
  deriving DecidableEq, Repr

namespace ConfigLine

/-- The bytes of the line. -/
def bytes : ConfigLine → List UInt8
  | blank blanks => blanks
  | comment blanks text => blanks ++ COMMENT :: text
  | setting left key middle right value rest =>
    (left ++ key ++ middle) ++ SEPARATOR :: (right ++ value ++ rest)

/-- What the line sets. -/
def setting? : ConfigLine → Option (List UInt8 × List UInt8)
  | setting _ key _ _ value _ => some (key, value)
  | _ => none

/-- Blanks are blanks; a key is there, begins as no comment does, and has no separator; key and
value neither begin nor end with blanks. -/
def WellFormed : ConfigLine → Prop
  | blank blanks => Blank blanks
  | comment blanks _ => Blank blanks
  | setting left key middle right value rest =>
    Blank left ∧ Blank middle ∧ Blank right ∧ Blank rest ∧ key ≠ [] ∧ key.head? ≠ some COMMENT ∧
      SEPARATOR ∉ key ∧ stringTrim key = key ∧ stringTrim value = value

instance : ∀ line : ConfigLine, Decidable line.WellFormed
  | blank blanks => inferInstanceAs (Decidable (Blank blanks))
  | comment blanks _ => inferInstanceAs (Decidable (Blank blanks))
  | setting _ _ _ _ _ _ => inferInstanceAs (Decidable (_ ∧ _))

/-- The line is one of a text file: it has no newline, no zero byte, and fewer than 2³¹ − 1
bytes. -/
def Fits (line : ConfigLine) : Prop :=
  NEWLINE ∉ line.bytes ∧ 0 ∉ line.bytes ∧ line.bytes.length < 2147483647

instance (line : ConfigLine) : Decidable line.Fits := inferInstanceAs (Decidable (_ ∧ _))

end ConfigLine

/-- The file of these lines. -/
def configText (lines : List ConfigLine) : List UInt8 :=
  lines.flatMap fun line => line.bytes ++ [NEWLINE]

/-- Blanks have no separator among them. -/
lemma separator_not_blank {text : List UInt8} (h : Blank text) : SEPARATOR ∉ text := fun hmem =>
  absurd (h SEPARATOR hmem) (by decide)

/-- A text that is not trimmed further begins with no blank. -/
lemma dropWhile_of_trimmed {text : List UInt8} (h : stringTrim text = text) :
    text.dropWhile isSpaceByte = text := by
  refine (List.dropWhile_suffix _).sublist.eq_of_length_le ?_
  have hle := (List.rdropWhile_prefix isSpaceByte (text.dropWhile isSpaceByte)).length_le
  rw [← stringTrim, h] at hle
  exact hle

/-- **A line is loaded as it was written.** -/
lemma configLoadLine_bytes {line : ConfigLine} (h : line.WellFormed)
    (properties : Dictionary (List UInt8)) :
    configLoadLine line.bytes properties =
      match line.setting? with
      | some (key, value) => properties.put key (some value)
      | none => properties := by
  cases line with
  | blank blanks =>
    simp only [configLoadLine, ConfigLine.bytes, ConfigLine.setting?, stringTrim_of_blank h,
      true_or, if_true]
  | comment blanks text =>
    have htrim : stringTrim (blanks ++ COMMENT :: text) =
        COMMENT :: text.rdropWhile isSpaceByte := by
      rw [stringTrim_append_cons (by decide), List.dropWhile_eq_nil_iff.2 h, List.nil_append]
    simp only [configLoadLine, ConfigLine.bytes, ConfigLine.setting?, htrim, List.head?_cons,
      or_true, if_true]
  | setting left key middle right value rest =>
    obtain ⟨hleft, hmiddle, hright, hrest, hne, hcomment, hkey, htrimKey, htrimValue⟩ := h
    have htrim : stringTrim ((left ++ key ++ middle) ++ SEPARATOR :: (right ++ value ++ rest)) =
        (key ++ middle) ++ SEPARATOR :: (right ++ value ++ rest).rdropWhile isSpaceByte := by
      rw [stringTrim_append_cons (by decide), List.append_assoc left, dropWhile_blank hleft,
        List.dropWhile_append, dropWhile_of_trimmed htrimKey, if_neg (by simpa using hne)]
    have hfront : ∀ b ∈ key ++ middle, decide (b ≠ SEPARATOR) = true := by
      intro b hb
      rw [decide_eq_true_eq]
      rintro rfl
      rcases List.mem_append.1 hb with hb | hb
      · exact hkey hb
      · exact separator_not_blank hmiddle hb
    have htake : ∀ back, ((key ++ middle) ++ SEPARATOR :: back).takeWhile (· ≠ SEPARATOR) =
        key ++ middle := by
      intro back
      rw [List.takeWhile_append_of_pos hfront, List.takeWhile_cons_of_neg (by simp),
        List.append_nil]
    have hdrop : ∀ back, ((key ++ middle) ++ SEPARATOR :: back).dropWhile (· ≠ SEPARATOR) =
        SEPARATOR :: back := by
      intro back
      rw [List.dropWhile_append_of_pos hfront, List.dropWhile_cons_of_neg (by simp)]
    have hhead : ∀ back, ((key ++ middle) ++ back).head? = key.head? := by
      intro back
      rw [List.append_assoc, List.head?_append_of_ne_nil _ hne]
    have hnil : Blank [] := fun b hb => absurd hb List.not_mem_nil
    have hkeyTrim : stringTrim (key ++ middle) = key := by
      have hpad := stringTrim_blank hnil hmiddle key
      rwa [List.nil_append, htrimKey] at hpad
    simp only [configLoadLine, ConfigLine.bytes, ConfigLine.setting?, htrim, hhead, htake, hdrop]
    rw [if_neg (by simp [hne, hcomment]), if_neg (by simp), List.drop_one, List.tail_cons, hkeyTrim,
      stringTrim_rdropWhile, stringTrim_blank hright hrest, htrimValue]

/-- The lines of the file are those that were written. -/
lemma fileLines_configText {lines : List ConfigLine} (h : ∀ line ∈ lines, line.Fits) :
    fileLines (configText lines) = lines.map ConfigLine.bytes := by
  induction lines with
  | nil => rfl
  | cons line lines ih =>
    obtain ⟨hline, hlines⟩ := List.forall_mem_cons.1 h
    rw [configText, List.flatMap_cons, List.append_assoc, List.singleton_append,
      fileLines_line_append hline.1, ← configText, ih hlines, List.map_cons]

/-- A file of lines that fit is read line by line. -/
lemma readByLines_configText {lines : List ConfigLine} (h : ∀ line ∈ lines, line.Fits) :
    ReadByLines (configText lines) := by
  have hzero : 0 ∉ configText lines := by
    intro hmem
    obtain ⟨line, hline, hin⟩ := List.mem_flatMap.1 hmem
    rcases List.mem_append.1 hin with hin | hin
    · exact (h line hline).2.1 hin
    · exact absurd hin (by decide)
  rw [readByLines_iff hzero]
  induction lines with
  | nil =>
    rw [configText, List.flatMap_nil, linesWithin_line List.not_mem_nil]
    exact Nat.zero_le _
  | cons line lines ih =>
    obtain ⟨hline, hlines⟩ := List.forall_mem_cons.1 h
    have hcons : configText (line :: lines) = line.bytes ++ NEWLINE :: configText lines := by
      rw [configText, List.flatMap_cons, List.append_assoc, List.singleton_append, ← configText]
    rw [hcons] at hzero ⊢
    rw [linesWithin_line_append hline.1]
    refine ⟨hline.2.2, ih hlines fun hmem => hzero ?_⟩
    exact List.mem_append_right _ (List.mem_cons_of_mem _ hmem)

/-- Every line has at least a byte, its end. -/
lemma length_le_length_configText (lines : List ConfigLine) :
    lines.length ≤ (configText lines).length := by
  induction lines with
  | nil => exact Nat.zero_le _
  | cons line lines ih =>
    rw [configText, List.flatMap_cons, ← configText, List.length_append, List.length_append,
      List.length_cons, List.length_singleton]
    omega

/-- What the lines set, the last one first, as the dictionary has it. -/
def settings (lines : List ConfigLine) : List (List UInt8 × Option (List UInt8)) :=
  (lines.filterMap ConfigLine.setting?).reverse.map fun setting => (setting.1, some setting.2)

/-- **The dictionary is what the lines set.** -/
lemma represents_foldl {lines : List ConfigLine} (h : ∀ line ∈ lines, line.WellFormed)
    {properties : Dictionary (List UInt8)} {history : List (List UInt8 × Option (List UInt8))}
    (hproperties : properties.Represents history) :
    ((lines.map ConfigLine.bytes).foldl (fun properties line => configLoadLine line properties)
      properties).Represents (settings lines ++ history) := by
  induction lines generalizing properties history with
  | nil => exact hproperties
  | cons line lines ih =>
    obtain ⟨hline, hlines⟩ := List.forall_mem_cons.1 h
    rw [List.map_cons, List.foldl_cons, configLoadLine_bytes hline]
    cases hset : line.setting? with
    | none =>
      have hsame : settings (line :: lines) = settings lines := by
        simp only [settings, List.filterMap_cons, hset]
      rw [hsame]
      exact ih hlines hproperties
    | some setting =>
      obtain ⟨key, value⟩ := setting
      have hmore : settings (line :: lines) = settings lines ++ [(key, some value)] := by
        simp only [settings, List.filterMap_cons, hset, List.reverse_cons, List.map_append,
          List.map_cons, List.map_nil]
      rw [hmore, List.append_assoc, List.singleton_append]
      exact ih hlines (Dictionary.represents_put hproperties key (some value))

/-- The values do not matter for the search. -/
lemma lookup_map_some (key : List UInt8) (l : List (List UInt8 × List UInt8)) :
    (l.map fun setting => (setting.1, some setting.2)).lookup key = (l.lookup key).map some := by
  induction l with
  | nil => rfl
  | cons setting l ih =>
    rw [List.map_cons, List.lookup_cons, List.lookup_cons, ih]
    cases key == setting.1 <;> rfl

/-! ## Arrays -/

/-- An element of an array, with the blanks around it. -/
structure ArrayElement where
  left : List UInt8
  value : List UInt8
  right : List UInt8
  deriving DecidableEq, Repr

namespace ArrayElement

/-- The bytes of the element. -/
def bytes (element : ArrayElement) : List UInt8 := element.left ++ element.value ++ element.right

/-- The element has no comma, and neither begins nor ends with blanks. -/
def WellFormed (element : ArrayElement) : Prop :=
  Blank element.left ∧ Blank element.right ∧ COMMA ∉ element.value ∧
    stringTrim element.value = element.value

end ArrayElement

instance (element : ArrayElement) : Decidable element.WellFormed :=
  inferInstanceAs (Decidable (_ ∧ _))

/-- The array of these elements. -/
def arrayText (elements : List ArrayElement) : List UInt8 :=
  91 :: [COMMA].intercalate (elements.map ArrayElement.bytes) ++ [93]

/-- An element has no comma in it. -/
lemma comma_not_mem_bytes {element : ArrayElement} (h : element.WellFormed) :
    COMMA ∉ element.bytes := by
  obtain ⟨hleft, hright, hvalue, -⟩ := h
  intro hmem
  rcases List.mem_append.1 hmem with hmem | hmem
  · rcases List.mem_append.1 hmem with hmem | hmem
    · exact absurd (hleft _ hmem) (by decide)
    · exact hvalue hmem
  · exact absurd (hright _ hmem) (by decide)

/-- **An array is read as its elements**, unless it has nothing between its brackets though it has
an element. -/
lemma stringGetStringAsArray_arrayText {elements : List ArrayElement}
    (h : ∀ element ∈ elements, element.WellFormed) (hne : elements ≠ [⟨[], [], []⟩]) :
    stringGetStringAsArray (some (arrayText elements)) = elements.map ArrayElement.value := by
  have hinner : ((arrayText elements).drop 1).take ((arrayText elements).length - 2) =
      [COMMA].intercalate (elements.map ArrayElement.bytes) := by
    simp [arrayText]
  have htrim : ∀ element ∈ elements, stringTrim element.bytes = element.value := by
    intro element helement
    obtain ⟨hleft, hright, -, hvalue⟩ := h element helement
    rw [ArrayElement.bytes, stringTrim_blank hleft hright, hvalue]
  simp only [stringGetStringAsArray, hinner]
  cases elements with
  | nil => rfl
  | cons element elements =>
    have hnonempty : [COMMA].intercalate ((element :: elements).map ArrayElement.bytes) ≠ [] := by
      intro hnil
      rw [List.intercalate, List.flatten_eq_nil_iff] at hnil
      cases elements with
      | nil =>
        have hbytes : element.bytes = [] := hnil _ (by simp)
        simp only [ArrayElement.bytes, List.append_eq_nil_iff] at hbytes
        obtain ⟨left, value, right⟩ := element
        obtain ⟨⟨rfl, rfl⟩, rfl⟩ := hbytes
        exact hne rfl
      | cons _ _ => exact absurd (hnil [COMMA] (by simp)) (by simp)
    rw [if_neg hnonempty, List.splitOn_intercalate]
    · rw [List.map_map]
      exact List.map_congr_left htrim
    · intro bytes hbytes
      obtain ⟨element', helement, rfl⟩ := List.mem_map.1 hbytes
      exact comma_not_mem_bytes (h element' helement)
    · simp

/-- **A configuration is read as it was written.** Whatever lines are put into the file, with blanks
around keys and values, blank lines and comments: the value of a key is the one that the last line
with this key gives it, and there is none where no line does; and where the value is an array,
`config_get_array_value` gives its elements, without the blanks around them.

**Proof sketch.** `file_read_line` gives back the lines, as none is too long (`readByLines_iff`).
Each line is loaded as it was written, and the dictionary is the map that its puts make. -/
theorem configGet_configCreate {lines : List ConfigLine}
    (h : ∀ line ∈ lines, line.WellFormed ∧ line.Fits) (key : List UInt8) :
    configGetStringValue (configCreate (configText lines)) key =
        (lines.filterMap ConfigLine.setting?).reverse.lookup key ∧
      ∀ elements : List ArrayElement, (∀ element ∈ elements, element.WellFormed) →
        elements ≠ [⟨[], [], []⟩] →
        (lines.filterMap ConfigLine.setting?).reverse.lookup key = some (arrayText elements) →
        configGetArrayValue (configCreate (configText lines)) key =
          elements.map ArrayElement.value := by
  have hfits : ∀ line ∈ lines, line.Fits := fun line hline => (h line hline).2
  have hlength : (fileLines (configText lines)).length < 0 + ((configText lines).length + 1) := by
    have hle := length_le_length_configText lines
    rw [fileLines_configText hfits, List.length_map]
    omega
  have hloaded := configLoad_remaining (readByLines_configText hfits) _ 0 hlength dictionaryCreate
  rw [remaining.eq_1, ← configCreate, List.drop_zero, fileLines_configText hfits] at hloaded
  have hrepresents := represents_foldl (fun line hline => (h line hline).1)
    (Dictionary.represents_create : (dictionaryCreate : Dictionary (List UInt8)).Represents [])
  rw [← hloaded, List.append_nil] at hrepresents
  have hget : configGetStringValue (configCreate (configText lines)) key =
      (lines.filterMap ConfigLine.setting?).reverse.lookup key := by
    rw [configGetStringValue, hrepresents.get_eq, settings, lookup_map_some]
    cases (lines.filterMap ConfigLine.setting?).reverse.lookup key <;> rfl
  refine ⟨hget, fun elements helements hne hlookup => ?_⟩
  rw [configGetArrayValue, hget, hlookup, stringGetStringAsArray_arrayText helements hne]

/-- A key is set twice, the second time to an array of two elements. -/
def twoSettings : List ConfigLine :=
  [.comment [32] [65], .setting [] [75] [32] [32] [49] [], .blank [],
    .setting [9] [75] [] [] (arrayText [⟨[], [65], []⟩, ⟨[32], [66], []⟩]) [32]]

/-- The second setting counts. -/
theorem configGet_configCreate_twoSettings :
    configGetArrayValue (configCreate (configText twoSettings)) [75] = [[65], [66]] :=
  (configGet_configCreate (by decide) [75]).2 [⟨[], [65], []⟩, ⟨[32], [66], []⟩] (by decide)
    (by decide) (by decide)

end OsSimulator
